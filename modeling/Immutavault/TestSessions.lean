import Immutavault.TestOutcomes

/-!
# Sessions of recovery tests

The portal, the command line and the manager of recovery tests work on the same rows. A
session is any sequence of their operations; each of them may break off after any number
of its commands, and the next one then meets the rows as they were left.

In every state of every session the successful requests of tests stand for completed
tests, as long as no machine of a test was created. When the operations go through, that
is also the only way: the first machine of a test that is created is followed by a state
in which its request is a success, with nothing switched on since it was started.
-/

namespace Immutavault.TestSessions

open Programs Values Timestamps Catalog Machine Configuration StateDatabase Adapters
open ResticRepository RestoreEngine Management RecoveryTests Histories RequestRows
open TestIsolation TestOutcomes

/-- What the portal, the command line and the manager of tests do to requests. -/
inductive Operation
  | portalRequest (snapshot_id requester target_platform : String) (target_name : Option String)
    (options : Dict)
  | portalExecute (request_id : Nat) (actor : String)
  | request (snapshot_id requester target_platform : String) (target_name : Option String)
    (options : Dict)
  | execute (request_id : Nat) (actor : String) (dry_run : Bool)
  | testRequest (snapshot_id requester target_platform network source_repository : String)
    (target_name : Option String)
  | testExecute (request_id : Nat) (actor : String)
  | approve (request_id : Nat) (approver : String)

section Programs

variable (managed : ManagedRecoveryEngine)

/-- The manager of tests with the same configuration. -/
def manager : RecoveryTestManager := ⟨managed.cfg, managed.getenv⟩

/-- An operation by the engine that serves it. -/
def Operation.program : Operation → Prog Unit
  | .portalRequest snapshot_id requester target_platform target_name options => do
    let _ ← managed.requestRestore snapshot_id requester target_platform target_name options
    return ()
  | .portalExecute request_id actor => do
    let _ ← managed.executeRestore request_id actor false
    return ()
  | .request snapshot_id requester target_platform target_name options => do
    let _ ← managed.super.requestRestore snapshot_id requester target_platform target_name options
    return ()
  | .execute request_id actor dry_run => do
    let _ ← managed.super.executeRestore request_id actor dry_run
    return ()
  | .testRequest snapshot_id requester target_platform network source_repository target_name => do
    let _ ← (manager managed).request snapshot_id requester target_platform network
      source_repository target_name
    return ()
  | .testExecute request_id actor => do
    let _ ← (manager managed).execute request_id actor
    return ()
  | .approve request_id approver => managed.super.approveRestore request_id approver

/-- An operation that breaks off after so many commands, or goes through. -/
def attempted (operation : Operation) : Option Nat → Prog Unit
  | none => do
    let _ ← (operation.program managed).attempt
    return ()
  | some count => do
    let _ ← (Program.interrupt count (operation.program managed)).attempt
    return ()

/-- Operations one after another, whatever becomes of each. -/
def session (operations : List (Operation × Option Nat)) : Prog Unit :=
  Program.each (fun operation => attempted managed operation.1 operation.2) operations

end Programs

section Honesty

variable {env : Environment} {managed : ManagedRecoveryEngine}

/-- Every operation is honest. -/
theorem honest_operation (operation : Operation) (world : World) :
    Honest env (operation.program managed) world := by
  cases operation with
  | portalRequest snapshot_id requester target_platform target_name options =>
    exact honest_quiet (issues_bind (quiet_managedRequest _ _ _ _ _) fun _ => issues_pure _)
  | portalExecute request_id actor =>
    exact honest_bind (honest_managedExecute _ _ _ _) fun _ _ _ => honest_quiet (issues_pure _)
  | request snapshot_id requester target_platform target_name options =>
    exact honest_quiet (issues_bind quiet_requestRestore fun _ => issues_pure _)
  | execute request_id actor dry_run =>
    exact honest_bind (honest_executeRestore _ _ _ _ _) fun _ _ _ => honest_quiet (issues_pure _)
  | testRequest snapshot_id requester target_platform network source_repository target_name =>
    exact honest_quiet (issues_bind (quiet_testRequest _ _ _ _ _ _) fun _ => issues_pure _)
  | testExecute request_id actor =>
    exact honest_bind (honest_testExecute _ _ _) fun _ _ _ => honest_quiet (issues_pure _)
  | approve request_id approver => exact honest_quiet (quiet_approveRestore _ _)

/-- What an operation does before it breaks off is backed as well. -/
theorem attempted_backed (operation : Operation) (cut : Option Nat) (world : World) :
    Throughout env (Backed world) (attempted managed operation cut) world := by
  have whole := (@honest_operation env managed operation world).backed
  cases cut with
  | none =>
    exact throughout_bind_iff.mpr ⟨throughout_attempt_iff.mpr whole, fun _ _ _ _ member =>
      absurd member List.not_mem_nil⟩
  | some count =>
    have part : Throughout env (Backed world)
        (Program.interrupt count (operation.program managed)) world := by
      intro entry member
      rw [issued_interrupt] at member
      exact whole entry (List.mem_of_mem_take member)
    exact throughout_bind_iff.mpr ⟨throughout_attempt_iff.mpr part, fun _ _ _ _ member =>
      absurd member List.not_mem_nil⟩

/-- So is everything in a session. -/
theorem session_backed (operations : List (Operation × Option Nat)) (world : World) :
    Throughout env (Backed world) (session managed operations) world := by
  induction operations generalizing world with
  | nil => exact fun entry member => absurd member List.not_mem_nil
  | cons operation rest inductionHypothesis =>
    refine throughout_bind_iff.mpr ⟨attempted_backed _ _ _, ?_⟩
    intro _ middle ran entry member
    exact (inductionHypothesis middle entry member).earlier (log_ran ran)

/-- A session whose operations go through is honest. -/
theorem session_honest (operations : List (Operation × Option Nat))
    (through : ∀ operation ∈ operations, operation.2 = none) (world : World) :
    Honest env (session managed operations) world := by
  induction operations generalizing world with
  | nil => exact honest_quiet (issues_pure _)
  | cons operation rest inductionHypothesis =>
    obtain ⟨operation, cut⟩ := operation
    obtain ⟨rfl, others⟩ := List.forall_mem_cons.mp through
    refine honest_bind ?_ fun _ middle _ => inductionHypothesis others middle
    exact honest_bind (honest_attempt (honest_operation _ _)) fun _ _ _ =>
      honest_quiet (issues_pure _)

end Honesty

section States

variable {env : Environment} {managed : ManagedRecoveryEngine} {world : World}

/-- Where no request of a test is a success, nothing is promised. -/
theorem unfinished_sound (unfinished : Unfinished world.db) : Sound managed env world :=
  fun request_id req found marked finished => absurd finished (unfinished request_id req found marked)

/-- A backed command makes no request of a test a success while no machine of one is created. -/
theorem unfinished_step {start : World} {entry : World × Command}
    (unfinished : Unfinished entry.1.db) (backed : Backed start entry)
    (uncreated : Only Uncreated start entry.1) :
    Unfinished (env.handler entry.2 entry.1).2.db := by
  obtain ⟨world, command⟩ := entry
  change Unfinished (Environment.commit world.db command)
  by_cases written : command.effect = .writing .requests
  · cases writesRequest_of_effect written with
    | inserts row =>
      intro request_id req found marked
      change (world.db.requests.insert row).lookup request_id = some req at found
      rw [Tables.Numbered.lookup_insert] at found
      split at found
      · obtain rfl := Option.some.inj found
        exact backed.inserted row rfl
      · exact unfinished request_id req found marked
    | approves changed approved_by approved_at =>
      intro request_id req found marked
      change (world.db.requests.modify changed _).lookup request_id = some req at found
      rw [Tables.Numbered.lookup_modify] at found
      split at found
      · obtain ⟨row, _, rfl⟩ := Option.map_eq_some_iff.mp found
        simp
      · exact unfinished request_id req found marked
    | starts changed started_at =>
      intro request_id req found marked
      change (world.db.requests.modify changed _).lookup request_id = some req at found
      rw [Tables.Numbered.lookup_modify] at found
      split at found
      · obtain ⟨row, _, rfl⟩ := Option.map_eq_some_iff.mp found
        simp
      · exact unfinished request_id req found marked
    | finishes changed success finished_at result error =>
      intro request_id req found marked
      change (world.db.requests.modify changed _).lookup request_id = some req at found
      rw [Tables.Numbered.lookup_modify] at found
      split at found
      · rename_i here
        obtain ⟨row, present, rfl⟩ := Option.map_eq_some_iff.mp found
        cases success with
        | false => simp
        | true =>
          -- A success would be backed by a machine that was created.
          obtain ⟨creation, since, made⟩ := backed.created changed ⟨_, _, _, rfl⟩ row
            (here ▸ present) marked
          exact absurd (uncreated.since since creation (List.mem_singleton.mpr rfl)) made
      · exact unfinished request_id req found marked
  · have same : (Environment.commit world.db command).requests = world.db.requests :=
      commit_same world.db written
    intro request_id req found
    exact unfinished request_id req (same ▸ found)

/-- As long as no machine of a test is created, no request of one becomes a success. -/
theorem session_unfinished {operations : List (Operation × Option Nat)}
    (unfinished : Unfinished world.db)
    (uncreated : Only Uncreated world (run env.handler (session managed operations) world).2) :
    ∀ passed ∈ visited env.handler (session managed operations) world, Unfinished passed.db := by
  have kept : ∀ passed ∈ visited env.handler (session managed operations) world,
      Only Uncreated world passed → Unfinished passed.db := by
    refine visited_invariant (fun _ => unfinished) ?_
    intro entry member earlier only
    have before : Only Uncreated world entry.1 :=
      only.before (log_issued member) (List.prefix_append entry.1.log _)
    exact unfinished_step (earlier before) (session_backed operations world entry member) before
  intro passed member
  obtain ⟨first, second⟩ := visited_log member
  exact kept passed member (uncreated.before first second)

/-- Switching on takes place. -/
theorem powerOn_ran {target : PlatformConfig} {getenv : Environ} {restored report : Dict}
    {after : World}
    (ran : run env.handler (powerOn target getenv restored) world = (.ok report, after)) :
    ∃ argv settings result, Succeeded world after (.power target.name true argv) settings result := by
  obtain ⟨⟨argv, settings, planned⟩, _, rest⟩ := run_raised_bind ran
  obtain ⟨result, switched, commanded, rest⟩ := (run_bind_eq_ok _).mp rest
  obtain ⟨_, rfl⟩ : planned = report ∧ switched = after := by
    simpa only [run_pure, Prod.mk.injEq, Except.ok.injEq] using rest
  exact ⟨argv, settings, result, runCommand_ran commanded⟩

/-- A completed test has switched its machine on since its request was last started. -/
theorem completed_switched {request_id : Nat} {req : RequestRow} {target : PlatformConfig}
    {network : String} {restored : Dict} {started isolated switched booted stopped : World}
    (completed : Completed managed env world request_id req target network restored started
      isolated switched booted stopped) : ¬ Unswitched request_id world.log := by
  rintro ⟨before, start, later, split, starts, unpowered⟩
  obtain ⟨⟨early, last, begun, _⟩, rest, continued, unstarted⟩ := completed.latest
  obtain ⟨isolation, entered, left, entering, isolating, leaving⟩ := completed.isolates
  obtain ⟨report, here, on, reaching, powering, behind⟩ := completed.switches
  obtain ⟨booting, stopping, ending⟩ := completed.past
  obtain ⟨argv, settings, result, since, _⟩ := powerOn_ran powering
  have first : started.log <+: here.log :=
    ((entering.trans (log_ran isolating)).trans leaving).trans reaching
  have after : on.log <+: world.log := ((behind.trans booting).trans stopping).trans ending
  obtain ⟨same, again, inside⟩ := (since.earlier first).grown after
  obtain rfl : same = rest := List.append_cancel_left (again.symm.trans continued)
  have member := inside.mem (List.mem_singleton.mpr rfl)
  -- Nothing starts the request after its last start, so that the given start is not behind it.
  rcases List.append_eq_append_iff.mp (continued.symm.trans split) with
    ⟨middle, _, tail⟩ | ⟨middle, _, tail⟩
  · exact unstarted start (tail ▸ List.mem_append_right _ List.mem_cons_self) starts
  · cases middle with
    | nil =>
      have listed : start ∈ [] ++ same := tail ▸ List.mem_cons_self
      exact unstarted start listed starts
    | cons head middle =>
      obtain ⟨_, rfl⟩ := List.cons.inj tail
      exact unpowered _ (List.mem_append_right middle member) rfl

/-- After the command that finishes the request of a test, the request breaks its word. -/
theorem unsound_finished {start : World} {entry : World × Command}
    (finishes : FinishesTest entry) (backed : Backed start entry) :
    ¬ Sound managed env (env.handler entry.2 entry.1).2 := by
  obtain ⟨world, command⟩ := entry
  obtain ⟨request_id, req, ⟨finished_at, result, error, ended⟩, found, marked⟩ := finishes
  dsimp only at ended found
  subst ended
  intro sound
  obtain ⟨before, started, later, split, starts, unpowered⟩ :=
    backed.unswitched request_id ⟨_, _, _, rfl⟩
  have present : ((world.db.requests.modify request_id fun row =>
      { row with
        status := if true then .success else .failed
        finished_at := some finished_at
        result := some result
        error := error }).lookup request_id) = some { req with
          status := .success
          finished_at := some finished_at
          result := some result
          error := error } := by
    rw [Tables.Numbered.lookup_modify, if_pos rfl, found]
    rfl
  obtain ⟨target, network, restored, begun, isolated, switched, booted, stopped, completed⟩ :=
    sound request_id _ present marked rfl
  refine completed_switched completed ⟨before, started, later ++
    [⟨.transact (.finishRequest request_id true finished_at result error), .ok ()⟩], ?_, starts, ?_⟩
  · change world.log ++ [_] = _
    rw [split, List.append_assoc, List.cons_append]
    rfl
  · intro exchange member
    rcases List.mem_append.mp member with old | new
    · exact unpowered exchange old
    · obtain rfl := List.mem_singleton.mp new
      simp [Command.effect, writes]

/-- A request that is a success although nothing was ever switched on breaks its word. -/
theorem unsound_unpowered {request_id : Nat} {req : RequestRow}
    (found : world.db.requests.lookup request_id = some req) (marked : isMarked req.options = true)
    (finished : req.status = .success)
    (unpowered : ∀ exchange ∈ world.log, Command.effect exchange.1 ≠ .ofPower true) :
    ¬ Sound managed env world := by
  intro sound
  obtain ⟨target, network, restored, begun, isolated, switched, booted, stopped, completed⟩ :=
    sound request_id req found marked finished
  obtain ⟨⟨before, last, started, starts⟩, rest, continued, _⟩ := completed.latest
  refine completed_switched completed ⟨before, last, rest, ?_, starts, ?_⟩
  · rw [continued, started, List.append_assoc, List.singleton_append]
  · intro exchange member
    exact unpowered exchange (continued ▸ List.mem_append_right _ member)

/-- In every state of every session the successful requests of tests stand for completed
tests if no machine of a test was created; a session that goes through has no other way. -/
theorem success_when_uncreated (managed : ManagedRecoveryEngine) (env : Environment)
    (operations : List (Operation × Option Nat)) (world : World)
    (unfinished : Unfinished world.db) :
    (Only Uncreated world (run env.handler (session managed operations) world).2 →
      ∀ passed ∈ visited env.handler (session managed operations) world,
        Sound managed env passed) ∧
    ((∀ operation ∈ operations, operation.2 = none) →
      (∀ passed ∈ visited env.handler (session managed operations) world,
        Sound managed env passed) →
      Only Uncreated world (run env.handler (session managed operations) world).2) := by
  constructor
  · intro uncreated passed member
    exact unfinished_sound (session_unfinished unfinished uncreated passed member)
  · intro through sound
    rcases (session_honest operations through world).leads with only | ⟨entry, member, finishes⟩
    · exact only
    · have backed := session_backed operations world entry member
      exact absurd (sound _ (visited_issued member)) (unsound_finished finishes backed)

end States

section Bench

theorem unfinished_bench : Unfinished benchCatalogue := by
  intro request_id req found marked
  have rows : benchCatalogue.requests.rows.all (fun row => row.2.status ≠ .success) = true := by
    decide
  have listed := (Tables.Numbered.mem_rows_iff _ _ _).mpr found
  exact of_decide_eq_true (List.all_eq_true.mp rows _ listed)

theorem success_when_uncreated_bench :
    (Only Uncreated ⟨benchCatalogue, 0, []⟩ (run benchHost.handler
        (session bench [(.portalExecute 1 "carol", none)]) ⟨benchCatalogue, 0, []⟩).2 →
      ∀ passed ∈ visited benchHost.handler (session bench [(.portalExecute 1 "carol", none)])
          ⟨benchCatalogue, 0, []⟩,
        Sound bench benchHost passed) ∧
    ((∀ operation ∈ [(Operation.portalExecute 1 "carol", (none : Option Nat))],
        operation.2 = none) →
      (∀ passed ∈ visited benchHost.handler (session bench [(.portalExecute 1 "carol", none)])
          ⟨benchCatalogue, 0, []⟩,
        Sound bench benchHost passed) →
      Only Uncreated ⟨benchCatalogue, 0, []⟩ (run benchHost.handler
        (session bench [(.portalExecute 1 "carol", none)]) ⟨benchCatalogue, 0, []⟩).2) :=
  success_when_uncreated bench benchHost [(.portalExecute 1 "carol", none)]
    ⟨benchCatalogue, 0, []⟩ unfinished_bench

/-- The first request is the success of a test, and nothing was ever switched on. -/
def countedEarly (world : World) : Bool :=
  match world.db.requests.lookup 1 with
  | some req => isMarked req.options && req.status == .success &&
      world.log.all fun exchange => Command.effect exchange.1 ≠ .ofPower true
  | none => false

theorem unsound_countedEarly {managed : ManagedRecoveryEngine} {env : Environment} {world : World}
    (early : countedEarly world = true) : ¬ Sound managed env world := by
  unfold countedEarly at early
  split at early
  · rename_i req found
    simp only [Bool.and_eq_true, beq_iff_eq, List.all_eq_true, decide_eq_true_eq] at early
    obtain ⟨⟨marked, finished⟩, unpowered⟩ := early
    exact unsound_unpowered found marked finished unpowered
  · cases early

/-- Executing a test on the command line ends with its request a success, and nothing was
tested; executing it in the portal, which tests, passes through such a state. -/
theorem success_before_test :
    Unfinished benchCatalogue ∧
    ¬ Sound bench benchHost (run benchHost.handler
      (session bench [(.execute 1 "carol" false, none)]) ⟨benchCatalogue, 0, []⟩).2 ∧
    ∃ passed ∈ visited benchHost.handler (session bench [(.portalExecute 1 "carol", none)])
      ⟨benchCatalogue, 0, []⟩, ¬ Sound bench benchHost passed := by
  refine ⟨unfinished_bench, unsound_countedEarly (by decide), ?_⟩
  have early : (visited benchHost.handler (session bench [(.portalExecute 1 "carol", none)])
      ⟨benchCatalogue, 0, []⟩).any countedEarly = true := by decide
  obtain ⟨passed, member, counted⟩ := List.any_eq_true.mp early
  exact ⟨passed, member, unsound_countedEarly counted⟩

end Bench

end Immutavault.TestSessions
