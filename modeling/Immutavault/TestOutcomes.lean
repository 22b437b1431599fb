import Immutavault.RequestRows
import Immutavault.TestIsolation

/-!
# When a recovery test counts as a success

A test is a restore with a marker in its options, and its request is a success only when
the restored machine was isolated, switched on, seen running, switched off and removed.
The restore itself, however, records success as soon as the machine is there: on every
way that executes a request, the catalogue passes through a state in which the request
of a test is a success and nothing was tested.

So the requests of tests keep their word exactly as long as no machine of a test comes
to be. The one half holds for any operations of the three engines, each of which may
break off at any command; the other half needs runs that go through.
-/

namespace Immutavault.TestOutcomes

open Programs Values Timestamps Catalog Machine Configuration StateDatabase Adapters
open RestoreEngine Management RecoveryTests Histories RequestRows TestIsolation

/-- The options of a request contain the marker of a recovery test. -/
def isMarked (options : Dict) : Bool :=
  match options.get? "dr_test" with
  | none | some .null => false
  | some _ => true

/-- The program returned a value between two states. -/
def Ran {α : Type} (env : Environment) (program : Prog α) (value : α) (start now : World) : Prop :=
  ∃ before after, start.log <+: before.log ∧
    run env.handler program before = (.ok value, after) ∧ after.log <+: now.log

/-- The exchange starts the request. -/
def Starts (request_id : Nat) (exchange : Exchange controller Exn) : Prop :=
  ∃ time, exchange.1 = .transact (.startRequest request_id time)

/-- Since the request was last started, the test of a machine has gone through all its steps. -/
structure Completed (managed : ManagedRecoveryEngine) (env : Environment) (world : World)
    (request_id : Nat) (req : RequestRow) (target : PlatformConfig) (network : String)
    (restored : Dict) (started isolated switched booted stopped : World) : Prop where
  located : managed.super.platform req.target_platform = .ok target
  latest : (∃ before start, started.log = before ++ [start] ∧ Starts request_id start) ∧
    ∃ later, world.log = started.log ++ later ∧ ∀ exchange ∈ later, ¬ Starts request_id exchange
  isolates : ∃ isolation,
    Ran env (isolate target managed.getenv restored network) isolation started isolated
  switches : ∃ report, Ran env (powerOn target managed.getenv restored) report isolated switched
  boots : ∃ boot, Ran env (running target managed.getenv restored) boot switched booted ∧
    boot.running = true
  stops : ∃ argv settings report result,
    power target managed.getenv restored false = .ok (argv, settings, report) ∧
    Succeeded booted stopped (.power target.name false argv) settings result
  removes : managed.cfg.management.dr_test_auto_cleanup = true →
    ∃ report, Ran env (destroy target managed.getenv restored) report stopped world
  past : switched.log <+: booted.log ∧ booted.log <+: stopped.log ∧ stopped.log <+: world.log

/-- Every successful request of a test stands for a completed test. -/
def Sound (managed : ManagedRecoveryEngine) (env : Environment) (world : World) : Prop :=
  ∀ request_id req, world.db.requests.lookup request_id = some req →
    isMarked req.options = true → req.status = .success →
    ∃ target network restored started isolated switched booted stopped,
      Completed managed env world request_id req target network restored started isolated
        switched booted stopped

/-- No request of a test is a success. -/
def Unfinished (db : Database) : Prop :=
  ∀ request_id req, db.requests.lookup request_id = some req →
    isMarked req.options = true → req.status ≠ .success

/-- The options with which a command creates a machine. -/
def creationOptions : Command → Option Dict
  | .request (.restoreVM _ _ _ options) | .request (.v2vExecute _ _ _ _ options) => some options
  | _ => none

/-- An exchange that is no creation of a test's machine, or one that fails. -/
def Uncreated (exchange : Exchange controller Exn) : Prop :=
  ∀ options, creationOptions exchange.1 = some options → isMarked options = true →
    ∃ error, exchange.2 = .error error

section Entries

/-- The command marks a request as a success. -/
def Finishes (command : Command) (request_id : Nat) : Prop :=
  ∃ finished_at result error,
    command = .transact (.finishRequest request_id true finished_at result error)

/-- The request was started, and nothing has been switched on since. -/
def Unswitched (request_id : Nat) (log : History) : Prop :=
  ∃ before start later, log = before ++ start :: later ∧ Starts request_id start ∧
    ∀ exchange ∈ later, Command.effect exchange.1 ≠ .ofPower true

/-- What stands behind a command of an operation that began in the given state. -/
structure Backed (start : World) (entry : World × Command) : Prop where
  created : ∀ request_id, Finishes entry.2 request_id → ∀ req,
    entry.1.db.requests.lookup request_id = some req → isMarked req.options = true →
    ∃ creation, Since start [creation] entry.1 ∧ ¬ Uncreated creation
  unswitched : ∀ request_id, Finishes entry.2 request_id → Unswitched request_id entry.1.log
  inserted : ∀ req, entry.2 = .transact (.insertRequest req) → req.status ≠ .success

theorem Backed.earlier {start before : World} {entry : World × Command}
    (backed : Backed start entry) (grown : before.log <+: start.log) : Backed before entry where
  created := by
    intro request_id finishes req found marked
    obtain ⟨creation, since, made⟩ := backed.created request_id finishes req found marked
    exact ⟨creation, since.earlier grown, made⟩
  unswitched := backed.unswitched
  inserted := backed.inserted

/-- The command marks the request of a test as a success. -/
def FinishesTest (entry : World × Command) : Prop :=
  ∃ request_id req, Finishes entry.2 request_id ∧
    entry.1.db.requests.lookup request_id = some req ∧ isMarked req.options = true

/-- A command that neither creates a machine nor makes a request a success. -/
structure Quiet (command : Command) : Prop where
  uncreating : creationOptions command = none
  unfinishing : ∀ request_id, ¬ Finishes command request_id
  uninserting : ∀ req, command = .transact (.insertRequest req) → req.status ≠ .success

theorem Quiet.backed {start : World} {entry : World × Command} (quiet : Quiet entry.2) :
    Backed start entry where
  created := fun request_id finishes => absurd finishes (quiet.unfinishing request_id)
  unswitched := fun request_id finishes => absurd finishes (quiet.unfinishing request_id)
  inserted := quiet.uninserting

/-- Commands without an effect on requests or machines are quiet. -/
theorem quiet_other {command : Command} (unwritten : command.effect ≠ .writing .requests)
    (uncreated : command.effect ≠ .creation) : Quiet command where
  uncreating := by
    unfold creationOptions
    split
    · exact absurd rfl uncreated
    · exact absurd rfl uncreated
    · rfl
  unfinishing := by
    rintro request_id ⟨finished_at, result, error, rfl⟩
    exact unwritten rfl
  uninserting := by
    rintro req rfl
    exact absurd rfl unwritten

end Entries

section Programs

variable {α β : Type} {env : Environment} {world : World}

/-- What a program owes: whatever makes a test's request a success is backed, and a machine
of a test that comes to be is followed by such a command. -/
structure Honest (env : Environment) (program : Prog α) (world : World) : Prop where
  backed : Throughout env (Backed world) program world
  leads : Only Uncreated world (run env.handler program world).2 ∨
    ∃ entry ∈ issued env.handler program world, FinishesTest entry

theorem honest_bind {program : Prog α} {next : α → Prog β} (first : Honest env program world)
    (rest : ∀ value middle, run env.handler program world = (.ok value, middle) →
      Honest env (next value) middle) : Honest env (program >>= next) world where
  backed := by
    refine throughout_bind_iff.mpr ⟨first.backed, ?_⟩
    intro value middle ran entry later
    exact ((rest value middle ran).backed entry later).earlier (log_ran ran)
  leads := by
    rcases first.leads with before | ⟨entry, member, finishes⟩
    · rw [run_bind]
      cases ran : run env.handler program world with
      | mk outcome middle =>
        rw [ran] at before
        cases outcome with
        | error error => exact Or.inl before
        | ok value =>
          rcases (rest value middle ran).leads with after | ⟨entry, later, finishes⟩
          · exact Or.inl (before.trans after)
          · exact Or.inr ⟨entry, (mem_issued_bind _).mpr (Or.inr ⟨value, middle, ran, later⟩),
              finishes⟩
    · exact Or.inr ⟨entry, (mem_issued_bind _).mpr (Or.inl member), finishes⟩

theorem honest_tryCatch {program : Prog α} {rescuer : Exn → Prog α}
    (first : Honest env program world)
    (rest : ∀ error middle, run env.handler program world = (.error error, middle) →
      Honest env (rescuer error) middle) : Honest env (tryCatch program rescuer) world where
  backed := by
    refine throughout_tryCatch_iff.mpr ⟨first.backed, ?_⟩
    intro error middle ran entry later
    exact ((rest error middle ran).backed entry later).earlier (log_ran ran)
  leads := by
    rcases first.leads with before | ⟨entry, member, finishes⟩
    · rw [run_tryCatch]
      cases ran : run env.handler program world with
      | mk outcome middle =>
        rw [ran] at before
        cases outcome with
        | ok value => exact Or.inl before
        | error error =>
          rcases (rest error middle ran).leads with after | ⟨entry, later, finishes⟩
          · exact Or.inl (before.trans after)
          · exact Or.inr ⟨entry, (mem_issued_tryCatch _).mpr
              (Or.inr ⟨error, middle, ran, later⟩), finishes⟩
    · exact Or.inr ⟨entry, (mem_issued_tryCatch _).mpr (Or.inl member), finishes⟩

theorem honest_attempt {program : Prog α} (honest : Honest env program world) :
    Honest env program.attempt world where
  backed := throughout_attempt_iff.mpr honest.backed
  leads := by
    rw [run_attempt, issued_attempt]
    exact honest.leads

/-- Quiet commands owe nothing. -/
theorem honest_quiet {program : Prog α}
    (quiet : Issues (fun command : controller.Command => Quiet command) program) :
    Honest env program world where
  backed := throughout_issues quiet fun entry => Quiet.backed
  leads := by
    obtain ⟨later, grown, issued⟩ := @log_issues _ env _ _ quiet world
    refine Or.inl ⟨later, grown, ?_⟩
    intro exchange member options creates
    rw [(issued exchange member).uncreating] at creates
    cases creates

theorem quiet_footprint {effects : List Effect} {program : Prog α}
    (footprint : Footprint effects program) (unwritten : .writing .requests ∉ effects)
    (uncreated : .creation ∉ effects) :
    Issues (fun command : controller.Command => Quiet command) program :=
  issues_mono footprint fun _ listed => quiet_other (fun same => unwritten (same ▸ listed))
    fun same => uncreated (same ▸ listed)

theorem honest_footprint {effects : List Effect} {program : Prog α}
    (footprint : Footprint effects program) (unwritten : .writing .requests ∉ effects)
    (uncreated : .creation ∉ effects) : Honest env program world :=
  honest_quiet (quiet_footprint footprint unwritten uncreated)

end Programs

section Requests

variable {env : Environment} {engine : Engine} {request_id : Nat} {actor : String}
  {world : World}

theorem quiet_finishFailed (request_id : Nat) (result : Dict) (error : Option String) :
    Issues (fun command : controller.Command => Quiet command)
      (finishRestore request_id false result error) := by
  have reading : Footprint [.silent] utcnow := footprint_utcnow (by simp)
  refine issues_bind (quiet_footprint reading (by simp) (by simp)) fun now =>
    (issues_perform _).mpr ⟨rfl, ?_, ?_⟩
  · rintro other ⟨finished_at, result, error, impossible⟩
    cases impossible
  · intro req impossible
    cases impossible

theorem quiet_startRestore (request_id : Nat) (actor : String) :
    Issues (fun command : controller.Command => Quiet command)
      (startRestore request_id actor) := by
  have reading : Footprint [.silent] (getRestoreRequest request_id) :=
    footprint_reading rfl (by simp)
  have clock : Footprint [.silent] utcnow := footprint_utcnow (by simp)
  refine issues_bind (quiet_footprint reading (by simp) (by simp)) fun req => ?_
  split
  · exact issues_throw _
  · split
    · exact issues_throw _
    · refine issues_bind (quiet_footprint clock (by simp) (by simp)) fun time => ?_
      refine issues_bind ((issues_perform _).mpr ⟨rfl, ?_, ?_⟩) fun _ => ?_
      · rintro other ⟨finished_at, result, error, impossible⟩
        cases impossible
      · intro row impossible
        cases impossible
      · refine issues_bind (quiet_footprint (footprint_audit
          (show .silent ∈ [Effect.silent, .writing .audits] by simp) (by simp) _ _ _ _ _)
          (by simp) (by simp)) fun _ => ?_
        exact issues_bind (quiet_footprint reading (by simp) (by simp)) fun _ => issues_pure _

theorem quiet_approveRestore (approver : String) (four_eyes : Bool) :
    Issues (fun command : controller.Command => Quiet command)
      (StateDatabase.approveRestore request_id approver four_eyes) := by
  have reading : Footprint [.silent] (getRestoreRequest request_id) :=
    footprint_reading rfl (by simp)
  have clock : Footprint [.silent] utcnow := footprint_utcnow (by simp)
  refine issues_bind (quiet_footprint reading (by simp) (by simp)) fun req => ?_
  split
  · exact issues_throw _
  · split
    · exact issues_throw _
    · split
      · exact issues_throw _
      · refine issues_bind (quiet_footprint clock (by simp) (by simp)) fun time => ?_
        refine issues_bind ((issues_perform _).mpr ⟨rfl, ?_, ?_⟩) fun _ => ?_
        · rintro other ⟨finished_at, result, error, impossible⟩
          cases impossible
        · intro row impossible
          cases impossible
        · exact quiet_footprint (footprint_audit
            (show .silent ∈ [Effect.silent, .writing .audits] by simp) (by simp) _ _ _ _ _)
            (by simp) (by simp)

/-- A request is created pending or ready. -/
theorem quiet_createRestoreRequest {requester : String} {point : Point}
    {target_platform target_name : String} {options : Dict} :
    Issues (fun command : controller.Command => Quiet command)
      (createRestoreRequest requester point target_platform target_name options
        engine.initialStatus) := by
  have clock : Footprint [.silent] utcnow := footprint_utcnow (by simp)
  refine issues_bind (quiet_footprint clock (by simp) (by simp)) fun time => ?_
  refine issues_bind ((issues_perform _).mpr ⟨rfl, ?_, ?_⟩) fun rid => ?_
  · rintro other ⟨finished_at, result, error, impossible⟩
    cases impossible
  · intro req inserts
    cases inserts
    unfold Engine.initialStatus
    split <;> simp
  · refine issues_bind (quiet_footprint (footprint_audit
      (show .silent ∈ [Effect.silent, .writing .audits] by simp) (by simp) _ _ _ _ _)
      (by simp) (by simp)) fun _ => issues_pure _

theorem quiet_requestNative {snapshot_id requester target_platform : String}
    {target_name : Option String} {options : Dict} :
    Issues (fun command : controller.Command => Quiet command)
      (engine.requestNative snapshot_id requester target_platform target_name options) := by
  have reading : Footprint [.silent] (getPoint snapshot_id) :=
    footprint_reading rfl (by simp)
  refine issues_bind (quiet_footprint reading (by simp) (by simp)) fun found => ?_
  split
  · exact issues_throw _
  · refine issues_bind (issues_raised _) fun target => ?_
    split
    · exact issues_throw _
    · split
      · exact issues_throw _
      · exact quiet_createRestoreRequest

/-- Requesting a restore makes no request a success. -/
theorem quiet_requestRestore {snapshot_id requester target_platform : String}
    {target_name : Option String} {options : Dict} :
    Issues (fun command : controller.Command => Quiet command)
      (engine.requestRestore snapshot_id requester target_platform target_name options) := by
  have reading : Footprint [.silent] (getPoint snapshot_id) :=
    footprint_reading rfl (by simp)
  unfold Engine.requestRestore
  split
  · exact quiet_requestNative
  · refine issues_bind (quiet_footprint reading (by simp) (by simp)) fun found => ?_
    split
    · exact issues_throw _
    · refine issues_bind (issues_raised _) fun target => ?_
      split
      · exact quiet_requestNative
      · have planning : ∀ point, Footprint [.outside] (request (.v2vPlan point target options)) :=
          fun point => footprint_request (by simp [Command.effect])
        refine issues_bind (quiet_footprint (planning _) (by simp) (by simp)) fun plan => ?_
        split
        · exact issues_throw _
        · refine issues_bind quiet_createRestoreRequest fun rid => ?_
          refine issues_bind (quiet_footprint (footprint_audit
            (show .silent ∈ [Effect.silent, .writing .audits] by simp) (by simp) _ _ _ _ _)
            (by simp) (by simp)) fun _ => issues_pure _

/-- What was not switched on stays so while nothing is switched on. -/
theorem Unswitched.ran {α : Type} {effects : List Effect} {program : Prog α} {after : World}
    {outcome : Except Exn α} (unswitched : Unswitched request_id world.log)
    (footprint : Footprint effects program) (absent : .ofPower true ∉ effects)
    (ran : run env.handler program world = (outcome, after)) :
    Unswitched request_id after.log := by
  obtain ⟨before, start, later, split, starts, quiet⟩ := unswitched
  obtain ⟨more, continued, judged⟩ := @log_issues _ env _ _ footprint world
  rw [ran] at continued
  refine ⟨before, start, later ++ more, ?_, starts, ?_⟩
  · rw [continued, split, List.append_assoc, List.cons_append]
  · intro exchange member switched
    rcases List.mem_append.mp member with old | new
    · exact quiet exchange old switched
    · exact absent (switched ▸ judged exchange new)

/-- Starting a request leaves it started, with nothing switched on since. -/
theorem startRestore_unswitched {req : RequestRow} {after : World}
    (ran : run env.handler (startRestore request_id actor) world = (.ok req, after)) :
    Unswitched request_id after.log := by
  obtain ⟨found, looked, _, ran⟩ := (run_bind_eq_ok _).mp ran
  cases found with
  | none => cases ran
  | some present =>
    dsimp only at ran
    split at ran
    · cases ran
    · obtain ⟨now, timed, _, ran⟩ := (run_bind_eq_ok _).mp ran
      obtain ⟨_, started, starting, ran⟩ := (run_bind_eq_ok _).mp ran
      have here : Unswitched request_id started.log := by
        obtain ⟨_, rfl⟩ := transact_ran starting
        exact ⟨timed.log, _, [], rfl, ⟨now, rfl⟩, fun _ member => absurd member List.not_mem_nil⟩
      have rest : Footprint [.silent, .writing .audits] (do
          audit actor "restore.execute" "restore_request" (toString request_id) []
          let again ← getRestoreRequest request_id
          return again.getD present) :=
        footprint_bind (footprint_audit (by simp) (by simp) _ _ _ _ _) fun _ =>
          footprint_bind (footprint_reading rfl (by simp)) fun _ =>
            footprint_pure _
      exact here.ran rest (by simp) ran

/-- Recording success of a request whose machine is there, and what follows, is honest. -/
theorem honest_finished {start world : World} {options : Dict} {result : Dict}
    {tail : Prog Dict} (quiet : Issues (fun command : controller.Command => Quiet command) tail)
    (stored : ∃ req, world.db.requests.lookup request_id = some req ∧ options = req.options)
    (unswitched : Unswitched request_id world.log)
    (created : isMarked options = true → ∃ creation, Since start [creation] world ∧
      ¬ Uncreated creation) :
    Throughout env (Backed start) (finishRestore request_id true result none >>= fun _ => tail)
        world ∧
      (isMarked options = true → ∃ entry ∈ issued env.handler
        (finishRestore request_id true result none >>= fun _ => tail) world,
          FinishesTest entry) := by
  have clock : Footprint [.silent] utcnow := footprint_utcnow (by simp)
  obtain ⟨req, found, same⟩ := stored
  have timed : run env.handler utcnow world = (.ok world.clock, (env.handler .utcnow world).2) :=
    rfl
  have finishing : ∀ entry, entry ∈ issued env.handler (transact (.finishRequest request_id true
      world.clock result none)) (env.handler .utcnow world).2 ↔
        entry = ((env.handler .utcnow world).2,
          .transact (.finishRequest request_id true world.clock result none)) := by
    intro entry
    rw [transact, issued_perform, List.mem_singleton]
  constructor
  · refine throughout_bind_iff.mpr ⟨throughout_bind_iff.mpr ⟨?_, ?_⟩, ?_⟩
    · exact throughout_issues (quiet_footprint clock (by simp) (by simp)) fun entry => Quiet.backed
    · intro now middle ran entry member
      obtain ⟨rfl, rfl⟩ : world.clock = now ∧ (env.handler .utcnow world).2 = middle := by
        simpa only [timed, Prod.mk.injEq, Except.ok.injEq] using ran
      obtain rfl := (finishing entry).mp member
      refine ⟨?_, ?_, ?_⟩
      · rintro other ⟨finished_at, result, error, ended⟩ row stored marked
        cases ended
        obtain rfl : req = row := Option.some.inj (found.symm.trans stored)
        obtain ⟨creation, since, made⟩ := created (same ▸ marked)
        exact ⟨creation, since.ran timed, made⟩
      · rintro other ⟨finished_at, result, error, ended⟩
        cases ended
        exact unswitched.ran clock (by simp) timed
      · intro row impossible
        cases impossible
    · intro _ middle _
      exact throughout_issues quiet fun entry => Quiet.backed
  · intro marked
    refine ⟨_, (mem_issued_bind _).mpr (Or.inl ((mem_issued_bind _).mpr (Or.inr
      ⟨_, _, timed, (finishing _).mpr rfl⟩))), request_id, req, ⟨_, _, _, rfl⟩, found, ?_⟩
    exact same ▸ marked

/-- Creating a machine and recording success is honest. -/
theorem honest_created {external : External} {options : Dict} {report : external.Answer → Dict}
    {tail : Dict → Prog Dict}
    (creates : creationOptions (.request external) = some options)
    (unpowered : (Command.request external).effect ≠ .ofPower true)
    (quiet : ∀ result, Issues (fun command : controller.Command => Quiet command) (tail result))
    (stored : ∃ req, world.db.requests.lookup request_id = some req ∧ options = req.options)
    (unswitched : Unswitched request_id world.log) :
    Honest env (request external >>= fun created =>
      finishRestore request_id true (report created) none >>= fun _ => tail (report created))
      world := by
  have asking : issued env.handler (request external) world = [(world, .request external)] :=
    issued_perform env.handler (Command.request external) world
  have asked : ∀ {answer after}, run env.handler (request external) world = (answer, after) →
      env.answer world.log external = answer ∧ (env.handler (.request external) world).2 = after := by
    intro answer after ran
    have exchanged : env.handler (.request external) world = (answer, after) :=
      (run_perform env.handler (Command.request external) world).symm.trans ran
    exact ⟨congrArg Prod.fst exchanged, congrArg Prod.snd exchanged⟩
  have footprint : Footprint [(Command.request external).effect] (request external) :=
    footprint_request (List.mem_singleton.mpr rfl)
  have rest : ∀ created middle, run env.handler (request external) world = (.ok created, middle) →
      Throughout env (Backed world) (finishRestore request_id true (report created) none >>=
        fun _ => tail (report created)) middle ∧
      (isMarked options = true → ∃ entry ∈ issued env.handler (finishRestore request_id true
        (report created) none >>= fun _ => tail (report created)) middle, FinishesTest entry) := by
    intro created middle ran
    obtain ⟨answered, rfl⟩ := asked ran
    refine honest_finished (quiet (report created)) stored
      (unswitched.ran footprint (by simpa using unpowered.symm) ran) ?_
    intro marked
    refine ⟨_, (Since.refl world).answered answered, ?_⟩
    intro failed
    obtain ⟨error, impossible⟩ := failed options creates marked
    cases impossible
  constructor
  · refine throughout_bind_iff.mpr ⟨?_, fun created middle ran => (rest created middle ran).1⟩
    intro entry member
    rw [asking] at member
    obtain rfl := List.mem_singleton.mp member
    refine ⟨?_, ?_, ?_⟩
    · rintro other ⟨finished_at, result, error, impossible⟩
      cases impossible
    · rintro other ⟨finished_at, result, error, impossible⟩
      cases impossible
    · intro row impossible
      cases impossible
  · by_cases marked : isMarked options = true
    · cases ran : run env.handler (request external) world with
      | mk outcome middle =>
        obtain ⟨answered, grown⟩ := asked ran
        cases outcome with
        | error error =>
          have logged : middle.log = world.log ++ [⟨.request external, .error error⟩] := by
            rw [← grown, ← answered]
            rfl
          refine Or.inl ?_
          rw [run_bind, ran]
          refine ⟨_, logged, ?_⟩
          intro exchange member other _ _
          obtain rfl := List.mem_singleton.mp member
          exact ⟨error, rfl⟩
        | ok created =>
          obtain ⟨entry, later, finishes⟩ := (rest created middle ran).2 marked
          exact Or.inr ⟨entry, (mem_issued_bind _).mpr (Or.inr ⟨created, middle, ran, later⟩),
            finishes⟩
    · refine Or.inl ?_
      have issues : Issues (fun command : controller.Command =>
          ∀ other, creationOptions command = some other → isMarked other = false)
          (request external >>= fun created =>
            finishRestore request_id true (report created) none >>=
              fun _ => tail (report created)) := by
        refine issues_bind ((issues_perform _).mpr ?_) fun created => ?_
        · intro other same
          rw [creates] at same
          obtain rfl := Option.some.inj same
          simpa using marked
        · have clock : Footprint [.silent, .writing .requests]
              (finishRestore request_id true (report created) none) :=
            footprint_finishRestore _ _ _ _
          refine issues_bind (issues_mono clock ?_) fun _ => issues_mono (quiet _) ?_
          · intro command listed other same
            unfold creationOptions at same
            split at same
            · simp [Command.effect] at listed
            · simp [Command.effect] at listed
            · cases same
          · intro command quiet other same
            rw [quiet.uncreating] at same
            cases same
      obtain ⟨later, grown, judged⟩ := @log_issues _ env _ _ issues world
      refine ⟨later, grown, ?_⟩
      intro exchange member other same marked
      rw [judged exchange member other same] at marked
      cases marked

/-- What a started execution does is honest. -/
theorem honest_performRestore {prepared : Engine.Prepared} {target_name : String}
    (stored : ∃ req, world.db.requests.lookup prepared.request_id = some req ∧
      prepared.options = req.options)
    (unswitched : Unswitched prepared.request_id world.log) :
    Honest env (engine.performRestore prepared target_name actor) world := by
  have fetching := engine.footprint_fetchSource prepared
  refine honest_bind (honest_footprint fetching (by simp) (by simp)) ?_
  intro _ fetched ran
  obtain ⟨req, found, same⟩ := stored
  obtain ⟨later, present, continues⟩ := kept_ran ran _ req found
  have stored : ∃ req, fetched.db.requests.lookup prepared.request_id = some req ∧
      prepared.options = req.options :=
    ⟨later, present, same.trans continues.options.symm⟩
  have unswitched := unswitched.ran fetching (by simp) ran
  have quiet : ∀ result : Dict, Issues (fun command : controller.Command => Quiet command) (do
      audit actor (prepared.actionFamily ++ ".complete") "restore_request"
        (toString prepared.request_id) result
      rmtree (engine.restoreRoot prepared.request_id)
      return result) := fun result =>
    quiet_footprint (footprint_bind (footprint_audit
      (show .silent ∈ [Effect.silent, .writing .audits] by simp) (by simp) _ _ _ _ _) fun _ =>
        footprint_bind (footprint_rmtree (by simp) _) fun _ => footprint_pure _) (by simp) (by simp)
  unfold Engine.createMachine
  dsimp only
  split
  · simp only [bind_assoc, pure_bind]
    exact honest_created rfl (by simp [Command.effect]) quiet stored unswitched
  · simp only [bind_assoc, pure_bind]
    exact honest_created rfl (by simp [Command.effect]) quiet stored unswitched

/-- An execution of the certified engine is honest, for whichever request. -/
theorem honest_executeRestore (engine : Engine) (request_id : Nat) (actor : String)
    (dry_run : Bool) (world : World) :
    Honest env (engine.executeRestore request_id actor dry_run) world := by
  unfold Engine.executeRestore
  split
  · have planning : Footprint [.silent, .outside] (do
        let prepared ← engine.lookup request_id true
        return engine.dryRunReport prepared) :=
      footprint_bind (engine.footprint_lookup request_id true) fun _ => footprint_pure _
    exact honest_footprint planning (by simp) (by simp)
  · refine honest_bind (honest_footprint (engine.footprint_prepareRestore request_id actor)
      (by simp) (by simp)) ?_
    intro prepared ready ran
    obtain ⟨looked, middle, looking, checking⟩ := (run_bind_eq_ok _).mp ran
    obtain ⟨_, checked, _, returned⟩ := (run_bind_eq_ok _).mp checking
    obtain ⟨rfl, rfl⟩ : looked = prepared ∧ checked = ready := by
      simpa only [run_pure, Prod.mk.injEq, Except.ok.injEq] using returned
    obtain ⟨own, req, found, same⟩ := lookup_requested looking
    refine honest_bind (honest_quiet (quiet_startRestore _ _)) ?_
    intro started running starting
    obtain ⟨later, present, continues⟩ := ((kept_ran ran).trans (kept_ran starting)) _ req found
    have stored : ∃ req, running.db.requests.lookup looked.request_id = some req ∧
        looked.options = req.options :=
      ⟨later, own.symm ▸ present, same.trans continues.options.symm⟩
    refine honest_tryCatch (honest_performRestore stored (startRestore_unswitched starting)) ?_
    intro error failed _
    refine honest_bind (honest_quiet (quiet_finishFailed _ _ _)) fun _ _ _ => ?_
    have recording : Footprint [.silent, .writing .audits] (do
        audit actor (looked.actionFamily ++ ".failed") "restore_request"
          (toString looked.request_id) (Engine.failureDetails looked error)
        if ¬ engine.cfg.runtime.keep_staging_on_failure then
          rmtree (engine.restoreRoot looked.request_id)
        throw error : Prog Dict) := by
      refine footprint_bind (footprint_audit (by simp) (by simp) _ _ _ _ _) fun _ => ?_
      dsimp only
      split
      · exact footprint_bind (footprint_rmtree (by simp) _) fun _ => footprint_throw _
      · exact footprint_throw _
    exact honest_footprint recording (by simp) (by simp)

end Requests

section Engines

attribute [local irreducible] Footprint Issues

variable {env : Environment} {managed : ManagedRecoveryEngine} {manager : RecoveryTestManager}
  {request_id : Nat} {actor : String} {world : World}

theorem quiet_audit (actor action object_type object_id : String) (details : Dict) :
    Issues (fun command : controller.Command => Quiet command)
      (audit actor action object_type object_id details) :=
  quiet_footprint (footprint_audit (show .silent ∈ [Effect.silent, .writing .audits] by simp)
    (by simp) _ _ _ _ _) (by simp) (by simp)

theorem quiet_getRestoreRequest (request_id : Nat) :
    Issues (fun command : controller.Command => Quiet command) (getRestoreRequest request_id) :=
  quiet_footprint (footprint_transact
    (show _ ∈ [Effect.silent] by simp [Command.effect, writes])) (by simp) (by simp)

/-- The managed engine requests as the certified one does. -/
theorem quiet_managedRequest (snapshot_id requester target_platform : String)
    (target_name : Option String) (options : Dict) :
    Issues (fun command : controller.Command => Quiet command)
      (managed.requestRestore snapshot_id requester target_platform target_name options) := by
  refine issues_bind (issues_raised _) fun marker => ?_
  split
  · exact quiet_requestRestore
  · refine issues_bind (quiet_footprint (footprint_validateDrTest managed _ _ _) (by simp)
      (by simp)) fun checked => ?_
    dsimp only
    refine issues_bind quiet_requestRestore fun rid => ?_
    exact issues_bind (quiet_audit _ _ _ _ _) fun _ => issues_pure _

/-- The test of a machine touches the chain and the platform. -/
theorem footprint_testMachine (target : PlatformConfig) (network : String) (restored : Dict) :
    Footprint [.silent, .outside, .ofPower true, .writing .audits]
      (managed.testMachine request_id actor target network restored) := by
  refine footprint_bind ((footprint_isolate _ _).mono (by simp)) fun isolation => ?_
  refine footprint_bind (footprint_audit (by simp) (by simp) _ _ _ _ _) fun _ => ?_
  refine footprint_bind ((footprint_powerOn _ _ _).mono (by simp)) fun _ => ?_
  refine footprint_bind (footprint_request (by simp [Command.effect])) fun _ => ?_
  refine footprint_bind ((footprint_running _).mono (by simp)) fun boot => ?_
  split
  · exact footprint_throw _
  · exact (footprint_auditThen _).mono (by simp)

theorem quiet_recordTestFailure (network : String) (primary_error : Option Exn)
    (cleanup_errors : List String) : Issues (fun command : controller.Command => Quiet command)
      (ManagedRecoveryEngine.recordTestFailure request_id actor network primary_error
        cleanup_errors) := by
  refine issues_bind (quiet_finishFailed _ _ _) fun _ => ?_
  refine issues_bind (quiet_audit _ _ _ _ _) fun _ => ?_
  split <;> exact issues_throw _

/-- So is executing a test: its steps after the restore are quiet. -/
theorem honest_executeTest (request_id : Nat) (actor : String) (target : PlatformConfig)
    (network : String) (world : World) :
    Honest env (managed.executeTest request_id actor target network) world := by
  unfold ManagedRecoveryEngine.executeTest
  refine honest_bind (honest_attempt (honest_executeRestore _ _ _ _ _)) fun outcome _ _ => ?_
  cases outcome with
  | error error => exact honest_quiet (quiet_recordTestFailure _ _ _)
  | ok restored =>
    have testing : Footprint [.silent, .outside, .ofPower true, .writing .audits]
        (managed.testMachine request_id actor target network restored).attempt :=
      footprint_attempt (footprint_testMachine target network restored)
    refine honest_bind (honest_footprint testing (by simp) (by simp)) fun tested _ _ => ?_
    refine honest_bind (honest_footprint (footprint_cleanUp managed target restored) (by simp)
      (by simp)) fun cleanup_errors _ _ => ?_
    dsimp only
    split
    · exact honest_quiet (issues_bind (quiet_audit _ _ _ _ _) fun _ => issues_pure _)
    · exact honest_quiet (quiet_recordTestFailure _ _ _)
    · exact honest_quiet (quiet_recordTestFailure _ _ _)

/-- Executing by the managed engine is honest. -/
theorem honest_managedExecute (request_id : Nat) (actor : String) (dry_run : Bool)
    (world : World) : Honest env (managed.executeRestore request_id actor dry_run) world := by
  refine honest_bind (honest_quiet (quiet_getRestoreRequest _)) fun found _ _ => ?_
  split
  · exact honest_quiet (issues_throw _)
  · refine honest_bind (honest_quiet (issues_raised _)) fun marker _ _ => ?_
    split
    · exact honest_executeRestore _ _ _ _ _
    · refine honest_bind (honest_footprint (footprint_validateDrTest managed _ _ _) (by simp)
        (by simp)) fun checked _ _ => ?_
      dsimp only
      split
      · exact honest_bind (honest_executeRestore _ _ _ _ _) fun _ _ _ =>
          honest_quiet (issues_pure _)
      · exact honest_executeTest _ _ _ _ _

theorem footprint_allowedNetwork (platform network : String) :
    Footprint [.silent] (manager.allowedNetwork platform network) := by
  unfold RecoveryTestManager.allowedNetwork
  split
  · exact footprint_throw _
  · exact footprint_pure _

/-- The test manager requests as the certified engine does. -/
theorem quiet_testRequest (snapshot_id requester target_platform network source_repository : String)
    (target_name : Option String) : Issues (fun command : controller.Command => Quiet command)
      (manager.request snapshot_id requester target_platform network source_repository
        target_name) := by
  refine issues_bind (quiet_footprint (footprint_ensureTestable _) (by simp) (by simp))
    fun point => ?_
  refine issues_bind (issues_raised _) fun target => ?_
  refine issues_bind (quiet_footprint (footprint_allowedNetwork _ _) (by simp) (by simp))
    fun _ => ?_
  refine issues_bind (quiet_footprint (footprint_validateNetwork _) (by simp) (by simp))
    fun _ => ?_
  refine issues_bind quiet_requestRestore fun rid => ?_
  refine issues_bind (quiet_audit _ _ _ _ _) fun _ => ?_
  exact issues_bind (quiet_getRestoreRequest _) fun _ => issues_pure _

/-- What the test manager does with a restored machine touches the chain and the platform. -/
theorem footprint_managerTest (target : PlatformConfig) (network : String) (restored : Dict) :
    Footprint [.silent, .outside, .ofPower true, .writing .audits]
      (manager.testMachine request_id actor target network restored) := by
  refine footprint_bind ((footprint_isolate _ _).mono (by simp)) fun isolation => ?_
  refine footprint_bind (footprint_audit (by simp) (by simp) _ _ _ _ _) fun _ => ?_
  refine footprint_bind ((footprint_powerOn _ _ _).mono (by simp)) fun _ => ?_
  refine footprint_bind (footprint_request (by simp [Command.effect])) fun _ => ?_
  refine footprint_bind ((footprint_running _).mono (by simp)) fun boot => ?_
  split
  · exact footprint_throw _
  · exact (footprint_auditThen _).mono (by simp)

theorem footprint_managerFailure (network : String) (error : Exn) :
    Footprint [.silent, .writing .audits]
      (RecoveryTestManager.recordTestFailure request_id actor network error) :=
  footprint_bind (footprint_audit (by simp) (by simp) _ _ _ _ _) fun _ => footprint_throw _

theorem footprint_managerCleanUp (target : PlatformConfig) (restored : Dict) :
    Footprint [.silent, .outside, .ofPower false, .writing .audits]
      (manager.cleanUp request_id actor target restored) := by
  refine footprint_bind (footprint_attempt ((footprint_powerOff _ _ _).mono (by simp)))
    fun off => ?_
  refine footprint_bind ?_ fun _ => ?_
  · cases off with
    | ok report => exact footprint_pure _
    | error error => exact footprint_audit (by simp) (by simp) _ _ _ _ _
  · split
    · refine footprint_bind (footprint_attempt ((footprint_destroy _).mono (by simp)))
        fun removed => ?_
      cases removed <;> exact footprint_audit (by simp) (by simp) _ _ _ _ _
    · exact footprint_pure _

theorem honest_managerTest (request_id : Nat) (actor : String) (target : PlatformConfig)
    (network : String) (world : World) :
    Honest env (manager.executeTest request_id actor target network) world := by
  unfold RecoveryTestManager.executeTest
  refine honest_bind (honest_attempt (honest_executeRestore _ _ _ _ _)) fun outcome _ _ => ?_
  cases outcome with
  | error error => exact honest_footprint (footprint_managerFailure _ _) (by simp) (by simp)
  | ok restored =>
    have testing : Footprint [.silent, .outside, .ofPower true, .writing .audits]
        (tryCatch (manager.testMachine request_id actor target network restored)
          (RecoveryTestManager.recordTestFailure request_id actor network)).attempt :=
      footprint_attempt (footprint_tryCatch (footprint_managerTest target network restored)
        fun error => (footprint_managerFailure _ _).mono (by simp))
    refine honest_bind (honest_footprint testing (by simp) (by simp)) fun tested _ _ => ?_
    refine honest_bind (honest_footprint (footprint_managerCleanUp target restored) (by simp)
      (by simp)) fun _ _ _ => ?_
    exact honest_quiet (issues_raised _)

/-- Executing by the test manager is honest. -/
theorem honest_testExecute (request_id : Nat) (actor : String) (world : World) :
    Honest env (manager.execute request_id actor) world := by
  refine honest_bind (honest_quiet (quiet_getRestoreRequest _)) fun found _ _ => ?_
  split
  · exact honest_quiet (issues_throw _)
  · refine honest_bind (honest_quiet (issues_raised _)) fun network _ _ => ?_
    refine honest_bind (honest_footprint (footprint_allowedNetwork _ _) (by simp) (by simp))
      fun _ _ _ => ?_
    refine honest_bind (honest_quiet (issues_raised _)) fun target _ _ => ?_
    refine honest_bind (honest_footprint (footprint_validateNetwork _) (by simp) (by simp))
      fun _ _ _ => ?_
    exact honest_managerTest _ _ _ _ _

end Engines

end Immutavault.TestOutcomes
