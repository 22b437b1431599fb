import Immutavault.DROrchestrator
import Immutavault.Histories
import Immutavault.RestoreRequests

/-!
# The requests that a recovery creates

A promotion and a failback create their restore requests in the status in which
they may be executed at once, without an approval, and execute each of them
immediately. An execution first checks the request, the source and the target,
and only then moves the request on; whatever fails after that is recorded.

A request that a recovery created is therefore left ready exactly when one of
the checks before its start fails. This is stated for every run of a promotion
or a failback, against every behaviour of the world, whether the run returns or
raises.
-/

namespace Immutavault.RecoveryRequests

open Programs Values Catalog Machine StateDatabase RestoreEngine DROrchestrator RestoreRequests

/-- Insert a request and record it, as its creation does once the time is read. -/
def announce (row : RequestRow) : Prog Nat := do
  let rid : Nat ← transact (.insertRequest row)
  audit row.requester "restore.request" "restore_request" (toString rid)
    [("snapshot_id", .str row.snapshot_id)]
  return rid

/-- Seen from where its request is inserted, an execution passes every check that
comes before the start of the request. -/
def ChecksPass (env : Environment) (engine : Engine) (before : World) (row : RequestRow) : Prop :=
  ∃ prepared final, run env.handler (do
    let rid ← announce row
    engine.prepareRestore rid "dr-orchestrator") before = (.ok prepared, final)

/-- A run creates a request: it inserts this row in this state of the world. -/
def Creates {α : Type} (env : Environment) (program : Prog α) (world before : World)
    (row : RequestRow) : Prop :=
  (before, Command.transact (.insertRequest row)) ∈ issued env.handler program world

/-- Between two states older requests are left alone, and the created requests are
settled: what becomes of them is decided by the checks before their start. -/
structure Settled (env : Environment) (engine : Engine) (created : World → RequestRow → Prop)
    (world final : World) : Prop where
  grows : world.db.requests.next ≤ final.db.requests.next
  older : ∀ rid < world.db.requests.next,
    final.db.requests.lookup rid = world.db.requests.lookup rid
  settled : ∀ before row, created before row →
    world.db.requests.next ≤ before.db.requests.next ∧
    before.db.requests.next < final.db.requests.next ∧
    (status final.db before.db.requests.next ≠ some .ready ↔ ChecksPass env engine before row)

/-- Every run of a program settles the requests that it creates. -/
def Accounts {α : Type} (env : Environment) (engine : Engine) (program : Prog α) : Prop :=
  ∀ world, Settled env engine (Creates env program world) world (run env.handler program world).2

section Composition

variable {env : Environment} {engine : Engine} {α β : Type}

/-- Where no request is written, there is nothing to settle. -/
theorem settled_same {created : World → RequestRow → Prop} {world final : World}
    (none : ∀ before row, ¬ created before row)
    (same : final.db.requests = world.db.requests) :
    Settled env engine created world final :=
  ⟨by rw [same], fun rid _ => by rw [same],
    fun before row impossible => absurd impossible (none before row)⟩

/-- What one part settles stays settled while another part creates newer requests. -/
theorem Settled.followed {first second created : World → RequestRow → Prop}
    {world middle final : World} (earlier : Settled env engine first world middle)
    (later : Settled env engine second middle final)
    (divided : ∀ before row, created before row → first before row ∨ second before row) :
    Settled env engine created world final := by
  refine ⟨le_trans earlier.grows later.grows, ?_, ?_⟩
  · intro rid given
    rw [later.older rid (lt_of_lt_of_le given earlier.grows), earlier.older rid given]
  · intro before row member
    rcases divided before row member with own | others
    · obtain ⟨after, known, iff⟩ := earlier.settled before row own
      refine ⟨after, lt_of_lt_of_le known later.grows, ?_⟩
      rw [← iff, status, status, later.older _ known]
    · obtain ⟨after, known, iff⟩ := later.settled before row others
      exact ⟨le_trans earlier.grows after, known, iff⟩

/-- A program that writes no request is accounted for. -/
theorem accounts_footprint {effects : List Effect} {program : Prog α}
    (footprint : Footprint effects program) (unwritten : .writing .requests ∉ effects) :
    Accounts env engine program := by
  intro world
  refine settled_same ?_ (same_run footprint unwritten world)
  intro before row created
  exact unwritten (issues_issued footprint world _ created)

/-- A sequence is accounted for when its parts are. -/
theorem accounts_bind {program : Prog α} {next : α → Prog β}
    (first : Accounts env engine program) (rest : ∀ value, Accounts env engine (next value)) :
    Accounts env engine (program >>= next) := by
  intro world
  have earlier := first world
  rw [run_bind]
  cases ran : run env.handler program world with
  | mk outcome middle =>
    rw [ran] at earlier
    cases outcome with
    | error error =>
      refine earlier.followed (settled_same (fun _ _ => not_false) rfl) ?_
      intro before row created
      rcases (mem_issued_bind env.handler).mp created with own | ⟨_, _, impossible, _⟩
      · exact Or.inl own
      · rw [ran] at impossible
        cases impossible
    | ok value =>
      refine earlier.followed (rest value middle) ?_
      intro before row created
      rcases (mem_issued_bind env.handler).mp created with own | ⟨_, _, same, later⟩
      · exact Or.inl own
      · rw [ran] at same
        cases same
        exact Or.inr later

theorem accounts_tryCatch {program : Prog α} {rescuer : Exn → Prog α}
    (first : Accounts env engine program) (rest : ∀ error, Accounts env engine (rescuer error)) :
    Accounts env engine (tryCatch program rescuer) := by
  intro world
  have earlier := first world
  rw [run_tryCatch]
  cases ran : run env.handler program world with
  | mk outcome middle =>
    rw [ran] at earlier
    cases outcome with
    | ok value =>
      refine earlier.followed (settled_same (fun _ _ => not_false) rfl) ?_
      intro before row created
      rcases (mem_issued_tryCatch env.handler).mp created with own | ⟨_, _, impossible, _⟩
      · exact Or.inl own
      · rw [ran] at impossible
        cases impossible
    | error error =>
      refine earlier.followed (rest error middle) ?_
      intro before row created
      rcases (mem_issued_tryCatch env.handler).mp created with own | ⟨_, _, same, later⟩
      · exact Or.inl own
      · rw [ran] at same
        cases same
        exact Or.inr later

theorem accounts_attempt {program : Prog α} (accounts : Accounts env engine program) :
    Accounts env engine program.attempt := by
  intro world
  have creates : Creates env program.attempt world = Creates env program world := by
    funext before row
    simp only [Creates, issued_attempt]
  rw [creates, run_attempt]
  exact accounts world

theorem accounts_throw (error : Exn) : Accounts env engine (throw error : Prog α) := by
  have nothing : Footprint [] (throw error : Prog α) := footprint_throw error
  exact accounts_footprint nothing (by simp)

theorem accounts_pure (value : α) : Accounts env engine (pure value : Prog α) := by
  have nothing : Footprint [] (pure value : Prog α) := footprint_pure value
  exact accounts_footprint nothing (by simp)

end Composition

section Executions

variable (env : Environment) (engine : Engine)

/-- Commands that change no request but may finish this one. -/
def Touches (rid : Nat) (command : Command) : Prop :=
  command.effect ≠ .writing .requests ∨
    ∃ success finished_at result error,
      command = .transact (.finishRequest rid success finished_at result error)

/-- Since a request was created no other one has changed, and it has been started. -/
structure Begun (base : World) (rid : Nat) (world : World) : Prop where
  next : world.db.requests.next = base.db.requests.next
  others : ∀ other, other ≠ rid →
    world.db.requests.lookup other = base.db.requests.lookup other
  begun : status world.db rid ≠ some .ready

/-- A request that was started stays started. -/
theorem begun_step {base world : World} {rid : Nat} {command : Command}
    (touches : Touches rid command) (begun : Begun base rid world) :
    Begun base rid (env.handler command world).2 := by
  rcases touches with other | ⟨success, finished_at, result, error, rfl⟩
  · have same : (Environment.commit world.db command).requests = world.db.requests :=
      commit_same world.db other
    obtain ⟨next, others, begun⟩ := begun
    exact ⟨by simpa [Environment.handler, same] using next,
      by simpa [Environment.handler, same] using others,
      by simpa [Environment.handler, status, same] using begun⟩
  · refine ⟨?_, ?_, ?_⟩
    · simpa [Environment.handler, Environment.commit, Transaction.write] using begun.next
    · intro other different
      simpa [Environment.handler, Environment.commit, Transaction.write,
        Tables.Numbered.lookup_modify, different] using begun.others other different
    · simp only [status, Environment.handler, Environment.commit, Transaction.write,
        Tables.Numbered.lookup_modify, if_true, Option.map_map]
      cases world.db.requests.lookup rid <;> cases success <;> simp

theorem touches_footprint {α : Type} {effects : List Effect} {program : Prog α} {rid : Nat}
    (footprint : Footprint effects program) (unwritten : .writing .requests ∉ effects) :
    Issues (fun command : controller.Command => Touches rid command) program :=
  issues_mono footprint fun _ listed => Or.inl fun same => unwritten (same ▸ listed)

theorem touches_audit {rid : Nat} (actor action object_type object_id : String)
    (details : Dict) : Issues (fun command : controller.Command => Touches rid command)
      (audit actor action object_type object_id details) := by
  have footprint : Footprint [.silent, .writing .audits]
      (audit actor action object_type object_id details) :=
    footprint_audit (by decide) (by decide) _ _ _ _ _
  exact touches_footprint footprint (by decide)

theorem touches_finishRestore {rid : Nat} (success : Bool) (result : Dict)
    (error : Option String) : Issues (fun command : controller.Command => Touches rid command)
      (finishRestore rid success result error) := by
  refine issues_bind (touches_footprint (footprint_utcnow (List.mem_singleton.mpr rfl))
    (by decide)) fun now => ?_
  exact (issues_perform _).mpr (Or.inr ⟨success, now, result, error, rfl⟩)

/-- A started restore changes only its own request. -/
theorem touches_performRestore (prepared : Engine.Prepared) (target_name actor : String) :
    Issues (fun command : controller.Command => Touches prepared.request_id command)
      (engine.performRestore prepared target_name actor) := by
  refine issues_bind (touches_footprint (engine.footprint_fetchSource prepared) (by decide))
    fun _ => ?_
  refine issues_bind (touches_footprint (engine.footprint_createMachine prepared target_name)
    (by decide)) fun result => ?_
  refine issues_bind (touches_finishRestore true result none) fun _ => ?_
  refine issues_bind (touches_audit _ _ _ _ _) fun _ => ?_
  exact issues_bind (touches_footprint (footprint_rmtree (List.mem_singleton.mpr rfl) _)
    (by decide)) fun _ => issues_pure _

theorem touches_recordFailure (prepared : Engine.Prepared) (actor : String) (error : Exn) :
    Issues (fun command : controller.Command => Touches prepared.request_id command)
      (engine.recordFailure prepared actor error) := by
  refine issues_bind (touches_finishRestore false [] _) fun _ => ?_
  refine issues_bind (touches_audit _ _ _ _ _) fun _ => ?_
  dsimp only
  split
  · exact issues_bind (touches_footprint (footprint_rmtree (List.mem_singleton.mpr rfl) _)
      (by decide)) fun _ => issues_throw _
  · exact issues_throw _

/-- Programs that touch only this request keep it started. -/
theorem wp_begun {α : Type} {base world : World} {rid : Nat} {program : Prog α}
    (touches : Issues (fun command : controller.Command => Touches rid command) program)
    (begun : Begun base rid world) :
    wp (env.handler.monitor fun _ _ => True) program (fun _ final => Begun base rid final)
      world :=
  wp_of_issues (Begun base rid) touches begun fun _ _ begun touches =>
    ⟨trivial, fun _ _ => begun_step env touches begun⟩

/-- The execution of a ready request starts it and never makes it ready again. -/
theorem wp_runRestore {world : World} {row : RequestRow} (prepared : Engine.Prepared)
    (actor : String) (present : world.db.requests.lookup prepared.request_id = some row)
    (ready : row.status = .ready) :
    wp (env.handler.monitor fun _ _ => True) (engine.runRestore prepared actor)
      (fun _ final => Begun world prepared.request_id final) world := by
  have started : wp (env.handler.monitor fun _ _ => True)
      (startRestore prepared.request_id actor)
      (fun _ final => Begun world prepared.request_id final) world := by
    refine wp_bind (wp_transact trivial ?_)
    have read : Transaction.read world.db (.selectRequest prepared.request_id) = some row :=
      present
    simp only [read, ready, ne_eq, reduceCtorEq, not_false_eq_true, not_true_eq_false,
      and_false, if_false]
    refine wp_bind (wp_utcnow trivial ?_)
    refine wp_bind (wp_transact trivial ?_)
    have reread : Footprint [.silent] (getRestoreRequest prepared.request_id) :=
      footprint_reading rfl (by simp)
    refine wp_begun env (issues_bind (touches_audit _ _ _ _ _) fun _ =>
      issues_bind (touches_footprint reread (by decide)) fun _ => issues_pure _) ?_
    refine ⟨rfl, ?_, ?_⟩
    · intro other different
      simp [Environment.handler, Environment.commit, Transaction.write,
        Tables.Numbered.lookup_modify, different]
    · simp [status, Environment.handler, Environment.commit, Transaction.write,
        Tables.Numbered.lookup_modify, present]
  refine wp_bind (wp_mono started ?_)
  intro outcome middle begun
  cases outcome with
  | error error => exact begun
  | ok req =>
    refine wp_tryCatch (wp_mono (wp_begun env (touches_performRestore engine prepared _ actor) begun) ?_)
    intro outcome later begun
    cases outcome with
    | ok result => exact begun
    | error error => exact wp_begun env (touches_recordFailure engine prepared actor error) begun

/-- A command that creates a request. -/
def Inserts (command : Command) : Prop := ∃ row, command = .transact (.insertRequest row)

/-- Commands that write no request create none. -/
theorem uninserting_footprint {α : Type} {effects : List Effect} {program : Prog α}
    (footprint : Footprint effects program) (unwritten : .writing .requests ∉ effects) :
    Issues (fun command : controller.Command => ¬ Inserts command) program := by
  refine issues_mono footprint ?_
  rintro command listed ⟨row, rfl⟩
  exact unwritten listed

theorem uninserting_touches {α : Type} {rid : Nat} {program : Prog α}
    (touches : Issues (fun command : controller.Command => Touches rid command) program) :
    Issues (fun command : controller.Command => ¬ Inserts command) program := by
  refine issues_mono touches ?_
  rintro command touched ⟨row, rfl⟩
  rcases touched with other | ⟨_, _, _, _, impossible⟩
  · exact other rfl
  · cases impossible

/-- An execution creates no request. -/
theorem uninserting_runRestore (prepared : Engine.Prepared) (actor : String) :
    Issues (fun command : controller.Command => ¬ Inserts command)
      (engine.runRestore prepared actor) := by
  have silent (transaction : Transaction) (quiet : writes transaction = none) :
      Issues (fun command : controller.Command => ¬ Inserts command) (transact transaction) := by
    have footprint : Footprint [.silent] (transact transaction) :=
      footprint_transact (by simp [Command.effect, quiet])
    exact uninserting_footprint footprint (by decide)
  have audited : Issues (fun command : controller.Command => ¬ Inserts command)
      (audit actor "restore.execute" "restore_request" (toString prepared.request_id) []) := by
    have footprint : Footprint [.silent, .writing .audits]
        (audit actor "restore.execute" "restore_request" (toString prepared.request_id) []) :=
      footprint_audit (by decide) (by decide) _ _ _ _ _
    exact uninserting_footprint footprint (by decide)
  have started : Issues (fun command : controller.Command => ¬ Inserts command)
      (startRestore prepared.request_id actor) := by
    refine issues_bind (silent _ rfl) fun req => ?_
    cases req with
    | none => exact issues_throw _
    | some req =>
      dsimp only
      split
      · exact issues_throw _
      · refine issues_bind (uninserting_footprint (footprint_utcnow
          (List.mem_singleton.mpr rfl)) (by decide)) fun now => ?_
        refine issues_bind ((issues_perform _).mpr ?_) fun _ => ?_
        · rintro ⟨row, impossible⟩
          cases impossible
        · exact issues_bind audited fun _ => issues_bind (silent _ rfl) fun _ => issues_pure _
  refine issues_bind started fun req => ?_
  refine issues_tryCatch (uninserting_touches (touches_performRestore engine prepared _ actor))
    fun error => ?_
  exact uninserting_touches (touches_recordFailure engine prepared actor error)

/-- What happens between the insertion of a request and its start. -/
def checks (engine : Engine) (row : RequestRow) (rid : Nat) : Prog Engine.Prepared := do
  audit row.requester "restore.request" "restore_request" (toString rid)
    [("snapshot_id", .str row.snapshot_id)]
  engine.prepareRestore rid "dr-orchestrator"

theorem footprint_checks (row : RequestRow) (rid : Nat) :
    Footprint [.silent, .outside, .writing .audits] (checks engine row rid) :=
  footprint_bind (footprint_audit (by simp) (by simp) _ _ _ _ _) fun _ =>
    engine.footprint_prepareRestore rid "dr-orchestrator"

/-- The state of the world right after an insertion. -/
def afterInsertion (env : Environment) (before : World) (row : RequestRow) : World :=
  (env.handler (.transact (.insertRequest row)) before).2

/-- A program that begins with an insertion continues with the number of the new row. -/
theorem run_insertion {α : Type} (row : RequestRow) (next : Nat → Prog α) (before : World) :
    run env.handler (transact (.insertRequest row) >>= next) before =
      run env.handler (next before.db.requests.next) (afterInsertion env before row) :=
  Histories.run_transact_bind _ _ _

/-- The checks pass exactly when they return from where the insertion leaves the world. -/
theorem checksPass_iff (before : World) (row : RequestRow) :
    ChecksPass env engine before row ↔ ∃ prepared final,
      run env.handler (checks engine row before.db.requests.next)
        (afterInsertion env before row) = (.ok prepared, final) := by
  have same : (announce row >>= fun rid => engine.prepareRestore rid "dr-orchestrator") =
      transact (.insertRequest row) >>= checks engine row := by
    simp only [announce, bind_assoc, pure_bind]
    rfl
  have continued := run_insertion env row (checks engine row) before
  simp only [ChecksPass, same, continued]

/-- Whatever the execution does that follows an insertion, the request is settled. -/
theorem accounts_inserted (row : RequestRow) (ready : row.status = .ready) :
    Accounts env engine (transact (.insertRequest row) >>= fun rid =>
      checks engine row rid >>= fun prepared =>
        engine.runRestore prepared "dr-orchestrator") := by
  intro world
  rw [run_insertion]
  have inserted : (afterInsertion env world row).db.requests = world.db.requests.insert row := rfl
  have only : ∀ before created, Creates env (transact (.insertRequest row) >>= fun rid =>
      checks engine row rid >>= fun prepared => engine.runRestore prepared "dr-orchestrator")
      world before created → before = world ∧ created = row := by
    intro before created member
    rcases (mem_issued_bind env.handler).mp member with own | ⟨rid, middle, _, later⟩
    · have same : (before, Command.transact (.insertRequest created)) =
          (world, Command.transact (.insertRequest row)) := List.mem_singleton.mp own
      cases same
      exact ⟨rfl, rfl⟩
    · have uninserting : Issues (fun command : controller.Command => ¬ Inserts command)
          (checks engine row rid >>= fun prepared =>
            engine.runRestore prepared "dr-orchestrator") :=
        issues_bind (uninserting_footprint (footprint_checks engine row rid) (by decide))
          fun prepared => uninserting_runRestore engine prepared _
      exact absurd ⟨created, rfl⟩ (issues_issued uninserting middle _ later)
  rw [run_bind]
  cases ran : run env.handler (checks engine row world.db.requests.next)
      (afterInsertion env world row) with
  | mk outcome middle =>
    have kept : middle.db.requests = world.db.requests.insert row := by
      have same : Table.requests.Same (afterInsertion env world row).db
          (run env.handler (checks engine row world.db.requests.next)
            (afterInsertion env world row)).2.db :=
        same_run (footprint_checks engine row world.db.requests.next) (by decide) _
      rw [ran] at same
      exact Eq.trans same inserted
    have present : middle.db.requests.lookup world.db.requests.next = some row := by
      simp [kept, Tables.Numbered.lookup_insert]
    have others : ∀ rid < world.db.requests.next,
        middle.db.requests.lookup rid = world.db.requests.lookup rid := by
      intro rid older
      have different : rid ≠ world.db.requests.next := by omega
      simp [kept, Tables.Numbered.lookup_insert, different]
    cases outcome with
    | error error =>
      refine ⟨by simp [kept], others, ?_⟩
      intro before created member
      obtain ⟨rfl, rfl⟩ := only before created member
      refine ⟨le_rfl, by simp [kept], ?_⟩
      have left : status middle.db before.db.requests.next = some .ready := by
        simp [status, present, ready]
      rw [checksPass_iff, ran]
      constructor
      · exact fun begun => absurd left begun
      · rintro ⟨_, _, impossible⟩
        cases impossible
    | ok prepared =>
      have own : prepared.request_id = world.db.requests.next := by
        have yields : Yields (fun prepared : Engine.Prepared =>
            prepared.request_id = world.db.requests.next)
            (checks engine row world.db.requests.next) :=
          yields_bind fun _ => engine.yields_prepareRestore _ _
        exact yields_run yields (congrArg Prod.fst ran)
      have begun := wp_run (wp_runRestore env engine prepared "dr-orchestrator"
        (own ▸ present) ready)
      rw [own] at begun
      refine ⟨?_, ?_, ?_⟩
      · rw [begun.next, kept]
        simp
      · intro rid older
        rw [begun.others rid (by omega), others rid older]
      · intro before created member
        obtain ⟨rfl, rfl⟩ := only before created member
        refine ⟨le_rfl, by simp [begun.next, kept], ?_⟩
        rw [checksPass_iff, ran]
        exact ⟨fun _ => ⟨prepared, middle, rfl⟩, fun _ => begun.begun⟩

/-- A request that is created ready and executed at once is settled. -/
theorem accounts_restoreReady (point : Point) (target_platform target_name : String)
    (options : Dict) :
    Accounts env engine (restoreReady engine point target_platform target_name options) := by
  let row (now : Timestamps.Timestamp) : RequestRow := {
    created_at := now, requester := "dr-orchestrator", snapshot_id := point.snapshot_id
    source_platform := point.platform, vm_id := point.vm_id, vm_name := point.vm_name
    target_platform := target_platform, target_name := target_name, options := options
    status := .ready }
  have divided : restoreReady engine point target_platform target_name options =
      utcnow >>= fun now =>
        (transact (.insertRequest (row now)) >>= fun rid =>
          checks engine (row now) rid >>= fun prepared =>
            engine.runRestore prepared "dr-orchestrator") >>= fun result =>
          raised (engine.platform target_platform) >>= fun adapter => pure (adapter, result) := by
    simp only [restoreReady, createRestoreRequest, checks, Engine.executeRestore, bind_assoc,
      pure_bind, Bool.false_eq_true, if_false, row]
  rw [divided]
  refine accounts_bind (accounts_footprint (footprint_utcnow (List.mem_singleton.mpr rfl))
    (by decide)) fun now => ?_
  refine accounts_bind (accounts_inserted env engine (row now) rfl) fun result => ?_
  have answered : Footprint [] (raised (engine.platform target_platform) >>= fun adapter =>
      pure (adapter, result) : Prog (Configuration.PlatformConfig × Dict)) :=
    footprint_bind (footprint_raised _) fun _ => footprint_pure _
  exact accounts_footprint answered (by simp)

end Executions

section Recoveries

variable (env : Environment) (engine : Engine)

theorem accounts_restoreWorkloads (run_id : Nat) (started : Timestamps.Timestamp)
    (pairs : List (Configuration.DRVMConfig × PlanRow)) (restored : List Restored) :
    Accounts env engine (restoreWorkloads engine run_id started pairs restored) := by
  induction pairs generalizing restored with
  | nil => exact accounts_pure _
  | cons pair rest inductionHypothesis =>
    obtain ⟨workload, row⟩ := pair
    have one : Accounts env engine (restoreWorkload engine run_id started workload row) := by
      unfold restoreWorkload
      dsimp only
      split
      · exact accounts_throw _
      · rename_i planned _
        have read : Footprint [.silent] (getPoint planned.snapshot_id) :=
          footprint_reading rfl (by simp)
        refine accounts_bind (accounts_footprint read (by decide)) fun point => ?_
        split
        · exact accounts_throw _
        · exact accounts_bind (accounts_restoreReady env engine _ _ _ _) fun created =>
            accounts_pure _
    refine accounts_bind (accounts_attempt one) fun outcome => ?_
    cases outcome with
    | error exc => exact accounts_pure _
    | ok created =>
      refine accounts_bind (accounts_footprint (footprint_attempt (footprint_addDrWorkload _))
        (by decide)) fun recorded => ?_
      cases recorded with
      | error exc => exact accounts_pure _
      | ok number => exact inductionHypothesis _

theorem accounts_restorePrimaries (run_id : Nat) (started : Timestamps.Timestamp)
    (final_points : Dict) (workloads : List Configuration.DRVMConfig) :
    Accounts env engine (restorePrimaries engine run_id started final_points workloads) := by
  induction workloads with
  | nil => exact accounts_pure _
  | cons workload rest inductionHypothesis =>
    have one : Accounts env engine
        (restorePrimary engine run_id started final_points workload) := by
      unfold restorePrimary
      split
      · exact accounts_throw _
      · rename_i snapshot _
        have read : Footprint [.silent] (getPoint snapshot.toText) :=
          footprint_reading rfl (by simp)
        refine accounts_bind (accounts_footprint read (by decide)) fun point => ?_
        split
        · exact accounts_throw _
        · refine accounts_bind (accounts_restoreReady env engine _ _ _ _) fun created => ?_
          have listed (entry : WorkloadRow) : Footprint [.writing .workloads]
              (addDrWorkload entry) :=
            footprint_writing rfl (by simp)
          exact accounts_bind (accounts_footprint (listed _) (by decide)) fun _ => accounts_pure _
    exact accounts_bind one fun _ => accounts_bind inductionHypothesis fun _ => accounts_pure _

/-- Every run of a promotion is accounted for. -/
theorem accounts_promote (execute confirm_primary_fenced automatic : Bool) :
    Accounts env engine (promote engine execute confirm_primary_fenced automatic) := by
  have aborted (run_id : Nat) (restored : List Restored) (exc : Exn) :
      Accounts env engine (abortPromotion engine run_id restored exc) :=
    accounts_footprint (footprint_abortPromotion engine run_id restored exc) (by simp)
  have finished (run_id : Nat) (plan : DRPlan) :
      Accounts env engine (runPromotion engine run_id plan) := by
    refine accounts_bind (accounts_attempt (accounts_footprint (footprint_prepareSites engine)
      (by simp))) fun outcome => ?_
    cases outcome with
    | error exc => exact aborted run_id [] exc
    | ok started =>
      refine accounts_bind (accounts_restoreWorkloads env engine run_id started _ _)
        fun outcome => ?_
      obtain ⟨restored, failed⟩ := outcome
      cases failed with
      | some exc => exact aborted run_id restored exc
      | none =>
        exact accounts_tryCatch (accounts_footprint
          (footprint_completePromotion engine run_id restored) (by simp)) (aborted run_id restored)
  have enabled : Footprint [] (ensureEnabled engine) := footprint_ensureEnabled engine []
  refine accounts_bind (accounts_footprint enabled (by simp)) fun _ => ?_
  refine accounts_bind (accounts_footprint (footprint_plan engine) (by decide)) fun plan => ?_
  split
  · exact accounts_pure _
  · refine accounts_bind (accounts_footprint footprint_alreadyFailedOver (by decide))
      fun active => ?_
    split
    · exact accounts_pure _
    · split
      · exact accounts_throw _
      · refine accounts_bind (accounts_footprint (footprint_preflight engine plan) (by simp))
          fun preflight => ?_
        split
        · exact accounts_throw _
        · refine accounts_bind (accounts_footprint (footprint_fencePrimary engine _ _)
            (by decide)) fun _ => ?_
          refine accounts_bind (accounts_footprint (footprint_createDrRun _ _ _ _) (by decide))
            fun run_id => ?_
          exact finished run_id plan

/-- Every run of a failback is accounted for. -/
theorem accounts_failback (execute confirm_primary_isolated : Bool) :
    Accounts env engine (failback engine execute confirm_primary_isolated) := by
  have finished (run_id source_run : Nat) (workloads : List WorkloadRow) :
      Accounts env engine (runFailback engine run_id source_run workloads) := by
    have returned : Accounts env engine (returnWorkloads engine run_id workloads) := by
      refine accounts_bind (accounts_footprint (DRNetwork.NetworkManager.footprint_prepare _ _)
        (by simp)) fun _ => ?_
      refine accounts_bind (accounts_footprint
        (DRNetwork.NetworkManager.footprint_deactivate _ _ _) (by simp)) fun _ => ?_
      refine accounts_bind (accounts_footprint (footprint_finalBackups engine _ _) (by decide))
        fun final_points => ?_
      refine accounts_bind (accounts_footprint (footprint_utcnow (List.mem_singleton.mpr rfl))
        (by decide)) fun started => ?_
      refine accounts_bind (accounts_restorePrimaries env engine _ _ _ _) fun restored => ?_
      exact accounts_bind (accounts_footprint
        (DRNetwork.NetworkManager.footprint_deactivate _ _ _) (by simp)) fun _ => accounts_pure _
    refine accounts_bind returned fun outcome => ?_
    obtain ⟨final_points, restored⟩ := outcome
    refine accounts_bind (accounts_footprint (footprint_switchOff engine _) (by decide))
      fun _ => ?_
    exact accounts_footprint (footprint_startPrimary engine _ _ _ _) (by simp)
  have read (transaction : Transaction) (quiet : writes transaction = none) :
      Accounts env engine (transact transaction) := by
    have footprint : Footprint [.silent] (transact transaction) :=
      footprint_transact (by simp [Command.effect, quiet])
    exact accounts_footprint footprint (by decide)
  have enabled : Footprint [] (ensureEnabled engine) := footprint_ensureEnabled engine []
  refine accounts_bind (accounts_footprint enabled (by simp)) fun _ => ?_
  refine accounts_bind (read _ rfl) fun last => ?_
  cases last with
  | none => exact accounts_pure _
  | some last =>
    refine accounts_bind (accounts_footprint footprint_alreadyFailedOver (by decide))
      fun active => ?_
    split
    · exact accounts_pure _
    · refine accounts_bind (read _ rfl) fun workloads => ?_
      split
      · exact accounts_pure _
      · split
        · exact accounts_throw _
        · refine accounts_bind (accounts_footprint (footprint_createDrRun _ _ _ _) (by decide))
            fun run_id => ?_
          exact accounts_tryCatch (finished run_id _ _) fun exc =>
            accounts_footprint (footprint_abortFailback run_id exc) (by decide)

/-- A promotion or a failback, with the flags it is called with. -/
inductive Recovery where
  | promote (execute confirm_primary_fenced automatic : Bool)
  | failback (execute confirm_primary_isolated : Bool)

def Recovery.program : Recovery → Prog Unit
  | .promote execute confirm_primary_fenced automatic => do
    let _ ← DROrchestrator.promote engine execute confirm_primary_fenced automatic
  | .failback execute confirm_primary_isolated => do
    let _ ← DROrchestrator.failback engine execute confirm_primary_isolated

theorem accounts_recovery (recovery : Recovery) :
    Accounts env engine (recovery.program engine) := by
  cases recovery with
  | promote execute confirm automatic =>
    exact accounts_bind (accounts_promote env engine _ _ _) fun _ => accounts_pure _
  | failback execute confirm =>
    exact accounts_bind (accounts_failback env engine _ _) fun _ => accounts_pure _

end Recoveries

/-- A world in which everything goes well, except that staging is nearly full. -/
def crowded : Environment where
  answer := fun history external =>
    match external with
    | .diskUsage _ => .ok (100, 5)
    | external => cooperative.answer history external
  elapsed := fun _ _ => 1

/-- The state in which a promotion leaves the world when staging is nearly full. -/
def aborted : World :=
  (run crowded.handler (Recovery.program recovery (.promote true true false))
    ⟨replicated, 0, []⟩).2

end Immutavault.RecoveryRequests
