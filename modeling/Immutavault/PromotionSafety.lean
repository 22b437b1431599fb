import Immutavault.DROrchestrator
import Immutavault.Histories

/-!
# What a promotion guarantees

A promotion changes the recovery site for the world to see in two ways: it
activates the site's gateway, and it switches restored machines on. Both happen
only after a ready plan, a clean preflight and the fence, and only when every
configured workload was restored from the point that its plan row names, from
the configured replica, to a platform of the family it came from.

The machines are switched on in their boot order, and a machine only after all
before it have passed their health checks. The rows of the plan and the
workloads are paired by position, and both positions come from the same sort.
-/

namespace Immutavault.PromotionSafety

open Programs Values Catalog Machine Histories Configuration ResticRepository StateDatabase
open RestoreEngine Adapters DROrchestrator

section Sequence

/-- The boot order is total. -/
theorem bootsBefore_total (first second : DRVMConfig) :
    BootsBefore first second ∨ BootsBefore second first := by
  unfold BootsBefore
  rcases lt_trichotomy first.boot_order second.boot_order with less | same | greater
  · exact Or.inl (Or.inl less)
  · rcases String.le_total first.name second.name with named | named
    · exact Or.inl (Or.inr ⟨same, named⟩)
    · exact Or.inr (Or.inr ⟨same.symm, named⟩)
  · exact Or.inr (Or.inl greater)

theorem bootsBefore_trans {first second third : DRVMConfig} (earlier : BootsBefore first second)
    (later : BootsBefore second third) : BootsBefore first third := by
  unfold BootsBefore at *
  rcases earlier with less | ⟨same, named⟩
  · rcases later with more | ⟨again, _⟩
    · exact Or.inl (less.trans more)
    · exact Or.inl (again ▸ less)
  · rcases later with more | ⟨again, renamed⟩
    · exact Or.inl (same ▸ more)
    · exact Or.inr ⟨same.trans again, String.le_trans named renamed⟩

instance : Std.Total BootsBefore := ⟨bootsBefore_total⟩

instance : IsTrans DRVMConfig BootsBefore := ⟨fun _ _ _ => bootsBefore_trans⟩

/-- The boot sequence contains every configured workload, in boot order. -/
theorem bootSequence_sorted (engine : Engine) :
    (bootSequence engine).Perm engine.cfg.dr.workloads ∧
      (bootSequence engine).Pairwise BootsBefore :=
  ⟨List.perm_insertionSort BootsBefore _, List.pairwise_insertionSort BootsBefore _⟩

end Sequence

section Plans

variable (engine : Engine)

/-- A plan row that gives a workload no reason to stay where it is. -/
structure Fit (workload : DRVMConfig) (row : PlanRow) (planned : PlannedPoint) : Prop where
  named : row.workload = workload.name
  point : row.point = some planned
  verified : planned.verified = true
  unsuspicious : planned.suspicious = false
  recent : planned.rpo_minutes ≤ engine.cfg.dr.rpo_max_minutes
  copied : planned.replica_ready = true
  family : ∃ source target, engine.platform workload.source_platform = .ok source ∧
    engine.platform workload.target_platform = .ok target ∧ target.type = source.type

/-- A point about which there is no complaint. -/
theorem complaints_nil {workload : DRVMConfig} {planned : PlannedPoint}
    (none : complaints engine workload planned = []) :
    planned.verified = true ∧ planned.suspicious = false ∧
      planned.rpo_minutes ≤ engine.cfg.dr.rpo_max_minutes ∧ planned.replica_ready = true := by
  simp only [complaints, List.append_eq_nil_iff] at none
  obtain ⟨⟨⟨verified, suspicious⟩, recent⟩, copied⟩ := none
  refine ⟨?_, ?_, ?_, ?_⟩
  · by_contra unverified
    simp [unverified] at verified
  · by_contra flagged
    simp [flagged] at suspicious
  · by_contra old
    simp [Nat.lt_of_not_le old] at recent
  · by_contra missing
    simp [missing] at copied

/-- A row that a plan does not complain about fits its workload. -/
theorem yields_planWorkload (workload : DRVMConfig) :
    Yields (fun outcome : PlanRow × List String => outcome.2 = [] →
      ∃ planned, Fit engine workload outcome.1 planned) (planWorkload engine workload) := by
  refine yields_bind fun point => ?_
  cases src : engine.platform workload.source_platform with
  | error error => exact yields_throw _
  | ok source =>
    cases dst : engine.platform workload.target_platform with
    | error error => exact yields_throw _
    | ok target =>
      dsimp only [raised_ok]
      refine yields_bind_of (yields_pure rfl) fun given same => ?_
      subst same
      refine yields_bind_of (yields_pure rfl) fun given same => ?_
      subst same
      split
      · exact yields_pure fun impossible => by cases impossible
      · rename_i sameType
        cases point with
        | none => exact yields_pure fun impossible => by cases impossible
        | some point =>
          refine yields_bind fun copy => yields_bind fun now => yields_pure fun none => ?_
          obtain ⟨verified, unsuspicious, recent, copied⟩ := complaints_nil engine none
          refine ⟨_, rfl, rfl, verified, unsuspicious, recent, copied, source, target, src, dst, ?_⟩
          by_contra different
          exact sameType fun same => different same.symm

/-- Without complaints there is one fitting row for every workload, in the same order. -/
theorem yields_planRows (workloads : List DRVMConfig) :
    Yields (fun outcome : List PlanRow × List String => outcome.2 = [] →
      List.Forall₂ (fun workload row => ∃ planned, Fit engine workload row planned) workloads
        outcome.1) (planRows engine workloads) := by
  induction workloads with
  | nil => exact yields_pure fun _ => List.Forall₂.nil
  | cons workload rest inductionHypothesis =>
    refine yields_bind_of (yields_planWorkload engine workload) ?_
    rintro ⟨row, errors⟩ fits
    refine yields_bind_of inductionHypothesis ?_
    rintro ⟨rows, more⟩ others
    refine yields_pure fun none => ?_
    obtain ⟨noErrors, noMore⟩ := List.append_eq_nil_iff.mp none
    exact List.Forall₂.cons (fits noErrors) (others noMore)

/-- A ready plan has one fitting row for every workload, in boot order. -/
theorem yields_plan :
    Yields (fun plan : DRPlan => plan.ready = true →
      List.Forall₂ (fun workload row => ∃ planned, Fit engine workload row planned)
        (bootSequence engine) plan.workloads) (plan engine) := by
  refine yields_bind fun _ => ?_
  refine yields_bind_of (yields_planRows engine (bootSequence engine)) ?_
  rintro ⟨rows, errors⟩ fits
  refine yields_bind fun primary => yields_bind fun dr => yields_pure fun ready => ?_
  exact fits (by simpa using ready)

end Plans

section Restores

variable {env : Environment} {engine : Engine}

/-- What an execution resolves a request to. -/
structure Resolved (engine : Engine) (request_id : Nat) (req : RequestRow)
    (prepared : Engine.Prepared) : Prop where
  request : prepared.request_id = request_id
  snapshot : prepared.point.snapshot_id = req.snapshot_id
  target : engine.platform req.target_platform = .ok prepared.target
  repository : prepared.source_repository = Engine.sourceRepository req.options
  replica : Engine.sourceRepository req.options ≠ "primary" →
    ∃ replica, engine.replica (Engine.sourceRepository req.options) = .ok replica ∧
      prepared.replica = some replica

/-- A point is read under its own identifier. -/
theorem livePoint_snapshot_id {db : Database} {snapshot_id : String} {point : Point}
    (found : db.livePoint snapshot_id = some point) : point.snapshot_id = snapshot_id := by
  obtain ⟨row, _, live⟩ := Option.bind_eq_some_iff.mp found
  split at live
  · cases live
  · cases live
    rfl

/-- A source other than the primary repository is a configured replica. -/
theorem yields_resolveSource (point : Point) (name : String) :
    Yields (fun source : Option ReplicaConfig => name ≠ "primary" →
      ∃ replica, engine.replica name = .ok replica ∧ source = some replica)
      (engine.resolveSource point name) := by
  unfold Engine.resolveSource
  split
  · rename_i primary
    exact yields_pure fun other => absurd primary other
  · cases found : engine.replica name with
    | error error => exact yields_throw _
    | ok replica =>
      dsimp only [raised_ok]
      refine yields_bind_of (yields_pure rfl) fun given same => ?_
      subst same
      refine yields_bind fun copy => ?_
      split
      · exact yields_pure fun _ => ⟨_, rfl, rfl⟩
      · exact yields_throw _

theorem lookupNative_ok {request_id : Nat} {req : RequestRow} {world final : World}
    {prepared : Engine.Prepared} (present : world.db.requests.lookup request_id = some req)
    (ran : run env.handler (engine.lookupNative request_id false) world = (.ok prepared, final)) :
    Resolved engine request_id req prepared := by
  have read : Transaction.read world.db (.selectRequest request_id) = some req := present
  rw [Engine.lookupNative, getRestoreRequest, run_transact_bind, read] at ran
  obtain ⟨_, plannable, _, ran⟩ := (run_bind_eq_ok env.handler).mp ran
  rw [getPoint, run_transact_bind] at ran
  cases found : Transaction.read plannable.db (.selectPoint req.snapshot_id) with
  | none =>
    rw [found] at ran
    cases ran
  | some point =>
    rw [found] at ran
    obtain ⟨target, known, ran⟩ := run_raised_bind ran
    obtain ⟨source, _, resolved, ran⟩ := (run_bind_eq_ok env.handler).mp ran
    cases ran
    exact ⟨rfl, livePoint_snapshot_id found, known, rfl,
      yields_run (yields_resolveSource point _) (congrArg Prod.fst resolved)⟩

theorem lookup_ok {request_id : Nat} {req : RequestRow} {world final : World}
    {prepared : Engine.Prepared} (present : world.db.requests.lookup request_id = some req)
    (ran : run env.handler (engine.lookup request_id false) world = (.ok prepared, final)) :
    Resolved engine request_id req prepared := by
  unfold Engine.lookup at ran
  split at ran
  · exact lookupNative_ok present ran
  · have read : Transaction.read world.db (.selectRequest request_id) = some req := present
    rw [getRestoreRequest, run_transact_bind, read] at ran
    dsimp only at ran
    rw [getPoint, run_transact_bind] at ran
    cases found : Transaction.read world.db (.selectPoint req.snapshot_id) with
    | none =>
      have missing : Transaction.read (env.handler (.transact (.selectRequest request_id))
          world).2.db (.selectPoint req.snapshot_id) = none := found
      rw [missing] at ran
      cases ran
    | some point =>
      have there : Transaction.read (env.handler (.transact (.selectRequest request_id))
          world).2.db (.selectPoint req.snapshot_id) = some point := found
      rw [there] at ran
      obtain ⟨target, known, ran⟩ := run_raised_bind ran
      dsimp only at ran
      split at ran
      · refine lookupNative_ok ?_ ran
        exact present
      · obtain ⟨_, _, _, ran⟩ := (run_bind_eq_ok env.handler).mp ran
        obtain ⟨plan, _, ran⟩ := run_request_bind ran
        split at ran
        · cases ran
        · obtain ⟨source, _, resolved, ran⟩ := (run_bind_eq_ok env.handler).mp ran
          cases ran
          exact ⟨rfl, livePoint_snapshot_id found, known, rfl,
            yields_run (yields_resolveSource point _) (congrArg Prod.fst resolved)⟩

/-- The exchange that creates a machine on a platform from a restored directory, and
the result that the program makes of it. -/
inductive Creation (engine : Engine) (adapter : PlatformConfig) (source snapshot_id : String)
    (result : Dict) : Exchange controller Exn → Prop
  | native (target_name : String) (options created : Dict)
      (reported : result = created.set "source_repository" (.str engine.cfg.dr.replica)) :
      Creation engine adapter source snapshot_id result
        ⟨.request (.restoreVM adapter source target_name options), .ok created⟩
  | converted (point : Point) (target_name : String) (options created : Dict)
      (own : point.snapshot_id = snapshot_id)
      (reported : result = (created.set "source_repository"
        (.str engine.cfg.dr.replica)).set "source_snapshot" (.str snapshot_id)) :
      Creation engine adapter source snapshot_id result
        ⟨.request (.v2vExecute source point adapter target_name options), .ok created⟩

/-- Since the given state a snapshot was fetched from the configured replica with
success, and then a machine was created from the fetched directory. -/
def RestoredFromReplica (engine : Engine) (adapter : PlatformConfig) (snapshot_id : String)
    (result : Dict) (start now : World) : Prop :=
  ∃ replica settings directory path fetched creation,
    engine.replica engine.cfg.dr.replica = .ok replica ∧
    targetEnv replica engine.getenv = .ok settings ∧
    fetched.returncode = 0 ∧
    Creation engine adapter (joinPath directory path) snapshot_id result creation ∧
    Since start [⟨.request (.run (.restic (.restore (resticOptions replica) snapshot_id directory))
      settings none), .ok fetched⟩, creation] now

/-- Fetching from a replica that returns has run the restore command with success. -/
theorem restore_ok {start world final : World} {snapshot_id target : String}
    {replica : ReplicaConfig}
    (ran : run env.handler (restore engine.cfg.repository engine.getenv snapshot_id target
      (some replica)) world = (.ok (), final)) (since : Since start [] world) :
    ∃ settings fetched, targetEnv replica engine.getenv = .ok settings ∧
      fetched.returncode = 0 ∧
      Since start [⟨.request (.run (.restic (.restore (resticOptions replica) snapshot_id target))
        settings none), .ok fetched⟩] final := by
  obtain ⟨_, _, ran⟩ := run_request_bind ran
  obtain ⟨settings, known, ran⟩ := run_raised_bind ran
  obtain ⟨fetched, answered, clean, ran⟩ := run_command_bind ran
  cases ran
  refine ⟨settings, fetched, known, clean rfl, ?_⟩
  have before : Since start [] (env.handler (.request (.mkdir target)) world).2 :=
    since.grown (List.prefix_append _ _)
  exact before.answered answered

/-- Creating the machine is one more exchange. -/
theorem createMachine_ok {start world final : World} {listed : History}
    {prepared : Engine.Prepared} {target_name : String} {result : Dict}
    (repository : prepared.source_repository = engine.cfg.dr.replica)
    (ran : run env.handler (engine.createMachine prepared target_name) world =
      (.ok result, final)) (since : Since start listed world) :
    ∃ creation, Creation engine prepared.target (engine.restoredSource prepared)
      prepared.point.snapshot_id result creation ∧ Since start (listed ++ [creation]) final := by
  unfold Engine.createMachine at ran
  dsimp only at ran
  split at ran
  · obtain ⟨answer, answered, finished⟩ := run_request_bind ran
    cases finished
    exact ⟨_, .native target_name prepared.options answer (by rw [repository]),
      since.answered answered⟩
  · obtain ⟨answer, answered, finished⟩ := run_request_bind ran
    cases finished
    exact ⟨_, .converted prepared.point target_name prepared.options answer rfl
      (by rw [repository]), since.answered answered⟩

/-- A staged restore that returns has fetched the snapshot and created the machine. -/
theorem performRestore_ok {start world final : World} {prepared : Engine.Prepared}
    {replica : ReplicaConfig} {target_name actor : String} {result : Dict}
    (source : engine.replica engine.cfg.dr.replica = .ok replica)
    (chosen : prepared.replica = some replica)
    (repository : prepared.source_repository = engine.cfg.dr.replica)
    (ran : run env.handler (engine.performRestore prepared target_name actor) world =
      (.ok result, final)) (since : Since start [] world) :
    RestoredFromReplica engine prepared.target prepared.point.snapshot_id result start final := by
  obtain ⟨_, fetchedWorld, fetching, ran⟩ := (run_bind_eq_ok env.handler).mp ran
  obtain ⟨_, cleared, clearing, fetching⟩ := (run_bind_eq_ok env.handler).mp fetching
  obtain ⟨_, restoredWorld, restoring, fetching⟩ := (run_bind_eq_ok env.handler).mp fetching
  rw [chosen] at restoring
  obtain ⟨settings, fetched, known, clean, fetchedSince⟩ :=
    restore_ok restoring (since.ran clearing)
  have stagedSince := fetchedSince.ran fetching
  obtain ⟨created, createdWorld, creating, ran⟩ := (run_bind_eq_ok env.handler).mp ran
  obtain ⟨creation, made, machineSince⟩ := createMachine_ok repository creating stagedSince
  obtain ⟨_, _, finishing, ran⟩ := (run_bind_eq_ok env.handler).mp ran
  obtain ⟨_, _, auditing, ran⟩ := (run_bind_eq_ok env.handler).mp ran
  obtain ⟨_, _, removing, ran⟩ := (run_bind_eq_ok env.handler).mp ran
  cases ran
  exact ⟨replica, settings, _, _, fetched, creation, source, known, clean, made,
    ((machineSince.ran finishing).ran auditing).ran removing⟩

/-- A failure is raised again. -/
theorem recordFailure_raises {world final : World} {prepared : Engine.Prepared} {actor : String}
    {error : Exn} {result : Dict} :
    run env.handler (engine.recordFailure prepared actor error) world ≠ (.ok result, final) := by
  intro ran
  have raises : Yields (fun _ : Dict => False) (engine.recordFailure prepared actor error) := by
    refine yields_bind fun _ => yields_bind fun _ => ?_
    dsimp only
    split
    · exact yields_bind fun _ => yields_throw _
    · exact yields_throw _
  exact yields_run raises (congrArg Prod.fst ran)

/-- An execution that returns has restored the snapshot that its request names, from
the replica that its request names, to the platform that its request names. -/
theorem executeRestore_ok (offsite : engine.cfg.dr.replica ≠ "primary") {request_id : Nat}
    {req : RequestRow} {actor : String} {start world final : World} {result : Dict}
    (present : world.db.requests.lookup request_id = some req)
    (named : Engine.sourceRepository req.options = engine.cfg.dr.replica)
    (ran : run env.handler (engine.executeRestore request_id actor false) world =
      (.ok result, final)) (since : Since start [] world) :
    ∃ adapter, engine.platform req.target_platform = .ok adapter ∧
      RestoredFromReplica engine adapter req.snapshot_id result start final := by
  simp only [Engine.executeRestore, Bool.false_eq_true, if_false] at ran
  obtain ⟨prepared, checked, preparing, ran⟩ := (run_bind_eq_ok env.handler).mp ran
  have checkedSince := since.ran preparing
  obtain ⟨_, found, looking, preparing⟩ := (run_bind_eq_ok env.handler).mp preparing
  obtain ⟨_, _, _, preparing⟩ := (run_bind_eq_ok env.handler).mp preparing
  cases preparing
  have resolved := lookup_ok present looking
  obtain ⟨replica, source, chosen⟩ := resolved.replica (named ▸ offsite)
  rw [named] at source
  obtain ⟨started, begun, starting, ran⟩ := (run_bind_eq_ok env.handler).mp ran
  have begunSince := checkedSince.ran starting
  refine ⟨prepared.target, resolved.target, ?_⟩
  rw [← resolved.snapshot]
  rw [run_tryCatch] at ran
  cases performing : run env.handler (engine.performRestore prepared started.target_name actor)
      begun with
  | mk outcome after =>
    rw [performing] at ran
    cases outcome with
    | ok value =>
      cases ran
      exact performRestore_ok source chosen (resolved.repository.trans named) performing
        begunSince
    | error error => exact absurd ran recordFailure_raises

/-- A created request is found under the number that its creation answers. -/
theorem createRestoreRequest_ok {world final : World} {requester : String} {point : Point}
    {target_platform target_name : String} {options : Dict} {status : RequestStatus} {rid : Nat}
    (ran : run env.handler (createRestoreRequest requester point target_platform target_name
      options status) world = (.ok rid, final)) :
    ∃ req, final.db.requests.lookup rid = some req ∧ req.snapshot_id = point.snapshot_id ∧
      req.target_platform = target_platform ∧ req.options = options := by
  rw [createRestoreRequest, run_utcnow_bind, run_transact_bind] at ran
  obtain ⟨_, _, auditing, ran⟩ := (run_bind_eq_ok env.handler).mp ran
  cases ran
  have footprint : Footprint [.silent, .writing .audits] (audit requester "restore.request"
      "restore_request" (toString world.db.requests.next)
      [("snapshot_id", .str point.snapshot_id)]) :=
    footprint_audit (by decide) (by decide) _ _ _ _ _
  have same : Table.requests.Same _ final.db := same_ran footprint (by decide) auditing
  let row : RequestRow := {
    created_at := world.clock, requester := requester, snapshot_id := point.snapshot_id
    source_platform := point.platform, vm_id := point.vm_id, vm_name := point.vm_name
    target_platform := target_platform, target_name := target_name, options := options
    status := status }
  have inserted : final.db.requests = world.db.requests.insert row := same
  refine ⟨row, ?_, rfl, rfl, rfl⟩
  rw [inserted]
  exact (Tables.Numbered.lookup_insert world.db.requests row _).trans (if_pos rfl)

/-- A ready request that is executed with success has restored its point from the
replica that its options name. -/
theorem restoreReady_ok (offsite : engine.cfg.dr.replica ≠ "primary") {point : Point}
    {target_platform target_name : String} {options : Dict} {start world final : World}
    {adapter : PlatformConfig} {result : Dict}
    (named : Engine.sourceRepository options = engine.cfg.dr.replica)
    (ran : run env.handler (restoreReady engine point target_platform target_name options) world =
      (.ok (adapter, result), final)) (since : Since start [] world) :
    engine.platform target_platform = .ok adapter ∧
      RestoredFromReplica engine adapter point.snapshot_id result start final := by
  obtain ⟨rid, created, creating, ran⟩ := (run_bind_eq_ok env.handler).mp ran
  obtain ⟨req, present, snapshot, target, same⟩ := createRestoreRequest_ok creating
  obtain ⟨_, executed, executing, ran⟩ := (run_bind_eq_ok env.handler).mp ran
  obtain ⟨_, known, ran⟩ := run_raised_bind ran
  cases ran
  obtain ⟨_, platform, restored⟩ := executeRestore_ok offsite present (same ▸ named) executing
    (since.ran creating)
  rw [target, known] at platform
  cases platform
  exact ⟨known, snapshot ▸ restored⟩

/-- A machine that was restored for a workload from its planned point. -/
structure Recovered (engine : Engine) (start now : World) (workload : DRVMConfig)
    (planned : PlannedPoint) (machine : Restored) : Prop where
  own : machine.workload = workload
  platform : engine.platform workload.target_platform = .ok machine.adapter
  restored : RestoredFromReplica engine machine.adapter planned.snapshot_id machine.result start now

/-- A restored machine stays restored. -/
theorem Recovered.grown {start now after : World} {workload : DRVMConfig}
    {planned : PlannedPoint} {machine : Restored}
    (recovered : Recovered engine start now workload planned machine)
    (grown : now.log <+: after.log) : Recovered engine start after workload planned machine := by
  obtain ⟨same, platform, replica, settings, directory, path, fetched, creation, source, known,
    clean, made, since⟩ := recovered
  exact ⟨same, platform, replica, settings, directory, path, fetched, creation, source, known,
    clean, made, since.grown grown⟩

theorem restoreWorkload_ok (offsite : engine.cfg.dr.replica ≠ "primary") {run_id : Nat}
    {started : Timestamps.Timestamp} {workload : DRVMConfig} {row : PlanRow}
    {start world final : World} {machine : Restored} {entry : WorkloadRow}
    (ran : run env.handler (restoreWorkload engine run_id started workload row) world =
      (.ok (machine, entry), final)) (since : Since start [] world) :
    ∃ planned, row.point = some planned ∧
      Recovered engine start final workload planned machine := by
  unfold restoreWorkload at ran
  dsimp only at ran
  cases given : row.point with
  | none =>
    rw [given] at ran
    cases ran
  | some planned =>
    rw [given] at ran
    dsimp only at ran
    rw [getPoint, run_transact_bind] at ran
    cases found : Transaction.read world.db (.selectPoint planned.snapshot_id) with
    | none =>
      rw [found] at ran
      cases ran
    | some point =>
      rw [found] at ran
      obtain ⟨⟨adapter, result⟩, restored, restoring, ran⟩ := (run_bind_eq_ok env.handler).mp ran
      have named : Engine.sourceRepository (Dict.set workload.restore_options "source_repository"
          (.str engine.cfg.dr.replica)) = engine.cfg.dr.replica := by
        simp [Engine.sourceRepository, Json.toText]
      have read : Since start [] (env.handler (.transact (.selectPoint planned.snapshot_id))
          world).2 := since.grown (List.prefix_append _ _)
      obtain ⟨platform, evidence⟩ := restoreReady_ok offsite named restoring read
      cases ran
      refine ⟨planned, rfl, rfl, platform, ?_⟩
      exact livePoint_snapshot_id found ▸ evidence

/-- When every workload was restored, there is one machine for every pair, in order. -/
theorem restoreWorkloads_ok (offsite : engine.cfg.dr.replica ≠ "primary") {run_id : Nat}
    {started : Timestamps.Timestamp} {pairs : List (DRVMConfig × PlanRow)}
    {start world final : World} {before restored : List Restored}
    (ran : run env.handler (restoreWorkloads engine run_id started pairs before) world =
      (.ok (restored, none), final)) (since : Since start [] world) :
    ∃ machines, restored = before ++ machines ∧
      List.Forall₂ (fun pair machine => ∃ planned, pair.2.point = some planned ∧
        Recovered engine start final pair.1 planned machine) pairs machines := by
  induction pairs generalizing world before with
  | nil =>
    cases ran
    exact ⟨[], by simp, List.Forall₂.nil⟩
  | cons pair rest inductionHypothesis =>
    obtain ⟨workload, row⟩ := pair
    obtain ⟨outcome, middle, attempting, ran⟩ := (run_bind_eq_ok env.handler).mp ran
    rw [run_attempt] at attempting
    cases outcome with
    | error exc => cases ran
    | ok created =>
      obtain ⟨machine, entry⟩ := created
      have restoring : run env.handler (restoreWorkload engine run_id started workload row) world =
          (.ok (machine, entry), middle) := by
        have outcome := Except.ok.inj (congrArg Prod.fst attempting)
        have after := congrArg Prod.snd attempting
        exact Prod.ext outcome after
      obtain ⟨planned, given, recovered⟩ := restoreWorkload_ok offsite restoring since
      obtain ⟨recorded, listed, listing, ran⟩ := (run_bind_eq_ok env.handler).mp ran
      cases recorded with
      | error exc => cases ran
      | ok number =>
        obtain ⟨machines, split, others⟩ := inductionHypothesis ran
          ((since.ran restoring).ran listing)
        refine ⟨machine :: machines, by simp [split], List.Forall₂.cons ?_ others⟩
        exact ⟨planned, given, recovered.grown ((log_ran listing).trans (log_ran ran))⟩

end Restores

section Starts

variable {env : Environment} {engine : Engine}

/-- Machines that were switched on one after another, each healthy before the next. -/
inductive Started (env : Environment) (engine : Engine) : World → List Restored → World → Prop
  | none (world : World) : Started env engine world [] world
  | next {world switched healthy final : World} {machine : Restored} {rest : List Restored}
      {report : Dict} {health : HealthReport}
      (switching : run env.handler (powerOn machine.adapter engine.getenv machine.result) world =
        (.ok report, switched))
      (checking : run env.handler (waitWorkloadHealth machine.workload) switched =
        (.ok health, healthy))
      (passed : health.ok = true) (others : Started env engine healthy rest final) :
      Started env engine world (machine :: rest) final

/-- The command that switches a restored machine on. -/
def SwitchesOn (engine : Engine) (machine : Restored) (command : Command) : Prop :=
  ∃ argv settings report,
    power machine.adapter engine.getenv machine.result true = .ok (argv, settings, report) ∧
      command = .request (.run (.power machine.adapter.name true argv) settings none)

/-- Switching on issues one command, at once. -/
theorem issued_powerOn {machine : Restored} {world : World} {entry : World × Command}
    (member : entry ∈ issued env.handler
      (powerOn machine.adapter engine.getenv machine.result) world) :
    entry.1 = world ∧ SwitchesOn engine machine entry.2 := by
  obtain ⟨⟨argv, settings, report⟩, planned, issuing⟩ := issued_raised_bind member
  rcases (mem_issued_bind env.handler).mp issuing with command | ⟨_, _, _, impossible⟩
  · have same : entry = (world, .request (.run (.power machine.adapter.name true argv)
        settings none)) := issued_runCommand command
    subst same
    exact ⟨rfl, argv, settings, report, planned, rfl⟩
  · cases impossible

/-- A machine is switched on only after all before it were, and were healthy. -/
theorem issued_startMachines {failure : String → String} {machines : List Restored}
    {world : World} {entry : World × Command} (on : entry.2.effect = .ofPower true)
    (member : entry ∈ issued env.handler (startMachines engine failure machines) world) :
    ∃ before machine after, machines = before ++ machine :: after ∧
      Started env engine world before entry.1 ∧ SwitchesOn engine machine entry.2 := by
  induction machines generalizing world with
  | nil => cases member
  | cons machine rest inductionHypothesis =>
    rcases (mem_issued_bind env.handler).mp member with own | ⟨report, switched, switching, later⟩
    · obtain ⟨now, switches⟩ := issued_powerOn own
      exact ⟨[], machine, rest, rfl, now ▸ Started.none _, switches⟩
    · have quiet : entry.2.effect ∉ [Effect.outside] := by simp [on]
      obtain ⟨health, healthy, checking, later⟩ :=
        issued_after (footprint_waitWorkloadHealth machine.workload) quiet later
      split at later
      · cases later
      · rename_i passed
        rcases (mem_issued_bind env.handler).mp later with others | ⟨_, _, _, impossible⟩
        · obtain ⟨before, next, after, split, started, switches⟩ := inductionHypothesis others
          refine ⟨machine :: before, next, after, by rw [split, List.cons_append], ?_, switches⟩
          exact Started.next switching checking (by simpa using passed) started
        · cases impossible

end Starts

section Promotion

variable {env : Environment} {engine : Engine}

/-- What a promotion has found and done before it touches the recovery site. -/
structure Cleared (env : Environment) (engine : Engine) (confirmed automatic : Bool)
    (world : World) (approved : DRPlan) (fenced : World) : Prop where
  ready : approved.ready = true
  stages : ∃ planned free checked report,
    run env.handler (plan engine) world = (.ok approved, planned) ∧
    run env.handler alreadyFailedOver planned = (.ok false, free) ∧
    run env.handler (preflight engine approved) free = (.ok report, checked) ∧
    report.ok = true ∧
    run env.handler (fencePrimary engine confirmed automatic) checked = (.ok (), fenced)

/-- Every workload was restored by now, in boot order: from the snapshot that its row
of the plan names, which the plan found fit. -/
structure AllRecovered (engine : Engine) (approved : DRPlan) (fenced now : World)
    (machines : List Restored) : Prop where
  each : List.Forall₂ (fun workload machine => ∃ row ∈ approved.workloads, ∃ planned,
    Fit engine workload row planned ∧ Recovered engine fenced now workload planned machine)
    (bootSequence engine) machines
  complete : (machines.map (·.workload)).Perm engine.cfg.dr.workloads
  ordered : (machines.map (·.workload)).Pairwise BootsBefore

/-- Workloads and rows that fit each other keep fitting the machines restored for them. -/
theorem recovered_pairs {fenced now : World} {workloads : List DRVMConfig} {rows : List PlanRow}
    {machines : List Restored}
    (fits : List.Forall₂ (fun workload row => ∃ planned, Fit engine workload row planned)
      workloads rows)
    (restored : List.Forall₂ (fun pair machine => ∃ planned, pair.2.point = some planned ∧
      Recovered engine fenced now pair.1 planned machine) (workloads.zip rows) machines) :
    List.Forall₂ (fun workload machine => ∃ row ∈ rows, ∃ planned,
      Fit engine workload row planned ∧ Recovered engine fenced now workload planned machine)
      workloads machines := by
  induction fits generalizing machines with
  | nil =>
    cases restored
    exact List.Forall₂.nil
  | cons fit others inductionHypothesis =>
    obtain ⟨planned, fit⟩ := fit
    cases restored with
    | cons recovered remaining =>
      obtain ⟨point, given, recovered⟩ := recovered
      have same : planned = point := Option.some.inj (fit.point.symm.trans given)
      subst same
      refine List.Forall₂.cons ⟨_, List.mem_cons_self, planned, fit, recovered⟩ ?_
      refine (inductionHypothesis remaining).imp ?_
      rintro workload machine ⟨row, listed, rest⟩
      exact ⟨row, List.mem_cons_of_mem _ listed, rest⟩

/-- Recovered machines stand for the workloads of the boot sequence. -/
theorem allRecovered_of_pairs {approved : DRPlan} {fenced now : World}
    {machines : List Restored}
    (fits : List.Forall₂ (fun workload row => ∃ planned, Fit engine workload row planned)
      (bootSequence engine) approved.workloads)
    (restored : List.Forall₂ (fun pair machine => ∃ planned, pair.2.point = some planned ∧
      Recovered engine fenced now pair.1 planned machine)
      ((bootSequence engine).zip approved.workloads) machines) :
    AllRecovered engine approved fenced now machines := by
  have each := recovered_pairs fits restored
  have names : List.Forall₂ (fun machine workload => machine.workload = workload) machines
      (bootSequence engine) :=
    (each.imp fun _ _ ⟨_, _, _, _, recovered⟩ => recovered.own).flip
  have same : machines.map (·.workload) = bootSequence engine :=
    List.forall₂_eq_eq_eq ▸ List.forall₂_map_left_iff.mpr names
  obtain ⟨complete, ordered⟩ := bootSequence_sorted engine
  exact ⟨each, same ▸ complete, same ▸ ordered⟩

/-- What came first stays, whatever a promotion does after it. -/
theorem AllRecovered.grown {approved : DRPlan} {fenced now after : World}
    {machines : List Restored} (recovered : AllRecovered engine approved fenced now machines)
    (grown : now.log <+: after.log) : AllRecovered engine approved fenced after machines :=
  ⟨recovered.each.imp fun _ _ ⟨row, listed, planned, fit, restored⟩ =>
    ⟨row, listed, planned, fit, restored.grown grown⟩, recovered.complete, recovered.ordered⟩

/-- The gateway of the recovery site is activated, or a machine is switched on: the
machines before it in the sequence were switched on since, and were healthy. -/
inductive Exposure (env : Environment) (engine : Engine) (machines : List Restored) :
    World × Command → Prop
  | routes {entry : World × Command}
      (activates : entry.2.effect = .ofGateway engine.cfg.dr.dr_site .activate) :
      Exposure env engine machines entry
  | power {entry : World × Command} {before after : List Restored} {machine : Restored}
      {restored activated : World} {network : Dict}
      (split : machines = before ++ machine :: after)
      (activating : run env.handler ((net engine).activate engine.cfg.dr.dr_site false) restored =
        (.ok network, activated))
      (started : Started env engine activated before entry.1)
      (switches : SwitchesOn engine machine entry.2) : Exposure env engine machines entry

/-- What completes a promotion exposes only what it was given. -/
theorem exposure_completePromotion {run_id : Nat} {machines : List Restored} {world : World}
    {entry : World × Command}
    (exposes : entry.2.effect = .ofGateway engine.cfg.dr.dr_site .activate ∨
      entry.2.effect = .ofPower true)
    (member : entry ∈ issued env.handler (completePromotion engine run_id machines) world) :
    Exposure env engine machines entry := by
  rcases exposes with activates | on
  · exact Exposure.routes activates
  · have unpowered : entry.2.effect ∉
        [Effect.ofGateway engine.cfg.dr.dr_site .activate] := by simp [on]
    obtain ⟨network, activated, activating, starting⟩ :=
      issued_after (DRNetwork.NetworkManager.footprint_activate _ _) unpowered member
    rcases (mem_issued_bind env.handler).mp starting with own | ⟨health, _, _, finishing⟩
    · obtain ⟨before, machine, after, split, started, switches⟩ := issued_startMachines on own
      exact Exposure.power split activating started switches
    · obtain ⟨_, recorded, _, auditing⟩ :=
        issued_after (footprint_finishDrRun _ _ _ _) (by simp [on]) finishing
      rcases (mem_issued_bind env.handler).mp auditing with own | ⟨_, _, _, impossible⟩
      · exact absurd own (@not_issued _ _ [.silent, .writing .audits] _ _ _
          (footprint_audit (by simp) (by simp) _ _ _ _ _) (by simp [on]))
      · cases impossible

/-- A promotion that was started exposes only machines that were all recovered. -/
theorem exposure_runPromotion (offsite : engine.cfg.dr.replica ≠ "primary") {run_id : Nat}
    {approved : DRPlan} {start world : World} {entry : World × Command}
    (fits : List.Forall₂ (fun workload row => ∃ planned, Fit engine workload row planned)
      (bootSequence engine) approved.workloads) (since : Since start [] world)
    (exposes : entry.2.effect = .ofGateway engine.cfg.dr.dr_site .activate ∨
      entry.2.effect = .ofPower true)
    (member : entry ∈ issued env.handler (runPromotion engine run_id approved) world) :
    ∃ machines, AllRecovered engine approved start entry.1 machines ∧
      Exposure env engine machines entry := by
  have neither : ∀ {exc : Exn} {restored : List Restored} {middle : World},
      entry ∉ issued env.handler (abortPromotion engine run_id restored exc) middle :=
    not_issued (footprint_abortPromotion engine run_id _ _)
      (by rcases exposes with same | same <;> simp [same])
  have unprepared : entry.2.effect ∉ [Effect.ofGateway engine.cfg.dr.dr_site .check,
      .ofGateway engine.cfg.dr.dr_site .stretch, .ofGateway engine.cfg.dr.dr_site .announce,
      .ofGateway engine.cfg.dr.primary_site .deactivate, .silent] := by
    rcases exposes with same | same <;> simp [same]
  obtain ⟨outcome, prepared, preparing, restoring⟩ :=
    issued_after (footprint_attempt (footprint_prepareSites engine)) unprepared member
  cases outcome with
  | error exc => exact absurd restoring neither
  | ok started =>
    have unrestored : entry.2.effect ∉ restoreEffects := by
      rcases exposes with same | same <;> simp [same, restoreEffects]
    obtain ⟨⟨machines, failed⟩, recovered, restoring, completing⟩ :=
      issued_after (footprint_restoreWorkloads engine _ _ _ _) unrestored restoring
    cases failed with
    | some exc => exact absurd completing neither
    | none =>
      obtain ⟨_, rfl, pairs⟩ := restoreWorkloads_ok offsite restoring (since.ran preparing)
      rcases (mem_issued_tryCatch env.handler).mp completing with own | ⟨exc, middle, _, aborting⟩
      · exact ⟨_, (allRecovered_of_pairs fits pairs).grown (log_issued own),
          exposure_completePromotion exposes own⟩
      · exact absurd aborting neither

/-- The routes of the recovery site are activated, and machines are switched on, only
after a ready plan, a clean preflight and the fence, when every workload was restored
from the replica as planned; and machines in boot order, each after healthy ones. -/
theorem promotion_safety (env : Environment) (engine : Engine)
    (offsite : engine.cfg.dr.replica ≠ "primary") (confirmed automatic : Bool) (world : World) :
    ∀ entry ∈ issued env.handler (promote engine true confirmed automatic) world,
      (entry.2.effect = .ofGateway engine.cfg.dr.dr_site .activate ∨
        entry.2.effect = .ofPower true) →
      ∃ approved fenced machines,
        Cleared env engine confirmed automatic world approved fenced ∧
        AllRecovered engine approved fenced entry.1 machines ∧
        Exposure env engine machines entry := by
  intro entry member exposes
  have reserved : ∀ effect ∈ [Effect.silent, .outside, .ofFence, .writing .audits,
      .writing .runs, .ofGateway engine.cfg.dr.dr_site .preflight], entry.2.effect ≠ effect := by
    intro effect listed same
    rcases exposes with activates | on
    · simp [← same, activates] at listed
    · simp [← same, on] at listed
  have unplanned : entry.2.effect ∉ [Effect.silent] :=
    fun listed => reserved _ (by simp) (List.mem_singleton.mp listed)
  have unchecked : entry.2.effect ∉
      [Effect.outside, .ofGateway engine.cfg.dr.dr_site .preflight] :=
    fun listed => reserved _ (by simp at listed ⊢; tauto) rfl
  have unfenced : entry.2.effect ∉ [Effect.ofFence, .silent, .writing .audits] :=
    fun listed => reserved _ (by simp at listed ⊢; tauto) rfl
  have unwritten : entry.2.effect ∉ [Effect.silent, .writing .runs] :=
    fun listed => reserved _ (by simp at listed ⊢; tauto) rfl
  obtain ⟨_, enabledWorld, enabling, member⟩ :=
    issued_after (footprint_ensureEnabled engine [.silent]) unplanned member
  rw [run_ensureEnabled enabling] at member
  obtain ⟨approved, planned, planning, member⟩ :=
    issued_after (footprint_plan engine) unplanned member
  rw [if_neg (by simp)] at member
  obtain ⟨active, free, asking, member⟩ :=
    issued_after footprint_alreadyFailedOver unplanned member
  split at member
  · cases member
  · rename_i inactive
    split at member
    · cases member
    · rename_i ready
      obtain ⟨report, checked, checking, member⟩ :=
        issued_after (footprint_preflight engine approved) unchecked member
      split at member
      · cases member
      · rename_i passed
        obtain ⟨_, fenced, fencing, member⟩ :=
          issued_after (footprint_fencePrimary engine confirmed automatic) unfenced member
        obtain ⟨run_id, begun, beginning, member⟩ :=
          issued_after (footprint_createDrRun _ _ _ _) unwritten member
        have fits := yields_run (yields_plan engine) (congrArg Prod.fst planning)
          (by simpa using ready)
        obtain ⟨machines, recovered, exposure⟩ := exposure_runPromotion offsite fits
          ((Since.refl fenced).ran beginning) exposes member
        refine ⟨approved, fenced, machines, ⟨by simpa using ready, ?_⟩, recovered, exposure⟩
        have free' : active = false := by simpa using inactive
        exact ⟨planned, free, checked, report, planning, free' ▸ asking, checking,
          by simpa using passed, fencing⟩

/-- A run that does expose a machine, and what the theorem says about it. -/
theorem promotion_safety_sample :
    (∃ entry ∈ issued cooperative.handler (promote recovery true true false) ⟨replicated, 0, []⟩,
      entry.2.effect = .ofPower true) ∧
    ∀ entry ∈ issued cooperative.handler (promote recovery true true false) ⟨replicated, 0, []⟩,
      (entry.2.effect = .ofGateway recovery.cfg.dr.dr_site .activate ∨
        entry.2.effect = .ofPower true) →
      ∃ approved fenced machines,
        Cleared cooperative recovery true false ⟨replicated, 0, []⟩ approved fenced ∧
        AllRecovered recovery approved fenced entry.1 machines ∧
        Exposure cooperative recovery machines entry :=
  ⟨List.any_eq_true.mp (by decide) |>.imp fun _ found =>
      ⟨found.1, of_decide_eq_true found.2⟩,
    promotion_safety cooperative recovery (by decide) true false ⟨replicated, 0, []⟩⟩

end Promotion

end Immutavault.PromotionSafety
