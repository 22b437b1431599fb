import Immutavault.FailbackIdentity
import Immutavault.PolicyScope
import Immutavault.Portal
import Immutavault.RecoveryRequests
import Immutavault.TestOutcomes

/-!
# Which requests a route creates

Requests are created by the command line, by the portal, by a promotion and by a
failback. What is shown here is between which platforms: a route that looks its recovery
point up creates a request from the platform of that point, and the point does not change
between the lookup and the creation.

A failback is the one route that stores points itself. Its requests go from the recovery
site back to the primary one as long as no backup takes the identifier of a point of
another platform.
-/

namespace Immutavault.RequestRoutes

open Programs Values Timestamps Catalog Machine Histories Configuration StateDatabase
open RestoreEngine DROrchestrator PromotionSafety FailbackIdentity RecoveryRequests RecoveryTests
open TestIsolation Backups JobOutcomes

variable {α β : Type} {env : Environment} {world : World} {related : String → String → Prop}

/-- A request that a command inserts goes from its source to a related target. -/
def Joins (related : String → String → Prop) (entry : World × Command) : Prop :=
  ∀ row, entry.2 = .transact (.insertRequest row) →
    related row.source_platform row.target_platform

/-- The live point under an identifier stands on a platform that is related to the target. -/
def Fits (related : String → String → Prop) (db : Database) (snapshot_id target : String) : Prop :=
  ∀ point, db.livePoint snapshot_id = some point → related point.platform target

theorem Fits.same {before after : Database} {snapshot_id target : String}
    (fits : Fits related before snapshot_id target) (same : Table.points.Same before after) :
    Fits related after snapshot_id target := by
  intro point found
  have rows : after.points = before.points := same
  refine fits point ?_
  rw [← found, Database.livePoint, Database.livePoint, rows]

section Quiet

/-- A program that creates no request creates none between unrelated platforms. -/
theorem joins_uninserting {program : Prog α}
    (uninserting : Issues (fun command : controller.Command => ¬ Inserts command) program) :
    Throughout env (Joins related) program world :=
  throughout_issues uninserting fun _ plain row inserted => absurd ⟨row, inserted⟩ plain

theorem joins_footprint {effects : List Effect} {program : Prog α}
    (footprint : Footprint effects program) (unwritten : .writing .requests ∉ effects) :
    Throughout env (Joins related) program world :=
  joins_uninserting (uninserting_footprint footprint unwritten)

theorem joins_pure (value : α) : Throughout env (Joins related) (pure value : Prog α) world :=
  joins_uninserting (issues_pure _)

theorem joins_throw (error : Exn) : Throughout env (Joins related) (throw error : Prog α) world :=
  joins_uninserting (issues_throw _)

/-- After a program that creates no request, what comes next decides. -/
theorem joins_after {effects : List Effect} {program : Prog α} {next : α → Prog β}
    (footprint : Footprint effects program) (unwritten : .writing .requests ∉ effects)
    (rest : ∀ value middle, run env.handler program world = (.ok value, middle) →
      Throughout env (Joins related) (next value) middle) :
    Throughout env (Joins related) (program >>= next) world :=
  throughout_bind_iff.mpr ⟨joins_footprint footprint unwritten, rest⟩

/-- After a transaction that inserts no request, what follows its answer decides. -/
theorem joins_transact {transaction : Transaction} {next : transaction.Answer → Prog β}
    (other : ∀ row, transaction ≠ .insertRequest row)
    (rest : Throughout env (Joins related) (next (transaction.read world.db))
      (env.handler (.transact transaction) world).2) :
    Throughout env (Joins related) (transact transaction >>= next) world := by
  refine List.forall_mem_cons.mpr ⟨?_, rest⟩
  intro row inserted
  exact absurd (Command.transact.inj inserted) (other row)

theorem joins_raised {given : Except Exn α} {next : α → Prog β}
    (rest : ∀ value, given = .ok value → Throughout env (Joins related) (next value) world) :
    Throughout env (Joins related) (raised given >>= next) world := by
  cases given with
  | ok value => exact rest value rfl
  | error error => exact joins_throw error

/-- What an audit follows and a value ends creates nothing more. -/
theorem joins_audited {actor action object_type object_id : String} {details : Dict} {value : α} :
    Throughout env (Joins related) (audit actor action object_type object_id details >>=
      fun _ => pure value) world :=
  joins_footprint (footprint_auditThen value) (by simp)

theorem uninserting_audit (actor action object_type object_id : String) (details : Dict) :
    Issues (fun command : controller.Command => ¬ Inserts command)
      (audit actor action object_type object_id details) := by
  have footprint : Footprint [.silent, .writing .audits]
      (audit actor action object_type object_id details) :=
    footprint_audit (by simp) (by simp) _ _ _ _ _
  exact uninserting_footprint footprint (by simp)

theorem uninserting_transact {transaction : Transaction}
    (other : ∀ row, transaction ≠ .insertRequest row) :
    Issues (fun command : controller.Command => ¬ Inserts command) (transact transaction) := by
  refine (issues_perform _).mpr ?_
  rintro ⟨row, same⟩
  exact other row (Command.transact.inj same)

theorem uninserting_utcnow : Issues (fun command : controller.Command => ¬ Inserts command)
    utcnow :=
  (issues_perform _).mpr (by rintro ⟨row, impossible⟩; cases impossible)

theorem uninserting_finishRestore (request_id : Nat) (success : Bool) (result : Dict)
    (error : Option String) : Issues (fun command : controller.Command => ¬ Inserts command)
      (finishRestore request_id success result error) :=
  issues_bind uninserting_utcnow fun _ => uninserting_transact fun _ => by simp

end Quiet

section Executions

attribute [local irreducible] Issues

/-- An execution creates no request. -/
theorem uninserting_executeRestore (engine : Engine) (request_id : Nat) (actor : String)
    (dry_run : Bool) : Issues (fun command : controller.Command => ¬ Inserts command)
      (engine.executeRestore request_id actor dry_run) := by
  unfold Engine.executeRestore
  split
  · exact issues_bind (uninserting_footprint (engine.footprint_lookup request_id true) (by simp))
      fun _ => issues_pure _
  · refine issues_bind (uninserting_footprint (engine.footprint_prepareRestore request_id actor)
      (by simp)) fun prepared => ?_
    exact uninserting_runRestore engine prepared actor

theorem uninserting_approveRestore (engine : Engine) (request_id : Nat) (approver : String) :
    Issues (fun command : controller.Command => ¬ Inserts command)
      (engine.approveRestore request_id approver) := by
  refine issues_bind (uninserting_transact fun _ => by simp) fun req => ?_
  cases req with
  | none => exact issues_throw _
  | some req =>
    dsimp only
    split
    · exact issues_throw _
    · split
      · exact issues_throw _
      · refine issues_bind uninserting_utcnow fun now => ?_
        exact issues_bind (uninserting_transact fun _ => by simp) fun _ =>
          uninserting_audit _ _ _ _ _

variable (managed : ManagedRecoveryEngine)

theorem uninserting_executeTest (request_id : Nat) (actor : String) (target : PlatformConfig)
    (network : String) : Issues (fun command : controller.Command => ¬ Inserts command)
      (managed.executeTest request_id actor target network) := by
  have failing (primary_error : Option Exn) (errors : List String) :
      Issues (fun command : controller.Command => ¬ Inserts command)
        (ManagedRecoveryEngine.recordTestFailure request_id actor network primary_error
          errors) := by
    unfold ManagedRecoveryEngine.recordTestFailure
    refine issues_bind (uninserting_finishRestore _ _ _ _) fun _ => ?_
    refine issues_bind (uninserting_audit _ _ _ _ _) fun _ => ?_
    split <;> exact issues_throw _
  unfold ManagedRecoveryEngine.executeTest
  refine issues_bind (issues_attempt (uninserting_executeRestore _ _ _ _)) fun outcome => ?_
  cases outcome with
  | error error => exact failing _ _
  | ok restored =>
    have testing : Footprint [.silent, .outside, .ofPower true, .writing .audits]
        (managed.testMachine request_id actor target network restored) :=
      TestOutcomes.footprint_testMachine target network restored
    refine issues_bind (issues_attempt (uninserting_footprint testing (by simp)))
      fun tested => ?_
    refine issues_bind (uninserting_footprint (footprint_cleanUp managed target restored)
      (by simp)) fun cleanup_errors => ?_
    dsimp only
    split
    · exact issues_bind (uninserting_audit _ _ _ _ _) fun _ => issues_pure _
    · exact failing _ _
    · exact failing _ _

theorem uninserting_managedExecute (request_id : Nat) (actor : String) (dry_run : Bool) :
    Issues (fun command : controller.Command => ¬ Inserts command)
      (managed.executeRestore request_id actor dry_run) := by
  refine issues_bind (uninserting_transact fun _ => by simp) fun found => ?_
  split
  · exact issues_throw _
  · refine issues_bind (issues_raised _) fun marker => ?_
    split
    · exact uninserting_executeRestore _ _ _ _
    · refine issues_bind (uninserting_footprint (footprint_validateDrTest managed _ _ _)
        (by simp)) fun checked => ?_
      dsimp only
      split
      · exact issues_bind (uninserting_executeRestore _ _ _ _) fun _ => issues_pure _
      · exact uninserting_executeTest _ _ _ _ _

end Executions

section Creations

variable {engine : Engine} {snapshot_id requester target_platform : String}
  {target_name : Option String} {options : Dict}

/-- A platform is found under its own name. -/
theorem platform_name {name : String} {platform : PlatformConfig}
    (found : engine.platform name = .ok platform) : platform.name = name := by
  unfold Engine.platform at found
  split at found
  · rename_i same
    cases found
    simpa using List.find?_some same
  · cases found

/-- A new request goes from the platform of its point. -/
theorem joins_createRestoreRequest {point : Point} {name : String} {status : RequestStatus}
    (fits : related point.platform target_platform) :
    Throughout env (Joins related)
      (createRestoreRequest requester point target_platform name options status) world := by
  have reading : Footprint [.silent] utcnow := footprint_utcnow (by simp)
  refine joins_after reading (by simp) fun now middle _ => ?_
  refine throughout_bind_iff.mpr ⟨?_, fun rid after _ => joins_audited⟩
  intro entry member row inserted
  rw [transact, issued_perform] at member
  obtain rfl := List.mem_singleton.mp member
  cases inserted
  exact fits

/-- A request by the native path goes from the platform of the point it names. -/
theorem joins_requestNative (fits : Fits related world.db snapshot_id target_platform) :
    Throughout env (Joins related)
      (engine.requestNative snapshot_id requester target_platform target_name options) world := by
  refine joins_transact (fun _ => by simp) ?_
  cases present : Transaction.read world.db (.selectPoint snapshot_id) with
  | none => exact joins_throw _
  | some point =>
    refine joins_raised fun target known => ?_
    split
    · exact joins_throw _
    · split
      · exact joins_throw _
      · refine joins_createRestoreRequest ?_
        rw [platform_name known]
        exact fits point present

/-- So does a request of either engine. -/
theorem joins_requestRestore (fits : Fits related world.db snapshot_id target_platform) :
    Throughout env (Joins related)
      (engine.requestRestore snapshot_id requester target_platform target_name options) world := by
  unfold Engine.requestRestore
  split
  · exact joins_requestNative fits
  · refine joins_transact (fun _ => by simp) ?_
    cases present : Transaction.read world.db (.selectPoint snapshot_id) with
    | none => exact joins_throw _
    | some point =>
      refine joins_raised fun target known => ?_
      split
      · exact joins_requestNative fits
      · have planning : Footprint [.outside] (request (.v2vPlan point target options)) :=
          footprint_request (by simp [Command.effect])
        refine joins_after planning (by simp) fun plan middle _ => ?_
        split
        · exact joins_throw _
        · refine throughout_bind_iff.mpr ⟨joins_createRestoreRequest ?_, fun _ _ _ =>
            joins_audited⟩
          rw [platform_name known]
          exact fits point present

/-- And a request to the managed engine, which checks a test before it creates it. -/
theorem joins_managedRequest {managed : ManagedRecoveryEngine}
    (fits : Fits related world.db snapshot_id target_platform) :
    Throughout env (Joins related)
      (managed.requestRestore snapshot_id requester target_platform target_name options)
      world := by
  refine joins_raised fun marker _ => ?_
  cases marker with
  | none => exact joins_requestRestore fits
  | some marked =>
    refine joins_after (footprint_validateDrTest managed _ _ _) (by simp) fun checked middle ran => ?_
    have kept : middle.db = world.db :=
      db_ran (footprint_validateDrTest managed _ _ _) (by simp) ran
    refine throughout_bind_iff.mpr ⟨joins_requestRestore ?_, fun _ _ _ => joins_audited⟩
    rw [kept]
    exact fits

/-- The orchestrator requests and executes at once. -/
theorem joins_restoreReady {point : Point} {name : String}
    (fits : related point.platform target_platform) :
    Throughout env (Joins related) (restoreReady engine point target_platform name options)
      world := by
  refine throughout_bind_iff.mpr ⟨joins_createRestoreRequest fits, fun rid middle _ => ?_⟩
  refine throughout_bind_iff.mpr ⟨joins_uninserting (uninserting_executeRestore _ _ _ _),
    fun result after _ => ?_⟩
  exact joins_raised fun adapter _ => joins_pure _

end Creations

section Promotions

variable {engine : Engine}

/-- The point that is planned for a workload fits its recovery platform. -/
def Planned (related : String → String → Prop) (db : Database)
    (pairs : List (DRVMConfig × PlanRow)) : Prop :=
  ∀ pair ∈ pairs, ∀ planned, pair.2.point = some planned →
    Fits related db planned.snapshot_id pair.1.target_platform

theorem Planned.same {before after : Database} {pairs : List (DRVMConfig × PlanRow)}
    (planned : Planned related before pairs) (same : Table.points.Same before after) :
    Planned related after pairs :=
  fun pair member point given => (planned pair member point given).same same

/-- What touches neither requests nor points leaves the rest to what follows. -/
theorem joins_planned {effects : List Effect} {program : Prog α} {next : α → Prog β}
    {pairs : List (DRVMConfig × PlanRow)} (planned : Planned related world.db pairs)
    (footprint : Footprint effects program) (unwritten : .writing .requests ∉ effects)
    (untouched : .writing .points ∉ effects)
    (rest : ∀ value middle, Planned related middle.db pairs →
      Throughout env (Joins related) (next value) middle) :
    Throughout env (Joins related) (program >>= next) world :=
  joins_after footprint unwritten fun value middle ran =>
    rest value middle (planned.same (same_ran footprint untouched ran))

/-- The point that a plan selects stands on the source platform of its workload. -/
theorem selected_fits {db : Database} {workload : DRVMConfig} {row : PlanRow}
    (joined : related workload.source_platform workload.target_platform)
    (spelled : workload.source_platform ≠ "") (selects : Selects engine db workload row) :
    ∀ planned, row.point = some planned →
      Fits related db planned.snapshot_id workload.target_platform := by
  intro planned given point found
  obtain ⟨chosen, selection, named⟩ := selects.found planned given
  have listed : chosen ∈ Transaction.read db
      (.selectPoints (some workload.source_platform) none 1000) := List.mem_of_find?_eq_some selection
  have live := livePoint_of_listed listed
  have same : chosen = point := Option.some.inj (live.symm.trans (named ▸ found))
  have kept := (List.mem_filter.mp ((List.mem_insertionSort _).mp (List.mem_of_mem_take listed))).2
  have stands : chosen.platform = workload.source_platform := by
    simpa [spelled] using kept
  rw [← same, stands]
  exact joined

theorem joins_restoreWorkload {run_id : Nat} {started : Timestamp} {workload : DRVMConfig}
    {row : PlanRow} (fits : ∀ planned, row.point = some planned →
      Fits related world.db planned.snapshot_id workload.target_platform) :
    Throughout env (Joins related) (restoreWorkload engine run_id started workload row) world := by
  unfold restoreWorkload
  dsimp only
  cases given : row.point with
  | none => exact joins_throw _
  | some planned =>
    refine joins_transact (fun _ => by simp) ?_
    cases present : Transaction.read world.db (.selectPoint planned.snapshot_id) with
    | none => exact joins_throw _
    | some point =>
      exact throughout_bind_iff.mpr ⟨joins_restoreReady (fits planned given point present),
        fun created after _ => joins_pure _⟩

theorem joins_restoreWorkloads {run_id : Nat} {started : Timestamp}
    {pairs : List (DRVMConfig × PlanRow)} {restored : List Restored}
    (planned : Planned related world.db pairs) :
    Throughout env (Joins related) (restoreWorkloads engine run_id started pairs restored)
      world := by
  induction pairs generalizing world restored with
  | nil => exact joins_pure _
  | cons pair rest inductionHypothesis =>
    obtain ⟨workload, row⟩ := pair
    obtain ⟨own, others⟩ := List.forall_mem_cons.mp planned
    refine throughout_bind_iff.mpr ⟨throughout_attempt_iff.mpr (joins_restoreWorkload own), ?_⟩
    intro outcome middle ran
    have footprint : Footprint restoreEffects
        (restoreWorkload engine run_id started workload row).attempt :=
      footprint_attempt (footprint_restoreWorkload engine run_id started workload row)
    have same : Table.points.Same world.db middle.db :=
      same_ran footprint (by simp [restoreEffects]) ran
    have still : Planned related world.db rest := others
    cases outcome with
    | error exc => exact joins_pure _
    | ok created =>
      have recording : Footprint [.writing .workloads] (addDrWorkload created.2).attempt :=
        footprint_attempt (footprint_addDrWorkload _)
      refine joins_after recording (by simp) fun recorded after listing => ?_
      have kept : Table.points.Same middle.db after.db := same_ran recording (by simp) listing
      cases recorded with
      | error exc => exact joins_pure _
      | ok number => exact inductionHypothesis ((still.same same).same kept)

theorem joins_runPromotion {run_id : Nat} {plan : DRPlan}
    (planned : Planned related world.db ((bootSequence engine).zip plan.workloads)) :
    Throughout env (Joins related) (runPromotion engine run_id plan) world := by
  have preparing : Footprint [.ofGateway engine.cfg.dr.dr_site .check,
      .ofGateway engine.cfg.dr.dr_site .stretch, .ofGateway engine.cfg.dr.dr_site .announce,
      .ofGateway engine.cfg.dr.primary_site .deactivate, .silent] (prepareSites engine).attempt :=
    footprint_attempt (footprint_prepareSites engine)
  refine joins_planned planned preparing (by simp) (by simp) fun outcome middle still => ?_
  cases outcome with
  | error exc => exact joins_footprint (footprint_abortPromotion engine _ _ _) (by simp)
  | ok started =>
    refine throughout_bind_iff.mpr ⟨joins_restoreWorkloads still, ?_⟩
    rintro ⟨restored, failed⟩ after _
    cases failed with
    | some exc => exact joins_footprint (footprint_abortPromotion engine _ _ _) (by simp)
    | none =>
      refine throughout_tryCatch_iff.mpr
        ⟨joins_footprint (footprint_completePromotion engine _ _) (by simp), ?_⟩
      exact fun exc final _ =>
        joins_footprint (footprint_abortPromotion engine _ _ _) (by simp)

/-- A promotion creates requests from the source platforms of its workloads. -/
theorem joins_promote {execute confirmed automatic : Bool}
    (joined : ∀ workload ∈ engine.cfg.dr.workloads, workload.source_platform ≠ "" ∧
      related workload.source_platform workload.target_platform) :
    Throughout env (Joins related) (promote engine execute confirmed automatic) world := by
  refine joins_after (footprint_ensureEnabled engine []) (by simp) fun _ begun _ => ?_
  refine joins_after (footprint_plan engine) (by simp) fun plan drawn planning => ?_
  have planned : Planned related drawn.db ((bootSequence engine).zip plan.workloads) := by
    have rows := run_plan planning
    have kept : drawn.db = begun.db := db_ran (footprint_plan engine) (by simp) planning
    intro pair member
    have configured : pair.1 ∈ engine.cfg.dr.workloads :=
      (bootSequence_sorted engine).1.mem_iff.mp (List.of_mem_zip member).1
    obtain ⟨spelled, joins⟩ := joined pair.1 configured
    exact selected_fits joins spelled (kept ▸ (List.forall₂_iff_zip.mp rows).2 member)
  split
  · exact joins_pure _
  · refine joins_planned planned footprint_alreadyFailedOver (by simp) (by simp)
      fun active _ planned => ?_
    split
    · exact joins_pure _
    · split
      · exact joins_throw _
      · refine joins_planned planned (footprint_preflight engine plan) (by simp) (by simp)
          fun preflight _ planned => ?_
        split
        · exact joins_throw _
        · refine joins_planned planned (footprint_fencePrimary engine _ _) (by simp) (by simp)
            fun _ _ planned => ?_
          exact joins_planned planned (footprint_createDrRun _ _ _ _) (by simp) (by simp)
            fun run_id _ planned => joins_runPromotion planned

/-- So does a supervision that promotes. -/
theorem joins_watch (joined : ∀ workload ∈ engine.cfg.dr.workloads,
      workload.source_platform ≠ "" ∧ related workload.source_platform workload.target_platform) :
    Throughout env (Joins related) (watch engine) world := by
  refine joins_after (footprint_ensureEnabled engine []) (by simp) fun _ _ _ => ?_
  have asking : Footprint [.outside] (request (.pathExists engine.cfg.dr.maintenance_file)) :=
    footprint_request (by simp [Command.effect])
  refine joins_after asking (by simp) fun maintenance _ _ => ?_
  split
  · exact joins_pure _
  · refine joins_transact (fun _ => by simp) ?_
    refine joins_after (footprint_waitingTime engine _) (by simp) fun waiting _ _ => ?_
    cases waiting with
    | some pair => exact joins_pure _
    | none =>
      refine joins_after (footprint_evaluatePrimary engine) (by simp) fun state _ _ => ?_
      split
      · exact joins_pure _
      · refine joins_after footprint_alreadyFailedOver (by simp) fun active _ _ => ?_
        split
        · exact joins_pure _
        · exact throughout_bind_iff.mpr ⟨joins_promote joined, fun _ _ _ => joins_pure _⟩

end Promotions

section Failbacks

variable {engine : Engine}

/-- A command that stores a point under a known identifier stores one of the same platform. -/
def Steady (entry : World × Command) : Prop :=
  ∀ snapshot_id row old, entry.2 = .transact (.replacePoint snapshot_id row) →
    entry.1.db.points.lookup snapshot_id = some old → old.platform = row.platform

/-- A program that touches no point is steady. -/
theorem steady_footprint {effects : List Effect} {program : Prog α}
    (footprint : Footprint effects program) (untouched : .writing .points ∉ effects) :
    Throughout env Steady program world := by
  refine throughout_issues footprint ?_
  rintro ⟨current, command⟩ listed snapshot_id row old rfl _
  exact absurd listed untouched

/-- There is a point under an identifier, and it stands on a platform. -/
def Standing (snapshot_id platform : String) (db : Database) : Prop :=
  ∃ row, db.points.lookup snapshot_id = some row ∧ row.platform = platform

theorem Standing.live {snapshot_id platform : String} {db : Database} {point : Point}
    (standing : Standing snapshot_id platform db) (found : db.livePoint snapshot_id = some point) :
    point.platform = platform := by
  obtain ⟨row, stored, stands⟩ := standing
  rw [Database.livePoint, stored] at found
  by_cases expired : row.expired = true
  · simp [expired] at found
  · have same : { row with snapshot_id := snapshot_id : Point } = point := by
      simpa [expired] using found
    rw [← same]
    exact stands

theorem standing_modify {snapshot_id platform changed : String} {db : Database}
    {change : PointRow → PointRow} (kept : ∀ row, (change row).platform = row.platform)
    (standing : Standing snapshot_id platform db) :
    Standing snapshot_id platform { db with points := db.points.modify changed change } := by
  obtain ⟨row, stored, stands⟩ := standing
  by_cases own : snapshot_id = changed
  · subst own
    exact ⟨change row, by rw [Tables.Keyed.lookup_modify, if_pos rfl, stored]; rfl,
      (kept row).trans stands⟩
  · exact ⟨row, by rw [Tables.Keyed.lookup_modify, if_neg own, stored], stands⟩

theorem standing_markPointsExpired {snapshot_id platform : String} {db : Database}
    {snapshot_ids : List String} {expired_at : Timestamp}
    (standing : Standing snapshot_id platform db) :
    Standing snapshot_id platform (Transaction.write db
      (.markPointsExpired snapshot_ids expired_at)) := by
  induction snapshot_ids generalizing db with
  | nil => exact standing
  | cons first rest inductionHypothesis =>
    let mark (row : PointRow) : PointRow :=
      { row with expired := true, expired_at := some expired_at }
    have marked : Standing snapshot_id platform
        { db with points := db.points.modify first mark } :=
      standing_modify (fun _ => rfl) standing
    exact inductionHypothesis marked

/-- A steady command leaves every point on its platform. -/
theorem standing_commit {snapshot_id platform : String} {command : Command}
    (steady : Steady (world, command)) (standing : Standing snapshot_id platform world.db) :
    Standing snapshot_id platform (Environment.commit world.db command) := by
  cases command with
  | transact transaction =>
    cases transaction with
    | replacePoint stored_id row =>
      obtain ⟨old, stored, stands⟩ := standing
      by_cases own : snapshot_id = stored_id
      · subst own
        refine ⟨row, ?_, (steady snapshot_id row old rfl stored).symm.trans stands⟩
        exact (Tables.Keyed.lookup_replace _ _ _ _).trans (if_pos rfl)
      · refine ⟨old, ?_, stands⟩
        exact (Tables.Keyed.lookup_replace _ _ _ _).trans ((if_neg own).trans stored)
    | updateImmutableUntil _ _ => exact standing_modify (fun _ => rfl) standing
    | markPointsExpired _ _ => exact standing_markPointsExpired standing
    | updateVerified _ _ _ _ => exact standing_modify (fun _ => rfl) standing
    | _ => exact standing
  | _ => exact standing

theorem standing_ran {snapshot_id platform : String} {program : Prog α}
    {outcome : Except Exn α} {after : World} (steady : Throughout env Steady program world)
    (standing : Standing snapshot_id platform world.db)
    (ran : run env.handler program world = (outcome, after)) :
    Standing snapshot_id platform after.db := by
  induction program generalizing world with
  | ret value =>
    cases ran
    exact standing
  | raise error =>
    cases ran
    exact standing
  | call command resume inductionHypothesis =>
    obtain ⟨first, rest⟩ := List.forall_mem_cons.mp steady
    exact inductionHypothesis _ rest (standing_commit first standing) ran

/-- What a settled backup reports names its point. -/
theorem settle_reports {platform : PlatformConfig} {vm : VM} {staging_root : String} {job_id : Nat}
    {drafted : Draft} {report : Dict} {after : World}
    (ran : run env.handler (settle engine platform vm staging_root job_id drafted) world =
      (.ok report, after)) :
    report.get? "snapshot" = some (.str drafted.point.snapshot_id) := by
  obtain ⟨_, _, _, ran⟩ := (run_bind_eq_ok _).mp ran
  obtain ⟨_, _, _, ran⟩ := (run_bind_eq_ok _).mp ran
  obtain ⟨copies, _, _, ran⟩ := (run_bind_eq_ok _).mp ran
  dsimp only at ran
  split at ran
  · obtain ⟨verified, _, _, ran⟩ := (run_bind_eq_ok _).mp ran
    obtain ⟨_, _, _, ran⟩ := (run_bind_eq_ok _).mp ran
    cases ran
    rfl
  · obtain ⟨_, _, _, ran⟩ := (run_bind_eq_ok _).mp ran
    cases ran
    rfl

/-- A backup that reports success has left its point on its platform. -/
theorem standing_backupVM {platform : PlatformConfig} {vm : VM} {platform_info : Dict}
    {result : Dict} {snapshot : Json} {after : World}
    (steady : Throughout env Steady (backupVM engine platform vm platform_info false) world)
    (ran : run env.handler (backupVM engine platform vm platform_info false) world =
      (.ok result, after)) (succeeded : result.get? "status" = some (.str "success"))
    (stored : result.get? "snapshot" = some snapshot) :
    Standing snapshot.toText platform.name after.db := by
  rw [backupVM_eq] at steady ran
  obtain ⟨⟨now, staging_root, job_id⟩, opened, opening, ran⟩ := (run_bind_eq_ok _).mp ran
  have backing := (throughout_tryCatch_iff.mp
    ((throughout_bind_iff.mp steady).2 _ opened opening)).1
  rw [run_tryCatch] at ran
  cases performing : run env.handler
      (performBackup engine platform vm platform_info now staging_root job_id) opened with
  | mk outcome final =>
    rw [performing] at ran
    cases outcome with
    | error error =>
      obtain ⟨report, closed, recording, _, failed⟩ := @PolicyScope.recordBackupFailure_ran env
        engine platform vm staging_root job_id error final
      obtain ⟨same, _⟩ := Prod.mk.inj (ran.symm.trans recording)
      rw [Except.ok.inj same, failed] at succeeded
      simp at succeeded
    | ok report =>
      cases ran
      rw [performBackup_eq] at performing backing
      obtain ⟨drafted, middle, drafting, performing⟩ := (run_bind_eq_ok _).mp performing
      obtain ⟨_, between, storing, settling⟩ := (run_bind_eq_ok _).mp performing
      have drafts := PolicyScope.draft_ran drafting
      have rest := (throughout_bind_iff.mp ((throughout_bind_iff.mp backing).2 _ _ drafting)).2
        _ _ storing
      have here : Standing drafted.point.snapshot_id platform.name between.db := by
        cases storing
        exact ⟨_, (Tables.Keyed.lookup_replace _ _ _ _).trans (if_pos rfl), drafts.of_machine.1⟩
      have reported := settle_reports settling
      obtain rfl := Option.some.inj (stored.symm.trans reported)
      exact standing_ran rest here settling

/-- A configured workload is found under its name. -/
theorem workloadNamed_ok {name : String} {workload : DRVMConfig}
    (found : workloadNamed engine name = .ok workload) :
    workload ∈ engine.cfg.dr.workloads ∧ workload.name = name := by
  unfold workloadNamed at found
  split at found
  · rename_i same
    cases found
    exact ⟨List.mem_of_find?_eq_some same, by simpa using List.find?_some same⟩
  · cases found

/-- A final backup leaves the point it names on the recovery platform of its workload. -/
theorem standing_finalBackup {item : WorkloadRow} {name snapshot : String} {after : World}
    (steady : Throughout env Steady (finalBackup engine item) world)
    (ran : run env.handler (finalBackup engine item) world = (.ok (name, snapshot), after)) :
    ∃ workload ∈ engine.cfg.dr.workloads, workload.name = name ∧
      Standing snapshot workload.target_platform after.db := by
  unfold finalBackup at ran steady
  obtain ⟨workload, named, ran⟩ := run_raised_bind ran
  rw [named] at steady
  obtain ⟨configured, _⟩ := workloadNamed_ok named
  obtain ⟨dr_platform, known, ran⟩ := run_raised_bind ran
  have steady := (throughout_bind_iff.mp steady).2 workload world rfl
  rw [known] at steady
  have steady := (throughout_bind_iff.mp steady).2 dr_platform world rfl
  obtain ⟨machines, listed, listing, ran⟩ := (run_bind_eq_ok _).mp ran
  have steady := (throughout_bind_iff.mp steady).2 machines listed listing
  split at ran
  · cases ran
  · rename_i vm present
    rw [present] at steady
    obtain ⟨info, informed, informing, ran⟩ := (run_bind_eq_ok _).mp ran
    have steady := (throughout_bind_iff.mp steady).2 info informed informing
    obtain ⟨result, backed, backing, ran⟩ := (run_bind_eq_ok _).mp ran
    have steady := (throughout_bind_iff.mp steady).1
    split at ran
    · rename_i given succeeded stored
      cases ran
      have standing := standing_backupVM steady backing succeeded stored
      rw [platform_name known] at standing
      exact ⟨workload, configured, rfl, standing⟩
    · cases ran
    · cases ran

/-- Every final point stands on the recovery platform of its workload. -/
def Returned (engine : Engine) (db : Database) (final_points : Dict) : Prop :=
  ∀ workload ∈ engine.cfg.dr.workloads, ∀ snapshot,
    final_points.get? workload.name = some snapshot →
    Standing snapshot.toText workload.target_platform db

theorem Returned.same {before after : Database} {final_points : Dict}
    (returned : Returned engine before final_points) (same : Table.points.Same before after) :
    Returned engine after final_points := by
  have rows : after.points = before.points := same
  intro workload configured snapshot given
  obtain ⟨row, stored, stands⟩ := returned workload configured snapshot given
  exact ⟨row, rows ▸ stored, stands⟩

theorem returned_finalBackups {items : List WorkloadRow} {final_points result : Dict}
    {after : World} (steady : Throughout env Steady (finalBackups engine items final_points) world)
    (returned : Returned engine world.db final_points)
    (ran : run env.handler (finalBackups engine items final_points) world = (.ok result, after)) :
    Returned engine after.db result := by
  induction items generalizing world final_points with
  | nil =>
    cases ran
    exact returned
  | cons item rest inductionHypothesis =>
    obtain ⟨⟨name, snapshot⟩, middle, backing, others⟩ := (run_bind_eq_ok _).mp ran
    obtain ⟨first, later⟩ := throughout_bind_iff.mp steady
    refine inductionHypothesis (later _ _ backing) ?_ others
    obtain ⟨workload, configured, named, standing⟩ := standing_finalBackup first backing
    intro other listed stored given
    by_cases own : other.name = name
    · have same : other = workload := List.inj_on_of_nodup_map
        engine.cfg.dr.workloads_distinct listed configured (own.trans named.symm)
      subst same
      rw [own, Dict.get?_set_self] at given
      obtain rfl := Option.some.inj given
      exact standing
    · rw [Dict.get?_set_ne _ _ own] at given
      exact standing_ran first (returned other listed stored given) backing

theorem joins_restorePrimary {run_id : Nat} {started : Timestamp} {final_points : Dict}
    {workload : DRVMConfig} (configured : workload ∈ engine.cfg.dr.workloads)
    (returned : Returned engine world.db final_points)
    (joined : related workload.target_platform workload.source_platform) :
    Throughout env (Joins related) (restorePrimary engine run_id started final_points workload)
      world := by
  unfold restorePrimary
  cases given : final_points.get? workload.name with
  | none => exact joins_throw _
  | some snapshot =>
    refine joins_transact (fun _ => by simp) ?_
    cases present : Transaction.read world.db (.selectPoint snapshot.toText) with
    | none => exact joins_throw _
    | some point =>
      have stands := (returned workload configured snapshot given).live present
      refine throughout_bind_iff.mpr ⟨joins_restoreReady (stands ▸ joined),
        fun created after _ => ?_⟩
      exact joins_transact (fun _ => by simp) (joins_pure _)

theorem joins_restorePrimaries {run_id : Nat} {started : Timestamp} {final_points : Dict}
    {workloads : List DRVMConfig}
    (configured : ∀ workload ∈ workloads, workload ∈ engine.cfg.dr.workloads ∧
      related workload.target_platform workload.source_platform)
    (returned : Returned engine world.db final_points) :
    Throughout env (Joins related)
      (restorePrimaries engine run_id started final_points workloads) world := by
  induction workloads generalizing world with
  | nil => exact joins_pure _
  | cons workload rest inductionHypothesis =>
    obtain ⟨⟨listed, joined⟩, others⟩ := List.forall_mem_cons.mp configured
    refine throughout_bind_iff.mpr ⟨joins_restorePrimary listed returned joined, ?_⟩
    intro one middle ran
    have same : Table.points.Same world.db middle.db :=
      same_ran (footprint_restorePrimary engine _ _ _ _) (by simp [restoreEffects]) ran
    exact throughout_bind_iff.mpr ⟨inductionHypothesis others (returned.same same),
      fun _ _ _ => joins_pure _⟩

theorem joins_runFailback {run_id source_run : Nat} {workloads : List WorkloadRow}
    (steady : Throughout env Steady (runFailback engine run_id source_run workloads) world)
    (joined : ∀ workload ∈ engine.cfg.dr.workloads,
      related workload.target_platform workload.source_platform) :
    Throughout env (Joins related) (runFailback engine run_id source_run workloads) world := by
  obtain ⟨steady, _⟩ := throughout_bind_iff.mp steady
  refine throughout_bind_iff.mpr ⟨?_, fun returned _ _ => ?_⟩
  · obtain ⟨_, steady⟩ := throughout_bind_iff.mp steady
    refine joins_after (DRNetwork.NetworkManager.footprint_prepare _ _) (by simp)
      fun _ _ preparing => ?_
    obtain ⟨_, steady⟩ := throughout_bind_iff.mp (steady _ _ preparing)
    refine joins_after (DRNetwork.NetworkManager.footprint_deactivate _ _ _) (by simp)
      fun _ _ withdrawing => ?_
    obtain ⟨steady, _⟩ := throughout_bind_iff.mp (steady _ _ withdrawing)
    refine joins_after (footprint_finalBackups engine _ _) (by simp [backupEffects])
      fun final_points backed backing => ?_
    have nothing (db : Database) : Returned engine db [] := fun _ _ _ given => by cases given
    have returned := returned_finalBackups steady (nothing _) backing
    have reading : Footprint [.silent] utcnow := footprint_utcnow (by simp)
    refine joins_after reading (by simp) fun started _ timing => ?_
    have returned := returned.same (same_ran reading (by simp) timing)
    refine throughout_bind_iff.mpr ⟨joins_restorePrimaries ?_ returned, fun restored _ _ => ?_⟩
    · intro workload booted
      have configured := (bootSequence_sorted engine).1.mem_iff.mp booted
      exact ⟨configured, joined workload configured⟩
    · exact joins_after (DRNetwork.NetworkManager.footprint_deactivate _ _ _) (by simp)
        fun _ _ _ => joins_pure _
  · refine joins_after (footprint_switchOff engine _) (by simp) fun _ _ _ => ?_
    exact joins_footprint (footprint_startPrimary engine _ _ _ _) (by simp)

/-- A failback creates requests from the recovery platforms of its workloads. -/
theorem joins_failback {execute confirmed : Bool}
    (steady : Throughout env Steady (failback engine execute confirmed) world)
    (joined : ∀ workload ∈ engine.cfg.dr.workloads,
      related workload.target_platform workload.source_platform) :
    Throughout env (Joins related) (failback engine execute confirmed) world := by
  obtain ⟨_, steady⟩ := throughout_bind_iff.mp steady
  refine joins_after (footprint_ensureEnabled engine []) (by simp) fun _ _ enabling => ?_
  obtain ⟨_, steady⟩ := throughout_bind_iff.mp (steady _ _ enabling)
  have reading : Footprint [.silent] (latestDrRun (some .failover) (some .success)) :=
    footprint_reading rfl (by simp)
  refine joins_after reading (by simp) fun latest _ found => ?_
  have steady := steady _ _ found
  cases latest with
  | none => exact joins_pure _
  | some last =>
    obtain ⟨_, steady⟩ := throughout_bind_iff.mp steady
    refine joins_after footprint_alreadyFailedOver (by simp) fun active _ standing => ?_
    have steady := steady _ _ standing
    split
    · exact joins_pure _
    · rename_i fresh
      rw [if_neg fresh] at steady
      obtain ⟨_, steady⟩ := throughout_bind_iff.mp steady
      have listing : Footprint [.silent] (listDrWorkloads last.1) :=
        footprint_reading rfl (by simp)
      refine joins_after listing (by simp) fun workloads _ listed => ?_
      have steady := steady _ _ listed
      split
      · exact joins_pure _
      · rename_i executes
        rw [if_neg executes] at steady
        split
        · exact joins_throw _
        · rename_i isolated
          rw [if_neg isolated] at steady
          obtain ⟨_, steady⟩ := throughout_bind_iff.mp steady
          refine joins_after (footprint_createDrRun _ _ _ _) (by simp) fun run_id _ opening => ?_
          refine throughout_tryCatch_iff.mpr ⟨joins_runFailback
            (throughout_tryCatch_iff.mp (steady _ _ opening)).1 joined, fun error _ _ => ?_⟩
          exact joins_footprint (footprint_abortFailback _ _) (by simp)

end Failbacks

end Immutavault.RequestRoutes
