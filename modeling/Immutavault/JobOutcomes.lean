import Immutavault.Backups
import Immutavault.FaultyRuns

/-!
# What the row of a job says

A backup opens a job, drafts a recovery point, stores it with its primary copy and
records success. Then it goes on: it audits, replicates and verifies, and a failure
of any of these is recorded over the success. The row then says that nothing was
done, although the recovery point is in the catalogue.

For every run, also when transactions fail, it is said exactly when the row agrees
with what happened: when nothing fails after the point is stored, or when success was
recorded and the failure was not.
-/

namespace Immutavault.JobOutcomes

open Programs Values Timestamps Catalog Machine Histories Configuration ResticRepository
open StateDatabase RestoreEngine Backups FaultyRuns

section Stages

variable (engine : Engine)

/-- Open a job: the moment, the staging directory and the number of the job. -/
def openJob (platform : PlatformConfig) (vm : VM) : Prog (Timestamp × String × Nat) := do
  let now ← utcnow
  let staging_root := joinPath (joinPath (joinPath engine.cfg.repository.staging_path
    (safeComponent platform.name)) (safeComponent vm.name)) (stamp now)
  request (.mkdir staging_root)
  let job_id ← startJob platform.name vm.id vm.name
  return (now, staging_root, job_id)

/-- What a backup has found out before it stores anything. -/
structure Draft where
  point : Point
  immutable_days : Nat
  data_added : Nat
  application_consistency : Dict

def draft (platform : PlatformConfig) (vm : VM) (platform_info : Dict) (now : Timestamp)
    (staging_root : String) : Prog Draft := do
  let exported : String ← request (.exportVM platform vm staging_root false)
  let attested : Option Dict ← request (.readConsistency exported)
  let application_consistency := match attested with
    | some fields => if fields = [] then unattested platform.type else fields
    | none => unattested platform.type
  let manifest : Manifest ← request (.buildManifest staging_root)
  let summary ← backup engine.cfg.repository engine.getenv staging_root (backupTags platform vm)
  let previous ← latestPoint platform.name vm.id
  let (suspicious, reason) ← request (.detectBackupAnomaly (previous.map (·.backup_bytes))
    manifest.total_bytes summary.data_added)
  let immutable_days := immutableDays engine suspicious
  return {
    point := {
      snapshot_id := summary.snapshot_id, created_at := now, platform := platform.name
      platform_type := platform.type, vm_id := vm.id, vm_name := vm.name
      power_state := some vm.power_state, source_path := staging_root
      backup_bytes := manifest.total_bytes, data_added := summary.data_added
      file_count := manifest.file_count, manifest_sha256 := some manifest.digest
      immutable_until := addDays now immutable_days, suspicious := suspicious
      suspicious_reason := reason, verified := false, verified_at := none
      metadata := [("exported", .str exported), ("vm_kind", .str vm.kind),
        ("platform_info", .obj platform_info),
        ("application_consistency", .obj application_consistency)] }
    immutable_days := immutable_days, data_added := summary.data_added
    application_consistency := application_consistency }

/-- Store the point and its primary copy. -/
def store (point : Point) : Prog Unit := do
  upsertRecoveryPoint point
  upsertRecoveryCopy point.snapshot_id "primary" "rest" engine.cfg.repository.url none .success
    (some point.immutable_until)
    [("type", .str "append-only-vault"), ("logical_immutability", .bool true)] none

/-- What follows once success is recorded. -/
def wrapUp (platform : PlatformConfig) (vm : VM) (staging_root : String) (drafted : Draft) :
    Prog Dict := do
  let point := drafted.point
  let shown : Json := (point.suspicious_reason.map Json.str).getD .null
  audit "system" "backup.complete" "recovery_point" point.snapshot_id [
    ("platform", .str platform.name), ("vm", .str vm.name),
    ("suspicious", .bool point.suspicious), ("reason", shown)]
  let replica_results ← replicate engine point.snapshot_id drafted.immutable_days
    point.immutable_until engine.cfg.replicas
  let verified ← if engine.cfg.protection.verify_after_backup
    then (do return some (← verifyRecoveryPoint engine point.snapshot_id "system")) else pure none
  rmtree staging_root
  return [("platform", .str platform.name), ("vm", .str vm.name), ("status", .str "success"),
    ("snapshot", .str point.snapshot_id), ("bytes", .int point.backup_bytes),
    ("data_added", .int drafted.data_added),
    ("immutable_until", .str (isoformat point.immutable_until)),
    ("suspicious", .bool point.suspicious), ("suspicious_reason", shown),
    ("replicas", .obj replica_results), ("verified", (verified.map Json.bool).getD .null),
    ("application_consistency", .obj drafted.application_consistency)]

def recordSuccess (job_id : Nat) (snapshot_id : String) : Prog Unit :=
  finishJob job_id "success" (some snapshot_id) none

/-- Record success, and everything after it. -/
def settle (platform : PlatformConfig) (vm : VM) (staging_root : String) (job_id : Nat)
    (drafted : Draft) : Prog Dict := do
  recordSuccess job_id drafted.point.snapshot_id
  wrapUp engine platform vm staging_root drafted

/-- A backup is its draft, the storing of the point, and what comes after. -/
theorem performBackup_eq (platform : PlatformConfig) (vm : VM) (platform_info : Dict)
    (now : Timestamp) (staging_root : String) (job_id : Nat) :
    performBackup engine platform vm platform_info now staging_root job_id = (do
      let drafted ← draft engine platform vm platform_info now staging_root
      store engine drafted.point
      settle engine platform vm staging_root job_id drafted) := by
  simp only [performBackup, draft, store, settle, recordSuccess, wrapUp, bind_assoc, pure_bind]
    <;> rfl

theorem backupVM_eq (platform : PlatformConfig) (vm : VM) (platform_info : Dict) :
    backupVM engine platform vm platform_info false = (do
      let (now, staging_root, job_id) ← openJob engine platform vm
      tryCatch (performBackup engine platform vm platform_info now staging_root job_id)
        (recordBackupFailure engine platform vm staging_root job_id)) := by
  simp only [backupVM, openJob, bind_assoc, pure_bind, Bool.false_eq_true, if_false]

end Stages

section Jobs

variable (engine : Engine) {env : Environment} {faults : Faults}

/-- The job of a call shows success with this point. -/
def Succeeded (job_id : Nat) (snapshot_id : String) (world : World) : Prop :=
  ∃ row, world.db.jobs.lookup job_id = some row ∧ row.status = "success" ∧
    row.snapshot_id = some snapshot_id

/-- A point and its primary copy were stored since the call began, and are there. -/
structure Catalogued (start : World) (snapshot_id : String) (now : World) : Prop where
  stored : ∃ row copy, Since start
    [⟨Command.transact (.replacePoint snapshot_id row), (.ok () : Except Exn Unit)⟩,
      ⟨Command.transact (.upsertCopy snapshot_id "primary" copy), (.ok () : Except Exn Unit)⟩] now
  point : (now.db.points.lookup snapshot_id).isSome
  copy : (now.db.copies.lookup (snapshot_id, "primary")).isSome

/-- The job of a call agrees with what the call stored and with what it returned. -/
structure JobAgrees (start now : World) (outcome : Except Exn Dict) : Prop where
  row : ∀ snapshot_id, Succeeded start.db.jobs.next snapshot_id now ↔
    Catalogued start snapshot_id now
  returned : ∀ result row, outcome = .ok result →
    now.db.jobs.lookup start.db.jobs.next = some row →
    result.get? "status" = some (.str row.status)

/-- Catalogued stays catalogued. -/
theorem Catalogued.ran {α : Type} {start now after : World} {snapshot_id : String}
    {program : Prog α} {outcome : Except Exn α} (catalogued : Catalogued start snapshot_id now)
    (ran : run (faulting env faults) program now = (outcome, after)) :
    Catalogued start snapshot_id after where
  stored := by
    obtain ⟨row, copy, since⟩ := catalogued.stored
    exact ⟨row, copy, since_faulting since ran⟩
  point := kept_faulting point_stays catalogued.point ran
  copy := kept_faulting copy_stays catalogued.copy ran

/-- Nothing is catalogued while no point is stored. -/
theorem not_catalogued_point {start now : World}
    (only : Only (fun exchange => Command.effect exchange.1 ≠ .writing .points) start now)
    (snapshot_id : String) : ¬ Catalogued start snapshot_id now := by
  intro catalogued
  obtain ⟨row, copy, since⟩ := catalogued.stored
  exact only.since since _ List.mem_cons_self rfl

/-- Nothing is catalogued while no primary copy is stored. -/
theorem not_catalogued_copy {start now : World}
    (only : Only (fun exchange => ∀ snapshot_id copy, exchange ≠
      ⟨Command.transact (.upsertCopy snapshot_id "primary" copy), (.ok () : Except Exn Unit)⟩)
      start now) (snapshot_id : String) : ¬ Catalogued start snapshot_id now := by
  intro catalogued
  obtain ⟨row, copy, since⟩ := catalogued.stored
  exact only.since since _ (List.mem_cons_of_mem _ List.mem_cons_self) snapshot_id copy rfl

/-- A command that stores no point other than the given one. -/
def StoresOnly (stored : String) (command : controller.Command) : Prop :=
  ∀ other row, command = Command.transact (.replacePoint other row) → other = stored

/-- Only one point is catalogued when no other is stored. -/
theorem catalogued_same {start now : World} {stored snapshot_id : String}
    (only : Only (fun exchange => StoresOnly stored exchange.1) start now)
    (catalogued : Catalogued start snapshot_id now) : snapshot_id = stored := by
  obtain ⟨row, copy, since⟩ := catalogued.stored
  exact only.since since _ List.mem_cons_self snapshot_id row rfl

/-- A program that writes no point stores none. -/
theorem issues_unwritten {α : Type} {effects : List Effect} {program : Prog α}
    (footprint : Footprint effects program) (unwritten : .writing .points ∉ effects)
    (stored : String) :
    Issues (StoresOnly stored) program := by
  refine issues_mono footprint ?_
  rintro command listed other row rfl
  exact absurd listed unwritten

/-- Finishing a job changes its row, or fails and leaves it. -/
theorem run_finishJob {job_id : Nat} {status : String} {snapshot_id error : Option String}
    {row : JobRow} {world middle : World} {answer : Except Exn Unit}
    (there : world.db.jobs.lookup job_id = some row)
    (ran : run (faulting env faults) (finishJob job_id status snapshot_id error) world =
      (answer, middle)) :
    (answer = .ok () ∧ ∃ finished, middle.db.jobs.lookup job_id = some finished ∧
      finished.status = status ∧ finished.snapshot_id = snapshot_id) ∨
    ((∃ raised, answer = .error raised) ∧ middle.db.jobs.lookup job_id = some row) := by
  rw [finishJob, run_bind] at ran
  rcases run_transact ran with ⟨answered, committed⟩ | ⟨raised, nothing⟩
  · refine Or.inl ⟨answered, ?_⟩
    refine ⟨{ row with
      finished_at := some world.clock, status := status, snapshot_id := snapshot_id
      error := error }, ?_, rfl, rfl⟩
    rw [committed]
    change (world.db.jobs.modify job_id _).lookup job_id = _
    rw [Tables.Numbered.lookup_modify, if_pos rfl, there]
    rfl
  · refine Or.inr ⟨raised, ?_⟩
    rw [nothing]
    exact there

/-- A program that first finishes a job, and then does not touch jobs. -/
theorem run_finishing {effects : List Effect} {α : Type} {next : Prog α} {job_id : Nat}
    {status : String} {snapshot_id error : Option String} {row : JobRow} {world after : World}
    {outcome : Except Exn α} (footprint : Footprint effects next)
    (unwritten : .writing .jobs ∉ effects) (there : world.db.jobs.lookup job_id = some row)
    (ran : run (faulting env faults) (finishJob job_id status snapshot_id error >>= fun _ => next)
      world = (outcome, after)) :
    ((run (faulting env faults) (finishJob job_id status snapshot_id error) world).1 = .ok () ∧
      ∃ finished, after.db.jobs.lookup job_id = some finished ∧ finished.status = status ∧
        finished.snapshot_id = snapshot_id) ∨
    ((run (faulting env faults) (finishJob job_id status snapshot_id error) world).1 ≠ .ok () ∧
      (∃ raised, outcome = .error raised) ∧ after.db.jobs.lookup job_id = some row) := by
  refine run_marked (fun answer middle => run_finishJob there) ?_ ran
  rintro middle rest ⟨finished, found, agrees⟩
  have same : after.db.jobs = middle.db.jobs := same_faulting footprint unwritten rest
  exact ⟨finished, same ▸ found, agrees⟩

/-- A job that is started has the next number and is running; one that is not is not there. -/
theorem run_startJob {platform vm_id vm_name : String} {world after : World}
    {outcome : Except Exn Nat}
    (ran : run (faulting env faults) (startJob platform vm_id vm_name) world = (outcome, after)) :
    (outcome = .ok world.db.jobs.next ∧
      ∃ row, after.db.jobs.lookup world.db.jobs.next = some row ∧ row.status = "running") ∨
    ((∃ error, outcome = .error error) ∧ after.db.jobs = world.db.jobs) := by
  rw [startJob, run_bind] at ran
  rcases run_transact ran with ⟨answered, committed⟩ | ⟨raised, nothing⟩
  · refine Or.inl ⟨answered, ?_⟩
    have inserted : (world.db.jobs.insert {
        started_at := world.clock, platform := platform, vm_id := vm_id, vm_name := vm_name
        status := "running" }).lookup world.db.jobs.next = some {
        started_at := world.clock, platform := platform, vm_id := vm_id, vm_name := vm_name
        status := "running" } := by
      rw [Tables.Numbered.lookup_insert, if_pos rfl]
    exact ⟨_, by rw [committed]; exact inserted, rfl⟩
  · exact Or.inr ⟨raised, congrArg Database.jobs nothing⟩

theorem run_openJob {platform : PlatformConfig} {vm : VM} {world after : World}
    {outcome : Except Exn (Timestamp × String × Nat)}
    (ran : run (faulting env faults) (openJob engine platform vm) world = (outcome, after)) :
    (∃ now root, outcome = .ok (now, root, world.db.jobs.next) ∧
      ∃ row, after.db.jobs.lookup world.db.jobs.next = some row ∧ row.status = "running") ∨
    ((∃ error, outcome = .error error) ∧ after.db.jobs = world.db.jobs) := by
  have unwritten : Effect.writing .jobs ∉ [Effect.silent, .outside] := by decide
  rcases run_bind_cases _ ran with ⟨error, rfl, read⟩ | ⟨now, timed, read, rest⟩
  · exact Or.inr ⟨⟨error, rfl⟩, same_faulting (footprint_utcnow (by simp)) unwritten read⟩
  have clock : timed.db.jobs = world.db.jobs :=
    same_faulting (footprint_utcnow (by simp)) unwritten read
  rcases run_bind_cases _ rest with ⟨error, rfl, made⟩ | ⟨_, staged, made, rest⟩
  · have same := same_faulting (footprint_request (by simp [Command.effect])) unwritten made
    exact Or.inr ⟨⟨error, rfl⟩, same.trans clock⟩
  have directory : staged.db.jobs = timed.db.jobs :=
    same_faulting (footprint_request (by simp [Command.effect])) unwritten made
  have before : staged.db.jobs = world.db.jobs := directory.trans clock
  rcases run_bind_cases _ rest with ⟨error, rfl, started⟩ | ⟨job_id, final, started, rest⟩
  · rcases run_startJob started with ⟨impossible, _⟩ | ⟨_, same⟩
    · cases impossible
    · exact Or.inr ⟨⟨error, rfl⟩, same.trans before⟩
  · cases rest
    rcases run_startJob started with ⟨answered, row, found, running⟩ | ⟨⟨_, impossible⟩, _⟩
    · cases answered
      exact Or.inl ⟨now, _, by rw [before], row, before ▸ found, running⟩
    · cases impossible

/-- A draft writes nothing. -/
theorem footprint_draft (platform : PlatformConfig) (vm : VM) (platform_info : Dict)
    (now : Timestamp) (staging_root : String) : Footprint [.silent, .outside, .ofRestic]
      (draft engine platform vm platform_info now staging_root) := by
  refine footprint_bind (footprint_request (by simp [Command.effect])) fun exported => ?_
  refine footprint_bind (footprint_request (by simp [Command.effect])) fun attested => ?_
  refine footprint_bind (footprint_request (by simp [Command.effect])) fun manifest => ?_
  refine footprint_bind ((footprint_backup _ _ _ _).mono (by simp)) fun summary => ?_
  refine footprint_bind (footprint_reading rfl (by simp)) fun previous => ?_
  exact footprint_bind (footprint_request (by simp [Command.effect])) fun verdict =>
    footprint_pure _

theorem footprint_openJob (platform : PlatformConfig) (vm : VM) :
    Footprint [.silent, .outside, .writing .jobs] (openJob engine platform vm) := by
  refine footprint_bind (footprint_utcnow (by simp)) fun now => ?_
  refine footprint_bind (footprint_request (by simp [Command.effect])) fun _ => ?_
  exact footprint_bind ((footprint_startJob _ _ _).mono (by simp)) fun job_id => footprint_pure _

theorem footprint_store (point : Point) :
    Footprint [.silent, .writing .points, .writing .copies] (store engine point) := by
  refine footprint_bind (footprint_writing rfl (by simp)) fun _ => ?_
  exact (footprint_upsertRecoveryCopy _ _ _ _ _ _ _ _ _).mono (by simp)

/-- Storing stores one point. -/
theorem issues_store (point : Point) :
    Issues (StoresOnly point.snapshot_id) (store engine point) := by
  refine issues_bind ((issues_perform _).mpr ?_) fun _ => ?_
  · rintro other row same
    cases same
    rfl
  · exact issues_unwritten (footprint_upsertRecoveryCopy _ _ _ _ _ _ _ _ _) (by simp) _

/-- When storing returns, the point and its primary copy are catalogued. -/
theorem store_returns {point : Point} {start world after : World} (since : Since start [] world)
    (ran : run (faulting env faults) (store engine point) world = (.ok (), after)) :
    Catalogued start point.snapshot_id after := by
  obtain ⟨_, pointed, replaced, rest⟩ := (run_bind_eq_ok _).mp ran
  obtain ⟨_, timed, read, copied⟩ := (run_bind_eq_ok _).mp rest
  have replaces := since_perform since replaced
  have copies := since_perform (since_faulting replaces read) copied
  refine ⟨⟨_, _, copies⟩, ?_, ?_⟩
  · have present : (pointed.db.points.lookup point.snapshot_id).isSome := by
      rcases run_transact replaced with ⟨_, committed⟩ | ⟨⟨_, impossible⟩, _⟩
      · rw [committed]
        change ((world.db.points.replace point.snapshot_id _).lookup point.snapshot_id).isSome
        rw [Tables.Keyed.lookup_replace, if_pos rfl]
        rfl
      · cases impossible
    exact kept_faulting point_stays (kept_faulting point_stays present read) copied
  · rcases run_transact copied with ⟨_, committed⟩ | ⟨⟨_, impossible⟩, _⟩
    · rw [committed]
      change ((timed.db.copies.store (point.snapshot_id, "primary") _).lookup
        (point.snapshot_id, "primary")).isSome
      rw [Tables.Keyed.lookup_store, if_pos rfl]
      rfl
    · cases impossible

/-- When storing raises, no primary copy is catalogued. -/
theorem store_raises {point : Point} {error : Exn} {world after : World}
    (ran : run (faulting env faults) (store engine point) world = (.error error, after)) :
    Only (fun exchange => ∀ snapshot_id copy, exchange ≠
      ⟨Command.transact (.upsertCopy snapshot_id "primary" copy), (.ok () : Except Exn Unit)⟩)
      world after := by
  have replacing : ∀ (answer : Except Exn Unit) (middle : World),
      run (faulting env faults) (upsertRecoveryPoint point) world = (answer, middle) →
      Only (fun exchange => ∀ snapshot_id copy, exchange ≠
        ⟨Command.transact (.upsertCopy snapshot_id "primary" copy), (.ok () : Except Exn Unit)⟩)
        world middle := by
    intro answer middle replaced
    refine only_perform ?_ replaced
    intro snapshot_id copy same
    cases same
  rcases run_bind_cases _ ran with ⟨_, _, replaced⟩ | ⟨_, pointed, replaced, rest⟩
  · exact replacing _ _ replaced
  refine (replacing _ _ replaced).trans ?_
  rcases run_bind_cases _ rest with ⟨_, impossible, read⟩ | ⟨_, timed, read, copied⟩
  · cases read
  · have timing : Only (fun exchange => ∀ snapshot_id copy, exchange ≠
        ⟨Command.transact (.upsertCopy snapshot_id "primary" copy), (.ok () : Except Exn Unit)⟩)
        pointed timed := by
      have clock : run (faulting env faults) (@Program.perform controller Exn .utcnow) pointed =
          (.ok pointed.clock, timed) := by
        cases read
        rfl
      refine only_perform ?_ clock
      intro snapshot_id copy same
      cases same
    refine timing.trans (only_perform ?_ copied)
    intro snapshot_id copy same
    cases same

/-- What follows success writes no job. -/
theorem footprint_wrapUp (platform : PlatformConfig) (vm : VM) (staging_root : String)
    (drafted : Draft) :
    Footprint [.silent, .outside, .ofRestic, .writing .points, .writing .copies, .writing .audits]
      (wrapUp engine platform vm staging_root drafted) := by
  refine footprint_bind (footprint_audit (by simp) (by simp) _ _ _ _ _) fun _ => ?_
  refine footprint_bind ((footprint_replicate engine _ _ _ _).mono (by simp)) fun replicas => ?_
  dsimp only
  split
  · refine footprint_bind (footprint_bind ((footprint_verifyRecoveryPoint engine _ _).mono
      (by simp)) fun _ => footprint_pure _) fun verified => ?_
    exact footprint_bind (footprint_rmtree (by simp) _) fun _ => footprint_pure _
  · refine footprint_bind (footprint_pure _) fun verified => ?_
    exact footprint_bind (footprint_rmtree (by simp) _) fun _ => footprint_pure _

/-- Marking a point verified stores no point. -/
theorem issues_markVerified (snapshot_id : String) (verified : Bool) (details : Dict)
    (stored : String) : Issues (StoresOnly stored) (markVerified snapshot_id verified details) := by
  refine issues_bind ((issues_perform _).mpr fun other row same => by cases same) fun row => ?_
  cases row with
  | none => exact issues_throw _
  | some metadata =>
    dsimp only
    split
    · refine issues_bind (issues_bind ((issues_perform _).mpr fun other row same => by cases same)
        fun _ => issues_pure _) fun verified_at => ?_
      exact (issues_perform _).mpr fun other row same => by cases same
    · refine issues_bind (issues_pure _) fun verified_at => ?_
      exact (issues_perform _).mpr fun other row same => by cases same

theorem issues_verifyRecoveryPoint (snapshot_id actor stored : String) :
    Issues (StoresOnly stored) (verifyRecoveryPoint engine snapshot_id actor) := by
  have inspected : ∀ point root,
      Issues (StoresOnly stored) (inspectRestored engine snapshot_id actor point root) := by
    intro point root
    refine issues_bind (issues_unwritten (footprint_restore _ _ _ _ _) (by simp) _) fun _ => ?_
    refine issues_bind ((issues_perform _).mpr fun other row same => by cases same)
      fun present => ?_
    split
    · exact issues_bind (issues_markVerified _ _ _ _) fun _ => issues_pure _
    · refine issues_bind ((issues_perform _).mpr fun other row same => by cases same)
        fun verdict => ?_
      refine issues_bind (issues_markVerified _ _ _ _) fun _ => issues_bind ?_ fun _ =>
        issues_pure _
      exact issues_unwritten (@footprint_audit [.silent, .writing .audits] (by simp) (by simp)
        _ _ _ _ _) (by simp) _
  refine issues_bind ((issues_perform _).mpr fun other row same => by cases same) fun point => ?_
  cases point with
  | none => exact issues_throw _
  | some point =>
    refine issues_bind (issues_unwritten (engine.footprint_ensurePathCapacity _ _) (by simp) _)
      fun _ => ?_
    refine issues_bind ((issues_perform _).mpr fun other row same => by cases same) fun _ => ?_
    refine issues_bind (issues_attempt (inspected _ _)) fun outcome => ?_
    refine issues_bind ((issues_perform _).mpr fun other row same => by cases same) fun _ => ?_
    cases outcome with
    | ok value => exact issues_pure _
    | error error => exact issues_throw _

/-- Nor does anything else that follows success. -/
theorem issues_wrapUp (platform : PlatformConfig) (vm : VM) (staging_root : String)
    (drafted : Draft) (stored : String) :
    Issues (StoresOnly stored) (wrapUp engine platform vm staging_root drafted) := by
  refine issues_bind (issues_unwritten (@footprint_audit [.silent, .writing .audits] (by simp)
    (by simp) _ _ _ _ _) (by simp) _) fun _ => ?_
  refine issues_bind (issues_unwritten (footprint_replicate engine _ _ _ _) (by simp) _)
    fun replicas => ?_
  dsimp only
  split
  · refine issues_bind (issues_bind (issues_verifyRecoveryPoint engine _ _ _) fun _ =>
      issues_pure _) fun verified => ?_
    exact issues_bind ((issues_perform _).mpr fun other row same => by cases same) fun _ =>
      issues_pure _
  · refine issues_bind (issues_pure _) fun verified => ?_
    exact issues_bind ((issues_perform _).mpr fun other row same => by cases same) fun _ =>
      issues_pure _

/-- A backup that returns after success returns success. -/
theorem yields_wrapUp (platform : PlatformConfig) (vm : VM) (staging_root : String)
    (drafted : Draft) :
    Yields (fun result : Dict => result.get? "status" = some (.str "success"))
      (wrapUp engine platform vm staging_root drafted) := by
  refine yields_bind fun _ => yields_bind fun replicas => ?_
  dsimp only
  split
  · exact yields_bind fun verified => yields_bind fun _ => yields_pure rfl
  · exact yields_bind fun verified => yields_bind fun _ => yields_pure rfl

/-- What follows the recording of a failure. -/
def concludeFailure (platform : PlatformConfig) (vm : VM) (staging_root : String) (error : Exn) :
    Prog Dict := do
  audit "system" "backup.failed" "vm" s!"{platform.name}:{vm.id}" [("error", .str error.message)]
  if ¬ engine.cfg.runtime.keep_staging_on_failure then
    rmtree staging_root
  return [("platform", .str platform.name), ("vm", .str vm.name), ("status", .str "failed"),
    ("error", .str error.message)]

def recordFailed (job_id : Nat) (error : Exn) : Prog Unit :=
  finishJob job_id "failed" none (some error.message)

theorem recordBackupFailure_eq (platform : PlatformConfig) (vm : VM) (staging_root : String)
    (job_id : Nat) (error : Exn) :
    recordBackupFailure engine platform vm staging_root job_id error =
      recordFailed job_id error >>= fun _ => concludeFailure engine platform vm staging_root error :=
  rfl

theorem footprint_concludeFailure (platform : PlatformConfig) (vm : VM) (staging_root : String)
    (error : Exn) : Footprint [.silent, .writing .audits]
      (concludeFailure engine platform vm staging_root error) := by
  refine footprint_bind (footprint_audit (by simp) (by simp) _ _ _ _ _) fun _ => ?_
  dsimp only
  split
  · exact footprint_bind (footprint_rmtree (by simp) _) fun _ => footprint_pure _
  · exact footprint_pure _

theorem yields_recordBackupFailure (platform : PlatformConfig) (vm : VM) (staging_root : String)
    (job_id : Nat) (error : Exn) :
    Yields (fun result : Dict => result.get? "status" = some (.str "failed"))
      (recordBackupFailure engine platform vm staging_root job_id error) := by
  refine yields_bind fun _ => yields_bind fun _ => ?_
  dsimp only
  split
  · exact yields_bind fun _ => yields_pure rfl
  · exact yields_pure rfl

/-- A backup up to the point where its recovery point is stored. -/
def storing (platform : PlatformConfig) (vm : VM) (platform_info : Dict) :
    Prog (String × Nat × Draft) := do
  let (now, staging_root, job_id) ← openJob engine platform vm
  let drafted ← draft engine platform vm platform_info now staging_root
  store engine drafted.point
  return (staging_root, job_id, drafted)

/-- A backup that stores its point settles from there. -/
def BackupSettles (handler : Handler controller Exn World) (platform : PlatformConfig) (vm : VM)
    (platform_info : Dict) (dry_run : Bool) (world : World) : Prop :=
  dry_run = false → ∀ staging_root job_id drafted middle,
    run handler (storing engine platform vm platform_info) world =
      (.ok (staging_root, job_id, drafted), middle) →
    Settled handler (settle engine platform vm staging_root job_id drafted)
      (recordSuccess job_id drafted.point.snapshot_id) (recordFailed job_id) middle

/-- A row that shows no success agrees with a catalogue that holds no point of the call. -/
theorem agrees_unstored {start now : World} {outcome : Except Exn Dict}
    (missing : ∀ snapshot_id, ¬ Catalogued start snapshot_id now)
    (unsuccessful : ∀ row, now.db.jobs.lookup start.db.jobs.next = some row →
      row.status ≠ "success")
    (returned : ∀ result row, outcome = .ok result →
      now.db.jobs.lookup start.db.jobs.next = some row →
      result.get? "status" = some (.str row.status)) : JobAgrees start now outcome where
  row := by
    intro snapshot_id
    refine iff_of_false ?_ (missing snapshot_id)
    rintro ⟨row, found, success, _⟩
    exact unsuccessful row found success
  returned := returned

/-- A failure is recorded and returned, or neither. -/
theorem run_recordBackupFailure {platform : PlatformConfig} {vm : VM} {staging_root : String}
    {job_id : Nat} {error : Exn} {row : JobRow} {world after : World} {outcome : Except Exn Dict}
    (there : world.db.jobs.lookup job_id = some row)
    (ran : run (faulting env faults) (recordBackupFailure engine platform vm staging_root job_id
      error) world = (outcome, after)) :
    ((run (faulting env faults) (recordFailed job_id error) world).1 = .ok () ∧
      (∃ finished, after.db.jobs.lookup job_id = some finished ∧ finished.status = "failed") ∧
      ∀ result, outcome = .ok result → result.get? "status" = some (.str "failed")) ∨
    ((run (faulting env faults) (recordFailed job_id error) world).1 ≠ .ok () ∧
      (∃ raised, outcome = .error raised) ∧ after.db.jobs.lookup job_id = some row) := by
  have yields := yields_recordBackupFailure engine platform vm staging_root job_id error
  have returned : ∀ result, outcome = .ok result →
      result.get? "status" = some (.str "failed") := by
    rintro result rfl
    exact yields_run yields (congrArg Prod.fst ran)
  rw [recordBackupFailure_eq] at ran
  rcases run_finishing (footprint_concludeFailure engine platform vm staging_root error) (by simp)
    there ran with ⟨recorded, finished, found, failed, _⟩ | missed
  · exact Or.inl ⟨recorded, ⟨finished, found, failed⟩, returned⟩
  · exact Or.inr missed

/-- A backup that fails before its primary copy is stored shows no success. -/
theorem agrees_failed {platform : PlatformConfig} {vm : VM} {staging_root : String}
    {error : Exn} {row : JobRow} {start middle after : World} {outcome : Except Exn Dict}
    (there : middle.db.jobs.lookup start.db.jobs.next = some row) (running : row.status = "running")
    (missing : ∀ snapshot_id, ¬ Catalogued start snapshot_id after)
    (ran : run (faulting env faults) (recordBackupFailure engine platform vm staging_root
      start.db.jobs.next error) middle = (outcome, after)) : JobAgrees start after outcome := by
  rcases run_recordBackupFailure engine there ran with
    ⟨_, ⟨finished, found, failed⟩, returned⟩ | ⟨_, ⟨raised, rfl⟩, found⟩
  · refine agrees_unstored missing ?_ ?_
    · intro other same
      cases found.symm.trans same
      simp [failed]
    · intro result other answered same
      cases found.symm.trans same
      exact failed ▸ returned result answered
  · refine agrees_unstored missing ?_ fun result other impossible => by cases impossible
    intro other same
    cases found.symm.trans same
    simp [running]

/-- A row that shows success with the stored point agrees with the catalogue. -/
theorem agrees_stored {snapshot_id : String} {start now : World} {outcome : Except Exn Dict}
    (catalogued : Catalogued start snapshot_id now)
    (only : Only (fun exchange => StoresOnly snapshot_id exchange.1) start now)
    (succeeded : Succeeded start.db.jobs.next snapshot_id now)
    (returned : ∀ result, outcome = .ok result →
      result.get? "status" = some (.str "success")) : JobAgrees start now outcome := by
  obtain ⟨row, found, success, snapshot⟩ := succeeded
  refine ⟨fun other => ⟨?_, ?_⟩, ?_⟩
  · rintro ⟨same, again, _, named⟩
    cases found.symm.trans again
    cases snapshot.symm.trans named
    exact catalogued
  · intro present
    exact catalogued_same only present ▸ ⟨row, found, success, snapshot⟩
  · intro result same answered again
    cases found.symm.trans again
    exact success ▸ returned result answered

/-- A row without success does not agree with a catalogue that holds the point. -/
theorem disagrees_stored {snapshot_id : String} {start now : World} {outcome : Except Exn Dict}
    {row : JobRow} (catalogued : Catalogued start snapshot_id now)
    (found : now.db.jobs.lookup start.db.jobs.next = some row)
    (unsuccessful : row.status ≠ "success") : ¬ JobAgrees start now outcome := by
  intro agrees
  obtain ⟨same, again, success, _⟩ := (agrees.row snapshot_id).mpr catalogued
  cases found.symm.trans again
  exact unsuccessful success

/-- Settling records success, or raises and leaves the row. -/
theorem run_settle {platform : PlatformConfig} {vm : VM} {staging_root : String} {job_id : Nat}
    {drafted : Draft} {row : JobRow} {world after : World} {outcome : Except Exn Dict}
    (there : world.db.jobs.lookup job_id = some row)
    (ran : run (faulting env faults) (settle engine platform vm staging_root job_id drafted)
      world = (outcome, after)) :
    ((run (faulting env faults) (recordSuccess job_id drafted.point.snapshot_id) world).1 =
        .ok () ∧ Succeeded job_id drafted.point.snapshot_id after) ∨
    ((run (faulting env faults) (recordSuccess job_id drafted.point.snapshot_id) world).1 ≠
        .ok () ∧ (∃ raised, outcome = .error raised) ∧ after.db.jobs.lookup job_id = some row) :=
  run_finishing (footprint_wrapUp engine platform vm staging_root drafted) (by simp) there ran

/-- Once the point is stored, the row agrees exactly when the rest settles. -/
theorem agrees_settled {platform : PlatformConfig} {vm : VM} {staging_root : String}
    {drafted : Draft} {row : JobRow} {start middle between after : World}
    {settled outcome : Except Exn Dict}
    (there : middle.db.jobs.lookup start.db.jobs.next = some row) (running : row.status = "running")
    (catalogued : Catalogued start drafted.point.snapshot_id middle)
    (only : Only (fun exchange => StoresOnly drafted.point.snapshot_id exchange.1) start middle)
    (ran : run (faulting env faults) (settle engine platform vm staging_root start.db.jobs.next
      drafted) middle = (settled, between))
    (concluded : (∃ result, settled = .ok result ∧ outcome = .ok result ∧ after = between) ∨
      ∃ error, settled = .error error ∧ run (faulting env faults) (recordBackupFailure engine
        platform vm staging_root start.db.jobs.next error) between = (outcome, after)) :
    JobAgrees start after outcome ↔
      Settled (faulting env faults)
        (settle engine platform vm staging_root start.db.jobs.next drafted)
        (recordSuccess start.db.jobs.next drafted.point.snapshot_id)
        (recordFailed start.db.jobs.next) middle := by
  have stays : Catalogued start drafted.point.snapshot_id between := catalogued.ran ran
  have succeeding : Issues (StoresOnly drafted.point.snapshot_id)
      (settle engine platform vm staging_root start.db.jobs.next drafted) :=
    issues_bind (issues_unwritten (footprint_finishJob _ _ _ _) (by simp) _) fun _ =>
      issues_wrapUp engine platform vm staging_root drafted _
  have settling := only.trans (only_faulting succeeding ran)
  rcases concluded with ⟨result, rfl, rfl, rfl⟩ | ⟨error, rfl, failed⟩
  · -- The rest returned, so success was recorded and nothing came after.
    refine iff_of_true ?_ (settled_returned ran)
    rcases run_settle engine there ran with ⟨_, succeeded⟩ | ⟨_, ⟨_, impossible⟩, _⟩
    · refine agrees_stored stays settling succeeded ?_
      intro returned same
      cases same
      exact yields_run (yields_bind fun _ => yields_wrapUp engine platform vm staging_root
        drafted) (congrArg Prod.fst ran)
    · cases impossible
  · have finally_there : Catalogued start drafted.point.snapshot_id after := stays.ran failed
    have recording := settling.trans (only_faulting (issues_unwritten
      (footprint_recordBackupFailure engine platform vm staging_root start.db.jobs.next error)
      (by simp) drafted.point.snapshot_id) failed)
    rw [settled_raised ran]
    rcases run_settle engine there ran with ⟨recorded, succeeded⟩ | ⟨missed, _, left⟩
    · obtain ⟨marked, found, success, snapshot⟩ := succeeded
      rcases run_recordBackupFailure engine found failed with
        ⟨overwritten, ⟨finished, again, unsuccessful⟩, _⟩ | ⟨kept, ⟨raised, rfl⟩, again⟩
      · refine iff_of_false (disagrees_stored finally_there again (by simp [unsuccessful])) ?_
        exact fun holds => holds.2 overwritten
      · refine iff_of_true (agrees_stored finally_there recording
          ⟨marked, again, success, snapshot⟩ ?_) ⟨recorded, kept⟩
        rintro result impossible
        cases impossible
    · refine iff_of_false ?_ fun holds => missed holds.1
      rcases run_recordBackupFailure engine left failed with
        ⟨_, ⟨finished, again, unsuccessful⟩, _⟩ | ⟨_, _, again⟩
      · exact disagrees_stored finally_there again (by simp [unsuccessful])
      · exact disagrees_stored finally_there again (by simp [running])

/-- Storing runs through its three stages. -/
theorem run_storing {platform : PlatformConfig} {vm : VM} {platform_info : Dict}
    {staging_root : String} {job_id : Nat} {drafted : Draft} {world final : World}
    (ran : run (faulting env faults) (storing engine platform vm platform_info) world =
      (.ok (staging_root, job_id, drafted), final)) :
    ∃ now opened middle,
      run (faulting env faults) (openJob engine platform vm) world =
        (.ok (now, staging_root, job_id), opened) ∧
      run (faulting env faults) (draft engine platform vm platform_info now staging_root) opened =
        (.ok drafted, middle) ∧
      run (faulting env faults) (store engine drafted.point) middle = (.ok (), final) := by
  obtain ⟨⟨now, root, number⟩, opened, opens, rest⟩ := (run_bind_eq_ok _).mp ran
  obtain ⟨found, middle, drafts, rest⟩ := (run_bind_eq_ok _).mp rest
  obtain ⟨_, stored, stores, rest⟩ := (run_bind_eq_ok _).mp rest
  cases rest
  exact ⟨now, opened, middle, opens, drafts, stores⟩

/-- A dry run starts no job and stores nothing. -/
theorem agrees_dry {platform : PlatformConfig} {vm : VM} {platform_info : Dict}
    {world after : World} {outcome : Except Exn Dict}
    (ran : run (faulting env faults) (backupVM engine platform vm platform_info true) world =
      (outcome, after)) : JobAgrees world after outcome := by
  have footprint : Footprint [.silent, .outside]
      (backupVM engine platform vm platform_info true) := by
    refine footprint_bind (footprint_utcnow (by simp)) fun now => ?_
    rw [if_pos rfl]
    exact footprint_bind (footprint_request (by simp [Command.effect])) fun _ => footprint_pure _
  have same : after.db.jobs = world.db.jobs :=
    same_faulting footprint (by simp : Effect.writing .jobs ∉ [Effect.silent, .outside]) ran
  have absent : after.db.jobs.lookup world.db.jobs.next = none :=
    same ▸ Tables.Numbered.lookup_next world.db.jobs
  refine agrees_unstored (not_catalogued_point ?_) ?_ ?_
  · refine (only_faulting footprint ran).mono ?_
    intro exchange listed written
    exact absurd (written ▸ listed) (by simp)
  · intro row found
    cases absent.symm.trans found
  · intro result row _ found
    cases absent.symm.trans found

/-- A backup fails before its point is stored: nothing is catalogued, and there is nothing
to settle. -/
theorem agrees_early {platform : PlatformConfig} {vm : VM} {platform_info : Dict}
    {staging_root : String} {error : Exn} {row : JobRow} {world failed after : World}
    {outcome : Except Exn Dict}
    (there : failed.db.jobs.lookup world.db.jobs.next = some row) (running : row.status = "running")
    (missing : Only (fun exchange => ∀ snapshot_id copy, exchange ≠
      ⟨Command.transact (.upsertCopy snapshot_id "primary" copy), (.ok () : Except Exn Unit)⟩)
      world failed)
    (unstored : ∀ stored final, run (faulting env faults) (storing engine platform vm
      platform_info) world ≠ (.ok stored, final))
    (concluded : run (faulting env faults) (recordBackupFailure engine platform vm staging_root
      world.db.jobs.next error) failed = (outcome, after)) :
    JobAgrees world after outcome ↔
      BackupSettles engine (faulting env faults) platform vm platform_info false world := by
  have recording := only_faulting (footprint_recordBackupFailure engine platform vm staging_root
    world.db.jobs.next error) concluded
  refine iff_of_true (agrees_failed engine there running (not_catalogued_copy
    (missing.trans (recording.mono ?_))) concluded) ?_
  · rintro exchange listed snapshot_id copy rfl
    exact absurd listed (by simp [Command.effect, writes])
  · intro _ _ _ _ _ stored
    exact absurd stored (unstored _ _)

/-- Effects without copies leave no primary copy. -/
theorem only_uncopied {effects : List Effect} {world after : World}
    (only : Only (fun exchange => Command.effect exchange.1 ∈ effects) world after)
    (uncopied : .writing .copies ∉ effects) :
    Only (fun exchange => ∀ snapshot_id copy, exchange ≠
      ⟨Command.transact (.upsertCopy snapshot_id "primary" copy), (.ok () : Except Exn Unit)⟩)
      world after := by
  refine only.mono ?_
  rintro exchange listed snapshot_id copy rfl
  exact uncopied listed

/-- From the opening of its job on, the row of a backup agrees exactly when it settles. -/
theorem agrees_opened {platform : PlatformConfig} {vm : VM} {platform_info : Dict}
    {now : Timestamp} {staging_root : String} {row : JobRow} {world opened after : World}
    {outcome : Except Exn Dict}
    (opens : run (faulting env faults) (openJob engine platform vm) world =
      (.ok (now, staging_root, world.db.jobs.next), opened))
    (there : opened.db.jobs.lookup world.db.jobs.next = some row) (running : row.status = "running")
    (ran : run (faulting env faults) (tryCatch (performBackup engine platform vm platform_info now
      staging_root world.db.jobs.next) (recordBackupFailure engine platform vm staging_root
      world.db.jobs.next)) opened = (outcome, after)) :
    JobAgrees world after outcome ↔
      BackupSettles engine (faulting env faults) platform vm platform_info false world := by
  have opening := only_faulting (footprint_openJob engine platform vm) opens
  have drafting := footprint_draft engine platform vm platform_info now staging_root
  rw [run_tryCatch, performBackup_eq] at ran
  cases performed : run (faulting env faults) (do
      let drafted ← draft engine platform vm platform_info now staging_root
      store engine drafted.point
      settle engine platform vm staging_root world.db.jobs.next drafted) opened with
  | mk answer between =>
    rw [performed] at ran
    rcases run_bind_cases _ performed with ⟨error, rfl, raised⟩ | ⟨drafted, middle, drafts, rest⟩
    · have same : between.db.jobs = opened.db.jobs :=
        same_faulting drafting (by simp : Effect.writing .jobs ∉ _) raised
      refine agrees_early engine (same ▸ there) running ?_ ?_ ran
      · exact (only_uncopied opening (by simp)).trans
          (only_uncopied (only_faulting drafting raised) (by simp))
      · rintro ⟨root, number, drafted⟩ final stored
        obtain ⟨_, _, _, again, drafts, _⟩ := run_storing engine stored
        cases opens.symm.trans again
        cases raised.symm.trans drafts
    have kept : middle.db.jobs = opened.db.jobs :=
      same_faulting drafting (by simp : Effect.writing .jobs ∉ _) drafts
    rcases run_bind_cases _ rest with ⟨error, rfl, raised⟩ | ⟨_, stored, stores, rest⟩
    · have same : between.db.jobs = middle.db.jobs :=
        same_faulting (footprint_store engine _) (by simp : Effect.writing .jobs ∉ _) raised
      refine agrees_early engine (same ▸ kept ▸ there) running ?_ ?_ ran
      · exact ((only_uncopied opening (by simp)).trans (only_uncopied
          (only_faulting drafting drafts) (by simp))).trans (store_raises engine raised)
      · rintro ⟨root, number, other⟩ final stored
        obtain ⟨_, _, _, again, redrafts, stores⟩ := run_storing engine stored
        cases opens.symm.trans again
        cases drafts.symm.trans redrafts
        cases raised.symm.trans stores
    · have same : stored.db.jobs = middle.db.jobs :=
        same_faulting (footprint_store engine _) (by simp : Effect.writing .jobs ∉ _) stores
      have before : Only (fun exchange => StoresOnly drafted.point.snapshot_id exchange.1)
          world stored := by
        refine ((only_faulting (issues_unwritten (footprint_openJob engine platform vm) (by simp)
          _) opens).trans (only_faulting (issues_unwritten drafting (by simp) _) drafts)).trans ?_
        exact only_faulting (issues_store engine drafted.point) stores
      have since : Since world [] middle :=
        since_faulting (since_faulting (Since.refl world) opens) drafts
      refine (agrees_settled engine (same ▸ kept ▸ there) running
        (store_returns engine since stores) before rest ?_).trans ?_
      · cases answer with
        | ok result =>
          cases ran
          exact Or.inl ⟨result, rfl, rfl, rfl⟩
        | error error => exact Or.inr ⟨error, rfl, ran⟩
      · constructor
        · intro holds _ root number other final storing
          obtain ⟨_, _, _, again, redrafts, restores⟩ := run_storing engine storing
          cases opens.symm.trans again
          cases drafts.symm.trans redrafts
          cases stores.symm.trans restores
          exact holds
        · intro holds
          refine holds rfl _ _ drafted stored ?_
          simp only [storing, run_bind, opens, drafts, stores]
          rfl

/-- The row of a job agrees with what its backup did exactly when the backup settles. -/
theorem job_agrees {platform : PlatformConfig} {vm : VM} {platform_info : Dict} {dry_run : Bool}
    {world after : World} {outcome : Except Exn Dict}
    (ran : run (faulting env faults) (backupVM engine platform vm platform_info dry_run) world =
      (outcome, after)) :
    JobAgrees world after outcome ↔
      BackupSettles engine (faulting env faults) platform vm platform_info dry_run world := by
  cases dry_run with
  | true => exact iff_of_true (agrees_dry engine ran) nofun
  | false =>
    rw [backupVM_eq] at ran
    have opening : ∀ answer middle,
        run (faulting env faults) (openJob engine platform vm) world = (answer, middle) →
        Only (fun exchange => Command.effect exchange.1 ∈
          [Effect.silent, .outside, .writing .jobs]) world middle :=
      fun answer middle opened => only_faulting (footprint_openJob engine platform vm) opened
    rcases run_bind_cases _ ran with ⟨error, rfl, opened⟩ | ⟨⟨now, root, job⟩, m, opened, rest⟩
    · -- No job was opened.
      refine iff_of_true ?_ ?_
      · rcases run_openJob engine opened with ⟨_, _, impossible, _⟩ | ⟨_, same⟩
        · cases impossible
        · have absent : after.db.jobs.lookup world.db.jobs.next = none :=
            same ▸ Tables.Numbered.lookup_next world.db.jobs
          refine agrees_unstored (not_catalogued_point ((opening _ _ opened).mono ?_)) ?_ ?_
          · intro exchange listed written
            exact absurd (written ▸ listed) (by simp)
          · intro row found
            cases absent.symm.trans found
          · intro result row _ found
            cases absent.symm.trans found
      · intro _ _ _ _ _ stored
        obtain ⟨_, _, _, opens, _⟩ := run_storing engine stored
        cases opened.symm.trans opens
    · rcases run_openJob engine opened with
        ⟨_, _, same, row, there, running⟩ | ⟨⟨_, impossible⟩, _⟩
      · cases same
        exact agrees_opened engine opened there running rest
      · cases impossible

end Jobs

end Immutavault.JobOutcomes
