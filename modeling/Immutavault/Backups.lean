import Immutavault.RestoreEngine

/-!
# Backups, retention and holds

A backup exports a machine, stores it in the primary repository, catalogues the
recovery point and copies it to every enabled replica. Retention reads the
protected points, lets the repository forget the others that its policy would
remove, and marks those expired. A hold extends the immutability of one point,
and the provider locks of the replicas that hold a copy.

The three take no common lock, so each is written as the sequence of commands
that another call may fall between.
-/

namespace Immutavault.Backups

open Programs Values Timestamps Catalog Machine Configuration ResticRepository StateDatabase
open RestoreEngine

/-- Characters that a name keeps when it becomes a directory. -/
def isComponentCharacter (character : Char) : Bool :=
  character.isAlphanum ∨ character ∈ ['.', '_', '-']

/-- Every run of other characters becomes one underscore. -/
def collapseRuns (inRun : Bool) : List Char → List Char
  | [] => []
  | character :: rest =>
    if isComponentCharacter character then character :: collapseRuns false rest
    else if inRun then collapseRuns true rest
    else '_' :: collapseRuns true rest

/-- Text without separators at its ends. -/
def stripSeparators (text : List Char) : List Char :=
  let separator (character : Char) : Bool := character ∈ ['.', '_', '-']
  ((text.dropWhile separator).reverse.dropWhile separator).reverse

def safeComponent (value : String) : String :=
  let cleaned := (stripSeparators (collapseRuns false (stripped value).toList)).take 160
  if cleaned = [] then "unnamed" else String.ofList cleaned

variable (engine : Engine)

/-- What is recorded when an export leaves no attestation. -/
def unattested (type : PlatformType) : Dict :=
  [("state", .str "snapshot-consistent"), ("method", .str s!"{type.text}-snapshot-export"),
    ("requested", .bool false), ("strict", .bool false), ("provider_attested", .bool false),
    ("application_consistent", .bool false),
    ("detail", .str "transport did not publish an application-consistency attestation")]

/-- What a copy shows in the result of its backup. -/
def copyReport (copied : CopyResult) : Json :=
  .obj [("status", .str copied.status), ("repository", .str copied.repository),
    ("backend", .str copied.backend.text),
    ("provider", (copied.provider.map Json.str).getD .null),
    ("object_lock", .obj ((copied.object_lock.map (·.details)).getD []))]

/-- Copy a snapshot to one replica and catalogue the copy. -/
def replicateTo (snapshot_id : String) (replica : ReplicaConfig) (immutable_days : Nat)
    (immutable_until : Timestamp) : Prog Json := do
  let copied ← copySnapshot engine.cfg.repository engine.getenv snapshot_id replica
    (some immutable_days)
  let repository ← raised (resticTargetUrl replica)
  let lock_info := (copied.object_lock.map (·.details)).getD []
  upsertRecoveryCopy snapshot_id replica.name replica.backend.text repository
    (replicaProvider replica) .success
    (some ((copied.object_lock.bind (·.retain_until)).getD immutable_until)) lock_info none
  audit "system" "replica.complete" "recovery_point" snapshot_id [
    ("target", .str replica.name), ("backend", .str replica.backend.text),
    ("provider", .str replica.provider), ("object_lock", .obj lock_info)]
  return copyReport copied

/-- The repository that a failed copy is catalogued with. -/
def repositoryText (replica : ReplicaConfig) : String :=
  match resticTargetUrl replica with
  | .ok repository => repository
  | .error _ => "unresolved"

/-- Catalogue a failed copy; the primary backup remains valid. -/
def recordReplicaFailure (snapshot_id : String) (replica : ReplicaConfig) (error : Exn) :
    Prog Json := do
  upsertRecoveryCopy snapshot_id replica.name replica.backend.text (repositoryText replica)
    (replicaProvider replica) .failed none [] (some error.message)
  audit "system" "replica.failed" "recovery_point" snapshot_id [
    ("target", .str replica.name), ("error", .str error.message)]
  return .obj [("status", .str "failed"), ("error", .str error.message)]

/-- Copy a snapshot to every enabled replica. -/
def replicate (snapshot_id : String) (immutable_days : Nat) (immutable_until : Timestamp) :
    List ReplicaConfig → Prog Dict
  | [] => return []
  | replica :: rest => do
    if ¬ replica.enabled then replicate snapshot_id immutable_days immutable_until rest
    else
      let result ← tryCatch (replicateTo engine snapshot_id replica immutable_days immutable_until)
        (recordReplicaFailure snapshot_id replica)
      let others ← replicate snapshot_id immutable_days immutable_until rest
      return (replica.name, result) :: others

/-- What verification does between clearing its directory before and after. -/
def inspectRestored (snapshot_id actor : String) (point : Point) (root : String) : Prog Bool := do
  let expected := joinPath root (lstripSlash point.source_path)
  restore engine.cfg.repository engine.getenv snapshot_id root none
  let present : Bool ← request (.pathExists expected)
  if ¬ present then
    markVerified snapshot_id false [("error", .str "restored path missing")]
    return false
  else
    let (ok, errors) ← request (.verifyManifest expected point.manifest_sha256)
    let shown : Json := .arr ((errors.take 20).map .str)
    markVerified snapshot_id ok [("errors", shown)]
    audit actor "recovery.verify" "recovery_point" snapshot_id
      [("success", .bool ok), ("errors", shown)]
    return ok

def verifyRecoveryPoint (snapshot_id actor : String) : Prog Bool := do
  match ← getPoint snapshot_id with
  | none => raiseValueError "unknown recovery point"
  | some point =>
    engine.ensurePathCapacity engine.cfg.runtime.verify_staging_path "verification"
    let root := joinPath engine.cfg.runtime.verify_staging_path (safeComponent snapshot_id)
    rmtree root
    let outcome ← (inspectRestored engine snapshot_id actor point root).attempt
    rmtree root
    raised outcome

/-- The tags of a backup. -/
def backupTags (platform : PlatformConfig) (vm : VM) : List String :=
  ["immutavault:v1.1.0", s!"platform:{platform.type.text}", s!"source:{platform.name}",
    s!"vm-id:{vm.id}", s!"vm:{vm.name}", s!"vm-kind:{vm.kind}"]

/-- How many days a new point stays immutable. -/
def immutableDays (suspicious : Bool) : Nat :=
  let days := engine.cfg.repository.retention.keep_within_days
  if suspicious then max days engine.cfg.protection.preserve_suspicious_points_days else days

/-- Export, store and catalogue a machine, and copy it to the replicas. -/
def performBackup (platform : PlatformConfig) (vm : VM) (platform_info : Dict) (now : Timestamp)
    (staging_root : String) (job_id : Nat) : Prog Dict := do
  let exported : String ← request (.exportVM platform vm staging_root false)
  let attested : Option Dict ← request (.readConsistency exported)
  let application_consistency := match attested with
    | some fields => if fields = [] then unattested platform.type else fields
    | none => unattested platform.type
  let manifest : Manifest ← request (.buildManifest staging_root)
  let summary ← backup engine.cfg.repository engine.getenv staging_root (backupTags platform vm)
  let previous ← latestPoint platform.name vm.id
  let (suspicious, reason) ← request (.detectBackupAnomaly (previous.map (·.backup_bytes))
    manifest.total_bytes summary.data_added)
  let immutable_days := immutableDays engine suspicious
  let immutable_until := addDays now immutable_days
  let point : Point := {
    snapshot_id := summary.snapshot_id, created_at := now, platform := platform.name
    platform_type := platform.type, vm_id := vm.id, vm_name := vm.name
    power_state := some vm.power_state, source_path := staging_root
    backup_bytes := manifest.total_bytes, data_added := summary.data_added
    file_count := manifest.file_count, manifest_sha256 := some manifest.digest
    immutable_until := immutable_until, suspicious := suspicious, suspicious_reason := reason
    verified := false, verified_at := none
    metadata := [("exported", .str exported), ("vm_kind", .str vm.kind),
      ("platform_info", .obj platform_info),
      ("application_consistency", .obj application_consistency)] }
  upsertRecoveryPoint point
  upsertRecoveryCopy point.snapshot_id "primary" "rest" engine.cfg.repository.url none .success
    (some immutable_until)
    [("type", .str "append-only-vault"), ("logical_immutability", .bool true)] none
  finishJob job_id "success" (some point.snapshot_id) none
  let shown : Json := (reason.map Json.str).getD .null
  audit "system" "backup.complete" "recovery_point" point.snapshot_id [
    ("platform", .str platform.name), ("vm", .str vm.name), ("suspicious", .bool suspicious),
    ("reason", shown)]
  let replica_results ← replicate engine point.snapshot_id immutable_days immutable_until
    engine.cfg.replicas
  let verified ← if engine.cfg.protection.verify_after_backup
    then (do return some (← verifyRecoveryPoint engine point.snapshot_id "system")) else pure none
  rmtree staging_root
  return [("platform", .str platform.name), ("vm", .str vm.name), ("status", .str "success"),
    ("snapshot", .str point.snapshot_id), ("bytes", .int manifest.total_bytes),
    ("data_added", .int summary.data_added), ("immutable_until", .str (isoformat immutable_until)),
    ("suspicious", .bool suspicious), ("suspicious_reason", shown),
    ("replicas", .obj replica_results), ("verified", (verified.map Json.bool).getD .null),
    ("application_consistency", .obj application_consistency)]

/-- Record a failed backup; the next machine is backed up all the same. -/
def recordBackupFailure (platform : PlatformConfig) (vm : VM) (staging_root : String)
    (job_id : Nat) (error : Exn) : Prog Dict := do
  finishJob job_id "failed" none (some error.message)
  audit "system" "backup.failed" "vm" s!"{platform.name}:{vm.id}" [("error", .str error.message)]
  if ¬ engine.cfg.runtime.keep_staging_on_failure then
    rmtree staging_root
  return [("platform", .str platform.name), ("vm", .str vm.name), ("status", .str "failed"),
    ("error", .str error.message)]

def backupVM (platform : PlatformConfig) (vm : VM) (platform_info : Dict) (dry_run : Bool) :
    Prog Dict := do
  let now ← utcnow
  let staging_root := joinPath (joinPath (joinPath engine.cfg.repository.staging_path
    (safeComponent platform.name)) (safeComponent vm.name)) (stamp now)
  if dry_run then
    let exported : String ← request (.exportVM platform vm staging_root true)
    return [("platform", .str platform.name), ("vm", .str vm.name), ("status", .str "dry-run"),
      ("would_export", .str exported)]
  else
    request (.mkdir staging_root)
    let job_id ← startJob platform.name vm.id vm.name
    tryCatch (performBackup engine platform vm platform_info now staging_root job_id)
      (recordBackupFailure engine platform vm staging_root job_id)

section Footprints

/-- The tables a backup writes, and what else it may touch. -/
def backupEffects : List Effect :=
  [.silent, .outside, .ofRestic, .writing .jobs, .writing .points, .writing .copies,
    .writing .audits]

theorem footprint_replicateTo (snapshot_id : String) (replica : ReplicaConfig)
    (immutable_days : Nat) (immutable_until : Timestamp) :
    Footprint [.silent, .outside, .ofRestic, .writing .copies, .writing .audits]
      (replicateTo engine snapshot_id replica immutable_days immutable_until) := by
  refine footprint_bind ((footprint_copySnapshot _ _ _ _ _).mono (by simp)) fun copied => ?_
  refine footprint_bind (footprint_raised _) fun repository => ?_
  refine footprint_bind ((footprint_upsertRecoveryCopy _ _ _ _ _ _ _ _ _).mono (by simp))
    fun _ => ?_
  exact footprint_bind (footprint_audit (by simp) (by simp) _ _ _ _ _) fun _ => footprint_pure _

theorem footprint_recordReplicaFailure (snapshot_id : String) (replica : ReplicaConfig)
    (error : Exn) : Footprint [.silent, .writing .copies, .writing .audits]
      (recordReplicaFailure snapshot_id replica error) := by
  refine footprint_bind ((footprint_upsertRecoveryCopy _ _ _ _ _ _ _ _ _).mono (by simp))
    fun _ => ?_
  exact footprint_bind (footprint_audit (by simp) (by simp) _ _ _ _ _) fun _ => footprint_pure _

theorem footprint_replicate (snapshot_id : String) (immutable_days : Nat)
    (immutable_until : Timestamp) (replicas : List ReplicaConfig) :
    Footprint [.silent, .outside, .ofRestic, .writing .copies, .writing .audits]
      (replicate engine snapshot_id immutable_days immutable_until replicas) := by
  induction replicas with
  | nil => exact footprint_pure _
  | cons replica rest inductionHypothesis =>
    unfold replicate
    split
    · exact inductionHypothesis
    · refine footprint_bind (footprint_tryCatch (footprint_replicateTo engine _ _ _ _)
        fun error => ?_) fun result => ?_
      · exact (footprint_recordReplicaFailure _ _ _).mono (by simp)
      · exact footprint_bind inductionHypothesis fun _ => footprint_pure _

theorem footprint_inspectRestored (snapshot_id actor : String) (point : Point) (root : String) :
    Footprint [.silent, .outside, .ofRestic, .writing .points, .writing .audits]
      (inspectRestored engine snapshot_id actor point root) := by
  refine footprint_bind ((footprint_restore _ _ _ _ _).mono (by simp)) fun _ => ?_
  refine footprint_bind (footprint_request (by simp [Command.effect])) fun present => ?_
  split
  · exact footprint_bind ((footprint_markVerified _ _ _).mono (by simp)) fun _ => footprint_pure _
  · refine footprint_bind (footprint_request (by simp [Command.effect])) fun verdict => ?_
    refine footprint_bind ((footprint_markVerified _ _ _).mono (by simp)) fun _ => ?_
    exact footprint_bind (footprint_audit (by simp) (by simp) _ _ _ _ _) fun _ => footprint_pure _

theorem footprint_verifyRecoveryPoint (snapshot_id actor : String) :
    Footprint [.silent, .outside, .ofRestic, .writing .points, .writing .audits]
      (verifyRecoveryPoint engine snapshot_id actor) := by
  refine footprint_bind (footprint_reading rfl (by simp)) fun point => ?_
  cases point with
  | none => exact footprint_throw _
  | some point =>
    refine footprint_bind ((engine.footprint_ensurePathCapacity _ _).mono (by simp)) fun _ => ?_
    refine footprint_bind (footprint_rmtree (by simp) _) fun _ => ?_
    refine footprint_bind (footprint_attempt (footprint_inspectRestored engine _ _ _ _))
      fun outcome => ?_
    exact footprint_bind (footprint_rmtree (by simp) _) fun _ => footprint_raised _

theorem footprint_performBackup (platform : PlatformConfig) (vm : VM) (platform_info : Dict)
    (now : Timestamp) (staging_root : String) (job_id : Nat) :
    Footprint backupEffects
      (performBackup engine platform vm platform_info now staging_root job_id) := by
  refine footprint_bind (footprint_request (by simp [backupEffects, Command.effect])) fun exported => ?_
  refine footprint_bind (footprint_request (by simp [backupEffects, Command.effect])) fun attested => ?_
  refine footprint_bind (footprint_request (by simp [backupEffects, Command.effect])) fun manifest => ?_
  refine footprint_bind ((footprint_backup _ _ _ _).mono (by decide)) fun summary => ?_
  refine footprint_bind (footprint_reading rfl (by simp [backupEffects])) fun previous => ?_
  refine footprint_bind (footprint_request (by simp [backupEffects, Command.effect])) fun verdict => ?_
  refine footprint_bind (footprint_writing rfl (by simp [backupEffects])) fun _ => ?_
  refine footprint_bind ((footprint_upsertRecoveryCopy _ _ _ _ _ _ _ _ _).mono (by decide))
    fun _ => ?_
  refine footprint_bind ((footprint_finishJob _ _ _ _).mono (by decide)) fun _ => ?_
  refine footprint_bind (footprint_audit (by decide) (by decide) _ _ _ _ _) fun _ => ?_
  refine footprint_bind ((footprint_replicate engine _ _ _ _).mono (by decide)) fun _ => ?_
  dsimp only
  split
  · refine footprint_bind (footprint_bind ((footprint_verifyRecoveryPoint engine _ _).mono
      (by decide)) fun _ => footprint_pure _) fun verified => ?_
    exact footprint_bind (footprint_rmtree (by decide) _) fun _ => footprint_pure _
  · refine footprint_bind (footprint_pure _) fun verified => ?_
    exact footprint_bind (footprint_rmtree (by decide) _) fun _ => footprint_pure _

theorem footprint_recordBackupFailure (platform : PlatformConfig) (vm : VM)
    (staging_root : String) (job_id : Nat) (error : Exn) :
    Footprint [.silent, .writing .jobs, .writing .audits]
      (recordBackupFailure engine platform vm staging_root job_id error) := by
  refine footprint_bind ((footprint_finishJob _ _ _ _).mono (by simp)) fun _ => ?_
  refine footprint_bind (footprint_audit (by simp) (by simp) _ _ _ _ _) fun _ => ?_
  dsimp only
  split
  · exact footprint_bind (footprint_rmtree (by simp) _) fun _ => footprint_pure _
  · exact footprint_pure _

/-- A backup writes jobs, points, copies and the chain, and nothing else of the catalogue. -/
theorem footprint_backupVM (platform : PlatformConfig) (vm : VM) (platform_info : Dict)
    (dry_run : Bool) :
    Footprint backupEffects (backupVM engine platform vm platform_info dry_run) := by
  refine footprint_bind (footprint_utcnow (by decide)) fun now => ?_
  dsimp only
  split
  · exact footprint_bind (footprint_request (by simp [backupEffects, Command.effect])) fun _ => footprint_pure _
  · refine footprint_bind (footprint_request (by simp [backupEffects, Command.effect])) fun _ => ?_
    refine footprint_bind ((footprint_startJob _ _ _).mono (by decide)) fun job_id => ?_
    refine footprint_tryCatch (footprint_performBackup engine _ _ _ _ _ _) fun error => ?_
    exact (footprint_recordBackupFailure engine _ _ _ _ _).mono (by decide)

end Footprints

def retention : Prog (List String) := do
  let protectedIds ← protectedSnapshotIds
  let removed ← ResticRepository.retention engine.cfg.repository engine.getenv protectedIds
  markPointsExpired removed
  audit "root-maintenance" "retention.complete" "repository" "primary"
    [("removed", .arr (removed.map .str)), ("protected_count", .int protectedIds.dedup.length)]
  return removed

/-- A replica whose provider can lock objects. -/
def providerLock (replica : ReplicaConfig) : Bool :=
  replica.enabled ∧ replica.backend = .s3 ∧
    (replica.object_lock_enabled ∨
      (replica.provider = "cloudflare_r2" ∧ replica.r2_bucket_lock_enabled))

/-- Extend the provider lock of one replica. -/
def extendReplicaLock (snapshot_id actor : String) (days : Nat) (saved : Timestamp)
    (replica : ReplicaConfig) : Prog Unit := do
  let lock ← lockRequest replica (some days)
  audit actor "replica.hold_extended" "storage_target" replica.name [
    ("snapshot_id", .str snapshot_id), ("requested_until", .str (isoformat saved)),
    ("provider_lock", .obj lock.details)]

/-- A provider lock that cannot be extended is audited and does not fail the hold. -/
def recordLockFailure (snapshot_id actor : String) (replica : ReplicaConfig) (error : Exn) :
    Prog Unit :=
  audit actor "replica.hold_extend_failed" "storage_target" replica.name [
    ("snapshot_id", .str snapshot_id), ("error", .str error.message)]

/-- Extend the provider locks of the replicas that hold a copy. -/
def extendReplicaLocks (snapshot_id actor : String) (days : Nat) (saved : Timestamp) :
    List ReplicaConfig → Prog Unit
  | [] => return ()
  | replica :: rest => do
    if providerLock replica then
      let copy ← getRecoveryCopy snapshot_id replica.name
      if copy.map (·.status) = some .success then
        tryCatch (extendReplicaLock snapshot_id actor days saved replica)
          (recordLockFailure snapshot_id actor replica)
    extendReplicaLocks snapshot_id actor days saved rest

def holdRecoveryPoint (snapshot_id actor : String) (days : Int) (reason : String) :
    Prog Timestamp := do
  if days < 1 ∨ days > 36500 then raiseValueError "hold days must be between 1 and 36500"
  else match ← getPoint snapshot_id with
    | none => raiseValueError "unknown recovery point"
    | some _ =>
      let now ← utcnow
      let saved ← extendImmutability snapshot_id (addDays now days.toNat) actor reason
      extendReplicaLocks snapshot_id actor days.toNat saved engine.cfg.replicas
      return saved

end Immutavault.Backups
