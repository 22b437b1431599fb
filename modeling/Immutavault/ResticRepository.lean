import Immutavault.Machine

/-!
# The repositories

Backups live in one primary repository and are copied to replicas. Every
operation runs the backup tool with an environment that selects the repository
and the credentials, and reads its JSON output. A replica is a repository of its
own: its snapshots carry identifiers of its own.
-/

namespace Immutavault.ResticRepository

open Programs Values Timestamps Machine Configuration

/-- The variables of the process environment. -/
abbrev Environ := String → Option String

/-- A variable that is set and not empty. -/
def setting (getenv : Environ) (name : String) : Option String :=
  (getenv name).filter (· ≠ "")

/-- The environment that selects the primary repository, locally or through its server. -/
def env (cfg : RepositoryConfig) (getenv : Environ) (onVault : Bool) :
    Except Exn (List (String × String)) :=
  if getenv "RESTIC_PASSWORD" = none then
    .error ⟨.runtimeError, "RESTIC_PASSWORD is not set"⟩
  else
    let credentials := match setting getenv "REST_SERVER_USER", setting getenv
        "REST_SERVER_PASSWORD" with
      | some user, some password =>
        [("RESTIC_REST_USERNAME", user), ("RESTIC_REST_PASSWORD", password)]
      | _, _ => []
    let certificate := match cfg.cacert.filter (· ≠ "") with
      | some cacert => [("RESTIC_CACERT", cacert)]
      | none => []
    .ok ((if onVault then [("RESTIC_REPOSITORY", cfg.local_path)]
      else ("RESTIC_REPOSITORY", cfg.url) :: credentials) ++ certificate)

/-- A text without the given character at its ends. -/
def stripCharacter (character : Char) (text : String) : String :=
  String.ofList (((text.toList.dropWhile (· = character)).reverse.dropWhile
    (· = character)).reverse)

def stripRight (character : Char) (text : String) : String :=
  String.ofList ((text.toList.reverse.dropWhile (· = character)).reverse)

/-- Where a replica's repository is. -/
def resticTargetUrl (cfg : ReplicaConfig) : Except Exn String :=
  match cfg.backend with
  | .rest =>
    match cfg.url.filter (· ≠ "") with
    | none => .error ⟨.valueError, s!"replica {cfg.name}: missing REST repository url"⟩
    | some url => .ok url
  | .filesystem =>
    match cfg.path.filter (· ≠ "") with
    | none => .error ⟨.valueError, s!"replica {cfg.name}: missing filesystem path"⟩
    | some path => .ok path
  | .s3 =>
    match cfg.endpoint.filter (· ≠ ""), cfg.bucket.filter (· ≠ "") with
    | some endpoint, some bucket =>
      let path := if cfg.keyPrefix = "" then "" else "/" ++ stripCharacter '/' cfg.keyPrefix
      let base := stripRight '/' endpoint
      .ok s!"s3:{base}/{bucket}{path}"
    | _, _ => .error ⟨.valueError, s!"replica {cfg.name}: missing S3 endpoint/bucket"⟩

/-- The environment that selects a replica's repository. -/
def targetEnv (cfg : ReplicaConfig) (getenv : Environ) : Except Exn (List (String × String)) := do
  match setting getenv cfg.password_env with
  | none =>
    .error ⟨.runtimeError, s!"{cfg.password_env} is not set for replica {cfg.name}"⟩
  | some password =>
    let repository ← resticTargetUrl cfg
    let base := [("RESTIC_PASSWORD", password), ("RESTIC_REPOSITORY", repository)] ++
      match cfg.cacert.filter (· ≠ "") with
      | some cacert => [("RESTIC_CACERT", cacert)]
      | none => []
    if cfg.backend = .s3 then
      match setting getenv cfg.access_key_env, setting getenv cfg.secret_key_env with
      | some key, some secret =>
        let session := match (cfg.session_token_env.filter (· ≠ "")).bind (setting getenv) with
          | some token => [("AWS_SESSION_TOKEN", token)]
          | none => []
        let region := match cfg.region.filter (· ≠ "") with
          | some region => [("AWS_DEFAULT_REGION", region)]
          | none => []
        .ok (base ++ [("AWS_ACCESS_KEY_ID", key), ("AWS_SECRET_ACCESS_KEY", secret)] ++
          session ++ region)
      | _, _ => .error ⟨.runtimeError, s!"S3 credentials are missing for {cfg.name}: set {
          cfg.access_key_env} and {cfg.secret_key_env}"⟩
    else .ok base

/-- The environment of a replica carries its password first, then its repository. -/
theorem targetEnv_shape {replica : ReplicaConfig} {getenv : Environ}
    {renv : List (String × String)}
    (target : targetEnv replica getenv = .ok renv) :
    ∃ password repository rest, resticTargetUrl replica = .ok repository ∧
      renv = ("RESTIC_PASSWORD", password) :: ("RESTIC_REPOSITORY", repository) :: rest := by
  unfold targetEnv at target
  split at target
  · cases target
  · cases url : resticTargetUrl replica with
    | error error => simp [url, bind, Except.bind] at target
    | ok repository =>
      simp only [url, bind, Except.bind] at target
      split at target
      · split at target
        · exact ⟨_, repository, _, rfl, (Except.ok.inj target).symm⟩
        · cases target
      · exact ⟨_, repository, _, rfl, (Except.ok.inj target).symm⟩

/-- The options that select a replica's backend. -/
def resticOptions (cfg : ReplicaConfig) : List String :=
  if cfg.backend ≠ .s3 then []
  else
    ["-o", s!"s3.bucket-lookup={cfg.bucket_lookup}", "-o", s!"s3.connections={cfg.connections}"] ++
      match cfg.region.filter (· ≠ "") with
      | some region => ["-o", s!"s3.region={region}"]
      | none => []

/-- The fields of a JSON object; anything else has none and raises. -/
def asDict : Json → Except Exn Dict
  | .obj fields => .ok fields
  | _ => .error ⟨.otherError, "object has no attribute 'get'"⟩

/-- The items of a JSON value that can be iterated. -/
def asItems : Json → Except Exn (List Json)
  | .arr items => .ok items
  | .obj fields => .ok (fields.map fun field => .str field.1)
  | .str text => .ok (text.toList.map fun character => .str (String.singleton character))
  | _ => .error ⟨.otherError, "object is not iterable"⟩

/-- The number a JSON value converts to; empty values count as zero. -/
def asNumber (value : Json) : Except Exn Nat :=
  if ¬ value.truthy then .ok 0
  else match value with
    | .int number => .ok number.toNat
    | .bool _ => .ok 1
    | .str text =>
      match text.toNat? with
      | some number => .ok number
      | none => .error ⟨.valueError, "invalid literal for int()"⟩
    | _ => .error ⟨.otherError, "int() argument must be a string or a number"⟩

structure BackupSummary where
  snapshot_id : String
  data_added : Nat

/-- The last summary among the events of a backup; lines that are no JSON are skipped. -/
def readSummary (found : Json × Nat) : List (Option Json) → Except Exn (Json × Nat)
  | [] => .ok found
  | none :: rest => readSummary found rest
  | some event :: rest => do
    let event ← asDict event
    match event.get? "message_type" with
    | some (.str "summary") =>
      let data_added ← asNumber ((event.get? "data_added").getD (.int 0))
      readSummary ((event.get? "snapshot_id").getD (.str ""), data_added) rest
    | _ => readSummary found rest

section Repository

variable (cfg : RepositoryConfig) (getenv : Environ)

def backup (path : String) (tags : List String) : Prog BackupSummary := do
  let env ← raised (env cfg getenv false)
  let result ← runCommand (.restic (.backup path tags)) env none true
  let (snapshot_id, data_added) ← raised (readSummary (.str "", 0) result.jsonLines)
  if ¬ snapshot_id.truthy then
    raiseRuntimeError "restic backup completed without returning a snapshot id"
  else return { snapshot_id := snapshot_id.toText, data_added := data_added }

def restore (snapshot_id target : String) (replica : Option ReplicaConfig) : Prog Unit := do
  request (.mkdir target)
  match replica with
  | none =>
    let env ← raised (env cfg getenv false)
    let _ ← runCommand (.restic (.restore [] snapshot_id target)) env none true
  | some replica =>
    let env ← raised (targetEnv replica getenv)
    let _ ← runCommand (.restic (.restore (resticOptions replica) snapshot_id target)) env none true

/-- Restoring creates the target directory and runs one command on a repository. -/
theorem footprint_restore (snapshot_id target : String) (replica : Option ReplicaConfig) :
    Footprint [.outside, .ofRestic] (restore cfg getenv snapshot_id target replica) := by
  refine footprint_bind (footprint_request (by simp [Command.effect])) fun _ => ?_
  cases replica with
  | none =>
    refine footprint_bind (footprint_raised _) fun env => ?_
    exact footprint_bind (footprint_runCommand (by simp [Command.effect])) fun _ => footprint_pure _
  | some replica =>
    refine footprint_bind (footprint_raised _) fun env => ?_
    exact footprint_bind (footprint_runCommand (by simp [Command.effect])) fun _ => footprint_pure _

/-- The policy that a retention preview applies. -/
def retentionPolicy (r : RetentionConfig) : List String :=
  ["--group-by", "tags", "--keep-within", s!"{r.keep_within_days}d",
    "--keep-daily", toString r.keep_daily, "--keep-weekly", toString r.keep_weekly,
    "--keep-monthly", toString r.keep_monthly, "--keep-yearly", toString r.keep_yearly,
    "--keep-last", toString r.min_restore_points]

/-- The identifier of a snapshot in a preview. -/
def snapshotId (snap : Json) : Except Exn String := do
  let snap ← asDict snap
  return ((snap.get? "id").getD (.str "")).toText

/-- The identifiers that the groups of a preview would remove. -/
def previewIds (groups : Json) : Except Exn (List String) := do
  let groups ← asItems groups
  let ids ← groups.mapM fun group => do
    let group ← asDict group
    let snaps ← asItems ((group.get? "remove").getD (.arr []))
    snaps.mapM snapshotId
  return ids.flatten

/-- Forget what the policy would remove, except the protected snapshots. -/
def retention (protectedIds : List String) : Prog (List String) := do
  let env ← raised (env cfg getenv true)
  let preview ← runCommand (.restic (.forgetPreview (retentionPolicy cfg.retention))) env none true
  let groups ← raised preview.json
  let candidates ← raised (previewIds groups)
  let remove := ((candidates.filter fun sid => sid ≠ "" ∧ sid ∉ protectedIds).insertionSort
    (· ≤ ·)).dedup
  if remove = [] then return []
  else
    let _ ← runCommand (.restic (.forget remove)) env none true
    let _ ← runCommand (.restic .prune) env none true
    return remove

/-- What a copy reports. -/
structure CopyResult where
  status : String
  repository : String
  backend : Backend
  provider : Option String
  object_lock : Option LockInfo

/-- A replica's provider, which only an object store has. -/
def replicaProvider (replica : ReplicaConfig) : Option String :=
  if replica.backend = .s3 then some replica.provider else none

/-- Everything before the copy itself; answers the environment of the copy. -/
def prepareCopy (replica : ReplicaConfig) : Prog (List (String × String)) := do
  match setting getenv "RESTIC_PASSWORD" with
  | none => raiseRuntimeError "RESTIC_PASSWORD is not set"
  | some primary_password =>
    let env ← raised (targetEnv replica getenv)
    if replica.backend = .s3 ∧ replica.object_lock_enabled then
      let _ ← request (.s3Preflight replica)
    let source : String ← request (.sourceRepositoryWithAuth cfg.url)
    return env ++ [("RESTIC_FROM_REPOSITORY", source), ("RESTIC_FROM_PASSWORD", primary_password)]

/-- The provider lock that follows a copy. -/
def lockRequest (replica : ReplicaConfig) (immutable_days : Option Nat) : Prog LockInfo :=
  if replica.provider = "cloudflare_r2" ∧ replica.r2_bucket_lock_enabled then
    request (.ensureR2BucketLock replica immutable_days)
  else request (.applyObjectLock replica immutable_days)

/-- Everything after the copy: the snapshot must be visible in the destination. -/
def confirmCopy (snapshot_id : String) (replica : ReplicaConfig) (immutable_days : Option Nat)
    (env : List (String × String)) : Prog CopyResult := do
  let probe ← runCommand (.restic (.probe (resticOptions replica) snapshot_id)) env none true
  let snapshots ← raised probe.json
  if ¬ snapshots.truthy then
    raiseRuntimeError s!"replica {replica.name} did not expose copied snapshot {snapshot_id}"
  else
    let lock_result ← lockRequest replica immutable_days
    let repository ← raised (resticTargetUrl replica)
    return {
      status := "success"
      repository := repository
      backend := replica.backend
      provider := replicaProvider replica
      object_lock := some lock_result }

def copySnapshot (snapshot_id : String) (replica : ReplicaConfig)
    (immutable_days : Option Nat) : Prog CopyResult := do
  if ¬ replica.enabled then
    return {
      status := "disabled", repository := "", backend := replica.backend, provider := none
      object_lock := none }
  else
    let env ← prepareCopy cfg getenv replica
    let _ ← runCommand (.restic (.copy (resticOptions replica) snapshot_id)) env none true
    confirmCopy snapshot_id replica immutable_days env

/-- A backup runs one command on the primary repository. -/
theorem footprint_backup (path : String) (tags : List String) :
    Footprint [.ofRestic] (backup cfg getenv path tags) := by
  refine footprint_bind (footprint_raised _) fun env => ?_
  refine footprint_bind (footprint_runCommand (by simp [Command.effect])) fun result => ?_
  refine footprint_bind (footprint_raised _) fun summary => ?_
  dsimp only
  split
  · exact footprint_throw _
  · exact footprint_pure _

theorem footprint_prepareCopy (replica : ReplicaConfig) :
    Footprint [.outside] (prepareCopy cfg getenv replica) := by
  unfold prepareCopy
  split
  · exact footprint_throw _
  · refine footprint_bind (footprint_raised _) fun env => ?_
    dsimp only
    split
    · refine footprint_bind (footprint_request (by simp [Command.effect])) fun _ => ?_
      exact footprint_bind (footprint_request (by simp [Command.effect])) fun _ => footprint_pure _
    · exact footprint_bind (footprint_request (by simp [Command.effect])) fun _ => footprint_pure _

theorem footprint_lockRequest (replica : ReplicaConfig) (immutable_days : Option Nat) :
    Footprint [.outside] (lockRequest replica immutable_days) := by
  unfold lockRequest
  split
  · exact footprint_request (by simp [Command.effect])
  · exact footprint_request (by simp [Command.effect])

theorem footprint_confirmCopy (snapshot_id : String) (replica : ReplicaConfig)
    (immutable_days : Option Nat) (env : List (String × String)) :
    Footprint [.outside, .ofRestic] (confirmCopy snapshot_id replica immutable_days env) := by
  refine footprint_bind (footprint_runCommand (by simp [Command.effect])) fun probe => ?_
  refine footprint_bind (footprint_raised _) fun snapshots => ?_
  split
  · exact footprint_throw _
  · refine footprint_bind ((footprint_lockRequest _ _).mono (by simp)) fun _ => ?_
    exact footprint_bind (footprint_raised _) fun _ => footprint_pure _

/-- A copy works on repositories and asks the storage clients, and writes no table. -/
theorem footprint_copySnapshot (snapshot_id : String) (replica : ReplicaConfig)
    (immutable_days : Option Nat) :
    Footprint [.outside, .ofRestic]
      (copySnapshot cfg getenv snapshot_id replica immutable_days) := by
  unfold copySnapshot
  split
  · exact footprint_pure _
  · refine footprint_bind ((footprint_prepareCopy cfg getenv replica).mono (by simp))
      fun env => ?_
    refine footprint_bind (footprint_runCommand (by simp [Command.effect])) fun _ => ?_
    exact footprint_confirmCopy _ _ _ _

end Repository

end Immutavault.ResticRepository
