import Mathlib.Data.List.Lex
import Mathlib.Data.String.Basic
import Immutavault.Backups
import Immutavault.StateDatabase
import Immutavault.Tenancy

/-!
# The operations view

The operations view reports the newest backup jobs, a summary of the platforms in an
identity's scope, and the metrics of the whole vault. Each is read from the catalogue
in one go; the progress of a running export is estimated from the bytes in its
staging directory.

A job is reported only to the tenants of its platform, so every row that a view
reads needs an owner. Asking for the owner of a platform that none or several
tenants own raises, and then the whole view raises.
-/

namespace Immutavault.OperationsView

open Values Timestamps Catalog Tables Configuration Tenancy Backups

/-- A job as it is reported. -/
structure JobReport where
  id : Nat
  started_at : Timestamp
  finished_at : Option Timestamp
  platform : String
  vm_id : String
  vm_name : String
  status : String
  snapshot_id : Option String
  error : Option String
  tenant : String
  tenant_name : String
  progress_percent : Nat
  progress_estimated : Bool
  stage : String
  staging_bytes_seen : Option Nat
  elapsed_seconds : Int
  deriving DecidableEq

structure Summary where
  tenants : List String
  platforms : Nat
  recovery_points : Nat
  verified : Nat
  suspicious : Nat
  running_jobs : Nat
  active_restore_requests : Option Nat
  deriving DecidableEq

structure OperationsSnapshot where
  jobs : List JobReport
  summary : Summary
  deriving DecidableEq

/-- What a poll sees beside the catalogue: the clock, the estimates that are still
fresh, the bytes in the newest staging directory of a machine, and the share of the
expected bytes, out of 77, as it is computed with fractions. -/
structure Poll where
  now : Timestamp
  cached : Nat → Option (Nat × Nat)
  staged : String → String → Nat
  share : Nat → Nat → Nat

section Views

variable (cfg : EnterpriseConfig) (poll : Poll) (db : Database)

def allowed (tenant : String) (scopes : List String) : Bool := "*" ∈ scopes ∨ tenant ∈ scopes

/-- The bytes that the previous backup of a machine held. -/
def expectedBytes (row : JobRow) : Nat :=
  ((Transaction.read db (.latestPoint row.platform row.vm_id)).map (·.backup_bytes)).getD 0

/-- The progress of a running export, and the bytes it has staged. -/
def estimateRunningProgress (id : Nat) (row : JobRow) : Nat × Nat :=
  match poll.cached id with
  | some estimate => estimate
  | none =>
    let current_bytes := poll.staged (safeComponent row.platform) (safeComponent row.vm_name)
    let expected := expectedBytes db row
    if 0 < expected ∧ 0 < current_bytes then
      (min 85 (max 8 (8 + poll.share current_bytes expected)), current_bytes)
    else if 0 < current_bytes then (25, current_bytes)
    else (5, current_bytes)

/-- How far a job is, what was staged, and its stage. -/
def progress (id : Nat) (row : JobRow) : Nat × Option Nat × String :=
  if row.status = "running" then
    let (percent, bytes) := estimateRunningProgress poll db id row
    (percent, some bytes, "exporting")
  else if row.status = "success" then (100, none, "complete")
  else (100, none, "failed")

def jobReport (tenant : String) (id : Nat) (row : JobRow) : JobReport :=
  let (percent, bytes, stage) := progress poll db id row
  { id := id, started_at := row.started_at, finished_at := row.finished_at
    platform := row.platform, vm_id := row.vm_id, vm_name := row.vm_name, status := row.status
    snapshot_id := row.snapshot_id, error := row.error, tenant := tenant
    tenant_name := cfg.tenantName tenant, progress_percent := percent
    progress_estimated := row.status = "running", stage := stage, staging_bytes_seen := bytes
    elapsed_seconds := (((row.finished_at.getD poll.now : Nat) : Int) -
      ((row.started_at : Nat) : Int)).tdiv (second : Nat) }

/-- Report the jobs in scope, one after another. -/
def reports (scopes : List String) : List (Nat × JobRow) → Except Exn (List JobReport)
  | [] => .ok []
  | (id, row) :: rest => do
    let tenant ← cfg.tenantForPlatform row.platform
    if allowed tenant scopes then
      let others ← reports scopes rest
      return jobReport cfg poll db tenant id row :: others
    else reports scopes rest

/-- The newest jobs of the whole vault. -/
def newestJobs (limit : Int) : List (Nat × JobRow) :=
  db.jobs.rows.reverse.take (max 1 (min limit 500)).toNat

def jobs (scopes : List String) (limit : Int) : Except Exn (List JobReport) :=
  reports cfg poll db scopes (newestJobs db limit)

/-- The enabled platforms in scope, with their tenants. -/
def scopedPlatforms (scopes : List String) :
    List PlatformConfig → Except Exn (List (String × String))
  | [] => .ok []
  | platform :: rest => do
    if platform.enabled then
      let tenant ← cfg.tenantForPlatform platform.name
      let others ← scopedPlatforms scopes rest
      return if allowed tenant scopes then (platform.name, tenant) :: others else others
    else scopedPlatforms scopes rest

/-- A request that is not settled. -/
def activeRequest (status : RequestStatus) : Bool :=
  status ∈ [.pending_approval, .approved, .ready, .running]

/-- The counts over the named platforms. -/
def counts (platforms : List (String × String)) : Summary :=
  let names := platforms.map Prod.fst
  let points := db.livePoints.filter (·.platform ∈ names)
  { tenants := (platforms.map Prod.snd).dedup.insertionSort (· ≤ ·)
    platforms := platforms.length
    recovery_points := points.length
    verified := points.countP (·.verified)
    suspicious := points.countP (·.suspicious)
    running_jobs := db.jobs.rows.countP fun entry =>
      entry.2.status = "running" ∧ entry.2.platform ∈ names
    active_restore_requests := some (db.requests.rows.countP fun entry =>
      activeRequest entry.2.status ∧ entry.2.source_platform ∈ names) }

def summary (scopes : List String) : Except Exn Summary := do
  let platforms ← scopedPlatforms cfg scopes cfg.core.platforms
  return if platforms = [] then ⟨[], 0, 0, 0, 0, 0, none⟩ else counts db platforms

def snapshot (identity : Identity) : Except Exn OperationsSnapshot := do
  let jobs ← jobs cfg poll db identity.tenants 100
  let summary ← summary cfg db identity.tenants
  return ⟨jobs, summary⟩

/-- The frames that are pushed to a client, one for each state of the catalogue. -/
def pushed (identity : Identity) : List Database → Except Exn (List OperationsSnapshot)
  | [] => .ok []
  | current :: later => do
    let frame ← snapshot cfg poll current identity
    let frames ← pushed identity later
    return frame :: frames

end Views

section Metrics

variable (cfg : EnterpriseConfig) (db : Database)

def promLabel (value : String) : String :=
  ((value.replace "\\" "\\\\").replace "\n" "\\n").replace "\"" "\\\""

def labels (values : List (String × String)) : String :=
  "\x7b" ++ ",".intercalate (values.map fun entry => s!"{entry.1}=\"{promLabel entry.2}\"") ++
    "\x7d"

/-- The groups of a query, in order. -/
def groups (keys : List (List String)) : List (List String) :=
  keys.dedup.insertionSort (· ≤ ·)

/-- The label of a platform, when platforms are labelled. -/
def platformLabel (platform : String) : List (String × String) :=
  if cfg.observability.include_platform_labels then [("platform", platform)] else []

/-- The lines of one group, labelled with its tenant. The platform is the first key. -/
def groupLines (lines : String → List String → List String) (key : List String) :
    Except Exn (List String) := do
  let tenant ← cfg.tenantForPlatform (key.headD "")
  return lines tenant key

def pointLines (tenant : String) (key : List String) : List String :=
  let platform := key.headD ""
  let points := db.livePoints.filter (·.platform = platform)
  let label := labels (("tenant", tenant) :: platformLabel cfg platform)
  [s!"immutavault_recovery_points{label} {points.length}",
    s!"immutavault_recovery_points_verified{label} {points.countP (·.verified)}",
    s!"immutavault_recovery_points_suspicious{label} {points.countP (·.suspicious)}"]

def jobKey (row : JobRow) : List String := [row.platform, row.status]

def jobLines (tenant : String) (key : List String) : List String :=
  let count := db.jobs.rows.countP fun entry => jobKey entry.2 = key
  let label := labels ([("tenant", tenant), ("status", key.getD 1 "")] ++
    platformLabel cfg (key.headD ""))
  [s!"immutavault_backup_jobs_total{label} {count}"]

def restoreKey (row : RequestRow) : List String := [row.source_platform, row.status.text]

def restoreLines (tenant : String) (key : List String) : List String :=
  let count := db.requests.rows.countP fun entry => restoreKey entry.2 = key
  let label := labels ([("tenant", tenant), ("status", key.getD 1 "")] ++
    platformLabel cfg (key.headD ""))
  [s!"immutavault_restore_requests{label} {count}"]

def CopyStatus.text : CopyStatus → String
  | .success => "success"
  | .failed => "failed"

/-- The copies of live points, each with the key of its group. -/
def copyKeys : List (List String × CopyRow) :=
  db.copies.rows.filterMap fun entry =>
    (db.livePoint entry.1.1).map fun point =>
      ([point.platform, entry.1.2, CopyStatus.text entry.2.status], entry.2)

def copyLines (tenant : String) (key : List String) : List String :=
  let members := (copyKeys db).filter fun entry => entry.1 = key
  let label := labels ([("tenant", tenant), ("target", key.getD 1 ""), ("status", key.getD 2 "")] ++
    platformLabel cfg (key.headD ""))
  [s!"immutavault_recovery_copies{label} {members.length}",
    s!"immutavault_recovery_copies_verified{label} {members.countP (·.2.verified)}"]

/-- When the newest successful job of a platform finished. -/
def lastSuccess (platform : String) : Option Timestamp :=
  (db.jobs.rows.filterMap fun entry =>
    if entry.2.platform = platform ∧ entry.2.status = "success" then entry.2.finished_at
    else none).max?

/-- The lines of a configured platform. -/
def platformLines (now : Timestamp) (platform : PlatformConfig) : Except Exn (List String) :=
  if ¬ platform.enabled then .ok []
  else do
    let tenant ← cfg.tenantForPlatform platform.name
    let stamp := lastSuccess db platform.name
    let age : Int := match stamp with
      | some stamp => (((now : Nat) : Int) - ((stamp : Nat) : Int)).tdiv (second : Nat)
      | none => -1
    let compliant := stamp.isSome ∧ age ≤ cfg.core.protection.rpo_target_minutes * 60
    let label := labels (("tenant", tenant) :: platformLabel cfg platform.name)
    return [s!"immutavault_last_successful_backup_age_seconds{label} {age}",
      s!"immutavault_rpo_compliant{label} {if compliant then 1 else 0}"]

def runKey (row : RunRow) : List String :=
  [match row.direction with | .failover => "failover" | .failback => "failback",
    match row.status with | .running => "running" | .success => "success" | .failed => "failed"]

def runLine (key : List String) : String :=
  let count := db.runs.rows.countP fun entry => runKey entry.2 = key
  let label := labels [("direction", key.headD ""), ("status", key.getD 1 "")]
  s!"immutavault_dr_runs_total{label} {count}"

/-- The two lines that describe a metric. -/
def describe (name type help : String) : List String :=
  [s!"# HELP {name} {help}", s!"# TYPE {name} {type}"]

def renderPrometheus (version : String) (now : Timestamp) : Except Exn String := do
  let audit_ok := StateDatabase.chainErrors "GENESIS" db.audits.rows = []
  let points ← (groups (db.livePoints.map fun point => [point.platform])).mapM
    (groupLines cfg (pointLines cfg db))
  let jobs ← (groups (db.jobs.rows.map fun entry => jobKey entry.2)).mapM
    (groupLines cfg (jobLines cfg db))
  let restores ← (groups (db.requests.rows.map fun entry => restoreKey entry.2)).mapM
    (groupLines cfg (restoreLines cfg db))
  let platforms ← cfg.core.platforms.mapM (platformLines cfg db now)
  let copies ← (groups ((copyKeys db).map Prod.fst)).mapM (groupLines cfg (copyLines cfg db))
  let runs := (groups (db.runs.rows.map fun entry => runKey entry.2)).map (runLine db)
  let build := labels [("version", version)]
  let lines :=
    describe "immutavault_build_info" "gauge" "Immutavault build information." ++
    [s!"immutavault_build_info{build} 1"] ++
    describe "immutavault_audit_chain_valid" "gauge"
      "Whether the tamper-evident audit chain validates." ++
    [s!"immutavault_audit_chain_valid {if audit_ok then 1 else 0}"] ++
    describe "immutavault_recovery_points" "gauge" "Current non-expired recovery points." ++
    describe "immutavault_recovery_points_verified" "gauge" "Current verified recovery points." ++
    describe "immutavault_recovery_points_suspicious" "gauge"
      "Current suspicious recovery points." ++
    points.flatten ++
    describe "immutavault_backup_jobs_total" "counter" "Backup jobs by result." ++
    jobs.flatten ++
    describe "immutavault_restore_requests" "gauge" "Restore requests by current state." ++
    restores.flatten ++
    describe "immutavault_last_successful_backup_age_seconds" "gauge"
      "Age of the newest successful backup for a platform." ++
    describe "immutavault_rpo_compliant" "gauge"
      "Whether the latest successful platform backup is within the configured RPO target." ++
    platforms.flatten ++
    describe "immutavault_recovery_copies" "gauge"
      "Recovery-point copies by target and status." ++
    describe "immutavault_recovery_copies_verified" "gauge" "Verified recovery-point copies." ++
    copies.flatten ++
    describe "immutavault_dr_runs_total" "counter" "Disaster-recovery orchestration runs." ++
    runs
  return "\n".intercalate lines ++ "\n"

end Metrics

end Immutavault.OperationsView
