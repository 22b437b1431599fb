import Mathlib.Data.List.Sort
import Immutavault.Configuration
import Immutavault.Tables
import Immutavault.Timestamps
import Immutavault.Values

/-!
# The catalogue

The catalogue is one small relational database. Every access is one short
transaction, so the catalogue is a state and a transaction is a pure function
from the state to an answer and the next state. A method that reads and then
writes in two statements performs two transactions, because the read takes no
write lock: between the two another connection may commit.

Ordering clauses are stable sorts: rows that compare equal keep their order of
insertion. A replaced recovery point is a new row, with fresh defaults.
-/

namespace Immutavault.Catalog

open Values Tables Timestamps

structure JobRow where
  started_at : Timestamp
  finished_at : Option Timestamp := none
  platform : String
  vm_id : String
  vm_name : String
  status : String
  snapshot_id : Option String := none
  error : Option String := none

/-- A recovery point, without its key. -/
structure PointRow where
  created_at : Timestamp
  platform : String
  platform_type : Configuration.PlatformType
  vm_id : String
  vm_name : String
  power_state : Option String
  source_path : String
  backup_bytes : Nat
  data_added : Nat
  file_count : Nat
  manifest_sha256 : Option String
  immutable_until : Timestamp
  suspicious : Bool
  suspicious_reason : Option String
  verified : Bool
  verified_at : Option Timestamp
  metadata : Dict
  expired : Bool := false
  expired_at : Option Timestamp := none

/-- A recovery point as it is read. -/
structure Point extends PointRow where
  snapshot_id : String

inductive CopyStatus where
  | success
  | failed
  deriving DecidableEq, Repr

/-- A copy of a recovery point on one target; the key is the point and the target. -/
structure CopyRow where
  backend : String
  provider : Option String
  repository : String
  status : CopyStatus
  copied_at : Option Timestamp
  verified : Bool
  verified_at : Option Timestamp
  immutable_until : Option Timestamp
  object_lock : Dict
  error : Option String

/-- The life of a restore request. -/
inductive RequestStatus where
  | pending_approval
  | approved
  | ready
  | running
  | success
  | failed
  deriving DecidableEq, Repr

def RequestStatus.text : RequestStatus → String
  | .pending_approval => "pending_approval"
  | .approved => "approved"
  | .ready => "ready"
  | .running => "running"
  | .success => "success"
  | .failed => "failed"

structure RequestRow where
  created_at : Timestamp
  requester : String
  snapshot_id : String
  source_platform : String
  vm_id : String
  vm_name : String
  target_platform : String
  target_name : String
  options : Dict
  status : RequestStatus
  approved_by : Option String := none
  approved_at : Option Timestamp := none
  started_at : Option Timestamp := none
  finished_at : Option Timestamp := none
  result : Option Dict := none
  error : Option String := none

inductive Direction where
  | failover
  | failback
  deriving DecidableEq, Repr

inductive RunStatus where
  | running
  | success
  | failed
  deriving DecidableEq, Repr

structure RunRow where
  started_at : Timestamp
  finished_at : Option Timestamp := none
  direction : Direction
  source_site : String
  target_site : String
  status : RunStatus
  details : Dict
  error : Option String := none

structure WorkloadRow where
  run_id : Nat
  workload_name : String
  snapshot_id : Option String
  source_platform : String
  target_platform : String
  target_name : Option String
  status : String
  result : Dict
  error : Option String

structure HealthRow where
  checked_at : Timestamp
  healthy : Bool
  consecutive_failures : Nat
  detail : Dict

structure AuditRow where
  created_at : String
  actor : String
  action : String
  object_type : String
  object_id : String
  details_json : String
  prev_hash : Option String
  event_hash : Option String

/-- All tables. -/
structure Database where
  jobs : Numbered JobRow := .empty
  points : Keyed String PointRow := .empty
  copies : Keyed (String × String) CopyRow := .empty
  requests : Numbered RequestRow := .empty
  runs : Numbered RunRow := .empty
  workloads : Numbered WorkloadRow := .empty
  health : Keyed String HealthRow := .empty
  audits : Numbered AuditRow := .empty

/-- One transaction of the catalogue. -/
inductive Transaction where
  | startJob (row : JobRow)
  | finishJob (job_id : Nat) (finished_at : Timestamp) (status : String)
      (snapshot_id error : Option String)
  | replacePoint (snapshot_id : String) (row : PointRow)
  | upsertCopy (snapshot_id target_name : String) (row : CopyRow)
  | selectCopy (snapshot_id target_name : String)
  | latestPoint (platform vm_id : String)
  | protectedSnapshotIds (now : Timestamp)
  | selectPoint (snapshot_id : String)
  | selectPoints (platform vm_id : Option String) (limit : Nat)
  | selectImmutableUntil (snapshot_id : String)
  | updateImmutableUntil (snapshot_id : String) (immutable_until : Timestamp)
  | markPointsExpired (snapshot_ids : List String) (expired_at : Timestamp)
  | selectMetadata (snapshot_id : String)
  | updateVerified (snapshot_id : String) (verified : Bool) (verified_at : Option Timestamp)
      (metadata : Dict)
  | insertRequest (row : RequestRow)
  | selectRequest (request_id : Nat)
  | approveRequest (request_id : Nat) (approved_by : String) (approved_at : Timestamp)
  | startRequest (request_id : Nat) (started_at : Timestamp)
  | finishRequest (request_id : Nat) (success : Bool) (finished_at : Timestamp) (result : Dict)
      (error : Option String)
  | insertRun (row : RunRow)
  | finishRun (run_id : Nat) (finished_at : Timestamp) (success : Bool) (details : Dict)
      (error : Option String)
  | insertWorkload (row : WorkloadRow)
  | selectWorkloads (run_id : Nat)
  | latestRun (direction : Option Direction) (status : Option RunStatus)
  | selectHealth (name : String)
  | upsertHealth (name : String) (row : HealthRow)
  | auditTail
  | insertAudit (row : AuditRow)
  | selectAudits

namespace Transaction

@[reducible] def Answer : Transaction → Type
  | .startJob _ | .insertRequest _ | .insertRun _ | .insertWorkload _ => Nat
  | .selectCopy _ _ => Option CopyRow
  | .latestPoint _ _ | .selectPoint _ => Option Point
  | .protectedSnapshotIds _ => List String
  | .selectPoints _ _ _ => List Point
  | .selectImmutableUntil _ => Option Timestamp
  | .selectMetadata _ => Option Dict
  | .selectRequest _ => Option RequestRow
  | .selectWorkloads _ => List WorkloadRow
  | .latestRun _ _ => Option (Nat × RunRow)
  | .selectHealth _ => Option HealthRow
  | .auditTail => Option (Option String)
  | .selectAudits => List (Nat × AuditRow)
  | _ => Unit

end Transaction

namespace Database

variable (db : Database)

/-- The points that are not expired, in table order. -/
def livePoints : List Point :=
  (db.points.rows.filter fun entry => ¬ entry.2.expired).map fun entry =>
    { entry.2 with snapshot_id := entry.1 }

/-- A recovery point that is not expired. -/
def livePoint (snapshot_id : String) : Option Point :=
  (db.points.lookup snapshot_id).bind fun row =>
    if row.expired then none else some { row with snapshot_id := snapshot_id }

/-- The newest first; equal ones keep their order. -/
def newestFirst (points : List Point) : List Point :=
  points.insertionSort fun first second => second.created_at ≤ first.created_at

end Database

namespace Transaction

/-- What a transaction answers. -/
def read (db : Database) : (transaction : Transaction) → transaction.Answer
  | .startJob _ => db.jobs.next
  | .insertRequest _ => db.requests.next
  | .insertRun _ => db.runs.next
  | .insertWorkload _ => db.workloads.next
  | .selectCopy snapshot_id target_name => db.copies.lookup (snapshot_id, target_name)
  | .latestPoint platform vm_id =>
    (db.livePoints.filter fun point => point.platform = platform ∧ point.vm_id = vm_id)
      |> Database.newestFirst |>.head?
  | .selectPoint snapshot_id => db.livePoint snapshot_id
  | .protectedSnapshotIds now =>
    (db.livePoints.filter fun point => now < point.immutable_until).map (·.snapshot_id)
  | .selectPoints platform vm_id limit =>
    (db.livePoints.filter fun point =>
      (platform.all fun name => name = "" ∨ point.platform = name) ∧
        (vm_id.all fun name => name = "" ∨ point.vm_id = name))
      |> Database.newestFirst |>.take limit
  | .selectImmutableUntil snapshot_id => (db.livePoint snapshot_id).map (·.immutable_until)
  | .selectMetadata snapshot_id => (db.points.lookup snapshot_id).map (·.metadata)
  | .selectRequest request_id => db.requests.lookup request_id
  | .selectWorkloads run_id =>
    (db.workloads.rows.filter fun entry => entry.2.run_id = run_id).map Prod.snd
  | .latestRun direction status =>
    ((db.runs.rows.filter fun entry =>
      (direction.all fun given => entry.2.direction = given) ∧
        (status.all fun given => entry.2.status = given))
      |>.insertionSort fun first second => second.2.started_at ≤ first.2.started_at).head?
  | .selectHealth name => db.health.lookup name
  | .auditTail => (db.audits.rows.getLast?).map (·.2.event_hash)
  | .selectAudits => db.audits.rows
  | .finishJob .. | .replacePoint .. | .upsertCopy .. | .updateImmutableUntil ..
  | .markPointsExpired .. | .updateVerified .. | .approveRequest .. | .startRequest ..
  | .finishRequest .. | .finishRun .. | .upsertHealth .. | .insertAudit .. => ()

/-- What a transaction commits. -/
def write (db : Database) : Transaction → Database
  | .startJob row => { db with jobs := db.jobs.insert row }
  | .finishJob job_id finished_at status snapshot_id error =>
    { db with jobs := db.jobs.modify job_id fun row =>
        { row with
          finished_at := some finished_at
          status := status
          snapshot_id := snapshot_id
          error := error } }
  | .replacePoint snapshot_id row => { db with points := db.points.replace snapshot_id row }
  | .upsertCopy snapshot_id target_name row =>
    { db with copies := db.copies.store (snapshot_id, target_name) row }
  | .updateImmutableUntil snapshot_id immutable_until =>
    { db with points := db.points.modify snapshot_id fun row =>
        { row with immutable_until := immutable_until } }
  | .markPointsExpired snapshot_ids expired_at =>
    { db with points := snapshot_ids.foldl (fun points snapshot_id =>
        points.modify snapshot_id fun row =>
          { row with expired := true, expired_at := some expired_at }) db.points }
  | .updateVerified snapshot_id verified verified_at metadata =>
    { db with points := db.points.modify snapshot_id fun row =>
        { row with verified := verified, verified_at := verified_at, metadata := metadata } }
  | .insertRequest row => { db with requests := db.requests.insert row }
  | .approveRequest request_id approved_by approved_at =>
    { db with requests := db.requests.modify request_id fun row =>
        { row with
          status := .approved
          approved_by := some approved_by
          approved_at := some approved_at } }
  | .startRequest request_id started_at =>
    { db with requests := db.requests.modify request_id fun row =>
        { row with status := .running, started_at := some started_at } }
  | .finishRequest request_id success finished_at result error =>
    { db with requests := db.requests.modify request_id fun row =>
        { row with
          status := if success then .success else .failed
          finished_at := some finished_at
          result := some result
          error := error } }
  | .insertRun row => { db with runs := db.runs.insert row }
  | .finishRun run_id finished_at success details error =>
    { db with runs := db.runs.modify run_id fun row =>
        { row with
          finished_at := some finished_at
          status := if success then .success else .failed
          details := details
          error := error } }
  | .insertWorkload row => { db with workloads := db.workloads.insert row }
  | .upsertHealth name row => { db with health := db.health.store name row }
  | .insertAudit row => { db with audits := db.audits.insert row }
  | .selectCopy .. | .latestPoint .. | .protectedSnapshotIds .. | .selectPoint ..
  | .selectPoints .. | .selectImmutableUntil .. | .selectMetadata .. | .selectRequest ..
  | .selectWorkloads .. | .latestRun .. | .selectHealth .. | .auditTail | .selectAudits => db

end Transaction

/-- A listed point is live. -/
theorem livePoint_of_listed {db : Database} {platform vm_id : Option String} {limit : Nat}
    {point : Point} (listed : point ∈ Transaction.read db (.selectPoints platform vm_id limit)) :
    db.livePoint point.snapshot_id = some point := by
  have live : point ∈ db.livePoints :=
    List.mem_of_mem_filter ((List.mem_insertionSort _).mp (List.mem_of_mem_take listed))
  obtain ⟨⟨snapshot_id, row⟩, kept, rfl⟩ := List.mem_map.mp live
  obtain ⟨stored, unexpired⟩ := List.mem_filter.mp kept
  have found : db.points.lookup snapshot_id = some row :=
    (Tables.Keyed.mem_rows_iff _ _ _).mp stored
  have fresh : row.expired = false := by simpa using unexpired
  simp [Database.livePoint, found, fresh]

end Immutavault.Catalog
