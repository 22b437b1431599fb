import Immutavault.Digests
import Immutavault.Machine

/-!
# The methods of the state database

Each method is the sequence of transactions it performs, together with the
clock readings that fill its columns. Requests are checked and then updated, the
audit chain is read and then extended: the two halves are separate transactions,
and nothing here joins them.
-/

namespace Immutavault.StateDatabase

open Programs Values Timestamps Catalog Machine

/-- The digest of an audit event over the digest of its predecessor. -/
def auditHash (created_at actor action object_type object_id details_json prev_hash : String) :
    String :=
  let payload := Json.dumpsCompact (.obj [
    ("created_at", .str created_at), ("actor", .str actor), ("action", .str action),
    ("object_type", .str object_type), ("object_id", .str object_id),
    ("details_json", .str details_json), ("prev_hash", .str prev_hash)])
  Digests.sha256Hexdigest payload.toUTF8.toList

/-- A digest has sixty-four digits. -/
theorem length_auditHash (created_at actor action object_type object_id details_json prev_hash :
    String) : (auditHash created_at actor action object_type object_id details_json
      prev_hash).length = 64 :=
  Digests.length_sha256Hexdigest _

attribute [irreducible] auditHash

def AuditRow.hash (row : AuditRow) (prev_hash : String) : String :=
  auditHash row.created_at row.actor row.action row.object_type row.object_id row.details_json
    prev_hash

/-- The digest an appended event refers to. -/
def tailHash (tail : Option (Option String)) : String :=
  match tail with
  | some (some hash) => if hash = "" then "GENESIS" else hash
  | _ => "GENESIS"

def audit (actor action object_type object_id : String) (details : Dict) : Prog Unit := do
  let created_at ← utcnow
  let tail : Option (Option String) ← transact .auditTail
  let row : AuditRow := {
    created_at := isoformat created_at
    actor := actor
    action := action
    object_type := object_type
    object_id := object_id
    details_json := Json.dumpsCompact (.obj details)
    prev_hash := some (tailHash tail)
    event_hash := none }
  transact (.insertAudit { row with event_hash := some (AuditRow.hash row (tailHash tail)) })

/-- The complaints about a chain that should continue from a digest. -/
def chainErrors (prev_hash : String) : List (Nat × AuditRow) → List String
  | [] => []
  | (number, row) :: rest =>
    let expected := AuditRow.hash row prev_hash
    (if row.prev_hash.getD "" ≠ prev_hash then
      [s!"audit event {number} previous hash mismatch"] else []) ++
    (if row.event_hash.getD "" ≠ expected then
      [s!"audit event {number} hash mismatch"] else []) ++
    chainErrors (if row.event_hash.getD "" = "" then expected else row.event_hash.getD "") rest

def verifyAuditChain : Prog (Bool × List String) := do
  let rows : List (Nat × AuditRow) ← transact .selectAudits
  let errors := chainErrors "GENESIS" rows
  return (errors = [], errors)

/-- Sign the rows of the audit table that carry no digest, in order; the others keep theirs. -/
def backfillRows (prev_hash : String) : List (Nat × AuditRow) → Tables.Numbered AuditRow →
    Tables.Numbered AuditRow
  | [], audits => audits
  | (number, row) :: rest, audits =>
    let expected := AuditRow.hash row prev_hash
    if row.event_hash.getD "" = "" then
      backfillRows expected rest (audits.modify number fun stored =>
        { stored with prev_hash := some prev_hash, event_hash := some expected })
    else backfillRows (row.event_hash.getD "") rest audits

def backfillAuditHashes (db : Database) : Database :=
  { db with audits := backfillRows "GENESIS" db.audits.rows db.audits }

/-- What opening the database commits. A table from before the chain has no digests in it;
the columns that are added to it read as missing. -/
def init (db : Database) : Database := backfillAuditHashes db

def startJob (platform vm_id vm_name : String) : Prog Nat := do
  let now ← utcnow
  transact (.startJob {
    started_at := now, platform := platform, vm_id := vm_id, vm_name := vm_name,
    status := "running" })

def finishJob (job_id : Nat) (status : String) (snapshot_id error : Option String) :
    Prog Unit := do
  let now ← utcnow
  transact (.finishJob job_id now status snapshot_id error)

def upsertRecoveryPoint (point : Point) : Prog Unit :=
  transact (.replacePoint point.snapshot_id { point.toPointRow with
    expired := false, expired_at := none })

def upsertRecoveryCopy (snapshot_id target_name backend repository : String)
    (provider : Option String) (status : CopyStatus) (immutable_until : Option Timestamp)
    (object_lock : Dict) (error : Option String) : Prog Unit := do
  let copied_at ← if status = .success then (do return some (← utcnow)) else pure none
  transact (.upsertCopy snapshot_id target_name {
    backend := backend
    provider := provider
    repository := repository
    status := status
    copied_at := copied_at
    verified := false
    verified_at := none
    immutable_until := immutable_until
    object_lock := object_lock
    error := error })

def getRecoveryCopy (snapshot_id target_name : String) : Prog (Option CopyRow) :=
  transact (.selectCopy snapshot_id target_name)

def latestPoint (platform vm_id : String) : Prog (Option Point) :=
  transact (.latestPoint platform vm_id)

/-- The points whose recorded immutability lies in the future. -/
def protectedSnapshotIds : Prog (List String) := do
  let now ← utcnow
  transact (.protectedSnapshotIds now)

def getPoint (snapshot_id : String) : Prog (Option Point) := transact (.selectPoint snapshot_id)

def listPoints (platform vm_id : Option String) (limit : Nat) : Prog (List Point) :=
  transact (.selectPoints platform vm_id limit)

/-- Extend a point's immutability, never below what was read. -/
def extendImmutability (snapshot_id : String) (immutable_until : Timestamp)
    (actor reason : String) : Prog Timestamp := do
  let row : Option Timestamp ← transact (.selectImmutableUntil snapshot_id)
  match row with
  | none => raiseValueError "unknown recovery point"
  | some current =>
    let new_until := max current immutable_until
    transact (.updateImmutableUntil snapshot_id new_until)
    audit actor "recovery.hold" "recovery_point" snapshot_id
      [("immutable_until", .str (isoformat new_until)), ("reason", .str reason)]
    return new_until

def markPointsExpired (snapshot_ids : List String) : Prog Unit := do
  if snapshot_ids = [] then return ()
  else
    let now ← utcnow
    transact (.markPointsExpired snapshot_ids now)

def markVerified (snapshot_id : String) (verified : Bool) (details : Dict) : Prog Unit := do
  let row : Option Dict ← transact (.selectMetadata snapshot_id)
  match row with
  | none => raiseValueError "unknown recovery point"
  | some metadata =>
    let verified_at ← if verified then (do return some (← utcnow)) else pure none
    transact (.updateVerified snapshot_id verified verified_at
      (metadata.set "verification" (.obj details)))

def createRestoreRequest (requester : String) (point : Point) (target_platform target_name : String)
    (options : Dict) (status : RequestStatus) : Prog Nat := do
  let now ← utcnow
  let rid : Nat ← transact (.insertRequest {
    created_at := now
    requester := requester
    snapshot_id := point.snapshot_id
    source_platform := point.platform
    vm_id := point.vm_id
    vm_name := point.vm_name
    target_platform := target_platform
    target_name := target_name
    options := options
    status := status })
  audit requester "restore.request" "restore_request" (toString rid)
    [("snapshot_id", .str point.snapshot_id)]
  return rid

def getRestoreRequest (request_id : Nat) : Prog (Option RequestRow) :=
  transact (.selectRequest request_id)

def approveRestore (request_id : Nat) (approver : String) (four_eyes : Bool) : Prog Unit := do
  let req ← getRestoreRequest request_id
  match req with
  | none => raiseValueError "restore request not found"
  | some req =>
    if req.status ≠ .pending_approval then
      raiseValueError s!"restore request is not pending approval: {req.status.text}"
    else if four_eyes ∧ req.requester = approver then
      raisePermissionError "four-eyes policy requires a different approver"
    else
      let now ← utcnow
      transact (.approveRequest request_id approver now)
      audit approver "restore.approve" "restore_request" (toString request_id) []

def startRestore (request_id : Nat) (actor : String) : Prog RequestRow := do
  let req ← getRestoreRequest request_id
  match req with
  | none => raiseValueError "restore request not found"
  | some req =>
    if req.status ≠ .approved ∧ req.status ≠ .ready then
      raiseValueError s!"restore request cannot execute from status {req.status.text}"
    else
      let now ← utcnow
      transact (.startRequest request_id now)
      audit actor "restore.execute" "restore_request" (toString request_id) []
      let started ← getRestoreRequest request_id
      return started.getD req

def finishRestore (request_id : Nat) (success : Bool) (result : Dict) (error : Option String) :
    Prog Unit := do
  let now ← utcnow
  transact (.finishRequest request_id success now result error)

def createDrRun (direction : Direction) (source_site target_site : String) (details : Dict) :
    Prog Nat := do
  let now ← utcnow
  transact (.insertRun {
    started_at := now
    direction := direction
    source_site := source_site
    target_site := target_site
    status := .running
    details := details })

def finishDrRun (run_id : Nat) (success : Bool) (details : Dict) (error : Option String) :
    Prog Unit := do
  let now ← utcnow
  transact (.finishRun run_id now success details error)

def addDrWorkload (row : WorkloadRow) : Prog Nat := transact (.insertWorkload row)

def listDrWorkloads (run_id : Nat) : Prog (List WorkloadRow) := transact (.selectWorkloads run_id)

def latestDrRun (direction : Option Direction) (status : Option RunStatus) :
    Prog (Option (Nat × RunRow)) :=
  transact (.latestRun direction status)

/-- Record one evaluation; a failure counts one more than the row that was read. -/
def updateDrHealth (name : String) (healthy : Bool) (detail : Dict) : Prog HealthRow := do
  let row : Option HealthRow ← transact (.selectHealth name)
  let failures := if healthy then 0 else (row.map (·.consecutive_failures + 1)).getD 1
  let now ← utcnow
  let state : HealthRow := {
    checked_at := now, healthy := healthy, consecutive_failures := failures, detail := detail }
  transact (.upsertHealth name state)
  return { state with checked_at := (← utcnow) }

def getDrHealth (name : String) : Prog (Option HealthRow) := transact (.selectHealth name)

section Footprints

/-- Auditing reads the clock and the chain, and appends to the chain. -/
theorem footprint_audit {effects : List Effect} (silent : .silent ∈ effects)
    (appends : .writing .audits ∈ effects) (actor action object_type object_id : String)
    (details : Dict) : Footprint effects (audit actor action object_type object_id details) := by
  refine footprint_bind (footprint_utcnow silent) fun created_at => ?_
  refine footprint_bind (footprint_transact silent) fun tail => ?_
  exact footprint_transact appends

/-- Creating a request writes the request and the chain. -/
theorem footprint_createRestoreRequest (requester : String) (point : Point)
    (target_platform target_name : String) (options : Dict) (status : RequestStatus) :
    Footprint [.silent, .writing .requests, .writing .audits]
      (createRestoreRequest requester point target_platform target_name options status) := by
  refine footprint_bind (footprint_utcnow (by simp)) fun now => ?_
  refine footprint_bind (footprint_writing rfl (by simp)) fun rid => ?_
  refine footprint_bind (footprint_audit (by simp) (by simp) _ _ _ _ _) fun _ => ?_
  exact footprint_pure _

theorem footprint_startRestore (request_id : Nat) (actor : String) :
    Footprint [.silent, .writing .requests, .writing .audits] (startRestore request_id actor) := by
  refine footprint_bind (footprint_reading rfl (by simp)) fun req => ?_
  cases req with
  | none => exact footprint_throw _
  | some req =>
    dsimp only
    split
    · exact footprint_throw _
    · refine footprint_bind (footprint_utcnow (by simp)) fun now => ?_
      refine footprint_bind (footprint_writing rfl (by simp)) fun _ => ?_
      refine footprint_bind (footprint_audit (by simp) (by simp) _ _ _ _ _) fun _ => ?_
      refine footprint_bind (footprint_reading rfl (by simp)) fun _ => ?_
      exact footprint_pure _

theorem footprint_finishRestore (request_id : Nat) (success : Bool) (result : Dict)
    (error : Option String) :
    Footprint [.silent, .writing .requests] (finishRestore request_id success result error) := by
  refine footprint_bind (footprint_utcnow (by simp)) fun now => ?_
  exact footprint_writing rfl (by simp)

theorem footprint_createDrRun (direction : Direction) (source_site target_site : String)
    (details : Dict) : Footprint [.silent, .writing .runs]
      (createDrRun direction source_site target_site details) := by
  refine footprint_bind (footprint_utcnow (by simp)) fun now => ?_
  exact footprint_writing rfl (by simp)

theorem footprint_addDrWorkload (row : WorkloadRow) :
    Footprint [.writing .workloads] (addDrWorkload row) :=
  footprint_writing rfl (by simp)

theorem footprint_finishDrRun (run_id : Nat) (success : Bool) (details : Dict)
    (error : Option String) :
    Footprint [.silent, .writing .runs] (finishDrRun run_id success details error) := by
  refine footprint_bind (footprint_utcnow (by simp)) fun now => ?_
  exact footprint_writing rfl (by simp)

/-- A job is started and finished in its own table. -/
theorem footprint_startJob (platform vm_id vm_name : String) :
    Footprint [.silent, .writing .jobs] (startJob platform vm_id vm_name) := by
  refine footprint_bind (footprint_utcnow (by simp)) fun now => ?_
  exact footprint_writing rfl (by simp)

theorem footprint_finishJob (job_id : Nat) (status : String) (snapshot_id error : Option String) :
    Footprint [.silent, .writing .jobs] (finishJob job_id status snapshot_id error) := by
  refine footprint_bind (footprint_utcnow (by simp)) fun now => ?_
  exact footprint_writing rfl (by simp)

theorem footprint_upsertRecoveryCopy (snapshot_id target_name backend repository : String)
    (provider : Option String) (status : CopyStatus) (immutable_until : Option Timestamp)
    (object_lock : Dict) (error : Option String) :
    Footprint [.silent, .writing .copies] (upsertRecoveryCopy snapshot_id target_name backend
      repository provider status immutable_until object_lock error) := by
  unfold upsertRecoveryCopy
  dsimp only
  split
  · refine footprint_bind (footprint_bind (footprint_utcnow (by simp)) fun _ => footprint_pure _)
      fun copied_at => ?_
    exact footprint_writing rfl (by simp)
  · exact footprint_bind (footprint_pure _) fun copied_at =>
      footprint_writing rfl (by simp)

theorem footprint_markVerified (snapshot_id : String) (verified : Bool) (details : Dict) :
    Footprint [.silent, .writing .points] (markVerified snapshot_id verified details) := by
  refine footprint_bind (footprint_reading rfl (by simp)) fun row => ?_
  cases row with
  | none => exact footprint_throw _
  | some metadata =>
    dsimp only
    split
    · refine footprint_bind (footprint_bind (footprint_utcnow (by simp)) fun _ => footprint_pure _)
        fun verified_at => ?_
      exact footprint_writing rfl (by simp)
    · exact footprint_bind (footprint_pure _) fun verified_at =>
        footprint_writing rfl (by simp)

end Footprints

end Immutavault.StateDatabase
