import Immutavault.Adapters
import Immutavault.PosixPaths
import Immutavault.StateDatabase

/-!
# Restores

A restore is requested, approved and executed. Executing it looks the request
and its recovery point up, resolves where to read from, checks capacity and the
target, and only then moves the request to running; from there on every outcome
is recorded, and an exception is recorded and raised again.

The certified engine serves restores within one hypervisor family by the native
path and sends the others through the conversion policy, at request time and
again at execution time. Everything up to the start of the request, everything
up to the creation of the machine, and the handling of failures are separate
programs, so that what happens between two of them can be spoken about.
-/

namespace Immutavault.RestoreEngine

open Programs Values Timestamps Catalog Machine Configuration ResticRepository StateDatabase

instance : PosixPaths.Alphabet Char := ⟨'/', '.', by decide⟩

/-- The text of a path joined with another text. -/
def joinPath (path more : String) : String :=
  String.ofList ((PosixPaths.PurePath.parse path.toList).joinpath more.toList).format

/-- A text without its leading slashes. -/
def lstripSlash (text : String) : String := String.ofList (text.toList.dropWhile (· = '/'))

/-- The first characters of a text. -/
def firstCharacters (count : Nat) (text : String) : String := String.ofList (text.toList.take count)

/-- An engine: its configuration, whether cross-family restores are certified, and
the environment of its process. -/
structure Engine where
  cfg : Config
  certified : Bool := false
  getenv : Environ := fun _ => none

namespace Engine

variable (engine : Engine)

def platform (name : String) : Except Exn PlatformConfig :=
  match engine.cfg.platforms.find? fun platform => platform.name = name with
  | some platform => .ok platform
  | none => .error ⟨.valueError, s!"unknown platform: {name}"⟩

def replica (name : String) : Except Exn ReplicaConfig :=
  match engine.cfg.replicas.find? fun replica => replica.name = name ∧ replica.enabled with
  | some replica => .ok replica
  | none => .error ⟨.valueError, s!"unknown or disabled replica: {name}"⟩

/-- A share in per cent with one decimal, rounded half to even. -/
def percentText (part total : Nat) : String :=
  let tenths := part * 1000 / total
  let rest := part * 1000 % total
  let rounded := if total < 2 * rest ∨ (2 * rest = total ∧ tenths % 2 = 1) then tenths + 1
    else tenths
  s!"{rounded / 10}.{rounded % 10}"

def ensurePathCapacity (path action : String) : Prog Unit := do
  request (.mkdir path)
  let (total, free) ← request (.diskUsage path)
  let minimum := engine.cfg.runtime.staging_min_free_percent
  let short := if total = 0 then 0 < minimum else free * 100 < minimum * total
  if short then
    let shown := if total = 0 then "0.0" else percentText free total
    raiseRuntimeError s!"{action} blocked: staging filesystem only has {shown}% free; minimum is {
      minimum}%"
  else return ()

/-- The status of a new request under the configured policy. -/
def initialStatus : RequestStatus :=
  if engine.cfg.protection.require_four_eyes_restore then .pending_approval else .ready

/-- Request a restore within one hypervisor family. -/
def requestNative (snapshot_id requester target_platform : String) (target_name : Option String)
    (options : Dict) : Prog Nat := do
  match ← getPoint snapshot_id with
  | none => raiseValueError "unknown recovery point"
  | some point =>
    let target ← raised (engine.platform target_platform)
    if ¬ target.enabled then raiseValueError "target platform is disabled"
    else if target.type ≠ point.platform_type then
      raiseValueError (s!"cross-hypervisor restore from {point.platform_type.text} to {
        target.type.text} is not enabled in the safe core; " ++
        "restore to the same hypervisor family or install a tested conversion plugin")
    else
      let target_name := (target_name.filter (· ≠ "")).getD
        s!"{point.vm_name}-restore-{firstCharacters 8 snapshot_id}"
      createRestoreRequest requester point target.name target_name options engine.initialStatus

/-- What a conversion plan leaves in the options of its request. -/
def planOptions (plan : V2VPlan) : Json :=
  let text (value : Option String) : Json := (value.map Json.str).getD .null
  .obj [("mode", .str plan.mode), ("provider", text plan.provider),
    ("certification_id", text plan.certification_id), ("source_type", .str plan.source_type),
    ("target_type", .str plan.target_type)]

def requestRestore (snapshot_id requester target_platform : String) (target_name : Option String)
    (options : Dict) : Prog Nat := do
  if ¬ engine.certified then
    engine.requestNative snapshot_id requester target_platform target_name options
  else match ← getPoint snapshot_id with
    | none => raiseValueError "unknown recovery point"
    | some point =>
      let target ← raised (engine.platform target_platform)
      if target.type = point.platform_type then
        engine.requestNative snapshot_id requester target_platform target_name options
      else
        let plan : V2VPlan ← request (.v2vPlan point target options)
        if ¬ plan.allowed then
          raiseValueError ("cross-hypervisor recovery blocked: " ++ "; ".intercalate plan.reasons)
        else
          let target_name := (target_name.filter (· ≠ "")).getD
            s!"{point.vm_name}-v2v-{firstCharacters 8 snapshot_id}"
          let request_id ← createRestoreRequest requester point target.name target_name
            (options.set "v2v" (planOptions plan)) engine.initialStatus
          audit requester "v2v.restore.requested" "restore_request" (toString request_id) [
            ("snapshot_id", .str snapshot_id), ("source_type", .str plan.source_type),
            ("target_type", .str plan.target_type),
            ("certification_id", (plan.certification_id.map Json.str).getD .null),
            ("provider", (plan.provider.map Json.str).getD .null)]
          return request_id

def approveRestore (request_id : Nat) (approver : String) : Prog Unit :=
  StateDatabase.approveRestore request_id approver engine.cfg.protection.require_four_eyes_restore

/-- Everything an execution knows before it starts the request. -/
structure Prepared where
  request_id : Nat
  target_name : String
  point : Point
  target : PlatformConfig
  options : Dict
  source_repository : String
  replica : Option ReplicaConfig
  conversion : Option V2VPlan

/-- The staging directory of a request. -/
def restoreRoot (request_id : Nat) : String :=
  joinPath engine.cfg.runtime.restore_staging_path s!"request-{request_id}"

/-- Where the recovery point appears below the staging directory. -/
def restoredSource (prepared : Prepared) : String :=
  joinPath (engine.restoreRoot prepared.request_id) (lstripSlash prepared.point.source_path)

/-- Where a request reads from; a replica must hold a successful copy. -/
def resolveSource (point : Point) (source_repository : String) : Prog (Option ReplicaConfig) := do
  if source_repository = "primary" then return none
  else
    let replica ← raised (engine.replica source_repository)
    let copy ← getRecoveryCopy point.snapshot_id source_repository
    if (copy.map (·.status)) = some .success then return some replica
    else raiseRuntimeError s!"recovery point is not available on requested source repository {
      source_repository}"

/-- The repository that the options of a request name. -/
def sourceRepository (options : Dict) : String :=
  ((options.get? "source_repository").getD (.str "primary")).toText

/-- A dry run is refused once a request has started. -/
def ensurePlannable (req : RequestRow) (dry_run : Bool) : Prog Unit :=
  if dry_run ∧ req.status ∉ [.pending_approval, .approved, .ready] then
    raiseValueError s!"restore request cannot be planned from status {req.status.text}"
  else return ()

/-- Look up everything a native restore needs. -/
def lookupNative (request_id : Nat) (dry_run : Bool) : Prog Prepared := do
  match ← getRestoreRequest request_id with
  | none => raiseValueError "restore request not found"
  | some req =>
    ensurePlannable req dry_run
    match ← getPoint req.snapshot_id with
    | none => raiseRuntimeError "recovery point metadata missing"
    | some point =>
      let target ← raised (engine.platform req.target_platform)
      let source_repository := sourceRepository req.options
      let replica ← engine.resolveSource point source_repository
      return {
        request_id := request_id, target_name := req.target_name, point := point
        target := target, options := req.options, source_repository := source_repository
        replica := replica, conversion := none }

/-- Look up everything a conversion needs, once its request, point and target are known. -/
def lookupConversion (request_id : Nat) (req : RequestRow) (point : Point)
    (target : PlatformConfig) (dry_run : Bool) : Prog Prepared := do
  ensurePlannable req dry_run
  let plan : V2VPlan ← request (.v2vPlan point target req.options)
  if ¬ plan.allowed then
    raiseRuntimeError ("cross-hypervisor recovery blocked at execution: " ++
      "; ".intercalate plan.reasons)
  else
    let source_repository := sourceRepository req.options
    let replica ← engine.resolveSource point source_repository
    return {
      request_id := request_id, target_name := req.target_name, point := point
      target := target, options := req.options, source_repository := source_repository
      replica := replica, conversion := some plan }

/-- The certified engine decides by the families of point and target. -/
def lookup (request_id : Nat) (dry_run : Bool) : Prog Prepared := do
  if ¬ engine.certified then engine.lookupNative request_id dry_run
  else match ← getRestoreRequest request_id with
    | none => raiseValueError "restore request not found"
    | some req =>
      match ← getPoint req.snapshot_id with
      | none => raiseRuntimeError "recovery point metadata missing"
      | some point =>
        let target ← raised (engine.platform req.target_platform)
        if target.type = point.platform_type then engine.lookupNative request_id dry_run
        else engine.lookupConversion request_id req point target dry_run

/-- What a conversion plan shows. -/
def planReport (plan : V2VPlan) : Json :=
  let text (value : Option String) : Json := (value.map Json.str).getD .null
  .obj [("allowed", .bool plan.allowed), ("source_type", .str plan.source_type),
    ("target_type", .str plan.target_type), ("mode", .str plan.mode),
    ("certification_id", text plan.certification_id), ("provider", text plan.provider),
    ("reasons", .arr (plan.reasons.map .str))]

/-- What a dry run answers. -/
def dryRunReport (prepared : Prepared) : Dict :=
  match prepared.conversion with
  | none => [
      ("request_id", .int prepared.request_id), ("snapshot", .str prepared.point.snapshot_id),
      ("target_platform", .str prepared.target.name), ("target_name", .str prepared.target_name),
      ("staging", .str (engine.restoredSource prepared)),
      ("source_repository", .str prepared.source_repository),
      ("note", .str ("execution will restore the encrypted snapshot to staging, " ++
        "validate its manifest, then import as a NEW VM"))]
  | some plan => [
      ("request_id", .int prepared.request_id), ("snapshot", .str prepared.point.snapshot_id),
      ("source_type", .str prepared.point.platform_type.text),
      ("target_platform", .str prepared.target.name),
      ("target_type", .str prepared.target.type.text), ("target_name", .str prepared.target_name),
      ("source_repository", .str prepared.source_repository), ("v2v", planReport plan),
      ("note", .str ("execution restores and verifies the immutable point before conversion; " ++
        "the source VM is never modified and the target is created as a new powered-off VM"))]

/-- The audit prefix and the words that tell the two paths apart. -/
def Prepared.actionFamily (prepared : Prepared) : String :=
  if prepared.conversion.isSome then "v2v.restore" else "restore"

/-- Capacity and target checks before the request starts. -/
def preflight (prepared : Prepared) (actor : String) : Prog Unit := do
  let converts := prepared.conversion.isSome
  engine.ensurePathCapacity engine.cfg.runtime.restore_staging_path
    (if converts then "V2V restore" else "restore")
  let problems : List String ← request (.doctor prepared.target)
  if problems = [] then return ()
  else
    audit actor (prepared.actionFamily ++ ".preflight_failed") "restore_request"
      (toString prepared.request_id) [("problems", .arr (problems.map .str))]
    raiseRuntimeError ((if converts then "V2V target preflight failed: "
      else "restore target preflight failed: ") ++ "; ".intercalate problems)

/-- Everything before the request starts. -/
def prepareRestore (request_id : Nat) (actor : String) : Prog Prepared := do
  let prepared ← engine.lookup request_id false
  engine.preflight prepared actor
  return prepared

/-- Fetch the snapshot into staging and check its manifest. -/
def fetchSource (prepared : Prepared) : Prog Unit := do
  let root := engine.restoreRoot prepared.request_id
  rmtree root
  restore engine.cfg.repository engine.getenv prepared.point.snapshot_id root prepared.replica
  let source := engine.restoredSource prepared
  let present : Bool ← request (.pathExists source)
  if ¬ present then
    raiseRuntimeError s!"restic restore completed but expected source path is missing: {source}"
  else
    let (ok, errors) ← request (.verifyManifest source prepared.point.manifest_sha256)
    if ¬ ok then
      raiseRuntimeError ((if prepared.conversion.isSome
        then "recovery point manifest verification failed before V2V: "
        else "recovery point manifest verification failed: ") ++
        "; ".intercalate (errors.take 10))
    else return ()

/-- Create the machine from the staged source. -/
def createMachine (prepared : Prepared) (target_name : String) : Prog Dict := do
  let source := engine.restoredSource prepared
  match prepared.conversion with
  | none =>
    let result : Dict ← request (.restoreVM prepared.target source target_name prepared.options)
    return result.set "source_repository" (.str prepared.source_repository)
  | some _ =>
    let result : Dict ← request
      (.v2vExecute source prepared.point prepared.target target_name prepared.options)
    return (result.set "source_repository" (.str prepared.source_repository)).set
      "source_snapshot" (.str prepared.point.snapshot_id)

/-- What a started execution does when nothing fails. -/
def performRestore (prepared : Prepared) (target_name actor : String) : Prog Dict := do
  engine.fetchSource prepared
  let result ← engine.createMachine prepared target_name
  finishRestore prepared.request_id true result none
  audit actor (prepared.actionFamily ++ ".complete") "restore_request"
    (toString prepared.request_id) result
  rmtree (engine.restoreRoot prepared.request_id)
  return result

/-- What a failure is recorded with. -/
def failureDetails (prepared : Prepared) (error : Exn) : Dict :=
  match prepared.conversion with
  | none => [("error", .str error.message)]
  | some plan => [("error", .str error.message),
      ("source_type", .str prepared.point.platform_type.text),
      ("target_type", .str prepared.target.type.text),
      ("certification_id", (plan.certification_id.map Json.str).getD .null)]

/-- Record a failure of a started execution and raise it again. -/
def recordFailure (prepared : Prepared) (actor : String) (error : Exn) : Prog Dict := do
  finishRestore prepared.request_id false [] (some error.message)
  audit actor (prepared.actionFamily ++ ".failed") "restore_request"
    (toString prepared.request_id) (failureDetails prepared error)
  if ¬ engine.cfg.runtime.keep_staging_on_failure then
    rmtree (engine.restoreRoot prepared.request_id)
  throw error

/-- Start the request, and record whatever becomes of it. -/
def runRestore (prepared : Prepared) (actor : String) : Prog Dict := do
  let req ← startRestore prepared.request_id actor
  tryCatch (engine.performRestore prepared req.target_name actor)
    (engine.recordFailure prepared actor)

def executeRestore (request_id : Nat) (actor : String) (dry_run : Bool) : Prog Dict := do
  if dry_run then
    let prepared ← engine.lookup request_id true
    return engine.dryRunReport prepared
  else
    let prepared ← engine.prepareRestore request_id actor
    engine.runRestore prepared actor

section Footprints

/-- Resolving a source reads the catalogue. -/
theorem footprint_resolveSource (point : Point) (source_repository : String) :
    Footprint [.silent, .outside] (engine.resolveSource point source_repository) := by
  unfold resolveSource
  split
  · exact footprint_pure _
  · refine footprint_bind (footprint_raised _) fun replica => ?_
    refine footprint_bind (footprint_reading rfl (by simp)) fun copy => ?_
    split
    · exact footprint_pure _
    · exact footprint_throw _

theorem footprint_ensurePlannable (req : RequestRow) (dry_run : Bool) :
    Footprint [.silent, .outside] (ensurePlannable req dry_run) := by
  unfold ensurePlannable
  split
  · exact footprint_throw _
  · exact footprint_pure _

theorem footprint_lookupNative (request_id : Nat) (dry_run : Bool) :
    Footprint [.silent, .outside] (engine.lookupNative request_id dry_run) := by
  refine footprint_bind (footprint_reading rfl (by simp)) fun req => ?_
  split
  · exact footprint_throw _
  · refine footprint_bind (footprint_ensurePlannable _ _) fun _ => ?_
    refine footprint_bind (footprint_reading rfl (by simp)) fun point => ?_
    split
    · exact footprint_throw _
    · refine footprint_bind (footprint_raised _) fun target => ?_
      exact footprint_bind (engine.footprint_resolveSource _ _) fun replica => footprint_pure _

theorem footprint_lookupConversion (request_id : Nat) (req : RequestRow) (point : Point)
    (target : PlatformConfig) (dry_run : Bool) :
    Footprint [.silent, .outside]
      (engine.lookupConversion request_id req point target dry_run) := by
  refine footprint_bind (footprint_ensurePlannable _ _) fun _ => ?_
  refine footprint_bind (footprint_request (by simp [Command.effect])) fun plan => ?_
  split
  · exact footprint_throw _
  · exact footprint_bind (engine.footprint_resolveSource _ _) fun replica => footprint_pure _

/-- Looking a request up reads the catalogue and asks the conversion policy. -/
theorem footprint_lookup (request_id : Nat) (dry_run : Bool) :
    Footprint [.silent, .outside] (engine.lookup request_id dry_run) := by
  unfold lookup
  split
  · exact engine.footprint_lookupNative request_id dry_run
  · refine footprint_bind (footprint_reading rfl (by simp)) fun req => ?_
    split
    · exact footprint_throw _
    · refine footprint_bind (footprint_reading rfl (by simp)) fun point => ?_
      split
      · exact footprint_throw _
      · refine footprint_bind (footprint_raised _) fun target => ?_
        split
        · exact engine.footprint_lookupNative request_id dry_run
        · exact engine.footprint_lookupConversion request_id _ _ _ dry_run

/-- What is looked up belongs to the request that was asked for. -/
theorem yields_lookup (request_id : Nat) (dry_run : Bool) :
    Yields (fun prepared : Prepared => prepared.request_id = request_id)
      (engine.lookup request_id dry_run) := by
  have native : Yields (fun prepared : Prepared => prepared.request_id = request_id)
      (engine.lookupNative request_id dry_run) := by
    refine yields_bind fun req => ?_
    split
    · exact yields_throw _
    · refine yields_bind fun _ => yields_bind fun point => ?_
      split
      · exact yields_throw _
      · exact yields_bind fun target => yields_bind fun replica => yields_pure rfl
  unfold lookup
  split
  · exact native
  · refine yields_bind fun req => ?_
    split
    · exact yields_throw _
    · refine yields_bind fun point => ?_
      split
      · exact yields_throw _
      · refine yields_bind fun target => ?_
        split
        · exact native
        · refine yields_bind fun _ => yields_bind fun plan => ?_
          split
          · exact yields_throw _
          · exact yields_bind fun replica => yields_pure rfl

theorem footprint_ensurePathCapacity (path action : String) :
    Footprint [.outside] (engine.ensurePathCapacity path action) := by
  refine footprint_bind (footprint_request (by simp [Command.effect])) fun _ => ?_
  refine footprint_bind (footprint_request (by simp [Command.effect])) fun usage => ?_
  dsimp only
  split <;> split <;> first | exact footprint_throw _ | exact footprint_pure _

/-- The checks before a start may append to the audit chain, and change nothing else. -/
theorem footprint_preflight (prepared : Prepared) (actor : String) :
    Footprint [.silent, .outside, .writing .audits] (engine.preflight prepared actor) := by
  refine footprint_bind ((engine.footprint_ensurePathCapacity _ _).mono (by simp)) fun _ => ?_
  refine footprint_bind (footprint_request (by simp [Command.effect])) fun problems => ?_
  split
  · exact footprint_pure _
  · refine footprint_bind (footprint_audit (by simp) (by simp) _ _ _ _ _) fun _ => ?_
    exact footprint_throw _

/-- Nothing before the start of a request writes the request or creates a machine. -/
theorem footprint_prepareRestore (request_id : Nat) (actor : String) :
    Footprint [.silent, .outside, .writing .audits] (engine.prepareRestore request_id actor) := by
  refine footprint_bind ((engine.footprint_lookup request_id false).mono (by simp))
    fun prepared => ?_
  exact footprint_bind (engine.footprint_preflight prepared actor) fun _ => footprint_pure _

theorem yields_prepareRestore (request_id : Nat) (actor : String) :
    Yields (fun prepared : Prepared => prepared.request_id = request_id)
      (engine.prepareRestore request_id actor) :=
  yields_bind_of (engine.yields_lookup request_id false)
    fun _ same => yields_bind fun _ => yields_pure same

/-- Fetching the source works in the staging directory only. -/
theorem footprint_fetchSource (prepared : Prepared) :
    Footprint [.silent, .outside, .ofRestic] (engine.fetchSource prepared) := by
  refine footprint_bind (footprint_rmtree (by simp) _) fun _ => ?_
  refine footprint_bind ((footprint_restore _ _ _ _ _).mono (by simp)) fun _ => ?_
  refine footprint_bind (footprint_request (by simp [Command.effect])) fun present => ?_
  split
  · exact footprint_throw _
  · refine footprint_bind (footprint_request (by simp [Command.effect])) fun verdict => ?_
    dsimp only
    split
    · exact footprint_throw _
    · exact footprint_pure _

/-- Creating the machine asks the world once. -/
theorem footprint_createMachine (prepared : Prepared) (target_name : String) :
    Footprint [.creation] (engine.createMachine prepared target_name) := by
  unfold createMachine
  dsimp only
  split
  · exact footprint_bind (footprint_request (by simp [Command.effect])) fun _ => footprint_pure _
  · exact footprint_bind (footprint_request (by simp [Command.effect])) fun _ => footprint_pure _

/-- What a started execution may touch. -/
theorem footprint_performRestore (prepared : Prepared) (target_name actor : String) :
    Footprint [.silent, .outside, .ofRestic, .creation, .writing .requests, .writing .audits]
      (engine.performRestore prepared target_name actor) := by
  refine footprint_bind ((engine.footprint_fetchSource prepared).mono (by simp)) fun _ => ?_
  refine footprint_bind ((engine.footprint_createMachine prepared target_name).mono (by simp))
    fun result => ?_
  refine footprint_bind ((footprint_finishRestore _ _ _ _).mono (by simp)) fun _ => ?_
  refine footprint_bind (footprint_audit (by simp) (by simp) _ _ _ _ _) fun _ => ?_
  exact footprint_bind (footprint_rmtree (by simp) _) fun _ => footprint_pure _

theorem footprint_recordFailure (prepared : Prepared) (actor : String) (error : Exn) :
    Footprint [.silent, .writing .requests, .writing .audits]
      (engine.recordFailure prepared actor error) := by
  refine footprint_bind ((footprint_finishRestore _ _ _ _).mono (by simp)) fun _ => ?_
  refine footprint_bind (footprint_audit (by simp) (by simp) _ _ _ _ _) fun _ => ?_
  dsimp only
  split
  · exact footprint_bind (footprint_rmtree (by simp) _) fun _ => footprint_throw _
  · exact footprint_throw _

theorem footprint_runRestore (prepared : Prepared) (actor : String) :
    Footprint [.silent, .outside, .ofRestic, .creation, .writing .requests, .writing .audits]
      (engine.runRestore prepared actor) := by
  refine footprint_bind ((footprint_startRestore _ _).mono (by simp)) fun req => ?_
  refine footprint_tryCatch (engine.footprint_performRestore prepared _ actor) fun error => ?_
  exact (engine.footprint_recordFailure prepared actor error).mono (by simp)

/-- What an execution may touch: the request, the chain, a repository and one creation. -/
theorem footprint_executeRestore (request_id : Nat) (actor : String) (dry_run : Bool) :
    Footprint [.silent, .outside, .ofRestic, .creation, .writing .requests, .writing .audits]
      (engine.executeRestore request_id actor dry_run) := by
  unfold executeRestore
  split
  · exact footprint_bind ((engine.footprint_lookup request_id true).mono (by simp))
      fun _ => footprint_pure _
  · refine footprint_bind ((engine.footprint_prepareRestore request_id actor).mono (by simp))
      fun prepared => ?_
    exact engine.footprint_runRestore prepared actor

end Footprints

end Engine

/-- An engine with one platform. -/
def vault : Engine where
  cfg := {
    repository := {
      url := "rest:https://vault:8000/repo", local_path := "/srv/repo"
      staging_path := "/srv/staging" }
    platforms := [{ name := "pve", type := .proxmox, endpoint := "pve" }] }
  getenv := fun _ => some "secret"

/-- A catalogue with one recovery point and one request for it, which bob approved. -/
def catalogue : Database where
  points := Tables.Keyed.empty.replace "4f1c" {
    created_at := 0, platform := "pve", platform_type := .proxmox, vm_id := "100"
    vm_name := "web", power_state := none, source_path := "/srv/staging/web"
    backup_bytes := 1, data_added := 1, file_count := 1, manifest_sha256 := none
    immutable_until := 0, suspicious := false, suspicious_reason := none, verified := true
    verified_at := none, metadata := [] }
  requests := Tables.Numbered.empty.insert {
    created_at := 0, requester := "alice", snapshot_id := "4f1c", source_platform := "pve"
    vm_id := "100", vm_name := "web", target_platform := "pve", target_name := "web-restore"
    options := [], status := .approved, approved_by := some "bob" }

end Immutavault.RestoreEngine
