import Mathlib.Data.List.Infix
import Immutavault.DRNetwork
import Immutavault.Management

/-!
# Isolated recovery tests

A recovery test restores a machine, moves every network card of it to an isolated
network, switches it on for a while, and switches it off and removes it again. Each
hypervisor family lists its network cards in its own way and moves them with its own
command.

The managed engine recognizes a test by a marker in the options of a restore request.
It checks the recovery point and the network at request time and again at execution
time, restores by the certified engine, and tests what that returned. Whatever goes
wrong behind the restore is followed by the cleanup, and marks the request failed.
-/

namespace Immutavault.RecoveryTests

open Programs Values Timestamps Catalog Machine Configuration ResticRepository StateDatabase
open Adapters RestoreEngine Management Program
open DRNetwork (lastCharacters)

/-- A unique identifier as the pools write it. -/
def isUuid (text : String) : Bool :=
  32 ≤ text.toList.length ∧ text.toList.length ≤ 36 ∧ text.toList.all fun character =>
    character.isDigit ∨ ('a' ≤ character ∧ character ≤ 'f') ∨
      ('A' ≤ character ∧ character ≤ 'F') ∨ character = '-'

/-- A name that a bridge may have. -/
def isBridgeName (text : String) : Bool :=
  1 ≤ text.toList.length ∧ text.toList.length ≤ 64 ∧ text.toList.all fun character =>
    character.isAlphanum ∨ character ∈ ['_', '.', ':', '-']

/-- The first word of a line. -/
def firstWord (line : String) : String :=
  String.ofList ((trimmed line).toList.takeWhile fun character => ¬ isWhitespace character)

/-- The network cards in a listing of the devices of a VMware machine. -/
def vmwareDevices (listing : String) : List String :=
  ((splitlines listing).map firstWord).filter fun word => "ethernet-".toList <+: word.toList

/-- The items of a minimal listing of a pool. -/
def minimalItems (listing : String) : List String :=
  (((listing.toList.map fun character => if character = '\n' then ',' else character).splitOn ',').map
    fun item => trimmed (String.ofList item)).filter (· ≠ "")

/-- The digits of a network card's key, with the text behind its colon. -/
def netKey (digits : List Char) : List Char → Option (String × List Char)
  | [] => none
  | ':' :: rest => if digits = [] then none else some (String.ofList ("net".toList ++ digits), rest)
  | character :: rest =>
    if (decimalValue character).isSome then netKey (digits ++ [character]) rest else none

/-- The network card that a line of a Proxmox configuration describes, with its settings. -/
def netLine (line : String) : Option (String × String) :=
  match (trimmed line).toList with
  | 'n' :: 'e' :: 't' :: rest =>
    match netKey [] rest with
    | some (key, text) =>
      let value := text.dropWhile isWhitespace
      if value = [] then none else some (key, String.ofList value)
    | none => none
  | _ => none

/-- The network cards in the configuration of a Proxmox machine. -/
def proxmoxNets (listing : String) : List (String × String) :=
  (splitlines listing).filterMap netLine

/-- The settings of a network card. -/
def netParts (value : String) : List String :=
  ((value.toList.splitOn ',').filter (· ≠ [])).map String.ofList

/-- A setting that places a network card on a bridge. -/
def isBridgePart (part : String) : Bool := "bridge=".toList <+: part.toList

/-- The settings of a network card that is moved to a bridge. -/
def bridgedValue (value network : String) : String :=
  ",".intercalate ((netParts value).filter (fun part => ¬ isBridgePart part) ++
    ["bridge=" ++ network])

/-- What validating a network reports. -/
structure ValidatedNetwork where
  network : String
  network_uuid : Option String := none

def ValidatedNetwork.report (validated : ValidatedNetwork) (platform : PlatformConfig) : Dict :=
  [("platform", .str platform.name), ("type", .str platform.type.text),
    ("network", .str validated.network)] ++
  (validated.network_uuid.map fun uuid => ("network_uuid", Json.str uuid)).toList ++
  [("exists", .bool true)]

section Targets

variable (platform : PlatformConfig) (getenv : Environ)

/-- Run the VMware client. -/
def govc (arguments : List String) (check : Bool) : Prog CommandResult := do
  let env ← raised (govcEnv platform getenv)
  runCommand (.testing platform.name ("govc" :: arguments)) env none check

/-- Run a command on the platform's host. -/
def onHost (command : String) (check : Bool) : Prog CommandResult :=
  runCommand (.testing platform.name (ssh platform getenv ++ [command])) [] none check

def listDevices (name : String) : Prog (List String) := do
  let result ← govc platform getenv ["device.ls", "-vm", name] true
  let devices := vmwareDevices result.stdout
  if devices = [] then raiseRuntimeError "restored VMware VM has no virtual NICs to isolate"
  else return devices

def networkSelector (network : String) : String :=
  if isUuid network then s!"uuid={quote network}" else s!"name-label={quote network}"

/-- The one network of a pool that a name or identifier denotes. -/
def xcpNetworkUuid (network : String) : Prog String := do
  let result ← onHost platform getenv
    s!"xe network-list {networkSelector network} params=uuid --minimal" true
  match (minimalItems result.stdout).eraseDups with
  | [uuid] => return uuid
  | _ =>
    raiseRuntimeError (s!"XCP-ng isolated network {Json.reprText network} " ++
      "must resolve to exactly one network UUID")

def validateVmware (network : String) : Prog ValidatedNetwork := do
  let found ← govc platform getenv ["find", "/", "-type", "n", "-name", network] false
  if found.returncode ≠ 0 ∨ trimmed found.stdout = "" then
    -- Distributed port groups need not show under the basic network type.
    let groups ← govc platform getenv
      ["ls", "-t", "DistributedVirtualPortgroup", "/*/network/*"] false
    if groups.returncode ≠ 0 ∨ ¬ network.toList <:+: groups.stdout.toList then
      raiseRuntimeError
        s!"VMware isolated network/port group {Json.reprText network} was not found"
    else return { network := network }
  else return { network := network }

def validateProxmox (network : String) : Prog ValidatedNetwork := do
  if ¬ isBridgeName network then raiseValueError "Proxmox isolated bridge name is invalid"
  else
    let result ← onHost platform getenv ("ip -o link show dev " ++ quote network) false
    if result.returncode ≠ 0 then
      raiseRuntimeError (s!"Proxmox isolated bridge {Json.reprText network} " ++
        "does not exist on the selected node")
    else return { network := network }

def validateXcpng (network : String) : Prog ValidatedNetwork := do
  let uuid ← xcpNetworkUuid platform getenv network
  return { network := network, network_uuid := some uuid }

def validateNetwork (network : String) : Prog ValidatedNetwork := do
  let network := trimmed network
  if network = "" then raiseValueError "isolated recovery network is required"
  else match platform.type with
    | .vmware => validateVmware platform getenv network
    | .proxmox => validateProxmox platform getenv network
    | .xcpng => validateXcpng platform getenv network

/-- What an isolation reports. -/
def isolationReport (validated : ValidatedNetwork) (moved : List String) : Dict :=
  validated.report platform ++ [("nics_remapped", .arr (moved.map .str))]

def changeNetwork (name network device : String) : Prog Unit := do
  let _ ← govc platform getenv ["vm.network.change", "-vm", name, "-net", network, device] true
  return ()

def isolateVmware (restored : Dict) (network : String) (validated : ValidatedNetwork) :
    Prog Dict := do
  let name := fieldText restored "name" ""
  if name = "" then raiseValueError "restored VMware result is missing VM name"
  else
    let devices ← listDevices platform getenv name
    each (changeNetwork platform getenv name network) devices
    return isolationReport platform validated devices

def setNet (vmid network : String) (net : String × String) : Prog Unit := do
  let _ ← onHost platform getenv
    s!"qm set {quote vmid} --{net.1} {quote (bridgedValue net.2 network)}" true
  return ()

def isolateProxmox (restored : Dict) (network : String) (validated : ValidatedNetwork) :
    Prog Dict := do
  let vmid := fieldText restored "vmid" ""
  let kind := fieldText restored "kind" "qemu"
  if vmid = "" ∨ ¬ vmid.toList.all Char.isDigit then
    raiseValueError "restored Proxmox result is missing numeric VMID"
  else if kind ≠ "qemu" then
    raiseRuntimeError ("v1.1 isolated recovery tests support Proxmox QEMU VMs; " ++
      "LXC test remapping is blocked")
  else
    let listing ← onHost platform getenv s!"qm config {quote vmid}" true
    let nets := proxmoxNets listing.stdout
    each (setNet platform getenv vmid network) nets
    if nets = [] then raiseRuntimeError "restored Proxmox VM has no virtual NICs to isolate"
    else return isolationReport platform validated (nets.map (·.1))

def moveVif (network_uuid vif : String) : Prog Unit := do
  let _ ← onHost platform getenv
    s!"xe vif-move uuid={quote vif} network-uuid={quote network_uuid}" true
  return ()

def isolateXcpng (restored : Dict) (validated : ValidatedNetwork) : Prog Dict := do
  let uuid := fieldText restored "uuid" ""
  if ¬ isUuid uuid then raiseValueError "restored XCP-ng result is missing VM UUID"
  else
    let listing ← onHost platform getenv
      s!"xe vif-list vm-uuid={quote uuid} params=uuid --minimal" true
    let vifs := minimalItems listing.stdout
    if vifs = [] then raiseRuntimeError "restored XCP-ng VM has no VIFs to isolate"
    else
      each (moveVif platform getenv (validated.network_uuid.getD "")) vifs
      return isolationReport platform validated vifs

/-- Move every network card of a restored machine to the network. -/
def isolate (restored : Dict) (network : String) : Prog Dict := do
  let validated ← validateNetwork platform getenv network
  match platform.type with
  | .vmware => isolateVmware platform getenv restored network validated
  | .proxmox => isolateProxmox platform getenv restored network validated
  | .xcpng => isolateXcpng platform getenv restored validated

/-- Whether a machine runs, and what its host says about it. -/
structure BootReport where
  running : Bool
  detail : String

def BootReport.report (boot : BootReport) : Json :=
  .obj [("running", .bool boot.running), ("detail", .str boot.detail)]

def running (restored : Dict) : Prog BootReport :=
  match platform.type with
  | .vmware => do
    let result ← govc platform getenv ["vm.info", fieldText restored "name" ""] false
    return {
      running := result.returncode = 0 ∧ "poweredOn".toList <:+: result.stdout.toList
      detail := lastCharacters 2000 result.stdout }
  | .proxmox => do
    let vmid := fieldText restored "vmid" ""
    let result ← onHost platform getenv s!"qm status {quote vmid}" false
    return {
      running := result.returncode = 0 ∧ "running".toList <:+: (lowered result.stdout).toList
      detail := trimmed result.stdout }
  | .xcpng => do
    let uuid := fieldText restored "uuid" ""
    let result ← onHost platform getenv
      s!"xe vm-param-get uuid={quote uuid} param-name=power-state" false
    return {
      running := result.returncode = 0 ∧ lowered (trimmed result.stdout) = "running"
      detail := trimmed result.stdout }

/-- The command that removes a machine. -/
def destroyCommand (restored : Dict) : Prog CommandResult :=
  match platform.type with
  | .vmware => govc platform getenv ["vm.destroy", fieldText restored "name" ""] false
  | .proxmox =>
    let vmid := fieldText restored "vmid" ""
    let command := if fieldText restored "kind" "qemu" = "lxc" then "pct" else "qm"
    onHost platform getenv s!"{command} destroy {quote vmid} --purge 1" false
  | .xcpng =>
    let uuid := fieldText restored "uuid" ""
    onHost platform getenv s!"xe vm-uninstall uuid={quote uuid} force=true" false

def destroy (restored : Dict) : Prog Dict := do
  let result ← destroyCommand platform getenv restored
  if result.returncode ≠ 0 then
    raiseRuntimeError ("recovery-test cleanup failed: " ++
      trimmed (if result.stderr = "" then result.stdout else result.stderr))
  else return [("destroyed", .bool true), ("platform", .str platform.name)]

end Targets

/-- The engine that serves the portal: certified, with isolated recovery tests. -/
structure ManagedRecoveryEngine where
  cfg : V11Config
  getenv : Environ := fun _ => none

/-- What asks for a recovery test in the options of a request, with its network trimmed. -/
def drTestMarker (options : Dict) : Except Exn (Option (Dict × String)) :=
  match options.get? "dr_test" with
  | none | some .null => .ok none
  | some (.obj marker) =>
    let network := trimmed (fieldText marker "network" "")
    if network = "" then .error ⟨.valueError, "dr_test.network is required"⟩
    else .ok (some (Dict.set marker "network" (.str network), network))
  | some _ => .error ⟨.valueError, "dr_test must be an object"⟩

/-- The repository that a request reads from, as it is audited. -/
def auditedSource (options : Dict) : Json := (options.get? "source_repository").getD (.str "primary")

namespace ManagedRecoveryEngine

variable (managed : ManagedRecoveryEngine)

/-- The certified engine that the managed one extends. -/
def super : Engine :=
  { cfg := managed.cfg.core, certified := true, getenv := managed.getenv }

/-- The network is registered for tests on the platform. -/
def ensureAllowed (target : PlatformConfig) (network : String) : Prog Unit := do
  if network ∉ managed.cfg.management.networksOf target.name then
    raisePermissionError (s!"network {Json.reprText network} is not registered as an isolated " ++
      s!"recovery-test network for {Json.reprText target.name}")
  else return ()

/-- A recovery test needs a verified recovery point without anomalies. -/
def ensureTestable (snapshot_id : String) : Prog Point := do
  match ← getPoint snapshot_id with
  | none => raiseValueError "unknown recovery point"
  | some point =>
    if ¬ point.verified then
      raiseRuntimeError "isolated recovery test requires a verified recovery point"
    else if point.suspicious then
      raiseRuntimeError "isolated recovery test refuses an anomaly-flagged recovery point"
    else return point

/-- Check a test; answers its platform, its marker and its network. -/
def validateDrTest (snapshot_id target_platform : String) (options : Dict) :
    Prog (PlatformConfig × Dict × String) := do
  match ← raised (drTestMarker options) with
  | none => raiseValueError "restore is not an isolated DR test"
  | some (marker, network) =>
    let _ ← ensureTestable snapshot_id
    let target ← raised (managed.super.platform target_platform)
    managed.ensureAllowed target network
    let _ ← validateNetwork target managed.getenv network
    return (target, marker, network)

/-- The options of a test, so that the import places the machine on the network already. -/
def placedOptions (target : PlatformConfig) (network : String) (options : Dict) : Dict :=
  match target.type with
  | .vmware => options.set "network" (.str network)
  | .proxmox =>
    (options.set "network_map" (.obj [("*", .str network)])).set "default_bridge" (.str network)
  | .xcpng => options

def requestRestore (snapshot_id requester target_platform : String) (target_name : Option String)
    (options : Dict) : Prog Nat := do
  match ← raised (drTestMarker options) with
  | none =>
    managed.super.requestRestore snapshot_id requester target_platform target_name options
  | some _ =>
    let (target, marker, network) ← managed.validateDrTest snapshot_id target_platform options
    let requested := placedOptions target network
      (options.set "dr_test" (.obj (marker.set "requested_by" (.str requester))))
    let request_id ← managed.super.requestRestore snapshot_id requester target_platform target_name
      requested
    audit requester "dr.test.request" "restore_request" (toString request_id) [
      ("snapshot_id", .str snapshot_id), ("target_platform", .str target_platform),
      ("isolated_network", .str network), ("source_repository", auditedSource requested)]
    return request_id

/-- Isolate, switch on and watch a restored machine; answers the result of the test. -/
def testMachine (request_id : Nat) (actor : String) (target : PlatformConfig) (network : String)
    (restored : Dict) : Prog Dict := do
  let isolation ← isolate target managed.getenv restored network
  audit actor "dr.test.isolated" "restore_request" (toString request_id) isolation
  let _ ← powerOn target managed.getenv restored
  request (.sleep managed.cfg.management.dr_test_boot_seconds)
  let boot ← running target managed.getenv restored
  if ¬ boot.running then
    raiseRuntimeError
      "isolated recovery-test VM did not remain powered on during boot validation"
  else
    audit actor "dr.test.boot_verified" "restore_request" (toString request_id) [
      ("target_platform", .str target.name), ("isolated_network", .str network),
      ("boot_validation", boot.report)]
    return [("status", .str "success"), ("mode", .str "isolated-dr-test"),
      ("request_id", .int request_id), ("target_platform", .str target.name),
      ("isolated_network", .str network), ("boot_validation", boot.report),
      ("restored", .obj restored)]

/-- What a step of the cleanup complains about. -/
def complaint {α : Type} (step : String) : Except Exn α → List String
  | .ok _ => []
  | .error error => [step ++ ": " ++ error.message]

/-- Switch the machine off, and remove it when that is configured; answers the complaints. -/
def cleanUp (target : PlatformConfig) (restored : Dict) : Prog (List String) := do
  let off ← (powerOff target managed.getenv restored).attempt
  if managed.cfg.management.dr_test_auto_cleanup then
    let removed ← (destroy target managed.getenv restored).attempt
    return complaint "power-off" off ++ complaint "destroy" removed
  else return complaint "power-off" off

/-- Mark the request of a failed test failed and raise what went wrong. -/
def recordTestFailure (request_id : Nat) (actor network : String) (primary_error : Option Exn)
    (cleanup_errors : List String) : Prog Dict := do
  let message := "; ".intercalate ((primary_error.map (·.message)).toList ++ cleanup_errors)
  finishRestore request_id false [] (some message)
  audit actor "dr.test.failed" "restore_request" (toString request_id) [
    ("error", .str message), ("isolated_network", .str network),
    ("cleanup_errors", .arr (cleanup_errors.map .str))]
  match primary_error, cleanup_errors with
  | some error, [] => throw error
  | _, _ => raiseRuntimeError ("isolated recovery test cleanup failed: " ++ message)

/-- Restore and test. The machine that the restore returned is cleaned up whatever the test says. -/
def executeTest (request_id : Nat) (actor : String) (target : PlatformConfig) (network : String) :
    Prog Dict := do
  match ← (managed.super.executeRestore request_id actor false).attempt with
  | .error error => recordTestFailure request_id actor network (some error) []
  | .ok restored =>
    let tested ← (managed.testMachine request_id actor target network restored).attempt
    let cleanup_errors ← managed.cleanUp target restored
    match tested, cleanup_errors with
    | .ok result, [] =>
      let auto_cleanup := managed.cfg.management.dr_test_auto_cleanup
      audit actor "dr.test.cleanup" "restore_request" (toString request_id) [
        ("auto_cleanup", .bool auto_cleanup), ("destroyed", .bool auto_cleanup),
        ("isolated_network", .str network)]
      return result
    | .ok _, errors => recordTestFailure request_id actor network none errors
    | .error error, errors => recordTestFailure request_id actor network (some error) errors

/-- What a dry run of a test answers. -/
def planTest (request_id : Nat) (actor network : String) : Prog Dict := do
  let planned ← managed.super.executeRestore request_id actor true
  return (((planned.set "mode" (.str "isolated-dr-test")).set "isolated_network"
    (.str network)).set "boot_validation_seconds"
    (.int managed.cfg.management.dr_test_boot_seconds)).set "auto_cleanup"
    (.bool managed.cfg.management.dr_test_auto_cleanup)

def executeRestore (request_id : Nat) (actor : String) (dry_run : Bool) : Prog Dict := do
  match ← getRestoreRequest request_id with
  | none => raiseValueError "restore request not found"
  | some req =>
    match ← raised (drTestMarker req.options) with
    | none => managed.super.executeRestore request_id actor dry_run
    | some _ =>
      let (target, _, network) ← managed.validateDrTest req.snapshot_id req.target_platform
        req.options
      if dry_run then managed.planTest request_id actor network
      else managed.executeTest request_id actor target network

end ManagedRecoveryEngine

/-- The manager that runs recovery tests on the certified engine. -/
structure RecoveryTestManager where
  cfg : V11Config
  getenv : Environ := fun _ => none

/-- The network of a test, as the manager reads it from the options of a request. -/
def testNetwork (options : Dict) : Except Exn String :=
  let refused : Except Exn String :=
    .error ⟨.valueError, "restore request is not an isolated recovery test"⟩
  match options.get? "dr_test" with
  | some (.obj marker) =>
    match Dict.get? marker "network" with
    | some network => if network.truthy then .ok network.toText else refused
    | none => refused
  | _ => refused

namespace RecoveryTestManager

variable (manager : RecoveryTestManager)

def engine : Engine :=
  { cfg := manager.cfg.core, certified := true, getenv := manager.getenv }

def allowedNetwork (platform network : String) : Prog Unit := do
  if network ∉ manager.cfg.management.networksOf platform then
    raisePermissionError (s!"network {Json.reprText network} is not registered as an isolated " ++
      s!"recovery-test network for {Json.reprText platform}")
  else return ()

def request (snapshot_id requester target_platform network source_repository : String)
    (target_name : Option String) : Prog Dict := do
  let point ← ManagedRecoveryEngine.ensureTestable snapshot_id
  let target ← raised (manager.engine.platform target_platform)
  manager.allowedNetwork target.name network
  let _ ← validateNetwork target manager.getenv network
  let options : Dict := [("source_repository", .str source_repository),
    ("dr_test", .obj [("network", .str network), ("requested_by", .str requester)])]
  let placed := if target.type = .vmware then options.set "network" (.str network) else options
  let request_id ← manager.engine.requestRestore snapshot_id requester target.name
    (some ((target_name.filter (· ≠ "")).getD
      s!"{point.vm_name}-drtest-{firstCharacters 8 snapshot_id}")) placed
  audit requester "dr.test.request" "restore_request" (toString request_id) [
    ("snapshot_id", .str snapshot_id), ("target_platform", .str target.name),
    ("isolated_network", .str network), ("source_repository", .str source_repository)]
  let req ← getRestoreRequest request_id
  return [("request_id", .int request_id),
    ("status", (req.map fun row => Json.str row.status.text).getD .null),
    ("isolated_network", .str network)]

/-- Isolate, switch on and watch a restored machine; answers the result of the test. -/
def testMachine (request_id : Nat) (actor : String) (target : PlatformConfig) (network : String)
    (restored : Dict) : Prog Dict := do
  let isolation ← isolate target manager.getenv restored network
  audit actor "dr.test.isolated" "restore_request" (toString request_id) isolation
  let _ ← powerOn target manager.getenv restored
  Machine.request (.sleep manager.cfg.management.dr_test_boot_seconds)
  let boot ← running target manager.getenv restored
  if ¬ boot.running then
    raiseRuntimeError
      "isolated recovery-test VM did not remain powered on during boot validation"
  else
    audit actor "dr.test.boot_verified" "restore_request" (toString request_id) [
      ("target_platform", .str target.name), ("isolated_network", .str network),
      ("boot_validation", boot.report)]
    return [("status", .str "success"), ("request_id", .int request_id),
      ("target_platform", .str target.name), ("isolated_network", .str network),
      ("boot_validation", boot.report), ("restored", .obj restored)]

/-- Audit a failed test and raise its error. The request keeps the status that it has. -/
def recordTestFailure (request_id : Nat) (actor network : String) (error : Exn) : Prog Dict := do
  audit actor "dr.test.failed" "restore_request" (toString request_id) [
    ("error", .str error.message), ("isolated_network", .str network)]
  throw error

/-- Audit that the machine could not be switched off. -/
def reportPowerOff (request_id : Nat) (actor : String) : Except Exn Dict → Prog Unit
  | .ok _ => return ()
  | .error error => audit actor "dr.test.poweroff_failed" "restore_request" (toString request_id)
      [("error", .str error.message)]

/-- Audit what became of the removal. -/
def reportRemoval (request_id : Nat) (actor : String) : Except Exn Dict → Prog Unit
  | .ok _ => audit actor "dr.test.cleanup" "restore_request" (toString request_id)
      [("attempted", .bool true), ("destroyed", .bool true)]
  | .error error => audit actor "dr.test.cleanup_failed" "restore_request" (toString request_id)
      [("attempted", .bool true), ("destroyed", .bool false), ("error", .str error.message)]

/-- Switch the machine off, and remove it when that is configured. Failures are audited only. -/
def cleanUp (request_id : Nat) (actor : String) (target : PlatformConfig) (restored : Dict) :
    Prog Unit := do
  let off ← (powerOff target manager.getenv restored).attempt
  reportPowerOff request_id actor off
  if manager.cfg.management.dr_test_auto_cleanup then
    let removed ← (destroy target manager.getenv restored).attempt
    reportRemoval request_id actor removed
  else return ()

/-- Restore and test; the request is finished by the restore alone. -/
def executeTest (request_id : Nat) (actor : String) (target : PlatformConfig) (network : String) :
    Prog Dict := do
  match ← (manager.engine.executeRestore request_id actor false).attempt with
  | .error error => recordTestFailure request_id actor network error
  | .ok restored =>
    let tested ← (tryCatch (manager.testMachine request_id actor target network restored)
      (recordTestFailure request_id actor network)).attempt
    manager.cleanUp request_id actor target restored
    raised tested

def execute (request_id : Nat) (actor : String) : Prog Dict := do
  match ← getRestoreRequest request_id with
  | none => raiseValueError "restore request not found"
  | some req =>
    let network ← raised (testNetwork req.options)
    manager.allowedNetwork req.target_platform network
    let target ← raised (manager.engine.platform req.target_platform)
    let _ ← validateNetwork target manager.getenv network
    manager.executeTest request_id actor target network

end RecoveryTestManager

/-- The default tenant owns the platform of the vault. -/
theorem vault_owned : ∀ platform ∈ vault.cfg.platforms,
    ∃ tenant, Tenancy.owners [⟨"default", "Default", ["*"]⟩] platform.name = [tenant] :=
  List.forall_mem_cons.mpr
    ⟨⟨"default", by decide⟩, fun _ member => absurd member List.not_mem_nil⟩

/-- A managed engine with one platform and one network for tests. -/
def bench : ManagedRecoveryEngine where
  cfg := {
    enterprise := {
      core := vault.cfg, tenants := [⟨"default", "Default", ["*"]⟩]
      tenants_distinct := Tenancy.default_distinct, owned := vault_owned }
    management := { dr_test_networks := [("pve", ["vmbr9"])] }
    accepted := {
      policies := fun _ member => absurd member List.not_mem_nil
      ids_distinct := List.nodup_nil
      networks := by decide
      boot_seconds := by decide } }
  getenv := vault.getenv

/-- A catalogue with an approved test of a verified recovery point. -/
def benchCatalogue : Database :=
  { catalogue with requests := catalogue.requests.modify 1 fun row =>
      { row with options := [("dr_test", .obj [("network", .str "vmbr9")])] } }

/-- A host that restores machine 101 with one network card, and starts it. -/
def benchHost : Environment where
  answer := fun _ external => match external with
    | .restoreVM .. => .ok [("vmid", .int 101)]
    | .run (.testing _ argv) _ _ => .ok {
        returncode := 0
        stdout :=
          if "qm config 101" ∈ argv then "name: web\nnet0: virtio=AA,bridge=vmbr0,tag=5\n"
          else if "qm status 101" ∈ argv then "status: running" else "" }
    | external => .ok (Environment.favourable external)
  elapsed := fun _ _ => 1

end Immutavault.RecoveryTests
