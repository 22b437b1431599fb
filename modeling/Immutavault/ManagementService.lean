import Immutavault.EnvironmentFiles
import Immutavault.Management

/-!
# The management service

Requests of the management portal edit the configuration, the environment file and the
files below the directory of system units. The configuration is a dictionary of rows; an
edit builds the whole dictionary anew, and it replaces the old one only when the loader
accepts it. What the loader reads besides the management section is left open.

The service is a program over the machine that it runs on. Everything that it asks of the
machine may fail, once for each thing that is asked; a fault leaves the machine as it was.
Two things do not fail by a fault: a variable of the service's own process is set unless its
value cannot be one, and a variable that was saved is put back.

A platform or a storage target becomes a row under its name, which is compared with the names
of the rows as they stand. The rows hold no floating point number and no lone surrogate.
-/

namespace Immutavault.ManagementService

open Programs Values Configuration Management ProtectionPolicies Tenancy
open DRConfigurations (refuse RawValue)
open EnvironmentFiles (envRead)
open GuestFiles (CodePoint Str str strip)
open JsonTexts (Floating Value)
open ResticRepository (asItems)
open SessionOwnership (printed)
open SetupRequests (Prepared filledFields platform replica strippedAt textOr)
open SignedTokens (isSurrogate)

section Rows

variable {Φ : Type} [Floating Φ]

mutual

/-- A value of a request as a value of the configuration. -/
def jsonOf : Value Φ → Json
  | .null => .null
  | .bool value => .bool value
  | .int value => .int value
  | .float value => .str (Floating.repr value)
  | .text value => .str (printed value)
  | .list items => .arr (jsonItems items)
  | .dict fields => .obj (jsonFields fields)

def jsonItems : List (Value Φ) → List Json
  | [] => []
  | item :: rest => jsonOf item :: jsonItems rest

def jsonFields : List (Str × Value Φ) → Dict
  | [] => []
  | (key, value) :: rest => (printed key, jsonOf value) :: jsonFields rest

end

/-- A value is this text. -/
def isText (text : String) : Option Json → Bool
  | some (.str value) => value = text
  | _ => false

/-- A row has this text in a field. -/
def hasText (key text : String) (row : Json) : Except Exn Bool := do
  return isText text (← RawValue.get? row key)

/-- The rows that do not have this text in a field. -/
def otherRows (key text : String) : List Json → Except Exn (List Json)
  | [] => .ok []
  | row :: rest => do
    let same ← hasText key text row
    let others ← otherRows key text rest
    return cond same others (row :: others)

/-- The first row that has this text in a field. -/
def findRow (key text : String) : List Json → Except Exn (Option Json)
  | [] => .ok none
  | row :: rest => do
    let same ← hasText key text row
    cond same (.ok (some row)) (findRow key text rest)

/-- The rows of a part of the configuration. -/
def rowsAt (data : Dict) (part : String) : Except Exn (List Json) := rowsOf (data.get? part)

/-- A selection that is not the one of every machine. -/
def isScoped : Option Json → Bool
  | none => false
  | some (.arr [.str "*"]) => false
  | some value => value.truthy

/-- What the service keeps of the previous row: its patterns, if it has a selection. -/
def carryScope (previous : Option Json) (entry : Dict) : Except Exn Dict :=
  match previous with
  | none => .ok entry
  | some row => do
    let includes ← RawValue.get? row "include"
    let excludes ← RawValue.get? row "exclude"
    if isScoped includes then do
      let included ← asItems (includes.getD .null)
      let excluded ← rowsOf excludes
      return (entry.set "include" (.arr included)).set "exclude" (.arr excluded)
    else return entry

/-- What the setup wizard keeps of it: the patterns that include machines. -/
def carryIncludes (previous : Option Json) (entry : Dict) : Except Exn Dict :=
  match previous with
  | none => .ok entry
  | some row => do
    let includes ← RawValue.get? row "include"
    if isScoped includes then do
      let included ← asItems (includes.getD .null)
      return entry.set "include" (.arr included)
    else return entry

/-- The configuration with a row in place of those with its name. -/
def withRow (carry : Option Json → Dict → Except Exn Dict) (data : Dict) (part name : String)
    (entry : Dict) : Except Exn Dict := do
  let rows ← rowsAt data part
  let previous ← findRow "name" name rows
  let entry ← carry previous entry
  let others ← otherRows "name" name rows
  return data.set part (.arr (others ++ [.obj entry]))

/-- A row with the selected machines. -/
def markSelected (selected : List String) : Json → Json
  | .obj fields => .obj (Dict.set (Dict.set fields "include" (.arr (selected.map .str)))
      "exclude" (.arr []))
  | other => other

/-- The rows with the selected machines in the first one with this name. -/
def selectedRows (name : String) (selected : List String) :
    List Json → Except Exn (Option (List Json))
  | [] => .ok none
  | row :: rest => do
    let same ← hasText "name" name row
    cond same (.ok (some (markSelected selected row :: rest))) do
      return (← selectedRows name selected rest).map (row :: ·)

/-- The configuration with the machines that are selected on a platform. -/
def withSelection (data : Dict) (name : String) (selected : List String) : Except Exn Dict := do
  let rows ← rowsAt data "platforms"
  match ← selectedRows name selected rows with
  | none => .error ⟨.valueError, s!"unknown platform {name}"⟩
  | some rows => return data.set "platforms" (.arr rows)

/-- A list that is given; nothing stands for the empty one. -/
def givenList (value : Option Json) (complaint : String) : Except Exn (List Json) :=
  match value with
  | some (.arr items) => .ok items
  | some other => if other.truthy then valueError complaint else .ok []
  | none => .ok []

/-- A mapping that is given and not empty, or a default. -/
def givenMapping (value : Option Json) (default : Dict) (complaint : String) : Except Exn Dict :=
  match value with
  | some (.obj fields) => .ok (if fields = [] then default else fields)
  | some other => if other.truthy then valueError complaint else .ok default
  | none => .ok default

/-- A value, or a number in place of a missing or false one. -/
def orInt (value : Option Json) (default : Int) : Json :=
  match value with
  | some given => if given.truthy then given else .int default
  | none => .int default

/-- A policy as it is written into the configuration. -/
def policyPayload (body : Dict) : Except Exn Dict := do
  let policy_id := lowered (trimmed (Adapters.fieldText body "id" ""))
  refuse (¬ isPolicyId policy_id)
    "policy id must use lowercase letters, digits, dots, underscores, or hyphens"
  let name := trimmed (Adapters.fieldText body "name" policy_id)
  let selections ← givenList (body.get? "selections") "policy selections must be a list"
  let schedule ← givenMapping (body.get? "schedule") [("frequency", .str "manual")]
    "policy schedule must be a mapping"
  let immutable_days ← (orInt (body.get? "immutable_days") 30).toInt
  let replica_targets ← rowsOf (body.get? "replica_targets")
  return [("id", .str policy_id), ("name", .str name),
    ("enabled", .bool ((body.get? "enabled").getD (.bool true)).truthy),
    ("selections", .arr selections), ("schedule", .obj schedule),
    ("immutable_days", .int immutable_days), ("replica_targets", .arr replica_targets),
    ("verify_after_backup", .bool ((body.get? "verify_after_backup").getD (.bool true)).truthy)]

/-- The management section as a dictionary of its own. -/
def managementOf (data : Dict) : Except Exn Dict :=
  match data.get? "management" with
  | none => .ok []
  | some given => if given.truthy then RawValue.options given else .ok []

/-- The configuration with a policy behind those with another id. -/
def withPolicy (data policy : Dict) (policy_id : String) : Except Exn Dict := do
  let management ← managementOf data
  let rows ← rowsAt management "policies"
  let others ← otherRows "id" policy_id rows
  return data.set "management" (.obj ((management.set "enabled" (.bool true)).set "policies"
    (.arr (others ++ [.obj policy]))))

/-- The configuration without the policies of this id. -/
def withoutPolicy (data : Dict) (policy_id : String) : Except Exn Dict := do
  let management ← managementOf data
  let before ← rowsAt management "policies"
  let others ← otherRows "id" policy_id before
  refuse (before.length = others.length) s!"unknown protection policy: {policy_id}"
  return data.set "management" (.obj (management.set "policies" (.arr others)))

/-- The configuration as the service loads it; all but the management section is read by
another loader, which does not look into that section. -/
def loadV11 (enterprise : Dict → Except Exn EnterpriseConfig) (data : Dict) :
    Except Exn V11Config := do
  let others ← enterprise (data.filter fun field => field.1 ≠ "management")
  loadV11Config others data

end Rows

section Mounts

variable {Φ : Type} [Floating Φ]

/-- Kinds of mounts that the service sets up. -/
inductive MountType where
  | nfs
  | cifs
  deriving DecidableEq

def MountType.text : MountType → String
  | .nfs => "nfs"
  | .cifs => "cifs"

structure MountSpec where
  mount_type : MountType
  source : Str
  target : Str
  username : Str
  password : Str

/-- A path below another one. -/
def isBelow (root path : Str) : Bool :=
  path ≠ root ∧ (root = str "/" ∨ root ++ str "/" <+: path)

/-- A path, or one that is taken from a directory. -/
def joined (root name : Str) : Str :=
  if str "/" <+: name then name else root ++ str "/" ++ name

/-- The mount that a request asks for. What paths resolve to is asked of the machine. -/
def mountSpec (resolve : Str → Str) (body : List (Str × Value Φ)) : Except Exn MountSpec := do
  let source := strippedAt body "mount_source"
  refuse (source = [] ∨ ∃ point ∈ source, point.val = 13 ∨ point.val = 10 ∨ point.val = 0)
    "mount source is required and cannot contain control characters"
  let kind := [MountType.nfs, .cifs].find? fun kind =>
    kind.text = lowered (printed (strippedAt body "mount_type"))
  refuse (kind = none) "direct NAS connection mount_type must be nfs or cifs"
  refuse (kind = some .nfs ∧ ¬ str ":" <:+: source) "NFS source must look like server:/export"
  refuse (kind = some .cifs ∧ ¬ str "//" <+: source) "SMB source must look like //server/share"
  let root := resolve (str "/srv/immutavault/storage")
  let requested := strippedAt body "path"
  let path := resolve (if requested = [] then joined root (strippedAt body "name") else requested)
  refuse (isBelow root path = false)
    "wizard-managed NAS mounts must live below /srv/immutavault/storage"
  let username := strippedAt body "mount_username"
  let password := textOr body "mount_password" []
  refuse (kind = some .cifs ∧ (username = [] ∨ password = []))
    "SMB username and password are required"
  return ⟨kind.getD .nfs, source, path, username, password⟩

/-- A request asks for a mount. -/
def asksMount (body : List (Str × Value Φ)) : Bool := strippedAt body "mount_source" ≠ []

/-- The name of a file that stands for a display name. Which characters are letters or digits
of any script is left open. -/
def safeName (isalnum : CodePoint → Bool) (name : Str) : Str :=
  (name.map fun point => if isalnum point then point else 45).take 48

/-- The file that the credentials of a share are kept in. -/
def credentialsFile (safe : Str) : Str :=
  str "/etc/immutavault/mount-" ++ safe ++ str ".credentials"

def credentialsPath (isalnum : CodePoint → Bool) (body : List (Str × Value Φ)) : Str :=
  credentialsFile (safeName isalnum (textOr body "name" (str "share")))

/-- The file that they are in while a share is tested. -/
def testCredentialsPath (isalnum : CodePoint → Bool) (body : List (Str × Value Φ)) : Str :=
  str "/run/immutavault/." ++ safeName isalnum (textOr body "name" (str "target")) ++
    str ".credentials"

def testTarget (isalnum : CodePoint → Bool) (body : List (Str × Value Φ)) : Str :=
  str "/run/immutavault/mount-test-" ++ safeName isalnum (textOr body "name" (str "target"))

def credentialsText (spec : MountSpec) : Str :=
  str "username=" ++ spec.username ++ str "\npassword=" ++ spec.password ++ str "\n"

/-- The options of a mount, with the file of its credentials. -/
def mountOptions (credentials : Str) : MountType → Str
  | .nfs => str "rw,hard,noatime,nosuid,nodev,_netdev"
  | .cifs => str "rw,credentials=" ++ credentials ++ str ",vers=3.1.1,nosuid,nodev,noexec,_netdev"

def unitPath (unit : Str) : Str := joined (str "/etc/systemd/system") unit

def mountUnit (spec : MountSpec) (options : Str) : Str :=
  str "[Unit]\nDescription=Immutavault managed backup storage mount\n" ++
    str "After=network-online.target\nWants=network-online.target\n\n[Mount]\nWhat=" ++
    spec.source ++ str "\nWhere=" ++ spec.target ++ str "\nType=" ++ str spec.mount_type.text ++
    str "\nOptions=" ++ options ++
    str "\nTimeoutSec=120\n\n[Install]\nWantedBy=multi-user.target\n"

end Mounts

section Commands

/-- What the service asks of the machine. -/
inductive Command where
  | readConfig
  | snapshot
  | loadConfig
  | prevalidate (data : Dict)
  | validate (data : Dict)
  | checkCandidate (data : Dict)
  | replaceConfig (data : Dict)
  | recheck
  | restoreConfig (previous : Dict)
  | readEnv
  | replaceEnv (text : String)
  | getVariable (key : String)
  | setVariable (key : String) (value : Str)
  | restoreVariable (key : String) (old : Option Str)
  | exists (path : Str)
  | writeFile (path text : Str)
  | removeFile (path : Str)
  | changeMode (path : Str)
  | makeDirectory (path : Str)
  | removeDirectory (path : Str)
  | escapePath (target : Str)
  | execute (arguments : List Str)
  | temporaryConfig
  | examine

def Command.Answer : Command → Type
  | .readConfig | .snapshot => Dict
  | .loadConfig => V11Config
  | .readEnv => Option String
  | .getVariable _ => Option Str
  | .exists _ => Bool
  | .escapePath _ => Str
  | .execute _ => Bool
  | _ => Unit

@[reducible] def appliance : Interface := ⟨Command, Command.Answer⟩

abbrev Prog (α : Type) := Program appliance Exn α

def ask (command : Command) : Prog command.Answer := @Program.perform appliance Exn command

def readConfig : Prog Dict := ask .readConfig

/-- The configuration as it is before it is replaced. -/
def snapshot : Prog Dict := ask .snapshot

def loadConfig : Prog V11Config := ask .loadConfig

def readEnv : Prog (Option String) := ask .readEnv

def getVariable (key : String) : Prog (Option Str) := ask (.getVariable key)

def isPresent (path : Str) : Prog Bool := ask (.exists path)

def escapePath (target : Str) : Prog Str := ask (.escapePath target)

def execute (arguments : List Str) : Prog Bool := ask (.execute arguments)

/-- What is done with a target while its variables are set. -/
def examine : Prog Unit := ask .examine

/-- Execute a program that has to succeed. -/
def checked (arguments : List Str) (message : String) : Prog Unit := do
  let succeeded ← execute arguments
  cond succeeded (return ()) (raiseRuntimeError message)

/-- Replace the environment file by the updated one. -/
def envWrite (updates : List (String × Str)) : Prog Unit := do
  let file ← readEnv
  let text ← raised (EnvironmentFiles.envWrite file updates)
  ask (.replaceEnv text)

/-- Set the variables of the process to those of the file. -/
def reloadEnv : Prog Unit := do
  let file ← readEnv
  Program.each (fun entry => ask (.setVariable entry.1 (str entry.2))) (envRead file)

/-- Replace the configuration by a candidate that loads. -/
def atomicV11 (data : Dict) : Prog Unit := do
  ask (.checkCandidate data)
  ask (.replaceConfig data)

def storeEnv (env_updates : List (String × Str)) : Prog Unit :=
  if env_updates = [] then return () else do
    envWrite env_updates
    reloadEnv

def replaceAll (data : Dict) (env_updates : List (String × Str)) : Prog Unit := do
  atomicV11 data
  storeEnv env_updates
  ask .recheck

/-- Replace configuration and environment; when that fails, put the old configuration back. -/
def commit (data : Dict) (env_updates : List (String × Str)) : Prog Unit := do
  ask (.validate data)
  let previous ← snapshot
  tryCatch (replaceAll data env_updates) fun error => do
    ask (.restoreConfig previous)
    throw error

end Commands

section Targets

variable {Φ : Type} [Floating Φ] (isalnum : CodePoint → Bool) (resolve : Str → Str)

def savePlatform (body : List (Str × Value Φ)) : Prog Unit := do
  let prepared ← raised (platform body)
  let data ← readConfig
  let candidate ← raised (withRow carryScope data "platforms" (printed (strippedAt body "name"))
    (jsonFields prepared.entry))
  commit candidate prepared.env

/-- The names of machines that are selected: trimmed, not empty, and each of them once. -/
def selectedNames (vms : List Json) : List String :=
  ((vms.map fun vm => trimmed vm.toText).filter (· ≠ "")).eraseDups

def saveSelection (name : String) (vms : List Json) : Prog Unit := do
  let selected := selectedNames vms
  raised (refuse (selected = []) "select at least one VM")
  raised (refuse (selected.any fun vm => vm.toList.any (· ∈ patternSigns))
    "web protection selection requires exact VM names")
  let data ← readConfig
  let candidate ← raised (withSelection data name selected)
  commit candidate []

/-- Write the credentials of a share into a file that nobody else reads. -/
def writeCredentials (path : Str) (spec : MountSpec) : Prog Unit :=
  match spec.mount_type with
  | .nfs => return ()
  | .cifs => do
    ask (.writeFile path (credentialsText spec))
    ask (.changeMode path)

def words (arguments : List String) : List Str := arguments.map str

/-- Mount a share now and whenever the machine starts. -/
def persistMount (credentials : Str) (spec : MountSpec) : Prog Unit := do
  ask (.makeDirectory spec.target)
  let unit ← escapePath spec.target
  cond (str ".mount" <:+ unit) (return ())
    (raiseRuntimeError "systemd-escape did not return a mount unit")
  writeCredentials credentials spec
  ask (.writeFile (unitPath unit) (mountUnit spec (mountOptions credentials spec.mount_type)))
  ask (.changeMode (unitPath unit))
  checked (words ["systemctl", "daemon-reload"]) "systemctl daemon-reload failed"
  checked (words ["systemctl", "enable", "--now"] ++ [unit]) "could not activate NAS mount"
  checked (words ["mountpoint", "-q"] ++ [spec.target])
    "systemd reported success but NAS target is not mounted"

/-- The mount of a storage target, if its request asks for one. -/
def mountOf (body : List (Str × Value Φ)) : Except Exn (Option MountSpec) :=
  if SetupRequests.backendOf (strippedAt body "backend") = some .filesystem ∧ asksMount body then
    do return some (← mountSpec resolve body)
  else .ok none

/-- The row of a storage target with its mount. -/
def withMount (entry : Dict) : Option MountSpec → Dict
  | none => entry
  | some spec => (((entry.set "path" (.str (printed spec.target))).set "mount_required"
      (.bool true)).set "mount_source" (.str (printed spec.source))).set "mount_type"
        (.str spec.mount_type.text)

def persistGiven (credentials : Str) : Option MountSpec → Prog Unit
  | none => return ()
  | some spec => persistMount credentials spec

def saveStorage (body : List (Str × Value Φ)) : Prog Unit := do
  let prepared ← raised (replica body)
  let mount ← raised (mountOf resolve body)
  let data ← readConfig
  let candidate ← raised (withRow (fun _ entry => .ok entry) data "replicas"
    (printed (strippedAt body "name")) (withMount (jsonFields prepared.entry) mount))
  ask (.prevalidate candidate)
  persistGiven (credentialsPath isalnum body) mount
  commit candidate prepared.env

/-- Variables of a file with those of a request in their places. -/
def merged (file : Option String) (updates : List (String × Str)) : List (String × Str) :=
  EnvironmentFiles.updated ((envRead file).map fun entry => (entry.1, str entry.2)) updates

/-- Read the variables that are about to be set. -/
def savedVariables : List (String × Str) → Prog (List (String × Option Str))
  | [] => return []
  | (key, _) :: rest => do
    let old ← getVariable key
    let others ← savedVariables rest
    return (key, old) :: others

/-- Look at a target with its variables set. They are put back behind that, but not when
setting them fails. -/
def temporaryEnv (values : List (String × Str)) : Prog Unit := do
  let old ← savedVariables values
  Program.each (fun entry => ask (.setVariable entry.1 entry.2)) values
  let outcome ← examine.attempt
  Program.each (fun entry => ask (.restoreVariable entry.1 entry.2)) old
  raised outcome

def examineWith (env : List (String × Str)) : Prog Unit := do
  ask .temporaryConfig
  let file ← readEnv
  temporaryEnv (merged file env)

def testPlatform (body : List (Str × Value Φ)) : Prog Unit := do
  let prepared ← raised (platform body)
  examineWith prepared.env

/-- Mount a share at a place of its own and look at it. Whether the place can be written to is
a part of what the look answers. -/
def tryMount (target credentials : Str) (spec : MountSpec) : Prog Unit := do
  writeCredentials credentials spec
  checked (words ["mount", "-t", spec.mount_type.text, "-o"] ++
    [mountOptions credentials spec.mount_type, spec.source, target]) "NAS mount test failed"
  checked (words ["mountpoint", "-q"] ++ [target])
    "NAS target mounted but is not writable by the appliance"

def removeCredentials (credentials : Str) : MountType → Prog Unit
  | .nfs => return ()
  | .cifs => ask (.removeFile credentials)

/-- Remove what the test of a share has left. -/
def cleanMount (target credentials : Str) (spec : MountSpec) : Prog Unit := do
  let _ ← execute (words ["umount"] ++ [target])
  removeCredentials credentials spec.mount_type
  let _ ← (ask (.removeDirectory target)).attempt
  return ()

def testMount (body : List (Str × Value Φ)) : Prog Unit := do
  let spec ← raised (mountSpec resolve body)
  ask (.makeDirectory (testTarget isalnum body))
  let outcome ← (tryMount (testTarget isalnum body) (testCredentialsPath isalnum body) spec).attempt
  cleanMount (testTarget isalnum body) (testCredentialsPath isalnum body) spec
  raised outcome

def testStorage (body : List (Str × Value Φ)) : Prog Unit :=
  if textOr body "backend" [] = str "filesystem" ∧ asksMount body then testMount isalnum resolve body
  else do
    let prepared ← raised (replica body)
    examineWith prepared.env

end Targets

section Policies

/-- When a policy runs; a manual one never does by itself. -/
def onCalendar (schedule : PolicySchedule) : Option String :=
  match schedule.frequency with
  | .manual => none
  | .daily => some s!"*-*-* {schedule.time}:00"
  | .weekly =>
    let days := ",".intercalate (schedule.weekdays.map (·.capitalize))
    some s!"{days} *-*-* {schedule.time}:00"
  | .hourly => some s!"*-*-* 00/{schedule.every_hours}:00:00"

/-- When the policy of an id is to run, if it is loaded and enabled. -/
def calendarOf (policies : List ProtectionPolicy) (policy_id : String) : Option String :=
  (policies.find? fun policy => policy.id = policy_id).bind fun policy =>
    if policy.enabled then onCalendar policy.schedule else none

def timerUnit (policy_id : String) : String := s!"immutavault-policy-{policy_id}.timer"

def timerPath (policy_id : String) : Str := str s!"/etc/systemd/system/{timerUnit policy_id}"

def timerText (policy_id calendar : String) : Str :=
  str (s!"[Unit]\nDescription=Immutavault protection policy {policy_id}\n\n[Timer]\n" ++
    s!"OnCalendar={calendar}\nPersistent=true\nRandomizedDelaySec=60\n" ++
    s!"Unit=immutavault-policy@{policy_id}.service\n\n[Install]\nWantedBy=timers.target\n")

/-- Execute a program whose failure does not matter. -/
def attempted (arguments : List Str) : Prog Unit := do
  let _ ← execute arguments
  return ()

def removeTimer (policy_id : String) : Prog Unit := do
  attempted (words ["systemctl", "disable", "--now", timerUnit policy_id])
  ask (.removeFile (timerPath policy_id))
  attempted (words ["systemctl", "daemon-reload"])

/-- Remove the timer of a policy, if there is one. -/
def dropTimer (policy_id : String) : Prog Unit := do
  let present ← isPresent (timerPath policy_id)
  cond present (removeTimer policy_id) (return ())

/-- Write and enable the timer of a policy; the timer of all backups gives way to it. -/
def enableTimer (policy_id calendar : String) : Prog Unit := do
  ask (.writeFile (timerPath policy_id) (timerText policy_id calendar))
  ask (.changeMode (timerPath policy_id))
  checked (words ["systemctl", "daemon-reload"]) "systemctl daemon-reload failed"
  checked (words ["systemctl", "enable", "--now", timerUnit policy_id])
    s!"could not enable policy timer {timerUnit policy_id}"
  attempted (words ["systemctl", "disable", "--now", "immutavault-backup.timer"])

def syncTimer (policy_id : String) : Prog Unit := do
  let cfg ← loadConfig
  match calendarOf cfg.management.policies policy_id with
  | none => dropTimer policy_id
  | some calendar => enableTimer policy_id calendar

/-- The id of a policy in a request. -/
def requestedId (body : Dict) : String := lowered (trimmed (Adapters.fieldText body "id" ""))

def savePolicy (body : Dict) : Prog Unit := do
  let policy ← raised (policyPayload body)
  let data ← readConfig
  let candidate ← raised (withPolicy data policy (requestedId body))
  atomicV11 candidate
  syncTimer (requestedId body)

def deletePolicy (policy_id : String) : Prog Unit := do
  raised (refuse (¬ isPolicyId policy_id) "invalid policy id")
  let data ← readConfig
  let candidate ← raised (withoutPolicy data policy_id)
  atomicV11 candidate
  syncTimer policy_id

end Policies

section Machines

/-- What the service keeps: the configuration, the environment file, the variables of its
process and the other files, which are texts. -/
structure Appliance where
  config : Dict
  envFile : Option String
  environ : String → Option Str
  files : Str → Option Str

/-- How the machine answers. A command may fail, and programs may not succeed. -/
structure World where
  fault : Command → Option Exn
  enterprise : Dict → Except Exn EnterpriseConfig
  escape : Str → Str
  succeeds : List Str → Bool

/-- Texts that a variable of a process can hold: those without the null character and
without a surrogate that does not stand for a byte. -/
def isSettable (value : Str) : Bool :=
  value.all fun point => point.val ≠ 0 ∧ (¬ isSurrogate point ∨ 56448 ≤ point.val ∧ point.val ≤ 56575)

def unencodable : Exn := ⟨.valueError, "UnicodeEncodeError: surrogates not allowed"⟩

variable (world : World)

/-- Whether a candidate loads. -/
def loads (data : Dict) : Except Exn Unit := do
  let _ ← loadV11 world.enterprise data
  return ()

/-- A text is written behind the old one has been dropped; one that cannot be encoded leaves
an empty file. -/
def writeText (path text : Str) (state : Appliance) : Except Exn Unit × Appliance :=
  if text.any isSurrogate then
    (.error unencodable, { state with files := Function.update state.files path (some []) })
  else (.ok (), { state with files := Function.update state.files path (some text) })

/-- What is answered to a command that does not fail. -/
def obey : (command : Command) → Appliance → Except Exn command.Answer × Appliance
  | .readConfig, state | .snapshot, state => (.ok state.config, state)
  | .loadConfig, state => (loadV11 world.enterprise state.config, state)
  | .prevalidate data, state | .validate data, state | .checkCandidate data, state =>
    (loads world data, state)
  | .replaceConfig data, state => (.ok (), { state with config := data })
  | .recheck, state => (loads world state.config, state)
  | .restoreConfig previous, state => (.ok (), { state with config := previous })
  | .readEnv, state => (.ok state.envFile, state)
  | .replaceEnv text, state => (.ok (), { state with envFile := some text })
  | .getVariable key, state => (.ok (state.environ key), state)
  | .setVariable key value, state =>
    if isSettable value then
      (.ok (), { state with environ := Function.update state.environ key (some value) })
    else (.error ⟨.valueError, "embedded null byte"⟩, state)
  | .restoreVariable key old, state =>
    (.ok (), { state with environ := Function.update state.environ key old })
  | .exists path, state => (.ok (state.files path).isSome, state)
  | .writeFile path text, state => writeText path text state
  | .removeFile path, state =>
    (.ok (), { state with files := Function.update state.files path none })
  | .changeMode _, state | .makeDirectory _, state | .removeDirectory _, state => (.ok (), state)
  | .escapePath target, state => (.ok (world.escape target), state)
  | .execute arguments, state => (.ok (world.succeeds arguments), state)
  | .temporaryConfig, state | .examine, state => (.ok (), state)

/-- Commands that only touch the memory of the process. -/
def Command.inMemory : Command → Bool
  | .getVariable _ | .setVariable .. | .restoreVariable .. => true
  | _ => false

def handler : Handler appliance Exn Appliance := fun command state =>
  match (if command.inMemory then none else world.fault command) with
  | some error => (.error error, state)
  | none => obey world command state

theorem run_ask (command : Command) (state : Appliance) :
    run (handler world) (ask command) state = handler world command state :=
  run_perform (handler world) command state

theorem run_raised {α : Type} (outcome : Except Exn α) (state : Appliance) :
    run (handler world) (raised outcome) state = (outcome, state) := by
  cases outcome <;> rfl

/-- A command fails and leaves the machine as it is, or it is obeyed. -/
theorem handler_cases (command : Command) (state : Appliance) :
    (∃ error, world.fault command = some error ∧
      handler world command state = (.error error, state)) ∨
        handler world command state = obey world command state := by
  unfold handler
  cases memory : command.inMemory with
  | true => exact Or.inr rfl
  | false =>
    cases fails : world.fault command with
    | none => exact Or.inr rfl
    | some error => exact Or.inl ⟨error, rfl, rfl⟩

/-- A command that does not fail is obeyed. -/
theorem handler_obeys {command : Command} (sound : world.fault command = none)
    (state : Appliance) : handler world command state = obey world command state := by
  rcases handler_cases world command state with ⟨error, fails, _⟩ | obeyed
  · rw [sound] at fails
    cases fails
  · exact obeyed

/-- The machine with every command permitted. -/
abbrev machine : Monitor appliance Exn Appliance := (handler world).monitor fun _ _ => True

variable {world} {state after : Appliance}

/-- What a run ends in may be judged as all that the machine can answer. -/
theorem wp_machine {α : Type} {program : Prog α} {post : Except Exn α → Appliance → Prop}
    (holds : post (run (handler world) program state).1 (run (handler world) program state).2) :
    wp (machine world) program post state := by
  induction program generalizing state with
  | ret value => exact holds
  | raise error => exact holds
  | call command resume inductionHypothesis =>
    refine ⟨trivial, fun answer possible => ?_⟩
    obtain rfl : answer = (handler world command state).1 := possible
    exact inductionHypothesis _ holds

/-- A program that begins with a command: it may fail, or the program goes on behind it. -/
theorem wp_ask_bind {α : Type} {command : Command} {next : command.Answer → Prog α}
    {post : Except Exn α → Appliance → Prop} {value : command.Answer} {after : Appliance}
    (obeyed : obey world command state = (.ok value, after))
    (fails : ∀ error, post (.error error) state)
    (goes : wp (machine world) (next value) post after) :
    wp (machine world) (ask command >>= next) post state := by
  refine wp_bind (wp_perform trivial fun answer possible => ?_)
  have given : answer = (handler world command state).1 := possible
  have follows : (machine world).next state command answer = (handler world command state).2 := rfl
  rw [follows, given]
  rcases handler_cases world command state with ⟨error, _, same⟩ | same
  · rw [same]
    exact fails error
  · rw [same, obeyed]
    exact goes

/-- A program that begins with a command that does not fail. -/
theorem wp_obeyed {α : Type} {command : Command} {next : command.Answer → Prog α}
    {post : Except Exn α → Appliance → Prop} {value : command.Answer}
    (sound : world.fault command = none)
    (obeyed : obey world command state = (.ok value, after))
    (goes : wp (machine world) (next value) post after) :
    wp (machine world) (ask command >>= next) post state := by
  refine wp_machine ?_
  rw [run_bind, run_ask, handler_obeys world sound, obeyed]
  exact wp_run goes

theorem wp_obeyed_last {command : Command} {post : Except Exn command.Answer → Appliance → Prop}
    {value : command.Answer} (sound : world.fault command = none)
    (obeyed : obey world command state = (.ok value, after)) (holds : post (.ok value) after) :
    wp (machine world) (ask command) post state := by
  refine wp_machine ?_
  rw [run_ask, handler_obeys world sound, obeyed]
  exact holds

end Machines

end Immutavault.ManagementService
