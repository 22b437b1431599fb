import Immutavault.ResticRepository

/-!
# Hypervisor adapters

An adapter drives one platform. Inventory, export and import are whole
subsystems behind the adapter and are asked of the world; switching a restored
machine on and off is modelled here, because what a switch guarantees depends on
whether its command's exit is looked at. Every family looks at it when switching
on and none does when switching off.
-/

namespace Immutavault.Adapters

open Programs Values Machine Configuration ResticRepository

/-- Characters that a shell word may hold unquoted. -/
def isShellSafe (character : Char) : Bool :=
  character.isAlphanum ∨ character ∈ ['_', '@', '%', '+', '=', ':', ',', '.', '/', '-']

/-- Quote a text as one shell word. -/
def quote (text : String) : String :=
  if text = "" then "''"
  else if text.toList.all isShellSafe then text
  else "'" ++ String.join (text.toList.map fun character =>
    if character = '\'' then "'\"'\"'" else String.singleton character) ++ "'"

/-- The text of a field of a result; a missing or empty field reads as the default. -/
def fieldText (restored : Dict) (key default : String) : String :=
  match restored.get? key with
  | some value => if value.truthy then value.toText else default
  | none => default

section Connections

variable (cfg : PlatformConfig) (getenv : Environ)

/-- The settings that are handed to the client when they are configured. -/
def govcSettings : List (String × String) :=
  [("tls_ca_certs", "GOVC_TLS_CA_CERTS"), ("tls_known_hosts", "GOVC_TLS_KNOWN_HOSTS"),
    ("datacenter", "GOVC_DATACENTER"), ("datastore", "GOVC_DATASTORE"),
    ("network", "GOVC_NETWORK"), ("resource_pool", "GOVC_RESOURCE_POOL"), ("host", "GOVC_HOST")]

/-- The environment of the VMware client, with the credentials of this platform. -/
def govcEnv : Except Exn (List (String × String)) :=
  let username_env := ((cfg.options.get? "username_env").getD (.str "GOVC_USERNAME")).toText
  let password_env := ((cfg.options.get? "password_env").getD (.str "GOVC_PASSWORD")).toText
  match setting getenv username_env, setting getenv password_env with
  | none, _ =>
    .error ⟨.runtimeError, s!"{username_env} is not set for VMware platform {cfg.name}"⟩
  | _, none =>
    .error ⟨.runtimeError, s!"{password_env} is not set for VMware platform {cfg.name}"⟩
  | some username, some password =>
    let insecure := ((cfg.options.get? "insecure").getD (.bool false)).truthy
    .ok ([("GOVC_URL", cfg.endpoint), ("GOVC_USERNAME", username), ("GOVC_PASSWORD", password),
        ("GOVC_INSECURE", if insecure then "true" else "false")] ++
      govcSettings.filterMap fun setting =>
        match cfg.options.get? setting.1 with
        | none | some .null | some (.str "") => none
        | some value => some (setting.2, value.toText))

/-- The command that reaches a platform's host. -/
def ssh : List String :=
  let target := match cfg.ssh_user.filter (· ≠ "") with
    | some user => s!"{user}@{cfg.endpoint}"
    | none => cfg.endpoint
  let key_env := fieldText cfg.options "ssh_key_env" "IMMUTAVAULT_SSH_KEY"
  let key := match setting getenv key_env with
    | some key => ["-i", key]
    | none => []
  ["ssh", "-o", "BatchMode=yes", "-o", "StrictHostKeyChecking=yes"] ++ key ++ [target]

/-- The command that switches a VMware machine, and what it reports. -/
def vmwarePower (restored : Dict) (on : Bool) :
    Except Exn (List String × List (String × String) × Dict) := do
  let name := fieldText restored "name" ""
  if name = "" then .error ⟨.valueError, "VMware restored result is missing name"⟩
  else
    let env ← govcEnv cfg getenv
    .ok (["govc", "vm.power", if on then "-on" else "-off", name], env,
      [("platform", .str cfg.name), ("name", .str name),
        ("power", .str (if on then "on" else "off")), ("command", .null)])

/-- The command that switches a Proxmox machine or container. -/
def proxmoxPower (restored : Dict) (on : Bool) :
    Except Exn (List String × List (String × String) × Dict) :=
  let vmid := fieldText restored "vmid" ""
  let kind := fieldText restored "kind" "qemu"
  if vmid = "" ∨ ¬ vmid.toList.all Char.isDigit then
    .error ⟨.valueError, "Proxmox restored result is missing numeric vmid"⟩
  else
    let tool := if kind = "lxc" then "pct" else "qm"
    let action := if on then "start" else "stop"
    let remote := s!"{tool} {action} {quote vmid}"
    .ok (ssh cfg getenv ++ [remote], [],
      [("platform", .str cfg.name), ("vmid", .str vmid), ("kind", .str kind),
        ("power", .str (if on then "on" else "off")), ("command", .null)])

/-- The command that switches an XCP-ng machine. -/
def xcpngPower (restored : Dict) (on : Bool) :
    Except Exn (List String × List (String × String) × Dict) :=
  let uuid := fieldText restored "uuid" ""
  if uuid = "" then .error ⟨.valueError, "XCP-ng restored result is missing uuid"⟩
  else
    let remote := if on then s!"xe vm-start uuid={quote uuid}"
      else s!"xe vm-shutdown uuid={quote uuid} force=true"
    .ok (ssh cfg getenv ++ [remote], [],
      [("platform", .str cfg.name), ("uuid", .str uuid),
        ("power", .str (if on then "on" else "off")), ("command", .null)])

/-- The switch command of a platform's family. -/
def power (restored : Dict) (on : Bool) :
    Except Exn (List String × List (String × String) × Dict) :=
  match cfg.type with
  | .vmware => vmwarePower cfg getenv restored on
  | .proxmox => proxmoxPower cfg getenv restored on
  | .xcpng => xcpngPower cfg getenv restored on

/-- Switch a restored machine on; a failing command raises. -/
def powerOn (restored : Dict) : Prog Dict := do
  let (argv, env, report) ← raised (power cfg getenv restored true)
  let _ ← runCommand (.power cfg.name true argv) env none true
  return report

/-- Switch a restored machine off; the exit of the command is not looked at. -/
def powerOff (restored : Dict) : Prog Dict := do
  let (argv, env, report) ← raised (power cfg getenv restored false)
  let _ ← runCommand (.power cfg.name false argv) env none false
  return report

/-- Switching on runs one command. -/
theorem footprint_powerOn (restored : Dict) :
    Footprint [.ofPower true] (powerOn cfg getenv restored) := by
  refine footprint_bind (footprint_raised _) fun planned => ?_
  exact footprint_bind (footprint_runCommand (by simp [Command.effect])) fun _ => footprint_pure _

theorem footprint_powerOff (restored : Dict) :
    Footprint [.ofPower false] (powerOff cfg getenv restored) := by
  refine footprint_bind (footprint_raised _) fun planned => ?_
  exact footprint_bind (footprint_runCommand (by simp [Command.effect])) fun _ => footprint_pure _

end Connections

end Immutavault.Adapters
