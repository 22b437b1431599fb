import Immutavault.DiskImages
import Immutavault.DRNetwork
import Immutavault.InternetTexts
import Immutavault.JsonTexts

/-!
# Which disaster recovery configurations are accepted

The disaster recovery section of a configuration file is a value of any kind, and the
parser asks it questions that may raise: whether it is true, what its text and its integer
are, what is under a key, what a loop over it goes through. The parser goes through three
lists, of sites, of networks and of workloads. In each it remembers what it has seen and
refuses what comes a second time; a network must not overlap with one before it, and its
gateway has to be one of its addresses. Only at the end it looks at the section as a
whole, and then only when disaster recovery is enabled.

What is returned is the configuration that the rest of the program reads, with the names
and subnets of the networks and the place of the controller beside it.
-/

namespace Immutavault.DRConfigurations

open Values Configuration DRNetwork InternetAddresses

/-- What the parser asks of a value. A question may raise. Nothing is under a key of the
empty dictionary. -/
class RawValue (V : Type) where
  get? : V → String → Except Exn (Option V)
  truthy : V → Except Exn Bool
  isNone : V → Bool
  toText : V → Except Exn String
  toInt : V → Except Exn Int
  iterated : V → Except Exn (List V)
  options : V → Except Exn Dict
  empty : V
  get?_empty : ∀ key, get? empty key = .ok none

/-- The values of a parsed text. -/
instance : RawValue Json where
  get?
    | .obj fields, key => .ok (Dict.get? fields key)
    | other, _ => .error ⟨.otherError,
      s!"'{DiskImages.className other}' object has no attribute 'get'"⟩
  truthy value := .ok value.truthy
  isNone
    | .null => true
    | _ => false
  toText value := .ok value.toText
  toInt := Json.toInt
  iterated := DiskImages.iterated
  options
    | .obj fields => .ok fields
    | .arr [] | .str "" => .ok []
    | other => .error ⟨.otherError, s!"'{DiskImages.className other}' object is not a dictionary"⟩
  empty := .obj []
  get?_empty _ := rfl

section Raising

/-- A check that raises with a message. -/
def refuse (bad : Prop) [Decidable bad] (message : String) : Except Exn Unit :=
  if bad then .error ⟨.valueError, message⟩ else .ok ()

theorem refuse_eq_ok {bad : Prop} [Decidable bad] {message : String} {done : Unit} :
    refuse bad message = .ok done ↔ ¬ bad := by
  unfold refuse
  split <;> simp [*]

/-- A result together with what its computation guarantees. -/
def certified {α : Type} {holds : α → Prop} : (given : Except Exn α) →
    (∀ value, given = .ok value → holds value) → Except Exn {value : α // holds value}
  | .ok value, each => .ok ⟨value, each value rfl⟩
  | .error error, _ => .error error

end Raising

section Questions

variable {V : Type} [RawValue V]

open RawValue

/-- The text under a key, or a default when nothing is there. -/
def textAt (item : V) (key default : String) : Except Exn String := do
  match ← get? item key with
  | none => return default
  | some value => toText value

def intAt (item : V) (key : String) (default : Int) : Except Exn Int := do
  match ← get? item key with
  | none => return default
  | some value => toInt value

def boolAt (item : V) (key : String) (default : Bool) : Except Exn Bool := do
  match ← get? item key with
  | none => return default
  | some value => truthy value

/-- The value under a key, unless it is false. -/
def trueAt (item : V) (key : String) : Except Exn (Option V) := do
  match ← get? item key with
  | none => return none
  | some value => return if ← truthy value then some value else none

/-- The text of what is under a key, if that is true. -/
def optionalText (item : V) (key : String) : Except Exn (Option String) := do
  match ← trueAt item key with
  | none => return none
  | some value => return some (← toText value)

/-- The same with a default, and without white space around it. -/
def strippedText (item : V) (key default : String) : Except Exn String := do
  return trimmed ((← optionalText item key).getD default)

/-- The dictionary under a key, or an empty one. -/
def sectionAt (item : V) (key : String) : Except Exn V := do
  return (← trueAt item key).getD empty

/-- What a loop over the value under a key goes through. -/
def itemsAt (item : V) (key : String) : Except Exn (List V) := do
  match ← trueAt item key with
  | none => return []
  | some value => iterated value

end Questions

section Validating

/-- The kinds of health checks under their names. -/
def checkType (kind : String) : Option CheckType :=
  if kind = "tcp" then some .tcp
  else if kind = "http" then some .http
  else if kind = "https" then some .https
  else if kind = "icmp" then some .icmp
  else none

/-- A text that is missing or empty. -/
def blank (text : Option String) : Bool := text.getD "" = ""

def validateIp (value label : String) : Except Exn String :=
  match ipAddress value.toList with
  | some address => .ok (String.ofList address.text)
  | none => .error ⟨.valueError, s!"{label} must be a valid IP address"⟩

def validateRouterId (value label : String) : Except Exn String :=
  match ipAddress value.toList with
  | some address =>
    if address.version ≠ .v4 then .error ⟨.valueError, s!"{label} must be an IPv4 address"⟩
    else .ok (String.ofList address.text)
  | none => .error ⟨.valueError, s!"{label} must be a valid IPv4 router ID"⟩

/-- A character of the name of an interface. -/
def isNameCharacter (character : Char) : Bool :=
  character.isAlphanum || ['_', '.', ':', '-'].contains character

def validateIfname (value label : String) : Except Exn String :=
  if value.toList ≠ [] ∧ value.toList.length ≤ 15 ∧ value.toList.all isNameCharacter then .ok value
  else .error ⟨.valueError,
    s!"{label} must be a valid Linux interface name (1-15 safe characters)"⟩

/-- The integer that a text writes, unless it has too many digits. -/
def decimal (text : String) : Option Int :=
  if JsonTexts.maxStrDigits < (text.toList.filter fun character =>
      (decimalValue character).isSome).length then none
  else parseInt text

/-- An area is an address with dots, or a number. -/
def validateArea (name area : String) : Except Exn Unit :=
  let message := s!"DR site {name} ospf_area must be dotted IPv4 or 0-4294967295"
  if '.' ∈ area.toList then do
    let _ ← validateRouterId area s!"DR site {name} ospf_area"
  else
    match decimal area with
    | none => .error ⟨.valueError, message⟩
    | some number => refuse (¬ (0 ≤ number ∧ number ≤ 4294967295)) message

end Validating

section Parsing

variable {V : Type} [RawValue V]

open RawValue

/-- The port of a health check. -/
def portAt (item : V) : Except Exn (Option Int) := do
  match ← get? item "port" with
  | none => return none
  | some value => if isNone value then return none else return some (← toInt value)

def check (item : V) : Except Exn HealthCheckConfig := do
  let kind := lowered (← textAt item "type" "tcp")
  match checkType kind with
  | none => .error ⟨.valueError, s!"unsupported DR health check type: {kind}"⟩
  | some type =>
    let parsed_port ← portAt item
    refuse (parsed_port.any fun port => ¬ (1 ≤ port ∧ port ≤ 65535))
      "DR health check port must be between 1 and 65535"
    let expected_status ← intAt item "expected_status" 200
    refuse (¬ (100 ≤ expected_status ∧ expected_status ≤ 599))
      "DR health check expected_status must be between 100 and 599"
    let host ← optionalText item "host"
    let url ← optionalText item "url"
    refuse ((type = .tcp ∨ type = .icmp) ∧ blank host) s!"{kind} DR health check requires host"
    refuse (type = .tcp ∧ parsed_port = none) "tcp DR health check requires port"
    refuse ((type = .http ∨ type = .https) ∧ blank url ∧ blank host)
      s!"{kind} DR health check requires url or host"
    let timeout_seconds ← intAt item "timeout_seconds" 5
    let attempts ← intAt item "attempts" 12
    let interval_seconds ← intAt item "interval_seconds" 10
    return {
      type, host, url
      port := parsed_port.map Int.toNat
      timeout_seconds := (max 1 timeout_seconds).toNat
      expected_status := expected_status.toNat
      attempts := (max 1 attempts).toNat
      interval_seconds := (max 1 interval_seconds).toNat }

/-- An empty text stays empty; any other one is validated. -/
def ifGiven (validate : String → String → Except Exn String) (value label : String) :
    Except Exn String :=
  if value = "" then .ok "" else validate value label

/-- Who a gateway is: its host and its two addresses. -/
structure GatewayIdentity where
  host : String
  vtep : String
  router_id : String

def readIdentity (enabled : Bool) (name : String) (gateway_raw : V) :
    Except Exn GatewayIdentity := do
  let host ← strippedText gateway_raw "host" ""
  refuse (enabled ∧ host = "") s!"DR site {name} is missing gateway.host"
  let vtep_raw := trimmed (← textAt gateway_raw "vtep_ip" "")
  let router_raw := trimmed (← textAt gateway_raw "router_id" vtep_raw)
  refuse (enabled ∧ vtep_raw = "") s!"DR site {name} is missing gateway.vtep_ip"
  refuse (enabled ∧ router_raw = "") s!"DR site {name} is missing gateway.router_id"
  let vtep ← ifGiven validateIp vtep_raw s!"DR site {name} gateway.vtep_ip"
  let router_id ← ifGiven validateRouterId router_raw s!"DR site {name} gateway.router_id"
  return ⟨host, vtep, router_id⟩

/-- The interfaces and the routing of a gateway. -/
def readGateway (name : String) (identity : GatewayIdentity) (gateway_raw : V) :
    Except Exn DRGatewayConfig := do
  let underlay ← validateIfname (← textAt gateway_raw "underlay_interface" "eth0")
    s!"DR site {name} underlay_interface"
  let trunk ← validateIfname (← textAt gateway_raw "trunk_interface" "eth1")
    s!"DR site {name} trunk_interface"
  let key_id ← intAt gateway_raw "ospf_auth_key_id" 1
  refuse (¬ (1 ≤ key_id ∧ key_id ≤ 255)) "DR ospf_auth_key_id must be between 1 and 255"
  let ospf_cost ← intAt gateway_raw "ospf_cost" 10
  refuse (¬ (1 ≤ ospf_cost ∧ ospf_cost ≤ 65535)) "DR ospf_cost must be between 1 and 65535"
  let ospf_area ← textAt gateway_raw "ospf_area" "0.0.0.0"
  validateArea name ospf_area
  let ssh_user ← optionalText gateway_raw "ssh_user"
  let isLocal ← boolAt gateway_raw "local" false
  let ospf_auth_key_env ← optionalText gateway_raw "ospf_auth_key_env"
  return {
    host := identity.host
    ssh_user, isLocal
    underlay_interface := underlay
    trunk_interface := trunk
    vtep_ip := identity.vtep
    router_id := identity.router_id
    ospf_area
    ospf_cost := ospf_cost.toNat
    ospf_auth_key_env
    ospf_auth_key_id := key_id.toNat }

/-- What the loop over the sites has seen. -/
structure SitesSeen where
  names : List String := []
  vteps : List String := []
  router_ids : List String := []
  sites : List DRSiteConfig := []

def siteStep (enabled : Bool) (seen : SitesSeen) (item : V) : Except Exn SitesSeen := do
  let gateway_raw ← sectionAt item "gateway"
  let name ← strippedText item "name" ""
  refuse (name = "") "DR site name is required"
  refuse (name ∈ seen.names) s!"duplicate DR site name: {name}"
  let identity ← readIdentity enabled name gateway_raw
  refuse (identity.vtep ≠ "" ∧ identity.vtep ∈ seen.vteps)
    s!"duplicate DR VTEP address: {identity.vtep}"
  refuse (identity.router_id ≠ "" ∧ identity.router_id ∈ seen.router_ids)
    s!"duplicate DR OSPF router ID: {identity.router_id}"
  let gateway ← readGateway name identity gateway_raw
  return {
    names := seen.names ++ [name]
    vteps := if identity.vtep = "" then seen.vteps else seen.vteps ++ [identity.vtep]
    router_ids :=
      if identity.router_id = "" then seen.router_ids else seen.router_ids ++ [identity.router_id]
    sites := seen.sites ++ [⟨name, gateway⟩] }

/-- A network with the fields that only its presentation reads. -/
structure NetworkEntry extends DRNetworkConfig where
  name : String
  subnet : String

/-- Why a text is not that of a network, as it is reported. -/
def faultText (text : String) : Fault → String
  | .malformed => s!"{Json.reprText text} does not appear to be an IPv4 or IPv6 network"
  | .hostBits interface => s!"{String.ofList interface.text} has host bits set"

/-- The subnet of a network and the address of its gateway. -/
def readSubnet (name : String) (item : V) : Except Exn (Network × Interface) := do
  let subnet_raw ← strippedText item "subnet" ""
  let gateway_raw ← strippedText item "gateway_cidr" ""
  refuse (subnet_raw = "" ∨ gateway_raw = "") s!"DR network {name} requires subnet and gateway_cidr"
  let invalid := s!"DR network {name} has invalid subnet/gateway_cidr: "
  match ipNetwork subnet_raw.toList with
  | .error fault => .error ⟨.valueError, invalid ++ faultText subnet_raw fault⟩
  | .ok subnet =>
    match ipInterface gateway_raw.toList with
    | none => .error ⟨.valueError, invalid ++
      s!"{Json.reprText gateway_raw} does not appear to be an IPv4 or IPv6 interface"⟩
    | some gateway =>
      refuse (gateway.address.version ≠ subnet.address.version ∨
          ¬ subnet.contains gateway.address)
        s!"DR network {name} gateway_cidr must belong to subnet {String.ofList subnet.text}"
      refuse (¬ gateway.network.equal subnet)
        s!"DR network {name} gateway_cidr prefix must match subnet {String.ofList subnet.text}"
      return (subnet, gateway)

/-- What the loop over the networks has seen. -/
structure NetworksSeen where
  vnis : List Int := []
  vlans : List Int := []
  names : List String := []
  subnets : List Network := []
  networks : List NetworkEntry := []

/-- A subnet must not overlap with one before it. -/
def checkOverlaps (name : String) (subnet : Network) (seen : List Network) : Except Exn Unit :=
  match seen.find? subnet.overlaps with
  | none => .ok ()
  | some other => .error ⟨.valueError, s!"DR network {name} subnet {
      String.ofList subnet.text} overlaps configured subnet {String.ofList other.text}"⟩

def networkStep (seen : NetworksSeen) (item : V) : Except Exn NetworksSeen := do
  let vni ← intAt item "vni" 0
  let vlan ← intAt item "vlan_id" 0
  refuse (¬ (1 ≤ vni ∧ vni ≤ 16777215)) "DR VXLAN VNI must be between 1 and 16777215"
  refuse (¬ (1 ≤ vlan ∧ vlan ≤ 4094)) "DR VLAN ID must be between 1 and 4094"
  refuse (vni ∈ seen.vnis) s!"duplicate DR VXLAN VNI: {vni}"
  refuse (vlan ∈ seen.vlans) s!"duplicate DR VLAN ID: {vlan}"
  let name ← strippedText item "name" s!"vlan-{vlan}"
  refuse (name ∈ seen.names) s!"duplicate DR network name: {name}"
  let (subnet, gateway) ← readSubnet name item
  checkOverlaps name subnet seen.subnets
  let mtu ← intAt item "mtu" 1450
  refuse (¬ (576 ≤ mtu ∧ mtu ≤ 9216)) "DR MTU must be between 576 and 9216"
  let enabled ← boolAt item "enabled" true
  return {
    vnis := seen.vnis ++ [vni]
    vlans := seen.vlans ++ [vlan]
    names := seen.names ++ [name]
    subnets := seen.subnets ++ [subnet]
    networks := seen.networks ++ [{
      name
      vlan_id := vlan.toNat
      vni := vni.toNat
      subnet := String.ofList subnet.text
      gateway_cidr := String.ofList gateway.text
      mtu := mtu.toNat
      enabled }] }

/-- What the loop over the workloads has seen. -/
structure WorkloadsSeen where
  names : List String := []
  workloads : List DRVMConfig := []

def workloadStep (seen : WorkloadsSeen) (item : V) : Except Exn WorkloadsSeen := do
  let name ← strippedText item "name" ""
  let source ← strippedText item "source_platform" ""
  let target ← strippedText item "target_platform" ""
  refuse (name = "" ∨ source = "" ∨ target = "")
    "each DR workload requires name, source_platform, and target_platform"
  refuse (name ∈ seen.names) s!"duplicate DR workload name: {name}"
  refuse (source = target)
    s!"DR workload {name} source_platform and target_platform must be different"
  let boot_order ← intAt item "boot_order" 100
  let target_name ← optionalText item "target_name"
  let health_checks ← (← itemsAt item "health_checks").mapM check
  let restore_options ← options (← sectionAt item "restore_options")
  return {
    names := seen.names ++ [name]
    workloads := seen.workloads ++ [{
      name, boot_order, target_name, health_checks, restore_options
      source_platform := source
      target_platform := target }] }

def parseFence (raw : V) : Except Exn FenceConfig := do
  let fence_raw ← sectionAt raw "fence"
  let mode := lowered (← textAt fence_raw "mode" "manual")
  let command_env ← optionalText fence_raw "command_env"
  let verify_command_env ← optionalText fence_raw "verify_command_env"
  refuse (¬ (mode = "manual" ∨ mode = "command")) "DR fence.mode must be manual or command"
  refuse (mode = "command" ∧ blank command_env)
    "DR fence.command_env is required when fence.mode=command"
  return ⟨if mode = "command" then .command else .manual, command_env, verify_command_env⟩

/-- The loop over the networks goes on from a state in which the lists of what has been seen
belong to the networks. -/
def parseNetworks (raw : V) : Except Exn NetworksSeen := do
  (← itemsAt raw "networks").foldlM networkStep {}

def parseSites (enabled : Bool) (raw : V) : Except Exn SitesSeen := do
  (← itemsAt raw "sites").foldlM (siteStep enabled) {}

def parseWorkloads (raw : V) : Except Exn WorkloadsSeen := do
  (← itemsAt raw "workloads").foldlM workloadStep {}

def parseProbes (raw : V) : Except Exn (List HealthCheckConfig) := do
  (← itemsAt raw "primary_probes").mapM check

/-- How many probes have to fail; nothing means all of them. -/
def parseQuorum (raw : V) (probes : List HealthCheckConfig) : Except Exn Int := do
  let quorum ← intAt raw "primary_failure_quorum" 0
  refuse (quorum < 0) "DR primary_failure_quorum must be >= 0"
  refuse (¬ probes.isEmpty ∧ (probes.length : Int) < quorum)
    "DR primary_failure_quorum cannot exceed the number of primary_probes"
  return quorum

end Parsing

/-- What the parser returns: the configuration that the rest of the program reads, with the
names and subnets of its networks and the place of the controller. -/
structure DRConfiguration extends DRConfig where
  control_plane_site : String
  entries : List NetworkEntry
  networks_eq : networks = entries.map NetworkEntry.toDRNetworkConfig

/-- What is checked of an enabled section as a whole. -/
def checkWhole (cfg : DRConfiguration) : Except Exn Unit := do
  let names := cfg.sites.map (·.name)
  refuse (cfg.primary_site ∉ names ∨ cfg.dr_site ∉ names)
    "DR primary_site and dr_site must reference configured sites"
  refuse (cfg.primary_site = cfg.dr_site) "DR primary_site and dr_site must be different"
  refuse (cfg.replica = "") "DR replica is required when disaster_recovery.enabled=true"
  refuse cfg.entries.isEmpty
    "at least one DR network is required when disaster_recovery.enabled=true"
  refuse cfg.workloads.isEmpty
    "at least one DR workload is required when disaster_recovery.enabled=true"
  if cfg.auto_failover then
    refuse (cfg.control_plane_site = "") ("automatic DR failover requires control_plane_site " ++
      "to document where the surviving controller runs")
    refuse (cfg.control_plane_site = cfg.primary_site)
      "automatic DR failover controller cannot reside only at the primary site"
    refuse cfg.primary_probes.isEmpty "automatic DR failover requires at least one primary_probe"
    refuse (cfg.fence.mode ≠ .command) "automatic DR failover requires fence.mode=command"
    refuse (blank cfg.fence.verify_command_env)
      "automatic DR failover requires fence.verify_command_env"

section Invariants

/-- What holds before a loop and is kept by every step holds after the loop. -/
theorem foldlM_keeps {α β : Type} {step : α → β → Except Exn α} {holds : α → Prop}
    (keeps : ∀ state entry after, holds state → step state entry = .ok after → holds after)
    {entries : List β} {state final : α} (before : holds state)
    (ran : entries.foldlM step state = .ok final) : holds final := by
  induction entries generalizing state with
  | nil =>
    rw [← Except.ok.inj ran]
    exact before
  | cons entry rest inductionHypothesis =>
    rw [List.foldlM_cons] at ran
    obtain ⟨after, here, further⟩ := bind_eq_ok.mp ran
    exact inductionHypothesis (keeps state entry after before here) further

/-- A list stays without duplicates when something new is added. -/
theorem nodup_concat {α : Type} {entries : List α} {entry : α} (distinct : entries.Nodup)
    (fresh : entry ∉ entries) : (entries ++ [entry]).Nodup :=
  List.nodup_append.mpr ⟨distinct, List.nodup_singleton entry, fun other present last member => by
    rw [List.mem_singleton.mp member]
    exact fun same => fresh (same ▸ present)⟩

end Invariants

section Sites

variable {V : Type} [RawValue V]

/-- A text is the canonical one of an address. -/
def IsAddress (text : String) : Prop := ∃ address : Address, text = String.ofList address.text

/-- A text is the canonical one of an address of version 4. -/
def IsRouterId (text : String) : Prop :=
  ∃ address : Address, address.version = .v4 ∧ text = String.ofList address.text

theorem IsRouterId.isAddress {text : String} (routerId : IsRouterId text) : IsAddress text := by
  obtain ⟨address, _, same⟩ := routerId
  exact ⟨address, same⟩

theorem IsAddress.filled {text : String} (isAddress : IsAddress text) : text ≠ "" := by
  obtain ⟨address, rfl⟩ := isAddress
  intro empty
  have nothing : address.text = [] := by simpa using congrArg String.toList empty
  have read := ipAddress_text address
  rw [nothing] at read
  cases read

theorem isAddress_of_validateIp {value label text : String}
    (valid : validateIp value label = .ok text) : IsAddress text := by
  unfold validateIp at valid
  split at valid
  · rename_i address _
    exact ⟨address, (Except.ok.inj valid).symm⟩
  · cases valid

theorem isRouterId_of_validateRouterId {value label text : String}
    (valid : validateRouterId value label = .ok text) : IsRouterId text := by
  unfold validateRouterId at valid
  split at valid
  · rename_i address _
    split at valid
    · cases valid
    · rename_i version
      exact ⟨address, not_not.mp version, (Except.ok.inj valid).symm⟩
  · cases valid

theorem ifGiven_eq_ok {validate : String → String → Except Exn String} {value label text : String}
    (ran : ifGiven validate value label = .ok text) :
    value = "" ∧ text = "" ∨ value ≠ "" ∧ validate value label = .ok text := by
  unfold ifGiven at ran
  split at ran
  · rename_i empty
    exact Or.inl ⟨empty, (Except.ok.inj ran).symm⟩
  · rename_i given
    exact Or.inr ⟨given, ran⟩

/-- What is known of the addresses of a gateway; all of it is required when disaster recovery
is enabled. -/
structure Identified (enabled : Bool) (host vtep router_id : String) : Prop where
  tunnel : vtep ≠ "" → IsAddress vtep
  routing : router_id ≠ "" → IsRouterId router_id
  required : enabled = true → host ≠ "" ∧ vtep ≠ "" ∧ router_id ≠ ""

theorem readIdentity_spec {enabled : Bool} {name : String} {gateway_raw : V}
    {identity : GatewayIdentity} (ran : readIdentity enabled name gateway_raw = .ok identity) :
    Identified enabled identity.host identity.vtep identity.router_id := by
  unfold readIdentity at ran
  obtain ⟨host, _, ran⟩ := bind_eq_ok.mp ran
  obtain ⟨_, hosted, ran⟩ := bind_eq_ok.mp ran
  obtain ⟨vtep_text, _, ran⟩ := bind_eq_ok.mp ran
  obtain ⟨router_text, _, ran⟩ := bind_eq_ok.mp ran
  obtain ⟨_, tunnelled, ran⟩ := bind_eq_ok.mp ran
  obtain ⟨_, routed, ran⟩ := bind_eq_ok.mp ran
  obtain ⟨vtep, vtep_read, ran⟩ := bind_eq_ok.mp ran
  obtain ⟨router_id, router_read, ran⟩ := bind_eq_ok.mp ran
  rw [← Except.ok.inj ran]
  rw [refuse_eq_ok] at hosted tunnelled routed
  have tunnel := ifGiven_eq_ok vtep_read
  have routing := ifGiven_eq_ok router_read
  refine ⟨fun filled => ?_, fun filled => ?_, fun required => ⟨fun empty => ?_, ?_, ?_⟩⟩
  · exact isAddress_of_validateIp (tunnel.resolve_left fun empty => filled empty.2).2
  · exact isRouterId_of_validateRouterId (routing.resolve_left fun empty => filled empty.2).2
  · exact hosted ⟨required, empty⟩
  · have given := tunnel.resolve_left fun empty => tunnelled ⟨required, empty.1⟩
    exact (isAddress_of_validateIp given.2).filled
  · have given := routing.resolve_left fun empty => routed ⟨required, empty.1⟩
    exact (isRouterId_of_validateRouterId given.2).isAddress.filled

theorem readGateway_spec {name : String} {identity : GatewayIdentity} {gateway_raw : V}
    {gateway : DRGatewayConfig} (ran : readGateway name identity gateway_raw = .ok gateway) :
    gateway.host = identity.host ∧ gateway.vtep_ip = identity.vtep ∧
      gateway.router_id = identity.router_id := by
  unfold readGateway at ran
  obtain ⟨_, _, ran⟩ := bind_eq_ok.mp ran
  obtain ⟨_, _, ran⟩ := bind_eq_ok.mp ran
  obtain ⟨_, _, ran⟩ := bind_eq_ok.mp ran
  obtain ⟨_, _, ran⟩ := bind_eq_ok.mp ran
  obtain ⟨_, _, ran⟩ := bind_eq_ok.mp ran
  obtain ⟨_, _, ran⟩ := bind_eq_ok.mp ran
  obtain ⟨_, _, ran⟩ := bind_eq_ok.mp ran
  obtain ⟨_, _, ran⟩ := bind_eq_ok.mp ran
  obtain ⟨_, _, ran⟩ := bind_eq_ok.mp ran
  obtain ⟨_, _, ran⟩ := bind_eq_ok.mp ran
  obtain ⟨_, _, ran⟩ := bind_eq_ok.mp ran
  obtain ⟨_, _, ran⟩ := bind_eq_ok.mp ran
  obtain ⟨_, _, ran⟩ := bind_eq_ok.mp ran
  rw [← Except.ok.inj ran]
  exact ⟨rfl, rfl, rfl⟩

/-- The state of the loop over the sites: what has been seen belongs to the sites, and
nothing came twice. -/
structure SitesSeen.Valid (enabled : Bool) (seen : SitesSeen) : Prop where
  names : seen.names = seen.sites.map (·.name)
  vteps : seen.vteps = (seen.sites.map (·.gateway.vtep_ip)).filter (· ≠ "")
  router_ids : seen.router_ids = (seen.sites.map (·.gateway.router_id)).filter (· ≠ "")
  names_distinct : seen.names.Nodup
  vteps_distinct : seen.vteps.Nodup
  router_ids_distinct : seen.router_ids.Nodup
  identified : ∀ site ∈ seen.sites,
    Identified enabled site.gateway.host site.gateway.vtep_ip site.gateway.router_id

/-- An address joins those that have been seen, unless it is empty. -/
theorem filter_concat {texts seen : List String} {text : String}
    (same : seen = texts.filter (· ≠ "")) :
    (if text = "" then seen else seen ++ [text]) = (texts ++ [text]).filter (· ≠ "") := by
  rw [same, List.filter_append]
  split <;> simp [*]

theorem nodup_given {seen : List String} {text : String} (distinct : seen.Nodup)
    (fresh : ¬ (text ≠ "" ∧ text ∈ seen)) :
    (if text = "" then seen else seen ++ [text]).Nodup := by
  split
  · exact distinct
  · rename_i given
    exact nodup_concat distinct fun member => fresh ⟨given, member⟩

theorem SitesSeen.Valid.step {enabled : Bool} {seen after : SitesSeen} {item : V}
    (valid : seen.Valid enabled) (ran : siteStep enabled seen item = .ok after) :
    after.Valid enabled := by
  unfold siteStep at ran
  obtain ⟨gateway_raw, _, ran⟩ := bind_eq_ok.mp ran
  obtain ⟨name, _, ran⟩ := bind_eq_ok.mp ran
  obtain ⟨_, _, ran⟩ := bind_eq_ok.mp ran
  obtain ⟨_, named, ran⟩ := bind_eq_ok.mp ran
  obtain ⟨identity, identified, ran⟩ := bind_eq_ok.mp ran
  obtain ⟨_, tunnelled, ran⟩ := bind_eq_ok.mp ran
  obtain ⟨_, routed, ran⟩ := bind_eq_ok.mp ran
  obtain ⟨gateway, read, ran⟩ := bind_eq_ok.mp ran
  rw [refuse_eq_ok] at named tunnelled routed
  have known := readIdentity_spec identified
  obtain ⟨host, vtep, router_id⟩ := readGateway_spec read
  rw [← host, ← vtep, ← router_id] at known
  rw [← vtep] at tunnelled ran
  rw [← router_id] at routed ran
  rw [← Except.ok.inj ran]
  refine ⟨?_, ?_, ?_, nodup_concat valid.names_distinct named,
    nodup_given valid.vteps_distinct tunnelled,
    nodup_given valid.router_ids_distinct routed, ?_⟩
  · simp [valid.names]
  · rw [List.map_append]
    exact filter_concat valid.vteps
  · rw [List.map_append]
    exact filter_concat valid.router_ids
  · intro site member
    rcases List.mem_append.mp member with before | last
    · exact valid.identified site before
    · rw [List.mem_singleton.mp last]
      exact known

theorem parseSites_valid {enabled : Bool} {raw : V} {seen : SitesSeen}
    (ran : parseSites enabled raw = .ok seen) : seen.Valid enabled := by
  obtain ⟨items, _, ran⟩ := bind_eq_ok.mp ran
  have nothing : SitesSeen.Valid enabled {} :=
    ⟨rfl, rfl, rfl, List.nodup_nil, List.nodup_nil, List.nodup_nil, nofun⟩
  exact foldlM_keeps (fun _ _ _ valid step => valid.step step) nothing ran

end Sites

section Networks

variable {V : Type} [RawValue V]

theorem readSubnet_spec {name : String} {item : V} {subnet : Network} {gateway : Interface}
    (ran : readSubnet name item = .ok (subnet, gateway)) :
    subnet.contains gateway.address = true ∧ gateway.network = subnet := by
  unfold readSubnet at ran
  obtain ⟨subnet_raw, _, ran⟩ := bind_eq_ok.mp ran
  obtain ⟨gateway_raw, _, ran⟩ := bind_eq_ok.mp ran
  obtain ⟨_, _, ran⟩ := bind_eq_ok.mp ran
  dsimp only at ran
  split at ran
  · cases ran
  · split at ran
    · cases ran
    · obtain ⟨_, belongs, ran⟩ := bind_eq_ok.mp ran
      obtain ⟨_, prefixed, ran⟩ := bind_eq_ok.mp ran
      rw [refuse_eq_ok] at belongs prefixed
      cases ran
      exact ⟨not_not.mp fun outside => belongs (Or.inr outside),
        (Network.equal_iff _ _).mp (not_not.mp prefixed)⟩

theorem checkOverlaps_spec {name : String} {subnet : Network} {seen : List Network} {done : Unit}
    (ran : checkOverlaps name subnet seen = .ok done) :
    ∀ other ∈ seen, Disjoint subnet.addresses other.addresses := by
  unfold checkOverlaps at ran
  split at ran
  · rename_i none
    intro other member
    rw [Network.disjoint_iff, ← Bool.not_eq_true]
    exact List.find?_eq_none.mp none other member
  · cases ran

/-- The state of the loop over the networks. -/
structure NetworksSeen.Valid (seen : NetworksSeen) : Prop where
  vnis : seen.vnis = seen.networks.map fun network => (network.vni : Int)
  vlans : seen.vlans = seen.networks.map fun network => (network.vlan_id : Int)
  names : seen.names = seen.networks.map (·.name)
  subnets : seen.networks.map (·.subnet) = seen.subnets.map fun subnet => String.ofList subnet.text
  vnis_distinct : seen.vnis.Nodup
  vlans_distinct : seen.vlans.Nodup
  names_distinct : seen.names.Nodup
  subnets_disjoint : seen.subnets.Pairwise fun subnet other =>
    Disjoint subnet.addresses other.addresses
  bounded : ∀ network ∈ seen.networks,
    1 ≤ network.vlan_id ∧ network.vlan_id ≤ 4094 ∧ 1 ≤ network.vni ∧ network.vni ≤ 16777215
  gateways : ∀ network ∈ seen.networks, ∃ (subnet : Network) (gateway : Interface),
    network.subnet = String.ofList subnet.text ∧
      network.gateway_cidr = String.ofList gateway.text ∧
      subnet.contains gateway.address = true ∧ gateway.network = subnet

theorem NetworksSeen.Valid.step {seen after : NetworksSeen} {item : V} (valid : seen.Valid)
    (ran : networkStep seen item = .ok after) : after.Valid := by
  unfold networkStep at ran
  obtain ⟨vni, _, ran⟩ := bind_eq_ok.mp ran
  obtain ⟨vlan, _, ran⟩ := bind_eq_ok.mp ran
  obtain ⟨_, vni_bounded, ran⟩ := bind_eq_ok.mp ran
  obtain ⟨_, vlan_bounded, ran⟩ := bind_eq_ok.mp ran
  obtain ⟨_, vni_new, ran⟩ := bind_eq_ok.mp ran
  obtain ⟨_, vlan_new, ran⟩ := bind_eq_ok.mp ran
  obtain ⟨name, _, ran⟩ := bind_eq_ok.mp ran
  obtain ⟨_, name_new, ran⟩ := bind_eq_ok.mp ran
  obtain ⟨⟨subnet, gateway⟩, read, ran⟩ := bind_eq_ok.mp ran
  obtain ⟨_, apart, ran⟩ := bind_eq_ok.mp ran
  obtain ⟨mtu, _, ran⟩ := bind_eq_ok.mp ran
  obtain ⟨_, _, ran⟩ := bind_eq_ok.mp ran
  obtain ⟨enabled, _, ran⟩ := bind_eq_ok.mp ran
  rw [refuse_eq_ok] at vni_bounded vlan_bounded vni_new vlan_new name_new
  obtain ⟨belongs, same⟩ := readSubnet_spec read
  have disjoint := checkOverlaps_spec apart
  have vni_same : ((vni.toNat : Nat) : Int) = vni := Int.toNat_of_nonneg (by omega)
  have vlan_same : ((vlan.toNat : Nat) : Int) = vlan := Int.toNat_of_nonneg (by omega)
  rw [← Except.ok.inj ran]
  refine ⟨?_, ?_, ?_, ?_, nodup_concat valid.vnis_distinct vni_new,
    nodup_concat valid.vlans_distinct vlan_new, nodup_concat valid.names_distinct name_new,
    ?_, ?_, ?_⟩
  · simp [valid.vnis, vni_same]
  · simp [valid.vlans, vlan_same]
  · simp [valid.names]
  · simp [valid.subnets]
  · rw [List.pairwise_append]
    refine ⟨valid.subnets_disjoint, List.pairwise_singleton _ _, fun other member last listed => ?_⟩
    rw [List.mem_singleton.mp listed]
    exact (disjoint other member).symm
  · intro network member
    rcases List.mem_append.mp member with before | last
    · exact valid.bounded network before
    · rw [List.mem_singleton.mp last]
      dsimp only
      omega
  · intro network member
    rcases List.mem_append.mp member with before | last
    · exact valid.gateways network before
    · rw [List.mem_singleton.mp last]
      exact ⟨subnet, gateway, rfl, rfl, belongs, same⟩

theorem parseNetworks_valid {raw : V} {seen : NetworksSeen} (ran : parseNetworks raw = .ok seen) :
    seen.Valid := by
  obtain ⟨items, _, ran⟩ := bind_eq_ok.mp ran
  have nothing : NetworksSeen.Valid {} :=
    ⟨rfl, rfl, rfl, rfl, List.nodup_nil, List.nodup_nil, List.nodup_nil, List.Pairwise.nil,
      nofun, nofun⟩
  exact foldlM_keeps (fun _ _ _ valid step => valid.step step) nothing ran

end Networks

section Workloads

variable {V : Type} [RawValue V]

/-- The state of the loop over the workloads. -/
structure WorkloadsSeen.Valid (seen : WorkloadsSeen) : Prop where
  names : seen.names = seen.workloads.map (·.name)
  distinct : seen.names.Nodup

theorem WorkloadsSeen.Valid.step {seen after : WorkloadsSeen} {item : V} (valid : seen.Valid)
    (ran : workloadStep seen item = .ok after) : after.Valid := by
  unfold workloadStep at ran
  obtain ⟨name, _, ran⟩ := bind_eq_ok.mp ran
  obtain ⟨source, _, ran⟩ := bind_eq_ok.mp ran
  obtain ⟨target, _, ran⟩ := bind_eq_ok.mp ran
  obtain ⟨_, _, ran⟩ := bind_eq_ok.mp ran
  obtain ⟨_, fresh, ran⟩ := bind_eq_ok.mp ran
  obtain ⟨_, _, ran⟩ := bind_eq_ok.mp ran
  obtain ⟨_, _, ran⟩ := bind_eq_ok.mp ran
  obtain ⟨_, _, ran⟩ := bind_eq_ok.mp ran
  obtain ⟨_, _, ran⟩ := bind_eq_ok.mp ran
  obtain ⟨_, _, ran⟩ := bind_eq_ok.mp ran
  obtain ⟨_, _, ran⟩ := bind_eq_ok.mp ran
  obtain ⟨_, _, ran⟩ := bind_eq_ok.mp ran
  rw [refuse_eq_ok] at fresh
  rw [← Except.ok.inj ran]
  refine ⟨?_, nodup_concat valid.distinct fresh⟩
  simp [valid.names]

theorem parseWorkloads_valid {raw : V} {seen : WorkloadsSeen}
    (ran : parseWorkloads raw = .ok seen) : seen.Valid := by
  obtain ⟨items, _, ran⟩ := bind_eq_ok.mp ran
  have nothing : WorkloadsSeen.Valid {} := ⟨rfl, List.nodup_nil⟩
  exact foldlM_keeps (fun _ _ _ valid step => valid.step step) nothing ran

theorem parseWorkloads_distinct {raw : V} {seen : WorkloadsSeen}
    (ran : parseWorkloads raw = .ok seen) : (seen.workloads.map (·.name)).Nodup := by
  have valid := parseWorkloads_valid ran
  exact valid.names ▸ valid.distinct

end Workloads

section Whole

variable {V : Type} [RawValue V]

open RawValue

/-- The configuration of what has been read. -/
def assemble (raw : V) (enabled : Bool) (sites : SitesSeen) (networks : NetworksSeen)
    (workloads : {seen : WorkloadsSeen // (seen.workloads.map (·.name)).Nodup})
    (fence : FenceConfig) (probes : List HealthCheckConfig) (quorum : Int) :
    Except Exn DRConfiguration := do
  let primary_site ← textAt raw "primary_site" "primary"
  let dr_site ← textAt raw "dr_site" "dr"
  let replica ← textAt raw "replica" ""
  let rpo_max_minutes ← intAt raw "rpo_max_minutes" 1440
  let auto_failover ← boolAt raw "auto_failover" false
  let failure_threshold ← intAt raw "failure_threshold" 5
  let check_interval_seconds ← intAt raw "check_interval_seconds" 60
  let control_plane_site ← textAt raw "control_plane_site" ""
  let maintenance_file ← textAt raw "maintenance_file" "/var/lib/immutavault/dr-maintenance"
  return {
    enabled, primary_site, dr_site, replica, auto_failover, maintenance_file, fence
    rpo_max_minutes := (max 1 rpo_max_minutes).toNat
    failure_threshold := (max 2 failure_threshold).toNat
    check_interval_seconds := (max 30 check_interval_seconds).toNat
    control_plane_site := trimmed control_plane_site
    primary_failure_quorum := quorum.toNat
    primary_probes := probes
    sites := sites.sites
    networks := networks.networks.map (·.toDRNetworkConfig)
    entries := networks.networks
    networks_eq := rfl
    workloads := workloads.val.workloads
    workloads_distinct := workloads.property }

/-- Read the disaster recovery section of a configuration file. -/
def parseDr (given : V) : Except Exn DRConfiguration := do
  let raw := if ← truthy given then given else empty
  let enabled ← boolAt raw "enabled" false
  let sites ← parseSites enabled raw
  let networks ← parseNetworks raw
  let workloads ← certified (parseWorkloads raw) fun _ => parseWorkloads_distinct
  let fence ← parseFence raw
  let probes ← parseProbes raw
  let quorum ← parseQuorum raw probes
  let cfg ← assemble raw enabled sites networks workloads fence probes quorum
  if enabled then checkWhole cfg
  return cfg

/-- The addresses of a gateway, as its texts are read. -/
def vtepAddress (site : DRSiteConfig) : Option Address := ipAddress site.gateway.vtep_ip.toList

def routerAddress (site : DRSiteConfig) : Option Address := ipAddress site.gateway.router_id.toList

/-- The names of the interfaces that a network gets on a gateway. -/
def interfaceNames (network : NetworkEntry) : List String :=
  [bridgeName network.vlan_id, vxlanName network.vni, vlanName network.vlan_id]

/-- The sites of a configuration are told apart by their names and by their addresses. -/
structure SitesConsistent (cfg : DRConfiguration) : Prop where
  names : (cfg.sites.map (·.name)).Nodup
  vteps : (cfg.sites.map vtepAddress).Nodup
  vteps_given : ∀ site ∈ cfg.sites, (vtepAddress site).isSome
  router_ids : (cfg.sites.map routerAddress).Nodup
  router_ids_given : ∀ site ∈ cfg.sites, (routerAddress site).isSome

/-- The networks are told apart by all their numbers and names, their subnets have no address
in common, and each gateway has an address and the prefix of its own subnet. -/
structure NetworksConsistent (cfg : DRConfiguration) : Prop where
  vlans : (cfg.entries.map (·.vlan_id)).Nodup
  vnis : (cfg.entries.map (·.vni)).Nodup
  names : (cfg.entries.map (·.name)).Nodup
  subnets : cfg.entries.Pairwise fun network other => ∀ subnet another,
    ipNetwork network.subnet.toList = .ok subnet → ipNetwork other.subnet.toList = .ok another →
      Disjoint subnet.addresses another.addresses
  gateways : ∀ network ∈ cfg.entries, ∃ subnet gateway,
    ipNetwork network.subnet.toList = .ok subnet ∧
      ipInterface network.gateway_cidr.toList = some gateway ∧
      gateway.address ∈ subnet.addresses ∧ gateway.prefixlen = subnet.prefixlen
  interfaces : (cfg.entries.flatMap interfaceNames).Nodup
  interfaces_short : ∀ name ∈ cfg.entries.flatMap interfaceNames, name.length ≤ 15

/-- Primary and disaster recovery site are two of the sites. -/
structure PairConsistent (cfg : DRConfiguration) : Prop where
  primary : ∃ site ∈ cfg.sites, site.name = cfg.primary_site
  dr : ∃ site ∈ cfg.sites, site.name = cfg.dr_site
  different : cfg.primary_site ≠ cfg.dr_site

/-- What an automatic failover needs. -/
structure FailoverConsistent (cfg : DRConfiguration) : Prop where
  fence : cfg.fence.mode = .command
  verification : ∃ command, cfg.fence.verify_command_env = some command ∧ command ≠ ""
  probes : cfg.primary_probes ≠ []
  quorum : cfg.primary_failure_quorum ≤ cfg.primary_probes.length
  controller : cfg.control_plane_site ≠ cfg.primary_site

/-- A configuration that is enabled contradicts itself nowhere. -/
structure Consistent (cfg : DRConfiguration) : Prop where
  sites : SitesConsistent cfg
  networks : NetworksConsistent cfg
  workloads : (cfg.workloads.map (·.name)).Nodup
  pair : PairConsistent cfg
  failover : cfg.auto_failover = true → FailoverConsistent cfg

end Whole

section Sites

/-- Members that are told apart by what is determined by something else are told apart by
that. -/
theorem nodup_of_determines {α β γ : Type} {entries : List α} {first : α → β} {second : α → γ}
    (distinct : (entries.map first).Nodup)
    (determines : ∀ entry ∈ entries, ∀ other ∈ entries,
      second entry = second other → first entry = first other) :
    (entries.map second).Nodup := by
  rw [List.Nodup, List.pairwise_map] at distinct ⊢
  exact distinct.imp_of_mem fun member another different same =>
    different (determines _ member _ another same)

/-- A canonical text is read, and it is the text of what is read. -/
theorem IsAddress.read {text : String} (isAddress : IsAddress text) :
    ∃ address, ipAddress text.toList = some address ∧ text = String.ofList address.text := by
  obtain ⟨address, rfl⟩ := isAddress
  exact ⟨address, by rw [String.toList_ofList, ipAddress_text], rfl⟩

/-- Canonical texts are equal when they are read as the same address. -/
theorem eq_of_read {first second : String} (isAddress : IsAddress first)
    (other : IsAddress second) (same : ipAddress first.toList = ipAddress second.toList) :
    first = second := by
  obtain ⟨address, read, rfl⟩ := isAddress.read
  obtain ⟨another, again, rfl⟩ := other.read
  rw [read, again, Option.some.injEq] at same
  rw [same]

theorem nodup_required {texts seen : List String} (same : seen = texts.filter (· ≠ ""))
    (distinct : seen.Nodup) (required : ∀ text ∈ texts, text ≠ "") : texts.Nodup := by
  have all : texts.filter (· ≠ "") = texts :=
    List.filter_eq_self.mpr fun text member => decide_eq_true (required text member)
  rwa [same, all] at distinct

theorem SitesSeen.Valid.consistent {seen : SitesSeen} (valid : seen.Valid true)
    {cfg : DRConfiguration} (sites : cfg.sites = seen.sites) : SitesConsistent cfg := by
  have required := fun site member => (valid.identified site member).required rfl
  have vtep : ∀ site ∈ seen.sites, IsAddress site.gateway.vtep_ip := fun site member =>
    (valid.identified site member).tunnel (required site member).2.1
  have router_id : ∀ site ∈ seen.sites, IsAddress site.gateway.router_id := fun site member =>
    ((valid.identified site member).routing (required site member).2.2).isAddress
  have vteps := nodup_required valid.vteps valid.vteps_distinct (List.forall_mem_map.mpr
    fun site member => (required site member).2.1)
  have router_ids := nodup_required valid.router_ids valid.router_ids_distinct
    (List.forall_mem_map.mpr fun site member => (required site member).2.2)
  constructor <;> rw [sites]
  · exact valid.names ▸ valid.names_distinct
  · exact nodup_of_determines vteps fun site member other another same =>
      eq_of_read (vtep site member) (vtep other another) same
  · intro site member
    obtain ⟨address, read, _⟩ := (vtep site member).read
    exact Option.isSome_iff_exists.mpr ⟨address, read⟩
  · exact nodup_of_determines router_ids fun site member other another same =>
      eq_of_read (router_id site member) (router_id other another) same
  · intro site member
    obtain ⟨address, read, _⟩ := (router_id site member).read
    exact Option.isSome_iff_exists.mpr ⟨address, read⟩

end Sites

section Interfaces

theorem toString_text (text : String) : toString text = text := rfl

theorem toList_bridgeName (vlan : Nat) :
    (bridgeName vlan).toList = 'i' :: 'm' :: 'v' :: 'b' :: Nat.toDigits 10 vlan := by
  simp [bridgeName, toString_text]

theorem toList_vxlanName (vni : Nat) :
    (vxlanName vni).toList = 'i' :: 'm' :: 'v' :: 'x' :: Nat.toDigits 10 vni := by
  simp [vxlanName, toString_text]

theorem toList_vlanName (vlan : Nat) :
    (vlanName vlan).toList = 'i' :: 'm' :: 'v' :: 'a' :: Nat.toDigits 10 vlan := by
  simp [vlanName, toString_text]

theorem toDigits_injective {first second : Nat}
    (same : Nat.toDigits 10 first = Nat.toDigits 10 second) : first = second := by
  have values := congrArg (Nat.ofDigitChars 10 · 0) same
  simpa only [Nat.ofDigitChars_ten_toDigits] using values

/-- A name of an interface tells which kind it is, and of which number. -/
theorem eq_of_mem_interfaceNames {network other : NetworkEntry} {name : String}
    (member : name ∈ interfaceNames network) (another : name ∈ interfaceNames other) :
    network.vlan_id = other.vlan_id ∨ network.vni = other.vni := by
  simp only [interfaceNames, List.mem_cons, List.not_mem_nil, or_false] at member another
  rcases member with rfl | rfl | rfl <;> rcases another with equal | equal | equal <;>
    have letters := congrArg String.toList equal <;>
    simp only [toList_bridgeName, toList_vxlanName, toList_vlanName, List.cons.injEq, true_and]
      at letters
  · exact Or.inl (toDigits_injective letters)
  · exact absurd letters.1 (by decide)
  · exact absurd letters.1 (by decide)
  · exact absurd letters.1 (by decide)
  · exact Or.inr (toDigits_injective letters)
  · exact absurd letters.1 (by decide)
  · exact absurd letters.1 (by decide)
  · exact absurd letters.1 (by decide)
  · exact Or.inl (toDigits_injective letters)

theorem nodup_interfaceNames (network : NetworkEntry) : (interfaceNames network).Nodup := by
  have kinds : ∀ {first second : String}, first.toList ≠ second.toList → first ≠ second :=
    fun different same => different (congrArg String.toList same)
  have bridge : bridgeName network.vlan_id ≠ vxlanName network.vni := kinds (by
    simp [toList_bridgeName, toList_vxlanName])
  have trunk : bridgeName network.vlan_id ≠ vlanName network.vlan_id := kinds (by
    simp [toList_bridgeName, toList_vlanName])
  have tunnel : vxlanName network.vni ≠ vlanName network.vlan_id := kinds (by
    simp [toList_vxlanName, toList_vlanName])
  simp [interfaceNames, bridge, trunk, tunnel]

theorem length_interfaceName {network : NetworkEntry} (vlan : network.vlan_id ≤ 4094)
    (vni : network.vni ≤ 16777215) {name : String} (member : name ∈ interfaceNames network) :
    name.length ≤ 15 := by
  have vlan_digits : (Nat.toDigits 10 network.vlan_id).length ≤ 4 :=
    (Nat.length_toDigits_le_iff (by decide) (by decide)).mpr (by omega)
  have vni_digits : (Nat.toDigits 10 network.vni).length ≤ 8 :=
    (Nat.length_toDigits_le_iff (by decide) (by decide)).mpr (by omega)
  simp only [interfaceNames, List.mem_cons, List.not_mem_nil, or_false] at member
  rw [← String.length_toList]
  rcases member with rfl | rfl | rfl
  · rw [toList_bridgeName]
    simp only [List.length_cons]
    omega
  · rw [toList_vxlanName]
    simp only [List.length_cons]
    omega
  · rw [toList_vlanName]
    simp only [List.length_cons]
    omega

end Interfaces

section Results

variable {V : Type} [RawValue V]

theorem nodup_of_nodup_cast {entries : List NetworkEntry} {number : NetworkEntry → Nat}
    (distinct : (entries.map fun network => (number network : Int)).Nodup) :
    (entries.map number).Nodup :=
  nodup_of_determines distinct fun _ _ _ _ same => congrArg Int.ofNat same

/-- The subnets of the networks, read from their texts, are those that have been compared. -/
theorem pairwise_subnets {entries : List NetworkEntry} {subnets : List Network}
    (same : entries.map (·.subnet) = subnets.map fun subnet => String.ofList subnet.text)
    (disjoint : subnets.Pairwise fun subnet other => Disjoint subnet.addresses other.addresses) :
    entries.Pairwise fun network other => ∀ subnet another,
      ipNetwork network.subnet.toList = .ok subnet → ipNetwork other.subnet.toList = .ok another →
        Disjoint subnet.addresses another.addresses := by
  have texts : (subnets.map fun subnet => String.ofList subnet.text).Pairwise fun text other =>
      ∀ subnet another, ipNetwork text.toList = .ok subnet → ipNetwork other.toList = .ok another →
        Disjoint subnet.addresses another.addresses := by
    rw [List.pairwise_map]
    refine disjoint.imp fun apart subnet another first second => ?_
    rw [String.toList_ofList, ipNetwork_text] at first second
    cases first
    cases second
    exact apart
  rw [← same, List.pairwise_map] at texts
  exact texts

theorem NetworksSeen.Valid.consistent {seen : NetworksSeen} (valid : seen.Valid)
    {cfg : DRConfiguration} (entries : cfg.entries = seen.networks) : NetworksConsistent cfg := by
  have vlans : (seen.networks.map (·.vlan_id)).Nodup :=
    nodup_of_nodup_cast (valid.vlans ▸ valid.vlans_distinct)
  have vnis : (seen.networks.map (·.vni)).Nodup :=
    nodup_of_nodup_cast (valid.vnis ▸ valid.vnis_distinct)
  constructor <;> rw [entries]
  · exact vlans
  · exact vnis
  · exact valid.names ▸ valid.names_distinct
  · exact pairwise_subnets valid.subnets valid.subnets_disjoint
  · intro network member
    obtain ⟨subnet, gateway, text, cidr, belongs, same⟩ := valid.gateways network member
    refine ⟨subnet, gateway, ?_, ?_, belongs, ?_⟩
    · rw [text, String.toList_ofList, ipNetwork_text]
    · rw [cidr, String.toList_ofList, ipInterface_text]
    · rw [← same, Interface.network]
      split <;> rfl
  · rw [List.nodup_flatMap]
    refine ⟨fun network _ => nodup_interfaceNames network, ?_⟩
    rw [List.Nodup, List.pairwise_map] at vlans vnis
    refine (vlans.and vnis).imp fun different name member another => ?_
    rcases eq_of_mem_interfaceNames member another with vlan | vni
    · exact different.1 vlan
    · exact different.2 vni
  · intro name member
    obtain ⟨network, listed, name⟩ := List.mem_flatMap.mp member
    obtain ⟨_, vlan, _, vni⟩ := valid.bounded network listed
    exact length_interfaceName vlan vni name

/-- What has been checked of an enabled section as a whole. -/
theorem checkWhole_spec {cfg : DRConfiguration} {done : Unit} (ran : checkWhole cfg = .ok done) :
    PairConsistent cfg ∧ (cfg.auto_failover = true →
      cfg.control_plane_site ≠ cfg.primary_site ∧ cfg.primary_probes ≠ [] ∧
        cfg.fence.mode = .command ∧ ¬ blank cfg.fence.verify_command_env = true) := by
  unfold checkWhole at ran
  obtain ⟨_, configured, ran⟩ := bind_eq_ok.mp ran
  obtain ⟨_, different, ran⟩ := bind_eq_ok.mp ran
  obtain ⟨_, _, ran⟩ := bind_eq_ok.mp ran
  obtain ⟨_, _, ran⟩ := bind_eq_ok.mp ran
  obtain ⟨_, _, ran⟩ := bind_eq_ok.mp ran
  rw [refuse_eq_ok, not_or, not_not, not_not] at configured
  rw [refuse_eq_ok] at different
  refine ⟨⟨List.mem_map.mp configured.1, List.mem_map.mp configured.2, different⟩, ?_⟩
  intro automatic
  rw [if_pos automatic] at ran
  obtain ⟨_, _, ran⟩ := bind_eq_ok.mp ran
  obtain ⟨_, controller, ran⟩ := bind_eq_ok.mp ran
  obtain ⟨_, probes, ran⟩ := bind_eq_ok.mp ran
  obtain ⟨_, fence, verification⟩ := bind_eq_ok.mp ran
  rw [refuse_eq_ok] at controller probes fence verification
  exact ⟨controller, by simpa using probes, not_not.mp fence, verification⟩

theorem parseQuorum_spec {raw : V} {probes : List HealthCheckConfig} {quorum : Int}
    (ran : parseQuorum raw probes = .ok quorum) :
    probes ≠ [] → quorum.toNat ≤ probes.length := by
  unfold parseQuorum at ran
  obtain ⟨_, _, ran⟩ := bind_eq_ok.mp ran
  obtain ⟨_, _, ran⟩ := bind_eq_ok.mp ran
  obtain ⟨_, bounded, ran⟩ := bind_eq_ok.mp ran
  rw [refuse_eq_ok] at bounded
  cases ran
  intro several
  have few : ¬ (probes.length : Int) < quorum := fun more =>
    bounded ⟨by simpa using several, more⟩
  omega

/-- The configuration keeps what has been read. -/
theorem assemble_spec {raw : V} {enabled : Bool} {sites : SitesSeen} {networks : NetworksSeen}
    {workloads : {seen : WorkloadsSeen // (seen.workloads.map (·.name)).Nodup}}
    {fence : FenceConfig} {probes : List HealthCheckConfig} {quorum : Int} {cfg : DRConfiguration}
    (ran : assemble raw enabled sites networks workloads fence probes quorum = .ok cfg) :
    cfg.enabled = enabled ∧ cfg.sites = sites.sites ∧ cfg.entries = networks.networks ∧
      cfg.primary_probes = probes ∧ cfg.primary_failure_quorum = quorum.toNat := by
  unfold assemble at ran
  obtain ⟨_, _, ran⟩ := bind_eq_ok.mp ran
  obtain ⟨_, _, ran⟩ := bind_eq_ok.mp ran
  obtain ⟨_, _, ran⟩ := bind_eq_ok.mp ran
  obtain ⟨_, _, ran⟩ := bind_eq_ok.mp ran
  obtain ⟨_, _, ran⟩ := bind_eq_ok.mp ran
  obtain ⟨_, _, ran⟩ := bind_eq_ok.mp ran
  obtain ⟨_, _, ran⟩ := bind_eq_ok.mp ran
  obtain ⟨_, _, ran⟩ := bind_eq_ok.mp ran
  obtain ⟨_, _, ran⟩ := bind_eq_ok.mp ran
  cases ran
  exact ⟨rfl, rfl, rfl, rfl, rfl⟩

/-- Every section that is accepted and enabled is consistent. -/
theorem enabled_consistent (raw : V) (cfg : DRConfiguration) (accepted : parseDr raw = .ok cfg)
    (enabled : cfg.enabled = true) : Consistent cfg := by
  obtain ⟨_, _, ran⟩ := bind_eq_ok.mp accepted
  obtain ⟨on, _, ran⟩ := bind_eq_ok.mp ran
  obtain ⟨sites, read_sites, ran⟩ := bind_eq_ok.mp ran
  obtain ⟨networks, read_networks, ran⟩ := bind_eq_ok.mp ran
  obtain ⟨workloads, _, ran⟩ := bind_eq_ok.mp ran
  obtain ⟨fence, _, ran⟩ := bind_eq_ok.mp ran
  obtain ⟨probes, _, ran⟩ := bind_eq_ok.mp ran
  obtain ⟨quorum, read_quorum, ran⟩ := bind_eq_ok.mp ran
  obtain ⟨assembled, kept, ran⟩ := bind_eq_ok.mp ran
  obtain ⟨same_enabled, same_sites, same_entries, same_probes, same_quorum⟩ := assemble_spec kept
  obtain ⟨_, checked, ran⟩ : ∃ done : Unit, (if on then checkWhole assembled else pure ()) =
      .ok done ∧ assembled = cfg := by
    cases on with
    | true =>
      obtain ⟨done, checked, ran⟩ := bind_eq_ok.mp ran
      exact ⟨done, checked, Except.ok.inj ran⟩
    | false => exact ⟨(), rfl, Except.ok.inj ran⟩
  subst ran
  rw [same_enabled] at enabled
  subst enabled
  obtain ⟨pair, failover⟩ := checkWhole_spec checked
  refine ⟨(parseSites_valid read_sites).consistent same_sites,
    (parseNetworks_valid read_networks).consistent same_entries, assembled.workloads_distinct,
    pair, fun automatic => ?_⟩
  obtain ⟨controller, several, mode, verification⟩ := failover automatic
  refine ⟨mode, ?_, several, ?_, controller⟩
  · cases command : assembled.fence.verify_command_env with
    | none => exact absurd (by simp [blank, command]) verification
    | some text => exact ⟨text, rfl, fun empty => verification (by simp [blank, command, empty])⟩
  · rw [same_quorum, same_probes]
    exact parseQuorum_spec read_quorum (same_probes ▸ several)

/-- A section with two sites, two networks of both versions and an automatic failover. -/
def sample : Json := .obj [("enabled", .bool true), ("primary_site", .str "main"),
  ("dr_site", .str "dr"), ("replica", .str "r"), ("auto_failover", .bool true),
  ("control_plane_site", .str "dr"), ("primary_failure_quorum", .int 1),
  ("primary_probes", .arr [.obj [("host", .str "gw"), ("port", .int 22)]]),
  ("fence", .obj [("mode", .str "command"), ("command_env", .str "FENCE"),
    ("verify_command_env", .str "VERIFY")]),
  ("sites", .arr [
    .obj [("name", .str "main"), ("gateway", .obj [("host", .str "main-gw"),
      ("vtep_ip", .str "10.255.0.1"), ("router_id", .str "10.255.0.1")])],
    .obj [("name", .str "dr"), ("gateway", .obj [("host", .str "dr-gw"),
      ("vtep_ip", .str "fd00:0::2"), ("router_id", .str "10.255.0.2")])]]),
  ("networks", .arr [
    .obj [("name", .str "servers"), ("vlan_id", .int 48), ("vni", .int 10048),
      ("subnet", .str "10.14.48.0/24"), ("gateway_cidr", .str "10.14.48.1/24")],
    .obj [("vlan_id", .str "49"), ("vni", .int 10049),
      ("subnet", .str "fd00::/64"), ("gateway_cidr", .str "fd00::1/64")]]),
  ("workloads", .arr [.obj [("name", .str "vm"), ("source_platform", .str "p1"),
    ("target_platform", .str "p2")]])]

theorem sample_consistent : ∃ cfg, parseDr sample = .ok cfg ∧ Consistent cfg := by
  have enabled : (parseDr sample).toOption.map (·.enabled) = some true := by decide +kernel
  cases accepted : parseDr sample with
  | error error =>
    rw [accepted] at enabled
    cases enabled
  | ok cfg =>
    rw [accepted] at enabled
    exact ⟨cfg, rfl, enabled_consistent sample cfg accepted (Option.some.inj enabled)⟩

end Results

end Immutavault.DRConfigurations
