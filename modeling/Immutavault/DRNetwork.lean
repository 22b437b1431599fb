import Immutavault.Adapters

/-!
# The gateways of the two sites

Each site has one Linux gateway that stretches the protected networks to the
other site and announces them. A manager renders what a gateway has to do as a
shell script and sends it over standard input. Preparing a site stretches its
networks and sets up routing, activating it moves the gateway addresses there
and announces them, and deactivating it withdraws both.

Only a deactivation may be told to tolerate a gateway that cannot be reached;
every other script has to exit with zero.
-/

namespace Immutavault.DRNetwork

open Programs Values Machine Configuration ResticRepository Adapters

/-- The configured pair of sites, and the environment of the process. -/
structure NetworkManager where
  cfg : DRConfig
  getenv : Environ := fun _ => none

/-- The characters that count as white space in a key. -/
def isSpace (character : Char) : Bool :=
  let code := character.toNat
  (9 ≤ code ∧ code ≤ 13) ∨ (28 ≤ code ∧ code ≤ 32) ∨ code = 0x85 ∨ code = 0xa0 ∨ code = 0x1680 ∨
    (0x2000 ≤ code ∧ code ≤ 0x200a) ∨ code = 0x2028 ∨ code = 0x2029 ∨ code = 0x202f ∨
    code = 0x205f ∨ code = 0x3000

/-- The last characters of a text. -/
def lastCharacters (count : Nat) (text : String) : String :=
  String.ofList (text.toList.drop (text.toList.length - count))

/-- The commands that stretch the networks of a site. -/
structure NetworkPlan where
  site : String
  peer : String
  vtep : String
  peer_vtep : String
  commands : List String

def NetworkPlan.report (plan : NetworkPlan) : Dict :=
  [("site", .str plan.site), ("peer", .str plan.peer), ("vtep", .str plan.vtep),
    ("peer_vtep", .str plan.peer_vtep), ("commands", .arr (plan.commands.map .str))]

/-- What the validation of a gateway reports. -/
structure GatewayReport where
  site : String
  peer : String
  ok : Bool
  error : String

def bridgeName (vlan : Nat) : String := s!"imvb{vlan}"

def vxlanName (vni : Nat) : String := s!"imvx{vni}"

def vlanName (vlan : Nat) : String := s!"imva{vlan}"

/-- The address of an interface; its canonical text ends in the length of the prefix. -/
def interfaceAddress (cidr : String) : String := String.ofList (cidr.toList.takeWhile (· ≠ '/'))

def vtysh (commands : List String) : String :=
  "vtysh " ++ " ".intercalate (commands.map fun cmd => s!"-c {quote cmd}")

namespace NetworkManager

variable (net : NetworkManager)

def site (name : String) : Except Exn DRSiteConfig :=
  match net.cfg.sites.find? fun site => site.name = name with
  | some site => .ok site
  | none => .error ⟨.valueError, s!"unknown DR site: {name}"⟩

def peer (name : String) : Except Exn DRSiteConfig :=
  if name = net.cfg.primary_site then net.site net.cfg.dr_site
  else if name = net.cfg.dr_site then net.site net.cfg.primary_site
  else .error ⟨.valueError, s!"site {name} is not part of the configured DR pair"⟩

/-- The networks that are handed over. -/
def enabledNetworks : List DRNetworkConfig := net.cfg.networks.filter (·.enabled)

/-- How a site's gateway is reached. -/
def wrap (site : DRSiteConfig) : List String :=
  let g := site.gateway
  if g.isLocal then ["bash", "-s"]
  else
    let target := match g.ssh_user.filter (· ≠ "") with
      | some user => s!"{user}@{g.host}"
      | none => g.host
    let key := match setting net.getenv "IMMUTAVAULT_SSH_KEY" with
      | some key => ["-i", key]
      | none => []
    ["ssh", "-o", "BatchMode=yes", "-o", "StrictHostKeyChecking=yes"] ++ key ++
      [target, "bash", "-s"]

/-- Send a script to a gateway on standard input. -/
def runScript (site : DRSiteConfig) (action : GatewayAction) (script : String) (check : Bool) :
    Prog CommandResult :=
  runCommand (.gateway site.name action (net.wrap site)) [] (some (script ++ "\n")) check

/-- Validate a gateway without changing anything on it. -/
def preflight (site_name : String) : Prog GatewayReport := do
  let site ← raised (net.site site_name)
  let peer ← raised (net.peer site_name)
  let g := site.gateway
  let commands := ["command -v ip", "command -v bridge", "command -v vtysh",
    s!"ip link show {quote g.underlay_interface} >/dev/null",
    s!"ip link show {quote g.trunk_interface} >/dev/null",
    s!"ip route get {quote peer.gateway.vtep_ip} >/dev/null",
    "vtysh -c 'show version' >/dev/null"]
  let result ← net.runScript site .preflight
    ("set -euo pipefail; " ++ "; ".intercalate commands) false
  return {
    site := site_name, peer := peer.name, ok := result.returncode = 0
    error := lastCharacters 2000 (stripped result.stderr) }

/-- The commands that stretch one network between two gateways. -/
def stretchCommands (g peer : DRGatewayConfig) (network : DRNetworkConfig) : List String :=
  let br := bridgeName network.vlan_id
  let vx := vxlanName network.vni
  let vlanif := vlanName network.vlan_id
  [s!"ip link show {br} >/dev/null 2>&1 || ip link add {br} type bridge",
    s!"ip link show {vlanif} >/dev/null 2>&1 || ip link add link {g.trunk_interface} name {
      vlanif} type vlan id {network.vlan_id}",
    s!"ip link show {vx} >/dev/null 2>&1 || ip link add {vx} type vxlan id {network.vni} local {
      g.vtep_ip} remote {peer.vtep_ip} dev {g.underlay_interface} dstport 4789 nolearning",
    s!"ip link set {vlanif} master {br}", s!"ip link set {vx} master {br}",
    s!"ip link set {vlanif} mtu {network.mtu}", s!"ip link set {vx} mtu {network.mtu}",
    s!"ip link set {br} mtu {network.mtu}", s!"ip link set {vlanif} up", s!"ip link set {vx} up",
    s!"ip link set {br} up"]

def plan (site_name : String) : Except Exn NetworkPlan := do
  let site ← net.site site_name
  let peer ← net.peer site_name
  return {
    site := site.name, peer := peer.name, vtep := site.gateway.vtep_ip
    peer_vtep := peer.gateway.vtep_ip
    commands := net.enabledNetworks.flatMap (stretchCommands site.gateway peer.gateway) }

/-- The authentication of the routing protocol, when a key is configured. -/
def ospfAuthentication (g : DRGatewayConfig) : Except Exn (List String) :=
  match g.ospf_auth_key_env.filter (· ≠ "") with
  | none => .ok []
  | some key_env =>
    match setting net.getenv key_env with
    | none => .error ⟨.runtimeError, s!"missing OSPF auth environment variable {key_env}"⟩
    | some secret =>
      if 16 < secret.utf8ByteSize ∨ secret.toList.any isSpace then
        .error ⟨.runtimeError,
          "OSPF message-digest key must be a non-whitespace value of at most 16 bytes"⟩
      else .ok ["ip ospf authentication message-digest",
        s!"ip ospf message-digest-key {g.ospf_auth_key_id} md5 {secret}"]

def prepare (site_name : String) (dry_run : Bool) : Prog Dict := do
  let site ← raised (net.site site_name)
  let peer ← raised (net.peer site_name)
  let g := site.gateway
  if dry_run then
    let plan ← raised (net.plan site_name)
    return plan.report
  else
    let checks ← net.runScript site .check
      "command -v ip && command -v vtysh && command -v bridge" false
    if checks.returncode ≠ 0 then
      raiseRuntimeError s!"DR gateway {site.name} requires iproute2, bridge and FRR/vtysh"
    else
      let plan ← raised (net.plan site_name)
      let _ ← net.runScript site .stretch
        ("; ".intercalate ("set -euo pipefail" :: plan.commands)) true
      let auth ← raised (net.ospfAuthentication g)
      let vty := ["configure terminal", "router ospf", s!"ospf router-id {g.router_id}", "exit",
        s!"interface {g.underlay_interface}", s!"ip ospf area {g.ospf_area}",
        s!"ip ospf cost {g.ospf_cost}"] ++ auth ++ ["exit", "end", "write memory"]
      let _ ← net.runScript site .announce (vtysh vty) true
      return [("status", .str "prepared"), ("site", .str site.name), ("peer", .str peer.name)]

/-- The commands that bring one network's gateway address to a site. -/
def activateCommands (g : DRGatewayConfig) (network : DRNetworkConfig) : List String :=
  let br := bridgeName network.vlan_id
  let cidr := quote network.gateway_cidr
  [s!"ip address show dev {br} | grep -Fq {cidr} || ip address add {cidr} dev {br}",
    s!"command -v arping >/dev/null 2>&1 && arping -U -c 3 -I {br} {
      interfaceAddress network.gateway_cidr} >/dev/null 2>&1 || true",
    vtysh ["configure terminal", s!"interface {br}", s!"ip ospf area {g.ospf_area}",
      "ip ospf passive", "exit", "end", "write memory"]]

def activate (site_name : String) (dry_run : Bool) : Prog Dict := do
  let site ← raised (net.site site_name)
  let actions := net.enabledNetworks.flatMap (activateCommands site.gateway)
  if dry_run then
    return [("site", .str site_name), ("action", .str "activate"),
      ("commands", .arr (actions.map .str))]
  else
    let _ ← net.runScript site .activate
      ("set -euo pipefail; " ++ "; ".intercalate actions) true
    return [("status", .str "active"), ("site", .str site_name)]

/-- The commands that withdraw one network from a site. -/
def deactivateCommands (g : DRGatewayConfig) (network : DRNetworkConfig) : List String :=
  let br := bridgeName network.vlan_id
  [vtysh ["configure terminal", s!"interface {br}", s!"no ip ospf area {g.ospf_area}", "exit",
      "end", "write memory"],
    s!"ip address del {quote network.gateway_cidr} dev {br} 2>/dev/null || true"]

def deactivate (site_name : String) (dry_run tolerate_unreachable : Bool) : Prog Dict := do
  let site ← raised (net.site site_name)
  let actions := net.enabledNetworks.flatMap (deactivateCommands site.gateway)
  if dry_run then
    return [("site", .str site_name), ("action", .str "deactivate"),
      ("commands", .arr (actions.map .str))]
  else
    let result ← net.runScript site .deactivate
      ("set -u; " ++ "; ".intercalate actions) (¬ tolerate_unreachable)
    return [("status", .str (if result.returncode = 0 then "inactive" else "unreachable")),
      ("site", .str site_name)]

section Footprints

variable {net}

/-- A site is found under its own name. -/
theorem site_name {name : String} {site : DRSiteConfig} (found : net.site name = .ok site) :
    site.name = name := by
  unfold NetworkManager.site at found
  split at found
  · rename_i present
    cases found
    simpa using List.find?_some present
  · cases found

/-- A script acts on the gateway of its site only. -/
theorem footprint_runScript {name : String} {site : DRSiteConfig}
    (found : net.site name = .ok site) (action : GatewayAction) (script : String) (check : Bool)
    {effects : List Effect} (listed : .ofGateway name action ∈ effects) :
    Footprint effects (net.runScript site action script check) := by
  refine footprint_runCommand ?_
  simpa [Command.effect, site_name found] using listed

theorem footprint_preflight (site_name : String) :
    Footprint [.ofGateway site_name .preflight] (net.preflight site_name) := by
  refine footprint_given fun site found => ?_
  refine footprint_bind (footprint_raised _) fun peer => ?_
  exact footprint_bind (footprint_runScript found _ _ _ (by simp)) fun _ => footprint_pure _

theorem footprint_prepare (site_name : String) (dry_run : Bool) :
    Footprint [.ofGateway site_name .check, .ofGateway site_name .stretch,
      .ofGateway site_name .announce] (net.prepare site_name dry_run) := by
  refine footprint_given fun site found => ?_
  refine footprint_bind (footprint_raised _) fun peer => ?_
  dsimp only
  split
  · exact footprint_bind (footprint_raised _) fun _ => footprint_pure _
  · refine footprint_bind (footprint_runScript found _ _ _ (by simp)) fun checks => ?_
    split
    · exact footprint_throw _
    · refine footprint_bind (footprint_raised _) fun plan => ?_
      refine footprint_bind (footprint_runScript found _ _ _ (by simp)) fun _ => ?_
      refine footprint_bind (footprint_raised _) fun auth => ?_
      exact footprint_bind (footprint_runScript found _ _ _ (by simp)) fun _ => footprint_pure _

theorem footprint_activate (site_name : String) (dry_run : Bool) :
    Footprint [.ofGateway site_name .activate] (net.activate site_name dry_run) := by
  refine footprint_given fun site found => ?_
  dsimp only
  split
  · exact footprint_pure _
  · exact footprint_bind (footprint_runScript found _ _ _ (by simp)) fun _ => footprint_pure _

theorem footprint_deactivate (site_name : String) (dry_run tolerate_unreachable : Bool) :
    Footprint [.ofGateway site_name .deactivate]
      (net.deactivate site_name dry_run tolerate_unreachable) := by
  refine footprint_given fun site found => ?_
  dsimp only
  split
  · exact footprint_pure _
  · exact footprint_bind (footprint_runScript found _ _ _ (by simp)) fun _ => footprint_pure _

end Footprints

end NetworkManager

end Immutavault.DRNetwork
