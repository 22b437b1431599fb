import Immutavault.DRNetwork
import Immutavault.Histories
import Immutavault.ShellLists

/-!
# What a deactivated gateway has withdrawn

Deactivating a site sends one line of shell to its gateway. For every network that is
handed over the line asks the router to stop announcing it, and takes the gateway address
from the bridge. Each of these commands may fail, and every pattern of successes and
failures is considered; how the script reaches the gateway is a parameter too.

The line is read here as the shell reads it, with every name and address quoted. Its last
command cannot fail, so the line always succeeds once it runs, and a deactivation is
reported whatever the router and the interfaces have answered.
-/

namespace Immutavault.Withdrawals

open Programs Values Machine Configuration Adapters DRNetwork Histories ShellLists

section Texts

theorem toString_text (text : String) : toString text = text := rfl

/-- A quoted text is one word of a script. -/
theorem spells_quote (text : String) : Spells (quote text).toList [.word text] := by
  unfold quote
  split
  · rename_i empty
    subst empty
    exact spells_singleQuoted []
  · rename_i filled
    split
    · rename_i safe
      have spelled : Spells text.toList [.word (String.ofList text.toList)] :=
        spells_plain (by simpa using filled) (List.all_eq_true.mp safe)
      rwa [String.ofList_toList] at spelled
    · have quoted : ("'" ++ String.join (text.toList.map fun character =>
          if character = '\'' then "'\"'\"'" else String.singleton character) ++ "'").toList =
            singleQuoted text.toList := by
        have each : ∀ character : Char, (if character = '\'' then "'\"'\"'"
            else String.singleton character).toList =
              if character = '\'' then ['\'', '"', '\'', '"', '\''] else [character] := by
          intro character
          split <;> simp
        simp [singleQuoted, String.toList_join, List.flatMap_map, each]
      rw [quoted]
      simpa using spells_singleQuoted text.toList

/-- The words of a call of the router's shell. -/
def vtyshWords (commands : List String) : List String :=
  "vtysh" :: commands.flatMap fun cmd => ["-c", cmd]

theorem spells_word {word : String} (filled : word ≠ "") (all : word.toList.all isPlain = true) :
    Spells word.toList [.word word] := by
  simpa using spells_plain (by simpa using filled) (List.all_eq_true.mp all)

theorem spells_vtysh {commands : List String} (filled : commands ≠ []) :
    Spells (vtysh commands).toList ((vtyshWords commands).map .word) := by
  have call : (vtysh commands).toList =
      [' '].intercalate ("vtysh".toList :: commands.map fun cmd =>
        "-c".toList ++ ([' '] ++ (quote cmd).toList)) := by
    rw [List.intercalate_cons_of_ne_nil (by simpa using filled)]
    simp [vtysh, String.toList_intercalate, List.map_map, Function.comp_def, toString_text]
  have words : (vtyshWords commands).map Token.word =
      ([.word "vtysh"] :: commands.map fun cmd => [.word "-c", .word cmd]).flatten := by
    simp [vtyshWords, List.flatMap_def, List.map_flatten, Function.comp_def]
  have each : List.Forall₂ Spells
      (commands.map fun cmd => "-c".toList ++ ([' '] ++ (quote cmd).toList))
      (commands.map fun cmd => [.word "-c", .word cmd]) := by
    rw [List.forall₂_map_left_iff, List.forall₂_map_right_iff, List.forall₂_same]
    intro cmd _
    exact spells_blank (spells_word (by decide) (by decide)) (spells_quote cmd)
  rw [call, words]
  exact spells_phrases (by simp) (.cons (spells_word (by decide) (by decide)) each)

/-- The name of a bridge is a word without quotes. -/
theorem spells_bridgeName (vlan : Nat) :
    Spells (bridgeName vlan).toList [.word (bridgeName vlan)] := by
  refine spells_word ?_ (List.all_eq_true.mpr fun character member => ?_)
  · intro empty
    simpa [bridgeName] using congrArg String.toList empty
  · have digits : (bridgeName vlan).toList = "imvb".toList ++ Nat.toDigits 10 vlan := by
      simp [bridgeName, toString_text]
    rw [digits, List.mem_append] at member
    rcases member with letter | digit
    · exact List.all_eq_true.mp (show "imvb".toList.all isPlain = true by decide) character letter
    · have numeral : character.isDigit = true :=
        Nat.isDigit_of_mem_toDigits (by decide) (by decide) digit
      simp [isPlain, Char.isAlphanum, numeral]

end Texts

/-- The commands that a site's gateway gives to its router to withdraw a network. -/
def withdrawalWords (g : DRGatewayConfig) (network : DRNetworkConfig) : List String :=
  vtyshWords ["configure terminal", s!"interface {bridgeName network.vlan_id}",
    s!"no ip ospf area {g.ospf_area}", "exit", "end", "write memory"]

def deletionWords (network : DRNetworkConfig) : List String :=
  ["ip", "address", "del", network.gateway_cidr, "dev", bridgeName network.vlan_id]

/-- What a script does for one network: the second command is masked by one that
succeeds. -/
def entries (g : DRGatewayConfig) (network : DRNetworkConfig) : Script :=
  [({ words := withdrawalWords g network }, []),
    ({ words := deletionWords network, redirects := [("2", "/dev/null")] },
      [{ words := ["true"] }])]

/-- The line of a deactivation. -/
def script (net : NetworkManager) (site : DRSiteConfig) : String :=
  "set -u; " ++ "; ".intercalate
    (net.enabledNetworks.flatMap (NetworkManager.deactivateCommands site.gateway)) ++ "\n"

section Reading

/-- The tokens of what is done for one network. -/
def parts (g : DRGatewayConfig) (network : DRNetworkConfig) : List (List Token) :=
  [(withdrawalWords g network).map .word,
    ((deletionWords network).map .word ++ [.redirect "2", .word "/dev/null"]) ++
      .alternative :: [.word "true"]]

theorem spells_parts (g : DRGatewayConfig) (network : DRNetworkConfig) :
    List.Forall₂ Spells ((NetworkManager.deactivateCommands g network).map String.toList)
      (parts g network) := by
  refine .cons (spells_vtysh (by simp)) (.cons ?_ .nil)
  have deletion : (s!"ip address del {quote network.gateway_cidr} dev {
      bridgeName network.vlan_id} 2>/dev/null || true").toList =
      [' '].intercalate ["ip".toList, "address".toList, "del".toList,
        (quote network.gateway_cidr).toList, "dev".toList, (bridgeName network.vlan_id).toList,
        "2>/dev/null".toList] ++ ([' ', '|', '|', ' '] ++ "true".toList) := by
    simp [toString_text]
  rw [deletion]
  refine spells_alternative ?_ (spells_word (by decide) (by decide))
  refine @spells_phrases _ [[.word "ip"], [.word "address"], [.word "del"],
    [.word network.gateway_cidr], [.word "dev"], [.word (bridgeName network.vlan_id)],
    [.redirect "2", .word "/dev/null"]] (by simp) ?_
  refine .cons (spells_word (by decide) (by decide)) (.cons (spells_word (by decide) (by decide))
    (.cons (spells_word (by decide) (by decide)) (.cons (spells_quote _)
    (.cons (spells_word (by decide) (by decide)) (.cons (spells_bridgeName _) (.cons ?_ .nil))))))
  exact ⟨[.redirect "2"], "/dev/null".toList, false, rfl, rfl⟩

theorem parse_parts (g : DRGatewayConfig) (network : DRNetworkConfig) :
    List.Forall₂ (fun part entry => parseEntry part = some entry) (parts g network)
      (entries g network) := by
  refine .cons ?_ (.cons ?_ .nil)
  · exact parseEntry_single (by simp)
      (parseCommand_words (show isCommandName "vtysh" = true by decide) _)
  · refine parseEntry_alternative (by simp) ?_ (parseCommand_words (by decide) [])
    have names : isCommandName "ip" = true := by decide
    simp [parseCommand, gathered, deletionWords, names]

/-- No part of a line contains a separator of lines. -/
theorem parts_unseparated (g : DRGatewayConfig) (network : DRNetworkConfig) :
    ∀ part ∈ parts g network, .semicolon ∉ part ∧ .newline ∉ part := by
  simp [parts]

/-- The option of the shell that the line begins with. -/
def strictly : ShellLists.Command × List ShellLists.Command := ({ words := ["set", "-u"] }, [])

theorem spells_strictly : Spells "set -u".toList [.word "set", .word "-u"] :=
  ⟨[.word "set"], "-u".toList, false, rfl, rfl⟩

theorem parse_strictly : parseEntry [.word "set", .word "-u"] = some strictly :=
  parseEntry_single (by simp) (parseCommand_words (by decide) ["-u"])

/-- Related lists of lists are related when they are joined. -/
theorem forall₂_flatMap {α β γ : Type} {related : β → γ → Prop} {first : α → List β}
    {second : α → List γ} (each : ∀ entry, List.Forall₂ related (first entry) (second entry))
    (given : List α) : List.Forall₂ related (given.flatMap first) (given.flatMap second) := by
  induction given with
  | nil => exact .nil
  | cons entry rest inductionHypothesis =>
    rw [List.flatMap_cons, List.flatMap_cons]
    exact List.rel_append (each entry) inductionHypothesis

/-- The line is read as what it does for every network, after the option of the shell. -/
theorem parse_script (net : NetworkManager) (site : DRSiteConfig) :
    (tokens (script net site).toList).bind parse =
      some (strictly :: net.enabledNetworks.flatMap (entries site.gateway)) := by
  have spelled := forall₂_flatMap (spells_parts site.gateway) net.enabledNetworks
  have parsed := forall₂_flatMap (parse_parts site.gateway) net.enabledNetworks
  have apart : ∀ part ∈ net.enabledNetworks.flatMap (parts site.gateway),
      .semicolon ∉ part ∧ .newline ∉ part := by
    intro part member
    obtain ⟨network, _, inside⟩ := List.mem_flatMap.mp member
    exact parts_unseparated site.gateway network part inside
  by_cases none_enabled : net.enabledNetworks = []
  · have bare : (script net site).toList = "set -u".toList ++ [';', ' ', '\n'] := by
      simp [script, none_enabled]
    rw [bare, tokens_closed spells_strictly, none_enabled]
    exact parse_closed (by simp) parse_strictly
  · have listed : net.enabledNetworks.flatMap (fun network =>
        (NetworkManager.deactivateCommands site.gateway network).map String.toList) ≠ [] := by
      cases enabled : net.enabledNetworks with
      | nil => exact absurd enabled none_enabled
      | cons network rest => simp [NetworkManager.deactivateCommands]
    have line : (script net site).toList = [';', ' '].intercalate ("set -u".toList ::
        net.enabledNetworks.flatMap fun network =>
          (NetworkManager.deactivateCommands site.gateway network).map String.toList) ++
            ['\n'] := by
      rw [List.intercalate_cons_of_ne_nil listed]
      simp [script, String.toList_intercalate, List.map_flatMap]
    rw [line, tokens_line (spells_list (by simp) (.cons spells_strictly spelled)), Option.bind_some]
    refine parse_line (by simp) ?_ (.cons parse_strictly parsed)
    intro part member
    rcases List.mem_cons.mp member with rfl | later
    · simp
    · exact apart part later

end Reading

/-- A gateway: the addresses of its interfaces, and the commands that ran on it with their
statuses. -/
structure Gateway where
  addresses : List (String × String)
  ran : List (List String × Nat) := []

/-- The interface and the address that a command deletes. -/
def deletion : List String → Option (String × String)
  | [ip, address, del, cidr, dev, device] =>
    if [ip, address, del, dev] = ["ip", "address", "del", "dev"] then some (device, cidr) else none
  | _ => none

/-- Commands of the shell itself. -/
def isBuiltin (words : List String) : Bool := words = ["set", "-u"] ∨ words = ["true"]

section Running

variable (pattern : Nat → Nat)

/-- Run a command of a script: the pattern says with which status each command in turn
ends. A deletion that succeeds leaves the interface without the address, and one that
fails leaves the addresses as they are. -/
def exec (command : ShellLists.Command) (gateway : Gateway) : Nat × Gateway :=
  if isBuiltin command.words then (0, gateway)
  else
    let status := pattern gateway.ran.length
    (status, {
      addresses := match deletion command.words with
        | some entry =>
          if status = 0 then gateway.addresses.filter fun other => other ≠ entry
          else gateway.addresses
        | none => gateway.addresses
      ran := gateway.ran ++ [(command.words, status)] })

/-- What the commands for one network leave behind. -/
def withdraw (g : DRGatewayConfig) (gateway : Gateway) (network : DRNetworkConfig) : Gateway :=
  let announced := pattern gateway.ran.length
  let deleted := pattern (gateway.ran.length + 1)
  { addresses :=
      if deleted = 0 then gateway.addresses.filter fun other =>
        other ≠ (bridgeName network.vlan_id, network.gateway_cidr)
      else gateway.addresses
    ran := gateway.ran ++
      [(withdrawalWords g network, announced), (deletionWords network, deleted)] }

theorem exec_withdrawal (g : DRGatewayConfig) (network : DRNetworkConfig) (gateway : Gateway) :
    exec pattern { words := withdrawalWords g network } gateway =
      (pattern gateway.ran.length, { gateway with
        ran := gateway.ran ++ [(withdrawalWords g network, pattern gateway.ran.length)] }) := by
  have plain : isBuiltin (withdrawalWords g network) = false := by
    simp [isBuiltin, withdrawalWords, vtyshWords]
  have other : deletion (withdrawalWords g network) = none := rfl
  simp [exec, plain, other]

theorem exec_deletion (network : DRNetworkConfig) (redirects : List (String × String))
    (gateway : Gateway) :
    exec pattern { words := deletionWords network, redirects } gateway =
      (pattern gateway.ran.length, {
        addresses := if pattern gateway.ran.length = 0 then gateway.addresses.filter fun other =>
            other ≠ (bridgeName network.vlan_id, network.gateway_cidr)
          else gateway.addresses
        ran := gateway.ran ++ [(deletionWords network, pattern gateway.ran.length)] }) := by
  have plain : isBuiltin (deletionWords network) = false := by
    simp [isBuiltin, deletionWords]
  have named : deletion (deletionWords network) =
      some (bridgeName network.vlan_id, network.gateway_cidr) := rfl
  simp [exec, plain, named]

theorem exec_true (gateway : Gateway) :
    exec pattern { words := ["true"] } gateway = (0, gateway) := by
  simp [exec, isBuiltin]

theorem exec_strictly (gateway : Gateway) :
    runEntry (exec pattern) strictly gateway = (0, gateway) := by
  simp [runEntry, strictly, exec, isBuiltin]

/-- The commands for one network end with success, whatever they did. -/
theorem run_entries (g : DRGatewayConfig) (network : DRNetworkConfig) (done : Nat × Gateway) :
    (entries g network).foldl (fun done entry => runEntry (exec pattern) entry done.2) done =
      (0, withdraw pattern g done.2 network) := by
  have masked : ∀ gateway, runEntry (exec pattern)
      (⟨deletionWords network, [("2", "/dev/null")]⟩, [⟨["true"], []⟩]) gateway =
        (0, (exec pattern ⟨deletionWords network, []⟩ gateway).2) := by
    intro gateway
    simp only [runEntry, List.foldl_cons, List.foldl_nil, exec_deletion, exec_true]
    split
    · rename_i deleted
      rw [deleted]
    · rfl
  rw [entries, List.foldl_cons, List.foldl_cons, List.foldl_nil, masked]
  simp [runEntry, exec_withdrawal, exec_deletion, withdraw]

/-- The line ends with success, and withdraws the networks one after another. -/
theorem run_script (net : NetworkManager) (site : DRSiteConfig) (gateway : Gateway) :
    shell (exec pattern) (script net site).toList gateway =
      (0, net.enabledNetworks.foldl (withdraw pattern site.gateway) gateway) := by
  have each : ∀ (networks : List DRNetworkConfig) (done : Nat × Gateway), done.1 = 0 →
      (networks.flatMap (entries site.gateway)).foldl
        (fun done entry => runEntry (exec pattern) entry done.2) done =
          (0, networks.foldl (withdraw pattern site.gateway) done.2) := by
    intro networks
    induction networks with
    | nil =>
      intro done succeeded
      exact Prod.ext succeeded rfl
    | cons network rest inductionHypothesis =>
      intro done _
      rw [List.flatMap_cons, List.foldl_append, run_entries, inductionHypothesis _ rfl]
      rfl
  rw [shell, parse_script]
  dsimp only
  rw [runScript, List.foldl_cons, exec_strictly, each _ _ rfl]

/-- What has run on a gateway stays recorded. -/
theorem ran_prefix (g : DRGatewayConfig) (networks : List DRNetworkConfig) (gateway : Gateway) :
    gateway.ran <+: (networks.foldl (withdraw pattern g) gateway).ran := by
  induction networks generalizing gateway with
  | nil => exact List.prefix_rfl
  | cons network rest inductionHypothesis =>
    exact (List.prefix_append _ _).trans (inductionHypothesis (withdraw pattern g gateway network))

theorem length_withdraw (g : DRGatewayConfig) (gateway : Gateway) (network : DRNetworkConfig) :
    (withdraw pattern g gateway network).ran.length = gateway.ran.length + 2 := by
  simp [withdraw]

/-- The commands of each network have run in their turn. -/
theorem ran_withdraw (g : DRGatewayConfig) {networks : List DRNetworkConfig} (gateway : Gateway)
    {index : Nat} {network : DRNetworkConfig} (listed : networks[index]? = some network) :
    (networks.foldl (withdraw pattern g) gateway).ran[gateway.ran.length + 2 * index]? =
      some (withdrawalWords g network, pattern (gateway.ran.length + 2 * index)) := by
  induction networks generalizing gateway index with
  | nil => cases listed
  | cons first rest inductionHypothesis =>
    cases index with
    | zero =>
      cases listed
      obtain ⟨later, same⟩ := ran_prefix pattern g rest (withdraw pattern g gateway network)
      rw [List.foldl_cons, ← same, List.getElem?_append_left (by rw [length_withdraw]; omega)]
      simp [withdraw]
    | succ index =>
      have onward := inductionHypothesis (withdraw pattern g gateway first) listed
      rw [length_withdraw] at onward
      have position : gateway.ran.length + 2 * (index + 1) =
          gateway.ran.length + 2 + 2 * index := by
        omega
      rw [List.foldl_cons, position]
      exact onward

/-- One network takes its address away, when the deletion succeeds. -/
theorem addresses_once (g : DRGatewayConfig) (gateway : Gateway) (network : DRNetworkConfig)
    (entry : String × String) :
    entry ∈ (withdraw pattern g gateway network).addresses ↔ entry ∈ gateway.addresses ∧
      (entry = (bridgeName network.vlan_id, network.gateway_cidr) →
        pattern (gateway.ran.length + 1) ≠ 0) := by
  unfold withdraw
  dsimp only
  split
  · rename_i deleted
    simp [deleted]
  · rename_i failed
    simp [failed]

/-- An address stays exactly when it was there and no deletion of it succeeded. -/
theorem addresses_withdraw (g : DRGatewayConfig) (networks : List DRNetworkConfig)
    (gateway : Gateway) (entry : String × String) :
    entry ∈ (networks.foldl (withdraw pattern g) gateway).addresses ↔
      entry ∈ gateway.addresses ∧ ∀ index network, networks[index]? = some network →
        entry = (bridgeName network.vlan_id, network.gateway_cidr) →
          pattern (gateway.ran.length + 2 * index + 1) ≠ 0 := by
  induction networks generalizing gateway with
  | nil => simp
  | cons first rest inductionHypothesis =>
    rw [List.foldl_cons, inductionHypothesis, addresses_once, length_withdraw]
    constructor
    · rintro ⟨⟨present, kept⟩, later⟩
      refine ⟨present, fun index network listed same => ?_⟩
      cases index with
      | zero =>
        cases listed
        exact kept same
      | succ index =>
        have onward := later index network listed same
        rwa [show gateway.ran.length + 2 * (index + 1) + 1 =
          gateway.ran.length + 2 + 2 * index + 1 by omega]
    · rintro ⟨present, all⟩
      refine ⟨⟨present, fun same => all 0 first rfl same⟩, fun index network listed same => ?_⟩
      have onward := all (index + 1) network listed same
      rwa [show gateway.ran.length + 2 * (index + 1) + 1 =
        gateway.ran.length + 2 + 2 * index + 1 by omega] at onward

end Running

/-- How a line reaches its gateway: it runs there, the connection ends with a status of its
own, or sending it raises. -/
inductive Delivery where
  | executed
  | lost (returncode : Int) (failed : returncode ≠ 0)
  | raised (error : Exn)

section Deactivation

variable (pattern : Nat → Nat) (before : List (String × String)) (delivery : Delivery)
  (env : Environment) (net : NetworkManager)

/-- A world in which the lines of deactivations reach a gateway with these addresses. -/
def reaching : Environment where
  answer := fun history external => match external with
    | .run (.gateway _ .deactivate _) _ (some text) =>
      match delivery with
      | .executed =>
        .ok { returncode := (shell (exec pattern) text.toList { addresses := before }).1 }
      | .lost returncode _ => .ok { returncode := returncode }
      | .raised error => .error error
    | other => env.answer history other
  elapsed := env.elapsed

/-- What the line of a deactivation leaves on its gateway. -/
def remaining (site : DRSiteConfig) : Gateway :=
  (shell (exec pattern) (script net site).toList { addresses := before }).2

/-- The network at a position is withdrawn: its router stopped announcing it, and its
address is gone from its bridge. -/
structure Withdrawn (g : DRGatewayConfig) (position : Nat) (network : DRNetworkConfig)
    (gateway : Gateway) : Prop where
  announcement : gateway.ran[2 * position]? = some (withdrawalWords g network, 0)
  address : (bridgeName network.vlan_id, network.gateway_cidr) ∉ gateway.addresses

/-- What a deactivation reports is so: when it reports an inactive site, or returns without
tolerating an unreachable gateway, every network that was handed over is withdrawn. -/
def Truthful (site : DRSiteConfig) (site_name : String) (tolerate_unreachable : Bool)
    (world : World) : Prop :=
  ∀ result after, run (reaching pattern before delivery env).handler
      (net.deactivate site_name false tolerate_unreachable) world = (.ok result, after) →
    result.get? "status" = some (.str "inactive") ∨ tolerate_unreachable = false →
    ∀ position network, net.enabledNetworks[position]? = some network →
      Withdrawn site.gateway position network (remaining pattern before net site)

variable {pattern before delivery env net} {site : DRSiteConfig} {site_name : String}

/-- A deactivation sends its line, and judges it by the returned status. -/
theorem deactivate_sends (found : net.site site_name = .ok site) (tolerate_unreachable : Bool) :
    net.deactivate site_name false tolerate_unreachable = (do
      let result ← runCommand (.gateway site.name .deactivate (net.wrap site)) []
        (some (script net site)) (¬ tolerate_unreachable)
      return [("status", .str (if result.returncode = 0 then "inactive" else "unreachable")),
        ("site", .str site_name)]) := by
  rw [NetworkManager.deactivate, found]
  rfl

/-- A line that runs is answered with success. -/
theorem deactivate_executed (found : net.site site_name = .ok site) (tolerate_unreachable : Bool)
    (world : World) : ∃ after, run (reaching pattern before .executed env).handler
      (net.deactivate site_name false tolerate_unreachable) world =
        (.ok [("status", .str "inactive"), ("site", .str site_name)], after) := by
  have answered : (reaching pattern before .executed env).answer world.log
      (.run (.gateway site.name .deactivate (net.wrap site)) [] (some (script net site))) =
        .ok { returncode := 0 } := by
    simp [reaching, run_script]
  have consulted : run (reaching pattern before .executed env).handler
      (request (.run (.gateway site.name .deactivate (net.wrap site)) []
        (some (script net site)))) world =
        (.ok { returncode := 0 }, ((reaching pattern before .executed env).handler
          (.request (.run (.gateway site.name .deactivate (net.wrap site)) []
            (some (script net site)))) world).2) :=
    Prod.ext answered rfl
  rw [deactivate_sends found, runCommand, run_bind, run_bind, consulted]
  dsimp only
  rw [if_neg (by simp)]
  exact ⟨_, rfl⟩

/-- A line that does not run is never answered with an inactive site, and with a result only
when that is tolerated. -/
theorem deactivate_undelivered (found : net.site site_name = .ok site)
    (undelivered : delivery ≠ .executed) {tolerate_unreachable : Bool} {world after : World}
    {result : Dict} (ran : run (reaching pattern before delivery env).handler
      (net.deactivate site_name false tolerate_unreachable) world = (.ok result, after)) :
    result.get? "status" ≠ some (.str "inactive") ∧ tolerate_unreachable = true := by
  rw [deactivate_sends found] at ran
  obtain ⟨answer, middle, asked, returned⟩ := (run_bind_eq_ok _).mp ran
  cases returned
  rw [runCommand] at asked
  obtain ⟨given, answered, rest⟩ := run_request_bind asked
  cases delivery with
  | executed => exact absurd rfl undelivered
  | raised error => cases answered
  | lost returncode failed =>
    cases answered
    cases tolerate_unreachable with
    | false =>
      rw [if_pos ⟨by simp, failed⟩] at rest
      cases rest
    | true =>
      rw [if_neg (by simp)] at rest
      cases rest
      simp [Dict.get?, failed]

/-- What the line leaves, network by network. -/
theorem withdrawn_iff {position : Nat} {network : DRNetworkConfig}
    (listed : net.enabledNetworks[position]? = some network) :
    Withdrawn site.gateway position network (remaining pattern before net site) ↔
      pattern (2 * position) = 0 ∧
        ((bridgeName network.vlan_id, network.gateway_cidr) ∈ before →
          ∃ (index : Nat) (other : DRNetworkConfig), net.enabledNetworks[index]? = some other ∧
            (bridgeName network.vlan_id, network.gateway_cidr) =
              (bridgeName other.vlan_id, other.gateway_cidr) ∧
            pattern (2 * index + 1) = 0) := by
  have left : remaining pattern before net site =
      net.enabledNetworks.foldl (withdraw pattern site.gateway) { addresses := before } := by
    rw [remaining, run_script]
  have announced := ran_withdraw pattern site.gateway { addresses := before } listed
  have kept := addresses_withdraw pattern site.gateway net.enabledNetworks { addresses := before }
    (bridgeName network.vlan_id, network.gateway_cidr)
  simp only [List.length_nil, Nat.zero_add] at announced kept
  rw [← left] at announced kept
  constructor
  · rintro ⟨announcement, address⟩
    rw [announced] at announcement
    refine ⟨congrArg Prod.snd (Option.some.inj announcement), fun present => ?_⟩
    by_contra remains
    refine address (kept.mpr ⟨present, fun index other there same deleted => ?_⟩)
    exact remains ⟨index, other, there, same, deleted⟩
  · rintro ⟨succeeded, deleted⟩
    refine ⟨announced.trans (by rw [succeeded]), fun stays => ?_⟩
    obtain ⟨present, all⟩ := kept.mp stays
    obtain ⟨index, other, there, same, success⟩ := deleted present
    exact all index other there same success

/-- A deactivation is truthful exactly when its line does not run, or for every network that
is handed over the command for the router succeeds and, if the address is configured, a
deletion of it does. -/
theorem deactivate_truthful_iff (found : net.site site_name = .ok site)
    (tolerate_unreachable : Bool) (world : World) :
    Truthful pattern before delivery env net site site_name tolerate_unreachable world ↔
      delivery ≠ .executed ∨ ∀ position network, net.enabledNetworks[position]? = some network →
        pattern (2 * position) = 0 ∧
        ((bridgeName network.vlan_id, network.gateway_cidr) ∈ before →
          ∃ (index : Nat) (other : DRNetworkConfig), net.enabledNetworks[index]? = some other ∧
            (bridgeName network.vlan_id, network.gateway_cidr) =
              (bridgeName other.vlan_id, other.gateway_cidr) ∧
            pattern (2 * index + 1) = 0) := by
  constructor
  · intro truthful
    by_cases executed : delivery = .executed
    · subst executed
      obtain ⟨after, ran⟩ := deactivate_executed found tolerate_unreachable world
      refine Or.inr fun position network listed =>
        (@withdrawn_iff pattern before net site position network listed).mp ?_
      exact truthful _ after ran (Or.inl rfl) position network listed
    · exact Or.inl executed
  · rintro (undelivered | all) result after ran reported position network listed
    · obtain ⟨active, tolerated⟩ := deactivate_undelivered found undelivered ran
      rcases reported with inactive | untolerated
      · exact absurd inactive active
      · exact absurd (tolerated.symm.trans untolerated) (by decide)
    · exact (withdrawn_iff listed).mpr (all position network listed)

end Deactivation

section Swallowed

/-- Two sites with one network between them. -/
def pair : NetworkManager where
  cfg := {
    sites := [{ name := "primary", gateway := { host := "gw1" } },
      { name := "dr", gateway := { host := "gw2" } }]
    networks := [{ vlan_id := 48, vni := 1048, gateway_cidr := "10.14.48.1/21" }]
    workloads_distinct := no_workloads_distinct }

def recovery : DRSiteConfig := { name := "dr", gateway := { host := "gw2" } }

/-- The address that the recovery site answers for. -/
def served : List (String × String) := [("imvb48", "10.14.48.1/21")]

/-- When both commands succeed, the report is truthful. -/
theorem truthful_succeeding : Truthful (fun _ => 0) served .executed .obliging pair recovery "dr"
    false ⟨{}, 0, []⟩ :=
  (deactivate_truthful_iff rfl false ⟨{}, 0, []⟩).mpr (Or.inr fun position network listed =>
    ⟨rfl, fun _ => ⟨position, network, listed, rfl, rfl⟩⟩)

/-- When both fail, the site is reported inactive, the router was not persuaded, and the
address is still on the bridge. -/
theorem untruthful_failing :
    (∃ after, run (reaching (fun _ => 1) served .executed .obliging).handler
      (pair.deactivate "dr" false false) ⟨{}, 0, []⟩ =
        (.ok [("status", .str "inactive"), ("site", .str "dr")], after)) ∧
    (remaining (fun _ => 1) served pair recovery).addresses = served ∧
    ¬ Truthful (fun _ => 1) served .executed .obliging pair recovery "dr" false ⟨{}, 0, []⟩ := by
  have reported := @deactivate_executed (fun _ => 1) served .obliging pair recovery "dr" rfl false
    ⟨{}, 0, []⟩
  have stays : (remaining (fun _ => 1) served pair recovery).addresses = served := by
    rw [remaining, run_script]
    rfl
  refine ⟨reported, stays, fun truthful => ?_⟩
  obtain ⟨after, ran⟩ := reported
  have withdrawn := truthful _ after ran (Or.inl rfl) 0 _ rfl
  refine withdrawn.address ?_
  rw [stays]
  exact List.mem_singleton.mpr rfl

end Swallowed

end Immutavault.Withdrawals
