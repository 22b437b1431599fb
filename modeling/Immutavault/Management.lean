import Mathlib.Data.List.Dedup
import Immutavault.ProtectionPolicies
import Immutavault.Tenancy

/-!
# The management section of the configuration

The management section names the protection policies and the networks that recovery
tests may use. Loading it checks every entry against the core configuration and
stops at the first one that is wrong.

What an accepted section guarantees is a field of the accepted configuration. A
policy selects every platform at most once and only configured ones, it selects
machines by names without pattern signs, and it names enabled replicas only.
-/

namespace Immutavault.Management

open Values Configuration GlobPatterns ProtectionPolicies Tenancy ResticRepository Adapters

structure ManagementConfig where
  enabled : Bool := true
  broker_socket : String := "/run/immutavault/manage.sock"
  policies : List ProtectionPolicy := []
  dr_test_networks : List (String × List String) := []
  dr_test_boot_seconds : Nat := 30
  dr_test_auto_cleanup : Bool := true

/-- The networks of a platform that recovery tests may use. -/
def ManagementConfig.networksOf (management : ManagementConfig) (platform : String) :
    List String :=
  (management.dr_test_networks.lookup platform).getD []

/-- A policy that loading has accepted. -/
structure PolicyAccepted (core : Config) (policy : ProtectionPolicy) : Prop where
  platforms_known : ∀ row ∈ policy.selections, row.platform ∈ core.platforms.map (·.name)
  platforms_distinct : (policy.selections.map (·.platform)).Nodup
  selects : policy.selections ≠ []
  exact : ∀ row ∈ policy.selections, row.vms ≠ [] ∧ row.vms.Nodup ∧
    ∀ vm ∈ row.vms, vm ≠ "" ∧ ∀ character ∈ vm.toList, Plain character
  replicas_known : ∀ name ∈ policy.replica_targets,
    ∃ replica ∈ core.replicas, replica.name = name ∧ replica.enabled = true
  days : 1 ≤ policy.immutable_days ∧ policy.immutable_days ≤ 3650

/-- A management section that loading has accepted. -/
structure Accepted (core : Config) (management : ManagementConfig) : Prop where
  policies : ∀ policy ∈ management.policies, PolicyAccepted core policy
  ids_distinct : (management.policies.map (·.id)).Nodup
  networks : ∀ entry ∈ management.dr_test_networks,
    entry.1 ∈ core.platforms.map (·.name) ∧ entry.2 ≠ []
  boot_seconds : 5 ≤ management.dr_test_boot_seconds ∧ management.dr_test_boot_seconds ≤ 900

structure V11Config where
  enterprise : EnterpriseConfig
  management : ManagementConfig
  accepted : Accepted enterprise.core management

def V11Config.core (cfg : V11Config) : Config := cfg.enterprise.core

section Loading

variable (core : Config)

def valueError {α : Type} (message : String) : Except Exn α := .error ⟨.valueError, message⟩

/-- The mapping under an entry; a missing or empty entry is an empty mapping. -/
def mappingOf (value : Option Json) (complaint : String) : Except Exn Dict :=
  match value with
  | some (.obj fields) => .ok fields
  | some other => if other.truthy then valueError complaint else .ok []
  | none => .ok []

/-- The fields of a row. -/
def fieldsOf (row : Json) (complaint : String) : Except Exn Dict :=
  match row with
  | .obj fields => .ok fields
  | _ => valueError complaint

/-- The rows of an entry; a missing or empty entry has none. -/
def rowsOf (value : Option Json) : Except Exn (List Json) :=
  match value with
  | some given => if given.truthy then asItems given else .ok []
  | none => .ok []

/-- The rows of an entry that may be a single text; anything else that is no list is refused. -/
def textRows (value : Option Json) : Option (List Json) :=
  match value with
  | some (.str text) => if text = "" then some [] else some [.str text]
  | some (.arr rows) => some rows
  | some other => if other.truthy then none else some []
  | none => some []

/-- The texts of rows without white space at their ends; empty ones are dropped. -/
def trimmedTexts (rows : List Json) : List String :=
  (rows.map fun row => trimmed row.toText).filter (· ≠ "")

/-- The text of an entry that is present, or a default. -/
def presentText (fields : Dict) (key default : String) : String :=
  ((fields.get? key).getD (.str default)).toText

def boundedInt (value : Json) (name : String) (minimum maximum : Nat) : Except Exn Nat := do
  let parsed ← value.toInt
  if (minimum : Int) ≤ parsed ∧ parsed ≤ maximum then .ok parsed.toNat
  else valueError s!"{name} must be between {minimum} and {maximum}"

def isLowerAlnum (character : Char) : Bool :=
  ('a' ≤ character ∧ character ≤ 'z') ∨ ('0' ≤ character ∧ character ≤ '9')

/-- An identifier: a letter or digit, and at most 63 more characters. -/
def isPolicyId (text : String) : Bool :=
  match text.toList with
  | [] => false
  | first :: rest => isLowerAlnum first ∧ rest.length ≤ 63 ∧
      rest.all fun character => isLowerAlnum character ∨ character ∈ ['.', '_', '-']

/-- A time of day in hours and minutes. -/
def isClock (text : String) : Bool :=
  match text.toList with
  | [tens, ones, ':', minutes, more] =>
    ((tens ∈ ['0', '1'] ∧ (decimalValue ones).isSome) ∨
        (tens = '2' ∧ ones ∈ ['0', '1', '2', '3'])) ∧
      minutes ∈ ['0', '1', '2', '3', '4', '5'] ∧ (decimalValue more).isSome
  | _ => false

def policyIdPattern : String := "^[a-z0-9][a-z0-9._-]\x7b0,63\x7d$"

def weekdayNames : List String := ["mon", "tue", "wed", "thu", "fri", "sat", "sun"]

def frequencyOf (text : String) : Option Frequency :=
  if text = "manual" then some .manual
  else if text = "daily" then some .daily
  else if text = "weekly" then some .weekly
  else if text = "hourly" then some .hourly
  else none

/-- Read a schedule; missing settings take their defaults. -/
def loadSchedule (raw : Option Json) (name : String) : Except Exn PolicySchedule := do
  let fields ← mappingOf raw s!"{name} must be a mapping"
  match frequencyOf (lowered (trimmed (presentText fields "frequency" "daily"))) with
  | none => valueError s!"{name}.frequency must be manual, daily, weekly, or hourly"
  | some frequency =>
    let clock := trimmed (presentText fields "time" "22:00")
    if frequency ∈ [Frequency.daily, .weekly] ∧ ¬ isClock clock then
      valueError s!"{name}.time must be HH:MM in 24-hour format"
    else match textRows (fields.get? "weekdays") with
      | none => valueError s!"{name}.weekdays must be a list"
      | some rows =>
        let weekdays := rows.map fun day =>
          String.ofList ((lowered (trimmed day.toText)).toList.take 3)
        let invalid := weekdays.filter fun day => day ∉ weekdayNames
        if frequency = .weekly ∧ weekdays = [] then
          valueError s!"{name}.weekdays is required for weekly policies"
        else if frequency = .weekly ∧ invalid ≠ [] then
          valueError s!"{name}.weekdays contains invalid values: {
            (Json.arr (invalid.map .str)).toText}"
        else
          let every_hours ← boundedInt ((fields.get? "every_hours").getD (.int 1))
            s!"{name}.every_hours" 1 24
          .ok { frequency := frequency, time := clock, weekdays := weekdays
                every_hours := every_hours }

/-- Signs that make a name a pattern. -/
def patternSigns : List Char := ['*', '?', '[', ']']

/-- Read one selection of a policy behind the platforms that it has selected so far. -/
def loadSelection (policy_id : String) (seen : List String) (row : Json) :
    Except Exn PolicySelection := do
  let fields ← fieldsOf row s!"management policy {policy_id}: selections must be mappings"
  let platform := trimmed (fieldText fields "platform" "")
  if platform ∉ core.platforms.map (·.name) then
    valueError s!"management policy {policy_id}: unknown platform {Json.reprText platform}"
  else if platform ∈ seen then
    valueError s!"management policy {policy_id}: duplicate selection for {platform}"
  else
    let vms := trimmedTexts ((textRows (fields.get? "vms")).getD [])
    if vms = [] then
      valueError s!"management policy {policy_id}: {platform} requires at least one VM"
    else if vms.any fun vm => vm.toList.any (· ∈ patternSigns) then
      valueError (s!"management policy {policy_id}: checkbox policies require exact VM names, " ++
        "not wildcard patterns")
    else if ¬ vms.Nodup then
      valueError s!"management policy {policy_id}: duplicate VM name in {platform}"
    else .ok { platform := platform, vms := vms }

def loadSelections (policy_id : String) : List String → List Json →
    Except Exn (List PolicySelection)
  | _, [] => .ok []
  | seen, row :: rest => do
    let selection ← loadSelection core policy_id seen row
    let others ← loadSelections policy_id (selection.platform :: seen) rest
    .ok (selection :: others)

/-- The names of the enabled replicas. -/
def enabledReplicas : List String :=
  (core.replicas.filter (·.enabled)).map (·.name)

/-- Read one policy behind the identifiers that are taken. -/
def loadPolicy (taken : List String) (index : Nat) (item : Json) : Except Exn ProtectionPolicy := do
  let fields ← fieldsOf item "management.policies entries must be mappings"
  let policy_id := lowered (trimmed (fieldText fields "id" ""))
  if ¬ isPolicyId policy_id then
    valueError s!"management.policies[{index}].id must match {policyIdPattern}"
  else if policy_id ∈ taken then
    valueError s!"duplicate management policy id: {policy_id}"
  else
    let name := trimmed (fieldText fields "name" policy_id)
    if name = "" then valueError s!"management policy {policy_id}: name is required"
    else
      let rows ← rowsOf (fields.get? "selections")
      let selections ← loadSelections core policy_id [] rows
      if selections = [] then
        valueError s!"management policy {policy_id}: at least one platform/VM selection is required"
      else match textRows (fields.get? "replica_targets") with
        | none => valueError s!"management policy {policy_id}: replica_targets must be a list"
        | some rows =>
          let replicas := trimmedTexts rows
          let unknown := (replicas.filter fun name => name ∉ enabledReplicas core).dedup
          if unknown ≠ [] then
            valueError s!"management policy {policy_id}: unknown or disabled replicas: {
              (Json.arr ((unknown.insertionSort (· ≤ ·)).map .str)).toText}"
          else
            let schedule ← loadSchedule (fields.get? "schedule")
              s!"management policy {policy_id}.schedule"
            let immutable_days ← boundedInt ((fields.get? "immutable_days").getD
              (.int core.repository.retention.keep_within_days))
              s!"management policy {policy_id}.immutable_days" 1 3650
            .ok {
              id := policy_id, name := name
              enabled := ((fields.get? "enabled").getD (.bool true)).truthy
              selections := selections, schedule := schedule, immutable_days := immutable_days
              replica_targets := replicas
              verify_after_backup :=
                ((fields.get? "verify_after_backup").getD (.bool true)).truthy }

def loadPolicies : List String → Nat → List Json → Except Exn (List ProtectionPolicy)
  | _, _, [] => .ok []
  | taken, index, item :: rest => do
    let policy ← loadPolicy core taken index item
    let others ← loadPolicies (policy.id :: taken) (index + 1) rest
    .ok (policy :: others)

/-- Read the test networks of one platform. -/
def loadNetworks (entry : String × Json) : Except Exn (String × List String) :=
  if entry.1 ∉ core.platforms.map (·.name) then
    valueError s!"management.dr_test_networks references unknown platform {Json.reprText entry.1}"
  else
    let rows := match entry.2 with
      | .str text => some [.str text]
      | .arr rows => some rows
      | _ => none
    match rows with
    | none => valueError s!"management.dr_test_networks.{entry.1} must be a string or list"
    | some rows =>
      if trimmedTexts rows = [] then
        valueError s!"management.dr_test_networks.{entry.1} cannot be empty"
      else .ok (entry.1, trimmedTexts rows)

def loadManagement (raw : Dict) : Except Exn ManagementConfig := do
  let fields ← mappingOf (raw.get? "management") "management must be a mapping"
  let items ← rowsOf (fields.get? "policies")
  let policies ← loadPolicies core [] 0 items
  let entries ← mappingOf (fields.get? "dr_test_networks")
    "management.dr_test_networks must be a mapping of platform to isolated network names"
  let networks ← entries.mapM (loadNetworks core)
  let broker_socket := trimmed (presentText fields "broker_socket" "/run/immutavault/manage.sock")
  if ¬ broker_socket.startsWith "/" then
    valueError "management.broker_socket must be an absolute path"
  else
    let boot_seconds ← boundedInt ((fields.get? "dr_test_boot_seconds").getD (.int 30))
      "management.dr_test_boot_seconds" 5 900
    .ok {
      enabled := ((fields.get? "enabled").getD (.bool true)).truthy
      broker_socket := broker_socket, policies := policies, dr_test_networks := networks
      dr_test_boot_seconds := boot_seconds
      dr_test_auto_cleanup := ((fields.get? "dr_test_auto_cleanup").getD (.bool true)).truthy }

/-- A bounded number lies between its bounds. -/
theorem boundedInt_bounds {value : Json} {name : String} {minimum maximum result : Nat}
    (loaded : boundedInt value name minimum maximum = .ok result) :
    minimum ≤ result ∧ result ≤ maximum := by
  obtain ⟨parsed, _, checked⟩ := bind_eq_ok.mp loaded
  split at checked
  · rename_i bounds
    have same : parsed.toNat = result := Except.ok.inj checked
    omega
  · cases checked

/-- Names of rows are not empty. -/
theorem trimmedTexts_nonempty {rows : List Json} {name : String}
    (member : name ∈ trimmedTexts rows) : name ≠ "" := by
  simpa using (List.mem_filter.mp member).2

/-- A selection names a configured platform that was not selected before, and machines by
their exact names. -/
theorem loadSelection_accepts {policy_id : String} {seen : List String} {row : Json}
    {selection : PolicySelection} (loaded : loadSelection core policy_id seen row = .ok selection) :
    selection.platform ∈ core.platforms.map (·.name) ∧ selection.platform ∉ seen ∧
      selection.vms ≠ [] ∧ selection.vms.Nodup ∧
      ∀ vm ∈ selection.vms, vm ≠ "" ∧ ∀ character ∈ vm.toList, Plain character := by
  obtain ⟨fields, _, checked⟩ := bind_eq_ok.mp loaded
  dsimp only at checked
  split at checked
  · cases checked
  · rename_i known
    split at checked
    · cases checked
    · rename_i fresh
      split at checked
      · cases checked
      · rename_i some_vms
        split at checked
        · cases checked
        · rename_i exact
          split at checked
          · cases checked
          · rename_i distinct
            obtain rfl := Except.ok.inj checked
            refine ⟨not_not.mp known, fresh, some_vms, not_not.mp distinct, ?_⟩
            intro vm member
            refine ⟨trimmedTexts_nonempty member, ?_⟩
            intro character inside signs
            refine exact (List.any_eq_true.mpr ⟨vm, member, ?_⟩)
            refine List.any_eq_true.mpr ⟨character, inside, ?_⟩
            simp only [List.mem_cons, List.not_mem_nil, or_false] at signs
            simp only [patternSigns, List.mem_cons, List.not_mem_nil, or_false, decide_eq_true_eq]
            tauto

theorem loadSelections_accepts {policy_id : String} {seen : List String} {rows : List Json}
    {selections : List PolicySelection}
    (loaded : loadSelections core policy_id seen rows = .ok selections) :
    (selections.map (·.platform)).Nodup ∧ (∀ row ∈ selections, row.platform ∉ seen) ∧
      ∀ row ∈ selections, row.platform ∈ core.platforms.map (·.name) ∧
        row.vms ≠ [] ∧ row.vms.Nodup ∧
        ∀ vm ∈ row.vms, vm ≠ "" ∧ ∀ character ∈ vm.toList, Plain character := by
  induction rows generalizing seen selections with
  | nil =>
    obtain rfl := Except.ok.inj loaded
    simp
  | cons row rest inductionHypothesis =>
    obtain ⟨selection, own, further⟩ := bind_eq_ok.mp loaded
    obtain ⟨others, later, done⟩ := bind_eq_ok.mp further
    obtain rfl := Except.ok.inj done
    obtain ⟨known, fresh, exact⟩ := loadSelection_accepts core own
    obtain ⟨distinct, unseen, accepted⟩ := inductionHypothesis later
    refine ⟨?_, ?_, List.forall_mem_cons.mpr ⟨⟨known, exact⟩, accepted⟩⟩
    · refine List.nodup_cons.mpr ⟨?_, distinct⟩
      intro repeated
      obtain ⟨other, member, same⟩ := List.mem_map.mp repeated
      exact unseen other member (same ▸ List.mem_cons_self)
    · refine List.forall_mem_cons.mpr ⟨fresh, fun other member before => ?_⟩
      exact unseen other member (List.mem_cons_of_mem _ before)

theorem loadPolicy_accepts {taken : List String} {index : Nat} {item : Json}
    {policy : ProtectionPolicy} (loaded : loadPolicy core taken index item = .ok policy) :
    policy.id ∉ taken ∧ PolicyAccepted core policy := by
  obtain ⟨fields, _, checked⟩ := bind_eq_ok.mp loaded
  dsimp only at checked
  split at checked
  · cases checked
  · split at checked
    · cases checked
    · rename_i fresh
      split at checked
      · cases checked
      · obtain ⟨rows, _, checked⟩ := bind_eq_ok.mp checked
        obtain ⟨selections, selected, checked⟩ := bind_eq_ok.mp checked
        split at checked
        · cases checked
        · rename_i some_selections
          split at checked
          · cases checked
          · rename_i rows _
            split at checked
            · cases checked
            · rename_i known
              obtain ⟨schedule, _, checked⟩ := bind_eq_ok.mp checked
              obtain ⟨immutable_days, bounded, checked⟩ := bind_eq_ok.mp checked
              obtain rfl := Except.ok.inj checked
              obtain ⟨distinct, _, exact⟩ := loadSelections_accepts core selected
              have enabled : ∀ name ∈ trimmedTexts rows, name ∈ enabledReplicas core := by
                intro name member
                by_contra missing
                refine known ?_
                have unknown : name ∈ (trimmedTexts rows).filter fun name =>
                    name ∉ enabledReplicas core :=
                  List.mem_filter.mpr ⟨member, by simpa using missing⟩
                exact List.ne_nil_of_mem (List.mem_dedup.mpr unknown)
              refine ⟨fresh, {
                platforms_known := fun row member => (exact row member).1
                platforms_distinct := distinct, selects := some_selections
                exact := fun row member => (exact row member).2
                replicas_known := ?_, days := boundedInt_bounds bounded }⟩
              intro name member
              obtain ⟨replica, listed, same⟩ := List.mem_map.mp (enabled name member)
              obtain ⟨configured, on⟩ := List.mem_filter.mp listed
              exact ⟨replica, configured, same, on⟩

theorem loadPolicies_accepts {taken : List String} {index : Nat} {items : List Json}
    {policies : List ProtectionPolicy}
    (loaded : loadPolicies core taken index items = .ok policies) :
    (policies.map (·.id)).Nodup ∧ (∀ policy ∈ policies, policy.id ∉ taken) ∧
      ∀ policy ∈ policies, PolicyAccepted core policy := by
  induction items generalizing taken index policies with
  | nil =>
    obtain rfl := Except.ok.inj loaded
    simp
  | cons item rest inductionHypothesis =>
    obtain ⟨policy, own, further⟩ := bind_eq_ok.mp loaded
    obtain ⟨others, later, done⟩ := bind_eq_ok.mp further
    obtain rfl := Except.ok.inj done
    obtain ⟨fresh, accepted⟩ := loadPolicy_accepts core own
    obtain ⟨distinct, untaken, others_accepted⟩ := inductionHypothesis later
    refine ⟨?_, ?_, List.forall_mem_cons.mpr ⟨accepted, others_accepted⟩⟩
    · refine List.nodup_cons.mpr ⟨?_, distinct⟩
      intro repeated
      obtain ⟨other, member, same⟩ := List.mem_map.mp repeated
      exact untaken other member (same ▸ List.mem_cons_self)
    · refine List.forall_mem_cons.mpr ⟨fresh, fun other member before => ?_⟩
      exact untaken other member (List.mem_cons_of_mem _ before)

theorem loadNetworks_accepts {entry : String × Json} {networks : String × List String}
    (loaded : loadNetworks core entry = .ok networks) :
    networks.1 ∈ core.platforms.map (·.name) ∧ networks.2 ≠ [] := by
  unfold loadNetworks at loaded
  split at loaded
  · cases loaded
  · rename_i known
    dsimp only at loaded
    split at loaded
    · cases loaded
    · split at loaded
      · cases loaded
      · rename_i nonempty
        obtain rfl := Except.ok.inj loaded
        exact ⟨not_not.mp known, nonempty⟩

/-- What loading returns is accepted. -/
theorem loadManagement_accepts {raw : Dict} {management : ManagementConfig}
    (loaded : loadManagement core raw = .ok management) : Accepted core management := by
  obtain ⟨fields, _, checked⟩ := bind_eq_ok.mp loaded
  obtain ⟨items, _, checked⟩ := bind_eq_ok.mp checked
  obtain ⟨policies, loadedPolicies, checked⟩ := bind_eq_ok.mp checked
  obtain ⟨entries, _, checked⟩ := bind_eq_ok.mp checked
  obtain ⟨networks, loadedNetworks, checked⟩ := bind_eq_ok.mp checked
  dsimp only at checked
  split at checked
  · cases checked
  · obtain ⟨boot_seconds, bounded, checked⟩ := bind_eq_ok.mp checked
    obtain rfl := Except.ok.inj checked
    obtain ⟨distinct, _, accepted⟩ := loadPolicies_accepts core loadedPolicies
    refine ⟨accepted, distinct, ?_, boundedInt_bounds bounded⟩
    intro entry member
    obtain ⟨raw_entry, _, own⟩ := mapM_mem loadedNetworks member
    exact loadNetworks_accepts core own

end Loading

/-- Load the management section over an accepted enterprise configuration. -/
def loadV11Config (enterprise : EnterpriseConfig) (raw : Dict) : Except Exn V11Config :=
  match loaded : loadManagement enterprise.core raw with
  | .ok management => .ok ⟨enterprise, management, loadManagement_accepts _ loaded⟩
  | .error error => .error error

end Immutavault.Management
