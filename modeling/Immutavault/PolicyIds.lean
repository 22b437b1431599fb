import Mathlib.Data.List.Forall2
import Immutavault.CredentialConflicts

/-!
# Identifiers of policies

The loader reads the identifier of a policy from any value: its text is trimmed and written
in lower case. The editor compares the values as they stand in the configuration with the
text of a request. So a policy that is shown under an identifier can be edited under it
exactly when its row holds just this text.

Policies are loaded one by one; what is loaded of a row depends on the rows before it only
in that no identifier may be taken twice.
-/

namespace Immutavault.PolicyIds

open Programs Values Configuration Management ProtectionPolicies ManagementService Tenancy
open Adapters (fieldText)
open DRConfigurations (refuse refuse_eq_ok RawValue)
open GuestFiles (Str str)
open CredentialConflicts (calm blank)
open ResticRepository (asItems)

section Loading

variable {core : Config} {item : Json} {policy : ProtectionPolicy}

/-- The identifier that a row is loaded under. -/
def loadedId (fields : Dict) : String := lowered (trimmed (fieldText fields "id" ""))

/-- Whatever is loaded of a row has the row's identifier. -/
theorem loadPolicy_id {taken : List String} {index : Nat}
    (loaded : loadPolicy core taken index item = .ok policy) :
    ∃ fields : Dict, item = .obj fields ∧ policy.id = loadedId fields ∧
      isPolicyId policy.id = true ∧ policy.id ∉ taken := by
  obtain ⟨fields, row, checked⟩ := bind_eq_ok.mp loaded
  obtain rfl : item = .obj fields := by
    unfold fieldsOf at row
    split at row
    · rw [Except.ok.inj row]
    · cases row
  refine ⟨fields, rfl, ?_⟩
  dsimp only at checked
  split at checked
  · cases checked
  · rename_i valid
    split at checked
    · cases checked
    · rename_i fresh
      split at checked
      · cases checked
      · obtain ⟨rows, _, checked⟩ := bind_eq_ok.mp checked
        obtain ⟨selections, _, checked⟩ := bind_eq_ok.mp checked
        split at checked
        · cases checked
        · split at checked
          · cases checked
          · split at checked
            · cases checked
            · obtain ⟨schedule, _, checked⟩ := bind_eq_ok.mp checked
              obtain ⟨immutable_days, _, checked⟩ := bind_eq_ok.mp checked
              obtain rfl := Except.ok.inj checked
              exact ⟨rfl, not_not.mp valid, fresh⟩

/-- A row with a valid identifier that is not taken is loaded as if it were alone. -/
theorem loadPolicy_fresh {taken : List String} {fields : Dict} (index : Nat)
    (valid : isPolicyId (loadedId fields) = true) (fresh : loadedId fields ∉ taken) :
    loadPolicy core taken index (.obj fields) = loadPolicy core [] 0 (.obj fields) := by
  have row : ∀ complaint, fieldsOf (.obj fields) complaint = .ok fields := fun _ => rfl
  unfold loadedId at valid fresh
  unfold loadPolicy
  rw [row, ok_bind, ok_bind]
  dsimp only
  rw [if_neg (not_not.mpr valid), if_neg fresh, if_neg (not_not.mpr valid),
    if_neg List.not_mem_nil]

/-- The rows before a policy matter only for its identifier. -/
theorem loadPolicy_alone {taken : List String} {index : Nat} :
    loadPolicy core taken index item = .ok policy ↔
      loadPolicy core [] 0 item = .ok policy ∧ policy.id ∉ taken := by
  constructor
  · intro loaded
    obtain ⟨fields, rfl, same, valid, fresh⟩ := loadPolicy_id loaded
    rw [same] at valid fresh
    rw [loadPolicy_fresh index valid fresh] at loaded
    exact ⟨loaded, same ▸ fresh⟩
  · rintro ⟨loaded, fresh⟩
    obtain ⟨fields, rfl, same, valid, -⟩ := loadPolicy_id loaded
    rw [same] at valid fresh
    rw [loadPolicy_fresh index valid fresh]
    exact loaded

/-- Rows are loaded one by one, under different identifiers. -/
theorem loadPolicies_iff {taken : List String} {index : Nat} {items : List Json}
    {policies : List ProtectionPolicy} :
    loadPolicies core taken index items = .ok policies ↔
      List.Forall₂ (fun item policy => loadPolicy core [] 0 item = .ok policy) items policies ∧
        (policies.map (·.id)).Nodup ∧ ∀ policy ∈ policies, policy.id ∉ taken := by
  induction items generalizing taken index policies with
  | nil =>
    constructor
    · intro loaded
      obtain rfl := Except.ok.inj loaded
      exact ⟨.nil, List.nodup_nil, fun _ member => absurd member List.not_mem_nil⟩
    · rintro ⟨each, -, -⟩
      cases each
      rfl
  | cons item rest inductionHypothesis =>
    constructor
    · intro loaded
      obtain ⟨policy, own, further⟩ := bind_eq_ok.mp loaded
      obtain ⟨others, later, done⟩ := bind_eq_ok.mp further
      obtain rfl := Except.ok.inj done
      obtain ⟨alone, fresh⟩ := loadPolicy_alone.mp own
      obtain ⟨each, distinct, untaken⟩ := inductionHypothesis.mp later
      refine ⟨.cons alone each, List.nodup_cons.mpr ⟨?_, distinct⟩,
        List.forall_mem_cons.mpr ⟨fresh, fun other member before =>
          untaken other member (List.mem_cons_of_mem _ before)⟩⟩
      intro repeated
      obtain ⟨other, member, same⟩ := List.mem_map.mp repeated
      exact untaken other member (same ▸ List.mem_cons_self)
    · rintro ⟨each, distinct, untaken⟩
      cases each with
      | cons alone each =>
        rename_i policy others
        obtain ⟨first, distinct⟩ := List.nodup_cons.mp distinct
        obtain ⟨fresh, untaken⟩ := List.forall_mem_cons.mp untaken
        have later : loadPolicies core (policy.id :: taken) (index + 1) rest = .ok others := by
          refine inductionHypothesis.mpr ⟨each, distinct, fun other member listed => ?_⟩
          rcases List.mem_cons.mp listed with same | before
          · exact first (List.mem_map.mpr ⟨other, member, same⟩)
          · exact untaken other member before
        rw [loadPolicies, loadPolicy_alone.mpr ⟨alone, fresh⟩, ok_bind, later]
        rfl

end Loading

section Editing

variable {core : Config} {rows : List Json} {policies : List ProtectionPolicy} {id : String}

/-- Rows with the policies that are loaded of them. -/
abbrev Loaded (core : Config) : List Json → List ProtectionPolicy → Prop :=
  List.Forall₂ fun item policy => loadPolicy core [] 0 item = .ok policy

/-- Some row holds just this text as its identifier. -/
def HoldsId (rows : List Json) (id : String) : Prop :=
  ∃ row ∈ rows, hasText "id" id row = .ok true

theorem idCharacter {character : Char}
    (own : isLowerAlnum character = true ∨ character ∈ ['.', '_', '-']) :
    isWhitespace character = false ∧
      (if character.toNat = 0x212a then 'k' else character.toLower) = character := by
  have small : character.toNat < 128 := by
    rcases own with letter | sign
    · simp only [isLowerAlnum, decide_eq_true_eq, Char.le_def] at letter
      rcases letter with ⟨_, last⟩ | ⟨_, last⟩
      · exact Nat.lt_of_le_of_lt last (by decide)
      · exact Nat.lt_of_le_of_lt last (by decide)
    · simp only [List.mem_cons, List.not_mem_nil, or_false] at sign
      rcases sign with rfl | rfl | rfl <;> decide
  have all : ((List.range 128).all fun code =>
      !(isLowerAlnum (Char.ofNat code) || decide (Char.ofNat code ∈ ['.', '_', '-'])) ||
        (!isWhitespace (Char.ofNat code) && decide ((if (Char.ofNat code).toNat = 0x212a then 'k'
          else (Char.ofNat code).toLower) = Char.ofNat code))) = true := by decide
  have tested := List.all_eq_true.mp all _ (List.mem_range.mpr small)
  rw [Char.ofNat_toNat] at tested
  have kept : (isLowerAlnum character || decide (character ∈ ['.', '_', '-'])) = true := by
    simpa using own
  rw [kept, Bool.not_true, Bool.false_or, Bool.and_eq_true, Bool.not_eq_true',
    decide_eq_true_eq] at tested
  exact tested

theorem isPolicyId_characters (valid : isPolicyId id = true) : id.toList ≠ [] ∧
    ∀ character ∈ id.toList, isLowerAlnum character = true ∨ character ∈ ['.', '_', '-'] := by
  unfold isPolicyId at valid
  split at valid
  · cases valid
  · rename_i first rest shape
    simp only [Bool.decide_and, Bool.and_eq_true, decide_eq_true_eq, List.all_eq_true] at valid
    rw [shape]
    exact ⟨by simp, List.forall_mem_cons.mpr ⟨Or.inl valid.1, fun character member => by
      simpa using valid.2.2 character member⟩⟩

/-- An identifier is read as it stands. -/
theorem isPolicyId_read (valid : isPolicyId id = true) : lowered (trimmed id) = id := by
  obtain ⟨filled, characters⟩ := isPolicyId_characters valid
  obtain ⟨first, rest, begins⟩ := List.exists_cons_of_ne_nil filled
  have ends := List.dropLast_append_getLast filled
  have kept : trimmed id = id := ProxmoxImports.trimmed_self begins ends.symm
    (idCharacter (characters first (begins ▸ List.mem_cons_self))).1
    (idCharacter (characters _ (List.getLast_mem filled))).1
  rw [kept, lowered, List.map_congr_left fun character member =>
    (idCharacter (characters character member)).2, List.map_id', String.ofList_toList]

theorem hasText_loaded {row : Json} {policy : ProtectionPolicy} (valid : isPolicyId id = true)
    (loaded : loadPolicy core [] 0 row = .ok policy) :
    (∃ same, hasText "id" id row = .ok same) ∧
      (hasText "id" id row = .ok true → policy.id = id) := by
  obtain ⟨fields, rfl, same, _, _⟩ := loadPolicy_id loaded
  refine ⟨⟨_, rfl⟩, fun holds => ?_⟩
  replace holds : isText id (fields.get? "id") = true := Except.ok.inj holds
  rw [same, loadedId, fieldText]
  cases given : fields.get? "id" with
  | none =>
    rw [given] at holds
    cases holds
  | some value =>
    rw [given] at holds
    cases value with
    | str text =>
      obtain rfl : text = id := of_decide_eq_true holds
      dsimp only
      have filled : (Json.str text).truthy = true := by
        simp only [Json.truthy, decide_eq_true_eq]
        rintro rfl
        exact (isPolicyId_characters valid).1 rfl
      rw [if_pos filled]
      exact isPolicyId_read valid
    | null => cases holds
    | bool value => cases holds
    | int value => cases holds
    | arr items => cases holds
    | obj fields => cases holds

theorem otherRows_cons {row : Json} {others : List Json} {same : Bool}
    (tested : hasText "id" id row = .ok same) (rest : otherRows "id" id rows = .ok others) :
    otherRows "id" id (row :: rows) = .ok (cond same others (row :: others)) := by
  rw [otherRows, tested, ok_bind, rest]
  rfl

/-- Where no row holds the identifier, all rows remain. -/
theorem otherRows_absent (valid : isPolicyId id = true) (loaded : Loaded core rows policies)
    (absent : ¬ HoldsId rows id) : otherRows "id" id rows = .ok rows := by
  induction loaded with
  | nil => rfl
  | cons own rest inductionHypothesis =>
    rename_i row policy rows policies
    obtain ⟨⟨same, tested⟩, _⟩ := hasText_loaded valid own
    have others : ¬ HoldsId rows id := fun ⟨row, listed, holds⟩ =>
      absent ⟨row, List.mem_cons_of_mem _ listed, holds⟩
    cases same with
    | true => exact absurd ⟨row, List.mem_cons_self, tested⟩ absent
    | false => exact otherRows_cons tested (inductionHypothesis others)

theorem holdsId_policy (valid : isPolicyId id = true) (loaded : Loaded core rows policies)
    (holds : HoldsId rows id) : id ∈ policies.map (·.id) := by
  obtain ⟨row, listed, holds⟩ := holds
  induction loaded with
  | nil => cases listed
  | cons own rest inductionHypothesis =>
    rcases List.mem_cons.mp listed with rfl | later
    · rw [List.map_cons, (hasText_loaded valid own).2 holds]
      exact List.mem_cons_self
    · exact List.mem_cons_of_mem _ (inductionHypothesis later)

/-- Where a row holds the identifier, the rows of the other policies remain. -/
theorem otherRows_held (valid : isPolicyId id = true) (loaded : Loaded core rows policies)
    (distinct : (policies.map (·.id)).Nodup) (holds : HoldsId rows id) :
    ∃ others, otherRows "id" id rows = .ok others ∧ others.length < rows.length ∧
      Loaded core others (policies.filter fun policy => policy.id ≠ id) := by
  induction loaded with
  | nil =>
    obtain ⟨_, listed, _⟩ := holds
    cases listed
  | cons own rest inductionHypothesis =>
    rename_i row policy rows policies
    obtain ⟨fresh, distinct⟩ := List.nodup_cons.mp distinct
    obtain ⟨⟨same, tested⟩, read⟩ := hasText_loaded valid own
    cases same with
    | true =>
      obtain rfl := read tested
      have absent : ¬ HoldsId rows policy.id := fun later => fresh (holdsId_policy valid rest later)
      refine ⟨rows, otherRows_cons tested (otherRows_absent valid rest absent),
        Nat.lt_succ_self _, ?_⟩
      have kept : policies.filter (fun other => other.id ≠ policy.id) = policies :=
        List.filter_eq_self.mpr fun other member => by
          simpa using fun same => fresh (List.mem_map.mpr ⟨other, member, same⟩)
      rw [List.filter_cons_of_neg (by simp), kept]
      exact rest
    | false =>
      have later : HoldsId rows id := by
        obtain ⟨held, listed, holds⟩ := holds
        rcases List.mem_cons.mp listed with rfl | behind
        · rw [tested] at holds
          cases holds
        · exact ⟨held, behind, holds⟩
      have other : policy.id ≠ id := by
        rintro rfl
        exact fresh (holdsId_policy valid rest later)
      obtain ⟨others, split, shorter, kept⟩ := inductionHypothesis distinct later
      refine ⟨row :: others, otherRows_cons tested split, Nat.succ_lt_succ shorter, ?_⟩
      rw [List.filter_cons_of_pos (by simpa using other)]
      exact .cons own kept

end Editing

section Sections

variable {core : Config} {data fields edited : Dict} {items : List Json}
  {management : ManagementConfig}

theorem rowsOf_arr (items : List Json) : rowsOf (some (.arr items)) = .ok items := by
  cases items with
  | nil => rfl
  | cons first rest => rfl

/-- The editor reads the management section that the loader reads. -/
theorem managementOf_of_mapping {complaint : String}
    (read : mappingOf (data.get? "management") complaint = .ok fields) :
    managementOf data = .ok fields := by
  unfold managementOf
  unfold mappingOf at read
  cases given : data.get? "management" with
  | none =>
    rw [given] at read
    exact read
  | some value =>
    rw [given] at read
    have plain : (if value.truthy then valueError complaint else .ok []) = .ok fields →
        (if value.truthy then RawValue.options value else .ok []) = .ok fields := by
      intro read
      split at read
      · cases read
      · rename_i empty
        rw [if_neg empty]
        exact read
    cases value with
    | obj own =>
      dsimp only
      split
      · exact read
      · rename_i empty
        obtain rfl : own = [] := by simpa [Json.truthy] using empty
        exact read
    | null => exact plain read
    | bool value => exact plain read
    | int value => exact plain read
    | str text => exact plain read
    | arr items => exact plain read

/-- What else is read of the management section. -/
def otherKeys : List String :=
  ["dr_test_networks", "broker_socket", "dr_test_boot_seconds", "dr_test_auto_cleanup"]

theorem get?_set_other {key edited : String} (other : key ∈ otherKeys) (read : edited ∉ otherKeys)
    (fields : Dict) (value : Json) : (fields.set edited value).get? key = fields.get? key :=
  Dict.get?_set_ne _ _ (by
    rintro rfl
    exact read other)

/-- A section is loaded with its policies and with what stands under four other keys. -/
theorem loadManagement_edit (loaded : loadManagement core data = .ok management)
    (own : managementOf data = .ok fields)
    (same : ∀ key ∈ otherKeys, edited.get? key = fields.get? key)
    (replaced : edited.get? "policies" = some (.arr items)) :
    (∀ policies, loadPolicies core [] 0 items = .ok policies →
      ∃ again, loadManagement core (data.set "management" (.obj edited)) = .ok again ∧
        again.policies = policies) ∧
      ∀ again, loadManagement core (data.set "management" (.obj edited)) = .ok again →
        loadPolicies core [] 0 items = .ok again.policies := by
  obtain ⟨given, mapping, checked⟩ := bind_eq_ok.mp loaded
  obtain rfl := Except.ok.inj ((managementOf_of_mapping mapping).symm.trans own)
  obtain ⟨_, _, checked⟩ := bind_eq_ok.mp checked
  obtain ⟨_, _, checked⟩ := bind_eq_ok.mp checked
  obtain ⟨entries, networked, checked⟩ := bind_eq_ok.mp checked
  obtain ⟨networks, each, checked⟩ := bind_eq_ok.mp checked
  have networks_same := same "dr_test_networks" (by decide)
  have socket_same := same "broker_socket" (by decide)
  have seconds_same := same "dr_test_boot_seconds" (by decide)
  have cleanup_same := same "dr_test_auto_cleanup" (by decide)
  have reads : mappingOf ((data.set "management" (.obj edited)).get? "management")
      "management must be a mapping" = .ok edited := by
    rw [Dict.get?_set_self]
    rfl
  constructor
  · intro policies accepted
    dsimp only at checked
    split at checked
    · cases checked
    · rename_i absolute
      obtain ⟨boot_seconds, bounded, _⟩ := bind_eq_ok.mp checked
      rw [presentText, ← socket_same] at absolute
      unfold loadManagement
      rw [reads, ok_bind, replaced, rowsOf_arr, ok_bind, accepted, ok_bind, networks_same,
        networked, ok_bind, each, ok_bind]
      dsimp only
      rw [presentText, if_neg absolute, seconds_same, bounded, ok_bind]
      exact ⟨_, rfl, rfl⟩
  · intro again accepted
    obtain ⟨given', mapping', checked'⟩ := bind_eq_ok.mp accepted
    obtain rfl := Except.ok.inj (reads.symm.trans mapping')
    obtain ⟨rows, listed, checked'⟩ := bind_eq_ok.mp checked'
    obtain rfl := Except.ok.inj ((rowsOf_arr items).symm.trans (replaced ▸ listed))
    obtain ⟨policies, accepted, checked'⟩ := bind_eq_ok.mp checked'
    obtain ⟨_, _, checked'⟩ := bind_eq_ok.mp checked'
    obtain ⟨_, _, checked'⟩ := bind_eq_ok.mp checked'
    dsimp only at checked'
    split at checked'
    · cases checked'
    · obtain ⟨_, _, done⟩ := bind_eq_ok.mp checked'
      rw [← Except.ok.inj done]
      exact accepted

theorem filter_set (data : Dict) (value : Json) :
    (data.set "management" value).filter (fun field => field.1 ≠ "management") =
      data.filter fun field => field.1 ≠ "management" := by
  induction data with
  | nil => rfl
  | cons field rest inductionHypothesis =>
    rw [Dict.set]
    split
    · rename_i same
      rw [List.filter_cons_of_neg (by simpa using same),
        List.filter_cons_of_neg (by simpa using same)]
    · rw [List.filter_cons, List.filter_cons, inductionHypothesis]

theorem loadV11_eq_ok {enterprise : Dict → Except Exn EnterpriseConfig} {cfg : V11Config} :
    loadV11 enterprise data = .ok cfg ↔
      enterprise (data.filter fun field => field.1 ≠ "management") = .ok cfg.enterprise ∧
        loadManagement cfg.enterprise.core data = .ok cfg.management := by
  constructor
  · intro loaded
    obtain ⟨others, given, loaded⟩ := bind_eq_ok.mp loaded
    unfold loadV11Config at loaded
    split at loaded
    · rename_i management accepted
      obtain rfl := Except.ok.inj loaded
      exact ⟨given, accepted⟩
    · cases loaded
  · rintro ⟨given, accepted⟩
    rw [loadV11, given, ok_bind]
    unfold loadV11Config
    split
    · rename_i management own
      obtain rfl := Except.ok.inj (own.symm.trans accepted)
      rfl
    · rename_i error own
      rw [accepted] at own
      cases own

end Sections

section Edits

variable {world : World} {data : Dict} {cfg : V11Config} {id : String}

/-- The rows of the policies of a configuration. -/
def rowsIn (data : Dict) : Except Exn (List Json) := do
  let management ← managementOf data
  rowsAt management "policies"

/-- The configuration shows this policy by a row that holds just this text. -/
def ShownExactly (data : Dict) (id : String) : Prop :=
  ∃ rows, rowsIn data = .ok rows ∧ HoldsId rows id

/-- What a loaded configuration is read from. -/
theorem loadV11_parts (loaded : loadV11 world.enterprise data = .ok cfg) :
    ∃ fields rows, managementOf data = .ok fields ∧ rowsAt fields "policies" = .ok rows ∧
      Loaded cfg.enterprise.core rows cfg.management.policies ∧
      (cfg.management.policies.map (·.id)).Nodup := by
  obtain ⟨-, accepted⟩ := loadV11_eq_ok.mp loaded
  obtain ⟨fields, mapping, checked⟩ := bind_eq_ok.mp accepted
  obtain ⟨rows, listed, checked⟩ := bind_eq_ok.mp checked
  obtain ⟨policies, own, checked⟩ := bind_eq_ok.mp checked
  obtain ⟨_, _, checked⟩ := bind_eq_ok.mp checked
  obtain ⟨_, _, checked⟩ := bind_eq_ok.mp checked
  dsimp only at checked
  split at checked
  · cases checked
  · obtain ⟨_, _, done⟩ := bind_eq_ok.mp checked
    obtain ⟨each, distinct, _⟩ := loadPolicies_iff.mp own
    rw [← Except.ok.inj done]
    exact ⟨fields, rows, managementOf_of_mapping mapping, listed, each, distinct⟩

/-- An edited section loads as its rows do. -/
theorem loadV11_edit {fields edited : Dict} {items : List Json}
    (loaded : loadV11 world.enterprise data = .ok cfg) (own : managementOf data = .ok fields)
    (same : ∀ key ∈ otherKeys, edited.get? key = fields.get? key)
    (replaced : edited.get? "policies" = some (.arr items)) :
    (∀ policies, loadPolicies cfg.enterprise.core [] 0 items = .ok policies →
      ∃ again, loadV11 world.enterprise (data.set "management" (.obj edited)) = .ok again ∧
        again.management.policies = policies) ∧
      ∀ again, loadV11 world.enterprise (data.set "management" (.obj edited)) = .ok again →
        loadPolicies cfg.enterprise.core [] 0 items = .ok again.management.policies := by
  obtain ⟨given, accepted⟩ := loadV11_eq_ok.mp loaded
  obtain ⟨forward, backward⟩ := loadManagement_edit accepted own same replaced
  constructor
  · intro policies read
    obtain ⟨management, again, exact⟩ := forward policies read
    refine ⟨⟨cfg.enterprise, management, loadManagement_accepts _ again⟩, ?_, exact⟩
    exact loadV11_eq_ok.mpr ⟨(filter_set data _).symm ▸ given, again⟩
  · intro again read
    obtain ⟨other, own⟩ := loadV11_eq_ok.mp read
    rw [filter_set, given] at other
    rw [← Except.ok.inj other] at own
    exact backward _ own

/-- Without a policy that is shown exactly, the other policies remain, and they load. -/
theorem withoutPolicy_shown (valid : isPolicyId id = true)
    (loaded : loadV11 world.enterprise data = .ok cfg) (shown : ShownExactly data id) :
    ∃ candidate rest, withoutPolicy data id = .ok candidate ∧
      loadV11 world.enterprise candidate = .ok rest ∧
      rest.management.policies = cfg.management.policies.filter fun policy => policy.id ≠ id := by
  obtain ⟨fields, rows, own, listed, each, distinct⟩ := loadV11_parts loaded
  obtain ⟨_, given, held⟩ := shown
  rw [rowsIn, own, ok_bind, listed] at given
  obtain rfl := Except.ok.inj given
  obtain ⟨others, split, shorter, kept⟩ := otherRows_held valid each distinct held
  have removed : withoutPolicy data id =
      .ok (data.set "management" (.obj (fields.set "policies" (.arr others)))) := by
    have some : refuse (rows.length = others.length) s!"unknown protection policy: {id}" =
        .ok () := refuse_eq_ok.mpr (Nat.ne_of_gt shorter)
    rw [withoutPolicy, own, ok_bind, listed, ok_bind, split, ok_bind, some, ok_bind]
    rfl
  have left : loadPolicies cfg.enterprise.core [] 0 others =
      .ok (cfg.management.policies.filter fun policy => policy.id ≠ id) :=
    loadPolicies_iff.mpr ⟨kept, distinct.sublist (List.filter_sublist.map _),
      fun _ _ => List.not_mem_nil⟩
  have same : ∀ key ∈ otherKeys,
      (fields.set "policies" (.arr others)).get? key = fields.get? key :=
    fun key other => get?_set_other other (by decide) _ _
  obtain ⟨forward, -⟩ := loadV11_edit loaded own same (Dict.get?_set_self _ _ _)
  obtain ⟨rest, again, exact⟩ := forward _ left
  exact ⟨_, rest, removed, again, exact⟩

/-- Where no row holds the identifier, no policy is found. -/
theorem withoutPolicy_absent (valid : isPolicyId id = true)
    (loaded : loadV11 world.enterprise data = .ok cfg) (absent : ¬ ShownExactly data id)
    (candidate : Dict) : withoutPolicy data id ≠ .ok candidate := by
  obtain ⟨fields, rows, own, listed, each, distinct⟩ := loadV11_parts loaded
  have none : ¬ HoldsId rows id := fun held => absent ⟨rows, by
    rw [rowsIn, own, ok_bind, listed], held⟩
  intro removed
  rw [withoutPolicy, own, ok_bind, listed, ok_bind, otherRows_absent valid each none,
    ok_bind] at removed
  obtain ⟨_, some, _⟩ := bind_eq_ok.mp removed
  exact refuse_eq_ok.mp some rfl

/-- A request for a policy as the editor writes it. -/
theorem policyPayload_id {body payload : Dict} (given : policyPayload body = .ok payload) :
    isPolicyId (requestedId body) = true ∧ loadedId payload = requestedId body := by
  obtain ⟨_, accepted, given⟩ := bind_eq_ok.mp given
  obtain ⟨selections, _, given⟩ := bind_eq_ok.mp given
  obtain ⟨schedule, _, given⟩ := bind_eq_ok.mp given
  obtain ⟨days, _, given⟩ := bind_eq_ok.mp given
  obtain ⟨targets, _, done⟩ := bind_eq_ok.mp given
  obtain rfl := Except.ok.inj done
  have valid : isPolicyId (requestedId body) = true := not_not.mp (refuse_eq_ok.mp accepted)
  refine ⟨valid, ?_⟩
  have filled : (Json.str (requestedId body)).truthy = true := by
    simp only [Json.truthy, decide_eq_true_eq]
    intro empty
    exact (isPolicyId_characters valid).1 (by rw [empty]; rfl)
  have text : loadedId [("id", .str (requestedId body))] =
      lowered (trimmed (requestedId body)) := by
    show lowered (trimmed (if (Json.str (requestedId body)).truthy then requestedId body else "")) =
      _
    rw [if_pos filled]
  exact text.trans (isPolicyId_read valid)

theorem loaded_unique {core : Config} {rows : List Json} {first second : List ProtectionPolicy}
    (own : Loaded core rows first) (other : Loaded core rows second) : first = second :=
  List.right_unique_forall₂' (fun _ _ _ first second => Except.ok.inj (first.symm.trans second))
    own other

theorem loaded_concat {core : Config} {rows : List Json} {row : Json}
    {policies : List ProtectionPolicy} : Loaded core (rows ++ [row]) policies ↔
      ∃ front last, Loaded core rows front ∧ loadPolicy core [] 0 row = .ok last ∧
        policies = front ++ [last] := by
  induction rows generalizing policies with
  | nil =>
    constructor
    · intro loaded
      cases loaded with
      | cons own rest =>
        cases rest
        exact ⟨[], _, .nil, own, rfl⟩
    · rintro ⟨front, last, nothing, own, rfl⟩
      cases nothing
      exact .cons own .nil
  | cons first rest inductionHypothesis =>
    constructor
    · intro loaded
      cases loaded with
      | cons own behind =>
        obtain ⟨front, last, kept, read, rfl⟩ := inductionHypothesis.mp behind
        exact ⟨_ :: front, last, .cons own kept, read, rfl⟩
    · rintro ⟨front, last, kept, read, rfl⟩
      cases kept with
      | cons own behind => exact .cons own (inductionHypothesis.mpr ⟨_, last, behind, read, rfl⟩)

variable {body payload : Dict} {new : ProtectionPolicy}

/-- The edited section has the rows of the other policies and the new row. -/
theorem withPolicy_eq {fields : Dict} {rows others : List Json}
    (own : managementOf data = .ok fields) (listed : rowsAt fields "policies" = .ok rows)
    (split : otherRows "id" id rows = .ok others) : withPolicy data payload id =
      .ok (data.set "management" (.obj ((fields.set "enabled" (.bool true)).set "policies"
        (.arr (others ++ [.obj payload]))))) := by
  rw [withPolicy, own, ok_bind, listed, ok_bind, split]
  rfl

theorem otherKeys_enabled (fields : Dict) (rows : Json) : ∀ key ∈ otherKeys,
    ((fields.set "enabled" (.bool true)).set "policies" rows).get? key = fields.get? key := by
  intro key other
  rw [get?_set_other other (by decide), get?_set_other other (by decide)]

/-- In place of a policy that is shown exactly, the new one stands behind the others. -/
theorem withPolicy_shown (valid : isPolicyId id = true)
    (loaded : loadV11 world.enterprise data = .ok cfg) (shown : ShownExactly data id)
    (same : new.id = id) (accepted : loadPolicy cfg.enterprise.core [] 0 (.obj payload) = .ok new) :
    ∃ candidate rest, withPolicy data payload id = .ok candidate ∧
      loadV11 world.enterprise candidate = .ok rest ∧
      rest.management.policies =
        (cfg.management.policies.filter fun policy => policy.id ≠ id) ++ [new] := by
  obtain ⟨fields, rows, own, listed, each, distinct⟩ := loadV11_parts loaded
  obtain ⟨_, given, held⟩ := shown
  rw [rowsIn, own, ok_bind, listed] at given
  obtain rfl := Except.ok.inj given
  obtain ⟨others, split, _, kept⟩ := otherRows_held valid each distinct held
  have replaced : loadPolicies cfg.enterprise.core [] 0 (others ++ [.obj payload]) =
      .ok ((cfg.management.policies.filter fun policy => policy.id ≠ id) ++ [new]) := by
    refine loadPolicies_iff.mpr ⟨loaded_concat.mpr ⟨_, new, kept, accepted, rfl⟩, ?_,
      fun _ _ => List.not_mem_nil⟩
    rw [List.map_append, List.nodup_append]
    refine ⟨distinct.sublist (List.filter_sublist.map _), List.nodup_singleton _, ?_⟩
    intro first member last added
    obtain ⟨policy, remains, rfl⟩ := List.mem_map.mp member
    rw [List.map_singleton, List.mem_singleton] at added
    rw [added, same]
    simpa using (List.mem_filter.mp remains).2
  obtain ⟨forward, -⟩ := loadV11_edit loaded own (otherKeys_enabled fields _)
    (Dict.get?_set_self _ _ _)
  obtain ⟨rest, again, exact⟩ := forward _ replaced
  exact ⟨_, rest, withPolicy_eq own listed split, again, exact⟩

/-- Where no row holds the identifier of a policy, a second one has its identifier. -/
theorem withPolicy_absent (valid : isPolicyId id = true)
    (loaded : loadV11 world.enterprise data = .ok cfg) (absent : ¬ ShownExactly data id)
    (taken : id ∈ cfg.management.policies.map (·.id)) (same : loadedId payload = id)
    {candidate : Dict} (edited : withPolicy data payload id = .ok candidate)
    (again : V11Config) : loadV11 world.enterprise candidate ≠ .ok again := by
  obtain ⟨fields, rows, own, listed, each, distinct⟩ := loadV11_parts loaded
  have none : ¬ HoldsId rows id := fun held => absent ⟨rows, by
    rw [rowsIn, own, ok_bind, listed], held⟩
  rw [withPolicy_eq own listed (otherRows_absent valid each none)] at edited
  obtain rfl := Except.ok.inj edited
  obtain ⟨-, backward⟩ := loadV11_edit loaded own (otherKeys_enabled fields _)
    (Dict.get?_set_self _ _ _)
  intro reloaded
  obtain ⟨all, unique, _⟩ := loadPolicies_iff.mp (backward again reloaded)
  obtain ⟨front, last, kept, read, split⟩ := loaded_concat.mp all
  obtain rfl := loaded_unique each kept
  obtain ⟨_, row, called, _⟩ := loadPolicy_id read
  obtain rfl : payload = _ := Json.obj.inj row
  rw [split, List.map_append, List.nodup_append] at unique
  exact unique.2.2 id taken id (by simp [called, same]) rfl

end Edits

section Runs

/-- A machine on which nothing fails and every program succeeds. -/
structure Sound (world : World) : Prop where
  faultless : ∀ command, world.fault command = none
  succeeding : ∀ arguments, world.succeeds arguments = true

variable {world : World} {state : Appliance} {cfg : V11Config} {id : String}

/-- A program that ends well and leaves the configuration as it is. -/
abbrev EndsWell (world : World) (state : Appliance) (program : Prog Unit) : Prop :=
  wp (machine world) program (fun outcome final => outcome = .ok () ∧
    final.config = state.config) state

theorem wp_attempted (sound : Sound world) (arguments : List Str)
    {post : Except Exn Unit → Appliance → Prop} (holds : post (.ok ()) state) :
    wp (machine world) (attempted arguments) post state :=
  wp_obeyed (sound.faultless _) rfl (wp_pure holds)

theorem wp_checked (sound : Sound world) (arguments : List Str) (message : String)
    {post : Except Exn Unit → Appliance → Prop} (holds : post (.ok ()) state) :
    wp (machine world) (checked arguments message) post state := by
  refine wp_obeyed (sound.faultless _) rfl ?_
  rw [sound.succeeding]
  exact wp_pure holds

theorem endsWell_dropTimer (sound : Sound world) (state : Appliance) (id : String) :
    EndsWell world state (dropTimer id) := by
  refine wp_obeyed (sound.faultless _) rfl ?_
  cases (state.files (timerPath id)).isSome with
  | true =>
    refine wp_bind (wp_attempted sound _ ?_)
    exact wp_obeyed (sound.faultless _) rfl (wp_attempted sound _ ⟨rfl, rfl⟩)
  | false => exact wp_pure ⟨rfl, rfl⟩

theorem writeText_str (path : Str) (text : String) (state : Appliance) :
    writeText path (str text) state =
      (.ok (), { state with files := Function.update state.files path (some (str text)) }) := by
  rw [writeText, if_neg]
  rw [Bool.not_eq_true, List.any_eq_false]
  exact fun point member => by simp [EnvironmentFiles.isSurrogate_str member]

theorem endsWell_enableTimer (sound : Sound world) (state : Appliance) (id calendar : String) :
    EndsWell world state (enableTimer id calendar) := by
  refine wp_obeyed (sound.faultless _) (writeText_str _ _ _) ?_
  refine wp_obeyed (sound.faultless _) rfl (wp_bind (wp_checked sound _ _ ?_))
  exact wp_bind (wp_checked sound _ _ (wp_attempted sound _ ⟨rfl, rfl⟩))

/-- On a sound machine the timer of a policy follows a configuration that loads. -/
theorem endsWell_syncTimer (sound : Sound world)
    (loaded : loadV11 world.enterprise state.config = .ok cfg) (id : String) :
    EndsWell world state (syncTimer id) := by
  refine wp_obeyed (sound.faultless _) (Prod.ext loaded rfl) ?_
  cases calendarOf cfg.management.policies id with
  | none => exact endsWell_dropTimer sound state id
  | some calendar => exact endsWell_enableTimer sound state id calendar

/-- On a sound machine a candidate that loads replaces the configuration. -/
theorem wp_replaced (sound : Sound world) {candidate : Dict}
    (loaded : loadV11 world.enterprise candidate = .ok cfg) (id : String) :
    wp (machine world) (do
      atomicV11 candidate
      syncTimer id) (fun outcome final => outcome = .ok () ∧ final.config = candidate) state := by
  have accepted : loads world candidate = .ok () := by
    rw [loads, loaded]
    rfl
  have checked : obey world (.checkCandidate candidate) state = (.ok (), state) :=
    Prod.ext accepted rfl
  refine wp_bind (wp_obeyed (sound.faultless _) checked
    (wp_obeyed_last (sound.faultless _) rfl ?_))
  exact endsWell_syncTimer sound loaded id

/-- The request to delete a policy ends well, and the others are loaded behind it. -/
def Deletes (world : World) (state : Appliance) (cfg : V11Config) (id : String) : Prop :=
  ∃ after rest, run (handler world) (deletePolicy id) state = (.ok (), after) ∧
    loadV11 world.enterprise after.config = .ok rest ∧
    rest.management.policies = cfg.management.policies.filter fun policy => policy.id ≠ id

/-- The request to save a policy ends well, and it is loaded behind the others. -/
def Replaces (world : World) (state : Appliance) (cfg : V11Config) (body : Dict)
    (new : ProtectionPolicy) : Prop :=
  ∃ after rest, run (handler world) (savePolicy body) state = (.ok (), after) ∧
    loadV11 world.enterprise after.config = .ok rest ∧
    rest.management.policies =
      (cfg.management.policies.filter fun policy => policy.id ≠ new.id) ++ [new]

theorem loaded_valid {core : Config} {rows : List Json} {policies : List ProtectionPolicy}
    (loaded : Loaded core rows policies) {policy : ProtectionPolicy} (member : policy ∈ policies) :
    isPolicyId policy.id = true := by
  induction loaded with
  | nil => cases member
  | cons own rest inductionHypothesis =>
    rcases List.mem_cons.mp member with rfl | later
    · obtain ⟨_, _, _, valid, _⟩ := loadPolicy_id own
      exact valid
    · exact inductionHypothesis later

theorem ran_of_wp {program : Prog Unit} {candidate : Dict}
    (holds : wp (machine world) program
      (fun outcome final => outcome = .ok () ∧ final.config = candidate) state) :
    ∃ after, run (handler world) program state = (.ok (), after) ∧ after.config = candidate := by
  obtain ⟨done, stored⟩ := wp_run holds
  exact ⟨_, Prod.ext done rfl, stored⟩

theorem run_readConfig {middle : Appliance} {data : Dict}
    (read : run (handler world) readConfig state = (.ok data, middle)) :
    data = state.config ∧ middle = state := by
  replace read : handler world .readConfig state = (.ok data, middle) :=
    (run_ask world .readConfig state).symm.trans read
  rcases handler_cases world .readConfig state with ⟨error, _, same⟩ | same
  · rw [same] at read
    cases read
  · rw [same] at read
    obtain ⟨first, second⟩ := Prod.mk.inj read
    exact ⟨(Except.ok.inj first).symm, second.symm⟩

/-- An edit that ends well has made a candidate of the configuration, and went on with it. -/
theorem run_edit {α : Type} {request : Except Exn α} {edit : α → Dict → Except Exn Dict}
    {next : α → Dict → Prog Unit} {after : Appliance}
    (ran : run (handler world) (do
      let value ← raised request
      let data ← readConfig
      let candidate ← raised (edit value data)
      next value candidate) state = (.ok (), after)) :
    ∃ value candidate, request = .ok value ∧ edit value state.config = .ok candidate ∧
      run (handler world) (next value candidate) state = (.ok (), after) := by
  obtain ⟨value, first, given, ran⟩ := (run_bind_eq_ok _).mp ran
  rw [run_raised] at given
  obtain ⟨made, rfl⟩ := Prod.mk.inj given
  obtain ⟨data, second, read, ran⟩ := (run_bind_eq_ok _).mp ran
  obtain ⟨rfl, rfl⟩ := run_readConfig read
  obtain ⟨candidate, third, edited, ran⟩ := (run_bind_eq_ok _).mp ran
  rw [run_raised] at edited
  obtain ⟨done, rfl⟩ := Prod.mk.inj edited
  exact ⟨value, candidate, made, done, ran⟩

/-- An edit whose request and candidate are made goes on with the candidate. -/
theorem run_edit_made {α : Type} (sound : Sound world) {request : Except Exn α}
    {edit : α → Dict → Except Exn Dict} {next : α → Dict → Prog Unit} {value : α}
    {candidate : Dict} (made : request = .ok value)
    (edited : edit value state.config = .ok candidate) :
    run (handler world) (do
      let value ← raised request
      let data ← readConfig
      let candidate ← raised (edit value data)
      next value candidate) state = run (handler world) (next value candidate) state := by
  have read : run (handler world) readConfig state = (.ok state.config, state) :=
    (run_ask world .readConfig state).trans (handler_obeys world (sound.faultless _) state)
  rw [run_bind, run_raised, made]
  dsimp only
  rw [run_bind, read]
  dsimp only
  rw [run_bind, run_raised, edited]

/-- A candidate has replaced the configuration only if it loads. -/
theorem run_atomicV11 {candidate : Dict} {next : Unit → Prog Unit} {after : Appliance}
    (ran : run (handler world) (atomicV11 candidate >>= next) state = (.ok (), after)) :
    ∃ again, loadV11 world.enterprise candidate = .ok again := by
  obtain ⟨_, _, replaced, _⟩ := (run_bind_eq_ok _).mp ran
  obtain ⟨done, _, checked, _⟩ := (run_bind_eq_ok _).mp replaced
  replace checked := (run_ask world (.checkCandidate candidate) state).symm.trans checked
  rcases handler_cases world (.checkCandidate candidate) state with ⟨error, _, same⟩ | same
  · rw [same] at checked
    cases checked
  · rw [same] at checked
    obtain ⟨again, loaded, _⟩ := bind_eq_ok.mp (Prod.mk.inj checked).1
    exact ⟨again, loaded⟩

theorem deletes_iff (sound : Sound world)
    (loaded : loadV11 world.enterprise state.config = .ok cfg) (valid : isPolicyId id = true) :
    Deletes world state cfg id ↔ ShownExactly state.config id := by
  constructor
  · rintro ⟨after, rest, ran, -, -⟩
    by_contra absent
    obtain ⟨_, candidate, _, edited, _⟩ := run_edit ran
    exact withoutPolicy_absent valid loaded absent candidate edited
  · intro shown
    obtain ⟨candidate, rest, edited, again, left⟩ := withoutPolicy_shown valid loaded shown
    have accepted : refuse (¬ isPolicyId id) "invalid policy id" = .ok () :=
      refuse_eq_ok.mpr (not_not.mpr valid)
    obtain ⟨after, ran, rfl⟩ := ran_of_wp (wp_replaced sound again id)
    exact ⟨after, rest, (run_edit_made sound accepted edited).trans ran, again, left⟩

theorem replaces_iff (sound : Sound world) {body payload : Dict} {new : ProtectionPolicy}
    (loaded : loadV11 world.enterprise state.config = .ok cfg)
    (taken : id ∈ cfg.management.policies.map (·.id)) (given : policyPayload body = .ok payload)
    (asked : requestedId body = id)
    (accepted : loadPolicy cfg.enterprise.core [] 0 (.obj payload) = .ok new) :
    Replaces world state cfg body new ↔ ShownExactly state.config id := by
  subst asked
  obtain ⟨valid, called⟩ := policyPayload_id given
  obtain ⟨fields, row, same, _, _⟩ := loadPolicy_id accepted
  obtain rfl := Json.obj.inj row
  rw [called] at same
  constructor
  · rintro ⟨after, rest, ran, -, -⟩
    by_contra absent
    obtain ⟨_, candidate, made, edited, ran⟩ := run_edit ran
    obtain rfl := Except.ok.inj (given.symm.trans made)
    obtain ⟨again, reloaded⟩ := run_atomicV11 ran
    exact withPolicy_absent valid loaded absent taken called edited again reloaded
  · intro shown
    obtain ⟨candidate, rest, edited, again, left⟩ :=
      withPolicy_shown valid loaded shown same accepted
    obtain ⟨after, ran, rfl⟩ := ran_of_wp (wp_replaced sound again (requestedId body))
    exact ⟨after, rest, (run_edit_made sound given edited).trans ran, again, by rw [left, same]⟩

/-- On a machine on which nothing else fails, a policy that is shown can be deleted, and saved
anew, exactly when its row holds the identifier as it is shown. -/
theorem editor_agrees_iff (sound : Sound world) {policy : ProtectionPolicy}
    (loaded : loadV11 world.enterprise state.config = .ok cfg)
    (shown : policy ∈ cfg.management.policies) :
    (Deletes world state cfg policy.id ↔ ShownExactly state.config policy.id) ∧
      ∀ body payload new, policyPayload body = .ok payload → requestedId body = policy.id →
        loadPolicy cfg.enterprise.core [] 0 (.obj payload) = .ok new →
          (Replaces world state cfg body new ↔ ShownExactly state.config policy.id) := by
  obtain ⟨_, _, _, _, each, _⟩ := loadV11_parts loaded
  refine ⟨deletes_iff sound loaded (loaded_valid each shown), ?_⟩
  intro body payload new given asked accepted
  exact replaces_iff sound loaded (List.mem_map_of_mem shown) given asked accepted

/-- A configuration with one policy. -/
def daily (id : Json) : Dict :=
  [("management", .obj [("policies", .arr [.obj [("id", id), ("name", .str "Daily"),
    ("selections", .arr [.obj [("platform", .str "pve"), ("vms", .arr [.str "web"])]])]])])]

theorem sound_calm : Sound calm := ⟨fun _ => rfl, fun _ => rfl⟩

/-- The identifiers that a configuration is listed with are the ones of its policies. -/
theorem shown_of_listed (data : Dict) (id : String)
    (listed : ((loadV11 calm.enterprise data).toOption.map fun cfg =>
      cfg.management.policies.map (·.id)) = some [id]) :
    ∃ cfg policy, loadV11 calm.enterprise data = .ok cfg ∧ policy ∈ cfg.management.policies ∧
      policy.id = id := by
  obtain ⟨cfg, read, ids⟩ := Option.map_eq_some_iff.mp listed
  have member : id ∈ cfg.management.policies.map (·.id) := by
    rw [ids]
    exact List.mem_cons_self
  obtain ⟨policy, shown, called⟩ := List.mem_map.mp member
  cases loaded : loadV11 calm.enterprise data with
  | error error =>
    rw [loaded] at read
    cases read
  | ok accepted =>
    rw [loaded] at read
    obtain rfl := Option.some.inj read
    exact ⟨accepted, policy, rfl, shown, called⟩

/-- A policy that is shown as it is written is deleted. -/
theorem daily_deleted : ∃ cfg, loadV11 calm.enterprise (daily (.str "daily")) = .ok cfg ∧
    Deletes calm { blank none with config := daily (.str "daily") } cfg "daily" := by
  obtain ⟨cfg, policy, loaded, shown, called⟩ :=
    shown_of_listed (daily (.str "daily")) "daily" (by decide +kernel)
  have agrees : Deletes calm { blank none with config := daily (.str "daily") } cfg policy.id ↔
      ShownExactly (daily (.str "daily")) policy.id := (editor_agrees_iff sound_calm loaded shown).1
  rw [called] at agrees
  have exactly : ShownExactly (daily (.str "daily")) "daily" :=
    ⟨_, rfl, _, List.mem_cons_self, rfl⟩
  exact ⟨cfg, loaded, agrees.mpr exactly⟩

/-- A policy whose identifier is written with a capital is shown in small letters, and it is
not found under that. -/
theorem capitals_kept : ¬ ∀ (world : World) (state : Appliance) (cfg : V11Config)
    (policy : ProtectionPolicy), Sound world → loadV11 world.enterprise state.config = .ok cfg →
      policy ∈ cfg.management.policies → Deletes world state cfg policy.id := by
  intro claimed
  obtain ⟨cfg, policy, loaded, shown, called⟩ :=
    shown_of_listed (daily (.str "Daily")) "daily" (by decide +kernel)
  have deleted := claimed calm { blank none with config := daily (.str "Daily") } cfg policy
    sound_calm loaded shown
  rw [called, deletes_iff sound_calm loaded (by decide)] at deleted
  obtain ⟨rows, listed, row, member, same⟩ := deleted
  obtain rfl := Except.ok.inj listed
  obtain rfl := List.mem_singleton.mp member
  revert same
  decide

end Runs

end Immutavault.PolicyIds
