import Immutavault.DRConfigurations
import Immutavault.SignedTokens

/-!
# The fields of the enterprise configuration

Lists of names, roles and maps are read from values of any kind. A single text stands for
the list that holds it, and what is neither a text nor a list is refused; nothing stands for
a default. A role is one of four, in any case and with white space around it. A map is read
entry by entry, and the texts of its keys are what it is looked up by; when two keys have
one text, the later entry counts.
-/

namespace Immutavault.EnterpriseFields

open Values DRConfigurations
open SignedTokens (roleOrder)

/-- What else is asked of a value: of what kind it is. -/
class KindedValue (V : Type) extends RawValue V where
  ofText : String → V
  asText : V → Option String
  asList : V → Option (List V)
  asDict : V → Option (List (V × V))
  reprText : V → String

instance : KindedValue Json where
  ofText := .str
  asText
    | .str text => some text
    | _ => none
  asList
    | .arr items => some items
    | _ => none
  asDict
    | .obj fields => some (fields.map fun field => (.str field.1, field.2))
    | _ => none
  reprText := Json.repr

variable {V : Type} [KindedValue V]

open RawValue KindedValue

/-- A value that is given: there is one, and it is not null. -/
def given (value : Option V) : Option V := value.filter fun value => ¬ isNone value

def stringList (value : Option V) (default : List String) : Except Exn (List String) :=
  match given value with
  | none => .ok default
  | some value =>
    match asText value with
    | some text => .ok [text]
    | none =>
      match asList value with
      | some items => items.mapM toText
      | none => .error ⟨.valueError, "expected a string or list of strings"⟩

/-- The text of a value, or a default when nothing is there or it is false. -/
def textOr (value : Option V) (default : String) : Except Exn String :=
  match value with
  | none => .ok default
  | some value => do
    let filled ← truthy value
    cond filled (toText value) (.ok default)

/-- The role that a value names. -/
def roleText (value : Option V) (name : String) : Except Exn String := do
  let text ← textOr value "viewer"
  let role := lowered (trimmed text)
  let roles := ", ".intercalate roleOrder
  refuse (role ∉ roleOrder) s!"{name} must be one of {roles}"
  return role

/-- The entries of a mapping; nothing stands for an empty one. -/
def mapping (value : Option V) (name : String) : Except Exn (List (V × V)) :=
  match given value with
  | none => .ok []
  | some value =>
    match asDict value with
    | some entries => .ok entries
    | none => .error ⟨.valueError, s!"{name} must be a mapping"⟩

/-- Assign a key: in its place when present, otherwise at the end. -/
def assign {α : Type} : List (String × α) → String → α → List (String × α)
  | [], key, value => [(key, value)]
  | (name, old) :: rest, key, value =>
    if name = key then (name, value) :: rest else (name, old) :: assign rest key value

/-- The dictionary of pairs in the order in which they are read. -/
def dictOf {α : Type} (pairs : List (String × α)) : List (String × α) :=
  pairs.foldl (fun entries pair => assign entries pair.1 pair.2) []

def tenantPair (entry : V × V) : Except Exn (String × List String) := do
  let key ← toText entry.1
  let tenants ← stringList (some entry.2) []
  return (key, tenants)

def tenantMap (value : Option V) (name : String) : Except Exn (List (String × List String)) := do
  let entries ← mapping value name
  return dictOf (← entries.mapM tenantPair)

def rolePair (name : String) (entry : V × V) : Except Exn (String × String) := do
  let key ← toText entry.1
  let role ← roleText (some entry.2) s!"{name}.{key}"
  return (key, role)

def roleMap (value : Option V) (name : String) : Except Exn (List (String × String)) := do
  let entries ← mapping value name
  return dictOf (← entries.mapM (rolePair name))

/-- What is under a key; the last entry counts. -/
def under {α : Type} (entries : List (String × α)) (key : String) : Option α :=
  (entries.reverse.find? fun entry => entry.1 = key).map (·.2)

/-- The scopes that name no tenant. -/
def unknownScopes (configured scopes : List String) : List String :=
  scopes.filter fun scope => scope ≠ "*" ∧ scope ∉ configured

theorem unknownScopes_eq_nil {configured scopes : List String} :
    unknownScopes configured scopes = [] ↔ ∀ scope ∈ scopes, scope = "*" ∨ scope ∈ configured := by
  rw [unknownScopes, List.filter_eq_nil_iff]
  simp [or_iff_not_imp_left]

theorem mem_of_under {α : Type} {entries : List (String × α)} {key : String} {value : α}
    (found : under entries key = some value) : (key, value) ∈ entries := by
  obtain ⟨⟨name, other⟩, located, same⟩ := Option.map_eq_some_iff.mp found
  obtain rfl : name = key := by simpa using List.find?_some located
  obtain rfl : other = value := same
  exact List.mem_reverse.mp (List.mem_of_find?_eq_some located)

theorem mem_assign {α : Type} {entries : List (String × α)} {key : String} {value : α}
    {entry : String × α} (member : entry ∈ assign entries key value) :
    entry ∈ entries ∨ entry = (key, value) := by
  induction entries with
  | nil => exact Or.inr (List.mem_singleton.mp member)
  | cons first rest inductionHypothesis =>
    rw [assign] at member
    split at member
    · rename_i same
      rcases List.mem_cons.mp member with rfl | within
      · exact Or.inr (by rw [same])
      · exact Or.inl (List.mem_cons_of_mem _ within)
    · rcases List.mem_cons.mp member with rfl | within
      · exact Or.inl List.mem_cons_self
      · exact (inductionHypothesis within).imp_left (List.mem_cons_of_mem _)

/-- A dictionary holds nothing but the pairs that it was read from. -/
theorem mem_dictOf {α : Type} {pairs : List (String × α)} {entry : String × α}
    (member : entry ∈ dictOf pairs) : entry ∈ pairs := by
  have fold : ∀ (pairs entries : List (String × α)),
      entry ∈ pairs.foldl (fun entries pair => assign entries pair.1 pair.2) entries →
        entry ∈ entries ∨ entry ∈ pairs := by
    intro pairs
    induction pairs with
    | nil => exact fun entries member => Or.inl member
    | cons first rest inductionHypothesis =>
      intro entries member
      rcases inductionHypothesis _ member with before | later
      · rcases mem_assign before with old | rfl
        · exact Or.inl old
        · exact Or.inr List.mem_cons_self
      · exact Or.inr (List.mem_cons_of_mem _ later)
  exact (fold pairs [] member).resolve_left List.not_mem_nil

/-- An accepted role is one of the four. -/
theorem roleText_known {value : Option V} {name role : String}
    (ran : roleText value name = .ok role) : role ∈ roleOrder := by
  unfold roleText at ran
  obtain ⟨text, _, ran⟩ := bind_eq_ok.mp ran
  obtain ⟨_, known, done⟩ := bind_eq_ok.mp ran
  rw [← Except.ok.inj done]
  exact not_not.mp (refuse_eq_ok.mp known)

/-- Every role of an accepted map is one of the four. -/
theorem roleMap_known {value : Option V} {name : String} {entries : List (String × String)}
    (ran : roleMap value name = .ok entries) : ∀ entry ∈ entries, entry.2 ∈ roleOrder := by
  intro entry member
  unfold roleMap at ran
  obtain ⟨items, _, ran⟩ := bind_eq_ok.mp ran
  obtain ⟨pairs, read, done⟩ := bind_eq_ok.mp ran
  rw [← Except.ok.inj done] at member
  obtain ⟨item, _, own⟩ := mapM_mem read (mem_dictOf member)
  unfold rolePair at own
  obtain ⟨key, _, own⟩ := bind_eq_ok.mp own
  obtain ⟨role, named, own⟩ := bind_eq_ok.mp own
  rw [← Except.ok.inj own]
  exact roleText_known named

end Immutavault.EnterpriseFields
