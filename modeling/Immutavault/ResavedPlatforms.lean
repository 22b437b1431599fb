import Immutavault.GlobPatterns
import Immutavault.ManagementService

/-!
# Platforms that are saved again

An enabled platform protects the machines whose names match a pattern that is included and
none that is excluded. When it is saved again, its new row includes every machine, and the
selection of the old row is carried over. The management service carries over both lists of
patterns, the setup wizard only the included ones, and both only for a selection that is not
the one of every machine. A new row is enabled.

So the protected machines stay the same in some cases only, which are given for each of the
two exactly. What the loader reads of a platform besides its name and its selection is left
out. A pattern that is no text makes the matching raise.
-/

namespace Immutavault.ResavedPlatforms

open Values Configuration Management ManagementService GlobPatterns
open DRConfigurations (refuse refuse_eq_ok RawValue)
open GuestFiles (Str str)
open JsonTexts (Floating Value Constant)
open ResticRepository (asItems)
open SessionOwnership (printed)
open SetupRequests (Prepared platform strippedAt)

section Scopes

/-- What a platform protects, and whether its row has a selection that is carried over. -/
structure Scope where
  enabled : Bool
  includes : List Json
  excludes : List Json
  selective : Bool

/-- Some pattern matches the name; the patterns behind it are not looked at. -/
def matchesAny (name : String) : List Json → Except Exn Bool
  | [] => .ok false
  | .str pattern :: rest => if fnmatch name pattern then .ok true else matchesAny name rest
  | _ :: _ => .error ⟨.otherError, "expected str, bytes or os.PathLike object"⟩

/-- The name is included and not excluded. -/
def Scope.selected (scope : Scope) (name : String) : Except Exn Bool := do
  let included ← matchesAny name scope.includes
  let excluded ← matchesAny name scope.excludes
  return included && !excluded

/-- A machine of this name is backed up. -/
def Scope.Protects (scope : Scope) (name : String) : Prop :=
  scope.enabled = true ∧ scope.selected name = .ok true

/-- A required value that is not given. -/
def isMissing : Option Json → Bool
  | none | some .null => true
  | some (.str text) => text = ""
  | some _ => false

/-- The platform on a row, by its name. -/
def scopeOf (row : Json) : Except Exn (String × Scope) := do
  let name ← RawValue.get? row "name"
  refuse (isMissing name = true) "missing required config key: name"
  let enabled ← RawValue.get? row "enabled"
  let includes ← RawValue.get? row "include"
  let included ← asItems (includes.getD (.arr [.str "*"]))
  let excludes ← RawValue.get? row "exclude"
  let excluded ← asItems (excludes.getD (.arr []))
  return ((name.getD .null).toText,
    ⟨(enabled.getD (.bool true)).truthy, included, excluded, isScoped includes⟩)

/-- The platforms of a configuration, which have different names. -/
def scopesOf (data : Dict) : Except Exn (List (String × Scope)) := do
  let rows ← rowsAt data "platforms"
  let scopes ← rows.mapM scopeOf
  refuse (¬ (scopes.map (·.1)).Nodup) "platform names must be unique"
  return scopes

/-- Who saves platforms. -/
inductive Editor where
  | service
  | wizard

def Editor.carry : Editor → Option Json → Dict → Except Exn Dict
  | .service => carryScope
  | .wizard => carryIncludes

end Scopes

section Rows

variable {key text : String} {rows others : List Json}

theorem otherRows_mem (split : otherRows key text rows = .ok others) {row : Json}
    (member : row ∈ rows) (other : hasText key text row = .ok false) : row ∈ others := by
  induction rows generalizing others with
  | nil => cases member
  | cons first rest inductionHypothesis =>
    obtain ⟨same, tested, split⟩ := bind_eq_ok.mp split
    obtain ⟨later, remaining, done⟩ := bind_eq_ok.mp split
    rw [← Except.ok.inj done]
    rcases List.mem_cons.mp member with rfl | behind
    · rw [other] at tested
      rw [← Except.ok.inj tested]
      exact List.mem_cons_self
    · cases same with
      | true => exact inductionHypothesis remaining behind
      | false => exact List.mem_cons_of_mem _ (inductionHypothesis remaining behind)

theorem otherRows_tests (split : otherRows key text rows = .ok others) {row : Json}
    (member : row ∈ rows) : ∃ same, hasText key text row = .ok same := by
  induction rows generalizing others with
  | nil => cases member
  | cons first rest inductionHypothesis =>
    obtain ⟨same, tested, split⟩ := bind_eq_ok.mp split
    obtain ⟨later, remaining, _⟩ := bind_eq_ok.mp split
    rcases List.mem_cons.mp member with rfl | behind
    · exact ⟨same, tested⟩
    · exact inductionHypothesis remaining behind

/-- The row that is found is one with the text, and some row with the text is found. -/
theorem findRow_found {found : Option Json} (finds : findRow key text rows = .ok found)
    {row : Json} (member : row ∈ rows) (own : hasText key text row = .ok true) :
    ∃ first ∈ rows, found = some first ∧ hasText key text first = .ok true := by
  induction rows with
  | nil => cases member
  | cons first rest inductionHypothesis =>
    obtain ⟨same, tested, finds⟩ := bind_eq_ok.mp finds
    cases same with
    | true => exact ⟨first, List.mem_cons_self, (Except.ok.inj finds).symm, tested⟩
    | false =>
      rcases List.mem_cons.mp member with rfl | behind
      · rw [own] at tested
        cases tested
      · obtain ⟨second, listed, same, has⟩ := inductionHypothesis finds behind
        exact ⟨second, List.mem_cons_of_mem _ listed, same, has⟩

end Rows

section Carrying

/-- What a dictionary protects. -/
theorem scopeOf_obj {fields : Dict} {named : String} {scope : Scope} :
    scopeOf (.obj fields) = .ok (named, scope) ↔ isMissing (fields.get? "name") = false ∧
      named = ((fields.get? "name").getD .null).toText ∧
      scope.enabled = ((fields.get? "enabled").getD (.bool true)).truthy ∧
      asItems ((fields.get? "include").getD (.arr [.str "*"])) = .ok scope.includes ∧
      asItems ((fields.get? "exclude").getD (.arr [])) = .ok scope.excludes ∧
      scope.selective = isScoped (fields.get? "include") := by
  constructor
  · intro read
    obtain ⟨_, given, read⟩ := bind_eq_ok.mp read
    obtain rfl := Except.ok.inj given
    obtain ⟨_, present, read⟩ := bind_eq_ok.mp read
    obtain ⟨_, given, read⟩ := bind_eq_ok.mp read
    obtain rfl := Except.ok.inj given
    obtain ⟨_, given, read⟩ := bind_eq_ok.mp read
    obtain rfl := Except.ok.inj given
    obtain ⟨included, includes, read⟩ := bind_eq_ok.mp read
    obtain ⟨_, given, read⟩ := bind_eq_ok.mp read
    obtain rfl := Except.ok.inj given
    obtain ⟨excluded, excludes, done⟩ := bind_eq_ok.mp read
    obtain ⟨rfl, rfl⟩ := Prod.mk.inj (Except.ok.inj done)
    exact ⟨Bool.not_eq_true _ ▸ refuse_eq_ok.mp present, rfl, rfl, includes, excludes, rfl⟩
  · rintro ⟨present, rfl, enabled, includes, excludes, selective⟩
    have kept : scope = ⟨scope.enabled, scope.includes, scope.excludes, scope.selective⟩ := rfl
    rw [kept, enabled, selective]
    have given : ∀ key, RawValue.get? (Json.obj fields) key = .ok (fields.get? key) :=
      fun _ => rfl
    have accepted : refuse (isMissing (fields.get? "name") = true)
        "missing required config key: name" = .ok () :=
      refuse_eq_ok.mpr (by rw [present]; decide)
    rw [scopeOf, given, ok_bind, accepted, ok_bind, given, ok_bind, given, ok_bind, includes,
      ok_bind, given, ok_bind, excludes, ok_bind]
    rfl

/-- Only a dictionary is a platform. -/
theorem scopeOf_eq_ok {row : Json} {loaded : String × Scope} (read : scopeOf row = .ok loaded) :
    ∃ fields, row = .obj fields := by
  obtain ⟨_, given, _⟩ := bind_eq_ok.mp read
  cases row with
  | obj fields => exact ⟨fields, rfl⟩
  | null => cases given
  | bool value => cases given
  | int value => cases given
  | str text => cases given
  | arr items => cases given

/-- Matching every name. -/
theorem matchesAny_star (name : String) : matchesAny name [.str "*"] = .ok true := by
  rw [matchesAny, fnmatch_star]
  rfl

variable {previous : Dict} {named : String} {old : Scope} {entry carried : Dict}

/-- What falls under the excluded patterns is the same whether nothing stands for a false
value or is its own. -/
theorem rowsOf_items {value : Option Json} {items rows : List Json}
    (loaded : asItems (value.getD (.arr [])) = .ok items) (given : rowsOf value = .ok rows) :
    rows = items := by
  cases value with
  | none => exact (Except.ok.inj given).symm.trans (Except.ok.inj loaded)
  | some value =>
    rw [rowsOf] at given
    cases truth : value.truthy with
    | true =>
      rw [truth, if_pos rfl] at given
      exact Except.ok.inj (given.symm.trans loaded)
    | false =>
      rw [truth, if_neg (by decide)] at given
      rw [← Except.ok.inj given]
      cases value with
      | null => cases loaded
      | bool value => cases loaded
      | int value => cases loaded
      | str text =>
        obtain rfl : text = "" := by simpa [Json.truthy] using truth
        exact Except.ok.inj loaded
      | arr list =>
        obtain rfl : list = [] := by simpa [Json.truthy] using truth
        exact Except.ok.inj loaded
      | obj fields =>
        obtain rfl : fields = [] := by simpa [Json.truthy] using truth
        exact Except.ok.inj loaded

/-- A new row for every machine. -/
structure Fresh (entry : Dict) (named : String) : Prop where
  name : entry.get? "name" = some (.str named)
  enabled : entry.get? "enabled" = some (.bool true)
  includes : entry.get? "include" = some (.arr [.str "*"])
  excludes : entry.get? "exclude" = some (.arr [])

/-- The excluded patterns that are carried over. -/
def Editor.excludes : Editor → Scope → List Json
  | .service, old => old.excludes
  | .wizard, _ => []

theorem isScoped_given {value : Option Json} (selective : isScoped value = true) :
    ∃ given, value = some given := by
  cases value with
  | none => cases selective
  | some given => exact ⟨given, rfl⟩

theorem carryScope_obj (previous entry : Dict) : carryScope (some (.obj previous)) entry =
    if isScoped (previous.get? "include") then do
      let included ← asItems ((previous.get? "include").getD .null)
      let excluded ← rowsOf (previous.get? "exclude")
      return (entry.set "include" (.arr included)).set "exclude" (.arr excluded)
    else .ok entry := rfl

theorem carryIncludes_obj (previous entry : Dict) : carryIncludes (some (.obj previous)) entry =
    if isScoped (previous.get? "include") then do
      let included ← asItems ((previous.get? "include").getD .null)
      return entry.set "include" (.arr included)
    else .ok entry := rfl

/-- A selection is carried over as far as the editor does that; without one, the new row
protects every machine. -/
theorem scope_carried (editor : Editor) {called : String} {new : Scope}
    (fresh : Fresh entry named) (loaded : scopeOf (.obj previous) = .ok (called, old))
    (carries : editor.carry (some (.obj previous)) entry = .ok carried)
    (reloaded : ∃ again, scopeOf (.obj carried) = .ok (again, new)) :
    new.enabled = true ∧ if old.selective = true then
      new.includes = old.includes ∧ new.excludes = editor.excludes old
    else new.includes = [.str "*"] ∧ new.excludes = [] := by
  obtain ⟨-, -, -, includes, excludes, selective⟩ := scopeOf_obj.mp loaded
  obtain ⟨again, reloaded⟩ := reloaded
  obtain ⟨-, -, enabled, included, excluded, -⟩ := scopeOf_obj.mp reloaded
  have asked : ∀ key, RawValue.get? (Json.obj previous) key = .ok (previous.get? key) :=
    fun _ => rfl
  cases whether : old.selective with
  | false =>
    rw [whether] at selective
    obtain rfl : carried = entry := by
      cases editor with
      | service =>
        rw [Editor.carry, carryScope_obj, ← selective, if_neg (by decide)] at carries
        exact (Except.ok.inj carries).symm
      | wizard =>
        rw [Editor.carry, carryIncludes_obj, ← selective, if_neg (by decide)] at carries
        exact (Except.ok.inj carries).symm
    rw [fresh.enabled] at enabled
    rw [fresh.includes] at included
    rw [fresh.excludes] at excluded
    rw [if_neg (by decide)]
    exact ⟨enabled, (Except.ok.inj included).symm, (Except.ok.inj excluded).symm⟩
  | true =>
    rw [whether] at selective
    obtain ⟨value, present⟩ := isScoped_given selective.symm
    rw [present] at includes
    rw [if_pos rfl]
    cases editor with
    | service =>
      rw [Editor.carry, carryScope_obj, ← selective, if_pos rfl, present] at carries
      obtain ⟨items, listed, carries⟩ := bind_eq_ok.mp carries
      obtain ⟨rest, given, done⟩ := bind_eq_ok.mp carries
      obtain rfl := Except.ok.inj done
      rw [Dict.get?_set_ne _ _ (by decide), Dict.get?_set_ne _ _ (by decide), fresh.enabled]
        at enabled
      rw [Dict.get?_set_ne _ _ (by decide), Dict.get?_set_self] at included
      rw [Dict.get?_set_self] at excluded
      have same : items = old.includes := Except.ok.inj (listed.symm.trans includes)
      have others : rest = old.excludes := rowsOf_items excludes given
      exact ⟨enabled, same ▸ (Except.ok.inj included).symm,
        (Except.ok.inj excluded).symm.trans others⟩
    | wizard =>
      rw [Editor.carry, carryIncludes_obj, ← selective, if_pos rfl, present] at carries
      obtain ⟨items, listed, done⟩ := bind_eq_ok.mp carries
      obtain rfl := Except.ok.inj done
      rw [Dict.get?_set_ne _ _ (by decide), fresh.enabled] at enabled
      rw [Dict.get?_set_self] at included
      rw [Dict.get?_set_ne _ _ (by decide), fresh.excludes] at excluded
      have same : items = old.includes := Except.ok.inj (listed.symm.trans includes)
      exact ⟨enabled, same ▸ (Except.ok.inj included).symm, (Except.ok.inj excluded).symm⟩

end Carrying

section Saving

variable {Φ : Type} [Floating Φ] {body : List (Str × Value Φ)} {prepared : Prepared Φ}

theorem fresh_platform (accepted : platform body = .ok prepared) :
    Fresh (jsonFields prepared.entry) (printed (strippedAt body "name")) := by
  unfold SetupRequests.platform at accepted
  split at accepted
  · cases accepted
  · obtain ⟨_, _, accepted⟩ := bind_eq_ok.mp accepted
    obtain ⟨tag, _, done⟩ := bind_eq_ok.mp accepted
    obtain rfl := Except.ok.inj done
    constructor <;>
      simp [jsonFields, SetupRequests.textField, SetupRequests.boolField, jsonOf, jsonItems,
        BrokerMessages.printed_str, Dict.get?]

theorem mapM_append_ok {α β : Type} {compute : α → Except Exn β} {entries others : List α}
    {results : List β} (ran : (entries ++ others).mapM compute = .ok results) :
    ∃ first rest, entries.mapM compute = .ok first ∧ others.mapM compute = .ok rest ∧
      results = first ++ rest := by
  rw [List.mapM_append] at ran
  obtain ⟨first, own, ran⟩ := bind_eq_ok.mp ran
  obtain ⟨rest, behind, done⟩ := bind_eq_ok.mp ran
  exact ⟨first, rest, own, behind, (Except.ok.inj done).symm⟩

theorem mapM_of_mem {α β : Type} {compute : α → Except Exn β} {entries : List α}
    {results : List β} (ran : entries.mapM compute = .ok results) {entry : α}
    (member : entry ∈ entries) : ∃ result ∈ results, compute entry = .ok result := by
  induction entries generalizing results with
  | nil => cases member
  | cons first rest inductionHypothesis =>
    obtain ⟨result, others, own, behind, rfl⟩ := mapM_cons_ok.mp ran
    rcases List.mem_cons.mp member with rfl | later
    · exact ⟨result, List.mem_cons_self, own⟩
    · obtain ⟨other, listed, same⟩ := inductionHypothesis behind later
      exact ⟨other, List.mem_cons_of_mem _ listed, same⟩

theorem isText_toText {text : String} {value : Option Json} (same : isText text value = true) :
    (value.getD .null).toText = text := by
  cases value with
  | none => cases same
  | some given =>
    cases given with
    | str other => exact of_decide_eq_true same
    | null => cases same
    | bool value => cases same
    | int value => cases same
    | arr items => cases same
    | obj fields => cases same

/-- What is carried over leaves the name alone. -/
theorem carry_name {editor : Editor} {previous : Option Json} {entry carried : Dict}
    (carries : editor.carry previous entry = .ok carried) :
    carried.get? "name" = entry.get? "name" := by
  cases previous with
  | none =>
    cases editor <;> exact congrArg (Dict.get? · "name") (Except.ok.inj carries).symm
  | some row =>
    cases editor with
    | service =>
      obtain ⟨includes, _, carries⟩ := bind_eq_ok.mp carries
      obtain ⟨excludes, _, carries⟩ := bind_eq_ok.mp carries
      split at carries
      · obtain ⟨included, _, carries⟩ := bind_eq_ok.mp carries
        obtain ⟨excluded, _, done⟩ := bind_eq_ok.mp carries
        rw [← Except.ok.inj done, Dict.get?_set_ne _ _ (by decide),
          Dict.get?_set_ne _ _ (by decide)]
      · rw [Except.ok.inj carries]
    | wizard =>
      obtain ⟨includes, _, carries⟩ := bind_eq_ok.mp carries
      split at carries
      · obtain ⟨included, _, done⟩ := bind_eq_ok.mp carries
        rw [← Except.ok.inj done, Dict.get?_set_ne _ _ (by decide)]
      · rw [Except.ok.inj carries]

/-- The names of the rows of a configuration are all different. -/
theorem scopesOf_rows {data : Dict} {scopes : List (String × Scope)}
    (loaded : scopesOf data = .ok scopes) : ∃ rows, rowsAt data "platforms" = .ok rows ∧
      rows.mapM scopeOf = .ok scopes ∧ (scopes.map (·.1)).Nodup := by
  obtain ⟨rows, given, loaded⟩ := bind_eq_ok.mp loaded
  obtain ⟨read, each, loaded⟩ := bind_eq_ok.mp loaded
  obtain ⟨_, distinct, done⟩ := bind_eq_ok.mp loaded
  obtain rfl := Except.ok.inj done
  exact ⟨rows, given, each, not_not.mp (refuse_eq_ok.mp distinct)⟩

/-- What the old and the new row of a platform protect, when both configurations load. -/
theorem scopes_saved {editor : Editor} {data saved : Dict} {before after : List (String × Scope)}
    {named : String} {old new : Scope} {entry : Dict} (fresh : Fresh entry named)
    (loaded : scopesOf data = .ok before) (known : (named, old) ∈ before)
    (saves : withRow editor.carry data "platforms" named entry = .ok saved)
    (reloaded : scopesOf saved = .ok after) (found : (named, new) ∈ after) :
    new.enabled = true ∧ if old.selective = true then
      new.includes = old.includes ∧ new.excludes = editor.excludes old
    else new.includes = [.str "*"] ∧ new.excludes = [] := by
  obtain ⟨rows, given, each, distinct⟩ := scopesOf_rows loaded
  obtain ⟨rows', given', each', distinct'⟩ := scopesOf_rows reloaded
  obtain ⟨rows'', given'', saves⟩ := bind_eq_ok.mp saves
  obtain rfl : rows'' = rows := Except.ok.inj (given''.symm.trans given)
  obtain ⟨previous, finds, saves⟩ := bind_eq_ok.mp saves
  obtain ⟨carried, carries, saves⟩ := bind_eq_ok.mp saves
  obtain ⟨others, split, done⟩ := bind_eq_ok.mp saves
  obtain rfl := Except.ok.inj done
  obtain rfl : rows' = others ++ [.obj carried] := by
    rw [rowsAt, Dict.get?_set_self] at given'
    have filled : (Json.arr (others ++ [.obj carried])).truthy = true := by simp [Json.truthy]
    rw [rowsOf, filled, if_pos rfl] at given'
    exact (Except.ok.inj given').symm
  obtain ⟨kept, last, keeps, own, rfl⟩ := mapM_append_ok each'
  obtain ⟨⟨called, scope⟩, rest, read, none, rfl⟩ := mapM_cons_ok.mp own
  obtain rfl := Except.ok.inj none
  obtain rfl : called = named := by
    rw [(scopeOf_obj.mp read).2.1, carry_name carries, fresh.name]
    rfl
  rw [List.map_append, List.nodup_append] at distinct'
  have fresh' : ∀ other, (called, other) ∉ kept := fun other member =>
    distinct'.2.2 called (List.mem_map_of_mem member) called List.mem_cons_self rfl
  obtain rfl : new = scope := by
    rcases List.mem_append.mp found with earlier | last
    · exact absurd earlier (fresh' new)
    · exact (Prod.mk.inj (List.mem_singleton.mp last)).2
  obtain ⟨row, listed, reads⟩ := mapM_mem each known
  obtain ⟨same, tested⟩ := otherRows_tests split listed
  cases same with
  | false =>
    obtain ⟨loaded, member, again⟩ := mapM_of_mem keeps (otherRows_mem split listed tested)
    obtain rfl := Except.ok.inj (reads.symm.trans again)
    exact absurd member (fresh' old)
  | true =>
    obtain ⟨first, present, rfl, has⟩ := findRow_found finds listed tested
    obtain ⟨⟨name, oldest⟩, member, again⟩ := mapM_of_mem each present
    obtain ⟨fields, rfl⟩ := scopeOf_eq_ok again
    obtain rfl : name = called := by
      rw [(scopeOf_obj.mp again).2.1]
      exact isText_toText (Except.ok.inj has)
    obtain ⟨-, rfl⟩ := Prod.mk.inj (List.inj_on_of_nodup_map distinct member known rfl)
    exact scope_carried editor fresh again carries ⟨_, read⟩

end Saving

section Exactness

/-- The condition under which a platform that is saved again protects the same machines. With
a selection that is carried over, the service keeps it, but the new row is enabled; the
wizard loses the excluded patterns as well. Without one, the new row protects everything. -/
def Editor.Keeps (editor : Editor) (old : Scope) : Prop :=
  if old.selective = true then
    match editor with
    | .service => old.enabled = true ∨ ∀ name, old.selected name ≠ .ok true
    | .wizard => ∀ name, matchesAny name old.includes = .ok true →
        old.enabled = true ∧ matchesAny name old.excludes = .ok false
  else old.enabled = true ∧ ∀ name, old.selected name = .ok true

theorem selected_eq_true {scope : Scope} {name : String} : scope.selected name = .ok true ↔
    matchesAny name scope.includes = .ok true ∧ matchesAny name scope.excludes = .ok false := by
  unfold Scope.selected
  cases matchesAny name scope.includes with
  | error error => simp [Bind.bind, Except.bind]
  | ok included =>
    cases matchesAny name scope.excludes with
    | error error => simp [Bind.bind, Except.bind]
    | ok excluded => simp [Bind.bind, Except.bind, Pure.pure, Except.pure]

variable {Φ : Type} [Floating Φ] {body : List (Str × Value Φ)} {prepared : Prepared Φ}

/-- A platform that is saved again, by the management service or by the setup wizard,
protects the same machines as before exactly under the condition on its old row. -/
theorem resaved_iff {editor : Editor} {data saved : Dict} {before after : List (String × Scope)}
    {old new : Scope} (accepted : platform body = .ok prepared)
    (loaded : scopesOf data = .ok before)
    (known : (printed (strippedAt body "name"), old) ∈ before)
    (saves : withRow editor.carry data "platforms" (printed (strippedAt body "name"))
      (jsonFields prepared.entry) = .ok saved)
    (reloaded : scopesOf saved = .ok after)
    (found : (printed (strippedAt body "name"), new) ∈ after) :
    (∀ name, new.Protects name ↔ old.Protects name) ↔ editor.Keeps old := by
  obtain ⟨enabled, carried⟩ :=
    scopes_saved (fresh_platform accepted) loaded known saves reloaded found
  unfold Editor.Keeps
  split at carried
  · rename_i selective
    obtain ⟨includes, excludes⟩ := carried
    rw [if_pos selective]
    cases editor with
    | service =>
      have selects : ∀ name, new.selected name = old.selected name := by
        intro name
        rw [Scope.selected, Scope.selected, includes, excludes]
        rfl
      constructor
      · intro same
        by_contra neither
        rw [not_or, not_forall] at neither
        obtain ⟨off, name, selected⟩ := neither
        rw [not_not] at selected
        exact off ((same name).mp ⟨enabled, (selects name).trans selected⟩).1
      · rintro (on | none) name
        · rw [Scope.Protects, Scope.Protects, selects, enabled, on]
        · rw [Scope.Protects, Scope.Protects, selects]
          exact ⟨fun new => absurd new.2 (none name), fun old => absurd old.2 (none name)⟩
    | wizard =>
      have selects : ∀ name, new.Protects name ↔ matchesAny name old.includes = .ok true := by
        intro name
        rw [Scope.Protects, selected_eq_true, includes, excludes]
        exact ⟨fun protects => protects.2.1, fun included => ⟨enabled, included, rfl⟩⟩
      constructor
      · intro same name included
        obtain ⟨on, selected⟩ := (same name).mp ((selects name).mpr included)
        exact ⟨on, (selected_eq_true.mp selected).2⟩
      · intro spared name
        rw [selects]
        constructor
        · intro included
          obtain ⟨on, free⟩ := spared name included
          exact ⟨on, selected_eq_true.mpr ⟨included, free⟩⟩
        · exact fun protects => (selected_eq_true.mp protects.2).1
  · rename_i whole
    obtain ⟨includes, excludes⟩ := carried
    rw [if_neg whole]
    have everything : ∀ name, new.Protects name := by
      intro name
      refine ⟨enabled, selected_eq_true.mpr ⟨?_, ?_⟩⟩
      · rw [includes]
        exact matchesAny_star name
      · rw [excludes]
        rfl
    constructor
    · intro same
      exact ⟨((same "").mp (everything "")).1, fun name => ((same name).mp (everything name)).2⟩
    · rintro ⟨on, all⟩ name
      exact ⟨fun _ => ⟨on, all name⟩, fun _ => everything name⟩

/-- A hypervisor with these patterns. -/
def hypervisor (included excluded : String) : Dict :=
  [("platforms", .arr [.obj [("name", .str "vc-1 (main)"), ("type", .str "vmware"),
    ("endpoint", .str "vc.example"), ("include", .arr [.str included]),
    ("exclude", .arr [.str excluded])]])]

/-- The row that is saved for it with these patterns. -/
def resavedRow (included excluded : List Json) : Dict :=
  [("name", .str "vc-1 (main)"), ("type", .str "vmware"), ("enabled", .bool true),
    ("endpoint", .str "vc.example"), ("include", .arr included), ("exclude", .arr excluded),
    ("mode", .str "hot-clone-export"), ("options", .obj [
      ("username_env", .str "IMMUTAVAULT_VC_1_MAIN_USERNAME"),
      ("password_env", .str "IMMUTAVAULT_VC_1_MAIN_PASSWORD"), ("insecure", .bool false),
      ("quiesce", .bool true), ("quiesce_fallback_crash_consistent", .bool false)])]

theorem quotedPassword_entry :
    ∃ prepared, platform EnvironmentFiles.quotedPassword = .ok prepared ∧
      jsonFields prepared.entry = resavedRow [.str "*"] [] := ⟨_, rfl, rfl⟩

theorem quotedPassword_name :
    printed (strippedAt EnvironmentFiles.quotedPassword "name") = "vc-1 (main)" := by
  decide

/-- The service keeps the selection of an enabled platform. -/
theorem hypervisor_resaved : ∃ prepared saved after old new,
    platform EnvironmentFiles.quotedPassword = .ok prepared ∧
      withRow Editor.service.carry (hypervisor "web-*" "web-test*") "platforms"
        (printed (strippedAt EnvironmentFiles.quotedPassword "name"))
          (jsonFields prepared.entry) = .ok saved ∧
      scopesOf saved = .ok after ∧ ("vc-1 (main)", new) ∈ after ∧
      ∀ name, Scope.Protects new name ↔ Scope.Protects old name := by
  obtain ⟨prepared, accepted, entry⟩ := quotedPassword_entry
  have loaded : scopesOf (hypervisor "web-*" "web-test*") =
      .ok [("vc-1 (main)", ⟨true, [.str "web-*"], [.str "web-test*"], true⟩)] := rfl
  have saves : withRow Editor.service.carry (hypervisor "web-*" "web-test*") "platforms"
      (printed (strippedAt EnvironmentFiles.quotedPassword "name")) (jsonFields prepared.entry) =
        .ok [("platforms", .arr [.obj (resavedRow [.str "web-*"] [.str "web-test*"])])] := by
    rw [quotedPassword_name, entry]
    rfl
  have reloaded : scopesOf
      [("platforms", .arr [.obj (resavedRow [.str "web-*"] [.str "web-test*"])])] =
        .ok [("vc-1 (main)", ⟨true, [.str "web-*"], [.str "web-test*"], true⟩)] := rfl
  refine ⟨prepared, _, _, ⟨true, [.str "web-*"], [.str "web-test*"], true⟩, _, accepted, saves,
    reloaded, List.mem_cons_self, ?_⟩
  refine (resaved_iff accepted loaded ?_ saves reloaded ?_).mpr (Or.inl rfl)
  · rw [quotedPassword_name]
    exact List.mem_cons_self
  · rw [quotedPassword_name]
    exact List.mem_cons_self

/-- A platform that protects all but some machines protects these, too, when it is saved
again. -/
theorem excluded_protected : ¬ ∀ (editor : Editor) (data saved : Dict)
    (before after : List (String × Scope)) (body : List (Str × Value Constant))
    (prepared : Prepared Constant) (old new : Scope), platform body = .ok prepared →
      scopesOf data = .ok before → (printed (strippedAt body "name"), old) ∈ before →
      withRow editor.carry data "platforms" (printed (strippedAt body "name"))
        (jsonFields prepared.entry) = .ok saved →
      scopesOf saved = .ok after → (printed (strippedAt body "name"), new) ∈ after →
      ∀ name, new.Protects name → old.Protects name := by
  intro claimed
  obtain ⟨prepared, accepted, entry⟩ := quotedPassword_entry
  have loaded : scopesOf (hypervisor "*" "db-*") =
      .ok [("vc-1 (main)", ⟨true, [.str "*"], [.str "db-*"], false⟩)] := rfl
  have saves : withRow Editor.service.carry (hypervisor "*" "db-*") "platforms"
      (printed (strippedAt EnvironmentFiles.quotedPassword "name")) (jsonFields prepared.entry) =
        .ok [("platforms", .arr [.obj (resavedRow [.str "*"] [])])] := by
    rw [quotedPassword_name, entry]
    rfl
  have reloaded : scopesOf [("platforms", .arr [.obj (resavedRow [.str "*"] [])])] =
      .ok [("vc-1 (main)", ⟨true, [.str "*"], [], false⟩)] := rfl
  have found : ∀ scope : Scope, (printed (strippedAt EnvironmentFiles.quotedPassword "name"),
      scope) ∈ [("vc-1 (main)", scope)] := by
    intro scope
    rw [quotedPassword_name]
    exact List.mem_cons_self
  have expands := claimed .service _ _ _ _ EnvironmentFiles.quotedPassword prepared _ _ accepted
    loaded (found _) saves reloaded (found _) "db-1"
  have spared := (expands ⟨rfl, selected_eq_true.mpr ⟨matchesAny_star _, rfl⟩⟩).2
  exact absurd (selected_eq_true.mp spared).2 (by decide)

end Exactness

end Immutavault.ResavedPlatforms
