import Mathlib.Data.List.Basic
import Mathlib.Data.List.Nodup

/-!
# Relational tables with a primary key

Two kinds of table occur in a small relational store. A numbered table gives
each inserted row the next number and never reuses one, so its rows stand in
ascending order of their numbers. A keyed table holds at most one row for each
key; replacing a row moves it to the end, storing one leaves it in its place.

Both carry their key discipline as a field. A lookup therefore reads the only
row with that key, and the laws below speak about lookups and membership.
-/

namespace Immutavault.Tables

variable {ρ κ : Type}

section Rows

variable [DecidableEq κ]

/-- The first row with this key. -/
def find (key : κ) : List (κ × ρ) → Option ρ
  | [] => none
  | entry :: rest => if entry.1 = key then some entry.2 else find key rest

/-- Change every row with this key, keeping all keys and positions. -/
def alter (key : κ) (change : ρ → ρ) (rows : List (κ × ρ)) : List (κ × ρ) :=
  rows.map fun entry => if entry.1 = key then (entry.1, change entry.2) else entry

theorem find_mem {key : κ} {row : ρ} {rows : List (κ × ρ)} (found : find key rows = some row) :
    (key, row) ∈ rows := by
  induction rows with
  | nil => simp [find] at found
  | cons entry rest inductionHypothesis =>
    by_cases here : entry.1 = key
    · have same : entry.2 = row := by simpa [find, here] using found
      exact List.mem_cons.mpr (Or.inl (Prod.ext here.symm same.symm))
    · exact List.mem_cons_of_mem _ (inductionHypothesis (by simpa [find, here] using found))

/-- With distinct keys, a lookup reads exactly the member with that key. -/
theorem mem_iff_find {rows : List (κ × ρ)} (distinct : (rows.map Prod.fst).Nodup)
    (key : κ) (row : ρ) : (key, row) ∈ rows ↔ find key rows = some row := by
  refine ⟨?_, find_mem⟩
  induction rows with
  | nil => simp
  | cons entry rest inductionHypothesis =>
    simp only [List.map_cons, List.nodup_cons] at distinct
    intro member
    by_cases here : entry.1 = key
    · rcases List.mem_cons.mp member with same | later
      · simp [find, ← same]
      · exact absurd (List.mem_map.mpr ⟨_, later, here.symm⟩) distinct.1
    · have unequal : (key, row) ≠ entry := fun same => here (congrArg Prod.fst same).symm
      have later : (key, row) ∈ rest := (List.mem_cons.mp member).resolve_left unequal
      simpa [find, here] using inductionHypothesis distinct.2 later

theorem find_append (key : κ) (first second : List (κ × ρ)) :
    find key (first ++ second) = (find key first).or (find key second) := by
  induction first with
  | nil => rfl
  | cons entry rest inductionHypothesis =>
    by_cases here : entry.1 = key <;> simp [find, here, inductionHypothesis]

theorem find_alter (key other : κ) (change : ρ → ρ) (rows : List (κ × ρ)) :
    find other (alter key change rows) =
      if other = key then (find key rows).map change else find other rows := by
  induction rows with
  | nil => simp [find, alter]
  | cons entry rest inductionHypothesis =>
    simp only [alter] at inductionHypothesis
    by_cases asked : other = key
    · subst asked
      by_cases here : entry.1 = other <;> simp_all [find, alter]
    · by_cases here : entry.1 = key
      · have different : ¬ key = other := fun same => asked same.symm
        simp_all [find, alter]
      · by_cases reached : entry.1 = other <;> simp_all [find, alter]

theorem keys_alter (key : κ) (change : ρ → ρ) (rows : List (κ × ρ)) :
    (alter key change rows).map Prod.fst = rows.map Prod.fst := by
  simp only [alter, List.map_map]
  apply List.map_congr_left
  intro entry _
  by_cases here : entry.1 = key <;> simp [here]

/-- Giving one key another row counts at most that row more. -/
theorem countP_alter (test : κ × ρ → Bool) (key : κ) (row : ρ) {rows : List (κ × ρ)}
    (distinct : (rows.map Prod.fst).Nodup) :
    (alter key (fun _ => row) rows).countP test ≤
      rows.countP test + if test (key, row) then 1 else 0 := by
  induction rows with
  | nil => simp [alter]
  | cons entry rest inductionHypothesis =>
    simp only [List.map_cons, List.nodup_cons] at distinct
    by_cases here : entry.1 = key
    · have untouched : alter key (fun _ => row) rest = rest := by
        refine (List.map_congr_left fun other member => ?_).trans (List.map_id rest)
        have different : other.1 ≠ key := by
          intro same
          exact distinct.1 (List.mem_map.mpr ⟨other, member, same.trans here.symm⟩)
        exact if_neg different
      have altered : alter key (fun _ => row) (entry :: rest) = (key, row) :: rest := by
        refine congrArg₂ List.cons ((if_pos here).trans ?_) untouched
        rw [here]
      rw [altered, List.countP_cons, List.countP_cons]
      omega
    · have altered : alter key (fun _ => row) (entry :: rest) =
          entry :: alter key (fun _ => row) rest :=
        congrArg₂ List.cons (if_neg here) rfl
      have counted := inductionHypothesis distinct.2
      rw [altered, List.countP_cons, List.countP_cons]
      omega

end Rows

/-- Rows numbered by insertion. Numbers ascend and stay below the next one. -/
structure Numbered (ρ : Type) where
  rows : List (Nat × ρ)
  next : Nat
  ascending : (rows.map Prod.fst).Pairwise (· < ·)
  bounded : ∀ number ∈ rows.map Prod.fst, number < next

namespace Numbered

/-- A new table; the first inserted row has number one. -/
def empty : Numbered ρ := ⟨[], 1, List.Pairwise.nil, by simp⟩

/-- The row with this number. -/
def lookup (table : Numbered ρ) (number : Nat) : Option ρ := find number table.rows

/-- Append a row under the next number. -/
def insert (table : Numbered ρ) (row : ρ) : Numbered ρ where
  rows := table.rows ++ [(table.next, row)]
  next := table.next + 1
  ascending := by
    rw [List.map_append, List.pairwise_append]
    refine ⟨table.ascending, by simp, ?_⟩
    intro number member last new
    simp only [List.map_cons, List.map_nil, List.mem_singleton] at new
    exact new ▸ table.bounded number member
  bounded := by
    intro number member
    rw [List.map_append, List.mem_append] at member
    rcases member with old | new
    · exact Nat.lt_succ_of_lt (table.bounded number old)
    · simp only [List.map_cons, List.map_nil, List.mem_singleton] at new
      exact new ▸ Nat.lt_succ_self table.next

/-- Change the row with this number, if there is one. -/
def modify (table : Numbered ρ) (number : Nat) (change : ρ → ρ) : Numbered ρ where
  rows := alter number change table.rows
  next := table.next
  ascending := by
    rw [keys_alter]
    exact table.ascending
  bounded := by
    rw [keys_alter]
    exact table.bounded

@[simp] theorem next_insert (table : Numbered ρ) (row : ρ) :
    (table.insert row).next = table.next + 1 := rfl

@[simp] theorem next_modify (table : Numbered ρ) (number : Nat) (change : ρ → ρ) :
    (table.modify number change).next = table.next := rfl

@[simp] theorem rows_insert (table : Numbered ρ) (row : ρ) :
    (table.insert row).rows = table.rows ++ [(table.next, row)] := rfl

theorem rows_modify (table : Numbered ρ) (number : Nat) (change : ρ → ρ) :
    (table.modify number change).rows = alter number change table.rows := rfl

/-- Membership and lookup agree: a number names at most one row. -/
theorem mem_rows_iff (table : Numbered ρ) (number : Nat) (row : ρ) :
    (number, row) ∈ table.rows ↔ table.lookup number = some row :=
  mem_iff_find (table.ascending.imp Nat.ne_of_lt) number row

/-- A number that is looked up successfully was given out before. -/
theorem lookup_lt {table : Numbered ρ} {number : Nat} {row : ρ}
    (found : table.lookup number = some row) : number < table.next :=
  table.bounded number (List.mem_map.mpr ⟨_, find_mem found, rfl⟩)

/-- The next number has not been given out. -/
theorem lookup_next (table : Numbered ρ) : table.lookup table.next = none := by
  cases found : table.lookup table.next with
  | none => rfl
  | some row => exact absurd (lookup_lt found) (Nat.lt_irrefl _)

/-- Inserting adds exactly the row under the next number. -/
theorem lookup_insert (table : Numbered ρ) (row : ρ) (number : Nat) :
    (table.insert row).lookup number =
      if number = table.next then some row else table.lookup number := by
  by_cases new : number = table.next
  · subst new
    have absent : find table.next table.rows = none := lookup_next table
    simp [lookup, find_append, absent, find]
  · have other : ¬ table.next = number := fun same => new same.symm
    simp [lookup, find_append, find, new, other]

/-- Modifying changes exactly the row with that number. -/
theorem lookup_modify (table : Numbered ρ) (number other : Nat) (change : ρ → ρ) :
    (table.modify number change).lookup other =
      if other = number then (table.lookup number).map change else table.lookup other :=
  find_alter number other change table.rows

end Numbered

/-- At most one row for each key. -/
structure Keyed (κ ρ : Type) where
  rows : List (κ × ρ)
  distinct : (rows.map Prod.fst).Nodup

namespace Keyed

variable [DecidableEq κ]

def empty : Keyed κ ρ := ⟨[], List.nodup_nil⟩

/-- The row with this key. -/
def lookup (table : Keyed κ ρ) (key : κ) : Option ρ := find key table.rows

/-- Delete the row with this key and append the given one. -/
def replace (table : Keyed κ ρ) (key : κ) (row : ρ) : Keyed κ ρ where
  rows := table.rows.filter (fun entry => entry.1 ≠ key) ++ [(key, row)]
  distinct := by
    rw [List.map_append, List.nodup_append]
    refine ⟨table.distinct.sublist (List.filter_sublist.map _), by simp, ?_⟩
    intro kept member new last
    obtain ⟨entry, present, rfl⟩ := List.mem_map.mp member
    have unequal : entry.1 ≠ key := by simpa using (List.mem_filter.mp present).2
    simp only [List.map_cons, List.map_nil, List.mem_singleton] at last
    exact last ▸ unequal

/-- Change the row with this key, if there is one. -/
def modify (table : Keyed κ ρ) (key : κ) (change : ρ → ρ) : Keyed κ ρ where
  rows := alter key change table.rows
  distinct := by
    rw [keys_alter]
    exact table.distinct

/-- Overwrite the row with this key in its place, or append it. -/
def store (table : Keyed κ ρ) (key : κ) (row : ρ) : Keyed κ ρ :=
  match table.lookup key with
  | some _ => table.modify key (fun _ => row)
  | none => table.replace key row

/-- Keep the rows that pass a test. -/
def filter (table : Keyed κ ρ) (keep : ρ → Bool) : Keyed κ ρ where
  rows := table.rows.filter fun entry => keep entry.2
  distinct := table.distinct.sublist (List.filter_sublist.map _)

/-- Keep the entries that pass a test on key and row. -/
def select (table : Keyed κ ρ) (keep : κ → ρ → Bool) : Keyed κ ρ where
  rows := table.rows.filter fun entry => keep entry.1 entry.2
  distinct := table.distinct.sublist (List.filter_sublist.map _)

/-- Membership and lookup agree: a key names at most one row. -/
theorem mem_rows_iff (table : Keyed κ ρ) (key : κ) (row : ρ) :
    (key, row) ∈ table.rows ↔ table.lookup key = some row :=
  mem_iff_find table.distinct key row

theorem find_filter_ne (key other : κ) (rows : List (κ × ρ)) :
    find other (rows.filter fun entry => entry.1 ≠ key) =
      if other = key then none else find other rows := by
  induction rows with
  | nil => simp [find]
  | cons entry rest inductionHypothesis =>
    by_cases here : entry.1 = key
    · by_cases asked : other = key
      · simp_all
      · have different : ¬ key = other := fun same => asked same.symm
        simp_all [find]
    · by_cases reached : entry.1 = other
      · have asked : ¬ other = key := fun same => here (reached.trans same)
        simp_all [find]
      · simp_all [find]

/-- Replacing puts exactly this row under the key. -/
theorem lookup_replace (table : Keyed κ ρ) (key other : κ) (row : ρ) :
    (table.replace key row).lookup other =
      if other = key then some row else table.lookup other := by
  simp only [lookup, replace, find_append, find_filter_ne]
  by_cases asked : other = key
  · simp [asked, find]
  · have different : ¬ key = other := fun same => asked same.symm
    simp [asked, different, find]

/-- Selecting drops exactly the entries that fail the test. -/
theorem lookup_select (table : Keyed κ ρ) (keep : κ → ρ → Bool) (key : κ) :
    (table.select keep).lookup key = (table.lookup key).filter (keep key) := by
  apply Option.ext
  intro row
  rw [← mem_rows_iff, Option.filter_eq_some_iff, ← mem_rows_iff]
  simp [select]

/-- Modifying changes exactly the row with that key. -/
theorem lookup_modify (table : Keyed κ ρ) (key other : κ) (change : ρ → ρ) :
    (table.modify key change).lookup other =
      if other = key then (table.lookup key).map change else table.lookup other :=
  find_alter key other change table.rows

/-- Storing puts exactly this row under the key, wherever it stands. -/
theorem lookup_store (table : Keyed κ ρ) (key other : κ) (row : ρ) :
    (table.store key row).lookup other =
      if other = key then some row else table.lookup other := by
  cases found : table.lookup key with
  | none => simp only [store, found, lookup_replace]
  | some old => simp only [store, found, lookup_modify, Option.map_some]

/-- Storing a row counts at most that row more. -/
theorem countP_store (table : Keyed κ ρ) (test : κ × ρ → Bool) (key : κ) (row : ρ) :
    (table.store key row).rows.countP test ≤
      table.rows.countP test + if test (key, row) then 1 else 0 := by
  cases found : table.lookup key with
  | some old =>
    simp only [store, found]
    exact countP_alter test key row table.distinct
  | none =>
    simp only [store, found, replace, List.countP_append, List.countP_singleton]
    have fewer : (table.rows.filter fun entry => entry.1 ≠ key).countP test ≤
        table.rows.countP test := List.filter_sublist.countP_le
    omega

omit [DecidableEq κ] in
/-- Selecting counts no more. -/
theorem countP_select (table : Keyed κ ρ) (test : κ × ρ → Bool) (keep : κ → ρ → Bool) :
    (table.select keep).rows.countP test ≤ table.rows.countP test :=
  List.filter_sublist.countP_le

end Keyed

end Immutavault.Tables
