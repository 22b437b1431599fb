import Mathlib.Data.List.DropRight

/-!
# Texts of settings

Many programs keep their settings in plain texts, one item a line. A line opens a section, or
it assigns a value to a key; empty lines and comments say nothing, and blanks around keys and
values do not count. Where a format has a sign of escape, a line whose end is escaped goes on
with the next line, and a space stands for the sign. A sign of escape that is escaped itself
does not do so.

A writer of such a text means one item by each line. The reader finds these items when no value
holds an end of a line, begins or ends with a blank, or escapes the end of its line. Values
that are read are of the first two kinds in every text, so a value that is not is lost.
-/

namespace Immutavault.SettingFiles

variable {α : Type}

/-- The signs that have a meaning in a format. Formats without sections or without a sign of
escape leave these out. -/
structure Signs (α : Type) where
  isEnd : α → Bool
  isBlank : α → Bool
  isHash : α → Bool
  brackets : Option (α × α)
  assigns : α
  escape : Option α
  space : α
  space_inside : isEnd space = false
  assigns_other : escape ≠ some assigns

inductive Item (α : Type) where
  | heading (name : List α)
  | assignment (key value : List α)
  deriving DecidableEq

def trim (blank : α → Bool) (text : List α) : List α :=
  (text.dropWhile blank).rdropWhile blank

section Trimming

variable {blank wide : α → Bool} {text : List α} {sign : α}

theorem mem_of_mem_trim (member : sign ∈ trim blank text) : sign ∈ text :=
  (List.dropWhile_suffix _).subset ((List.rdropWhile_prefix _ _).subset member)

theorem trim_nil : trim blank ([] : List α) = [] := rfl

/-- A text between two signs that are not blank is left as it is. -/
theorem trim_eq_self (front : ∀ sign ∈ text.head?, blank sign = false)
    (back : ∀ sign ∈ text.getLast?, blank sign = false) : trim blank text = text := by
  have whole : text.dropWhile blank = text := by
    cases text with
    | nil => rfl
    | cons first rest =>
      apply List.dropWhile_cons_of_neg
      simpa using front first (by simp)
  rw [trim, whole, List.rdropWhile_eq_self_iff]
  intro filled
  simpa using back (text.getLast filled) (List.getLast?_eq_some_getLast filled)

theorem trim_head (member : sign ∈ (trim blank text).head?) : blank sign = false := by
  obtain ⟨rest, left⟩ : ∃ rest, trim blank text = sign :: rest := by
    cases shape : trim blank text with
    | nil => rw [shape] at member; cases member
    | cons first rest =>
      rw [shape] at member
      exact ⟨rest, by rw [Option.mem_some.mp member]⟩
  obtain ⟨dropped, whole⟩ := List.rdropWhile_prefix blank (text.dropWhile blank)
  rw [show List.rdropWhile _ _ = trim blank text from rfl, left, List.cons_append] at whole
  have filled : text.dropWhile blank ≠ [] := by
    rw [← whole]
    exact List.cons_ne_nil _ _
  have solid := List.head_dropWhile_not blank filled
  simpa [← whole] using solid

theorem trim_getLast (member : sign ∈ (trim blank text).getLast?) : blank sign = false := by
  have filled : trim blank text ≠ [] := by
    intro empty
    rw [empty] at member
    cases member
  have last := List.rdropWhile_last_not blank (text.dropWhile blank) filled
  rw [List.getLast?_eq_some_getLast filled, Option.mem_some] at member
  rw [← member]
  exact Bool.eq_false_iff.mpr last

/-- What is trimmed of more signs is left as it is. -/
theorem trim_trim (wider : ∀ sign, blank sign = true → wide sign = true) :
    trim blank (trim wide text) = trim wide text := by
  apply trim_eq_self
  · intro sign member
    by_contra black
    exact Bool.eq_false_iff.mp (trim_head member) (wider sign (by simpa using black))
  · intro sign member
    by_contra black
    exact Bool.eq_false_iff.mp (trim_getLast member)
      (wider sign (by simpa using black))

theorem trim_cons_head {first : α} {rest : List α} (solid : blank first = false) :
    (trim blank (first :: rest)).head? = some first := by
  rw [trim, List.dropWhile_cons_of_neg (by simpa using solid)]
  cases shape : (first :: rest).rdropWhile blank with
  | nil =>
    have all := List.rdropWhile_eq_nil_iff.mp shape first List.mem_cons_self
    rw [solid] at all
    cases all
  | cons other kept =>
    have before := List.rdropWhile_prefix blank (first :: rest)
    rw [shape, List.cons_prefix_cons] at before
    rw [List.head?_cons, before.1]

end Trimming

section Lines

variable {isEnd : α → Bool} {text line : List α} {lines : List (List α)} {sign newline : α}

/-- A text that is written line by line. -/
def written (newline : α) (lines : List (List α)) : List α := lines.flatMap (· ++ [newline])

/-- No line holds an end of a line. -/
theorem inside_of_mem_split (member : line ∈ text.splitOnP isEnd) (listed : sign ∈ line) :
    isEnd sign = false := by
  induction text generalizing line with
  | nil =>
    rw [List.splitOnP_nil, List.mem_singleton] at member
    rw [member] at listed
    cases listed
  | cons first rest inductionHypothesis =>
    rw [List.splitOnP_cons_eq_if_modifyHead] at member
    split at member
    · rcases List.mem_cons.mp member with rfl | later
      · cases listed
      · exact inductionHypothesis later listed
    · rename_i inside
      obtain ⟨head, others, shape⟩ :=
        List.exists_cons_of_ne_nil (List.splitOnP_ne_nil isEnd rest)
      rw [shape, List.modifyHead_cons] at member
      rcases List.mem_cons.mp member with rfl | later
      · rcases List.mem_cons.mp listed with rfl | further
        · simpa using inside
        · apply inductionHypothesis _ further
          rw [shape]
          exact List.mem_cons_self
      · apply inductionHypothesis _ listed
        rw [shape]
        exact List.mem_cons_of_mem _ later

theorem split_written (newline_ends : isEnd newline = true)
    (inside : ∀ line ∈ lines, ∀ sign ∈ line, isEnd sign = false) :
    (written newline lines).splitOnP isEnd = lines ++ [[]] := by
  induction lines with
  | nil => rfl
  | cons line rest inductionHypothesis =>
    have shape : written newline (line :: rest) = line ++ newline :: written newline rest := by
      simp [written]
    rw [shape, List.splitOnP_append_cons_of_forall_mem (inside line List.mem_cons_self) newline
      newline_ends,
      inductionHypothesis fun other member => inside other (List.mem_cons_of_mem _ member)]
    rfl

end Lines

namespace Signs

variable [DecidableEq α] (signs : Signs α)

/-- Whether the sign behind a line is escaped when the one at its front is, or is not. -/
def escapesFrom (escaped : Bool) (line : List α) : Bool :=
  line.foldl (fun escaped sign => ! escaped && decide (signs.escape = some sign)) escaped

/-- The end of a line is escaped. -/
def escapes (line : List α) : Bool := signs.escapesFrom false line

def isComment (line : List α) : Bool :=
  (line.dropWhile signs.isBlank).head?.any signs.isHash

/-- The lines as they are read, where those that go on are put together. -/
def wholeLines : List α → List (List α) → List (List α)
  | begun, [] => [begun]
  | begun, line :: rest =>
    if signs.isComment line then wholeLines begun rest
    else if signs.escapes (begun ++ line) then
      wholeLines ((begun ++ line).dropLast ++ [signs.space]) rest
    else (begun ++ line) :: wholeLines [] rest

/-- What stands in front of the first sign of assignment, and what stands behind it. -/
def assigned (line : List α) : Option (Item α) :=
  if signs.assigns ∈ line then
    some (.assignment (trim signs.isBlank (line.takeWhile (· ≠ signs.assigns)))
      (trim signs.isBlank ((line.dropWhile (· ≠ signs.assigns)).drop 1)))
  else none

/-- What a line says, if it says anything. -/
def itemOf (line : List α) : Option (Item α) :=
  match signs.brackets with
  | none => signs.assigned line
  | some (opening, closing) =>
    if (trim signs.isBlank line).head? = some opening then
      if (trim signs.isBlank line).getLast? = some closing then
        some (.heading ((trim signs.isBlank line).drop 1).dropLast)
      else none
    else signs.assigned line

/-- The items of a text. -/
def read (text : List α) : List (Item α) :=
  (signs.wholeLines [] (text.splitOnP signs.isEnd)).filterMap signs.itemOf

end Signs

namespace Signs

variable [DecidableEq α] {signs : Signs α}

section Values

variable {text line begun front back : List α} {lines rest : List (List α)} {sign : α}

/-- Lines that are put together consist of the signs of lines and of spaces. -/
theorem mem_of_mem_wholeLines (member : line ∈ signs.wholeLines begun lines)
    (listed : sign ∈ line) :
    sign ∈ begun ∨ sign = signs.space ∨ ∃ part ∈ lines, sign ∈ part := by
  induction lines generalizing begun with
  | nil =>
    rw [wholeLines, List.mem_singleton] at member
    exact Or.inl (member ▸ listed)
  | cons part rest inductionHypothesis =>
    have later : (∃ other ∈ rest, sign ∈ other) → ∃ other ∈ part :: rest, sign ∈ other :=
      fun ⟨other, follows, inside⟩ => ⟨other, List.mem_cons_of_mem _ follows, inside⟩
    rw [wholeLines] at member
    split at member
    · exact (inductionHypothesis member).imp_right (Or.imp_right later)
    · split at member
      · rcases inductionHypothesis member with early | space | further
        · rcases List.mem_append.mp early with kept | last
          · rcases List.mem_append.mp (List.dropLast_subset _ kept) with front | own
            · exact Or.inl front
            · exact Or.inr (Or.inr ⟨part, List.mem_cons_self, own⟩)
          · exact Or.inr (Or.inl (List.mem_singleton.mp last))
        · exact Or.inr (Or.inl space)
        · exact Or.inr (Or.inr (later further))
      · rcases List.mem_cons.mp member with rfl | behind
        · rcases List.mem_append.mp listed with front | own
          · exact Or.inl front
          · exact Or.inr (Or.inr ⟨part, List.mem_cons_self, own⟩)
        · rcases inductionHypothesis behind with none | space | further
          · cases none
          · exact Or.inr (Or.inl space)
          · exact Or.inr (Or.inr (later further))

theorem value_of_assigned {key value : List α}
    (read : signs.assigned line = some (.assignment key value)) :
    trim signs.isBlank value = value ∧ ∀ sign ∈ value, sign ∈ line := by
  unfold assigned at read
  split at read
  · obtain ⟨_, rfl⟩ := Item.assignment.inj (Option.some.inj read)
    constructor
    · exact trim_trim fun _ => id
    · intro sign member
      exact (List.dropWhile_suffix _).subset (List.drop_subset _ _ (mem_of_mem_trim member))
  · cases read

theorem value_of_itemOf {key value : List α}
    (read : signs.itemOf line = some (.assignment key value)) :
    trim signs.isBlank value = value ∧ ∀ sign ∈ value, sign ∈ line := by
  have assigned : signs.assigned line = some (.assignment key value) := by
    unfold itemOf at read
    split at read
    · exact read
    · split at read
      · split at read <;> cases read
      · exact read
  exact value_of_assigned assigned

/-- Values that are read are trimmed and hold no end of a line. -/
theorem value_of_read {key value : List α} (member : .assignment key value ∈ signs.read text) :
    trim signs.isBlank value = value ∧ ∀ sign ∈ value, signs.isEnd sign = false := by
  obtain ⟨line, listed, read⟩ := List.mem_filterMap.mp member
  obtain ⟨trimmed, inside⟩ := value_of_itemOf read
  refine ⟨trimmed, fun sign held => ?_⟩
  rcases mem_of_mem_wholeLines listed (inside sign held) with none | rfl | ⟨part, split, own⟩
  · cases none
  · exact signs.space_inside
  · exact inside_of_mem_split split own

end Values

section Escapes

variable {line begun front back : List α} {lines rest : List (List α)}

theorem escapes_append (open_ : signs.escapes front = false) :
    signs.escapes (front ++ back) = signs.escapes back := by
  rw [escapes, escapesFrom, List.foldl_append]
  rw [escapes, escapesFrom] at open_
  rw [open_]
  rfl

/-- Behind any other sign than that of escape nothing is escaped. -/
theorem escapes_concat {sign : α} (other : signs.escape ≠ some sign) :
    signs.escapes (front ++ [sign]) = false := by
  rw [escapes, escapesFrom, List.foldl_append]
  simp [other]

/-- A line that stands for itself. -/
def stands (signs : Signs α) (line : List α) : Bool :=
  ! signs.isComment line && ! signs.escapes line

theorem stands_iff : signs.stands line = true ↔
    signs.isComment line = false ∧ signs.escapes line = false := by
  simp [stands]

theorem wholeLines_cons (own : signs.stands line = true) (open_ : signs.escapes begun = false) :
    signs.wholeLines begun (line :: rest) = (begun ++ line) :: signs.wholeLines [] rest := by
  obtain ⟨said, plain⟩ := stands_iff.mp own
  rw [wholeLines, if_neg (by simp [said]), if_neg]
  rw [escapes_append open_, plain]
  exact Bool.false_ne_true

/-- A line whose end is escaped goes on. -/
theorem wholeLines_escaped (said : signs.isComment line = false)
    (escaped : signs.escapes (begun ++ line) = true) :
    signs.wholeLines begun (line :: rest) =
      signs.wholeLines ((begun ++ line).dropLast ++ [signs.space]) rest := by
  rw [wholeLines, if_neg (by simp [said]), if_pos escaped]

theorem wholeLines_append (own : ∀ line ∈ lines, signs.stands line = true) :
    signs.wholeLines [] (lines ++ rest) = lines ++ signs.wholeLines [] rest := by
  induction lines with
  | nil => rfl
  | cons line others inductionHypothesis =>
    rw [List.cons_append, wholeLines_cons (own line List.mem_cons_self) rfl,
      inductionHypothesis fun other member => own other (List.mem_cons_of_mem _ member)]
    rfl

end Escapes

section Writing

variable (signs)

/-- A key that is read as it is written. -/
def isKey (key : List α) : Bool :=
  key ≠ [] && key.all fun sign => signs.isBlank sign = false ∧ signs.isHash sign = false ∧
    sign ≠ signs.assigns ∧ signs.brackets.map Prod.fst ≠ some sign

/-- The line that assigns a value. -/
def assigning (key value : List α) : List α := key ++ signs.assigns :: value

variable {signs} {key value : List α} {lines : List (List α)} {newline : α}

theorem isKey_cons (named : signs.isKey key = true) : ∃ first rest, key = first :: rest ∧
    signs.isBlank first = false ∧ signs.isHash first = false ∧
      signs.brackets.map Prod.fst ≠ some first := by
  rw [isKey, Bool.and_eq_true, List.all_eq_true] at named
  obtain ⟨filled, each⟩ := named
  cases key with
  | nil => exact absurd rfl (of_decide_eq_true filled)
  | cons first rest =>
    obtain ⟨solid, said, _, other⟩ := of_decide_eq_true (each first List.mem_cons_self)
    exact ⟨first, rest, rfl, solid, said, other⟩

theorem isKey_each (named : signs.isKey key = true) {sign : α} (member : sign ∈ key) :
    signs.isBlank sign = false ∧ sign ≠ signs.assigns := by
  rw [isKey, Bool.and_eq_true, List.all_eq_true] at named
  obtain ⟨solid, _, other, _⟩ := of_decide_eq_true (named.2 sign member)
  exact ⟨solid, other⟩

theorem isComment_assigning (named : signs.isKey key = true) :
    signs.isComment (signs.assigning key value) = false := by
  obtain ⟨first, rest, rfl, solid, said, _⟩ := isKey_cons named
  rw [isComment, assigning, List.cons_append, List.dropWhile_cons_of_neg (by simpa using solid)]
  simpa using said

theorem escapes_assigning : signs.escapes (signs.assigning key value) = signs.escapes value := by
  have line : signs.assigning key value = key ++ [signs.assigns] ++ value := by simp [assigning]
  rw [line, escapes_append (escapes_concat signs.assigns_other)]

/-- An assignment is read with its key, and with its value without blanks at the ends. -/
theorem itemOf_assigning (named : signs.isKey key = true) :
    signs.itemOf (signs.assigning key value) =
      some (.assignment key (trim signs.isBlank value)) := by
  have front : ∀ sign ∈ key, decide (sign ≠ signs.assigns) = true :=
    fun sign member => decide_eq_true (isKey_each named member).2
  have whole : trim signs.isBlank key = key := by
    apply trim_eq_self
    · intro sign member
      exact (isKey_each named (List.mem_of_mem_head? member)).1
    · intro sign member
      exact (isKey_each named (List.mem_of_mem_getLast? member)).1
  have assigned : signs.assigned (signs.assigning key value) =
      some (.assignment key (trim signs.isBlank value)) := by
    rw [assigned, assigning, if_pos (by simp), List.takeWhile_append_of_pos front,
      List.dropWhile_append_of_pos front, List.takeWhile_cons_of_neg (by simp),
      List.dropWhile_cons_of_neg (by simp), List.append_nil, whole, List.drop_one, List.tail_cons]
  obtain ⟨first, rest, shape, solid, _, other⟩ := isKey_cons named
  unfold itemOf
  split
  · exact assigned
  · rename_i opening closing brackets
    rw [if_neg, assigned]
    rw [assigning, shape, List.cons_append, trim_cons_head solid]
    rw [brackets] at other
    exact fun same => other same.symm

theorem stands_assigning (named : signs.isKey key = true) (open_ : signs.escapes value = false) :
    signs.stands (signs.assigning key value) = true :=
  stands_iff.mpr ⟨isComment_assigning named, escapes_assigning.trans open_⟩

omit [DecidableEq α] in
theorem dropLast_assigning (filled : value ≠ []) :
    (signs.assigning key value).dropLast = signs.assigning key value.dropLast := by
  rw [assigning, assigning, List.dropLast_append_of_ne_nil (List.cons_ne_nil _ _),
    List.dropLast_cons_of_ne_nil filled]

omit [DecidableEq α] in
theorem assigning_append {more : List α} :
    signs.assigning key value ++ more = signs.assigning key (value ++ more) := by
  simp [assigning]

theorem itemOf_nil : signs.itemOf [] = none := by
  unfold itemOf assigned
  split <;> simp [trim_nil]

theorem stands_nil : signs.stands ([] : List α) = true := rfl

/-- Lines that stand for themselves are read one by one. -/
theorem read_written (newline_ends : signs.isEnd newline = true)
    (inside : ∀ line ∈ lines, ∀ sign ∈ line, signs.isEnd sign = false)
    (own : ∀ line ∈ lines, signs.stands line = true) :
    signs.read (written newline lines) = lines.filterMap signs.itemOf := by
  rw [read, split_written newline_ends inside, wholeLines_append own,
    wholeLines_cons stands_nil rfl, List.filterMap_append]
  simp [wholeLines, itemOf_nil]

/-- A line that was begun takes the next one up, so the item of the line behind that follows. -/
theorem items_begun {other taken more : List α} (named : signs.isKey key = true)
    (open_ : signs.escapes value = false) (own : signs.stands taken = true)
    (named_other : signs.isKey other = true) (open_more : signs.escapes more = false) :
    ∃ given items, (signs.wholeLines (signs.assigning key value)
      (taken :: signs.assigning other more :: lines)).filterMap signs.itemOf =
        .assignment key given :: .assignment other (trim signs.isBlank more) :: items := by
  rw [wholeLines_cons own (escapes_assigning.trans open_),
    wholeLines_cons (stands_assigning named_other open_more) rfl, assigning_append,
    List.filterMap_cons_some (itemOf_assigning named), List.nil_append,
    List.filterMap_cons_some (itemOf_assigning named_other)]
  exact ⟨_, _, rfl⟩

omit [DecidableEq α] in
theorem inside_assigning {isEnd : α → Bool} (front : ∀ sign ∈ key, isEnd sign = false)
    (sign_inside : isEnd signs.assigns = false) (back : ∀ sign ∈ value, isEnd sign = false) :
    ∀ sign ∈ signs.assigning key value, isEnd sign = false := by
  intro sign member
  rcases List.mem_append.mp member with early | late
  · exact front sign early
  · rcases List.mem_cons.mp late with rfl | further
    · exact sign_inside
    · exact back sign further

end Writing

end Signs

end Immutavault.SettingFiles
