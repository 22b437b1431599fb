import Immutavault.JsonTexts
import Mathlib.Data.Bool.AllAny

/-!
# Reading JSON texts back

What is written for a value is read back as the value, in every layout and with blanks
behind it. This holds of clean values: their texts and keys hold no halves of a
character side by side, the keys of a dictionary are distinct, and no integer is too long
to be written.

Whatever is read is clean. So values that are read and written again keep their contents,
and the text with sorted keys determines a value up to the order of its keys.
-/

namespace Immutavault.JsonTexts

open Values GuestFiles
open BrokerMessages.Wire (joinSurrogates)

variable {Φ : Type}

mutual

/-- Values that can be read from a text: the halves of characters are joined, keys are
distinct, and no integer is too long. -/
def Clean : Value Φ → Prop
  | .int value => (Nat.toDigits 10 value.natAbs).length ≤ maxStrDigits
  | .text text => joinSurrogates text = text
  | .list items => CleanItems items
  | .dict fields => (fields.map Prod.fst).Nodup ∧ CleanFields fields
  | _ => True

def CleanItems : List (Value Φ) → Prop
  | [] => True
  | item :: rest => Clean item ∧ CleanItems rest

def CleanFields : List (Str × Value Φ) → Prop
  | [] => True
  | (key, value) :: rest => joinSurrogates key = key ∧ Clean value ∧ CleanFields rest

end

section RoundTrip

/-- The text of a value begins like this: with no blank, and with nothing that closes. -/
def Begins (text : List Char) : Prop :=
  ∃ first rest, text = first :: rest ∧ isSpace first = false ∧ first ≠ ']' ∧ first ≠ '\x7d'

theorem Begins.append {text : List Char} (begins : Begins text) (rest : List Char) :
    Begins (text ++ rest) := by
  obtain ⟨first, more, rfl, known⟩ := begins
  exact ⟨first, more ++ rest, rfl, known⟩

theorem skip_begins {text : List Char} (begins : Begins text) : skip text = text := by
  obtain ⟨first, rest, rfl, space, _⟩ := begins
  simp [skip, space]

/-- Blanks in front of a text are skipped. -/
theorem skip_append {blanks : List Char} (all : ∀ blank ∈ blanks, isSpace blank = true)
    (text : List Char) : skip (blanks ++ text) = skip text :=
  List.dropWhile_append_of_pos all

theorem Layout.blank_margin (layout : Layout) (level : Nat) :
    ∀ blank ∈ layout.margin level, isSpace blank = true := by
  intro blank member
  cases layout with
  | indented =>
    rcases List.mem_cons.mp member with rfl | more
    · rfl
    · rw [List.eq_of_mem_replicate more]
      rfl
  | _ => cases member

theorem Layout.blank_gap (layout : Layout) (level : Nat) :
    ∀ blank ∈ layout.gap level, isSpace blank = true := by
  cases layout with
  | indented => exact Layout.blank_margin .indented level
  | compact => exact fun blank member => nomatch member
  | spaced =>
    intro blank member
    rw [List.mem_singleton.mp member]
    rfl

theorem Layout.blank_space (layout : Layout) : ∀ blank ∈ layout.space, isSpace blank = true := by
  intro blank member
  cases layout with
  | compact => cases member
  | _ =>
    rw [List.mem_singleton.mp member]
    rfl

/-- After blanks and a closing bracket or a comma, a number has ended. -/
theorem stops_blanks {blanks rest : List Char} {first : Char}
    (all : ∀ blank ∈ blanks, isSpace blank = true) (closes : first ∈ [',', ']', '\x7d']) :
    Stops (blanks ++ first :: rest) := by
  intro character member
  cases blanks with
  | nil =>
    obtain rfl : first = character := Option.some.inj member
    have known : ∀ first ∈ [',', ']', '\x7d'], first.isDigit = false ∧
        first ∉ ['.', 'e', 'E'] := List.all_iff_forall_prop.mp (by decide)
    exact known first closes
  | cons blank blanks =>
    obtain rfl : blank = character := Option.some.inj member
    have known : ∀ blank ∈ [' ', '\t', '\n', '\r'], blank.isDigit = false ∧
        blank ∉ ['.', 'e', 'E'] := List.all_iff_forall_prop.mp (by decide)
    exact known blank (of_decide_eq_true (all blank List.mem_cons_self))

theorem assign_fresh {fields : List (Str × Value Φ)} {key : Str}
    (fresh : key ∉ fields.map Prod.fst) (value : Value Φ) :
    Value.assign fields key value = fields ++ [(key, value)] := by
  induction fields with
  | nil => rfl
  | cons field fields inductionHypothesis =>
    obtain ⟨other, later⟩ := not_or.mp (mt List.mem_cons.mpr fresh)
    rw [Value.assign, if_neg (Ne.symm other), inductionHypothesis later, List.cons_append]

/-- Pairs with distinct keys are a dictionary as they are. -/
theorem ofPairs_nodup {pairs : List (Str × Value Φ)} (distinct : (pairs.map Prod.fst).Nodup) :
    Value.ofPairs pairs = pairs := by
  have general : ∀ fields : List (Str × Value Φ), ((fields ++ pairs).map Prod.fst).Nodup →
      pairs.foldl (fun fields pair => Value.assign fields pair.1 pair.2) fields =
        fields ++ pairs := by
    intro fields distinct
    clear * - distinct
    induction pairs generalizing fields with
    | nil => exact (List.append_nil _).symm
    | cons pair pairs inductionHypothesis =>
      have fresh : pair.1 ∉ fields.map Prod.fst := by
        intro member
        rw [List.map_append, List.nodup_append] at distinct
        exact distinct.2.2 _ member _ List.mem_cons_self rfl
      rw [List.foldl_cons, assign_fresh fresh, inductionHypothesis, List.append_assoc]
      · rfl
      · simpa using distinct
  exact general [] distinct

variable [Floating Φ]

theorem wholePart_none {first : Char} (other : first.isDigit = false) (rest : List Char) :
    wholePart (first :: rest) = none := by
  have nonzero : first ≠ '0' := by
    rintro rfl
    cases other
  rw [wholePart, if_neg nonzero, if_neg (by simp [other])]

/-- A numeral begins with a digit, a sign or the first letter of a constant. -/
theorem scanNumeral_head {text : List Char} {scanned : Value Φ × List Char}
    (read : scanNumeral text = .ok scanned) :
    ∃ first rest, text = first :: rest ∧ (first.isDigit = true ∨ first ∈ ['-', 'N', 'I']) := by
  cases text with
  | nil => cases read
  | cons first rest =>
    refine ⟨first, rest, rfl, ?_⟩
    by_contra neither
    obtain ⟨digit, others⟩ := not_or.mp neither
    simp only [List.mem_cons, List.not_mem_nil, or_false, not_or] at others
    obtain ⟨sign, letter, letter'⟩ := others
    rw [scanNumeral, nanWord, infinityWord, behindWord_other (Ne.symm letter),
      behindWord_other (Ne.symm letter'), behindWord_other (Ne.symm sign)] at read
    · rw [scanUnsigned, wholePart_none (by simpa using digit)] at read
      cases read
    · intro rest same
      exact sign (List.cons.inj same).1

/-- A value that is a numeral is read as one. -/
theorem scanValue_numeral {text : List Char} {scanned : Value Φ × List Char}
    (read : scanNumeral text = .ok scanned) (fuel : Nat) :
    scanValue (fuel + 1) text = .ok scanned ∧ Begins text := by
  obtain ⟨first, rest, rfl, known⟩ := scanNumeral_head read
  have apart : ∀ letter ∈ ['"', '[', '\x7b', 'n', 't', 'f', ']', '\x7d', ' ', '\t', '\n', '\r'],
      letter ≠ first := by
    rintro letter member rfl
    rcases known with digit | others
    · have none : ∀ letter ∈ ['"', '[', '\x7b', 'n', 't', 'f', ']', '\x7d', ' ', '\t', '\n', '\r'],
          letter.isDigit = false := List.all_iff_forall_prop.mp (by decide)
      exact Bool.false_ne_true ((none letter member).symm.trans digit)
    · have none : ∀ letter ∈ ['"', '[', '\x7b', 'n', 't', 'f', ']', '\x7d', ' ', '\t', '\n', '\r'],
          letter ∉ ['-', 'N', 'I'] := List.all_iff_forall_prop.mp (by decide)
      exact none letter member others
  constructor
  · rw [scanValue, if_neg (apart '"' (by decide)).symm, if_neg (apart '[' (by decide)).symm,
      if_neg (apart '\x7b' (by decide)).symm, nullWord, trueWord, falseWord,
      behindWord_other (apart 'n' (by decide)), behindWord_other (apart 't' (by decide)),
      behindWord_other (apart 'f' (by decide))]
    exact read
  · refine ⟨first, rest, rfl, ?_, (apart ']' (by decide)).symm, (apart '\x7d' (by decide)).symm⟩
    simp [isSpace, (apart ' ' (by decide)).symm, (apart '\t' (by decide)).symm,
      (apart '\n' (by decide)).symm, (apart '\r' (by decide)).symm]

theorem scanKey_quoted {key : Str} (joined : joinSurrogates key = key) (rest : List Char) :
    scanKey (quoted key ++ ':' :: rest) = .ok (key, rest) := by
  have text : quoted key ++ ':' :: rest = '"' :: (key.flatMap escaped ++ '"' :: ':' :: rest) := by
    simp [quoted]
  rw [text, scanKey, scanText_quoted, joined]
  rfl

variable (layout : Layout)

/-- What stands behind an item ends a number. -/
theorem stops_items (level : Nat) (items : List (Value Φ)) {blanks : List Char}
    (all : ∀ blank ∈ blanks, isSpace blank = true) (rest : List Char) :
    Stops (printItems layout level items ++ (blanks ++ ']' :: rest)) := by
  cases items with
  | nil => exact stops_blanks all (by decide)
  | cons item items =>
    rw [printItems, List.cons_append]
    exact @stops_blanks [] _ ',' (fun _ member => nomatch member) (by decide)

theorem stops_fields (level : Nat) (fields : List (Str × Value Φ)) {blanks : List Char}
    (all : ∀ blank ∈ blanks, isSpace blank = true) (rest : List Char) :
    Stops (printFields layout level fields ++ (blanks ++ '\x7d' :: rest)) := by
  cases fields with
  | nil => exact stops_blanks all (by decide)
  | cons field fields =>
    rw [printFields, List.cons_append]
    exact @stops_blanks [] _ ',' (fun _ member => nomatch member) (by decide)

variable [LawfulFloating Φ]

theorem scanNumeral_float (value : Φ) {rest : List Char} (stops : Stops rest) :
    scanNumeral (Floating.text value ++ rest) = .ok (Value.float value, rest) :=
  LawfulFloating.scanNumeral_text value rest stops

theorem stops_nil : Stops [] := fun _ member => nomatch member

theorem begins_print (level : Nat) {value : Value Φ} (clean : Clean value) :
    Begins (print layout level value) := by
  cases value with
  | null => exact ⟨'n', _, rfl, by decide⟩
  | bool value => cases value <;> exact ⟨_, _, rfl, by decide⟩
  | int value =>
    have read := (scanValue_numeral (scanNumeral_intText (Φ := Φ) value clean stops_nil) 0).2
    rwa [List.append_nil] at read
  | float value =>
    have read := (scanValue_numeral (scanNumeral_float value stops_nil) 0).2
    rwa [List.append_nil] at read
  | text value => exact ⟨'"', _, rfl, by decide⟩
  | list items => cases items <;> exact ⟨'[', _, by rw [print], by decide⟩
  | dict fields =>
    cases fields with
    | nil => exact ⟨'\x7b', _, by rw [print], by decide⟩
    | cons field rest => exact ⟨'\x7b', _, by rw [print], by decide⟩

/-- A field is read back when its value is. -/
theorem scanField_print {key : Str} {value : Value Φ} {level fuel : Nat} {rest : List Char}
    (joined : joinSurrogates key = key) (clean : Clean value)
    (read : scanValue fuel (print layout level value ++ rest) = .ok (value, rest)) :
    scanField (fuel + 1) (quoted key ++ ':' :: (layout.space ++
      (print layout level value ++ rest))) = .ok ((key, value), rest) := by
  have begins := (begins_print layout level clean).append rest
  rw [scanField, scanKey_quoted joined]
  change (do
    let read ← scanValue fuel (skip (layout.space ++ _))
    return ((key, read.1), read.2) : Except LoadError ((Str × Value Φ) × List Char)) = _
  rw [skip_append layout.blank_space, skip_begins begins, read]
  rfl

mutual

/-- A value that is printed is read back, whatever the layout. -/
theorem scanValue_print : ∀ (value : Value Φ) (level fuel : Nat) (rest : List Char), Clean value →
    (print layout level value).length < fuel → Stops rest →
    scanValue fuel (print layout level value ++ rest) = .ok (value, rest)
  | .null, _, fuel + 1, _, _, _, _ => rfl
  | .bool true, _, fuel + 1, _, _, _, _ => rfl
  | .bool false, _, fuel + 1, _, _, _, _ => rfl
  | .int value, _, fuel + 1, _, clean, _, stops =>
    (scanValue_numeral (scanNumeral_intText value clean stops) fuel).1
  | .float value, _, fuel + 1, _, _, _, stops =>
    (scanValue_numeral (scanNumeral_float value stops) fuel).1
  | .text value, level, fuel + 1, rest, clean, _, _ => by
    have text : print layout level (.text value : Value Φ) ++ rest =
        '"' :: (value.flatMap escaped ++ '"' :: rest) := by
      simp [print, quoted]
    have joined : joinSurrogates value = value := clean
    rw [text, scanValue, if_pos rfl, scanText_quoted, joined]
  | .list [], _, fuel + 1, _, _, _, _ => rfl
  | .list (item :: items), level, fuel + 1, rest, clean, enough, _ => by
    have text : print layout level (.list (item :: items)) ++ rest =
        '[' :: (layout.margin (level + 1) ++ (print layout (level + 1) item ++
          (printItems layout (level + 1) items ++ (layout.margin level ++ ']' :: rest)))) := by
      simp [print]
    rw [print] at enough
    simp only [List.length_cons, List.length_append] at enough
    have begins := (begins_print layout (level + 1) clean.1).append
      (printItems layout (level + 1) items ++ (layout.margin level ++ ']' :: rest))
    have first := scanValue_print item (level + 1) fuel _ clean.1 (by omega)
      (stops_items layout (level + 1) items (layout.blank_margin level) rest)
    have others := scanItems_print items (level + 1) fuel (layout.margin level) rest clean.2
      (layout.blank_margin level) (by omega)
    rw [text, scanValue, if_neg (by decide), if_pos rfl,
      skip_append (layout.blank_margin (level + 1)), skip_begins begins]
    split
    · rename_i same
      obtain ⟨head, _, shape, _, closing, _⟩ := begins
      exact absurd (List.cons.inj (shape.symm.trans same)).1 closing
    · rw [first]
      dsimp only [bind, Except.bind]
      rw [others]
      rfl
  | .dict [], _, fuel + 1, _, _, _, _ => rfl
  | .dict ((key, value) :: fields), level, fuel + 1, rest, clean, enough, _ => by
    have text : print layout level (.dict ((key, value) :: fields)) ++ rest =
        '\x7b' :: (layout.margin (level + 1) ++ (quoted key ++ ':' :: (layout.space ++
          (print layout (level + 1) value ++ (printFields layout (level + 1) fields ++
            (layout.margin level ++ '\x7d' :: rest)))))) := by
      simp [print]
    obtain ⟨distinct, joined, cleanValue, cleanFields⟩ := clean
    rw [print] at enough
    simp only [List.length_cons, List.length_append] at enough
    obtain ⟨less, rfl⟩ : ∃ less, fuel = less + 1 := ⟨fuel - 1, by omega⟩
    have begins : Begins (quoted key ++ ':' :: (layout.space ++
        (print layout (level + 1) value ++ (printFields layout (level + 1) fields ++
          (layout.margin level ++ '\x7d' :: rest))))) := ⟨'"', _, rfl, by decide⟩
    have first := scanValue_print value (level + 1) less _ cleanValue (by omega)
      (stops_fields layout (level + 1) fields (layout.blank_margin level) rest)
    have field := scanField_print layout joined cleanValue first
    have others := scanFields_print fields (level + 1) (less + 1) (layout.margin level) rest
      cleanFields (layout.blank_margin level) (by omega)
    rw [text, scanValue, if_neg (by decide), if_neg (by decide), if_pos rfl,
      skip_append (layout.blank_margin (level + 1)), skip_begins begins]
    split
    · rename_i same
      exact absurd (List.cons.inj same).1 (by decide)
    · rw [field]
      dsimp only [bind, Except.bind]
      rw [others]
      exact congrArg (fun fields => Except.ok (Value.dict fields, rest)) (ofPairs_nodup distinct)

/-- So are the further items of a list. -/
theorem scanItems_print : ∀ (items : List (Value Φ)) (level fuel : Nat) (blanks rest : List Char),
    CleanItems items → (∀ blank ∈ blanks, isSpace blank = true) →
    (printItems layout level items).length < fuel →
    scanItems fuel (printItems layout level items ++ (blanks ++ ']' :: rest)) = .ok (items, rest)
  | [], _, fuel + 1, blanks, rest, _, all, _ => by
    rw [printItems, List.nil_append, scanItems, skip_append all]
    rfl
  | item :: items, level, fuel + 1, blanks, rest, clean, all, enough => by
    have text : printItems layout level (item :: items) ++ (blanks ++ ']' :: rest) =
        ',' :: (layout.gap level ++ (print layout level item ++
          (printItems layout level items ++ (blanks ++ ']' :: rest)))) := by
      simp [printItems]
    rw [printItems] at enough
    simp only [List.length_cons, List.length_append] at enough
    have begins := (begins_print layout level clean.1).append
      (printItems layout level items ++ (blanks ++ ']' :: rest))
    have first := scanValue_print item level fuel _ clean.1 (by omega)
      (stops_items layout level items all rest)
    have others := scanItems_print items level fuel blanks rest clean.2 all (by omega)
    rw [text, scanItems]
    change (do
      let (item, after) ← scanValue fuel (skip (layout.gap level ++ _))
      let (items, after) ← scanItems fuel after
      return (item :: items, after) : Except LoadError (List (Value Φ) × List Char)) = _
    rw [skip_append (layout.blank_gap level), skip_begins begins, first]
    dsimp only [bind, Except.bind]
    rw [others]
    rfl

/-- So are the further fields of a dictionary. -/
theorem scanFields_print : ∀ (fields : List (Str × Value Φ)) (level fuel : Nat)
    (blanks rest : List Char), CleanFields fields → (∀ blank ∈ blanks, isSpace blank = true) →
    (printFields layout level fields).length < fuel →
    scanFields fuel (printFields layout level fields ++ (blanks ++ '\x7d' :: rest)) =
      .ok (fields, rest)
  | [], _, fuel + 1, blanks, rest, _, all, _ => by
    rw [printFields, List.nil_append, scanFields, skip_append all]
    rfl
  | (key, value) :: fields, level, fuel + 1, blanks, rest, clean, all, enough => by
    have text : printFields layout level ((key, value) :: fields) ++ (blanks ++ '\x7d' :: rest) =
        ',' :: (layout.gap level ++ (quoted key ++ ':' :: (layout.space ++
          (print layout level value ++
            (printFields layout level fields ++ (blanks ++ '\x7d' :: rest)))))) := by
      simp [printFields]
    obtain ⟨joined, cleanValue, cleanFields⟩ := clean
    rw [printFields] at enough
    simp only [List.length_cons, List.length_append] at enough
    obtain ⟨less, rfl⟩ : ∃ less, fuel = less + 1 := ⟨fuel - 1, by omega⟩
    have begins : Begins (quoted key ++ ':' :: (layout.space ++ (print layout level value ++
        (printFields layout level fields ++ (blanks ++ '\x7d' :: rest))))) :=
      ⟨'"', _, rfl, by decide⟩
    have first := scanValue_print value level less _ cleanValue (by omega)
      (stops_fields layout level fields all rest)
    have field := scanField_print layout joined cleanValue first
    have others := scanFields_print fields level (less + 1) blanks rest cleanFields all (by omega)
    rw [text, scanFields]
    change (do
      let (pair, after) ← scanField (less + 1) (skip (layout.gap level ++ _))
      let (pairs, after) ← scanFields (less + 1) after
      return (pair :: pairs, after) : Except LoadError (List (Str × Value Φ) × List Char)) = _
    rw [skip_append (layout.blank_gap level), skip_begins begins, field]
    dsimp only [bind, Except.bind]
    rw [others]
    rfl

end

/-- The text of a value, with blanks behind it, is read back as the value. -/
theorem loads_dumps {value : Value Φ} (clean : Clean value) {blanks : List Char}
    (all : ∀ blank ∈ blanks, isSpace blank = true) :
    loads (dumps layout value ++ blanks) = .ok value := by
  have stops : Stops blanks := by
    intro character member
    have known : ∀ blank ∈ [' ', '\t', '\n', '\r'], blank.isDigit = false ∧
        blank ∉ ['.', 'e', 'E'] := List.all_iff_forall_prop.mp (by decide)
    exact known character (of_decide_eq_true (all character (List.mem_of_mem_head? member)))
  have begins := (begins_print layout 0 clean).append blanks
  have read := scanValue_print layout value 0 ((dumps layout value ++ blanks).length + 1) blanks
    clean (by simp only [dumps, List.length_append]; omega) stops
  have ended : skip blanks = [] := List.dropWhile_eq_nil_iff.mpr all
  rw [loads, skip_begins (by exact begins)]
  change (do
    let (value, after) ← scanValue ((dumps layout value ++ blanks).length + 1)
      (print layout 0 value ++ blanks)
    if skip after = [] then return value
    else .error .malformed : Except LoadError (Value Φ)) = _
  rw [read]
  exact if_pos ended

end RoundTrip

section Arrangement

theorem arrangedFields_keys (fields : List (Str × Value Φ)) :
    (arrangedFields fields).map Prod.fst = fields.map Prod.fst := by
  induction fields with
  | nil => rfl
  | cons field fields inductionHypothesis =>
    rw [arrangedFields, List.map_cons, List.map_cons, inductionHypothesis]

theorem cleanFields_iff {fields : List (Str × Value Φ)} :
    CleanFields fields ↔ ∀ field ∈ fields, joinSurrogates field.1 = field.1 ∧ Clean field.2 := by
  induction fields with
  | nil => simp [CleanFields]
  | cons field fields inductionHypothesis =>
    rw [CleanFields, inductionHypothesis, List.forall_mem_cons, and_assoc]

mutual

/-- Arranging a value keeps it clean. -/
theorem clean_arranged : ∀ {value : Value Φ}, Clean value → Clean (arranged value)
  | .null, _ => trivial
  | .bool _, _ => trivial
  | .int _, clean => clean
  | .float _, _ => trivial
  | .text _, clean => clean
  | .list _, clean => cleanItems_arranged clean
  | .dict fields, clean => by
    have sorted := List.perm_insertionSort
      (fun first second : Str × Value Φ => ¬ second.1 < first.1) (arrangedFields fields)
    constructor
    · rw [(sorted.map Prod.fst).nodup_iff, arrangedFields_keys]
      exact clean.1
    · refine cleanFields_iff.mpr fun field member => ?_
      exact cleanFields_iff.mp (cleanFields_arranged clean.2) field (sorted.mem_iff.mp member)

theorem cleanItems_arranged : ∀ {items : List (Value Φ)}, CleanItems items →
    CleanItems (arrangedItems items)
  | [], _ => trivial
  | _ :: _, clean => ⟨clean_arranged clean.1, cleanItems_arranged clean.2⟩

theorem cleanFields_arranged : ∀ {fields : List (Str × Value Φ)}, CleanFields fields →
    CleanFields (arrangedFields fields)
  | [], _ => trivial
  | (_, _) :: _, clean => ⟨clean.1, clean_arranged clean.2.1, cleanFields_arranged clean.2.2⟩

end

/-- The text with sorted keys determines a value, up to the order of its keys. -/
theorem dumpsSorted_injective [Floating Φ] [LawfulFloating Φ] {layout : Layout}
    {first second : Value Φ} (cleanFirst : Clean first) (cleanSecond : Clean second)
    (same : dumpsSorted layout first = dumpsSorted layout second) :
    arranged first = arranged second := by
  have read : ∀ {value : Value Φ}, Clean value →
      loads (dumpsSorted layout value ++ []) = .ok (arranged value) := fun clean =>
    loads_dumps layout (clean_arranged clean) fun _ member => nomatch member
  have one : Except.ok (arranged first) = Except.ok (arranged second) :=
    (read cleanFirst).symm.trans ((congrArg (fun text => loads (text ++ [])) same).trans
      (read cleanSecond))
  exact Except.ok.inj one

theorem arrangedFields_eq_map (fields : List (Str × Value Φ)) :
    arrangedFields fields = fields.map fun field => (field.1, arranged field.2) := by
  induction fields with
  | nil => rfl
  | cons field fields inductionHypothesis =>
    rw [arrangedFields, List.map_cons, inductionHypothesis]

theorem arrangedItems_eq_map (items : List (Value Φ)) :
    arrangedItems items = items.map arranged := by
  induction items with
  | nil => rfl
  | cons item items inductionHypothesis =>
    rw [arrangedItems, List.map_cons, inductionHypothesis]

/-- The fields of a dictionary in the order of their keys. -/
theorem mem_arranged {fields : List (Str × Value Φ)} {field : Str × Value Φ} :
    field ∈ (arrangedFields fields).insertionSort (fun first second => ¬ second.1 < first.1) ↔
      ∃ value, (field.1, value) ∈ fields ∧ arranged value = field.2 := by
  rw [(List.perm_insertionSort _ _).mem_iff, arrangedFields_eq_map, List.mem_map]
  constructor
  · rintro ⟨⟨key, value⟩, member, rfl⟩
    exact ⟨value, member, rfl⟩
  · rintro ⟨value, member, same⟩
    exact ⟨(field.1, value), member, congrArg (field.1, ·) same⟩

/-- With distinct keys, what is under a key is what stands beside it. -/
theorem get?_eq_some_iff {fields : List (Str × Value Φ)} (distinct : (fields.map Prod.fst).Nodup)
    {key : Str} {value : Value Φ} :
    Value.get? fields key = some value ↔ (key, value) ∈ fields := by
  induction fields with
  | nil => simp [Value.get?]
  | cons field fields inductionHypothesis =>
    obtain ⟨fresh, later⟩ := List.nodup_cons.mp distinct
    by_cases same : field.1 = key
    · subst same
      have absent : (field.1, value) ∉ fields := fun member =>
        fresh (List.mem_map.mpr ⟨_, member, rfl⟩)
      rw [Value.get?, if_pos rfl, List.mem_cons]
      constructor
      · intro found
        exact Or.inl (congrArg (field.1, ·) (Option.some.inj found).symm)
      · rintro (found | member)
        · exact congrArg some (congrArg Prod.snd found).symm
        · exact (absent member).elim
    · have other : (key, value) ≠ field := by
        rintro rfl
        exact same rfl
      rw [Value.get?, if_neg same, inductionHypothesis later, List.mem_cons, or_iff_right other]

/-- A value that is a dictionary up to the order of its keys has its values, up to the
order of theirs. -/
theorem get?_of_arranged {fields : List (Str × Value Φ)} {other : Value Φ}
    (clean : Clean (.dict fields)) (cleanOther : Clean other)
    (same : arranged other = arranged (.dict fields)) :
    ∃ others, other = .dict others ∧ ∀ key value, Value.get? fields key = some value →
      ∃ found, Value.get? others key = some found ∧ arranged found = arranged value ∧
        Clean found := by
  cases other with
  | dict others =>
    refine ⟨others, rfl, fun key value found => ?_⟩
    have member := (get?_eq_some_iff clean.1).mp found
    have there : (key, arranged value) ∈ (arrangedFields others).insertionSort
        (fun first second => ¬ second.1 < first.1) := by
      rw [Value.dict.inj same]
      exact mem_arranged.mpr ⟨value, member, rfl⟩
    obtain ⟨value', member', same'⟩ := mem_arranged.mp there
    exact ⟨value', (get?_eq_some_iff cleanOther.1).mpr member', same',
      (cleanFields_iff.mp cleanOther.2 _ member').2⟩
  | _ => cases same

end Arrangement

section Cleanness

theorem assign_keys (fields : List (Str × Value Φ)) (key : Str) (value : Value Φ) :
    (Value.assign fields key value).map Prod.fst =
      if key ∈ fields.map Prod.fst then fields.map Prod.fst else fields.map Prod.fst ++ [key] := by
  induction fields with
  | nil => rfl
  | cons field fields inductionHypothesis =>
    by_cases same : field.1 = key
    · simp [Value.assign, same]
    · rw [Value.assign, if_neg same, List.map_cons, inductionHypothesis]
      by_cases later : key ∈ fields.map Prod.fst
      · simp [later]
      · simp [later, Ne.symm same]

theorem mem_assign {fields : List (Str × Value Φ)} {key : Str} {value : Value Φ}
    {field : Str × Value Φ} (member : field ∈ Value.assign fields key value) :
    field ∈ fields ∨ field = (key, value) := by
  induction fields with
  | nil => exact Or.inr (List.mem_singleton.mp member)
  | cons old fields inductionHypothesis =>
    rw [Value.assign] at member
    split at member
    · rename_i same
      rcases List.mem_cons.mp member with rfl | later
      · exact Or.inr (congrArg (·, value) same)
      · exact Or.inl (List.mem_cons_of_mem _ later)
    · rcases List.mem_cons.mp member with rfl | later
      · exact Or.inl List.mem_cons_self
      · exact (inductionHypothesis later).imp_left (List.mem_cons_of_mem _)

/-- A dictionary of clean pairs is clean. -/
theorem clean_ofPairs {pairs : List (Str × Value Φ)} (clean : CleanFields pairs) :
    Clean (.dict (Value.ofPairs pairs)) := by
  have general : ∀ fields : List (Str × Value Φ), Clean (.dict fields) →
      Clean (.dict (pairs.foldl (fun fields pair => Value.assign fields pair.1 pair.2)
        fields)) := by
    intro fields before
    induction pairs generalizing fields with
    | nil => exact before
    | cons pair pairs inductionHypothesis =>
      refine inductionHypothesis clean.2.2 _ ⟨?_, cleanFields_iff.mpr fun field member => ?_⟩
      · rw [assign_keys]
        split
        · exact before.1
        · rename_i fresh
          exact List.nodup_append.mpr ⟨before.1, List.nodup_singleton _,
            fun _ one _ other => by
              rintro rfl
              exact fresh (List.mem_singleton.mp other ▸ one)⟩
      · rcases mem_assign member with old | rfl
        · exact cleanFields_iff.mp before.2 field old
        · exact ⟨clean.1, clean.2.1⟩
  exact general [] ⟨List.nodup_nil, trivial⟩

theorem ofDigitChars_lt {digits : List Char} (all : ∀ digit ∈ digits, digit.isDigit = true) :
    Nat.ofDigitChars 10 digits 0 < 10 ^ digits.length := by
  induction digits with
  | nil => decide
  | cons digit digits inductionHypothesis =>
    have later := inductionHypothesis fun digit member => all digit (List.mem_cons_of_mem _ member)
    have small : digit.toNat - '0'.toNat ≤ 9 := by
      have bounded := all digit List.mem_cons_self
      simp only [Char.isDigit, Bool.and_eq_true, decide_eq_true_eq] at bounded
      have upper : digit.toNat ≤ 57 := bounded.2
      change digit.toNat - 48 ≤ 9
      omega
    have scaled := Nat.mul_le_mul_left (10 ^ digits.length) small
    rw [Nat.ofDigitChars_cons, Nat.ofDigitChars_eq_ofDigitChars_zero, List.length_cons,
      Nat.pow_succ, Nat.mul_zero, Nat.zero_add]
    omega

theorem wholePart_digits {text whole rest : List Char}
    (split : wholePart text = some (whole, rest)) :
    ∀ digit ∈ whole, digit.isDigit = true := by
  intro digit member
  cases text with
  | nil => cases split
  | cons first text =>
    rw [wholePart] at split
    split at split
    · cases split
      rw [List.mem_singleton.mp member]
      rfl
    · split at split
      · rename_i first_digit
        cases split
        rcases List.mem_cons.mp member with rfl | later
        · exact first_digit
        · exact List.mem_takeWhile_imp later
      · cases split

variable [Floating Φ]

/-- An integer that is read is not too long. -/
theorem clean_scanUnsigned {negative : Bool} {text after : List Char} {value : Value Φ}
    (read : scanUnsigned negative text = .ok (value, after)) : Clean value := by
  unfold scanUnsigned at read
  split at read
  · cases read
  · rename_i whole rest found
    dsimp only at read
    split at read
    · split at read
      · cases read
      · rename_i short
        cases read
        have digits := ofDigitChars_lt (wholePart_digits found)
        have bounded : Nat.ofDigitChars 10 whole 0 < 10 ^ maxStrDigits :=
          digits.trans_le (Nat.pow_le_pow_right (by decide) (Nat.not_lt.mp short))
        have length := (Nat.length_toDigits_le_iff (by decide) (by decide)).mpr bounded
        cases negative
        · exact length
        · rw [Clean, if_pos rfl, Int.natAbs_neg]
          exact length
    · cases read
      trivial

theorem clean_scanNumeral {text after : List Char} {value : Value Φ}
    (read : scanNumeral text = .ok (value, after)) : Clean value := by
  unfold scanNumeral at read
  split at read
  · cases read
    trivial
  · cases read
    trivial
  · cases read
    trivial
  · split at read
    · exact clean_scanUnsigned read
    · exact clean_scanUnsigned read

theorem joined_scanText {text after : List Char} {read : Str}
    (scanned : scanText text = some (read, after)) : joinSurrogates read = read := by
  obtain ⟨⟨points, rest⟩, _, same⟩ := Option.map_eq_some_iff.mp scanned
  cases same
  exact joinSurrogates_idem points

theorem joined_scanKey {text after : List Char} {key : Str}
    (scanned : scanKey text = .ok (key, after)) : joinSurrogates key = key := by
  unfold scanKey at scanned
  split at scanned
  · split at scanned
    · rename_i found
      split at scanned
      · cases scanned
        exact joined_scanText found
      · cases scanned
    · cases scanned
  · cases scanned

/-- Whatever the scanner reads is clean, at every depth. -/
theorem clean_scanned (fuel : Nat) :
    (∀ (text : List Char) (value : Value Φ) (after : List Char),
      scanValue fuel text = .ok (value, after) → Clean value) ∧
    (∀ (text : List Char) (items : List (Value Φ)) (after : List Char),
      scanItems fuel text = .ok (items, after) → CleanItems items) ∧
    (∀ (text : List Char) (field : Str × Value Φ) (after : List Char),
      scanField fuel text = .ok (field, after) →
        joinSurrogates field.1 = field.1 ∧ Clean field.2) ∧
    (∀ (text : List Char) (fields : List (Str × Value Φ)) (after : List Char),
      scanFields fuel text = .ok (fields, after) → CleanFields fields) := by
  induction fuel with
  | zero =>
    refine ⟨?_, ?_, ?_, ?_⟩ <;> exact fun _ _ _ read => nomatch read
  | succ fuel inductionHypothesis =>
    obtain ⟨ofValue, ofItems, ofField, ofFields⟩ := inductionHypothesis
    refine ⟨fun text value after read => ?_, fun text items after read => ?_,
      fun text field after read => ?_, fun text fields after read => ?_⟩
    · cases text with
      | nil => cases read
      | cons first rest =>
        rw [scanValue] at read
        split at read
        · split at read
          · rename_i found
            cases read
            exact joined_scanText found
          · cases read
        split at read
        · split at read
          · cases read
            trivial
          · obtain ⟨⟨item, behind⟩, one, read⟩ := bind_eq_ok.mp read
            obtain ⟨⟨items, _⟩, others, same⟩ := bind_eq_ok.mp read
            cases same
            exact ⟨ofValue _ _ _ one, ofItems _ _ _ others⟩
        split at read
        · split at read
          · cases read
            exact ⟨List.nodup_nil, trivial⟩
          · obtain ⟨⟨field, behind⟩, one, read⟩ := bind_eq_ok.mp read
            obtain ⟨⟨fields, _⟩, others, same⟩ := bind_eq_ok.mp read
            cases same
            obtain ⟨joined, clean⟩ := ofField _ _ _ one
            exact clean_ofPairs ⟨joined, clean, ofFields _ _ _ others⟩
        split at read
        · cases read
          trivial
        · cases read
          trivial
        · cases read
          trivial
        · exact clean_scanNumeral read
    · rw [scanItems] at read
      split at read
      · cases read
        trivial
      · obtain ⟨⟨item, behind⟩, one, read⟩ := bind_eq_ok.mp read
        obtain ⟨⟨items, _⟩, others, same⟩ := bind_eq_ok.mp read
        cases same
        exact ⟨ofValue _ _ _ one, ofItems _ _ _ others⟩
      · cases read
    · rw [scanField] at read
      obtain ⟨⟨key, behind⟩, name, read⟩ := bind_eq_ok.mp read
      obtain ⟨⟨value, _⟩, one, same⟩ := bind_eq_ok.mp read
      cases same
      exact ⟨joined_scanKey name, ofValue _ _ _ one⟩
    · rw [scanFields] at read
      split at read
      · cases read
        trivial
      · obtain ⟨⟨field, behind⟩, one, read⟩ := bind_eq_ok.mp read
        obtain ⟨⟨fields, _⟩, others, same⟩ := bind_eq_ok.mp read
        cases same
        obtain ⟨joined, clean⟩ := ofField _ _ _ one
        exact ⟨joined, clean, ofFields _ _ _ others⟩
      · cases read

/-- A value that is read from a text is clean. -/
theorem clean_loads {text : List Char} {value : Value Φ} (read : loads text = .ok value) :
    Clean value := by
  obtain ⟨⟨given, after⟩, scanned, rest⟩ := bind_eq_ok.mp read
  dsimp only at rest
  split at rest
  · cases rest
    exact (clean_scanned _).1 _ _ _ scanned
  · cases rest

end Cleanness

section Constants

/-- The three floating point numbers that are written as words. -/
inductive Constant where
  | nan
  | infinity
  | minusInfinity
  deriving DecidableEq

/-- Only the words are told apart; every other literal counts as infinite. -/
instance : Floating Constant where
  read literal := if literal = nanWord then .nan
    else if literal = '-' :: infinityWord then .minusInfinity else .infinity
  text
    | .nan => nanWord
    | .infinity => infinityWord
    | .minusInfinity => '-' :: infinityWord
  repr
    | .nan => "nan"
    | .infinity => "inf"
    | .minusInfinity => "-inf"
  isZero _ := false
  toInt
    | .nan => .error ⟨.valueError, "cannot convert float NaN to integer"⟩
    | _ => .error ⟨.overflowError, "cannot convert float infinity to integer"⟩

theorem behindWord_append (word rest : List Char) : behindWord word (word ++ rest) = some rest := by
  rw [behindWord, if_pos (by simp), List.drop_left]

instance : LawfulFloating Constant where
  scanNumeral_text value rest _ := by
    cases value with
    | nan =>
      have nan := behindWord_append nanWord rest
      change scanNumeral (nanWord ++ rest) = _
      simp only [scanNumeral, nan]
      rfl
    | infinity =>
      have nan : behindWord nanWord (infinityWord ++ rest) = none :=
        behindWord_other (by decide) _ _
      have infinity := behindWord_append infinityWord rest
      change scanNumeral (infinityWord ++ rest) = _
      simp only [scanNumeral, nan, infinity]
      rfl
    | minusInfinity =>
      have nan : behindWord nanWord ('-' :: infinityWord ++ rest) = none :=
        behindWord_other (by decide) _ _
      have infinity : behindWord infinityWord ('-' :: infinityWord ++ rest) = none :=
        behindWord_other (by decide) _ _
      have minus := behindWord_append ('-' :: infinityWord) rest
      change scanNumeral ('-' :: infinityWord ++ rest) = _
      simp only [scanNumeral, nan, infinity, minus]
      rfl

end Constants

end Immutavault.JsonTexts
