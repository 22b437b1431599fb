import Mathlib.Algebra.Group.Nat.Defs
import Mathlib.Data.List.Sort
import Mathlib.Data.List.TakeWhile
import Immutavault.BrokerMessages

/-!
# JSON values and their texts

A JSON text is read by a scanner that goes from left to right: white space, constants,
numbers, texts with escapes, lists and dictionaries, in which the last value of a
repeated key stands at the place of the first. A text is written in ASCII, on one line or
indented by two blanks for each level, with or without sorted keys.

Texts of values are lists of code points, lone surrogates included, because an escape can
denote one. What floating point numbers are is left open: they are written as texts and
read from them, and compared and converted in the few ways that the program uses.

A text and a number are read as they were written, whatever stands behind them.
-/

namespace Immutavault.JsonTexts

open Values GuestFiles
open BrokerMessages.Wire (joinSurrogates)

/-- Floating point numbers, as far as the program handles them. -/
class Floating (Φ : Type) where
  /-- The number that a literal denotes. -/
  read : List Char → Φ
  /-- The literal that a number is written as. -/
  text : Φ → List Char
  /-- The text of a number outside of JSON. -/
  repr : Φ → String
  isZero : Φ → Bool
  /-- The integer part; there is none of infinity, and none of what is no number. -/
  toInt : Φ → Except Exn Int

/-- JSON values. A dictionary is in insertion order. -/
inductive Value (Φ : Type) where
  | null
  | bool (value : Bool)
  | int (value : Int)
  | float (value : Φ)
  | text (value : Str)
  | list (items : List (Value Φ))
  | dict (fields : List (Str × Value Φ))

variable {Φ : Type}

/-- The value under a key. -/
def Value.get? : List (Str × Value Φ) → Str → Option (Value Φ)
  | [], _ => none
  | (name, value) :: rest, key => if name = key then some value else Value.get? rest key

/-- Assign a key: in its place when present, otherwise at the end. -/
def Value.assign : List (Str × Value Φ) → Str → Value Φ → List (Str × Value Φ)
  | [], key, value => [(key, value)]
  | (name, old) :: rest, key, value =>
    if name = key then (name, value) :: rest else (name, old) :: Value.assign rest key value

/-- The dictionary of pairs in the order in which they are read. -/
def Value.ofPairs (pairs : List (Str × Value Φ)) : List (Str × Value Φ) :=
  pairs.foldl (fun fields pair => Value.assign fields pair.1 pair.2) []

section Texts

/-- The point of a code. -/
def pointOf (code : Nat) : CodePoint := Fin.ofNat 1114112 code

def hexDigit (value : Nat) : Char :=
  if value < 10 then Char.ofNat (48 + value) else Char.ofNat (87 + value)

/-- The value of a hexadecimal digit of either case. -/
def hexValue (character : Char) : Option Nat :=
  let code := character.toNat
  if 48 ≤ code ∧ code ≤ 57 then some (code - 48)
  else if 97 ≤ code ∧ code ≤ 102 then some (code - 87)
  else if 65 ≤ code ∧ code ≤ 70 then some (code - 55)
  else none

/-- The escape of a code of sixteen bits. -/
def unicodeEscape (code : Nat) : List Char :=
  ['\\', 'u', hexDigit (code / 4096 % 16), hexDigit (code / 256 % 16), hexDigit (code / 16 % 16),
    hexDigit (code % 16)]

/-- The code of four hexadecimal digits. -/
def quadValue (first second third fourth : Char) : Option Nat := do
  let first ← hexValue first
  let second ← hexValue second
  let third ← hexValue third
  let fourth ← hexValue fourth
  return first * 4096 + second * 256 + third * 16 + fourth

/-- The codes that are escaped by one character. -/
def shortEscapes : List (Nat × Char) :=
  [(34, '"'), (92, '\\'), (10, 'n'), (13, 'r'), (9, 't'), (8, 'b'), (12, 'f')]

/-- One point of a text in ASCII. -/
def escaped (point : CodePoint) : List Char :=
  let code := point.val
  match shortEscapes.find? fun entry => entry.1 = code with
  | some entry => ['\\', entry.2]
  | none =>
    if code < 32 ∨ (127 ≤ code ∧ code < 65536) then unicodeEscape code
    else if code < 127 then [Char.ofNat code]
    else unicodeEscape (55296 + (code - 65536) / 1024) ++
      unicodeEscape (56320 + (code - 65536) % 1024)

/-- A text between quotation marks. -/
def quoted (text : Str) : List Char := '"' :: (text.flatMap escaped ++ ['"'])

/-- The point of an escape by one character; a slash may be escaped, too. -/
def simpleEscape (character : Char) : Option CodePoint :=
  (((47, '/') :: shortEscapes).find? fun entry => entry.2 = character).map fun entry =>
    pointOf entry.1

/-- The points up to the closing quotation mark, and what follows it. -/
def scanPoints : List Char → Option (Str × List Char)
  | [] => none
  | '\\' :: 'u' :: first :: second :: third :: fourth :: rest => do
    let code ← quadValue first second third fourth
    let (points, after) ← scanPoints rest
    return (pointOf code :: points, after)
  | '\\' :: character :: rest => do
    let point ← simpleEscape character
    let (points, after) ← scanPoints rest
    return (point :: points, after)
  | character :: rest =>
    if character = '"' then some ([], rest)
    else if character.toNat < 32 ∨ character = '\\' then none
    else do
      let (points, after) ← scanPoints rest
      return (pointOf character.toNat :: points, after)

/-- A text up to the closing quotation mark. Halves of a character are joined. -/
def scanText (text : List Char) : Option (Str × List Char) :=
  (scanPoints text).map fun scanned => (joinSurrogates scanned.1, scanned.2)

/-- A point as it is escaped: what does not fit sixteen bits is halved. -/
def halves (point : CodePoint) : Str :=
  if point.val < 65536 then [point]
  else [pointOf (55296 + (point.val - 65536) / 1024), pointOf (56320 + (point.val - 65536) % 1024)]

theorem hexValue_hexDigit : ∀ value < 16, hexValue (hexDigit value) = some value := by decide

theorem quadValue_digits {code : Nat} (small : code < 65536) :
    quadValue (hexDigit (code / 4096 % 16)) (hexDigit (code / 256 % 16))
      (hexDigit (code / 16 % 16)) (hexDigit (code % 16)) = some code := by
  have digit : ∀ value, hexValue (hexDigit (value % 16)) = some (value % 16) := fun value =>
    hexValue_hexDigit _ (Nat.mod_lt _ (by decide))
  simp only [quadValue, digit, Option.bind_eq_bind, Option.bind_some, Option.pure_def,
    Option.some.injEq]
  omega

/-- Points in front of what is scanned. -/
def ahead (points : Str) (scanned : Option (Str × List Char)) : Option (Str × List Char) :=
  scanned.map fun scanned => (points ++ scanned.1, scanned.2)

theorem ahead_ahead (first second : Str) (scanned : Option (Str × List Char)) :
    ahead first (ahead second scanned) = ahead (first ++ second) scanned := by
  cases scanned <;> simp [ahead]

/-- An escape of sixteen bits is read as its code. -/
theorem scanPoints_unicode {code : Nat} (small : code < 65536) (rest : List Char) :
    scanPoints (unicodeEscape code ++ rest) = ahead [pointOf code] (scanPoints rest) := by
  change scanPoints ('\\' :: 'u' :: _ :: _ :: _ :: _ :: rest) = _
  rw [scanPoints, quadValue_digits small]
  cases scanPoints rest <;> rfl

/-- An escape by one character is read as its point. -/
theorem scanPoints_simple {character : Char} {point : CodePoint}
    (known : simpleEscape character = some point) (rest : List Char) :
    scanPoints ('\\' :: character :: rest) = ahead [point] (scanPoints rest) := by
  have other : character ≠ 'u' := by
    rintro rfl
    cases known
  rw [scanPoints.eq_3 _ _ (fun _ _ _ _ _ same _ => other same), known]
  cases scanPoints rest <;> rfl

/-- A character that stands for itself is read as itself. -/
theorem scanPoints_plain {code : Nat} (printable : 32 ≤ code ∧ code < 127) (mark : code ≠ 34)
    (slash : code ≠ 92) (rest : List Char) :
    scanPoints (Char.ofNat code :: rest) = ahead [pointOf code] (scanPoints rest) := by
  have toNat : (Char.ofNat code).toNat = code := by
    have valid : code.isValidChar := Or.inl (by omega)
    rw [Char.ofNat, dif_pos valid]
    rfl
  have noMark : Char.ofNat code ≠ '"' := fun same => mark (toNat.symm.trans (congrArg _ same))
  have noSlash : Char.ofNat code ≠ '\\' := fun same => slash (toNat.symm.trans (congrArg _ same))
  rw [scanPoints.eq_4 _ _ (fun _ _ _ _ _ same _ => noSlash same) (fun _ _ same _ => noSlash same),
    if_neg noMark, if_neg (by simp [toNat, noSlash]; omega), toNat]
  cases scanPoints rest <;> rfl

theorem val_pointOf {code : Nat} (small : code < 1114112) : (pointOf code).val = code :=
  Nat.mod_eq_of_lt small

theorem pointOf_val (point : CodePoint) : pointOf point.val = point :=
  Fin.ext (Nat.mod_eq_of_lt point.isLt)

/-- What is written for a point is read as the point, in halves if it is halved. -/
theorem scanPoints_escaped (point : CodePoint) (rest : List Char) :
    scanPoints (escaped point ++ rest) = ahead (halves point) (scanPoints rest) := by
  have bounded := point.isLt
  have whole : point.val < 65536 → halves point = [pointOf point.val] := fun small => by
    rw [halves, if_pos small, pointOf_val]
  unfold escaped
  dsimp only
  cases found : shortEscapes.find? fun entry => entry.1 = point.val with
  | some entry =>
    have same := List.find?_some found
    have known : ∀ entry ∈ shortEscapes,
        entry.1 < 65536 ∧ simpleEscape entry.2 = some (pointOf entry.1) := by decide
    obtain ⟨small, read⟩ := known entry (List.mem_of_find?_eq_some found)
    rw [of_decide_eq_true same] at small read
    rw [whole small]
    exact scanPoints_simple read rest
  | none =>
    have absent := List.find?_eq_none.mp found
    have mark : point.val ≠ 34 := fun same => absent (34, '"') (by decide) (by simp [same])
    have slash : point.val ≠ 92 := fun same => absent (92, '\\') (by decide) (by simp [same])
    dsimp only
    split
    · rw [whole (by omega)]
      exact scanPoints_unicode (by omega) rest
    · split
      · rw [whole (by omega)]
        exact scanPoints_plain (by omega) mark slash rest
      · rw [List.append_assoc, scanPoints_unicode (by omega), scanPoints_unicode (by omega),
          ahead_ahead, halves, if_neg (by omega)]
        rfl

/-- A text up to its closing mark is read in halves. -/
theorem scanPoints_text (text : Str) (rest : List Char) :
    scanPoints (text.flatMap escaped ++ '"' :: rest) = some (text.flatMap halves, rest) := by
  induction text with
  | nil => rfl
  | cons point text inductionHypothesis =>
    rw [List.flatMap_cons, List.append_assoc, scanPoints_escaped, inductionHypothesis]
    rfl

/-- Two points that stand side by side are halves of a character. -/
def Halved (first second : CodePoint) : Prop :=
  55296 ≤ first.val ∧ first.val < 56320 ∧ 56320 ≤ second.val ∧ second.val < 57344

/-- The two halves of a point are joined to it. -/
theorem joinSurrogates_halves {point : CodePoint} (wide : 65536 ≤ point.val) (rest : Str) :
    joinSurrogates (halves point ++ rest) = point :: joinSurrogates rest := by
  have bounded := point.isLt
  have high : (pointOf (55296 + (point.val - 65536) / 1024)).val =
      55296 + (point.val - 65536) / 1024 := val_pointOf (by omega)
  have low : (pointOf (56320 + (point.val - 65536) % 1024)).val =
      56320 + (point.val - 65536) % 1024 := val_pointOf (by omega)
  have whole : 65536 + (55296 + (point.val - 65536) / 1024 - 55296) * 1024 +
      (56320 + (point.val - 65536) % 1024 - 56320) = point.val := by omega
  rw [halves, if_neg (by omega), List.cons_append, List.cons_append, List.nil_append,
    joinSurrogates, if_pos (by omega), high, low, whole]
  exact congrArg (· :: joinSurrogates rest) (pointOf_val point)

/-- A point that is followed by no other half stays. -/
theorem joinSurrogates_cons {first : CodePoint} {rest : Str}
    (apart : ∀ second ∈ rest.head?, ¬ Halved first second) :
    joinSurrogates (first :: rest) = first :: joinSurrogates rest := by
  cases rest with
  | nil => rfl
  | cons second rest =>
    have other := apart second rfl
    unfold Halved at other
    rw [joinSurrogates, if_neg other]

/-- What begins halves is the point itself, or no second half. -/
theorem halves_head (point : CodePoint) (rest : Str) {first : CodePoint}
    (apart : ¬ Halved first point) :
    ∀ second ∈ (halves point ++ rest).head?, ¬ Halved first second := by
  have bounded := point.isLt
  intro second member
  unfold halves at member
  split at member
  · cases member
    exact apart
  · cases member
    have high : (pointOf (55296 + (point.val - 65536) / 1024)).val =
        55296 + (point.val - 65536) / 1024 := val_pointOf (by omega)
    unfold Halved
    omega

/-- Halving points does not change what is joined. -/
theorem joinSurrogates_flatMap (text : Str) :
    joinSurrogates (text.flatMap halves) = joinSurrogates text := by
  have wideOrNot : ∀ point : CodePoint, 65536 ≤ point.val ∨ halves point = [point] := by
    intro point
    by_cases small : point.val < 65536
    · exact Or.inr (if_pos small)
    · exact Or.inl (by omega)
  fun_induction joinSurrogates text with
  | case1 => rfl
  | case2 point =>
    rcases wideOrNot point with wide | narrow
    · exact joinSurrogates_halves wide []
    · simp [narrow, joinSurrogates]
  | case3 first second rest pair inductionHypothesis =>
    have one : halves first = [first] := if_pos (by omega)
    have two : halves second = [second] := if_pos (by omega)
    rw [List.flatMap_cons, List.flatMap_cons, one, two, List.singleton_append,
      List.singleton_append, joinSurrogates, if_pos pair, inductionHypothesis]
  | case4 first second rest other inductionHypothesis =>
    rcases wideOrNot first with wide | narrow
    · rw [List.flatMap_cons, joinSurrogates_halves wide, inductionHypothesis]
    · rw [List.flatMap_cons, narrow, List.singleton_append, joinSurrogates_cons,
        inductionHypothesis]
      exact halves_head second _ other

/-- What is joined begins with the first point, or with a joined character. -/
theorem joinSurrogates_head {first second : CodePoint} {rest : Str}
    (apart : ¬ Halved first second) :
    ∀ head ∈ (joinSurrogates (second :: rest)).head?, ¬ Halved first head := by
  intro head member
  cases rest with
  | nil =>
    cases member
    exact apart
  | cons third rest =>
    rw [joinSurrogates] at member
    split at member
    · rename_i pair
      have joined : (pointOf (65536 + (second.val - 55296) * 1024 + (third.val - 56320))).val =
          65536 + (second.val - 55296) * 1024 + (third.val - 56320) := val_pointOf (by omega)
      obtain rfl : pointOf _ = head := Option.some.inj member
      unfold Halved
      omega
    · cases member
      exact apart

/-- Once joined, nothing is left to join. -/
theorem joinSurrogates_idem (text : Str) :
    joinSurrogates (joinSurrogates text) = joinSurrogates text := by
  fun_induction joinSurrogates text with
  | case1 => rfl
  | case2 point => rfl
  | case3 first second rest pair inductionHypothesis =>
    have joined : (pointOf (65536 + (first.val - 55296) * 1024 + (second.val - 56320))).val =
        65536 + (first.val - 55296) * 1024 + (second.val - 56320) := val_pointOf (by omega)
    have apart : ∀ head, ¬ Halved (pointOf (65536 + (first.val - 55296) * 1024 +
        (second.val - 56320))) head := by
      intro head
      unfold Halved
      omega
    exact (joinSurrogates_cons fun head _ => apart head).trans (congrArg _ inductionHypothesis)
  | case4 first second rest other inductionHypothesis =>
    rw [joinSurrogates_cons (joinSurrogates_head other), inductionHypothesis]

/-- A text is read as it was written, with its halves joined. -/
theorem scanText_quoted (text : Str) (rest : List Char) :
    scanText (text.flatMap escaped ++ '"' :: rest) = some (joinSurrogates text, rest) := by
  rw [scanText, scanPoints_text, Option.map_some, joinSurrogates_flatMap]

end Texts

/-- Why a text is not read: it is no JSON text, or it holds an integer that is too long. -/
inductive LoadError where
  | malformed
  | tooLong
  deriving DecidableEq

/-- The number of digits up to which texts are converted to integers and back. -/
def maxStrDigits : Nat := 4300

section Numbers

/-- The text of an integer. -/
def intText (value : Int) : List Char :=
  (if value < 0 then ['-'] else []) ++ Nat.toDigits 10 value.natAbs

/-- A zero, or digits that begin with another one. -/
def wholePart : List Char → Option (List Char × List Char)
  | [] => none
  | character :: rest =>
    if character = '0' then some (['0'], rest)
    else if character.isDigit then
      some (character :: rest.takeWhile Char.isDigit, rest.dropWhile Char.isDigit)
    else none

/-- A point and digits, if there are any. -/
def fractionPart : List Char → List Char × List Char
  | '.' :: digit :: rest =>
    if digit.isDigit then
      ('.' :: digit :: rest.takeWhile Char.isDigit, rest.dropWhile Char.isDigit)
    else ([], '.' :: digit :: rest)
  | text => ([], text)

/-- A sign, if there is one. -/
def signPart : List Char → List Char × List Char
  | sign :: rest => if sign = '+' ∨ sign = '-' then ([sign], rest) else ([], sign :: rest)
  | [] => ([], [])

/-- An exponent with digits, if there is one. -/
def exponentPart : List Char → List Char × List Char
  | mark :: rest =>
    if mark = 'e' ∨ mark = 'E' then
      let digits := (signPart rest).2.takeWhile Char.isDigit
      if digits = [] then ([], mark :: rest)
      else (mark :: (signPart rest).1 ++ digits, (signPart rest).2.dropWhile Char.isDigit)
    else ([], mark :: rest)
  | [] => ([], [])

variable [Floating Φ]

/-- A number without its sign. -/
def scanUnsigned (negative : Bool) (text : List Char) : Except LoadError (Value Φ × List Char) :=
  match wholePart text with
  | none => .error .malformed
  | some (whole, rest) =>
    let (fraction, rest) := fractionPart rest
    let (exponent, rest) := exponentPart rest
    if fraction = [] ∧ exponent = [] then
      if maxStrDigits < whole.length then .error .tooLong
      else
        let value : Int := Nat.ofDigitChars 10 whole 0
        .ok (.int (if negative then -value else value), rest)
    else
      let literal := (if negative then ['-'] else []) ++ whole ++ fraction ++ exponent
      .ok (.float (Floating.read literal), rest)

def nanWord : List Char := ['N', 'a', 'N']

def infinityWord : List Char := ['I', 'n', 'f', 'i', 'n', 'i', 't', 'y']

/-- What follows a word. -/
def behindWord (word text : List Char) : Option (List Char) :=
  if word.isPrefixOf text then some (text.drop word.length) else none

/-- A constant that is no integer, or a number. -/
def scanNumeral (text : List Char) : Except LoadError (Value Φ × List Char) :=
  match behindWord nanWord text, behindWord infinityWord text,
      behindWord ('-' :: infinityWord) text with
  | some rest, _, _ => .ok (.float (Floating.read nanWord), rest)
  | _, some rest, _ => .ok (.float (Floating.read infinityWord), rest)
  | _, _, some rest => .ok (.float (Floating.read ('-' :: infinityWord)), rest)
  | none, none, none =>
    match text with
    | '-' :: rest => scanUnsigned true rest
    | text => scanUnsigned false text

/-- A number ends before this text. -/
def Stops (rest : List Char) : Prop :=
  ∀ character ∈ rest.head?, character.isDigit = false ∧ character ∉ ['.', 'e', 'E']

variable (Φ) in
/-- What is written for a floating point number is read as the number. -/
class LawfulFloating : Prop where
  scanNumeral_text : ∀ (value : Φ) (rest : List Char), Stops rest →
    scanNumeral (Floating.text value ++ rest) = .ok (.float value, rest)

theorem takeWhile_digits {digits rest : List Char} (all : ∀ digit ∈ digits, digit.isDigit = true)
    (stops : Stops rest) : (digits ++ rest).takeWhile Char.isDigit = digits ∧
      (digits ++ rest).dropWhile Char.isDigit = rest := by
  have none : rest.takeWhile Char.isDigit = [] ∧ rest.dropWhile Char.isDigit = rest := by
    cases rest with
    | nil => exact ⟨rfl, rfl⟩
    | cons character rest =>
      have other := (stops character rfl).1
      simp [other]
  rw [List.takeWhile_append_of_pos all, List.dropWhile_append_of_pos all, none.1, none.2,
    List.append_nil]
  exact ⟨rfl, rfl⟩

/-- The digits of a positive number begin with another digit than zero. -/
theorem toDigits_head {value : Nat} (positive : 0 < value) :
    ∃ first rest, Nat.toDigits 10 value = first :: rest ∧ first ≠ '0' := by
  induction value using Nat.strongRecOn with
  | _ value inductionHypothesis =>
    by_cases small : value < 10
    · have known : ∀ value < 10, 0 < value → Nat.digitChar value ≠ '0' := by decide
      exact ⟨_, [], Nat.toDigits_of_lt_base small, known value small positive⟩
    · obtain ⟨first, rest, digits, other⟩ :=
        inductionHypothesis (value / 10) (by omega) (by omega)
      refine ⟨first, rest ++ [Nat.digitChar (value % 10)], ?_, other⟩
      rw [Nat.toDigits_of_base_le (by decide) (by omega), digits, List.cons_append]

theorem wholePart_toDigits (value : Nat) {rest : List Char} (stops : Stops rest) :
    wholePart (Nat.toDigits 10 value ++ rest) = some (Nat.toDigits 10 value, rest) := by
  rcases Nat.eq_zero_or_pos value with rfl | positive
  · rfl
  · obtain ⟨first, more, digits, other⟩ := toDigits_head positive
    have all : ∀ digit ∈ first :: more, digit.isDigit = true := fun digit member =>
      Nat.isDigit_of_mem_toDigits (by decide) (by decide) (digits ▸ member)
    have rest := takeWhile_digits (fun digit member => all digit (List.mem_cons_of_mem _ member))
      stops
    rw [digits, List.cons_append, wholePart, if_neg other, if_pos (all first List.mem_cons_self),
      rest.1, rest.2]

theorem fractionPart_stops {rest : List Char} (stops : Stops rest) :
    fractionPart rest = ([], rest) := by
  unfold fractionPart
  split
  · exact absurd List.mem_cons_self (stops '.' rfl).2
  · rfl

theorem exponentPart_stops {rest : List Char} (stops : Stops rest) :
    exponentPart rest = ([], rest) := by
  unfold exponentPart
  split
  · rename_i mark rest
    have other := (stops mark rfl).2
    rw [if_neg]
    rintro (rfl | rfl) <;> simp at other
  · rfl

/-- An integer that is not too long is read as it was written. -/
theorem scanUnsigned_toDigits (negative : Bool) (value : Nat)
    (short : (Nat.toDigits 10 value).length ≤ maxStrDigits) {rest : List Char}
    (stops : Stops rest) :
    (scanUnsigned negative (Nat.toDigits 10 value ++ rest) :
      Except LoadError (Value Φ × List Char)) =
      .ok (.int (if negative then -(value : Int) else value), rest) := by
  rw [scanUnsigned, wholePart_toDigits value stops]
  simp only [fractionPart_stops stops, exponentPart_stops stops, and_self, if_true,
    if_neg (Nat.not_lt.mpr short), Nat.ofDigitChars_ten_toDigits]

theorem behindWord_other {letter first : Char} (other : letter ≠ first)
    (letters rest : List Char) : behindWord (letter :: letters) (first :: rest) = none := by
  simp [behindWord, List.isPrefixOf, other]

/-- An integer is read as it was written. -/
theorem scanNumeral_intText (value : Int)
    (short : (Nat.toDigits 10 value.natAbs).length ≤ maxStrDigits) {rest : List Char}
    (stops : Stops rest) :
    (scanNumeral (intText value ++ rest) : Except LoadError (Value Φ × List Char)) =
      .ok (.int value, rest) := by
  obtain ⟨first, more, digits⟩ := List.exists_cons_of_ne_nil
    (Nat.toDigits_ne_nil : Nat.toDigits 10 value.natAbs ≠ [])
  have digit : first.isDigit = true := Nat.isDigit_of_mem_toDigits (by decide) (by decide)
    (digits ▸ List.mem_cons_self)
  have apart : ∀ letter : Char, letter.isDigit = false → letter ≠ first := by
    rintro _ none rfl
    exact Bool.false_ne_true (none.symm.trans digit)
  have read := fun negative => @scanUnsigned_toDigits Φ _ negative _ short _ stops
  rw [digits] at read
  unfold intText
  rw [digits]
  by_cases negative : value < 0
  · have infinite : behindWord ('-' :: infinityWord) ('-' :: first :: (more ++ rest)) = none := by
      simp [behindWord, infinityWord, List.isPrefixOf, apart 'I' (by decide)]
    rw [if_pos negative, List.singleton_append, List.cons_append, List.cons_append, scanNumeral,
      nanWord, infinityWord, behindWord_other (by decide), behindWord_other (by decide),
      ← infinityWord, infinite]
    refine (read true).trans ?_
    have same : -((value.natAbs : Nat) : Int) = value := by omega
    rw [if_pos rfl, same]
  · rw [if_neg negative, List.nil_append, List.cons_append, scanNumeral, nanWord, infinityWord,
      behindWord_other (apart 'N' (by decide)), behindWord_other (apart 'I' (by decide)),
      behindWord_other (apart '-' (by decide))]
    · refine (read false).trans ?_
      have same : ((value.natAbs : Nat) : Int) = value := by omega
      rw [if_neg Bool.false_ne_true, same]
    · intro other same
      exact apart '-' (by decide) (List.cons.inj same).1.symm

end Numbers

section Reading

variable [Floating Φ]

/-- White space between the parts of a text. -/
def isSpace (character : Char) : Bool := character ∈ [' ', '\t', '\n', '\r']

def skip (text : List Char) : List Char := text.dropWhile isSpace

def nullWord : List Char := ['n', 'u', 'l', 'l']

def trueWord : List Char := ['t', 'r', 'u', 'e']

def falseWord : List Char := ['f', 'a', 'l', 's', 'e']

/-- A key in quotation marks and its colon. -/
def scanKey (text : List Char) : Except LoadError (Str × List Char) :=
  match text with
  | '"' :: rest =>
    match scanText rest with
    | some (key, after) =>
      match skip after with
      | ':' :: rest => .ok (key, rest)
      | _ => .error .malformed
    | none => .error .malformed
  | _ => .error .malformed

mutual

/-- A value at the beginning of a text, and what follows it. -/
def scanValue : Nat → List Char → Except LoadError (Value Φ × List Char)
  | 0, _ => .error .malformed
  | _ + 1, [] => .error .malformed
  | fuel + 1, first :: rest =>
    if first = '"' then
      match scanText rest with
      | some (text, after) => .ok (.text text, after)
      | none => .error .malformed
    else if first = '[' then
      match skip rest with
      | ']' :: after => .ok (.list [], after)
      | text => do
        let (item, after) ← scanValue fuel text
        let (items, after) ← scanItems fuel after
        return (.list (item :: items), after)
    else if first = '\x7b' then
      match skip rest with
      | '\x7d' :: after => .ok (.dict [], after)
      | text => do
        let (pair, after) ← scanField fuel text
        let (pairs, after) ← scanFields fuel after
        return (.dict (Value.ofPairs (pair :: pairs)), after)
    else match behindWord nullWord (first :: rest), behindWord trueWord (first :: rest),
        behindWord falseWord (first :: rest) with
      | some after, _, _ => .ok (.null, after)
      | _, some after, _ => .ok (.bool true, after)
      | _, _, some after => .ok (.bool false, after)
      | none, none, none => scanNumeral (first :: rest)

/-- The further items of a list, up to its closing bracket. -/
def scanItems : Nat → List Char → Except LoadError (List (Value Φ) × List Char)
  | 0, _ => .error .malformed
  | fuel + 1, text =>
    match skip text with
    | ']' :: after => .ok ([], after)
    | ',' :: rest => do
      let (item, after) ← scanValue fuel (skip rest)
      let (items, after) ← scanItems fuel after
      return (item :: items, after)
    | _ => .error .malformed

/-- A pair of a key and a value. -/
def scanField : Nat → List Char → Except LoadError ((Str × Value Φ) × List Char)
  | 0, _ => .error .malformed
  | fuel + 1, text => do
    let (key, rest) ← scanKey text
    let (value, after) ← scanValue fuel (skip rest)
    return ((key, value), after)

/-- The further pairs of a dictionary, up to its closing brace. -/
def scanFields : Nat → List Char → Except LoadError (List (Str × Value Φ) × List Char)
  | 0, _ => .error .malformed
  | fuel + 1, text =>
    match skip text with
    | '\x7d' :: after => .ok ([], after)
    | ',' :: rest => do
      let (pair, after) ← scanField fuel (skip rest)
      let (pairs, after) ← scanFields fuel after
      return (pair :: pairs, after)
    | _ => .error .malformed

end

/-- The value of a text. -/
def loads (text : List Char) : Except LoadError (Value Φ) := do
  let (value, after) ← scanValue (text.length + 1) (skip text)
  if skip after = [] then return value
  else .error .malformed

end Reading

section Writing

/-- How a text is laid out: on one line without or with blanks, or indented. -/
inductive Layout where
  | compact
  | spaced
  | indented

namespace Layout

/-- What stands before the first part of a container and after its last. -/
def margin (layout : Layout) (level : Nat) : List Char :=
  match layout with
  | indented => '\n' :: List.replicate (2 * level) ' '
  | _ => []

/-- What stands after a comma. -/
def gap (layout : Layout) (level : Nat) : List Char :=
  match layout with
  | compact => []
  | spaced => [' ']
  | indented => '\n' :: List.replicate (2 * level) ' '

/-- What stands after a colon. -/
def space : Layout → List Char
  | compact => []
  | _ => [' ']

end Layout

variable [Floating Φ] (layout : Layout)

mutual

/-- The text of a value at a level of indentation. -/
def print (level : Nat) : Value Φ → List Char
  | .null => nullWord
  | .bool value => if value then trueWord else falseWord
  | .int value => intText value
  | .float value => Floating.text value
  | .text value => quoted value
  | .list [] => ['[', ']']
  | .list (item :: rest) =>
    '[' :: (layout.margin (level + 1) ++ print (level + 1) item ++ printItems (level + 1) rest ++
      layout.margin level ++ [']'])
  | .dict [] => ['\x7b', '\x7d']
  | .dict ((key, value) :: rest) =>
    '\x7b' :: (layout.margin (level + 1) ++ quoted key ++ ':' :: (layout.space ++
      print (level + 1) value ++ printFields (level + 1) rest ++ layout.margin level ++ ['\x7d']))

/-- The further items of a list. -/
def printItems (level : Nat) : List (Value Φ) → List Char
  | [] => []
  | item :: rest => ',' :: (layout.gap level ++ print level item ++ printItems level rest)

/-- The further fields of a dictionary. -/
def printFields (level : Nat) : List (Str × Value Φ) → List Char
  | [] => []
  | (key, value) :: rest => ',' :: (layout.gap level ++ quoted key ++ ':' :: (layout.space ++
      print level value ++ printFields level rest))

end

mutual

/-- A value with the keys of all its dictionaries in order. -/
def arranged : Value Φ → Value Φ
  | .list items => .list (arrangedItems items)
  | .dict fields =>
    .dict ((arrangedFields fields).insertionSort fun first second => ¬ second.1 < first.1)
  | value => value

def arrangedItems : List (Value Φ) → List (Value Φ)
  | [] => []
  | item :: rest => arranged item :: arrangedItems rest

def arrangedFields : List (Str × Value Φ) → List (Str × Value Φ)
  | [] => []
  | (key, value) :: rest => (key, arranged value) :: arrangedFields rest

end

/-- The text of a value in a layout. -/
def dumps (value : Value Φ) : List Char := print layout 0 value

/-- The text with sorted keys. -/
def dumpsSorted (value : Value Φ) : List Char := print layout 0 (arranged value)

end Writing

end Immutavault.JsonTexts
