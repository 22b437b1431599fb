import Mathlib.Data.List.Basic

/-!
# Shell patterns

A pattern is a text in which a star stands for any text, a question mark for any
one character, and a bracketed set for one of its characters, or for one of the
others when the set begins with an exclamation mark. Every other character stands
for itself, and so does a bracket that is never closed.

A pattern is read into parts once, and the parts are matched against a name from
left to right. A pattern without any of the four signs matches its own text only.
-/

namespace Immutavault.GlobPatterns

/-- A part of a pattern. A set lists its ranges; a range whose end stands before its
beginning holds no character. -/
inductive Part where
  | star
  | any
  | literal (character : Char)
  | oneOf (negated : Bool) (ranges : List (Char × Char))
  deriving DecidableEq, Repr

/-- The ranges of a set. A hyphen at either end of the set stands for itself. -/
def ranges : List Char → List (Char × Char)
  | [] => []
  | first :: '-' :: last :: rest => (first, last) :: ranges rest
  | first :: rest => (first, first) :: ranges rest

/-- Split a text at its first closing bracket. -/
def closing : List Char → Option (List Char × List Char)
  | [] => none
  | ']' :: rest => some ([], rest)
  | character :: rest => (closing rest).map fun parts => (character :: parts.1, parts.2)

/-- The inside of a set and what stands after it. A closing bracket that stands first
belongs to the set. -/
def inside : List Char → Option (List Char × List Char)
  | ']' :: rest => (closing rest).map fun parts => (']' :: parts.1, parts.2)
  | text => closing text

/-- Read a set behind its opening bracket. -/
def readSet : List Char → Option (Part × List Char)
  | '!' :: rest => (inside rest).map fun parts => (.oneOf true (ranges parts.1), parts.2)
  | text => (inside text).map fun parts => (.oneOf false (ranges parts.1), parts.2)

/-- Read at most so many parts of a pattern. -/
def readParts : Nat → List Char → List Part
  | 0, _ => []
  | _ + 1, [] => []
  | count + 1, '*' :: rest => .star :: readParts count rest
  | count + 1, '?' :: rest => .any :: readParts count rest
  | count + 1, '[' :: rest =>
    match readSet rest with
    | some (part, after) => part :: readParts count after
    | none => .literal '[' :: readParts count rest
  | count + 1, character :: rest => .literal character :: readParts count rest

/-- A pattern has at most as many parts as characters. -/
def translate (pattern : List Char) : List Part := readParts pattern.length pattern

/-- A test that some end of a text passes. -/
def someSuffix (test : List Char → Bool) : List Char → Bool
  | [] => test []
  | character :: rest => test (character :: rest) || someSuffix test rest

/-- The first character passes one test and the rest another. -/
def firstAnd (first : Char → Bool) (test : List Char → Bool) : List Char → Bool
  | [] => false
  | character :: rest => first character && test rest

def inRange (character : Char) (range : Char × Char) : Bool :=
  range.1 ≤ character ∧ character ≤ range.2

/-- The parts of a pattern match a whole text. -/
def matchParts : List Part → List Char → Bool
  | [] => List.isEmpty
  | .star :: rest => someSuffix (matchParts rest)
  | .any :: rest => firstAnd (fun _ => true) (matchParts rest)
  | .literal character :: rest => firstAnd (· = character) (matchParts rest)
  | .oneOf negated ranges :: rest =>
    firstAnd (fun character => ranges.any (inRange character) != negated) (matchParts rest)

/-- The pattern matches the name. -/
def fnmatch (name pattern : String) : Bool := matchParts (translate pattern.toList) name.toList

/-- A character that stands for itself wherever it occurs. -/
def Plain (character : Char) : Prop := character ∉ ['*', '?', '[']

theorem readParts_plain {count : Nat} {pattern : List Char} (fits : pattern.length ≤ count)
    (plain : ∀ character ∈ pattern, Plain character) :
    readParts count pattern = pattern.map .literal := by
  induction pattern generalizing count with
  | nil => cases count <;> rfl
  | cons character rest inductionHypothesis =>
    cases count with
    | zero => simp at fits
    | succ count =>
      have own : Plain character := plain character List.mem_cons_self
      simp only [Plain, List.mem_cons, List.not_mem_nil, or_false, not_or] at own
      have further := inductionHypothesis (by simpa using fits)
        fun later member => plain later (List.mem_cons_of_mem _ member)
      rw [readParts, further, List.map_cons]
      · exact fun same => own.1 same
      · exact fun same => own.2.1 same
      · exact fun same => own.2.2 same

theorem matchParts_literal (pattern name : List Char) :
    matchParts (pattern.map .literal) name = true ↔ name = pattern := by
  induction pattern generalizing name with
  | nil => simp [matchParts]
  | cons character rest inductionHypothesis =>
    cases name with
    | nil => simp [matchParts, firstAnd]
    | cons first others => simp [matchParts, firstAnd, inductionHypothesis]

/-- A pattern without signs matches exactly its own text. -/
theorem fnmatch_plain {name pattern : String}
    (plain : ∀ character ∈ pattern.toList, Plain character) :
    fnmatch name pattern = true ↔ name = pattern := by
  rw [fnmatch, translate, readParts_plain (Nat.le_refl _) plain, matchParts_literal, String.toList_inj]

/-- A single star matches every name. -/
theorem fnmatch_star (name : String) : fnmatch name "*" = true := by
  have all : ∀ text, someSuffix List.isEmpty text = true := by
    intro text
    induction text with
    | nil => rfl
    | cons character rest inductionHypothesis => simp [someSuffix, inductionHypothesis]
  exact all name.toList

theorem someSuffix_append {test : List Char → Bool} (middle : List Char) {back : List Char}
    (passes : test back = true) : someSuffix test (middle ++ back) = true := by
  induction middle with
  | nil =>
    cases back with
    | nil => exact passes
    | cons first rest => simp [someSuffix, passes]
  | cons first rest inductionHypothesis => simp [someSuffix, inductionHypothesis]

/-- A star between two texts matches whatever stands between them. -/
theorem matchParts_around (front middle back : List Char) :
    matchParts (front.map .literal ++ .star :: back.map .literal) (front ++ middle ++ back) =
      true := by
  induction front with
  | nil =>
    have ends : matchParts (back.map .literal) back = true := (matchParts_literal back back).mpr rfl
    exact someSuffix_append middle ends
  | cons first front inductionHypothesis =>
    simp only [List.map_cons, List.cons_append, matchParts, firstAnd, decide_true, Bool.true_and]
    exact inductionHypothesis

end Immutavault.GlobPatterns
