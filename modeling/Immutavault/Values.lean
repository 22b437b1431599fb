import Mathlib.Data.List.Sort
import Immutavault.Programs

/-!
# Values the program computes with

The program keeps its records in dictionaries, writes them as JSON texts and
reports failures as typed exceptions with a message. This module fixes those
three notions: exceptions with the part of the class hierarchy that handlers
distinguish, JSON values with truth, text and lookup, and the two texts of a
JSON value that are stored and hashed.

A JSON text that is stored and read again denotes the value it was written
from, so columns that are only read back hold the value itself. The hashed text
is computed, because its digest is what an auditor compares.
-/

namespace Immutavault.Values

open Programs

/-- The exception classes that the modelled code raises or tells apart. -/
inductive ErrorKind where
  | valueError
  | runtimeError
  | keyError
  | assertionError
  | overflowError
  | osError
  | fileNotFoundError
  | permissionError
  | timeoutExpired
  | otherError
  deriving DecidableEq, Repr

/-- A raised exception: its class and its text. -/
structure Exn where
  kind : ErrorKind
  message : String
  deriving DecidableEq, Repr

/-- Subclasses of OSError. -/
def ErrorKind.isOSError : ErrorKind → Bool
  | .osError | .fileNotFoundError | .permissionError => true
  | _ => false

section Fallible

variable {ε α β : Type}

theorem ok_bind (value : α) (next : α → Except ε β) : (.ok value >>= next) = next value := rfl

theorem error_bind (error : ε) (next : α → Except ε β) : (.error error >>= next) = .error error := rfl

/-- A pure sequence succeeds when its first part and then its second part do. -/
theorem bind_eq_ok {given : Except ε α} {next : α → Except ε β} {result : β} :
    (given >>= next) = .ok result ↔ ∃ value, given = .ok value ∧ next value = .ok result := by
  cases given with
  | ok value =>
    constructor
    · exact fun rest => ⟨value, rfl, rest⟩
    · rintro ⟨_, same, rest⟩
      cases same
      exact rest
  | error error =>
    constructor
    · intro impossible
      cases impossible
    · rintro ⟨_, impossible, _⟩
      cases impossible

/-- A pure computation succeeds on a list when it does on every member. -/
theorem mapM_succeeds {compute : α → Except ε β} {entries : List α} :
    (∃ results, entries.mapM compute = .ok results) ↔
      ∀ entry ∈ entries, ∃ result, compute entry = .ok result := by
  induction entries with
  | nil => exact ⟨fun _ _ member => absurd member List.not_mem_nil, fun _ => ⟨[], rfl⟩⟩
  | cons entry rest inductionHypothesis =>
    rw [List.mapM_cons, List.forall_mem_cons, ← inductionHypothesis]
    constructor
    · rintro ⟨results, ran⟩
      obtain ⟨result, own, others⟩ := bind_eq_ok.mp ran
      obtain ⟨later, further, _⟩ := bind_eq_ok.mp others
      exact ⟨⟨result, own⟩, later, further⟩
    · rintro ⟨⟨result, own⟩, later, further⟩
      exact ⟨result :: later, bind_eq_ok.mpr ⟨result, own, bind_eq_ok.mpr ⟨later, further, rfl⟩⟩⟩

theorem mapM_cons_ok {compute : α → Except ε β} {entry : α} {rest : List α}
    {results : List β} : (entry :: rest).mapM compute = .ok results ↔
      ∃ result others, compute entry = .ok result ∧ rest.mapM compute = .ok others ∧
        results = result :: others := by
  rw [List.mapM_cons]
  constructor
  · intro ran
    obtain ⟨result, own, ran⟩ := bind_eq_ok.mp ran
    obtain ⟨others, further, done⟩ := bind_eq_ok.mp ran
    exact ⟨result, others, own, further, (Except.ok.inj done).symm⟩
  · rintro ⟨result, others, own, further, rfl⟩
    exact bind_eq_ok.mpr ⟨result, own, bind_eq_ok.mpr ⟨others, further, rfl⟩⟩

/-- Every result of a computation on a list comes from a member. -/
theorem mapM_mem {compute : α → Except ε β} {entries : List α} {results : List β} {result : β}
    (ran : entries.mapM compute = .ok results) (member : result ∈ results) :
    ∃ entry ∈ entries, compute entry = .ok result := by
  induction entries generalizing results with
  | nil =>
    obtain rfl := Except.ok.inj ran
    cases member
  | cons entry rest inductionHypothesis =>
    obtain ⟨first, later, own, further, rfl⟩ := mapM_cons_ok.mp ran
    rcases List.mem_cons.mp member with rfl | behind
    · exact ⟨entry, List.mem_cons_self, own⟩
    · obtain ⟨other, inside, computed⟩ := inductionHypothesis further behind
      exact ⟨other, List.mem_cons_of_mem _ inside, computed⟩

end Fallible

section Raising

variable {I : Interface} {α : Type}

def raiseValueError (message : String) : Program I Exn α := throw ⟨.valueError, message⟩

def raiseRuntimeError (message : String) : Program I Exn α := throw ⟨.runtimeError, message⟩

def raisePermissionError (message : String) : Program I Exn α := throw ⟨.permissionError, message⟩

/-- Raise the exception of a failed pure computation. -/
def raised : Except Exn α → Program I Exn α
  | .ok value => pure value
  | .error error => throw error

@[simp] theorem raised_ok (value : α) : (raised (.ok value) : Program I Exn α) = pure value := rfl

@[simp] theorem raised_error (error : Exn) :
    (raised (.error error) : Program I Exn α) = throw error := rfl

/-- A pure sequence raises where its first part does, or else where its second part does. -/
theorem raised_bind {β : Type} (given : Except Exn α) (next : α → Except Exn β) :
    (raised (given >>= next) : Program I Exn β) =
      raised given >>= fun value => raised (next value) := by
  cases given <;> rfl

theorem issues_raised {property : I.Command → Prop} (value : Except Exn α) :
    Issues property (raised value : Program I Exn α) := by
  cases value <;> simp

/-- A pure computation touches no phase. -/
theorem wp_raised {φ : Type} {monitor : Monitor I Exn φ} {value : Except Exn α}
    {post : Except Exn α → φ → Prop} {phase : φ} (holds : post value phase) :
    wp monitor (raised value) post phase := by
  cases value <;> exact holds

end Raising

/-- Characters that stripping removes from the ends of a text. -/
def isWhitespace (character : Char) : Bool :=
  let code := character.toNat
  9 ≤ code ∧ code ≤ 13 ∨ 28 ≤ code ∧ code ≤ 32 ∨ code = 133 ∨ code = 160 ∨ code = 5760 ∨
    8192 ≤ code ∧ code ≤ 8202 ∨ code = 8232 ∨ code = 8233 ∨ code = 8239 ∨ code = 8287 ∨ code = 12288

/-- A text without white space at its ends. -/
def trimmed (text : String) : String :=
  String.ofList (((text.toList.dropWhile isWhitespace).reverse.dropWhile isWhitespace).reverse)

/-- A text in lower case, as far as that can be ASCII: the Kelvin sign is the one other
character with an ASCII lower case. -/
def lowered (text : String) : String :=
  String.ofList (text.toList.map fun character =>
    if character.toNat = 0x212a then 'k' else character.toLower)

/-- Characters that end a line. -/
def isLineBreak (character : Char) : Bool :=
  let code := character.toNat
  10 ≤ code ∧ code ≤ 13 ∨ 28 ≤ code ∧ code ≤ 30 ∨ code = 0x85 ∨ code = 0x2028 ∨ code = 0x2029

/-- The lines of a text behind the characters of the current one, which stand in reverse. -/
def linesAfter (current : List Char) : List Char → List String
  | [] => if current = [] then [] else [String.ofList current.reverse]
  | '\r' :: '\n' :: rest => String.ofList current.reverse :: linesAfter [] rest
  | character :: rest =>
    if isLineBreak character then String.ofList current.reverse :: linesAfter [] rest
    else linesAfter (character :: current) rest

def splitlines (text : String) : List String := linesAfter [] text.toList

/-- The zeros of the decimal digits in all scripts; nine more digits follow each. -/
def decimalZeros : List Nat :=
  [0x30, 0x660, 0x6f0, 0x7c0, 0x966, 0x9e6, 0xa66, 0xae6, 0xb66, 0xbe6, 0xc66, 0xce6, 0xd66, 0xde6,
    0xe50, 0xed0, 0xf20, 0x1040, 0x1090, 0x17e0, 0x1810, 0x1946, 0x19d0, 0x1a80, 0x1a90, 0x1b50,
    0x1bb0, 0x1c40, 0x1c50, 0xa620, 0xa8d0, 0xa900, 0xa9d0, 0xa9f0, 0xaa50, 0xabf0, 0xff10, 0x104a0,
    0x10d30, 0x11066, 0x110f0, 0x11136, 0x111d0, 0x112f0, 0x11450, 0x114d0, 0x11650, 0x116c0,
    0x11730, 0x118e0, 0x11950, 0x11c50, 0x11d50, 0x11da0, 0x11f50, 0x16a60, 0x16ac0, 0x16b50,
    0x1d7ce, 0x1d7d8, 0x1d7e2, 0x1d7ec, 0x1d7f6, 0x1e140, 0x1e2f0, 0x1e4f0, 0x1e950, 0x1fbf0]

/-- The value of a decimal digit. -/
def decimalValue (character : Char) : Option Nat :=
  (decimalZeros.find? fun first => first ≤ character.toNat ∧ character.toNat ≤ first + 9).map
    (character.toNat - ·)

/-- The number that digits continue; single underscores may stand between digits. -/
def digitsValue (behindDigit : Bool) (value : Nat) : List Char → Option Nat
  | [] => if behindDigit then some value else none
  | '_' :: rest => if behindDigit then digitsValue false value rest else none
  | character :: rest => (decimalValue character).bind fun digit =>
    digitsValue true (10 * value + digit) rest

/-- The integer that a text writes. -/
def parseInt (text : String) : Option Int :=
  match (trimmed text).toList with
  | '-' :: rest => (digitsValue false 0 rest).map fun value => -(value : Int)
  | '+' :: rest => (digitsValue false 0 rest).map Int.ofNat
  | digits => (digitsValue false 0 digits).map Int.ofNat

/-- JSON values; numbers are integers. -/
inductive Json where
  | null
  | bool (value : Bool)
  | int (value : Int)
  | str (value : String)
  | arr (items : List Json)
  | obj (fields : List (String × Json))
  deriving Repr

/-- A dictionary in insertion order. -/
abbrev Dict := List (String × Json)

namespace Dict

/-- The value under a key. -/
def get? : Dict → String → Option Json
  | [], _ => none
  | (name, value) :: rest, key => if name = key then some value else get? rest key

/-- Assign a key: in its place when present, otherwise at the end. -/
def set : Dict → String → Json → Dict
  | [], key, value => [(key, value)]
  | (name, old) :: rest, key, value =>
    if name = key then (name, value) :: rest else (name, old) :: set rest key value

@[simp] theorem get?_set_self (dict : Dict) (key : String) (value : Json) :
    get? (set dict key value) key = some value := by
  induction dict with
  | nil => simp [set, get?]
  | cons entry rest inductionHypothesis =>
    by_cases here : entry.1 = key
    · simp [set, get?, here]
    · simp [set, get?, here, inductionHypothesis]

theorem get?_set_ne (dict : Dict) {key other : String} (value : Json) (different : other ≠ key) :
    get? (set dict key value) other = get? dict other := by
  induction dict with
  | nil => simp [set, get?, different.symm]
  | cons entry rest inductionHypothesis =>
    by_cases here : entry.1 = key
    · have passed : ¬ entry.1 = other := fun same => different (same.symm.trans here)
      have unequal : ¬ key = other := fun same => different same.symm
      simp [set, get?, here, unequal]
    · by_cases found : entry.1 = other
      · simp [set, get?, found, different]
      · simp [set, get?, here, found, inductionHypothesis]

end Dict

/-- Digits of a number in lower-case hexadecimal, at least the given count. -/
def hexDigits (width value : Nat) : String :=
  String.ofList (List.replicate (width - (Nat.toDigits 16 value).length) '0' ++
    Nat.toDigits 16 value)

namespace Json

/-- Truth of a value: empty and zero values are false. -/
def truthy : Json → Bool
  | .null => false
  | .bool value => value
  | .int value => value ≠ 0
  | .str value => value ≠ ""
  | .arr items => items ≠ []
  | .obj fields => fields ≠ []

/-- One character of a quoted text; printable characters stand for themselves. -/
def reprChar (quote : Char) (character : Char) : String :=
  if character = quote then "\\" ++ String.singleton character
  else if character = '\\' then "\\\\"
  else if character = '\n' then "\\n"
  else if character = '\r' then "\\r"
  else if character = '\t' then "\\t"
  else if character.toNat < 32 ∨ character.toNat = 127 then "\\x" ++ hexDigits 2 character.toNat
  else String.singleton character

/-- A quoted text: single quotes, unless only double quotes avoid an escape. -/
def reprText (text : String) : String :=
  let quote := if text.toList.contains '\'' ∧ ¬ text.toList.contains '"' then '"' else '\''
  String.singleton quote ++ String.join (text.toList.map (reprChar quote)) ++ String.singleton quote

mutual

/-- The text of a value inside a container. -/
def repr : Json → String
  | .null => "None"
  | .bool value => if value then "True" else "False"
  | .int value => toString value
  | .str value => reprText value
  | .arr items => "[" ++ ", ".intercalate (reprItems items) ++ "]"
  | .obj fields => "\x7b" ++ ", ".intercalate (reprFields fields) ++ "\x7d"

def reprItems : List Json → List String
  | [] => []
  | item :: rest => repr item :: reprItems rest

def reprFields : List (String × Json) → List String
  | [] => []
  | (key, value) :: rest => (reprText key ++ ": " ++ repr value) :: reprFields rest

end

/-- The text of a value on its own: a text stands for itself. -/
def toText : Json → String
  | .str value => value
  | value => repr value

/-- The integer that a value converts to. -/
def toInt : Json → Except Exn Int
  | .int value => .ok value
  | .bool value => .ok (if value then 1 else 0)
  | .str text =>
    match parseInt text with
    | some value => .ok value
    | none =>
      .error ⟨.valueError, s!"invalid literal for int() with base 10: {reprText text}"⟩
  | value =>
    let type := match value with
      | .arr _ => "list"
      | .obj _ => "dict"
      | _ => "NoneType"
    .error ⟨.otherError, "int() argument must be a string, a bytes-like object or a real number, " ++
      s!"not '{type}'"⟩

/-- One character of a JSON text restricted to ASCII. -/
def dumpsChar (character : Char) : String :=
  let code := character.toNat
  if character = '"' then "\\\""
  else if character = '\\' then "\\\\"
  else if character = '\n' then "\\n"
  else if character = '\r' then "\\r"
  else if character = '\t' then "\\t"
  else if code = 8 then "\\b"
  else if code = 12 then "\\f"
  else if code < 32 ∨ (127 ≤ code ∧ code < 65536) then "\\u" ++ hexDigits 4 code
  else if code < 127 then String.singleton character
  else "\\u" ++ hexDigits 4 (55296 + (code - 65536) / 1024) ++
    "\\u" ++ hexDigits 4 (56320 + (code - 65536) % 1024)

def dumpsText (text : String) : String :=
  "\"" ++ String.join (text.toList.map dumpsChar) ++ "\""

mutual

/-- The JSON text with sorted keys and the given separators. -/
def dumpsWith (item colon : String) : Json → String
  | .null => "null"
  | .bool value => if value then "true" else "false"
  | .int value => toString value
  | .str value => dumpsText value
  | .arr items => "[" ++ item.intercalate (dumpsItems item colon items) ++ "]"
  | .obj fields =>
    "\x7b" ++ item.intercalate
      (((dumpsFields item colon fields).insertionSort (·.1 ≤ ·.1)).map fun field =>
        dumpsText field.1 ++ colon ++ field.2) ++ "\x7d"

def dumpsItems (item colon : String) : List Json → List String
  | [] => []
  | value :: rest => dumpsWith item colon value :: dumpsItems item colon rest

def dumpsFields (item colon : String) : List (String × Json) → List (String × String)
  | [] => []
  | (key, value) :: rest =>
    (key, dumpsWith item colon value) :: dumpsFields item colon rest

end

/-- The compact JSON text with sorted keys. -/
def dumpsCompact (value : Json) : String := dumpsWith "," ":" value

end Json

end Immutavault.Values
