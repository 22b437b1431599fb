import Immutavault.JsonTexts

/-!
# What the program does with a value of any kind

A value that is read from a file or printed by a helper may be of any kind, and the
program looks into it without asking. Looking up a key, going through a value and
converting it to an integer are defined for some kinds and raise for the others. Every
value is true or false and has a text.

An integer is written and converted only up to a number of digits. What is read from a
JSON text keeps that limit by itself, so it can always be written again; an integer that
is computed need not.
-/

namespace Immutavault.JsonTexts

open Values GuestFiles
open SessionOwnership (printed)

variable {Φ : Type}

/-- What integers with too many digits raise. -/
def tooManyDigits : Exn :=
  ⟨.valueError, "Exceeds the limit (4300 digits) for integer string conversion"⟩

namespace Value

mutual

/-- No integer in a value is too long to be written. -/
def fits : Value Φ → Bool
  | .int value => (Nat.toDigits 10 value.natAbs).length ≤ maxStrDigits
  | .list items => fitsItems items
  | .dict fields => fitsFields fields
  | _ => true

def fitsItems : List (Value Φ) → Bool
  | [] => true
  | item :: rest => fits item && fitsItems rest

def fitsFields : List (Str × Value Φ) → Bool
  | [] => true
  | (_, value) :: rest => fits value && fitsFields rest

end

/-- One character of a quoted text; a lone surrogate is escaped. -/
def reprPoint (quote : Char) (point : CodePoint) : String :=
  if 55296 ≤ point.val ∧ point.val < 57344 then "\\u" ++ hexDigits 4 point.val
  else Json.reprChar quote (Char.ofNat point.val)

/-- A quoted text: single quotes, unless only double quotes avoid an escape. -/
def reprText (text : Str) : String :=
  let quote := if text.contains (pointOf 39) ∧ ¬ text.contains (pointOf 34) then '"' else '\''
  String.singleton quote ++ String.join (text.map (reprPoint quote)) ++ String.singleton quote

/-- The class of a value, as an error names it. -/
def className : Value Φ → String
  | .null => "NoneType"
  | .bool _ => "bool"
  | .int _ => "int"
  | .float _ => "float"
  | .text _ => "str"
  | .list _ => "list"
  | .dict _ => "dict"

/-- What a loop over a value goes through. -/
def iterated : Value Φ → Except Exn (List (Value Φ))
  | .list items => .ok items
  | .dict fields => .ok (fields.map fun field => .text field.1)
  | .text content => .ok (content.map fun point => .text [point])
  | other => .error ⟨.otherError, s!"'{className other}' object is not iterable"⟩

/-- The value under a key, or a default: only a dictionary is asked so. -/
def field (value : Value Φ) (key : Str) (default : Value Φ) : Except Exn (Value Φ) :=
  match value with
  | .dict fields => .ok ((Value.get? fields key).getD default)
  | other => .error ⟨.otherError, s!"'{className other}' object has no attribute 'get'"⟩

/-- The value under a key that has to be there. -/
def subscript (value : Value Φ) (key : Str) : Except Exn (Value Φ) :=
  match value with
  | .dict fields =>
    match Value.get? fields key with
    | some found => .ok found
    | none => .error ⟨.keyError, reprText key⟩
  | .list _ => .error ⟨.otherError, "list indices must be integers or slices, not str"⟩
  | .text _ => .error ⟨.otherError, "string indices must be integers, not 'str'"⟩
  | other => .error ⟨.otherError, s!"'{className other}' object is not subscriptable"⟩

/-- A value is this text. -/
def isText (text : Str) : Value Φ → Bool
  | .text value => value = text
  | _ => false

/-- The integer that a text writes, unless it has too many digits. -/
def parseText (text : Str) : Except Exn Int :=
  match parseInt (printed text) with
  | some value =>
    if maxStrDigits < (text.filter fun point =>
        (decimalValue (Char.ofNat point.val)).isSome).length then .error tooManyDigits
    else .ok value
  | none => .error ⟨.valueError, s!"invalid literal for int() with base 10: {reprText text}"⟩

variable [Floating Φ]

mutual

/-- The text of a value inside a container. -/
def repr : Value Φ → String
  | .null => "None"
  | .bool value => if value then "True" else "False"
  | .int value => toString value
  | .float value => Floating.repr value
  | .text value => reprText value
  | .list items => "[" ++ ", ".intercalate (reprItems items) ++ "]"
  | .dict fields => "\x7b" ++ ", ".intercalate (reprFields fields) ++ "\x7d"

def reprItems : List (Value Φ) → List String
  | [] => []
  | item :: rest => repr item :: reprItems rest

def reprFields : List (Str × Value Φ) → List String
  | [] => []
  | (key, value) :: rest => (reprText key ++ ": " ++ repr value) :: reprFields rest

end

/-- The text of a value on its own: a text stands for itself. -/
def toText : Value Φ → Str
  | .text value => value
  | value => str (repr value)

/-- Truth of a value: empty and zero values are false. -/
def truthy : Value Φ → Bool
  | .null => false
  | .bool value => value
  | .int value => value ≠ 0
  | .float value => !Floating.isZero value
  | .text value => !value.isEmpty
  | .list items => !items.isEmpty
  | .dict fields => !fields.isEmpty

/-- The integer that a value converts to. -/
def toInt : Value Φ → Except Exn Int
  | .int value => .ok value
  | .bool value => .ok (if value then 1 else 0)
  | .float value => Floating.toInt value
  | .text content => parseText content
  | other => .error ⟨.otherError, "int() argument must be a string, a bytes-like object or a " ++
      s!"real number, not '{className other}'"⟩

/-- A value, or another one in place of a false value. -/
def orElse (value other : Value Φ) : Value Φ := if value.truthy then value else other

/-- The text of a value in a layout, if its integers can be written. -/
def written (layout : Layout) (value : Value Φ) : Except Exn (List Char) :=
  if value.fits then .ok (dumps layout value) else .error tooManyDigits

/-- The text with sorted keys, if the integers can be written. -/
def writtenSorted (layout : Layout) (value : Value Φ) : Except Exn (List Char) :=
  if value.fits then .ok (dumpsSorted layout value) else .error tooManyDigits

end Value

/-- What reading a text raises. -/
def LoadError.exn : LoadError → Exn
  | .malformed => ⟨.valueError, "JSONDecodeError"⟩
  | .tooLong => tooManyDigits

end Immutavault.JsonTexts
