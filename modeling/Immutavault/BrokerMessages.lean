import Immutavault.SessionOwnership

/-!
# Messages between the portal and the broker of recovery sessions

The portal and the broker exchange JSON objects, one to a line. A line holds ASCII only:
every other character is escaped, a lone surrogate among them, so a text of any name
crosses as it is. A line is limited in length on both sides, and a reply that is too
long is an error of the side that writes it.

An error crosses as one of three classes with its text. A line that is read denotes the
value that it was written from, except that two halves of a character that stand side by
side are read as that character. What the limit depends on is the length of a line, which
is computed here.
-/

namespace Immutavault.BrokerMessages

open Programs Values GuestFiles SessionOwnership

/-- Bytes of a literal. -/
def ascii (text : String) : List UInt8 := text.toList.map fun character =>
  UInt8.ofNat character.toNat

theorem ascii_append (first second : String) :
    ascii (first ++ second) = ascii first ++ ascii second := by
  simp [ascii]

/-- The values that a message holds. -/
inductive Wire where
  | null
  | bool (value : Bool)
  | number (value : Nat)
  | text (value : Str)
  | list (items : List Wire)
  | dict (fields : List (Str × Wire))

namespace Wire

/-- An escape of sixteen bits. -/
def escape (code : Nat) : List UInt8 := ascii ("\\u" ++ hexDigits 4 code)

/-- One character of a text in ASCII. -/
def encodePoint (point : CodePoint) : List UInt8 :=
  let code := point.val
  if code = 34 then ascii "\\\""
  else if code = 92 then ascii "\\\\"
  else if code = 10 then ascii "\\n"
  else if code = 13 then ascii "\\r"
  else if code = 9 then ascii "\\t"
  else if code = 8 then ascii "\\b"
  else if code = 12 then ascii "\\f"
  else if code < 32 ∨ (127 ≤ code ∧ code < 65536) then escape code
  else if code < 127 then [UInt8.ofNat code]
  else escape (55296 + (code - 65536) / 1024) ++ escape (56320 + (code - 65536) % 1024)

def encodeText (text : Str) : List UInt8 := ascii "\"" ++ text.flatMap encodePoint ++ ascii "\""

mutual

/-- The compact text of a value, with sorted keys. -/
def encode : Wire → List UInt8
  | null => ascii "null"
  | bool value => ascii (if value then "true" else "false")
  | number value => ascii (toString value)
  | text value => encodeText value
  | list items => ascii "[" ++ (ascii ",").intercalate (encodeItems items) ++ ascii "]"
  | dict fields => ascii "\x7b" ++ (ascii ",").intercalate
      (((encodeFields fields).insertionSort fun first second => ¬ second.1 < first.1).map fun field =>
        encodeText field.1 ++ ascii ":" ++ field.2) ++ ascii "\x7d"

def encodeItems : List Wire → List (List UInt8)
  | [] => []
  | item :: rest => encode item :: encodeItems rest

def encodeFields : List (Str × Wire) → List (Str × List UInt8)
  | [] => []
  | (key, value) :: rest => (key, encode value) :: encodeFields rest

end

/-- A text as it is read from its escapes: two halves of a character are joined. -/
def joinSurrogates : Str → Str
  | [] => []
  | [point] => [point]
  | first :: second :: rest =>
    if 55296 ≤ first.val ∧ first.val < 56320 ∧ 56320 ≤ second.val ∧ second.val < 57344 then
      Fin.ofNat 1114112 (65536 + (first.val - 55296) * 1024 + (second.val - 56320)) ::
        joinSurrogates rest
    else first :: joinSurrogates (second :: rest)

mutual

/-- A value as it is read from its line. -/
def read : Wire → Wire
  | text value => text (joinSurrogates value)
  | list items => list (readItems items)
  | dict fields => dict (readFields fields)
  | null => null
  | bool value => bool value
  | number value => number value

def readItems : List Wire → List Wire
  | [] => []
  | item :: rest => read item :: readItems rest

def readFields : List (Str × Wire) → List (Str × Wire)
  | [] => []
  | (key, value) :: rest => (joinSurrogates key, read value) :: readFields rest

end

/-- The value under a key of a message. -/
def get? : Wire → Str → Option Wire
  | dict fields, key => (fields.find? fun field => field.1 = key).map Prod.snd
  | _, _ => none

/-- The text under a key, when it holds one that is not empty. -/
def textAt (message : Wire) (key : String) (default : Str) : Str :=
  match message.get? (str key) with
  | some (text value) => if value = [] then default else value
  | _ => default

end Wire

/-- The longest line, its newline included. -/
def maxMessageBytes : Nat := 1024 * 1024

/-- A message as a line. -/
def jsonLine (message : Wire) : Except Exn (List UInt8) :=
  let encoded := message.encode ++ ascii "\n"
  if maxMessageBytes < encoded.length then
    .error ⟨.valueError, "FLR broker message exceeds maximum size"⟩
  else .ok encoded

/-- The class under which an error crosses. -/
def errorType (error : Exn) : String :=
  if error.kind = .permissionError then "permission"
  else if error.kind = .valueError then "value"
  else "runtime"

def errorPayload (error : Exn) : Wire :=
  .dict [(str "ok", .bool false), (str "error_type", .text (str (errorType error))),
    (str "error", .text (str error.message))]

/-- The error that a reply makes the portal raise. -/
def raiseRemote (payload : Wire) : Exn :=
  let message := printed (payload.textAt "error" (str "FLR broker request failed"))
  let kind := payload.textAt "error_type" (str "runtime")
  if kind = str "permission" then ⟨.permissionError, message⟩
  else if kind = str "value" then ⟨.valueError, message⟩
  else ⟨.runtimeError, message⟩

/-- A reply that carries a result. -/
def okPayload (result : Wire) : Wire := .dict [(str "ok", .bool true), (str "result", result)]

section Reading

open Wire

/-- A text without halves of characters is read as it is. -/
theorem joinSurrogates_whole {text : Str} (whole : ∀ point ∈ text, point.val < 55296 ∨ 56320 ≤ point.val) :
    joinSurrogates text = text := by
  fun_induction joinSurrogates text with
  | case1 => rfl
  | case2 point => rfl
  | case3 first second rest pair inductionHypothesis =>
    have apart := whole first List.mem_cons_self
    omega
  | case4 first second rest other inductionHypothesis =>
    rw [inductionHypothesis fun point member => whole point (List.mem_cons_of_mem _ member)]

/-- A literal is read as it is. -/
@[simp] theorem joinSurrogates_str (text : String) : joinSurrogates (str text) = str text := by
  refine joinSurrogates_whole fun point member => ?_
  obtain ⟨character, _, rfl⟩ := List.mem_map.mp member
  have valid : character.toNat < 55296 ∨ 57343 < character.toNat ∧ character.toNat < 1114112 :=
    character.valid
  have same : (Fin.ofNat 1114112 character.toNat).val = character.toNat :=
    Nat.mod_eq_of_lt (by omega)
  omega

/-- Replies are read field by field. -/
@[simp] theorem errorPayload_read (error : Exn) :
    (errorPayload error).read = errorPayload error := by
  simp [errorPayload, Wire.read, readFields]

@[simp] theorem okPayload_read (result : Wire) :
    (okPayload result).read = okPayload result.read := by
  simp [okPayload, Wire.read, readFields]

/-- A literal is shown as it is. -/
theorem printed_str (text : String) : printed (str text) = text := by
  have same : (str text).map (fun point => Char.ofNat point.val) = text.toList := by
    rw [str, List.map_map]
    refine (List.map_congr_left fun character _ => ?_).trans (List.map_id _)
    have valid : character.toNat < 55296 ∨ 57343 < character.toNat ∧ character.toNat < 1114112 :=
      character.valid
    have bounded : (Fin.ofNat 1114112 character.toNat).val = character.toNat :=
      Nat.mod_eq_of_lt (by omega)
    simp only [Function.comp_def, bounded, Char.ofNat_toNat]
    rfl
  rw [printed, same, String.ofList_toList]

end Reading

section Crossing

/-- The class that an error has on the other side. -/
def crossedKind (error : Exn) : ErrorKind :=
  if error.kind = .permissionError then .permissionError
  else if error.kind = .valueError then .valueError
  else .runtimeError

/-- The error on the other side. Every error has a text there. -/
def crossed (error : Exn) : Exn where
  kind := crossedKind error
  message := if error.message = "" then "FLR broker request failed" else error.message

/-- An error crosses with its text and its class reduced to one of three. -/
theorem raiseRemote_crossed (error : Exn) : raiseRemote (errorPayload error) = crossed error := by
  have found : (errorPayload error).get? (str "error_type") =
      some (.text (str (errorType error))) := rfl
  have told : (errorPayload error).get? (str "error") = some (.text (str error.message)) := rfl
  have message : printed ((errorPayload error).textAt "error" (str "FLR broker request failed")) =
      (crossed error).message := by
    unfold Wire.textAt crossed
    simp only [told]
    by_cases empty : error.message = ""
    · rw [empty]
      exact printed_str _
    · have filled : str error.message ≠ [] := by
        intro none
        have shown := printed_str error.message
        rw [none] at shown
        exact empty shown.symm
      rw [if_neg filled, if_neg empty, printed_str]
  unfold raiseRemote
  rw [message]
  unfold Wire.textAt crossed crossedKind
  simp only [found]
  unfold errorType
  split
  · rfl
  · split <;> rfl

/-- A reply that carries a result is read as one. -/
theorem okPayload_result (result : Wire) :
    (okPayload result).get? (str "ok") = some (.bool true) ∧
      (okPayload result).get? (str "result") = some result := ⟨rfl, rfl⟩

end Crossing

section Lengths

open Wire

theorem length_ascii (text : String) : (ascii text).length = text.toList.length := by
  simp [ascii]

/-- An escape of sixteen bits takes six bytes. -/
theorem length_escape {code : Nat} (small : code < 65536) : (escape code).length = 6 := by
  have digits : (Nat.toDigits 16 code).length ≤ 4 :=
    (Nat.length_toDigits_le_iff (by decide) (by decide)).mpr small
  simp only [escape, length_ascii, hexDigits, String.toList_append, String.toList_ofList,
    List.length_append, List.length_replicate]
  have start : "\\u".toList.length = 2 := by decide
  omega

/-- A character takes up to twelve bytes. -/
theorem length_encodePoint (point : CodePoint) :
    0 < (encodePoint point).length ∧ (encodePoint point).length ≤ 12 := by
  have bounded : point.val < 1114112 := point.isLt
  unfold encodePoint
  dsimp only
  split_ifs with quote backslash newline return_ tab backspace feed escaped printable
  · decide
  · decide
  · decide
  · decide
  · decide
  · decide
  · decide
  · rw [length_escape (by omega)]
    decide
  · simp
  · rw [List.length_append, length_escape (by omega), length_escape (by omega)]
    decide

/-- A text takes up to twelve bytes for each character, and at least one. -/
theorem length_encodeText (text : Str) :
    text.length + 2 ≤ (encodeText text).length ∧ (encodeText text).length ≤ 12 * text.length + 2 := by
  have quote : (ascii "\"").length = 1 := by decide
  rw [encodeText, List.length_append, List.length_append, quote]
  induction text with
  | nil => decide
  | cons point rest inductionHypothesis =>
    obtain ⟨least, most⟩ := length_encodePoint point
    rw [List.flatMap_cons, List.length_append, List.length_cons]
    omega

/-- Separated texts take their own lengths and one separator between each two. -/
theorem length_intercalate (separator : List UInt8) (texts : List (List UInt8)) :
    (separator.intercalate texts).length =
      (texts.map List.length).sum + (texts.length - 1) * separator.length := by
  induction texts with
  | nil => simp
  | cons text rest inductionHypothesis =>
    cases rest with
    | nil => simp
    | cons second further =>
      rw [List.intercalate_cons_cons, List.length_append, List.length_append, inductionHypothesis]
      simp only [List.map_cons, List.sum_cons, List.length_cons, Nat.add_sub_cancel, Nat.succ_mul]
      omega

theorem encodeItems_eq (items : List Wire) : encodeItems items = items.map encode := by
  induction items with
  | nil => rfl
  | cons item rest inductionHypothesis => rw [encodeItems, inductionHypothesis, List.map_cons]

theorem encodeFields_eq (fields : List (Str × Wire)) :
    encodeFields fields = fields.map fun field => (field.1, encode field.2) := by
  induction fields with
  | nil => rfl
  | cons field rest inductionHypothesis => rw [encodeFields, inductionHypothesis, List.map_cons]

/-- The length of a list. -/
theorem length_encode_list (items : List Wire) : (encode (.list items)).length =
    2 + ((items.map fun item => (encode item).length).sum + (items.length - 1)) := by
  have opening : (ascii "[").length = 1 := by decide
  have closing : (ascii "]").length = 1 := by decide
  have comma : (ascii ",").length = 1 := by decide
  have inner : (items.map encode).map List.length = items.map fun item => (encode item).length :=
    List.map_map
  rw [encode, List.length_append, List.length_append, opening, closing, length_intercalate, comma,
    encodeItems_eq, inner, List.length_map]
  omega

/-- The length of an object does not depend on the order of its keys. -/
theorem length_encode_dict (fields : List (Str × Wire)) : (encode (.dict fields)).length =
    2 + ((fields.map fun field => (encodeText field.1).length + 1 + (encode field.2).length).sum +
      (fields.length - 1)) := by
  have opening : (ascii "\x7b").length = 1 := by decide
  have closing : (ascii "\x7d").length = 1 := by decide
  have comma : (ascii ",").length = 1 := by decide
  have colon : (ascii ":").length = 1 := by decide
  have sorted := List.perm_insertionSort (fun first second : Str × List UInt8 =>
    ¬ second.1 < first.1) (encodeFields fields)
  rw [encode, List.length_append, List.length_append, opening, closing, length_intercalate, comma]
  have total : ((((encodeFields fields).insertionSort fun first second => ¬ second.1 < first.1).map
      fun field => encodeText field.1 ++ ascii ":" ++ field.2).map List.length).sum =
        (fields.map fun field => (encodeText field.1).length + 1 + (encode field.2).length).sum := by
    rw [((sorted.map _).map _).sum_nat, encodeFields_eq, List.map_map, List.map_map]
    simp only [Function.comp_def, List.length_append, colon]
  rw [total, List.length_map, List.length_insertionSort, encodeFields_eq, List.length_map]
  omega

/-- A message is written when it is short enough for its newline. -/
theorem jsonLine_isOk (message : Wire) :
    (jsonLine message).isOk ↔ message.encode.length < maxMessageBytes := by
  have newline : (ascii "\n").length = 1 := by decide
  unfold jsonLine
  simp only [List.length_append, newline]
  split
  · simp [Except.isOk, Except.toBool]; omega
  · simp [Except.isOk, Except.toBool]; omega

/-- A line is one byte longer than its message. -/
theorem length_jsonLine {message : Wire} {line : List UInt8} (written : jsonLine message = .ok line) :
    line.length = message.encode.length + 1 := by
  unfold jsonLine at written
  dsimp only at written
  split at written
  · cases written
  · obtain rfl := Except.ok.inj written
    rw [List.length_append]
    rfl

/-- Only the length of a message keeps it from being written. -/
theorem jsonLine_error {message : Wire} {error : Exn} (long : jsonLine message = .error error) :
    error = ⟨.valueError, "FLR broker message exceeds maximum size"⟩ := by
  unfold jsonLine at long
  dsimp only at long
  split at long
  · exact (Except.error.inj long).symm
  · cases long

end Lengths

end Immutavault.BrokerMessages
