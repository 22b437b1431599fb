import Mathlib.Data.List.Basic

/-!
# Header fields of an HTTP message

The head of a message is a sequence of lines, one for each field, that an empty line
ends; what follows is the body. A field's name is a token, and its value holds no
control character but the tab, so that a line determines its field and the bytes of a
message determine its fields and its body. Bytes that no field can begin with are found
by reading the lines before them.
-/

namespace Immutavault.HttpFields

/-- Bytes of a field's name. -/
def isTokenByte (byte : UInt8) : Bool :=
  48 ≤ byte && byte ≤ 57 || 65 ≤ byte && byte ≤ 90 || 97 ≤ byte && byte ≤ 122 ||
    byte ∈ [33, 35, 36, 37, 38, 39, 42, 43, 45, 46, 94, 95, 96, 124, 126]

/-- Bytes of a field's value. -/
def isValueByte (byte : UInt8) : Bool := byte = 9 || 32 ≤ byte && byte ≠ 127

/-- A name, and all that stands between the colon and the end of the line. -/
structure Field where
  keyword : List UInt8
  value : List UInt8

namespace Field

variable (field : Field)

def line : List UInt8 := field.keyword ++ 58 :: (field.value ++ [13, 10])

/-- What a line is read as one field for: a name without a colon that begins with no
line end, and a value without one. -/
structure Legible : Prop where
  named : field.keyword ≠ []
  token : ∀ byte ∈ field.keyword, isTokenByte byte = true
  single : 13 ∉ field.value

/-- A field that may be sent. -/
structure Valid : Prop extends Legible field where
  value : ∀ byte ∈ field.value, isValueByte byte = true

end Field

/-- Bytes that are the lines of some fields, an empty line and a body. -/
inductive Message : List UInt8 → List Field → List UInt8 → Prop where
  | ended (body : List UInt8) : Message (13 :: 10 :: body) [] body
  | field (field : Field) (valid : field.Valid) (bytes : List UInt8) (fields : List Field)
      (body : List UInt8) (rest : Message bytes fields body) :
      Message (field.line ++ bytes) (field :: fields) body

/-- The colon and the line end are not bytes of a name. -/
theorem not_token : isTokenByte 58 = false ∧ isTokenByte 13 = false := by decide

/-- Two texts up to the first place of a byte are the same, and so is what follows it. -/
theorem before_injective {byte : UInt8} {first second rest more : List UInt8} (absent : byte ∉ first)
    (missing : byte ∉ second) (same : first ++ byte :: rest = second ++ byte :: more) :
    first = second ∧ rest = more := by
  induction first generalizing second with
  | nil =>
    cases second with
    | nil => exact ⟨rfl, (List.cons.inj same).2⟩
    | cons head tail =>
      exact absurd ((List.cons.inj same).1 ▸ List.mem_cons_self) missing
  | cons head tail inductionHypothesis =>
    cases second with
    | nil => exact absurd ((List.cons.inj same).1 ▸ List.mem_cons_self) absent
    | cons other others =>
      obtain ⟨rfl, onward⟩ := List.cons.inj same
      obtain ⟨rfl, follows⟩ := inductionHypothesis (fun member => absent (List.mem_cons_of_mem _ member))
        (fun member => missing (List.mem_cons_of_mem _ member)) onward
      exact ⟨rfl, follows⟩

/-- A line that can be read determines its field and what follows it. -/
theorem line_injective {first second : Field} (legible : first.Legible) (other : second.Legible)
    {rest more : List UInt8} (same : first.line ++ rest = second.line ++ more) :
    first = second ∧ rest = more := by
  have colonless : ∀ field : Field, field.Legible → 58 ∉ field.keyword := by
    intro field readable member
    have token := readable.token 58 member
    rw [not_token.1] at token
    cases token
  simp only [Field.line, List.append_assoc, List.cons_append, List.nil_append] at same
  obtain ⟨names, after⟩ :=
    before_injective (colonless first legible) (colonless second other) same
  obtain ⟨values, onward⟩ := before_injective legible.single other.single after
  cases first
  cases second
  dsimp only at names values
  exact ⟨by rw [names, values], (List.cons.inj onward).2⟩

/-- No line begins with a line end. -/
theorem line_ne_ended {field : Field} (legible : field.Legible) (bytes body : List UInt8) :
    field.line ++ bytes ≠ 13 :: 10 :: body := by
  intro same
  obtain ⟨first, rest, keyword⟩ := List.exists_cons_of_ne_nil legible.named
  have token := legible.token first (by rw [keyword]; exact List.mem_cons_self)
  rw [Field.line, keyword] at same
  rw [(List.cons.inj same).1, not_token.2] at token
  cases token

/-- Values of valid fields hold no line end. -/
theorem valid_of_values {field : Field} (named : field.keyword ≠ [])
    (token : ∀ byte ∈ field.keyword, isTokenByte byte = true)
    (value : ∀ byte ∈ field.value, isValueByte byte = true) : field.Valid := by
  refine ⟨⟨named, token, fun member => ?_⟩, value⟩
  have allowed : isValueByte 13 = true := value 13 member
  revert allowed
  decide

/-- The first line of a message is its first field. -/
theorem Message.head {field : Field} (legible : field.Legible) {bytes body : List UInt8}
    {fields : List Field} (message : Message (field.line ++ bytes) fields body) :
    field.Valid ∧ ∃ rest, fields = field :: rest ∧ Message bytes rest body := by
  generalize whole : field.line ++ bytes = read at message
  cases message with
  | ended => exact absurd whole (line_ne_ended legible bytes body)
  | field first valid others rest _ further =>
    obtain ⟨rfl, rfl⟩ := line_injective legible valid.toLegible whole
    exact ⟨valid, rest, rfl, further⟩

/-- Lines of valid fields are the first fields of a message. -/
theorem Message.lines {known : List Field} (valid : ∀ field ∈ known, field.Valid)
    {bytes body : List UInt8} {fields : List Field}
    (message : Message (known.flatMap Field.line ++ bytes) fields body) :
    ∃ rest, fields = known ++ rest ∧ Message bytes rest body := by
  induction known generalizing fields with
  | nil => exact ⟨fields, rfl, message⟩
  | cons field others inductionHypothesis =>
    rw [List.flatMap_cons, List.append_assoc] at message
    obtain ⟨_, rest, rfl, further⟩ := message.head (valid field List.mem_cons_self).toLegible
    obtain ⟨final, rfl, ends⟩ := inductionHypothesis
      (fun other member => valid other (List.mem_cons_of_mem _ member)) further
    exact ⟨final, rfl, ends⟩

/-- Lines of valid fields, an empty line and a body are a message. -/
theorem message_lines {fields : List Field} (valid : ∀ field ∈ fields, field.Valid)
    (body : List UInt8) : Message (fields.flatMap Field.line ++ 13 :: 10 :: body) fields body := by
  induction fields with
  | nil => exact .ended body
  | cons field others inductionHypothesis =>
    rw [List.flatMap_cons, List.append_assoc]
    exact .field field (valid field List.mem_cons_self) _ others body
      (inductionHypothesis fun other member => valid other (List.mem_cons_of_mem _ member))

/-- What begins with a part of a name and goes on with neither a name nor a colon is no
message. -/
theorem not_message {name : List UInt8} (named : name ≠ [])
    (token : ∀ byte ∈ name, isTokenByte byte = true) {byte : UInt8} (foreign : isTokenByte byte = false)
    (uncolon : byte ≠ 58) (more : List UInt8) (fields : List Field) (body : List UInt8) :
    ¬ Message (name ++ byte :: more) fields body := by
  intro message
  generalize whole : name ++ byte :: more = read at message
  cases message with
  | ended =>
    obtain ⟨first, rest, rfl⟩ := List.exists_cons_of_ne_nil named
    have begins := token first List.mem_cons_self
    rw [(List.cons.inj whole).1, not_token.2] at begins
    cases begins
  | field field valid bytes rest _ further =>
    simp only [Field.line, List.append_assoc, List.cons_append] at whole
    rcases List.append_eq_append_iff.mp whole with ⟨middle, keyword, after⟩ | ⟨middle, rfl, after⟩
    · cases middle with
      | nil => exact uncolon (List.cons.inj after).1
      | cons first others =>
        have inside := valid.token first (by rw [keyword]; simp)
        rw [← (List.cons.inj after).1, foreign] at inside
        cases inside
    · cases middle with
      | nil => exact uncolon (List.cons.inj after).1.symm
      | cons first others =>
        have inside := token first (by simp)
        rw [← (List.cons.inj after).1, not_token.1] at inside
        cases inside

end Immutavault.HttpFields
