import Immutavault.BigEndian

/-!
# Frames of the telemetry stream

A message of the operations stream is one frame: two bytes, the length in one of three forms,
and the payload. A decoder reads the length from the front, so that it leaves exactly what
stands behind the frame. Frames one after the other are therefore read one after the other.

The decoder is the one of the protocol: it knows reserved bits, opcodes and masks, of which
the frames here use none or the simplest. It reports the form of the length that it has read.
-/

namespace Immutavault.WebSocketFrames

open BigEndian

/-- The bytes of a message. -/
def frame (payload : List UInt8) : Option (List UInt8) :=
  let size := payload.length
  if size < 126 then some ([0x81, UInt8.ofNat size] ++ payload)
  else if size ≤ 0xFFFF then (toBytes 2 size).map fun length => [0x81, 126] ++ length ++ payload
  else (toBytes 8 size).map fun length => [0x81, 127] ++ length ++ payload

section Protocol

/-- How the length of a payload is written: in seven bits, or in bytes behind these. -/
inductive LengthForm where
  | seven
  | sixteen
  | sixtyFour
  deriving DecidableEq

/-- The bytes that a form takes behind the seven bits. -/
def LengthForm.width : LengthForm → Nat
  | .seven => 0
  | .sixteen => 2
  | .sixtyFour => 8

/-- Lengths that a form is permitted for are below this. -/
def LengthForm.bound : LengthForm → Nat
  | .seven => 126
  | .sixteen => 65536
  | .sixtyFour => 2 ^ 63

/-- No permitted form of a length is shorter than this one. -/
def LengthForm.Shortest (form : LengthForm) (size : Nat) : Prop :=
  size < form.bound ∧ ∀ other : LengthForm, size < other.bound → form.width ≤ other.width

structure Frame where
  fin : Bool
  reserved : Nat
  opcode : Nat
  mask : Option (List UInt8)
  form : LengthForm
  payload : List UInt8

/-- The opcode of a text. -/
def textOpcode : Nat := 1

/-- The length of a payload. The first bit of the longest form is zero. -/
def readLength (marker : Nat) (bytes : List UInt8) : Option (LengthForm × Nat × List UInt8) :=
  if marker < 126 then some (.seven, marker, bytes)
  else if marker = 126 then do
    let (length, rest) ← splitBytes 2 bytes
    return (.sixteen, denoted length, rest)
  else do
    let (length, rest) ← splitBytes 8 bytes
    if denoted length < 2 ^ 63 then return (.sixtyFour, denoted length, rest) else none

/-- The key of a payload that is masked. -/
def readMask (masked : Bool) (bytes : List UInt8) : Option (Option (List UInt8) × List UInt8) :=
  if masked then do
    let (key, rest) ← splitBytes 4 bytes
    return (some key, rest)
  else some (none, bytes)

def unmask (mask : Option (List UInt8)) (data : List UInt8) : List UInt8 :=
  match mask with
  | none => data
  | some key => data.mapIdx fun index byte => byte ^^^ key.getD (index % 4) 0

/-- Read a frame from the front of a stream. -/
def decodeFrame : List UInt8 → Option (Frame × List UInt8)
  | first :: second :: bytes => do
    let (form, size, rest) ← readLength (second.toNat % 128) bytes
    let (mask, rest) ← readMask (128 ≤ second.toNat) rest
    let (data, rest) ← splitBytes size rest
    return (⟨128 ≤ first.toNat, first.toNat / 16 % 8, first.toNat % 16, mask, form,
      unmask mask data⟩, rest)
  | _ => none

/-- Read at most this many frames, up to the end of the stream. -/
def decodeUpTo : Nat → List UInt8 → Option (List Frame)
  | _, [] => some []
  | 0, _ :: _ => none
  | count + 1, bytes => do
    let (frame, rest) ← decodeFrame bytes
    let others ← decodeUpTo count rest
    return frame :: others

/-- All frames of a stream. Each of them has two bytes at least. -/
def decodeStream (bytes : List UInt8) : Option (List Frame) := decodeUpTo bytes.length bytes

end Protocol

section Framing

/-- The form that the length of a payload is written in. -/
def formOf (size : Nat) : LengthForm :=
  if size < 126 then .seven else if size ≤ 0xFFFF then .sixteen else .sixtyFour

/-- A message as it is read: one final frame of text that is not masked. -/
def textFrame (payload : List UInt8) : Frame :=
  ⟨true, 0, textOpcode, none, formOf payload.length, payload⟩

theorem formOf_shortest {size : Nat} (small : size < 2 ^ 63) : (formOf size).Shortest size := by
  unfold formOf
  split
  · exact ⟨by assumption, fun other _ => Nat.zero_le _⟩
  · rename_i long
    split
    · rename_i medium
      refine ⟨Nat.lt_succ_of_le medium, fun other fits => ?_⟩
      cases other with
      | seven => exact absurd fits long
      | sixteen => exact le_rfl
      | sixtyFour => decide
    · rename_i longer
      refine ⟨small, fun other fits => ?_⟩
      cases other with
      | seven => exact absurd fits long
      | sixteen => exact absurd (Nat.le_of_lt_succ fits) longer
      | sixtyFour => exact le_rfl

/-- Behind its two first bytes, a frame is its length and its payload. -/
theorem decodeFrame_text {second : UInt8} {bytes payload rest : List UInt8} {form : LengthForm}
    (unmasked : second.toNat < 128)
    (sized : readLength second.toNat bytes = some (form, payload.length, payload ++ rest)) :
    decodeFrame (0x81 :: second :: bytes) =
      some (⟨true, 0, textOpcode, none, form, payload⟩, rest) := by
  have marker : second.toNat % 128 = second.toNat := Nat.mod_eq_of_lt unmasked
  have plain : decide (128 ≤ second.toNat) = false := decide_eq_false (by omega)
  have opened : readMask false (payload ++ rest) = some (none, payload ++ rest) := rfl
  simp only [decodeFrame, marker, sized, plain, opened, splitBytes_append, Option.bind_eq_bind,
    Option.bind_some]
  rfl

/-- A length in the bytes of its form is read, and what is behind it is left. -/
theorem readLength_sixteen {size : Nat} {length : List UInt8}
    (written : toBytes 2 size = some length) (rest : List UInt8) :
    readLength 126 (length ++ rest) = some (.sixteen, size, rest) := by
  obtain ⟨denotes, width⟩ := denoted_toBytes written
  have split : splitBytes 2 (length ++ rest) = some (length, rest) := by
    rw [← width, splitBytes_append]
  simp [readLength, split, denotes]

theorem readLength_sixtyFour {size : Nat} {length : List UInt8} (small : size < 2 ^ 63)
    (written : toBytes 8 size = some length) (rest : List UInt8) :
    readLength 127 (length ++ rest) = some (.sixtyFour, size, rest) := by
  obtain ⟨denotes, width⟩ := denoted_toBytes written
  have split : splitBytes 8 (length ++ rest) = some (length, rest) := by
    rw [← width, splitBytes_append]
  rw [readLength, if_neg (by decide), if_neg (by decide), split]
  simp only [Option.bind_eq_bind, Option.bind_some, denotes, if_pos small]
  rfl

theorem frame_decodes {payload : List UInt8} (small : payload.length < 2 ^ 63) :
    ∃ bytes, frame payload = some bytes ∧
      ∀ rest, decodeFrame (bytes ++ rest) = some (textFrame payload, rest) := by
  unfold frame textFrame formOf
  dsimp only
  split
  · rename_i short
    have size : (UInt8.ofNat payload.length).toNat = payload.length := by
      rw [UInt8.toNat_ofNat']
      omega
    refine ⟨_, rfl, fun rest => decodeFrame_text (by omega) ?_⟩
    rw [size, readLength, if_pos short]
    rfl
  · split
    · rename_i medium
      have written : toBytes 2 payload.length = some (lastBytes 2 payload.length) :=
        if_pos (Nat.lt_of_le_of_lt medium (by decide))
      refine ⟨[0x81, 126] ++ lastBytes 2 payload.length ++ payload, by rw [written]; rfl, ?_⟩
      intro rest
      rw [List.append_assoc, List.append_assoc]
      exact @decodeFrame_text 126 _ _ _ _ (by decide)
        (readLength_sixteen written (payload ++ rest))
    · have written : toBytes 8 payload.length = some (lastBytes 8 payload.length) :=
        if_pos (Nat.lt_trans small (by decide))
      refine ⟨[0x81, 127] ++ lastBytes 8 payload.length ++ payload, by rw [written]; rfl, ?_⟩
      intro rest
      rw [List.append_assoc, List.append_assoc]
      exact @decodeFrame_text 127 _ _ _ _ (by decide)
        (readLength_sixtyFour small written (payload ++ rest))

theorem length_frame {payload bytes : List UInt8} (framed : frame payload = some bytes) :
    0 < bytes.length := by
  unfold frame at framed
  dsimp only at framed
  split at framed
  · rw [← Option.some.inj framed]
    simp
  · split at framed
    all_goals
      obtain ⟨length, _, rfl⟩ := Option.map_eq_some_iff.mp framed
      simp

/-- Frames one after the other are read one after the other. -/
theorem stream_decodes {payloads : List (List UInt8)}
    (small : ∀ payload ∈ payloads, payload.length < 2 ^ 63) :
    ∃ parts, payloads.mapM frame = some parts ∧ ∀ count, parts.flatten.length ≤ count →
      decodeUpTo count parts.flatten = some (payloads.map textFrame) := by
  induction payloads with
  | nil =>
    refine ⟨[], rfl, fun count _ => ?_⟩
    cases count <;> rfl
  | cons payload payloads inductionHypothesis =>
    obtain ⟨own, others⟩ := List.forall_mem_cons.mp small
    obtain ⟨bytes, written, decodes⟩ := frame_decodes own
    obtain ⟨parts, framed, later⟩ := inductionHypothesis others
    refine ⟨bytes :: parts, by rw [List.mapM_cons, written, framed]; rfl, ?_⟩
    intro count enough
    have filled := length_frame written
    rw [List.flatten_cons, List.length_append] at enough
    obtain ⟨fewer, rfl⟩ : ∃ fewer, count = fewer + 1 := ⟨count - 1, by omega⟩
    have stream : bytes ++ parts.flatten ≠ [] := by
      intro none
      rw [(List.append_eq_nil_iff.mp none).1] at filled
      exact absurd filled (by decide)
    rw [List.flatten_cons, decodeUpTo.eq_3 _ _ stream, decodes]
    simp only [Option.bind_eq_bind, Option.bind_some,
      later fewer (by omega : parts.flatten.length ≤ fewer)]
    rfl

/-- A message is read from the front of a stream as it was meant, in the shortest form that is
permitted, and any number of messages one after the other are read in their order. -/
theorem frames_are_read {payloads : List (List UInt8)}
    (small : ∀ payload ∈ payloads, payload.length < 2 ^ 63) :
    (∀ payload ∈ payloads, ∃ bytes, frame payload = some bytes ∧
      (∀ rest, decodeFrame (bytes ++ rest) = some (textFrame payload, rest)) ∧
      (textFrame payload).form.Shortest payload.length) ∧
    ∃ parts, payloads.mapM frame = some parts ∧
      decodeStream parts.flatten = some (payloads.map textFrame) := by
  constructor
  · intro payload member
    obtain ⟨bytes, written, decodes⟩ := frame_decodes (small payload member)
    exact ⟨bytes, written, decodes, formOf_shortest (small payload member)⟩
  · obtain ⟨parts, framed, decodes⟩ := stream_decodes small
    exact ⟨parts, framed, decodes _ le_rfl⟩

/-- Two messages, of which one is empty. -/
theorem greeting_read : ([[104, 105], []] : List (List UInt8)).mapM frame =
      some [[0x81, 2, 104, 105], [0x81, 0]] ∧
    ∃ parts, [[104, 105], []].mapM frame = some parts ∧
      decodeStream parts.flatten = some (([[104, 105], []] : List (List UInt8)).map textFrame) :=
  ⟨rfl, (frames_are_read (by decide)).2⟩

end Framing

end Immutavault.WebSocketFrames
