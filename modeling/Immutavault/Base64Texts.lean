import Mathlib.Data.List.DropRight

/-!
# Base64 in the alphabet of URLs

Three bytes are four letters; what is left at the end is two or three letters and marks
that fill up four. The encoded text may lose these marks, and regains them from its
length.

Decoding is lenient. Bytes that are no letters are passed, marks among them unless they
complete a group, and what stands behind a completed group is not looked at. It fails when
a group is left incomplete. The letters of the usual alphabet are accepted beside those of
this one.
-/

namespace Immutavault.Base64Texts

/-- The mark that fills up a group. -/
def padding : UInt8 := 61

/-- The letter of a value below 64. -/
def letter (value : Nat) : UInt8 :=
  UInt8.ofNat (if value < 26 then 65 + value
    else if value < 52 then 71 + value
    else if value < 62 then value - 4
    else if value = 62 then 45
    else 95)

/-- The value of a letter. -/
def valueOf (byte : UInt8) : Option Nat :=
  let code := byte.toNat
  if 65 ≤ code ∧ code ≤ 90 then some (code - 65)
  else if 97 ≤ code ∧ code ≤ 122 then some (code - 71)
  else if 48 ≤ code ∧ code ≤ 57 then some (code + 4)
  else if code = 43 ∨ code = 45 then some 62
  else if code = 47 ∨ code = 95 then some 63
  else none

/-- The text of bytes, in full groups of four. -/
def encode : List UInt8 → List UInt8
  | [] => []
  | [first] => [letter (first.toNat / 4), letter (first.toNat % 4 * 16), padding, padding]
  | [first, second] =>
    [letter (first.toNat / 4), letter (first.toNat % 4 * 16 + second.toNat / 16),
      letter (second.toNat % 16 * 4), padding]
  | first :: second :: third :: rest =>
    letter (first.toNat / 4) :: letter (first.toNat % 4 * 16 + second.toNat / 16) ::
      letter (second.toNat % 16 * 4 + third.toNat / 64) :: letter (third.toNat % 64) :: encode rest

/-- What has been read of a group, with the bits that are left of it. -/
inductive Group where
  | empty
  | one (bits : Nat)
  | two (bits : Nat)
  | three (bits : Nat)

/-- How many letters of a group have been read. -/
def Group.letters : Group → Nat
  | .empty => 0
  | .one _ => 1
  | .two _ => 2
  | .three _ => 3

/-- Read a letter into a group: the byte that it completes, and the group then. -/
def Group.next : Group → Nat → Option UInt8 × Group
  | .empty, value => (none, .one value)
  | .one bits, value => (some (UInt8.ofNat (bits * 4 + value / 16)), .two (value % 16))
  | .two bits, value => (some (UInt8.ofNat (bits * 16 + value / 4)), .three (value % 4))
  | .three bits, value => (some (UInt8.ofNat (bits * 64 + value)), .empty)

/-- Decode a text from the middle of a group, after a number of marks. -/
def decodeFrom (group : Group) (marks : Nat) : List UInt8 → Option (List UInt8)
  | [] => if group.letters = 0 then some [] else none
  | byte :: rest =>
    if byte = padding then
      if group.letters < 2 then decodeFrom group marks rest
      else if 4 ≤ group.letters + (marks + 1) then some []
      else decodeFrom group (marks + 1) rest
    else match valueOf byte with
      | none => decodeFrom group marks rest
      | some value =>
        (decodeFrom (group.next value).2 0 rest).map ((group.next value).1.toList ++ ·)

/-- The bytes of a text. -/
def decode (text : List UInt8) : Option (List UInt8) := decodeFrom .empty 0 text

/-- A text without the marks at its end. -/
def stripped (text : List UInt8) : List UInt8 := text.rdropWhile (· = padding)

/-- A text with as many marks as fill up its last group. -/
def filled (text : List UInt8) : List UInt8 :=
  text ++ List.replicate ((4 - text.length % 4) % 4) padding

section RoundTrip

theorem valueOf_letter : ∀ value < 64, valueOf (letter value) = some value := by decide

theorem letter_ne_padding : ∀ value < 64, letter value ≠ padding := by decide

/-- A letter is read into the group. -/
theorem decodeFrom_letter {value : Nat} (small : value < 64) (group : Group) (marks : Nat)
    (rest : List UInt8) : decodeFrom group marks (letter value :: rest) =
      (decodeFrom (group.next value).2 0 rest).map ((group.next value).1.toList ++ ·) := by
  rw [decodeFrom, if_neg (letter_ne_padding value small), valueOf_letter value small]

/-- The first byte of a group, in front of the higher bits of the second. -/
theorem decodeFrom_first (first : UInt8) {higher : Nat} (small : higher < 16) (marks : Nat)
    (rest : List UInt8) :
    decodeFrom .empty marks
        (letter (first.toNat / 4) :: letter (first.toNat % 4 * 16 + higher) :: rest) =
      (decodeFrom (.two higher) 0 rest).map (first :: ·) := by
  have bound := first.toNat_lt
  have joined : first.toNat / 4 * 4 + (first.toNat % 4 * 16 + higher) / 16 = first.toNat := by omega
  have left : (first.toNat % 4 * 16 + higher) % 16 = higher := by omega
  rw [decodeFrom_letter (by omega), decodeFrom_letter (by omega)]
  simp only [Group.next, joined, left, UInt8.ofNat_toNat]
  cases decodeFrom (.two higher) 0 rest <;> rfl

/-- The second byte of a group, in front of the higher bits of the third. -/
theorem decodeFrom_second (second : UInt8) {higher : Nat} (small : higher < 4) (rest : List UInt8) :
    decodeFrom (.two (second.toNat / 16)) 0 (letter (second.toNat % 16 * 4 + higher) :: rest) =
      (decodeFrom (.three higher) 0 rest).map (second :: ·) := by
  have bound := second.toNat_lt
  have joined : second.toNat / 16 * 16 + (second.toNat % 16 * 4 + higher) / 4 = second.toNat := by
    omega
  have left : (second.toNat % 16 * 4 + higher) % 4 = higher := by omega
  rw [decodeFrom_letter (by omega)]
  simp only [Group.next, joined, left, UInt8.ofNat_toNat]
  cases decodeFrom (.three higher) 0 rest <;> rfl

/-- The third byte completes the group. -/
theorem decodeFrom_third (third : UInt8) (rest : List UInt8) :
    decodeFrom (.three (third.toNat / 64)) 0 (letter (third.toNat % 64) :: rest) =
      (decodeFrom .empty 0 rest).map (third :: ·) := by
  have joined : third.toNat / 64 * 64 + third.toNat % 64 = third.toNat := by omega
  rw [decodeFrom_letter (by omega)]
  simp only [Group.next, joined, UInt8.ofNat_toNat]
  cases decodeFrom .empty 0 rest <;> rfl

/-- What was encoded is decoded again. -/
theorem decode_encode (bytes : List UInt8) : decode (encode bytes) = some bytes := by
  unfold decode
  induction bytes using encode.induct with
  | case1 => rfl
  | case2 first =>
    rw [encode]
    exact decodeFrom_first first (show 0 < 16 by omega) 0 [padding, padding]
  | case3 first second =>
    have bound := second.toNat_lt
    rw [encode, decodeFrom_first first (by omega)]
    exact congrArg (Option.map (first :: ·))
      (decodeFrom_second second (show 0 < 4 by omega) [padding])
  | case4 first second third rest inductionHypothesis =>
    have bound := second.toNat_lt
    have last := third.toNat_lt
    rw [encode, decodeFrom_first first (by omega), decodeFrom_second second (by omega),
      decodeFrom_third, inductionHypothesis]
    rfl

/-- A text is the letters of values, and the marks that fill up the last group. -/
theorem encode_letters (bytes : List UInt8) : ∃ values : List Nat, (∀ value ∈ values, value < 64) ∧
    encode bytes =
      values.map letter ++ List.replicate ((4 - values.length % 4) % 4) padding := by
  induction bytes using encode.induct with
  | case1 => exact ⟨[], by simp, rfl⟩
  | case2 first =>
    have bound := first.toNat_lt
    refine ⟨[first.toNat / 4, first.toNat % 4 * 16], ?_, rfl⟩
    simp only [List.forall_mem_cons]
    exact ⟨by omega, by omega, by simp⟩
  | case3 first second =>
    have bound := first.toNat_lt
    have next := second.toNat_lt
    refine ⟨[first.toNat / 4, first.toNat % 4 * 16 + second.toNat / 16,
      second.toNat % 16 * 4], ?_, rfl⟩
    simp only [List.forall_mem_cons]
    exact ⟨by omega, by omega, by omega, by simp⟩
  | case4 first second third rest inductionHypothesis =>
    obtain ⟨values, small, same⟩ := inductionHypothesis
    have bound := first.toNat_lt
    have next := second.toNat_lt
    have last := third.toNat_lt
    refine ⟨first.toNat / 4 :: (first.toNat % 4 * 16 + second.toNat / 16) ::
      (second.toNat % 16 * 4 + third.toNat / 64) :: third.toNat % 64 :: values, ?_, ?_⟩
    · simp only [List.forall_mem_cons]
      exact ⟨by omega, by omega, by omega, by omega, small⟩
    · rw [encode, same]
      simp
      omega

/-- Only the marks at the end are lost. -/
theorem stripped_marks {letters : List UInt8} (plain : ∀ byte ∈ letters, byte ≠ padding)
    (count : Nat) : stripped (letters ++ List.replicate count padding) = letters := by
  induction count with
  | zero =>
    rw [List.replicate_zero, List.append_nil, stripped, List.rdropWhile_eq_self_iff]
    intro nonempty
    simpa using plain _ (List.getLast_mem nonempty)
  | succ count inductionHypothesis =>
    rw [List.replicate_succ', ← List.append_assoc, stripped,
      List.rdropWhile_concat_pos _ _ _ (by simp)]
    exact inductionHypothesis

/-- Without its marks a text is the letters of values. -/
theorem stripped_encode (bytes : List UInt8) : ∃ values : List Nat,
    (∀ value ∈ values, value < 64) ∧ stripped (encode bytes) = values.map letter ∧
      encode bytes =
        values.map letter ++ List.replicate ((4 - values.length % 4) % 4) padding := by
  obtain ⟨values, small, same⟩ := encode_letters bytes
  have plain : ∀ byte ∈ values.map letter, byte ≠ padding := by
    intro byte member
    obtain ⟨value, listed, rfl⟩ := List.mem_map.mp member
    exact letter_ne_padding value (small value listed)
  exact ⟨values, small, by rw [same, stripped_marks plain], same⟩

/-- A text regains the marks that it lost. -/
theorem filled_stripped (bytes : List UInt8) : filled (stripped (encode bytes)) = encode bytes := by
  obtain ⟨values, _, bare, whole⟩ := stripped_encode bytes
  rw [bare, filled, List.length_map, whole]

theorem mem_stripped {bytes : List UInt8} {byte : UInt8} (member : byte ∈ stripped (encode bytes)) :
    ∃ value < 64, byte = letter value := by
  obtain ⟨values, small, bare, _⟩ := stripped_encode bytes
  rw [bare] at member
  obtain ⟨value, listed, rfl⟩ := List.mem_map.mp member
  exact ⟨value, small value listed, rfl⟩

end RoundTrip

end Immutavault.Base64Texts
