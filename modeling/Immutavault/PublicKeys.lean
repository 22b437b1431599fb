import Immutavault.DistinguishedEncodings
import Immutavault.SignedTokens

/-!
# Public keys of the identity provider

The provider publishes the modulus and the exponent of a key as bytes in the alphabet of URLs.
The portal writes them as a public key of another format: numbers in a sequence, in a string of
bits, behind the name of the algorithm, each with its length in front, and all of it as lines of
letters between two marks.

Whatever the bytes are, zeros in front and a high first byte among them, a reader of that format
finds the two numbers that they denote, and it finds every length and number in its shortest
form. A string of bytes is shorter than 2 ^ 63; lengths far beyond that are still written.
-/

namespace Immutavault.PublicKeys

open BigEndian DistinguishedEncodings Values
open Base64Texts (decodeFrom padding valueOf)
open GuestFiles (Str)
open SignedTokens (b64urlDecode b64urlEncode b64urlDecode_encode)

section Encoding

/-- Bytes that are not in the range of a byte are refused. -/
def derLength (value : Nat) : Option (List UInt8) :=
  if value < 128 then some [UInt8.ofNat value]
  else do
    let raw ← toBytes ((bitLength value + 7) / 8) value
    let marker := 0x80 ||| raw.length
    if marker < 256 then return UInt8.ofNat marker :: raw else none

/-- An element with its length. -/
def derElement (tag : UInt8) (contents : List UInt8) : Option (List UInt8) := do
  let length ← derLength contents.length
  return tag :: length ++ contents

/-- Bytes without the zeros in front; one zero is left of nothing else. -/
def significant (raw : List UInt8) : List UInt8 :=
  let raw := raw.dropWhile (· = 0)
  if raw = [] then [0] else raw

/-- The highest bit of a first byte is set. -/
def isHigh (raw : List UInt8) : Bool := raw.head?.any fun first => first &&& 0x80 ≠ 0

def derInteger (raw : List UInt8) : Option (List UInt8) :=
  let raw := significant raw
  derElement 0x02 (if isHigh raw then 0 :: raw else raw)

/-- The algorithm of the key, with no parameters. -/
def algorithm : List UInt8 :=
  [0x30, 0x0d, 0x06, 0x09, 0x2a, 0x86, 0x48, 0x86, 0xf7, 0x0d, 0x01, 0x01, 0x01, 0x05, 0x00]

/-- The bytes of a public key. -/
def subjectPublicKeyInfo (n e : List UInt8) : Option (List UInt8) := do
  let modulus ← derInteger n
  let exponent ← derInteger e
  let rsa ← derElement 0x30 (modulus ++ exponent)
  let bitstring ← derElement 0x03 (0 :: rsa)
  derElement 0x30 (algorithm ++ bitstring)

end Encoding

section Armor

/-- The end of a line. -/
def newline : UInt8 := 10

/-- A letter of the usual alphabet. -/
def usual (byte : UInt8) : UInt8 := if byte = 45 then 43 else if byte = 95 then 47 else byte

/-- Lines of letters, each of them for 57 bytes at most. -/
def encodebytes : List UInt8 → List UInt8
  | [] => []
  | first :: rest =>
    (Base64Texts.encode ((first :: rest).take 57)).map usual ++
      newline :: encodebytes (rest.drop 56)
termination_by bytes => bytes.length
decreasing_by
  simp only [List.length_drop, List.length_cons]
  omega

/-- Two ends of lines in a row become one. -/
def withoutEmptyLines : List UInt8 → List UInt8
  | [] => []
  | [byte] => [byte]
  | first :: second :: rest =>
    if first = newline ∧ second = newline then newline :: withoutEmptyLines rest
    else first :: withoutEmptyLines (second :: rest)

def beginMark : List UInt8 := "-----BEGIN PUBLIC KEY-----\n".toUTF8.toList

def endMark : List UInt8 := "-----END PUBLIC KEY-----\n".toUTF8.toList

/-- The public key of the texts of a modulus and an exponent. -/
def rsaPublicKeyPem (n e : Str) : Except Exn (List UInt8) := do
  let modulus ← b64urlDecode n
  let exponent ← b64urlDecode e
  match subjectPublicKeyInfo modulus exponent with
  | none => .error ⟨.valueError, "bytes must be in range(0, 256)"⟩
  | some spki => return beginMark ++ withoutEmptyLines (encodebytes spki) ++ endMark

end Armor

section Reading

/-- The identifier of the algorithm of the key. -/
def rsaEncryption : List UInt8 := [0x2a, 0x86, 0x48, 0x86, 0xf7, 0x0d, 0x01, 0x01, 0x01]

/-- The algorithm of a key: its identifier, and no parameters. -/
def readAlgorithm (bytes : List UInt8) : Option Unit := do
  let (identifier, rest) ← readElement 0x06 bytes
  let parameters ← readWhole 0x05 rest
  if identifier = rsaEncryption ∧ parameters = [] then return () else none

/-- The two numbers of a key. -/
def readNumbers (bytes : List UInt8) : Option (Nat × Nat) := do
  let sequence ← readWhole 0x30 bytes
  let (modulus, rest) ← readElement 0x02 sequence
  let exponent ← readWhole 0x02 rest
  return (← readNatural modulus, ← readNatural exponent)

/-- A string of bits that fills its bytes. -/
def readBits (bytes : List UInt8) : Option (List UInt8) := do
  match ← readWhole 0x03 bytes with
  | unused :: bits => if unused = 0 then some bits else none
  | [] => none

/-- The modulus and the exponent of a public key. -/
def readPublicKey (bytes : List UInt8) : Option (Nat × Nat) := do
  let info ← readWhole 0x30 bytes
  let (algorithm, rest) ← readElement 0x30 info
  readAlgorithm algorithm
  readNumbers (← readBits rest)

/-- What stands between the marks. -/
def readPem (text : List UInt8) : Option (List UInt8) :=
  if beginMark <+: text ∧ endMark <:+ text then
    Base64Texts.decode ((text.drop beginMark.length).take
      (text.length - beginMark.length - endMark.length))
  else none

end Reading

section Lengths

theorem isHigh_cons (first : UInt8) (rest : List UInt8) :
    isHigh (first :: rest) = true ↔ 128 ≤ first.toNat := by
  have all : (List.range 256).all (fun value =>
      decide ((UInt8.ofNat value &&& 0x80 ≠ 0) ↔ 128 ≤ value)) = true := by decide +kernel
  have own := of_decide_eq_true
    (List.all_eq_true.mp all first.toNat (List.mem_range.mpr first.toNat_lt))
  rw [UInt8.ofNat_toNat] at own
  simpa only [isHigh, List.head?_cons, Option.any_some, decide_eq_true_eq] using own

/-- A length is read again; it is written in a few bytes. -/
theorem derLength_reads {value : Nat} (small : value < 256 ^ 100) :
    ∃ bytes, derLength value = some bytes ∧ bytes.length ≤ 101 ∧
      ∀ rest, readLength (bytes ++ rest) = some (value, rest) := by
  unfold derLength
  by_cases short : value < 128
  · exact ⟨_, if_pos short, by simp, readLength_short short⟩
  · rw [if_neg short]
    generalize width : (bitLength value + 7) / 8 = count
    have fits : value < 256 ^ count := by rw [fits_iff_bitLength, width]
    have few : count ≤ 100 := by rw [← width, ← fits_iff_bitLength]; exact small
    obtain ⟨raw, written⟩ : ∃ raw, toBytes count value = some raw := ⟨_, if_pos fits⟩
    obtain ⟨denotes, length⟩ := denoted_toBytes written
    have marker : 0x80 ||| raw.length = 128 + raw.length := by
      have small : raw.length < 2 ^ 7 := by omega
      have joined : 128 + raw.length = 128 ||| raw.length :=
        Nat.two_pow_add_eq_or_of_lt small 1
      exact joined.symm
    refine ⟨UInt8.ofNat (128 + raw.length) :: raw, ?_, by rw [List.length_cons]; omega, ?_⟩
    · rw [written]
      simp only [Option.bind_eq_bind, Option.bind_some, marker]
      rw [if_pos (by omega)]
      rfl
    · intro rest
      have minimal : raw.head? ≠ some 0 := by
        intro zero
        obtain ⟨behind, rfl⟩ := List.head?_eq_some_iff.mp zero
        have fewer : ¬ 256 ^ behind.length ≤ denoted (0 :: behind) :=
          fun large => (first_ne_zero_iff 0 behind).mpr large rfl
        have shorter : (bitLength value + 7) / 8 ≤ behind.length := by
          rw [← fits_iff_bitLength, ← denotes]
          omega
        rw [List.length_cons] at length
        omega
      have reads := readLength_long (by omega) minimal (by omega) rest
      rw [denotes] at reads
      exact reads

/-- An element is read again. -/
theorem derElement_reads (tag : UInt8) {contents : List UInt8}
    (small : contents.length < 256 ^ 100) :
    ∃ bytes, derElement tag contents = some bytes ∧ bytes.length ≤ contents.length + 102 ∧
      ∀ rest, readElement tag (bytes ++ rest) = some (contents, rest) := by
  obtain ⟨length, written, short, sized⟩ := derLength_reads small
  refine ⟨tag :: length ++ contents, by rw [derElement, written]; rfl, ?_, ?_⟩
  · simp only [List.length_append, List.length_cons]
    omega
  · exact fun rest => readElement_append rest sized

theorem readWhole_of_reads {tag : UInt8} {bytes contents : List UInt8}
    (reads : ∀ rest, readElement tag (bytes ++ rest) = some (contents, rest)) :
    readWhole tag bytes = some contents := by
  have whole := reads []
  rw [List.append_nil] at whole
  rw [readWhole, whole]
  rfl

theorem significant_cases (raw : List UInt8) : ∃ first rest, significant raw = first :: rest ∧
    (first ≠ 0 ∨ rest = []) ∧ denoted (first :: rest) = denoted raw ∧
      (first :: rest).length ≤ raw.length + 1 := by
  unfold significant
  dsimp only
  rw [← denoted_dropWhile_zero raw]
  cases left : raw.dropWhile (· = 0) with
  | nil => exact ⟨0, [], rfl, Or.inr rfl, rfl, by simp⟩
  | cons first rest =>
    have filled : raw.dropWhile (· = 0) ≠ [] := by
      rw [left]
      exact List.cons_ne_nil _ _
    have head := List.head_dropWhile_not (fun byte : UInt8 => decide (byte = 0)) filled
    have fewer := (List.dropWhile_suffix (l := raw) fun byte : UInt8 => decide (byte = 0)).length_le
    rw [left] at fewer
    refine ⟨first, rest, rfl, Or.inl ?_, rfl, by omega⟩
    simpa only [left, List.head_cons, decide_eq_false_iff_not] using head

/-- A number is read again. -/
theorem derInteger_reads {raw : List UInt8} (small : raw.length < 2 ^ 63) :
    ∃ bytes contents, derInteger raw = some bytes ∧ bytes.length ≤ raw.length + 104 ∧
      (∀ rest, readElement 0x02 (bytes ++ rest) = some (contents, rest)) ∧
      readNatural contents = some (denoted raw) := by
  obtain ⟨first, rest, significant, filled, same, short⟩ := significant_cases raw
  have natural := readNatural_cons filled
  rw [same] at natural
  have contents : (if isHigh (first :: rest) then 0 :: first :: rest else first :: rest) =
      if 128 ≤ first.toNat then 0 :: first :: rest else first :: rest := by
    simp only [isHigh_cons]
  have length : (if 128 ≤ first.toNat then 0 :: first :: rest else first :: rest).length ≤
      raw.length + 2 := by
    split
    · rw [List.length_cons]
      omega
    · omega
  have bound : raw.length + 2 < 256 ^ 100 :=
    Nat.lt_of_lt_of_le (show raw.length + 2 < 2 ^ 63 + 2 by omega) (by decide)
  obtain ⟨bytes, written, grown, reads⟩ :=
    derElement_reads 0x02 (Nat.lt_of_le_of_lt length bound)
  refine ⟨bytes, _, ?_, by omega, reads, natural⟩
  rw [derInteger, significant, contents, written]

/-- The bytes of a key are read as its two numbers. -/
theorem subjectPublicKeyInfo_reads {n e : List UInt8} (small : n.length < 2 ^ 63)
    (few : e.length < 2 ^ 63) : ∃ spki, subjectPublicKeyInfo n e = some spki ∧
      readPublicKey spki = some (denoted n, denoted e) := by
  have room : ∀ size, size < 2 ^ 65 → size < 256 ^ 100 :=
    fun size bound => Nat.lt_of_lt_of_le bound (by decide)
  obtain ⟨modulus, modulusContents, modulusWritten, modulusShort, modulusReads, modulusDenotes⟩ :=
    derInteger_reads small
  obtain ⟨exponent, exponentContents, exponentWritten, exponentShort, exponentReads,
    exponentDenotes⟩ := derInteger_reads few
  obtain ⟨rsa, rsaWritten, rsaShort, rsaReads⟩ := derElement_reads 0x30
    (room (modulus ++ exponent).length (by rw [List.length_append]; omega))
  rw [List.length_append] at rsaShort
  obtain ⟨bits, bitsWritten, bitsShort, bitsReads⟩ := derElement_reads 0x03
    (room (0 :: rsa).length (by rw [List.length_cons]; omega))
  rw [List.length_cons] at bitsShort
  obtain ⟨spki, written, _, reads⟩ := derElement_reads 0x30
    (room (algorithm ++ bits).length (by rw [List.length_append, algorithm]; simp; omega))
  refine ⟨spki, ?_, ?_⟩
  · rw [subjectPublicKeyInfo, modulusWritten, exponentWritten]
    simp only [Option.bind_eq_bind, Option.bind_some, rsaWritten, bitsWritten, written]
  · have named : readElement 0x30 (algorithm ++ bits) = some (algorithm.drop 2, bits) :=
      @readElement_append 0x30 [0x0d] (algorithm.drop 2) bits fun rest =>
        readLength_short (show 13 < 128 by decide) rest
    have numbers : readNumbers rsa = some (denoted n, denoted e) := by
      rw [readNumbers, readWhole_of_reads rsaReads]
      simp only [Option.bind_eq_bind, Option.bind_some, modulusReads,
        readWhole_of_reads exponentReads, modulusDenotes, exponentDenotes]
      rfl
    have filled : readBits bits = some rsa := by
      rw [readBits, readWhole_of_reads bitsReads]
      rfl
    have known : readAlgorithm (algorithm.drop 2) = some () := by decide
    rw [readPublicKey, readWhole_of_reads reads]
    simp only [Option.bind_eq_bind, Option.bind_some, named, known, filled, numbers]

end Lengths

section Lines

theorem usual_cases (byte : UInt8) :
    usual byte = byte ∨ byte = 45 ∧ usual byte = 43 ∨ byte = 95 ∧ usual byte = 47 := by
  unfold usual
  split
  · exact Or.inr (Or.inl ⟨by assumption, rfl⟩)
  · split
    · exact Or.inr (Or.inr ⟨by assumption, rfl⟩)
    · exact Or.inl rfl

theorem usual_padding (byte : UInt8) : usual byte = padding ↔ byte = padding := by
  rcases usual_cases byte with same | ⟨rfl, _⟩ | ⟨rfl, _⟩
  · rw [same]
  · decide
  · decide

theorem valueOf_usual (byte : UInt8) : valueOf (usual byte) = valueOf byte := by
  rcases usual_cases byte with same | ⟨rfl, _⟩ | ⟨rfl, _⟩
  · rw [same]
  · rfl
  · rfl

/-- The letters of both alphabets are read alike. -/
theorem decodeFrom_usual (group : Base64Texts.Group) (marks : Nat) (text rest : List UInt8) :
    decodeFrom group marks (text.map usual ++ rest) = decodeFrom group marks (text ++ rest) := by
  induction text generalizing group marks with
  | nil => rfl
  | cons byte text inductionHypothesis =>
    simp only [List.map_cons, List.cons_append, decodeFrom, usual_padding, valueOf_usual,
      inductionHypothesis]

theorem decodeFrom_newline (group : Base64Texts.Group) (marks : Nat) (rest : List UInt8) :
    decodeFrom group marks (newline :: rest) = decodeFrom group marks rest := rfl

/-- Whole groups are read, and then what is behind them. -/
theorem decodeFrom_encode {bytes : List UInt8} (whole : bytes.length % 3 = 0) (rest : List UInt8) :
    decodeFrom .empty 0 (Base64Texts.encode bytes ++ rest) =
      (decodeFrom .empty 0 rest).map (bytes ++ ·) := by
  induction bytes using Base64Texts.encode.induct with
  | case1 => cases read : decodeFrom .empty 0 rest <;> simp [Base64Texts.encode, read]
  | case2 first => cases whole
  | case3 first second => cases whole
  | case4 first second third others inductionHypothesis =>
    have bound := second.toNat_lt
    have last := third.toNat_lt
    have shorter : others.length % 3 = 0 := by
      simp only [List.length_cons] at whole
      omega
    rw [Base64Texts.encode]
    simp only [List.cons_append]
    rw [Base64Texts.decodeFrom_first first (by omega),
      Base64Texts.decodeFrom_second second (by omega), Base64Texts.decodeFrom_third,
      inductionHypothesis shorter]
    cases decodeFrom .empty 0 rest <;> rfl

/-- The last line may end in an incomplete group. -/
theorem decodeFrom_last (bytes : List UInt8) :
    decodeFrom .empty 0 (Base64Texts.encode bytes ++ [newline]) = some bytes := by
  induction bytes using Base64Texts.encode.induct with
  | case1 => rfl
  | case2 first =>
    rw [Base64Texts.encode]
    exact Base64Texts.decodeFrom_first first (show 0 < 16 by omega) 0 [padding, padding, newline]
  | case3 first second =>
    have bound := second.toNat_lt
    rw [Base64Texts.encode]
    simp only [List.cons_append]
    rw [Base64Texts.decodeFrom_first first (by omega)]
    exact congrArg (Option.map (first :: ·))
      (Base64Texts.decodeFrom_second second (show 0 < 4 by omega) [padding, newline])
  | case4 first second third rest inductionHypothesis =>
    have bound := second.toNat_lt
    have last := third.toNat_lt
    rw [Base64Texts.encode]
    simp only [List.cons_append]
    rw [Base64Texts.decodeFrom_first first (by omega),
      Base64Texts.decodeFrom_second second (by omega), Base64Texts.decodeFrom_third,
      inductionHypothesis]
    rfl

/-- Lines of letters are read as the bytes that they were written for. -/
theorem decode_encodebytes (bytes : List UInt8) :
    Base64Texts.decode (encodebytes bytes) = some bytes := by
  unfold Base64Texts.decode
  induction bytes using encodebytes.induct with
  | case1 =>
    rw [encodebytes]
    rfl
  | case2 first rest inductionHypothesis =>
    have parts : (first :: rest).take 57 ++ rest.drop 56 = first :: rest :=
      List.take_append_drop 57 (first :: rest)
    rw [encodebytes, decodeFrom_usual]
    by_cases last : rest.drop 56 = []
    · rw [last, List.append_nil] at parts
      rw [last, encodebytes, parts]
      exact decodeFrom_last (first :: rest)
    · have long : ¬ rest.length ≤ 56 := fun short => last (List.drop_eq_nil_iff.mpr short)
      have whole : ((first :: rest).take 57).length % 3 = 0 := by
        rw [List.length_take, List.length_cons, min_eq_left (by omega)]
      rw [decodeFrom_encode whole, decodeFrom_newline, inductionHypothesis, Option.map_some, parts]

/-- No letter ends a line. -/
theorem usual_encode_ne_newline {bytes : List UInt8} {byte : UInt8}
    (member : byte ∈ (Base64Texts.encode bytes).map usual) : byte ≠ newline := by
  obtain ⟨letter, listed, rfl⟩ := List.mem_map.mp member
  obtain ⟨values, small, same⟩ := Base64Texts.encode_letters bytes
  rw [same] at listed
  rcases List.mem_append.mp listed with own | marks
  · obtain ⟨value, known, rfl⟩ := List.mem_map.mp own
    have all : ∀ value < 64, usual (Base64Texts.letter value) ≠ newline := by decide
    exact all value (small value known)
  · rw [(List.mem_replicate.mp marks).2]
    decide

theorem withoutEmptyLines_cons {byte : UInt8} (other : byte ≠ newline) (rest : List UInt8) :
    withoutEmptyLines (byte :: rest) = byte :: withoutEmptyLines rest := by
  cases rest with
  | nil => rfl
  | cons second rest => rw [withoutEmptyLines, if_neg fun ends => other ends.1]

/-- A line stays what it is when the next one is not empty. -/
theorem withoutEmptyLines_line {letters rest : List UInt8}
    (plain : ∀ byte ∈ letters, byte ≠ newline) (next : rest.head? ≠ some newline) :
    withoutEmptyLines (letters ++ newline :: rest) =
      letters ++ newline :: withoutEmptyLines rest := by
  induction letters with
  | nil =>
    cases rest with
    | nil => rfl
    | cons first rest =>
      have other : ¬ (newline = newline ∧ first = newline) :=
        fun ends => next (congrArg some ends.2)
      rw [List.nil_append, List.nil_append, withoutEmptyLines, if_neg other]
  | cons byte letters inductionHypothesis =>
    obtain ⟨own, others⟩ := List.forall_mem_cons.mp plain
    rw [List.cons_append, withoutEmptyLines_cons own, inductionHypothesis others]
    rfl

theorem encodebytes_head (bytes : List UInt8) : (encodebytes bytes).head? ≠ some newline := by
  cases bytes with
  | nil => simp [encodebytes]
  | cons first rest =>
    rw [encodebytes]
    intro starts
    cases line : (Base64Texts.encode ((first :: rest).take 57)).map usual with
    | nil =>
      have empty := List.map_eq_nil_iff.mp line
      have decoded := Base64Texts.decode_encode ((first :: rest).take 57)
      rw [empty] at decoded
      cases Option.some.inj decoded
    | cons letter others =>
      rw [line] at starts
      have member : letter ∈ (Base64Texts.encode ((first :: rest).take 57)).map usual := by
        rw [line]
        exact List.mem_cons_self
      exact usual_encode_ne_newline member (Option.some.inj starts)

/-- No line is empty. -/
theorem withoutEmptyLines_encodebytes (bytes : List UInt8) :
    withoutEmptyLines (encodebytes bytes) = encodebytes bytes := by
  induction bytes using encodebytes.induct with
  | case1 =>
    rw [encodebytes]
    rfl
  | case2 first rest inductionHypothesis =>
    rw [encodebytes, withoutEmptyLines_line (fun byte member => usual_encode_ne_newline member)
      (encodebytes_head _), inductionHypothesis]

/-- What is written between the marks is read. -/
theorem readPem_marks (body : List UInt8) :
    readPem (beginMark ++ body ++ endMark) = Base64Texts.decode body := by
  have begins : beginMark <+: beginMark ++ body ++ endMark := ⟨body ++ endMark, by simp⟩
  have ends : endMark <:+ beginMark ++ body ++ endMark := ⟨beginMark ++ body, rfl⟩
  have inner : (beginMark ++ body ++ endMark).length - beginMark.length - endMark.length =
      body.length := by
    simp only [List.length_append]
    omega
  rw [readPem, if_pos ⟨begins, ends⟩, inner, List.append_assoc, List.drop_left, List.take_left]

end Lines

/-- Whatever the bytes of a key are, the public key that is written for it is read as the two
numbers that they denote. -/
theorem public_key_reads {n e : Str} {modulus exponent : List UInt8}
    (given : b64urlDecode n = .ok modulus) (raised : b64urlDecode e = .ok exponent)
    (small : modulus.length < 2 ^ 63) (few : exponent.length < 2 ^ 63) :
    ∃ pem spki, rsaPublicKeyPem n e = .ok pem ∧ readPem pem = some spki ∧
      readPublicKey spki = some (denoted modulus, denoted exponent) := by
  obtain ⟨spki, written, reads⟩ := subjectPublicKeyInfo_reads small few
  refine ⟨beginMark ++ encodebytes spki ++ endMark, spki, ?_, ?_, reads⟩
  · rw [rsaPublicKeyPem, given, raised, ok_bind, ok_bind, written]
    dsimp only
    rw [withoutEmptyLines_encodebytes]
    rfl
  · rw [readPem_marks, decode_encodebytes]

/-- A key with zeros in front of its modulus, and with a high first byte. -/
theorem padded_key_reads : ∃ pem spki,
    rsaPublicKeyPem (b64urlEncode [0, 0, 200, 1]) (b64urlEncode [1, 0, 1]) = .ok pem ∧
      readPem pem = some spki ∧ readPublicKey spki = some (51201, 65537) :=
  public_key_reads (b64urlDecode_encode _) (b64urlDecode_encode _) (by decide) (by decide)

end Immutavault.PublicKeys
