import Immutavault.BigEndian

/-!
# Distinguished encodings

An element is a tag, the length of its contents and the contents. The encoding is the only one
of its value: a length takes the fewest bytes that it can, and a number, too. The reader refuses
every other encoding. A length below 128 is one byte; others are a byte with the number of bytes
behind it. A number with its highest bit set is negative, so that a zero is put in front of a
number that is not.
-/

namespace Immutavault.DistinguishedEncodings

open BigEndian

/-- A length in the fewest bytes, and what is behind it. -/
def readLength : List UInt8 → Option (Nat × List UInt8)
  | [] => none
  | first :: rest =>
    if first.toNat < 128 then some (first.toNat, rest)
    else if first.toNat = 128 ∨ first.toNat = 255 then none
    else do
      let (digits, rest) ← splitBytes (first.toNat - 128) rest
      if digits.head? = some 0 ∨ denoted digits < 128 then none else return (denoted digits, rest)

/-- The contents of an element with this tag, and what is behind it. -/
def readElement (tag : UInt8) : List UInt8 → Option (List UInt8 × List UInt8)
  | [] => none
  | first :: rest =>
    if first = tag then do
      let (length, rest) ← readLength rest
      splitBytes length rest
    else none

/-- The contents of an element that nothing is behind. -/
def readWhole (tag : UInt8) (bytes : List UInt8) : Option (List UInt8) := do
  let (contents, rest) ← readElement tag bytes
  if rest = [] then some contents else none

/-- A number that is not negative, in the fewest bytes. -/
def readNatural : List UInt8 → Option Nat
  | [] => none
  | first :: rest =>
    if 128 ≤ first.toNat then none
    else if first = 0 ∧ rest.head?.any (·.toNat < 128) then none
    else some (denoted (first :: rest))

theorem readLength_short {value : Nat} (short : value < 128) (rest : List UInt8) :
    readLength (UInt8.ofNat value :: rest) = some (value, rest) := by
  have same : (UInt8.ofNat value).toNat = value := by
    rw [UInt8.toNat_ofNat']
    omega
  rw [readLength, same, if_pos short]

/-- A longer length in the bytes that denote it, of which the first is not zero. -/
theorem readLength_long {digits : List UInt8} (few : digits.length < 127)
    (minimal : digits.head? ≠ some 0) (long : 128 ≤ denoted digits) (rest : List UInt8) :
    readLength (UInt8.ofNat (128 + digits.length) :: (digits ++ rest)) =
      some (denoted digits, rest) := by
  have filled : 0 < digits.length := by
    rw [List.length_pos_iff]
    rintro rfl
    exact absurd long (by decide)
  have marker : (UInt8.ofNat (128 + digits.length)).toNat = 128 + digits.length := by
    rw [UInt8.toNat_ofNat']
    omega
  have count : 128 + digits.length - 128 = digits.length := by omega
  rw [readLength, marker, if_neg (by omega), if_neg (by omega), count, splitBytes_append]
  simp only [Option.bind_eq_bind, Option.bind_some]
  rw [if_neg (by rintro (zero | small) <;> [exact minimal zero; omega])]
  rfl

/-- An element is read when its length is. -/
theorem readElement_append {tag : UInt8} {length contents : List UInt8} (rest : List UInt8)
    (sized : ∀ rest, readLength (length ++ rest) = some (contents.length, rest)) :
    readElement tag (tag :: length ++ contents ++ rest) = some (contents, rest) := by
  rw [List.append_assoc, List.cons_append, readElement, if_pos rfl, sized]
  exact splitBytes_append contents rest

/-- A number as it is written: a zero stands in front of a first byte that is high. -/
theorem readNatural_cons {first : UInt8} {rest : List UInt8} (filled : first ≠ 0 ∨ rest = []) :
    readNatural (if 128 ≤ first.toNat then 0 :: first :: rest else first :: rest) =
      some (denoted (first :: rest)) := by
  split
  · rename_i high
    have allowed : ¬ ((0 : UInt8) = 0 ∧ (first :: rest).head?.any (·.toNat < 128)) := by
      rintro ⟨-, low⟩
      simp only [List.head?_cons, Option.any_some, decide_eq_true_eq] at low
      omega
    rw [readNatural, if_neg (by decide), if_neg allowed, denoted_cons 0]
    simp
  · rename_i low
    have allowed : ¬ (first = 0 ∧ rest.head?.any (·.toNat < 128)) := by
      rintro ⟨zero, next⟩
      rcases filled with filled | rfl
      · exact filled zero
      · cases next
    rw [readNatural, if_neg low, if_neg allowed]

end Immutavault.DistinguishedEncodings
