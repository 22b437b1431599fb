import Mathlib.Algebra.Order.Ring.Nat
import Mathlib.Data.List.Induction
import Mathlib.Data.Nat.Log
import Mathlib.Tactic.Ring

/-!
# Numbers as bytes

A number is written with the more significant bytes in front. A number of bytes that is too
small for it is refused. What the bytes denote is the number again, and the first of several
bytes is zero exactly when one byte less would do. Numbers tell how many bytes are to be taken
from the front of others.
-/

namespace Immutavault.BigEndian

/-- The last bytes of a number. -/
def lastBytes : Nat → Nat → List UInt8
  | 0, _ => []
  | width + 1, value => lastBytes width (value / 256) ++ [UInt8.ofNat value]

/-- A number in this many bytes. -/
def toBytes (width value : Nat) : Option (List UInt8) :=
  if value < 256 ^ width then some (lastBytes width value) else none

/-- The number that bytes denote. -/
def denoted (bytes : List UInt8) : Nat :=
  bytes.foldl (fun total byte => total * 256 + byte.toNat) 0

/-- The number of bits that a number takes. -/
def bitLength (value : Nat) : Nat := if value = 0 then 0 else value.log2 + 1

/-- This many bytes, and what is behind them. -/
def splitBytes (count : Nat) (bytes : List UInt8) : Option (List UInt8 × List UInt8) :=
  if bytes.length < count then none else some (bytes.take count, bytes.drop count)

@[simp] theorem length_lastBytes (width value : Nat) : (lastBytes width value).length = width := by
  induction width generalizing value with
  | zero => rfl
  | succ width inductionHypothesis => simp [lastBytes, inductionHypothesis]

theorem denoted_concat (bytes : List UInt8) (last : UInt8) :
    denoted (bytes ++ [last]) = denoted bytes * 256 + last.toNat := by
  rw [denoted, List.foldl_append]
  rfl

theorem denoted_lastBytes {width value : Nat} (fits : value < 256 ^ width) :
    denoted (lastBytes width value) = value := by
  induction width generalizing value with
  | zero =>
    rw [pow_zero] at fits
    rw [Nat.lt_one_iff.mp fits]
    rfl
  | succ width inductionHypothesis =>
    rw [pow_succ] at fits
    rw [lastBytes, denoted_concat, inductionHypothesis (Nat.div_lt_of_lt_mul (by omega)),
      UInt8.toNat_ofNat']
    omega

/-- The bytes of a number denote it. -/
theorem denoted_toBytes {width value : Nat} {bytes : List UInt8}
    (written : toBytes width value = some bytes) :
    denoted bytes = value ∧ bytes.length = width := by
  unfold toBytes at written
  split at written
  · rename_i fits
    obtain rfl := Option.some.inj written
    exact ⟨denoted_lastBytes fits, length_lastBytes width value⟩
  · cases written

theorem splitBytes_append (front rest : List UInt8) :
    splitBytes front.length (front ++ rest) = some (front, rest) := by
  rw [splitBytes, if_neg (by simp), List.take_left, List.drop_left]

theorem denoted_cons (first : UInt8) (rest : List UInt8) :
    denoted (first :: rest) = first.toNat * 256 ^ rest.length + denoted rest := by
  induction rest using List.reverseRecOn with
  | nil => simp [denoted]
  | append_singleton rest last inductionHypothesis =>
    rw [← List.cons_append, denoted_concat, denoted_concat, inductionHypothesis,
      List.length_append, List.length_singleton, pow_succ]
    ring

theorem denoted_lt (bytes : List UInt8) : denoted bytes < 256 ^ bytes.length := by
  induction bytes with
  | nil => decide
  | cons first rest inductionHypothesis =>
    have small : first.toNat < 256 := first.toNat_lt
    rw [denoted_cons, List.length_cons, pow_succ]
    calc first.toNat * 256 ^ rest.length + denoted rest
        < first.toNat * 256 ^ rest.length + 256 ^ rest.length :=
          Nat.add_lt_add_left inductionHypothesis _
      _ = (first.toNat + 1) * 256 ^ rest.length := by ring
      _ ≤ 256 * 256 ^ rest.length := Nat.mul_le_mul_right _ small
      _ = 256 ^ rest.length * 256 := by ring

/-- Zeros in front do not count. -/
theorem denoted_dropWhile_zero (bytes : List UInt8) :
    denoted (bytes.dropWhile (· = 0)) = denoted bytes := by
  induction bytes with
  | nil => rfl
  | cons first rest inductionHypothesis =>
    by_cases zero : first = 0
    · subst zero
      rw [List.dropWhile_cons_of_pos (by decide), inductionHypothesis, denoted_cons]
      simp
    · rw [List.dropWhile_cons_of_neg (by simpa using zero)]

/-- The first byte is not zero exactly when one byte less is too small for the number. -/
theorem first_ne_zero_iff (first : UInt8) (rest : List UInt8) :
    first ≠ 0 ↔ 256 ^ rest.length ≤ denoted (first :: rest) := by
  rw [denoted_cons]
  constructor
  · intro filled
    have positive : 0 < first.toNat := by
      rw [Nat.pos_iff_ne_zero]
      exact fun zero => filled (UInt8.toNat_inj.mp zero)
    calc 256 ^ rest.length = 1 * 256 ^ rest.length := (one_mul _).symm
      _ ≤ first.toNat * 256 ^ rest.length := Nat.mul_le_mul_right _ positive
      _ ≤ _ := Nat.le_add_right _ _
  · rintro large rfl
    have small := denoted_lt rest
    simp only [UInt8.toNat_zero, zero_mul, zero_add] at large
    omega

/-- A number of bits in whole bytes is the least number of bytes that the number fits into. -/
theorem fits_iff_bitLength (value width : Nat) :
    value < 256 ^ width ↔ (bitLength value + 7) / 8 ≤ width := by
  have base : (2 : Nat) ^ 8 = 256 := by decide
  have power : (256 : Nat) ^ width = 2 ^ (8 * width) := by rw [pow_mul, base]
  unfold bitLength
  split
  · rename_i zero
    subst zero
    simp
  · rename_i filled
    rw [power, ← Nat.log2_lt filled]
    omega

end Immutavault.BigEndian
