import Mathlib.Data.List.Basic
import Mathlib.Data.List.Induction

/-!
# Chains of digests

An append-only log is protected by a chain: every entry records the digest of
its predecessor, and its own digest covers its event together with that record.
The first entry refers to a fixed seed.

The laws say what appending does. A chain with one more entry is linked exactly
when the shorter one is and the new entry refers to its last digest; so a chain
once broken is never repaired by appending. The last digest of a chain stands
for the whole of it, as long as no digests collide.
-/

namespace Immutavault.HashChains

variable {ε δ : Type}

/-- An event with the digest it refers to and its own digest. -/
structure Entry (ε δ : Type) where
  event : ε
  previous : δ
  hash : δ

variable (digest : ε → δ → δ)

/-- Entries that continue a chain whose last digest is given. -/
def Linked (previous : δ) : List (Entry ε δ) → Prop
  | [] => True
  | entry :: rest =>
    entry.previous = previous ∧ entry.hash = digest entry.event previous ∧ Linked entry.hash rest

/-- The last digest of a chain, or the seed of an empty one. -/
def tail (seed : δ) : List (Entry ε δ) → δ
  | [] => seed
  | entry :: rest => tail entry.hash rest

@[simp] theorem tail_concat (seed : δ) (entries : List (Entry ε δ)) (entry : Entry ε δ) :
    tail seed (entries ++ [entry]) = entry.hash := by
  induction entries generalizing seed with
  | nil => rfl
  | cons first rest inductionHypothesis => exact inductionHypothesis first.hash

/-- Two parts are linked when the second continues from the last digest of the first. -/
theorem linked_append (seed : δ) (first second : List (Entry ε δ)) :
    Linked digest seed (first ++ second) ↔
      Linked digest seed first ∧ Linked digest (tail seed first) second := by
  induction first generalizing seed with
  | nil => simp [Linked, tail]
  | cons entry rest inductionHypothesis =>
    simp only [List.cons_append, Linked, inductionHypothesis, tail, and_assoc]

/-- One more entry keeps a chain linked exactly when it refers to the last digest. -/
theorem linked_concat (seed : δ) (entries : List (Entry ε δ)) (entry : Entry ε δ) :
    Linked digest seed (entries ++ [entry]) ↔
      Linked digest seed entries ∧ entry.previous = tail seed entries ∧
        entry.hash = digest entry.event (tail seed entries) := by
  simp only [linked_append, Linked, and_true]

/-- Two chains over one seed with the same last digest are the same, when no digest of
either is the seed and no two of their entries collide. -/
theorem linked_unique {seed : δ} {first second : List (Entry ε δ)}
    (firstLinked : Linked digest seed first) (secondLinked : Linked digest seed second)
    (unseeded : ∀ entry ∈ first ++ second, entry.hash ≠ seed)
    (apart : ∀ one ∈ first, ∀ other ∈ second,
      digest one.event one.previous = digest other.event other.previous →
        one.event = other.event ∧ one.previous = other.previous)
    (ends : tail seed first = tail seed second) : first = second := by
  induction first using List.reverseRecOn generalizing second with
  | nil =>
    rcases List.eq_nil_or_concat second with empty | ⟨before, last, split⟩
    · exact empty.symm
    · rw [List.concat_eq_append] at split
      subst split
      rw [tail_concat] at ends
      exact absurd ends.symm (unseeded last (by simp))
  | append_singleton before last inductionHypothesis =>
    rcases List.eq_nil_or_concat second with empty | ⟨earlier, final, split⟩
    · subst empty
      rw [tail_concat] at ends
      exact absurd ends (unseeded last (by simp))
    · rw [List.concat_eq_append] at split
      subst split
      obtain ⟨beforeLinked, lastRefers, lastHash⟩ := (linked_concat digest _ _ _).mp firstLinked
      obtain ⟨earlierLinked, finalRefers, finalHash⟩ := (linked_concat digest _ _ _).mp secondLinked
      rw [tail_concat, tail_concat] at ends
      have collide : digest last.event last.previous = digest final.event final.previous := by
        rw [lastRefers, finalRefers, ← lastHash, ← finalHash, ends]
      obtain ⟨sameEvent, samePrevious⟩ := apart last (by simp) final (by simp) collide
      have sameLast : last = final := by
        cases last
        cases final
        simp only at sameEvent samePrevious ends
        rw [sameEvent, samePrevious, ends]
      have sameBefore : before = earlier := by
        refine inductionHypothesis beforeLinked earlierLinked ?_ ?_ ?_
        · intro entry member
          refine unseeded entry ?_
          rcases List.mem_append.mp member with one | other
          · simp [one]
          · simp [other]
        · exact fun one member other listed => apart one (by simp [member]) other (by simp [listed])
        · rw [← lastRefers, samePrevious, finalRefers]
      rw [sameBefore, sameLast]

end Immutavault.HashChains
