import Mathlib.Data.List.DropRight
import Immutavault.SessionOwnership

/-!
# Names of directories

A name of a directory that stands for a text is made of letters, digits, points, underscores
and hyphens. It begins with a letter or digit, whatever the text is: separators at the two
ends are dropped before the name is cut, and a text of which nothing is left gets a name of
its own. So the name is a single component, and the path that it is joined to stays its
parent. What is removed below such a path is removed below the parent.
-/

namespace Immutavault.PathComponents

open PosixPaths SessionOwnership
open GuestFiles (CodePoint Path Str str)

/-- The code points that names are made of: A-Z, a-z, 0-9, and the three separators. -/
theorem mem_collapseOthers {replaced : Bool} {text : Str} {point : CodePoint}
    (member : point ∈ collapseOthers replaced text) : isKept point = true := by
  induction text generalizing replaced with
  | nil => cases member
  | cons first rest inductionHypothesis =>
    rw [collapseOthers] at member
    split at member
    · rename_i kept
      rcases List.mem_cons.mp member with rfl | later
      · exact kept
      · exact inductionHypothesis later
    · split at member
      · exact inductionHypothesis member
      · rcases List.mem_append.mp member with mark | later
        · rw [List.mem_singleton.mp mark]
          decide
        · exact inductionHypothesis later

/-- What is left of a text without its ends is a beginning of what is left without its front. -/
theorem stripEnds_front (text : Str) :
    stripEnds text <+: text.dropWhile (· ∈ str "._-") :=
  List.rdropWhile_prefix _ _

theorem mem_stripEnds {text : Str} {point : CodePoint} (member : point ∈ stripEnds text) :
    point ∈ text :=
  (List.dropWhile_suffix _).subset ((stripEnds_front text).subset member)

/-- Nothing that is left begins with a separator. -/
theorem stripEnds_head {text rest : Str} {first : CodePoint}
    (left : stripEnds text = first :: rest) : first ∉ str "._-" := by
  obtain ⟨dropped, whole⟩ := stripEnds_front text
  rw [left, List.cons_append] at whole
  have filled : text.dropWhile (· ∈ str "._-") ≠ [] := by
    rw [← whole]
    exact List.cons_ne_nil _ _
  have head := List.head_dropWhile_not (fun point => decide (point ∈ str "._-")) filled
  simpa only [← whole, List.head_cons, decide_eq_false_iff_not] using head

/-- What a name of a directory is like. -/
structure Safe (name : Str) : Prop where
  filled : name ≠ []
  short : name.length ≤ 160
  plain : ∀ point ∈ name, isKept point = true
  begins : ∀ first rest, name = first :: rest → first ∉ str "._-"

theorem safe_safeComponent (value : Str) : Safe (safeComponent value) := by
  unfold safeComponent
  dsimp only
  split
  · exact ⟨by decide, by decide, List.all_eq_true.mp (by decide), fun first rest same => by
      obtain ⟨rfl, -⟩ := List.cons.inj same
      decide⟩
  · rename_i filled
    refine ⟨filled, List.length_take_le _ _, ?_, ?_⟩
    · intro point member
      exact mem_collapseOthers (mem_stripEnds (List.mem_of_mem_take member))
    · intro first rest same
      obtain ⟨dropped, whole⟩ := List.take_prefix 160
        (stripEnds (collapseOthers false (GuestFiles.strip value)))
      rw [same, List.cons_append] at whole
      exact stripEnds_head whole.symm

/-- A name that begins with no separator is neither of the two that stand for directories
of the path. -/
theorem Safe.ne_dots {name : Str} (safe : Safe name) : name ≠ str "." ∧ name ≠ str ".." := by
  refine ⟨?_, ?_⟩ <;>
  · rintro rfl
    exact safe.begins _ _ rfl (by decide)

theorem Safe.proper {name : Str} (safe : Safe name) : Proper name := by
  refine ⟨?_, safe.filled, safe.ne_dots.1⟩
  intro slashed
  have kept := safe.plain _ slashed
  revert kept
  decide

/-- For every text the name of its directory is safe, and joined to a path it is a direct
child of it. -/
theorem component_is_child (value : Str) :
    Safe (safeComponent value) ∧ safeComponent value ≠ str "." ∧ safeComponent value ≠ str ".." ∧
      ∃ name : Component CodePoint, name.val = safeComponent value ∧
        ∀ parent : Path, parent.joinpath (safeComponent value) = parent.child name := by
  have safe := safe_safeComponent value
  refine ⟨safe, safe.ne_dots.1, safe.ne_dots.2, ⟨_, safe.proper⟩, rfl, ?_⟩
  exact fun parent => PurePath.joinpath_proper parent ⟨_, safe.proper⟩

end Immutavault.PathComponents
