import Mathlib.Data.List.Basic

/-!
# Pure POSIX paths

A path text is split at its slashes. One or three and more leading slashes name
the root; exactly two leading slashes name a second, implementation-defined
root, which is kept apart. Empty components and single dots are dropped, two
dots are kept: nothing here consults a file system.

Joining follows the same standard. A text that begins with a slash discards what
stands before it; any other text is appended after one slash. The alphabet is
arbitrary, so a path may hold any code unit its users may write.
-/

namespace Immutavault.PosixPaths

/-- The two characters to which a path gives a meaning. -/
class Alphabet (χ : Type) where
  slash : χ
  dot : χ
  distinct : dot ≠ slash

open Alphabet

/-- What stands before the first component. -/
inductive Root where
  | relative
  | single
  | double
  deriving DecidableEq, Repr

variable {χ : Type} [Alphabet χ]

/-- A component that normalisation keeps: no slash, not empty, not a single dot. -/
def Proper (text : List χ) : Prop := slash ∉ text ∧ text ≠ [] ∧ text ≠ [dot]

instance [DecidableEq χ] (text : List χ) : Decidable (Proper text) :=
  inferInstanceAs (Decidable (_ ∧ _ ∧ _))

/-- Components are proper texts. -/
abbrev Component (χ : Type) [Alphabet χ] := {text : List χ // Proper text}

/-- A normalised path: its root and its components. -/
structure PurePath (χ : Type) [Alphabet χ] where
  root : Root
  tail : List (Component χ)
  deriving DecidableEq

/-- The leading slashes of a root. -/
def Root.text : Root → List χ
  | .relative => []
  | .single => [slash]
  | .double => [slash, slash]

section Parsing

variable [DecidableEq χ]

/-- Separate the root from the rest. Exactly two leading slashes are their own root. -/
def splitroot : List χ → Root × List χ
  | [] => (.relative, [])
  | first :: rest =>
    if first ≠ slash then (.relative, first :: rest)
    else match rest with
      | [] => (.single, [])
      | second :: further =>
        if second = slash ∧ further.head? ≠ some slash then (.double, further)
        else (.single, rest)

/-- The proper components of a text, in order. -/
def components (text : List χ) : List (Component χ) :=
  (text.splitOn slash).filterMap fun piece =>
    if proper : Proper piece then some ⟨piece, proper⟩ else none

/-- Read a text as a path. -/
def PurePath.parse (text : List χ) : PurePath χ :=
  ⟨(splitroot text).1, components (splitroot text).2⟩

end Parsing

namespace PurePath

/-- The texts of the components, preceded by the root when there is one. -/
def parts (path : PurePath χ) : List (List χ) :=
  match path.root with
  | .relative => path.tail.map Subtype.val
  | root => root.text :: path.tail.map Subtype.val

/-- The text of a path: its root, then its components separated by slashes. -/
def format (path : PurePath χ) : List χ :=
  path.root.text ++ [slash].intercalate (path.tail.map Subtype.val)

/-- Append one component. -/
def child (path : PurePath χ) (name : Component χ) : PurePath χ :=
  ⟨path.root, path.tail ++ [name]⟩

/-- Append components. -/
def below (path : PurePath χ) (names : List (Component χ)) : PurePath χ :=
  ⟨path.root, path.tail ++ names⟩

/-- The path itself or a path strictly below it, by components. -/
def Within (base path : PurePath χ) : Prop := ∃ names, path = base.below names

theorem below_nil (path : PurePath χ) : path.below [] = path := by
  simp [below]

theorem below_child (path : PurePath χ) (names : List (Component χ)) (name : Component χ) :
    (path.below names).child name = path.below (names ++ [name]) := by
  simp [below, child]

theorem within_below (path : PurePath χ) (names : List (Component χ)) :
    Within path (path.below names) := ⟨names, rfl⟩

theorem Within.child {base path : PurePath χ} (within : Within base path) (name : Component χ) :
    Within base (path.child name) := by
  obtain ⟨names, rfl⟩ := within
  exact ⟨names ++ [name], below_child base names name⟩

/-- A bare root lies within no path that has a component. -/
theorem not_within_bare {base : PurePath χ} (deep : base.tail ≠ []) (root : Root) :
    ¬ Within base ⟨root, []⟩ := by
  rintro ⟨names, same⟩
  have empty : base.tail ++ names = [] := (congrArg PurePath.tail same).symm
  exact deep (List.append_eq_nil_iff.mp empty).1

end PurePath

section Formatting

/-- Separated components do not begin with a slash. -/
theorem intercalate_head_ne (names : List (Component χ)) :
    ([slash].intercalate (names.map Subtype.val)).head? ≠ some slash := by
  cases names with
  | nil => simp
  | cons name rest =>
    obtain ⟨text, plain, filled, _⟩ := name
    obtain ⟨first, others, rfl⟩ := List.exists_cons_of_ne_nil filled
    have different : first ≠ slash := fun same => plain (by simp [same])
    cases rest with
    | nil => simpa using different
    | cons second further => simpa [List.intercalate_cons_cons] using different

omit [Alphabet χ] in
/-- A last text is separated from the texts before it. -/
theorem intercalate_concat (separator : List χ) {texts : List (List χ)} (filled : texts ≠ [])
    (last : List χ) :
    separator.intercalate (texts ++ [last]) = separator.intercalate texts ++ separator ++ last := by
  induction texts with
  | nil => exact absurd rfl filled
  | cons text rest inductionHypothesis =>
    cases rest with
    | nil => simp
    | cons second further => simpa using inductionHypothesis (by simp)

/-- The text of a child is the text of its parent, a slash unless the parent is
bare, and the name. -/
theorem PurePath.format_child (path : PurePath χ) (name : Component χ) :
    (path.child name).format =
      path.format ++ (if path.tail = [] then [] else [slash]) ++ name.val := by
  simp only [PurePath.format, PurePath.child, List.map_append, List.map_cons, List.map_nil]
  by_cases bare : path.tail = []
  · simp [bare]
  · have filled : path.tail.map Subtype.val ≠ [] := fun empty => bare (List.map_eq_nil_iff.mp empty)
    rw [if_neg bare, intercalate_concat _ filled]
    simp only [List.append_assoc]

/-- A path with a component has a text that ends in that component, not in a slash. -/
theorem PurePath.format_last {path : PurePath χ} (deep : path.tail ≠ []) :
    path.format ≠ [] ∧ path.format.getLast? ≠ some slash := by
  rcases List.eq_nil_or_concat path.tail with bare | ⟨names, last, ends⟩
  · exact absurd bare deep
  · have parent : path = (⟨path.root, names⟩ : PurePath χ).child last := by
      simp only [PurePath.child, ← List.concat_eq_append, ← ends]
    obtain ⟨plain, filled, _⟩ := last.property
    rw [parent, PurePath.format_child]
    refine ⟨by simp [filled], ?_⟩
    rw [List.getLast?_append_of_ne_nil _ filled]
    exact fun same => plain (List.mem_of_getLast? same)

end Formatting

section Joining

variable [DecidableEq χ]

/-- Join two texts: a text with a leading slash replaces what stands before it. -/
def posixJoin (path more : List χ) : List χ :=
  if more.head? = some slash then more
  else if path = [] ∨ path.getLast? = some slash then path ++ more
  else path ++ [slash] ++ more

/-- Append a text to a path. -/
def PurePath.joinpath (path : PurePath χ) (more : List χ) : PurePath χ :=
  .parse (posixJoin path.format more)

/-- Components of a separated text are the components of its two sides. -/
theorem components_append (before after : List χ) :
    components (before ++ slash :: after) = components before ++ components after := by
  simp only [components, List.splitOn_append_cons_self, List.filterMap_append]

@[simp] theorem components_nil : components ([] : List χ) = [] := by
  simp [components, Proper]

/-- A proper text is its own single component. -/
@[simp] theorem components_proper (name : Component χ) : components name.val = [name] := by
  simp [components, List.splitOn_eq_singleton name.property.1, name.property]

/-- Reading separated components gives them back. -/
theorem components_intercalate (names : List (Component χ)) :
    components ([slash].intercalate (names.map Subtype.val)) = names := by
  induction names with
  | nil => simp
  | cons name rest inductionHypothesis =>
    cases rest with
    | nil => simp
    | cons second further =>
      have separated : [slash].intercalate ((name :: second :: further).map Subtype.val) =
          name.val ++ slash :: [slash].intercalate ((second :: further).map Subtype.val) := by
        simp [List.intercalate_cons_cons]
      rw [separated, components_append, inductionHypothesis, components_proper]
      rfl

/-- Whether a text names a root is decided by its first characters alone. -/
theorem splitroot_relative {text : List χ} (relative : text.head? ≠ some slash) :
    splitroot text = (.relative, text) := by
  cases text with
  | nil => rfl
  | cons first rest =>
    have plain : first ≠ slash := by simpa using relative
    simp [splitroot, plain]

theorem splitroot_root (root : Root) {text : List χ} (relative : text.head? ≠ some slash) :
    splitroot (root.text ++ text) = (root, text) := by
  cases root with
  | relative => exact splitroot_relative relative
  | single =>
    cases text with
    | nil => simp [Root.text, splitroot]
    | cons first rest =>
      have plain : first ≠ slash := by simpa using relative
      simp [Root.text, splitroot, plain]
  | double => simp [Root.text, splitroot, relative]

/-- Reading the text of a path gives the path back. -/
theorem PurePath.parse_format (path : PurePath χ) : PurePath.parse path.format = path := by
  simp only [PurePath.parse, PurePath.format,
    splitroot_root path.root (intercalate_head_ne path.tail), components_intercalate]

/-- A text with a leading slash discards the path it is joined to. -/
theorem PurePath.joinpath_absolute (path : PurePath χ) {more : List χ}
    (absolute : more.head? = some slash) : path.joinpath more = .parse more := by
  simp only [PurePath.joinpath, posixJoin, if_pos absolute]

/-- A proper text is appended as one component. -/
theorem PurePath.joinpath_proper (path : PurePath χ) (name : Component χ) :
    path.joinpath name.val = path.child name := by
  have relative : name.val.head? ≠ some slash := fun same =>
    name.property.1 (List.mem_of_head? same)
  have joined : posixJoin path.format name.val = (path.child name).format := by
    rw [PurePath.format_child]
    by_cases bare : path.tail = []
    · have ended : path.format = [] ∨ path.format.getLast? = some slash := by
        cases root : path.root <;> simp [PurePath.format, Root.text, root, bare]
      simp [posixJoin, relative, ended, bare]
    · have closed := PurePath.format_last bare
      simp [posixJoin, relative, closed, bare]
  rw [PurePath.joinpath, joined, PurePath.parse_format]

/-- Proper texts are appended one after another. -/
theorem PurePath.foldl_joinpath (path : PurePath χ) (names : List (Component χ)) :
    (names.map Subtype.val).foldl PurePath.joinpath path = path.below names := by
  induction names generalizing path with
  | nil => exact (PurePath.below_nil path).symm
  | cons name rest inductionHypothesis =>
    rw [List.map_cons, List.foldl_cons, PurePath.joinpath_proper, inductionHypothesis]
    simp [PurePath.below, PurePath.child]

/-- The text of a relative path is appended as the path's components. -/
theorem PurePath.joinpath_format (path : PurePath χ) (names : List (Component χ)) :
    path.joinpath (PurePath.format ⟨.relative, names⟩) = path.below names := by
  have text : PurePath.format ⟨.relative, names⟩ = [slash].intercalate (names.map Subtype.val) :=
    List.nil_append _
  have relative := intercalate_head_ne names
  rw [text, PurePath.joinpath, posixJoin, if_neg relative]
  by_cases bare : path.tail = []
  · have ended : path.format = [] ∨ path.format.getLast? = some slash := by
      cases root : path.root <;> simp [PurePath.format, Root.text, root, bare]
    have joined : path.format ++ [slash].intercalate (names.map Subtype.val) =
        (path.below names).format := by
      simp [PurePath.format, PurePath.below, bare]
    rw [if_pos ended, joined, PurePath.parse_format]
  · obtain ⟨filled, closed⟩ : path.format ≠ [] ∧ path.format.getLast? ≠ some slash := by
      have closed := PurePath.format_last bare
      simpa using closed
    have shape : path.format ++ [slash] ++ [slash].intercalate (names.map Subtype.val) =
        path.root.text ++ ([slash].intercalate (path.tail.map Subtype.val) ++
          slash :: [slash].intercalate (names.map Subtype.val)) := by
      simp [PurePath.format]
    have onward : ([slash].intercalate (path.tail.map Subtype.val) ++
        slash :: [slash].intercalate (names.map Subtype.val)).head? ≠ some slash := by
      have first := intercalate_head_ne path.tail
      cases shown : [slash].intercalate (path.tail.map Subtype.val) with
      | nil =>
        have empty := components_intercalate path.tail
        rw [shown, components_nil] at empty
        exact absurd empty.symm bare
      | cons character rest =>
        rw [shown] at first
        exact first
    rw [if_neg (not_or.mpr ⟨filled, closed⟩), shape, PurePath.parse, splitroot_root _ onward,
      components_append, components_intercalate, components_intercalate]
    rfl

end Joining

end Immutavault.PosixPaths
