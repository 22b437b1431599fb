import Mathlib.Logic.Function.Basic
import Immutavault.LinkedTrees

/-!
# Opening a path of a tree for writing

A path that is opened for writing leads to a file, or to a place where there is nothing
yet. Links are followed on the way and at the end, so a link that leads nowhere can lead
to the new file.

A tree extends another one when it has everything that the other one has, and as what it
was. Paths that resolve in a tree resolve to the same places in a tree that extends it,
and a tree with a new file extends the tree without it.
-/

namespace Immutavault.LinkedTrees

section Extension

variable {ν κ : Type}

/-- Two nodes are the same file, the same link, or directories. -/
def Node.Alike : Node ν κ → Node ν κ → Prop
  | .file first, .file second => first = second
  | .symlink first, .symlink second => first = second
  | .directory .., .directory .. => True
  | _, _ => False

theorem Node.Alike.refl (node : Node ν κ) : node.Alike node := by
  cases node <;> simp [Node.Alike]

variable [DecidableEq ν]

/-- Everything in the first tree is in the second one. -/
def Extends (tree further : Node ν κ) : Prop :=
  ∀ place node, tree.find place = some node →
    ∃ later, further.find place = some later ∧ node.Alike later

theorem Extends.refl (tree : Node ν κ) : Extends tree tree :=
  fun _ node found => ⟨node, found, Node.Alike.refl node⟩

variable {tree further : Node ν κ}

theorem Extends.file (extended : Extends tree further) {place : List ν} {content : κ}
    (found : tree.find place = some (.file content)) :
    further.find place = some (.file content) := by
  obtain ⟨later, there, alike⟩ := extended place _ found
  cases later with
  | file other =>
    obtain rfl : content = other := alike
    exact there
  | _ => exact alike.elim

theorem Extends.symlink (extended : Extends tree further) {place : List ν} {target : Target ν}
    (found : tree.find place = some (.symlink target)) :
    further.find place = some (.symlink target) := by
  obtain ⟨later, there, alike⟩ := extended place _ found
  cases later with
  | symlink other =>
    obtain rfl : target = other := alike
    exact there
  | _ => exact alike.elim

theorem Extends.directory (extended : Extends tree further) {place names : List ν}
    {child : ν → Node ν κ} (found : tree.find place = some (.directory names child)) :
    ∃ more below, further.find place = some (.directory more below) := by
  obtain ⟨later, there, alike⟩ := extended place _ found
  cases later with
  | directory more below => exact ⟨more, below, there⟩
  | _ => exact alike.elim

/-- A walk is the same in a tree that extends the first one, when this is so behind
every link. -/
theorem walk_extends (extended : Extends tree further)
    {follow after : List ν → List (Step ν) → Option (List ν)}
    (behind : ∀ place steps final, follow place steps = some final → after place steps = some final)
    {place final : List ν} {steps : List (Step ν)}
    (reached : walk tree follow place steps = some final) :
    walk further after place steps = some final := by
  induction steps generalizing place with
  | nil => exact reached
  | cons step rest inductionHypothesis =>
    cases step with
    | up => exact inductionHypothesis reached
    | enter name =>
      simp only [walk] at reached
      split at reached
      · cases reached
      · rename_i content found
        simp only [walk, extended.file found]
        exact reached
      · rename_i target found
        simp only [walk, extended.symlink found]
        exact behind _ _ _ reached
      · rename_i names child found
        obtain ⟨more, below, there⟩ := extended.directory found
        simp only [walk, there]
        exact inductionHypothesis reached

/-- What resolves in a tree resolves to the same place in a tree that extends it. -/
theorem resolve_extends (extended : Extends tree further) {links : Nat} {place final : List ν}
    {steps : List (Step ν)} (reached : resolve tree links place steps = some final) :
    resolve further links place steps = some final := by
  induction links generalizing place steps final with
  | zero => exact walk_extends extended (fun _ _ _ impossible => by cases impossible) reached
  | succ links inductionHypothesis =>
    exact walk_extends extended (fun _ _ _ followed => inductionHypothesis followed) reached

end Extension

section Opening

variable {ν κ : Type} [DecidableEq ν] (tree : Node ν κ)

/-- Walk a path that is opened for writing: its last name may be new. -/
def walkOpen (follow : List ν → List (Step ν) → Option (List ν)) :
    List ν → List (Step ν) → Option (List ν)
  | place, [] => some place
  | place, .up :: rest => walkOpen follow place.dropLast rest
  | place, .enter name :: rest =>
    match tree.find (place ++ [name]) with
    | none => if rest.isEmpty then some (place ++ [name]) else none
    | some (.file _) => if rest.isEmpty then some (place ++ [name]) else none
    | some (.symlink target) =>
      follow (if target.absolute then [] else place) (target.steps ++ rest)
    | some (.directory ..) => walkOpen follow (place ++ [name]) rest

/-- The place that a path leads to when it is opened for writing. -/
def resolveOpen : Nat → List ν → List (Step ν) → Option (List ν)
  | 0 => walkOpen tree fun _ _ => none
  | links + 1 => walkOpen tree (resolveOpen links)

variable {tree} {further : Node ν κ}

/-- A walk to a file that is opened for writing leads there once the file is there. -/
theorem walk_of_walkOpen (extended : Extends tree further) {final : List ν} {content : κ}
    (there : further.find final = some (.file content))
    {follow after : List ν → List (Step ν) → Option (List ν)}
    (behind : ∀ place steps, follow place steps = some final → after place steps = some final)
    {place : List ν} {steps : List (Step ν)}
    (reached : walkOpen tree follow place steps = some final) :
    walk further after place steps = some final := by
  induction steps generalizing place with
  | nil => exact reached
  | cons step rest inductionHypothesis =>
    cases step with
    | up => exact inductionHypothesis reached
    | enter name =>
      simp only [walkOpen] at reached
      split at reached
      · split at reached
        · rename_i last
          obtain rfl : place ++ [name] = final := Option.some.inj reached
          simp only [walk, there, if_pos last]
        · cases reached
      · rename_i content found
        simp only [walk, extended.file found]
        exact reached
      · rename_i target found
        simp only [walk, extended.symlink found]
        exact behind _ _ reached
      · rename_i names child found
        obtain ⟨more, below, later⟩ := extended.directory found
        simp only [walk, later]
        exact inductionHypothesis reached

theorem resolve_of_resolveOpen (extended : Extends tree further) {final : List ν} {content : κ}
    (there : further.find final = some (.file content)) {links : Nat} {place : List ν}
    {steps : List (Step ν)} (reached : resolveOpen tree links place steps = some final) :
    resolve further links place steps = some final := by
  induction links generalizing place steps with
  | zero =>
    exact walk_of_walkOpen extended there (fun _ _ impossible => by cases impossible) reached
  | succ links inductionHypothesis =>
    exact walk_of_walkOpen extended there (fun _ _ followed => inductionHypothesis followed) reached

end Opening

section Insertion

variable {ν κ : Type} [DecidableEq ν]

/-- A tree with a file at a place whose directory is there. -/
def Node.insert (content : κ) : Node ν κ → List ν → Node ν κ
  | .directory names child, [name] =>
    .directory (if name ∈ names then names else names ++ [name])
      (Function.update child name (.file content))
  | .directory names child, name :: rest =>
    .directory names (Function.update child name ((child name).insert content rest))
  | node, _ => node

/-- A new file is where it was put. -/
theorem find_insert_self (content : κ) {tree : Node ν κ} {parent names : List ν}
    {child : ν → Node ν κ} (above : tree.find parent = some (.directory names child)) (name : ν) :
    (tree.insert content (parent ++ [name])).find (parent ++ [name]) = some (.file content) := by
  induction parent generalizing tree with
  | nil =>
    obtain rfl : tree = .directory names child := by simpa using above
    by_cases member : name ∈ names <;> simp [Node.insert, Node.find, member]
  | cons first rest inductionHypothesis =>
    cases tree with
    | directory outer below =>
      simp only [Node.find] at above
      split at above
      · rename_i member
        obtain ⟨second, others, shape⟩ : ∃ second others, rest ++ [name] = second :: others :=
          List.exists_cons_of_ne_nil (by simp)
        have later := inductionHypothesis above
        rw [shape] at later
        rw [List.cons_append, shape, Node.insert, Node.find, if_pos member,
          Function.update_self]
        · exact later
        · simp
      · cases above
    | _ => cases above

/-- A node below a directory whose one child is replaced. -/
theorem find_update {names : List ν} {child : ν → Node ν κ} {name first : ν} {node : Node ν κ}
    {rest : List ν} :
    (Node.directory names (Function.update child name node)).find (first :: rest) =
      if first ∈ names then (if first = name then node else child first).find rest else none := by
  by_cases same : first = name
  · subst same
    simp [Node.find]
  · simp [Node.find, same]

/-- What a tree has once a file was put into it is what it had, or the file. -/
theorem find_insert_cases (content : κ) {tree : Node ν κ} {new place : List ν} {node : Node ν κ}
    (found : (tree.insert content new).find place = some node) :
    (∃ before, tree.find place = some before ∧ before.Alike node) ∨
      (place = new ∧ node = .file content) := by
  induction new generalizing tree place with
  | nil =>
    have same : tree.insert content [] = tree := by cases tree <;> rfl
    rw [same] at found
    exact Or.inl ⟨node, found, Node.Alike.refl node⟩
  | cons name rest inductionHypothesis =>
    cases tree with
    | directory names child =>
      cases place with
      | nil =>
        refine Or.inl ⟨.directory names child, rfl, ?_⟩
        have kind : ∃ more below, (Node.directory names child).insert content (name :: rest) =
            .directory more below := by
          cases rest <;> exact ⟨_, _, rfl⟩
        obtain ⟨more, below, shape⟩ := kind
        rw [shape, Node.find_nil] at found
        cases found
        trivial
      | cons first others =>
        cases rest with
        | nil =>
          rw [Node.insert, find_update] at found
          have inside : first ∈ if name ∈ names then names else names ++ [name] := by
            by_contra outside
            rw [if_neg outside] at found
            cases found
          rw [if_pos inside] at found
          by_cases same : first = name
          · subst same
            rw [if_pos rfl] at found
            cases others with
            | nil =>
              cases found
              exact Or.inr ⟨rfl, rfl⟩
            | cons _ _ => cases found
          · rw [if_neg same] at found
            have old : first ∈ names := by
              split at inside
              · exact inside
              · simpa [same] using inside
            refine Or.inl ⟨node, ?_, Node.Alike.refl node⟩
            rw [Node.find, if_pos old]
            exact found
        | cons second rest =>
          rw [Node.insert, find_update] at found
          · split at found
            · rename_i member
              split at found
              · rename_i same
                subst same
                rcases inductionHypothesis found with ⟨before, there, alike⟩ | ⟨rfl, new⟩
                · refine Or.inl ⟨before, ?_, alike⟩
                  rw [Node.find, if_pos member]
                  exact there
                · exact Or.inr ⟨rfl, new⟩
              · refine Or.inl ⟨node, ?_, Node.Alike.refl node⟩
                rw [Node.find, if_pos member]
                exact found
            · cases found
          · simp
    | _ => exact Or.inl ⟨node, found, Node.Alike.refl node⟩

/-- A tree with a new file extends the tree without it. -/
theorem extends_insert (content : κ) {tree : Node ν κ} {new : List ν}
    (absent : tree.find new = none) : Extends tree (tree.insert content new) := by
  intro place node found
  induction new generalizing tree place with
  | nil =>
    rw [Node.find_nil] at absent
    cases absent
  | cons name rest inductionHypothesis =>
    cases tree with
    | directory names child =>
      cases place with
      | nil =>
        rw [Node.find_nil] at found
        cases found
        cases rest <;> exact ⟨_, rfl, trivial⟩
      | cons first others =>
        rw [Node.find] at found
        split at found
        · rename_i member
          cases rest with
          | nil =>
            have other : first ≠ name := by
              rintro rfl
              simp [Node.find, member] at absent
            refine ⟨node, ?_, Node.Alike.refl node⟩
            rw [Node.insert, find_update, if_pos, if_neg other]
            · exact found
            · split
              · exact member
              · exact List.mem_append_left _ member
          | cons second rest =>
            rw [Node.insert, find_update, if_pos member]
            · by_cases same : first = name
              · subst same
                rw [Node.find, if_pos member] at absent
                rw [if_pos rfl]
                exact inductionHypothesis absent others found
              · rw [if_neg same]
                exact ⟨node, found, Node.Alike.refl node⟩
            · simp
        · cases found
    | _ => exact ⟨node, found, Node.Alike.refl node⟩

end Insertion

end Immutavault.LinkedTrees
