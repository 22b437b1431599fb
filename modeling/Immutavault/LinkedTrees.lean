import Mathlib.Data.List.Basic

/-!
# Trees of directories with symbolic links

A tree holds files, symbolic links and directories. A place is the list of names that
leads to a node from the top without following a link. A path is a list of steps: a
name to enter, or one step up. Resolving a path walks it from a place, and replaces a
link that it meets by the steps of the link's target, a bounded number of times.

Resolving a path of two parts resolves the first part and goes on from there with the
links that are left. Below a directory that holds no link a path leads where its names
say, which is all that containment in a directory needs.
-/

namespace Immutavault.LinkedTrees

/-- One step of a path. -/
inductive Step (ν : Type) where
  | up
  | enter (name : ν)

/-- What a link points to, from the top or from the directory that holds the link. -/
structure Target (ν : Type) where
  absolute : Bool
  steps : List (Step ν)

/-- A file with its content, a link with its target, or a directory with its names and
what stands under each. -/
inductive Node (ν κ : Type) where
  | file (content : κ)
  | symlink (target : Target ν)
  | directory (names : List ν) (child : ν → Node ν κ)

namespace Node

variable {ν κ : Type}

/-- Nothing below is a link. -/
def LinkFree : Node ν κ → Prop
  | .file _ => True
  | .symlink _ => False
  | .directory names child => ∀ name ∈ names, (child name).LinkFree

/-- Places below a directory, reached without following a link. -/
def descend : Node ν κ → List (List ν)
  | .directory names child =>
    names.flatMap fun name => [name] :: (child name).descend.map (name :: ·)
  | _ => []

variable [DecidableEq ν]

/-- The node at a place. -/
def find : Node ν κ → List ν → Option (Node ν κ)
  | node, [] => some node
  | .directory names child, name :: rest => if name ∈ names then (child name).find rest else none
  | _, _ :: _ => none

@[simp] theorem find_nil (node : Node ν κ) : node.find [] = some node := by
  cases node <;> rfl

theorem find_append (node : Node ν κ) (place further : List ν) :
    node.find (place ++ further) = (node.find place).bind (·.find further) := by
  induction place generalizing node with
  | nil => simp
  | cons name rest inductionHypothesis =>
    cases node with
    | directory names child =>
      by_cases member : name ∈ names
      · simp only [List.cons_append, find, if_pos member, inductionHypothesis]
      · simp only [List.cons_append, find, if_neg member, Option.bind_none]
    | _ => rfl

/-- The places below a node are the places other than its own where something stands. -/
theorem mem_descend {node : Node ν κ} {place : List ν} :
    place ∈ node.descend ↔ place ≠ [] ∧ ∃ there, node.find place = some there := by
  induction node generalizing place with
  | file content =>
    cases place with
    | nil => simp [descend]
    | cons name rest => simp [descend, find]
  | symlink target =>
    cases place with
    | nil => simp [descend]
    | cons name rest => simp [descend, find]
  | directory entries child inductionHypothesis =>
    cases place with
    | nil => simp [descend]
    | cons name rest =>
      by_cases member : name ∈ entries
      · have onward : (child name).find rest = (directory entries child).find (name :: rest) := by
          rw [find, if_pos member]
        have deeper := @inductionHypothesis name rest
        rw [onward] at deeper
        cases rest with
        | nil =>
          have here : (directory entries child).find [name] = some (child name) := by
            rw [← onward, find_nil]
          exact ⟨fun _ => ⟨List.cons_ne_nil _ _, child name, here⟩,
            fun _ => List.mem_flatMap.mpr ⟨name, member, List.mem_cons_self⟩⟩
        | cons second further =>
          have filled : second :: further ≠ [] := List.cons_ne_nil _ _
          simp only [descend, List.mem_flatMap, List.mem_cons, List.cons.injEq,
            List.cons_ne_nil, and_false, false_or, List.mem_map, ne_eq, not_false_eq_true,
            true_and] at deeper ⊢
          rw [← deeper]
          constructor
          · rintro ⟨other, _, tail, below, rfl, rfl⟩
            exact below
          · intro below
            exact ⟨name, member, second :: further, below, rfl, rfl⟩
      · simp only [find, if_neg member, reduceCtorEq, exists_false, and_false, iff_false]
        intro below
        obtain ⟨other, listed, here⟩ := List.mem_flatMap.mp below
        rcases List.mem_cons.mp here with same | further
        · exact member ((List.cons.inj same).1 ▸ listed)
        · obtain ⟨_, _, same⟩ := List.mem_map.mp further
          exact member ((List.cons.inj same).1 ▸ listed)

/-- What stands below a directory without links is without links. -/
theorem LinkFree.find {node found : Node ν κ} (free : node.LinkFree) {place : List ν}
    (reached : node.find place = some found) : found.LinkFree := by
  induction place generalizing node with
  | nil =>
    obtain rfl : node = found := by simpa using reached
    exact free
  | cons name rest inductionHypothesis =>
    cases node with
    | directory names child =>
      simp only [Node.find] at reached
      split at reached
      · rename_i member
        exact inductionHypothesis (free name member) reached
      · cases reached
    | _ => cases reached

end Node

section Resolving

variable {ν κ : Type} [DecidableEq ν] (tree : Node ν κ)

/-- Walk a path from a place. A link is handed on with the steps that are left; a file
ends a path. -/
def walk (follow : List ν → List (Step ν) → Option (List ν)) :
    List ν → List (Step ν) → Option (List ν)
  | place, [] => some place
  | place, .up :: rest => walk follow place.dropLast rest
  | place, .enter name :: rest =>
    match tree.find (place ++ [name]) with
    | none => none
    | some (.file _) => if rest.isEmpty then some (place ++ [name]) else none
    | some (.symlink target) => follow (if target.absolute then [] else place) (target.steps ++ rest)
    | some (.directory ..) => walk follow (place ++ [name]) rest

/-- The place that a path leads to, if it follows no more links than are given. -/
def resolve : Nat → List ν → List (Step ν) → Option (List ν)
  | 0 => walk tree fun _ _ => none
  | links + 1 => walk tree (resolve links)

@[simp] theorem resolve_nil (links : Nat) (place : List ν) :
    resolve tree links place [] = some place := by
  cases links <;> rfl

variable {tree}

/-- A walk of two parts is a walk of the first part and a walk from there, when this is
so behind every link. -/
theorem walk_append {follow : List ν → List (Step ν) → Option (List ν)} {further : List (Step ν)}
    {final : List ν} {Onward : List ν → Prop}
    (ends : ∀ place, walk tree follow place further = some final → Onward place)
    (behind : ∀ place steps, follow place (steps ++ further) = some final →
      ∃ base, follow place steps = some base ∧ Onward base)
    {place : List ν} {steps : List (Step ν)}
    (reached : walk tree follow place (steps ++ further) = some final) :
    ∃ base, walk tree follow place steps = some base ∧ Onward base := by
  induction steps generalizing place with
  | nil => exact ⟨place, rfl, ends place reached⟩
  | cons step rest inductionHypothesis =>
    cases step with
    | up => exact inductionHypothesis reached
    | enter name =>
      simp only [List.cons_append, walk] at reached ⊢
      split at reached
      · cases reached
      · rename_i content found
        split at reached
        · rename_i empty
          obtain ⟨rfl, rfl⟩ := List.append_eq_nil_iff.mp (List.isEmpty_iff.mp empty)
          refine ⟨place ++ [name], rfl, ends _ ?_⟩
          simpa [walk] using reached
        · cases reached
      · rename_i target found
        rw [← List.append_assoc] at reached
        exact behind _ _ reached
      · exact inductionHypothesis reached

/-- A path of two parts leads where the second part leads from where the first part
does, with no more links than the whole may follow. -/
theorem resolve_append {links : Nat} {place final : List ν} {steps further : List (Step ν)}
    (reached : resolve tree links place (steps ++ further) = some final) :
    ∃ base, resolve tree links place steps = some base ∧
      ∃ left ≤ links, resolve tree left base further = some final := by
  induction links generalizing place steps with
  | zero =>
    refine walk_append (fun base onward => ⟨0, Nat.le_refl 0, onward⟩) ?_ reached
    intro _ _ followed
    cases followed
  | succ links inductionHypothesis =>
    refine walk_append (fun base onward => ⟨links + 1, Nat.le_refl _, onward⟩) ?_ reached
    intro behind left followed
    obtain ⟨base, first, remaining, fewer, second⟩ := inductionHypothesis followed
    exact ⟨base, first, remaining, Nat.le_succ_of_le fewer, second⟩

/-- Names below a directory without links lead where they say. -/
theorem walk_linkFree {follow : List ν → List (Step ν) → Option (List ν)} {place final : List ν}
    {names : List ν} (free : ∀ node, tree.find place = some node → node.LinkFree)
    (reached : walk tree follow place (names.map .enter) = some final) : final = place ++ names := by
  induction names generalizing place with
  | nil => simpa [walk] using reached.symm
  | cons name rest inductionHypothesis =>
    have below : ∀ node, tree.find (place ++ [name]) = some node → node.LinkFree := by
      intro node found
      rw [Node.find_append] at found
      obtain ⟨parent, above, under⟩ := Option.bind_eq_some_iff.mp found
      exact (free parent above).find under
    simp only [List.map_cons, walk] at reached
    split at reached
    · cases reached
    · split at reached
      · rename_i empty
        obtain rfl : rest = [] := by simpa using empty
        exact (Option.some.inj reached).symm
      · cases reached
    · rename_i target found
      exact (below _ found).elim
    · rw [inductionHypothesis below reached, List.append_assoc]
      rfl

theorem resolve_linkFree {links : Nat} {place final : List ν} {names : List ν}
    (free : ∀ node, tree.find place = some node → node.LinkFree)
    (reached : resolve tree links place (names.map .enter) = some final) :
    final = place ++ names := by
  cases links with
  | zero => exact walk_linkFree free reached
  | succ links => exact walk_linkFree free reached

end Resolving

end Immutavault.LinkedTrees
