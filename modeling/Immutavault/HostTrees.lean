import Immutavault.GuestFiles
import Immutavault.LinkedTrees

/-!
# Paths of a host with symbolic links

The file system of a host is a tree with links, read through paths that may contain
two dots. The real path of a path is the place to which it resolves; as on the hosts
that the program runs on, resolving follows forty links at most. A relative path
starts from the current directory, and both roots that a path may have are the top.

One path lies inside another when its real path lies below the other's. This is not a
relation between texts: a path that only appends names to another leaves it through a
link. Where there is no link it stays.
-/

namespace Immutavault.HostTrees

open PosixPaths GuestFiles LinkedTrees

/-- What an entry of a directory may be called. -/
abbrev Name := {text : Str // Proper text ∧ text ≠ str ".."}

instance : LawfulBEq Name := inferInstance

/-- A name as the component of a path. -/
def Name.component (name : Name) : Component CodePoint := ⟨name.val, name.property.1⟩

theorem Name.component_injective : Function.Injective Name.component :=
  fun _ _ same => Subtype.ext (congrArg (fun part : Component CodePoint => part.val) same)

/-- Components that do not go up are names. -/
theorem exists_names {components : List (Component CodePoint)}
    (descending : ∀ component ∈ components, component.val ≠ str "..") :
    ∃ names : List Name, components = names.map Name.component := by
  induction components with
  | nil => exact ⟨[], rfl⟩
  | cons component rest inductionHypothesis =>
    obtain ⟨names, rfl⟩ := inductionHypothesis fun other member =>
      descending other (List.mem_cons_of_mem _ member)
    exact ⟨⟨component.val, component.property, descending component List.mem_cons_self⟩ :: names,
      rfl⟩

/-- A component of a path as a step. -/
def stepOf (component : Component CodePoint) : Step Name :=
  if up : component.val = str ".." then .up else .enter ⟨component.val, component.property, up⟩

@[simp] theorem stepOf_component (name : Name) : stepOf name.component = .enter name :=
  dif_neg name.property.2

/-- The target of a link that holds a path. -/
def targetOf (path : Path) : Target Name := ⟨path.root ≠ .relative, path.tail.map stepOf⟩

/-- A file system, and the directory from which relative paths start. -/
structure Host (κ : Type) where
  tree : Node Name κ
  directory : List Name := []

namespace Host

variable {κ : Type} (host : Host κ)

/-- Where a path starts. -/
def start (path : Path) : List Name := if path.root = .relative then host.directory else []

/-- The place that a path leads to. -/
def realPath (path : Path) : Option (List Name) :=
  resolve host.tree 40 (host.start path) (path.tail.map stepOf)

/-- What a path leads to. -/
def node (path : Path) : Option (Node Name κ) := (host.realPath path).bind host.tree.find

/-- Every name of a path that resolves is there. -/
def present (path : Path) : Bool := (host.realPath path).isSome

def isFile (path : Path) : Bool :=
  match host.node path with
  | some (.file _) => true
  | _ => false

/-- The real path of a path lies below the real path of a directory. -/
def Inside (directory path : Path) : Prop :=
  ∃ top place, host.realPath directory = some top ∧ host.realPath path = some place ∧ top <+: place

instance (directory path : Path) : Decidable (host.Inside directory path) :=
  match directoryAt : host.realPath directory, pathAt : host.realPath path with
  | some top, some place =>
    if within : top <+: place then isTrue ⟨top, place, directoryAt, pathAt, within⟩
    else isFalse (by
      rintro ⟨_, _, first, second, below⟩
      rw [directoryAt] at first
      rw [pathAt] at second
      cases first
      cases second
      exact within below)
  | none, _ => isFalse (by
      rintro ⟨_, _, first, _⟩
      rw [directoryAt] at first
      cases first)
  | some _, none => isFalse (by
      rintro ⟨_, _, _, second, _⟩
      rw [pathAt] at second
      cases second)

variable {host}

/-- A file has a real path. -/
theorem present_of_isFile {path : Path} (file : host.isFile path = true) :
    host.present path = true := by
  unfold isFile at file
  split at file
  · rename_i found
    obtain ⟨place, reached, _⟩ := Option.bind_eq_some_iff.mp found
    simp [present, reached]
  · cases file

/-- The real path of what stands below a path goes on from that path's own. -/
theorem realPath_below {directory : Path} {names : List (Component CodePoint)} {place : List Name}
    (reached : host.realPath (directory.below names) = some place) :
    ∃ top, host.realPath directory = some top ∧
      ∃ left, resolve host.tree left top (names.map stepOf) = some place := by
  have steps : (directory.below names).tail.map stepOf =
      directory.tail.map stepOf ++ names.map stepOf := List.map_append ..
  rw [realPath, steps] at reached
  obtain ⟨top, first, left, _, second⟩ := resolve_append reached
  exact ⟨top, first, left, second⟩

/-- What is there below a directory is there with the directory. -/
theorem present_of_below {directory : Path} {names : List (Component CodePoint)}
    (present : host.present (directory.below names) = true) : host.present directory = true := by
  obtain ⟨place, reached⟩ := Option.isSome_iff_exists.mp present
  obtain ⟨top, above, _⟩ := realPath_below reached
  simp [Host.present, above]

/-- Below a directory without links, what is reached by names lies inside. -/
theorem inside_below {directory : Path} {names : List Name}
    (free : ∀ node, host.node directory = some node → node.LinkFree)
    (present : host.present (directory.below (names.map Name.component)) = true) :
    host.Inside directory (directory.below (names.map Name.component)) := by
  obtain ⟨place, reached⟩ := Option.isSome_iff_exists.mp present
  obtain ⟨top, above, left, onward⟩ := realPath_below reached
  have plain : (names.map Name.component).map stepOf = names.map .enter := by
    simp only [List.map_map]
    exact List.map_congr_left fun name _ => stepOf_component name
  rw [plain] at onward
  have ends : place = top ++ names := by
    refine resolve_linkFree (fun stands found => free stands ?_) onward
    rw [node, above, Option.bind_some, found]
  exact ⟨top, place, above, reached, ends ▸ List.prefix_append _ _⟩

end Host

end Immutavault.HostTrees
