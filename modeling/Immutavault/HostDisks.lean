import Immutavault.HostTrees
import Immutavault.TreeWrites
import Immutavault.BrokerMessages

/-!
# Files of a host

An entry of a directory leads to a file by its number, so several entries and several
links can lead to one file. A file is written through a path: what is there is
overwritten, and where nothing is, a new file is made, unless the name cannot be encoded
as bytes.

A write through a path leaves every other file as it was, and what a path led to before
it leads to afterwards.
-/

namespace Immutavault.HostDisks

open Values PosixPaths GuestFiles LinkedTrees HostTrees
open BrokerMessages (joinSurrogates_whole)
open BrokerMessages.Wire (joinSurrogates)

/-- Points that can be encoded: all but zero, and of the surrogates those that stand for
bytes. -/
def encodes (point : CodePoint) : Bool :=
  point.val ≠ 0 ∧
    (point.val < 55296 ∨ (56448 ≤ point.val ∧ point.val < 56576) ∨ 57344 ≤ point.val)

/-- A name can be encoded as bytes. -/
def Encodable (text : Str) : Prop := text.all encodes = true

instance (text : Str) : Decidable (Encodable text) := inferInstanceAs (Decidable (_ = true))

/-- The content of a file and when it was written. -/
structure FileData where
  bytes : List UInt8
  mtime_ns : Int
  deriving DecidableEq

/-- Entries that lead to files, and the files by their numbers. -/
structure Disk where
  host : Host Nat
  files : Nat → FileData
  /-- The number of the next file. -/
  next : Nat
  fresh : ∀ place inode, host.tree.find place = some (.file inode) → inode < next
  encodable : ∀ place node, host.tree.find place = some node →
    ∀ name ∈ place, Encodable name.val

namespace Disk

/-- The file that a path leads to. -/
def inode (disk : Disk) (path : Path) : Option Nat :=
  match disk.host.node path with
  | some (.file number) => some number
  | _ => none

/-- What a path leads to, if that is a file. -/
def data (disk : Disk) (path : Path) : Option FileData := (disk.inode path).map disk.files

/-- Overwrite a file. -/
def overwrite (disk : Disk) (number : Nat) (content : FileData) : Disk :=
  { disk with files := Function.update disk.files number content }

/-- Make a file where there is none. -/
def create (disk : Disk) (place : List Name) (encodable : ∀ name ∈ place, Encodable name.val)
    (content : FileData) : Disk where
  host := { disk.host with tree := disk.host.tree.insert disk.next place }
  files := Function.update disk.files disk.next content
  next := disk.next + 1
  fresh := by
    intro other number found
    rcases find_insert_cases disk.next found with ⟨before, there, alike⟩ | ⟨_, new⟩
    · cases before with
      | file old =>
        obtain rfl : old = number := alike
        exact Nat.lt_succ_of_lt (disk.fresh other old there)
      | _ => exact alike.elim
    · cases new
      exact Nat.lt_succ_self _
  encodable := by
    intro other node found
    rcases find_insert_cases disk.next found with ⟨before, there, _⟩ | ⟨rfl, _⟩
    · exact disk.encodable other before there
    · exact encodable

/-- Write a file through a path. -/
def write (disk : Disk) (path : Path) (content : FileData) : Except Exn Disk :=
  match resolveOpen disk.host.tree 40 (disk.host.start path) (path.tail.map stepOf) with
  | none => .error ⟨.osError, "No such file or directory"⟩
  | some place =>
    match disk.host.tree.find place with
    | some (.file number) => .ok (disk.overwrite number content)
    | some _ => .error ⟨.osError, "Is a directory"⟩
    | none =>
      match disk.host.tree.find place.dropLast with
      | some (.directory ..) =>
        if encodable : ∀ name ∈ place, Encodable name.val then
          .ok (disk.create place encodable content)
        else .error ⟨.valueError, "surrogates not allowed"⟩
      | _ => .error ⟨.fileNotFoundError, "No such file or directory"⟩

/-- What a write does: one file has the content, which is the path's own or a new one,
every other file is as before, and paths lead where they led. -/
structure Written (disk : Disk) (path : Path) (content : FileData) (after : Disk) : Prop where
  written : ∃ number, after.inode path = some number ∧ after.files number = content ∧
    (∀ other ≠ number, after.files other = disk.files other) ∧
    (∀ other, disk.inode other = some number → disk.inode path = some number)
  stays : ∀ other number, disk.inode other = some number → after.inode other = some number

theorem inode_eq_some {disk : Disk} {path : Path} {number : Nat} :
    disk.inode path = some number ↔ disk.host.node path = some (.file number) := by
  unfold inode
  split
  · rename_i other found
    rw [found]
    simp
  · rename_i none
    constructor
    · intro impossible
      cases impossible
    · exact fun found => (none number found).elim

/-- A path leads to a file of a tree that extends the first one when it did before. -/
theorem inode_extends {disk after : Disk} (directory : after.host.directory = disk.host.directory)
    (extended : Extends disk.host.tree after.host.tree) {path : Path} {number : Nat}
    (found : disk.inode path = some number) : after.inode path = some number := by
  obtain ⟨place, reached, there⟩ := Option.bind_eq_some_iff.mp (inode_eq_some.mp found)
  have later : after.host.realPath path = some place := by
    rw [Host.realPath, Host.start, directory]
    exact resolve_extends extended reached
  exact inode_eq_some.mpr (Option.bind_eq_some_iff.mpr ⟨place, later, extended.file there⟩)

/-- A file's number is not the next one. -/
theorem inode_ne_next {disk : Disk} {path : Path} {number : Nat}
    (found : disk.inode path = some number) : number ≠ disk.next := by
  obtain ⟨place, _, there⟩ := Option.bind_eq_some_iff.mp (inode_eq_some.mp found)
  exact Nat.ne_of_lt (disk.fresh place number there)

/-- A path that was opened for writing leads to the file that is there afterwards. -/
theorem inode_opened {disk after : Disk} (directory : after.host.directory = disk.host.directory)
    (extended : Extends disk.host.tree after.host.tree) {path : Path} {place : List Name}
    (opened : resolveOpen disk.host.tree 40 (disk.host.start path) (path.tail.map stepOf) =
      some place) {number : Nat} (there : after.host.tree.find place = some (.file number)) :
    after.inode path = some number := by
  have reached : after.host.realPath path = some place := by
    rw [Host.realPath, Host.start, directory]
    exact resolve_of_resolveOpen extended there opened
  exact inode_eq_some.mpr (Option.bind_eq_some_iff.mpr ⟨place, reached, there⟩)

theorem written_of_write {disk after : Disk} {path : Path} {content : FileData}
    (wrote : disk.write path content = .ok after) : Written disk path content after := by
  unfold write at wrote
  split at wrote
  · cases wrote
  · rename_i place opened
    split at wrote
    · rename_i number found
      cases wrote
      have own : disk.inode path = some number :=
        inode_opened rfl (Extends.refl _) opened found
      exact ⟨⟨number, own, Function.update_self ..,
        fun other apart => Function.update_of_ne apart .., fun _ _ => own⟩, fun _ _ there => there⟩
    · cases wrote
    · rename_i absent
      split at wrote
      · rename_i names child above
        split at wrote
        · rename_i encodable
          cases wrote
          have there : (disk.create place encodable content).host.tree.find place =
              some (.file disk.next) := by
            have filled : place ≠ [] := by
              rintro rfl
              rw [Node.find_nil] at absent
              cases absent
            have created := find_insert_self disk.next above (place.getLast filled)
            rwa [List.dropLast_concat_getLast filled] at created
          have extended : Extends disk.host.tree (disk.create place encodable content).host.tree :=
            extends_insert disk.next absent
          have directory : (disk.create place encodable content).host.directory =
            disk.host.directory := rfl
          refine ⟨⟨disk.next, inode_opened directory extended opened there,
            Function.update_self .., fun other apart => Function.update_of_ne apart .., ?_⟩,
            fun other number found => inode_extends directory extended found⟩
          exact fun other found => absurd rfl (inode_ne_next found)
        · cases wrote
      · cases wrote

/-- What stands in a directory that has no further directory below it. -/
def Shallow (next : Nat) : Node Name Nat → Prop
  | .file number => number < next
  | .symlink _ => True
  | .directory .. => False

/-- A disk with one directory. -/
def flat (names : List Name) (child : Name → Node Name Nat) (files : Nat → FileData) (next : Nat)
    (shallow : ∀ name ∈ names, Shallow next (child name))
    (encodable : ∀ name ∈ names, Encodable name.val) : Disk where
  host := ⟨.directory names child, []⟩
  files := files
  next := next
  fresh := by
    intro place number found
    cases place with
    | nil => cases found
    | cons name rest =>
      simp only [Node.find] at found
      split at found
      · rename_i member
        have known := shallow name member
        cases kind : child name with
        | file other =>
          rw [kind] at found known
          cases rest with
          | nil =>
            cases found
            exact known
          | cons _ _ => cases found
        | symlink target =>
          rw [kind] at found
          cases rest <;> cases found
        | directory more below =>
          rw [kind] at known
          exact known.elim
      · cases found
  encodable := by
    intro place node found
    cases place with
    | nil => exact fun _ impossible => nomatch impossible
    | cons name rest =>
      simp only [Node.find] at found
      split at found
      · rename_i member
        have known := shallow name member
        cases rest with
        | nil => exact fun other within => List.mem_singleton.mp within ▸ encodable name member
        | cons second further =>
          cases kind : child name with
          | directory more below =>
            rw [kind] at known
            exact known.elim
          | _ =>
            rw [kind] at found
            cases found
      · cases found

end Disk

/-- Halves of characters do not stand side by side in what can be encoded. -/
theorem Encodable.joined {text : Str} (encodable : Encodable text) :
    joinSurrogates text = text := by
  refine joinSurrogates_whole fun point member => ?_
  have known := List.all_eq_true.mp encodable point member
  simp only [encodes, decide_eq_true_eq] at known
  omega

end Immutavault.HostDisks
