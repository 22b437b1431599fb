import Mathlib.Data.List.Sort
import Mathlib.Data.List.TakeWhile
import Immutavault.GlobPatterns
import Immutavault.Timestamps
import Immutavault.Values

/-!
# Backups of the state database

A backup of the state database is a file whose name has the time in it. Behind writing it, all
backups of the directory are ordered by the time at which they were modified, the latest first,
and only the first ones are kept. The order says nothing about which of them was written now:
files that were modified later, or at the same time and are listed earlier, stand in front of
it. It is kept exactly when these are fewer than the files that are kept.

Times of modification are of any linear order, and the directory is listed in any order.
-/

namespace Immutavault.StateBackups

open Values Timestamps GlobPatterns

section Rotation

variable {τ : Type} [LinearOrder τ]

/-- A file of the directory, with the time at which it was modified. -/
structure File (τ : Type) where
  name : String
  modified : τ

def isBackup (file : File τ) : Bool := fnmatch file.name "state-*.db"

/-- How a directory is listed. -/
structure Listing (τ : Type) where
  scan : List (File τ) → List (File τ)
  complete : ∀ files, (scan files).Perm files

/-- Write a file; one of its name is written again. -/
def write (name : String) (modified : τ) (files : List (File τ)) : List (File τ) :=
  ⟨name, modified⟩ :: files.filter (·.name ≠ name)

/-- One file stands before another one, the latest first. -/
def later (one other : File τ) : Prop := other.modified ≤ one.modified

instance : DecidableRel (later : File τ → File τ → Prop) :=
  fun one other => inferInstanceAs (Decidable (other.modified ≤ one.modified))

/-- The files in their order. Files of the same time stay as they are listed. -/
def byTime (files : List (File τ)) : List (File τ) := files.insertionSort later

/-- The name of a backup. -/
def backupName (now : Timestamp) : String := "state-" ++ stamp now ++ ".db"

/-- Back up the database and remove what is not kept: the name of the backup, and the files
that are left. -/
def backupDatabase (listing : Listing τ) (now : Timestamp) (modified : τ) (keep : Int)
    (files : List (File τ)) : Except Exn (String × List (File τ)) :=
  if keep < 1 then .error ⟨.valueError, "state backup keep must be >= 1"⟩
  else
    let destination := backupName now
    let files := write destination modified files
    let backups := byTime ((listing.scan files).filter isBackup)
    let removed := (backups.drop keep.toNat).map (·.name)
    .ok (destination, files.filter (·.name ∉ removed))

theorem later_trans {first second third : File τ} (one : later first second)
    (other : later second third) : later first third := le_trans other one

instance : IsTrans (File τ) later := ⟨fun _ _ _ => later_trans⟩

instance : Std.Total (later : File τ → File τ → Prop) :=
  ⟨fun one other => le_total other.modified one.modified⟩

/-- A new file is put in front of the files that are not later. -/
theorem takeWhile_byTime (fresh : File τ) (files : List (File τ)) :
    ((byTime files).takeWhile fun file => ¬ later fresh file).length =
      files.countP fun file => fresh.modified < file.modified := by
  have sorted : (byTime files).Pairwise later := List.pairwise_insertionSort later files
  have count : files.countP (fun file => fresh.modified < file.modified) =
      (byTime files).countP fun file => fresh.modified < file.modified :=
    ((List.perm_insertionSort later files).countP_eq _).symm
  rw [count]
  clear count
  generalize byTime files = ordered at sorted
  induction ordered with
  | nil => rfl
  | cons first rest inductionHypothesis =>
    obtain ⟨own, others⟩ := List.pairwise_cons.mp sorted
    by_cases front : fresh.modified < first.modified
    · rw [List.takeWhile_cons_of_pos (by simpa [later] using front), List.length_cons,
        inductionHypothesis others, List.countP_cons_of_pos (by simpa using front)]
    · have none : ∀ file ∈ rest, ¬ fresh.modified < file.modified := fun file member ahead =>
        front (lt_of_lt_of_le ahead (own file member))
      rw [List.takeWhile_cons_of_neg (by simpa [later] using front),
        List.countP_cons_of_neg (by simpa using front)]
      exact (List.countP_eq_zero.mpr fun file member => by simpa using none file member).symm

/-- A file that is not earlier than another one is put in front of it. -/
theorem orderedInsert_ahead {first fresh : File τ} (ahead : later first fresh)
    {front : List (File τ)} (back : List (File τ)) (all : ∀ file ∈ front, later file fresh) :
    ∃ more, (front ++ fresh :: back).orderedInsert later first = more ++ fresh :: back ∧
      (∀ file ∈ more, later file fresh) ∧ more.length = front.length + 1 := by
  induction front with
  | nil =>
    refine ⟨[first], List.orderedInsert_cons_of_le later back ahead, ?_, rfl⟩
    exact List.forall_mem_singleton.mpr ahead
  | cons next front inductionHypothesis =>
    obtain ⟨own, others⟩ := List.forall_mem_cons.mp all
    by_cases begins : later first next
    · exact ⟨first :: next :: front, List.orderedInsert_cons_of_le later _ begins,
        List.forall_mem_cons.mpr ⟨ahead, all⟩, rfl⟩
    · obtain ⟨more, inserted, every, length⟩ := inductionHypothesis others
      refine ⟨next :: more, ?_, List.forall_mem_cons.mpr ⟨own, every⟩, by simp [length]⟩
      rw [List.cons_append, List.orderedInsert_of_not_le later _ begins, inserted]
      rfl

/-- One that is earlier is put behind it. -/
theorem orderedInsert_behind {first fresh : File τ} (behind : ¬ later first fresh)
    {front : List (File τ)} (back : List (File τ)) (all : ∀ file ∈ front, later file fresh) :
    (front ++ fresh :: back).orderedInsert later first =
      front ++ fresh :: back.orderedInsert later first := by
  induction front with
  | nil => exact List.orderedInsert_of_not_le later back behind
  | cons next front inductionHypothesis =>
    obtain ⟨own, others⟩ := List.forall_mem_cons.mp all
    have passes : ¬ later first next := fun begins => behind (later_trans begins own)
    rw [List.cons_append, List.orderedInsert_of_not_le later _ passes, inductionHypothesis others]
    rfl

/-- How many files stand in front of one: those listed before it that are not earlier, and those
listed behind it that are later. -/
theorem byTime_around (fresh : File τ) (before after : List (File τ)) :
    ∃ front back, byTime (before ++ fresh :: after) = front ++ fresh :: back ∧
      (∀ file ∈ front, later file fresh) ∧
      front.length = before.countP (fun file => fresh.modified ≤ file.modified) +
        after.countP fun file => fresh.modified < file.modified := by
  induction before with
  | nil =>
    refine ⟨(byTime after).takeWhile fun file => ¬ later fresh file,
      (byTime after).dropWhile fun file => ¬ later fresh file,
      List.insertionSort_cons_eq_take_drop later fresh after, ?_, ?_⟩
    · intro file member
      have ahead := List.all_eq_true.mp List.all_takeWhile file member
      exact le_of_lt (by simpa [later] using ahead)
    · rw [takeWhile_byTime, List.countP_nil, Nat.zero_add]
  | cons first before inductionHypothesis =>
    obtain ⟨front, back, sorted, all, count⟩ := inductionHypothesis
    have inserts : byTime (first :: before ++ fresh :: after) =
        (front ++ fresh :: back).orderedInsert later first := by
      rw [← sorted]
      rfl
    by_cases ahead : later first fresh
    · obtain ⟨more, inserted, every, length⟩ := orderedInsert_ahead ahead back all
      refine ⟨more, back, inserts.trans inserted, every, ?_⟩
      rw [List.countP_cons_of_pos (by simpa [later] using ahead)]
      omega
    · refine ⟨front, _, inserts.trans (orderedInsert_behind ahead back all), all, ?_⟩
      rw [List.countP_cons_of_neg (by simpa [later] using ahead)]
      exact count

/-- The name of a backup is one. -/
theorem isBackup_backupName (now : Timestamp) (modified : τ) :
    isBackup ⟨backupName now, modified⟩ = true := by
  have parts : translate "state-*.db".toList =
      "state-".toList.map .literal ++ .star :: ".db".toList.map .literal := by decide
  have text : (backupName now).toList = "state-".toList ++ (stamp now).toList ++ ".db".toList := by
    rw [backupName, String.toList_append, String.toList_append]
  rw [isBackup, fnmatch, parts, text]
  exact matchParts_around _ _ _

/-- The backups that are listed behind writing one. -/
def listed (listing : Listing τ) (name : String) (modified : τ) (files : List (File τ)) :
    List (File τ) :=
  (listing.scan (write name modified files)).filter isBackup

/-- How many backups are ordered in front of the new one. -/
def inFront (listing : Listing τ) (name : String) (modified : τ) (files : List (File τ)) : Nat :=
  ((listed listing name modified files).takeWhile (·.name ≠ name)).countP
      (fun file => modified ≤ file.modified) +
    ((listed listing name modified files).dropWhile (·.name ≠ name)).countP
      fun file => modified < file.modified

variable {listing : Listing τ} {name : String} {modified : τ} {files : List (File τ)}

theorem isBackup_of_name {file other : File τ} (called : file.name = other.name) :
    isBackup file = isBackup other := by
  rw [isBackup, isBackup, called]

theorem mem_listed {file : File τ} : file ∈ listed listing name modified files ↔
    file ∈ write name modified files ∧ isBackup file = true := by
  rw [listed, List.mem_filter, (listing.complete _).mem_iff]

/-- Only the file that was written has its name. -/
theorem eq_of_name {file : File τ} (member : file ∈ write name modified files)
    (called : file.name = name) : file = ⟨name, modified⟩ := by
  rcases List.mem_cons.mp member with same | other
  · exact same
  · exact absurd called (by simpa using (List.mem_filter.mp other).2)

/-- The new backup among the others, and how many of them are ordered in front of it. -/
theorem ordered_around (backup : isBackup (⟨name, modified⟩ : File τ) = true) :
    ∃ front back, byTime (listed listing name modified files) =
        front ++ ⟨name, modified⟩ :: back ∧
      front.length = inFront listing name modified files := by
  have member : (⟨name, modified⟩ : File τ) ∈ listed listing name modified files :=
    mem_listed.mpr ⟨List.mem_cons_self, backup⟩
  have reached : ((listed listing name modified files).dropWhile (·.name ≠ name)) ≠ [] := by
    intro none
    have all := List.dropWhile_eq_nil_iff.mp none
    simpa using all _ member
  obtain ⟨first, after, rest⟩ := List.exists_cons_of_ne_nil reached
  have called : first.name = name := by
    have head := List.head_dropWhile_not (fun file : File τ => decide (file.name ≠ name)) reached
    simpa only [rest, List.head_cons, decide_eq_false_iff_not, not_not] using head
  have inside : first ∈ listed listing name modified files :=
    (List.dropWhile_suffix _).subset (by rw [rest]; exact List.mem_cons_self)
  obtain rfl := eq_of_name (mem_listed.mp inside).1 called
  have whole := List.takeWhile_append_dropWhile
    (p := fun file : File τ => decide (file.name ≠ name))
    (l := listed listing name modified files)
  rw [rest] at whole
  obtain ⟨front, back, sorted, _, count⟩ := byTime_around ⟨name, modified⟩
    ((listed listing name modified files).takeWhile (·.name ≠ name)) after
  rw [whole] at sorted
  refine ⟨front, back, sorted, ?_⟩
  rw [count, inFront, rest, List.countP_cons_of_neg (by simp)]

/-- The backup is there, no more than these are, and nothing else has been removed. -/
def Survives (keep : Int) (files : List (File τ)) (outcome : Except Exn (String × List (File τ))) :
    Prop :=
  ∃ path rest, outcome = .ok (path, rest) ∧ (∃ file ∈ rest, file.name = path) ∧
    ((rest.filter isBackup).length : Int) ≤ keep ∧
    ∀ file ∈ files, isBackup file = false → file ∈ rest

/-- The new backup is among those that are removed when too many are in front of it. -/
theorem mem_removed_iff (backup : isBackup (⟨name, modified⟩ : File τ) = true) (keep : Nat) :
    name ∈ ((byTime (listed listing name modified files)).drop keep).map (·.name) ↔
      keep ≤ inFront listing name modified files := by
  obtain ⟨front, back, sorted, count⟩ := @ordered_around _ _ listing name modified files backup
  have once : (byTime (listed listing name modified files)).countP (·.name = name) = 1 := by
    have scanned : (listed listing name modified files).Perm
        ((write name modified files).filter isBackup) := (listing.complete _).filter _
    rw [byTime, (List.perm_insertionSort later _).countP_eq, scanned.countP_eq, List.countP_filter,
      write, List.countP_cons_of_pos (by simp [backup]), List.countP_eq_zero.mpr]
    intro file member
    have other := (List.mem_filter.mp member).2
    simp only [decide_eq_true_eq] at other
    simp [other]
  rw [sorted, List.countP_append, List.countP_cons_of_pos (by simp)] at once
  have behind : ∀ file ∈ back, file.name ≠ name := by
    have none : back.countP (·.name = name) = 0 := by omega
    simpa using List.countP_eq_zero.mp none
  rw [sorted, ← count]
  constructor
  · intro removed
    by_contra few
    obtain ⟨more, rfl⟩ : ∃ more, keep = front.length + (more + 1) :=
      ⟨keep - front.length - 1, by omega⟩
    rw [List.drop_append, List.drop_eq_nil_of_le (by omega), List.nil_append,
      Nat.add_sub_cancel_left, List.drop_succ_cons] at removed
    obtain ⟨file, member, called⟩ := List.mem_map.mp removed
    exact behind file (List.mem_of_mem_drop member) called
  · intro many
    rw [List.drop_append_of_le_length many]
    exact List.mem_map.mpr ⟨⟨name, modified⟩, List.mem_append_right _ List.mem_cons_self, rfl⟩

/-- Never more backups are left than are kept, and no other file is removed. -/
theorem rotated_rest {now : Timestamp} {keep : Int} (positive : 1 ≤ keep) {path : String}
    {rest : List (File τ)}
    (rotated : backupDatabase listing now modified keep files = .ok (path, rest)) :
    ((rest.filter isBackup).length : Int) ≤ keep ∧
      ∀ file ∈ files, isBackup file = false → file ∈ rest := by
  have backup := isBackup_backupName now modified
  rw [backupDatabase, if_neg (by omega)] at rotated
  obtain ⟨-, rfl⟩ := Prod.mk.inj (Except.ok.inj rotated)
  generalize backupName now = name at backup
  set removed := ((byTime (listed listing name modified files)).drop keep.toNat).map (·.name)
    with removal
  have few : (((write name modified files).filter (·.name ∉ removed)).filter isBackup).length ≤
      keep.toNat := by
    have scanned : ((write name modified files).filter isBackup).Perm
        (byTime (listed listing name modified files)) :=
      (((listing.complete _).filter _).symm).trans (List.perm_insertionSort later _).symm
    have dropped : ((byTime (listed listing name modified files)).drop keep.toNat).filter
        (·.name ∉ removed) = [] := by
      refine List.filter_eq_nil_iff.mpr fun file member => ?_
      have gone : file.name ∈ removed := List.mem_map_of_mem member
      simpa using gone
    rw [List.filter_comm, (scanned.filter _).length_eq,
      ← List.take_append_drop keep.toNat (byTime (listed listing name modified files)),
      List.filter_append, dropped, List.append_nil]
    exact (List.length_filter_le _ _).trans (List.length_take_le _ _)
  have others : ∀ file ∈ files, isBackup file = false →
      file ∈ (write name modified files).filter (·.name ∉ removed) := by
    intro file member other
    have foreign : ∀ found : File τ, isBackup found = true → found.name ≠ file.name := by
      intro found is called
      rw [isBackup_of_name called, other] at is
      cases is
    have stays : file.name ∉ removed := by
      intro gone
      obtain ⟨found, inside, called⟩ := List.mem_map.mp gone
      have scanned := (List.perm_insertionSort later _).mem_iff.mp (List.mem_of_mem_drop inside)
      exact foreign found (mem_listed.mp scanned).2 called
    refine List.mem_filter.mpr ⟨List.mem_cons_of_mem _ (List.mem_filter.mpr ⟨member, ?_⟩), ?_⟩
    · simpa using (foreign _ backup).symm
    · simpa using stays
  refine ⟨?_, others⟩
  have bound : (((write name modified files).filter (·.name ∉ removed)).filter isBackup).length ≤
      keep.toNat := few
  have left : ((((write name modified files).filter (·.name ∉ removed)).filter isBackup).length :
      Int) ≤ keep := by omega
  exact left

/-- The new backup is left exactly when it is not among those that are removed. -/
theorem backup_left_iff (listing : Listing τ) (now : Timestamp) (modified : τ) {keep : Int}
    (positive : 1 ≤ keep) (files : List (File τ)) :
    (∃ path rest, backupDatabase listing now modified keep files = .ok (path, rest) ∧
      ∃ file ∈ rest, file.name = path) ↔
        (inFront listing (backupName now) modified files : Int) < keep := by
  have backup := isBackup_backupName now modified
  have removed := @mem_removed_iff _ _ listing _ _ files backup keep.toNat
  have rotated : backupDatabase listing now modified keep files = .ok (backupName now,
      (write (backupName now) modified files).filter (·.name ∉ ((byTime (listed listing
        (backupName now) modified files)).drop keep.toNat).map (·.name))) := by
    rw [backupDatabase, if_neg (by omega)]
    rfl
  rw [rotated]
  constructor
  · rintro ⟨path, rest, same, file, member, called⟩
    obtain ⟨rfl, rfl⟩ := Prod.mk.inj (Except.ok.inj same)
    have left := (List.mem_filter.mp member).2
    rw [called, decide_eq_true_eq, removed] at left
    omega
  · intro ahead
    have left : ¬ keep.toNat ≤ inFront listing (backupName now) modified files := by omega
    rw [← removed] at left
    exact ⟨_, _, rfl, ⟨backupName now, modified⟩, List.mem_filter.mpr
      ⟨List.mem_cons_self, by simpa using left⟩, rfl⟩

/-- A state backup survives its own rotation exactly when fewer backups are ordered in front of
it than are kept. Nothing else is ever removed, and never more are left than are kept. -/
theorem backup_survives_iff (listing : Listing τ) (now : Timestamp) (modified : τ) {keep : Int}
    (positive : 1 ≤ keep) (files : List (File τ)) :
    Survives keep files (backupDatabase listing now modified keep files) ↔
      (inFront listing (backupName now) modified files : Int) < keep := by
  rw [← backup_left_iff listing now modified positive files]
  constructor
  · rintro ⟨path, rest, same, left, -, -⟩
    exact ⟨path, rest, same, left⟩
  · rintro ⟨path, rest, same, left⟩
    obtain ⟨few, others⟩ := rotated_rest positive same
    exact ⟨path, rest, same, left, few, others⟩

/-- A directory that is listed as it is. -/
def plainListing : Listing Nat := ⟨id, fun _ => List.Perm.refl _⟩

/-- One of two backups is kept when it was modified last. -/
theorem latest_survives : Survives 1 [⟨"state-20240101T000000Z.db", 5⟩]
    (backupDatabase plainListing (738886 * day) 7 1 [⟨"state-20240101T000000Z.db", 5⟩]) :=
  (backup_survives_iff plainListing (738886 * day) 7 (by decide) _).mpr (by decide +kernel)

/-- A backup that seems to have been modified in the future takes the place of the new one. -/
theorem future_survives : ¬ ∀ (listing : Listing Nat) (now : Timestamp) (modified : Nat)
    (keep : Int) (files : List (File Nat)), 1 ≤ keep →
      Survives keep files (backupDatabase listing now modified keep files) := by
  intro claimed
  obtain ⟨path, rest, same, left, -, -⟩ := claimed plainListing (738886 * day) 7 1
    [⟨"state-20240101T000000Z.db", 9⟩] (by decide)
  have ahead := (backup_left_iff plainListing (738886 * day) 7 (by decide) _).mp
    ⟨path, rest, same, left⟩
  revert ahead
  decide +kernel

end Rotation

end Immutavault.StateBackups
