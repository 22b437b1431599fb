import Mathlib.Algebra.GroupWithZero.Nat

/-!
# Members of a USTAR archive

The header of a member has fields of fixed widths. A number is written in octal digits
that leave one place for a terminator, and one that is negative or has more digits is
refused: eight places hold an owner, twelve a size or a time. A plain name has a hundred
bytes at most. The slash that is appended to the name of a directory may be parted from
it, and then the name is kept in the field for a leading path, of a hundred and fifty-five.

A member is added when its header can be written. What adding a list of members gives is
the list itself, and it is given exactly when every header fits.
-/

namespace Immutavault.UstarArchives

/-- What a member is; only a regular file has a size. -/
inductive Kind where
  | regular (size : Nat)
  | directory
  deriving DecidableEq

def Kind.size : Kind → Nat
  | .regular size => size
  | .directory => 0

/-- What a header records beside the name. -/
structure Status where
  kind : Kind
  uid : Nat
  gid : Nat
  mtime : Int

/-- Why a header cannot be written. -/
inductive Refusal where
  | nameTooLong
  | overflow
  deriving DecidableEq

/-- A number fits into a field of this many places. -/
def FitsField (places : Nat) (value : Int) : Prop := 0 ≤ value ∧ value.toNat < 8 ^ (places - 1)

instance (places : Nat) (value : Int) : Decidable (FitsField places value) :=
  inferInstanceAs (Decidable (_ ∧ _))

/-- Write a number field. -/
def itn (places : Nat) (value : Int) : Except Refusal Unit :=
  if FitsField places value then .ok () else .error .overflow

/-- The longest plain name of a member, in bytes. -/
def Kind.longest : Kind → Nat
  | .regular _ => 100
  | .directory => 155

/-- Write the name fields for a name of this many bytes. -/
def nameField (kind : Kind) (length : Nat) : Except Refusal Unit :=
  if length ≤ kind.longest then .ok () else .error .nameTooLong

/-- Write a header, field by field. -/
def header (length : Nat) (status : Status) : Except Refusal Unit := do
  nameField status.kind length
  itn 8 status.uid
  itn 8 status.gid
  itn 12 status.kind.size
  itn 12 status.mtime

/-- Every field of a header has room for what it records. -/
structure Representable (length : Nat) (status : Status) : Prop where
  name : length ≤ status.kind.longest
  owner : status.uid < 8 ^ 7
  group : status.gid < 8 ^ 7
  size : status.kind.size < 8 ^ 11
  time : 0 ≤ status.mtime ∧ status.mtime.toNat < 8 ^ 11

theorem itn_eq_ok_iff {places : Nat} {value : Int} :
    itn places value = .ok () ↔ FitsField places value := by
  unfold itn
  split
  · simp [*]
  · simp [*]

theorem nameField_eq_ok_iff {kind : Kind} {length : Nat} :
    nameField kind length = .ok () ↔ length ≤ kind.longest := by
  unfold nameField
  split
  · simp [*]
  · simp [*]

theorem fitsField_natCast {places value : Nat} :
    FitsField places value ↔ value < 8 ^ (places - 1) := by
  simp [FitsField]

/-- A first part and a second part are both written. -/
theorem sequence_eq_ok_iff {first second : Except Refusal Unit} :
    (do first; second) = .ok () ↔ first = .ok () ∧ second = .ok () := by
  cases first with
  | ok _ => exact ⟨fun written => ⟨rfl, written⟩, And.right⟩
  | error _ => exact ⟨fun written => (by cases written), fun written => (by cases written.1)⟩

/-- A header is written exactly when every field has room. -/
theorem header_eq_ok_iff {length : Nat} {status : Status} :
    header length status = .ok () ↔ Representable length status := by
  simp only [header, sequence_eq_ok_iff, itn_eq_ok_iff, nameField_eq_ok_iff, fitsField_natCast]
  constructor
  · rintro ⟨name, owner, group, size, time⟩
    exact ⟨name, owner, group, size, time⟩
  · rintro ⟨name, owner, group, size, time⟩
    exact ⟨name, owner, group, size, time⟩

/-- A member: its name, what its header records, and its bytes when it is a file. -/
structure Member (ν δ : Type) where
  name : ν
  status : Status
  contents : Option δ

section Adding

variable {ν δ : Type} (length : ν → Nat)

/-- Add a member at the end of an archive. -/
def add (archive : List (Member ν δ)) (member : Member ν δ) : Except Refusal (List (Member ν δ)) := do
  header (length member.name) member.status
  .ok (archive ++ [member])

/-- Add members one after another. -/
def addAll (archive : List (Member ν δ)) : List (Member ν δ) → Except Refusal (List (Member ν δ))
  | [] => .ok archive
  | member :: rest => do addAll (← add length archive member) rest

variable {length}

theorem add_eq_ok_iff {archive result : List (Member ν δ)} {member : Member ν δ} :
    add length archive member = .ok result ↔
      Representable (length member.name) member.status ∧ result = archive ++ [member] := by
  rw [← header_eq_ok_iff, add]
  cases header (length member.name) member.status with
  | ok _ => exact ⟨fun added => ⟨rfl, (Except.ok.inj added).symm⟩, fun ⟨_, same⟩ => same ▸ rfl⟩
  | error _ => exact ⟨fun added => (by cases added), fun ⟨written, _⟩ => (by cases written)⟩

/-- Members are added exactly when each of them can be, and the archive then goes on with
them in their order. -/
theorem addAll_eq_ok_iff {archive result members : List (Member ν δ)} :
    addAll length archive members = .ok result ↔
      (∀ member ∈ members, Representable (length member.name) member.status) ∧
        result = archive ++ members := by
  induction members generalizing archive with
  | nil => simp [addAll, eq_comm]
  | cons member rest inductionHypothesis =>
    rw [addAll, List.forall_mem_cons]
    cases added : add length archive member with
    | ok grown =>
      obtain ⟨fits, rfl⟩ := add_eq_ok_iff.mp added
      refine Iff.trans (@inductionHypothesis (archive ++ [member])) ?_
      simp [fits]
    | error refusal =>
      constructor
      · intro impossible
        cases impossible
      · rintro ⟨⟨fits, _⟩, _⟩
        rw [add_eq_ok_iff.mpr ⟨fits, rfl⟩] at added
        cases added

end Adding

end Immutavault.UstarArchives
