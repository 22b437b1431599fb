import Immutavault.SessionOwnership
import Immutavault.HostTrees

/-!
# Which snapshot a recovery session is opened on

A repository is mounted by a process of its own, and its directory of ids appears some
time after that process has started. The manager resolves the requested id in that
directory once, and then waits for the path it resolved to appear.

The clock may advance by any amount between two questions and between two rounds of
the wait; it never goes back. A mount shows nothing until it is ready and everything
afterwards, and its process keeps running. Entries of the directory are matched with
the requested id in both directions in the statement, and only in one in the code.
-/

namespace Immutavault.SnapshotLookup

open Programs Values PosixPaths Timestamps GuestFiles HostTrees SessionOwnership

section Waiting

/-- When the rounds of a wait begin and when they look. The sleep between two rounds
takes time, and so may everything else. -/
structure Pace where
  starts : Nat
  begins : Nat → Nat
  looks : Nat → Nat
  started : starts ≤ begins 0
  orderly : ∀ round, begins round ≤ looks round
  sleeps : ∀ round, looks round < begins (round + 1)

/-- Look once a round until the predicate holds, the process has exited or the deadline
has passed; after the deadline look once more. -/
def poll (pace : Pace) (predicate exited : Nat → Bool) (deadline : Nat)
    (round : Nat) : Bool :=
  if pace.begins round < deadline then
    if predicate (pace.looks round) then true
    else if exited (pace.looks round) then false
    else poll pace predicate exited deadline (round + 1)
  else predicate (pace.looks round)
termination_by deadline - pace.begins round
decreasing_by
  have ordered := pace.orderly round
  have slept := pace.sleeps round
  omega

/-- Wait some seconds, at least one. -/
def waitFor (pace : Pace) (predicate exited : Nat → Bool) (seconds : Nat) : Bool :=
  poll pace predicate exited (pace.starts + max 1 seconds * second) 0

variable (pace : Pace)

/-- Waiting for what never holds is in vain. -/
theorem poll_never {predicate exited : Nat → Bool} (never : ∀ time, predicate time = false)
    (deadline : Nat) (round : Nat) : poll pace predicate exited deadline round = false := by
  fun_induction poll pace predicate exited deadline round with
  | case1 round _ holds => simp [never] at holds
  | case2 => rfl
  | case3 round _ _ _ inductionHypothesis => exact inductionHypothesis
  | case4 round => exact never _

/-- Waiting for what holds from a time before the deadline on succeeds, unless the
process exits. -/
theorem poll_holds {predicate exited : Nat → Bool} {deadline ready : Nat}
    (holds : ∀ time, ready ≤ time → predicate time = true) (within : ready ≤ deadline)
    (runs : ∀ time, exited time = false) (round : Nat) :
    poll pace predicate exited deadline round = true := by
  fun_induction poll pace predicate exited deadline round with
  | case1 => rfl
  | case2 round _ _ ended => simp [runs] at ended
  | case3 round _ _ _ inductionHypothesis => exact inductionHypothesis
  | case4 round late =>
    have ordered : pace.begins round ≤ pace.looks round := pace.orderly round
    exact holds _ (by omega)

end Waiting

/-- The id of a snapshot can name an entry of a directory. -/
abbrev SnapshotId := Name

/-- The directory of ids of a mounted repository. -/
abbrev idsOf (restic : Path) : Path := restic.joinpath (str "ids")

/-- A mount of a repository: when it is ready, and the ids it shows then. -/
structure ResticMount where
  ready : Nat
  ids : List SnapshotId
  distinct : ids.Nodup

namespace ResticMount

variable (mount : ResticMount)

/-- Whether an id is there at a time. -/
def shows (id : SnapshotId) (time : Nat) : Bool := mount.ready ≤ time && id ∈ mount.ids

/-- Entries that extend an id, the id itself among them. -/
def extending (id : SnapshotId) : List SnapshotId :=
  mount.ids.filter fun other => id.val.isPrefixOf other.val

/-- Entries that are the id, abbreviate it or extend it. -/
def related (id : SnapshotId) : List SnapshotId :=
  mount.ids.filter fun other => id.val.isPrefixOf other.val || other.val.isPrefixOf id.val

/-- An id that is there extends itself. -/
theorem mem_extending_self {id : SnapshotId} (present : id ∈ mount.ids) :
    id ∈ mount.extending id :=
  List.mem_filter.mpr ⟨present, List.isPrefixOf_iff_prefix.mpr (List.prefix_refl _)⟩

theorem extending_subset (id : SnapshotId) : mount.extending id ⊆ mount.related id := by
  intro other member
  obtain ⟨present, extends_⟩ := List.mem_filter.mp member
  exact List.mem_filter.mpr ⟨present, by simp [extends_]⟩

end ResticMount

/-- The host as a mount makes it appear: its answers about the ids follow the clock, and
waiting for an id is the wait of the manager while the process runs. -/
structure Exposes (surroundings : Surroundings) (mount : ResticMount) (restic : Path)
    (monotonic : History → Nat) (pace : History → Pace) : Prop where
  advances : ∀ log exchange, monotonic log ≤ monotonic (log ++ [exchange])
  starts : ∀ log, monotonic log ≤ (pace log).starts
  present : ∀ log (id : SnapshotId),
    surroundings.answer log (.present ((idsOf restic).child id.component)) =
      .ok (mount.shows id (monotonic log))
  isDirectory : ∀ log, surroundings.answer log (.isDirectory (idsOf restic)) =
    .ok (mount.ready ≤ monotonic log)
  children : ∀ log, mount.ready ≤ monotonic log →
    surroundings.answer log (.children (idsOf restic)) = .ok (mount.ids.map Name.component)
  appears : ∀ log (id : SnapshotId) seconds,
    surroundings.answer log (.appears ((idsOf restic).child id.component) seconds) =
      .ok (waitFor (pace log) (mount.shows id) (fun _ => false) seconds)

section Lookup

variable {surroundings : Surroundings} {mount : ResticMount} {restic : Path}
variable {monotonic : History → Nat} {pace : History → Pace}

/-- A host that answers a question is asked it and the program goes on. -/
theorem run_host_bind {α : Type} {request : HostRequest} {answer : request.Answer} {broker : Broker}
    (answered : surroundings.answer broker.log request = .ok answer)
    (next : request.Answer → Prog α) :
    run surroundings.handler (host request >>= next) broker =
      run surroundings.handler (next answer)
        { broker with log := broker.log ++ [⟨.host request, .ok answer⟩] } := by
  rw [run_bind, run_asked surroundings answered]

/-- Joining an id to a path appends its entry. -/
theorem joinpath_id (path : Path) (id : SnapshotId) : path.joinpath id.val = path.child id.component :=
  PurePath.joinpath_proper path id.component

/-- When the directory of ids is looked at: after the id itself was not found. -/
def lookedAt (monotonic : History → Nat) (restic : Path) (id : SnapshotId) (log : History) : Nat :=
  monotonic (log ++ [⟨.host (.present ((idsOf restic).child id.component)), .ok false⟩])

/-- The entry that the manager settles on. It is the id itself, unless the mount is
ready when it is looked at and one entry alone extends the id. -/
def settled (mount : ResticMount) (id : SnapshotId) (asked looked : Nat) : SnapshotId :=
  if mount.shows id asked then id
  else if mount.ready ≤ looked then
    match mount.extending id with
    | [only] => only
    | _ => id
  else id

/-- The manager resolves an id to the entry it settles on, and the clock does not go
back while it does. -/
theorem snapshotRoot_settled (exposes : Exposes surroundings mount restic monotonic pace)
    (id : SnapshotId) (broker : Broker) :
    ∃ later : Broker, monotonic broker.log ≤ monotonic later.log ∧
      run surroundings.handler (snapshotRoot restic id.val) broker =
        (.ok ((idsOf restic).child (settled mount id (monotonic broker.log)
          (lookedAt monotonic restic id broker.log)).component), later) := by
  have advances := exposes.advances
  unfold snapshotRoot
  dsimp only
  rw [joinpath_id, run_host_bind (exposes.present broker.log id)]
  by_cases shown : mount.shows id (monotonic broker.log) = true
  · simp only [shown, settled, if_true, run_pure]
    exact ⟨_, advances _ _, rfl⟩
  · have hidden : mount.shows id (monotonic broker.log) = false := by simpa using shown
    simp only [hidden, settled, Bool.false_eq_true, if_false]
    rw [run_host_bind (exposes.isDirectory _)]
    by_cases ready : mount.ready ≤ lookedAt monotonic restic id broker.log
    · rw [if_pos ready]
      simp only [lookedAt] at ready
      simp only [ready, decide_true, not_true_eq_false, if_false]
      rw [run_host_bind (exposes.children _ (le_trans ready (advances _ _)))]
      have named : ((mount.ids.map Name.component).filter fun name =>
          id.val.isPrefixOf name.val) = (mount.extending id).map Name.component := by
        rw [List.filter_map]
        rfl
      have onwards : ∀ first second third, monotonic broker.log ≤
          monotonic (broker.log ++ [first] ++ [second] ++ [third]) := fun _ _ _ =>
        le_trans (advances _ _) (le_trans (advances _ _) (advances _ _))
      rw [named]
      match mount.extending id with
      | [] => exact ⟨_, onwards _ _ _, rfl⟩
      | [only] => exact ⟨_, onwards _ _ _, rfl⟩
      | _ :: _ :: _ => exact ⟨_, onwards _ _ _, rfl⟩
    · rw [if_neg ready]
      simp only [lookedAt] at ready
      simp only [ready, decide_false, Bool.false_eq_true, not_false_eq_true, if_true, run_pure]
      exact ⟨_, le_trans (advances _ _) (advances _ _), rfl⟩

/-- Waiting for an id shows whether it is there at all, when the mount is ready in time. -/
theorem appears_shown (exposes : Exposes surroundings mount restic monotonic pace)
    (id : SnapshotId) {log : History} {seconds : Nat}
    (within : mount.ready ≤ monotonic log + seconds * second) :
    surroundings.answer log (.appears ((idsOf restic).child id.component) seconds) =
      .ok (id ∈ mount.ids) := by
  rw [exposes.appears]
  by_cases present : id ∈ mount.ids
  · have shown : ∀ time, mount.ready ≤ time → mount.shows id time = true := by
      intro time ready
      simp [ResticMount.shows, ready, present]
    have timely : mount.ready ≤ (pace log).starts + max 1 seconds * second := by
      have starts := exposes.starts log
      have longer : seconds * second ≤ max 1 seconds * second :=
        Nat.mul_le_mul_right _ (Nat.le_max_right _ _)
      omega
    simp only [waitFor, poll_holds (pace log) shown timely (fun _ => rfl), present, decide_true]
  · have hidden : ∀ time, mount.shows id time = false := by
      intro time
      simp [ResticMount.shows, present]
    simp only [waitFor, poll_never (pace log) hidden, present, decide_false]

/-- The manager finds the entry it settles on when that entry is there, and raises
otherwise. -/
theorem findSnapshot_outcome (exposes : Exposes surroundings mount restic monotonic pace)
    (settings : Settings) (id : SnapshotId) {broker : Broker}
    (within : mount.ready ≤ monotonic broker.log + settings.mount_wait_seconds * second) :
    (run surroundings.handler (findSnapshot settings restic id.val) broker).1 =
      if settled mount id (monotonic broker.log) (lookedAt monotonic restic id broker.log) ∈
        mount.ids then
        .ok ((idsOf restic).child (settled mount id (monotonic broker.log)
          (lookedAt monotonic restic id broker.log)).component)
      else .error ⟨.runtimeError,
        "restic FUSE mount did not expose the requested recovery point"⟩ := by
  obtain ⟨later, onwards, resolved⟩ := snapshotRoot_settled exposes id broker
  generalize settled mount id (monotonic broker.log) (lookedAt monotonic restic id broker.log) =
    entry at resolved
  have timely : mount.ready ≤ monotonic later.log + settings.mount_wait_seconds * second :=
    le_trans within (Nat.add_le_add_right onwards _)
  rw [findSnapshot, run_bind, resolved]
  dsimp only
  rw [run_host_bind (appears_shown exposes entry timely)]
  by_cases present : entry ∈ mount.ids
  · simp [present]
  · simp [present, raiseRuntimeError]

/-- One entry alone is related to the id and is used, or the manager raises. -/
def Finds (mount : ResticMount) (restic : Path) (id : SnapshotId) (outcome : Except Exn Path) :
    Prop :=
  match mount.related id with
  | [only] => outcome = .ok ((idsOf restic).child only.component)
  | _ => ∃ error, outcome = .error error

/-- An id that is there has no other entry related to it. Of one that is not there, one
entry alone is related to it exactly if the mount is ready when it is looked at and one
entry alone extends it. -/
def Findable (mount : ResticMount) (id : SnapshotId) (looked : Nat) : Prop :=
  if id ∈ mount.ids then (mount.related id).length = 1
  else (mount.related id).length = 1 ↔ mount.ready ≤ looked ∧ (mount.extending id).length = 1

instance (id : SnapshotId) (looked : Nat) : Decidable (Findable mount id looked) := by
  unfold Findable
  infer_instance

/-- The manager settles on an id that is there. -/
theorem settled_present {id : SnapshotId} (present : id ∈ mount.ids) (asked looked : Nat) :
    settled mount id asked looked = id := by
  unfold settled
  split
  · rfl
  · split
    · split
      · rename_i only found
        have member : id ∈ mount.extending id := mount.mem_extending_self present
        rw [found] at member
        exact (List.mem_singleton.mp member).symm
      · rfl
    · rfl

/-- On an entry that only extends the id it settles when the mount is ready in time and
no other entry extends it. -/
theorem settled_extending {id only : SnapshotId} (absent : id ∉ mount.ids) (asked : Nat)
    {looked : Nat} (ready : mount.ready ≤ looked) (found : mount.extending id = [only]) :
    settled mount id asked looked = only := by
  have hidden : mount.shows id asked = false := by simp [ResticMount.shows, absent]
  simp only [settled, hidden, Bool.false_eq_true, if_false, if_pos ready, found]

/-- Otherwise it keeps to the id. -/
theorem settled_otherwise {id : SnapshotId} (absent : id ∉ mount.ids) (asked : Nat) {looked : Nat}
    (otherwise : ¬(mount.ready ≤ looked ∧ (mount.extending id).length = 1)) :
    settled mount id asked looked = id := by
  have hidden : mount.shows id asked = false := by simp [ResticMount.shows, absent]
  simp only [settled, hidden, Bool.false_eq_true, if_false]
  split
  · rename_i ready
    split
    · rename_i only found
      exact absurd ⟨ready, by rw [found]; rfl⟩ otherwise
    · rfl
  · rfl

/-- Finding an entry that is related to the id means that no other is. -/
theorem finds_ok {id entry : SnapshotId} (related : entry ∈ mount.related id) :
    Finds mount restic id (.ok ((idsOf restic).child entry.component)) ↔
      (mount.related id).length = 1 := by
  unfold Finds
  split
  · rename_i only found
    rw [found] at related ⊢
    obtain rfl := List.mem_singleton.mp related
    simp
  · rename_i several
    constructor
    · rintro ⟨error, failed⟩
      cases failed
    · intro alone
      obtain ⟨only, found⟩ := List.length_eq_one_iff.mp alone
      exact absurd found (several only)

/-- Raising means that there is no entry, or more than one. -/
theorem finds_error {id : SnapshotId} (error : Exn) :
    Finds mount restic id (.error error) ↔ (mount.related id).length ≠ 1 := by
  unfold Finds
  split
  · rename_i only found
    simp [found]
  · rename_i several
    refine ⟨fun _ alone => ?_, fun _ => ⟨error, rfl⟩⟩
    obtain ⟨only, found⟩ := List.length_eq_one_iff.mp alone
    exact several only found

/-- What the manager settles on is what was to be found exactly if the id is findable. -/
theorem finds_settled (id : SnapshotId) (asked looked : Nat) (error : Exn) :
    Finds mount restic id (if settled mount id asked looked ∈ mount.ids then
        .ok ((idsOf restic).child (settled mount id asked looked).component)
      else .error error) ↔ Findable mount id looked := by
  unfold Findable
  by_cases present : id ∈ mount.ids
  · have related : id ∈ mount.related id :=
      mount.extending_subset id (mount.mem_extending_self present)
    rw [settled_present present, if_pos present, if_pos present, finds_ok related]
  · rw [if_neg present]
    by_cases reached : mount.ready ≤ looked ∧ (mount.extending id).length = 1
    · obtain ⟨ready, alone⟩ := reached
      obtain ⟨only, found⟩ := List.length_eq_one_iff.mp alone
      have extends_ : only ∈ mount.extending id := by rw [found]; exact List.mem_singleton_self only
      rw [settled_extending present _ ready found, if_pos (List.mem_filter.mp extends_).1,
        finds_ok (mount.extending_subset id extends_)]
      exact ⟨fun one => ⟨fun _ => ⟨ready, alone⟩, fun _ => one⟩, fun same => same.mpr ⟨ready, alone⟩⟩
    · rw [settled_otherwise present _ reached, if_neg present, finds_error]
      exact ⟨fun several => ⟨fun one => absurd one several, fun now => absurd now reached⟩,
        fun same one => reached (same.mp one)⟩

/-- Looking an id up in a mount that becomes ready within the wait finds the one entry
that is related to it, and raises when there is none or more than one, exactly if the
id is findable at the time the directory is looked at. An entry that abbreviates the id
is never found, and an entry that extends it only by a look that is late enough. -/
theorem snapshot_found_when_findable
    (exposes : Exposes surroundings mount restic monotonic pace) (settings : Settings)
    (id : SnapshotId) (broker : Broker)
    (within : mount.ready ≤ monotonic broker.log + settings.mount_wait_seconds * second) :
    Finds mount restic id
        (run surroundings.handler (findSnapshot settings restic id.val) broker).1 ↔
      Findable mount id (lookedAt monotonic restic id broker.log) := by
  rw [findSnapshot_outcome exposes settings id within]
  exact finds_settled id _ _ _

end Lookup

section Examples

/-- A clock that advances by a second with every question. -/
def ticking (log : History) : Nat := log.length * second

/-- A wait that looks ten times a second. -/
def looking (log : History) : Pace where
  starts := ticking log
  begins := fun round => ticking log + round * 100000
  looks := fun round => ticking log + round * 100000
  started := by omega
  orderly := fun _ => le_refl _
  sleeps := fun round => by omega

/-- A host on which a mount becomes ready while the clock ticks. -/
def exposing (mount : ResticMount) (restic : Path) : Surroundings where
  clock := ticking
  answer := fun log request => match request with
    | .present path => .ok (mount.ready ≤ ticking log && mount.ids.any fun id =>
        path = (idsOf restic).child id.component)
    | .isDirectory _ => .ok (mount.ready ≤ ticking log)
    | .children _ => .ok (mount.ids.map Name.component)
    | .appears path seconds => .ok (waitFor (looking log) (fun time => mount.ready ≤ time &&
        mount.ids.any fun id => path = (idsOf restic).child id.component) (fun _ => false) seconds)
    | other => obliging.answer log other

/-- Whatever a mount shows, there is a host on which it appears so. -/
theorem exposes_exposing (mount : ResticMount) (restic : Path) :
    Exposes (exposing mount restic) mount restic ticking looking := by
  have named : ∀ (id : SnapshotId) (time : Nat), mount.shows id time =
      (decide (mount.ready ≤ time) && mount.ids.any fun other =>
        (idsOf restic).child id.component = (idsOf restic).child other.component) := by
    intro id time
    rw [Bool.eq_iff_iff]
    simp [ResticMount.shows, PurePath.child, Name.component_injective.eq_iff]
  refine ⟨fun log exchange => ?_, fun _ => le_refl _, fun log id => ?_, fun _ => rfl,
    fun _ _ => rfl, fun log id seconds => ?_⟩
  · exact Nat.mul_le_mul_right _ (by simp)
  · rw [named]
    rfl
  · rw [show mount.shows id = _ from funext (named id)]
    rfl

/-- The mount below the root of a session. -/
def mounted : Path := PurePath.parse (str "/srv/flr/5e55/restic")

/-- An id, and the same id abbreviated. -/
def fullId : SnapshotId := ⟨str "4f1c9d2a7be0", by decide⟩

def shortId : SnapshotId := ⟨str "4f1c9d2a", by decide⟩

/-- A short id is found in a mount that is ready when the directory is looked at. -/
theorem snapshot_found_by_short_id :
    Finds ⟨0, [fullId], by decide⟩ mounted shortId
      (run (exposing ⟨0, [fullId], by decide⟩ mounted).handler
        (findSnapshot mounting mounted shortId.val) {}).1 :=
  (snapshot_found_when_findable (exposes_exposing _ _) mounting shortId {} (by decide)).mpr
    (by decide)

/-- The entry that abbreviates the id is not found although the mount is ready at once,
and neither is the entry that extends it when the mount becomes ready during the wait. -/
theorem snapshot_missed :
    (ResticMount.related ⟨0, [shortId], by decide⟩ fullId = [shortId] ∧
      ¬ Finds ⟨0, [shortId], by decide⟩ mounted fullId
        (run (exposing ⟨0, [shortId], by decide⟩ mounted).handler
          (findSnapshot mounting mounted fullId.val) {}).1) ∧
    (ResticMount.related ⟨5 * second, [fullId], by decide⟩ shortId = [fullId] ∧
      ¬ Finds ⟨5 * second, [fullId], by decide⟩ mounted shortId
        (run (exposing ⟨5 * second, [fullId], by decide⟩ mounted).handler
          (findSnapshot mounting mounted shortId.val) {}).1) := by
  refine ⟨⟨by decide, ?_⟩, ⟨by decide, ?_⟩⟩
  · rw [findSnapshot_outcome (exposes_exposing _ _) _ _ (by decide), finds_settled]
    decide
  · rw [findSnapshot_outcome (exposes_exposing _ _) _ _ (by decide), finds_settled]
    decide

end Examples

end Immutavault.SnapshotLookup
