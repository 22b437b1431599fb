import Immutavault.Histories
import Immutavault.StateDatabase

/-!
# Immutability goes one way

Holds, verification, expiry and the catalogue of copies never shorten the
immutability of a recovery point and never bring an expired point back. Storing a
point is different: a point under an identifier that is in the catalogue takes the
place of the old row, with whatever immutability it brings, and is not expired.

One way is a relation between two states of the catalogue, and it is transitive.
A sequence of operations goes one way throughout exactly when each of its stores
respects the row that it replaces.
-/

namespace Immutavault.PointImmutability

open Programs Values Timestamps Catalog Machine Histories StateDatabase

/-- Every point is still there, expired if it was, and live only with no less
immutability. -/
def OneWay (before after : Database) : Prop :=
  ∀ snapshot_id old, before.points.lookup snapshot_id = some old →
    ∃ new, after.points.lookup snapshot_id = some new ∧
      (old.expired = true → new.expired = true) ∧
      (new.expired = false → old.immutable_until ≤ new.immutable_until)

theorem OneWay.trans {before middle after : Database} (first : OneWay before middle)
    (second : OneWay middle after) : OneWay before after := by
  intro snapshot_id old present
  obtain ⟨between, there, stays, longer⟩ := first snapshot_id old present
  obtain ⟨new, kept, remains, further⟩ := second snapshot_id between there
  refine ⟨new, kept, fun expired => remains (stays expired), fun live => ?_⟩
  have unexpired : between.expired = false := by
    by_contra expired
    have ended := remains (by simpa using expired)
    rw [live] at ended
    cases ended
  exact (longer unexpired).trans (further live)

/-- A table of points that was left alone goes no way at all. -/
theorem oneWay_same {before after : Database} (same : Table.points.Same before after) :
    OneWay before after := by
  have rows : after.points = before.points := same
  intro snapshot_id old present
  exact ⟨old, rows ▸ present, id, fun _ => le_rfl⟩

/-- Changing a row goes one way when it does so for every row that it may find. -/
theorem oneWay_modify {db : Database} {snapshot_id : String} {change : PointRow → PointRow}
    (respects : ∀ row, db.points.lookup snapshot_id = some row →
      (row.expired = true → (change row).expired = true) ∧
      ((change row).expired = false → row.immutable_until ≤ (change row).immutable_until)) :
    OneWay db { db with points := db.points.modify snapshot_id change } := by
  intro other old present
  by_cases own : other = snapshot_id
  · subst own
    refine ⟨change old, ?_, respects old present⟩
    rw [Tables.Keyed.lookup_modify, if_pos rfl, present, Option.map_some]
  · refine ⟨old, ?_, id, fun _ => le_rfl⟩
    rw [Tables.Keyed.lookup_modify, if_neg own, present]

/-- Marking points expired goes one way, one point after another. -/
theorem oneWay_markPointsExpired (db : Database) (snapshot_ids : List String)
    (expired_at : Timestamp) :
    OneWay db (Transaction.write db (.markPointsExpired snapshot_ids expired_at)) := by
  induction snapshot_ids generalizing db with
  | nil => exact oneWay_same rfl
  | cons snapshot_id rest inductionHypothesis =>
    have first : OneWay db { db with points := db.points.modify snapshot_id fun row =>
        { row with expired := true, expired_at := some expired_at } } :=
      oneWay_modify fun row _ => ⟨fun _ => rfl, fun impossible => by cases impossible⟩
    exact first.trans (inductionHypothesis _)

/-- A stored point respects the row whose place it takes. -/
def Respects (db : Database) (point : Point) : Prop :=
  ∀ old, db.points.lookup point.snapshot_id = some old →
    old.expired = false ∧ old.immutable_until ≤ point.immutable_until

/-- Storing a point goes one way exactly when it respects the row it replaces. -/
theorem oneWay_replacePoint (db : Database) (point : Point) :
    OneWay db (Transaction.write db (.replacePoint point.snapshot_id
      { point.toPointRow with expired := false, expired_at := none })) ↔ Respects db point := by
  constructor
  · intro oneWay old present
    obtain ⟨new, stored, stays, longer⟩ := oneWay point.snapshot_id old present
    rw [Transaction.write, Tables.Keyed.lookup_replace, if_pos rfl] at stored
    cases stored
    refine ⟨?_, longer rfl⟩
    by_contra expired
    cases stays (by simpa using expired)
  · intro respects other old present
    by_cases own : other = point.snapshot_id
    · subst own
      obtain ⟨live, less⟩ := respects old present
      refine ⟨_, (Tables.Keyed.lookup_replace _ _ _ _).trans (if_pos rfl), ?_, fun _ => less⟩
      intro expired
      rw [live] at expired
      cases expired
    · refine ⟨old, ?_, id, fun _ => le_rfl⟩
      rw [Transaction.write, Tables.Keyed.lookup_replace, if_neg own, present]

/-- The operations on points and copies, with all that they are given. -/
inductive Operation where
  | upsert (point : Point)
  | extend (snapshot_id : String) (immutable_until : Timestamp) (actor reason : String)
  | expire (snapshot_ids : List String)
  | verify (snapshot_id : String) (verified : Bool) (details : Dict)
  | copy (snapshot_id target_name backend repository : String) (provider : Option String)
      (status : CopyStatus) (immutable_until : Option Timestamp) (object_lock : Dict)
      (error : Option String)

def Operation.program : Operation → Prog Unit
  | .upsert point => upsertRecoveryPoint point
  | .extend snapshot_id immutable_until actor reason => do
    let _ ← extendImmutability snapshot_id immutable_until actor reason
    return ()
  | .expire snapshot_ids => markPointsExpired snapshot_ids
  | .verify snapshot_id verified details => markVerified snapshot_id verified details
  | .copy snapshot_id target_name backend repository provider status immutable_until object_lock
      error =>
    upsertRecoveryCopy snapshot_id target_name backend repository provider status immutable_until
      object_lock error

/-- An operation that stores a point respects the row it replaces. -/
def Operation.Respectful (db : Database) : Operation → Prop
  | .upsert point => Respects db point
  | _ => True

section Runs

variable (env : Environment)

/-- The state after an operation, whether it returns or raises. -/
def after (operation : Operation) (world : World) : World :=
  (run env.handler operation.program world).2

/-- A hold finds the row that it extends, or writes nothing. -/
theorem oneWay_extend (snapshot_id : String) (immutable_until : Timestamp)
    (actor reason : String) (world : World) :
    OneWay world.db
      (run env.handler (extendImmutability snapshot_id immutable_until actor reason) world).2.db := by
  rw [extendImmutability, run_transact_bind]
  cases read : Transaction.read world.db (.selectImmutableUntil snapshot_id) with
  | none => exact oneWay_same rfl
  | some current =>
    dsimp only
    rw [run_transact_bind]
    have extended : OneWay world.db (Transaction.write world.db
        (.updateImmutableUntil snapshot_id (max current immutable_until))) := by
      refine oneWay_modify fun row present => ⟨id, fun live => ?_⟩
      have found : (world.db.livePoint snapshot_id).map (·.immutable_until) = some current := read
      have fresh : row.expired = false := live
      rw [Database.livePoint, present] at found
      simp only [Option.bind_some, fresh, Bool.false_eq_true, if_false, Option.map_some,
        Option.some.injEq] at found
      exact found ▸ Nat.le_max_left _ _
    refine extended.trans (oneWay_same ?_)
    refine same_run ?_ (by decide : .writing .points ∉ [Effect.silent, .writing .audits]) _
    exact footprint_bind (footprint_audit (by simp) (by simp) _ _ _ _ _) fun _ => footprint_pure _

/-- Verification changes what is known of a row, not its immutability. -/
theorem oneWay_verify (snapshot_id : String) (verified : Bool) (details : Dict) (world : World) :
    OneWay world.db (run env.handler (markVerified snapshot_id verified details) world).2.db := by
  rw [markVerified, run_transact_bind]
  cases Transaction.read world.db (.selectMetadata snapshot_id) with
  | none => exact oneWay_same rfl
  | some metadata =>
    cases verified with
    | true => exact oneWay_modify fun row _ => ⟨id, fun _ => le_rfl⟩
    | false => exact oneWay_modify fun row _ => ⟨id, fun _ => le_rfl⟩

theorem oneWay_expire (snapshot_ids : List String) (world : World) :
    OneWay world.db (run env.handler (markPointsExpired snapshot_ids) world).2.db := by
  unfold markPointsExpired
  split
  · exact oneWay_same rfl
  · rw [run_utcnow_bind]
    exact oneWay_markPointsExpired world.db snapshot_ids world.clock

/-- Every operation but a store goes one way, and a store does when it is respectful. -/
theorem oneWay_after (operation : Operation) (world : World) :
    OneWay world.db (after env operation world).db ↔ operation.Respectful world.db := by
  cases operation with
  | upsert point => exact oneWay_replacePoint world.db point
  | extend snapshot_id immutable_until actor reason =>
    refine iff_of_true ?_ trivial
    have same : (after env (.extend snapshot_id immutable_until actor reason) world).db =
        (run env.handler (extendImmutability snapshot_id immutable_until actor reason)
          world).2.db := by
      rw [after, Operation.program, run_bind]
      split <;> simp_all
    exact same ▸ oneWay_extend env snapshot_id immutable_until actor reason world
  | expire snapshot_ids => exact iff_of_true (oneWay_expire env snapshot_ids world) trivial
  | verify snapshot_id verified details =>
    exact iff_of_true (oneWay_verify env snapshot_id verified details world) trivial
  | copy snapshot_id target_name backend repository provider status immutable_until object_lock
      error =>
    exact iff_of_true (oneWay_same (same_run (footprint_upsertRecoveryCopy _ _ _ _ _ _ _ _ _)
      (by simp) world)) trivial

/-- The states of the catalogue from the first on, before and after each operation. -/
def states : List Operation → World → List Database
  | [], world => [world.db]
  | operation :: rest, world => world.db :: states rest (after env operation world)

/-- Every store among the operations respects the row that it finds. -/
def AllRespectful : List Operation → World → Prop
  | [], _ => True
  | operation :: rest, world =>
    operation.Respectful world.db ∧ AllRespectful rest (after env operation world)

theorem states_head (operations : List Operation) (world : World) :
    ∃ rest, states env operations world = world.db :: rest := by
  cases operations with
  | nil => exact ⟨[], rfl⟩
  | cons operation rest => exact ⟨_, rfl⟩

/-- Over any operations one after another, immutability goes one way between any two
states of the catalogue exactly when every store respects the row that it replaces. -/
theorem immutability_one_way (operations : List Operation) (world : World) :
    (states env operations world).Pairwise OneWay ↔ AllRespectful env operations world := by
  have : IsTrans Database OneWay := ⟨fun _ _ _ => OneWay.trans⟩
  rw [← List.isChain_iff_pairwise]
  induction operations generalizing world with
  | nil => simp [states, AllRespectful]
  | cons operation rest inductionHypothesis =>
    obtain ⟨others, first⟩ := states_head env rest (after env operation world)
    have later := inductionHypothesis (after env operation world)
    rw [first] at later
    rw [states, first, List.isChain_cons_cons, AllRespectful]
    exact and_congr (oneWay_after env operation world) later

end Runs

/-- A point that is immutable for ten microseconds. -/
def held : Point where
  snapshot_id := "4f1c"
  created_at := 0
  platform := "pve"
  platform_type := .proxmox
  vm_id := "100"
  vm_name := "web"
  power_state := none
  source_path := "/srv/staging/web"
  backup_bytes := 1
  data_added := 1
  file_count := 1
  manifest_sha256 := none
  immutable_until := 10
  suspicious := false
  suspicious_reason := none
  verified := false
  verified_at := none
  metadata := []

/-- Storing a point again shortens its immutability, and brings it back after it expired. -/
theorem stored_again :
    ¬ (states Environment.mute [.upsert held, .upsert { held with immutable_until := 5 }]
      ⟨{}, 0, []⟩).Pairwise OneWay ∧
    ¬ (states Environment.mute [.upsert held, .expire ["4f1c"], .upsert held]
      ⟨{}, 0, []⟩).Pairwise OneWay := by
  constructor
  · intro oneWay
    have stored := (List.pairwise_cons.mp (List.pairwise_cons.mp oneWay).2).1 _ List.mem_cons_self
    obtain ⟨new, found, _, longer⟩ := stored "4f1c" held.toPointRow rfl
    cases found
    exact absurd (longer rfl) (by decide)
  · intro oneWay
    have expired := (List.pairwise_cons.mp (List.pairwise_cons.mp oneWay).2).2
    have stored := (List.pairwise_cons.mp expired).1 _ List.mem_cons_self
    obtain ⟨new, found, stays, _⟩ := stored "4f1c"
      { held.toPointRow with expired := true, expired_at := some 1 } rfl
    cases found
    cases stays rfl

end Immutavault.PointImmutability
