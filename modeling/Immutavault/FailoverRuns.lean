import Immutavault.DROrchestrator
import Immutavault.Histories

/-!
# The recorded runs and the active failover

Whether a failover is active is read off the table of runs: there is a
successful failover that started later than every successful failback. The
table is written by promotions and failbacks, each of which inserts one running
row and settles it once. A demotion writes no run.

A call is judged by a small discipline: it fences or inserts a row when it
begins, it touches recovery machines only after its row was inserted, and it
settles that row with success exactly when it returns a success. The discipline
says nothing about other calls; what whole sequences of operations leave in the
table follows from it, here for operations one after another.
-/

namespace Immutavault.FailoverRuns

open Programs Values Catalog Machine Histories Configuration StateDatabase RestoreEngine Adapters
open DROrchestrator DRNetwork

section Reading

/-- A run of the table that has ended with success in this direction. -/
def Succeeded (db : Database) (direction : Direction) (number : Nat) (row : RunRow) : Prop :=
  db.runs.lookup number = some row ∧ row.direction = direction ∧ row.status = .success

/-- What the two readings of the latest runs say about a state of the catalogue. -/
def failedOver (db : Database) : Bool :=
  match Transaction.read db (.latestRun (some .failover) (some .success)),
    Transaction.read db (.latestRun (some .failback) (some .success)) with
  | none, _ => false
  | some _, none => true
  | some failover, some failback => failback.2.started_at < failover.2.started_at

/-- The successful runs of a direction, the latest first. -/
def succeededRuns (db : Database) (direction : Direction) : List (Nat × RunRow) :=
  (db.runs.rows.filter fun entry =>
    ((some direction).all fun given => entry.2.direction = given) ∧
      ((some RunStatus.success).all fun given => entry.2.status = given)).insertionSort
    fun first second => second.2.started_at ≤ first.2.started_at

theorem mem_succeededRuns {db : Database} {direction : Direction} {entry : Nat × RunRow} :
    entry ∈ succeededRuns db direction ↔ Succeeded db direction entry.1 entry.2 := by
  rw [succeededRuns, List.mem_insertionSort, List.mem_filter, Succeeded,
    ← Tables.Numbered.mem_rows_iff]
  simp

/-- The latest run is one that matches, and none that matches has started after it. -/
theorem latestRun_some {db : Database} {direction : Direction} {entry : Nat × RunRow}
    (read : Transaction.read db (.latestRun (some direction) (some .success)) = some entry) :
    Succeeded db direction entry.1 entry.2 ∧
      ∀ number row, Succeeded db direction number row → row.started_at ≤ entry.2.started_at := by
  have first : (succeededRuns db direction).head? = some entry := read
  have sorted : (succeededRuns db direction).Pairwise
      fun first second => second.2.started_at ≤ first.2.started_at := by
    have : Std.Total fun first second : Nat × RunRow =>
        second.2.started_at ≤ first.2.started_at := ⟨fun _ _ => Nat.le_total _ _⟩
    have : IsTrans (Nat × RunRow) fun first second =>
        second.2.started_at ≤ first.2.started_at := ⟨fun _ _ _ => fun one two => two.trans one⟩
    exact List.pairwise_insertionSort _ _
  obtain ⟨rest, split⟩ := List.head?_eq_some_iff.mp first
  refine ⟨mem_succeededRuns.mp (split ▸ List.mem_cons_self), fun number row succeeded => ?_⟩
  have member : (number, row) ∈ entry :: rest := split ▸ mem_succeededRuns.mpr succeeded
  rw [split] at sorted
  rcases List.mem_cons.mp member with same | later
  · exact le_of_eq (congrArg (fun entry => entry.2.started_at) same)
  · exact (List.pairwise_cons.mp sorted).1 _ later

/-- There is no latest run only when none matches. -/
theorem latestRun_none {db : Database} {direction : Direction}
    (read : Transaction.read db (.latestRun (some direction) (some .success)) = none)
    (number : Nat) (row : RunRow) : ¬ Succeeded db direction number row := by
  have empty : succeededRuns db direction = [] := List.head?_eq_none_iff.mp read
  intro succeeded
  have member : (number, row) ∈ succeededRuns db direction := mem_succeededRuns.mpr succeeded
  rw [empty] at member
  cases member

/-- A failover is active when one has succeeded that started after every successful
failback. -/
theorem failedOver_iff (db : Database) :
    failedOver db = true ↔ ∃ number row, Succeeded db .failover number row ∧
      ∀ other ended, Succeeded db .failback other ended → ended.started_at < row.started_at := by
  unfold failedOver
  cases failover : Transaction.read db (.latestRun (some .failover) (some .success)) with
  | none =>
    constructor
    · intro impossible
      cases impossible
    · rintro ⟨number, row, succeeded, _⟩
      exact absurd succeeded (latestRun_none failover number row)
  | some latest =>
    obtain ⟨succeeded, newest⟩ := latestRun_some failover
    cases failback : Transaction.read db (.latestRun (some .failback) (some .success)) with
    | none =>
      refine iff_of_true rfl ⟨latest.1, latest.2, succeeded, ?_⟩
      exact fun other ended impossible => absurd impossible (latestRun_none failback other ended)
    | some undone =>
      obtain ⟨undoneSucceeded, lastUndone⟩ := latestRun_some failback
      simp only [decide_eq_true_eq]
      constructor
      · intro later
        exact ⟨latest.1, latest.2, succeeded, fun other ended back =>
          Nat.lt_of_le_of_lt (lastUndone other ended back) later⟩
      · rintro ⟨number, row, forth, after⟩
        exact Nat.lt_of_lt_of_le (after _ _ undoneSucceeded) (newest number row forth)

/-- The guard of the program reads the runs, and nothing else happens. -/
theorem run_alreadyFailedOver (env : Environment) (world : World) :
    ∃ after, run env.handler alreadyFailedOver world = (.ok (failedOver world.db), after) ∧
      after.db = world.db := by
  refine ⟨(run env.handler alreadyFailedOver world).2, Prod.ext ?_ rfl,
    db_ran footprint_alreadyFailedOver (by simp) rfl⟩
  rw [alreadyFailedOver, latestDrRun, latestDrRun, run_transact_bind, run_transact_bind]
  have same : (env.handler (.transact (.latestRun (some .failover) (some .success))) world).2.db =
      world.db := rfl
  rw [same, failedOver]
  split <;> simp_all

/-- The same successes give the same answer. -/
theorem failedOver_congr {before after : Database}
    (same : ∀ direction number row,
      Succeeded after direction number row ↔ Succeeded before direction number row) :
    failedOver after = failedOver before := by
  have equivalent : failedOver after = true ↔ failedOver before = true := by
    simp only [failedOver_iff, same]
  exact Bool.eq_iff_iff.mpr equivalent

/-- A table that was left alone shows the same. -/
theorem failedOver_same {before after : Database} (same : Table.runs.Same before after) :
    failedOver after = failedOver before := by
  have rows : after.runs = before.runs := same
  refine failedOver_congr fun direction number row => ?_
  simp only [Succeeded, rows]

/-- A run that is recorded as running is no success. -/
theorem succeeded_insert {db : Database} {row : RunRow} (running : row.status = .running)
    (direction : Direction) (number : Nat) (given : RunRow) :
    Succeeded (Transaction.write db (.insertRun row)) direction number given ↔
      Succeeded db direction number given := by
  simp only [Succeeded, Transaction.write, Tables.Numbered.lookup_insert]
  by_cases new : number = db.runs.next
  · subst new
    simp only [if_true, Tables.Numbered.lookup_next, reduceCtorEq, false_and, iff_false]
    rintro ⟨same, _, success⟩
    cases same
    rw [running] at success
    cases success
  · rw [if_neg new]

/-- The row of a run that has ended. -/
def settledRow (row : RunRow) (finished_at : Timestamps.Timestamp) (success : Bool)
    (details : Dict) (error : Option String) : RunRow :=
  { row with
    finished_at := some finished_at
    status := if success then .success else .failed
    details := details
    error := error }

/-- Ending a running run adds at most this run to the successes. -/
theorem succeeded_finish {db : Database} {run_id : Nat} {row : RunRow}
    (present : db.runs.lookup run_id = some row) (running : row.status = .running)
    (finished_at : Timestamps.Timestamp) (success : Bool) (details : Dict)
    (error : Option String) (direction : Direction) (number : Nat) (given : RunRow) :
    Succeeded (Transaction.write db (.finishRun run_id finished_at success details error))
        direction number given ↔
      Succeeded db direction number given ∨
        (success = true ∧ number = run_id ∧ row.direction = direction ∧
          given = settledRow row finished_at success details error) := by
  simp only [Succeeded, Transaction.write, Tables.Numbered.lookup_modify]
  by_cases own : number = run_id
  · subst own
    simp only [if_true, present, Option.map_some, Option.some.injEq, true_and]
    constructor
    · rintro ⟨rfl, same, ended⟩
      cases success with
      | true => exact Or.inr ⟨rfl, same, rfl⟩
      | false => cases ended
    · rintro (⟨rfl, _, ended⟩ | ⟨rfl, same, rfl⟩)
      · rw [running] at ended
        cases ended
      · exact ⟨rfl, same, rfl⟩
  · simp only [own, if_false, false_and, and_false, or_false]

/-- A failover that succeeds is active when it started after every successful failback. -/
theorem failedOver_finish_failover {db : Database} {run_id : Nat} {row : RunRow}
    (present : db.runs.lookup run_id = some row) (running : row.status = .running)
    (forth : row.direction = .failover)
    (newest : ∀ number ended, Succeeded db .failback number ended →
      ended.started_at < row.started_at)
    (finished_at : Timestamps.Timestamp) (details : Dict) (error : Option String) :
    failedOver (Transaction.write db (.finishRun run_id finished_at true details error)) = true := by
  refine (failedOver_iff _).mpr ⟨run_id, settledRow row finished_at true details error,
    (succeeded_finish present running _ _ _ _ _ _ _).mpr (Or.inr ⟨rfl, rfl, forth, rfl⟩), ?_⟩
  intro number ended succeeded
  rcases (succeeded_finish present running _ _ _ _ _ _ _).mp succeeded with before | ⟨_, _, back, _⟩
  · exact newest number ended before
  · rw [forth] at back
    cases back

/-- A failback that succeeds ends every failover that started no later. -/
theorem failedOver_finish_failback {db : Database} {run_id : Nat} {row : RunRow}
    (present : db.runs.lookup run_id = some row) (running : row.status = .running)
    (back : row.direction = .failback)
    (newest : ∀ number ended, Succeeded db .failover number ended →
      ended.started_at ≤ row.started_at)
    (finished_at : Timestamps.Timestamp) (details : Dict) (error : Option String) :
    failedOver (Transaction.write db (.finishRun run_id finished_at true details error)) =
      false := by
  refine Bool.eq_false_iff.mpr fun active => ?_
  obtain ⟨number, started, succeeded, after⟩ := (failedOver_iff _).mp active
  have later := after run_id (settledRow row finished_at true details error)
    ((succeeded_finish present running _ _ _ _ _ _ _).mpr (Or.inr ⟨rfl, rfl, back, rfl⟩))
  rcases (succeeded_finish present running _ _ _ _ _ _ _).mp succeeded with before | ⟨_, _, forth, _⟩
  · exact absurd later (Nat.not_lt_of_le (newest number started before))
  · rw [back] at forth
    cases forth

/-- A run that fails changes no success. -/
theorem failedOver_finish_failed {db : Database} {run_id : Nat} {row : RunRow}
    (present : db.runs.lookup run_id = some row) (running : row.status = .running)
    (finished_at : Timestamps.Timestamp) (details : Dict) (error : Option String) :
    failedOver (Transaction.write db (.finishRun run_id finished_at false details error)) =
      failedOver db := by
  refine failedOver_congr fun direction number given => ?_
  rw [succeeded_finish present running]
  simp

end Reading

section Discipline

/-- How far a call has come with its transition, if it makes one. -/
inductive Phase where
  | idle (direction : Direction)
  | fencing
  | running (direction : Direction) (run_id : Nat)
  | closed (success : Bool)
  deriving DecidableEq

/-- The phase of a call that has inserted its row and not settled it. -/
def Phase.isRunning : Phase → Bool
  | .running _ _ => true
  | _ => false

/-- A command with which a transition begins: it fences the primary site, by a command
or by a confirmation, or it inserts a run. -/
def begins : Command → Bool
  | .request (.run (.fence _) _ _) => true
  | .transact (.insertAudit row) => row.action = "dr.fence"
  | .transact (.insertRun _) => true
  | _ => false

/-- A command that brings a machine back: it fetches a snapshot, creates a machine, or
switches one on. -/
def recovers (command : Command) : Bool :=
  command.effect = .ofRestic ∨ command.effect = .creation ∨ command.effect = .ofPower true

/-- The discipline of one call that may move the workloads in one direction. -/
def discipline : Monitor controller Exn Phase where
  permits := fun phase command =>
    (recovers command = true → phase.isRunning = true) ∧
    match command with
    | .transact (.insertRun row) => row.status = .running ∧
        ((phase = .fencing ∧ row.direction = .failover) ∨
          (phase = .idle .failback ∧ row.direction = .failback))
    | .transact (.finishRun run_id ..) => ∃ direction, phase = .running direction run_id
    | .transact (.insertAudit row) => row.action = "dr.fence" → phase ≠ .idle .failback
    | .request (.run (.fence _) _ _) => phase = .idle .failover ∨ phase = .fencing
    | _ => True
  possible := fun _ command answer => Command.Served command answer
  next := fun phase command answer =>
    match command, answer with
    | .transact (.insertRun row), .ok run_id => .running row.direction run_id
    | .transact (.finishRun _ _ success _ _), _ => .closed success
    | command, _ => if phase = .idle .failover ∧ begins command = true then .fencing else phase

/-- Effects that a call may have in every phase. -/
def Calm : Effect → Prop
  | .ofFence | .ofRestic | .creation | .ofPower true | .writing .runs | .writing .audits => False
  | _ => True

/-- Effects that a call may have while its row is running. -/
def Busy : Effect → Prop
  | .ofFence | .writing .runs => False
  | _ => True

/-- A calm command is permitted in every phase and keeps it. -/
theorem discipline_calm {phase : Phase} {command : Command} (calm : Calm command.effect) :
    discipline.permits phase command ∧ ∀ answer, discipline.next phase command answer = phase := by
  have unbegun : begins command = false := by
    by_contra begun
    simp only [Bool.not_eq_false] at begun
    unfold begins at begun
    split at begun
    · exact calm
    · exact calm
    · exact calm
    · cases begun
  have unrecovering : recovers command = false := by
    by_contra recovering
    simp only [recovers, Bool.not_eq_false, decide_eq_true_eq] at recovering
    rcases recovering with same | same | same <;> rw [same] at calm <;> exact calm
  refine ⟨⟨fun recovering => absurd recovering (by simp [unrecovering]), ?_⟩, fun answer => ?_⟩
  · dsimp only
    split
    · exact calm.elim
    · exact calm.elim
    · exact calm.elim
    · exact calm.elim
    · trivial
  · simp only [discipline]
    split
    · exact calm.elim
    · exact calm.elim
    · simp [unbegun]

/-- Whatever neither fences nor writes runs is permitted while the row is running. -/
theorem discipline_busy {direction : Direction} {run_id : Nat} {command : Command}
    (busy : Busy command.effect) :
    discipline.permits (.running direction run_id) command ∧
      ∀ answer, discipline.next (.running direction run_id) command answer =
        .running direction run_id := by
  refine ⟨⟨fun _ => rfl, ?_⟩, fun answer => ?_⟩
  · dsimp only
    split
    · exact busy.elim
    · exact busy.elim
    · simp
    · exact busy.elim
    · trivial
  · simp only [discipline]
    split
    · exact busy.elim
    · exact busy.elim
    · simp

/-- The table of runs is written by inserting a run and by settling one. -/
theorem writing_runs {command : Command} (writing : command.effect = .writing .runs) :
    (∃ row, command = .transact (.insertRun row)) ∨
      ∃ run_id finished_at success details error,
        command = .transact (.finishRun run_id finished_at success details error) := by
  unfold Command.effect at writing
  split at writing <;> try cases writing
  · rename_i transaction
    cases transaction <;> first
      | exact Or.inl ⟨_, rfl⟩
      | exact Or.inr ⟨_, _, _, _, _, rfl⟩
      | simp [writes] at writing

/-- A command that writes no run moves at most a promotion to its fence. -/
theorem discipline_next_other {phase : Phase} {command : Command}
    (other : command.effect ≠ .writing .runs) (answer : Except Exn command.Answer) :
    discipline.next phase command answer =
      if phase = .idle .failover ∧ begins command = true then .fencing else phase := by
  simp only [discipline]
  split
  · exact absurd rfl other
  · exact absurd rfl other
  · rfl

section Segments

variable {α : Type} {effects : List Effect} {program : Prog α}

/-- A calm segment keeps the phase. -/
theorem wp_calm {phase : Phase} (footprint : Footprint effects program)
    (calm : ∀ effect ∈ effects, Calm effect) :
    wp discipline program (fun _ final => final = phase) phase := by
  refine wp_footprint (· = phase) footprint rfl ?_
  rintro current command rfl listed
  obtain ⟨permitted, kept⟩ := discipline_calm (calm _ listed)
  exact ⟨permitted, fun answer _ => kept answer⟩

/-- A segment that neither fences nor writes runs keeps the row running. -/
theorem wp_busy {direction : Direction} {run_id : Nat} (footprint : Footprint effects program)
    (busy : ∀ effect ∈ effects, Busy effect) :
    wp discipline program (fun _ final => final = .running direction run_id)
      (.running direction run_id) := by
  refine wp_footprint (· = Phase.running direction run_id) footprint rfl ?_
  rintro current command rfl listed
  obtain ⟨permitted, kept⟩ := discipline_busy (busy _ listed)
  exact ⟨permitted, fun answer _ => kept answer⟩

end Segments

/-- The machine serves a calm command of its own in every phase. -/
theorem wp_served {command : Command} {phase : Phase}
    {post : Except Exn command.Answer → Phase → Prop} (internal : command.Internal)
    (calm : Calm command.effect) (holds : ∀ value, post (.ok value) phase) :
    wp discipline (@Program.perform controller Exn command) post phase := by
  obtain ⟨permitted, kept⟩ := @discipline_calm phase command calm
  refine wp_perform permitted ?_
  intro answer served
  obtain ⟨value, rfl⟩ := served internal
  rw [kept]
  exact holds value

/-- Inserting the row of a run begins the run. -/
theorem wp_createDrRun {direction : Direction} {source_site target_site : String}
    {details : Dict} {phase : Phase}
    (ready : (phase = .fencing ∧ direction = .failover) ∨
      (phase = .idle .failback ∧ direction = .failback)) :
    wp discipline (createDrRun direction source_site target_site details)
      (fun outcome final => ∃ run_id, outcome = .ok run_id ∧ final = .running direction run_id)
      phase := by
  refine wp_bind (wp_served trivial trivial fun now => ?_)
  refine wp_perform ⟨by simp [recovers, Command.effect, writes], rfl, ready⟩ ?_
  intro inserted served
  obtain ⟨run_id, rfl⟩ := served trivial
  exact ⟨run_id, rfl, rfl⟩

/-- Settling the row ends the run. -/
theorem wp_finishDrRun {direction : Direction} {run_id : Nat} (success : Bool) (details : Dict)
    (error : Option String) :
    wp discipline (finishDrRun run_id success details error)
      (fun outcome final => outcome = .ok () ∧ final = .closed success)
      (.running direction run_id) := by
  refine wp_bind (wp_served trivial trivial fun now => ?_)
  refine wp_perform ⟨by simp [recovers, Command.effect, writes], direction, rfl⟩ ?_
  intro finished served
  obtain ⟨finished, rfl⟩ := served trivial
  exact ⟨rfl, rfl⟩

/-- Auditing is served in every phase; only the confirmation of a fence moves one. -/
theorem wp_audit {phase : Phase} (actor action object_type object_id : String) (details : Dict)
    (moved : Phase) (permitted : action = "dr.fence" → phase ≠ .idle .failback)
    (moves : (if phase = .idle .failover ∧ action = "dr.fence" then .fencing else phase) = moved) :
    wp discipline (audit actor action object_type object_id details)
      (fun outcome final => outcome = .ok () ∧ final = moved) phase := by
  refine wp_bind (wp_served trivial trivial fun created_at => ?_)
  refine wp_bind (wp_served trivial trivial fun tail => ?_)
  refine wp_perform ⟨by simp [recovers, Command.effect, writes], permitted⟩ ?_
  intro written served
  obtain ⟨written, rfl⟩ := served trivial
  refine ⟨rfl, ?_⟩
  rw [← moves]
  simp only [discipline, begins, decide_eq_true_eq]

/-- A fence command begins the transition of a promotion. -/
theorem discipline_fence {phase : Phase} {command : Command}
    (before : phase = .idle .failover ∨ phase = .fencing) (fence : command.effect = .ofFence) :
    discipline.permits phase command ∧ ∀ answer, discipline.next phase command answer = .fencing := by
  have unrecovering : recovers command = false := by simp [recovers, fence]
  unfold Command.effect at fence
  split at fence <;> try cases fence
  · split at fence <;> cases fence
  · refine ⟨⟨fun recovering => absurd recovering (by simp [unrecovering]), before⟩, fun answer => ?_⟩
    rcases before with rfl | rfl <;> simp [discipline, begins]

section Calls

variable (engine : Engine)

/-- A fence that returns has begun the transition. -/
theorem wp_fencePrimary (confirmed automatic : Bool) :
    wp discipline (fencePrimary engine confirmed automatic)
      (fun outcome final => (final = .idle .failover ∨ final = .fencing) ∧
        (outcome = .ok () → final = .fencing)) (.idle .failover) := by
  have recorded : ∀ {phase : Phase} (mode : Json),
      phase = .idle .failover ∨ phase = .fencing →
      wp discipline (audit "dr-orchestrator" "dr.fence" "site" engine.cfg.dr.primary_site
        [("mode", mode)]) (fun outcome final => (final = .idle .failover ∨ final = .fencing) ∧
          (outcome = .ok () → final = .fencing)) phase := by
    intro phase mode before
    refine wp_mono (wp_audit _ _ _ _ _ .fencing ?_ ?_) ?_
    · rcases before with rfl | rfl <;> simp
    · rcases before with rfl | rfl <;> simp
    · rintro outcome final ⟨_, rfl⟩
      exact ⟨Or.inr rfl, fun _ => rfl⟩
  unfold fencePrimary
  split
  · refine wp_bind (wp_mono (wp_footprint
      (fun phase => phase = .idle .failover ∨ phase = .fencing)
      (footprint_fenceByCommand engine) (Or.inl rfl) ?_) ?_)
    · intro phase command before listed
      obtain ⟨permitted, moved⟩ := discipline_fence before (by simpa using listed)
      exact ⟨permitted, fun answer _ => Or.inr (moved answer)⟩
    · intro outcome final before
      cases outcome with
      | error error => exact ⟨before, fun impossible => by cases impossible⟩
      | ok value => exact recorded _ before
  · split
    · exact wp_throw ⟨Or.inl rfl, fun impossible => by cases impossible⟩
    · split
      · exact wp_throw ⟨Or.inl rfl, fun impossible => by cases impossible⟩
      · exact recorded _ (Or.inl rfl)

/-- A promotion settles its row with success exactly when it returns a success. -/
def PromotionSettles (outcome : Except Exn Promotion) (final : Phase) : Prop :=
  (∃ run_id details, outcome = .ok (.success run_id details)) ↔ final = .closed true

/-- What raises, or returns without a run of its own, has settled nothing with success. -/
theorem promotionSettles_error {error : Exn} {final : Phase} (other : final ≠ .closed true) :
    PromotionSettles (.error error) final :=
  iff_of_false (by rintro ⟨_, _, impossible⟩; cases impossible) other

variable {engine} {run_id : Nat}

theorem wp_abortPromotion (restored : List Restored) (exc : Exn) :
    wp discipline (abortPromotion engine run_id restored exc) PromotionSettles
      (.running .failover run_id) := by
  refine wp_bind (wp_mono (wp_busy (NetworkManager.footprint_deactivate _ _ _)
    (by simp [Busy])) ?_)
  rintro outcome final rfl
  cases outcome with
  | error error => exact promotionSettles_error (by simp)
  | ok network =>
    refine wp_bind (wp_mono (wp_busy (footprint_switchOffQuietly engine _) (by simp [Busy])) ?_)
    rintro outcome final rfl
    cases outcome with
    | error error => exact promotionSettles_error (by simp)
    | ok _ =>
      refine wp_bind (wp_mono (wp_finishDrRun _ _ _) ?_)
      rintro outcome final ⟨rfl, rfl⟩
      refine wp_bind (wp_mono (wp_audit _ _ _ _ _ (.closed false) (by simp) (by simp)) ?_)
      rintro outcome final ⟨rfl, rfl⟩
      exact wp_throw (promotionSettles_error (by simp))

/-- Completing a promotion settles the row when it returns, and not when it raises. -/
theorem wp_completePromotion (restored : List Restored) :
    wp discipline (completePromotion engine run_id restored)
      (fun outcome final => match outcome with
        | .ok promotion => PromotionSettles (.ok promotion) final
        | .error _ => final = .running .failover run_id) (.running .failover run_id) := by
  refine wp_bind (wp_mono (wp_busy (NetworkManager.footprint_activate _ _) (by simp [Busy])) ?_)
  rintro outcome final rfl
  cases outcome with
  | error error => rfl
  | ok network =>
    refine wp_bind (wp_mono (wp_busy (footprint_startMachines engine _ _) (by simp [Busy])) ?_)
    rintro outcome final rfl
    cases outcome with
    | error error => rfl
    | ok health =>
      refine wp_bind (wp_mono (wp_finishDrRun _ _ _) ?_)
      rintro outcome final ⟨rfl, rfl⟩
      refine wp_bind (wp_mono (wp_audit _ _ _ _ _ (.closed true) (by simp) (by simp)) ?_)
      rintro outcome final ⟨rfl, rfl⟩
      exact wp_pure (iff_of_true ⟨_, _, rfl⟩ rfl)

theorem wp_runPromotion (approved : DRPlan) :
    wp discipline (runPromotion engine run_id approved) PromotionSettles
      (.running .failover run_id) := by
  refine wp_bind (wp_mono (wp_busy (footprint_attempt (footprint_prepareSites engine))
    (by simp [Busy])) ?_)
  rintro outcome final rfl
  cases outcome with
  | error error => exact promotionSettles_error (by simp)
  | ok prepared =>
    cases prepared with
    | error exc => exact wp_abortPromotion [] exc
    | ok started =>
      refine wp_bind (wp_mono (wp_busy (footprint_restoreWorkloads engine _ _ _ _)
        (by simp [Busy, restoreEffects])) ?_)
      rintro outcome final rfl
      cases outcome with
      | error error => exact promotionSettles_error (by simp)
      | ok recovered =>
        obtain ⟨restored, failed⟩ := recovered
        cases failed with
        | some exc => exact wp_abortPromotion restored exc
        | none =>
          refine wp_tryCatch (wp_mono (wp_completePromotion restored) ?_)
          intro outcome final settles
          cases outcome with
          | ok promotion => exact settles
          | error error =>
            have running : final = .running .failover run_id := settles
            subst running
            exact wp_abortPromotion restored error

/-- A promotion keeps the discipline of the direction to the recovery site. -/
theorem wp_promote (execute confirmed automatic : Bool) :
    wp discipline (promote engine execute confirmed automatic) PromotionSettles
      (.idle .failover) := by
  have idle : ∀ error : Exn, PromotionSettles (.error error) (.idle .failover) :=
    fun error => promotionSettles_error (by simp)
  have unsettled : ∀ promotion : Promotion, (∀ number details,
      promotion ≠ .success number details) → PromotionSettles (.ok promotion) (.idle .failover) :=
    fun promotion other => iff_of_false
      (by rintro ⟨number, details, same⟩; exact other number details (Except.ok.inj same)) (by simp)
  refine wp_bind (wp_mono (wp_calm (footprint_ensureEnabled engine []) (by simp)) ?_)
  rintro outcome final rfl
  cases outcome with
  | error error => exact idle error
  | ok _ =>
    refine wp_bind (wp_mono (wp_calm (footprint_plan engine) (by simp [Calm])) ?_)
    rintro outcome final rfl
    cases outcome with
    | error error => exact idle error
    | ok approved =>
      dsimp only
      split
      · exact wp_pure (unsettled _ (by simp))
      · refine wp_bind (wp_mono (wp_calm footprint_alreadyFailedOver (by simp [Calm])) ?_)
        rintro outcome final rfl
        cases outcome with
        | error error => exact idle error
        | ok active =>
          dsimp only
          split
          · exact wp_pure (unsettled _ (by simp))
          · split
            · exact wp_throw (idle _)
            · refine wp_bind (wp_mono (wp_calm (footprint_preflight engine approved)
                (by simp [Calm])) ?_)
              rintro outcome final rfl
              cases outcome with
              | error error => exact idle error
              | ok report =>
                dsimp only
                split
                · exact wp_throw (idle _)
                · refine wp_bind (wp_mono (wp_fencePrimary engine _ _) ?_)
                  rintro outcome final ⟨before, fenced⟩
                  cases outcome with
                  | error error =>
                    refine promotionSettles_error ?_
                    rcases before with rfl | rfl <;> simp
                  | ok _ =>
                    have fencing : final = .fencing := fenced rfl
                    subst fencing
                    refine wp_bind (wp_mono (wp_createDrRun (Or.inl ⟨rfl, rfl⟩)) ?_)
                    rintro outcome final ⟨run_id, rfl, rfl⟩
                    exact wp_runPromotion approved

/-- A failback settles its row with success exactly when it returns a success. -/
def FailbackSettles (outcome : Except Exn Failback) (final : Phase) : Prop :=
  (∃ run_id details, outcome = .ok (.success run_id details)) ↔ final = .closed true

theorem failbackSettles_error {error : Exn} {final : Phase} (other : final ≠ .closed true) :
    FailbackSettles (.error error) final :=
  iff_of_false (by rintro ⟨_, _, impossible⟩; cases impossible) other

theorem wp_abortFailback (exc : Exn) :
    wp discipline (abortFailback run_id exc) FailbackSettles (.running .failback run_id) := by
  refine wp_bind (wp_mono (wp_finishDrRun _ _ _) ?_)
  rintro outcome final ⟨rfl, rfl⟩
  refine wp_bind (wp_mono (wp_audit _ _ _ _ _ (.closed false) (by simp) (by simp)) ?_)
  rintro outcome final ⟨rfl, rfl⟩
  exact wp_throw (failbackSettles_error (by simp))

/-- The steps of a failback settle the row when they return, and not when they raise. -/
theorem wp_runFailback (source_run : Nat) (workloads : List WorkloadRow) :
    wp discipline (runFailback engine run_id source_run workloads)
      (fun outcome final => match outcome with
        | .ok failback => FailbackSettles (.ok failback) final
        | .error _ => final = .running .failback run_id) (.running .failback run_id) := by
  refine wp_bind (wp_mono (wp_busy (footprint_returnWorkloads engine _ _)
    (by simp [Busy, returnEffects])) ?_)
  rintro outcome final rfl
  cases outcome with
  | error error => rfl
  | ok returned =>
    refine wp_bind (wp_mono (wp_busy (footprint_switchOff engine _) (by simp [Busy])) ?_)
    rintro outcome final rfl
    cases outcome with
    | error error => rfl
    | ok _ =>
      refine wp_bind (wp_mono (wp_busy (NetworkManager.footprint_activate _ _)
        (by simp [Busy])) ?_)
      rintro outcome final rfl
      cases outcome with
      | error error => rfl
      | ok network =>
        refine wp_bind (wp_mono (wp_busy (footprint_startMachines engine _ _)
          (by simp [Busy])) ?_)
        rintro outcome final rfl
        cases outcome with
        | error error => rfl
        | ok health =>
          refine wp_bind (wp_mono (wp_finishDrRun _ _ _) ?_)
          rintro outcome final ⟨rfl, rfl⟩
          refine wp_bind (wp_mono (wp_audit _ _ _ _ _ (.closed true) (by simp) (by simp)) ?_)
          rintro outcome final ⟨rfl, rfl⟩
          exact wp_pure (iff_of_true ⟨_, _, rfl⟩ rfl)

/-- A failback keeps the discipline of the direction to the primary site. -/
theorem wp_failback (execute confirmed : Bool) :
    wp discipline (failback engine execute confirmed) FailbackSettles (.idle .failback) := by
  have idle : ∀ error : Exn, FailbackSettles (.error error) (.idle .failback) :=
    fun error => failbackSettles_error (by simp)
  have unsettled : ∀ given : Failback, (∀ number details, given ≠ .success number details) →
      FailbackSettles (.ok given) (.idle .failback) :=
    fun given other => iff_of_false
      (by rintro ⟨number, details, same⟩; exact other number details (Except.ok.inj same)) (by simp)
  refine wp_bind (wp_mono (wp_calm (footprint_ensureEnabled engine []) (by simp)) ?_)
  rintro outcome final rfl
  cases outcome with
  | error error => exact idle error
  | ok _ =>
    refine wp_bind (wp_served trivial trivial fun latest => ?_)
    cases latest with
    | none => exact wp_pure (unsettled _ (by simp))
    | some last =>
      refine wp_bind (wp_mono (wp_calm footprint_alreadyFailedOver (by simp [Calm])) ?_)
      rintro outcome final rfl
      cases outcome with
      | error error => exact idle error
      | ok active =>
        dsimp only
        split
        · exact wp_pure (unsettled _ (by simp))
        · refine wp_bind (wp_served trivial trivial fun workloads => ?_)
          dsimp only
          split
          · exact wp_pure (unsettled _ (by simp))
          · split
            · exact wp_throw (idle _)
            · refine wp_bind (wp_mono (wp_createDrRun (Or.inr ⟨rfl, rfl⟩)) ?_)
              rintro outcome final ⟨run_id, rfl, rfl⟩
              refine wp_tryCatch (wp_mono (wp_runFailback _ workloads) ?_)
              intro outcome final settles
              cases outcome with
              | ok failback => exact settles
              | error error =>
                have running : final = .running .failback run_id := settles
                subst running
                exact wp_abortFailback error

/-- A demotion makes no transition of its own. -/
theorem wp_demoteDr (execute : Bool) :
    wp discipline (demoteDr engine execute) (fun _ final => final = .idle .failback)
      (.idle .failback) := by
  refine wp_bind (wp_mono (wp_calm (footprint_ensureEnabled engine []) (by simp)) ?_)
  rintro outcome final rfl
  cases outcome with
  | error error => rfl
  | ok _ =>
    refine wp_bind (wp_served trivial trivial fun latest => ?_)
    cases latest with
    | none => exact wp_pure rfl
    | some last =>
      refine wp_bind (wp_served trivial trivial fun workloads => ?_)
      refine wp_bind (wp_mono (wp_calm (NetworkManager.footprint_deactivate _ _ _)
        (by simp [Calm])) ?_)
      rintro outcome final rfl
      cases outcome with
      | error error => rfl
      | ok network =>
        dsimp only
        split
        · exact wp_pure rfl
        · refine wp_bind (wp_mono (wp_calm (NetworkManager.footprint_deactivate _ _ _)
            (by simp [Calm])) ?_)
          rintro outcome final rfl
          cases outcome with
          | error error => rfl
          | ok _ =>
            refine wp_bind (wp_mono (wp_calm (footprint_switchOffConfigured engine _)
              (by simp [Calm])) ?_)
            rintro outcome final rfl
            cases outcome with
            | error error => rfl
            | ok _ =>
              refine wp_bind (wp_mono (wp_audit _ _ _ _ _ (.idle .failback) (by simp)
                (by simp)) ?_)
              rintro outcome final ⟨rfl, rfl⟩
              exact wp_pure rfl

/-- A watch settles a row with success exactly when its promotion is a success. -/
def WatchSettles (outcome : Except Exn Watch) (final : Phase) : Prop :=
  (∃ health run_id details, outcome = .ok (.promoted health (.success run_id details))) ↔
    final = .closed true

/-- A watch that promotes keeps the discipline of its promotion. -/
theorem wp_watch : wp discipline (watch engine) WatchSettles (.idle .failover) := by
  have idle : ∀ error : Exn, WatchSettles (.error error) (.idle .failover) := fun error =>
    iff_of_false (by rintro ⟨_, _, _, impossible⟩; cases impossible) (by simp)
  have unsettled : ∀ given : Watch, (∀ health promotion, given ≠ .promoted health promotion) →
      WatchSettles (.ok given) (.idle .failover) := fun given other =>
    iff_of_false (by rintro ⟨health, number, details, same⟩
                     exact other health _ (Except.ok.inj same)) (by simp)
  refine wp_bind (wp_mono (wp_calm (footprint_ensureEnabled engine []) (by simp)) ?_)
  rintro outcome final rfl
  cases outcome with
  | error error => exact idle error
  | ok _ =>
    refine wp_bind (wp_mono (wp_calm (@footprint_request [.outside] _ (by simp [Command.effect]))
      (by simp [Calm])) ?_)
    rintro outcome final rfl
    cases outcome with
    | error error => exact idle error
    | ok maintenance =>
      dsimp only
      split
      · exact wp_pure (unsettled _ (by simp))
      · refine wp_bind (wp_served trivial trivial fun previous => ?_)
        refine wp_bind (wp_mono (wp_calm (footprint_waitingTime engine previous)
          (by simp [Calm])) ?_)
        rintro outcome final rfl
        cases outcome with
        | error error => exact idle error
        | ok waiting =>
          cases waiting with
          | some waiting => exact wp_pure (unsettled _ (by simp))
          | none =>
            refine wp_bind (wp_mono (wp_calm (footprint_evaluatePrimary engine)
              (by simp [Calm])) ?_)
            rintro outcome final rfl
            cases outcome with
            | error error => exact idle error
            | ok state =>
              dsimp only
              split
              · exact wp_pure (unsettled _ (by simp))
              · refine wp_bind (wp_mono (wp_calm footprint_alreadyFailedOver
                  (by simp [Calm])) ?_)
                rintro outcome final rfl
                cases outcome with
                | error error => exact idle error
                | ok active =>
                  dsimp only
                  split
                  · exact wp_pure (unsettled _ (by simp))
                  · refine wp_bind (wp_mono (wp_promote true false true) ?_)
                    intro outcome final settles
                    cases outcome with
                    | error error =>
                      refine iff_of_false ?_ ?_
                      · rintro ⟨_, _, _, impossible⟩
                        cases impossible
                      · intro settled
                        obtain ⟨_, _, impossible⟩ := settles.mpr settled
                        cases impossible
                    | ok promotion =>
                      refine wp_pure (Iff.trans ?_ settles)
                      constructor
                      · rintro ⟨health, number, details, same⟩
                        cases same
                        exact ⟨number, details, rfl⟩
                      · rintro ⟨number, details, same⟩
                        cases same
                        exact ⟨state, number, details, rfl⟩

end Calls

end Discipline

section Stamps

/-- A run is recorded with the clock reading that the call has just made. -/
def stamping : Monitor controller Exn (Option Timestamps.Timestamp) where
  permits := fun reading command =>
    match command with
    | .transact (.insertRun row) => reading = some row.started_at
    | _ => True
  possible := fun _ _ _ => True
  next := fun _ command answer =>
    match command, answer with
    | .utcnow, .ok now => some now
    | _, _ => none

/-- A program all of whose runs are recorded with a fresh clock reading. -/
def Stamps {α : Type} (program : Prog α) : Prop := Keeps stamping (fun _ => True) program

variable {α : Type}

/-- A program that writes no run records none. -/
theorem stamps_footprint {effects : List Effect} {program : Prog α}
    (footprint : Footprint effects program) (unwritten : .writing .runs ∉ effects) :
    Stamps program := by
  intro reading _
  refine wp_footprint (fun _ => True) footprint trivial ?_
  intro phase command _ listed
  refine ⟨?_, fun _ _ => trivial⟩
  simp only [stamping]
  split
  · exact absurd listed unwritten
  · trivial

theorem stamps_createDrRun (direction : Direction) (source_site target_site : String)
    (details : Dict) : Stamps (createDrRun direction source_site target_site details) := by
  intro reading _
  refine wp_bind (wp_perform trivial ?_)
  intro answer _
  cases answer with
  | error error => trivial
  | ok now => exact wp_perform rfl fun _ _ => trivial

theorem stamps_finishDrRun (run_id : Nat) (success : Bool) (details : Dict)
    (error : Option String) : Stamps (finishDrRun run_id success details error) := by
  intro reading _
  refine wp_bind (wp_perform trivial ?_)
  intro answer _
  cases answer with
  | error error => trivial
  | ok now => exact wp_perform trivial fun _ _ => trivial

theorem stamps_audit (actor action object_type object_id : String) (details : Dict) :
    Stamps (audit actor action object_type object_id details) :=
  stamps_footprint (@footprint_audit [.silent, .writing .audits] (by simp) (by simp) _ _ _ _ _)
    (by simp)

variable (engine : Engine)

theorem stamps_abortPromotion (run_id : Nat) (restored : List Restored) (exc : Exn) :
    Stamps (abortPromotion engine run_id restored exc) := by
  refine keeps_bind (stamps_footprint (NetworkManager.footprint_deactivate _ _ _) (by simp))
    fun _ => ?_
  refine keeps_bind (stamps_footprint (footprint_switchOffQuietly engine _) (by simp)) fun _ => ?_
  refine keeps_bind (stamps_finishDrRun _ _ _ _) fun _ => ?_
  exact keeps_bind (stamps_audit _ _ _ _ _) fun _ => keeps_throw _

theorem stamps_runPromotion (run_id : Nat) (approved : DRPlan) :
    Stamps (runPromotion engine run_id approved) := by
  refine keeps_bind (stamps_footprint (footprint_attempt (footprint_prepareSites engine))
    (by simp)) fun prepared => ?_
  cases prepared with
  | error exc => exact stamps_abortPromotion engine _ _ _
  | ok started =>
    refine keeps_bind (stamps_footprint (footprint_restoreWorkloads engine _ _ _ _)
      (by simp [restoreEffects])) fun recovered => ?_
    obtain ⟨restored, failed⟩ := recovered
    cases failed with
    | some exc => exact stamps_abortPromotion engine _ _ _
    | none =>
      refine keeps_tryCatch ?_ fun error => stamps_abortPromotion engine _ _ _
      refine keeps_bind (stamps_footprint (NetworkManager.footprint_activate _ _) (by simp))
        fun _ => ?_
      refine keeps_bind (stamps_footprint (footprint_startMachines engine _ _) (by simp))
        fun health => ?_
      refine keeps_bind (stamps_finishDrRun _ _ _ _) fun _ => ?_
      exact keeps_bind (stamps_audit _ _ _ _ _) fun _ => keeps_pure _

theorem stamps_promote (execute confirmed automatic : Bool) :
    Stamps (promote engine execute confirmed automatic) := by
  refine keeps_bind (stamps_footprint (footprint_ensureEnabled engine []) (by simp)) fun _ => ?_
  refine keeps_bind (stamps_footprint (footprint_plan engine) (by simp)) fun approved => ?_
  split
  · exact keeps_pure _
  · refine keeps_bind (stamps_footprint footprint_alreadyFailedOver (by simp)) fun active => ?_
    split
    · exact keeps_pure _
    · split
      · exact keeps_throw _
      · refine keeps_bind (stamps_footprint (footprint_preflight engine approved) (by simp))
          fun report => ?_
        split
        · exact keeps_throw _
        · refine keeps_bind (stamps_footprint (footprint_fencePrimary engine _ _) (by simp))
            fun _ => ?_
          exact keeps_bind (stamps_createDrRun _ _ _ _) fun run_id =>
            stamps_runPromotion engine _ _

theorem stamps_failback (execute confirmed : Bool) :
    Stamps (failback engine execute confirmed) := by
  refine keeps_bind (stamps_footprint (footprint_ensureEnabled engine []) (by simp)) fun _ => ?_
  refine keeps_bind (stamps_footprint (@footprint_transact [.silent] _
    (by simp [Command.effect, writes])) (by simp)) fun latest => ?_
  cases latest with
  | none => exact keeps_pure _
  | some last =>
    refine keeps_bind (stamps_footprint footprint_alreadyFailedOver (by simp)) fun active => ?_
    split
    · exact keeps_pure _
    · refine keeps_bind (stamps_footprint (@footprint_transact [.silent] _
        (by simp [Command.effect, writes])) (by simp)) fun workloads => ?_
      split
      · exact keeps_pure _
      · split
        · exact keeps_throw _
        · refine keeps_bind (stamps_createDrRun _ _ _ _) fun run_id => ?_
          refine keeps_tryCatch ?_ fun error => ?_
          · refine keeps_bind (stamps_footprint (footprint_returnWorkloads engine _ _)
              (by simp [returnEffects])) fun returned => ?_
            refine keeps_bind (stamps_footprint (footprint_switchOff engine _) (by simp))
              fun _ => ?_
            refine keeps_bind (stamps_footprint (NetworkManager.footprint_activate _ _)
              (by simp)) fun _ => ?_
            refine keeps_bind (stamps_footprint (footprint_startMachines engine _ _) (by simp))
              fun health => ?_
            refine keeps_bind (stamps_finishDrRun _ _ _ _) fun _ => ?_
            exact keeps_bind (stamps_audit _ _ _ _ _) fun _ => keeps_pure _
          · refine keeps_bind (stamps_finishDrRun _ _ _ _) fun _ => ?_
            exact keeps_bind (stamps_audit _ _ _ _ _) fun _ => keeps_throw _

theorem stamps_demoteDr (execute : Bool) : Stamps (demoteDr engine execute) := by
  refine keeps_bind (stamps_footprint (footprint_ensureEnabled engine []) (by simp)) fun _ => ?_
  refine keeps_bind (stamps_footprint (@footprint_transact [.silent] _
    (by simp [Command.effect, writes])) (by simp)) fun latest => ?_
  cases latest with
  | none => exact keeps_pure _
  | some last =>
    refine keeps_bind (stamps_footprint (@footprint_transact [.silent] _
      (by simp [Command.effect, writes])) (by simp)) fun workloads => ?_
    refine keeps_bind (stamps_footprint (NetworkManager.footprint_deactivate _ _ _) (by simp))
      fun network => ?_
    split
    · exact keeps_pure _
    · refine keeps_bind (stamps_footprint (NetworkManager.footprint_deactivate _ _ _) (by simp))
        fun _ => ?_
      refine keeps_bind (stamps_footprint (footprint_switchOffConfigured engine _) (by simp))
        fun _ => ?_
      exact keeps_bind (stamps_audit _ _ _ _ _) fun _ => keeps_pure _

theorem stamps_watch : Stamps (watch engine) := by
  refine keeps_bind (stamps_footprint (footprint_ensureEnabled engine []) (by simp)) fun _ => ?_
  refine keeps_bind (stamps_footprint (@footprint_request [.outside] _ (by simp [Command.effect]))
    (by simp)) fun maintenance => ?_
  split
  · exact keeps_pure _
  · refine keeps_bind (stamps_footprint (@footprint_transact [.silent] _
      (by simp [Command.effect, writes])) (by simp)) fun previous => ?_
    refine keeps_bind (stamps_footprint (footprint_waitingTime engine previous) (by simp))
      fun waiting => ?_
    cases waiting with
    | some waiting => exact keeps_pure _
    | none =>
      refine keeps_bind (stamps_footprint (footprint_evaluatePrimary engine) (by simp))
        fun state => ?_
      split
      · exact keeps_pure _
      · refine keeps_bind (stamps_footprint footprint_alreadyFailedOver (by simp)) fun active => ?_
        split
        · exact keeps_pure _
        · exact keeps_bind (stamps_promote engine _ _ _) fun promotion => keeps_pure _

end Stamps

end Immutavault.FailoverRuns
