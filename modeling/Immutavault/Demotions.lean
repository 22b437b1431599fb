import Immutavault.FailoverRuns
import Mathlib.Data.List.Induction

/-!
# Operations one after another

Promotions, watches, demotions and failbacks are run in turn, and each of them
may fail. A promotion that succeeds makes the failover active, and a failback
that succeeds ends it, as the table of runs shows. A demotion withdraws the
recovery site, but it records no run, so the table shows the same as before it.
-/

namespace Immutavault.Demotions

open Programs Values Timestamps Catalog Machine Histories DROrchestrator FailoverRuns RestoreEngine

/-- One operation on the pair of sites. -/
inductive Operation where
  | promote (execute confirmed automatic : Bool)
  | watch
  | demote (execute : Bool)
  | failback (execute confirmed : Bool)

/-- What an operation that was a success has completed. -/
inductive Completed where
  | promoted
  | demoted
  | failedBack
  deriving DecidableEq, Repr

/-- Run one operation and say what it has completed. -/
def Operation.program (engine : Engine) : Operation → Prog (Option Completed)
  | .promote execute confirmed automatic => do
    match ← DROrchestrator.promote engine execute confirmed automatic with
    | .success _ _ => return some .promoted
    | _ => return none
  | .watch => do
    match ← DROrchestrator.watch engine with
    | .promoted _ (.success _ _) => return some .promoted
    | _ => return none
  | .demote execute => do
    match ← demoteDr engine execute with
    | .demoted _ _ _ => return some .demoted
    | _ => return none
  | .failback execute confirmed => do
    match ← DROrchestrator.failback engine execute confirmed with
    | .success _ _ => return some .failedBack
    | _ => return none

/-- The operations one after another, and what they have completed, in order; what one
of them raises does not keep the next from running. -/
def session (engine : Engine) : List Operation → Prog (List Completed)
  | [] => return []
  | operation :: rest => do
    let outcome ← (operation.program engine).attempt
    let others ← session engine rest
    return outcome.toOption.join.toList ++ others

/-- The direction in which an operation may move the workloads. -/
def Operation.direction : Operation → Direction
  | .promote _ _ _ | .watch => .failover
  | .demote _ | .failback _ _ => .failback

/-- Whether a failover is active after an operation that has completed this. -/
def activeAfter (active : Bool) : Option Completed → Bool
  | some .promoted => true
  | some .failedBack => false
  | _ => active

section Operations

variable (engine : Engine)

/-- What an operation completes when it settles its row with success. -/
def Operation.achieves : Operation → Completed
  | .promote _ _ _ | .watch => .promoted
  | .demote _ | .failback _ _ => .failedBack

/-- An operation has completed a transition exactly when it has settled a row with success. -/
structure Operation.Settles (operation : Operation) (outcome : Except Exn (Option Completed))
    (final : Phase) : Prop where
  settled : final = .closed true → outcome.toOption.join = some operation.achieves
  unsettled : final ≠ .closed true → activeAfter true outcome.toOption.join = true ∧
    activeAfter false outcome.toOption.join = false

/-- An operation that has settled nothing has completed at most a demotion. -/
theorem settles_nothing {operation : Operation} {outcome : Except Exn (Option Completed)}
    {final : Phase} (other : final ≠ .closed true)
    (nothing : outcome.toOption.join = none ∨ outcome.toOption.join = some .demoted) :
    operation.Settles outcome final := by
  refine ⟨fun settled => absurd settled other, fun _ => ?_⟩
  rcases nothing with same | same <;> rw [same] <;> exact ⟨rfl, rfl⟩

theorem settles_success {operation : Operation} {final : Phase} (settled : final = .closed true) :
    operation.Settles (.ok (some operation.achieves)) final :=
  ⟨fun _ => rfl, fun other => absurd settled other⟩

/-- Every operation keeps the discipline of its direction. -/
theorem wp_operation (operation : Operation) :
    wp discipline (operation.program engine) operation.Settles (.idle operation.direction) := by
  cases operation with
  | promote execute confirmed automatic =>
    refine wp_bind (wp_mono (wp_promote execute confirmed automatic) ?_)
    intro outcome final settles
    have other : (∀ number details, outcome ≠ .ok (.success number details)) →
        final ≠ .closed true := fun none settled => by
      obtain ⟨number, details, same⟩ := settles.mpr settled
      exact none number details same
    cases outcome with
    | error error => exact settles_nothing (other (by simp)) (Or.inl rfl)
    | ok promotion =>
      cases promotion with
      | planned plan => exact wp_pure (settles_nothing (other (by simp)) (Or.inl rfl))
      | alreadyFailedOver => exact wp_pure (settles_nothing (other (by simp)) (Or.inl rfl))
      | success number details => exact wp_pure (settles_success (settles.mp ⟨_, _, rfl⟩))
  | watch =>
    refine wp_bind (wp_mono wp_watch ?_)
    intro outcome final settles
    have other : (∀ health number details,
        outcome ≠ .ok (.promoted health (.success number details))) → final ≠ .closed true :=
      fun none settled => by
        obtain ⟨health, number, details, same⟩ := settles.mpr settled
        exact none health number details same
    cases outcome with
    | error error => exact settles_nothing (other (by simp)) (Or.inl rfl)
    | ok given =>
      cases given with
      | maintenance => exact wp_pure (settles_nothing (other (by simp)) (Or.inl rfl))
      | notDue seconds health => exact wp_pure (settles_nothing (other (by simp)) (Or.inl rfl))
      | observed health => exact wp_pure (settles_nothing (other (by simp)) (Or.inl rfl))
      | alreadyFailedOver health =>
        exact wp_pure (settles_nothing (other (by simp)) (Or.inl rfl))
      | promoted health promotion =>
        cases promotion with
        | planned plan => exact wp_pure (settles_nothing (other (by simp)) (Or.inl rfl))
        | alreadyFailedOver => exact wp_pure (settles_nothing (other (by simp)) (Or.inl rfl))
        | success number details =>
          exact wp_pure (settles_success (settles.mp ⟨_, _, _, rfl⟩))
  | demote execute =>
    refine wp_bind (wp_mono (wp_demoteDr execute) ?_)
    rintro outcome final rfl
    cases outcome with
    | error error => exact settles_nothing (by simp) (Or.inl rfl)
    | ok demotion =>
      cases demotion with
      | nothingToDemote => exact wp_pure (settles_nothing (by simp) (Or.inl rfl))
      | planned number workloads network => exact wp_pure (settles_nothing (by simp) (Or.inl rfl))
      | demoted number workloads network => exact wp_pure (settles_nothing (by simp) (Or.inr rfl))
  | failback execute confirmed =>
    refine wp_bind (wp_mono (wp_failback execute confirmed) ?_)
    intro outcome final settles
    have other : (∀ number details, outcome ≠ .ok (.success number details)) →
        final ≠ .closed true := fun none settled => by
      obtain ⟨number, details, same⟩ := settles.mpr settled
      exact none number details same
    cases outcome with
    | error error => exact settles_nothing (other (by simp)) (Or.inl rfl)
    | ok given =>
      cases given with
      | noActiveFailover => exact wp_pure (settles_nothing (other (by simp)) (Or.inl rfl))
      | planned number workloads => exact wp_pure (settles_nothing (other (by simp)) (Or.inl rfl))
      | success number details => exact wp_pure (settles_success (settles.mp ⟨_, _, rfl⟩))

/-- Every run that an operation records carries a fresh clock reading. -/
theorem stamps_operation (operation : Operation) : Stamps (operation.program engine) := by
  cases operation with
  | promote execute confirmed automatic =>
    refine keeps_bind (stamps_promote engine _ _ _) fun promotion => ?_
    split <;> exact keeps_pure _
  | watch =>
    refine keeps_bind (stamps_watch engine) fun given => ?_
    split <;> exact keeps_pure _
  | demote execute =>
    refine keeps_bind (stamps_demoteDr engine _) fun demotion => ?_
    split <;> exact keeps_pure _
  | failback execute confirmed =>
    refine keeps_bind (stamps_failback engine _ _) fun given => ?_
    split <;> exact keeps_pure _

end Operations

section Sequences

variable {env : Environment}

/-- Every recorded run started before now. -/
def Past (world : World) : Prop :=
  ∀ number row, world.db.runs.lookup number = some row → row.started_at < world.clock

/-- What the table shows while one operation takes its course: the same as before it,
until the row of the operation is settled with success. No run started after that row. -/
def Shows (active : Bool) (direction : Direction) (db : Database) : Phase → Prop
  | .idle given => given = direction ∧ failedOver db = active
  | .fencing => direction = .failover ∧ failedOver db = active
  | .running given run_id => given = direction ∧ failedOver db = active ∧
      ∃ row, db.runs.lookup run_id = some row ∧ row.status = .running ∧
        row.direction = direction ∧ ∀ number other, db.runs.lookup number = some other →
          number ≠ run_id → other.started_at < row.started_at
  | .closed true => failedOver db = decide (direction = .failover)
  | .closed false => failedOver db = active

/-- An operation takes its course. A clock reading that is kept for the next command is
later than the start of every recorded run. -/
structure Course (active : Bool) (direction : Direction) (world : World)
    (phases : Phase × Option Timestamp) : Prop where
  past : Past world
  stamped : ∀ now, phases.2 = some now → now ≤ world.clock ∧
    ∀ number row, world.db.runs.lookup number = some row → row.started_at < now
  shows : Shows active direction world.db phases.1

theorem shows_same {active : Bool} {direction : Direction} {before after : Database}
    {phase : Phase} (same : Table.runs.Same before after)
    (shows : Shows active direction before phase) : Shows active direction after phase := by
  have unmoved : failedOver after = failedOver before := failedOver_same same
  have rows : after.runs = before.runs := same
  cases phase with
  | idle given => exact ⟨shows.1, unmoved.trans shows.2⟩
  | fencing => exact ⟨shows.1, unmoved.trans shows.2⟩
  | running given run_id =>
    obtain ⟨own, quiet, row, present, rest⟩ := shows
    refine ⟨own, unmoved.trans quiet, row, rows ▸ present, ?_⟩
    rw [rows]
    exact rest
  | closed success => cases success <;> exact unmoved.trans shows

/-- A reading that is kept for the next command is the time. -/
theorem stamping_next {reading : Option Timestamp} {world : World} {command : Command}
    {now : Timestamp} (kept : stamping.next reading command (env.reply world command) = some now) :
    now = world.clock := by
  cases command with
  | utcnow => exact (Option.some.inj kept).symm
  | rmtree path => cases kept
  | transact transaction => cases kept
  | request external => cases kept

/-- A command that writes no run changes nothing that the table shows. -/
theorem course_other {active : Bool} {direction : Direction} {world : World}
    {phases : Phase × Option Timestamp} {command : Command}
    (other : command.effect ≠ .writing .runs)
    (course : Course active direction world phases) :
    Course active direction (env.handler command world).2
      ((discipline.both stamping).next phases command (env.reply world command)) := by
  obtain ⟨past, stamped, shows⟩ := course
  have later : world.clock ≤ (env.handler command world).2.clock := Nat.le_add_right _ _
  have same : Table.runs.Same world.db (env.handler command world).2.db :=
    commit_same world.db other
  have rows : (env.handler command world).2.db.runs = world.db.runs := same
  refine ⟨?_, ?_, ?_⟩
  · intro number row found
    rw [rows] at found
    exact Nat.lt_of_lt_of_le (past number row found) later
  · intro now kept
    have present : now = world.clock := @stamping_next env phases.2 world command now kept
    subst present
    exact ⟨later, fun number row found => past number row (rows ▸ found)⟩
  · simp only [Monitor.both, discipline_next_other other]
    split
    · rename_i fencing
      rw [fencing.1] at shows
      exact shows_same same ⟨shows.1.symm, shows.2⟩
    · exact shows_same same shows

/-- A run is recorded as running, and started after all others. -/
theorem course_insert {active : Bool} {direction : Direction} {world : World}
    {phases : Phase × Option Timestamp} {row : RunRow}
    (advances : 0 < env.elapsed world.log (.transact (.insertRun row)))
    (permitted : (discipline.both stamping).permits phases (.transact (.insertRun row)))
    (course : Course active direction world phases) :
    Course active direction (env.handler (.transact (.insertRun row)) world).2
      ((discipline.both stamping).next phases (.transact (.insertRun row))
        (env.reply world (.transact (.insertRun row)))) := by
  obtain ⟨past, stamped, shows⟩ := course
  obtain ⟨⟨_, running, ready⟩, stamp⟩ := permitted
  obtain ⟨known, newest⟩ := stamped row.started_at stamp
  have inserted : ∀ number, (env.handler (.transact (.insertRun row)) world).2.db.runs.lookup
      number = if number = world.db.runs.next then some row else world.db.runs.lookup number :=
    Tables.Numbered.lookup_insert world.db.runs row
  have later : world.clock < (env.handler (.transact (.insertRun row)) world).2.clock :=
    Nat.lt_add_of_pos_right advances
  have unmoved : failedOver (env.handler (.transact (.insertRun row)) world).2.db =
      failedOver world.db := failedOver_congr (succeeded_insert running)
  have quiet : row.direction = direction ∧ failedOver world.db = active := by
    rcases ready with ⟨fencing, forth⟩ | ⟨idle, back⟩
    · rw [fencing] at shows
      exact ⟨forth.trans shows.1.symm, shows.2⟩
    · rw [idle] at shows
      exact ⟨back.trans shows.1, shows.2⟩
  refine ⟨?_, ?_, quiet.1, unmoved.trans quiet.2, row, ?_, running, quiet.1, ?_⟩
  · intro number given found
    rw [inserted] at found
    split at found
    · cases found
      exact Nat.lt_of_le_of_lt known later
    · exact (past number given found).trans later
  · intro now impossible
    cases impossible
  · rw [inserted]
    exact if_pos rfl
  · intro number other found different
    have old : number ≠ world.db.runs.next := different
    rw [inserted, if_neg old] at found
    exact newest number other found

/-- A run that is settled with success decides what the table shows. -/
theorem course_finish {active : Bool} {direction : Direction} {world : World}
    {phases : Phase × Option Timestamp} {run_id : Nat} {finished_at : Timestamp} {success : Bool}
    {details : Dict} {error : Option String}
    (permitted : (discipline.both stamping).permits phases
      (.transact (.finishRun run_id finished_at success details error)))
    (course : Course active direction world phases) :
    Course active direction
      (env.handler (.transact (.finishRun run_id finished_at success details error)) world).2
      ((discipline.both stamping).next phases
        (.transact (.finishRun run_id finished_at success details error))
        (env.reply world (.transact (.finishRun run_id finished_at success details error)))) := by
  obtain ⟨past, stamped, shows⟩ := course
  obtain ⟨⟨_, given, running⟩, _⟩ := permitted
  rw [running] at shows
  obtain ⟨_, before, row, present, unsettled, own, newest⟩ := shows
  have earlier : ∀ other number ended, other ≠ direction → Succeeded world.db other number ended →
      ended.started_at < row.started_at := by
    intro other number ended different succeeded
    refine newest number ended succeeded.1 fun same => different ?_
    subst same
    obtain ⟨found, direct, _⟩ := succeeded
    rw [present] at found
    cases found
    exact direct.symm.trans own
  refine ⟨?_, ?_, ?_⟩
  · intro number ended found
    have later : world.clock ≤ (env.handler (.transact (.finishRun run_id finished_at success
      details error)) world).2.clock := Nat.le_add_right _ _
    have changed : (if number = run_id then (world.db.runs.lookup run_id).map
        (fun row => settledRow row finished_at success details error)
        else world.db.runs.lookup number) = some ended :=
      (Tables.Numbered.lookup_modify world.db.runs run_id number _).symm.trans found
    split at changed
    · rw [present] at changed
      cases changed
      exact Nat.lt_of_lt_of_le (past run_id row present) later
    · exact Nat.lt_of_lt_of_le (past number ended changed) later
  · intro now impossible
    cases impossible
  · cases success with
    | false => exact (failedOver_finish_failed present unsettled _ _ _).trans before
    | true =>
      cases direction with
      | failover =>
        exact failedOver_finish_failover present unsettled own
          (fun number ended => earlier .failback number ended (by decide)) _ _ _
      | failback =>
        exact failedOver_finish_failback present unsettled own
          (fun number ended succeeded =>
            (earlier .failover number ended (by decide) succeeded).le) _ _ _

/-- Every command that both monitors permit keeps an operation on its course. -/
theorem course_step (advances : ∀ history row,
      0 < env.elapsed history (.transact (.insertRun row)))
    {active : Bool} {direction : Direction} (world : World)
    (phases : Phase × Option Timestamp) (command : Command)
    (course : Course active direction world phases)
    (permitted : (discipline.both stamping).permits phases command) :
    (discipline.both stamping).possible phases command (env.handler command world).1 ∧
      Course active direction (env.handler command world).2
        ((discipline.both stamping).next phases command (env.handler command world).1) := by
  refine ⟨⟨served_reply env world command, trivial⟩, ?_⟩
  by_cases writing : command.effect = .writing .runs
  · rcases writing_runs writing with ⟨row, rfl⟩ | ⟨run_id, finished_at, success, details, error, rfl⟩
    · exact course_insert (advances _ _) permitted course
    · exact course_finish permitted course
  · exact course_other writing course

variable (engine : Engine)

/-- After an operation the table shows what the operation has completed. -/
theorem run_operation (advances : ∀ history row,
      0 < env.elapsed history (.transact (.insertRun row)))
    (operation : Operation) {world : World} (past : Past world) :
    Past (run env.handler (operation.program engine) world).2 ∧
      failedOver (run env.handler (operation.program engine) world).2.db =
        activeAfter (failedOver world.db)
          (run env.handler (operation.program engine) world).1.toOption.join := by
  have begun : Course (failedOver world.db) operation.direction world
      (.idle operation.direction, none) :=
    ⟨past, by rintro now ⟨⟩, rfl, rfl⟩
  obtain ⟨final, ⟨settles, _⟩, course⟩ := wp_follows (course_step advances)
    (wp_both (wp_operation engine operation) (stamps_operation engine operation none trivial)) begun
  refine ⟨course.past, ?_⟩
  have shows := course.shows
  by_cases settled : final.1 = .closed true
  · rw [settled] at shows
    rw [settles.settled settled]
    refine Eq.trans shows ?_
    cases operation <;> rfl
  · have unmoved : failedOver (run env.handler (operation.program engine) world).2.db =
        failedOver world.db := by
      revert shows settled
      cases final.1 with
      | idle given => exact fun shows _ => shows.2
      | fencing => exact fun shows _ => shows.2
      | running given run_id => exact fun shows _ => shows.2.1
      | closed success =>
        cases success with
        | true => exact fun _ impossible => absurd rfl impossible
        | false => exact fun shows _ => shows
    obtain ⟨kept, dropped⟩ := settles.unsettled settled
    rw [unmoved]
    cases failedOver world.db with
    | true => exact kept.symm
    | false => exact dropped.symm

/-- After a session the table shows what its operations have completed, in order. -/
theorem run_session (advances : ∀ history row,
      0 < env.elapsed history (.transact (.insertRun row)))
    (operations : List Operation) {world : World} (past : Past world) :
    ∃ completed after, run env.handler (session engine operations) world = (.ok completed, after) ∧
      failedOver after.db = completed.foldl (fun active one => activeAfter active (some one))
        (failedOver world.db) := by
  induction operations generalizing world with
  | nil => exact ⟨[], world, rfl, rfl⟩
  | cons operation rest inductionHypothesis =>
    obtain ⟨still, shown⟩ := run_operation engine advances operation past
    obtain ⟨completed, after, ran, final⟩ := inductionHypothesis still
    refine ⟨(run env.handler (operation.program engine) world).1.toOption.join.toList ++ completed,
      after, ?_, ?_⟩
    · rw [session, run_bind, run_attempt]
      dsimp only
      rw [run_bind, ran]
      rfl
    · rw [final, shown, List.foldl_append]
      cases (run env.handler (operation.program engine) world).1.toOption.join <;> rfl

/-- The failover is active after these completions when the last that was not a
demotion was a promotion. -/
theorem foldl_activeAfter (completed : List Completed) :
    completed.foldl (fun active one => activeAfter active (some one)) false = true ↔
      (completed.filter (· ≠ .demoted)).getLast? = some .promoted := by
  induction completed using List.reverseRecOn with
  | nil => simp
  | append_singleton before last inductionHypothesis =>
    rw [List.foldl_append, List.filter_append]
    cases last with
    | promoted => simp [activeAfter]
    | demoted => simpa [activeAfter] using inductionHypothesis
    | failedBack => simp [activeAfter]

/-- After any operations on new catalogue tables, the guard says that a failover is
active exactly when the last completed operation was a promotion, if and only if the
operations do not end with demotions of an active failover. -/
theorem demotion_ends_failover (env : Environment) (engine : Engine)
    (advances : ∀ history row, 0 < env.elapsed history (.transact (.insertRun row)))
    (operations : List Operation) (world : World) :
    ∃ completed after,
      run env.handler (session engine operations)
        { world with db := { world.db with runs := Tables.Numbered.empty } } =
          (.ok completed, after) ∧
      (((run env.handler alreadyFailedOver after).1 = .ok true ↔
          completed.getLast? = some .promoted) ↔
        ¬ (completed.getLast? = some .demoted ∧
          (completed.filter (· ≠ .demoted)).getLast? = some .promoted)) := by
  have past : Past { world with db := { world.db with runs := Tables.Numbered.empty } } :=
    fun number row impossible => by cases impossible
  obtain ⟨completed, after, ran, shown⟩ := run_session engine advances operations past
  refine ⟨completed, after, ran, ?_⟩
  obtain ⟨_, guard, _⟩ := run_alreadyFailedOver env after
  have active : (run env.handler alreadyFailedOver after).1 = .ok true ↔
      (completed.filter (· ≠ .demoted)).getLast? = some .promoted := by
    rw [guard, ← foldl_activeAfter]
    simp only [Except.ok.injEq]
    rw [shown]
    rfl
  rw [active]
  cases completed using List.reverseRecOn with
  | nil => simp
  | append_singleton before last =>
    cases last <;> simp

end Sequences

/-- A promotion and a demotion of it. -/
def demoted : Except Exn (List Completed) × World :=
  run cooperative.handler (session recovery [.promote true true false, .demote true])
    ⟨replicated, 0, []⟩

/-- After a demotion that succeeded the guard still finds the failover active, and
another promotion is refused. -/
theorem demoted_but_failed_over :
    demoted.1.toOption = some [.promoted, .demoted] ∧
    (run cooperative.handler alreadyFailedOver demoted.2).1.toOption = some true ∧
    (match (run cooperative.handler (promote recovery true true false) demoted.2).1 with
      | .ok .alreadyFailedOver => true
      | _ => false) = true := by
  refine ⟨?_, ?_, ?_⟩ <;> decide

/-- The same session, and what the theorem says about it. -/
theorem demotion_ends_failover_sample :
    ∃ completed after,
      run cooperative.handler (session recovery [.promote true true false, .demote true])
        ⟨{ replicated with runs := Tables.Numbered.empty }, 0, []⟩ = (.ok completed, after) ∧
      (((run cooperative.handler alreadyFailedOver after).1 = .ok true ↔
          completed.getLast? = some .promoted) ↔
        ¬ (completed.getLast? = some .demoted ∧
          (completed.filter (· ≠ .demoted)).getLast? = some .promoted)) :=
  demotion_ends_failover cooperative recovery (fun _ _ => Nat.one_pos) _ ⟨replicated, 0, []⟩

end Immutavault.Demotions
