import Immutavault.Demotions
import Mathlib.Data.Fintype.Basic

/-!
# Transitions of several calls

Promotions, watches, failbacks and demotions may be called at the same time, by a
timer and by people. A call is in transition from its fence, or from the insertion
of its run, until the run is settled. The guard of a promotion reads only settled
runs, and no lock is taken, so nothing keeps two calls from being in transition
together.

What is shown here is what would follow from a guard that is evaluated when a
transition begins, and that also sees the transitions under way: at most one call
is ever in transition, and no promotion touches a recovery machine while an earlier
failover stands.
-/

namespace Immutavault.DRTransitions

open Programs Interleavings Values Timestamps Catalog Machine DROrchestrator FailoverRuns
open Demotions RestoreEngine

/-- A call of an operation, with the configuration of the caller. -/
structure Call where
  engine : Engine
  operation : Operation

def Call.program (call : Call) : Prog Unit := do
  let _ ← call.operation.program call.engine

/-- A call that may move the workloads to the recovery site. -/
def Call.promotes (call : Call) : Bool := call.operation.direction = .failover

/-- The program of a thread that has not ended. -/
def pending : Prog Unit → Bool
  | .call _ _ => true
  | _ => false

/-- A command that settles a run. -/
def settles : Command → Bool
  | .transact (.finishRun ..) => true
  | _ => false

section Definitions

variable {ι : Type} (calls : ι → Call)

/-- A call is in transition when it has begun one, has not settled its run, and has not
ended. -/
def InTransition (pool : Pool controller Exn ι World) (thread : ι) : Prop :=
  thread ∈ performers begins pool.history ∧ thread ∉ performers settles pool.history ∧
    pending (pool.threads thread) = true

instance [DecidableEq ι] (pool : Pool controller Exn ι World) (thread : ι) :
    Decidable (InTransition pool thread) := by
  unfold InTransition
  infer_instance

/-- What a command of a thread makes of a standing failover: settling a run with success
decides by the direction of the call, and a completed demotion ends it. -/
def standsAfter (active : Bool) (thread : ι) : Command → Bool
  | .transact (.finishRun _ _ true _ _) => (calls thread).promotes
  | .transact (.insertAudit row) => if row.action = "dr.demote" then false else active
  | _ => active

/-- Whether a failover stands: a promotion has succeeded, and no failback has succeeded
and no demotion has completed since. -/
def stands (initially : Bool) (history : List (ι × Exchange controller Exn)) : Bool :=
  history.foldl (fun active entry => standsAfter calls active entry.1 entry.2.1) initially

/-- A call that begins a transition finds no other call in one, and a promotion then finds
no active failover. A run is recorded with a later start than every recorded one. -/
def Guarded (pool : Pool controller Exn ι World) (thread : ι) : Prop :=
  match pool.threads thread with
  | .call command _ =>
    (begins command = true → ¬ InTransition pool thread →
      (∀ other, ¬ InTransition pool other) ∧
        ((calls thread).promotes = true → failedOver pool.state.db = false)) ∧
    match command with
    | .transact (.insertRun row) =>
      ∀ entry ∈ pool.state.db.runs.rows, entry.2.started_at < row.started_at
    | _ => True
  | _ => True

instance [DecidableEq ι] [Fintype ι] (pool : Pool controller Exn ι World) (thread : ι) :
    Decidable (Guarded calls pool thread) := by
  unfold Guarded
  split
  · refine @instDecidableAnd _ _ inferInstance ?_
    split <;> infer_instance
  · infer_instance

end Definitions

section Moves

variable {env : Environment} {world : World} {command : Command}

/-- A phase of a call in this direction. -/
def Agrees (direction : Direction) : Phase → Prop
  | .idle given => given = direction
  | .fencing => direction = .failover
  | .running given _ => given = direction
  | .closed _ => True

/-- What a command makes of the phase of its own thread. -/
inductive Moved (world : World) : Phase → Command → Phase → Prop
  | inserted {phase : Phase} {row : RunRow} (running : row.status = .running)
      (ready : (phase = .fencing ∧ row.direction = .failover) ∨
        (phase = .idle .failback ∧ row.direction = .failback)) :
      Moved world phase (.transact (.insertRun row))
        (.running row.direction world.db.runs.next)
  | finished {direction : Direction} {run_id : Nat} {finished_at : Timestamp} {success : Bool}
      {details : Dict} {error : Option String} :
      Moved world (.running direction run_id)
        (.transact (.finishRun run_id finished_at success details error)) (.closed success)
  | fenced {command : Command} (other : command.effect ≠ .writing .runs)
      (beginning : begins command = true) : Moved world (.idle .failover) command .fencing
  | still {phase : Phase} {command : Command} (other : command.effect ≠ .writing .runs)
      (unbegun : begins command = true → ∀ direction, phase ≠ .idle direction) :
      Moved world phase command phase

/-- Every permitted command moves its thread in one of these ways. -/
theorem moved_of_permitted {phase : Phase} (permitted : discipline.permits phase command) :
    Moved world phase command
      (discipline.next phase command (env.handler command world).1) := by
  by_cases writing : command.effect = .writing .runs
  · rcases writing_runs writing with ⟨row, rfl⟩ | ⟨run_id, finished_at, success, details, error, rfl⟩
    · exact Moved.inserted permitted.2.1 permitted.2.2
    · obtain ⟨direction, rfl⟩ := permitted.2
      exact Moved.finished
  · rw [discipline_next_other writing]
    split
    · rename_i fencing
      rw [fencing.1]
      exact Moved.fenced writing fencing.2
    · rename_i unfenced
      refine Moved.still writing fun beginning direction idle => ?_
      subst idle
      cases direction with
      | failover => exact unfenced ⟨rfl, beginning⟩
      | failback =>
        have allowed := permitted.2
        unfold begins at beginning
        split at beginning
        · rcases allowed with impossible | impossible <;> cases impossible
        · exact allowed (by simpa using beginning) rfl
        · exact writing rfl
        · cases beginning

/-- A step keeps every phase in the direction of its call. -/
theorem agrees_step {direction : Direction} {before after : Phase}
    (moved : Moved world before command after) (agrees : Agrees direction before) :
    Agrees direction after := by
  cases moved with
  | inserted running ready =>
    rcases ready with ⟨rfl, forth⟩ | ⟨rfl, back⟩
    · exact forth.trans agrees.symm
    · exact back.trans agrees
  | finished => trivial
  | fenced other beginning => exact agrees.symm
  | still other unbegun => exact agrees

/-- After a step of a thread that has begun, its phase is not idle, and the other way round. -/
theorem begun_step {before after : Phase} (moved : Moved world before command after)
    {listed : Prop} (begun : listed ↔ ∀ direction, before ≠ .idle direction) :
    (listed ∨ begins command = true) ↔ ∀ direction, after ≠ .idle direction := by
  cases moved with
  | inserted running ready => exact iff_of_true (Or.inr rfl) (by simp)
  | finished => exact iff_of_true (Or.inl (begun.mpr (by simp))) (by simp)
  | fenced other beginning => exact iff_of_true (Or.inr beginning) (by simp)
  | still other unbegun =>
    constructor
    · rintro (member | beginning)
      · exact begun.mp member
      · exact unbegun beginning
    · exact fun busy => Or.inl (begun.mpr busy)

/-- Settling a run writes it. -/
theorem settles_other (other : command.effect ≠ .writing .runs) : settles command = false := by
  unfold settles
  split
  · exact absurd rfl other
  · rfl

theorem settled_step {before after : Phase} (moved : Moved world before command after)
    {listed : Prop} (settled : listed ↔ ∃ success, before = .closed success) :
    (listed ∨ settles command = true) ↔ ∃ success, after = .closed success := by
  cases moved with
  | inserted running ready =>
    have unsettled : ¬ listed := fun member => by
      obtain ⟨success, closed⟩ := settled.mp member
      rcases ready with ⟨same, _⟩ | ⟨same, _⟩ <;> rw [same] at closed <;> cases closed
    exact iff_of_false (by simp [unsettled, settles]) (by simp)
  | finished => exact iff_of_true (Or.inr rfl) ⟨_, rfl⟩
  | fenced other beginning => simp [settles_other other, settled]
  | still other unbegun => simp [settles_other other, settled]

end Moves

section Steps

variable {ι : Type} {calls : ι → Call} {env : Environment}

/-- What every reached state shows about the calls, their phases and the table of runs. -/
structure Serial (calls : ι → Call) (initially : Bool) (pool : Pool controller Exn ι World)
    (phases : ι → Phase) : Prop where
  agrees : ∀ thread, Agrees (calls thread).operation.direction (phases thread)
  begun : ∀ thread, thread ∈ performers begins pool.history ↔
    ∀ direction, phases thread ≠ .idle direction
  settled : ∀ thread, thread ∈ performers settles pool.history ↔
    ∃ success, phases thread = .closed success
  recorded : ∀ thread direction run_id, phases thread = .running direction run_id →
    ∃ row, pool.state.db.runs.lookup run_id = some row ∧ row.status = .running ∧
      row.direction = direction ∧ (pending (pool.threads thread) = true →
        ∀ number other, pool.state.db.runs.lookup number = some other → number ≠ run_id →
          other.started_at < row.started_at)
  distinct : ∀ first second one two run_id, phases first = .running one run_id →
    phases second = .running two run_id → first = second
  alone : ∀ first second, InTransition pool first → InTransition pool second → first = second
  shown : stands calls initially pool.history = true → failedOver pool.state.db = true
  quiet : ∀ thread, (calls thread).promotes = true → InTransition pool thread →
    stands calls initially pool.history = false

theorem stands_concat (initially : Bool) (history : List (ι × Exchange controller Exn))
    (thread : ι) (exchange : Exchange controller Exn) :
    stands calls initially (history ++ [(thread, exchange)]) =
      standsAfter calls (stands calls initially history) thread exchange.1 := by
  simp only [stands, List.foldl_append, List.foldl_cons, List.foldl_nil]

/-- Only settling a run with success makes a failover stand. -/
theorem standsAfter_other {active : Bool} {thread : ι} {command : Command}
    (other : command.effect ≠ .writing .runs)
    (still : standsAfter calls active thread command = true) : active = true := by
  unfold standsAfter at still
  split at still
  · exact absurd rfl other
  · split at still
    · cases still
    · exact still
  · exact still

/-- A call whose row is running, or that has fenced, is in transition while it goes on. -/
theorem Serial.inTransition {initially : Bool} {pool : Pool controller Exn ι World}
    {phases : ι → Phase} (serial : Serial calls initially pool phases) {thread : ι}
    (busy : phases thread = .fencing ∨ ∃ direction run_id,
      phases thread = .running direction run_id)
    (goes : pending (pool.threads thread) = true) : InTransition pool thread := by
  refine ⟨(serial.begun thread).mpr fun direction idle => ?_, fun closed => ?_, goes⟩
  · rcases busy with same | ⟨_, _, same⟩ <;> rw [same] at idle <;> cases idle
  · obtain ⟨success, closed⟩ := (serial.settled thread).mp closed
    rcases busy with same | ⟨_, _, same⟩ <;> rw [same] at closed <;> cases closed

/-- A call that begins a transition, or is in one, leaves no room for another. -/
theorem Serial.exclusive {initially : Bool} {pool : Pool controller Exn ι World}
    {phases : ι → Phase} (serial : Serial calls initially pool phases) {thread other : ι}
    {command : Command} {resume : Except Exn command.Answer → Prog Unit}
    (current : pool.threads thread = .call command resume)
    (guarded : Guarded calls pool thread)
    (here : begins command = true ∨ InTransition pool thread)
    (there : InTransition pool other) : other = thread := by
  by_cases within : InTransition pool thread
  · exact serial.alone other thread there within
  · rcases here with beginning | impossible
    · rw [Guarded, current] at guarded
      exact absurd there ((guarded.1 beginning within).1 other)
    · exact absurd impossible within

/-- A call that settles its run is in transition. -/
theorem Serial.settling {initially : Bool} {pool : Pool controller Exn ι World}
    {phases : ι → Phase} (serial : Serial calls initially pool phases) {thread : ι}
    {command : Command} {resume : Except Exn command.Answer → Prog Unit}
    (current : pool.threads thread = .call command resume)
    (permitted : discipline.permits (phases thread) command)
    (settling : settles command = true) : InTransition pool thread := by
  unfold settles at settling
  split at settling
  · obtain ⟨direction, running⟩ := permitted.2
    exact serial.inTransition (Or.inr ⟨direction, _, running⟩) (by rw [current]; rfl)
  · cases settling

/-- When no failover stands, only settling a run makes one stand. -/
theorem standsAfter_false {thread : ι} {command : Command}
    (still : standsAfter calls false thread command = true) : settles command = true := by
  unfold standsAfter at still
  split at still
  · rfl
  · split at still <;> cases still
  · cases still

variable [DecidableEq ι]

/-- Other threads are in transition as before a step. -/
theorem inTransition_other {pool : Pool controller Exn ι World} {thread other : ι}
    (different : other ≠ thread) :
    InTransition (advance env.handler pool thread) other ↔ InTransition pool other := by
  cases current : pool.threads thread with
  | ret value => simp [advance, current]
  | raise error => simp [advance, current]
  | call command resume =>
    have listed : ∀ selects : Command → Bool,
        other ∈ performers selects (advance env.handler pool thread).history ↔
          other ∈ performers selects pool.history := by
      intro selects
      simp only [advance, current, performers_concat, List.mem_append, or_iff_left_iff_imp]
      intro member
      split at member
      · exact absurd (List.mem_singleton.mp member) different
      · cases member
    have same : (advance env.handler pool thread).threads other = pool.threads other := by
      simp [advance, current, different]
    simp only [InTransition, listed, same]

section OneStep

variable {initially : Bool} {pool : Pool controller Exn ι World} {phases : ι → Phase}
  {thread : ι} {command : Command} {resume : Except Exn command.Answer → Prog Unit}

/-- The pool after a step of a thread that has a command to perform. -/
theorem advance_eq (current : pool.threads thread = .call command resume) :
    advance env.handler pool thread =
      { state := (env.handler command pool.state).2
        threads := Function.update pool.threads thread
          (resume (env.handler command pool.state).1)
        history := pool.history ++
          [(thread, ⟨command, (env.handler command pool.state).1⟩)] } := by
  simp [advance, current]

/-- The phases after the step. -/
def stepped (env : Environment) (pool : Pool controller Exn ι World) (phases : ι → Phase)
    (thread : ι) (command : Command) : ι → Phase :=
  Function.update phases thread
    (discipline.next (phases thread) command (env.handler command pool.state).1)

theorem stepped_own : stepped env pool phases thread command thread =
    discipline.next (phases thread) command (env.handler command pool.state).1 :=
  Function.update_self _ _ _

theorem stepped_other {other : ι} (different : other ≠ thread) :
    stepped env pool phases thread command other = phases other :=
  Function.update_of_ne different _ _

variable (serial : Serial calls initially pool phases)
  (current : pool.threads thread = .call command resume)
  (permitted : discipline.permits (phases thread) command) (guarded : Guarded calls pool thread)

include current in
/-- A call that is in transition after its step was so before, or begins now. -/
theorem before_step (after : InTransition (advance env.handler pool thread) thread) :
    begins command = true ∨ InTransition pool thread := by
  obtain ⟨begun, unsettled, _⟩ := after
  simp only [advance_eq current, performers_concat, List.mem_append] at begun unsettled
  rcases begun with member | now
  · exact Or.inr ⟨member, fun settled => unsettled (Or.inl settled), by rw [current]; rfl⟩
  · split at now
    · rename_i beginning
      exact Or.inl beginning
    · cases now

include serial current guarded in
/-- After a step at most one call is in transition. -/
theorem alone_step (first second : ι) (one : InTransition (advance env.handler pool thread) first)
    (two : InTransition (advance env.handler pool thread) second) : first = second := by
  have only : ∀ other, other ≠ thread → InTransition (advance env.handler pool thread) other →
      ¬ InTransition (advance env.handler pool thread) thread := fun other different there here =>
    different (serial.exclusive current guarded (before_step current here)
      ((inTransition_other different).mp there))
  by_cases firstOwn : first = thread
  · by_cases secondOwn : second = thread
    · rw [firstOwn, secondOwn]
    · exact absurd (firstOwn ▸ one) (only second secondOwn two)
  · by_cases secondOwn : second = thread
    · exact absurd (secondOwn ▸ two) (only first firstOwn one)
    · exact serial.alone first second ((inTransition_other firstOwn).mp one)
        ((inTransition_other secondOwn).mp two)

include serial current permitted guarded in
/-- No failover stands while a promotion is in transition. -/
theorem quiet_step (other : ι) (promotes : (calls other).promotes = true)
    (after : InTransition (advance env.handler pool thread) other) :
    stands calls initially (advance env.handler pool thread).history = false := by
  have before : stands calls initially pool.history = false := by
    by_cases within : InTransition pool other
    · exact serial.quiet other promotes within
    · have own : other = thread := by
        by_contra different
        exact within ((inTransition_other different).mp after)
      subst own
      have beginning : begins command = true :=
        (before_step current after).resolve_right within
      rw [Guarded, current] at guarded
      have inactive := (guarded.1 beginning within).2 promotes
      refine Bool.eq_false_iff.mpr fun standing => ?_
      rw [serial.shown standing] at inactive
      cases inactive
  rw [advance_eq current, stands_concat, before]
  refine Bool.eq_false_iff.mpr fun standing => ?_
  have settling := standsAfter_false standing
  have here := serial.settling current permitted settling
  by_cases own : other = thread
  · subst own
    have unsettled := after.2.1
    simp [advance_eq current, performers_concat, settling] at unsettled
  · exact own (serial.alone other thread ((inTransition_other own).mp after) here)

include serial current permitted in
/-- A failover that stands after the step is shown by the table of runs. -/
theorem shown_step
    (standing : stands calls initially (advance env.handler pool thread).history = true) :
    failedOver (advance env.handler pool thread).state.db = true := by
  rw [advance_eq current, stands_concat] at standing
  rw [advance_eq current]
  by_cases writing : command.effect = .writing .runs
  · rcases writing_runs writing with ⟨row, rfl⟩ | ⟨run_id, finished_at, success, details, error, rfl⟩
    · exact (failedOver_congr (succeeded_insert permitted.2.1)).trans (serial.shown standing)
    · obtain ⟨direction, running⟩ := permitted.2
      obtain ⟨row, present, unsettled, own, newest⟩ := serial.recorded _ _ _ running
      cases success with
      | false =>
        exact (failedOver_finish_failed present unsettled _ _ _).trans (serial.shown standing)
      | true =>
        have promotes : (calls thread).operation.direction = .failover := by
          simpa [standsAfter, Call.promotes] using standing
        have agrees := serial.agrees thread
        rw [running] at agrees
        have forth : row.direction = .failover := own.trans (agrees.trans promotes)
        refine failedOver_finish_failover present unsettled forth ?_ _ _ _
        intro number ended succeeded
        refine newest (by rw [current]; rfl) number ended succeeded.1 fun same => ?_
        have found := succeeded.1
        rw [same, present] at found
        cases found
        rw [succeeded.2.1] at forth
        cases forth
  · exact (failedOver_same (commit_same pool.state.db writing)).trans
      (serial.shown (standsAfter_other writing standing))

include serial in
/-- Two calls never have the same running row. -/
theorem distinct_step (moved : Moved pool.state (phases thread) command
      (stepped env pool phases thread command thread))
    (first second : ι) (one two : Direction) (run_id : Nat)
    (here : stepped env pool phases thread command first = .running one run_id)
    (there : stepped env pool phases thread command second = .running two run_id) :
    first = second := by
  have apart : ∀ other direction, other ≠ thread →
      stepped env pool phases thread command other = .running direction run_id →
      ∀ own, stepped env pool phases thread command thread = .running own run_id → False := by
    intro other direction different running own mine
    rw [stepped_other different] at running
    rw [mine] at moved
    generalize before : phases thread = phase at moved
    cases moved with
    | inserted unsettled ready =>
      obtain ⟨row, present, _⟩ := serial.recorded other direction _ running
      rw [Tables.Numbered.lookup_next] at present
      cases present
    | still unwritten unbegun =>
      exact different (serial.distinct other thread direction own run_id running before)
  by_cases firstOwn : first = thread
  · by_cases secondOwn : second = thread
    · rw [firstOwn, secondOwn]
    · exact (apart second two secondOwn there one (firstOwn ▸ here)).elim
  · by_cases secondOwn : second = thread
    · exact (apart first one firstOwn here two (secondOwn ▸ there)).elim
    · rw [stepped_other firstOwn] at here
      rw [stepped_other secondOwn] at there
      exact serial.distinct first second one two run_id here there

include serial current guarded in
/-- Every running row is there, and is the newest while its call goes on. -/
theorem recorded_step (moved : Moved pool.state (phases thread) command
      (stepped env pool phases thread command thread))
    (other : ι) (direction : Direction) (run_id : Nat)
    (running : stepped env pool phases thread command other = .running direction run_id) :
    ∃ row, (Environment.commit pool.state.db command).runs.lookup run_id = some row ∧
      row.status = .running ∧ row.direction = direction ∧
      (pending ((advance env.handler pool thread).threads other) = true →
        ∀ number given, (Environment.commit pool.state.db command).runs.lookup number =
          some given → number ≠ run_id → given.started_at < row.started_at) := by
  by_cases own : other = thread
  · subst own
    rw [running] at moved
    generalize before : phases other = phase at moved
    cases moved with
    | inserted unsettled ready =>
      rename_i row
      rw [Guarded, current] at guarded
      have inserted : ∀ number, (Environment.commit pool.state.db
          (.transact (.insertRun row))).runs.lookup number =
            if number = pool.state.db.runs.next then some row
            else pool.state.db.runs.lookup number :=
        Tables.Numbered.lookup_insert pool.state.db.runs row
      refine ⟨row, (inserted _).trans (if_pos rfl), unsettled, rfl, ?_⟩
      intro _ number given found different
      rw [inserted, if_neg different] at found
      exact guarded.2 (number, given) ((Tables.Numbered.mem_rows_iff _ _ _).mpr found)
    | still unwritten unbegun =>
      obtain ⟨row, present, unsettled, direct, newest⟩ :=
        serial.recorded other direction run_id before
      have same : (Environment.commit pool.state.db command).runs = pool.state.db.runs :=
        commit_same pool.state.db unwritten
      rw [same]
      exact ⟨row, present, unsettled, direct, fun _ => newest (by rw [current]; rfl)⟩
  · rw [stepped_other own] at running
    obtain ⟨row, present, unsettled, direct, newest⟩ :=
      serial.recorded other direction run_id running
    have goes : (advance env.handler pool thread).threads other = pool.threads other := by
      rw [advance_eq current]
      exact Function.update_of_ne own _ _
    rw [goes]
    have busy : pending (pool.threads other) = true → InTransition pool other :=
      serial.inTransition (Or.inr ⟨direction, run_id, running⟩)
    generalize before : phases thread = phase at moved
    generalize stepped env pool phases thread command thread = after at moved
    cases moved with
    | inserted unready ready =>
      rename_i new
      have inserted := Tables.Numbered.lookup_insert pool.state.db.runs new run_id
      rw [if_neg (Nat.ne_of_lt (Tables.Numbered.lookup_lt present)), present] at inserted
      refine ⟨row, inserted, unsettled, direct, fun going => ?_⟩
      exact absurd (serial.exclusive current guarded (Or.inl rfl) (busy going)) own
    | finished =>
      rename_i own_direction settled_id finished_at success details error
      have different : run_id ≠ settled_id := by
        rintro rfl
        exact own (serial.distinct other thread direction own_direction run_id running before)
      have modified := Tables.Numbered.lookup_modify pool.state.db.runs settled_id run_id
        (fun row => settledRow row finished_at success details error)
      rw [if_neg different, present] at modified
      have here : InTransition pool thread :=
        serial.inTransition (Or.inr ⟨own_direction, settled_id, before⟩) (by rw [current]; rfl)
      refine ⟨row, modified, unsettled, direct, fun going => ?_⟩
      exact absurd (serial.exclusive current guarded (Or.inr here) (busy going)) own
    | fenced unwritten beginning =>
      have same : (Environment.commit pool.state.db command).runs = pool.state.db.runs :=
        commit_same pool.state.db unwritten
      rw [same]
      exact ⟨row, present, unsettled, direct, newest⟩
    | still unwritten unbegun =>
      have same : (Environment.commit pool.state.db command).runs = pool.state.db.runs :=
        commit_same pool.state.db unwritten
      rw [same]
      exact ⟨row, present, unsettled, direct, newest⟩

include current permitted serial guarded in
/-- One step of a guarded call keeps everything that the states show. -/
theorem serial_step :
    Serial calls initially (advance env.handler pool thread)
      (stepped env pool phases thread command) := by
  have moved : Moved pool.state (phases thread) command
      (stepped env pool phases thread command thread) := by
    rw [stepped_own]
    exact moved_of_permitted permitted
  have listed : ∀ (selects : Command → Bool) other,
      other ∈ performers selects (advance env.handler pool thread).history ↔
        other ∈ performers selects pool.history ∨ (other = thread ∧ selects command = true) := by
    intro selects other
    rw [advance_eq current, performers_concat, List.mem_append]
    cases selected : selects command <;> simp
  refine ⟨fun other => ?_, fun other => ?_, fun other => ?_, ?_,
    distinct_step serial moved, alone_step serial current guarded,
    shown_step serial current permitted, quiet_step serial current permitted guarded⟩
  · by_cases own : other = thread
    · subst own
      exact agrees_step moved (serial.agrees other)
    · rw [stepped_other own]
      exact serial.agrees other
  · rw [listed]
    by_cases own : other = thread
    · subst own
      simpa using begun_step moved (serial.begun other)
    · rw [stepped_other own]
      simpa [own] using serial.begun other
  · rw [listed]
    by_cases own : other = thread
    · subst own
      simpa using settled_step moved (serial.settled other)
    · rw [stepped_other own]
      simpa [own] using serial.settled other
  · intro other direction run_id running
    have shown := recorded_step serial current guarded moved other direction run_id running
    have committed : (advance env.handler pool thread).state.db =
        Environment.commit pool.state.db command := by
      rw [advance_eq current]
      rfl
    rw [committed]
    exact shown

end OneStep

end Steps

section Schedules

variable {ι : Type} [DecidableEq ι]

/-- Every call keeps the discipline of its direction. -/
theorem wp_call (call : Call) :
    wp discipline call.program (fun _ _ => True) (.idle call.operation.direction) := by
  refine wp_bind (wp_mono (wp_operation call.engine call.operation) ?_)
  intro outcome final _
  cases outcome <;> trivial

/-- The calls before any of them has done anything. -/
def beginning (calls : ι → Call) (world : World) : Pool controller Exn ι World :=
  Pool.start (fun thread => (calls thread).program) world

omit [DecidableEq ι] in
theorem serial_beginning (calls : ι → Call) (world : World) :
    Serial calls (failedOver world.db) (beginning calls world)
      (fun thread => .idle (calls thread).operation.direction) := by
  have nobody : ∀ thread, ¬ InTransition (beginning calls world) thread :=
    fun thread within => by cases within.1
  refine ⟨fun thread => rfl, fun thread => ?_, fun thread => ?_, ?_, ?_, ?_, fun standing => standing,
    fun thread _ within => absurd within (nobody thread)⟩
  · refine iff_of_false (by rintro ⟨⟩) fun unidle => unidle _ rfl
  · refine iff_of_false (by rintro ⟨⟩) ?_
    rintro ⟨success, impossible⟩
    cases impossible
  · intro thread direction run_id impossible
    cases impossible
  · intro first second one two run_id impossible
    cases impossible
  · exact fun first second within => absurd within (nobody first)

/-- In every run of any calls at the same time whose transitions each begin when no
other call is in transition and, for a promotion, no failover is active, at most one
call is in transition in every state reached, and a promotion fetches, creates or
switches on a machine only when no failover stands. -/
theorem one_transition_at_a_time (env : Environment) (calls : ι → Call) (world : World)
    (schedule : List ι)
    (met : Meets env.handler (Guarded calls) schedule (beginning calls world)) :
    (∀ before after, schedule = before ++ after →
      ∀ first second, InTransition (interleave env.handler before (beginning calls world)) first →
        InTransition (interleave env.handler before (beginning calls world)) second →
        first = second) ∧
    ∀ before thread after, schedule = before ++ thread :: after → ∀ command resume,
      (interleave env.handler before (beginning calls world)).threads thread =
        .call command resume →
      (calls thread).promotes = true → recovers command = true →
      stands calls (failedOver world.db)
        (interleave env.handler before (beginning calls world)).history = false := by
  have reached : ∀ before, Meets env.handler (Guarded calls) before (beginning calls world) →
      ∃ phases, Judged discipline (fun _ _ => True)
          (interleave env.handler before (beginning calls world)) phases ∧
        Serial calls (failedOver world.db)
          (interleave env.handler before (beginning calls world)) phases := by
    intro before guarded
    refine interleave_sustains ?_ (fun thread => wp_call (calls thread))
      (serial_beginning calls world) before guarded
    intro pool phases thread command resume serial current permitted here
    exact ⟨served_reply env pool.state command, serial_step serial current permitted here⟩
  constructor
  · rintro before after rfl first second
    obtain ⟨phases, _, serial⟩ := reached before ((meets_append env.handler _ _ _).mp met).1
    exact serial.alone first second
  · rintro before thread after rfl command resume current promotes recovering
    obtain ⟨phases, judged, serial⟩ := reached before ((meets_append env.handler _ _ _).mp met).1
    have own := judged thread
    rw [current] at own
    have busy : (phases thread).isRunning = true := own.1.1 recovering
    refine serial.quiet thread promotes (serial.inTransition (Or.inr ?_) (by rw [current]; rfl))
    revert busy
    cases phases thread with
    | running direction run_id => exact fun _ => ⟨direction, run_id, rfl⟩
    | idle given => exact fun impossible => by cases impossible
    | fencing => exact fun impossible => by cases impossible
    | closed success => exact fun impossible => by cases impossible

end Schedules

/-- A promotion by an operator. -/
def promotion : Call := ⟨recovery, .promote true true false⟩

/-- Both promotions have passed the guard, fenced, and inserted a run. -/
def overlapping : Pool controller Exn Bool World :=
  interleave cooperative.handler (List.replicate 13 false ++ List.replicate 13 true)
    (beginning (fun _ => promotion) ⟨replicated, 0, []⟩)

/-- The first promotion has come to its end, the other one to its machine. -/
def overtaken : Pool controller Exn Bool World :=
  interleave cooperative.handler (List.replicate 44 false ++ List.replicate 29 true) overlapping

/-- Two promotions are in transition together, and the second creates a machine when
the failover of the first one stands. -/
theorem overlapping_promotions :
    InTransition overlapping false ∧ InTransition overlapping true ∧
    pending (overtaken.threads false) = false ∧
    stands (fun _ => promotion) (failedOver replicated) overtaken.history = true ∧
    (match overtaken.threads true with
      | .call command _ => decide (command.effect = .creation)
      | _ => false) = true := by
  refine ⟨?_, ?_, ?_, ?_, ?_⟩ <;> decide +kernel

/-- A promotion, and a failback of it. -/
def thereAndBack (back : Bool) : Call :=
  if back then ⟨recovery, .failback true true⟩ else promotion

/-- The two calls in turn, and what the theorem says about them. -/
theorem one_transition_at_a_time_in_turn :
    let schedule := List.replicate 57 false ++ List.replicate 120 true
    let start := beginning thereAndBack ⟨replicated, 0, []⟩
    (∀ before after, schedule = before ++ after → ∀ first second,
      InTransition (interleave cooperative.handler before start) first →
        InTransition (interleave cooperative.handler before start) second → first = second) ∧
    ∀ before thread after, schedule = before ++ thread :: after → ∀ command resume,
      (interleave cooperative.handler before start).threads thread = .call command resume →
      (thereAndBack thread).promotes = true → recovers command = true →
      stands thereAndBack (failedOver replicated)
        (interleave cooperative.handler before start).history = false :=
  one_transition_at_a_time cooperative thereAndBack ⟨replicated, 0, []⟩
    (List.replicate 57 false ++ List.replicate 120 true) (by decide +kernel)

end Immutavault.DRTransitions
