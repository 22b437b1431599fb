import Mathlib.Data.List.Induction
import Immutavault.Programs

/-!
# Interleaved programs over a shared state

A pool holds one program per thread and a shared state. Advancing a thread
performs its next command as one atomic step; a schedule is a list of threads
to advance, so the schedules are exactly the interleavings of the commands.
The thread type is arbitrary: a schedule is finite, hence only finitely many
threads take part in it.

Each thread is judged by a monitor against every answer the monitor considers
possible. One lemma then carries a shared invariant along a schedule: it needs
only what a single permitted command does to the state, the history and the
phase of its own thread.
-/

namespace Immutavault.Interleavings

open Programs

variable {I : Interface} {ε ι σ φ : Type}

/-- Threads, the state they share, and the commands performed so far, oldest
first, each with its thread and its answer. -/
structure Pool (I : Interface) (ε ι σ : Type) where
  state : σ
  threads : ι → Program I ε Unit
  history : List (ι × Exchange I ε)

/-- One command about to be performed: the shared state and the history in which
it is performed, its thread and the command itself. -/
structure Step (I : Interface) (ε ι σ : Type) where
  state : σ
  history : List (ι × Exchange I ε)
  thread : ι
  command : I.Command

/-- No thread has performed anything yet. -/
def Pool.start (threads : ι → Program I ε Unit) (state : σ) : Pool I ε ι σ :=
  ⟨state, threads, []⟩

/-- The threads that performed the selected commands, oldest first. -/
def performers (selects : I.Command → Bool) (history : List (ι × Exchange I ε)) : List ι :=
  (history.filter fun entry => selects entry.2.1).map Prod.fst

@[simp] theorem performers_nil (selects : I.Command → Bool) :
    performers selects ([] : List (ι × Exchange I ε)) = [] := rfl

/-- One more exchange adds its thread when its command is selected. -/
theorem performers_concat (selects : I.Command → Bool) (history : List (ι × Exchange I ε))
    (thread : ι) (exchange : Exchange I ε) :
    performers selects (history ++ [(thread, exchange)]) =
      performers selects history ++ if selects exchange.1 then [thread] else [] := by
  cases selected : selects exchange.1 <;> simp [performers, selected]

section Schedules

variable [DecidableEq ι] (handler : Handler I ε σ)

/-- Perform the next command of a thread. A finished thread changes nothing. -/
def advance (pool : Pool I ε ι σ) (thread : ι) : Pool I ε ι σ :=
  match pool.threads thread with
  | .ret _ => pool
  | .raise _ => pool
  | .call command resume =>
    { state := (handler command pool.state).2
      threads := Function.update pool.threads thread (resume (handler command pool.state).1)
      history := pool.history ++ [(thread, ⟨command, (handler command pool.state).1⟩)] }

/-- Advance the threads in the order of the schedule. -/
def interleave (schedule : List ι) (pool : Pool I ε ι σ) : Pool I ε ι σ :=
  schedule.foldl (advance handler) pool

/-- The commands a schedule performs, in order. -/
def steps : List ι → Pool I ε ι σ → List (Step I ε ι σ)
  | [], _ => []
  | thread :: rest, pool =>
    (match pool.threads thread with
      | .ret _ => []
      | .raise _ => []
      | .call command _ => [⟨pool.state, pool.history, thread, command⟩]) ++
    steps rest (advance handler pool thread)

theorem interleave_cons (thread : ι) (rest : List ι) (pool : Pool I ε ι σ) :
    interleave handler (thread :: rest) pool =
      interleave handler rest (advance handler pool thread) := rfl

theorem interleave_append (first second : List ι) (pool : Pool I ε ι σ) :
    interleave handler (first ++ second) pool =
      interleave handler second (interleave handler first pool) := by
  simp only [interleave, List.foldl_append]

theorem steps_append (first second : List ι) (pool : Pool I ε ι σ) :
    steps handler (first ++ second) pool =
      steps handler first pool ++ steps handler second (interleave handler first pool) := by
  induction first generalizing pool with
  | nil => rfl
  | cons thread rest inductionHypothesis =>
    simp only [List.cons_append, steps, inductionHypothesis, interleave_cons, List.append_assoc]

/-- What happened stays in the history. -/
theorem history_interleave (schedule : List ι) (pool : Pool I ε ι σ) :
    pool.history <+: (interleave handler schedule pool).history := by
  induction schedule generalizing pool with
  | nil => exact List.prefix_rfl
  | cons thread rest inductionHypothesis =>
    have grown : pool.history <+: (advance handler pool thread).history := by
      cases current : pool.threads thread with
      | ret value => simp [advance, current]
      | raise error => simp [advance, current]
      | call command resume => simp [advance, current]
    exact grown.trans (inductionHypothesis _)

/-- Every step of a schedule is in the history afterwards, with the answer that it got. -/
theorem steps_answered {schedule : List ι} {pool : Pool I ε ι σ} {step : Step I ε ι σ}
    (member : step ∈ steps handler schedule pool) :
    (step.thread, ⟨step.command, (handler step.command step.state).1⟩) ∈
      (interleave handler schedule pool).history := by
  induction schedule generalizing pool with
  | nil => cases member
  | cons thread rest inductionHypothesis =>
    rcases List.mem_append.mp member with now | later
    · cases current : pool.threads thread with
      | ret value => simp [current] at now
      | raise error => simp [current] at now
      | call command resume =>
        have same : step = ⟨pool.state, pool.history, thread, command⟩ := by
          simpa [current] using now
        subst same
        apply (history_interleave handler rest (advance handler pool thread)).subset
        simp [advance, current]
    · exact inductionHypothesis later

theorem steps_history {schedule : List ι} {pool : Pool I ε ι σ} {step : Step I ε ι σ}
    (member : step ∈ steps handler schedule pool) :
    ∃ answer, (step.thread, ⟨step.command, answer⟩) ∈
      (interleave handler schedule pool).history := ⟨_, steps_answered handler member⟩

/-- A thread that is about to perform a command performs it as the first step. -/
theorem mem_steps_cons {pool : Pool I ε ι σ} {thread : ι} {command : I.Command}
    {resume : Except ε (I.Answer command) → Program I ε Unit}
    (current : pool.threads thread = .call command resume) (rest : List ι) :
    (⟨pool.state, pool.history, thread, command⟩ : Step I ε ι σ) ∈
      steps handler (thread :: rest) pool := by
  simp [steps, current]

/-- Either every step of a schedule meets a condition, or there is a first step
that does not, and the schedule before it met the condition throughout. -/
theorem first_violation (condition : Step I ε ι σ → Prop) (schedule : List ι)
    (pool : Pool I ε ι σ) :
    (∀ step ∈ steps handler schedule pool, condition step) ∨
      ∃ before thread after command resume,
        schedule = before ++ thread :: after ∧
        (∀ step ∈ steps handler before pool, condition step) ∧
        (interleave handler before pool).threads thread = .call command resume ∧
        ¬ condition ⟨(interleave handler before pool).state,
          (interleave handler before pool).history, thread, command⟩ := by
  induction schedule generalizing pool with
  | nil => exact Or.inl (by simp [steps])
  | cons thread rest inductionHypothesis =>
    have continued := inductionHypothesis (advance handler pool thread)
    cases current : pool.threads thread with
    | ret value =>
      rcases continued with met | ⟨before, culprit, after, command, resume, split, met, rest⟩
      · exact Or.inl (by simpa [steps, current] using met)
      · exact Or.inr ⟨thread :: before, culprit, after, command, resume, by simp [split],
          by simpa [steps, current] using met, rest⟩
    | raise error =>
      rcases continued with met | ⟨before, culprit, after, command, resume, split, met, rest⟩
      · exact Or.inl (by simpa [steps, current] using met)
      · exact Or.inr ⟨thread :: before, culprit, after, command, resume, by simp [split],
          by simpa [steps, current] using met, rest⟩
    | call issued resumed =>
      by_cases here : condition ⟨pool.state, pool.history, thread, issued⟩
      · rcases continued with met | ⟨before, culprit, after, command, resume, split, met, rest⟩
        · exact Or.inl (by simpa [steps, current] using ⟨here, met⟩)
        · exact Or.inr ⟨thread :: before, culprit, after, command, resume, by simp [split],
            by simpa [steps, current] using ⟨here, met⟩, rest⟩
      · exact Or.inr ⟨[], thread, rest, issued, resumed, rfl, by simp [steps], current, here⟩

end Schedules

section Invariants

variable [DecidableEq ι] {handler : Handler I ε σ} {monitor : Monitor I ε φ}
  {post : Except ε Unit → φ → Prop}
  {invariant : σ → List (ι × Exchange I ε) → (ι → φ) → Prop}
  {condition property : Step I ε ι σ → Prop}

/-- What one command of one thread must preserve for the shared invariant to be
carried along every schedule whose steps meet the condition. -/
def Preserves (handler : Handler I ε σ) (monitor : Monitor I ε φ)
    (invariant : σ → List (ι × Exchange I ε) → (ι → φ) → Prop)
    (condition property : Step I ε ι σ → Prop) : Prop :=
  ∀ state history phases thread command, invariant state history phases →
    monitor.permits (phases thread) command →
    condition ⟨state, history, thread, command⟩ →
    property ⟨state, history, thread, command⟩ ∧
      monitor.possible (phases thread) command (handler command state).1 ∧
      invariant (handler command state).2
        (history ++ [(thread, ⟨command, (handler command state).1⟩)])
        (Function.update phases thread
          (monitor.next (phases thread) command (handler command state).1))

/-- Every thread is at a point from which its monitor accepts what it does. -/
def Judged (monitor : Monitor I ε φ) (post : Except ε Unit → φ → Prop)
    (pool : Pool I ε ι σ) (phases : ι → φ) : Prop :=
  ∀ thread, wp monitor (pool.threads thread) post (phases thread)

/-- A thread that performs its next command stays judged, in its next phase. -/
theorem judged_advance {pool : Pool I ε ι σ} {phases : ι → φ}
    (judged : Judged monitor post pool phases) {thread : ι} {command : I.Command}
    {resume : Except ε (I.Answer command) → Program I ε Unit}
    (current : pool.threads thread = .call command resume)
    (possible : monitor.possible (phases thread) command (handler command pool.state).1) :
    Judged monitor post (advance handler pool thread) (Function.update phases thread
      (monitor.next (phases thread) command (handler command pool.state).1)) := by
  have own := judged thread
  rw [current] at own
  intro other
  by_cases same : other = thread
  · subst other
    simpa [advance, current] using own.2 _ possible
  · simpa [advance, current, same] using judged other

/-- One step: a judged pool stays judged, and the shared invariant is preserved. -/
theorem advance_invariant (preserves : Preserves handler monitor invariant condition property)
    {pool : Pool I ε ι σ} {phases : ι → φ} (judged : Judged monitor post pool phases)
    (holds : invariant pool.state pool.history phases) (thread : ι)
    (met : ∀ step ∈ steps handler [thread] pool, condition step) :
    (∀ step ∈ steps handler [thread] pool, property step) ∧
      ∃ after, Judged monitor post (advance handler pool thread) after ∧
        invariant (advance handler pool thread).state
          (advance handler pool thread).history after := by
  cases current : pool.threads thread with
  | ret value =>
    have still : advance handler pool thread = pool := by simp [advance, current]
    exact ⟨by simp [steps, current], phases, by simpa only [still] using judged,
      by simpa only [still] using holds⟩
  | raise error =>
    have still : advance handler pool thread = pool := by simp [advance, current]
    exact ⟨by simp [steps, current], phases, by simpa only [still] using judged,
      by simpa only [still] using holds⟩
  | call command resume =>
    have own := judged thread
    rw [current] at own
    have here : condition ⟨pool.state, pool.history, thread, command⟩ :=
      met _ (by simp [steps, current])
    obtain ⟨shown, possible, kept⟩ :=
      preserves pool.state pool.history phases thread command holds own.1 here
    exact ⟨by simpa [steps, current] using shown, _, judged_advance judged current possible,
      by simpa [advance, current] using kept⟩

/-- A whole schedule: when every step meets the condition, every step has the
property and the invariant holds at the end, for some phases of the threads. -/
theorem interleave_invariant (preserves : Preserves handler monitor invariant condition property)
    {pool : Pool I ε ι σ} {phases : ι → φ} (judged : Judged monitor post pool phases)
    (holds : invariant pool.state pool.history phases) (schedule : List ι)
    (met : ∀ step ∈ steps handler schedule pool, condition step) :
    (∀ step ∈ steps handler schedule pool, property step) ∧
      ∃ after, Judged monitor post (interleave handler schedule pool) after ∧
        invariant (interleave handler schedule pool).state
          (interleave handler schedule pool).history after := by
  induction schedule generalizing pool phases with
  | nil => exact ⟨by simp [steps], phases, judged, holds⟩
  | cons thread rest inductionHypothesis =>
    have divided : steps handler (thread :: rest) pool =
        steps handler [thread] pool ++ steps handler rest (advance handler pool thread) :=
      steps_append handler [thread] rest pool
    rw [divided] at met ⊢
    obtain ⟨first, middle, middleJudged, middleHolds⟩ :=
      advance_invariant preserves judged holds thread
        (fun step member => met step (List.mem_append_left _ member))
    obtain ⟨later, after, finalJudged, finalHolds⟩ :=
      inductionHypothesis middleJudged middleHolds
        (fun step member => met step (List.mem_append_right _ member))
    refine ⟨?_, after, finalJudged, finalHolds⟩
    intro step member
    rcases List.mem_append.mp member with now | further
    · exact first step now
    · exact later step further

end Invariants

section Pools

variable [DecidableEq ι] (handler : Handler I ε σ) {monitor : Monitor I ε φ}
  {post : Except ε Unit → φ → Prop} {invariant : Pool I ε ι σ → (ι → φ) → Prop}
  {condition : Pool I ε ι σ → ι → Prop}

/-- Before every step of a schedule the condition holds of the pool and of the thread
that takes it. -/
def Meets (condition : Pool I ε ι σ → ι → Prop) : List ι → Pool I ε ι σ → Prop
  | [], _ => True
  | thread :: rest, pool => condition pool thread ∧ Meets condition rest (advance handler pool thread)

instance [∀ pool thread, Decidable (condition pool thread)] (schedule : List ι)
    (pool : Pool I ε ι σ) : Decidable (Meets handler condition schedule pool) := by
  induction schedule generalizing pool with
  | nil => exact instDecidableTrue
  | cons thread rest inductionHypothesis =>
    exact @instDecidableAnd _ _ inferInstance (inductionHypothesis _)

theorem meets_append (first second : List ι) (pool : Pool I ε ι σ) :
    Meets handler condition (first ++ second) pool ↔
      Meets handler condition first pool ∧
        Meets handler condition second (interleave handler first pool) := by
  induction first generalizing pool with
  | nil => simp [Meets, interleave]
  | cons thread rest inductionHypothesis =>
    simp only [List.cons_append, Meets, inductionHypothesis, interleave_cons, and_assoc]

variable {handler}

/-- The same rule for an invariant of the whole pool, which also sees how far every
thread has come: one step of a thread that meets the condition preserves it. -/
theorem interleave_sustains
    (sustains : ∀ pool phases thread command resume, invariant pool phases →
      pool.threads thread = .call command resume →
      monitor.permits (phases thread) command → condition pool thread →
      monitor.possible (phases thread) command (handler command pool.state).1 ∧
        invariant (advance handler pool thread) (Function.update phases thread
          (monitor.next (phases thread) command (handler command pool.state).1)))
    {pool : Pool I ε ι σ} {phases : ι → φ} (judged : Judged monitor post pool phases)
    (holds : invariant pool phases) (schedule : List ι)
    (met : Meets handler condition schedule pool) :
    ∃ after, Judged monitor post (interleave handler schedule pool) after ∧
      invariant (interleave handler schedule pool) after := by
  induction schedule generalizing pool phases with
  | nil => exact ⟨phases, judged, holds⟩
  | cons thread rest inductionHypothesis =>
    cases current : pool.threads thread with
    | ret value =>
      have still : advance handler pool thread = pool := by simp [advance, current]
      have remaining := met.2
      rw [interleave_cons, still]
      rw [still] at remaining
      exact inductionHypothesis judged holds remaining
    | raise error =>
      have still : advance handler pool thread = pool := by simp [advance, current]
      have remaining := met.2
      rw [interleave_cons, still]
      rw [still] at remaining
      exact inductionHypothesis judged holds remaining
    | call command resume =>
      have own := judged thread
      rw [current] at own
      obtain ⟨possible, kept⟩ := sustains pool phases thread command resume holds current own.1 met.1
      exact inductionHypothesis (judged_advance judged current possible) kept met.2

/-- And for a property of every step: it holds before a step wherever the invariant does
and all threads are judged, and of a thread that has finished it says nothing. -/
theorem meets_of_sustains {property : Pool I ε ι σ → ι → Prop}
    (sustains : ∀ pool phases thread command resume, Judged monitor post pool phases →
      invariant pool phases → pool.threads thread = .call command resume →
      condition pool thread → property pool thread ∧
      monitor.possible (phases thread) command (handler command pool.state).1 ∧
        invariant (advance handler pool thread) (Function.update phases thread
          (monitor.next (phases thread) command (handler command pool.state).1)))
    (finished : ∀ pool thread, (∀ command resume, pool.threads thread ≠ .call command resume) →
      property pool thread)
    {pool : Pool I ε ι σ} {phases : ι → φ} (judged : Judged monitor post pool phases)
    (holds : invariant pool phases) (schedule : List ι)
    (met : Meets handler condition schedule pool) : Meets handler property schedule pool := by
  induction schedule generalizing pool phases with
  | nil => trivial
  | cons thread rest inductionHypothesis =>
    cases current : pool.threads thread with
    | ret value =>
      have still : advance handler pool thread = pool := by simp [advance, current]
      have remaining := met.2
      rw [still] at remaining
      refine ⟨finished pool thread (by simp [current]), ?_⟩
      rw [still]
      exact inductionHypothesis judged holds remaining
    | raise error =>
      have still : advance handler pool thread = pool := by simp [advance, current]
      have remaining := met.2
      rw [still] at remaining
      refine ⟨finished pool thread (by simp [current]), ?_⟩
      rw [still]
      exact inductionHypothesis judged holds remaining
    | call command resume =>
      obtain ⟨shown, possible, kept⟩ :=
        sustains pool phases thread command resume judged holds current met.1
      exact ⟨shown, inductionHypothesis (judged_advance judged current possible) kept met.2⟩

end Pools

section Traces

variable {α : Type}

/-- What one thread has performed so far, with its answers. -/
def exchangesOf [DecidableEq ι] (thread : ι) (history : List (ι × Exchange I ε)) :
    List (Exchange I ε) :=
  (history.filter fun entry => entry.1 = thread).map Prod.snd

theorem exchangesOf_concat [DecidableEq ι] (thread other : ι) (history : List (ι × Exchange I ε))
    (exchange : Exchange I ε) :
    exchangesOf thread (history ++ [(other, exchange)]) =
      exchangesOf thread history ++ if other = thread then [exchange] else [] := by
  by_cases same : other = thread <;> simp [exchangesOf, same]

variable [DecidableEq I.Command]

/-- A program that got an answer. The answer to another question changes nothing. -/
def answered : Program I ε α → Exchange I ε → Program I ε α
  | .call command resume, exchange =>
    if same : exchange.1 = command then resume (same ▸ exchange.2) else .call command resume
  | .ret value, _ => .ret value
  | .raise error, _ => .raise error

/-- What a program still does after these exchanges. -/
def resumed (program : Program I ε α) (trace : List (Exchange I ε)) : Program I ε α :=
  trace.foldl answered program

theorem answered_call (command : I.Command)
    (resume : Except ε (I.Answer command) → Program I ε α)
    (answer : Except ε (I.Answer command)) :
    answered (.call command resume) ⟨command, answer⟩ = resume answer := by
  rw [answered, dif_pos rfl]

theorem resumed_concat (program : Program I ε α) (trace : List (Exchange I ε))
    (exchange : Exchange I ε) :
    resumed program (trace ++ [exchange]) = answered (resumed program trace) exchange := by
  rw [resumed, List.foldl_append]
  rfl

end Traces

end Immutavault.Interleavings
