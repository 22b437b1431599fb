import Mathlib.Logic.Function.Basic
import Mathlib.Data.List.Basic

/-!
# Programs that issue commands and may raise

A program is a finite tree of commands. Each command is answered by a value of
its own answer type or by a raised error, and the program continues from that
answer. Nothing fixes how commands are answered: a handler supplies one answer
and one next state, a monitor supplies every answer it considers possible.

The same tree is therefore run alone (`run`), observed state by state
(`visited`), and interleaved with other trees. The weakest precondition `wp`
quantifies over the answers of a monitor; a handler is the monitor that admits
exactly its own answer, so one logic serves sequential and concurrent readings.

Two components with states of their own are used by one program over the sum of
their interfaces.
-/

namespace Immutavault.Programs

/-- Commands together with the type of a successful answer to each. -/
structure Interface where
  Command : Type
  Answer : Command → Type

/-- A tree of commands. Every branch ends in a value or in a raised error. -/
inductive Program (I : Interface) (ε α : Type) : Type where
  | ret (value : α) : Program I ε α
  | raise (error : ε) : Program I ε α
  | call (command : I.Command) (resume : Except ε (I.Answer command) → Program I ε α) :
      Program I ε α

/-- What was asked and what was answered. -/
abbrev Exchange (I : Interface) (ε : Type) := (command : I.Command) × Except ε (I.Answer command)

variable {I : Interface} {ε α β γ σ φ : Type}

namespace Program

/-- Continue with the value of the first program; an error skips the rest. -/
def bind : Program I ε α → (α → Program I ε β) → Program I ε β
  | .ret value, next => next value
  | .raise error, _ => .raise error
  | .call command resume, next => .call command (fun answer => bind (resume answer) next)

/-- Continue with the handler when the program raises. -/
def rescue : Program I ε α → (ε → Program I ε α) → Program I ε α
  | .ret value, _ => .ret value
  | .raise error, handler => handler error
  | .call command resume, handler => .call command (fun answer => rescue (resume answer) handler)

/-- Issue one command. A raised answer is raised by the program. -/
def perform (command : I.Command) : Program I ε (I.Answer command) :=
  .call command fun
    | .ok value => .ret value
    | .error error => .raise error

instance : Monad (Program I ε) where
  pure := .ret
  bind := bind

instance : MonadExcept ε (Program I ε) where
  throw := .raise
  tryCatch := rescue

/-- The outcome of a program as a value; this program itself never raises. -/
def attempt (program : Program I ε α) : Program I ε (Except ε α) :=
  rescue (bind program (fun value => .ret (.ok value))) (fun error => .ret (.error error))

/-- Run a program for every item of a list, in order. -/
def each (step : γ → Program I ε Unit) : List γ → Program I ε Unit
  | [] => .ret ()
  | item :: rest => bind (step item) fun _ => each step rest

/-- The program up to so many commands. When it is cut off, nothing more is done. -/
def interrupt : Nat → Program I ε α → Program I ε (Option α)
  | _, .ret value => .ret (some value)
  | _, .raise error => .raise error
  | 0, .call _ _ => .ret none
  | count + 1, .call command resume =>
    .call command fun answer => interrupt count (resume answer)

/-- Binding the return is the program itself. -/
theorem bind_ret (program : Program I ε α) : bind program .ret = program := by
  induction program with
  | ret value => rfl
  | raise error => rfl
  | call command resume inductionHypothesis =>
    simp only [bind, inductionHypothesis]

/-- Sequencing is associative. -/
theorem bind_assoc (program : Program I ε α) (next : α → Program I ε β)
    (last : β → Program I ε γ) :
    bind (bind program next) last = bind program (fun value => bind (next value) last) := by
  induction program with
  | ret value => rfl
  | raise error => rfl
  | call command resume inductionHypothesis =>
    simp only [bind, inductionHypothesis]

instance : LawfulMonad (Program I ε) :=
  LawfulMonad.mk' _ bind_ret (fun _ _ => rfl) bind_assoc

/-- Rescuing a program is going on with its outcome. -/
theorem tryCatch_eq_attempt (program : Program I ε α) (rescuer : ε → Program I ε α) :
    tryCatch program rescuer = program.attempt >>= fun outcome =>
      match outcome with
      | .ok value => pure value
      | .error error => rescuer error := by
  change rescue program rescuer = bind (attempt program) _
  induction program with
  | ret value => rfl
  | raise error => rfl
  | call command resume inductionHypothesis =>
    simp only [rescue, inductionHypothesis]
    rfl

end Program

/-- A handler answers every command from a state and supplies the next state. -/
abbrev Handler (I : Interface) (ε σ : Type) :=
  (command : I.Command) → σ → Except ε (I.Answer command) × σ

/-- Run a program alone. An error keeps the state in which it was raised. -/
def run (handler : Handler I ε σ) : Program I ε α → σ → Except ε α × σ
  | .ret value, state => (.ok value, state)
  | .raise error, state => (.error error, state)
  | .call command resume, state =>
    run handler (resume (handler command state).1) (handler command state).2

/-- The states a run passes through, from its initial to its final state. -/
def visited (handler : Handler I ε σ) : Program I ε α → σ → List σ
  | .ret _, state => [state]
  | .raise _, state => [state]
  | .call command resume, state =>
    state :: visited handler (resume (handler command state).1) (handler command state).2

/-- The commands a run issues, each with the state in which it is issued. -/
def issued (handler : Handler I ε σ) : Program I ε α → σ → List (σ × I.Command)
  | .ret _, _ => []
  | .raise _, _ => []
  | .call command resume, state =>
    (state, command) :: issued handler (resume (handler command state).1) (handler command state).2

section Run

variable (handler : Handler I ε σ)

@[simp] theorem run_pure (value : α) (state : σ) :
    run handler (pure value) state = (.ok value, state) := rfl

@[simp] theorem run_throw (error : ε) (state : σ) :
    run handler (throw error : Program I ε α) state = (.error error, state) := rfl

@[simp] theorem run_perform (command : I.Command) (state : σ) :
    run handler (Program.perform command) state = handler command state := by
  cases answered : (handler command state).1 <;>
    simp only [Program.perform, run, answered] <;> rw [← answered]

/-- Sequencing runs the continuation in the state the first program leaves. -/
theorem run_bind (program : Program I ε α) (next : α → Program I ε β) (state : σ) :
    run handler (program >>= next) state =
      match run handler program state with
      | (.ok value, after) => run handler (next value) after
      | (.error error, after) => (.error error, after) := by
  change run handler (Program.bind program next) state = _
  induction program generalizing state with
  | ret value => rfl
  | raise error => rfl
  | call command resume inductionHypothesis =>
    simp only [Program.bind, run, inductionHypothesis]

/-- A rescued program runs its handler in the state in which it raised. -/
theorem run_tryCatch (program : Program I ε α) (rescuer : ε → Program I ε α) (state : σ) :
    run handler (tryCatch program rescuer) state =
      match run handler program state with
      | (.ok value, after) => (.ok value, after)
      | (.error error, after) => run handler (rescuer error) after := by
  change run handler (Program.rescue program rescuer) state = _
  induction program generalizing state with
  | ret value => rfl
  | raise error => rfl
  | call command resume inductionHypothesis =>
    simp only [Program.rescue, run, inductionHypothesis]

/-- Reifying the outcome changes neither the outcome nor the state. -/
theorem run_attempt (program : Program I ε α) (state : σ) :
    run handler program.attempt state =
      (.ok (run handler program state).1, (run handler program state).2) := by
  induction program generalizing state with
  | ret value => rfl
  | raise error => rfl
  | call command resume inductionHypothesis =>
    exact inductionHypothesis (handler command state).1 (handler command state).2

/-- A sequence returns when its first part returns and its continuation does. -/
theorem run_bind_eq_ok {program : Program I ε α} {next : α → Program I ε β} {state final : σ}
    {value : β} : run handler (program >>= next) state = (.ok value, final) ↔
      ∃ first middle, run handler program state = (.ok first, middle) ∧
        run handler (next first) middle = (.ok value, final) := by
  rw [run_bind]
  cases ran : run handler program state with
  | mk outcome middle =>
    cases outcome with
    | ok first =>
      constructor
      · exact fun rest => ⟨first, middle, rfl, rest⟩
      · rintro ⟨_, _, same, rest⟩
        cases same
        exact rest
    | error error =>
      constructor
      · intro impossible
        cases impossible
      · rintro ⟨_, _, impossible, _⟩
        cases impossible

/-- A sequence ends where its first part raises, or where the continuation of what that
part returned ends. -/
theorem run_bind_cases {program : Program I ε α} {next : α → Program I ε β} {state final : σ}
    {outcome : Except ε β} (ran : run handler (program >>= next) state = (outcome, final)) :
    (∃ error, outcome = .error error ∧ run handler program state = (.error error, final)) ∨
      ∃ first middle, run handler program state = (.ok first, middle) ∧
        run handler (next first) middle = (outcome, final) := by
  rw [run_bind] at ran
  cases first : run handler program state with
  | mk answer middle =>
    rw [first] at ran
    cases answer with
    | ok value => exact Or.inr ⟨value, middle, rfl, ran⟩
    | error error =>
      cases ran
      exact Or.inl ⟨error, rfl, rfl⟩

/-- The commands of a sequence are those of its first part and, when that
returns, those of the continuation, in this order. -/
theorem issued_bind (program : Program I ε α) (next : α → Program I ε β) (state : σ) :
    issued handler (program >>= next) state = issued handler program state ++
      match run handler program state with
      | (.ok value, middle) => issued handler (next value) middle
      | (.error _, _) => [] := by
  change issued handler (Program.bind program next) state = _
  induction program generalizing state with
  | ret value => rfl
  | raise error => rfl
  | call command resume inductionHypothesis =>
    exact congrArg (_ :: ·) (inductionHypothesis (handler command state).1 (handler command state).2)

/-- The commands of a rescued program are its own and, when it raises, those of
the handler, in this order. -/
theorem issued_tryCatch (program : Program I ε α) (rescuer : ε → Program I ε α) (state : σ) :
    issued handler (tryCatch program rescuer) state = issued handler program state ++
      match run handler program state with
      | (.ok _, _) => []
      | (.error error, middle) => issued handler (rescuer error) middle := by
  change issued handler (Program.rescue program rescuer) state = _
  induction program generalizing state with
  | ret value => rfl
  | raise error => rfl
  | call command resume inductionHypothesis =>
    exact congrArg (_ :: ·) (inductionHypothesis (handler command state).1 (handler command state).2)

theorem mem_issued_bind {program : Program I ε α} {next : α → Program I ε β} {state : σ}
    {entry : σ × I.Command} : entry ∈ issued handler (program >>= next) state ↔
      entry ∈ issued handler program state ∨
        ∃ value middle, run handler program state = (.ok value, middle) ∧
          entry ∈ issued handler (next value) middle := by
  rw [issued_bind, List.mem_append]
  cases ran : run handler program state with
  | mk outcome middle => cases outcome <;> simp

theorem mem_issued_tryCatch {program : Program I ε α} {rescuer : ε → Program I ε α} {state : σ}
    {entry : σ × I.Command} : entry ∈ issued handler (tryCatch program rescuer) state ↔
      entry ∈ issued handler program state ∨
        ∃ error middle, run handler program state = (.error error, middle) ∧
          entry ∈ issued handler (rescuer error) middle := by
  rw [issued_tryCatch, List.mem_append]
  cases ran : run handler program state with
  | mk outcome middle => cases outcome <;> simp

/-- A single command is issued at once. -/
theorem issued_perform (command : I.Command) (state : σ) :
    issued handler (Program.perform command) state = [(state, command)] := by
  cases answered : (handler command state).1 <;>
    simp only [Program.perform, issued, answered]

/-- Reifying the outcome issues the same commands. -/
theorem issued_attempt (program : Program I ε α) (state : σ) :
    issued handler program.attempt state = issued handler program state := by
  induction program generalizing state with
  | ret value => rfl
  | raise error => rfl
  | call command resume inductionHypothesis =>
    exact congrArg (_ :: ·) (inductionHypothesis (handler command state).1 (handler command state).2)

/-- A program that is cut off issues the first commands of the whole program. -/
theorem issued_interrupt (count : Nat) (program : Program I ε α) (state : σ) :
    issued handler (Program.interrupt count program) state =
      (issued handler program state).take count := by
  induction program generalizing count state with
  | ret value => simp [Program.interrupt, issued]
  | raise error => simp [Program.interrupt, issued]
  | call command resume inductionHypothesis =>
    cases count with
    | zero => simp [Program.interrupt, issued]
    | succ count => simp [Program.interrupt, issued, inductionHypothesis]

end Run

/-- A monitor follows the exchanges of one program. It says which commands are
permitted in a phase, which answers it considers possible, and the next phase. -/
structure Monitor (I : Interface) (ε φ : Type) where
  permits : φ → I.Command → Prop
  possible : φ → (command : I.Command) → Except ε (I.Answer command) → Prop
  next : φ → (command : I.Command) → Except ε (I.Answer command) → φ

/-- From this phase, every possible sequence of answers issues only permitted
commands and ends in an outcome and a phase that satisfy the postcondition. -/
def wp (monitor : Monitor I ε φ) :
    Program I ε α → (Except ε α → φ → Prop) → φ → Prop
  | .ret value, post, phase => post (.ok value) phase
  | .raise error, post, phase => post (.error error) phase
  | .call command resume, post, phase =>
    monitor.permits phase command ∧ ∀ answer, monitor.possible phase command answer →
      wp monitor (resume answer) post (monitor.next phase command answer)

section Wp

variable {monitor : Monitor I ε φ} {post : Except ε α → φ → Prop} {phase : φ}

theorem wp_pure {value : α} (holds : post (.ok value) phase) :
    wp monitor (pure value) post phase := holds

theorem wp_throw {error : ε} (holds : post (.error error) phase) :
    wp monitor (throw error) post phase := holds

/-- A single command needs permission and must serve every possible answer. -/
theorem wp_perform {command : I.Command}
    {post : Except ε (I.Answer command) → φ → Prop}
    (permitted : monitor.permits phase command)
    (holds : ∀ answer, monitor.possible phase command answer →
      post answer (monitor.next phase command answer)) :
    wp monitor (Program.perform command) post phase := by
  refine ⟨permitted, ?_⟩
  intro answer possible
  cases answer with
  | ok value => exact holds (.ok value) possible
  | error error => exact holds (.error error) possible

/-- A stronger postcondition gives the weaker one. -/
theorem wp_mono {program : Program I ε α} {weaker : Except ε α → φ → Prop}
    (holds : wp monitor program post phase)
    (implies : ∀ outcome final, post outcome final → weaker outcome final) :
    wp monitor program weaker phase := by
  induction program generalizing phase with
  | ret value => exact implies _ _ holds
  | raise error => exact implies _ _ holds
  | call command resume inductionHypothesis =>
    exact ⟨holds.1, fun answer possible => inductionHypothesis answer (holds.2 answer possible)⟩

/-- Sequencing: the continuation is judged in the phase the first part ends in,
and an error of the first part is an error of the whole. -/
theorem wp_bind {program : Program I ε β} {next : β → Program I ε α}
    (holds : wp monitor program
      (fun outcome middle => match outcome with
        | .ok value => wp monitor (next value) post middle
        | .error error => post (.error error) middle) phase) :
    wp monitor (program >>= next) post phase := by
  change wp monitor (Program.bind program next) post phase
  induction program generalizing phase with
  | ret value => exact holds
  | raise error => exact holds
  | call command resume inductionHypothesis =>
    exact ⟨holds.1, fun answer possible => inductionHypothesis answer (holds.2 answer possible)⟩

/-- Rescue: an error of the protected part is judged by its handler. -/
theorem wp_tryCatch {program : Program I ε α} {rescuer : ε → Program I ε α}
    (holds : wp monitor program
      (fun outcome middle => match outcome with
        | .ok value => post (.ok value) middle
        | .error error => wp monitor (rescuer error) post middle) phase) :
    wp monitor (tryCatch program rescuer) post phase := by
  change wp monitor (Program.rescue program rescuer) post phase
  induction program generalizing phase with
  | ret value => exact holds
  | raise error => exact holds
  | call command resume inductionHypothesis =>
    exact ⟨holds.1, fun answer possible => inductionHypothesis answer (holds.2 answer possible)⟩

/-- Reification: the outcome becomes an ordinary value. -/
theorem wp_attempt {program : Program I ε β} {post : Except ε (Except ε β) → φ → Prop}
    (holds : wp monitor program (fun outcome final => post (.ok outcome) final) phase) :
    wp monitor program.attempt post phase := by
  induction program generalizing phase with
  | ret value => exact holds
  | raise error => exact holds
  | call command resume inductionHypothesis =>
    exact ⟨holds.1, fun answer possible => inductionHypothesis answer (holds.2 answer possible)⟩

end Wp

/-- Every command on every branch, whatever the answers, has the property. -/
def Issues (property : I.Command → Prop) : Program I ε α → Prop
  | .ret _ => True
  | .raise _ => True
  | .call command resume => property command ∧ ∀ answer, Issues property (resume answer)

section Issues

variable {property : I.Command → Prop}

@[simp] theorem issues_pure (value : α) : Issues property (pure value : Program I ε α) := trivial

@[simp] theorem issues_throw (error : ε) : Issues property (throw error : Program I ε α) := trivial

@[simp] theorem issues_perform (command : I.Command) :
    Issues property (Program.perform command : Program I ε _) ↔ property command := by
  constructor
  · exact fun holds => holds.1
  · intro holds
    refine ⟨holds, ?_⟩
    intro answer
    cases answer <;> trivial

theorem issues_bind {program : Program I ε α} {next : α → Program I ε β}
    (first : Issues property program) (rest : ∀ value, Issues property (next value)) :
    Issues property (program >>= next) := by
  change Issues property (Program.bind program next)
  induction program with
  | ret value => exact rest value
  | raise error => trivial
  | call command resume inductionHypothesis =>
    exact ⟨first.1, fun answer => inductionHypothesis answer (first.2 answer)⟩

theorem issues_tryCatch {program : Program I ε α} {rescuer : ε → Program I ε α}
    (first : Issues property program) (rest : ∀ error, Issues property (rescuer error)) :
    Issues property (tryCatch program rescuer) := by
  change Issues property (Program.rescue program rescuer)
  induction program with
  | ret value => trivial
  | raise error => exact rest error
  | call command resume inductionHypothesis =>
    exact ⟨first.1, fun answer => inductionHypothesis answer (first.2 answer)⟩

theorem issues_attempt {program : Program I ε α} (first : Issues property program) :
    Issues property program.attempt := by
  induction program with
  | ret value => trivial
  | raise error => trivial
  | call command resume inductionHypothesis =>
    exact ⟨first.1, fun answer => inductionHypothesis answer (first.2 answer)⟩

/-- Every command of a loop is one of some step. -/
theorem issues_each {step : γ → Program I ε Unit} {items : List γ}
    (all : ∀ item ∈ items, Issues property (step item)) :
    Issues property (Program.each step items) := by
  induction items with
  | nil => trivial
  | cons item rest inductionHypothesis =>
    refine issues_bind (all item List.mem_cons_self) fun _ => ?_
    exact inductionHypothesis fun later member => all later (List.mem_cons_of_mem _ member)

theorem issues_mono {weaker : I.Command → Prop} {program : Program I ε α}
    (holds : Issues property program) (implies : ∀ command, property command → weaker command) :
    Issues weaker program := by
  induction program with
  | ret value => trivial
  | raise error => trivial
  | call command resume inductionHypothesis =>
    exact ⟨implies command holds.1, fun answer => inductionHypothesis answer (holds.2 answer)⟩

/-- A property of all commands is a property of those of a program. -/
theorem issues_all (program : Program I ε α) (all : ∀ command, property command) :
    Issues property program := by
  induction program with
  | ret value => trivial
  | raise error => trivial
  | call command resume inductionHypothesis => exact ⟨all command, inductionHypothesis⟩

/-- Every command of a run has the property. -/
theorem issues_issued {handler : Handler I ε σ} {program : Program I ε α}
    (holds : Issues property program) (state : σ) :
    ∀ entry ∈ issued handler program state, property entry.2 := by
  induction program generalizing state with
  | ret value => simp [issued]
  | raise error => simp [issued]
  | call command resume inductionHypothesis =>
    intro entry member
    rcases List.mem_cons.mp member with rfl | later
    · exact holds.1
    · exact inductionHypothesis _ (holds.2 _) _ entry later

/-- What the commands of a program keep, its run keeps. -/
theorem issues_run {handler : Handler I ε σ} {program : Program I ε α} {invariant : σ → Prop}
    (holds : Issues property program)
    (step : ∀ command state, property command → invariant state →
      invariant (handler command state).2) {state : σ} (initially : invariant state) :
    invariant (run handler program state).2 := by
  induction program generalizing state with
  | ret value => exact initially
  | raise error => exact initially
  | call command resume inductionHypothesis =>
    exact inductionHypothesis _ (holds.2 _) (step command state holds.1 initially)

end Issues

/-- Every value that any branch returns, whatever the answers, has the property. -/
def Yields (property : α → Prop) : Program I ε α → Prop
  | .ret value => property value
  | .raise _ => True
  | .call _ resume => ∀ answer, Yields property (resume answer)

section Yields

variable {returned : α → Prop}

theorem yields_pure {value : α} (holds : returned value) :
    Yields returned (pure value : Program I ε α) := holds

@[simp] theorem yields_throw (error : ε) : Yields returned (throw error : Program I ε α) := trivial

/-- A sequence yields what its continuation yields. -/
theorem yields_bind {program : Program I ε β} {next : β → Program I ε α}
    (rest : ∀ value, Yields returned (next value)) : Yields returned (program >>= next) := by
  change Yields returned (Program.bind program next)
  induction program with
  | ret value => exact rest value
  | raise error => trivial
  | call command resume inductionHypothesis => exact inductionHypothesis

/-- A sequence yields what its continuation yields for the values of the first part. -/
theorem yields_bind_of {first : β → Prop} {program : Program I ε β} {next : β → Program I ε α}
    (before : Yields first program) (rest : ∀ value, first value → Yields returned (next value)) :
    Yields returned (program >>= next) := by
  change Yields returned (Program.bind program next)
  induction program with
  | ret value => exact rest value before
  | raise error => trivial
  | call command resume inductionHypothesis =>
    exact fun answer => inductionHypothesis answer (before answer)

/-- A run returns only what its program yields. -/
theorem yields_run {handler : Handler I ε σ} {program : Program I ε α} {state : σ}
    (yields : Yields returned program) {value : α}
    (ran : (run handler program state).1 = .ok value) : returned value := by
  induction program generalizing state with
  | ret given => exact Except.ok.inj ran ▸ yields
  | raise error => cases ran
  | call command resume inductionHypothesis => exact inductionHypothesis _ (yields _) ran

end Yields

/-- What a program returns may be added to any judgement of it. -/
theorem wp_yields {monitor : Monitor I ε φ} {program : Program I ε α} {returned : α → Prop}
    {post : Except ε α → φ → Prop} {phase : φ} (holds : wp monitor program post phase)
    (yields : Yields returned program) :
    wp monitor program (fun outcome final => post outcome final ∧
      ∀ value, outcome = .ok value → returned value) phase := by
  induction program generalizing phase with
  | ret value => exact ⟨holds, fun _ same => Except.ok.inj same ▸ yields⟩
  | raise error => exact ⟨holds, fun _ impossible => by cases impossible⟩
  | call command resume inductionHypothesis =>
    exact ⟨holds.1, fun answer possible =>
      inductionHypothesis answer (holds.2 answer possible) (yields answer)⟩

/-- Commands that are permitted and keep a phase invariant keep it along the
whole program, whatever is answered. -/
theorem wp_of_issues {monitor : Monitor I ε φ} {program : Program I ε α}
    {property : I.Command → Prop} {phase : φ} (invariant : φ → Prop)
    (issues : Issues property program) (initially : invariant phase)
    (step : ∀ phase command, invariant phase → property command →
      monitor.permits phase command ∧ ∀ answer, monitor.possible phase command answer →
        invariant (monitor.next phase command answer)) :
    wp monitor program (fun _ final => invariant final) phase := by
  induction program generalizing phase with
  | ret value => exact initially
  | raise error => exact initially
  | call command resume inductionHypothesis =>
    obtain ⟨permitted, kept⟩ := step phase command initially issues.1
    exact ⟨permitted, fun answer possible =>
      inductionHypothesis answer (issues.2 answer) (kept answer possible)⟩

/-- A program keeps an invariant of the phase, whether it returns or raises. -/
def Keeps (monitor : Monitor I ε φ) (invariant : φ → Prop) (program : Program I ε α) : Prop :=
  ∀ phase, invariant phase → wp monitor program (fun _ final => invariant final) phase

section Keeps

variable {monitor : Monitor I ε φ} {invariant : φ → Prop}

@[simp] theorem keeps_pure (value : α) :
    Keeps monitor invariant (pure value : Program I ε α) := fun _ holds => holds

@[simp] theorem keeps_throw (error : ε) :
    Keeps monitor invariant (throw error : Program I ε α) := fun _ holds => holds

theorem keeps_bind {program : Program I ε α} {next : α → Program I ε β}
    (first : Keeps monitor invariant program)
    (rest : ∀ value, Keeps monitor invariant (next value)) :
    Keeps monitor invariant (program >>= next) := by
  intro phase holds
  refine wp_bind (wp_mono (first phase holds) ?_)
  intro outcome middle kept
  cases outcome with
  | ok value => exact rest value middle kept
  | error error => exact kept

/-- A first part that keeps an invariant leaves it to the continuation. -/
theorem wp_bind_keeps {program : Program I ε β} {next : β → Program I ε α}
    {post : Except ε α → φ → Prop} {phase : φ} (first : Keeps monitor invariant program)
    (initially : invariant phase)
    (raises : ∀ error final, invariant final → post (.error error) final)
    (rest : ∀ value final, invariant final → wp monitor (next value) post final) :
    wp monitor (program >>= next) post phase := by
  refine wp_bind (wp_mono (first phase initially) ?_)
  intro outcome middle kept
  cases outcome with
  | ok value => exact rest value middle kept
  | error error => exact raises error middle kept

theorem keeps_tryCatch {program : Program I ε α} {rescuer : ε → Program I ε α}
    (first : Keeps monitor invariant program)
    (rest : ∀ error, Keeps monitor invariant (rescuer error)) :
    Keeps monitor invariant (tryCatch program rescuer) := by
  intro phase holds
  refine wp_tryCatch (wp_mono (first phase holds) ?_)
  intro outcome middle kept
  cases outcome with
  | ok value => exact kept
  | error error => exact rest error middle kept

theorem keeps_attempt {program : Program I ε α} (first : Keeps monitor invariant program) :
    Keeps monitor invariant program.attempt :=
  fun phase holds => wp_attempt (first phase holds)

end Keeps

/-- A handler is the monitor whose phases are its states and whose only possible
answer is the one it gives. -/
def Handler.monitor (handler : Handler I ε σ) (permits : σ → I.Command → Prop) :
    Monitor I ε σ where
  permits := permits
  possible := fun state command answer => answer = (handler command state).1
  next := fun state command _ => (handler command state).2

section Soundness

variable {handler : Handler I ε σ} {permits : σ → I.Command → Prop}
  {program : Program I ε α} {post : Except ε α → σ → Prop} {state : σ}

/-- The judgement of a handler's own monitor speaks about the run. -/
theorem wp_run (holds : wp (handler.monitor permits) program post state) :
    post (run handler program state).1 (run handler program state).2 := by
  induction program generalizing state with
  | ret value => exact holds
  | raise error => exact holds
  | call command resume inductionHypothesis =>
    exact inductionHypothesis _ (holds.2 _ rfl)

/-- Every command the run issues was permitted where it was issued. -/
theorem wp_issued (holds : wp (handler.monitor permits) program post state) :
    ∀ entry ∈ issued handler program state, permits entry.1 entry.2 := by
  induction program generalizing state with
  | ret value => simp [issued]
  | raise error => simp [issued]
  | call command resume inductionHypothesis =>
    intro entry member
    rcases List.mem_cons.mp member with rfl | later
    · exact holds.1
    · exact inductionHypothesis _ (holds.2 _ rfl) entry later

/-- A state property that the monitor demands before every command and at the
end holds in every visited state. -/
theorem wp_visited {property : σ → Prop}
    (holds : wp (handler.monitor fun state _ => property state) program
      (fun _ final => property final) state) :
    ∀ passed ∈ visited handler program state, property passed := by
  induction program generalizing state with
  | ret value =>
    intro passed member
    exact List.mem_singleton.mp member ▸ holds
  | raise error =>
    intro passed member
    exact List.mem_singleton.mp member ▸ holds
  | call command resume inductionHypothesis =>
    intro passed member
    rcases List.mem_cons.mp member with rfl | later
    · exact holds.1
    · exact inductionHypothesis _ (holds.2 _ rfl) passed later

/-- A monitor that accepts what a program does follows its run: an invariant of state
and phase that every permitted command preserves holds at the end, in a phase that
the postcondition allows. -/
theorem wp_follows {monitor : Monitor I ε φ} {post : Except ε α → φ → Prop} {phase : φ}
    {invariant : σ → φ → Prop}
    (preserves : ∀ state phase command, invariant state phase → monitor.permits phase command →
      monitor.possible phase command (handler command state).1 ∧
        invariant (handler command state).2
          (monitor.next phase command (handler command state).1))
    (holds : wp monitor program post phase) (initially : invariant state phase) :
    ∃ final, post (run handler program state).1 final ∧
      invariant (run handler program state).2 final := by
  induction program generalizing state phase with
  | ret value => exact ⟨phase, holds, initially⟩
  | raise error => exact ⟨phase, holds, initially⟩
  | call command resume inductionHypothesis =>
    obtain ⟨possible, kept⟩ := preserves state phase command initially holds.1
    exact inductionHypothesis _ (holds.2 _ possible) kept

end Soundness

section Pairs

variable {ψ : Type}

/-- Two monitors side by side: what both permit, with the answers possible to both. -/
def Monitor.both (first : Monitor I ε φ) (second : Monitor I ε ψ) : Monitor I ε (φ × ψ) where
  permits := fun phases command =>
    first.permits phases.1 command ∧ second.permits phases.2 command
  possible := fun phases command answer =>
    first.possible phases.1 command answer ∧ second.possible phases.2 command answer
  next := fun phases command answer =>
    (first.next phases.1 command answer, second.next phases.2 command answer)

/-- A program that each of two monitors accepts is accepted by both. -/
theorem wp_both {first : Monitor I ε φ} {second : Monitor I ε ψ} {program : Program I ε α}
    {post : Except ε α → φ → Prop} {other : Except ε α → ψ → Prop} {phases : φ × ψ}
    (holds : wp first program post phases.1) (also : wp second program other phases.2) :
    wp (first.both second) program (fun outcome final => post outcome final.1 ∧
      other outcome final.2) phases := by
  induction program generalizing phases with
  | ret value => exact ⟨holds, also⟩
  | raise error => exact ⟨holds, also⟩
  | call command resume inductionHypothesis =>
    exact ⟨⟨holds.1, also.1⟩, fun answer possible =>
      inductionHypothesis answer (holds.2 answer possible.1) (also.2 answer possible.2)⟩

end Pairs

section Components

variable {J : Interface} {τ : Type}

/-- Two components behind one interface. -/
@[reducible] def Interface.both (I J : Interface) : Interface :=
  ⟨I.Command ⊕ J.Command, Sum.elim I.Answer J.Answer⟩

/-- A program of the first component. -/
def Program.first : Program I ε α → Program (I.both J) ε α
  | .ret value => .ret value
  | .raise error => .raise error
  | .call command resume => .call (.inl command) fun answer => first (resume answer)

/-- A program of the second component. -/
def Program.second : Program J ε α → Program (I.both J) ε α
  | .ret value => .ret value
  | .raise error => .raise error
  | .call command resume => .call (.inr command) fun answer => second (resume answer)

/-- Each component answers its own commands from its own state. -/
def Handler.both (handler : Handler I ε σ) (other : Handler J ε τ) :
    Handler (I.both J) ε (σ × τ)
  | .inl command, states =>
    ((handler command states.1).1, ((handler command states.1).2, states.2))
  | .inr command, states =>
    ((other command states.2).1, (states.1, (other command states.2).2))

/-- A program of one component runs as it does alone; the other state stays as it is. -/
theorem run_first (handler : Handler I ε σ) (other : Handler J ε τ) (program : Program I ε α)
    (states : σ × τ) :
    run (handler.both other) program.first states =
      ((run handler program states.1).1, ((run handler program states.1).2, states.2)) := by
  induction program generalizing states with
  | ret value => rfl
  | raise error => rfl
  | call command resume inductionHypothesis => exact inductionHypothesis _ _

theorem run_second (handler : Handler I ε σ) (other : Handler J ε τ) (program : Program J ε α)
    (states : σ × τ) :
    run (handler.both other) program.second states =
      ((run other program states.2).1, (states.1, (run other program states.2).2)) := by
  induction program generalizing states with
  | ret value => rfl
  | raise error => rfl
  | call command resume inductionHypothesis => exact inductionHypothesis _ _

end Components

end Immutavault.Programs
