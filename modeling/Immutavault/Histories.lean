import Immutavault.Machine

/-!
# What a run leaves in the history

The world records every command with its answer. A later state of a run
therefore shows what happened before it, and in which order. Two readings of the
history are used: that certain exchanges took place, in the given order, since
some earlier state, and which exchanges of one effect took place at all.

The first is kept by whatever the run does next. The second is changed only by
programs whose footprint has the effect.
-/

namespace Immutavault.Histories

open Programs Values Machine

variable {α β : Type} {env : Environment}

/-- The listed exchanges took place since the given state, in this order. -/
def Since (start : World) (listed : History) (now : World) : Prop :=
  ∃ later, now.log = start.log ++ later ∧ listed.Sublist later

theorem Since.refl (start : World) : Since start [] start := ⟨[], by simp, List.Sublist.slnil⟩

/-- The past grows. -/
theorem Since.grown {start now after : World} {listed : History} (since : Since start listed now)
    (grown : now.log <+: after.log) : Since start listed after := by
  obtain ⟨later, split, inside⟩ := since
  obtain ⟨more, extended⟩ := grown
  refine ⟨later ++ more, ?_, inside.trans (List.sublist_append_left later more)⟩
  rw [← extended, split, List.append_assoc]

theorem Since.run {start now : World} {listed : History} (since : Since start listed now)
    (program : Prog α) : Since start listed (run env.handler program now).2 :=
  since.grown (log_run env program now)

/-- The same for the state in which a run ends, when it is given by name. -/
theorem Since.ran {start now after : World} {listed : History} {program : Prog α}
    {outcome : Except Exn α} (since : Since start listed now)
    (ran : Programs.run env.handler program now = (outcome, after)) :
    Since start listed after := by
  refine since.grown ?_
  have grown := log_run env program now
  rwa [ran] at grown

/-- One more command takes place. -/
theorem Since.exchange {start now : World} {listed : History} (since : Since start listed now)
    (command : Command) :
    Since start (listed ++ [⟨command, env.reply now command⟩]) (env.handler command now).2 := by
  obtain ⟨later, split, inside⟩ := since
  refine ⟨later ++ [⟨command, env.reply now command⟩], ?_, inside.append_right _⟩
  simp [Environment.handler, split]

/-- One more request is answered. -/
theorem Since.answered {start now : World} {listed : History} (since : Since start listed now)
    {external : External} {value : external.Answer}
    (answered : env.answer now.log external = .ok value) :
    Since start (listed ++ [⟨Command.request external, .ok value⟩])
      (env.handler (.request external) now).2 := by
  have replied : env.reply now (.request external) = .ok value := answered
  rw [← replied]
  exact since.exchange _

/-- What happened since a later state happened since an earlier one. -/
theorem Since.earlier {start middle now : World} {listed : History}
    (since : Since middle listed now) (grown : start.log <+: middle.log) :
    Since start listed now := by
  obtain ⟨later, split, inside⟩ := since
  obtain ⟨more, extended⟩ := grown
  refine ⟨more ++ later, ?_, inside.trans (List.sublist_append_right more later)⟩
  rw [split, ← extended, List.append_assoc]

/-- What a run exchanges are commands that its program may issue. -/
theorem log_issues {property : controller.Command → Prop} {program : Prog α}
    (issues : Issues property program) (world : World) :
    ∃ later, (run env.handler program world).2.log = world.log ++ later ∧
      ∀ exchange ∈ later, property exchange.1 := by
  induction program generalizing world with
  | ret value => exact ⟨[], by simp [run], by simp⟩
  | raise error => exact ⟨[], by simp [run], by simp⟩
  | call command resume inductionHypothesis =>
    obtain ⟨later, continued, rest⟩ := inductionHypothesis (env.handler command world).1
      (issues.2 _) (env.handler command world).2
    refine ⟨⟨command, env.reply world command⟩ :: later, continued.trans ?_, ?_⟩
    · simp [Environment.handler]
    · exact List.forall_mem_cons.mpr ⟨issues.1, rest⟩

/-- So is an exchange that took place since the run began. -/
theorem Since.issues_ran {property : controller.Command → Prop} {program : Prog α}
    {outcome : Except Exn α} {start now : World} {exchange : Exchange controller Exn}
    (since : Since start [exchange] now) (issues : Issues property program)
    (ran : Programs.run env.handler program start = (outcome, now)) : property exchange.1 := by
  obtain ⟨listed, split, inside⟩ := since
  obtain ⟨later, continued, judged⟩ := @log_issues _ env _ _ issues start
  rw [ran] at continued
  have same : listed = later := List.append_cancel_left (split.symm.trans continued)
  exact judged exchange (same ▸ inside.mem (List.mem_singleton.mpr rfl))

/-- All exchanges that took place since the given state have a property. -/
def Only (property : Exchange controller Exn → Prop) (start now : World) : Prop :=
  ∃ later, now.log = start.log ++ later ∧ ∀ exchange ∈ later, property exchange

theorem Only.refl (property : Exchange controller Exn → Prop) (start : World) :
    Only property start start := ⟨[], by simp, by simp⟩

theorem Only.trans {property : Exchange controller Exn → Prop} {start middle now : World}
    (first : Only property start middle) (second : Only property middle now) :
    Only property start now := by
  obtain ⟨early, split, early_all⟩ := first
  obtain ⟨later, continued, later_all⟩ := second
  refine ⟨early ++ later, by rw [continued, split, List.append_assoc], ?_⟩
  intro exchange member
  rcases List.mem_append.mp member with one | other
  · exact early_all exchange one
  · exact later_all exchange other

theorem Only.mono {property weaker : Exchange controller Exn → Prop} {start now : World}
    (only : Only property start now) (implies : ∀ exchange, property exchange → weaker exchange) :
    Only weaker start now := by
  obtain ⟨later, split, all⟩ := only
  exact ⟨later, split, fun exchange member => implies exchange (all exchange member)⟩

/-- So do all that took place before an earlier state. -/
theorem Only.before {property : Exchange controller Exn → Prop} {start middle now : World}
    (only : Only property start now) (first : start.log <+: middle.log)
    (second : middle.log <+: now.log) : Only property start middle := by
  obtain ⟨later, split, all⟩ := only
  obtain ⟨early, grown⟩ := first
  obtain ⟨rest, continued⟩ := second
  refine ⟨early, grown.symm, fun exchange member => all exchange ?_⟩
  have joined : start.log ++ later = start.log ++ (early ++ rest) := by
    rw [← split, ← continued, ← grown, List.append_assoc]
  have same : later = early ++ rest := List.append_cancel_left joined
  exact same ▸ List.mem_append_left _ member

/-- What took place has the property. -/
theorem Only.since {property : Exchange controller Exn → Prop} {start now : World}
    {listed : History} (only : Only property start now) (since : Since start listed now) :
    ∀ exchange ∈ listed, property exchange := by
  obtain ⟨later, split, all⟩ := only
  obtain ⟨same, again, inside⟩ := since
  have equal : same = later := List.append_cancel_left (again.symm.trans split)
  exact fun exchange member => all exchange (equal ▸ inside.mem member)

/-- Of two exchanges in turn, the later one is among the late ones unless the earlier one is
among the early ones. -/
theorem Only.later {first second : Exchange controller Exn → Prop} {start middle now : World}
    {earlier later : Exchange controller Exn} (early : Only first start middle)
    (late : Only second middle now) (since : Since start [earlier, later] now)
    (not_early : ¬ first earlier) : second later := by
  obtain ⟨before, split, before_all⟩ := early
  obtain ⟨after, continued, after_all⟩ := late
  obtain ⟨listed, grown, inside⟩ := since
  have joined : listed = before ++ after := by
    have equal : start.log ++ listed = start.log ++ (before ++ after) := by
      rw [← grown, continued, split, List.append_assoc]
    exact List.append_cancel_left equal
  rw [joined] at inside
  obtain ⟨one, other, whole, one_before, other_after⟩ := List.sublist_append_iff.mp inside
  cases one with
  | nil =>
    have member : later ∈ other := by
      rw [← List.nil_append other, ← whole]
      simp
    exact after_all later (other_after.mem member)
  | cons head rest =>
    obtain ⟨rfl, _⟩ := List.cons.inj whole
    exact absurd (before_all earlier (one_before.mem List.mem_cons_self)) not_early

/-- The exchanges of a history that have an effect. -/
def recorded (effect : Effect) (history : History) : History :=
  history.filter fun exchange => Command.effect exchange.1 = effect

theorem recorded_append (effect : Effect) (first second : History) :
    recorded effect (first ++ second) = recorded effect first ++ recorded effect second :=
  List.filter_append first second

/-- A command with another effect records nothing. -/
theorem recorded_other {effect : Effect} {command : Command} (other : command.effect ≠ effect)
    (world : World) :
    recorded effect (env.handler command world).2.log = recorded effect world.log := by
  simp [recorded, Environment.handler, other]

/-- A command with the effect is recorded with its answer. -/
theorem recorded_own {effect : Effect} {command : Command} (own : command.effect = effect)
    (world : World) :
    recorded effect (env.handler command world).2.log =
      recorded effect world.log ++ [⟨command, env.reply world command⟩] := by
  simp [recorded, Environment.handler, own]

/-- A run without the effect records nothing. -/
theorem recorded_run {effects : List Effect} {effect : Effect} {program : Prog α}
    (footprint : Footprint effects program) (absent : effect ∉ effects) (world : World) :
    recorded effect (run env.handler program world).2.log = recorded effect world.log := by
  induction program generalizing world with
  | ret value => rfl
  | raise error => rfl
  | call command resume inductionHypothesis =>
    have other : Command.effect command ≠ effect := fun same => absent (same ▸ footprint.1)
    exact (inductionHypothesis _ (footprint.2 _) (env.handler command world).2).trans
      (recorded_other other world)

/-- The same facts for the state in which a run ends, when it is given by name. -/
theorem log_ran {program : Prog α} {outcome : Except Exn α} {world after : World}
    (ran : run env.handler program world = (outcome, after)) : world.log <+: after.log := by
  have grown := log_run env program world
  rwa [ran] at grown

theorem same_ran {effects : List Effect} {table : Table} {program : Prog α}
    {outcome : Except Exn α} {world after : World} (footprint : Footprint effects program)
    (unwritten : .writing table ∉ effects)
    (ran : run env.handler program world = (outcome, after)) : table.Same world.db after.db := by
  have same : table.Same world.db (run env.handler program world).2.db :=
    same_run footprint unwritten world
  rwa [ran] at same

/-- Time does not run backwards. -/
theorem clock_run (program : Prog α) (world : World) :
    world.clock ≤ (run env.handler program world).2.clock := by
  induction program generalizing world with
  | ret value => exact Nat.le_refl _
  | raise error => exact Nat.le_refl _
  | call command resume inductionHypothesis =>
    have stepped : world.clock ≤ (env.handler command world).2.clock := Nat.le_add_right _ _
    exact Nat.le_trans stepped (inductionHypothesis _ _)

theorem clock_ran {program : Prog α} {outcome : Except Exn α} {world after : World}
    (ran : run env.handler program world = (outcome, after)) : world.clock ≤ after.clock := by
  have passed : world.clock ≤ (run env.handler program world).2.clock := clock_run program world
  rwa [ran] at passed

/-- A run that writes no table leaves the catalogue as it was. -/
theorem db_ran {effects : List Effect} {program : Prog α} {outcome : Except Exn α}
    {world after : World} (footprint : Footprint effects program)
    (unwritten : ∀ table, .writing table ∉ effects)
    (ran : run env.handler program world = (outcome, after)) : after.db = world.db := by
  have kept : wp (env.handler.monitor fun _ _ => True) program
      (fun _ (final : World) => final.db = world.db) world := by
    refine wp_footprint (fun current : World => current.db = world.db) footprint rfl ?_
    intro current command same listed
    refine ⟨trivial, fun answer _ => (commit_unwritten current.db ?_).trans same⟩
    exact fun table written => unwritten table (written ▸ listed)
  have same := wp_run kept
  rwa [ran] at same

theorem recorded_ran {effects : List Effect} {effect : Effect} {program : Prog α}
    {outcome : Except Exn α} {world after : World} (footprint : Footprint effects program)
    (absent : effect ∉ effects) (ran : run env.handler program world = (outcome, after)) :
    recorded effect after.log = recorded effect world.log := by
  have same : recorded effect (run env.handler program world).2.log = recorded effect world.log :=
    recorded_run footprint absent world
  rwa [ran] at same

/-- Nor is anything recorded when one of its commands is issued. -/
theorem recorded_issued {effects : List Effect} {effect : Effect} {program : Prog α}
    {world : World} {entry : World × Command} (footprint : Footprint effects program)
    (absent : effect ∉ effects) (member : entry ∈ issued env.handler program world) :
    recorded effect entry.1.log = recorded effect world.log := by
  induction program generalizing world with
  | ret value => cases member
  | raise error => cases member
  | call command resume inductionHypothesis =>
    have other : Command.effect command ≠ effect := fun same => absent (same ▸ footprint.1)
    rcases List.mem_cons.mp member with rfl | later
    · rfl
    · exact (inductionHypothesis _ (footprint.2 _) later).trans (recorded_other other world)

/-- Until a command is issued, a table that the program does not write stays as it was. -/
theorem same_issued {effects : List Effect} {table : Table} {program : Prog α} {world : World}
    {entry : World × Command} (footprint : Footprint effects program)
    (unwritten : .writing table ∉ effects) (member : entry ∈ issued env.handler program world) :
    table.Same world.db entry.1.db := by
  induction program generalizing world with
  | ret value => cases member
  | raise error => cases member
  | call command resume inductionHypothesis =>
    rcases List.mem_cons.mp member with rfl | later
    · cases table <;> rfl
    · have other : Command.effect command ≠ .writing table := fun written =>
        unwritten (written ▸ footprint.1)
      exact same_trans (commit_same world.db other) (inductionHypothesis _ (footprint.2 _) later)

/-- A sequence that issues a command with an effect which its first part does not
have issues it in the continuation, after the first part has returned. -/
theorem issued_after {effects : List Effect} {program : Prog α} {next : α → Prog β}
    {world : World} {entry : World × Command} (footprint : Footprint effects program)
    (absent : entry.2.effect ∉ effects)
    (member : entry ∈ issued env.handler (program >>= next) world) :
    ∃ value middle, run env.handler program world = (.ok value, middle) ∧
      entry ∈ issued env.handler (next value) middle := by
  rcases (mem_issued_bind env.handler).mp member with own | later
  · exact absurd (issues_issued footprint world entry own) absent
  · exact later

/-- A program issues only commands of its footprint. -/
theorem not_issued {effects : List Effect} {program : Prog α} {world : World}
    {entry : World × Command} (footprint : Footprint effects program)
    (absent : entry.2.effect ∉ effects) : entry ∉ issued env.handler program world :=
  fun member => absent (issues_issued footprint world entry member)

/-- A pure computation that is followed by a program returned its value. -/
theorem run_raised_bind {given : Except Exn α} {next : α → Prog β} {world final : World}
    {value : β} (ran : run env.handler (raised given >>= next) world = (.ok value, final)) :
    ∃ first, given = .ok first ∧ run env.handler (next first) world = (.ok value, final) := by
  cases given with
  | ok first => exact ⟨first, rfl, ran⟩
  | error error => cases ran

theorem issued_raised_bind {given : Except Exn α} {next : α → Prog β} {world : World}
    {entry : World × Command}
    (member : entry ∈ issued env.handler (raised given >>= next) world) :
    ∃ first, given = .ok first ∧ entry ∈ issued env.handler (next first) world := by
  cases given with
  | ok first => exact ⟨first, rfl, member⟩
  | error error => cases member

/-- A transaction that is followed by a program answers from the catalogue. -/
theorem run_transact_bind (transaction : Catalog.Transaction) (next : transaction.Answer → Prog β)
    (world : World) :
    run env.handler (transact transaction >>= next) world =
      run env.handler (next (transaction.read world.db))
        (env.handler (.transact transaction) world).2 := by
  rw [run_bind]
  rfl

/-- A transaction that was run alone answered from the catalogue. -/
theorem transact_ran {transaction : Catalog.Transaction} {answer : transaction.Answer}
    {world after : World} (ran : run env.handler (transact transaction) world =
      (.ok answer, after)) :
    transaction.read world.db = answer ∧ (env.handler (.transact transaction) world).2 = after := by
  have exchanged : env.handler (.transact transaction) world = (.ok answer, after) :=
    (run_perform env.handler (Command.transact transaction) world).symm.trans ran
  exact ⟨Except.ok.inj (congrArg Prod.fst exchanged), congrArg Prod.snd exchanged⟩

/-- A clock reading that is followed by a program answers the time. -/
theorem run_utcnow_bind (next : Timestamps.Timestamp → Prog β) (world : World) :
    run env.handler (utcnow >>= next) world =
      run env.handler (next world.clock) (env.handler .utcnow world).2 := by
  rw [run_bind]
  rfl

/-- A request that was run alone was answered. -/
theorem request_ran {external : External} {answer : external.Answer} {world after : World}
    (ran : run env.handler (request external) world = (.ok answer, after)) :
    env.answer world.log external = .ok answer ∧
      (env.handler (.request external) world).2 = after := by
  have exchanged : env.handler (.request external) world = (.ok answer, after) :=
    (run_perform env.handler (Command.request external) world).symm.trans ran
  exact ⟨congrArg Prod.fst exchanged, congrArg Prod.snd exchanged⟩

/-- A request that is followed by a program was answered. -/
theorem run_request_bind {external : External} {next : external.Answer → Prog β}
    {world final : World} {value : β}
    (ran : run env.handler (request external >>= next) world = (.ok value, final)) :
    ∃ answer, env.answer world.log external = .ok answer ∧
      run env.handler (next answer) (env.handler (.request external) world).2 =
        (.ok value, final) := by
  obtain ⟨answer, middle, asked, rest⟩ := (run_bind_eq_ok env.handler).mp ran
  obtain ⟨answered, after⟩ := request_ran asked
  exact ⟨answer, answered, after ▸ rest⟩

/-- A checked command that is followed by a program exited with zero. -/
theorem run_command_bind {shell : Shell} {settings : List (String × String)}
    {input_text : Option String} {check : Bool} {next : CommandResult → Prog β}
    {world final : World} {value : β}
    (ran : run env.handler (runCommand shell settings input_text check >>= next) world =
      (.ok value, final)) :
    ∃ result : CommandResult,
      env.answer world.log (.run shell settings input_text) = .ok result ∧
      (check = true → result.returncode = 0) ∧
      run env.handler (next result)
        (env.handler (.request (.run shell settings input_text)) world).2 = (.ok value, final) := by
  rw [runCommand, bind_assoc] at ran
  obtain ⟨result, answered, rest⟩ := run_request_bind ran
  refine ⟨result, answered, ?_⟩
  dsimp only at rest
  split at rest
  · cases rest
  · rename_i clean
    refine ⟨?_, rest⟩
    intro checked
    by_contra nonzero
    exact clean ⟨checked, nonzero⟩

/-- A loop that returned ran its step on every item, one after another. -/
theorem each_ran {γ : Type} {step : γ → Prog Unit} {items : List γ} {world final : World}
    (ran : run env.handler (Program.each step items) world = (.ok (), final)) :
    ∀ item ∈ items, ∃ before after, world.log <+: before.log ∧
      run env.handler (step item) before = (.ok (), after) ∧ after.log <+: final.log := by
  induction items generalizing world with
  | nil => exact fun _ member => absurd member List.not_mem_nil
  | cons item rest inductionHypothesis =>
    obtain ⟨_, middle, own, others⟩ := (run_bind_eq_ok _).mp ran
    refine List.forall_mem_cons.mpr ⟨⟨world, middle, List.prefix_rfl, own, log_ran others⟩, ?_⟩
    intro later member
    obtain ⟨before, after, behind, stepped, rest⟩ := inductionHypothesis others later member
    exact ⟨before, after, (log_ran own).trans behind, stepped, rest⟩

/-- A command took place between two states and exited with zero. -/
def Succeeded (start now : World) (shell : Shell) (settings : List (String × String))
    (result : CommandResult) : Prop :=
  Since start [⟨Command.request (.run shell settings none), .ok result⟩] now ∧
    result.returncode = 0

/-- It did so between states further apart, too. -/
theorem Succeeded.within {start early now after : World} {shell : Shell}
    {settings : List (String × String)} {result : CommandResult}
    (succeeded : Succeeded early now shell settings result) (before : start.log <+: early.log)
    (behind : now.log <+: after.log) : Succeeded start after shell settings result :=
  ⟨(succeeded.1.earlier before).grown behind, succeeded.2⟩

/-- A checked command that returned took place and exited with zero. -/
theorem runCommand_ran {shell : Shell} {settings : List (String × String)} {world after : World}
    {result : CommandResult}
    (ran : run env.handler (runCommand shell settings none true) world = (.ok result, after)) :
    Succeeded world after shell settings result := by
  obtain ⟨answer, middle, asked, rest⟩ := (run_bind_eq_ok _).mp ran
  obtain ⟨answered, rfl⟩ := request_ran asked
  dsimp only at rest
  split at rest
  · cases rest
  · rename_i clean
    obtain ⟨rfl, rfl⟩ : answer = result ∧ _ = after := by
      simpa only [run_pure, Prod.mk.injEq, Except.ok.injEq] using rest
    refine ⟨(Since.refl world).answered answered, ?_⟩
    by_contra nonzero
    exact clean ⟨rfl, nonzero⟩

/-- Running a command issues this command only, at once. -/
theorem issued_runCommand {shell : Shell} {settings : List (String × String)}
    {input_text : Option String} {check : Bool} {world : World} {entry : World × Command}
    (member : entry ∈ issued env.handler (runCommand shell settings input_text check) world) :
    entry = (world, .request (.run shell settings input_text)) := by
  rcases (mem_issued_bind env.handler).mp member with asked | ⟨result, _, _, impossible⟩
  · exact List.mem_singleton.mp (issued_perform env.handler
      (Command.request (.run shell settings input_text)) world ▸ asked)
  · dsimp only at impossible
    split at impossible <;> cases impossible

/-- A sequence that starts with a command issues it at once. -/
theorem runCommand_issued {shell : Shell} {settings : List (String × String)}
    {input_text : Option String} {check : Bool} {next : CommandResult → Prog β} {world : World} :
    (world, Command.request (.run shell settings input_text)) ∈
      issued env.handler (runCommand shell settings input_text check >>= next) world := by
  refine (mem_issued_bind env.handler).mpr (Or.inl ?_)
  refine (mem_issued_bind env.handler).mpr (Or.inl ?_)
  exact List.mem_singleton.mpr rfl |> (issued_perform env.handler
    (Command.request (.run shell settings input_text)) world ▸ ·)

/-- A run passes through the state it starts in. -/
theorem mem_visited (program : Prog α) (world : World) :
    world ∈ visited env.handler program world := by
  cases program with
  | ret value => exact List.mem_singleton.mpr rfl
  | raise error => exact List.mem_singleton.mpr rfl
  | call command resume => exact List.mem_cons_self

/-- And through the state that a command of it leads to. -/
theorem visited_issued {program : Prog α} {world : World} {entry : World × Command}
    (member : entry ∈ issued env.handler program world) :
    (env.handler entry.2 entry.1).2 ∈ visited env.handler program world := by
  induction program generalizing world with
  | ret value => cases member
  | raise error => cases member
  | call command resume inductionHypothesis =>
    rcases List.mem_cons.mp member with rfl | later
    · exact List.mem_cons_of_mem _ (mem_visited _ _)
    · exact List.mem_cons_of_mem _ (inductionHypothesis _ later)

/-- The states of a run lie between its first and its last. -/
theorem visited_log {program : Prog α} {world passed : World}
    (member : passed ∈ visited env.handler program world) :
    world.log <+: passed.log ∧ passed.log <+: (run env.handler program world).2.log := by
  induction program generalizing world with
  | ret value =>
    obtain rfl := List.mem_singleton.mp member
    exact ⟨List.prefix_rfl, List.prefix_rfl⟩
  | raise error =>
    obtain rfl := List.mem_singleton.mp member
    exact ⟨List.prefix_rfl, List.prefix_rfl⟩
  | call command resume inductionHypothesis =>
    rcases List.mem_cons.mp member with rfl | later
    · exact ⟨List.prefix_rfl, log_run env (.call command resume) passed⟩
    · obtain ⟨behind, ahead⟩ := inductionHypothesis _ later
      exact ⟨(List.prefix_append world.log _).trans behind, ahead⟩

/-- What holds at first, and is kept by every command of a run, holds in every state of it. -/
theorem visited_invariant {property : World → Prop} {program : Prog α} {world : World}
    (initially : property world)
    (kept : ∀ entry ∈ issued env.handler program world, property entry.1 →
      property (env.handler entry.2 entry.1).2) :
    ∀ passed ∈ visited env.handler program world, property passed := by
  induction program generalizing world with
  | ret value => exact fun passed member => List.mem_singleton.mp member ▸ initially
  | raise error => exact fun passed member => List.mem_singleton.mp member ▸ initially
  | call command resume inductionHypothesis =>
    refine List.forall_mem_cons.mpr ⟨initially, ?_⟩
    exact inductionHypothesis _ (kept _ List.mem_cons_self initially)
      fun entry later => kept entry (List.mem_cons_of_mem _ later)

/-- Every command that a run issues has the property where it is issued. -/
def Throughout (env : Environment) (property : World × Command → Prop) (program : Prog α)
    (world : World) : Prop :=
  ∀ entry ∈ issued env.handler program world, property entry

section Throughout

variable {property : World × Command → Prop} {world : World}

theorem throughout_bind_iff {program : Prog α} {next : α → Prog β} :
    Throughout env property (program >>= next) world ↔ Throughout env property program world ∧
      ∀ value middle, run env.handler program world = (.ok value, middle) →
        Throughout env property (next value) middle := by
  constructor
  · intro all
    refine ⟨fun entry own => all entry ((mem_issued_bind _).mpr (Or.inl own)), ?_⟩
    intro value middle ran entry later
    exact all entry ((mem_issued_bind _).mpr (Or.inr ⟨value, middle, ran, later⟩))
  · rintro ⟨first, rest⟩ entry member
    rcases (mem_issued_bind _).mp member with own | ⟨value, middle, ran, later⟩
    · exact first entry own
    · exact rest value middle ran entry later

theorem throughout_tryCatch_iff {program : Prog α} {rescuer : Exn → Prog α} :
    Throughout env property (tryCatch program rescuer) world ↔
      Throughout env property program world ∧
      ∀ error middle, run env.handler program world = (.error error, middle) →
        Throughout env property (rescuer error) middle := by
  constructor
  · intro all
    refine ⟨fun entry own => all entry ((mem_issued_tryCatch _).mpr (Or.inl own)), ?_⟩
    intro error middle ran entry later
    exact all entry ((mem_issued_tryCatch _).mpr (Or.inr ⟨error, middle, ran, later⟩))
  · rintro ⟨first, rest⟩ entry member
    rcases (mem_issued_tryCatch _).mp member with own | ⟨error, middle, ran, later⟩
    · exact first entry own
    · exact rest error middle ran entry later

theorem throughout_attempt_iff {program : Prog α} :
    Throughout env property program.attempt world ↔ Throughout env property program world := by
  rw [Throughout, issued_attempt]
  rfl

/-- What holds of every command of a program, wherever it is issued, holds throughout. -/
theorem throughout_issues {general : controller.Command → Prop} {program : Prog α}
    (issues : Issues general program)
    (implies : ∀ entry : World × Command, general entry.2 → property entry) :
    Throughout env property program world :=
  fun entry member => implies entry (issues_issued issues world entry member)

end Throughout

end Immutavault.Histories
