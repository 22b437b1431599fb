import Immutavault.DROrchestrator
import Immutavault.Histories

/-!
# Two copies with one address

A failback starts the primary copies of machines that still run at the recovery
site until they are switched off there. Both copies have the same address, so
the primary gateway is to be activated, and a primary copy switched on, only
after the power-off command of every machine of the failover has succeeded.

The command is run unchecked. Whether the guarantee holds depends on the exit
statuses alone: the loop runs to its end whatever they are, and the next command
activates the gateway.
-/

namespace Immutavault.SplitBrain

open Programs Values Catalog Machine Histories Configuration StateDatabase RestoreEngine Adapters
open DROrchestrator DRNetwork

variable {env : Environment} {engine : Engine}

section Commands

/-- The command that switches the machine of a failover off, from the configuration
and from what its restore reported. -/
def offCommand (engine : Engine) (item : WorkloadRow) :
    Except Exn (Shell × List (String × String)) := do
  let workload ← workloadNamed engine item.workload_name
  let adapter ← engine.platform workload.target_platform
  let (argv, settings, _) ← power adapter engine.getenv item.result false
  return (.power adapter.name false argv, settings)

/-- The exit statuses that the hypervisors answer to the commands of the machines,
one after another; none when a command cannot be built or is not answered. -/
def exits (env : Environment) (engine : Engine) : List WorkloadRow → World → Option (List Int)
  | [], _ => some []
  | item :: rest, world =>
    match offCommand engine item with
    | .error _ => none
    | .ok (shell, settings) =>
      match env.answer world.log (.run shell settings none) with
      | .error _ => none
      | .ok result =>
        (exits env engine rest (env.handler (.request (.run shell settings none)) world).2).map
          (result.returncode :: ·)

/-- The exit status of a command that was answered. -/
def exitStatus : Exchange controller Exn → Option Int
  | ⟨.request (.run _ _ _), .ok (result : CommandResult)⟩ => some result.returncode
  | _ => none

/-- An exchange in which the power-off command of a machine was answered. -/
def SwitchedOff (engine : Engine) (item : WorkloadRow) (exchange : Exchange controller Exn) :
    Prop :=
  ∃ shell settings, ∃ result : CommandResult, offCommand engine item = .ok (shell, settings) ∧
    exchange = ⟨.request (.run shell settings none), .ok result⟩

/-- Since the given state exactly the machines of the rows were switched off, one after
another, and each command exited with zero. -/
def AllOff (engine : Engine) (start : World) (items : List WorkloadRow) (now : World) : Prop :=
  ∃ exchanges,
    recorded (.ofPower false) now.log = recorded (.ofPower false) start.log ++ exchanges ∧
    List.Forall₂ (SwitchedOff engine) items exchanges ∧
    ∀ exchange ∈ exchanges, exitStatus exchange = some 0

/-- The loop runs the command of the first machine, looks at no exit, and goes on. -/
theorem switchOff_cons (item : WorkloadRow) (rest : List WorkloadRow) :
    switchOff engine (item :: rest) = (raised (offCommand engine item) >>= fun command =>
      runCommand command.1 command.2 none false >>= fun _ => switchOff engine rest) := by
  simp only [switchOff, offCommand, powerOff, raised_bind, bind_assoc]
  rfl

/-- The command of a machine is a power-off command. -/
theorem offCommand_effect {item : WorkloadRow} {command : Shell × List (String × String)}
    (planned : offCommand engine item = .ok command) :
    Command.effect (.request (.run command.1 command.2 none)) = .ofPower false := by
  unfold offCommand at planned
  cases named : workloadNamed engine item.workload_name with
  | error error =>
    rw [named] at planned
    cases planned
  | ok workload =>
    cases known : engine.platform workload.target_platform with
    | error error =>
      simp only [named, known, bind, Except.bind] at planned
      cases planned
    | ok adapter =>
      cases switched : power adapter engine.getenv item.result false with
      | error error =>
        simp only [named, known, switched, bind, Except.bind] at planned
        cases planned
      | ok given =>
        simp only [named, known, switched, bind, Except.bind] at planned
        cases planned
        rfl

/-- A loop that returned has run every command, and the hypervisors answered each. -/
theorem switchOff_returned {items : List WorkloadRow} {world off : World}
    (ran : run env.handler (switchOff engine items) world = (.ok (), off)) :
    ∃ codes exchanges, exits env engine items world = some codes ∧
      recorded (.ofPower false) off.log = recorded (.ofPower false) world.log ++ exchanges ∧
      List.Forall₂ (SwitchedOff engine) items exchanges ∧
      exchanges.map exitStatus = codes.map some := by
  induction items generalizing world with
  | nil =>
    cases ran
    exact ⟨[], [], rfl, (List.append_nil _).symm, List.Forall₂.nil, rfl⟩
  | cons item rest inductionHypothesis =>
    rw [switchOff_cons] at ran
    obtain ⟨⟨shell, settings⟩, planned, ran⟩ := run_raised_bind ran
    obtain ⟨result, answered, _, ran⟩ := run_command_bind ran
    obtain ⟨codes, exchanges, known, listed, others, statuses⟩ := inductionHypothesis ran
    have own : recorded (.ofPower false)
        (env.handler (.request (.run shell settings none)) world).2.log =
          recorded (.ofPower false) world.log ++
            [⟨.request (.run shell settings none), .ok result⟩] := by
      rw [← answered]
      exact recorded_own (offCommand_effect planned) world
    refine ⟨result.returncode :: codes,
      ⟨.request (.run shell settings none), .ok result⟩ :: exchanges, ?_, ?_, ?_, ?_⟩
    · simp only [exits, planned, answered, known, Option.map_some]
    · rw [listed, own, List.append_assoc]
      rfl
    · exact List.Forall₂.cons ⟨shell, settings, result, planned, rfl⟩ others
    · simp only [List.map_cons, statuses]
      rfl

/-- The exit of an unchecked command is not looked at. -/
theorem run_unchecked {β : Type} {shell : Shell} {settings : List (String × String)}
    {next : CommandResult → Prog β} {world : World} {result : CommandResult}
    (answered : env.answer world.log (.run shell settings none) = .ok result) :
    run env.handler (runCommand shell settings none false >>= next) world =
      run env.handler (next result) (env.handler (.request (.run shell settings none)) world).2 := by
  have asked : run env.handler (request (.run shell settings none)) world =
      (.ok result, (env.handler (.request (.run shell settings none)) world).2) :=
    (run_perform env.handler (Command.request (.run shell settings none)) world).trans
      (Prod.ext answered rfl)
  rw [runCommand, bind_assoc, run_bind, asked]
  rfl

/-- When every command is answered, the loop returns. -/
theorem switchOff_returns {items : List WorkloadRow} {world : World} {codes : List Int}
    (known : exits env engine items world = some codes) :
    ∃ off, run env.handler (switchOff engine items) world = (.ok (), off) := by
  induction items generalizing world codes with
  | nil => exact ⟨world, rfl⟩
  | cons item rest inductionHypothesis =>
    rw [switchOff_cons]
    cases planned : offCommand engine item with
    | error error => simp [exits, planned] at known
    | ok command =>
      cases answered : env.answer world.log (.run command.1 command.2 none) with
      | error error => simp [exits, planned, answered] at known
      | ok result =>
        simp only [exits, planned, answered, Option.map_eq_some_iff] at known
        obtain ⟨others, remaining, _⟩ := known
        obtain ⟨off, ran⟩ := inductionHypothesis remaining
        refine ⟨off, ?_⟩
        rw [raised_ok, pure_bind, run_unchecked answered, ran]

end Commands

section Stages

/-- A failback has gone as far as the withdrawal of the recovery site: what follows is
the loop over the machines of the rows, which are those of the given failover. -/
def Withdrawn (env : Environment) (engine : Engine) (world : World) (last : Nat × RunRow)
    (rows : List WorkloadRow) (withdrawn : World) : Prop :=
  ∃ enabled asked active listed begun run_id returned,
    run env.handler (ensureEnabled engine) world = (.ok (), enabled) ∧
    run env.handler (latestDrRun (some .failover) (some .success)) enabled =
      (.ok (some last), asked) ∧
    run env.handler alreadyFailedOver asked = (.ok true, active) ∧
    run env.handler (listDrWorkloads last.1) active = (.ok rows, listed) ∧
    run env.handler (createDrRun .failback engine.cfg.dr.dr_site engine.cfg.dr.primary_site
      [("source_failover_run", .int last.1)]) listed = (.ok run_id, begun) ∧
    run env.handler (returnWorkloads engine run_id rows) begun = (.ok returned, withdrawn)

/-- The primary gateway is activated, or a primary copy is switched on. -/
def StartsPrimary (engine : Engine) (command : Command) : Prop :=
  command.effect = .ofGateway engine.cfg.dr.primary_site .activate ∨
    command.effect = .ofPower true

/-- No command of the failback starts the primary site before the machines of the
failover run were all switched off with success. -/
def Isolates (env : Environment) (engine : Engine) (execute confirmed : Bool) (world : World) :
    Prop :=
  ∀ entry ∈ issued env.handler (failback engine execute confirmed) world,
    StartsPrimary engine entry.2 →
    ∃ last, Transaction.read world.db (.latestRun (some .failover) (some .success)) = some last ∧
      AllOff engine world (Transaction.read world.db (.selectWorkloads last.1)).reverse entry.1

/-- A withdrawal has switched nothing off, and its rows are those of the catalogue. -/
theorem Withdrawn.facts {world withdrawn : World} {last : Nat × RunRow} {rows : List WorkloadRow}
    (reached : Withdrawn env engine world last rows withdrawn) :
    Transaction.read world.db (.latestRun (some .failover) (some .success)) = some last ∧
      rows = Transaction.read world.db (.selectWorkloads last.1) ∧
      recorded (.ofPower false) withdrawn.log = recorded (.ofPower false) world.log ∧
      ∃ site, (net engine).site engine.cfg.dr.primary_site = .ok site := by
  obtain ⟨enabled, asked, active, listed, begun, run_id, returned, enabling, asking, activating,
    listing, beginning, returning⟩ := reached
  have started : enabled = world := run_ensureEnabled enabling
  subst started
  obtain ⟨latest, _⟩ := transact_ran asking
  obtain ⟨selected, _⟩ := transact_ran listing
  have askedSame : asked.db = enabled.db :=
    db_ran (@footprint_transact [.silent] _ (by simp [Command.effect, writes])) (by simp) asking
  have activeSame : active.db = asked.db :=
    db_ran footprint_alreadyFailedOver (by simp) activating
  rw [activeSame, askedSame] at selected
  refine ⟨latest, selected.symm, ?_, ?_⟩
  · rw [recorded_ran (footprint_returnWorkloads engine _ _) (by simp [returnEffects]) returning,
      recorded_ran (footprint_createDrRun _ _ _ _) (by simp) beginning,
      recorded_ran (@footprint_transact [.silent] _ (by simp [Command.effect, writes]))
        (by simp) listing,
      recorded_ran footprint_alreadyFailedOver (by simp) activating,
      recorded_ran (@footprint_transact [.silent] _ (by simp [Command.effect, writes]))
        (by simp) asking]
  · obtain ⟨_, _, preparing, _⟩ := (run_bind_eq_ok env.handler).mp returning
    obtain ⟨site, known, _⟩ := run_raised_bind preparing
    exact ⟨site, known⟩

/-- What starts the primary site in a failback comes after a withdrawal and a loop
that ran to its end, and nothing is switched off in between. -/
theorem issued_failback {execute confirmed : Bool} {world : World} {entry : World × Command}
    (starts : StartsPrimary engine entry.2)
    (member : entry ∈ issued env.handler (failback engine execute confirmed) world) :
    execute = true ∧ confirmed = true ∧ ∃ last rows withdrawn off,
      Withdrawn env engine world last rows withdrawn ∧
      run env.handler (switchOff engine rows.reverse) withdrawn = (.ok (), off) ∧
      recorded (.ofPower false) entry.1.log = recorded (.ofPower false) off.log := by
  have other : ∀ {effects : List Effect},
      .ofGateway engine.cfg.dr.primary_site .activate ∉ effects → .ofPower true ∉ effects →
      entry.2.effect ∉ effects := by
    intro effects unrouted unpowered
    rcases starts with same | same <;> rw [same] <;> assumption
  obtain ⟨_, enabled, enabling, member⟩ :=
    issued_after (footprint_ensureEnabled engine [.silent]) (other (by simp) (by simp)) member
  obtain ⟨latest, asked, asking, member⟩ :=
    issued_after (@footprint_transact [.silent] _ (by simp [Command.effect, writes]))
      (other (by simp) (by simp)) member
  cases latest with
  | none => cases member
  | some last =>
    obtain ⟨ongoing, active, activating, member⟩ :=
      issued_after footprint_alreadyFailedOver (other (by simp) (by simp)) member
    split at member
    · cases member
    · rename_i still
      have stillOngoing : ongoing = true := by simpa using still
      subst stillOngoing
      obtain ⟨rows, listed, listing, member⟩ :=
        issued_after (@footprint_transact [.silent] _ (by simp [Command.effect, writes]))
          (other (by simp) (by simp)) member
      split at member
      · cases member
      · rename_i executing
        split at member
        · cases member
        · rename_i confirming
          obtain ⟨run_id, begun, beginning, member⟩ :=
            issued_after (footprint_createDrRun _ _ _ _) (other (by simp) (by simp)) member
          refine ⟨by simpa using executing, by simpa using confirming, last, rows, ?_⟩
          rcases (mem_issued_tryCatch env.handler).mp member with own | ⟨exc, _, _, aborting⟩
          · obtain ⟨returned, withdrawn, returning, own⟩ :=
              issued_after (footprint_returnWorkloads engine _ _)
                (other (by simp [returnEffects]) (by simp [returnEffects])) own
            obtain ⟨_, off, switching, own⟩ :=
              issued_after (footprint_switchOff engine _) (other (by simp) (by simp)) own
            refine ⟨withdrawn, off, ⟨enabled, asked, active, listed, begun, run_id, returned,
              enabling, asking, activating, listing, beginning, returning⟩, switching, ?_⟩
            exact recorded_issued (footprint_startPrimary engine _ _ _ _) (by simp) own
          · exact absurd aborting (not_issued (footprint_abortFailback _ _)
              (other (by simp) (by simp)))

/-- Activating a known site begins with the command on its gateway. -/
theorem issued_activate {name : String} {site : DRSiteConfig} {world : World}
    (known : (net engine).site name = .ok site) :
    ∃ command, (world, command) ∈ issued env.handler ((net engine).activate name false) world ∧
      command.effect = .ofGateway name .activate := by
  have routed : Command.effect (.request (.run (.gateway site.name .activate
      ((net engine).wrap site)) [] (some ("set -euo pipefail; " ++ "; ".intercalate
        ((net engine).enabledNetworks.flatMap (NetworkManager.activateCommands site.gateway)) ++
          "\n")))) = .ofGateway name .activate := by
    rw [← NetworkManager.site_name known]
    rfl
  refine ⟨_, ?_, routed⟩
  rw [NetworkManager.activate, known]
  exact runCommand_issued

/-- After a withdrawal and a loop that ran to its end the primary gateway is activated. -/
theorem starts_primary {world withdrawn off : World} {last : Nat × RunRow}
    {rows : List WorkloadRow} (reached : Withdrawn env engine world last rows withdrawn)
    (switching : run env.handler (switchOff engine rows.reverse) withdrawn = (.ok (), off)) :
    ∃ command, (off, command) ∈ issued env.handler (failback engine true true) world ∧
      StartsPrimary engine command := by
  obtain ⟨_, _, _, site, known⟩ := reached.facts
  obtain ⟨enabled, asked, active, listed, begun, run_id, returned, enabling, asking, activating,
    listing, beginning, returning⟩ := reached
  obtain ⟨command, activates, routed⟩ := @issued_activate env engine _ _ off known
  refine ⟨command, ?_, Or.inl routed⟩
  refine (mem_issued_bind env.handler).mpr (Or.inr ⟨_, _, enabling, ?_⟩)
  refine (mem_issued_bind env.handler).mpr (Or.inr ⟨_, _, asking, ?_⟩)
  refine (mem_issued_bind env.handler).mpr (Or.inr ⟨_, _, activating, ?_⟩)
  refine (mem_issued_bind env.handler).mpr (Or.inr ⟨_, _, listing, ?_⟩)
  refine (mem_issued_bind env.handler).mpr (Or.inr ⟨_, _, beginning, ?_⟩)
  refine (mem_issued_tryCatch env.handler).mpr (Or.inl ?_)
  refine (mem_issued_bind env.handler).mpr (Or.inr ⟨_, _, returning, ?_⟩)
  refine (mem_issued_bind env.handler).mpr (Or.inr ⟨_, _, switching, ?_⟩)
  exact (mem_issued_bind env.handler).mpr (Or.inl activates)

end Stages

/-- The exit statuses are all zero when those of the exchanges are. -/
theorem exits_zero {codes : List Int} {exchanges : History}
    (statuses : exchanges.map exitStatus = codes.map some) :
    (∀ code ∈ codes, code = 0) ↔ ∀ exchange ∈ exchanges, exitStatus exchange = some 0 := by
  have listed : ∀ status, status ∈ exchanges.map exitStatus ↔ status ∈ codes.map some :=
    fun status => by rw [statuses]
  constructor
  · intro zero exchange member
    obtain ⟨code, found, same⟩ :=
      List.mem_map.mp ((listed _).mp (List.mem_map_of_mem member))
    rw [← same, zero code found]
  · intro clean code member
    obtain ⟨exchange, found, same⟩ :=
      List.mem_map.mp ((listed _).mpr (List.mem_map_of_mem member))
    exact Option.some.inj (same.symm.trans (clean exchange found))

/-- A failback starts the primary site only after every machine of the failover run
was switched off with success, if and only if the hypervisors do not answer all the
power-off commands with some exit status other than zero among them. -/
theorem no_split_brain (env : Environment) (engine : Engine) (execute confirmed : Bool)
    (world : World) :
    Isolates env engine execute confirmed world ↔
      (execute = true → confirmed = true → ∀ last rows withdrawn,
        Withdrawn env engine world last rows withdrawn →
        ∀ codes, exits env engine rows.reverse withdrawn = some codes → ∀ code ∈ codes, code = 0) := by
  constructor
  · rintro isolates rfl rfl last rows withdrawn reached codes known
    obtain ⟨off, switching⟩ := switchOff_returns known
    obtain ⟨command, issuing, starts⟩ := starts_primary reached switching
    obtain ⟨_, _, exchanges, sinceStart, _, clean⟩ := isolates _ issuing starts
    obtain ⟨answered, others, again, sinceWithdrawn, _, statuses⟩ := switchOff_returned switching
    obtain ⟨_, _, quiet, _⟩ := reached.facts
    have sameCodes : answered = codes := Option.some.inj (again.symm.trans known)
    have sameExchanges : exchanges = others := by
      rw [quiet] at sinceWithdrawn
      exact List.append_cancel_left (sinceStart.symm.trans sinceWithdrawn)
    subst sameCodes sameExchanges
    exact (exits_zero statuses).mpr clean
  · intro condition entry member starts
    obtain ⟨rfl, rfl, last, rows, withdrawn, off, reached, switching, silent⟩ :=
      issued_failback starts member
    obtain ⟨codes, exchanges, known, listed, machines, statuses⟩ := switchOff_returned switching
    obtain ⟨latest, own, quiet, _⟩ := reached.facts
    have zero := condition rfl rfl last rows withdrawn reached codes known
    refine ⟨last, latest, exchanges, ?_, own ▸ machines, (exits_zero statuses).mp zero⟩
    rw [silent, listed, quiet]

/-- The world after a successful promotion. -/
def failedOver : World :=
  (run cooperative.handler (promote recovery true true false) ⟨replicated, 0, []⟩).2

/-- A world in which everything goes well, except that no machine can be switched off. -/
def refusing : Environment where
  answer := fun history external =>
    match external with
    | .run (.power _ false _) _ _ => .ok { returncode := 1 }
    | external => cooperative.answer history external
  elapsed := fun _ _ => 1

/-- A failback switches the primary copy on although the machine of the recovery site
could not be switched off. -/
theorem both_copies_run : ¬ Isolates refusing recovery true true failedOver := by
  have started : (issued refusing.handler (failback recovery true true) failedOver).any
      (fun entry => entry.2.effect = .ofPower true ∧
        (recorded (.ofPower false) entry.1.log).map exitStatus = [some 1]) = true := by
    decide +kernel
  have before : (recorded (.ofPower false) failedOver.log).length = 0 := by decide
  obtain ⟨entry, member, found⟩ := List.any_eq_true.mp started
  obtain ⟨on, refused⟩ := of_decide_eq_true found
  intro isolates
  obtain ⟨_, _, exchanges, listed, _, clean⟩ := isolates entry member (Or.inr on)
  rw [List.length_eq_zero_iff.mp before, List.nil_append] at listed
  rw [listed] at refused
  have one : some 1 ∈ exchanges.map exitStatus := refused ▸ List.mem_singleton_self _
  obtain ⟨exchange, inside, status⟩ := List.mem_map.mp one
  have zero := clean exchange inside
  rw [status] at zero
  cases zero

end Immutavault.SplitBrain
