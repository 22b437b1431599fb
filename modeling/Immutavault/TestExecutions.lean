import Immutavault.TestOutcomes

/-!
# Executions of recovery tests

A request that is not approved cannot be executed. The inherited execution says so before
it touches the request; the execution of a test calls it behind the validation of the
test, takes the refusal for a failure of the test, and marks the request failed, whatever
it was before.

A test that went well ends with its cleanup, which complains only of what raises. The
command that switches a machine off raises when it cannot be run, and not when it exits
with an error.
-/

namespace Immutavault.TestExecutions

open Programs Values Timestamps Catalog Machine Configuration StateDatabase Adapters
open ResticRepository RestoreEngine Management RecoveryTests Histories TestIsolation TestOutcomes

variable {env : Environment} {world : World} {request_id : Nat} {actor : String}

section Refusals

/-- Requests that an execution refuses to start. -/
def Idle (req : RequestRow) : Prop := req.status ≠ .approved ∧ req.status ≠ .ready

instance (req : RequestRow) : Decidable (Idle req) :=
  inferInstanceAs (Decidable (req.status ≠ .approved ∧ req.status ≠ .ready))

/-- An idle request is not started. -/
theorem startRestore_refused {req : RequestRow}
    (there : world.db.requests.lookup request_id = some req) (idle : Idle req) :
    ∃ error after, run env.handler (startRestore request_id actor) world = (.error error, after) ∧
      after.db.requests = world.db.requests := by
  have read : Transaction.read world.db (.selectRequest request_id) = some req := there
  have refused : req.status ≠ .approved ∧ req.status ≠ .ready := idle
  refine ⟨⟨.valueError, s!"restore request cannot execute from status {req.status.text}"⟩,
    (env.handler (.transact (.selectRequest request_id)) world).2, ?_, rfl⟩
  rw [startRestore, getRestoreRequest, run_transact_bind, read]
  dsimp only
  rw [if_pos refused]
  rfl

/-- The inherited execution refuses an idle request and leaves all requests alone. -/
theorem executeRestore_refused (engine : Engine) {req : RequestRow}
    (there : world.db.requests.lookup request_id = some req) (idle : Idle req) :
    ∃ error after, run env.handler (engine.executeRestore request_id actor false) world =
      (.error error, after) ∧ after.db.requests = world.db.requests := by
  have unfolded : engine.executeRestore request_id actor false =
      engine.prepareRestore request_id actor >>= fun prepared => engine.runRestore prepared actor :=
    rfl
  have footprint := engine.footprint_prepareRestore request_id actor
  rw [unfolded, run_bind]
  cases ran : run env.handler (engine.prepareRestore request_id actor) world with
  | mk outcome middle =>
    have same : middle.db.requests = world.db.requests :=
      same_ran footprint (by simp : Effect.writing .requests ∉ _) ran
    cases outcome with
    | error error => exact ⟨error, middle, rfl, same⟩
    | ok prepared =>
      obtain rfl : prepared.request_id = request_id :=
        yields_run (engine.yields_prepareRestore request_id actor)
          (congrArg Prod.fst ran)
      obtain ⟨error, after, refused, kept⟩ := @startRestore_refused env middle
        prepared.request_id actor req (by rw [same, there]) idle
      refine ⟨error, after, ?_, kept.trans same⟩
      dsimp only
      rw [Engine.runRestore, run_bind, refused]

/-- A failed test is recorded in its request, whatever that held, and raised. -/
theorem recordTestFailure_writes {network : String} {req : RequestRow} (error : Exn)
    (there : world.db.requests.lookup request_id = some req) :
    ∃ after, run env.handler (ManagedRecoveryEngine.recordTestFailure request_id actor network
        (some error) []) world = (.error error, after) ∧
      after.db.requests.lookup request_id = some { req with
        status := .failed, finished_at := some world.clock, result := some []
        error := some ("; ".intercalate [error.message]) } := by
  refine ⟨_, rfl, ?_⟩
  exact (Tables.Numbered.lookup_modify world.db.requests request_id request_id _).trans
    (by rw [if_pos rfl, there]; rfl)

/-- Reading a request changes nothing but the log and the clock. -/
def looked (env : Environment) (request_id : Nat) (world : World) : World :=
  (env.handler (.transact (.selectRequest request_id)) world).2

/-- The validation of a test refuses it. -/
def Refused (managed : ManagedRecoveryEngine) (env : Environment) (world : World)
    (request_id : Nat) (req : RequestRow) : Prop :=
  ∃ error, (run env.handler (managed.validateDrTest req.snapshot_id req.target_platform req.options)
    (looked env request_id world)).1 = .error error

/-- The execution of a test validates it, and then restores and tests. -/
theorem run_executeRestore (managed : ManagedRecoveryEngine) {req : RequestRow}
    (there : world.db.requests.lookup request_id = some req)
    (marked : isMarked req.options = true) :
    run env.handler (managed.executeRestore request_id actor false) world =
      run env.handler (do
        let (target, _, network) ← managed.validateDrTest req.snapshot_id req.target_platform
          req.options
        managed.executeTest request_id actor target network) (looked env request_id world) := by
  have read : Transaction.read world.db (.selectRequest request_id) = some req := there
  rw [ManagedRecoveryEngine.executeRestore, getRestoreRequest, run_transact_bind, read]
  dsimp only
  cases marker : drTestMarker req.options with
  | error error =>
    rw [ManagedRecoveryEngine.validateDrTest, marker]
    rfl
  | ok found =>
    cases found with
    | some found => rfl
    | none =>
      unfold drTestMarker at marker
      unfold isMarked at marked
      dsimp only at marker
      split at marker
      · simp_all
      · simp_all
      · split at marker <;> cases marker
      · cases marker

/-- A test that was a success a while ago. -/
def testedRequest : RequestRow :=
  { created_at := 0, requester := "alice", snapshot_id := "4f1c", source_platform := "pve"
    vm_id := "100", vm_name := "web", target_platform := "pve", target_name := "web-restore"
    options := [("dr_test", .obj [("network", .str "vmbr9")])], status := .success
    approved_by := some "bob", finished_at := some 5, result := some [("status", .str "success")] }

/-- The catalogue in which it is recorded. -/
def testedCatalogue : Database :=
  { benchCatalogue with requests := benchCatalogue.requests.modify 1 fun _ => testedRequest }

/-- Executing an idle test raises, and leaves its request alone exactly if the validation
of the test refuses it. What finished before did so in the past. -/
theorem idle_test_unchanged_iff (managed : ManagedRecoveryEngine) {req : RequestRow}
    (there : world.db.requests.lookup request_id = some req) (marked : isMarked req.options = true)
    (idle : Idle req) (past : ∀ time, req.finished_at = some time → time < world.clock) :
    (∃ error, (run env.handler (managed.executeRestore request_id actor false) world).1 =
        .error error) ∧
      ((run env.handler (managed.executeRestore request_id actor false) world).2.db.requests.lookup
        request_id = some req ↔ Refused managed env world request_id req) := by
  rw [run_executeRestore managed there marked, run_bind]
  unfold Refused
  have validating := footprint_validateDrTest managed req.snapshot_id req.target_platform
    req.options
  cases validated : run env.handler (managed.validateDrTest req.snapshot_id req.target_platform
    req.options) (looked env request_id world) with
  | mk outcome middle =>
    have same : middle.db.requests = (looked env request_id world).db.requests :=
      same_ran validating (by simp : Effect.writing .requests ∉ _) validated
    have there : middle.db.requests.lookup request_id = some req := same ▸ there
    have passed : world.clock ≤ middle.clock := by
      exact Nat.le_trans (Nat.le_add_right _ _) (clock_ran validated)
    cases outcome with
    | error error => exact ⟨⟨error, rfl⟩, fun _ => ⟨error, rfl⟩, fun _ => there⟩
    | ok answer =>
      obtain ⟨error, failed, refused, kept⟩ := @executeRestore_refused env middle request_id actor
        managed.super req there idle
      obtain ⟨after, recorded, written⟩ := @recordTestFailure_writes env failed request_id actor
        answer.2.2 req error (kept ▸ there)
      have waited : middle.clock ≤ failed.clock := clock_ran refused
      have ran : run env.handler (managed.executeTest request_id actor answer.1 answer.2.2) middle =
          (.error error, after) := by
        rw [ManagedRecoveryEngine.executeTest, run_bind, run_attempt, refused]
        exact recorded
      dsimp only
      rw [ran]
      refine ⟨⟨error, rfl⟩, ?_, fun impossible => by obtain ⟨_, other⟩ := impossible; cases other⟩
      intro unchanged
      have finished : req.finished_at = some failed.clock :=
        congrArg RequestRow.finished_at (Option.some.inj (unchanged.symm.trans written))
      have before : failed.clock < world.clock := past _ finished
      exact absurd (Nat.lt_of_le_of_lt (Nat.le_trans passed waited) before) (Nat.lt_irrefl _)

/-- On the bench, a test that was a success is executed again. -/
theorem idle_test_unchanged_iff_tested :
    (∃ error, (run benchHost.handler (bench.executeRestore 1 "ops" false)
        { db := testedCatalogue, clock := 10 }).1 = .error error) ∧
      ((run benchHost.handler (bench.executeRestore 1 "ops" false)
        { db := testedCatalogue, clock := 10 }).2.db.requests.lookup 1 = some testedRequest ↔
        Refused bench benchHost { db := testedCatalogue, clock := 10 } 1 testedRequest) :=
  idle_test_unchanged_iff bench rfl (by decide) (by decide) fun time finished => by
    obtain rfl : 5 = time := Option.some.inj finished
    decide

/-- The test that was a success is a failure afterwards. -/
theorem tested_request_changed :
    testedCatalogue.requests.lookup 1 = some testedRequest ∧
      isMarked testedRequest.options = true ∧ Idle testedRequest ∧
      (run benchHost.handler (bench.executeRestore 1 "ops" false)
        { db := testedCatalogue, clock := 10 }).2.db.requests.lookup 1 ≠ some testedRequest := by
  have failed : ((run benchHost.handler (bench.executeRestore 1 "ops" false)
      { db := testedCatalogue, clock := 10 }).2.db.requests.lookup 1).map (·.status) =
        some .failed := by decide
  refine ⟨rfl, by decide, by decide, ?_⟩
  intro unchanged
  rw [unchanged] at failed
  exact absurd failed (by decide)

end Refusals

section Cleanup

attribute [local irreducible] Footprint Yields

variable {managed : ManagedRecoveryEngine} {target : PlatformConfig} {restored : Dict}
  {argv : List String} {settings : List (String × String)} {report : Dict}

/-- Switching off returns whatever the exit of its command. -/
theorem run_powerOff {getenv : Environ}
    (known : power target getenv restored false = .ok (argv, settings, report))
    {outcome : CommandResult}
    (answered : env.answer world.log (.run (.power target.name false argv) settings none) =
      .ok outcome) :
    run env.handler (powerOff target getenv restored) world =
      (.ok report,
        (env.handler (.request (.run (.power target.name false argv) settings none)) world).2) := by
  have replied : (env.handler (.request (.run (.power target.name false argv) settings none))
      world).1 = .ok outcome := answered
  rw [powerOff, known]
  change run env.handler (runCommand (.power target.name false argv) settings none false >>=
    fun _ => pure report) world = _
  have asked : run env.handler (request (.run (.power target.name false argv) settings none))
      world = (.ok outcome,
        (env.handler (.request (.run (.power target.name false argv) settings none)) world).2) :=
    (run_perform env.handler (Command.request _) world).trans (Prod.ext replied rfl)
  rw [runCommand, bind_assoc, run_bind, asked]
  rfl

/-- What switched off had a command that was answered. -/
theorem powerOff_ran {getenv : Environ} {after : World}
    (ran : run env.handler (powerOff target getenv restored) world = (.ok report, after)) :
    ∃ argv settings outcome, power target getenv restored false = .ok (argv, settings, report) ∧
      env.answer world.log (.run (.power target.name false argv) settings none) = .ok outcome ∧
      after = (env.handler (.request (.run (.power target.name false argv) settings none))
        world).2 := by
  obtain ⟨⟨argv, settings, found⟩, known, rest⟩ := run_raised_bind ran
  obtain ⟨outcome, answered, -, done⟩ := run_command_bind rest
  obtain ⟨rfl, rfl⟩ : found = report ∧ _ = after := by
    simpa only [run_pure, Prod.mk.injEq, Except.ok.injEq] using done
  exact ⟨argv, settings, outcome, known, answered, rfl⟩

/-- The removal that is due after a machine was switched off. -/
def Removed (managed : ManagedRecoveryEngine) (env : Environment) (target : PlatformConfig)
    (restored : Dict) (stopped : World) : Prop :=
  managed.cfg.management.dr_test_auto_cleanup = true →
    ∃ removed, (run env.handler (destroy target managed.getenv restored) stopped).1 = .ok removed

/-- A cleanup has nothing to complain about when switching off and the removal returned. -/
theorem run_cleanUp_iff {booted : World} :
    (run env.handler (managed.cleanUp target restored) booted).1 = .ok [] ↔
      ∃ report stopped, run env.handler (powerOff target managed.getenv restored) booted =
        (.ok report, stopped) ∧ Removed managed env target restored stopped := by
  rw [ManagedRecoveryEngine.cleanUp, run_bind, run_attempt]
  cases off : run env.handler (powerOff target managed.getenv restored) booted with
  | mk outcome stopped =>
    unfold Removed
    dsimp only
    split
    · rename_i automatic
      rw [run_bind, run_attempt]
      cases removal : (run env.handler (destroy target managed.getenv restored) stopped).1 <;>
        cases outcome <;> simp [ManagedRecoveryEngine.complaint, automatic, removal]
    · rename_i manual
      cases outcome <;> simp [ManagedRecoveryEngine.complaint, manual]

/-- What a cleanup does once the machine was switched off. -/
theorem cleanUp_ran {booted stopped cleaned : World} {verdict : Except Exn (List String)}
    (stopping : run env.handler (powerOff target managed.getenv restored) booted =
      (.ok report, stopped))
    (cleaning : run env.handler (managed.cleanUp target restored) booted = (verdict, cleaned)) :
    ∃ rest : Prog (List String), Footprint [.outside] rest ∧
      run env.handler rest stopped = (verdict, cleaned) := by
  rw [ManagedRecoveryEngine.cleanUp, run_bind, run_attempt, stopping] at cleaning
  refine ⟨_, ?_, cleaning⟩
  split
  · exact footprint_bind (footprint_attempt (footprint_destroy _)) fun _ => footprint_pure _
  · exact footprint_pure _

/-- A request that is answered is recorded under its effect. -/
theorem recorded_answered {effect : Effect} {external : External} {value : external.Answer}
    (own : Command.effect (.request external) = effect)
    (answered : env.answer world.log external = .ok value) :
    recorded effect (env.handler (.request external) world).2.log =
      recorded effect world.log ++ [⟨Command.request external, .ok value⟩] := by
  have replied : env.reply world (.request external) = .ok value := answered
  rw [recorded_own own, replied]

/-- An exchange with an effect is the only one since then. -/
theorem since_sole {effect : Effect} {start now : World} {entry sole : Exchange controller Exn}
    (since : Since start [entry] now) (own : Command.effect entry.1 = effect)
    (only : recorded effect now.log = recorded effect start.log ++ [sole]) : entry = sole := by
  obtain ⟨later, split, inside⟩ := since
  rw [split, recorded_append] at only
  have kept : entry ∈ recorded effect later :=
    List.mem_filter.mpr ⟨inside.mem (List.mem_singleton.mpr rfl), by simpa using own⟩
  rw [List.append_cancel_left only] at kept
  exact List.mem_singleton.mp kept

/-- A test up to its cleanup: its platform and network, the machine that was restored, and
what the test of it found. -/
def untilBooted (managed : ManagedRecoveryEngine) (request_id : Nat) (actor : String)
    (req : RequestRow) : Prog (PlatformConfig × String × Dict × Dict) := do
  let (target, _, network) ← managed.validateDrTest req.snapshot_id req.target_platform req.options
  let restored ← managed.super.executeRestore request_id actor false
  let tested ← managed.testMachine request_id actor target network restored
  return (target, network, restored, tested)

/-- The event of a test that went well. -/
def reportCleanup (managed : ManagedRecoveryEngine) (request_id : Nat) (actor network : String) :
    Prog Unit :=
  let auto_cleanup := managed.cfg.management.dr_test_auto_cleanup
  audit actor "dr.test.cleanup" "restore_request" (toString request_id) [
    ("auto_cleanup", .bool auto_cleanup), ("destroyed", .bool auto_cleanup),
    ("isolated_network", .str network)]

/-- A test up to its cleanup switches nothing off. -/
theorem footprint_untilBooted (req : RequestRow) :
    Footprint [.silent, .outside, .ofRestic, .creation, .writing .requests, .writing .audits,
      .ofPower true] (untilBooted managed request_id actor req) := by
  refine footprint_bind ((footprint_validateDrTest managed _ _ _).mono (by simp)) fun found => ?_
  refine footprint_bind ((managed.super.footprint_executeRestore _ _ _).mono (by simp))
    fun restored => ?_
  exact footprint_bind ((footprint_testMachine _ _ _).mono (by simp)) fun _ => footprint_pure _

/-- A failed test returns nothing. -/
theorem yields_recordTestFailure (network : String) (primary_error : Option Exn)
    (errors : List String) : Yields (fun _ : Dict => False)
      (ManagedRecoveryEngine.recordTestFailure request_id actor network primary_error errors) := by
  refine yields_bind fun _ => yields_bind fun _ => ?_
  split
  · exact yields_throw _
  · exact yields_throw _

/-- It raises. -/
theorem recordTestFailure_raises (network : String) (primary_error : Option Exn)
    (errors : List String) (world : World) :
    ∃ error, (run env.handler (ManagedRecoveryEngine.recordTestFailure request_id actor network
      primary_error errors) world).1 = .error error := by
  cases raised : (run env.handler (ManagedRecoveryEngine.recordTestFailure request_id actor network
    primary_error errors) world).1 with
  | error error => exact ⟨error, rfl⟩
  | ok result => exact (yields_run (yields_recordTestFailure _ _ _) raised).elim

/-- The test returns what it found when everything up to its cleanup returned and the cleanup
has nothing to complain about. -/
theorem run_executeRestore_iff {req : RequestRow} {result : Dict} {after : World}
    (there : world.db.requests.lookup request_id = some req)
    (marked : isMarked req.options = true) :
    run env.handler (managed.executeRestore request_id actor false) world = (.ok result, after) ↔
      ∃ target network restored booted cleaned,
        run env.handler (untilBooted managed request_id actor req) (looked env request_id world) =
          (.ok (target, network, restored, result), booted) ∧
        run env.handler (managed.cleanUp target restored) booted = (.ok [], cleaned) ∧
        (run env.handler (reportCleanup managed request_id actor network) cleaned).2 = after := by
  rw [run_executeRestore managed there marked, untilBooted, run_bind, run_bind]
  cases validated : run env.handler (managed.validateDrTest req.snapshot_id req.target_platform
    req.options) (looked env request_id world) with
  | mk outcome middle =>
    cases outcome with
    | error error => simp
    | ok answer =>
      obtain ⟨target, marker, network⟩ := answer
      dsimp only
      rw [ManagedRecoveryEngine.executeTest, run_bind, run_bind, run_attempt]
      cases restoring : run env.handler (managed.super.executeRestore request_id actor false)
        middle with
      | mk outcome started =>
        cases outcome with
        | error error =>
          obtain ⟨raised, failed⟩ := @recordTestFailure_raises env request_id actor network
            (some error) [] started
          simp [Prod.ext_iff, failed]
        | ok restored =>
          dsimp only
          rw [run_bind, run_bind, run_attempt]
          cases testing : run env.handler (managed.testMachine request_id actor target network
            restored) started with
          | mk outcome booted =>
            dsimp only
            rw [run_bind]
            cases cleaning : run env.handler (managed.cleanUp target restored) booted with
            | mk verdict cleaned =>
              cases outcome with
              | error error =>
                cases verdict with
                | error raised => simp
                | ok errors =>
                  obtain ⟨raised, failed⟩ := @recordTestFailure_raises env request_id actor network
                    (some error) errors cleaned
                  simp [Prod.ext_iff, failed]
              | ok tested =>
                cases verdict with
                | error raised => simp [cleaning]
                | ok errors =>
                  cases errors with
                  | nil =>
                    have reported : run env.handler (reportCleanup managed request_id actor network)
                      cleaned = (.ok (), (run env.handler (reportCleanup managed request_id actor
                        network) cleaned).2) := rfl
                    dsimp only
                    rw [← reportCleanup, run_bind, reported]
                    simp [cleaning, and_assoc]
                  | cons complaint errors =>
                    obtain ⟨raised, failed⟩ := @recordTestFailure_raises env request_id actor
                      network none (complaint :: errors) cleaned
                    simp [Prod.ext_iff, failed, cleaning]

/-- A successful test names the machine that was restored, and that machine was switched off by
a command that exited with zero. -/
def PoweredOff (managed : ManagedRecoveryEngine) (env : Environment) (world : World)
    (request_id : Nat) (actor : String) (req : RequestRow) : Prop :=
  ∀ result after,
    run env.handler (managed.executeRestore request_id actor false) world = (.ok result, after) →
    ∃ target restored argv settings report outcome,
      managed.super.platform req.target_platform = .ok target ∧
      result.get? "restored" = some (.obj restored) ∧
      power target managed.getenv restored false = .ok (argv, settings, report) ∧
      Succeeded world after (.power target.name false argv) settings outcome

/-- Wherever a test comes to its cleanup and the command that switches the machine off is
answered with an error, the removal that is due fails. -/
def Noticed (managed : ManagedRecoveryEngine) (env : Environment) (world : World)
    (request_id : Nat) (actor : String) (req : RequestRow) : Prop :=
  ∀ target network restored result booted,
    run env.handler (untilBooted managed request_id actor req) (looked env request_id world) =
      (.ok (target, network, restored, result), booted) →
    ∀ argv settings report outcome,
      power target managed.getenv restored false = .ok (argv, settings, report) →
      env.answer booted.log (.run (.power target.name false argv) settings none) = .ok outcome →
      outcome.returncode ≠ 0 →
      ¬ Removed managed env target restored
        (env.handler (.request (.run (.power target.name false argv) settings none)) booted).2

/-- A test that returned names the machine that it tested. -/
theorem yields_testMachine (network : String) :
    Yields (fun result : Dict => result.get? "restored" = some (.obj restored))
      (managed.testMachine request_id actor target network restored) := by
  refine yields_bind fun _ => yields_bind fun _ => yields_bind fun _ => yields_bind fun _ =>
    yields_bind fun boot => ?_
  split
  · exact yields_throw _
  · exact yields_bind fun _ => yields_pure (by simp [Dict.get?])

/-- What a test up to its cleanup returns. -/
theorem untilBooted_ran {req : RequestRow} {network : String} {result : Dict} {booted : World}
    (ran : run env.handler (untilBooted managed request_id actor req) world =
      (.ok (target, network, restored, result), booted)) :
    managed.super.platform req.target_platform = .ok target ∧
      result.get? "restored" = some (.obj restored) := by
  obtain ⟨⟨located, marker, registered⟩, _, validating, rest⟩ := (run_bind_eq_ok _).mp ran
  obtain ⟨machine, _, _, rest⟩ := (run_bind_eq_ok _).mp rest
  obtain ⟨tested, _, testing, done⟩ := (run_bind_eq_ok _).mp rest
  obtain ⟨⟨rfl, rfl, rfl, rfl⟩, -⟩ : (located = target ∧ registered = network ∧
      machine = restored ∧ tested = result) ∧ _ = booted := by
    simpa only [run_pure, Prod.mk.injEq, Except.ok.injEq] using done
  exact ⟨(validateDrTest_ran validating).2.1,
    yields_run (yields_testMachine _) (congrArg Prod.fst testing)⟩

/-- A test is a success only if its machine was switched off, exactly when an error of the
command that does so is noticed by the removal. -/
theorem poweredOff_iff {req : RequestRow}
    (there : world.db.requests.lookup request_id = some req)
    (marked : isMarked req.options = true) :
    PoweredOff managed env world request_id actor req ↔
      Noticed managed env world request_id actor req := by
  constructor
  · intro powered target network restored result booted reached argv settings report outcome known
      answered failed removed
    have stopping := run_powerOff known answered
    obtain ⟨cleaned, cleaning⟩ : ∃ cleaned,
        run env.handler (managed.cleanUp target restored) booted = (.ok [], cleaned) :=
      ⟨_, Prod.ext (run_cleanUp_iff.mpr ⟨report, _, stopping, removed⟩) rfl⟩
    obtain ⟨after, returned⟩ : ∃ after, (run env.handler (reportCleanup managed request_id actor
      network) cleaned).2 = after := ⟨_, rfl⟩
    obtain ⟨located, machine, again, options, shown, exit, same, named, planned, succeeded⟩ :=
      powered result after ((run_executeRestore_iff there marked).mpr
        ⟨target, network, restored, booted, cleaned, reached, cleaning, returned⟩)
    obtain ⟨configured, tested⟩ := untilBooted_ran reached
    obtain rfl : target = located := Except.ok.inj (configured.symm.trans same)
    obtain rfl : restored = machine := Json.obj.inj (Option.some.inj (tested.symm.trans named))
    obtain ⟨rfl, rfl, rfl⟩ : argv = again ∧ settings = options ∧ report = shown := by
      simpa only [Except.ok.injEq, Prod.mk.injEq] using known.symm.trans planned
    obtain ⟨rest, quiet, removing⟩ := cleanUp_ran stopping cleaning
    have reporting : Footprint [.silent, .writing .audits]
        (reportCleanup managed request_id actor network) :=
      footprint_audit (by simp) (by simp) _ _ _ _ _
    have before : recorded (.ofPower false) booted.log = recorded (.ofPower false) world.log :=
      (recorded_ran (footprint_untilBooted req) (by simp) reached).trans
        (recorded_other (by simp [Command.effect, writes]) world)
    have off : recorded (.ofPower false) (env.handler (.request (.run
        (.power target.name false argv) settings none)) booted).2.log =
        recorded (.ofPower false) booted.log ++
          [⟨Command.request (.run (.power target.name false argv) settings none), .ok outcome⟩] :=
      recorded_answered rfl answered
    have only : recorded (.ofPower false) after.log = recorded (.ofPower false) world.log ++
        [⟨Command.request (.run (.power target.name false argv) settings none), .ok outcome⟩] := by
      rw [← returned, recorded_run reporting (by simp), recorded_ran quiet (by simp) removing,
        off, before]
    have same := since_sole succeeded.1 rfl only
    simp only [Sigma.mk.injEq, heq_eq_eq, Except.ok.injEq, true_and] at same
    exact failed (same ▸ succeeded.2)
  · intro noticed result after ran
    obtain ⟨target, network, restored, booted, cleaned, reached, cleaning, returned⟩ :=
      (run_executeRestore_iff there marked).mp ran
    obtain ⟨report, stopped, stopping, removed⟩ := run_cleanUp_iff.mp (congrArg Prod.fst cleaning)
    obtain ⟨argv, settings, outcome, known, answered, rfl⟩ := powerOff_ran stopping
    obtain ⟨configured, tested⟩ := untilBooted_ran reached
    refine ⟨target, restored, argv, settings, report, outcome, configured, tested, known, ?_, ?_⟩
    · obtain ⟨rest, quiet, removing⟩ := cleanUp_ran stopping cleaning
      have behind : world.log <+: booted.log :=
        (List.prefix_append world.log _).trans (log_ran reached)
      have ahead := (log_ran removing).trans (log_run env (reportCleanup managed request_id actor
        network) cleaned)
      rw [returned] at ahead
      exact (((Since.refl booted).answered answered).earlier behind).grown ahead
    · by_contra failed
      exact noticed _ _ _ _ _ reached _ _ _ _ known answered failed removed

/-- The approved test of the bench. -/
def benchRequest : RequestRow :=
  { testedRequest with status := .approved, finished_at := none, result := none }

/-- A host on which the command that switches machines off exits with an error. -/
def deafHost : Environment :=
  { benchHost with answer := fun history external => match external with
      | .run (.power _ false _) _ _ => .ok { returncode := 1 }
      | external => benchHost.answer history external }

/-- On the bench, where the machine is switched off. -/
theorem poweredOff_iff_bench :
    PoweredOff bench benchHost { db := benchCatalogue, clock := 0 } 1 "ops" benchRequest ↔
      Noticed bench benchHost { db := benchCatalogue, clock := 0 } 1 "ops" benchRequest :=
  poweredOff_iff rfl (by decide)

/-- No command that switches a machine off exited with zero. -/
def unpowered (history : History) : Bool :=
  history.all fun exchange => match exchange with
    | ⟨.request (.run (.power _ false _) _ _), .ok result⟩ => result.returncode ≠ 0
    | _ => true

/-- The deaf host's machine is not switched off, and its test is a success. -/
theorem deaf_test_succeeds :
    benchCatalogue.requests.lookup 1 = some benchRequest ∧
      isMarked benchRequest.options = true ∧
      ¬ PoweredOff bench deafHost { db := benchCatalogue, clock := 0 } 1 "ops" benchRequest := by
  refine ⟨rfl, by decide, ?_⟩
  intro powered
  have returned : ((run deafHost.handler (bench.executeRestore 1 "ops" false)
      { db := benchCatalogue, clock := 0 }).1.map (fieldText · "status" "")).toOption =
        some "success" := by decide
  have never : unpowered (run deafHost.handler (bench.executeRestore 1 "ops" false)
      { db := benchCatalogue, clock := 0 }).2.log = true := by decide
  cases ran : run deafHost.handler (bench.executeRestore 1 "ops" false)
      { db := benchCatalogue, clock := 0 } with
  | mk outcome after =>
    rw [ran] at returned never
    cases outcome with
    | error error => cases returned
    | ok result =>
      obtain ⟨_, _, argv, settings, _, exit, _, _, _, ⟨later, split, inside⟩, clean⟩ :=
        powered result after ran
      have member := inside.mem (List.mem_singleton.mpr rfl)
      have failed := List.all_eq_true.mp never _ (split ▸ List.mem_append_right _ member)
      exact absurd clean (of_decide_eq_true failed)

end Cleanup

end Immutavault.TestExecutions
