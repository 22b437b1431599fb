import Immutavault.DROrchestrator
import Immutavault.FaultyRuns

/-!
# Promotions that fail

A promotion that fails after its run was recorded is cleaned up: the networks are withdrawn
from the recovery site, the machines restored so far are switched off, and the failure is
recorded. The program does this in that order. An error of a machine is passed over, and so is
a gateway that answers with an error; a gateway that does not answer in time raises, and then
nothing else is done.

Transactions may fail here, as may every request. A promotion is taken apart into what comes
before its run is recorded, what it attempts then, and what follows a failure.
-/

namespace Immutavault.PromotionFailures

open Programs Values Timestamps Catalog Machine Configuration Histories StateDatabase
open RestoreEngine ResticRepository Adapters DROrchestrator DRNetwork FaultyRuns

section Parts

variable (engine : Engine)

/-- A promotion up to its recorded run: an outcome when none is begun. -/
def beginPromotion (confirmed automatic : Bool) : Prog (Promotion ⊕ (Nat × DRPlan)) := do
  ensureEnabled engine
  let plan ← plan engine
  let active ← alreadyFailedOver
  if active then return .inl .alreadyFailedOver
  else if ¬ plan.ready then
    raiseRuntimeError ("DR promotion blocked: " ++ "; ".intercalate plan.errors)
  else
    let preflight ← preflight engine plan
    if ¬ preflight.ok then
      raiseRuntimeError ("DR promotion preflight failed before fencing primary: " ++
        "; ".intercalate preflight.problems)
    else
      fencePrimary engine confirmed automatic
      let run_id ← createDrRun .failover engine.cfg.dr.primary_site engine.cfg.dr.dr_site
        [("replica", .str engine.cfg.dr.replica)]
      return .inr (run_id, plan)

/-- What is attempted once the run is recorded, with the machines restored so far. -/
def attemptPromotion (run_id : Nat) (plan : DRPlan) :
    Prog (List Restored × Except Exn Promotion) := do
  match ← (prepareSites engine).attempt with
  | .error exc => return ([], .error exc)
  | .ok started =>
    let (restored, failed) ← restoreWorkloads engine run_id started
      ((bootSequence engine).zip plan.workloads) []
    match failed with
    | some exc => return (restored, .error exc)
    | none =>
      let outcome ← (completePromotion engine run_id restored).attempt
      return (restored, outcome)

/-- A promotion that is executed begins its run and goes on with it. -/
theorem promote_eq (confirmed automatic : Bool) : promote engine true confirmed automatic =
    beginPromotion engine confirmed automatic >>= fun begun =>
      match begun with
      | .inl outcome => pure outcome
      | .inr (run_id, plan) => runPromotion engine run_id plan := by
  simp only [promote, beginPromotion, bind_assoc, not_true_eq_false, if_false]
  refine congrArg _ (funext fun _ => congrArg _ (funext fun plan => congrArg _
    (funext fun active => ?_)))
  split
  · rfl
  · split
    · rfl
    · simp only [bind_assoc]
      refine congrArg _ (funext fun preflight => ?_)
      split
      · rfl
      · simp only [bind_assoc]
        rfl

/-- A run is attempted, and a failure is followed by the cleanup. -/
theorem runPromotion_eq (run_id : Nat) (plan : DRPlan) : runPromotion engine run_id plan =
    attemptPromotion engine run_id plan >>= fun attempted =>
      match attempted.2 with
      | .ok promotion => pure promotion
      | .error exc => abortPromotion engine run_id attempted.1 exc := by
  simp only [runPromotion, attemptPromotion, bind_assoc]
  refine congrArg _ (funext fun outcome => ?_)
  cases outcome with
  | error exc => rfl
  | ok started =>
    simp only [bind_assoc]
    refine congrArg _ (funext fun restored => ?_)
    obtain ⟨restored, failed⟩ := restored
    cases failed with
    | some exc => rfl
    | none =>
      simp only [bind_assoc]
      rw [Program.tryCatch_eq_attempt]
      refine congrArg _ (funext fun outcome => ?_)
      cases outcome <;> rfl

end Parts

section Rows

/-- A run that is recorded, and not as failed. -/
def Unfailed (run_id : Nat) (db : Database) : Prop :=
  ∃ row, db.runs.lookup run_id = some row ∧ row.status ≠ .failed

/-- A command that records no failure. -/
def Lenient (command : Command) : Prop :=
  ∀ run_id now details error, command ≠ .transact (.finishRun run_id now false details error)

variable {α : Type} {run_id : Nat} {engine : Engine} {env : Environment} {faults : Faults}
  {world after : World}

/-- A transaction that records no failure keeps a run that has not failed. -/
theorem unfailed_write {db : Database} {transaction : Transaction}
    (lenient : Lenient (.transact transaction)) (unfailed : Unfailed run_id db) :
    Unfailed run_id (transaction.write db) := by
  obtain ⟨row, found, running⟩ := unfailed
  cases transaction with
  | insertRun given =>
    have other : run_id ≠ db.runs.next := fun same =>
      absurd (Tables.Numbered.lookup_lt found) (same ▸ Nat.lt_irrefl _)
    exact ⟨row, (Tables.Numbered.lookup_insert _ _ _).trans ((if_neg other).trans found), running⟩
  | finishRun number now success details error =>
    cases success with
    | false => exact absurd rfl (lenient number now details error)
    | true =>
      by_cases own : run_id = number
      · subst own
        refine ⟨_, (Tables.Numbered.lookup_modify _ _ _ _).trans ((if_pos rfl).trans
          (congrArg _ found)), ?_⟩
        exact fun impossible => by cases impossible
      · exact ⟨row, (Tables.Numbered.lookup_modify _ _ _ _).trans ((if_neg own).trans found),
          running⟩
  | _ => exact ⟨row, found, running⟩

theorem unfailed_ran {program : Prog α} {outcome : Except Exn α}
    (lenient : Issues (fun command : controller.Command => Lenient command) program)
    (unfailed : Unfailed run_id world.db)
    (ran : run (faulting env faults) program world = (outcome, after)) :
    Unfailed run_id after.db := by
  have step : ∀ (command : Command) (now : World), Lenient command → Unfailed run_id now.db →
      Unfailed run_id (faulting env faults command now).2.db := by
    intro command now lenient unfailed
    rcases @db_faulting env faults command now with committed | nothing
    · rw [committed]
      cases command with
      | transact transaction => exact unfailed_write lenient unfailed
      | utcnow => exact unfailed
      | rmtree path => exact unfailed
      | request external => exact unfailed
    · rwa [nothing]
  have kept := @issues_run controller Exn α World _ (faulting env faults) program
    (fun now => Unfailed run_id now.db) lenient step world unfailed
  rwa [ran] at kept

theorem lenient_footprint {effects : List Effect} {program : Prog α}
    (footprint : Footprint effects program) (absent : .writing .runs ∉ effects) :
    Issues (fun command : controller.Command => Lenient command) program := by
  refine issues_mono footprint fun command listed number now details error same => ?_
  subst same
  exact absent listed

/-- What is attempted records no failure. -/
theorem lenient_attemptPromotion (plan : DRPlan) :
    Issues (fun command : controller.Command => Lenient command)
      (attemptPromotion engine run_id plan) := by
  refine issues_bind (issues_attempt
    (lenient_footprint (footprint_prepareSites engine) (by simp))) fun outcome => ?_
  cases outcome with
  | error exc => exact issues_pure _
  | ok started =>
    refine issues_bind (lenient_footprint (footprint_restoreWorkloads engine _ _ _ _)
      (by simp [restoreEffects])) fun restored => ?_
    obtain ⟨restored, failed⟩ := restored
    cases failed with
    | some exc => exact issues_pure _
    | none =>
      refine issues_bind (issues_attempt ?_) fun _ => issues_pure _
      refine issues_bind (lenient_footprint (NetworkManager.footprint_activate _ _) (by simp))
        fun _ => ?_
      refine issues_bind (lenient_footprint (footprint_startMachines engine _ _) (by simp))
        fun health => ?_
      have settles (details : Dict) : Issues (fun command : controller.Command => Lenient command)
          (finishDrRun run_id true details none) := by
        refine issues_bind (lenient_footprint (footprint_utcnow (List.mem_singleton_self _))
          (by simp)) fun now => ?_
        exact (issues_perform _).mpr fun _ _ _ _ same => by cases same
      refine issues_bind (settles _) fun _ => ?_
      have audits := footprint_audit (by simp : Effect.silent ∈ [.silent, .writing .audits])
        (by simp)
      exact issues_bind (lenient_footprint (audits _ _ _ _ _) (by simp)) fun _ => issues_pure _

/-- A pure computation that returned did nothing else. -/
theorem raised_ran {handler : Handler controller Exn World} {given : Except Exn α} {value : α}
    (ran : run handler (raised given) world = (.ok value, after)) :
    given = .ok value ∧ after = world := by
  cases given with
  | ok first =>
    cases ran
    exact ⟨rfl, rfl⟩
  | error error => cases ran

/-- A run that was created is recorded as running. -/
theorem createDrRun_ran {direction : Direction} {source_site target_site : String} {details : Dict}
    (ran : run (faulting env faults) (createDrRun direction source_site target_site details) world =
      (.ok run_id, after)) :
    ∃ row, after.db.runs.lookup run_id = some row ∧ row.status = .running := by
  obtain ⟨now, timed, _, inserting⟩ := (run_bind_eq_ok _).mp ran
  rcases run_transact inserting with ⟨same, written⟩ | ⟨⟨error, impossible⟩, _⟩
  · cases same
    have there : after.db.runs.lookup timed.db.runs.next = some {
        started_at := now, direction := direction, source_site := source_site
        target_site := target_site, status := .running, details := details } := by
      rw [written]
      exact (Tables.Numbered.lookup_insert _ _ _).trans (if_pos rfl)
    exact ⟨_, there, rfl⟩
  · cases impossible

/-- The recovery site of a plan is configured. -/
theorem plan_site {plan : DRPlan} {handler : Handler controller Exn World}
    (ran : run handler (DROrchestrator.plan engine) world = (.ok plan, after)) :
    ∃ site, (net engine).site engine.cfg.dr.dr_site = .ok site := by
  obtain ⟨_, enabled, _, rest⟩ := (run_bind_eq_ok _).mp ran
  obtain ⟨rows, listed, _, rest⟩ := (run_bind_eq_ok _).mp rest
  obtain ⟨primary, first, _, rest⟩ := (run_bind_eq_ok _).mp rest
  obtain ⟨recovery, second, rendering, _⟩ := (run_bind_eq_ok _).mp rest
  obtain ⟨rendered, _⟩ := raised_ran rendering
  cases found : (net engine).site engine.cfg.dr.dr_site with
  | ok site => exact ⟨site, rfl⟩
  | error error =>
    rw [NetworkManager.plan, found] at rendered
    cases rendered

/-- A promotion that is begun has recorded its run, and its recovery site is configured. -/
theorem beginPromotion_ran {confirmed automatic : Bool} {plan : DRPlan}
    (ran : run (faulting env faults) (beginPromotion engine confirmed automatic) world =
      (.ok (.inr (run_id, plan)), after)) :
    Unfailed run_id after.db ∧ ∃ site, (net engine).site engine.cfg.dr.dr_site = .ok site := by
  obtain ⟨_, enabled, _, rest⟩ := (run_bind_eq_ok _).mp ran
  obtain ⟨drawn, planned, planning, rest⟩ := (run_bind_eq_ok _).mp rest
  obtain ⟨active, asked, _, rest⟩ := (run_bind_eq_ok _).mp rest
  split at rest
  · cases rest
  · split at rest
    · cases rest
    · obtain ⟨preflight, flown, _, rest⟩ := (run_bind_eq_ok _).mp rest
      split at rest
      · cases rest
      · obtain ⟨_, fenced, _, rest⟩ := (run_bind_eq_ok _).mp rest
        obtain ⟨number, created, creating, ended⟩ := (run_bind_eq_ok _).mp rest
        cases ended
        obtain ⟨row, there, running⟩ := createDrRun_ran creating
        exact ⟨⟨row, there, by simp [running]⟩, plan_site planning⟩

end Rows

section Cleanup

variable {engine : Engine} {env : Environment} {faults : Faults} {run_id : Nat} {exc : Exn}
  {restored : List Restored} {start world after : World}

/-- The request that withdraws the networks from a site. -/
def withdrawal (net : NetworkManager) (site : DRSiteConfig) : External :=
  .run (.gateway site.name .deactivate (net.wrap site)) [] (some ("set -u; " ++ "; ".intercalate
    (net.enabledNetworks.flatMap (NetworkManager.deactivateCommands site.gateway)) ++ "\n"))

/-- A tolerant deactivation sends one script, and raises when that is not answered. -/
theorem run_deactivate {net : NetworkManager} {name : String} {site : DRSiteConfig}
    (found : net.site name = .ok site) (world : World) :
    ∃ report : CommandResult → Dict,
      run (faulting env faults) (net.deactivate name false true) world =
        ((env.answer world.log (withdrawal net site)).map report,
          (env.handler (.request (withdrawal net site)) world).2) := by
  refine ⟨fun result => [("status", .str (if result.returncode = 0 then "inactive" else
    "unreachable")), ("site", .str name)], ?_⟩
  unfold NetworkManager.deactivate
  rw [found]
  change run (faulting env faults) (runCommand (.gateway site.name .deactivate (net.wrap site)) []
    _ false >>= _) world = _
  rw [run_bind, run_unchecked]
  unfold withdrawal
  generalize env.answer world.log (.run (.gateway site.name .deactivate (net.wrap site)) [] _) =
    answer
  cases answer <;> rfl

/-- The command that switches a restored machine off was issued, when there is one. -/
def SwitchedOff (engine : Engine) (start after : World) (machine : Restored) : Prop :=
  ∀ argv settings report,
    power machine.adapter engine.getenv machine.result false = .ok (argv, settings, report) →
      ∃ answer, Since start
        [⟨.request (.run (.power machine.adapter.name false argv) settings none), answer⟩] after

/-- Switching a machine off issues its command. -/
theorem run_powerOff {machine : Restored} {outcome : Except Exn Dict} (since : Since start [] world)
    (ran : run (faulting env faults) (powerOff machine.adapter engine.getenv machine.result) world =
      (outcome, after)) : SwitchedOff engine start after machine := by
  intro argv settings report planned
  rw [powerOff, planned] at ran
  change run (faulting env faults)
    (runCommand (.power machine.adapter.name false argv) settings none false >>= _) world = _ at ran
  rw [run_bind, run_unchecked] at ran
  generalize replied : env.answer world.log
    (.run (.power machine.adapter.name false argv) settings none) = answer at ran
  have ended : after = (env.handler (.request
      (.run (.power machine.adapter.name false argv) settings none)) world).2 := by
    cases answer <;> exact (congrArg Prod.snd ran).symm
  exact ⟨_, ended ▸ since.exchange _⟩

/-- Switching machines off quietly issues the command of each of them, and returns. -/
theorem run_switchOffQuietly {machines : List Restored} (since : Since start [] world) :
    ∃ after, run (faulting env faults) (switchOffQuietly engine machines) world = (.ok (), after) ∧
      Since start [] after ∧ ∀ machine ∈ machines, SwitchedOff engine start after machine := by
  induction machines generalizing world with
  | nil => exact ⟨world, rfl, since, by simp⟩
  | cons machine rest inductionHypothesis =>
    rcases off : run (faulting env faults)
      (powerOff machine.adapter engine.getenv machine.result) world with ⟨outcome, middle⟩
    have own := run_powerOff since off
    obtain ⟨after, ran, grown, others⟩ := inductionHypothesis (since_faulting since off)
    refine ⟨after, ?_, grown, List.forall_mem_cons.mpr ⟨?_, others⟩⟩
    · rw [switchOffQuietly, run_bind, run_attempt, off]
      exact ran
    · intro argv settings report planned
      obtain ⟨answer, shown⟩ := own argv settings report planned
      exact ⟨answer, since_faulting shown ran⟩

/-- Record that the run failed. -/
def recording (run_id : Nat) (restored : List Restored) (exc : Exn) : Prog Unit :=
  finishDrRun run_id false
    [("restored", .arr (restored.map fun machine => .str machine.workload.name))]
    (some exc.message)

/-- A failure is handled when the run has failed with its error, the networks were asked to be
withdrawn from the recovery site, and every machine restored so far was switched off. -/
structure Handled (engine : Engine) (run_id : Nat) (restored : List Restored) (exc : Exn)
    (failed after : World) : Prop where
  recorded : ∃ row, after.db.runs.lookup run_id = some row ∧ row.status = .failed ∧
    row.error = some exc.message
  withdrawn : ∃ site answer, (net engine).site engine.cfg.dr.dr_site = .ok site ∧
    Since failed [⟨.request (withdrawal (net engine) site), answer⟩] after
  switchedOff : ∀ machine ∈ restored, SwitchedOff engine failed after machine

/-- The request to withdraw the networks is answered, and the catalogue takes the failure. -/
def Completes (engine : Engine) (env : Environment) (faults : Faults) (run_id : Nat)
    (restored : List Restored) (exc : Exn) (failed : World) : Prop :=
  ∃ site result, (net engine).site engine.cfg.dr.dr_site = .ok site ∧
    env.answer failed.log (withdrawal (net engine) site) = .ok result ∧
    (run (faulting env faults) (recording run_id restored exc)
      (run (faulting env faults) (switchOffQuietly engine restored.reverse)
        (env.handler (.request (withdrawal (net engine) site)) failed).2).2).1 = .ok ()

/-- Recording a failure either marks the run with its error, or raises and leaves it alone. -/
theorem recording_ran {outcome : Except Exn Unit} (unfailed : Unfailed run_id world.db)
    (ran : run (faulting env faults) (recording run_id restored exc) world = (outcome, after)) :
    (outcome = .ok () ∧ ∃ row, after.db.runs.lookup run_id = some row ∧ row.status = .failed ∧
        row.error = some exc.message) ∨
      ((∃ error, outcome = .error error) ∧ Unfailed run_id after.db) := by
  obtain ⟨row, found, running⟩ := unfailed
  rw [recording, finishDrRun, run_bind] at ran
  have timed : run (faulting env faults) utcnow world =
      (.ok world.clock, (env.handler .utcnow world).2) := rfl
  rw [timed] at ran
  dsimp only at ran
  rcases run_transact ran with ⟨rfl, written⟩ | ⟨refused, same⟩
  · refine Or.inl ⟨rfl, ?_⟩
    rw [written]
    exact ⟨_, (Tables.Numbered.lookup_modify _ _ _ _).trans ((if_pos rfl).trans
      (congrArg _ found)), rfl, rfl⟩
  · exact Or.inr ⟨refused, row, same ▸ found, running⟩

/-- A failed row is not an unfailed one. -/
theorem not_recorded {db : Database} (unfailed : Unfailed run_id db) :
    ¬ ∃ row, db.runs.lookup run_id = some row ∧ row.status = .failed ∧
      row.error = some exc.message := by
  rintro ⟨row, found, failed, _⟩
  obtain ⟨other, same, running⟩ := unfailed
  cases found.symm.trans same
  exact running failed

/-- The cleanup handles the failure exactly when the request to withdraw the networks
is answered and the catalogue takes the failure. -/
theorem abort_iff {site : DRSiteConfig} {failed : World} {outcome : Except Exn Promotion}
    (unfailed : Unfailed run_id failed.db)
    (found : (net engine).site engine.cfg.dr.dr_site = .ok site)
    (ran : run (faulting env faults) (abortPromotion engine run_id restored exc) failed =
      (outcome, after)) :
    Handled engine run_id restored exc failed after ↔
      Completes engine env faults run_id restored exc failed := by
  obtain ⟨report, asking⟩ := @run_deactivate env faults _ _ _ found failed
  let asked := (env.handler (.request (withdrawal (net engine) site)) failed).2
  have shown : Since failed [⟨.request (withdrawal (net engine) site), _⟩] asked :=
    (Since.refl failed).exchange _
  have kept : Unfailed run_id asked.db := unfailed
  rw [abortPromotion, run_bind, asking] at ran
  cases answered : env.answer failed.log (withdrawal (net engine) site) with
  | error error =>
    rw [answered] at ran
    cases ran
    refine iff_of_false (fun handled => not_recorded kept handled.recorded) ?_
    rintro ⟨other, result, same, replied, _⟩
    cases found.symm.trans same
    cases answered.symm.trans replied
  | ok result =>
    rw [answered] at ran
    obtain ⟨off, switching, since, all⟩ := @run_switchOffQuietly engine env faults failed asked
      restored.reverse ⟨_, rfl, List.nil_sublist _⟩
    have still : Unfailed run_id off.db :=
      unfailed_ran (lenient_footprint (footprint_switchOffQuietly engine _) (by simp)) kept
        switching
    change run (faulting env faults) (switchOffQuietly engine restored.reverse >>= fun _ =>
      recording run_id restored exc >>= fun _ => audit "dr-orchestrator" "dr.failover.failed"
        "dr_run" (toString run_id) [("error", .str exc.message)] >>= fun _ => throw exc) asked =
      (outcome, after) at ran
    rw [run_bind, switching] at ran
    dsimp only at ran
    rcases recorded : run (faulting env faults) (recording run_id restored exc) off with
      ⟨answer, taken⟩
    rw [run_bind, recorded] at ran
    have completes : Completes engine env faults run_id restored exc failed ↔
        answer = .ok () := by
      constructor
      · rintro ⟨other, _, same, _, told⟩
        cases found.symm.trans same
        rw [switching] at told
        exact (congrArg Prod.fst recorded).symm.trans told
      · rintro rfl
        exact ⟨site, result, found, answered, by rw [switching, recorded]⟩
    rw [completes]
    rcases recording_ran still recorded with ⟨rfl, row⟩ | ⟨⟨error, rfl⟩, unrecorded⟩
    · refine iff_of_true ?_ rfl
      have audits := footprint_audit (by simp : Effect.silent ∈ [.silent, .writing .audits])
        (by simp) "dr-orchestrator" "dr.failover.failed" "dr_run" (toString run_id)
          [("error", .str exc.message)]
      have same : Table.runs.Same taken.db after.db :=
        same_faulting (footprint_bind audits fun _ => footprint_throw exc) (by simp) ran
      have runs : after.db.runs = taken.db.runs := same
      have grown {listed : History} (since : Since failed listed off) :
          Since failed listed after :=
        since_faulting (since_faulting since recorded) ran
      exact {
        recorded := runs ▸ row
        withdrawn := ⟨site, _, found, grown (since_faulting shown switching)⟩
        switchedOff := fun machine member argv settings report planned => by
          obtain ⟨answer, issued⟩ := all machine (List.mem_reverse.mpr member) argv settings
            report planned
          exact ⟨answer, grown issued⟩ }
    · cases ran
      exact iff_of_false (fun handled => not_recorded unrecorded handled.recorded)
        (fun impossible => by cases impossible)

/-- Restoring the workloads does not raise. -/
theorem run_restoreWorkloads (handler : Handler controller Exn World) (run_id : Nat)
    (started : Timestamp) (pairs : List (DRVMConfig × PlanRow)) (restored : List Restored)
    (world : World) : ∃ outcome after,
      run handler (restoreWorkloads engine run_id started pairs restored) world =
        (.ok outcome, after) := by
  induction pairs generalizing restored world with
  | nil => exact ⟨_, _, rfl⟩
  | cons pair rest inductionHypothesis =>
    rw [restoreWorkloads, run_bind, run_attempt]
    rcases run handler (restoreWorkload engine run_id started pair.1 pair.2) world with
      ⟨outcome, middle⟩
    cases outcome with
    | error exc => exact ⟨_, _, rfl⟩
    | ok created =>
      dsimp only
      rw [run_bind, run_attempt]
      rcases run handler (addDrWorkload created.2) middle with ⟨recorded, listed⟩
      cases recorded with
      | error exc => exact ⟨_, _, rfl⟩
      | ok number => exact inductionHypothesis _ _

/-- Nor does what is attempted. -/
theorem run_attemptPromotion (handler : Handler controller Exn World) (run_id : Nat) (plan : DRPlan)
    (world : World) : ∃ outcome after,
      run handler (attemptPromotion engine run_id plan) world = (.ok outcome, after) := by
  rw [attemptPromotion, run_bind, run_attempt]
  rcases run handler (prepareSites engine) world with ⟨outcome, prepared⟩
  cases outcome with
  | error exc => exact ⟨_, _, rfl⟩
  | ok started =>
    dsimp only
    obtain ⟨⟨restored, failed⟩, middle, ran⟩ := run_restoreWorkloads handler run_id started
      ((bootSequence engine).zip plan.workloads) [] prepared
    rw [run_bind, ran]
    cases failed with
    | some exc => exact ⟨_, _, rfl⟩
    | none =>
      dsimp only
      rw [run_bind, run_attempt]
      exact ⟨_, _, rfl⟩

/-- A promotion that raises after its run was recorded failed in what it attempted, and handles
that failure exactly when the request to withdraw the networks is answered and the catalogue
takes the failure. -/
theorem promotion_handled {confirmed automatic : Bool} {begun final : World} {plan : DRPlan}
    {error : Exn}
    (started : run (faulting env faults) (beginPromotion engine confirmed automatic) world =
      (.ok (.inr (run_id, plan)), begun))
    (raised : run (faulting env faults) (promote engine true confirmed automatic) world =
      (.error error, final)) :
    ∃ restored exc failed, run (faulting env faults) (attemptPromotion engine run_id plan) begun =
        (.ok (restored, .error exc), failed) ∧
      (Handled engine run_id restored exc failed final ↔
        Completes engine env faults run_id restored exc failed) := by
  obtain ⟨unfailed, site, found⟩ := beginPromotion_ran started
  obtain ⟨⟨restored, outcome⟩, failed, attempted⟩ :=
    @run_attemptPromotion engine (faulting env faults) run_id plan begun
  rw [promote_eq, run_bind, started] at raised
  dsimp only at raised
  rw [runPromotion_eq, run_bind, attempted] at raised
  cases outcome with
  | ok promotion => cases raised
  | error exc =>
    exact ⟨restored, exc, failed, attempted,
      abort_iff (unfailed_ran (lenient_attemptPromotion plan) unfailed attempted) found raised⟩

/-- A cooperative world in which the networks cannot be handed over, and withdrawing them is
answered as given. -/
def halting (withdrawn : Except Exn CommandResult) : Environment where
  answer := fun log external =>
    match external with
    | .run (.gateway "dr" .activate _) _ _ => .ok { returncode := 1 }
    | .run (.gateway "dr" .deactivate _) _ _ => withdrawn
    | external => cooperative.answer log external
  elapsed := cooperative.elapsed

/-- A withdrawal that the gateway refuses, and one that it does not answer in time. -/
def refusing : Environment := halting (.ok { returncode := 255 })

def hanging : Environment := halting (.error ⟨.timeoutExpired, "timed out"⟩)

/-- A promotion that cannot hand the networks over, and whose withdrawal is refused, is cleaned
up as far as the withdrawal is answered. -/
theorem promotion_handled_refused : ∃ plan begun restored exc failed,
    run (faulting refusing never) (beginPromotion recovery true false) ⟨replicated, 0, []⟩ =
      (.ok (.inr (1, plan)), begun) ∧
    run (faulting refusing never) (attemptPromotion recovery 1 plan) begun =
      (.ok (restored, .error exc), failed) ∧
    (Handled recovery 1 restored exc failed
        (run (faulting refusing never) (promote recovery true true false) ⟨replicated, 0, []⟩).2 ↔
      Completes recovery refusing never 1 restored exc failed) := by
  obtain ⟨plan, begun, started⟩ : ∃ plan begun,
      run (faulting refusing never) (beginPromotion recovery true false) ⟨replicated, 0, []⟩ =
        (.ok (.inr (1, plan)), begun) := ⟨_, _, rfl⟩
  obtain ⟨restored, exc, failed, attempted, handled⟩ := promotion_handled started rfl
  exact ⟨plan, begun, restored, exc, failed, started, attempted, handled⟩

/-- A withdrawal that times out ends the cleanup: the error of the failure is lost, the run is
still recorded as running, and the machine that was restored is not switched off. -/
theorem withdrawal_times_out :
    (run (faulting hanging never) (promote recovery true true false) ⟨replicated, 0, []⟩).1.isOk =
      false ∧
    (∃ row, (run (faulting hanging never) (promote recovery true true false)
        ⟨replicated, 0, []⟩).2.db.runs.lookup 1 = some row ∧ row.status = .running ∧
      row.error = none) ∧
    (∃ row, (run (faulting hanging never) (promote recovery true true false)
        ⟨replicated, 0, []⟩).2.db.workloads.lookup 1 = some row ∧ row.run_id = 1 ∧
      row.status = "restored") ∧
    ∀ exchange ∈ (run (faulting hanging never) (promote recovery true true false)
        ⟨replicated, 0, []⟩).2.log, Command.effect exchange.1 ≠ .ofPower false := by
  refine ⟨rfl, ⟨_, rfl, rfl, rfl⟩, ⟨_, rfl, rfl, rfl⟩, ?_⟩
  decide

end Cleanup

end Immutavault.PromotionFailures
