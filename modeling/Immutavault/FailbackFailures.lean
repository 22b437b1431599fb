import Immutavault.DROrchestrator
import Immutavault.FaultyRuns

/-!
# Failbacks that fail

A promotion that fails is cleaned up. A failback that fails is recorded, and that is all. Up to
the activation of the primary gateway nothing has been started at the primary site; from then
on the gateway stays active and the machines that were switched on stay on, whatever fails.

Which answers mean that a command took effect is left open, but for one that exited with zero.
Transactions may fail here, as may every request.
-/

namespace Immutavault.FailbackFailures

open Programs Values Timestamps Catalog Machine Configuration Histories StateDatabase
open RestoreEngine ResticRepository Adapters DROrchestrator DRNetwork FaultyRuns

section Parts

variable (engine : Engine)

/-- A confirmed failback up to its recorded run: an outcome when none is begun. -/
def beginFailback : Prog (Failback ⊕ (Nat × Nat × List WorkloadRow)) := do
  ensureEnabled engine
  match ← latestDrRun (some .failover) (some .success) with
  | none => return .inl .noActiveFailover
  | some last =>
    let active ← alreadyFailedOver
    if ¬ active then return .inl .noActiveFailover
    else
      let workloads ← listDrWorkloads last.1
      let run_id ← createDrRun .failback engine.cfg.dr.dr_site engine.cfg.dr.primary_site
        [("source_failover_run", .int last.1)]
      return .inr (run_id, last.1, workloads)

/-- The steps of a failback up to the activation of the primary gateway. -/
def vacate (run_id : Nat) (workloads : List WorkloadRow) : Prog (Dict × List Restored) := do
  let returned ← returnWorkloads engine run_id workloads
  switchOff engine workloads.reverse
  return returned

/-- A confirmed failback that is executed begins its run and goes on with it. -/
theorem failback_eq : failback engine true true = beginFailback engine >>= fun begun =>
    match begun with
    | .inl outcome => pure outcome
    | .inr (run_id, source_run, workloads) =>
      tryCatch (runFailback engine run_id source_run workloads) (abortFailback run_id) := by
  simp only [failback, beginFailback, bind_assoc]
  refine congrArg _ (funext fun _ => congrArg _ (funext fun latest => ?_))
  cases latest with
  | none => rfl
  | some last =>
    simp only [bind_assoc]
    refine congrArg _ (funext fun active => ?_)
    split
    · rfl
    · simp only [bind_assoc]
      rfl

/-- A failback vacates the recovery site, and starts the primary one. -/
theorem runFailback_eq (run_id source_run : Nat) (workloads : List WorkloadRow) :
    runFailback engine run_id source_run workloads =
      vacate engine run_id workloads >>= fun returned =>
        startPrimary engine run_id source_run returned.1 returned.2 := by
  simp only [runFailback, vacate, bind_assoc]
  rfl

/-- Until the primary gateway is activated, no machine is switched on. -/
theorem footprint_vacate (run_id : Nat) (workloads : List WorkloadRow) :
    Footprint (.ofPower false :: returnEffects engine) (vacate engine run_id workloads) := by
  refine footprint_bind ((footprint_returnWorkloads engine _ _).mono
    fun _ listed => List.mem_cons_of_mem _ listed) fun returned => ?_
  exact footprint_bind ((footprint_switchOff engine _).mono (by simp)) fun _ => footprint_pure _

end Parts

section Undoing

variable (engine : Engine) (Took : Exchange controller Exn → Prop)

/-- The request that activates a site. -/
def activation (net : NetworkManager) (site : DRSiteConfig) : External :=
  .run (.gateway site.name .activate (net.wrap site)) [] (some ("set -euo pipefail; " ++
    "; ".intercalate (net.enabledNetworks.flatMap
      (NetworkManager.activateCommands site.gateway)) ++ "\n"))

/-- What was started at the primary site has been undone: every machine that was switched on was
switched off after that, and an activated gateway was withdrawn. -/
structure Undone (start now : World) : Prop where
  switchedOff : ∀ (machine : Restored) (argv : List String) (settings : List (String × String))
    (report : Dict) (answer : Except Exn CommandResult),
    power machine.adapter engine.getenv machine.result true = .ok (argv, settings, report) →
    Took ⟨.request (.run (.power machine.adapter.name true argv) settings none), answer⟩ →
    Since start
      [⟨.request (.run (.power machine.adapter.name true argv) settings none), answer⟩] now →
    ∃ off others done last,
      power machine.adapter engine.getenv machine.result false = .ok (off, others, done) ∧
      Since start [⟨.request (.run (.power machine.adapter.name true argv) settings none), answer⟩,
        ⟨.request (.run (.power machine.adapter.name false off) others none), last⟩] now
  withdrawn : ∀ exchange : Exchange controller Exn,
    Command.effect exchange.1 = .ofGateway engine.cfg.dr.primary_site .activate →
    Took exchange → Since start [exchange] now →
    ∃ last : Exchange controller Exn,
      Command.effect last.1 = .ofGateway engine.cfg.dr.primary_site .deactivate ∧
      Since start [exchange, last] now

/-- An exchange that starts nothing at the primary site. -/
def Harmless (exchange : Exchange controller Exn) : Prop :=
  Command.effect exchange.1 ≠ .ofPower true ∧
    (Command.effect exchange.1 = .ofGateway engine.cfg.dr.primary_site .activate →
      ¬ Took exchange)

variable {engine Took} {α : Type} {env : Environment} {faults : Faults} {world after : World}

/-- When nothing was started there is nothing to undo. -/
theorem undone_of_harmless {start now : World} (only : Only (Harmless engine Took) start now) :
    Undone engine Took start now where
  switchedOff := by
    intro machine argv settings report answer _ _ since
    have harmless := only.since since _ (List.mem_singleton_self _)
    exact absurd rfl harmless.1
  withdrawn := by
    intro exchange activates took since
    have harmless := only.since since _ (List.mem_singleton_self _)
    exact absurd took (harmless.2 activates)

theorem harmless_ran {effects : List Effect} {program : Prog α} {outcome : Except Exn α}
    (footprint : Footprint effects program) (unpowered : .ofPower true ∉ effects)
    (unrouted : .ofGateway engine.cfg.dr.primary_site .activate ∉ effects)
    (ran : run (faulting env faults) program world = (outcome, after)) :
    Only (Harmless engine Took) world after := by
  refine (only_faulting footprint ran).mono fun exchange listed => ?_
  constructor
  · exact fun powers => unpowered (powers ▸ listed)
  · exact fun activates => absurd (activates ▸ listed) unrouted

/-- An activation asks once, and returns only when that exited with zero. -/
theorem activate_ran {net : NetworkManager} {name : String} {site : DRSiteConfig}
    {outcome : Except Exn Dict} (found : net.site name = .ok site)
    (ran : run (faulting env faults) (net.activate name false) world = (outcome, after)) :
    after = (env.handler (.request (activation net site)) world).2 ∧
      ∀ report, outcome = .ok report → ∃ result : CommandResult,
        env.answer world.log (activation net site) = .ok result ∧ result.returncode = 0 := by
  obtain ⟨answered, asked, clean⟩ := @run_checked env faults
    (.gateway site.name .activate (net.wrap site)) [] (some ("set -euo pipefail; " ++
      "; ".intercalate (net.enabledNetworks.flatMap
        (NetworkManager.activateCommands site.gateway)) ++ "\n")) world
  rw [NetworkManager.activate, found] at ran
  change run (faulting env faults) (runCommand (.gateway site.name .activate (net.wrap site)) []
    _ true >>= _) world = _ at ran
  rw [run_bind, asked] at ran
  cases answered with
  | error error =>
    cases ran
    exact ⟨rfl, fun _ impossible => by cases impossible⟩
  | ok result =>
    cases ran
    exact ⟨rfl, fun _ _ => ⟨result, clean result rfl⟩⟩

/-- What an activation asks has its effect. -/
theorem activation_effect {name : String} {site : DRSiteConfig}
    (found : (net engine).site name = .ok site) :
    Command.effect (.request (activation (net engine) site)) = .ofGateway name .activate := by
  rw [← NetworkManager.site_name found]
  rfl

/-- Starting the primary site starts nothing when the activation does not take effect. -/
theorem startPrimary_ran {run_id source_run : Nat} {final_points : Dict} {restored : List Restored}
    {exc : Exn}
    (zero : ∀ shell settings input_text (result : CommandResult), result.returncode = 0 →
      Took ⟨.request (.run shell settings input_text), .ok result⟩)
    (untaken : ∀ site, (net engine).site engine.cfg.dr.primary_site = .ok site →
      ¬ Took ⟨.request (activation (net engine) site),
        env.answer world.log (activation (net engine) site)⟩)
    (ran : run (faulting env faults) (startPrimary engine run_id source_run final_points restored)
      world = (.error exc, after)) : Only (Harmless engine Took) world after := by
  cases found : (net engine).site engine.cfg.dr.primary_site with
  | error error =>
    rw [startPrimary, NetworkManager.activate, found] at ran
    cases ran
    exact Only.refl _ _
  | ok site =>
    rcases activating : run (faulting env faults)
      ((net engine).activate engine.cfg.dr.primary_site false) world with ⟨outcome, active⟩
    obtain ⟨reached, clean⟩ := activate_ran found activating
    cases outcome with
    | ok report =>
      obtain ⟨result, answered, exited⟩ := clean report rfl
      refine absurd ?_ (untaken site found)
      rw [answered]
      exact zero _ _ _ _ exited
    | error error =>
      rw [startPrimary, run_bind, activating] at ran
      cases ran
      refine ⟨_, congrArg World.log reached, fun exchange member => ?_⟩
      rw [List.mem_singleton.mp member]
      refine ⟨?_, fun _ => untaken site found⟩
      rw [activation_effect found]
      exact fun impossible => by cases impossible

/-- Starting the primary site begins with the activation of its gateway. -/
theorem startPrimary_activates {run_id source_run : Nat} {final_points : Dict}
    {restored : List Restored} {outcome : Except Exn Failback} {site : DRSiteConfig}
    (found : (net engine).site engine.cfg.dr.primary_site = .ok site)
    (ran : run (faulting env faults) (startPrimary engine run_id source_run final_points restored)
      world = (outcome, after)) :
    Since world [⟨.request (activation (net engine) site),
      env.answer world.log (activation (net engine) site)⟩] after := by
  rcases activating : run (faulting env faults)
    ((net engine).activate engine.cfg.dr.primary_site false) world with ⟨activated, active⟩
  have shown : Since world [⟨.request (activation (net engine) site),
      env.answer world.log (activation (net engine) site)⟩] active := by
    rw [(activate_ran found activating).1]
    exact (Since.refl world).exchange _
  rw [startPrimary, run_bind, activating] at ran
  cases activated with
  | error error =>
    cases ran
    exact shown
  | ok report => exact since_faulting shown ran

/-- A failback that raises after its run was recorded has undone what it started at the primary
site exactly when it did not come to an activation of the primary gateway that took effect. -/
theorem failback_undone {begun final : World} {run_id source_run : Nat} {rows : List WorkloadRow}
    {error : Exn}
    (zero : ∀ shell settings input_text (result : CommandResult), result.returncode = 0 →
      Took ⟨.request (.run shell settings input_text), .ok result⟩)
    (started : run (faulting env faults) (beginFailback engine) world =
      (.ok (.inr (run_id, source_run, rows)), begun))
    (raised : run (faulting env faults) (failback engine true true) world =
      (.error error, final)) :
    Undone engine Took begun final ↔
      ∀ returned off site, run (faulting env faults) (vacate engine run_id rows) begun =
          (.ok returned, off) →
        (net engine).site engine.cfg.dr.primary_site = .ok site →
          ¬ Took ⟨.request (activation (net engine) site),
            env.answer off.log (activation (net engine) site)⟩ := by
  rw [failback_eq, run_bind, started] at raised
  dsimp only at raised
  rw [run_tryCatch] at raised
  rcases ran : run (faulting env faults) (runFailback engine run_id source_run rows) begun with
    ⟨outcome, failed⟩
  rw [ran] at raised
  cases outcome with
  | ok result => cases raised
  | error exc =>
    dsimp only at raised
    rw [runFailback_eq, run_bind] at ran
    have aborted := footprint_abortFailback run_id exc
    rcases vacated : run (faulting env faults) (vacate engine run_id rows) begun with
      ⟨outcome, off⟩
    rw [vacated] at ran
    have unopened : Only (Harmless engine Took) begun off :=
      harmless_ran (footprint_vacate engine _ _) (by simp [returnEffects])
        (by simp [returnEffects]) vacated
    have recorded : Only (Harmless engine Took) failed final :=
      harmless_ran aborted (by simp) (by simp) raised
    cases outcome with
    | error error =>
      cases ran
      refine iff_of_true (undone_of_harmless (unopened.trans recorded)) ?_
      intro returned off site impossible
      cases impossible
    | ok returned =>
      dsimp only at ran
      constructor
      · intro undone returned off site same found took
        cases same
        have begun_off := since_faulting (Since.refl begun) vacated
        obtain ⟨later, grown, _⟩ := begun_off
        have shown := ((startPrimary_activates found ran).earlier ⟨later, grown.symm⟩)
        obtain ⟨last, withdraws, both⟩ := undone.withdrawn _ (activation_effect found) took
          (since_faulting shown raised)
        have early : Only (fun exchange => Command.effect exchange.1 ∈
            .ofPower false :: returnEffects engine) begun off :=
          only_faulting (footprint_vacate engine _ _) vacated
        have late : Only (fun exchange => Command.effect exchange.1 ≠
            .ofGateway engine.cfg.dr.primary_site .deactivate) off final := by
          refine ((only_faulting (footprint_startPrimary engine _ _ _ _) ran).mono ?_).trans
            ((only_faulting aborted raised).mono ?_)
          · exact fun exchange listed same => by simp [same] at listed
          · exact fun exchange listed same => by simp [same] at listed
        refine early.later late both ?_ withdraws
        rw [activation_effect found]
        simp [returnEffects]
      · intro untaken
        exact undone_of_harmless ((unopened.trans
          (startPrimary_ran zero (fun site => untaken returned off site rfl) ran)).trans recorded)

/-- A command that was run and exited with zero. -/
def exitedZero : Exchange controller Exn → Bool
  | ⟨.request (.run _ _ _), .ok (result : CommandResult)⟩ => result.returncode = 0
  | _ => false

/-- An engine whose workload is checked once when it was switched on. -/
def checked : Engine :=
  { recovery with cfg := { recovery.cfg with
      dr := { recovery.cfg.dr with
        workloads := [{
          name := "web", source_platform := "pve", target_platform := "pve-dr"
          health_checks := [{ host := some "192.0.2.10", port := some 443, attempts := 1 }] }] } } }

/-- The world after a successful promotion. -/
def promoted : World :=
  (run cooperative.handler (promote checked true true false) ⟨replicated, 0, []⟩).2

/-- A cooperative world in which no machine becomes healthy. -/
def unhealthy : Environment where
  answer := fun log external =>
    match external with
    | .healthCheck _ => .ok ⟨false, []⟩
    | external => cooperative.answer log external
  elapsed := cooperative.elapsed

/-- One in which no machine can be switched off either. -/
def stuck : Environment where
  answer := fun log external =>
    match external with
    | .run (.power _ false _) _ _ => .error ⟨.timeoutExpired, "timed out"⟩
    | external => unhealthy.answer log external
  elapsed := cooperative.elapsed

/-- A failback that cannot switch the machines of the recovery site off has nothing to undo. -/
theorem failback_undone_stuck : Undone checked (exitedZero · = true)
    (run (faulting stuck never) (beginFailback checked) promoted).2
    (run (faulting stuck never) (failback checked true true) promoted).2 := by
  obtain ⟨run_id, source_run, rows, begun, error, final, started, raised, halted⟩ :
      ∃ run_id source_run rows begun error final,
        run (faulting stuck never) (beginFailback checked) promoted =
          (.ok (.inr (run_id, source_run, rows)), begun) ∧
        run (faulting stuck never) (failback checked true true) promoted = (.error error, final) ∧
        (run (faulting stuck never) (vacate checked run_id rows) begun).1.isOk = false :=
    ⟨_, _, _, _, _, _, rfl, rfl, rfl⟩
  have zero : ∀ shell settings input_text (result : CommandResult), result.returncode = 0 →
      exitedZero ⟨.request (.run shell settings input_text), .ok result⟩ = true :=
    fun _ _ _ _ clean => decide_eq_true clean
  rw [started, raised]
  refine (failback_undone zero started raised).mpr fun returned off site vacated => ?_
  rw [vacated] at halted
  cases halted

/-- A gateway that was activated and is not withdrawn after that is not undone. -/
theorem not_undone {start now : World} {later : History} (split : now.log = start.log ++ later)
    (active : ∃ exchange ∈ later, Command.effect exchange.1 =
      .ofGateway engine.cfg.dr.primary_site .activate ∧ Took exchange)
    (last : ¬ [Effect.ofGateway engine.cfg.dr.primary_site .activate,
      .ofGateway engine.cfg.dr.primary_site .deactivate].Sublist
        (later.map fun exchange => Command.effect exchange.1)) :
    ¬ Undone engine Took start now := by
  intro undone
  obtain ⟨exchange, member, activates, took⟩ := active
  obtain ⟨other, withdraws, listed, grown, inside⟩ := undone.withdrawn exchange activates took
    ⟨later, split, List.singleton_sublist.mpr member⟩
  have same : listed = later := List.append_cancel_left (grown.symm.trans split)
  have shown := inside.map fun exchange : Exchange controller Exn => Command.effect exchange.1
  rw [same, List.map_cons, List.map_singleton, activates, withdraws] at shown
  exact last shown

/-- What the failback below leaves in the history. -/
def leftBehind : History :=
  (run (faulting unhealthy never) (failback checked true true) promoted).2.log.drop
    promoted.log.length

/-- A primary copy that does not become healthy stays on, and the primary gateway active. -/
theorem primary_left_active :
    (run (faulting unhealthy never) (failback checked true true) promoted).1.isOk = false ∧
      Effect.ofPower true ∈ leftBehind.map (fun exchange => Command.effect exchange.1) ∧
      ¬ [Effect.ofPower true, .ofPower false].Sublist
        (leftBehind.map fun exchange => Command.effect exchange.1) ∧
      ¬ Undone checked (exitedZero · = true) promoted
        (run (faulting unhealthy never) (failback checked true true) promoted).2 := by
  refine ⟨by decide, by decide, by decide, ?_⟩
  have active : ∃ exchange ∈ leftBehind, Command.effect exchange.1 =
      .ofGateway "primary" .activate ∧ exitedZero exchange = true := by decide
  have last : ¬ [Effect.ofGateway "primary" .activate, .ofGateway "primary" .deactivate].Sublist
      (leftBehind.map fun exchange => Command.effect exchange.1) := by decide
  rcases ran : run (faulting unhealthy never) (failback checked true true) promoted with
    ⟨outcome, final⟩
  obtain ⟨later, split, _⟩ := only_faulting (issues_all _ fun _ => trivial) ran
  have same : leftBehind = later := by rw [leftBehind, ran, split, List.drop_left]
  exact not_undone split (same ▸ active) (same ▸ last)

end Undoing

end Immutavault.FailbackFailures
