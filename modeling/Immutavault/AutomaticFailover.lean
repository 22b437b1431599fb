import Mathlib.Data.List.Chain
import Mathlib.Data.List.DropRight
import Immutavault.HealthProbes

/-!
# Automatic failover

The primary site is evaluated again and again, and a promotion is called when it failed often
enough. The count of failures is kept in the catalogue, and so is the time of the last
evaluation, which an interval longer than a minute is measured from.

A history lists the evaluations whose probes returned, oldest first. What the catalogue keeps
is read off the history: the count is the length of its last run of failed evaluations. A
promotion is called only at the end of such a run.

Between two calls the rest of the program does as it likes, provided that it leaves the health
of the primary site alone. The promotion itself does so.
-/

namespace Immutavault.AutomaticFailover

open Programs Values Timestamps Catalog Machine Configuration Histories StateDatabase
open RestoreEngine ResticRepository DROrchestrator DRNetwork HealthProbes

section Deliberation

variable (engine : Engine)

/-- A watch up to its promotion: an outcome when none is called. -/
def deliberate : Prog (Watch ⊕ HealthRow) := do
  match ← round engine with
  | some outcome => return .inl outcome
  | none =>
    let state ← evaluatePrimary engine
    if state.healthy ∨ state.consecutive_failures < engine.cfg.dr.failure_threshold ∨
        ¬ engine.cfg.dr.auto_failover then
      return .inl (.observed state)
    else
      let active ← alreadyFailedOver
      if active then return .inl (.alreadyFailedOver state) else return .inr state

/-- A watch calls a promotion exactly when it is deliberated so. -/
theorem watch_deliberates : watch engine = deliberate engine >>= fun outcome =>
    match outcome with
    | .inl outcome => pure outcome
    | .inr state => do
      let promotion ← promote engine true false true
      return .promoted state promotion := by
  rw [watch_eq, deliberate, bind_assoc]
  refine congrArg _ (funext fun outcome => ?_)
  cases outcome with
  | some outcome => rfl
  | none =>
    simp only [bind_assoc]
    refine congrArg _ (funext fun state => ?_)
    rw [react]
    split
    · rfl
    · simp only [bind_assoc]
      refine congrArg _ (funext fun active => ?_)
      split <;> rfl

/-- A program that leaves the recorded health alone, whatever is answered. -/
def Unrecording {α : Type} (program : Prog α) : Prop :=
  Issues (fun command : controller.Command => Command.effect command ≠ .writing .health) program

variable {engine} {α : Type} {env : Environment} {world after : World}

theorem unrecording_footprint {effects : List Effect} {program : Prog α}
    (footprint : Footprint effects program) (absent : .writing .health ∉ effects) :
    Unrecording program :=
  issues_mono footprint fun _ listed written => absent (written ▸ listed)

/-- A run of such a program leaves the recorded health as it was. -/
theorem health_ran {program : Prog α} {outcome : Except Exn α} (unrecording : Unrecording program)
    (ran : run env.handler program world = (outcome, after)) :
    after.db.health = world.db.health := by
  have kept : (run env.handler program world).2.db.health = world.db.health := by
    have step : ∀ (command : Command) (now : World), command.effect ≠ .writing .health →
        now.db.health = world.db.health →
          (env.handler command now).2.db.health = world.db.health :=
      fun command now other same => (commit_same now.db other).trans same
    exact @issues_run controller Exn α World _ env.handler program
      (fun now => now.db.health = world.db.health) unrecording step world rfl
  rwa [ran] at kept

theorem unrecording_runPromotion (run_id : Nat) (plan : DRPlan) :
    Unrecording (runPromotion engine run_id plan) := by
  have aborting (restored : List Restored) (exc : Exn) :
      Unrecording (abortPromotion engine run_id restored exc) :=
    unrecording_footprint (footprint_abortPromotion engine _ _ _) (by simp)
  refine issues_bind (issues_attempt
    (unrecording_footprint (footprint_prepareSites engine) (by simp))) fun outcome => ?_
  cases outcome with
  | error exc => exact aborting _ _
  | ok started =>
    refine issues_bind (unrecording_footprint (footprint_restoreWorkloads engine _ _ _ _)
      (by simp [restoreEffects])) fun restored => ?_
    obtain ⟨restored, failed⟩ := restored
    cases failed with
    | some exc => exact aborting _ _
    | none =>
      exact issues_tryCatch (unrecording_footprint (footprint_completePromotion engine _ _)
        (by simp)) fun exc => aborting _ _

/-- A promotion leaves the recorded health alone. -/
theorem unrecording_promote (execute confirmed automatic : Bool) :
    Unrecording (promote engine execute confirmed automatic) := by
  refine issues_bind (unrecording_footprint (footprint_ensureEnabled engine []) (by simp))
    fun _ => ?_
  refine issues_bind (unrecording_footprint (footprint_plan engine) (by simp)) fun plan => ?_
  dsimp only
  split
  · exact issues_pure _
  · refine issues_bind (unrecording_footprint footprint_alreadyFailedOver (by simp))
      fun active => ?_
    split
    · exact issues_pure _
    · split
      · exact issues_throw _
      · refine issues_bind (unrecording_footprint (footprint_preflight engine plan) (by simp))
          fun preflight => ?_
        split
        · exact issues_throw _
        · refine issues_bind (unrecording_footprint (footprint_fencePrimary engine _ _) (by simp))
            fun _ => ?_
          refine issues_bind (unrecording_footprint (footprint_createDrRun _ _ _ _) (by simp))
            fun run_id => ?_
          exact unrecording_runPromotion run_id plan

/-- So does what a watch does with an evaluation. -/
theorem unrecording_react (state : HealthRow) : Unrecording (react engine state) := by
  unfold react
  split
  · exact issues_pure _
  · refine issues_bind (unrecording_footprint footprint_alreadyFailedOver (by simp))
      fun active => ?_
    split
    · exact issues_pure _
    · exact issues_bind (unrecording_promote _ _ _) fun _ => issues_pure _

/-- A watch leaves the recorded health alone until it evaluates. -/
theorem unrecording_round : Unrecording (round engine) := by
  have asking : Footprint [.outside] (request (.pathExists engine.cfg.dr.maintenance_file)) :=
    footprint_request (by simp [Command.effect])
  refine issues_bind (unrecording_footprint (footprint_ensureEnabled engine []) (by simp))
    fun _ => ?_
  refine issues_bind (unrecording_footprint asking (by simp)) fun maintenance => ?_
  dsimp only
  split
  · exact issues_pure _
  · have reading : Footprint [.silent] (getDrHealth "primary-site") :=
      footprint_reading rfl (by simp)
    refine issues_bind (unrecording_footprint reading (by simp)) fun previous => ?_
    refine issues_bind (unrecording_footprint (footprint_waitingTime engine _) (by simp))
      fun waiting => ?_
    split <;> exact issues_pure _

/-- Nothing is left to wait for only after the interval, when that is longer than a minute. -/
theorem waitingTime_ran {row : HealthRow}
    (ran : run env.handler (waitingTime engine (some row)) world = (.ok none, after))
    (long : 60 < engine.cfg.dr.check_interval_seconds) :
    row.checked_at + engine.cfg.dr.check_interval_seconds * second ≤ world.clock := by
  rw [waitingTime] at ran
  dsimp only at ran
  rw [if_neg (Nat.not_le.mpr long), run_utcnow_bind] at ran
  dsimp only at ran
  split at ran
  · cases ran
  · rename_i waited
    have age : (row.checked_at : Int) + engine.cfg.dr.check_interval_seconds * second ≤
        world.clock := by omega
    exact_mod_cast age

/-- A watch that is due is not under maintenance, and waited for the interval, when that is
longer than a minute. -/
theorem due_ran {due : World} (ran : run env.handler (round engine) world = (.ok none, due)) :
    env.answer world.log (.pathExists engine.cfg.dr.maintenance_file) = .ok false ∧
      due.db.health = world.db.health ∧ world.clock ≤ due.clock ∧
      ∀ row, world.db.health.lookup "primary-site" = some row →
        60 < engine.cfg.dr.check_interval_seconds →
          row.checked_at + engine.cfg.dr.check_interval_seconds * second ≤ due.clock := by
  have kept : due.db.health = world.db.health := health_ran unrecording_round ran
  have passed : world.clock ≤ due.clock := clock_ran ran
  obtain ⟨_, begun, enabled, rest⟩ := (run_bind_eq_ok _).mp ran
  obtain rfl := run_ensureEnabled enabled
  obtain ⟨maintenance, answered, rest⟩ := run_request_bind rest
  cases maintenance with
  | true => cases rest
  | false =>
    refine ⟨answered, kept, passed, fun row stored long => ?_⟩
    obtain ⟨previous, selected, reading, rest⟩ := (run_bind_eq_ok _).mp rest
    obtain ⟨read, _⟩ := transact_ran reading
    have same : previous = some row := read.symm.trans stored
    subst same
    obtain ⟨waiting, waited, timing, rest⟩ := (run_bind_eq_ok _).mp rest
    cases waiting with
    | some pair => cases rest
    | none =>
      obtain rfl : waited = due := congrArg Prod.snd rest
      exact (waitingTime_ran timing long).trans (clock_ran timing)

end Deliberation

section Sequences

/-- An evaluation whose probes returned: what was answered about maintenance when the watch was
called, the results, and when the probes began and returned. -/
structure Evaluation where
  maintenance : Except Exn Bool
  results : List ProbeResult
  started : Timestamp
  finished : Timestamp

variable (engine : Engine)

/-- The evaluation that a watch makes, when it makes one. -/
def evaluationOf (env : Environment) (world : World) : Option Evaluation :=
  match run env.handler (round engine) world with
  | (.ok none, due) =>
    match run env.handler (probeAll engine.cfg.dr.primary_probes) due with
    | (.ok results, returned) => some {
        maintenance := env.answer world.log (.pathExists engine.cfg.dr.maintenance_file)
        results := results, started := due.clock, finished := returned.clock }
    | _ => none
  | _ => none

/-- At least the quorum of the probes failed. -/
def Unhealthy (evaluation : Evaluation) : Prop :=
  failureQuorum engine evaluation.results ≤ evaluation.results.countP fun item => ¬ item.ok

instance : DecidablePred (Unhealthy engine) := fun evaluation => by
  unfold Unhealthy
  infer_instance

/-- The last evaluations, as far back as they are unhealthy. -/
def trailing (evaluations : List Evaluation) : List Evaluation :=
  evaluations.rtakeWhile fun evaluation => Unhealthy engine evaluation

/-- Probes begin an interval after those before them returned. -/
def Spaced (earlier later : Evaluation) : Prop :=
  earlier.finished + engine.cfg.dr.check_interval_seconds * second ≤ later.started

/-- States that are reached by watches, one after another, with the evaluations that they made,
oldest first. Nothing is recorded at first. Between two watches anything may happen that leaves
the health of the primary site alone, and each watch meets a world of its own. -/
inductive Watched : List Evaluation → World → Prop
  | unrecorded {world : World} (fresh : world.db.health.lookup "primary-site" = none) :
    Watched [] world
  | passing {evaluations : List Evaluation} {before after : World}
    (watched : Watched evaluations before)
    (kept : after.db.health.lookup "primary-site" = before.db.health.lookup "primary-site") :
    Watched evaluations after
  | call {evaluations : List Evaluation} {world : World} (env : Environment)
    (watched : Watched evaluations world) :
    Watched (evaluations ++ (evaluationOf engine env world).toList)
      (run env.handler (watch engine) world).2

/-- What the history of the evaluations says about the state they lead to. -/
structure Tracked (evaluations : List Evaluation) (world : World) : Prop where
  quiet : ∀ evaluation ∈ evaluations, evaluation.maintenance = .ok false
  spaced : 60 < engine.cfg.dr.check_interval_seconds → evaluations.IsChain (Spaced engine)
  unrecorded : world.db.health.lookup "primary-site" = none ↔ evaluations = []
  counted : ∀ row, world.db.health.lookup "primary-site" = some row →
    row.consecutive_failures = (trailing engine evaluations).length
  finished : ∀ row, world.db.health.lookup "primary-site" = some row →
    ∀ evaluation ∈ evaluations.getLast?, evaluation.finished ≤ row.checked_at

/-- A promotion is warranted when it is automatic, and the last evaluations, as many as the
threshold says and this one among them, were unhealthy, not under maintenance, and spaced when
the interval is longer than a minute. -/
structure Warranted (evaluations : List Evaluation) : Prop where
  automatic : engine.cfg.dr.auto_failover = true
  failed : ∃ earlier latest, evaluations = earlier ++ latest ∧ latest ≠ [] ∧
    engine.cfg.dr.failure_threshold ≤ latest.length ∧
    (∀ evaluation ∈ latest, Unhealthy engine evaluation ∧ evaluation.maintenance = .ok false) ∧
    (60 < engine.cfg.dr.check_interval_seconds → latest.IsChain (Spaced engine))

variable {engine} {env : Environment} {world after : World} {evaluations : List Evaluation}

/-- The evaluation of a watch that is due and whose probes return. -/
theorem evaluationOf_due {due returned : World} {results : List ProbeResult}
    (rounded : run env.handler (round engine) world = (.ok none, due))
    (probing : run env.handler (probeAll engine.cfg.dr.primary_probes) due =
      (.ok results, returned)) :
    evaluationOf engine env world = some {
      maintenance := env.answer world.log (.pathExists engine.cfg.dr.maintenance_file)
      results := results, started := due.clock, finished := returned.clock } := by
  rw [evaluationOf, rounded]
  dsimp only
  rw [probing]

/-- A watch that makes no evaluation leaves the recorded health alone; one that makes an
evaluation records it, and nothing after that. -/
theorem watch_cases (engine : Engine) (env : Environment) (world : World) :
    (evaluationOf engine env world = none ∧
      (run env.handler (watch engine) world).2.db.health = world.db.health) ∨
    ∃ due returned results row evaluated,
      run env.handler (round engine) world = (.ok none, due) ∧
      evaluationOf engine env world = some {
        maintenance := env.answer world.log (.pathExists engine.cfg.dr.maintenance_file)
        results := results, started := due.clock, finished := returned.clock } ∧
      Evaluated engine due results returned row evaluated ∧
      (run env.handler (watch engine) world).2.db.health = evaluated.db.health := by
  rcases ran : run env.handler (round engine) world with ⟨outcome, due⟩
  have kept : due.db.health = world.db.health := health_ran unrecording_round ran
  rw [watch_eq, run_bind, ran]
  cases outcome with
  | error error => exact Or.inl ⟨by rw [evaluationOf, ran], kept⟩
  | ok outcome =>
    cases outcome with
    | some outcome => exact Or.inl ⟨by rw [evaluationOf, ran], kept⟩
    | none =>
      dsimp only
      rcases probing : run env.handler (probeAll engine.cfg.dr.primary_probes) due with
        ⟨results, returned⟩
      cases results with
      | error error =>
        have still : returned.db = due.db := db_ran (footprint_probeAll _) (by simp) probing
        rw [run_bind, evaluatePrimary_raises probing]
        exact Or.inl ⟨by rw [evaluationOf, ran]; dsimp only; rw [probing], by rw [still, kept]⟩
      | ok results =>
        obtain ⟨row, read, evaluated, evaluating, recorded⟩ := evaluated_of_probeAll probing
        refine Or.inr ⟨due, returned, results, row, evaluated, rfl,
          evaluationOf_due ran probing, recorded, ?_⟩
        rw [run_bind, evaluating]
        exact health_ran (unrecording_react _) rfl

/-- An evaluation is unhealthy exactly when it is recorded so. -/
theorem unhealthy_iff {due returned evaluated : World} {evaluation : Evaluation} {row : HealthRow}
    (recorded : Evaluated engine due evaluation.results returned row evaluated) :
    Unhealthy engine evaluation ↔ row.healthy = false := by
  rw [recorded.healthy, decide_eq_false_iff_not, Nat.not_lt]
  rfl

/-- The count that is recorded with an evaluation is the length of the trailing run. -/
theorem counted_next {due returned evaluated : World} {evaluation : Evaluation} {row : HealthRow}
    (tracked : Tracked engine evaluations world) (kept : due.db.health = world.db.health)
    (recorded : Evaluated engine due evaluation.results returned row evaluated) :
    row.consecutive_failures = (trailing engine (evaluations ++ [evaluation])).length := by
  rw [recorded.failures, kept, trailing]
  by_cases unhealthy : Unhealthy engine evaluation
  · rw [(unhealthy_iff recorded).mp unhealthy, List.rtakeWhile_concat_pos _ _ _ (by simpa),
      List.length_append]
    cases previous : world.db.health.lookup "primary-site" with
    | none =>
      rw [tracked.unrecorded.mp previous]
      rfl
    | some earlier =>
      have counted := tracked.counted earlier previous
      simp only [failuresAfter, Bool.false_eq_true, if_false, Option.map_some, Option.getD_some,
        List.length_singleton, counted]
      rfl
  · have healthy : row.healthy = true := by
      simpa using mt (unhealthy_iff recorded).mpr unhealthy
    rw [healthy, List.rtakeWhile_concat_neg _ _ _ (by simpa)]
    rfl

/-- A watch keeps the history up to date. -/
theorem tracked_watch (env : Environment) (tracked : Tracked engine evaluations world) :
    Tracked engine (evaluations ++ (evaluationOf engine env world).toList)
      (run env.handler (watch engine) world).2 := by
  rcases watch_cases engine env world with ⟨unmade, kept⟩ |
    ⟨due, returned, results, row, evaluated, ran, made, recorded, health⟩
  · rw [unmade, Option.toList_none, List.append_nil]
    exact {
      quiet := tracked.quiet
      spaced := tracked.spaced
      unrecorded := by rw [kept]; exact tracked.unrecorded
      counted := by rw [kept]; exact tracked.counted
      finished := by rw [kept]; exact tracked.finished }
  · obtain ⟨calm, same, _, waited⟩ := due_ran ran
    have stored : (run env.handler (watch engine) world).2.db.health.lookup "primary-site" =
        some row := by
      rw [health, recorded.stored]
      exact (Tables.Keyed.lookup_store _ _ _ _).trans (if_pos rfl)
    rw [made, Option.toList_some]
    exact {
      quiet := by
        refine List.forall_mem_append.mpr ⟨tracked.quiet, ?_⟩
        exact List.forall_mem_singleton.mpr calm
      spaced := by
        intro long
        refine (tracked.spaced long).append (List.isChain_singleton _) ?_
        intro last member first same
        obtain rfl := Option.some.inj same
        cases previous : world.db.health.lookup "primary-site" with
        | none =>
          rw [tracked.unrecorded.mp previous] at member
          cases member
        | some earlier =>
          have finished := tracked.finished earlier previous last member
          exact (Nat.add_le_add_right finished _).trans (waited earlier previous long)
      unrecorded := by
        rw [stored]
        exact iff_of_false (by simp) (by simp)
      counted := by
        intro other found
        obtain rfl := Option.some.inj (stored.symm.trans found)
        exact @counted_next _ _ _ due returned evaluated ⟨_, results, _, _⟩ _ tracked same recorded
      finished := by
        intro other found last member
        obtain rfl := Option.some.inj (stored.symm.trans found)
        rw [List.getLast?_concat] at member
        obtain rfl := Option.some.inj member
        exact recorded.late }

theorem tracked_watched (watched : Watched engine evaluations world) :
    Tracked engine evaluations world := by
  induction watched with
  | unrecorded fresh =>
    have absent (row : HealthRow) (found : _ = some row) : False :=
      Option.some_ne_none row (found.symm.trans fresh)
    exact {
      quiet := fun _ member => absurd member List.not_mem_nil
      spaced := fun _ => List.isChain_nil
      unrecorded := iff_of_true fresh rfl
      counted := fun row found => (absent row found).elim
      finished := fun row found => (absent row found).elim }
  | passing watched kept tracked =>
    exact {
      quiet := tracked.quiet
      spaced := tracked.spaced
      unrecorded := by rw [kept]; exact tracked.unrecorded
      counted := by rw [kept]; exact tracked.counted
      finished := by rw [kept]; exact tracked.finished }
  | call env watched tracked => exact tracked_watch env tracked

/-- What a watch knows when it calls a promotion. -/
theorem deliberate_calls {state : HealthRow}
    (ran : run env.handler (deliberate engine) world = (.ok (.inr state), after)) :
    ∃ due evaluated, run env.handler (round engine) world = (.ok none, due) ∧
      run env.handler (evaluatePrimary engine) due = (.ok state, evaluated) ∧
      state.healthy = false ∧ engine.cfg.dr.failure_threshold ≤ state.consecutive_failures ∧
      engine.cfg.dr.auto_failover = true := by
  obtain ⟨outcome, due, rounded, rest⟩ := (run_bind_eq_ok _).mp ran
  cases outcome with
  | some outcome => cases rest
  | none =>
    obtain ⟨state, evaluated, evaluating, rest⟩ := (run_bind_eq_ok _).mp rest
    split at rest
    · cases rest
    · rename_i failing
      push Not at failing
      obtain ⟨active, idle, _, rest⟩ := (run_bind_eq_ok _).mp rest
      cases active with
      | true => cases rest
      | false =>
        cases rest
        exact ⟨due, evaluated, rounded, evaluating, by simpa using failing⟩

/-- An evaluation that returned is the one that the watch makes. -/
theorem evaluation_made {due evaluated : World} {state : HealthRow}
    (rounded : run env.handler (round engine) world = (.ok none, due))
    (evaluating : run env.handler (evaluatePrimary engine) due = (.ok state, evaluated)) :
    ∃ evaluation returned row read, evaluationOf engine env world = some evaluation ∧
      state = { row with checked_at := read } ∧
      Evaluated engine due evaluation.results returned row evaluated := by
  rcases probing : run env.handler (probeAll engine.cfg.dr.primary_probes) due with
    ⟨results, returned⟩
  cases results with
  | error error =>
    rw [evaluatePrimary_raises probing] at evaluating
    cases evaluating
  | ok results =>
    obtain ⟨row, read, after, ran, recorded⟩ := evaluated_of_probeAll probing
    cases evaluating.symm.trans ran
    exact ⟨_, returned, row, read, evaluationOf_due rounded probing, rfl, recorded⟩

/-- Over every sequence of watches, the count that is stored is the length of the trailing run
of unhealthy evaluations, and a promotion is called only when it is warranted. -/
theorem failover_warranted (watched : Watched engine evaluations world) :
    ((world.db.health.lookup "primary-site" = none ↔ evaluations = []) ∧
      ∀ row, world.db.health.lookup "primary-site" = some row →
        row.consecutive_failures = (trailing engine evaluations).length) ∧
    ∀ (env : Environment) (state : HealthRow) (after : World),
      run env.handler (deliberate engine) world = (.ok (.inr state), after) →
        Warranted engine (evaluations ++ (evaluationOf engine env world).toList) := by
  have tracked := tracked_watched watched
  refine ⟨⟨tracked.unrecorded, tracked.counted⟩, fun env state after called => ?_⟩
  obtain ⟨due, evaluated, rounded, evaluating, failed, reached, automatic⟩ :=
    deliberate_calls called
  obtain ⟨evaluation, returned, row, read, made, rfl, recorded⟩ :=
    evaluation_made rounded evaluating
  have following := tracked_watch env tracked
  rw [made, Option.toList_some] at following ⊢
  have counted := counted_next tracked (due_ran rounded).2.1 recorded
  have unhealthy : Unhealthy engine evaluation := (unhealthy_iff recorded).mpr failed
  obtain ⟨earlier, split⟩ : trailing engine (evaluations ++ [evaluation]) <:+
    evaluations ++ [evaluation] := List.rtakeWhile_suffix _ _
  refine ⟨automatic, earlier, _, split.symm, ?_, counted ▸ reached, ?_, ?_⟩
  · rw [trailing, List.rtakeWhile_concat_pos _ _ _ (by simpa)]
    exact List.append_ne_nil_of_right_ne_nil _ (List.cons_ne_nil _ _)
  · intro member listed
    have inside : member ∈ evaluations ++ [evaluation] := split ▸ List.mem_append_right _ listed
    exact ⟨by simpa using List.mem_rtakeWhile_imp listed, following.quiet member inside⟩
  · exact fun long => (following.spaced long).suffix ⟨earlier, split⟩

/-- A world without maintenance, in which no probe succeeds. -/
def failing : Environment where
  answer := fun _ external =>
    match external with
    | .pathExists _ => .ok false
    | .healthCheck _ => .ok ⟨false, []⟩
    | external => .ok (Environment.favourable external)
  elapsed := fun _ _ => second

/-- An engine that fails over when two evaluations, two minutes apart, have failed. -/
def alarmed : Engine :=
  { recovery with cfg := { recovery.cfg with
      dr := { recovery.cfg.dr with
        auto_failover := true, failure_threshold := 2, check_interval_seconds := 120
        primary_probes := [{ host := some "gw", port := some 22 }] } } }

/-- The state after a first evaluation that failed, two minutes later. -/
def failedOnce : World :=
  let once := (run failing.handler (watch alarmed) { db := {}, clock := 0 }).2
  { once with clock := once.clock + 120 * second }

/-- The second evaluation calls a promotion. -/
theorem failover_warranted_twice : Warranted alarmed
    ((evaluationOf alarmed failing { db := {}, clock := 0 }).toList ++
      (evaluationOf alarmed failing failedOnce).toList) := by
  have once := Watched.call failing (@Watched.unrecorded alarmed { db := {}, clock := 0 } rfl)
  have watched : Watched alarmed _ failedOnce := .passing once rfl
  exact (failover_warranted watched).2 failing _ _ rfl

end Sequences

end Immutavault.AutomaticFailover
