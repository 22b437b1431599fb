import Immutavault.PromotionSafety

/-!
# Which machine a plan means after a failback

A plan finds the recovery point of a workload by the name of the machine in the
points of the workload's source platform. A failback creates the primary copy
under a name of its own, made of the workload's name and the time of the
restore. The two names never agree, so the points that are taken of the primary
copy are never the ones that a later plan selects.

What a later plan selects is therefore a point of some other machine: of the one
that carries the workload's own name, which is the machine from before the
failover. The plan names a machine of the failback only where it names none.
-/

namespace Immutavault.FailbackIdentity

open Programs Values Timestamps Catalog Machine Histories Configuration StateDatabase
open RestoreEngine Adapters DROrchestrator PromotionSafety

section Pairs

variable {α β : Type} {relation : α → β → Prop} {left : List α} {right : List β}

/-- What stands on the left of a pairing is related to something on the right. -/
theorem related_right (pairs : List.Forall₂ relation left right) {first : α}
    (member : first ∈ left) : ∃ second ∈ right, relation first second := by
  induction pairs with
  | nil => cases member
  | cons related _ inductionHypothesis =>
    rcases List.mem_cons.mp member with rfl | later
    · exact ⟨_, List.mem_cons_self, related⟩
    · obtain ⟨second, listed, related⟩ := inductionHypothesis later
      exact ⟨second, List.mem_cons_of_mem _ listed, related⟩

theorem related_left (pairs : List.Forall₂ relation left right) {second : β}
    (member : second ∈ right) : ∃ first ∈ left, relation first second :=
  related_right pairs.flip member

end Pairs

section Selection

variable {env : Environment} {engine : Engine}

/-- The point that a plan finds for a workload in a state of the catalogue. -/
def selected (db : Database) (workload : DRVMConfig) : Option Point :=
  (Transaction.read db (.selectPoints (some workload.source_platform) none 1000)).find?
    fun point => point.vm_name = workload.name

/-- The two platforms of a workload are of one family. -/
def SameFamily (engine : Engine) (workload : DRVMConfig) : Prop :=
  ∃ source target, engine.platform workload.source_platform = .ok source ∧
    engine.platform workload.target_platform = .ok target ∧ target.type = source.type

/-- A row of a plan that names what is selected for its workload. -/
structure Selects (engine : Engine) (db : Database) (workload : DRVMConfig) (row : PlanRow) :
    Prop where
  named : row.workload = workload.name
  found : ∀ planned, row.point = some planned →
    ∃ point, selected db workload = some point ∧ planned.snapshot_id = point.snapshot_id
  complete : SameFamily engine workload → row.point = none → selected db workload = none

theorem run_planWorkload {workload : DRVMConfig} {world after : World}
    {outcome : PlanRow × List String}
    (ran : run env.handler (planWorkload engine workload) world = (.ok outcome, after)) :
    Selects engine world.db workload outcome.1 := by
  rw [planWorkload, DROrchestrator.latestPoint, bind_assoc, listPoints, run_transact_bind] at ran
  obtain ⟨source, known, ran⟩ := run_raised_bind ran
  obtain ⟨target, bound, ran⟩ := run_raised_bind ran
  dsimp only at ran
  split at ran
  · rename_i different
    cases ran
    refine ⟨rfl, by simp, ?_⟩
    rintro ⟨first, second, one, two, same⟩ _
    cases known.symm.trans one
    cases bound.symm.trans two
    exact absurd same.symm different
  · split at ran
    · rename_i missing
      cases ran
      exact ⟨rfl, by simp, fun _ _ => missing⟩
    · rename_i point present
      obtain ⟨copy, _, _, ran⟩ := (run_bind_eq_ok env.handler).mp ran
      obtain ⟨now, _, _, ran⟩ := (run_bind_eq_ok env.handler).mp ran
      cases ran
      refine ⟨rfl, ?_, by simp⟩
      rintro planned same
      cases same
      exact ⟨point, present, rfl⟩

/-- There is one such row for every workload, in the same order. -/
theorem run_planRows {workloads : List DRVMConfig} {world after : World}
    {outcome : List PlanRow × List String}
    (ran : run env.handler (planRows engine workloads) world = (.ok outcome, after)) :
    List.Forall₂ (Selects engine world.db) workloads outcome.1 := by
  induction workloads generalizing world outcome with
  | nil =>
    cases ran
    exact List.Forall₂.nil
  | cons workload rest inductionHypothesis =>
    obtain ⟨⟨row, errors⟩, middle, planning, ran⟩ := (run_bind_eq_ok env.handler).mp ran
    obtain ⟨⟨rows, more⟩, _, others, ran⟩ := (run_bind_eq_ok env.handler).mp ran
    cases ran
    have kept : middle.db = world.db :=
      db_ran (footprint_planWorkload engine workload) (by simp) planning
    exact List.Forall₂.cons (run_planWorkload planning) (kept ▸ inductionHypothesis others)

theorem run_plan {world after : World} {plan : DRPlan}
    (ran : run env.handler (DROrchestrator.plan engine) world = (.ok plan, after)) :
    List.Forall₂ (Selects engine world.db) (bootSequence engine) plan.workloads := by
  obtain ⟨_, enabled, enabling, ran⟩ := (run_bind_eq_ok env.handler).mp ran
  rw [run_ensureEnabled enabling] at ran
  obtain ⟨⟨rows, errors⟩, _, planning, ran⟩ := (run_bind_eq_ok env.handler).mp ran
  obtain ⟨primary, _, ran⟩ := run_raised_bind ran
  obtain ⟨dr, _, ran⟩ := run_raised_bind ran
  cases ran
  exact run_planRows planning

/-- Workloads can be promoted only between platforms of one family. -/
theorem sameFamily_promoted {confirmed automatic : Bool} {world after : World} {run_id : Nat}
    {details : Dict}
    (ran : run env.handler (promote engine true confirmed automatic) world =
      (.ok (.success run_id details), after)) :
    ∀ workload ∈ engine.cfg.dr.workloads, SameFamily engine workload := by
  obtain ⟨_, _, _, ran⟩ := (run_bind_eq_ok env.handler).mp ran
  obtain ⟨approved, _, planning, ran⟩ := (run_bind_eq_ok env.handler).mp ran
  rw [if_neg (by simp)] at ran
  obtain ⟨active, _, _, ran⟩ := (run_bind_eq_ok env.handler).mp ran
  split at ran
  · cases ran
  · split at ran
    · cases ran
    · rename_i ready
      have fits := yields_run (yields_plan engine) (congrArg Prod.fst planning)
        (by simpa using ready)
      intro workload configured
      have booted : workload ∈ bootSequence engine :=
        (bootSequence_sorted engine).1.mem_iff.mpr configured
      obtain ⟨row, _, planned, fit⟩ := related_right fits booted
      exact fit.family

end Selection

section Names

variable (engine : Engine)

/-- A machine that is recorded for a workload under a name made of the workload's. -/
def Derived (command : Command) : Prop :=
  ∀ row, command = .transact (.insertWorkload row) →
    ∃ time : String, row.target_name = some s!"{row.workload_name}-failback-{time}"

/-- A program that records no machine records none under another name. -/
theorem derived_footprint {α : Type} {effects : List Effect} {program : Prog α}
    (footprint : Footprint effects program) (unwritten : .writing .workloads ∉ effects) :
    Issues Derived program := by
  refine issues_mono footprint ?_
  rintro command listed row rfl
  exact absurd listed unwritten

theorem derived_restorePrimary (run_id : Nat) (started : Timestamp) (final_points : Dict)
    (workload : DRVMConfig) :
    Issues Derived (restorePrimary engine run_id started final_points workload) := by
  unfold restorePrimary
  split
  · exact issues_throw _
  · refine issues_bind (derived_footprint (@footprint_transact [.silent] _
      (by simp [Command.effect, writes])) (by simp)) fun point => ?_
    split
    · exact issues_throw _
    · refine issues_bind (derived_footprint (footprint_restoreReady engine _ _ _ _) (by simp))
        fun created => ?_
      refine issues_bind ((issues_perform _).mpr ?_) fun _ => issues_pure _
      rintro row same
      cases same
      exact ⟨_, rfl⟩

theorem derived_restorePrimaries (run_id : Nat) (started : Timestamp) (final_points : Dict)
    (workloads : List DRVMConfig) :
    Issues Derived (restorePrimaries engine run_id started final_points workloads) := by
  induction workloads with
  | nil => exact issues_pure _
  | cons workload rest inductionHypothesis =>
    refine issues_bind (derived_restorePrimary engine _ _ _ _) fun one => ?_
    exact issues_bind inductionHypothesis fun _ => issues_pure _

theorem derived_runFailback (run_id source_run : Nat) (workloads : List WorkloadRow) :
    Issues Derived (runFailback engine run_id source_run workloads) := by
  refine issues_bind ?_ fun returned => ?_
  · refine issues_bind (derived_footprint (DRNetwork.NetworkManager.footprint_prepare _ _)
      (by simp)) fun _ => ?_
    refine issues_bind (derived_footprint (DRNetwork.NetworkManager.footprint_deactivate _ _ _)
      (by simp)) fun _ => ?_
    refine issues_bind (derived_footprint (footprint_finalBackups engine _ _)
      (by simp [Backups.backupEffects])) fun final_points => ?_
    refine issues_bind (derived_footprint (@footprint_utcnow [.silent] (by simp)) (by simp))
      fun started => ?_
    refine issues_bind (derived_restorePrimaries engine _ _ _ _) fun restored => ?_
    exact issues_bind (derived_footprint
      (DRNetwork.NetworkManager.footprint_deactivate _ _ _) (by simp)) fun _ => issues_pure _
  · refine issues_bind (derived_footprint (footprint_switchOff engine _) (by simp)) fun _ => ?_
    exact derived_footprint (footprint_startPrimary engine _ _ _ _) (by simp)

/-- A failback records every machine under a name made of its workload's. -/
theorem derived_failback (execute confirmed : Bool) :
    Issues Derived (failback engine execute confirmed) := by
  refine issues_bind (derived_footprint (footprint_ensureEnabled engine []) (by simp))
    fun _ => ?_
  refine issues_bind (derived_footprint (@footprint_transact [.silent] _
    (by simp [Command.effect, writes])) (by simp)) fun latest => ?_
  cases latest with
  | none => exact issues_pure _
  | some last =>
    refine issues_bind (derived_footprint footprint_alreadyFailedOver (by simp)) fun active => ?_
    split
    · exact issues_pure _
    · refine issues_bind (derived_footprint (@footprint_transact [.silent] _
        (by simp [Command.effect, writes])) (by simp)) fun workloads => ?_
      split
      · exact issues_pure _
      · split
        · exact issues_throw _
        · refine issues_bind (derived_footprint (footprint_createDrRun _ _ _ _) (by simp))
            fun run_id => ?_
          refine issues_tryCatch (derived_runFailback engine _ _ _) fun error => ?_
          exact derived_footprint (footprint_abortFailback _ _) (by simp)

/-- A derived name is longer than the name it is made of. -/
theorem derived_ne (name time : String) : s!"{name}-failback-{time}" ≠ name := by
  intro same
  have length := congrArg String.length same
  have hyphened : (toString "-failback-").length = 10 := rfl
  have plain : (toString name).length = name.length := rfl
  simp only [String.length_append] at length
  omega

end Names

section Identity

variable {env : Environment} {engine : Engine}

/-- A point of the machine that a failback, between two states, restored for a workload
and recorded. -/
def OfRestored (resumed returned : World) (workload : String) (point : Point) : Prop :=
  ∃ row number, Since resumed [⟨.transact (.insertWorkload row), .ok number⟩] returned ∧
    row.workload_name = workload ∧ row.target_platform = point.platform ∧
    row.target_name = some point.vm_name

/-- Every point that a plan names in a state is one of the machine that the failback
restored for the workload of its row. -/
def Preserved (resumed returned later : World) (plan : DRPlan) : Prop :=
  ∀ row ∈ plan.workloads, ∀ planned, row.point = some planned →
    ∃ point, later.db.livePoint planned.snapshot_id = some point ∧
      OfRestored resumed returned row.workload point

/-- A point that carries the workload's name is no point of a machine that a failback
restored. -/
theorem not_ofRestored {execute isolated : Bool} {resumed returned : World}
    {outcome : Except Exn Failback} {workload : String} {point : Point}
    (returning : run env.handler (failback engine execute isolated) resumed = (outcome, returned))
    (named : point.vm_name = workload) : ¬ OfRestored resumed returned workload point := by
  rintro ⟨row, number, since, ofWorkload, _, target⟩
  obtain ⟨time, derived⟩ :=
    since.issues_ran (derived_failback engine execute isolated) returning row rfl
  have collision : s!"{row.workload_name}-failback-{time}" = row.workload_name := by
    rw [← Option.some.inj (target.symm.trans derived), named, ofWorkload]
  exact derived_ne _ _ collision

/-- Some program leads from one state to the other. -/
def Leads (env : Environment) (before after : World) : Prop :=
  ∃ (α : Type) (program : Prog α) (outcome : Except Exn α),
    run env.handler program before = (outcome, after)

theorem leads_run {α : Type} (program : Prog α) (before : World) :
    Leads env before (run env.handler program before).2 := ⟨α, program, _, rfl⟩

/-- A promotion and a failback that both succeed, with whatever happens between them, and
whatever backups are taken afterwards. -/
structure Episode (env : Environment) (engine : Engine) (world resumed returned later : World) :
    Prop where
  promotion : ∃ confirmed automatic run_id details promoted,
    run env.handler (promote engine true confirmed automatic) world =
      (.ok (.success run_id details), promoted) ∧ Leads env promoted resumed
  failback : ∃ isolated run_id details,
    run env.handler (failback engine true isolated) resumed =
      (.ok (.success run_id details), returned)
  backups : Leads env returned later

/-- After a failover and a failback a plan keeps the identity of the workloads exactly
when no listed point carries the name of a workload, and then it names no point at all. -/
theorem failback_preserves_identity (env : Environment) (engine : Engine)
    {world resumed returned later final : World} {plan : DRPlan}
    (episode : Episode env engine world resumed returned later)
    (planning : run env.handler (DROrchestrator.plan engine) later = (.ok plan, final)) :
    Preserved resumed returned later plan ↔
      ∀ workload ∈ engine.cfg.dr.workloads,
        ∀ point ∈ Transaction.read later.db
          (.selectPoints (some workload.source_platform) none 1000),
          point.vm_name ≠ workload.name := by
  obtain ⟨_, _, _, _, promoted, promoting, _⟩ := episode.promotion
  obtain ⟨isolated, run_id, details, returning⟩ := episode.failback
  have rows := run_plan planning
  constructor
  · intro preserved workload configured point listed same
    have booted : workload ∈ bootSequence engine :=
      (bootSequence_sorted engine).1.mem_iff.mpr configured
    obtain ⟨row, planned, selects⟩ := related_right rows booted
    cases given : row.point with
    | none =>
      have missing := selects.complete (sameFamily_promoted promoting workload configured) given
      have unnamed := List.find?_eq_none.mp missing point listed
      exact unnamed (decide_eq_true same)
    | some chosen =>
      obtain ⟨found, selection, own⟩ := selects.found chosen given
      have live : later.db.livePoint chosen.snapshot_id = some found :=
        own ▸ livePoint_of_listed (List.mem_of_find?_eq_some selection)
      have named : found.vm_name = workload.name := by
        simpa using List.find?_some selection
      obtain ⟨other, read, restored⟩ := preserved row planned chosen given
      cases live.symm.trans read
      exact not_ofRestored returning (named.trans selects.named.symm) restored
  · intro unnamed row planned chosen given
    obtain ⟨workload, booted, selects⟩ := related_left rows planned
    obtain ⟨found, selection, _⟩ := selects.found chosen given
    have configured := (bootSequence_sorted engine).1.mem_iff.mp booted
    have named : found.vm_name = workload.name := by
      simpa using List.find?_some selection
    exact absurd named (unnamed workload configured found (List.mem_of_find?_eq_some selection))

end Identity

/-- A world in which every site lists the machine that was created there last, and every
backup is a snapshot of its own. -/
def attentive : Environment where
  answer := fun history external =>
    match external with
    | .inventory platform => .ok [{
        id := "101"
        name := if platform.name = "pve" then "web-failback-00010101T000000Z"
          else "web-dr-00010101T000000Z" }]
    | .run (.restic (.backup _ _)) _ _ => .ok {
        returncode := 0
        jsonLines := [some (.obj [("message_type", .str "summary"),
          ("snapshot_id", .str (toString history.length))])] }
    | external => cooperative.answer history external
  elapsed := fun _ _ => 1

/-- The primary copy is backed up twice. -/
def twoBackups : Prog Unit := do
  let platform ← raised (recovery.platform "pve")
  let machines : List VM ← request (.inventory platform)
  match machines with
  | [] => return ()
  | machine :: _ => do
    let _ ← Backups.backupVM recovery platform machine [] false
    let _ ← Backups.backupVM recovery platform machine [] false
    return ()

def failedOver : Except Exn Promotion × World :=
  run attentive.handler (promote recovery true true false) ⟨replicated, 0, []⟩

def failedBack : Except Exn Failback × World :=
  run attentive.handler (failback recovery true true) failedOver.2

def backedUp : World := (run attentive.handler twoBackups failedBack.2).2

/-- Whether a promotion was a success. -/
def promotes : Except Exn Promotion → Bool
  | .ok (.success _ _) => true
  | _ => false

def failsBack : Except Exn Failback → Bool
  | .ok (.success _ _) => true
  | _ => false

theorem promotes_success {outcome : Except Exn Promotion} (success : promotes outcome = true) :
    ∃ run_id details, outcome = .ok (.success run_id details) := by
  unfold promotes at success
  split at success
  · exact ⟨_, _, rfl⟩
  · cases success

theorem failsBack_success {outcome : Except Exn Failback} (success : failsBack outcome = true) :
    ∃ run_id details, outcome = .ok (.success run_id details) := by
  unfold failsBack at success
  split at success
  · exact ⟨_, _, rfl⟩
  · cases success

/-- A failover, a failback and two backups of the primary copy. -/
theorem episode_backedUp :
    Episode attentive recovery ⟨replicated, 0, []⟩ failedOver.2 failedBack.2 backedUp := by
  obtain ⟨run_id, details, promoted⟩ :=
    promotes_success (by decide : promotes failedOver.1 = true)
  obtain ⟨back_id, summary, returned⟩ :=
    failsBack_success (by decide : failsBack failedBack.1 = true)
  exact {
    promotion := ⟨true, false, run_id, details, failedOver.2, Prod.ext promoted rfl,
      leads_run (pure ()) failedOver.2⟩
    failback := ⟨true, back_id, summary, Prod.ext returned rfl⟩
    backups := leads_run twoBackups failedBack.2 }

/-- The points of the catalogue, and the point of every row of the plan. -/
def planned : List (String × String) × List (String × Option String) :=
  (backedUp.db.points.rows.map fun entry => (entry.1, entry.2.vm_name),
    match (run attentive.handler (DROrchestrator.plan recovery) backedUp).1 with
    | .ok plan => plan.workloads.map fun row => (row.workload, row.point.map (·.snapshot_id))
    | .error _ => [])

/-- After the failback the primary copy has been backed up twice, and the plan still
names the point of the machine from before the failover. -/
theorem failback_loses_identity :
    Episode attentive recovery ⟨replicated, 0, []⟩ failedOver.2 failedBack.2 backedUp ∧
    planned = ([("4f1c", "web"), ("76", "web-dr-00010101T000000Z"),
      ("144", "web-failback-00010101T000000Z"), ("170", "web-failback-00010101T000000Z")],
      [("web", some "4f1c")]) ∧
    ∃ plan final, run attentive.handler (DROrchestrator.plan recovery) backedUp =
        (.ok plan, final) ∧ ¬ Preserved failedOver.2 failedBack.2 backedUp plan := by
  have named : planned = ([("4f1c", "web"), ("76", "web-dr-00010101T000000Z"),
      ("144", "web-failback-00010101T000000Z"), ("170", "web-failback-00010101T000000Z")],
      [("web", some "4f1c")]) := by decide +kernel
  refine ⟨episode_backedUp, named, ?_⟩
  cases ran : run attentive.handler (DROrchestrator.plan recovery) backedUp with
  | mk outcome final =>
    cases outcome with
    | error error =>
      have rows := congrArg Prod.snd named
      simp [planned, ran] at rows
    | ok plan =>
      refine ⟨plan, final, rfl, fun preserved => ?_⟩
      have rows : plan.workloads.map (fun row => (row.workload, row.point.map (·.snapshot_id))) =
          [("web", some "4f1c")] := by
        have rows := congrArg Prod.snd named
        simpa [planned, ran] using rows
      obtain ⟨row, listed, shown⟩ := List.mem_map.mp
        (rows ▸ List.mem_singleton.mpr rfl : ("web", some "4f1c") ∈ _)
      obtain ⟨name, given⟩ := Prod.mk.inj shown
      obtain ⟨chosen, point, own⟩ := Option.map_eq_some_iff.mp given
      obtain ⟨live, read, restored⟩ := preserved row listed chosen point
      have web : (backedUp.db.livePoint "4f1c").map (·.vm_name) = some "web" := by
        decide +kernel
      rw [own] at read
      rw [read] at web
      exact not_ofRestored (Prod.ext rfl rfl :
        run attentive.handler (failback recovery true true) failedOver.2 = failedBack)
        ((Option.some.inj web).trans name.symm) restored

/-- The same run, and what the theorem says about it. -/
theorem failback_preserves_identity_sample :
    ∃ plan final, run attentive.handler (DROrchestrator.plan recovery) backedUp =
        (.ok plan, final) ∧
      (Preserved failedOver.2 failedBack.2 backedUp plan ↔
        ∀ workload ∈ recovery.cfg.dr.workloads,
          ∀ point ∈ Transaction.read backedUp.db
            (.selectPoints (some workload.source_platform) none 1000),
            point.vm_name ≠ workload.name) := by
  cases ran : run attentive.handler (DROrchestrator.plan recovery) backedUp with
  | mk outcome final =>
    cases outcome with
    | error error =>
      have rows : planned.2 = [("web", some "4f1c")] := by decide +kernel
      simp [planned, ran] at rows
    | ok plan =>
      exact ⟨plan, final, rfl, @failback_preserves_identity attentive recovery
        ⟨replicated, 0, []⟩ failedOver.2 failedBack.2 backedUp final plan episode_backedUp ran⟩

end Immutavault.FailbackIdentity
