import Immutavault.JobOutcomes
import Immutavault.ProtectionPolicies

/-!
# Failures of platforms in a backup of all

A backup of all machines goes from platform to platform and from machine to machine. What a
platform says about itself may fail, and so may the backup of a machine: both are recorded
and the next machine is backed up. The inventory of a platform may not fail, nor the trial of
an export in a dry run. Either ends the call, and every machine behind it is left out.

Every machine of every platform with an inventory is attempted and reported exactly when no
inventory and no trial fails, or when there is no machine to speak of.
-/

namespace Immutavault.BackupIsolation

open Programs Values Timestamps Catalog Machine Histories Configuration ResticRepository
open StateDatabase RestoreEngine Backups ProtectionPolicies
open JobOutcomes (performBackup_eq settle wrapUp openJob backupVM_eq)

attribute [local irreducible] Yields

/-- A machine that a call is to back up. -/
abbrev Target := PlatformConfig × VM

/-- How the platforms answer: with their inventories, and with an error or without one to the
trial of an export. Directories can be made. -/
structure Answers (env : Environment) (inventories : PlatformConfig → Except Exn (List VM))
    (trials : PlatformConfig → VM → Option Exn) : Prop where
  inventory : ∀ history platform,
    env.answer history (.inventory platform) = inventories platform
  passed : ∀ history platform vm destination, trials platform vm = none →
    ∃ planned, env.answer history (.exportVM platform vm destination true) = .ok planned
  failed : ∀ history platform vm destination error, trials platform vm = some error →
    env.answer history (.exportVM platform vm destination true) = .error error
  directory : ∀ history path, env.answer history (.mkdir path) = .ok ()

/-- A result is about a machine. -/
def Reports (target : Target) (result : Dict) : Prop :=
  result.get? "platform" = some (.str target.1.name) ∧
    result.get? "vm" = some (.str target.2.name)

/-- The export of a machine was attempted. -/
def Attempted (dry_run : Bool) (start now : World) (target : Target) : Prop :=
  ∃ destination answer, Since start
    [⟨Command.request (.exportVM target.1 target.2 destination dry_run), answer⟩] now

section Machines

variable {engine : Engine} {env : Environment} {platform : PlatformConfig} {vm : VM}
  {platform_info : Dict} {world : World}
  {inventories : PlatformConfig → Except Exn (List VM)}
  {trials : PlatformConfig → VM → Option Exn}

/-- Recording a failed backup returns a report of the machine. -/
theorem run_recordBackupFailure (staging_root : String) (job_id : Nat) (error : Exn) :
    ∃ result after, run env.handler
        (recordBackupFailure engine platform vm staging_root job_id error) world =
          (.ok result, after) ∧ Reports (platform, vm) result := by
  unfold recordBackupFailure
  dsimp only
  split
  · exact ⟨_, _, rfl, by simp [Reports, Dict.get?]⟩
  · exact ⟨_, _, rfl, by simp [Reports, Dict.get?]⟩

/-- So does a backup that succeeds. -/
theorem yields_performBackup (now : Timestamp) (staging_root : String) (job_id : Nat) :
    Yields (Reports (platform, vm))
      (performBackup engine platform vm platform_info now staging_root job_id) := by
  rw [performBackup_eq]
  refine yields_bind fun drafted => yields_bind fun _ => ?_
  unfold settle wrapUp
  refine yields_bind fun _ => yields_bind fun _ => yields_bind fun replica_results => ?_
  dsimp only
  split
  · exact yields_bind fun _ => yields_bind fun _ => yields_pure (by simp [Reports, Dict.get?])
  · exact yields_bind fun _ => yields_bind fun _ => yields_pure (by simp [Reports, Dict.get?])

/-- A program that begins with a request has it in its history. -/
theorem since_request {α : Type} {external : External} {next : external.Answer → Prog α} :
    Since world [⟨Command.request external, env.reply world (.request external)⟩]
      (run env.handler (request external >>= next) world).2 := by
  rw [run_bind]
  have asked : run env.handler (request external) world = env.handler (.request external) world :=
    run_perform env.handler (Command.request external) world
  rw [asked]
  have since : Since world [⟨Command.request external, env.reply world (.request external)⟩]
      (env.handler (.request external) world).2 := (Since.refl world).exchange (.request external)
  cases exchanged : env.handler (.request external) world with
  | mk answer after =>
    rw [exchanged] at since
    cases answer with
    | error error => exact since
    | ok value => exact since.run _

/-- A started backup returns a report of the machine, whatever fails in it, and has attempted
the export. -/
theorem run_started (now : Timestamp) (staging_root : String) (job_id : Nat) :
    ∃ result after, run env.handler (tryCatch
        (performBackup engine platform vm platform_info now staging_root job_id)
        (recordBackupFailure engine platform vm staging_root job_id)) world =
          (.ok result, after) ∧
      Reports (platform, vm) result ∧ Attempted false world after (platform, vm) := by
  rw [run_tryCatch]
  have attempted : Attempted false world (run env.handler
      (performBackup engine platform vm platform_info now staging_root job_id) world).2
        (platform, vm) := ⟨staging_root, _, since_request⟩
  cases ran : run env.handler
      (performBackup engine platform vm platform_info now staging_root job_id) world with
  | mk outcome middle =>
    rw [ran] at attempted
    cases outcome with
    | ok result =>
      exact ⟨result, middle, rfl, yields_run (yields_performBackup now staging_root job_id)
        (congrArg Prod.fst ran), attempted⟩
    | error error =>
      obtain ⟨result, after, recorded, reports⟩ := @run_recordBackupFailure engine env platform vm
        middle staging_root job_id error
      obtain ⟨destination, answer, since⟩ := attempted
      exact ⟨result, after, recorded, reports, destination, answer, since.ran recorded⟩

/-- The backup of a machine returns and has attempted the export, whatever fails in it. -/
theorem run_backupVM (answers : Answers env inventories trials) :
    ∃ result after, run env.handler (backupVM engine platform vm platform_info false) world =
        (.ok result, after) ∧
      Reports (platform, vm) result ∧ Attempted false world after (platform, vm) := by
  rw [backupVM_eq, run_bind]
  have made : ∀ world : World, ∀ path, run env.handler (request (.mkdir path)) world =
      (.ok (), (env.handler (.request (.mkdir path)) world).2) := by
    intro world path
    exact (run_perform env.handler (Command.request (.mkdir path)) world).trans
      (Prod.ext (answers.directory _ _) rfl)
  have opened : ∃ job opened, run env.handler (openJob engine platform vm) world =
      (.ok job, opened) := by
    unfold openJob
    rw [run_utcnow_bind, run_bind, made]
    exact ⟨_, _, rfl⟩
  obtain ⟨job, opened, opening⟩ := opened
  obtain ⟨result, after, ran, reports, destination, answer, since⟩ := @run_started engine env
    platform vm platform_info opened job.1 job.2.1 job.2.2
  refine ⟨result, after, ?_, reports, destination, answer, since.earlier (log_ran opening)⟩
  rw [opening]
  exact ran

/-- A dry run of it returns exactly if the trial of the export passes. -/
theorem run_trial (answers : Answers env inventories trials) :
    (trials platform vm = none ∧ ∃ result after,
      run env.handler (backupVM engine platform vm platform_info true) world =
        (.ok result, after) ∧
      Reports (platform, vm) result ∧ Attempted true world after (platform, vm)) ∨
    (trials platform vm ≠ none ∧ ∃ error after,
      run env.handler (backupVM engine platform vm platform_info true) world =
        (.error error, after)) := by
  have planned : backupVM engine platform vm platform_info true = (do
      let now ← utcnow
      let staging_root := joinPath (joinPath (joinPath engine.cfg.repository.staging_path
        (safeComponent platform.name)) (safeComponent vm.name)) (stamp now)
      let exported : String ← request (.exportVM platform vm staging_root true)
      return [("platform", .str platform.name), ("vm", .str vm.name), ("status", .str "dry-run"),
        ("would_export", .str exported)]) := rfl
  rw [planned, run_utcnow_bind]
  generalize read : (env.handler .utcnow world).2 = timed
  have behind : world.log <+: timed.log := read ▸ List.prefix_append world.log _
  dsimp only
  generalize joinPath (joinPath (joinPath engine.cfg.repository.staging_path
    (safeComponent platform.name)) (safeComponent vm.name)) (stamp world.clock) = destination
  have asked : run env.handler (request (.exportVM platform vm destination true)) timed =
      env.handler (.request (.exportVM platform vm destination true)) timed :=
    run_perform env.handler (Command.request (.exportVM platform vm destination true)) timed
  cases trial : trials platform vm with
  | none =>
    obtain ⟨exported, answered⟩ := answers.passed timed.log platform vm destination trial
    have ran : run env.handler (request (.exportVM platform vm destination true)) timed =
        (.ok exported,
          (env.handler (.request (.exportVM platform vm destination true)) timed).2) :=
      asked.trans (Prod.ext answered rfl)
    refine Or.inl ⟨rfl, [("platform", .str platform.name), ("vm", .str vm.name),
      ("status", .str "dry-run"), ("would_export", .str exported)],
      (env.handler (.request (.exportVM platform vm destination true)) timed).2, ?_, ?_,
      destination, .ok exported, ((Since.refl timed).answered answered).earlier behind⟩
    · rw [run_bind, ran]
      rfl
    · simp [Reports, Dict.get?]
  | some error =>
    have ran : run env.handler (request (.exportVM platform vm destination true)) timed =
        (.error error,
          (env.handler (.request (.exportVM platform vm destination true)) timed).2) :=
      asked.trans (Prod.ext (answers.failed timed.log platform vm destination error trial) rfl)
    refine Or.inr ⟨Option.some_ne_none error, error,
      (env.handler (.request (.exportVM platform vm destination true)) timed).2, ?_⟩
    rw [run_bind, ran]

/-- The backup of a machine goes wrong in a way that ends the call. -/
def Fatal (trials : PlatformConfig → VM → Option Exn) (dry_run : Bool) (target : Target) : Prop :=
  dry_run = true ∧ trials target.1 target.2 ≠ none

/-- The machines of a platform are all attempted and reported, or one of them ends the call. -/
theorem run_backupMachines (answers : Answers env inventories trials) {dry_run : Bool}
    (machines : List VM) (world : World) :
    ((∀ vm ∈ machines, ¬ Fatal trials dry_run (platform, vm)) ∧ ∃ results after,
      run env.handler (backupMachines engine platform platform_info dry_run machines) world =
        (.ok results, after) ∧
      List.Forall₂ Reports (machines.map (platform, ·)) results ∧
      ∀ target ∈ machines.map (platform, ·), Attempted dry_run world after target) ∨
    ((∃ vm ∈ machines, Fatal trials dry_run (platform, vm)) ∧ ∃ error after,
      run env.handler (backupMachines engine platform platform_info dry_run machines) world =
        (.error error, after)) := by
  induction machines generalizing world with
  | nil => exact Or.inl ⟨by simp, [], world, rfl, List.Forall₂.nil, by simp⟩
  | cons vm rest inductionHypothesis =>
    have backing : (¬ Fatal trials dry_run (platform, vm) ∧ ∃ result after,
        run env.handler (backupVM engine platform vm platform_info dry_run) world =
          (.ok result, after) ∧
        Reports (platform, vm) result ∧ Attempted dry_run world after (platform, vm)) ∨
        (Fatal trials dry_run (platform, vm) ∧ ∃ error after,
          run env.handler (backupVM engine platform vm platform_info dry_run) world =
            (.error error, after)) := by
      cases dry_run with
      | false => exact Or.inl ⟨by simp [Fatal], run_backupVM answers⟩
      | true =>
        rcases @run_trial engine env platform vm platform_info world inventories trials answers with
          ⟨passed, returned⟩ | ⟨failed, raised⟩
        · exact Or.inl ⟨by simp [Fatal, passed], returned⟩
        · exact Or.inr ⟨⟨rfl, failed⟩, raised⟩
    unfold backupMachines
    rw [run_bind]
    rcases backing with ⟨harmless, result, middle, ran, reports, attempted⟩ |
      ⟨fatal, error, after, ran⟩
    · rw [ran]
      dsimp only
      rw [run_bind]
      rcases inductionHypothesis middle with ⟨others_harmless, results, after, others, all, done⟩ |
        ⟨fatal, error, after, others⟩
      · rw [others]
        refine Or.inl ⟨List.forall_mem_cons.mpr ⟨harmless, others_harmless⟩, result :: results,
          after, rfl, List.Forall₂.cons reports all, ?_⟩
        rw [List.map_cons]
        refine List.forall_mem_cons.mpr ⟨?_, fun target member => ?_⟩
        · obtain ⟨destination, answer, since⟩ := attempted
          exact ⟨destination, answer, since.ran others⟩
        · obtain ⟨destination, answer, since⟩ := done target member
          exact ⟨destination, answer, since.earlier (log_ran ran)⟩
      · rw [others]
        obtain ⟨failing, member, own⟩ := fatal
        exact Or.inr ⟨⟨failing, List.mem_cons_of_mem _ member, own⟩, error, after, rfl⟩
    · rw [ran]
      exact Or.inr ⟨⟨vm, List.mem_cons_self, fatal⟩, error, after, rfl⟩

/-- The machines of a platform that has an inventory. -/
def reached (inventories : PlatformConfig → Except Exn (List VM)) (platform : PlatformConfig) :
    List Target :=
  match inventories platform with
  | .ok machines => machines.map (platform, ·)
  | .error _ => []

/-- The machines of the enabled platforms that have an inventory, in order. -/
def targets (inventories : PlatformConfig → Except Exn (List VM))
    (platforms : List PlatformConfig) : List Target :=
  (platforms.filter (·.enabled)).flatMap (reached inventories)

/-- Every enabled platform has an inventory, and none of its machines ends the call. -/
def Smooth (inventories : PlatformConfig → Except Exn (List VM))
    (trials : PlatformConfig → VM → Option Exn) (dry_run : Bool)
    (platforms : List PlatformConfig) : Prop :=
  ∀ platform ∈ platforms, platform.enabled = true → ∃ machines,
    inventories platform = .ok machines ∧
      ∀ vm ∈ machines, ¬ Fatal trials dry_run (platform, vm)

/-- The machines of all platforms are attempted and reported, or the call ends before. -/
theorem run_backupPlatforms (answers : Answers env inventories trials) {dry_run : Bool}
    (platforms : List PlatformConfig) (world : World) :
    (Smooth inventories trials dry_run platforms ∧ ∃ results after,
      run env.handler (backupPlatforms engine dry_run platforms) world = (.ok results, after) ∧
      List.Forall₂ Reports (targets inventories platforms) results ∧
      ∀ target ∈ targets inventories platforms, Attempted dry_run world after target) ∨
    (¬ Smooth inventories trials dry_run platforms ∧ ∃ error after,
      run env.handler (backupPlatforms engine dry_run platforms) world = (.error error, after)) := by
  induction platforms generalizing world with
  | nil => exact Or.inl ⟨by simp [Smooth], [], world, rfl, List.Forall₂.nil, by simp [targets]⟩
  | cons platform rest inductionHypothesis =>
    unfold backupPlatforms
    by_cases disabled : ¬ platform.enabled
    · have same : targets inventories (platform :: rest) = targets inventories rest := by
        simp [targets, disabled]
      have smooth : Smooth inventories trials dry_run (platform :: rest) ↔
          Smooth inventories trials dry_run rest := by
        simp [Smooth, disabled]
      rw [if_pos disabled, same, smooth]
      exact inductionHypothesis world
    · have enabled : platform.enabled = true := not_not.mp disabled
      rw [if_neg disabled, run_bind]
      obtain ⟨info, informed, telling⟩ : ∃ info informed, run env.handler
          (tryCatch (request (.platformInfo platform)) fun exc =>
            pure [("error", Json.str exc.message)]) world = (.ok info, informed) := by
        rw [run_tryCatch]
        cases run env.handler (request (.platformInfo platform)) world with
        | mk outcome informed => cases outcome <;> exact ⟨_, _, rfl⟩
      rw [telling]
      dsimp only
      rw [run_bind]
      have listing : run env.handler (request (.inventory platform)) informed =
          (inventories platform, (env.handler (.request (.inventory platform)) informed).2) :=
        (run_perform env.handler (Command.request (.inventory platform)) informed).trans
          (Prod.ext (answers.inventory _ _) rfl)
      cases listed : inventories platform with
      | error error =>
        rw [listing, listed]
        refine Or.inr ⟨?_, error, _, rfl⟩
        intro smooth
        obtain ⟨machines, found, _⟩ := smooth platform List.mem_cons_self enabled
        rw [listed] at found
        cases found
      | ok machines =>
        have all : targets inventories (platform :: rest) =
            machines.map (platform, ·) ++ targets inventories rest := by
          simp [targets, enabled, reached, listed]
        have smooth : Smooth inventories trials dry_run (platform :: rest) ↔
            (∀ vm ∈ machines, ¬ Fatal trials dry_run (platform, vm)) ∧
              Smooth inventories trials dry_run rest := by
          simp [Smooth, enabled, listed]
        rw [listing, listed, all, smooth]
        dsimp only
        rw [run_bind]
        generalize (env.handler (.request (.inventory platform)) informed).2 = surveyed at listing ⊢
        rcases run_backupMachines answers machines surveyed with
          ⟨harmless, results, middle, ran, reports, attempted⟩ | ⟨⟨vm, member, fatal⟩, error, after, ran⟩
        · have before : world.log <+: surveyed.log := (log_ran telling).trans (log_ran listing)
          rw [ran]
          dsimp only
          rw [run_bind]
          rcases inductionHypothesis middle with ⟨rest_smooth, others, after, backed, all_others, done⟩ |
            ⟨rough, error, after, backed⟩
          · rw [backed]
            refine Or.inl ⟨⟨harmless, rest_smooth⟩, results ++ others, after, rfl,
              List.rel_append reports all_others, ?_⟩
            intro target member
            rcases List.mem_append.mp member with own | other
            · obtain ⟨destination, answer, since⟩ := attempted target own
              exact ⟨destination, answer, (since.earlier before).ran backed⟩
            · obtain ⟨destination, answer, since⟩ := done target other
              exact ⟨destination, answer, since.earlier (before.trans (log_ran ran))⟩
          · rw [backed]
            exact Or.inr ⟨fun smooth => rough smooth.2, error, after, rfl⟩
        · rw [ran]
          exact Or.inr ⟨fun smooth => smooth.1 vm member fatal, error, after, rfl⟩

/-- Every machine of every enabled platform with an inventory is attempted, and the call
returns one report for each. -/
def Isolated (engine : Engine) (env : Environment)
    (inventories : PlatformConfig → Except Exn (List VM)) (dry_run : Bool) (world : World) : Prop :=
  targets inventories engine.cfg.platforms ≠ [] → ∃ results after,
    run env.handler (backupAll engine dry_run) world = (.ok results, after) ∧
    List.Forall₂ Reports (targets inventories engine.cfg.platforms) results ∧
    ∀ target ∈ targets inventories engine.cfg.platforms, Attempted dry_run world after target

/-- The staging filesystem has room for a backup. -/
def Roomy (engine : Engine) (env : Environment) (world : World) : Prop :=
  (run env.handler (engine.ensurePathCapacity engine.cfg.repository.staging_path "backup")
    world).1 = .ok ()

/-- Platforms are isolated from each other exactly when there is no machine to back up, or
there is room, every enabled platform has an inventory and no trial of an export fails. -/
theorem isolated_iff (answers : Answers env inventories trials) {dry_run : Bool} :
    Isolated engine env inventories dry_run world ↔
      targets inventories engine.cfg.platforms = [] ∨
        (Roomy engine env world ∧ Smooth inventories trials dry_run engine.cfg.platforms) := by
  unfold Isolated Roomy backupAll
  rw [run_bind]
  cases capacity : run env.handler
      (engine.ensurePathCapacity engine.cfg.repository.staging_path "backup") world with
  | mk outcome ready =>
    cases outcome with
    | error error => simp [Classical.or_iff_not_imp_left]
    | ok _ =>
      dsimp only
      rcases @run_backupPlatforms engine env inventories trials answers dry_run
        engine.cfg.platforms ready with
        ⟨smooth, results, after, ran, all, done⟩ | ⟨rough, error, after, ran⟩
      · refine iff_of_true (fun _ => ⟨results, after, ran, all, ?_⟩) (Or.inr ⟨rfl, smooth⟩)
        intro target member
        obtain ⟨destination, answer, since⟩ := done target member
        exact ⟨destination, answer, since.earlier (log_ran capacity)⟩
      · constructor
        · intro isolated
          by_cases idle : targets inventories engine.cfg.platforms = []
          · exact Or.inl idle
          · obtain ⟨results, final, returned, _⟩ := isolated idle
            cases ran.symm.trans returned
        · rintro (idle | ⟨_, smooth⟩)
          · exact fun busy => absurd idle busy
          · exact absurd smooth rough

end Machines

section Outage

/-- An engine with a vCenter and a Proxmox cluster. -/
def twoSites : Engine :=
  { vault with cfg := { vault.cfg with
      platforms := [
        { name := "vc", type := .vmware, endpoint := "vc" },
        { name := "pve", type := .proxmox, endpoint := "pve" }]
      platforms_distinct := by decide } }

/-- The vCenter cannot be reached, and the cluster has one machine. -/
def outage (platform : PlatformConfig) : Except Exn (List VM) :=
  if platform.name = "vc" then .error ⟨.runtimeError, "vCenter cannot be reached"⟩
  else .ok [{ id := "101", name := "web" }]

def outageHost : Environment where
  answer := fun _ external => match external with
    | .inventory platform => outage platform
    | external => .ok (Environment.favourable external)
  elapsed := fun _ _ => 1

theorem isolated_iff_outage :
    Isolated twoSites outageHost outage false { db := {}, clock := 0 } ↔
      targets outage twoSites.cfg.platforms = [] ∨
        (Roomy twoSites outageHost { db := {}, clock := 0 } ∧
          Smooth outage (fun _ _ => none) false twoSites.cfg.platforms) :=
  isolated_iff {
    inventory := fun _ _ => rfl
    passed := fun _ _ _ destination _ => ⟨destination, rfl⟩
    failed := fun _ _ _ _ _ impossible => by cases impossible
    directory := fun _ _ => rfl }

/-- The machine of the cluster is not backed up while the vCenter cannot be reached. -/
theorem outage_not_isolated :
    ¬ Isolated twoSites outageHost outage false { db := {}, clock := 0 } := by
  intro isolated
  have some_targets : targets outage twoSites.cfg.platforms ≠ [] := by
    have count : (targets outage twoSites.cfg.platforms).length = 1 := by decide
    intro impossible
    rw [impossible] at count
    cases count
  obtain ⟨results, after, returned, _⟩ := isolated some_targets
  have raised : (run outageHost.handler (backupAll twoSites false)
      { db := {}, clock := 0 }).1.toOption.isNone = true := by decide
  rw [returned] at raised
  cases raised

end Outage

end Immutavault.BackupIsolation
