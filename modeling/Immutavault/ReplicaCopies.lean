import Mathlib.Data.List.Induction
import Immutavault.Backups

/-!
# Copies on replicas

A replica is a repository of its own. Copying a snapshot into it stores the same
tree under an identifier of the replica's own, and a probe or a restore on the
replica selects by these identifiers. The catalogue knows one identifier for a
recovery point, the one that the primary repository gave it.

What the tool does to repositories is assumed of the environment, as contents
that follow the history. From it follows when the confirmation of a copy can
succeed at all, and that a copy that is catalogued as successful can be restored
from its replica, over any session of backups, retention and restores.
-/

namespace Immutavault.ReplicaCopies

open Programs Values Catalog Machine Configuration ResticRepository StateDatabase
open RestoreEngine Backups

/-- A snapshot in a repository: its identifier there, the one it was copied from,
and the tree it stores. -/
structure Snapshot where
  id : String
  original : Option String
  tree : String

/-- The repository that an environment selects. -/
def repositoryOf (renv : List (String × String)) : Option String :=
  (renv.find? fun entry => entry.1 = "RESTIC_REPOSITORY").map Prod.snd

/-- The repository that an environment copies from. -/
def sourceOf (renv : List (String × String)) : Option String :=
  (renv.find? fun entry => entry.1 = "RESTIC_FROM_REPOSITORY").map Prod.snd

/-- The command removes snapshots from a repository. -/
def Removes (command : Command) (repository : String) : Prop :=
  match command with
  | .request (.run (.restic (.forget _)) renv _) | .request (.run (.restic .prune) renv _) =>
    repositoryOf renv = some repository
  | _ => False

/-- The command that copies a snapshot. -/
abbrev copyCommand (options : List String) (snapshot_id : String) (renv : List (String × String)) :
    External :=
  .run (.restic (.copy options snapshot_id)) renv none

/-- The command that asks a repository for a snapshot. -/
abbrev probeCommand (options : List String) (snapshot_id : String) (renv : List (String × String)) :
    External :=
  .run (.restic (.probe options snapshot_id)) renv none

/-- The environment's backup tool works on repositories with these contents. -/
structure Faithful (env : Environment) (contents : History → String → List Snapshot) : Prop where
  /-- Identifiers are digests: one identifier, one tree. -/
  addressed : ∀ log log' repository repository', ∀ first ∈ contents log repository,
    ∀ second ∈ contents log' repository', first.id = second.id → first.tree = second.tree
  /-- A successful copy stores the source's tree under a fresh identifier. -/
  copied : ∀ log options snapshot_id renv repository result,
    env.answer log (copyCommand options snapshot_id renv) = .ok result → result.returncode = 0 →
    repositoryOf renv = some repository →
    ∃ stored : Snapshot, stored.original = some snapshot_id ∧ stored.id ≠ snapshot_id ∧
      (∀ present ∈ contents log repository, present.id ≠ stored.id) ∧
      (∀ from_repository, sourceOf renv = some from_repository →
        ∀ source ∈ contents log from_repository, source.id = snapshot_id →
          stored.tree = source.tree) ∧
      contents (log ++ [⟨.request (copyCommand options snapshot_id renv), .ok result⟩]) repository =
        contents log repository ++ [stored]
  /-- A probe lists the snapshots whose own identifier is asked for. -/
  probed : ∀ log options snapshot_id renv repository result,
    env.answer log (probeCommand options snapshot_id renv) = .ok result → result.returncode = 0 →
    repositoryOf renv = some repository →
    ∃ shown, result.json = .ok (.arr shown) ∧
      (shown ≠ [] ↔ ∃ present ∈ contents log repository, present.id = snapshot_id)
  /-- Only forgetting and pruning remove snapshots. -/
  kept : ∀ log (exchange : Exchange controller Exn) repository, ¬ Removes exchange.1 repository →
    ∀ present ∈ contents log repository, present ∈ contents (log ++ [exchange]) repository

/-- The repository holds a snapshot under this identifier. -/
def Holds (contents : History → String → List Snapshot) (log : History)
    (repository snapshot_id : String) : Prop :=
  ∃ present ∈ contents log repository, present.id = snapshot_id

section Environments

variable {replica : ReplicaConfig} {getenv : Environ}

/-- The environment of a replica selects its repository, whatever is added to it. -/
theorem repositoryOf_targetEnv {renv : List (String × String)}
    (target : targetEnv replica getenv = .ok renv) (more : List (String × String)) :
    ∃ repository, resticTargetUrl replica = .ok repository ∧
      repositoryOf (renv ++ more) = some repository := by
  obtain ⟨password, repository, rest, url, rfl⟩ := targetEnv_shape target
  exact ⟨repository, url, by simp [repositoryOf]⟩

/-- The environment of the primary repository is that of no replica. -/
theorem env_ne_targetEnv {cfg : RepositoryConfig} {onVault : Bool} {renv : List (String × String)}
    (primary : env cfg getenv onVault = .ok renv) : targetEnv replica getenv ≠ .ok renv := by
  intro target
  obtain ⟨password, repository, rest, _, rfl⟩ := targetEnv_shape target
  unfold env at primary
  split at primary
  · cases primary
  · split at primary <;> cases onVault <;> simp at primary

end Environments

/-- Preparing a copy answers an environment that selects the replica's repository. -/
theorem yields_prepareCopy (cfg : RepositoryConfig) (getenv : Environ) (replica : ReplicaConfig) :
    Yields (fun renv => ∃ repository, resticTargetUrl replica = .ok repository ∧
      repositoryOf renv = some repository) (prepareCopy cfg getenv replica) := by
  unfold prepareCopy
  split
  · exact yields_throw _
  · cases target : targetEnv replica getenv with
    | error error => exact yields_throw error
    | ok renv =>
      have selects (source password : String) := repositoryOf_targetEnv target
        [("RESTIC_FROM_REPOSITORY", source), ("RESTIC_FROM_PASSWORD", password)]
      change Yields _ (pure renv >>= _)
      rw [pure_bind]
      split
      · exact yields_bind fun _ => yields_bind fun source => yields_pure (selects source _)
      · exact yields_bind fun source => yields_pure (selects source _)

section Confirmation

variable {env : Environment} {contents : History → String → List Snapshot}

/-- The answer of a command that succeeded. -/
def Succeeded (answer : Except Exn CommandResult) : Prop :=
  ∃ result, answer = .ok result ∧ result.returncode = 0

/-- A checked command that succeeds returns its result. -/
theorem run_runCommand {shell : Shell} {renv : List (String × String)} {world : World}
    {result : CommandResult} (answered : env.answer world.log (.run shell renv none) = .ok result)
    (clean : result.returncode = 0) :
    run env.handler (runCommand shell renv none true) world =
      (.ok result, (env.handler (.request (.run shell renv none)) world).2) := by
  have replied : env.handler (.request (.run shell renv none)) world =
      (.ok result, (env.handler (.request (.run shell renv none)) world).2) :=
    Prod.ext answered rfl
  unfold runCommand request
  rw [run_bind, run_perform, replied]
  simp [clean]

/-- A checked command that does not succeed raises. -/
theorem run_runCommand_raises {shell : Shell} {renv : List (String × String)} {world : World}
    (failed : ¬ Succeeded (env.answer world.log (.run shell renv none))) :
    ∃ error, (run env.handler (runCommand shell renv none true) world).1 = .error error := by
  have replied : env.handler (.request (.run shell renv none)) world =
      (env.answer world.log (.run shell renv none),
        (env.handler (.request (.run shell renv none)) world).2) := rfl
  unfold runCommand request
  rw [run_bind, run_perform, replied]
  cases answered : env.answer world.log (.run shell renv none) with
  | error error => exact ⟨error, rfl⟩
  | ok result =>
    have unclean : result.returncode ≠ 0 := fun clean => failed ⟨result, answered, clean⟩
    simp [unclean, raiseRuntimeError]

/-- The probe and the provider lock that follow a copy both succeed. -/
def Confirmable (env : Environment) (snapshot_id : String) (replica : ReplicaConfig)
    (immutable_days : Option Nat) (renv : List (String × String)) (world : World) : Prop :=
  Succeeded (env.answer world.log (probeCommand (resticOptions replica) snapshot_id renv)) ∧
    ∃ lock, (run env.handler (lockRequest replica immutable_days)
      (env.handler (.request (probeCommand (resticOptions replica) snapshot_id renv))
        world).2).1 = .ok lock

/-- A copy is confirmed exactly when the replica holds a snapshot under the
identifier that is asked for, and probe and lock succeed. -/
theorem confirmCopy_iff (faithful : Faithful env contents) (snapshot_id : String)
    {replica : ReplicaConfig} (immutable_days : Option Nat) {renv : List (String × String)}
    {repository : String} (url : resticTargetUrl replica = .ok repository)
    (selects : repositoryOf renv = some repository) (world : World) :
    (∃ copy, (run env.handler (confirmCopy snapshot_id replica immutable_days renv) world).1 =
        .ok copy) ↔
      Confirmable env snapshot_id replica immutable_days renv world ∧
        Holds contents world.log repository snapshot_id := by
  by_cases succeeded : Succeeded (env.answer world.log
      (probeCommand (resticOptions replica) snapshot_id renv))
  · obtain ⟨probe, answered, clean⟩ := succeeded
    obtain ⟨shown, read, nonempty⟩ := faithful.probed _ _ _ _ _ _ answered clean selects
    have confirms : Succeeded (env.answer world.log
        (probeCommand (resticOptions replica) snapshot_id renv)) := ⟨probe, answered, clean⟩
    simp only [Confirmable, confirms, true_and, Holds, ← nonempty]
    unfold confirmCopy
    rw [run_bind, run_runCommand answered clean]
    simp only [read, raised, run_bind, run_pure]
    by_cases empty : shown = []
    · simp [empty, Json.truthy, raiseRuntimeError]
    · have truthy : (Json.arr shown).truthy = true := by
        simp [Json.truthy, empty]
      simp only [truthy, not_true_eq_false, if_false, run_bind]
      rcases run env.handler (lockRequest replica immutable_days)
        (env.handler (.request (probeCommand (resticOptions replica) snapshot_id renv)) world).2
        with ⟨error | lock, after⟩
      · simp
      · simp [url, empty]
  · obtain ⟨error, fails⟩ := run_runCommand_raises succeeded
    constructor
    · rintro ⟨copy, confirmed⟩
      unfold confirmCopy at confirmed
      rw [run_bind] at confirmed
      rcases probed : run env.handler (runCommand (.restic (.probe (resticOptions replica)
        snapshot_id)) renv none true) world with ⟨outcome, after⟩
      rw [probed] at fails confirmed
      have raised : outcome = .error error := fails
      rw [raised] at confirmed
      cases confirmed
    · rintro ⟨confirmable, _⟩
      exact absurd confirmable.1 succeeded

/-- A confirmed copy is reported as a success. -/
theorem yields_confirmCopy (snapshot_id : String) (replica : ReplicaConfig)
    (immutable_days : Option Nat) (renv : List (String × String)) :
    Yields (fun copy => copy.status = "success")
      (confirmCopy snapshot_id replica immutable_days renv) := by
  refine yields_bind fun probe => yields_bind fun snapshots => ?_
  split
  · exact yields_throw _
  · exact yields_bind fun lock => yields_bind fun repository => yields_pure rfl

/-- The copy itself does not change whether the replica holds the identifier that is
asked for: what it stores has another one. -/
theorem holds_copied (faithful : Faithful env contents) {options : List String}
    {snapshot_id : String} {renv : List (String × String)} {repository : String} {world : World}
    (copied : Succeeded (env.answer world.log (copyCommand options snapshot_id renv)))
    (selects : repositoryOf renv = some repository) :
    Holds contents (env.handler (.request (copyCommand options snapshot_id renv)) world).2.log
        repository snapshot_id ↔
      Holds contents world.log repository snapshot_id := by
  obtain ⟨result, answered, clean⟩ := copied
  obtain ⟨stored, _, fresh, _, _, extended⟩ :=
    faithful.copied _ _ _ _ _ _ answered clean selects
  have logged : (env.handler (.request (copyCommand options snapshot_id renv)) world).2.log =
      world.log ++ [⟨.request (copyCommand options snapshot_id renv), .ok result⟩] := by
    have replied : env.reply world (.request (copyCommand options snapshot_id renv)) =
        .ok result := answered
    simp only [Environment.handler, replied]
  simp only [Holds, logged, extended, List.mem_append, List.mem_singleton]
  constructor
  · rintro ⟨present, before | rfl, same⟩
    · exact ⟨present, before, same⟩
    · exact absurd same fresh
  · rintro ⟨present, before, same⟩
    exact ⟨present, Or.inl before, same⟩

/-- After a copy command that succeeded, the copy is reported as a success exactly
when the replica held the source's own identifier before the copy, and probe and
lock succeed. -/
theorem copySnapshot_iff (faithful : Faithful env contents) (cfg : RepositoryConfig)
    (getenv : Environ) (snapshot_id : String) {replica : ReplicaConfig}
    (immutable_days : Option Nat) {start world : World} {renv : List (String × String)}
    (enabled : replica.enabled = true)
    (prepared : run env.handler (prepareCopy cfg getenv replica) start = (.ok renv, world))
    (copied : Succeeded
      (env.answer world.log (copyCommand (resticOptions replica) snapshot_id renv))) :
    (∃ copy, (run env.handler (copySnapshot cfg getenv snapshot_id replica immutable_days)
        start).1 = .ok copy ∧ copy.status = "success") ↔
      (∃ repository, resticTargetUrl replica = .ok repository ∧
        Holds contents world.log repository snapshot_id) ∧
      Confirmable env snapshot_id replica immutable_days renv
        (env.handler (.request (copyCommand (resticOptions replica) snapshot_id renv)) world).2 := by
  obtain ⟨repository, url, selects⟩ := yields_run (yields_prepareCopy cfg getenv replica)
    (by rw [prepared])
  have before := holds_copied faithful copied selects
  obtain ⟨result, answered, clean⟩ := copied
  have continues : run env.handler (copySnapshot cfg getenv snapshot_id replica immutable_days)
      start = run env.handler (confirmCopy snapshot_id replica immutable_days renv)
        (env.handler (.request (copyCommand (resticOptions replica) snapshot_id renv))
          world).2 := by
    unfold copySnapshot
    rw [if_neg (by simp [enabled]), run_bind, prepared]
    dsimp only
    rw [run_bind, run_runCommand answered clean]
  have confirmed := confirmCopy_iff faithful snapshot_id immutable_days url selects
    (env.handler (.request (copyCommand (resticOptions replica) snapshot_id renv)) world).2
  rw [before] at confirmed
  rw [continues]
  constructor
  · rintro ⟨copy, returned, _⟩
    obtain ⟨confirmable, held⟩ := confirmed.mp ⟨copy, returned⟩
    exact ⟨⟨repository, url, held⟩, confirmable⟩
  · rintro ⟨⟨_, same, held⟩, confirmable⟩
    rw [url] at same
    cases same
    obtain ⟨copy, returned⟩ := confirmed.mpr ⟨confirmable, held⟩
    exact ⟨copy, returned, yields_run (yields_confirmCopy _ _ _ _) returned⟩

end Confirmation

section Sessions

variable (engine : Engine) (contents : History → String → List Snapshot)

/-- Unless the replica is the vault itself, it holds a snapshot under this identifier. -/
def Copied (log : History) (snapshot_id : String) (replica : ReplicaConfig) : Prop :=
  ∀ repository, resticTargetUrl replica = .ok repository →
    repository ≠ engine.cfg.repository.local_path → Holds contents log repository snapshot_id

/-- The catalogue has a successful copy of the snapshot on the replica. -/
def Catalogued (db : Database) (snapshot_id name : String) : Prop :=
  ∃ row, db.copies.lookup (snapshot_id, name) = some row ∧ row.status = .success

/-- Every copy that is catalogued as successful is on its replica. -/
def Restorable (world : World) : Prop :=
  ∀ replica ∈ engine.cfg.replicas, replica.name ≠ "primary" → ∀ snapshot_id,
    Catalogued world.db snapshot_id replica.name →
      Copied engine contents world.log snapshot_id replica

/-- A restore from a replica names a snapshot that the replica holds. -/
def RestoresHeld (world : World) (command : Command) : Prop :=
  ∀ options snapshot_id target renv input_text,
    command = .request (.run (.restic (.restore options snapshot_id target)) renv input_text) →
    ∀ replica ∈ engine.cfg.replicas, targetEnv replica engine.getenv = .ok renv →
      Copied engine contents world.log snapshot_id replica

/-- Every command finds the catalogued copies restorable, and restores held snapshots. -/
def supervised (env : Environment) : Monitor controller Exn World :=
  env.handler.monitor fun world command =>
    Restorable engine contents world ∧ RestoresHeld engine contents world command

/-- Commands that write no copy, remove nothing from a replica and do not restore from one. -/
structure Harmless (command : Command) : Prop where
  copies : command.effect ≠ .writing .copies
  removes : ∀ repository, repository ≠ engine.cfg.repository.local_path →
    ¬ Removes command repository
  restores : ∀ options snapshot_id target renv input_text,
    command = .request (.run (.restic (.restore options snapshot_id target)) renv input_text) →
    ∀ replica, targetEnv replica engine.getenv ≠ .ok renv

variable {engine contents} {env : Environment} {world : World} {command : Command} {α : Type}

/-- What a replica holds it keeps, unless a command removes from it. -/
theorem Copied.kept (faithful : Faithful env contents) {snapshot_id : String}
    {replica : ReplicaConfig} (copied : Copied engine contents world.log snapshot_id replica)
    (removes : ∀ repository, repository ≠ engine.cfg.repository.local_path →
      ¬ Removes command repository) :
    Copied engine contents (env.handler command world).2.log snapshot_id replica := by
  intro repository url elsewhere
  obtain ⟨present, member, same⟩ := copied repository url elsewhere
  exact ⟨present, faithful.kept _ _ _ (removes repository elsewhere) present member, same⟩

/-- A command that writes no copy and removes nothing from replicas keeps copies restorable. -/
theorem Restorable.kept (faithful : Faithful env contents)
    (restorable : Restorable engine contents world) (copies : command.effect ≠ .writing .copies)
    (removes : ∀ repository, repository ≠ engine.cfg.repository.local_path →
      ¬ Removes command repository) :
    Restorable engine contents (env.handler command world).2 := by
  have same : (env.handler command world).2.db.copies = world.db.copies :=
    commit_same world.db copies
  intro replica member named snapshot_id catalogued
  refine Copied.kept faithful (restorable replica member named snapshot_id ?_) removes
  simpa only [Catalogued, same] using catalogued

/-- Harmless commands keep copies restorable, and whatever else they leave alone. -/
theorem keeps_beside (faithful : Faithful env contents) (beside : World → Prop)
    (stable : ∀ (world : World) (command : Command), Harmless engine command → beside world →
      beside (env.handler command world).2) {program : Prog α}
    (harmless : Issues (fun command : controller.Command => Harmless engine command) program) :
    Keeps (supervised engine contents env)
      (fun world => Restorable engine contents world ∧ beside world) program := by
  rintro world ⟨restorable, holds⟩
  refine wp_of_issues (fun world => Restorable engine contents world ∧ beside world) harmless
    ⟨restorable, holds⟩ ?_
  rintro current command ⟨restorable, holds⟩ harmless
  refine ⟨⟨restorable, ?_⟩, fun _ _ => ⟨restorable.kept faithful harmless.copies
    harmless.removes, stable current command harmless holds⟩⟩
  intro options snapshot_id target renv input_text same replica _ selected
  exact absurd selected (harmless.restores _ _ _ _ _ same replica)

/-- Harmless commands keep copies restorable. -/
theorem keeps_harmless (faithful : Faithful env contents) {program : Prog α}
    (harmless : Issues (fun command : controller.Command => Harmless engine command) program) :
    Keeps (supervised engine contents env) (Restorable engine contents) program :=
  fun world restorable => wp_mono (keeps_beside faithful (fun _ => True)
    (fun _ _ _ _ => trivial) harmless world ⟨restorable, trivial⟩) fun _ _ kept => kept.1

/-- They also keep a snapshot where it is. -/
theorem keeps_copied (faithful : Faithful env contents) (snapshot_id : String)
    (replica : ReplicaConfig) {program : Prog α}
    (harmless : Issues (fun command : controller.Command => Harmless engine command) program) :
    Keeps (supervised engine contents env) (fun world => Restorable engine contents world ∧
      Copied engine contents world.log snapshot_id replica) program :=
  keeps_beside faithful (fun world => Copied engine contents world.log snapshot_id replica)
    (fun _ _ harmless copied => copied.kept faithful harmless.removes) harmless

/-- Commands that are told apart by their effect alone. -/
theorem harmless_of_effect (copies : command.effect ≠ .writing .copies)
    (forget : command.effect ≠ .ofForget) (restic : command.effect ≠ .ofRestic) :
    Harmless engine command := by
  refine ⟨copies, ?_, ?_⟩
  · intro repository _ removes
    unfold Removes at removes
    split at removes
    · exact forget rfl
    · exact forget rfl
    · exact removes
  · rintro options snapshot_id target renv input_text rfl
    exact absurd rfl restic

theorem harmless_footprint {effects : List Effect} {program : Prog α}
    (footprint : Footprint effects program) (copies : .writing .copies ∉ effects)
    (forget : .ofForget ∉ effects) (restic : .ofRestic ∉ effects) :
    Issues (fun command : controller.Command => Harmless engine command) program :=
  issues_mono footprint fun _ listed => harmless_of_effect (fun same => copies (same ▸ listed))
    (fun same => forget (same ▸ listed)) (fun same => restic (same ▸ listed))

/-- A transaction that writes no copy, and the answers it gets. -/
theorem harmless_transact {transaction : Transaction}
    (other : writes transaction ≠ some .copies) :
    Issues (fun command : controller.Command => Harmless engine command)
      (transact transaction) := by
  refine (issues_perform _).mpr ?_
  cases written : writes transaction with
  | none => apply harmless_of_effect <;> simp [Command.effect, written]
  | some table =>
    rw [written] at other
    apply harmless_of_effect <;> simp [Command.effect, written]
    simpa using other

/-- The clock, deletions and requests other than commands of the tool. -/
theorem harmless_perform {command : Command}
    (effect : command.effect = .silent ∨ command.effect = .outside ∨ command.effect = .creation) :
    Issues (fun command : controller.Command => Harmless engine command)
      (@Program.perform controller Exn command) := by
  refine (issues_perform _).mpr ?_
  rcases effect with effect | effect | effect <;>
    apply harmless_of_effect <;> simp [effect]

theorem harmless_audit (actor action object_type object_id : String) (details : Dict) :
    Issues (fun command : controller.Command => Harmless engine command)
      (audit actor action object_type object_id details) := by
  have footprint : Footprint [.silent, .writing .audits]
      (audit actor action object_type object_id details) :=
    footprint_audit (by decide) (by decide) _ _ _ _ _
  exact harmless_footprint footprint (by decide) (by decide) (by decide)

theorem harmless_runCommand {shell : Shell} {renv : List (String × String)}
    {input_text : Option String} {check : Bool}
    (harmless : Harmless engine (.request (.run shell renv input_text))) :
    Issues (fun command : controller.Command => Harmless engine command)
      (runCommand shell renv input_text check) := by
  refine issues_bind ((issues_perform _).mpr harmless) fun result => ?_
  split
  · exact issues_throw _
  · exact issues_pure _

/-- Restoring from the primary repository is harmless. -/
theorem harmless_restore (snapshot_id target : String) :
    Issues (fun command : controller.Command => Harmless engine command)
      (restore engine.cfg.repository engine.getenv snapshot_id target none) := by
  refine issues_bind ((issues_perform _).mpr (harmless_of_effect (by simp [Command.effect])
    (by simp [Command.effect]) (by simp [Command.effect]))) fun _ => ?_
  cases primary : ResticRepository.env engine.cfg.repository engine.getenv false with
  | error error => exact issues_throw error
  | ok renv =>
    dsimp only
    rw [raised_ok, pure_bind]
    refine issues_bind (harmless_runCommand ?_) fun _ => issues_pure _
    refine ⟨by simp [Command.effect], by simp [Removes], ?_⟩
    rintro _ _ _ _ _ same replica
    cases same
    exact env_ne_targetEnv primary

/-- A command of the tool that neither restores nor removes. -/
theorem harmless_restic {tool : ResticCommand} {renv : List (String × String)}
    {input_text : Option String} (restores : ∀ options snapshot_id target,
      tool ≠ .restore options snapshot_id target)
    (forgets : ∀ ids, tool ≠ .forget ids) (prunes : tool ≠ .prune) :
    Harmless engine (.request (.run (.restic tool) renv input_text)) := by
  refine ⟨?_, ?_, ?_⟩
  · cases tool <;> simp [Command.effect]
  · intro repository _ removes
    cases tool with
    | forget ids => exact forgets ids rfl
    | prune => exact prunes rfl
    | _ => exact removes
  · rintro options snapshot_id target _ _ same
    cases same
    exact absurd rfl (restores _ _ _)

/-- A removal from the vault is harmless to replicas. -/
theorem harmless_removal {shell : Shell} {renv : List (String × String)} {input_text : Option String}
    (removal : (∃ ids, shell = .restic (.forget ids)) ∨ shell = .restic .prune)
    (vault : ResticRepository.env engine.cfg.repository engine.getenv true = .ok renv) :
    Harmless engine (.request (.run shell renv input_text)) := by
  have selects : repositoryOf renv = some engine.cfg.repository.local_path := by
    unfold ResticRepository.env at vault
    split at vault
    · cases vault
    · rw [← Except.ok.inj vault]
      simp [repositoryOf]
  rcases removal with ⟨ids, rfl⟩ | rfl
  · refine ⟨by simp [Command.effect], ?_, by simp⟩
    intro repository elsewhere removes
    exact elsewhere (Option.some.inj (removes.symm.trans selects))
  · refine ⟨by simp [Command.effect], ?_, by simp⟩
    intro repository elsewhere removes
    exact elsewhere (Option.some.inj (removes.symm.trans selects))

/-- Retention removes from the vault only. -/
theorem harmless_retention :
    Issues (fun command : controller.Command => Harmless engine command)
      (Backups.retention engine) := by
  refine issues_bind (issues_bind (harmless_perform (Or.inl rfl)) fun now =>
    harmless_transact (by simp [writes])) fun ids => ?_
  refine issues_bind ?_ fun removed => issues_bind ?_ fun _ =>
    issues_bind (harmless_audit _ _ _ _ _) fun _ => issues_pure _
  · unfold ResticRepository.retention
    cases vault : ResticRepository.env engine.cfg.repository engine.getenv true with
    | error error => exact issues_throw error
    | ok renv =>
      rw [raised_ok, pure_bind]
      refine issues_bind (harmless_runCommand (harmless_restic (by simp) (by simp) (by simp)))
        fun preview => ?_
      refine issues_bind (issues_raised _) fun groups => issues_bind (issues_raised _)
        fun candidates => ?_
      dsimp only
      split
      · exact issues_pure _
      · refine issues_bind (harmless_runCommand (harmless_removal (Or.inl ⟨_, rfl⟩) vault))
          fun _ => ?_
        exact issues_bind (harmless_runCommand (harmless_removal (Or.inr rfl) vault))
          fun _ => issues_pure _
  · unfold markPointsExpired
    split
    · exact issues_pure _
    · exact issues_bind (harmless_perform (Or.inl rfl)) fun now =>
        harmless_transact (by simp [writes])

theorem harmless_markVerified (snapshot_id : String) (verified : Bool) (details : Dict) :
    Issues (fun command : controller.Command => Harmless engine command)
      (markVerified snapshot_id verified details) := by
  refine issues_bind (harmless_transact (by simp [writes])) fun row => ?_
  split
  · exact issues_throw _
  · dsimp only
    split
    · exact issues_bind (issues_bind (harmless_perform (Or.inl rfl)) fun now => issues_pure _)
        fun verified_at => harmless_transact (by simp [writes])
    · exact issues_bind (issues_pure _) fun verified_at => harmless_transact (by simp [writes])

/-- Verification restores from the primary repository and marks the point. -/
theorem harmless_verifyRecoveryPoint (snapshot_id actor : String) :
    Issues (fun command : controller.Command => Harmless engine command)
      (verifyRecoveryPoint engine snapshot_id actor) := by
  refine issues_bind (harmless_transact (by simp [writes])) fun point => ?_
  split
  · exact issues_throw _
  · refine issues_bind (harmless_footprint (engine.footprint_ensurePathCapacity _ _)
      (by decide) (by decide) (by decide)) fun _ => ?_
    refine issues_bind (harmless_perform (Or.inl rfl)) fun _ => ?_
    refine issues_bind (issues_attempt ?_) fun outcome =>
      issues_bind (harmless_perform (Or.inl rfl)) fun _ => issues_raised _
    refine issues_bind (harmless_restore _ _) fun _ => ?_
    refine issues_bind (harmless_perform (Or.inr (Or.inl rfl))) fun present => ?_
    split
    · exact issues_bind (harmless_markVerified _ _ _) fun _ => issues_pure _
    · refine issues_bind (harmless_perform (Or.inr (Or.inl rfl))) fun verdict => ?_
      exact issues_bind (harmless_markVerified _ _ _) fun _ =>
        issues_bind (harmless_audit _ _ _ _ _) fun _ => issues_pure _

/-- Storing a backup in the primary repository is harmless to replicas. -/
theorem harmless_backup (path : String) (tags : List String) :
    Issues (fun command : controller.Command => Harmless engine command)
      (ResticRepository.backup engine.cfg.repository engine.getenv path tags) := by
  refine issues_bind (issues_raised _) fun renv => ?_
  refine issues_bind (harmless_runCommand (harmless_restic (by simp) (by simp) (by simp)))
    fun result => issues_bind (issues_raised _) fun summary => ?_
  dsimp only
  split
  · exact issues_throw _
  · exact issues_pure _

theorem harmless_prepareCopy (replica : ReplicaConfig) :
    Issues (fun command : controller.Command => Harmless engine command)
      (prepareCopy engine.cfg.repository engine.getenv replica) := by
  have outside (external : External) (effect : (Command.request external).effect = .outside) :
      Issues (fun command : controller.Command => Harmless engine command) (request external) :=
    harmless_perform (Or.inr (Or.inl effect))
  unfold prepareCopy
  split
  · exact issues_throw _
  · refine issues_bind (issues_raised _) fun renv => ?_
    dsimp only
    split
    · exact issues_bind (outside _ rfl) fun _ => issues_bind (outside _ rfl) fun source =>
        issues_pure _
    · exact issues_bind (outside _ rfl) fun source => issues_pure _

theorem harmless_lockRequest (replica : ReplicaConfig) (immutable_days : Option Nat) :
    Issues (fun command : controller.Command => Harmless engine command)
      (lockRequest replica immutable_days) := by
  unfold lockRequest
  split <;> exact harmless_perform (Or.inr (Or.inl rfl))

/-- Cataloguing a copy keeps copies restorable if a success is on its replica. -/
theorem keeps_upsertRecoveryCopy (faithful : Faithful env contents) (snapshot_id name backend
    repository : String) (provider : Option String) (status : CopyStatus)
    (immutable_until : Option Timestamps.Timestamp) (object_lock : Dict) (error : Option String)
    (restorable : Restorable engine contents world)
    (present : status = .success → ∀ replica ∈ engine.cfg.replicas, replica.name ≠ "primary" →
      replica.name = name → Copied engine contents world.log snapshot_id replica) :
    wp (supervised engine contents env) (upsertRecoveryCopy snapshot_id name backend repository
      provider status immutable_until object_lock error)
      (fun _ final => Restorable engine contents final) world := by
  have inserts (current : World) (row : CopyRow) (same : row.status = status)
      (restorable : Restorable engine contents current)
      (present : status = .success → ∀ replica ∈ engine.cfg.replicas, replica.name ≠ "primary" →
        replica.name = name → Copied engine contents current.log snapshot_id replica) :
      wp (supervised engine contents env) (transact (.upsertCopy snapshot_id name row))
        (fun _ final => Restorable engine contents final) current := by
    refine wp_transact ⟨restorable, by simp [RestoresHeld]⟩ ?_
    intro replica member named other ⟨found, stored, success⟩
    have removes : ∀ repository, repository ≠ engine.cfg.repository.local_path →
        ¬ Removes (.transact (.upsertCopy snapshot_id name row)) repository := by simp [Removes]
    refine Copied.kept faithful ?_ removes
    simp only [Environment.handler, Environment.commit, Transaction.write,
      Tables.Keyed.lookup_store] at stored
    split at stored
    · rename_i key
      obtain ⟨rfl, own⟩ := Prod.mk.inj key
      have given : found = row := (Option.some.inj stored).symm
      exact present (by rw [← same, ← given]; exact success) replica member named own
    · exact restorable replica member named other ⟨found, stored, success⟩
  unfold upsertRecoveryCopy
  dsimp only
  split
  · rename_i success
    refine wp_bind (wp_bind (wp_utcnow ⟨restorable, by simp [RestoresHeld]⟩ ?_))
    have quiet : ∀ repository, repository ≠ engine.cfg.repository.local_path →
        ¬ Removes .utcnow repository := by simp [Removes]
    refine inserts _ _ rfl (restorable.kept faithful (by simp [Command.effect]) quiet) ?_
    intro _ replica member named own
    exact (present success replica member named own).kept faithful quiet
  · exact inserts world _ rfl restorable present

/-- A copy that is reported is on its replica. -/
theorem wp_copySnapshot (faithful : Faithful env contents) (snapshot_id : String)
    {replica : ReplicaConfig} (immutable_days : Option Nat) (enabled : replica.enabled = true)
    (restorable : Restorable engine contents world) :
    wp (supervised engine contents env) (copySnapshot engine.cfg.repository engine.getenv
      snapshot_id replica immutable_days)
      (fun outcome final => Restorable engine contents final ∧ ∀ copy, outcome = .ok copy →
        Copied engine contents final.log snapshot_id replica) world := by
  have raises (error : Exn) (current : World) (restorable : Restorable engine contents current) :
      Restorable engine contents current ∧ ∀ copy : CopyResult, Except.error error = .ok copy →
        Copied engine contents current.log snapshot_id replica :=
    ⟨restorable, fun _ impossible => by cases impossible⟩
  unfold copySnapshot
  rw [if_neg (by simp [enabled])]
  refine wp_bind (wp_mono (wp_yields (keeps_harmless faithful (harmless_prepareCopy replica)
    world restorable) (yields_prepareCopy _ _ replica)) ?_)
  rintro outcome prepared ⟨restorable, selected⟩
  cases outcome with
  | error error => exact raises error prepared restorable
  | ok renv =>
    obtain ⟨repository, url, selects⟩ := selected renv rfl
    refine wp_bind (wp_mono (keeps_harmless faithful (harmless_runCommand
      (harmless_restic (by simp) (by simp) (by simp))) prepared restorable) ?_)
    intro outcome current restorable
    cases outcome with
    | error error => exact raises error current restorable
    | ok copied =>
      have probes : Harmless engine (.request (probeCommand (resticOptions replica)
          snapshot_id renv)) := harmless_restic (by simp) (by simp) (by simp)
      have after := restorable.kept faithful probes.copies probes.removes
      refine wp_bind (wp_runCommand ⟨restorable, by simp [RestoresHeld]⟩
        (fun _ error _ => raises error _ after) ?_)
      intro probe answered clean
      obtain ⟨shown, read, nonempty⟩ := faithful.probed _ _ _ _ _ _ answered.symm (clean rfl) selects
      refine wp_bind (wp_raised ?_)
      rw [read]
      dsimp only
      split
      · exact wp_throw (raises _ _ after)
      · rename_i truthy
        have visible : shown ≠ [] := by simpa [Json.truthy] using truthy
        have held : Copied engine contents current.log snapshot_id replica := by
          intro named same _
          rw [url] at same
          cases same
          exact nonempty.mp visible
        refine wp_bind (wp_mono (keeps_copied faithful snapshot_id replica
          (harmless_lockRequest replica immutable_days) _
          ⟨after, held.kept faithful probes.removes⟩) ?_)
        rintro outcome locked ⟨restorable, held⟩
        cases outcome with
        | error error => exact raises error locked restorable
        | ok lock =>
          refine wp_bind (wp_raised ?_)
          rw [url]
          exact wp_pure ⟨restorable, fun _ _ => held⟩

/-- Names of replicas are distinct, so a name is that of one replica. -/
theorem replica_eq {first second : ReplicaConfig} (one : first ∈ engine.cfg.replicas)
    (other : second ∈ engine.cfg.replicas) (same : first.name = second.name) : first = second :=
  List.inj_on_of_nodup_map engine.cfg.replicas_distinct one other same

/-- Replication catalogues a success only for a snapshot that is on the replica. -/
theorem keeps_replicateTo (faithful : Faithful env contents) (snapshot_id : String)
    {replica : ReplicaConfig} (member : replica ∈ engine.cfg.replicas)
    (enabled : replica.enabled = true) (immutable_days : Nat)
    (immutable_until : Timestamps.Timestamp) :
    Keeps (supervised engine contents env) (Restorable engine contents)
      (replicateTo engine snapshot_id replica immutable_days immutable_until) := by
  intro world restorable
  refine wp_bind (wp_mono (wp_copySnapshot faithful snapshot_id _ enabled restorable) ?_)
  rintro outcome current ⟨restorable, copied⟩
  cases outcome with
  | error error => exact restorable
  | ok copy =>
    have copied := copied copy rfl
    refine wp_bind (wp_raised ?_)
    cases resticTargetUrl replica with
    | error error => exact restorable
    | ok repository =>
      refine wp_bind (wp_mono (keeps_upsertRecoveryCopy faithful _ _ _ _ _ _ _ _ _ restorable
        ?_) ?_)
      · intro _ named known _ same
        rw [replica_eq known member same]
        exact copied
      · intro outcome stored restorable
        cases outcome with
        | error error => exact restorable
        | ok _ =>
          exact keeps_harmless faithful (issues_bind (harmless_audit _ _ _ _ _)
            fun _ => issues_pure _) stored restorable

/-- Cataloguing a failure claims nothing. -/
theorem keeps_recordReplicaFailure (faithful : Faithful env contents) (snapshot_id : String)
    (replica : ReplicaConfig) (error : Exn) :
    Keeps (supervised engine contents env) (Restorable engine contents)
      (recordReplicaFailure snapshot_id replica error) := by
  refine keeps_bind (fun world restorable => ?_) fun _ => keeps_harmless faithful
    (issues_bind (harmless_audit _ _ _ _ _) fun _ => issues_pure _)
  exact keeps_upsertRecoveryCopy faithful _ _ _ _ _ _ _ _ _ restorable (by simp)

/-- So does replication to all replicas, by induction on the list of replicas. -/
theorem keeps_replicate (faithful : Faithful env contents) (snapshot_id : String)
    (immutable_days : Nat) (immutable_until : Timestamps.Timestamp)
    (replicas : List ReplicaConfig) (known : ∀ replica ∈ replicas, replica ∈ engine.cfg.replicas) :
    Keeps (supervised engine contents env) (Restorable engine contents)
      (replicate engine snapshot_id immutable_days immutable_until replicas) := by
  induction replicas with
  | nil => exact keeps_pure _
  | cons replica rest inductionHypothesis =>
    have others := inductionHypothesis fun other member =>
      known other (List.mem_cons_of_mem _ member)
    unfold replicate
    split
    · exact others
    · rename_i enabled
      have enabled : replica.enabled = true := by simpa using enabled
      refine keeps_bind (keeps_tryCatch ?_ fun error => ?_) fun result =>
        keeps_bind others fun _ => keeps_pure _
      · exact keeps_replicateTo faithful snapshot_id (known replica List.mem_cons_self) enabled
          immutable_days immutable_until
      · exact keeps_recordReplicaFailure faithful snapshot_id replica error

theorem harmless_finishJob (job_id : Nat) (status : String) (snapshot_id error : Option String) :
    Issues (fun command : controller.Command => Harmless engine command)
      (finishJob job_id status snapshot_id error) :=
  issues_bind (harmless_perform (Or.inl rfl)) fun _ => harmless_transact (by simp [writes])

/-- The copy in the primary repository is catalogued under a name that no replica
restores from; the others are those of the replication. -/
theorem keeps_performBackup (faithful : Faithful env contents) (platform : PlatformConfig)
    (vm : VM) (platform_info : Dict) (now : Timestamps.Timestamp) (staging_root : String)
    (job_id : Nat) :
    Keeps (supervised engine contents env) (Restorable engine contents)
      (performBackup engine platform vm platform_info now staging_root job_id) := by
  have asks (external : External) (effect : (Command.request external).effect = .outside) :
      Keeps (supervised engine contents env) (Restorable engine contents) (request external) :=
    keeps_harmless faithful (harmless_perform (Or.inr (Or.inl effect)))
  refine keeps_bind (asks _ rfl) fun exported => keeps_bind (asks _ rfl) fun attested =>
    keeps_bind (asks _ rfl) fun manifest => ?_
  refine keeps_bind (keeps_harmless faithful (harmless_backup _ _)) fun summary => ?_
  refine keeps_bind (keeps_harmless faithful (harmless_transact (by simp [writes])))
    fun previous => keeps_bind (asks _ rfl) fun anomaly => ?_
  refine keeps_bind (keeps_harmless faithful (harmless_transact (by simp [writes]))) fun _ => ?_
  refine keeps_bind (fun world restorable => keeps_upsertRecoveryCopy faithful _ _ _ _ _ _ _ _ _
    restorable fun _ _ _ named own => absurd own named) fun _ => ?_
  refine keeps_bind (keeps_harmless faithful (harmless_finishJob _ _ _ _)) fun _ => ?_
  refine keeps_bind (keeps_harmless faithful (harmless_audit _ _ _ _ _)) fun _ => ?_
  refine keeps_bind (keeps_replicate faithful _ _ _ _ fun _ member => member) fun results => ?_
  dsimp only
  split
  · refine keeps_bind (keeps_harmless faithful (issues_bind (harmless_verifyRecoveryPoint _ _)
      fun _ => issues_pure _)) fun verified => ?_
    exact keeps_harmless faithful (issues_bind (harmless_perform (Or.inl rfl)) fun _ =>
      issues_pure _)
  · refine keeps_bind (keeps_pure _) fun verified => ?_
    exact keeps_harmless faithful (issues_bind (harmless_perform (Or.inl rfl)) fun _ =>
      issues_pure _)

/-- A backup catalogues only copies that can be restored. -/
theorem keeps_backupVM (faithful : Faithful env contents) (platform : PlatformConfig) (vm : VM)
    (platform_info : Dict) (dry_run : Bool) :
    Keeps (supervised engine contents env) (Restorable engine contents)
      (backupVM engine platform vm platform_info dry_run) := by
  refine keeps_bind (keeps_harmless faithful (harmless_perform (Or.inl rfl))) fun now => ?_
  dsimp only
  split
  · exact keeps_bind (keeps_harmless faithful (harmless_perform (Or.inr (Or.inl rfl))))
      fun _ => keeps_pure _
  · refine keeps_bind (keeps_harmless faithful (harmless_perform (Or.inr (Or.inl rfl))))
      fun _ => ?_
    refine keeps_bind (keeps_harmless faithful (issues_bind (harmless_perform (Or.inl rfl))
      fun now => harmless_transact (by simp [writes]))) fun job_id => ?_
    refine keeps_tryCatch (keeps_performBackup faithful _ _ _ _ _ _) fun error => ?_
    refine keeps_harmless faithful (issues_bind (harmless_finishJob _ _ _ _) fun _ =>
      issues_bind (harmless_audit _ _ _ _ _) fun _ => ?_)
    dsimp only
    split
    · exact issues_bind (harmless_perform (Or.inl rfl)) fun _ => issues_pure _
    · exact issues_pure _

/-- The catalogue has a successful copy of the point on the replica. -/
def Sources (engine : Engine) (snapshot_id : String) (source : Option ReplicaConfig)
    (world : World) : Prop :=
  ∀ replica, source = some replica → replica ∈ engine.cfg.replicas ∧ replica.name ≠ "primary" ∧
    Catalogued world.db snapshot_id replica.name

/-- A looked-up replica is configured under the name. -/
theorem replica_known {name : String} {replica : ReplicaConfig}
    (found : engine.replica name = .ok replica) :
    replica ∈ engine.cfg.replicas ∧ replica.name = name := by
  unfold Engine.replica at found
  split at found
  · rename_i known present
    cases found
    have named := List.find?_some present
    exact ⟨List.mem_of_find?_eq_some present, (of_decide_eq_true named).1⟩
  · cases found

/-- Resolving a source checks the copy that it answers for. -/
theorem wp_resolveSource (faithful : Faithful env contents) (point : Point)
    (source_repository : String) (restorable : Restorable engine contents world) :
    wp (supervised engine contents env) (engine.resolveSource point source_repository)
      (fun outcome final => Restorable engine contents final ∧ ∀ source, outcome = .ok source →
        Sources engine point.snapshot_id source final) world := by
  unfold Engine.resolveSource
  split
  · refine wp_pure ⟨restorable, ?_⟩
    rintro source same replica found
    cases same
    cases found
  · rename_i other
    refine wp_bind (wp_raised ?_)
    cases known : engine.replica source_repository with
    | error error => exact ⟨restorable, fun _ impossible => by cases impossible⟩
    | ok replica =>
      obtain ⟨member, named⟩ := replica_known known
      have after : Restorable engine contents (env.handler (.transact
          (.selectCopy point.snapshot_id source_repository)) world).2 :=
        restorable.kept faithful (by simp [Command.effect, writes]) (by simp [Removes])
      refine wp_bind (wp_transact ⟨restorable, by simp [RestoresHeld]⟩ ?_)
      dsimp only
      split
      · rename_i success
        refine wp_pure ⟨after, ?_⟩
        rintro source same found chosen
        cases same
        cases chosen
        obtain ⟨row, stored, status⟩ := Option.map_eq_some_iff.mp success
        exact ⟨member, named ▸ other, row, named ▸ stored, status⟩
      · exact wp_throw ⟨after, fun _ impossible => by cases impossible⟩

/-- What is looked up, if anything, is sourced from a copy that the catalogue has. -/
def Sourced (engine : Engine) (contents : History → String → List Snapshot)
    (outcome : Except Exn Engine.Prepared) (final : World) : Prop :=
  Restorable engine contents final ∧ ∀ prepared, outcome = .ok prepared →
    Sources engine prepared.point.snapshot_id prepared.replica final

theorem sourced_raise (error : Exn) (final : World) (restorable : Restorable engine contents final) :
    Sourced engine contents (.error error) final :=
  ⟨restorable, fun _ impossible => by cases impossible⟩

/-- Both lookups end by resolving the source of their point. -/
theorem wp_resolved (faithful : Faithful env contents) (point : Point) (source_repository : String)
    (prepared : Option ReplicaConfig → Engine.Prepared)
    (resolved : ∀ source, (prepared source).point = point ∧ (prepared source).replica = source)
    (restorable : Restorable engine contents world) :
    wp (supervised engine contents env) (do
      let source ← engine.resolveSource point source_repository
      return prepared source) (Sourced engine contents) world := by
  refine wp_bind (wp_mono (wp_resolveSource faithful point source_repository restorable) ?_)
  rintro outcome final ⟨restorable, sources⟩
  cases outcome with
  | error error => exact sourced_raise error final restorable
  | ok source =>
    refine wp_pure ⟨restorable, ?_⟩
    rintro given same
    cases same
    obtain ⟨point_eq, replica_eq⟩ := resolved source
    rw [point_eq, replica_eq]
    exact sources source rfl

/-- What an execution has looked up is sourced from a copy that the catalogue has. -/
theorem wp_lookup (faithful : Faithful env contents) (request_id : Nat)
    (restorable : Restorable engine contents world) :
    wp (supervised engine contents env) (engine.lookup request_id false)
      (Sourced engine contents) world := by
  have reads (transaction : Transaction) (silent : writes transaction = none) :
      Keeps (supervised engine contents env) (Restorable engine contents)
        (transact transaction) :=
    keeps_harmless faithful (harmless_transact (by simp [silent]))
  have plannable (req : RequestRow) : Keeps (supervised engine contents env)
      (Restorable engine contents) (Engine.ensurePlannable req false) :=
    keeps_harmless faithful (harmless_footprint (Engine.footprint_ensurePlannable req false)
      (by decide) (by decide) (by decide))
  have raises {β : Type} (value : Except Exn β) : Keeps (supervised engine contents env)
      (Restorable engine contents) (raised value) :=
    keeps_harmless faithful (issues_raised value)
  have native (world : World) (restorable : Restorable engine contents world) :
      wp (supervised engine contents env) (engine.lookupNative request_id false)
        (Sourced engine contents) world := by
    refine wp_bind_keeps (reads _ rfl) restorable sourced_raise fun req world restorable => ?_
    split
    · exact wp_throw (sourced_raise _ _ restorable)
    · refine wp_bind_keeps (plannable _) restorable sourced_raise fun _ world restorable => ?_
      refine wp_bind_keeps (reads _ rfl) restorable sourced_raise fun point world restorable => ?_
      split
      · exact wp_throw (sourced_raise _ _ restorable)
      · refine wp_bind_keeps (raises _) restorable sourced_raise fun target world restorable => ?_
        exact wp_resolved faithful _ _ _ (fun source => ⟨rfl, rfl⟩) restorable
  unfold Engine.lookup
  split
  · exact native world restorable
  · refine wp_bind_keeps (reads _ rfl) restorable sourced_raise fun req world restorable => ?_
    split
    · exact wp_throw (sourced_raise _ _ restorable)
    · refine wp_bind_keeps (reads _ rfl) restorable sourced_raise fun point world restorable => ?_
      split
      · exact wp_throw (sourced_raise _ _ restorable)
      · refine wp_bind_keeps (raises _) restorable sourced_raise fun target world restorable => ?_
        split
        · exact native world restorable
        · refine wp_bind_keeps (plannable _) restorable sourced_raise
            fun _ world restorable => ?_
          refine wp_bind_keeps (keeps_harmless faithful (harmless_perform (Or.inr (Or.inl rfl))))
            restorable sourced_raise fun plan world restorable => ?_
          split
          · exact wp_throw (sourced_raise _ _ restorable)
          · exact wp_resolved faithful _ _ _ (fun source => ⟨rfl, rfl⟩) restorable

/-- Harmless commands also keep the source of an execution. -/
theorem keeps_sources (faithful : Faithful env contents) (snapshot_id : String)
    (source : Option ReplicaConfig) {program : Prog α}
    (harmless : Issues (fun command : controller.Command => Harmless engine command) program) :
    Keeps (supervised engine contents env) (fun world => Restorable engine contents world ∧
      Sources engine snapshot_id source world) program := by
  refine keeps_beside faithful (Sources engine snapshot_id source) ?_ harmless
  intro world command harmless sources replica chosen
  have same : (env.handler command world).2.db.copies = world.db.copies :=
    commit_same world.db harmless.copies
  obtain ⟨member, named, catalogued⟩ := sources replica chosen
  exact ⟨member, named, by simpa only [Catalogued, same] using catalogued⟩

/-- One environment selects one repository. -/
theorem copied_of_targetEnv {log : History} {snapshot_id : String} {replica other : ReplicaConfig}
    {renv : List (String × String)} (copied : Copied engine contents log snapshot_id replica)
    (selected : targetEnv replica engine.getenv = .ok renv)
    (same : targetEnv other engine.getenv = .ok renv) :
    Copied engine contents log snapshot_id other := by
  obtain ⟨password, repository, rest, url, rfl⟩ := targetEnv_shape selected
  obtain ⟨_, _, _, otherUrl, shape⟩ := targetEnv_shape same
  simp only [List.cons.injEq, Prod.mk.injEq, true_and] at shape
  obtain ⟨_, rfl, _⟩ := shape
  intro named given elsewhere
  rw [otherUrl] at given
  cases given
  exact copied repository url elsewhere

/-- A sourced restore names a snapshot that its repository holds. -/
theorem wp_restore (faithful : Faithful env contents) (snapshot_id target : String)
    (source : Option ReplicaConfig) (restorable : Restorable engine contents world)
    (sources : Sources engine snapshot_id source world) :
    wp (supervised engine contents env)
      (restore engine.cfg.repository engine.getenv snapshot_id target source)
      (fun _ final => Restorable engine contents final) world := by
  cases source with
  | none => exact keeps_harmless faithful (harmless_restore _ _) world restorable
  | some replica =>
    refine wp_bind_keeps (keeps_sources faithful snapshot_id (some replica)
      (harmless_perform (Or.inr (Or.inl rfl)))) ⟨restorable, sources⟩ (fun _ _ kept => kept.1) ?_
    rintro _ world ⟨restorable, sources⟩
    refine wp_bind (wp_raised ?_)
    cases selected : targetEnv replica engine.getenv with
    | error error => exact restorable
    | ok renv =>
      obtain ⟨member, named, catalogued⟩ := sources replica rfl
      have copied := restorable replica member named snapshot_id catalogued
      have permitted : RestoresHeld engine contents world (.request (.run (.restic (.restore
          (resticOptions replica) snapshot_id target)) renv none)) := by
        intro _ _ _ _ _ same other _ chosen
        cases same
        exact copied_of_targetEnv copied selected chosen
      have after : Restorable engine contents (env.handler (.request (.run (.restic (.restore
          (resticOptions replica) snapshot_id target)) renv none)) world).2 :=
        restorable.kept faithful (by simp [Command.effect]) (by simp [Removes])
      refine wp_bind (wp_runCommand ⟨restorable, permitted⟩ (fun _ _ _ => after) ?_)
      intro _ _ _
      exact wp_pure after

theorem harmless_startRestore (request_id : Nat) (actor : String) :
    Issues (fun command : controller.Command => Harmless engine command)
      (startRestore request_id actor) := by
  refine issues_bind (harmless_transact (by simp [writes])) fun req => ?_
  split
  · exact issues_throw _
  · split
    · exact issues_throw _
    · refine issues_bind (harmless_perform (Or.inl rfl)) fun now => ?_
      refine issues_bind (harmless_transact (by simp [writes])) fun _ => ?_
      refine issues_bind (harmless_audit _ _ _ _ _) fun _ => ?_
      exact issues_bind (harmless_transact (by simp [writes])) fun row => issues_pure _

theorem harmless_finishRestore (request_id : Nat) (success : Bool) (result : Dict)
    (error : Option String) :
    Issues (fun command : controller.Command => Harmless engine command)
      (finishRestore request_id success result error) :=
  issues_bind (harmless_perform (Or.inl rfl)) fun _ => harmless_transact (by simp [writes])

/-- Recording a failed restore touches no copy. -/
theorem harmless_recordFailure (prepared : Engine.Prepared) (actor : String) (error : Exn) :
    Issues (fun command : controller.Command => Harmless engine command)
      (engine.recordFailure prepared actor error) := by
  refine issues_bind (harmless_finishRestore _ _ _ _) fun _ => ?_
  refine issues_bind (harmless_audit _ _ _ _ _) fun _ => ?_
  dsimp only
  split
  · exact issues_bind (harmless_perform (Or.inl rfl)) fun _ => issues_throw _
  · exact issues_throw _

/-- A started restore fetches a snapshot that its source holds. -/
theorem wp_fetchSource (faithful : Faithful env contents) (prepared : Engine.Prepared)
    (restorable : Restorable engine contents world)
    (sources : Sources engine prepared.point.snapshot_id prepared.replica world) :
    wp (supervised engine contents env) (engine.fetchSource prepared)
      (fun _ final => Restorable engine contents final) world := by
  refine wp_bind_keeps (keeps_sources faithful _ _ (harmless_perform (Or.inl rfl)))
    ⟨restorable, sources⟩ (fun _ _ kept => kept.1) ?_
  rintro _ world ⟨restorable, sources⟩
  refine wp_bind (wp_mono (wp_restore faithful _ _ _ restorable sources) ?_)
  intro outcome world restorable
  cases outcome with
  | error error => exact restorable
  | ok _ =>
    refine keeps_harmless faithful (issues_bind (harmless_perform (Or.inr (Or.inl rfl)))
      fun present => ?_) world restorable
    split
    · exact issues_throw _
    · refine issues_bind (harmless_perform (Or.inr (Or.inl rfl))) fun verdict => ?_
      dsimp only
      split
      · exact issues_throw _
      · exact issues_pure _

theorem wp_performRestore (faithful : Faithful env contents) (prepared : Engine.Prepared)
    (target_name actor : String) (restorable : Restorable engine contents world)
    (sources : Sources engine prepared.point.snapshot_id prepared.replica world) :
    wp (supervised engine contents env) (engine.performRestore prepared target_name actor)
      (fun _ final => Restorable engine contents final) world := by
  have creates : Issues (fun command : controller.Command => Harmless engine command)
      (engine.createMachine prepared target_name) :=
    harmless_footprint (engine.footprint_createMachine prepared target_name) (by decide)
      (by decide) (by decide)
  refine wp_bind (wp_mono (wp_fetchSource faithful prepared restorable sources) ?_)
  intro outcome world restorable
  cases outcome with
  | error error => exact restorable
  | ok _ =>
    exact keeps_harmless faithful (issues_bind creates fun result =>
      issues_bind (harmless_finishRestore _ _ _ _) fun _ =>
        issues_bind (harmless_audit _ _ _ _ _) fun _ =>
          issues_bind (harmless_perform (Or.inl rfl)) fun _ => issues_pure _) world restorable

/-- An execution keeps copies restorable, and restores a snapshot that is there. -/
theorem keeps_executeRestore (faithful : Faithful env contents) (request_id : Nat) (actor : String)
    (dry_run : Bool) :
    Keeps (supervised engine contents env) (Restorable engine contents)
      (engine.executeRestore request_id actor dry_run) := by
  unfold Engine.executeRestore
  split
  · exact keeps_bind (keeps_harmless faithful (harmless_footprint
      (engine.footprint_lookup request_id true) (by decide) (by decide) (by decide)))
      fun _ => keeps_pure _
  · intro world restorable
    refine wp_bind (wp_bind (wp_mono (wp_lookup faithful request_id restorable) ?_))
    rintro outcome world ⟨restorable, sourced⟩
    cases outcome with
    | error error => exact restorable
    | ok prepared =>
      have sources := sourced prepared rfl
      have checks : Issues (fun command : controller.Command => Harmless engine command)
          (engine.preflight prepared actor) :=
        harmless_footprint (engine.footprint_preflight prepared actor) (by decide) (by decide)
          (by decide)
      refine wp_bind_keeps (keeps_sources faithful _ _ checks) ⟨restorable, sources⟩
        (fun _ _ kept => kept.1) ?_
      rintro _ world ⟨restorable, sources⟩
      refine wp_pure ?_
      refine wp_bind_keeps (keeps_sources faithful _ _ (harmless_startRestore _ actor))
        ⟨restorable, sources⟩ (fun _ _ kept => kept.1) ?_
      rintro req world ⟨restorable, sources⟩
      refine wp_tryCatch (wp_mono (wp_performRestore faithful prepared _ actor restorable sources)
        ?_)
      intro outcome world restorable
      cases outcome with
      | ok result => exact restorable
      | error error => exact keeps_harmless faithful (harmless_recordFailure _ _ _) world restorable

/-- One step of a session: the operations on repositories, and any other change of
the catalogue. -/
inductive Operation where
  | backup (platform : PlatformConfig) (vm : VM) (platform_info : Dict) (dry_run : Bool)
  | retain
  | execute (request_id : Nat) (actor : String) (dry_run : Bool)
  | verify (snapshot_id actor : String)
  | record (transaction : Transaction) (other : writes transaction ≠ some .copies)

def Operation.program (engine : Engine) : Operation → Prog Unit
  | .backup platform vm platform_info dry_run => do
    let _ ← backupVM engine platform vm platform_info dry_run
  | .retain => do
    let _ ← Backups.retention engine
  | .execute request_id actor dry_run => do
    let _ ← engine.executeRestore request_id actor dry_run
  | .verify snapshot_id actor => do
    let _ ← verifyRecoveryPoint engine snapshot_id actor
  | .record transaction _ => do
    let _ ← transact transaction

/-- The operations one after another; what one raises does not keep the next from running. -/
def session (engine : Engine) : List Operation → Prog Unit
  | [] => pure ()
  | operation :: rest => do
    let _ ← (operation.program engine).attempt
    session engine rest

/-- A session keeps copies restorable. -/
theorem keeps_session (faithful : Faithful env contents) (operations : List Operation) :
    Keeps (supervised engine contents env) (Restorable engine contents)
      (session engine operations) := by
  induction operations with
  | nil => exact keeps_pure _
  | cons operation rest inductionHypothesis =>
    refine keeps_bind (keeps_attempt ?_) fun _ => inductionHypothesis
    cases operation with
    | backup platform vm platform_info dry_run =>
      exact keeps_bind (keeps_backupVM faithful _ _ _ _) fun _ => keeps_pure _
    | retain => exact keeps_bind (keeps_harmless faithful harmless_retention) fun _ => keeps_pure _
    | execute request_id actor dry_run =>
      exact keeps_bind (keeps_executeRestore faithful _ _ _) fun _ => keeps_pure _
    | verify snapshot_id actor =>
      exact keeps_bind (keeps_harmless faithful (harmless_verifyRecoveryPoint _ _))
        fun _ => keeps_pure _
    | record transaction other =>
      exact keeps_bind (keeps_harmless faithful (harmless_transact other)) fun _ => keeps_pure _

end Sessions

/-- Copies on replicas. A copy command that succeeded is reported as a success
exactly when the replica held the source's own identifier before, and probe and
lock succeed. And over any session that starts with restorable copies, every
catalogued copy stays restorable, and every restore from a replica names a
snapshot that the replica holds, with the tree of that identifier. -/
theorem replica_copies {env : Environment} {contents : History → String → List Snapshot}
    (faithful : Faithful env contents) (engine : Engine) :
    (∀ snapshot_id replica immutable_days start world renv, replica.enabled = true →
      run env.handler (prepareCopy engine.cfg.repository engine.getenv replica) start =
        (.ok renv, world) →
      Succeeded (env.answer world.log (copyCommand (resticOptions replica) snapshot_id renv)) →
      ((∃ copy, (run env.handler (copySnapshot engine.cfg.repository engine.getenv snapshot_id
          replica immutable_days) start).1 = .ok copy ∧ copy.status = "success") ↔
        (∃ repository, resticTargetUrl replica = .ok repository ∧
          Holds contents world.log repository snapshot_id) ∧
        Confirmable env snapshot_id replica immutable_days renv
          (env.handler (.request (copyCommand (resticOptions replica) snapshot_id renv))
            world).2)) ∧
    ∀ operations start, Restorable engine contents start →
      ∀ entry ∈ issued env.handler (session engine operations) start,
        Restorable engine contents entry.1 ∧
        ∀ options snapshot_id target renv input_text,
          entry.2 = .request (.run (.restic (.restore options snapshot_id target)) renv
            input_text) →
          ∀ replica ∈ engine.cfg.replicas, targetEnv replica engine.getenv = .ok renv →
          ∀ repository, resticTargetUrl replica = .ok repository →
            repository ≠ engine.cfg.repository.local_path →
            ∃ present ∈ contents entry.1.log repository, present.id = snapshot_id ∧
              ∀ log other, ∀ source ∈ contents log other, source.id = snapshot_id →
                source.tree = present.tree := by
  constructor
  · intro snapshot_id replica immutable_days start world renv enabled prepared copied
    exact copySnapshot_iff faithful _ _ snapshot_id immutable_days enabled prepared copied
  · intro operations start restorable entry asked
    obtain ⟨here, restores⟩ := wp_issued (keeps_session faithful operations start restorable)
      entry asked
    refine ⟨here, ?_⟩
    intro options snapshot_id target renv input_text same replica member selected repository url
      elsewhere
    obtain ⟨present, held, named⟩ := restores options snapshot_id target renv input_text same
      replica member selected repository url elsewhere
    refine ⟨present, held, named, ?_⟩
    intro log other source stored sameId
    exact faithful.addressed _ _ _ _ source stored present held (sameId.trans named.symm)

/-- An identifier that is longer than all those in use. -/
def freshId (snapshot_id : String) (held : List Snapshot) : String :=
  held.foldr (fun snapshot text => snapshot.id ++ text) (snapshot_id ++ "+")

theorem length_freshId (snapshot_id : String) (held : List Snapshot) :
    snapshot_id.length < (freshId snapshot_id held).length ∧
      ∀ snapshot ∈ held, snapshot.id.length < (freshId snapshot_id held).length := by
  induction held with
  | nil =>
    have longer : 0 < "+".length := by decide
    simp [freshId, longer]
  | cons first rest inductionHypothesis =>
    have extended : (freshId snapshot_id (first :: rest)).length =
        first.id.length + (freshId snapshot_id rest).length := by
      simp [freshId]
    obtain ⟨own, others⟩ := inductionHypothesis
    refine ⟨by omega, ?_⟩
    intro snapshot member
    rcases List.mem_cons.mp member with rfl | later
    · omega
    · have shorter := others snapshot later
      omega

/-- What an exchange stores in a repository: a copy of the one disk, under a fresh identifier. -/
def storing (repository : String) (held : List Snapshot) (exchange : Exchange controller Exn) :
    List Snapshot :=
  match exchange with
  | ⟨.request (.run (.restic (.copy _ snapshot_id)) renv none), .ok result⟩ =>
    if repositoryOf renv = some repository ∧ result.returncode = 0 then
      held ++ [⟨freshId snapshot_id held, some snapshot_id, "disk"⟩]
    else held
  | _ => held

/-- The primary repository starts with one snapshot, every other one empty. -/
def oneDisk (log : History) (repository : String) : List Snapshot :=
  log.foldl (storing repository)
    (if repository = "rest:https://vault:8000/repo" then [⟨"4f1c", none, "disk"⟩] else [])

/-- A tool that works on these contents; everything else succeeds. -/
def replicating : Environment where
  answer := fun log external =>
    match external with
    | .run (.restic (.probe _ snapshot_id)) renv _ => .ok {
        returncode := 0
        json := .ok (.arr (if (oneDisk log ((repositoryOf renv).getD "")).any
          fun present => present.id = snapshot_id then [.str snapshot_id] else [])) }
    | external => Environment.obliging.answer log external
  elapsed := fun _ _ => 1

theorem oneDisk_concat (log : History) (exchange : Exchange controller Exn) (repository : String) :
    oneDisk (log ++ [exchange]) repository = storing repository (oneDisk log repository) exchange := by
  simp [oneDisk]

/-- Every snapshot is of the one disk. -/
theorem oneDisk_tree (log : History) (repository : String) :
    ∀ present ∈ oneDisk log repository, present.tree = "disk" := by
  induction log using List.reverseRecOn with
  | nil =>
    intro present member
    simp only [oneDisk, List.foldl_nil] at member
    split at member <;> simp_all
  | append_singleton log exchange inductionHypothesis =>
    rw [oneDisk_concat]
    intro present member
    unfold storing at member
    split at member
    · split at member
      · rcases List.mem_append.mp member with before | now
        · exact inductionHypothesis present before
        · rw [List.mem_singleton.mp now]
      · exact inductionHypothesis present member
    · exact inductionHypothesis present member

/-- The tool behaves as is assumed of it. -/
theorem faithful_replicating : Faithful replicating oneDisk where
  addressed := by
    intro log log' repository repository' first member second other _
    rw [oneDisk_tree log repository first member, oneDisk_tree log' repository' second other]
  copied := by
    intro log options snapshot_id renv repository result answered clean selects
    obtain ⟨longer, longest⟩ := length_freshId snapshot_id (oneDisk log repository)
    refine ⟨⟨freshId snapshot_id (oneDisk log repository), some snapshot_id, "disk"⟩, rfl,
      fun same => ?_, fun present member same => ?_, ?_, ?_⟩
    · have equal := congrArg String.length same
      simp only at equal
      omega
    · have equal := congrArg String.length same
      have shorter := longest present member
      simp only at equal
      omega
    · intro from_repository _ source member _
      exact (oneDisk_tree log from_repository source member).symm
    · rw [oneDisk_concat]
      simp [storing, selects, clean]
  probed := by
    intro log options snapshot_id renv repository result answered _ selects
    have shown := Except.ok.inj answered
    refine ⟨_, by rw [← shown], ?_⟩
    simp [selects]
  kept := by
    intro log exchange repository _ present member
    rw [oneDisk_concat]
    unfold storing
    split
    · split
      · exact List.mem_append_left _ member
      · exact member
    · exact member

/-- A replica on a mounted file system. -/
def offsite : ReplicaConfig where
  name := "offsite"
  backend := .filesystem
  path := some "/mnt/offsite"

/-- The engine with this replica. -/
def replicated : Engine :=
  { vault with cfg := { vault.cfg with
      replicas := [offsite], replicas_distinct := by decide } }

/-- A copy that succeeds, and that the replica holds, is reported as not exposed. -/
theorem copied_under_fresh_id :
    let copying := run replicating.handler (copySnapshot replicated.cfg.repository
      replicated.getenv "4f1c" offsite none) ⟨{}, 0, []⟩
    (∃ renv result, (⟨.request (copyCommand [] "4f1c" renv), .ok result⟩ :
      Exchange controller Exn) ∈ copying.2.log ∧ result.returncode = 0) ∧
    (oneDisk copying.2.log "/mnt/offsite").map (·.original) = [some "4f1c"] ∧
    copying.1 = .error
      ⟨.runtimeError, "replica offsite did not expose copied snapshot 4f1c"⟩ := by
  refine ⟨⟨_, _, .tail _ (.head _), rfl⟩, by decide, by rfl⟩

/-- The result about copies for this engine and this tool. -/
theorem replica_copies_offsite :
    (∀ snapshot_id replica immutable_days start world renv, replica.enabled = true →
      run replicating.handler (prepareCopy replicated.cfg.repository replicated.getenv replica)
        start = (.ok renv, world) →
      Succeeded (replicating.answer world.log
        (copyCommand (resticOptions replica) snapshot_id renv)) →
      ((∃ copy, (run replicating.handler (copySnapshot replicated.cfg.repository replicated.getenv
          snapshot_id replica immutable_days) start).1 = .ok copy ∧ copy.status = "success") ↔
        (∃ repository, resticTargetUrl replica = .ok repository ∧
          Holds oneDisk world.log repository snapshot_id) ∧
        Confirmable replicating snapshot_id replica immutable_days renv
          (replicating.handler (.request (copyCommand (resticOptions replica) snapshot_id renv))
            world).2)) ∧
    ∀ operations start, Restorable replicated oneDisk start →
      ∀ entry ∈ issued replicating.handler (session replicated operations) start,
        Restorable replicated oneDisk entry.1 ∧
        ∀ options snapshot_id target renv input_text,
          entry.2 = .request (.run (.restic (.restore options snapshot_id target)) renv
            input_text) →
          ∀ replica ∈ replicated.cfg.replicas, targetEnv replica replicated.getenv = .ok renv →
          ∀ repository, resticTargetUrl replica = .ok repository →
            repository ≠ replicated.cfg.repository.local_path →
            ∃ present ∈ oneDisk entry.1.log repository, present.id = snapshot_id ∧
              ∀ log other, ∀ source ∈ oneDisk log other, source.id = snapshot_id →
                source.tree = present.tree :=
  replica_copies faithful_replicating replicated

end Immutavault.ReplicaCopies
