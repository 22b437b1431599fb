import Immutavault.LockHorizons
import Immutavault.PromotionSafety
import Immutavault.ReplicaCopies

/-!
# What the names of copies denote

A row of the catalogue's copies is keyed by a snapshot and a target name. One name,
`primary`, is built in and denotes the append-only vault; the others denote configured
replicas. Backups store a row for the vault and one for every enabled replica, a
synchronization for disaster recovery stores rows for its replica, and a restore picks
its repository by the same names.

The loader accepts any distinct names for replicas, so also the built-in one. When no
enabled replica has it, every row that any of these operations stores describes the
repository that its name denotes, in every state that they pass through, and a restore
whose request names an enabled replica reads from that replica. An enabled replica with
the built-in name overwrites the rows of the vault, and no request can name it.
-/

namespace Immutavault.CopyTargets

open Programs Values Timestamps Catalog Machine Histories Configuration ResticRepository
open StateDatabase RestoreEngine Backups JobOutcomes ProtectionPolicies DROrchestrator

variable (engine : Engine)

/-- The row describes the repository that the name denotes. -/
def Denotes (name : String) (row : CopyRow) : Prop :=
  if name = "primary" then
    row.backend = "rest" ∧ row.provider = none ∧ row.repository = engine.cfg.repository.url ∧
      row.status = .success
  else
    ∃ replica ∈ engine.cfg.replicas, replica.enabled = true ∧ replica.name = name ∧
      row.backend = replica.backend.text ∧ row.provider = replicaProvider replica ∧
      row.repository = repositoryText replica ∧
      (row.status = .success → resticTargetUrl replica = .ok row.repository)

/-- Every row of the catalogue describes the repository that its name denotes. -/
def Described (world : World) : Prop :=
  ∀ snapshot_id name row, world.db.copies.lookup (snapshot_id, name) = some row →
    Denotes engine name row

/-- No enabled replica has the name of the vault. -/
def Reserved : Prop :=
  ∀ replica ∈ engine.cfg.replicas, replica.enabled = true → replica.name ≠ "primary"

instance : Decidable (Reserved engine) :=
  inferInstanceAs (Decidable (∀ replica ∈ engine.cfg.replicas, replica.enabled = true →
    replica.name ≠ "primary"))

/-- A row that the command stores, if any, describes what its name denotes. -/
def Describing (command : controller.Command) : Prop :=
  ∀ snapshot_id name row, command = .transact (.upsertCopy snapshot_id name row) →
    Denotes engine name row

/-- A snapshot that the command restores, if any, is restored from the replica. -/
def ReadsFrom (replica : ReplicaConfig) (command : controller.Command) : Prop :=
  ∀ options snapshot_id target renv input_text,
    command = .request (.run (.restic (.restore options snapshot_id target)) renv input_text) →
      options = resticOptions replica ∧ targetEnv replica engine.getenv = .ok renv

variable {engine} {env : Environment} {world : World} {α β : Type}

/-- The row of an enabled replica describes it, whether the copy succeeded or not. -/
theorem denotes_replica (reserved : Reserved engine) {replica : ReplicaConfig}
    (listed : replica ∈ engine.cfg.replicas) (enabled : replica.enabled = true) {row : CopyRow}
    (backend : row.backend = replica.backend.text)
    (provider : row.provider = replicaProvider replica)
    (repository : row.repository = repositoryText replica)
    (success : row.status = .success → resticTargetUrl replica = .ok row.repository) :
    Denotes engine replica.name row := by
  unfold Denotes
  rw [if_neg (reserved replica listed enabled)]
  exact ⟨replica, listed, enabled, rfl, backend, provider, repository, success⟩

/-- A command that stores a row which describes its name keeps the catalogue described. -/
theorem described_handler {command : Command} (describing : Describing engine command)
    (described : Described engine world) : Described engine (env.handler command world).2 := by
  intro snapshot_id name row found
  by_cases other : command.effect = .writing .copies
  · obtain ⟨key, target, stored, rfl⟩ := LockHorizons.upsertCopy_of_effect other
    change (world.db.copies.store (key, target) stored).lookup (snapshot_id, name) = some row
      at found
    rw [Tables.Keyed.lookup_store] at found
    split at found
    · rename_i same
      cases same
      cases found
      exact describing _ _ _ rfl
    · exact described _ _ _ found
  · have same : (env.handler command world).2.db.copies = world.db.copies :=
      commit_same world.db other
    exact described _ _ _ (same ▸ found)

section Writers

/-- A program that writes no copy describes everything. -/
theorem describing_unwritten {effects : List Effect} {program : Prog α}
    (footprint : Footprint effects program) (unwritten : .writing .copies ∉ effects) :
    Issues (Describing engine) program := by
  refine issues_mono footprint ?_
  rintro command listed snapshot_id name row rfl
  exact absurd listed unwritten

theorem describing_audit (actor action object_type object_id : String) (details : Dict) :
    Issues (Describing engine) (audit actor action object_type object_id details) :=
  describing_unwritten (@footprint_audit [.silent, .writing .audits] (by simp) (by simp) _ _ _ _ _)
    (by simp)

/-- Storing a copy stores the row that it is given. -/
theorem describing_upsert {snapshot_id name backend repository : String}
    {provider : Option String} {status : CopyStatus} {immutable_until : Option Timestamp}
    {object_lock : Dict} {error : Option String}
    (denotes : ∀ copied_at, Denotes engine name {
        backend := backend, provider := provider, repository := repository, status := status
        copied_at := copied_at, verified := false, verified_at := none
        immutable_until := immutable_until, object_lock := object_lock, error := error }) :
    Issues (Describing engine) (upsertRecoveryCopy snapshot_id name backend repository provider
      status immutable_until object_lock error) := by
  have timing : Issues (Describing engine) (utcnow >>= fun now => pure (some now) :
      Prog (Option Timestamp)) :=
    describing_unwritten (@footprint_bind _ _ [.silent] _ _ (footprint_utcnow (by simp))
      fun _ => footprint_pure _) (by simp)
  have storing : ∀ copied_at, Describing engine (.transact (.upsertCopy snapshot_id name {
        backend := backend, provider := provider, repository := repository, status := status
        copied_at := copied_at, verified := false, verified_at := none
        immutable_until := immutable_until, object_lock := object_lock, error := error })) := by
    intro copied_at _ _ _ same
    cases same
    exact denotes copied_at
  unfold upsertRecoveryCopy
  dsimp only
  split
  · exact issues_bind timing fun copied_at => (issues_perform _).mpr (storing copied_at)
  · exact issues_bind (issues_pure _) fun copied_at => (issues_perform _).mpr (storing copied_at)

/-- What follows a program may rely on what the program returns. -/
theorem issues_bind_of {property : controller.Command → Prop} {returned : α → Prop}
    {program : Prog α} {next : α → Prog β} (first : Issues property program)
    (yields : Yields returned program)
    (rest : ∀ value, returned value → Issues property (next value)) :
    Issues property (program >>= next) := by
  change Issues property (Program.bind program next)
  induction program with
  | ret value => exact rest value yields
  | raise error => trivial
  | call command resume inductionHypothesis =>
    exact ⟨first.1, fun answer => inductionHypothesis answer (first.2 answer) (yields answer)⟩

/-- A copy to an enabled replica reports the replica's repository. -/
theorem yields_copySnapshot {cfg : RepositoryConfig} {getenv : Environ} {snapshot_id : String}
    {replica : ReplicaConfig} {immutable_days : Option Nat} (enabled : replica.enabled = true) :
    Yields (fun copied => resticTargetUrl replica = .ok copied.repository)
      (copySnapshot cfg getenv snapshot_id replica immutable_days) := by
  unfold copySnapshot
  rw [if_neg (by simp [enabled])]
  refine yields_bind fun renv => yields_bind fun _ => yields_bind fun probe => ?_
  refine yields_bind fun snapshots => ?_
  split
  · exact yields_throw _
  · refine yields_bind fun lock => ?_
    cases url : resticTargetUrl replica with
    | error error => exact yields_throw error
    | ok repository => exact yields_pure rfl

theorem repositoryText_ok {replica : ReplicaConfig} {repository : String}
    (url : resticTargetUrl replica = .ok repository) : repositoryText replica = repository := by
  simp only [repositoryText, url]

variable {view : Engine}

/-- Replication stores what the replica's own settings say. -/
theorem describing_replicateTo (reserved : Reserved engine) {snapshot_id : String}
    {replica : ReplicaConfig} {immutable_days : Nat} {immutable_until : Timestamp}
    (listed : replica ∈ engine.cfg.replicas) (enabled : replica.enabled = true) :
    Issues (Describing engine)
      (replicateTo view snapshot_id replica immutable_days immutable_until) := by
  refine issues_bind (describing_unwritten (footprint_copySnapshot _ _ _ _ _) (by simp))
    fun copied => ?_
  cases url : resticTargetUrl replica with
  | error error => exact issues_throw error
  | ok repository =>
    rw [raised_ok, pure_bind]
    refine issues_bind (describing_upsert fun copied_at => ?_) fun _ =>
      issues_bind (describing_audit _ _ _ _ _) fun _ => issues_pure _
    exact denotes_replica reserved listed enabled rfl rfl (repositoryText_ok url).symm
      fun _ => url

/-- So does a failed replication. -/
theorem describing_recordReplicaFailure (reserved : Reserved engine) {snapshot_id : String}
    {replica : ReplicaConfig} {error : Exn} (listed : replica ∈ engine.cfg.replicas)
    (enabled : replica.enabled = true) :
    Issues (Describing engine) (recordReplicaFailure snapshot_id replica error) := by
  refine issues_bind (describing_upsert fun copied_at => ?_) fun _ =>
    issues_bind (describing_audit _ _ _ _ _) fun _ => issues_pure _
  exact denotes_replica reserved listed enabled rfl rfl rfl nofun

theorem describing_replicate (reserved : Reserved engine) {snapshot_id : String}
    {immutable_days : Nat} {immutable_until : Timestamp} {replicas : List ReplicaConfig}
    (listed : ∀ replica ∈ replicas, replica ∈ engine.cfg.replicas) :
    Issues (Describing engine)
      (replicate view snapshot_id immutable_days immutable_until replicas) := by
  induction replicas with
  | nil => exact issues_pure _
  | cons replica rest inductionHypothesis =>
    have others := inductionHypothesis
      fun other member => listed other (List.mem_cons_of_mem _ member)
    have own := listed replica List.mem_cons_self
    unfold replicate
    split
    · exact others
    · rename_i enabled
      have enabled : replica.enabled = true := by simpa using enabled
      refine issues_bind (issues_tryCatch (describing_replicateTo reserved own enabled)
        fun error => describing_recordReplicaFailure reserved own enabled) fun _ => ?_
      exact issues_bind others fun _ => issues_pure _

/-- A view of the engine has its vault, and replicas of it. -/
structure Views (engine view : Engine) : Prop where
  vault : view.cfg.repository.url = engine.cfg.repository.url
  replicas : ∀ replica ∈ view.cfg.replicas, replica ∈ engine.cfg.replicas

/-- A backup stores the row of the vault, and those of its replication. -/
theorem describing_backupVM (reserved : Reserved engine) (views : Views engine view)
    (platform : PlatformConfig) (vm : VM) (platform_info : Dict) (dry_run : Bool) :
    Issues (Describing engine) (backupVM view platform vm platform_info dry_run) := by
  cases dry_run with
  | true =>
    refine describing_unwritten (@footprint_bind _ _ [.silent, .outside] _ _
      (footprint_utcnow (by simp)) fun now => ?_) (by simp)
    rw [if_pos rfl]
    exact footprint_bind (footprint_request (by simp [Command.effect])) fun _ => footprint_pure _
  | false =>
    rw [backupVM_eq]
    refine issues_bind (describing_unwritten (footprint_openJob view platform vm) (by simp))
      fun opened => ?_
    refine issues_tryCatch ?_ fun error =>
      describing_unwritten (footprint_recordBackupFailure view platform vm _ _ error) (by simp)
    rw [performBackup_eq]
    refine issues_bind (describing_unwritten (footprint_draft view platform vm _ _ _) (by simp))
      fun drafted => ?_
    refine issues_bind (issues_bind (describing_unwritten (@footprint_transact
      [.writing .points] _ (by simp [Command.effect, writes])) (by simp)) fun _ =>
        describing_upsert ?_) fun _ => ?_
    · intro copied_at
      unfold Denotes
      rw [if_pos rfl]
      exact ⟨rfl, rfl, views.vault, rfl⟩
    · refine issues_bind (describing_unwritten (footprint_finishJob _ _ _ _) (by simp))
        fun _ => ?_
      refine issues_bind (describing_audit _ _ _ _ _) fun _ => ?_
      refine issues_bind (describing_replicate reserved views.replicas) fun replicas => ?_
      have clearing : ∀ root (report : Dict), Issues (Describing engine)
          (rmtree root >>= fun _ => pure report) := fun root report =>
        describing_unwritten (@footprint_bind _ _ [.silent] _ _ (footprint_rmtree (by simp) _)
          fun _ => footprint_pure _) (by simp)
      dsimp only
      split
      · refine issues_bind (describing_unwritten (footprint_bind
          (footprint_verifyRecoveryPoint view _ "system") fun _ => footprint_pure _) (by simp))
          fun verified => ?_
        exact clearing _ _
      · exact issues_bind (issues_pure _) fun verified => clearing _ _

theorem describing_backupMachines (reserved : Reserved engine) (views : Views engine view)
    (platform : PlatformConfig) (platform_info : Dict) (dry_run : Bool) (machines : List VM) :
    Issues (Describing engine) (backupMachines view platform platform_info dry_run machines) := by
  induction machines with
  | nil => exact issues_pure _
  | cons vm rest inductionHypothesis =>
    refine issues_bind (describing_backupVM reserved views _ _ _ _) fun result => ?_
    exact issues_bind inductionHypothesis fun _ => issues_pure _

theorem describing_backupPlatforms (reserved : Reserved engine) (views : Views engine view)
    (dry_run : Bool) (platforms : List PlatformConfig) :
    Issues (Describing engine) (backupPlatforms view dry_run platforms) := by
  induction platforms with
  | nil => exact issues_pure _
  | cons platform rest inductionHypothesis =>
    unfold backupPlatforms
    split
    · exact inductionHypothesis
    · have asking : Footprint [.outside] (tryCatch (request (.platformInfo platform)) fun exc =>
          pure [("error", .str exc.message)] : Prog Dict) :=
        footprint_tryCatch (footprint_request (by simp [Command.effect])) fun _ => footprint_pure _
      refine issues_bind (describing_unwritten asking (by simp)) fun platform_info => ?_
      refine issues_bind (describing_unwritten (@footprint_request [.outside] _
        (by simp [Command.effect])) (by simp)) fun machines => ?_
      refine issues_bind (describing_backupMachines reserved views _ _ _ _) fun results => ?_
      exact issues_bind inductionHypothesis fun _ => issues_pure _

theorem describing_backupAll (reserved : Reserved engine) (views : Views engine view)
    (dry_run : Bool) : Issues (Describing engine) (backupAll view dry_run) :=
  issues_bind (describing_unwritten (view.footprint_ensurePathCapacity _ _) (by simp))
    fun _ => describing_backupPlatforms reserved views _ _

/-- A policy backs up through a view of the engine. -/
theorem describing_runPolicy (reserved : Reserved engine) (policy : ProtectionPolicy)
    (dry_run : Bool) (actor : String) :
    Issues (Describing engine) (runPolicy engine policy dry_run actor) := by
  have views : Views engine (policyEngine engine policy) :=
    ⟨rfl, fun _ member => mem_policyEngine_replicas member⟩
  unfold runPolicy
  split
  · exact issues_throw _
  · refine issues_bind (describing_backupAll reserved views _) fun results => ?_
    dsimp only
    split
    · exact issues_bind (describing_audit _ _ _ _ _) fun _ => issues_pure _
    · exact issues_pure _

end Writers

section Synchronizations

/-- A synchronization copies to the enabled replica that it looked up. -/
theorem replica_enabled {name : String} {replica : ReplicaConfig}
    (found : engine.replica name = .ok replica) :
    replica ∈ engine.cfg.replicas ∧ replica.enabled = true ∧ replica.name = name := by
  unfold Engine.replica at found
  split at found
  · rename_i known present
    cases found
    have chosen := List.find?_some present
    obtain ⟨named, enabled⟩ := of_decide_eq_true chosen
    exact ⟨List.mem_of_find?_eq_some present, enabled, named⟩
  · cases found

/-- Names are distinct, so an enabled replica is found under its name. -/
theorem replica_found {replica : ReplicaConfig} (listed : replica ∈ engine.cfg.replicas)
    (enabled : replica.enabled = true) : engine.replica replica.name = .ok replica := by
  unfold Engine.replica
  cases present : engine.cfg.replicas.find?
      fun other => other.name = replica.name ∧ other.enabled with
  | none =>
    have absent := List.find?_eq_none.mp present replica listed
    simp [enabled] at absent
  | some other =>
    have chosen := List.find?_some present
    obtain ⟨named, _⟩ := of_decide_eq_true chosen
    have same : other = replica := List.inj_on_of_nodup_map engine.cfg.replicas_distinct
      (List.mem_of_find?_eq_some present) listed named
    rw [same]

theorem describing_syncPoint (reserved : Reserved engine) {replica : ReplicaConfig} {point : Point}
    (listed : replica ∈ engine.cfg.replicas) (enabled : replica.enabled = true) :
    Issues (Describing engine) (syncPoint engine replica point) := by
  refine issues_bind_of (describing_unwritten (footprint_copySnapshot _ _ _ _ _) (by simp))
    (yields_copySnapshot enabled) fun copied url => ?_
  refine issues_bind (describing_upsert fun copied_at => ?_) fun _ => issues_pure _
  exact denotes_replica reserved listed enabled rfl rfl (repositoryText_ok url).symm fun _ => url

theorem describing_syncWorkload (reserved : Reserved engine) {replica : ReplicaConfig}
    (listed : replica ∈ engine.cfg.replicas) (enabled : replica.enabled = true)
    (workload : DRVMConfig) :
    Issues (Describing engine) (syncWorkload engine replica workload) := by
  have listing : Footprint [.silent] (latestPoint workload) :=
    footprint_bind (footprint_reading rfl (by simp)) fun _ => footprint_pure _
  refine issues_bind (describing_unwritten listing (by simp)) fun found => ?_
  cases found with
  | none => exact issues_pure _
  | some point =>
    dsimp only
    split
    · exact issues_pure _
    have copies : Footprint [.silent] (getRecoveryCopy point.snapshot_id replica.name) :=
      footprint_reading rfl (by simp)
    refine issues_bind (describing_unwritten copies (by simp)) fun existing => ?_
    split
    · exact issues_pure _
    · refine issues_bind (issues_attempt (describing_syncPoint reserved listed enabled))
        fun outcome => ?_
      cases outcome with
      | ok result => exact issues_pure _
      | error error => exact issues_pure _

theorem describing_syncWorkloads (reserved : Reserved engine) {replica : ReplicaConfig}
    (listed : replica ∈ engine.cfg.replicas) (enabled : replica.enabled = true)
    (workloads : List DRVMConfig) :
    Issues (Describing engine) (syncWorkloads engine replica workloads) := by
  induction workloads with
  | nil => exact issues_pure _
  | cons workload rest inductionHypothesis =>
    refine issues_bind (describing_syncWorkload reserved listed enabled workload) fun outcome => ?_
    exact issues_bind inductionHypothesis fun _ => issues_pure _

theorem describing_sync (reserved : Reserved engine) :
    Issues (Describing engine) (sync engine) := by
  refine issues_bind (describing_unwritten (footprint_ensureEnabled engine []) (by simp))
    fun _ => ?_
  cases found : engine.replica engine.cfg.dr.replica with
  | error error => exact issues_throw error
  | ok replica =>
    obtain ⟨listed, enabled, _⟩ := replica_enabled found
    rw [raised_ok, pure_bind]
    refine issues_bind (describing_syncWorkloads reserved listed enabled _) fun outcomes => ?_
    exact issues_bind (describing_audit _ _ _ _ _) fun _ => issues_pure _

end Synchronizations

section Sessions

/-- Runs of all machines, by default or for a policy, backups of one machine,
synchronizations, executions of restore requests, and any other change of the catalogue. -/
inductive Operation where
  | backupAll (dry_run : Bool)
  | runPolicy (policy : ProtectionPolicy) (dry_run : Bool) (actor : String)
  | backupVM (platform : PlatformConfig) (vm : VM) (platform_info : Dict) (dry_run : Bool)
  | sync
  | executeRestore (request_id : Nat) (actor : String) (dry_run : Bool)
  | record (transaction : Transaction) (other : writes transaction ≠ some .copies)

def Operation.program (engine : Engine) : Operation → Prog Unit
  | .backupAll dry_run => LockHorizons.ignoring (ProtectionPolicies.backupAll engine dry_run)
  | .runPolicy policy dry_run actor =>
    LockHorizons.ignoring (ProtectionPolicies.runPolicy engine policy dry_run actor)
  | .backupVM platform vm platform_info dry_run =>
    LockHorizons.ignoring (Backups.backupVM engine platform vm platform_info dry_run)
  | .sync => LockHorizons.ignoring (DROrchestrator.sync engine)
  | .executeRestore request_id actor dry_run =>
    LockHorizons.ignoring (engine.executeRestore request_id actor dry_run)
  | .record transaction _ => LockHorizons.ignoring (transact transaction)

/-- Operations one after another, with whatever becomes of them. -/
def session (engine : Engine) : List Operation → Prog Unit
  | [] => return ()
  | operation :: rest => do
    operation.program engine
    session engine rest

theorem describing_ignoring {program : Prog α} (describing : Issues (Describing engine) program) :
    Issues (Describing engine) (LockHorizons.ignoring program) :=
  issues_bind (issues_attempt describing) fun _ => issues_pure _

/-- Every operation stores only rows that describe their names. -/
theorem describing_operation (reserved : Reserved engine) (operation : Operation) :
    Issues (Describing engine) (operation.program engine) := by
  have views : Views engine engine := ⟨rfl, fun _ member => member⟩
  cases operation with
  | backupAll dry_run => exact describing_ignoring (describing_backupAll reserved views dry_run)
  | runPolicy policy dry_run actor =>
    exact describing_ignoring (describing_runPolicy reserved policy dry_run actor)
  | backupVM platform vm platform_info dry_run =>
    exact describing_ignoring (describing_backupVM reserved views platform vm platform_info dry_run)
  | sync => exact describing_ignoring (describing_sync reserved)
  | executeRestore request_id actor dry_run =>
    exact describing_ignoring (describing_unwritten
      (engine.footprint_executeRestore request_id actor dry_run) (by simp))
  | record transaction other =>
    refine describing_ignoring ((issues_perform _).mpr ?_)
    rintro snapshot_id name row same
    cases same
    exact absurd rfl other

theorem describing_session (reserved : Reserved engine) (operations : List Operation) :
    Issues (Describing engine) (session engine operations) := by
  induction operations with
  | nil => exact issues_pure _
  | cons operation rest inductionHypothesis =>
    exact issues_bind (describing_operation reserved operation) fun _ => inductionHypothesis

/-- The catalogue is described in every state of a session. -/
theorem described_session (reserved : Reserved engine) (operations : List Operation)
    (described : Described engine world) :
    ∀ passed ∈ visited env.handler (session engine operations) world, Described engine passed :=
  visited_invariant described fun entry member =>
    described_handler (issues_issued (describing_session reserved operations) world entry member)

end Sessions

section Restores

variable {replica : ReplicaConfig}

/-- A program that never calls the backup tool restores nothing. -/
theorem readsFrom_untouched {effects : List Effect} {program : Prog α}
    (footprint : Footprint effects program) (untouched : .ofRestic ∉ effects) :
    Issues (ReadsFrom engine replica) program := by
  refine issues_mono footprint ?_
  rintro command listed options snapshot_id target renv input_text rfl
  exact absurd listed untouched

/-- A restore from a replica selects the repository of the replica. -/
theorem readsFrom_restore (snapshot_id target : String) : Issues (ReadsFrom engine replica)
    (restore engine.cfg.repository engine.getenv snapshot_id target (some replica)) := by
  refine issues_bind (readsFrom_untouched (@footprint_request [.outside] _
    (by simp [Command.effect])) (by simp)) fun _ => ?_
  cases selected : targetEnv replica engine.getenv with
  | error error =>
    dsimp only
    rw [selected]
    exact issues_throw error
  | ok renv =>
    dsimp only
    rw [selected, raised_ok, pure_bind]
    refine issues_bind (issues_bind ((issues_perform _).mpr ?_) fun result => ?_)
      fun _ => issues_pure _
    · intro _ _ _ _ _ same
      cases same
      exact ⟨rfl, selected⟩
    · split
      · exact issues_throw _
      · exact issues_pure _

theorem readsFrom_fetchSource {prepared : Engine.Prepared}
    (chosen : prepared.replica = some replica) :
    Issues (ReadsFrom engine replica) (engine.fetchSource prepared) := by
  unfold Engine.fetchSource
  rw [chosen]
  refine issues_bind (readsFrom_untouched (@footprint_rmtree [.silent] (by simp) _) (by simp))
    fun _ => ?_
  refine issues_bind (readsFrom_restore _ _) fun _ => ?_
  refine issues_bind (readsFrom_untouched (@footprint_request [.outside] _
    (by simp [Command.effect])) (by simp)) fun present => ?_
  split
  · exact issues_throw _
  · refine issues_bind (readsFrom_untouched (@footprint_request [.outside] _
      (by simp [Command.effect])) (by simp)) fun verdict => ?_
    dsimp only
    split
    · exact issues_throw _
    · exact issues_pure _

/-- A started execution reads from the replica that was looked up. -/
theorem readsFrom_runRestore {prepared : Engine.Prepared} (actor : String)
    (chosen : prepared.replica = some replica) :
    Issues (ReadsFrom engine replica) (engine.runRestore prepared actor) := by
  refine issues_bind (readsFrom_untouched (footprint_startRestore _ _) (by simp)) fun req => ?_
  refine issues_tryCatch ?_ fun error =>
    readsFrom_untouched (engine.footprint_recordFailure prepared actor error) (by simp)
  refine issues_bind (readsFrom_fetchSource chosen) fun _ => ?_
  refine issues_bind (readsFrom_untouched (engine.footprint_createMachine prepared _) (by simp))
    fun result => ?_
  refine issues_bind (readsFrom_untouched (footprint_finishRestore _ _ _ _) (by simp))
    fun _ => ?_
  refine issues_bind (readsFrom_untouched (@footprint_audit [.silent, .writing .audits] (by simp)
    (by simp) _ _ _ _ _) (by simp)) fun _ => ?_
  exact issues_bind (readsFrom_untouched (@footprint_rmtree [.silent] (by simp) _) (by simp))
    fun _ => issues_pure _

/-- A request that names an enabled replica is looked up with this replica. -/
theorem lookup_replica (reserved : Reserved engine) {request_id : Nat} {req : RequestRow}
    {prepared : Engine.Prepared} {after : World} (listed : replica ∈ engine.cfg.replicas)
    (enabled : replica.enabled = true) (present : world.db.requests.lookup request_id = some req)
    (named : Engine.sourceRepository req.options = replica.name)
    (ran : run env.handler (engine.lookup request_id false) world = (.ok prepared, after)) :
    prepared.replica = some replica ∧ prepared.point.snapshot_id = req.snapshot_id := by
  have resolved := PromotionSafety.lookup_ok present ran
  have other : Engine.sourceRepository req.options ≠ "primary" :=
    named ▸ reserved replica listed enabled
  obtain ⟨source, found, chosen⟩ := resolved.replica other
  rw [named, replica_found listed enabled] at found
  cases found
  exact ⟨chosen, resolved.snapshot⟩

/-- An execution whose request names an enabled replica restores from this replica. -/
theorem readsFrom_executeRestore (reserved : Reserved engine) {request_id : Nat} {actor : String}
    {dry_run : Bool} {req : RequestRow} (listed : replica ∈ engine.cfg.replicas)
    (enabled : replica.enabled = true)
    (found : world.db.requests.lookup request_id = some req)
    (named : Engine.sourceRepository req.options = replica.name) :
    ∀ entry ∈ issued env.handler (engine.executeRestore request_id actor dry_run) world,
      ReadsFrom engine replica entry.2 := by
  intro entry member
  cases dry_run with
  | true =>
    exact issues_issued (issues_bind (readsFrom_untouched (engine.footprint_lookup request_id true)
      (by simp)) fun _ => issues_pure _) world entry member
  | false =>
    rcases (mem_issued_bind env.handler).mp member with own | ⟨prepared, middle, ran, later⟩
    · exact issues_issued (readsFrom_untouched (engine.footprint_prepareRestore request_id actor)
        (by simp)) world entry own
    · obtain ⟨looked, _, lookedUp, rest⟩ := (run_bind_eq_ok _).mp ran
      obtain ⟨_, _, _, same⟩ := (run_bind_eq_ok _).mp rest
      cases same
      obtain ⟨chosen, _⟩ := lookup_replica reserved listed enabled found named lookedUp
      exact issues_issued (readsFrom_runRestore actor chosen) _ entry later

variable (engine) in
/-- Since the given state the snapshot was fetched from the replica with success. -/
def FetchedFrom (replica : ReplicaConfig) (snapshot_id : String) (start now : World) : Prop :=
  ∃ settings target fetched, targetEnv replica engine.getenv = .ok settings ∧
    Succeeded start now (.restic (.restore (resticOptions replica) snapshot_id target)) settings
      fetched

/-- When it returns, it has fetched the snapshot of its request from there. -/
theorem fetched_executeRestore (reserved : Reserved engine) {request_id : Nat} {actor : String}
    {req : RequestRow} {result : Dict} {after : World} (listed : replica ∈ engine.cfg.replicas)
    (enabled : replica.enabled = true)
    (found : world.db.requests.lookup request_id = some req)
    (named : Engine.sourceRepository req.options = replica.name)
    (ran : run env.handler (engine.executeRestore request_id actor false) world =
      (.ok result, after)) :
    FetchedFrom engine replica req.snapshot_id world after := by
  obtain ⟨prepared, checked, preparing, ran⟩ := (run_bind_eq_ok _).mp ran
  obtain ⟨_, _, looking, rest⟩ := (run_bind_eq_ok _).mp preparing
  obtain ⟨_, _, _, same⟩ := (run_bind_eq_ok _).mp rest
  cases same
  obtain ⟨chosen, snapshot⟩ := lookup_replica reserved listed enabled found named looking
  obtain ⟨started, begun, starting, ran⟩ := (run_bind_eq_ok _).mp ran
  have since := ((Since.refl world).ran preparing).ran starting
  rw [run_tryCatch] at ran
  cases performing : run env.handler (engine.performRestore prepared started.target_name actor)
      begun with
  | mk outcome performed =>
    rw [performing] at ran
    cases outcome with
    | error error => exact absurd ran PromotionSafety.recordFailure_raises
    | ok value =>
      cases ran
      obtain ⟨_, staged, fetching, rest⟩ := (run_bind_eq_ok _).mp performing
      obtain ⟨_, cleared, clearing, fetching⟩ := (run_bind_eq_ok _).mp fetching
      obtain ⟨_, restored, restoring, fetching⟩ := (run_bind_eq_ok _).mp fetching
      rw [chosen] at restoring
      obtain ⟨settings, fetched, known, clean, exchanged⟩ :=
        PromotionSafety.restore_ok restoring (since.ran clearing)
      exact ⟨settings, _, fetched, known, snapshot ▸ (exchanged.ran fetching).ran rest, clean⟩

end Restores

variable (engine) in
/-- Copies are never confused. Every row that a session stores describes the repository that
its name denotes, so every row of the catalogue does in every state; and an execution of a
request that names an enabled replica restores from this replica only, and has done so when
it returns. -/
structure Unconfused : Prop where
  stored : ∀ env operations world,
    ∀ entry ∈ issued (Environment.handler env) (session engine operations) world,
      Describing engine entry.2
  described : ∀ env operations world, Described engine world →
    ∀ passed ∈ visited (Environment.handler env) (session engine operations) world,
      Described engine passed
  restored : ∀ env world request_id req, world.db.requests.lookup request_id = some req →
    ∀ replica ∈ engine.cfg.replicas, replica.enabled = true →
      Engine.sourceRepository req.options = replica.name → ∀ actor,
        (∀ dry_run, ∀ entry ∈ issued (Environment.handler env)
          (engine.executeRestore request_id actor dry_run) world,
            ReadsFrom engine replica entry.2) ∧
        ∀ result after, run (Environment.handler env)
          (engine.executeRestore request_id actor false) world = (.ok result, after) →
            FetchedFrom engine replica req.snapshot_id world after

/-- Copies are never confused when no enabled replica has the name of the vault. -/
theorem unconfused_of_reserved (reserved : Reserved engine) : Unconfused engine where
  stored := fun _ operations world =>
    issues_issued (describing_session reserved operations) world
  described := fun _ operations _ described => described_session reserved operations described
  restored := fun _ _ _ _ found _ listed enabled named _ =>
    ⟨fun _ => readsFrom_executeRestore reserved listed enabled found named,
      fun _ _ ran => fetched_executeRestore reserved listed enabled found named ran⟩

/-- For an engine with one replica of another name. -/
theorem unconfused_offsite : Unconfused ReplicaCopies.replicated :=
  unconfused_of_reserved (by decide)

/-- The same replica under the name of the vault. -/
def shadowing : Engine :=
  { RestoreEngine.vault with cfg := { RestoreEngine.vault.cfg with
      replicas := [{ ReplicaCopies.offsite with name := "primary" }], replicas_distinct := by decide } }

/-- A copy to it overwrites the row of the vault. -/
theorem shadowing_confused : ¬ Unconfused shadowing := by
  intro unconfused
  have empty : Described shadowing ⟨{}, 0, []⟩ := by
    intro snapshot_id name row found
    cases found
  have passed : (run LockHorizons.steady.handler (session shadowing [.backupAll false])
      ⟨{}, 0, []⟩).2 ∈ visited LockHorizons.steady.handler (session shadowing [.backupAll false])
        ⟨{}, 0, []⟩ := LockHorizons.final_mem_visited _ _
  have described := unconfused.described LockHorizons.steady [.backupAll false] ⟨{}, 0, []⟩ empty
    _ passed
  have overwritten : ((run LockHorizons.steady.handler (session shadowing [.backupAll false])
      ⟨{}, 0, []⟩).2.db.copies.lookup ("9b27", "primary")).any
        (fun row => row.backend ≠ "rest") = true := by decide
  obtain ⟨row, found, other⟩ := (Option.any_eq_true _ _).mp overwritten
  have denotes := described "9b27" "primary" row found
  unfold Denotes at denotes
  rw [if_pos rfl] at denotes
  exact of_decide_eq_true other denotes.1

end Immutavault.CopyTargets
