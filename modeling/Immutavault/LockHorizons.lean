import Immutavault.DROrchestrator
import Immutavault.JobOutcomes
import Immutavault.ProtectionPolicies
import Immutavault.ProviderLocks

/-!
# How far provider locks reach

A catalogued copy carries the moment up to which it is immutable. On a replica whose
provider locks objects, that moment should not be later than the horizon up to which
the provider was asked to lock. A backup records what the lock call answered. A
synchronization for disaster recovery asks with the days of the default retention and
records the moment of the point, which a policy, a suspicious backup or a hold may
have set further away.

The lock calls are answered here by the storage clients themselves, so that what was
asked can be read off their traces. Over any sequence of runs, holds and
synchronizations, no copy exceeds what was asked exactly when every point that a
synchronization catalogues does not.
-/

namespace Immutavault.LockHorizons

open Programs Values Timestamps Catalog Machine Histories Configuration ResticRepository
open StateDatabase RestoreEngine Backups JobOutcomes ProtectionPolicies ProviderLocks
open DROrchestrator

/-- A storage client for each call, chosen by what happened before it. -/
abbrev Clients := History → ReplicaConfig → Client

/-- A world whose lock requests are served by storage clients. -/
def locking (base : Environment) (clients : Clients) : Environment where
  answer := fun log external => match external with
    | .applyObjectLock replica minimum_days =>
      (run (clients log replica).handler (applyObjectLock replica minimum_days) []).1
    | .ensureR2BucketLock replica minimum_days =>
      (run (clients log replica).handler (ensureR2BucketLock replica minimum_days) []).1
    | external => base.answer log external
  elapsed := base.elapsed

variable (clients : Clients)

/-- By this exchange the provider of a replica was asked to lock up to a moment, and every
persistent object or namespace is locked up to it. -/
def AsksUntil (log : History) (exchange : Exchange controller Exn) (replica : ReplicaConfig)
    (horizon : Timestamp) : Prop :=
  match exchange with
  | ⟨.request (.applyObjectLock asked minimum_days), .ok lock⟩ =>
    asked = replica ∧ lock.retain_until = some horizon ∧
      ObjectsLocked replica (run (clients log replica).handler
        (applyObjectLock replica minimum_days) []).2 horizon
  | ⟨.request (.ensureR2BucketLock asked minimum_days), .ok lock⟩ =>
    asked = replica ∧ lock.retain_until = some horizon ∧
      NamespacesLocked replica (run (clients log replica).handler
        (ensureR2BucketLock replica minimum_days) []).2 horizon
  | _ => False

/-- The provider of a replica has been asked to lock its persistent objects up to a moment. -/
def Asked (log : History) (replica : ReplicaConfig) (horizon : Timestamp) : Prop :=
  ∃ before exchange later, log = before ++ exchange :: later ∧
    AsksUntil clients before exchange replica horizon

/-- The moment is not later than a horizon that the provider was asked for. -/
def Reached (log : History) (replica : ReplicaConfig) (moment : Timestamp) : Prop :=
  ∃ horizon, moment ≤ horizon ∧ Asked clients log replica horizon

variable (engine : Engine)

/-- A row under this name does not exceed what the replica of the name was asked for. -/
def Fine (log : History) (name : String) (row : CopyRow) : Prop :=
  row.status = .success → ∀ replica ∈ engine.cfg.replicas, providerLock replica = true →
    replica.name = name → ∀ moment, row.immutable_until = some moment →
      Reached clients log replica moment

/-- No catalogued copy exceeds what its provider was asked for. -/
def Covered (world : World) : Prop :=
  ∀ snapshot_id name row, world.db.copies.lookup (snapshot_id, name) = some row →
    Fine clients engine world.log name row

variable {clients engine} {base : Environment} {α β : Type}

theorem Reached.grown {log after : History} {replica : ReplicaConfig} {moment : Timestamp}
    (reached : Reached clients log replica moment) (grown : log <+: after) :
    Reached clients after replica moment := by
  obtain ⟨horizon, far, before, exchange, later, split, asks⟩ := reached
  obtain ⟨more, extended⟩ := grown
  refine ⟨horizon, far, before, exchange, later ++ more, ?_, asks⟩
  rw [← extended, split, List.append_assoc, List.cons_append]

theorem Fine.grown {log after : History} {name : String} {row : CopyRow}
    (fine : Fine clients engine log name row) (grown : log <+: after) :
    Fine clients engine after name row :=
  fun success replica member locks same moment recorded =>
    (fine success replica member locks same moment recorded).grown grown

/-- A transaction asks no provider. -/
theorem reached_transact {log : History} {transaction : Transaction}
    {answer : Except Exn transaction.Answer} {replica : ReplicaConfig} {moment : Timestamp}
    (reached : Reached clients (log ++ [⟨.transact transaction, answer⟩]) replica moment) :
    Reached clients log replica moment := by
  obtain ⟨horizon, far, before, exchange, later, split, asks⟩ := reached
  rcases List.eq_nil_or_concat later with rfl | ⟨rest, last, rfl⟩
  · obtain ⟨rfl, same⟩ := List.append_inj' split rfl
    cases same
    exact asks.elim
  · rw [List.concat_eq_append, ← List.cons_append, ← List.append_assoc] at split
    exact ⟨horizon, far, before, exchange, rest, (List.append_inj' split rfl).1, asks⟩

/-- A run passes through the state it starts in. -/
theorem mem_visited (program : Prog α) (world : World) :
    world ∈ visited base.handler program world := by
  cases program with
  | ret value => exact List.mem_singleton.mpr rfl
  | raise error => exact List.mem_singleton.mpr rfl
  | call command resume => exact List.mem_cons_self

/-- And through the state it ends in. -/
theorem final_mem_visited (program : Prog α) (world : World) :
    (run base.handler program world).2 ∈ visited base.handler program world := by
  induction program generalizing world with
  | ret value => exact List.mem_singleton.mpr rfl
  | raise error => exact List.mem_singleton.mpr rfl
  | call command resume inductionHypothesis =>
    exact List.mem_cons_of_mem _ (inductionHypothesis _ _)

theorem log_handler (command : Command) (world : World) :
    world.log <+: (base.handler command world).2.log := List.prefix_append world.log _

/-- Only one command writes copies. -/
theorem upsertCopy_of_effect {command : Command} (written : command.effect = .writing .copies) :
    ∃ snapshot_id name row, command = .transact (.upsertCopy snapshot_id name row) := by
  cases command with
  | transact transaction =>
    cases transaction with
    | upsertCopy snapshot_id name row => exact ⟨snapshot_id, name, row, rfl⟩
    | _ => exact absurd written (by simp [Command.effect, writes])
  | utcnow => cases written
  | rmtree path => cases written
  | request external =>
    cases external with
    | run shell renv input_text =>
      cases shell with
      | restic tool => cases tool <;> cases written
      | _ => cases written
    | _ => cases written

/-- A command keeps copies covered when the row that it stores, if any, is fine. -/
theorem covered_handler {command : Command} {world : World}
    (covered : Covered clients engine world)
    (fine : ∀ snapshot_id name row,
      command = .transact (.upsertCopy snapshot_id name row) →
      Fine clients engine world.log name row) :
    Covered clients engine (base.handler command world).2 := by
  intro snapshot_id name row found
  by_cases other : command.effect = .writing .copies
  · obtain ⟨key, target, stored, rfl⟩ := upsertCopy_of_effect other
    change (world.db.copies.store (key, target) stored).lookup (snapshot_id, name) = some row
      at found
    rw [Tables.Keyed.lookup_store] at found
    split at found
    · rename_i same
      cases same
      cases found
      exact (fine _ _ _ rfl).grown (log_handler _ world)
    · exact (covered _ _ _ found).grown (log_handler _ world)
  · have same : (base.handler command world).2.db.copies = world.db.copies :=
      commit_same world.db other
    exact (covered _ _ _ (same ▸ found)).grown (log_handler command world)

/-- Copies are covered all along a run exactly when every copy that it stores is fine
where it is stored. -/
theorem covered_visited_iff {program : Prog α} {world : World}
    (covered : Covered clients engine world) :
    (∀ passed ∈ visited base.handler program world, Covered clients engine passed) ↔
      ∀ entry ∈ issued base.handler program world, ∀ snapshot_id name row,
        entry.2 = .transact (.upsertCopy snapshot_id name row) →
          Fine clients engine entry.1.log name row := by
  induction program generalizing world with
  | ret value => simpa [visited, issued] using covered
  | raise error => simpa [visited, issued] using covered
  | call command resume inductionHypothesis =>
    simp only [visited, issued, List.forall_mem_cons]
    constructor
    · rintro ⟨_, rest⟩
      have next := rest _ (mem_visited _ _)
      refine ⟨?_, (inductionHypothesis _ next).mp rest⟩
      rintro snapshot_id name row rfl
      intro success replica member locks same moment recorded
      have stored : (world.db.copies.store (snapshot_id, name) row).lookup (snapshot_id, name) =
          some row := by
        rw [Tables.Keyed.lookup_store, if_pos rfl]
      exact reached_transact (next _ _ _ stored success replica member locks same moment recorded)
    · rintro ⟨fine, rest⟩
      have next := @covered_handler clients engine base command world covered fine
      exact ⟨covered, (inductionHypothesis _ next).mpr rest⟩

/-- Every copy that a run of the program stores has the property where it is stored. -/
def Stores (base : Environment) (property : World → String → String → CopyRow → Prop)
    (program : Prog α) (world : World) : Prop :=
  ∀ entry ∈ issued base.handler program world, ∀ snapshot_id name row,
    entry.2 = .transact (.upsertCopy snapshot_id name row) →
      property entry.1 snapshot_id name row

section Composition

variable {world : World} {property : World → String → String → CopyRow → Prop}

theorem stores_bind {program : Prog α} {next : α → Prog β}
    (first : Stores base property program world)
    (rest : ∀ value middle, run base.handler program world = (.ok value, middle) →
      Stores base property (next value) middle) :
    Stores base property (program >>= next) world := by
  intro entry member
  rcases (mem_issued_bind base.handler).mp member with own | ⟨value, middle, ran, later⟩
  · exact first entry own
  · exact rest value middle ran entry later

theorem stores_tryCatch {program : Prog α} {rescuer : Exn → Prog α}
    (first : Stores base property program world)
    (rest : ∀ error middle, run base.handler program world = (.error error, middle) →
      Stores base property (rescuer error) middle) :
    Stores base property (tryCatch program rescuer) world := by
  intro entry member
  rcases (mem_issued_tryCatch base.handler).mp member with own | ⟨error, middle, ran, later⟩
  · exact first entry own
  · exact rest error middle ran entry later

theorem stores_attempt {program : Prog α} (first : Stores base property program world) :
    Stores base property program.attempt world := by
  unfold Stores
  rw [issued_attempt]
  exact first

/-- A program that writes no copy stores none. -/
theorem stores_unwritten {effects : List Effect} {program : Prog α}
    (footprint : Footprint effects program) (unwritten : .writing .copies ∉ effects) :
    Stores base property program world := by
  rintro entry member snapshot_id name row stores
  have listed := issues_issued footprint world entry member
  rw [stores] at listed
  exact absurd listed unwritten

@[simp] theorem stores_pure (value : α) : Stores base property (pure value : Prog α) world :=
  stores_unwritten (@footprint_pure α [] value) (by simp)

theorem stores_audit {actor action object_type object_id : String} {details : Dict} :
    Stores base property (audit actor action object_type object_id details) world :=
  stores_unwritten (@footprint_audit [.silent, .writing .audits] (by simp) (by simp) _ _ _ _ _)
    (by simp)

/-- A copy is stored with what it is given, in the catalogue that it finds. -/
theorem stores_upsert {snapshot_id name backend repository : String}
    {provider : Option String} {status : CopyStatus} {immutable_until : Option Timestamp}
    {object_lock : Dict} {error : Option String}
    (holds : ∀ middle copied_at, world.log <+: middle.log → middle.db = world.db →
      property middle snapshot_id name {
        backend := backend, provider := provider, repository := repository, status := status
        copied_at := copied_at, verified := false, verified_at := none
        immutable_until := immutable_until, object_lock := object_lock, error := error }) :
    Stores base property (upsertRecoveryCopy snapshot_id name backend repository provider
      status immutable_until object_lock error) world := by
  have storing : ∀ copied_at middle, world.log <+: middle.log → middle.db = world.db →
      Stores base property (transact (.upsertCopy snapshot_id name {
        backend := backend, provider := provider, repository := repository, status := status
        copied_at := copied_at, verified := false, verified_at := none
        immutable_until := immutable_until, object_lock := object_lock, error := error }))
        middle := by
    intro copied_at middle grown same entry member other target row stores
    cases List.mem_singleton.mp (issued_perform base.handler _ middle ▸ member)
    cases stores
    exact holds middle copied_at grown same
  have timing : Footprint [.silent] (utcnow >>= fun now => pure (some now) :
      Prog (Option Timestamp)) :=
    footprint_bind (footprint_utcnow (by simp)) fun _ => footprint_pure _
  unfold upsertRecoveryCopy
  dsimp only
  split
  · exact stores_bind (stores_unwritten timing (by simp)) fun copied_at middle ran =>
      storing copied_at middle (log_ran ran) (db_ran timing (by simp) ran)
  · exact stores_bind (stores_pure _) fun copied_at middle ran =>
      storing copied_at middle (log_ran ran) (db_ran (@footprint_pure _ [] _) (by simp) ran)

end Composition

variable (clients engine base) in
/-- Every copy that a run of the program stores is fine where it is stored. -/
abbrev StoresFine (program : Prog α) (world : World) : Prop :=
  Stores base (fun current _ name row => Fine clients engine current.log name row) program world

section Backups

variable {world : World}

/-- A lock request that returns has asked the provider for the moment that it answers. -/
theorem lockRequest_asks {replica : ReplicaConfig} {immutable_days : Option Nat} {after : World}
    {lock : LockInfo} (locks : providerLock replica = true)
    (ran : run (locking base clients).handler (lockRequest replica immutable_days) world =
      (.ok lock, after)) :
    ∃ horizon, lock.retain_until = some horizon ∧ Asked clients after.log replica horizon := by
  have supported : replica.object_lock_enabled = true ∨
      (replica.provider = "cloudflare_r2" ∧ replica.r2_bucket_lock_enabled = true) := by
    simp only [providerLock, decide_eq_true_eq] at locks
    exact locks.2.2
  have logged : ∀ {external : External} {value : external.Answer},
      (locking base clients).answer world.log external = .ok value →
      ((locking base clients).handler (.request external) world).2.log =
        world.log ++ [⟨.request external, .ok value⟩] := by
    intro external value answered
    have replied : (locking base clients).reply world (.request external) = .ok value := answered
    simp only [Environment.handler, replied]
  unfold lockRequest at ran
  split at ran
  · obtain ⟨answered, rfl⟩ := request_ran ran
    obtain ⟨horizon, returned, covers⟩ := ensureR2BucketLock_locks (Prod.ext answered rfl)
    exact ⟨horizon, returned, world.log, ⟨_, .ok lock⟩, [], logged answered, rfl, returned, covers⟩
  · rename_i bucket
    have enabled : replica.object_lock_enabled = true := supported.resolve_right bucket
    obtain ⟨answered, rfl⟩ := request_ran ran
    obtain ⟨horizon, returned, covers⟩ := applyObjectLock_locks enabled (Prod.ext answered rfl)
    exact ⟨horizon, returned, world.log, ⟨_, .ok lock⟩, [], logged answered, rfl, returned, covers⟩

/-- So has a copy to a replica with a provider lock. -/
theorem copySnapshot_asks {cfg : RepositoryConfig} {getenv : Environ} {snapshot_id : String}
    {replica : ReplicaConfig} {immutable_days : Option Nat} {after : World} {copied : CopyResult}
    (locks : providerLock replica = true)
    (ran : run (locking base clients).handler (copySnapshot cfg getenv snapshot_id replica
      immutable_days) world = (.ok copied, after)) :
    ∃ horizon, copied.object_lock.bind (·.retain_until) = some horizon ∧
      Asked clients after.log replica horizon := by
  have enabled : replica.enabled = true := by
    simp only [providerLock, decide_eq_true_eq] at locks
    exact locks.1
  unfold copySnapshot at ran
  rw [if_neg (by simp [enabled])] at ran
  obtain ⟨renv, prepared, _, rest⟩ := (run_bind_eq_ok _).mp ran
  obtain ⟨_, stored, _, rest⟩ := (run_bind_eq_ok _).mp rest
  obtain ⟨probe, probed, _, rest⟩ := (run_bind_eq_ok _).mp rest
  obtain ⟨snapshots, _, rest⟩ := run_raised_bind rest
  split at rest
  · cases rest
  · obtain ⟨lock, locked, locking, rest⟩ := (run_bind_eq_ok _).mp rest
    obtain ⟨repository, _, rest⟩ := run_raised_bind rest
    cases rest
    exact lockRequest_asks locks locking

variable {view : Engine}

/-- A replication catalogues the moment that its lock call answered. -/
theorem storesFine_replicateTo {snapshot_id : String} {replica : ReplicaConfig}
    {immutable_days : Nat} {immutable_until : Timestamp}
    (listed : replica ∈ engine.cfg.replicas) :
    StoresFine clients engine (locking base clients)
      (replicateTo view snapshot_id replica immutable_days immutable_until) world := by
  refine stores_bind (stores_unwritten (footprint_copySnapshot _ _ _ _ _) (by simp))
    fun copied copying ran => ?_
  refine stores_bind (stores_unwritten (@footprint_raised _ [] _) (by simp))
    fun repository resolved resolving => ?_
  refine stores_bind (stores_upsert ?_) fun _ _ _ =>
    stores_bind stores_audit fun _ _ _ => stores_pure _
  intro final _ grown _ _ other member locks same moment recorded
  obtain rfl : other = replica :=
    List.inj_on_of_nodup_map engine.cfg.replicas_distinct member listed same
  obtain ⟨horizon, answered, asked⟩ := copySnapshot_asks locks ran
  rw [answered] at recorded
  cases recorded
  exact Reached.grown ⟨_, le_rfl, asked⟩ ((log_ran resolving).trans grown)

/-- A failed copy is fine, whatever it is. -/
theorem storesFine_recordReplicaFailure {snapshot_id : String} {replica : ReplicaConfig}
    {error : Exn} : StoresFine clients engine base
      (recordReplicaFailure snapshot_id replica error) world := by
  refine stores_bind (stores_upsert fun _ _ _ _ impossible => by cases impossible) fun _ _ _ =>
    stores_bind stores_audit fun _ _ _ => stores_pure _

theorem storesFine_replicate {snapshot_id : String} {immutable_days : Nat}
    {immutable_until : Timestamp} {replicas : List ReplicaConfig}
    (listed : ∀ replica ∈ replicas, replica ∈ engine.cfg.replicas) :
    StoresFine clients engine (locking base clients)
      (replicate view snapshot_id immutable_days immutable_until replicas) world := by
  induction replicas generalizing world with
  | nil => exact stores_pure _
  | cons replica rest inductionHypothesis =>
    have others := fun world => @inductionHypothesis world
      fun other member => listed other (List.mem_cons_of_mem _ member)
    unfold replicate
    split
    · exact others world
    · refine stores_bind (stores_tryCatch
        (storesFine_replicateTo (listed replica List.mem_cons_self)) fun _ _ _ =>
          storesFine_recordReplicaFailure) fun _ middle _ => ?_
      exact stores_bind (others middle) fun _ _ _ => stores_pure _

/-- No replica with a provider lock has the name of the primary copy. -/
def Unreserved (engine : Engine) : Prop :=
  ∀ replica ∈ engine.cfg.replicas, providerLock replica = true → replica.name ≠ "primary"

/-- A backup stores copies that are fine, through any view with replicas of the engine. -/
theorem storesFine_backupVM {platform : PlatformConfig} {vm : VM} {platform_info : Dict}
    {dry_run : Bool} (unreserved : Unreserved engine)
    (listed : ∀ replica ∈ view.cfg.replicas, replica ∈ engine.cfg.replicas) :
    StoresFine clients engine (locking base clients)
      (backupVM view platform vm platform_info dry_run) world := by
  cases dry_run with
  | true =>
    refine stores_unwritten (@footprint_bind _ _ [.silent, .outside] _ _
      (footprint_utcnow (by simp)) fun now => ?_) (by simp)
    rw [if_pos rfl]
    exact footprint_bind (footprint_request (by simp [Command.effect])) fun _ => footprint_pure _
  | false =>
    rw [backupVM_eq]
    refine stores_bind (stores_unwritten (footprint_openJob view platform vm) (by simp))
      fun opened _ _ => ?_
    refine stores_tryCatch ?_ fun error _ _ =>
      stores_unwritten (footprint_recordBackupFailure view platform vm _ _ error) (by simp)
    rw [performBackup_eq]
    refine stores_bind (stores_unwritten (footprint_draft view platform vm _ _ _)
      (by simp)) fun drafted _ _ => ?_
    refine stores_bind (stores_bind (stores_unwritten (@footprint_transact
      [.writing .points] _ (by simp [Command.effect, writes])) (by simp)) fun _ _ _ =>
        stores_upsert ?_) fun _ _ _ => ?_
    · intro _ _ _ _ _ replica member locks same
      exact absurd same (unreserved replica member locks)
    · refine stores_bind (stores_unwritten (footprint_finishJob _ _ _ _) (by simp))
        fun _ _ _ => ?_
      refine stores_bind stores_audit fun _ _ _ => ?_
      refine stores_bind (storesFine_replicate listed) fun replicas _ _ => ?_
      have verifying : ∀ snapshot_id, Footprint
          [.silent, .outside, .ofRestic, .writing .points, .writing .audits]
          (verifyRecoveryPoint view snapshot_id "system") :=
        fun snapshot_id => footprint_verifyRecoveryPoint view snapshot_id "system"
      dsimp only
      split
      · refine stores_bind (stores_unwritten (footprint_bind (verifying _) fun _ =>
          footprint_pure _) (by simp)) fun verified _ _ => ?_
        exact stores_unwritten (@footprint_bind _ _ [.silent] _ _ (footprint_rmtree (by simp) _)
          fun _ => footprint_pure _) (by simp)
      · refine stores_bind (stores_pure _) fun verified _ _ => ?_
        exact stores_unwritten (@footprint_bind _ _ [.silent] _ _ (footprint_rmtree (by simp) _)
          fun _ => footprint_pure _) (by simp)

theorem storesFine_backupMachines {platform : PlatformConfig} {platform_info : Dict}
    {dry_run : Bool} {machines : List VM} (unreserved : Unreserved engine)
    (listed : ∀ replica ∈ view.cfg.replicas, replica ∈ engine.cfg.replicas) :
    StoresFine clients engine (locking base clients)
      (backupMachines view platform platform_info dry_run machines) world := by
  induction machines generalizing world with
  | nil => exact stores_pure _
  | cons vm rest inductionHypothesis =>
    refine stores_bind (storesFine_backupVM unreserved listed) fun result middle _ => ?_
    exact stores_bind inductionHypothesis fun _ _ _ => stores_pure _

theorem storesFine_backupPlatforms {dry_run : Bool} {platforms : List PlatformConfig}
    (unreserved : Unreserved engine)
    (listed : ∀ replica ∈ view.cfg.replicas, replica ∈ engine.cfg.replicas) :
    StoresFine clients engine (locking base clients)
      (backupPlatforms view dry_run platforms) world := by
  induction platforms generalizing world with
  | nil => exact stores_pure _
  | cons platform rest inductionHypothesis =>
    unfold backupPlatforms
    split
    · exact inductionHypothesis
    · have asking : Footprint [.outside] (tryCatch (request (.platformInfo platform)) fun exc =>
          pure [("error", .str exc.message)] : Prog Dict) :=
        footprint_tryCatch (footprint_request (by simp [Command.effect])) fun _ => footprint_pure _
      refine stores_bind (stores_unwritten asking (by simp)) fun platform_info _ _ => ?_
      refine stores_bind (stores_unwritten (@footprint_request [.outside] _
        (by simp [Command.effect])) (by simp)) fun machines _ _ => ?_
      refine stores_bind (storesFine_backupMachines unreserved listed) fun results _ _ => ?_
      exact stores_bind inductionHypothesis fun _ _ _ => stores_pure _

theorem storesFine_backupAll {dry_run : Bool} (unreserved : Unreserved engine)
    (listed : ∀ replica ∈ view.cfg.replicas, replica ∈ engine.cfg.replicas) :
    StoresFine clients engine (locking base clients) (backupAll view dry_run) world :=
  stores_bind (stores_unwritten (view.footprint_ensurePathCapacity _ _) (by simp))
    fun _ _ _ => storesFine_backupPlatforms unreserved listed

/-- A policy stores what its view of the engine stores. -/
theorem storesFine_runPolicy {policy : ProtectionPolicy} {dry_run : Bool} {actor : String}
    (unreserved : Unreserved engine) : StoresFine clients engine (locking base clients)
      (runPolicy engine policy dry_run actor) world := by
  unfold runPolicy
  split
  · exact stores_unwritten (@footprint_throw _ [] _) (by simp)
  · refine stores_bind (storesFine_backupAll unreserved fun _ member =>
      mem_policyEngine_replicas member) fun results _ _ => ?_
    dsimp only
    split
    · exact stores_bind stores_audit fun _ _ _ => stores_pure _
    · exact stores_pure _

end Backups

section Holds

variable {world : World}

theorem footprint_extendReplicaLocks (snapshot_id actor : String) (days : Nat) (saved : Timestamp)
    (replicas : List ReplicaConfig) : Footprint [.silent, .outside, .writing .audits]
      (extendReplicaLocks snapshot_id actor days saved replicas) := by
  induction replicas with
  | nil => exact footprint_pure _
  | cons replica rest inductionHypothesis =>
    unfold extendReplicaLocks
    split
    · refine footprint_bind (footprint_reading rfl (by simp)) fun copy => ?_
      split
      · refine footprint_bind (footprint_tryCatch (footprint_bind
          ((footprint_lockRequest _ _).mono (by simp)) fun _ => footprint_audit (by simp) (by simp)
          _ _ _ _ _) fun _ => footprint_audit (by simp) (by simp) _ _ _ _ _) fun _ => ?_
        exact inductionHypothesis
      · exact inductionHypothesis
    · exact inductionHypothesis

/-- A hold writes the point and the chain, and no copy. -/
theorem footprint_holdRecoveryPoint (snapshot_id actor : String) (days : Int) (reason : String) :
    Footprint [.silent, .outside, .writing .points, .writing .audits]
      (holdRecoveryPoint engine snapshot_id actor days reason) := by
  unfold holdRecoveryPoint
  split
  · exact footprint_throw _
  refine footprint_bind (footprint_reading rfl (by simp)) fun point => ?_
  cases point with
  | none => exact footprint_throw _
  | some point =>
    refine footprint_bind (footprint_utcnow (by simp)) fun now => ?_
    refine footprint_bind ?_ fun saved => footprint_bind
      ((footprint_extendReplicaLocks _ _ _ _ _).mono (by simp)) fun _ => footprint_pure _
    refine footprint_bind (footprint_reading rfl (by simp)) fun row => ?_
    cases row with
    | none => exact footprint_throw _
    | some current =>
      refine footprint_bind (footprint_writing rfl (by simp)) fun _ => ?_
      exact footprint_bind (footprint_audit (by simp) (by simp) _ _ _ _ _) fun _ =>
        footprint_pure _

end Holds

section Synchronizations

variable {world : World}

/-- A synchronization stores copies as successful, with the moment of their points. -/
def OfPoint (current : World) (snapshot_id : String) (row : CopyRow) : Prop :=
  row.status = .success ∧ ∃ point, current.db.livePoint snapshot_id = some point ∧
    row.immutable_until = some point.immutable_until

/-- Which points are live is read off the points. -/
theorem livePoint_same {before after : Database} (same : after.points = before.points)
    (snapshot_id : String) : after.livePoint snapshot_id = before.livePoint snapshot_id := by
  simp only [Database.livePoint, same]

theorem stores_syncPoint {replica : ReplicaConfig} {point : Point}
    (live : world.db.livePoint point.snapshot_id = some point) :
    Stores base (fun current snapshot_id _ row => OfPoint current snapshot_id row)
      (syncPoint engine replica point) world := by
  refine stores_bind (stores_unwritten (footprint_copySnapshot _ _ _ _ _) (by simp))
    fun copied copying ran => ?_
  refine stores_bind (stores_upsert ?_) fun _ _ _ => stores_pure _
  intro middle _ _ same
  have points : copying.db.points = world.db.points := same_ran (footprint_copySnapshot _ _ _ _ _)
    (by simp : Effect.writing .points ∉ [Effect.outside, .ofRestic]) ran
  refine ⟨rfl, point, ?_, rfl⟩
  rw [livePoint_same (congrArg Database.points same), livePoint_same points, live]

theorem stores_syncWorkload {replica : ReplicaConfig} {workload : DRVMConfig} :
    Stores base (fun current snapshot_id _ row => OfPoint current snapshot_id row)
      (syncWorkload engine replica workload) world := by
  have listing : Footprint [.silent] (latestPoint workload) :=
    footprint_bind (footprint_reading rfl (by simp)) fun _ => footprint_pure _
  refine stores_bind (stores_unwritten listing (by simp)) fun found listed ran => ?_
  cases found with
  | none => exact stores_pure _
  | some point =>
    have live : listed.db.livePoint point.snapshot_id = some point := by
      have unchanged : listed.db = world.db := db_ran listing (by simp) ran
      obtain ⟨points, middle, read, rest⟩ := (run_bind_eq_ok _).mp ran
      obtain ⟨answered, _⟩ := transact_ran read
      have chosen : points.find? (fun point => point.vm_name = workload.name) = some point :=
        Except.ok.inj (congrArg Prod.fst rest)
      rw [unchanged]
      exact livePoint_of_listed (answered ▸ List.mem_of_find?_eq_some chosen)
    dsimp only
    split
    · exact stores_pure _
    have copies : Footprint [.silent] (getRecoveryCopy point.snapshot_id replica.name) :=
      footprint_reading rfl (by simp)
    refine stores_bind (stores_unwritten copies (by simp)) fun existing looked ran => ?_
    split
    · exact stores_pure _
    · have same : looked.db = listed.db := db_ran copies (by simp) ran
      refine stores_bind (stores_attempt (stores_syncPoint (same ▸ live))) fun outcome _ _ => ?_
      cases outcome with
      | ok result => exact stores_pure _
      | error error => exact stores_pure _

theorem stores_syncWorkloads {replica : ReplicaConfig} {workloads : List DRVMConfig} :
    Stores base (fun current snapshot_id _ row => OfPoint current snapshot_id row)
      (syncWorkloads engine replica workloads) world := by
  induction workloads generalizing world with
  | nil => exact stores_pure _
  | cons workload rest inductionHypothesis =>
    refine stores_bind stores_syncWorkload fun outcome middle _ => ?_
    exact stores_bind inductionHypothesis fun _ _ _ => stores_pure _

theorem stores_sync : Stores base (fun current snapshot_id _ row => OfPoint current snapshot_id row)
    (sync engine) world := by
  refine stores_bind (stores_unwritten (footprint_ensureEnabled engine []) (by simp))
    fun _ _ _ => ?_
  refine stores_bind (stores_unwritten (@footprint_raised _ [] _) (by simp)) fun replica _ _ => ?_
  refine stores_bind stores_syncWorkloads fun outcomes _ _ => ?_
  exact stores_bind stores_audit fun _ _ _ => stores_pure _

variable (clients engine base) in
/-- A synchronization is prompt when the provider of a replica has been asked for every point
that it catalogues there, up to the moment that the catalogue has for the point. -/
def Prompt (world : World) : Prop :=
  Stores base (fun current snapshot_id name _ => ∀ replica ∈ engine.cfg.replicas,
    providerLock replica = true → replica.name = name →
    ∀ point, current.db.livePoint snapshot_id = some point →
      Reached clients current.log replica point.immutable_until) (sync engine) world

/-- Its copies are fine exactly when it is prompt. -/
theorem storesFine_sync_iff :
    StoresFine clients engine base (sync engine) world ↔ Prompt clients engine base world := by
  constructor
  · intro fine entry member snapshot_id name row stores replica listed locks same point live
    obtain ⟨success, found, again, recorded⟩ :=
      stores_sync entry member snapshot_id name row stores
    cases live.symm.trans again
    exact fine entry member snapshot_id name row stores success replica listed locks same _ recorded
  · intro prompt entry member snapshot_id name row stores
    obtain ⟨_, point, live, recorded⟩ := stores_sync entry member snapshot_id name row stores
    intro _ replica listed locks same moment shown
    cases recorded.symm.trans shown
    exact prompt entry member snapshot_id name row stores replica listed locks same point live

end Synchronizations

section Sessions

/-- Runs of all machines, by default or for a policy, holds and synchronizations. -/
inductive Operation where
  | backupAll (dry_run : Bool)
  | runPolicy (policy : ProtectionPolicy) (dry_run : Bool) (actor : String)
  | holdRecoveryPoint (snapshot_id actor : String) (days : Int) (reason : String)
  | sync

/-- A program, with whatever becomes of it. -/
def ignoring (program : Prog α) : Prog Unit := do
  let _ ← program.attempt
  return ()

def Operation.program (engine : Engine) : Operation → Prog Unit
  | .backupAll dry_run => ignoring (ProtectionPolicies.backupAll engine dry_run)
  | .runPolicy policy dry_run actor =>
    ignoring (ProtectionPolicies.runPolicy engine policy dry_run actor)
  | .holdRecoveryPoint snapshot_id actor days reason =>
    ignoring (Backups.holdRecoveryPoint engine snapshot_id actor days reason)
  | .sync => ignoring (DROrchestrator.sync engine)

/-- Operations one after another. -/
def session (engine : Engine) : List Operation → Prog Unit
  | [] => return ()
  | operation :: rest => do
    operation.program engine
    session engine rest

variable (clients engine base) in
/-- Every synchronization among the operations is prompt. -/
def AllPrompt : List Operation → World → Prop
  | [], _ => True
  | operation :: rest, world =>
    (operation = .sync → Prompt clients engine base world) ∧
    AllPrompt rest (run base.handler (operation.program engine) world).2

variable {world : World} {property : World → String → String → CopyRow → Prop}

theorem stores_ignoring {program : Prog α} :
    Stores base property (ignoring program) world ↔ Stores base property program world := by
  constructor
  · intro stores entry member
    refine stores entry ((mem_issued_bind _).mpr (Or.inl ?_))
    rwa [issued_attempt]
  · exact fun stores => stores_bind (stores_attempt stores) fun _ _ _ => stores_pure _

theorem run_ignoring (program : Prog α) (world : World) :
    run base.handler (ignoring program) world =
      (.ok (), (run base.handler program world).2) := by
  rw [ignoring, run_bind, run_attempt]
  rfl

theorem run_operation (operation : Operation) (world : World) :
    ∃ after, run base.handler (operation.program engine) world = (.ok (), after) := by
  cases operation <;> exact ⟨_, run_ignoring _ world⟩

/-- What an operation stores is fine, if it is a synchronization exactly when it is prompt. -/
theorem storesFine_operation_iff {operation : Operation} (unreserved : Unreserved engine) :
    StoresFine clients engine (locking base clients) (operation.program engine) world ↔
      (operation = .sync → Prompt clients engine (locking base clients) world) := by
  cases operation with
  | backupAll dry_run =>
    exact iff_of_true (stores_ignoring.mpr (storesFine_backupAll unreserved fun _ member => member))
      nofun
  | runPolicy policy dry_run actor =>
    exact iff_of_true (stores_ignoring.mpr (storesFine_runPolicy unreserved)) nofun
  | holdRecoveryPoint snapshot_id actor days reason =>
    exact iff_of_true (stores_ignoring.mpr (stores_unwritten
      (footprint_holdRecoveryPoint snapshot_id actor days reason) (by simp))) nofun
  | sync => exact (stores_ignoring.trans storesFine_sync_iff).trans ⟨fun prompt _ => prompt,
      fun prompt => prompt rfl⟩

theorem storesFine_session_iff {operations : List Operation} (unreserved : Unreserved engine) :
    StoresFine clients engine (locking base clients) (session engine operations) world ↔
      AllPrompt clients engine (locking base clients) operations world := by
  induction operations generalizing world with
  | nil => exact iff_of_true (stores_pure _) trivial
  | cons operation rest inductionHypothesis =>
    rw [AllPrompt, ← storesFine_operation_iff unreserved, ← inductionHypothesis]
    obtain ⟨after, ran⟩ := @run_operation engine (locking base clients) operation world
    constructor
    · intro stores
      refine ⟨fun entry member => stores entry ((mem_issued_bind _).mpr (Or.inl member)), ?_⟩
      intro entry member
      rw [ran] at member
      exact stores entry ((mem_issued_bind _).mpr (Or.inr ⟨_, _, ran, member⟩))
    · rintro ⟨first, later⟩
      refine stores_bind first fun value middle same => ?_
      rw [same] at later
      exact later

/-- Over any operations, no copy that is catalogued at any time exceeds what the provider of
its replica was asked for, exactly when every synchronization is prompt. -/
theorem copies_covered_iff (operations : List Operation) (unreserved : Unreserved engine)
    (covered : Covered clients engine world) :
    (∀ passed ∈ visited (locking base clients).handler (session engine operations) world,
        Covered clients engine passed) ↔
      AllPrompt clients engine (locking base clients) operations world :=
  (covered_visited_iff covered).trans (storesFine_session_iff unreserved)

end Sessions

/-- A store that locks objects for thirty days. -/
def wasabi : ReplicaConfig where
  name := "wasabi"
  backend := .s3
  provider := "wasabi"
  endpoint := some "https://s3.wasabisys.com"
  bucket := some "vault"
  object_lock_enabled := true

/-- An engine that replicates one workload to the store. -/
def replicating : Engine where
  cfg := {
    repository := vault.cfg.repository, platforms := vault.cfg.platforms
    replicas := [wasabi]
    dr := {
      enabled := true, replica := "wasabi"
      workloads := [{ name := "web", source_platform := "pve", target_platform := "pve" }] } }
  getenv := vault.getenv

/-- A world with one machine, whose backups succeed and whose copies are visible. -/
def steady : Environment where
  answer := fun _ external => match external with
    | .run (.restic (.backup ..)) _ _ => .ok {
        returncode := 0
        jsonLines := [some (.obj [("message_type", .str "summary"), ("snapshot_id", .str "9b27")])] }
    | .run (.restic (.probe ..)) _ _ => .ok { returncode := 0, json := .ok (.arr [.null]) }
    | .inventory _ => .ok [{ id := "100", name := "web" }]
    | external => .ok (Environment.favourable external)
  elapsed := fun _ _ => 1

/-- A store with one object, which is not locked yet. -/
def unlocked : Clients := fun _ _ _ command => match command with
  | .utcnow => .ok 0
  | .listObjects _ => .ok ([["immutavault/data/00"]], none)
  | .getRetention _ => .ok none
  | .getRules => .ok []
  | .client | .preflight | .putRetention .. | .putRules _ => .ok ()

/-- No replica has the reserved name, and a run of backups alone keeps copies covered. -/
theorem copies_covered_backup : Unreserved replicating ∧
    ∀ passed ∈ visited (locking steady unlocked).handler (session replicating [.backupAll false])
      ⟨{}, 0, []⟩, Covered unlocked replicating passed := by
  have unreserved : Unreserved replicating := by
    intro replica member _
    cases List.mem_singleton.mp member
    decide
  have covered : Covered unlocked replicating ⟨{}, 0, []⟩ := by
    intro snapshot_id name row found
    cases found
  exact ⟨unreserved,
    (copies_covered_iff [.backupAll false] unreserved covered).mpr ⟨nofun, trivial⟩⟩

/-- The moment that a lock request answered. -/
def answeredMoment : Exchange controller Exn → Option Timestamp
  | ⟨.request (.applyObjectLock ..), .ok lock⟩ => lock.retain_until
  | ⟨.request (.ensureR2BucketLock ..), .ok lock⟩ => lock.retain_until
  | _ => none

/-- No provider was asked for anything that no lock request answered. -/
theorem asked_answered {log : History} {replica : ReplicaConfig} {horizon : Timestamp}
    (asked : Asked clients log replica horizon) : horizon ∈ log.filterMap answeredMoment := by
  obtain ⟨before, exchange, later, rfl, asks⟩ := asked
  refine List.mem_filterMap.mpr ⟨exchange, by simp, ?_⟩
  unfold AsksUntil at asks
  split at asks
  · exact asks.2.1
  · exact asks.2.1
  · exact asks.elim

/-- A copy of the catalogue goes beyond every moment that was answered so far. -/
def exceeds (snapshot_id name : String) (world : World) : Bool :=
  (world.db.copies.lookup (snapshot_id, name)).any fun row =>
    row.status = .success && row.immutable_until.any fun moment =>
      (world.log.filterMap answeredMoment).all (· < moment)

theorem not_covered_of_exceeds {snapshot_id : String} {replica : ReplicaConfig} {world : World}
    (listed : replica ∈ engine.cfg.replicas) (locks : providerLock replica = true)
    (exceeding : exceeds snapshot_id replica.name world = true) :
    ¬ Covered clients engine world := by
  intro covered
  obtain ⟨row, found, shown⟩ := (Option.any_eq_true _ _).mp exceeding
  obtain ⟨success, beyond⟩ := Bool.and_eq_true_iff.mp shown
  obtain ⟨moment, recorded, all⟩ := (Option.any_eq_true _ _).mp beyond
  obtain ⟨horizon, far, asked⟩ := covered _ _ row found (of_decide_eq_true success) replica listed
    locks rfl moment recorded
  have short : horizon < moment :=
    of_decide_eq_true (List.all_eq_true.mp all horizon (asked_answered asked))
  exact absurd far (Nat.not_le_of_lt short)

/-- A point that is held for a year is synchronized to a store that is asked for a month. -/
theorem held_point_exceeds :
    ¬ ∀ passed ∈ visited (locking steady unlocked).handler
      (session replicating [.holdRecoveryPoint "4f1c" "alice" 365 "audit", .sync])
      ⟨catalogue, 0, []⟩, Covered unlocked replicating passed := by
  intro covered
  refine @not_covered_of_exceeds unlocked replicating "4f1c" wasabi _ List.mem_cons_self
    (by decide) ?_ (covered _ (final_mem_visited _ _))
  decide +kernel

end Immutavault.LockHorizons
