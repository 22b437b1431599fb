import Immutavault.Inventories
import Immutavault.LockHorizons
import Immutavault.Management
import Mathlib.Data.Bool.AllAny

/-!
# What a policy protects

A policy runs over a view of the configuration, and what it may reach is decided by the
view: machines by their names, replicas by theirs, days by one number. What a run does
to machines is read off its commands. It exports machines one after another, stores
points, and stores copies of them.

A run exports the machines that the hosts list on enabled platforms under the names that
the policy gives, in order, and all of them when it returns. Every point it stores is
copied to the primary repository and to each replica the policy names, and no copy is
released before the days of the policy are over.
-/

namespace Immutavault.PolicyScope

open Programs Values Timestamps Catalog Machine Histories Configuration ResticRepository
open StateDatabase RestoreEngine Backups JobOutcomes ProtectionPolicies ProviderLocks
open LockHorizons Management GlobPatterns Inventories

section Runner

/-- The policy with this identifier. -/
def V11Config.policy (cfg : V11Config) (policy_id : String) : Except Exn ProtectionPolicy :=
  match cfg.management.policies.find? fun policy => policy.id = policy_id with
  | some policy => .ok policy
  | none => .error ⟨.valueError, s!"unknown protection policy: {policy_id}"⟩

structure ProtectionPolicyRunner where
  cfg : V11Config
  getenv : Environ := fun _ => none

namespace ProtectionPolicyRunner

variable (runner : ProtectionPolicyRunner)

def engine : Engine := { cfg := runner.cfg.core, certified := true, getenv := runner.getenv }

def run (policy_id : String) (dry_run : Bool) (actor : String) : Prog Dict := do
  let policy ← raised (V11Config.policy runner.cfg policy_id)
  runPolicy runner.engine policy dry_run actor

end ProtectionPolicyRunner

/-- The identifier of a policy finds the policy. -/
theorem policy_found {cfg : V11Config} {policy : ProtectionPolicy}
    (member : policy ∈ cfg.management.policies) : V11Config.policy cfg policy.id = .ok policy := by
  have distinct := cfg.accepted.ids_distinct
  unfold V11Config.policy
  cases found : cfg.management.policies.find? fun other => other.id = policy.id with
  | none =>
    have absent := List.find?_eq_none.mp found policy member
    simp at absent
  | some other =>
    have same : other.id = policy.id := by simpa using List.find?_some found
    have equal : other = policy :=
      List.inj_on_of_nodup_map distinct (List.mem_of_find?_eq_some found) member same
    rw [equal]

end Runner

section Acts

/-- What a run is seen to do with machines. -/
inductive Act
  | exports (platform : String) (vm : VM)
  | points (snapshot_id : String) (row : PointRow)
  | copies (snapshot_id target_name : String) (row : CopyRow)

def observe : Command → Option Act
  | .request (.exportVM platform vm _ _) => some (.exports platform.name vm)
  | .transact (.replacePoint snapshot_id row) => some (.points snapshot_id row)
  | .transact (.upsertCopy snapshot_id target_name row) => some (.copies snapshot_id target_name row)
  | _ => none

/-- Everything that a run is seen to do, in order. -/
def acts {α : Type} (env : Environment) (program : Prog α) (world : World) : List Act :=
  (issued env.handler program world).filterMap fun entry => observe entry.2

variable {α β : Type} {env : Environment} {world middle : World}

theorem acts_bind_ok {program : Prog α} {next : α → Prog β} {value : α}
    (ran : run env.handler program world = (.ok value, middle)) :
    acts env (program >>= next) world = acts env program world ++ acts env (next value) middle := by
  rw [acts, issued_bind, ran, List.filterMap_append]
  rfl

theorem acts_bind_error {program : Prog α} {next : α → Prog β} {error : Exn}
    (ran : run env.handler program world = (.error error, middle)) :
    acts env (program >>= next) world = acts env program world := by
  rw [acts, issued_bind, ran, List.append_nil]
  rfl

theorem acts_tryCatch_ok {program : Prog α} {rescuer : Exn → Prog α} {value : α}
    (ran : run env.handler program world = (.ok value, middle)) :
    acts env (tryCatch program rescuer) world = acts env program world := by
  rw [acts, issued_tryCatch, ran, List.append_nil]
  rfl

theorem acts_tryCatch_error {program : Prog α} {rescuer : Exn → Prog α} {error : Exn}
    (ran : run env.handler program world = (.error error, middle)) :
    acts env (tryCatch program rescuer) world =
      acts env program world ++ acts env (rescuer error) middle := by
  rw [acts, issued_tryCatch, ran, List.filterMap_append]
  rfl

/-- The program issues nothing that is seen. -/
abbrev Unseen (program : Prog α) : Prop :=
  Issues (fun command : controller.Command => observe command = none) program

theorem acts_unseen {program : Prog α} (unseen : Unseen program) (world : World) :
    acts env program world = [] := by
  refine List.filterMap_eq_nil_iff.mpr fun entry member => ?_
  exact issues_issued unseen world entry member

/-- Only requests to outside, points and copies are seen. -/
theorem unseen_footprint {effects : List Effect} {program : Prog α}
    (footprint : Footprint effects program) (inside : .outside ∉ effects)
    (unstored : .writing .points ∉ effects) (uncopied : .writing .copies ∉ effects) :
    Unseen program := by
  refine issues_mono footprint fun command listed => ?_
  unfold observe
  split
  · exact absurd listed inside
  · exact absurd listed unstored
  · exact absurd listed uncopied
  · rfl

/-- What is not seen before the rest of a program does not count. -/
theorem acts_bind_unseen {program : Prog α} {next : α → Prog β} {value : α}
    (unseen : Unseen program) (ran : run env.handler program world = (.ok value, middle)) :
    acts env (program >>= next) world = acts env (next value) middle := by
  rw [acts_bind_ok ran, acts_unseen unseen, List.nil_append]

end Acts

section Unseen

variable {env : Environment} {engine : Engine}

theorem unseen_audit (actor action object_type object_id : String) (details : Dict) :
    Unseen (audit actor action object_type object_id details) :=
  unseen_footprint (footprint_audit (show .silent ∈ [Effect.silent, .writing .audits] by simp)
    (by simp) _ _ _ _ _) (by simp) (by simp) (by simp)

theorem unseen_request {external : External} (unseen : observe (.request external) = none) :
    Unseen (request external) :=
  (issues_perform _).mpr unseen

theorem unseen_raised {α : Type} (value : Except Exn α) : Unseen (raised value : Prog α) :=
  unseen_footprint (@footprint_raised _ [] value) (by simp) (by simp) (by simp)

theorem unseen_runCommand (shell : Shell) (settings : List (String × String))
    (input_text : Option String) (check : Bool) :
    Unseen (runCommand shell settings input_text check) := by
  refine issues_bind (unseen_request rfl) fun result => ?_
  dsimp only
  split
  · exact issues_throw _
  · exact issues_pure _

theorem unseen_rmtree (path : String) : Unseen (rmtree path) := (issues_perform _).mpr rfl

theorem unseen_ensurePathCapacity (path action : String) :
    Unseen (engine.ensurePathCapacity path action) := by
  refine issues_bind (unseen_request rfl) fun _ => issues_bind (unseen_request rfl) fun usage => ?_
  dsimp only
  split <;> split <;> first | exact issues_throw _ | exact issues_pure _

theorem unseen_prepareCopy (cfg : RepositoryConfig) (getenv : Environ) (replica : ReplicaConfig) :
    Unseen (prepareCopy cfg getenv replica) := by
  unfold prepareCopy
  split
  · exact issues_throw _
  · refine issues_bind (unseen_raised _) fun settings => ?_
    dsimp only
    split
    · refine issues_bind (unseen_request rfl) fun _ => ?_
      exact issues_bind (unseen_request rfl) fun _ => issues_pure _
    · exact issues_bind (unseen_request rfl) fun _ => issues_pure _

theorem unseen_confirmCopy (snapshot_id : String) (replica : ReplicaConfig)
    (immutable_days : Option Nat) (settings : List (String × String)) :
    Unseen (confirmCopy snapshot_id replica immutable_days settings) := by
  refine issues_bind (unseen_runCommand _ _ _ _) fun probe => ?_
  refine issues_bind (unseen_raised _) fun snapshots => ?_
  split
  · exact issues_throw _
  · have locking : Unseen (lockRequest replica immutable_days) := by
      unfold lockRequest
      split <;> exact unseen_request rfl
    exact issues_bind locking fun _ => issues_bind (unseen_raised _) fun _ => issues_pure _

theorem unseen_copySnapshot (cfg : RepositoryConfig) (getenv : Environ) (snapshot_id : String)
    (replica : ReplicaConfig) (immutable_days : Option Nat) :
    Unseen (copySnapshot cfg getenv snapshot_id replica immutable_days) := by
  unfold copySnapshot
  split
  · exact issues_pure _
  · refine issues_bind (unseen_prepareCopy _ _ _) fun settings => ?_
    refine issues_bind (unseen_runCommand _ _ _ _) fun _ => ?_
    exact unseen_confirmCopy _ _ _ _

theorem unseen_restore (cfg : RepositoryConfig) (getenv : Environ) (snapshot_id target : String)
    (replica : Option ReplicaConfig) : Unseen (restore cfg getenv snapshot_id target replica) := by
  refine issues_bind (unseen_request rfl) fun _ => ?_
  cases replica with
  | none =>
    refine issues_bind (unseen_raised _) fun settings => ?_
    exact issues_bind (unseen_runCommand _ _ _ _) fun _ => issues_pure _
  | some replica =>
    refine issues_bind (unseen_raised _) fun settings => ?_
    exact issues_bind (unseen_runCommand _ _ _ _) fun _ => issues_pure _

theorem unseen_markVerified (snapshot_id : String) (verified : Bool) (details : Dict) :
    Unseen (markVerified snapshot_id verified details) := by
  refine issues_bind ((issues_perform _).mpr rfl) fun row => ?_
  cases row with
  | none => exact issues_throw _
  | some metadata =>
    dsimp only
    split
    · refine issues_bind (issues_bind ((issues_perform _).mpr rfl) fun _ => issues_pure _)
        fun _ => (issues_perform _).mpr rfl
    · exact issues_bind (issues_pure _) fun _ => (issues_perform _).mpr rfl

theorem unseen_verifyRecoveryPoint (snapshot_id actor : String) :
    Unseen (verifyRecoveryPoint engine snapshot_id actor) := by
  refine issues_bind ((issues_perform _).mpr rfl) fun found => ?_
  cases found with
  | none => exact issues_throw _
  | some point =>
    have inspecting : ∀ root, Unseen (inspectRestored engine snapshot_id actor point root) := by
      intro root
      refine issues_bind (unseen_restore _ _ _ _ _) fun _ => ?_
      refine issues_bind (unseen_request rfl) fun present => ?_
      split
      · exact issues_bind (unseen_markVerified _ _ _) fun _ => issues_pure _
      · refine issues_bind (unseen_request rfl) fun verdict => ?_
        refine issues_bind (unseen_markVerified _ _ _) fun _ => ?_
        exact issues_bind (unseen_audit _ _ _ _ _) fun _ => issues_pure _
    refine issues_bind (unseen_ensurePathCapacity _ _) fun _ => ?_
    refine issues_bind (unseen_rmtree _) fun _ => ?_
    refine issues_bind (issues_attempt (inspecting _)) fun outcome => ?_
    exact issues_bind (unseen_rmtree _) fun _ => unseen_raised _

end Unseen

section Stages

/-- A backup that stored a point, with the copies of it. -/
structure Stored where
  snapshot_id : String
  row : PointRow
  copies : List (String × CopyRow)

/-- One machine of a run: what was stored of it, if anything, and what is reported. -/
structure Job where
  platform : String
  vm : VM
  stored : Option Stored
  report : Dict

def Stored.acts (stored : Stored) : List Act :=
  .points stored.snapshot_id stored.row ::
    stored.copies.map fun copy => .copies stored.snapshot_id copy.1 copy.2

def Job.acts (job : Job) : List Act :=
  .exports job.platform job.vm :: (job.stored.map Stored.acts).getD []

/-- A copy is not released before so many days after the given moment. -/
def Lasting (days : Nat) (created_at : Timestamp) (copy : CopyRow) : Prop :=
  copy.status = .success →
    ∃ moment, copy.immutable_until = some moment ∧ addDays created_at days ≤ moment

/-- The point and all its copies are there, and last. -/
structure Stored.Good (days : Nat) (targets : List String) (platform : String) (vm : VM)
    (stored : Stored) : Prop where
  of_machine : stored.row.platform = platform ∧ stored.row.vm_id = vm.id ∧
    stored.row.vm_name = vm.name
  immutable : addDays stored.row.created_at days ≤ stored.row.immutable_until
  copied : stored.copies.map Prod.fst = "primary" :: targets
  lasting : ∀ copy ∈ stored.copies, Lasting days stored.row.created_at copy.2

structure Job.Good (days : Nat) (targets : List String) (dry_run : Bool) (job : Job) : Prop where
  stored : ∀ stored, job.stored = some stored → stored.Good days targets job.platform job.vm
  planned : dry_run = true → job.stored = none
  reported : job.report.get? "status" = some (.str "success") → job.stored ≠ none

variable {clients : Clients} {base : Environment} {engine : Engine} {world : World}

/-- The clocks of the storage clients do not run behind what was read off a clock before. -/
def Punctual (clients : Clients) : Prop :=
  ∀ log replica trace now, clients log replica trace .utcnow = .ok now → ∀ earlier,
    ⟨Command.utcnow, (.ok earlier : Except Exn Timestamp)⟩ ∈ log → earlier ≤ now

/-- The moment was read off the clock. -/
def Read (world : World) (moment : Timestamp) : Prop :=
  ⟨Command.utcnow, (.ok moment : Except Exn Timestamp)⟩ ∈ world.log

theorem Read.ran {α : Type} {env : Environment} {program : Prog α} {outcome : Except Exn α}
    {after : World} {moment : Timestamp} (known : Read world moment)
    (ran : run env.handler program world = (outcome, after)) : Read after moment :=
  (log_ran ran).subset known

theorem addDays_mono {first second : Timestamp} {fewer more : Nat} (before : first ≤ second)
    (least : fewer ≤ more) : addDays first fewer ≤ addDays second more :=
  Nat.add_le_add before (Nat.mul_le_mul_right _ least)

/-- What a lock call answers lies so many days behind the clock of the client. -/
theorem applyObjectLock_answers {client : Client} {replica : ReplicaConfig} {days : Nat}
    {trace after : Trace} {lock : LockInfo} {moment : Timestamp}
    (ran : run client.handler (applyObjectLock replica (some days)) trace = (.ok lock, after))
    (until_moment : lock.retain_until = some moment) :
    ∃ asked now, client asked .utcnow = .ok now ∧ addDays now days ≤ moment := by
  unfold applyObjectLock at ran
  split at ran
  · cases ran
    cases until_moment
  · split at ran
    · cases ran
    obtain ⟨_, connected, _, rest⟩ := (run_bind_eq_ok _).mp ran
    obtain ⟨_, checked, _, rest⟩ := (run_bind_eq_ok _).mp rest
    obtain ⟨now, timed, timing, rest⟩ := (run_bind_eq_ok _).mp rest
    obtain ⟨⟨pages, interrupted⟩, listed, _, rest⟩ := (run_bind_eq_ok _).mp rest
    obtain ⟨counts, final, _, rest⟩ := (run_bind_eq_ok _).mp rest
    rw [run_ask] at timing
    cases interrupted with
    | some error => cases rest
    | none =>
      cases rest
      cases until_moment
      exact ⟨checked, now, congrArg Prod.fst timing,
        addDays_mono (Nat.le_refl _) (Nat.le_max_right _ _)⟩

theorem ensureR2BucketLock_answers {client : Client} {replica : ReplicaConfig} {days : Nat}
    {trace after : Trace} {lock : LockInfo} {moment : Timestamp}
    (ran : run client.handler (ensureR2BucketLock replica (some days)) trace = (.ok lock, after))
    (until_moment : lock.retain_until = some moment) :
    ∃ asked now, client asked .utcnow = .ok now ∧ addDays now days ≤ moment := by
  unfold ensureR2BucketLock at ran
  split at ran
  · cases ran
  · obtain ⟨rules, found, _, rest⟩ := (run_bind_eq_ok _).mp ran
    obtain ⟨now, timed, timing, rest⟩ := (run_bind_eq_ok _).mp rest
    rw [run_ask] at timing
    have answered : client found .utcnow = .ok now := congrArg Prod.fst timing
    have far : lock.retain_until =
        some (addDays now (max replica.r2_bucket_lock_days days)) := by
      dsimp only at rest
      split at rest
      · obtain ⟨_, put, _, rest⟩ := (run_bind_eq_ok _).mp rest
        cases rest
        rfl
      · cases rest
        rfl
    cases far.symm.trans until_moment
    exact ⟨found, now, answered, addDays_mono (Nat.le_refl _) (Nat.le_max_right _ _)⟩

/-- So a copy that reports a moment reports one so many days behind every earlier moment. -/
theorem copySnapshot_answers {cfg : RepositoryConfig} {getenv : Environ} {snapshot_id : String}
    {replica : ReplicaConfig} {days : Nat} {after : World} {copied : CopyResult}
    {created_at moment : Timestamp} (punctual : Punctual clients) (known : Read world created_at)
    (ran : run (locking base clients).handler (copySnapshot cfg getenv snapshot_id replica
      (some days)) world = (.ok copied, after))
    (until_moment : copied.object_lock.bind (·.retain_until) = some moment) :
    addDays created_at days ≤ moment := by
  unfold copySnapshot at ran
  split at ran
  · cases ran
    cases until_moment
  obtain ⟨settings, prepared, preparing, rest⟩ := (run_bind_eq_ok _).mp ran
  obtain ⟨_, stored, storing, rest⟩ := (run_bind_eq_ok _).mp rest
  obtain ⟨probe, probed, probing, rest⟩ := (run_bind_eq_ok _).mp rest
  obtain ⟨snapshots, _, rest⟩ := run_raised_bind rest
  split at rest
  · cases rest
  obtain ⟨lock, locked, locking, rest⟩ := (run_bind_eq_ok _).mp rest
  obtain ⟨repository, _, rest⟩ := run_raised_bind rest
  cases rest
  have read : Read probed created_at := ((known.ran preparing).ran storing).ran probing
  have answers : ∃ asked now, clients probed.log replica asked .utcnow = .ok now ∧
      addDays now days ≤ moment := by
    unfold lockRequest at locking
    split at locking
    · obtain ⟨answered, _⟩ := request_ran locking
      exact ensureR2BucketLock_answers (Prod.ext answered rfl) until_moment
    · obtain ⟨answered, _⟩ := request_ran locking
      exact applyObjectLock_answers (Prod.ext answered rfl) until_moment
  obtain ⟨asked, now, timed, far⟩ := answers
  exact (addDays_mono (punctual _ _ _ _ timed _ read) (Nat.le_refl _)).trans far

end Stages

section Backups

variable {clients : Clients} {base env : Environment} {engine : Engine} {world : World}

theorem audit_ran (actor action object_type object_id : String) (details : Dict) (world : World) :
    ∃ after, run env.handler (audit actor action object_type object_id details) world =
      (.ok (), after) := ⟨_, rfl⟩

/-- A successful copy is catalogued with the moment that is given. -/
theorem upsertRecoveryCopy_acts (snapshot_id name backend repository : String)
    (provider : Option String) (immutable_until : Option Timestamp) (object_lock : Dict)
    (world : World) : ∃ row after,
      run env.handler (upsertRecoveryCopy snapshot_id name backend repository provider .success
        immutable_until object_lock none) world = (.ok (), after) ∧
      acts env (upsertRecoveryCopy snapshot_id name backend repository provider .success
        immutable_until object_lock none) world = [.copies snapshot_id name row] ∧
      row.immutable_until = immutable_until :=
  ⟨_, _, rfl, rfl, rfl⟩

theorem recordReplicaFailure_acts (snapshot_id : String) (replica : ReplicaConfig) (error : Exn)
    (world : World) : ∃ row value after,
      run env.handler (recordReplicaFailure snapshot_id replica error) world =
        (.ok value, after) ∧
      acts env (recordReplicaFailure snapshot_id replica error) world =
        [.copies snapshot_id replica.name row] ∧ row.status = .failed :=
  ⟨_, _, _, rfl, rfl, rfl⟩

/-- Copying to a replica catalogues one copy, which lasts, unless it raises before. -/
theorem replicateTo_acts {snapshot_id : String} {replica : ReplicaConfig}
    {immutable_days least : Nat} {created_at immutable_until : Timestamp}
    (punctual : Punctual clients) (known : Read world created_at)
    (far : addDays created_at least ≤ immutable_until) (enough : least ≤ immutable_days) :
    (∃ error after, run (locking base clients).handler (replicateTo engine snapshot_id replica
        immutable_days immutable_until) world = (.error error, after) ∧
      acts (locking base clients) (replicateTo engine snapshot_id replica immutable_days
        immutable_until) world = []) ∨
    ∃ row value after, run (locking base clients).handler (replicateTo engine snapshot_id replica
        immutable_days immutable_until) world = (.ok value, after) ∧
      acts (locking base clients) (replicateTo engine snapshot_id replica immutable_days
        immutable_until) world = [.copies snapshot_id replica.name row] ∧
      Lasting least created_at row := by
  unfold replicateTo
  have unseen := unseen_copySnapshot engine.cfg.repository engine.getenv snapshot_id replica
    (some immutable_days)
  cases copying : run (locking base clients).handler (copySnapshot engine.cfg.repository
      engine.getenv snapshot_id replica (some immutable_days)) world with
  | mk outcome copied_to =>
    cases outcome with
    | error error =>
      refine Or.inl ⟨error, copied_to, by rw [run_bind, copying], ?_⟩
      rw [acts_bind_error copying, acts_unseen unseen]
    | ok copied =>
      rw [run_bind, copying, acts_bind_unseen unseen copying]
      dsimp only
      cases resticTargetUrl replica with
      | error error => exact Or.inl ⟨error, copied_to, rfl, rfl⟩
      | ok repository =>
        obtain ⟨row, stored, storing, shown, lasts⟩ := @upsertRecoveryCopy_acts
          (locking base clients) snapshot_id replica.name replica.backend.text repository
          (replicaProvider replica)
          (some ((copied.object_lock.bind (·.retain_until)).getD immutable_until))
          ((copied.object_lock.map (·.details)).getD []) copied_to
        obtain ⟨after, auditing⟩ := @audit_ran (locking base clients) "system" "replica.complete"
          "recovery_point" snapshot_id [("target", .str replica.name),
            ("backend", .str replica.backend.text), ("provider", .str replica.provider),
            ("object_lock", .obj ((copied.object_lock.map (·.details)).getD []))] stored
        refine Or.inr ⟨row, copyReport copied, after, ?_, ?_, ?_⟩
        · change run (locking base clients).handler (upsertRecoveryCopy _ _ _ _ _ _ _ _ _ >>= _)
            copied_to = _
          rw [run_bind, storing]
          dsimp only
          rw [run_bind, auditing]
          rfl
        · change acts (locking base clients) (upsertRecoveryCopy _ _ _ _ _ _ _ _ _ >>= _)
            copied_to = _
          rw [acts_bind_ok storing, shown, acts_bind_unseen (unseen_audit _ _ _ _ _) auditing]
          rfl
        · intro _
          refine ⟨_, lasts, ?_⟩
          cases answered : copied.object_lock.bind (·.retain_until) with
          | none => exact far
          | some moment =>
            exact (addDays_mono (Nat.le_refl _) enough).trans
              (copySnapshot_answers punctual known copying answered)

/-- Replication catalogues one copy for each enabled replica, in order, and never raises. -/
theorem replicate_acts {snapshot_id : String} {replicas : List ReplicaConfig}
    {immutable_days least : Nat} {created_at immutable_until : Timestamp}
    (punctual : Punctual clients) (known : Read world created_at)
    (far : addDays created_at least ≤ immutable_until) (enough : least ≤ immutable_days) :
    ∃ (copies : List (String × CopyRow)) (value : Dict) (after : World),
      run (locking base clients).handler (replicate engine snapshot_id immutable_days
        immutable_until replicas) world = (.ok value, after) ∧
      acts (locking base clients) (replicate engine snapshot_id immutable_days immutable_until
        replicas) world = copies.map (fun copy => .copies snapshot_id copy.1 copy.2) ∧
      copies.map Prod.fst = (replicas.filter (·.enabled)).map (·.name) ∧
      ∀ copy ∈ copies, Lasting least created_at copy.2 := by
  induction replicas generalizing world with
  | nil => exact ⟨[], [], world, rfl, rfl, rfl, fun copy member => absurd member List.not_mem_nil⟩
  | cons replica rest inductionHypothesis =>
    unfold replicate
    by_cases enabled : replica.enabled = true
    · rw [if_neg (by simp [enabled])]
      have first : ∃ row value middle, run (locking base clients).handler (tryCatch
            (replicateTo engine snapshot_id replica immutable_days immutable_until)
            (recordReplicaFailure snapshot_id replica)) world = (.ok value, middle) ∧
          acts (locking base clients) (tryCatch (replicateTo engine snapshot_id replica
            immutable_days immutable_until) (recordReplicaFailure snapshot_id replica)) world =
            [.copies snapshot_id replica.name row] ∧ Lasting least created_at row := by
        rcases @replicateTo_acts clients base engine world snapshot_id replica immutable_days least
            created_at immutable_until punctual known far enough with
          ⟨error, failed, raised, unseen⟩ | ⟨row, value, middle, ran, shown, lasts⟩
        · obtain ⟨row, value, middle, recorded, shown, status⟩ :=
            @recordReplicaFailure_acts (locking base clients) snapshot_id replica error failed
          refine ⟨row, value, middle, ?_, ?_, ?_⟩
          · rw [run_tryCatch, raised]
            exact recorded
          · rw [acts_tryCatch_error raised, unseen, shown, List.nil_append]
          · intro success
            rw [status] at success
            cases success
        · refine ⟨row, value, middle, ?_, ?_, lasts⟩
          · rw [run_tryCatch, ran]
          · rw [acts_tryCatch_ok ran, shown]
      obtain ⟨row, value, middle, ran, shown, lasts⟩ := first
      obtain ⟨copies, others, after, further, seen, named, last⟩ :=
        inductionHypothesis (known.ran ran)
      refine ⟨(replica.name, row) :: copies, (replica.name, value) :: others, after, ?_, ?_, ?_,
        List.forall_mem_cons.mpr ⟨lasts, last⟩⟩
      · rw [run_bind, ran]
        dsimp only
        rw [run_bind, further]
        rfl
      · rw [acts_bind_ok ran, shown, acts_bind_ok further, seen]
        exact congrArg _ (List.append_nil _)
      · rw [List.filter_cons_of_pos enabled, List.map_cons, List.map_cons, named]
    · rw [if_pos enabled]
      obtain ⟨copies, others, after, ran, seen, named, last⟩ := inductionHypothesis known
      refine ⟨copies, others, after, ran, seen, ?_, last⟩
      rw [List.filter_cons_of_neg enabled, named]

/-- What the draft of a point says about it. -/
structure Drafts (engine : Engine) (platform : PlatformConfig) (vm : VM) (now : Timestamp)
    (drafted : Draft) : Prop where
  of_machine : drafted.point.platform = platform.name ∧ drafted.point.vm_id = vm.id ∧
    drafted.point.vm_name = vm.name
  created : drafted.point.created_at = now
  immutable : drafted.point.immutable_until = addDays now drafted.immutable_days
  enough : engine.cfg.repository.retention.keep_within_days ≤ drafted.immutable_days

/-- Days are only added for a suspicious point. -/
theorem immutableDays_enough (engine : Engine) (suspicious : Bool) :
    engine.cfg.repository.retention.keep_within_days ≤ immutableDays engine suspicious := by
  cases suspicious with
  | false => exact Nat.le_refl _
  | true => exact Nat.le_max_left _ _

/-- Before a point is stored, the machine is exported and nothing else is seen. -/
theorem draft_acts (platform : PlatformConfig) (vm : VM) (platform_info : Dict) (now : Timestamp)
    (staging_root : String) (world : World) :
    acts env (draft engine platform vm platform_info now staging_root) world =
      [.exports platform.name vm] := by
  have exporting : acts env (request (.exportVM platform vm staging_root false)) world =
      [.exports platform.name vm] := by
    rw [acts, request, issued_perform]
    rfl
  unfold draft
  cases exported : run env.handler (request (.exportVM platform vm staging_root false)) world with
  | mk outcome middle =>
    cases outcome with
    | error error => rw [acts_bind_error exported, exporting]
    | ok value =>
      rw [acts_bind_ok exported, exporting]
      refine (congrArg _ (acts_unseen ?_ _)).trans (List.append_nil _)
      refine issues_bind (unseen_request rfl) fun attested => ?_
      refine issues_bind (unseen_request rfl) fun manifest => ?_
      refine issues_bind (unseen_footprint (footprint_backup _ _ _ _) (by simp) (by simp)
        (by simp)) fun summary => ?_
      refine issues_bind ((issues_perform _).mpr rfl) fun previous => ?_
      exact issues_bind (unseen_request rfl) fun verdict => issues_pure _

theorem draft_ran {platform : PlatformConfig} {vm : VM} {platform_info : Dict} {now : Timestamp}
    {staging_root : String} {drafted : Draft} {after : World}
    (ran : run env.handler (draft engine platform vm platform_info now staging_root) world =
      (.ok drafted, after)) : Drafts engine platform vm now drafted := by
  obtain ⟨exported, _, _, ran⟩ := (run_bind_eq_ok _).mp ran
  obtain ⟨attested, _, _, ran⟩ := (run_bind_eq_ok _).mp ran
  obtain ⟨manifest, _, _, ran⟩ := (run_bind_eq_ok _).mp ran
  obtain ⟨summary, _, _, ran⟩ := (run_bind_eq_ok _).mp ran
  obtain ⟨previous, _, _, ran⟩ := (run_bind_eq_ok _).mp ran
  obtain ⟨⟨suspicious, reason⟩, _, _, ran⟩ := (run_bind_eq_ok _).mp ran
  cases ran
  exact ⟨⟨rfl, rfl, rfl⟩, rfl, rfl, immutableDays_enough engine suspicious⟩

/-- Storing a point stores its primary copy, too. -/
theorem store_acts (engine : Engine) (point : Point) (world : World) : ∃ row after,
    run env.handler (store engine point) world = (.ok (), after) ∧
    acts env (store engine point) world =
      [.points point.snapshot_id { point.toPointRow with expired := false, expired_at := none },
        .copies point.snapshot_id "primary" row] ∧
    row.immutable_until = some point.immutable_until :=
  ⟨_, _, rfl, rfl, rfl⟩

/-- After a point is stored, its copies to the replicas are seen and nothing else. -/
theorem settle_acts {platform : PlatformConfig} {vm : VM} {staging_root : String} {job_id : Nat}
    {drafted : Draft} {now : Timestamp} {least : Nat} (punctual : Punctual clients)
    (known : Read world now) (drafts : Drafts engine platform vm now drafted)
    (least_kept : least ≤ engine.cfg.repository.retention.keep_within_days) :
    ∃ copies : List (String × CopyRow),
      acts (locking base clients) (settle engine platform vm staging_root job_id drafted) world =
        copies.map (fun copy => .copies drafted.point.snapshot_id copy.1 copy.2) ∧
      copies.map Prod.fst = (engine.cfg.replicas.filter (·.enabled)).map (·.name) ∧
      ∀ copy ∈ copies, Lasting least now copy.2 := by
  have enough : least ≤ drafted.immutable_days := least_kept.trans drafts.enough
  have far : addDays now least ≤ drafted.point.immutable_until := by
    rw [drafts.immutable]
    exact addDays_mono (Nat.le_refl now) enough
  have closing : ∀ closed, Unseen (recordSuccess job_id closed) := fun closed =>
    unseen_footprint (footprint_finishJob _ _ _ _) (by simp) (by simp) (by simp)
  obtain ⟨closed, ended⟩ : ∃ closed, run (locking base clients).handler
      (recordSuccess job_id drafted.point.snapshot_id) world = (.ok (), closed) := ⟨_, rfl⟩
  unfold settle
  rw [acts_bind_unseen (closing _) ended]
  unfold wrapUp
  obtain ⟨audited, auditing⟩ := @audit_ran (locking base clients) "system" "backup.complete"
    "recovery_point" drafted.point.snapshot_id [("platform", .str platform.name),
      ("vm", .str vm.name), ("suspicious", .bool drafted.point.suspicious),
      ("reason", (drafted.point.suspicious_reason.map Json.str).getD .null)] closed
  dsimp only
  rw [acts_bind_unseen (unseen_audit _ _ _ _ _) auditing]
  obtain ⟨copies, value, after, ran, seen, named, last⟩ := @replicate_acts clients base engine
    audited drafted.point.snapshot_id engine.cfg.replicas drafted.immutable_days least now
    drafted.point.immutable_until punctual ((known.ran ended).ran auditing) far enough
  refine ⟨copies, ?_, named, last⟩
  rw [acts_bind_ok ran, seen]
  refine (congrArg _ (acts_unseen ?_ _)).trans (List.append_nil _)
  split
  · refine issues_bind (issues_bind (unseen_verifyRecoveryPoint _ _) fun _ => issues_pure _)
      fun _ => ?_
    exact issues_bind (unseen_rmtree _) fun _ => issues_pure _
  · exact issues_bind (issues_pure _) fun _ => issues_bind (unseen_rmtree _) fun _ => issues_pure _

/-- A backup exports its machine, and stores all of a point or nothing. -/
theorem performBackup_acts {platform : PlatformConfig} {vm : VM} {platform_info : Dict}
    {now : Timestamp} {staging_root : String} {job_id : Nat} {least : Nat}
    (punctual : Punctual clients) (known : Read world now)
    (least_kept : least ≤ engine.cfg.repository.retention.keep_within_days) :
    ((∃ error after, run (locking base clients).handler (performBackup engine platform vm
        platform_info now staging_root job_id) world = (.error error, after)) ∧
      acts (locking base clients) (performBackup engine platform vm platform_info now staging_root
        job_id) world = [.exports platform.name vm]) ∨
    ∃ stored : Stored, stored.Good least ((engine.cfg.replicas.filter (·.enabled)).map (·.name))
        platform.name vm ∧
      acts (locking base clients) (performBackup engine platform vm platform_info now staging_root
        job_id) world = .exports platform.name vm :: stored.acts := by
  rw [performBackup_eq]
  have exporting := @draft_acts (locking base clients) engine platform vm platform_info now
    staging_root world
  cases drafting : run (locking base clients).handler
      (draft engine platform vm platform_info now staging_root) world with
  | mk outcome middle =>
    cases outcome with
    | error error =>
      refine Or.inl ⟨⟨error, middle, by rw [run_bind, drafting]⟩, ?_⟩
      rw [acts_bind_error drafting, exporting]
    | ok drafted =>
      have drafts := draft_ran drafting
      obtain ⟨primary, stored, storing, shown, lasts⟩ := @store_acts (locking base clients) engine
        drafted.point middle
      obtain ⟨copies, seen, named, last⟩ := @settle_acts clients base engine stored platform vm
        staging_root job_id drafted now least punctual ((known.ran drafting).ran storing) drafts
        least_kept
      have far : addDays now least ≤ drafted.point.immutable_until := by
        rw [drafts.immutable]
        exact addDays_mono (Nat.le_refl now) (least_kept.trans drafts.enough)
      refine Or.inr ⟨⟨drafted.point.snapshot_id,
        { drafted.point.toPointRow with expired := false, expired_at := none },
        ("primary", primary) :: copies⟩, ⟨drafts.of_machine, ?_, ?_, ?_⟩, ?_⟩
      · rw [drafts.created]
        exact far
      · rw [List.map_cons, named]
      · rw [drafts.created]
        exact List.forall_mem_cons.mpr ⟨fun _ => ⟨_, lasts, far⟩, last⟩
      · rw [acts_bind_ok drafting, acts_bind_ok storing, exporting, shown, seen]
        rfl

/-- Recording a failed backup is not seen, returns, and reports no success. -/
theorem recordBackupFailure_ran (engine : Engine) (platform : PlatformConfig) (vm : VM)
    (staging_root : String) (job_id : Nat) (error : Exn) (world : World) : ∃ report after,
      run env.handler (recordBackupFailure engine platform vm staging_root job_id error) world =
        (.ok report, after) ∧
      acts env (recordBackupFailure engine platform vm staging_root job_id error) world = [] ∧
      report.get? "status" = some (.str "failed") := by
  have unseen : Unseen (recordBackupFailure engine platform vm staging_root job_id error) :=
    unseen_footprint (footprint_recordBackupFailure engine platform vm staging_root job_id error)
      (by simp) (by simp) (by simp)
  obtain ⟨finished, finishing⟩ : ∃ finished, run env.handler (finishJob job_id "failed" none
      (some error.message)) world = (.ok (), finished) := ⟨_, rfl⟩
  obtain ⟨audited, auditing⟩ := @audit_ran env "system" "backup.failed" "vm"
    s!"{platform.name}:{vm.id}" [("error", .str error.message)] finished
  have ran : ∃ after, run env.handler
      (recordBackupFailure engine platform vm staging_root job_id error) world = (.ok
        [("platform", .str platform.name), ("vm", .str vm.name), ("status", .str "failed"),
          ("error", .str error.message)], after) := by
    unfold recordBackupFailure
    rw [run_bind, finishing]
    dsimp only
    rw [run_bind, auditing]
    dsimp only
    split
    · exact ⟨_, rfl⟩
    · exact ⟨_, rfl⟩
  obtain ⟨after, ran⟩ := ran
  exact ⟨_, after, ran, acts_unseen unseen world, rfl⟩

/-- Opening a job reads the moment off the clock. -/
theorem openJob_reads {platform : PlatformConfig} {vm : VM} {now : Timestamp}
    {staging_root : String} {job_id : Nat} {after : World}
    (ran : run env.handler (openJob engine platform vm) world =
      (.ok (now, staging_root, job_id), after)) : Read after now := by
  obtain ⟨moment, timed, timing, rest⟩ := (run_bind_eq_ok _).mp ran
  have known : Read timed moment := by
    have read : run env.handler utcnow world = (.ok world.clock, (env.handler .utcnow world).2) :=
      rfl
    rw [read] at timing
    cases timing
    exact List.mem_append_right _ (List.mem_singleton.mpr rfl)
  obtain ⟨_, made, making, rest⟩ := (run_bind_eq_ok _).mp rest
  obtain ⟨number, started, starting, rest⟩ := (run_bind_eq_ok _).mp rest
  have known : Read started moment := (known.ran making).ran starting
  obtain ⟨answered, rfl⟩ := Prod.mk.inj rest
  obtain ⟨rfl, _⟩ := Prod.mk.inj (Except.ok.inj answered)
  exact known

end Backups

section Runs

/-- The machine of a job. -/
def Job.machine (job : Job) : String × VM := (job.platform, job.vm)

/-- A program backs up machines of a scope in order, and all of them when it returns. -/
structure Performs (env : Environment) (days : Nat) (targets : List String) (dry_run : Bool)
    (program : Prog (List Dict)) (world : World) (scope : List (String × VM))
    (jobs : List Job) : Prop where
  seen : acts env program world = jobs.flatMap Job.acts
  good : ∀ job ∈ jobs, job.Good days targets dry_run
  inside : jobs.map Job.machine <+: scope
  whole : ∀ results after, run env.handler program world = (.ok results, after) →
    jobs.map Job.machine = scope ∧ results = jobs.map (·.report)

variable {α : Type} {clients : Clients} {env base : Environment} {engine : Engine} {world : World}
  {days : Nat} {targets : List String} {dry_run : Bool}

theorem performs_append {first second : Prog (List Dict)} {early later : List (String × VM)}
    (begins : ∃ jobs, Performs env days targets dry_run first world early jobs)
    (continues : ∀ middle, ∃ jobs, Performs env days targets dry_run second middle later jobs) :
    ∃ jobs, Performs env days targets dry_run (do
      let results ← first
      let others ← second
      return results ++ others) world (early ++ later) jobs := by
  obtain ⟨jobs, performs⟩ := begins
  cases ran : run env.handler first world with
  | mk outcome middle =>
    cases outcome with
    | error error =>
      refine ⟨jobs, ?_, performs.good, performs.inside.trans (List.prefix_append _ _), ?_⟩
      · rw [acts_bind_error ran, performs.seen]
      · intro results after impossible
        rw [run_bind, ran] at impossible
        cases impossible
    | ok results =>
      obtain ⟨others, further⟩ := continues middle
      obtain ⟨all, same⟩ := performs.whole results middle ran
      refine ⟨jobs ++ others, ?_, ?_, ?_, ?_⟩
      · rw [acts_bind_ok ran, performs.seen, List.flatMap_append, ← further.seen]
        refine congrArg _ ?_
        cases rest : run env.handler second middle with
        | mk outcome after =>
          cases outcome with
          | error error => rw [acts_bind_error rest]
          | ok more =>
            rw [acts_bind_ok rest]
            exact List.append_nil _
      · exact List.forall_mem_append.mpr ⟨performs.good, further.good⟩
      · rw [List.map_append, all]
        exact (List.prefix_append_right_inj early).mpr further.inside
      · intro total after done
        rw [run_bind, ran] at done
        obtain ⟨more, between, rest, done⟩ := (run_bind_eq_ok _).mp done
        obtain ⟨others_all, others_same⟩ := further.whole more between rest
        cases done
        rw [List.map_append, List.map_append, all, others_all, same, others_same]
        exact ⟨rfl, rfl⟩

/-- Something unseen may come first. -/
theorem performs_after {first : Prog α} {next : α → Prog (List Dict)}
    {scope : List (String × VM)} (unseen : Unseen first)
    (continues : ∀ value middle, run env.handler first world = (.ok value, middle) →
      ∃ jobs, Performs env days targets dry_run (next value) middle scope jobs) :
    ∃ jobs, Performs env days targets dry_run (first >>= next) world scope jobs := by
  cases ran : run env.handler first world with
  | mk outcome middle =>
    cases outcome with
    | error error =>
      refine ⟨[], ?_, fun job member => absurd member List.not_mem_nil, List.nil_prefix, ?_⟩
      · rw [acts_bind_error ran, acts_unseen unseen]
        rfl
      · intro results after impossible
        rw [run_bind, ran] at impossible
        cases impossible
    | ok value =>
      obtain ⟨jobs, performs⟩ := continues value middle ran
      refine ⟨jobs, ?_, performs.good, performs.inside, ?_⟩
      · rw [acts_bind_unseen unseen ran, performs.seen]
      · intro results after done
        rw [run_bind, ran] at done
        exact performs.whole results after done

/-- One job that returns what it reports. -/
theorem performs_single {program : Prog Dict} {job : Job} {after : World}
    (good : job.Good days targets dry_run)
    (ran : run env.handler program world = (.ok job.report, after))
    (seen : acts env program world = job.acts) :
    Performs env days targets dry_run (do
      let result ← program
      return [result]) world [job.machine] [job] where
  seen := by
    rw [acts_bind_ok ran, seen]
    rfl
  good := List.forall_mem_singleton.mpr good
  inside := List.prefix_rfl
  whole := by
    intro results after done
    rw [run_bind, ran] at done
    cases done
    exact ⟨rfl, rfl⟩

/-- Where the machine would be exported. -/
def stagingRoot (engine : Engine) (platform : PlatformConfig) (vm : VM) (now : Timestamp) :
    String :=
  joinPath (joinPath (joinPath engine.cfg.repository.staging_path (safeComponent platform.name))
    (safeComponent vm.name)) (stamp now)

theorem backupVM_planned (platform : PlatformConfig) (vm : VM) (platform_info : Dict) :
    backupVM engine platform vm platform_info true = (do
      let now ← utcnow
      let exported : String ← request (.exportVM platform vm (stagingRoot engine platform vm now)
        true)
      return [("platform", .str platform.name), ("vm", .str vm.name), ("status", .str "dry-run"),
        ("would_export", .str exported)]) := rfl

/-- A planned backup asks where it would export its machine, and stores nothing. -/
theorem performs_planned {platform : PlatformConfig} {vm : VM} {platform_info : Dict}
    (world : World) : ∃ jobs, Performs env days targets true (do
      let result ← backupVM engine platform vm platform_info true
      return [result]) world [(platform.name, vm)] jobs := by
  rw [backupVM_planned, bind_assoc]
  refine performs_after ((issues_perform _).mpr rfl) fun now middle _ => ?_
  generalize stagingRoot engine platform vm now = staging_root
  have exporting : acts env (request (.exportVM platform vm staging_root true)) middle =
      [.exports platform.name vm] := by
    rw [acts, request, issued_perform]
    rfl
  have good : ∀ report : Dict, report.get? "status" ≠ some (.str "success") →
      (Job.mk platform.name vm none report).Good days targets true := fun report unreported =>
    ⟨fun _ absent => (nomatch absent), fun _ => rfl, fun success => absurd success unreported⟩
  cases exported : run env.handler (request (.exportVM platform vm staging_root true)) middle with
  | mk outcome after =>
    cases outcome with
    | error error =>
      refine ⟨[⟨platform.name, vm, none, []⟩], ?_, List.forall_mem_singleton.mpr
        (good [] (by simp [Dict.get?])), List.prefix_rfl, ?_⟩
      · rw [bind_assoc, acts_bind_error exported, exporting]
        rfl
      · intro results last impossible
        rw [bind_assoc, run_bind, exported] at impossible
        cases impossible
    | ok would_export =>
      have done := good [("platform", .str platform.name), ("vm", .str vm.name),
        ("status", .str "dry-run"), ("would_export", .str would_export)] (by simp [Dict.get?])
      refine ⟨_, @performs_single env middle days targets true _ _ after done ?_ ?_⟩
      · rw [run_bind, exported]
        rfl
      · rw [acts_bind_ok exported, exporting]
        rfl

theorem unseen_openJob (platform : PlatformConfig) (vm : VM) :
    Unseen (openJob engine platform vm) := by
  refine issues_bind ((issues_perform _).mpr rfl) fun now => ?_
  refine issues_bind (unseen_request rfl) fun _ => ?_
  refine issues_bind (unseen_footprint (footprint_startJob _ _ _) (by simp) (by simp) (by simp))
    fun _ => issues_pure _

/-- The machine of one backup is its whole scope. -/
theorem performs_backupVM {platform : PlatformConfig} {vm : VM} {platform_info : Dict}
    (punctual : Punctual clients)
    (least : days ≤ engine.cfg.repository.retention.keep_within_days)
    (named : (engine.cfg.replicas.filter (·.enabled)).map (·.name) = targets) (world : World) :
    ∃ jobs, Performs (locking base clients) days targets dry_run (do
      let result ← backupVM engine platform vm platform_info dry_run
      return [result]) world [(platform.name, vm)] jobs := by
  cases dry_run with
  | true => exact performs_planned world
  | false =>
    rw [backupVM_eq, bind_assoc]
    refine performs_after (unseen_openJob platform vm) fun opened middle opening => ?_
    obtain ⟨now, staging_root, job_id⟩ := opened
    dsimp only
    have ended : ∃ job : Job, job.machine = (platform.name, vm) ∧ job.Good days targets false ∧
        (∃ after, run (locking base clients).handler (tryCatch (performBackup engine platform vm
          platform_info now staging_root job_id) (recordBackupFailure engine platform vm
          staging_root job_id)) middle = (.ok job.report, after)) ∧
        acts (locking base clients) (tryCatch (performBackup engine platform vm platform_info now
          staging_root job_id) (recordBackupFailure engine platform vm staging_root job_id))
          middle = job.acts := by
      rcases @performBackup_acts clients base engine middle platform vm platform_info now
          staging_root job_id days punctual (openJob_reads opening) least with
        ⟨⟨error, failed, raised⟩, shown⟩ | ⟨stored, good, shown⟩
      · obtain ⟨report, after, recording, unseen, status⟩ := @recordBackupFailure_ran
          (locking base clients) engine platform vm staging_root job_id error failed
        refine ⟨⟨platform.name, vm, none, report⟩, rfl,
          ⟨fun _ absent => (nomatch absent), fun _ => rfl, ?_⟩, ⟨after, ?_⟩, ?_⟩
        · intro success
          simp [status] at success
        · rw [run_tryCatch, raised]
          exact recording
        · rw [acts_tryCatch_error raised, shown, unseen]
          rfl
      · have sound : ∀ report, (Job.mk platform.name vm (some stored) report).Good days targets
            false := by
          intro report
          refine ⟨?_, nofun, nofun⟩
          intro other same
          cases same
          exact named ▸ good
        cases performing : run (locking base clients).handler (performBackup engine platform vm
            platform_info now staging_root job_id) middle with
        | mk outcome after =>
          cases outcome with
          | ok report =>
            refine ⟨⟨platform.name, vm, some stored, report⟩, rfl, sound report, ⟨after, ?_⟩, ?_⟩
            · rw [run_tryCatch, performing]
            · rw [acts_tryCatch_ok performing, shown]
              rfl
          | error error =>
            obtain ⟨report, last, recording, unseen, _⟩ := @recordBackupFailure_ran
              (locking base clients) engine platform vm staging_root job_id error after
            refine ⟨⟨platform.name, vm, some stored, report⟩, rfl, sound report, ⟨last, ?_⟩, ?_⟩
            · rw [run_tryCatch, performing]
              exact recording
            · rw [acts_tryCatch_error performing, shown, unseen, List.append_nil]
              rfl
    obtain ⟨job, same, good, ⟨after, ran⟩, seen⟩ := ended
    exact ⟨[job], same ▸ performs_single good ran seen⟩

/-- So is the list of machines of several. -/
theorem performs_backupMachines {platform : PlatformConfig} {platform_info : Dict}
    {machines : List VM} (punctual : Punctual clients)
    (least : days ≤ engine.cfg.repository.retention.keep_within_days)
    (named : (engine.cfg.replicas.filter (·.enabled)).map (·.name) = targets) (world : World) :
    ∃ jobs, Performs (locking base clients) days targets dry_run
      (backupMachines engine platform platform_info dry_run machines) world
      (machines.map fun vm => (platform.name, vm)) jobs := by
  induction machines generalizing world with
  | nil =>
    refine ⟨[], rfl, fun job member => absurd member List.not_mem_nil, List.prefix_rfl, ?_⟩
    intro results after ran
    cases ran
    exact ⟨rfl, rfl⟩
  | cons vm rest inductionHypothesis =>
    have split : backupMachines engine platform platform_info dry_run (vm :: rest) = (do
        let results ← (do
          let result ← backupVM engine platform vm platform_info dry_run
          return [result])
        let others ← backupMachines engine platform platform_info dry_run rest
        return results ++ others) := by
      simp only [backupMachines, bind_assoc, pure_bind, List.singleton_append]
    rw [split, List.map_cons, ← List.singleton_append]
    exact performs_append (performs_backupVM punctual least named world)
      fun middle => inductionHypothesis middle

/-- The machines that a view reaches on these platforms, as the hosts list them. -/
def reached (hosts : String → Host) (platforms : List PlatformConfig) : List (String × VM) :=
  platforms.flatMap fun platform =>
    if platform.enabled then
      ((listed (hosts platform.name) platform.type).filter fun vm =>
        selected platform vm.name).map fun vm => (platform.name, vm)
    else []

theorem performs_backupPlatforms {hosts : String → Host} {platforms : List PlatformConfig}
    (punctual : Punctual clients)
    (least : days ≤ engine.cfg.repository.retention.keep_within_days)
    (named : (engine.cfg.replicas.filter (·.enabled)).map (·.name) = targets) (world : World) :
    ∃ jobs, Performs (locking (surveying hosts base) clients) days targets dry_run
      (backupPlatforms engine dry_run platforms) world (reached hosts platforms) jobs := by
  induction platforms generalizing world with
  | nil =>
    refine ⟨[], rfl, fun job member => absurd member List.not_mem_nil, List.prefix_rfl, ?_⟩
    intro results after ran
    cases ran
    exact ⟨rfl, rfl⟩
  | cons platform rest inductionHypothesis =>
    rw [reached, List.flatMap_cons, ← reached]
    unfold backupPlatforms
    by_cases enabled : platform.enabled = true
    · rw [if_neg (by simp [enabled]), if_pos enabled]
      refine performs_after (issues_tryCatch (unseen_request rfl) fun _ => issues_pure _)
        fun platform_info asked _ => ?_
      refine performs_after (unseen_request rfl) fun machines surveyed ran => ?_
      obtain ⟨answered, _⟩ := request_ran ran
      have shown : machines = (listed (hosts platform.name) platform.type).filter fun vm =>
          selected platform vm.name := inventory_listed answered
      rw [← shown]
      exact performs_append (performs_backupMachines punctual least named surveyed)
        fun middle => inductionHypothesis middle
    · rw [if_pos enabled, if_neg enabled, List.nil_append]
      exact inductionHypothesis world

end Runs

section Scope

/-- The policy names this machine of this platform. -/
def covers (policy : ProtectionPolicy) (platform name : String) : Bool :=
  policy.selections.any fun row => row.platform = platform ∧ name ∈ row.vms

/-- The machines of a policy: on every enabled platform those that its host lists under a
name that the policy gives. -/
def scope (hosts : String → Host) (core : Config) (policy : ProtectionPolicy) :
    List (String × VM) :=
  core.platforms.flatMap fun platform =>
    if platform.enabled then
      ((listed (hosts platform.name) platform.type).filter fun vm =>
        covers policy platform.name vm.name).map fun vm => (platform.name, vm)
    else []

/-- The replicas that a policy names, in the order of the configuration. -/
def targets (core : Config) (policy : ProtectionPolicy) : List String :=
  (core.replicas.filter fun replica => replica.name ∈ policy.replica_targets).map (·.name)

variable {core : Config} {policy : ProtectionPolicy} {hosts : String → Host}

/-- The selection of a platform is the only one of it. -/
theorem selected_row {platform : String} {vms : List String}
    (accepted : PolicyAccepted core policy) (chosen : policy.selected platform = some vms) :
    ∃ row ∈ policy.selections, row.platform = platform ∧ row.vms = vms ∧
      ∀ other ∈ policy.selections, other.platform = platform → other = row := by
  obtain ⟨row, found, rfl⟩ := Option.map_eq_some_iff.mp chosen
  have member : row ∈ policy.selections := List.mem_reverse.mp (List.mem_of_find?_eq_some found)
  have own : row.platform = platform := by simpa using List.find?_some found
  refine ⟨row, member, own, rfl, fun other listed same => ?_⟩
  exact List.inj_on_of_nodup_map accepted.platforms_distinct listed member (same.trans own.symm)

/-- Through the view of a policy, exactly the machines that it names are selected. -/
theorem view_selects {platform : PlatformConfig} (accepted : PolicyAccepted core policy)
    (name : String) :
    ((policy.selected platform.name).isSome &&
      selected { platform with
        enabled := platform.enabled && (policy.selected platform.name).isSome
        includes := (policy.selected platform.name).getD []
        excludes := [] } name) = covers policy platform.name name := by
  cases chosen : policy.selected platform.name with
  | none =>
    have absent : ∀ row ∈ policy.selections, row.platform ≠ platform.name := by
      intro row member same
      have found := List.find?_eq_none.mp (Option.map_eq_none_iff.mp chosen) row
        (List.mem_reverse.mpr member)
      simp [same] at found
    rw [Option.isSome_none, Bool.false_and, eq_comm, covers, List.any_eq_false]
    intro row member covered
    exact absent row member (of_decide_eq_true covered).1
  | some vms =>
    obtain ⟨row, member, own, same, only⟩ := selected_row accepted chosen
    rw [Option.isSome_some, Bool.true_and]
    refine Bool.eq_iff_iff.mpr ?_
    simp only [selected, covers, Option.getD_some, List.any_nil, Bool.not_false, Bool.and_true,
      List.any_eq_true, decide_eq_true_eq]
    constructor
    · rintro ⟨pattern, listed, matched⟩
      have plain := ((accepted.exact row member).2.2 pattern (same ▸ listed)).2
      obtain rfl := (fnmatch_plain plain).mp matched
      exact ⟨row, member, own, same ▸ listed⟩
    · rintro ⟨other, listed, there, inside⟩
      obtain rfl := only other listed there
      have plain := ((accepted.exact other member).2.2 name inside).2
      exact ⟨name, same ▸ inside, (fnmatch_plain plain).mpr rfl⟩

/-- The view of a policy reaches exactly its scope. -/
theorem reached_view (accepted : PolicyAccepted core policy) :
    reached hosts (policyView core policy).platforms = scope hosts core policy := by
  unfold reached scope policyView
  dsimp only
  rw [List.flatMap_map]
  refine congrArg (fun each => core.platforms.flatMap each) (funext fun platform => ?_)
  dsimp only
  have selects := @view_selects core policy platform accepted
  cases enabled : platform.enabled with
  | false => simp
  | true =>
    rw [Bool.true_and, if_pos rfl]
    cases chosen : (policy.selected platform.name).isSome with
    | true =>
      rw [if_pos rfl]
      refine congrArg (List.map _) (List.filter_congr fun vm _ => ?_)
      rw [← selects vm.name, chosen, enabled]
      simp [selected]
    | false =>
      rw [if_neg (by simp)]
      have uncovered : ∀ vm : VM, covers policy platform.name vm.name = false := by
        intro vm
        rw [← selects vm.name, chosen, Bool.false_and]
      simp [uncovered]

/-- A policy names enabled replicas only. -/
theorem targets_enabled (accepted : PolicyAccepted core policy) :
    ((policyView core policy).replicas.filter (·.enabled)).map (·.name) = targets core policy := by
  unfold targets policyView
  refine congrArg (List.map _) (List.filter_eq_self.mpr ?_)
  intro replica member
  obtain ⟨listed, named⟩ := List.mem_filter.mp member
  obtain ⟨other, there, same, enabled⟩ :=
    accepted.replicas_known replica.name (of_decide_eq_true named)
  rwa [List.inj_on_of_nodup_map core.replicas_distinct there listed same] at enabled

theorem mem_targets (accepted : PolicyAccepted core policy) (name : String) :
    name ∈ targets core policy ↔ name ∈ policy.replica_targets := by
  constructor
  · intro member
    obtain ⟨replica, listed, rfl⟩ := List.mem_map.mp member
    exact of_decide_eq_true (List.mem_filter.mp listed).2
  · intro named
    obtain ⟨replica, listed, rfl, _⟩ := accepted.replicas_known name named
    exact List.mem_map.mpr ⟨replica, List.mem_filter.mpr ⟨listed, decide_eq_true named⟩, rfl⟩

/-- What a view has in common with the configuration that it wraps. -/
structure Wraps (core view : Config) : Prop where
  runtime : view.runtime = core.runtime
  dr : view.dr = core.dr
  repository : { view.repository with retention := { view.repository.retention with
    keep_within_days := core.repository.retention.keep_within_days } } = core.repository
  protection : { view.protection with
    verify_after_backup := core.protection.verify_after_backup } = core.protection
  platforms : view.platforms.map (fun platform =>
      { platform with enabled := true, includes := [], excludes := [] }) =
    core.platforms.map fun platform =>
      { platform with enabled := true, includes := [], excludes := [] }
  replicas : view.replicas.Sublist core.replicas

theorem policyView_wraps (core : Config) (policy : ProtectionPolicy) :
    Wraps core (policyView core policy) where
  runtime := rfl
  dr := rfl
  repository := rfl
  protection := rfl
  platforms := by
    unfold policyView
    dsimp only
    rw [List.map_map]
    rfl
  replicas := List.filter_sublist

/-- A run of a policy does what the policy says, and nothing else. -/
structure Exact (env : Environment) (hosts : String → Host) (core : Config)
    (policy : ProtectionPolicy) (dry_run : Bool) (program : Prog Dict) (world : World)
    (jobs : List Job) : Prop where
  seen : acts env program world = jobs.flatMap Job.acts
  good : ∀ job ∈ jobs, job.Good policy.immutable_days (targets core policy) dry_run
  inside : jobs.map Job.machine <+: scope hosts core policy
  whole : ∀ detail after, run env.handler program world = (.ok detail, after) →
    jobs.map Job.machine = scope hosts core policy ∧
      detail.get? "results" = some (.arr (jobs.map fun job => .obj job.report))

variable {clients : Clients} {base : Environment}

theorem exact_runPolicy {engine : Engine} {dry_run : Bool} {actor : String}
    (punctual : Punctual clients) (accepted : PolicyAccepted engine.cfg policy)
    (enabled : policy.enabled = true) (world : World) :
    ∃ jobs, Exact (locking (surveying hosts base) clients) hosts engine.cfg policy dry_run
      (runPolicy engine policy dry_run actor) world jobs := by
  have backing : ∃ jobs, Performs (locking (surveying hosts base) clients) policy.immutable_days
      (targets engine.cfg policy) dry_run (backupAll (policyEngine engine policy) dry_run) world
      (scope hosts engine.cfg policy) jobs := by
    have named : ((policyEngine engine policy).cfg.replicas.filter (·.enabled)).map (·.name) =
        targets engine.cfg policy := targets_enabled accepted
    have least : policy.immutable_days ≤
        (policyEngine engine policy).cfg.repository.retention.keep_within_days := Nat.le_refl _
    refine performs_after (unseen_ensurePathCapacity _ _) fun _ ready _ => ?_
    rw [← reached_view accepted]
    exact performs_backupPlatforms punctual least named ready
  obtain ⟨jobs, performs⟩ := backing
  unfold runPolicy
  rw [if_neg (by simp [enabled])]
  cases ran : run (locking (surveying hosts base) clients).handler
      (backupAll (policyEngine engine policy) dry_run) world with
  | mk outcome middle =>
    cases outcome with
    | error error =>
      refine ⟨jobs, ?_, performs.good, performs.inside, ?_⟩
      · rw [acts_bind_error ran, performs.seen]
      · intro detail after impossible
        rw [run_bind, ran] at impossible
        cases impossible
    | ok results =>
      obtain ⟨all, same⟩ := performs.whole results middle ran
      refine ⟨jobs, ?_, performs.good, performs.inside, ?_⟩
      · rw [acts_bind_ok ran, performs.seen]
        refine (congrArg _ (acts_unseen ?_ _)).trans (List.append_nil _)
        dsimp only
        split
        · exact issues_bind (unseen_audit _ _ _ _ _) fun _ => issues_pure _
        · exact issues_pure _
      · intro detail after done
        refine ⟨all, ?_⟩
        obtain ⟨found, _, again, done⟩ := (run_bind_eq_ok _).mp done
        obtain rfl : results = found := by
          rw [ran] at again
          exact Except.ok.inj (Prod.mk.inj again).1
        have shown : results.map Json.obj = jobs.map fun job => .obj job.report := by
          rw [same, List.map_map]
          rfl
        rw [← shown]
        dsimp only at done
        split at done
        · obtain ⟨_, _, _, done⟩ := (run_bind_eq_ok _).mp done
          cases done
          exact Dict.get?_set_self _ _ _
        · cases done
          exact Dict.get?_set_self _ _ _

/-- A run of an enabled policy backs up exactly the machines of its scope, copies each to
exactly the replicas of the policy, for the days of the policy, and through a view that
leaves the configuration as it is. -/
theorem policy_run_exact (runner : ProtectionPolicyRunner) (policy : ProtectionPolicy)
    (member : policy ∈ runner.cfg.management.policies) (enabled : policy.enabled = true)
    (hosts : String → Host) (clients : Clients) (punctual : Punctual clients) (base : Environment)
    (dry_run : Bool) (actor : String) (world : World) :
    (∃ jobs, Exact (locking (surveying hosts base) clients) hosts runner.cfg.core policy dry_run
      (runner.run policy.id dry_run actor) world jobs) ∧
    (∀ name, name ∈ targets runner.cfg.core policy ↔ name ∈ policy.replica_targets) ∧
    Wraps runner.cfg.core (policyEngine runner.engine policy).cfg := by
  have accepted : PolicyAccepted runner.cfg.core policy := runner.cfg.accepted.policies policy member
  refine ⟨?_, mem_targets accepted, policyView_wraps _ _⟩
  have found : runner.run policy.id dry_run actor = runPolicy runner.engine policy dry_run actor := by
    rw [ProtectionPolicyRunner.run, policy_found member]
    rfl
  rw [found]
  exact @exact_runPolicy policy hosts clients base runner.engine dry_run actor punctual accepted
    enabled world

end Scope

section Night

/-- A policy for one machine, which is copied to one of two replicas. -/
def nightly : ProtectionPolicy where
  id := "nightly"
  name := "Nightly"
  selections := [⟨"pve", ["web"]⟩]
  immutable_days := 7
  replica_targets := ["offsite"]
  verify_after_backup := false

def nightCore : Config :=
  { vault.cfg with
    replicas := [{ name := "offsite", backend := .filesystem, path := some "/mnt/offsite" },
      { name := "other", backend := .filesystem, path := some "/mnt/other" }]
    replicas_distinct := by decide }

theorem nightly_accepted : PolicyAccepted nightCore nightly where
  platforms_known := by decide
  platforms_distinct := by decide
  selects := by decide
  exact := by
    rintro row member
    obtain rfl := List.mem_singleton.mp member
    refine ⟨by decide, by decide, ?_⟩
    rintro vm listed
    obtain rfl := List.mem_singleton.mp listed
    refine ⟨by decide, ?_⟩
    unfold Plain
    exact List.all_iff_forall_prop.mp (by decide)
  replicas_known := by
    intro name named
    obtain rfl := List.mem_singleton.mp named
    exact ⟨_, List.mem_cons_self, rfl, rfl⟩
  days := by decide

def night : ProtectionPolicyRunner where
  cfg := {
    enterprise := {
      core := nightCore, tenants := [⟨"default", "Default", ["*"]⟩]
      tenants_distinct := Tenancy.default_distinct
      owned := List.forall_mem_cons.mpr
        ⟨⟨"default", by decide⟩, fun _ member => absurd member List.not_mem_nil⟩ }
    management := { policies := [nightly] }
    accepted := {
      policies := List.forall_mem_singleton.mpr nightly_accepted
      ids_distinct := List.nodup_singleton _
      networks := fun _ member => absurd member List.not_mem_nil
      boot_seconds := by decide } }
  getenv := fun _ => some "secret"

/-- A cluster with two machines. -/
def cluster : Host := fun _ survey => match survey with
  | .clusterResources => .ok (some (.arr [
      .obj [("vmid", .int 100), ("name", .str "web"), ("status", .str "running")],
      .obj [("vmid", .int 101), ("name", .str "webshop"), ("status", .str "running")]]))
  | _ => .error ⟨.otherError, "command failed"⟩

/-- A moment that was read off the clock. -/
def reading : Exchange controller Exn → Option Timestamp
  | ⟨.utcnow, .ok moment⟩ => some moment
  | _ => none

/-- Stores without objects, whose clock shows the latest moment that was read. -/
def timely : Clients := fun log _ _ command => match command with
  | .utcnow => .ok ((log.filterMap reading).foldr max 0)
  | .client | .preflight | .putRetention .. | .putRules _ => .ok ()
  | .listObjects _ => .ok ([], none)
  | .getRetention _ => .ok none
  | .getRules => .ok []

theorem le_foldr_max {moment : Timestamp} {moments : List Timestamp} (member : moment ∈ moments) :
    moment ≤ moments.foldr max 0 := by
  induction moments with
  | nil => cases member
  | cons first rest inductionHypothesis =>
    rcases List.mem_cons.mp member with rfl | later
    · exact Nat.le_max_left _ _
    · exact (inductionHypothesis later).trans (Nat.le_max_right _ _)

theorem timely_punctual : Punctual timely := by
  intro log replica trace now timed earlier member
  cases timed
  exact le_foldr_max (List.mem_filterMap.mpr ⟨_, member, rfl⟩)

/-- The policy is for the machine of its name, and for no other. -/
example : scope (fun _ => cluster) nightCore nightly =
    [("pve", { id := "100", name := "web", power_state := "running", kind := "qemu" })] := by
  rfl

theorem policy_run_exact_night :
    (∃ jobs, Exact (locking (surveying (fun _ => cluster) .obliging) timely) (fun _ => cluster)
      night.cfg.core nightly false (night.run nightly.id false "policy-scheduler") ⟨{}, 0, []⟩
      jobs) ∧
    (∀ name, name ∈ targets night.cfg.core nightly ↔ name ∈ nightly.replica_targets) ∧
    Wraps night.cfg.core (policyEngine night.engine nightly).cfg :=
  policy_run_exact night nightly (List.mem_singleton.mpr rfl) rfl (fun _ => cluster) timely
    timely_punctual .obliging false "policy-scheduler" ⟨{}, 0, []⟩

end Night

end Immutavault.PolicyScope
