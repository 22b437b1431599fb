import Immutavault.RequestRoutes
import Immutavault.RequestRows

/-!
# Recovery across tenants

Whether source and target of a restore belong to one tenant is checked when the portal
creates the request, and nowhere else: not when a request is created by the command line
or by the orchestrator, and not when it is executed, by which time the configuration may
own the two platforms differently.

What is shown is the rest. Over any uses of the entry points, one after another and each
under a configuration of its own, no execution starts between platforms of different
tenants, as long as the routes without a check create no such request and no later
configuration puts a tenant boundary where an earlier one had none.
-/

namespace Immutavault.TenantBoundaries

open Programs Values Catalog Machine Histories Configuration Tenancy StateDatabase
open RestoreEngine DROrchestrator RecoveryRequests RecoveryTests Portal RequestRows RequestRoutes

/-- The two platforms are owned by different tenants. -/
def Separated (cfg : EnterpriseConfig) (source target : String) : Prop :=
  ∃ first second, cfg.tenantForPlatform source = .ok first ∧
    cfg.tenantForPlatform target = .ok second ∧ first ≠ second

theorem Separated.symm {cfg : EnterpriseConfig} {source target : String}
    (separated : Separated cfg source target) : Separated cfg target source := by
  obtain ⟨first, second, owned, other, different⟩ := separated
  exact ⟨second, first, other, owned, different.symm⟩

/-- Platforms of one tenant are not separated. -/
theorem unseparated {cfg : EnterpriseConfig} {source target tenant : String}
    (owned : cfg.tenantForPlatform source = .ok tenant)
    (also : cfg.tenantForPlatform target = .ok tenant) : ¬ Separated cfg source target := by
  rintro ⟨first, second, one, other, different⟩
  exact different ((Except.ok.inj (one.symm.trans owned)).trans
    (Except.ok.inj (also.symm.trans other)))

/-- The entry points that create, approve and execute restores. What else runs writes no
request. -/
inductive Route where
  | portalCreate (identity : Identity) (snapshot target : String) (target_name : Option String)
      (options : Dict)
  | portalApprove (identity : Identity) (request_id : Nat)
  | portalExecute (identity : Identity) (request_id : Nat)
  | restoreRequest (snapshot_id requester target_platform : String)
      (target_name : Option String) (options : Dict)
  | restoreApprove (request_id : Nat) (approver : String)
  | restoreExecute (request_id : Nat) (actor : String) (dry_run : Bool)
  | drPromote (execute confirm_primary_fenced : Bool)
  | drFailback (execute confirm_primary_isolated : Bool)
  | drWatch
  | other (program : Prog Unit)
      (unwritten : Issues (fun command : controller.Command =>
        Command.effect command ≠ .writing .requests) program)

/-- One use of an entry point, by a process with its own configuration, which breaks off
after so many commands or goes through. -/
structure Act where
  portal : EnterprisePortal
  route : Route
  cut : Option Nat := none

namespace Act

variable (act : Act)

/-- The configuration under which the entry point is used. -/
def cfg : EnterpriseConfig := act.portal.cfg.enterprise

/-- The engine of the command line. -/
def engine : Engine := act.portal.engine.super

def routed : Prog Unit :=
  match act.route with
  | .portalCreate identity snapshot target target_name options => do
    let _ ← act.portal.createRestore identity snapshot target target_name options
    return ()
  | .portalApprove identity request_id => do
    let _ ← act.portal.approve identity request_id
    return ()
  | .portalExecute identity request_id => do
    let _ ← act.portal.execute identity request_id
    return ()
  | .restoreRequest snapshot_id requester target_platform target_name options => do
    let rid ← act.engine.requestRestore snapshot_id requester target_platform target_name options
    let _ ← getRestoreRequest rid
    return ()
  | .restoreApprove request_id approver => do
    act.engine.approveRestore request_id approver
    let _ ← getRestoreRequest request_id
    return ()
  | .restoreExecute request_id actor dry_run => do
    let _ ← act.engine.executeRestore request_id actor dry_run
    return ()
  | .drPromote execute confirm_primary_fenced => do
    let _ ← promote act.engine execute confirm_primary_fenced false
    return ()
  | .drFailback execute confirm_primary_isolated => do
    let _ ← failback act.engine execute confirm_primary_isolated
    return ()
  | .drWatch => do
    let _ ← watch act.engine
    return ()
  | .other program _ => program

/-- What the use does, up to where it breaks off. -/
def program : Prog Unit :=
  match act.cut with
  | none => do
    let _ ← act.routed.attempt
    return ()
  | some count => do
    let _ ← (Program.interrupt count act.routed).attempt
    return ()

/-- Where a route creates a request without comparing tenants, the request stays within
one tenant: what the command line asks for, and the workloads of the orchestrator. -/
def Within (db : Database) : Prop :=
  match act.route with
  | .restoreRequest snapshot_id _ target_platform _ _ =>
    ∀ point, db.livePoint snapshot_id = some point →
      ¬ Separated act.cfg point.platform target_platform
  | .drPromote .. | .drFailback .. | .drWatch =>
    ∀ workload ∈ act.engine.cfg.dr.workloads,
      ¬ Separated act.cfg workload.source_platform workload.target_platform
  | _ => True

end Act

/-- The uses one after another, each with the state it begins in. -/
def timeline (env : Environment) (world : World) : List Act → List (Act × World)
  | [] => []
  | act :: rest => (act, world) :: timeline env (run env.handler act.program world).2 rest

/-- A command that starts the execution of a request between platforms of different tenants. -/
def Crosses (cfg : EnterpriseConfig) (entry : World × Command) : Prop :=
  ∃ request_id started_at row, entry.2 = .transact (.startRequest request_id started_at) ∧
    entry.1.db.requests.lookup request_id = some row ∧
    Separated cfg row.source_platform row.target_platform

section Routes

variable {env : Environment} {world : World} {related : String → String → Prop}

/-- What the portal hands out is the live point under the identifier that was asked for. -/
theorem point_ok {portal : EnterprisePortal} {identity : Identity} {snapshot : String}
    {point : Point} {after : World}
    (ran : run env.handler (portal.point identity snapshot) world = (.ok (.ok point), after)) :
    world.db.livePoint snapshot = some point ∧ after.db = world.db ∧
      portal.allowedPoint identity point.platform point.vm_name = true := by
  rw [EnterprisePortal.point, getPoint, run_transact_bind] at ran
  cases present : Transaction.read world.db (.selectPoint snapshot) with
  | none =>
    rw [present] at ran
    cases ran
  | some found =>
    rw [present] at ran
    dsimp only at ran
    split at ran
    · rename_i allowed
      cases ran
      exact ⟨present, rfl, allowed⟩
    · cases ran

theorem footprint_point (portal : EnterprisePortal) (identity : Identity) (snapshot : String) :
    Footprint [.silent] (portal.point identity snapshot) := by
  refine footprint_bind (footprint_reading rfl (by simp)) fun found => ?_
  cases found with
  | none => exact footprint_pure _
  | some point =>
    dsimp only
    split <;> exact footprint_pure _

theorem footprint_restore (portal : EnterprisePortal) (identity : Identity) (request_id : Nat) :
    Footprint [.silent] (portal.restore identity request_id) := by
  refine footprint_bind (footprint_reading rfl (by simp)) fun found => ?_
  cases found with
  | none => exact footprint_pure _
  | some req =>
    dsimp only
    split <;> exact footprint_pure _

/-- The portal creates requests within one tenant. -/
theorem joins_createRestore {portal : EnterprisePortal} {identity : Identity}
    {snapshot target : String} {target_name : Option String} {options : Dict}
    (joined : ∀ source target, ¬ Separated portal.cfg.enterprise source target →
      related source target) :
    Throughout env (Joins related)
      (portal.createRestore identity snapshot target target_name options) world := by
  unfold EnterprisePortal.createRestore
  split
  · exact joins_pure _
  · refine joins_after (footprint_point _ _ _) (by simp) fun found middle looking => ?_
    cases found with
    | error reply => exact joins_pure _
    | ok point =>
      obtain ⟨present, kept, _⟩ := point_ok looking
      dsimp only
      split
      · exact joins_pure _
      · refine joins_raised fun target_tenant owned => ?_
        refine joins_raised fun source_tenant also => ?_
        split
        · exact joins_pure _
        · rename_i same
          have fits : Fits related middle.db point.snapshot_id target := by
            intro other again
            rw [kept, PromotionSafety.livePoint_snapshot_id present, present] at again
            obtain rfl := Option.some.inj again
            have one : source_tenant = target_tenant := (not_not.mp same).symm
            exact joined _ _ (unseparated (one ▸ also) owned)
          refine throughout_bind_iff.mpr ⟨joins_managedRequest fits, fun rid _ _ => ?_⟩
          exact joins_transact (fun _ => by simp) (joins_pure _)

theorem uninserting_approve (portal : EnterprisePortal) (identity : Identity) (request_id : Nat) :
    Issues (fun command : controller.Command => ¬ Inserts command)
      (portal.approve identity request_id) := by
  unfold EnterprisePortal.approve
  split
  · exact issues_pure _
  · refine issues_bind (uninserting_footprint (footprint_restore _ _ _) (by simp)) fun found => ?_
    cases found with
    | error reply => exact issues_pure _
    | ok req =>
      refine issues_bind (uninserting_approveRestore _ _ _) fun _ => ?_
      exact issues_bind (uninserting_transact fun _ => by simp) fun _ => issues_pure _

theorem uninserting_execute (portal : EnterprisePortal) (identity : Identity) (request_id : Nat) :
    Issues (fun command : controller.Command => ¬ Inserts command)
      (portal.execute identity request_id) := by
  unfold EnterprisePortal.execute
  split
  · exact issues_pure _
  · refine issues_bind (uninserting_footprint (footprint_restore _ _ _) (by simp)) fun found => ?_
    cases found with
    | error reply => exact issues_pure _
    | ok req =>
      dsimp only
      split
      · exact issues_pure _
      · exact issues_bind (uninserting_managedExecute _ _ _ _) fun _ => issues_pure _

/-- A use that stays within one tenant where nothing is compared creates requests within
one tenant. -/
theorem joins_routed {act : Act}
    (joined : ∀ source target, ¬ Separated act.cfg source target → related source target)
    (within : act.Within world.db)
    (spelled : ∀ workload ∈ act.engine.cfg.dr.workloads, workload.source_platform ≠ "")
    (steady : Throughout env Steady act.routed world) :
    Throughout env (Joins related) act.routed world := by
  obtain ⟨portal, route, cut⟩ := act
  cases route with
  | portalCreate identity snapshot target target_name options =>
    exact throughout_bind_iff.mpr ⟨joins_createRestore joined, fun _ _ _ => joins_pure _⟩
  | portalApprove identity request_id =>
    exact joins_uninserting (issues_bind (uninserting_approve _ _ _) fun _ => issues_pure _)
  | portalExecute identity request_id =>
    exact joins_uninserting (issues_bind (uninserting_execute _ _ _) fun _ => issues_pure _)
  | restoreRequest snapshot_id requester target_platform target_name options =>
    refine throughout_bind_iff.mpr ⟨joins_requestRestore fun point found =>
      joined _ _ (within point found), fun rid _ _ => ?_⟩
    exact joins_transact (fun _ => by simp) (joins_pure _)
  | restoreApprove request_id approver =>
    refine joins_uninserting (issues_bind (uninserting_approveRestore _ _ _) fun _ => ?_)
    exact issues_bind (uninserting_transact fun _ => by simp) fun _ => issues_pure _
  | restoreExecute request_id actor dry_run =>
    exact joins_uninserting (issues_bind (uninserting_executeRestore _ _ _ _)
      fun _ => issues_pure _)
  | drPromote execute confirmed =>
    refine throughout_bind_iff.mpr ⟨joins_promote fun workload configured => ?_,
      fun _ _ _ => joins_pure _⟩
    exact ⟨spelled workload configured, joined _ _ (within workload configured)⟩
  | drFailback execute confirmed =>
    refine throughout_bind_iff.mpr ⟨joins_failback (throughout_bind_iff.mp steady).1
      fun workload configured => ?_, fun _ _ _ => joins_pure _⟩
    exact joined _ _ fun separated => within workload configured separated.symm
  | drWatch =>
    refine throughout_bind_iff.mpr ⟨joins_watch fun workload configured => ?_,
      fun _ _ _ => joins_pure _⟩
    exact ⟨spelled workload configured, joined _ _ (within workload configured)⟩
  | other program unwritten =>
    refine joins_uninserting (issues_mono unwritten ?_)
    rintro command other ⟨row, rfl⟩
    exact other rfl

end Routes

section Rows

variable {env : Environment} {world : World} {related : String → String → Prop}

/-- Every request goes from its source to a related target. -/
def Joined (related : String → String → Prop) (db : Database) : Prop :=
  ∀ request_id row, db.requests.lookup request_id = some row →
    related row.source_platform row.target_platform

/-- Changing the progress of a request leaves its platforms as they are. -/
theorem joined_modify {before after : Database} {request_id : Nat}
    {change : RequestRow → RequestRow}
    (modified : after.requests = before.requests.modify request_id change)
    (continues : ∀ row, Continues row (change row)) (joined : Joined related before) :
    Joined related after := by
  intro other row found
  rw [modified, Tables.Numbered.lookup_modify] at found
  split at found
  · rename_i same
    subst same
    obtain ⟨old, present, rfl⟩ := Option.map_eq_some_iff.mp found
    rw [(continues old).source_platform, (continues old).target_platform]
    exact joined other old present
  · exact joined other row found

/-- A command that inserts no other request keeps all of them related. -/
theorem joined_commit {command : Command} (joins : Joins related (world, command))
    (joined : Joined related world.db) :
    Joined related (Environment.commit world.db command) := by
  by_cases written : command.effect = .writing .requests
  · cases writesRequest_of_effect written with
    | inserts row =>
      intro request_id found present
      change (world.db.requests.insert row).lookup request_id = some found at present
      rw [Tables.Numbered.lookup_insert] at present
      split at present
      · obtain rfl := Option.some.inj present
        exact joins row rfl
      · exact joined request_id found present
    | approves request_id approved_by approved_at =>
      exact joined_modify rfl (fun row => ⟨rfl, rfl, rfl, rfl, rfl, rfl⟩) joined
    | starts request_id started_at =>
      exact joined_modify rfl (fun row => ⟨rfl, rfl, rfl, rfl, rfl, rfl⟩) joined
    | finishes request_id success finished_at result error =>
      exact joined_modify rfl (fun row => ⟨rfl, rfl, rfl, rfl, rfl, rfl⟩) joined
  · have same : (Environment.commit world.db command).requests = world.db.requests :=
      commit_same world.db written
    exact fun request_id row found => joined request_id row (same ▸ found)

/-- So does a run, wherever it issues a command, and in the end. -/
theorem joined_run {α : Type} {program : Prog α}
    (joins : Throughout env (Joins related) program world) (joined : Joined related world.db) :
    (∀ entry ∈ issued env.handler program world, Joined related entry.1.db) ∧
      Joined related (run env.handler program world).2.db := by
  induction program generalizing world with
  | ret value => exact ⟨fun _ member => absurd member List.not_mem_nil, joined⟩
  | raise error => exact ⟨fun _ member => absurd member List.not_mem_nil, joined⟩
  | call command resume inductionHypothesis =>
    obtain ⟨first, rest⟩ := List.forall_mem_cons.mp joins
    obtain ⟨between, ended⟩ := inductionHypothesis _ rest (joined_commit first joined)
    exact ⟨List.forall_mem_cons.mpr ⟨joined, between⟩, ended⟩

/-- A use that breaks off does part of what it would do. -/
theorem throughout_program {property : World × Command → Prop} {act : Act}
    (whole : Throughout env property act.routed world) :
    Throughout env property act.program world := by
  unfold Act.program
  cases act.cut with
  | none =>
    exact throughout_bind_iff.mpr ⟨throughout_attempt_iff.mpr whole, fun _ _ _ _ member =>
      absurd member List.not_mem_nil⟩
  | some count =>
    refine throughout_bind_iff.mpr ⟨throughout_attempt_iff.mpr ?_, fun _ _ _ _ member =>
      absurd member List.not_mem_nil⟩
    intro entry member
    rw [issued_interrupt] at member
    exact whole entry (List.mem_of_mem_take member)

end Rows

/-- No recovery across tenants, as far as the code goes. Take any uses of the entry points,
one after another, each with a configuration of its own and each possibly breaking off. No
execution starts between platforms that its process's configuration owns differently if the
requests of the command line and of the orchestrator stay within one tenant, if the
requests that were there at the start do, and if no configuration separates platforms that
an earlier one did not. A stored point may replace one of the same platform only, and a
workload's source platform has a name, as loading requires. -/
theorem uncrossed_when_within (env : Environment) (world : World) (acts : List Act)
    (initially : ∀ act ∈ acts, Joined (fun source target => ¬ Separated act.cfg source target)
      world.db)
    (within : ∀ moment ∈ timeline env world acts, moment.1.Within moment.2.db)
    (settled : acts.Pairwise fun earlier later => ∀ source target,
      ¬ Separated earlier.cfg source target → ¬ Separated later.cfg source target)
    (spelled : ∀ act ∈ acts, ∀ workload ∈ act.engine.cfg.dr.workloads,
      workload.source_platform ≠ "")
    (steady : ∀ moment ∈ timeline env world acts,
      Throughout env Steady moment.1.routed moment.2) :
    ∀ moment ∈ timeline env world acts,
      ∀ entry ∈ issued env.handler moment.1.program moment.2, ¬ Crosses moment.1.cfg entry := by
  induction acts generalizing world with
  | nil => exact fun _ member => absurd member List.not_mem_nil
  | cons act rest inductionHypothesis =>
    obtain ⟨own, others⟩ := List.forall_mem_cons.mp initially
    obtain ⟨inside, remaining⟩ := List.forall_mem_cons.mp within
    obtain ⟨follows, later⟩ := List.pairwise_cons.mp settled
    obtain ⟨named, names⟩ := List.forall_mem_cons.mp spelled
    obtain ⟨keeps, stays⟩ := List.forall_mem_cons.mp steady
    -- What this use creates is within one tenant now and under every later configuration.
    have joins (related : String → String → Prop)
        (implied : ∀ source target, ¬ Separated act.cfg source target → related source target) :
        Throughout env (Joins related) act.program world :=
      throughout_program (joins_routed implied inside named keeps)
    refine List.forall_mem_cons.mpr ⟨?_, inductionHypothesis _ ?_ remaining later names stays⟩
    · rintro entry member ⟨request_id, started_at, row, _, found, separated⟩
      have joined := (joined_run (joins _ fun _ _ apart => apart) own).1 entry member
      exact joined request_id row found separated
    · intro next member
      exact (joined_run (joins _ (follows next member)) (others next member)).2

/-- Two tenants with one platform each, of one family. -/
def shared : EnterpriseConfig where
  core := {
    repository := vault.cfg.repository
    platforms := [{ name := "acme-pve", type := .proxmox, endpoint := "pve.acme" },
      { name := "globex-pve", type := .proxmox, endpoint := "pve.globex" }]
    dr := { workloads_distinct := no_workloads_distinct }
    replicas_distinct := no_replicas_distinct }
  tenants := [⟨"acme", "Acme", ["acme-*"]⟩, ⟨"globex", "Globex", ["globex-*"]⟩]
  tenants_distinct := by decide
  owned := List.forall_mem_cons.mpr ⟨⟨"acme", by decide +kernel⟩, List.forall_mem_cons.mpr
    ⟨⟨"globex", by decide +kernel⟩, fun _ member => absurd member List.not_mem_nil⟩⟩

/-- Their portal, without local users. -/
def sharedPortal : EnterprisePortal where
  cfg := {
    enterprise := shared
    management := {}
    accepted := {
      policies := fun _ member => absurd member List.not_mem_nil
      ids_distinct := List.nodup_nil
      networks := fun _ member => absurd member List.not_mem_nil
      boot_seconds := by decide } }
  users := []
  getenv := vault.getenv

/-- A catalogue with a recovery point of the first tenant, and no requests. -/
def acmePoint : Database where
  points := Tables.Keyed.empty.replace "4f1c" {
    created_at := 0, platform := "acme-pve", platform_type := .proxmox, vm_id := "100"
    vm_name := "web", power_state := none, source_path := "/srv/staging/web"
    backup_bytes := 1, data_added := 1, file_count := 1, manifest_sha256 := none
    immutable_until := 0, suspicious := false, suspicious_reason := none, verified := true
    verified_at := none, metadata := [] }

/-- A request within the first tenant that is ready to be executed. -/
def acmeRequest : Database where
  points := acmePoint.points
  requests := Tables.Numbered.empty.insert {
    created_at := 0, requester := "alice", snapshot_id := "4f1c", source_platform := "acme-pve"
    vm_id := "100", vm_name := "web", target_platform := "acme-pve", target_name := "web-restore"
    options := [], status := .ready }

/-- Its execution by the command line. -/
def acmeExecution : Act := ⟨sharedPortal, .restoreExecute 1 "alice" false, none⟩

/-- The execution starts and crosses no boundary. -/
theorem uncrossed_when_within_acme :
    ∃ entry ∈ issued Environment.obliging.handler acmeExecution.program ⟨acmeRequest, 0, []⟩,
      (∃ started_at, entry.2 = .transact (.startRequest 1 started_at)) ∧
        ¬ Crosses acmeExecution.cfg entry := by
  have started : (issued Environment.obliging.handler acmeExecution.program
      ⟨acmeRequest, 0, []⟩)[9]? = some (_, .transact (.startRequest 1 _)) := rfl
  have member := List.mem_of_getElem? started
  refine ⟨_, member, ⟨_, rfl⟩, ?_⟩
  have owned : shared.tenantForPlatform "acme-pve" = .ok "acme" :=
    shared.tenantForPlatform_eq_ok.mpr (by decide +kernel)
  have inside : Joined (fun source target => ¬ Separated acmeExecution.cfg source target)
      acmeRequest := by
    intro request_id row found
    change (Tables.Numbered.insert _ _).lookup request_id = some row at found
    rw [Tables.Numbered.lookup_insert] at found
    split at found
    · cases found
      exact unseparated owned owned
    · cases found
  have quiet : Throughout Environment.obliging Steady acmeExecution.routed ⟨acmeRequest, 0, []⟩ :=
    steady_footprint (footprint_bind (acmeExecution.engine.footprint_executeRestore _ _ _)
      fun _ => footprint_pure _) (by simp)
  exact uncrossed_when_within Environment.obliging ⟨acmeRequest, 0, []⟩ [acmeExecution]
    (List.forall_mem_singleton.mpr inside) (List.forall_mem_singleton.mpr trivial)
    (List.pairwise_singleton _ _)
    (List.forall_mem_singleton.mpr fun _ member => absurd member List.not_mem_nil)
    (List.forall_mem_singleton.mpr quiet) _ List.mem_cons_self _ member

/-- The command line requests, approves and executes a restore to the other tenant. -/
def crossing : List Act :=
  [⟨sharedPortal, .restoreRequest "4f1c" "alice" "globex-pve" none [], none⟩,
    ⟨sharedPortal, .restoreApprove 1 "bob", none⟩, ⟨sharedPortal, .restoreExecute 1 "alice" false, none⟩]

/-- The two platforms have different owners. -/
theorem shared_separated : Separated shared "acme-pve" "globex-pve" :=
  ⟨"acme", "globex", shared.tenantForPlatform_eq_ok.mpr (by decide +kernel),
    shared.tenantForPlatform_eq_ok.mpr (by decide +kernel), by decide⟩

/-- So an execution crosses the boundary between two tenants. -/
theorem commandLine_crosses : ¬ ∀ (env : Environment) (world : World) (acts : List Act),
    world.db.requests = .empty → ∀ moment ∈ timeline env world acts,
      ∀ entry ∈ issued env.handler moment.1.program moment.2, ¬ Crosses moment.1.cfg entry := by
  intro contained
  refine contained Environment.obliging ⟨acmePoint, 0, []⟩ crossing rfl _
    (@List.mem_of_getElem? _ _ 2 _ rfl) _ (@List.mem_of_getElem? _ _ 9 _ rfl) ?_
  exact ⟨1, _, _, rfl, rfl, shared_separated⟩

end Immutavault.TenantBoundaries
