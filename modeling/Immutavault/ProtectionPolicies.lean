import Immutavault.Backups

/-!
# Protection policies

A run backs up every machine in the inventory of every enabled platform. A policy
runs the same code over a view of the configuration: only the selected machines and
the named replicas, with an immutability and a verification of its own.

Runs exclude each other by a file lock. A run that is looked at alone always gets it,
so the lock is left out here.
-/

namespace Immutavault.ProtectionPolicies

open Programs Values Timestamps Catalog Machine Configuration StateDatabase RestoreEngine Backups

structure PolicySelection where
  platform : String
  vms : List String

/-- How often a policy runs. -/
inductive Frequency where
  | manual
  | daily
  | weekly
  | hourly
  deriving DecidableEq, Repr

structure PolicySchedule where
  frequency : Frequency := .daily
  time : String := "22:00"
  weekdays : List String := []
  every_hours : Nat := 1

structure ProtectionPolicy where
  id : String
  name : String
  enabled : Bool := true
  selections : List PolicySelection
  schedule : PolicySchedule := {}
  immutable_days : Nat
  replica_targets : List String := []
  verify_after_backup : Bool := true

/-- The machines that a policy selects on a platform; a later selection replaces an earlier. -/
def ProtectionPolicy.selected (policy : ProtectionPolicy) (platform : String) :
    Option (List String) :=
  (policy.selections.reverse.find? fun row => row.platform = platform).map (·.vms)

/-- The configuration as one policy sees it. -/
def policyView (cfg : Config) (policy : ProtectionPolicy) : Config :=
  { cfg with
    platforms := cfg.platforms.map fun platform => { platform with
      enabled := platform.enabled && (policy.selected platform.name).isSome
      includes := (policy.selected platform.name).getD []
      excludes := [] }
    replicas := cfg.replicas.filter fun replica => replica.name ∈ policy.replica_targets
    protection := { cfg.protection with verify_after_backup := policy.verify_after_backup }
    repository := { cfg.repository with
      retention := { cfg.repository.retention with keep_within_days := policy.immutable_days } }
    platforms_distinct := by
      rw [List.map_map]
      exact cfg.platforms_distinct
    replicas_distinct := cfg.replicas_distinct.sublist (List.filter_sublist.map _) }

/-- The engine that runs a policy. -/
def policyEngine (engine : Engine) (policy : ProtectionPolicy) : Engine :=
  { engine with cfg := policyView engine.cfg policy, certified := true }

/-- A policy names replicas of the configuration, and adds none. -/
theorem mem_policyEngine_replicas {engine : Engine} {policy : ProtectionPolicy}
    {replica : ReplicaConfig} (member : replica ∈ (policyEngine engine policy).cfg.replicas) :
    replica ∈ engine.cfg.replicas :=
  (List.mem_filter.mp member).1

section Runs

variable (engine : Engine)

/-- Back up the machines of an inventory. -/
def backupMachines (platform : PlatformConfig) (platform_info : Dict) (dry_run : Bool) :
    List VM → Prog (List Dict)
  | [] => return []
  | vm :: rest => do
    let result ← backupVM engine platform vm platform_info dry_run
    let others ← backupMachines platform platform_info dry_run rest
    return result :: others

/-- Back up the platforms one after another. -/
def backupPlatforms (dry_run : Bool) : List PlatformConfig → Prog (List Dict)
  | [] => return []
  | platform :: rest => do
    if ¬ platform.enabled then backupPlatforms dry_run rest
    else
      let platform_info : Dict ← tryCatch (request (.platformInfo platform)) fun exc =>
        pure [("error", .str exc.message)]
      let machines : List VM ← request (.inventory platform)
      let results ← backupMachines engine platform platform_info dry_run machines
      let others ← backupPlatforms dry_run rest
      return results ++ others

def backupAll (dry_run : Bool) : Prog (List Dict) := do
  engine.ensurePathCapacity engine.cfg.repository.staging_path "backup"
  backupPlatforms engine dry_run engine.cfg.platforms

/-- Run one policy, and audit it unless it is a dry run. -/
def runPolicy (policy : ProtectionPolicy) (dry_run : Bool) (actor : String) : Prog Dict := do
  if ¬ policy.enabled then raiseRuntimeError s!"protection policy {policy.id} is disabled"
  else
    let results ← backupAll (policyEngine engine policy) dry_run
    let failed := (results.filter fun row =>
      ((row.get? "status").map Json.toText) = some "failed").length
    let detail : Dict := [("policy_id", .str policy.id), ("policy_name", .str policy.name),
      ("dry_run", .bool dry_run), ("immutable_days", .int policy.immutable_days),
      ("replica_targets", .arr (policy.replica_targets.map .str)), ("failed", .int failed)]
    if ¬ dry_run then
      audit actor (if failed = 0 then "policy.backup.complete" else "policy.backup.partial_failure")
        "protection_policy" policy.id detail
    return detail.set "results" (.arr (results.map .obj))

end Runs

end Immutavault.ProtectionPolicies
