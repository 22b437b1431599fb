import Immutavault.Backups
import Immutavault.DRNetwork

/-!
# Disaster recovery

The orchestrator moves the protected workloads between the two sites. A plan
names the newest recovery point of every workload and complains about whatever
makes it unfit; a preflight asks the replica, the targets and the gateway. A
promotion fences the primary site, restores every workload from the replica,
hands the networks over and starts the machines in their boot order. A failback
takes final backups at the other site, restores them at the primary, withdraws
the recovery site and starts the primary copies.

A promotion and a failback record a run of their own in the catalogue. Whether a
failover is active is not recorded: it is read off the latest successful run of
each direction.
-/

namespace Immutavault.DROrchestrator

open Programs Values Timestamps Catalog Machine Configuration ResticRepository StateDatabase
open RestoreEngine Adapters DRNetwork

variable (engine : Engine)

/-- The network manager of the configured pair of sites. -/
def net : NetworkManager := ⟨engine.cfg.dr, engine.getenv⟩

def ensureEnabled : Prog Unit :=
  if ¬ engine.cfg.dr.enabled then raiseRuntimeError "disaster_recovery.enabled is false"
  else return ()

/-- Workloads in the order in which they start. -/
def BootsBefore (first second : DRVMConfig) : Prop :=
  first.boot_order < second.boot_order ∨
    (first.boot_order = second.boot_order ∧ first.name ≤ second.name)

instance : DecidableRel BootsBefore := fun first second => by
  unfold BootsBefore
  infer_instance

def bootSequence : List DRVMConfig := engine.cfg.dr.workloads.insertionSort BootsBefore

section Planning

/-- What a plan knows about the recovery point of a workload. -/
structure PlannedPoint where
  snapshot_id : String
  created_at : Timestamp
  rpo_minutes : Nat
  verified : Bool
  suspicious : Bool
  replica_ready : Bool
  replica : String

structure PlanRow where
  workload : String
  source_platform : String
  target_platform : String
  source_type : PlatformType
  target_type : PlatformType
  boot_order : Int
  error : Option String := none
  point : Option PlannedPoint := none

structure DRPlan where
  ready : Bool
  primary_site : String
  dr_site : String
  replica : String
  rpo_max_minutes : Nat
  network_primary : NetworkPlan
  network_dr : NetworkPlan
  workloads : List PlanRow
  errors : List String

/-- The newest listed point of a machine with the workload's name. -/
def latestPoint (workload : DRVMConfig) : Prog (Option Point) := do
  let points ← listPoints (some workload.source_platform) none 1000
  return points.find? fun point => point.vm_name = workload.name

/-- What a plan complains about in the recovery point of a workload. -/
def complaints (workload : DRVMConfig) (planned : PlannedPoint) : List String :=
  (if planned.verified then [] else
    [s!"{workload.name}: latest recovery point is not verified"]) ++
  (if planned.suspicious then
    [s!"{workload.name}: latest recovery point is anomaly-flagged"] else []) ++
  (if engine.cfg.dr.rpo_max_minutes < planned.rpo_minutes then
    [s!"{workload.name}: latest point is {planned.rpo_minutes} minutes old; DR RPO limit is {
      engine.cfg.dr.rpo_max_minutes}"] else []) ++
  (if planned.replica_ready then [] else
    [s!"{workload.name}: latest point is not present on DR replica {engine.cfg.dr.replica}"])

/-- The plan of one workload, and what is wrong with it. -/
def planWorkload (workload : DRVMConfig) : Prog (PlanRow × List String) := do
  let point ← latestPoint workload
  let src ← raised (engine.platform workload.source_platform)
  let dst ← raised (engine.platform workload.target_platform)
  let row : PlanRow := {
    workload := workload.name, source_platform := src.name, target_platform := dst.name
    source_type := src.type, target_type := dst.type, boot_order := workload.boot_order }
  if src.type ≠ dst.type then
    let msg := s!"{workload.name}: cross-hypervisor automatic DR is blocked ({src.type.text} -> {
      dst.type.text}); configure the same hypervisor family or a tested conversion plugin"
    return ({ row with error := some msg }, [msg])
  else match point with
    | none =>
      let msg := s!"{workload.name}: no recovery point found on {src.name}"
      return ({ row with error := some msg }, [msg])
    | some point =>
      let copy ← getRecoveryCopy point.snapshot_id engine.cfg.dr.replica
      let now ← utcnow
      let planned : PlannedPoint := {
        snapshot_id := point.snapshot_id, created_at := point.created_at
        rpo_minutes := minutesSince point.created_at now
        verified := point.verified, suspicious := point.suspicious
        replica_ready := copy.map (·.status) = some .success
        replica := engine.cfg.dr.replica }
      return ({ row with point := some planned }, complaints engine workload planned)

def planRows : List DRVMConfig → Prog (List PlanRow × List String)
  | [] => return ([], [])
  | workload :: rest => do
    let (row, errors) ← planWorkload engine workload
    let (rows, more) ← planRows rest
    return (row :: rows, errors ++ more)

def plan : Prog DRPlan := do
  ensureEnabled engine
  let (rows, errors) ← planRows engine (bootSequence engine)
  let network_primary ← raised ((net engine).plan engine.cfg.dr.primary_site)
  let network_dr ← raised ((net engine).plan engine.cfg.dr.dr_site)
  return {
    ready := errors = [], primary_site := engine.cfg.dr.primary_site
    dr_site := engine.cfg.dr.dr_site, replica := engine.cfg.dr.replica
    rpo_max_minutes := engine.cfg.dr.rpo_max_minutes, network_primary := network_primary
    network_dr := network_dr, workloads := rows, errors := errors }

/-- What was found out before anything is fenced. -/
structure PreflightDetails where
  plan_ready : Bool
  replica : Except Exn TargetHealth
  targets : List (String × List String)
  dr_gateway : Except Exn GatewayReport

structure PreflightReport where
  ok : Bool
  problems : List String
  details : PreflightDetails

/-- Ask the configured replica. -/
def checkReplica : Prog TargetHealth := do
  let replica ← raised (engine.replica engine.cfg.dr.replica)
  request (.targetHealth replica)

/-- Ask one target platform. -/
def checkTarget (name : String) : Prog (List String) := do
  let platform ← raised (engine.platform name)
  request (.doctor platform)

/-- Ask every target platform; one that cannot be asked is a problem of its own. -/
def checkTargets : List String → Prog (List (String × List String))
  | [] => return []
  | name :: rest => do
    let issues ← match ← (checkTarget engine name).attempt with
      | .ok issues => pure issues
      | .error exc => pure [exc.message]
    let others ← checkTargets rest
    return (name, issues) :: others

def replicaProblems : Except Exn TargetHealth → List String
  | .ok health => if health.ok then [] else health.problems.map ("DR replica: " ++ ·)
  | .error exc => [s!"DR replica preflight failed: {exc.message}"]

def gatewayProblems : Except Exn GatewayReport → List String
  | .ok network =>
    if network.ok then []
    else
      let shown := if network.error = "" then "unreachable or missing prerequisites"
        else network.error
      [s!"DR gateway preflight failed: {shown}"]
  | .error exc => [s!"DR gateway preflight failed: {exc.message}"]

/-- The target platforms, each once. -/
def targetPlatforms : List String :=
  ((engine.cfg.dr.workloads.map (·.target_platform)).dedup).insertionSort (· ≤ ·)

/-- Validate the recovery source, the targets and the gateway, given a plan. -/
def preflight (plan : DRPlan) : Prog PreflightReport := do
  ensureEnabled engine
  let replica ← (checkReplica engine).attempt
  let targets ← checkTargets engine (targetPlatforms engine)
  let network ← ((net engine).preflight engine.cfg.dr.dr_site).attempt
  let problems := plan.errors ++ replicaProblems replica ++
    targets.flatMap (fun target => target.2.map fun issue => s!"target {target.1}: {issue}") ++
    gatewayProblems network
  return {
    ok := problems = [], problems := problems
    details := {
      plan_ready := plan.ready, replica := replica, targets := targets, dr_gateway := network } }

end Planning

section Fencing

/-- How the splitting of a command line stands between two characters. -/
inductive ShlexState where
  | plain
  | quoted (quote : Char)
  | escaped (within : Option Char)

/-- Split the words of a command line; a word is begun by a character or a quote. -/
def shlexWords : List Char → ShlexState → Option (List Char) → Except Exn (List (List Char))
  | [], .plain, word => .ok word.toList
  | [], .quoted _, _ => .error ⟨.valueError, "No closing quotation"⟩
  | [], .escaped _, _ => .error ⟨.valueError, "No escaped character"⟩
  | character :: rest, .plain, word =>
    if character ∈ [' ', '\t', '\r', '\n'] then do
      let words ← shlexWords rest .plain none
      return word.toList ++ words
    else if character = '\\' then shlexWords rest (.escaped none) word
    else if character ∈ ['\'', '"'] then
      shlexWords rest (.quoted character) (some (word.getD []))
    else shlexWords rest .plain (some (word.getD [] ++ [character]))
  | character :: rest, .quoted quote, word =>
    if character = quote then shlexWords rest .plain word
    else if character = '\\' ∧ quote = '"' then shlexWords rest (.escaped (some quote)) word
    else shlexWords rest (.quoted quote) (some (word.getD [] ++ [character]))
  | character :: rest, .escaped none, word =>
    shlexWords rest .plain (some (word.getD [] ++ [character]))
  | character :: rest, .escaped (some quote), word =>
    -- within quotes only the quote and the escape character itself may be escaped
    let kept := if character = '\\' ∨ character = quote then [] else ['\\']
    shlexWords rest (.quoted quote) (some (word.getD [] ++ kept ++ [character]))

/-- The words of a command line, by the quoting rules of a shell. -/
def shlexSplit (command : String) : Except Exn (List String) := do
  let words ← shlexWords command.toList .plain none
  return words.map String.ofList

def runFenceCommand (env_name : Option String) (label : String) : Prog Unit := do
  match env_name.filter (· ≠ "") with
  | none => raiseRuntimeError s!"{label} command environment variable is not configured"
  | some env_name =>
    match setting engine.getenv env_name with
    | none => raiseRuntimeError s!"{label} command environment variable {env_name} is empty"
    | some command =>
      let argv ← raised (shlexSplit command)
      let result ← runCommand (.fence argv) [] none false
      if result.returncode ≠ 0 then
        raiseRuntimeError s!"{label} command failed: {stripped result.stderr}"
      else return ()

/-- Run the configured commands; the second one is optional. -/
def fenceByCommand : Prog Unit := do
  let fence := engine.cfg.dr.fence
  runFenceCommand engine fence.command_env "primary fence"
  if (fence.verify_command_env.filter (· ≠ "")).isSome then
    runFenceCommand engine fence.verify_command_env "primary fence verification"
  else return ()

def fencePrimary (manual_confirmed automatic : Bool) : Prog Unit := do
  match engine.cfg.dr.fence.mode with
  | .command =>
    fenceByCommand engine
    audit "dr-orchestrator" "dr.fence" "site" engine.cfg.dr.primary_site
      [("mode", .str "command")]
  | .manual =>
    if automatic then
      raiseRuntimeError ("automatic DR promotion requires fence.mode=command; " ++
        "manual fencing cannot safely auto-failover")
    else if ¬ manual_confirmed then
      raiseRuntimeError ("promotion requires --confirm-primary-fenced after the primary " ++
        "workloads/network have been isolated")
    else
      audit "dr-orchestrator" "dr.fence" "site" engine.cfg.dr.primary_site
        [("mode", .str "manual-confirmation")]

end Fencing

section Health

/-- The outcome of one round of health checks. -/
structure HealthReport where
  ok : Bool
  checks : List ProbeResult
  attempt : Option Nat := none
  note : Option String := none

def HealthReport.toDict (report : HealthReport) : Dict :=
  [("ok", .bool report.ok), ("checks", .arr (report.checks.map fun check =>
      .obj (("ok", .bool check.ok) :: check.detail)))] ++
    (match report.attempt with
      | some attempt => [("attempt", .int attempt)]
      | none => []) ++
    (match report.note with
      | some note => [("note", .str note)]
      | none => [])

/-- The results of the checks, one after another. -/
def probeAll : List HealthCheckConfig → Prog (List ProbeResult)
  | [] => return []
  | check :: rest => do
    let result : ProbeResult ← request (.healthCheck check)
    let results ← probeAll rest
    return result :: results

def runHealthChecks (checks : List HealthCheckConfig) : Prog HealthReport := do
  let results ← probeAll checks
  return { ok := results.all (·.ok), checks := results }

/-- Repeat the checks until they succeed, at most so many times more. -/
def awaitHealth (checks : List HealthCheckConfig) (interval : Nat) :
    (remaining attempt : Nat) → (last : HealthReport) → Prog HealthReport
  | 0, _, last => return last
  | remaining + 1, attempt, _ => do
    let report ← runHealthChecks checks
    let last := { report with attempt := some attempt }
    if last.ok then return last
    else
      if remaining ≠ 0 then
        request (.sleep interval)
      awaitHealth checks interval remaining (attempt + 1) last

def waitWorkloadHealth (workload : DRVMConfig) : Prog HealthReport := do
  match workload.health_checks with
  | [] => return { ok := true, checks := [], note := some "no workload health checks configured" }
  | first :: others =>
    let attempts := others.foldl (fun most check => max most check.attempts) first.attempts
    let interval := others.foldl (fun least check => min least check.interval_seconds)
      first.interval_seconds
    awaitHealth workload.health_checks interval attempts 1 { ok := false, checks := [] }

end Health

section Promotion

/-- A successful failover that no later successful failback has ended. -/
def alreadyFailedOver : Prog Bool := do
  let failover ← latestDrRun (some .failover) (some .success)
  let failback ← latestDrRun (some .failback) (some .success)
  match failover, failback with
  | none, _ => return false
  | some _, none => return true
  | some failover, some failback => return failback.2.started_at < failover.2.started_at

/-- A machine that a run has restored. -/
structure Restored where
  workload : DRVMConfig
  adapter : PlatformConfig
  result : Dict

/-- Create a request that needs no approval, and execute it at once. -/
def restoreReady (point : Point) (target_platform target_name : String) (options : Dict) :
    Prog (PlatformConfig × Dict) := do
  let rid ← createRestoreRequest "dr-orchestrator" point target_platform target_name options .ready
  let result ← engine.executeRestore rid "dr-orchestrator" false
  let adapter ← raised (engine.platform target_platform)
  return (adapter, result)

/-- Restore one workload from the replica to the recovery site: the machine, and the row that
is to record it. -/
def restoreWorkload (run_id : Nat) (started : Timestamp) (workload : DRVMConfig) (row : PlanRow) :
    Prog (Restored × WorkloadRow) := do
  let target_name := (workload.target_name.filter (· ≠ "")).getD
    s!"{workload.name}-dr-{stamp started}"
  match row.point with
  | none => throw ⟨.keyError, "'snapshot_id'"⟩
  | some planned =>
    match ← getPoint planned.snapshot_id with
    | none => throw ⟨.assertionError, ""⟩
    | some point =>
      let options := Dict.set workload.restore_options "source_repository"
        (.str engine.cfg.dr.replica)
      let (adapter, result) ← restoreReady engine point workload.target_platform target_name options
      return ({ workload := workload, adapter := adapter, result := result }, {
        run_id := run_id, workload_name := workload.name
        snapshot_id := some planned.snapshot_id, source_platform := workload.source_platform
        target_platform := workload.target_platform, target_name := some target_name
        status := "restored", result := result, error := none })

/-- Restore the workloads in turn. What was restored before a failure is kept, also when it
could not be recorded. -/
def restoreWorkloads (run_id : Nat) (started : Timestamp) :
    List (DRVMConfig × PlanRow) → List Restored → Prog (List Restored × Option Exn)
  | [], restored => return (restored, none)
  | (workload, row) :: rest, restored => do
    match ← (restoreWorkload engine run_id started workload row).attempt with
    | .error exc => return (restored, some exc)
    | .ok (one, entry) =>
      match ← (addDrWorkload entry).attempt with
      | .error exc => return (restored ++ [one], some exc)
      | .ok _ => restoreWorkloads run_id started rest (restored ++ [one])

/-- Switch the machines on in turn; the first that stays unhealthy fails the run. -/
def startMachines (failure : String → String) :
    List Restored → Prog (List (String × HealthReport))
  | [] => return []
  | machine :: rest => do
    let _ ← powerOn machine.adapter engine.getenv machine.result
    let check ← waitWorkloadHealth machine.workload
    if ¬ check.ok then raiseRuntimeError (failure machine.workload.name)
    else
      let others ← startMachines failure rest
      return (machine.workload.name, check) :: others

/-- The health of the started machines, as it is recorded. -/
def healthDetails (health : List (String × HealthReport)) : Json :=
  .obj (health.map fun entry => (entry.1, .obj entry.2.toDict))

/-- The outcome of a promotion that does not raise. -/
inductive Promotion where
  | planned (plan : DRPlan)
  | alreadyFailedOver
  | success (run_id : Nat) (details : Dict)

/-- Hand the networks over and start the machines. -/
def completePromotion (run_id : Nat) (restored : List Restored) : Prog Promotion := do
  let _ ← (net engine).activate engine.cfg.dr.dr_site false
  let health ← startMachines engine (s!"DR workload {·} failed health checks") restored
  let details : Dict := [("replica", .str engine.cfg.dr.replica),
    ("health", healthDetails health),
    ("workloads", .arr (restored.map fun machine => .str machine.workload.name))]
  finishDrRun run_id true details none
  audit "dr-orchestrator" "dr.failover.complete" "dr_run" (toString run_id) details
  return .success run_id details

/-- Switch machines off, whatever that answers. -/
def switchOffQuietly : List Restored → Prog Unit
  | [] => return ()
  | machine :: rest => do
    let _ ← (powerOff machine.adapter engine.getenv machine.result).attempt
    switchOffQuietly rest

/-- Withdraw the recovery site, record the failure and raise it again. -/
def abortPromotion (run_id : Nat) (restored : List Restored) (exc : Exn) : Prog Promotion := do
  let _ ← (net engine).deactivate engine.cfg.dr.dr_site false true
  switchOffQuietly engine restored.reverse
  finishDrRun run_id false
    [("restored", .arr (restored.map fun machine => .str machine.workload.name))]
    (some exc.message)
  audit "dr-orchestrator" "dr.failover.failed" "dr_run" (toString run_id)
    [("error", .str exc.message)]
  throw exc

/-- Prepare the recovery site and withdraw the primary one, which may be gone. -/
def prepareSites : Prog Timestamp := do
  let _ ← (net engine).prepare engine.cfg.dr.dr_site false
  let _ ← (net engine).deactivate engine.cfg.dr.primary_site false true
  utcnow

/-- A promotion from its recorded run on. -/
def runPromotion (run_id : Nat) (plan : DRPlan) : Prog Promotion := do
  match ← (prepareSites engine).attempt with
  | .error exc => abortPromotion engine run_id [] exc
  | .ok started =>
    let (restored, failed) ← restoreWorkloads engine run_id started
      ((bootSequence engine).zip plan.workloads) []
    match failed with
    | some exc => abortPromotion engine run_id restored exc
    | none =>
      tryCatch (completePromotion engine run_id restored) (abortPromotion engine run_id restored)

/-- A promotion whose plan is not executed stops at the plan. -/
def promote (execute confirm_primary_fenced automatic : Bool) : Prog Promotion := do
  ensureEnabled engine
  let plan ← plan engine
  if ¬ execute then return .planned plan
  else
    let active ← alreadyFailedOver
    if active then return .alreadyFailedOver
    else if ¬ plan.ready then
      raiseRuntimeError ("DR promotion blocked: " ++ "; ".intercalate plan.errors)
    else
      let preflight ← preflight engine plan
      if ¬ preflight.ok then
        raiseRuntimeError ("DR promotion preflight failed before fencing primary: " ++
          "; ".intercalate preflight.problems)
      else
        fencePrimary engine confirm_primary_fenced automatic
        let run_id ← createDrRun .failover engine.cfg.dr.primary_site engine.cfg.dr.dr_site
          [("replica", .str engine.cfg.dr.replica)]
        runPromotion engine run_id plan

end Promotion

section Withdrawal

/-- The configured workload with this name. -/
def workloadNamed (name : String) : Except Exn DRVMConfig :=
  match engine.cfg.dr.workloads.find? fun workload => workload.name = name with
  | some workload => .ok workload
  | none => .error ⟨.keyError, Json.reprText name⟩

/-- The outcome of a demotion that does not raise. -/
inductive Demotion where
  | nothingToDemote
  | planned (run_id : Nat) (workloads : List WorkloadRow) (network : Dict)
  | demoted (run_id : Nat) (workloads : List WorkloadRow) (network : Dict)

/-- Switch the machines of a failover off; workloads no longer configured are skipped. -/
def switchOffConfigured : List WorkloadRow → Prog Unit
  | [] => return ()
  | item :: rest => do
    match workloadNamed engine item.workload_name with
    | .error _ => switchOffConfigured rest
    | .ok cfg =>
      let adapter ← raised (engine.platform cfg.target_platform)
      let _ ← powerOff adapter engine.getenv item.result
      switchOffConfigured rest

def demoteDr (execute : Bool) : Prog Demotion := do
  ensureEnabled engine
  match ← latestDrRun (some .failover) (some .success) with
  | none => return .nothingToDemote
  | some last =>
    let workloads ← listDrWorkloads last.1
    let network ← (net engine).deactivate engine.cfg.dr.dr_site true false
    if ¬ execute then return .planned last.1 workloads network
    else
      let _ ← (net engine).deactivate engine.cfg.dr.dr_site false false
      switchOffConfigured engine workloads.reverse
      audit "dr-orchestrator" "dr.demote" "site" engine.cfg.dr.dr_site
        [("failover_run", .int last.1)]
      return .demoted last.1 workloads network

/-- The outcome of a failback that does not raise. -/
inductive Failback where
  | noActiveFailover
  | planned (source_run : Nat) (workloads : List WorkloadRow)
  | success (run_id : Nat) (details : Dict)

/-- What the platform says about itself, or why it does not. -/
def platformInfoOrError (platform : PlatformConfig) : Prog Dict :=
  tryCatch (request (.platformInfo platform)) fun exc => pure [("error", .str exc.message)]

/-- Back one machine of the recovery site up for the last time. -/
def finalBackup (item : WorkloadRow) : Prog (String × String) := do
  let workload ← raised (workloadNamed engine item.workload_name)
  let dr_platform ← raised (engine.platform workload.target_platform)
  let everything := { dr_platform with includes := ["*"], excludes := [] }
  let machines : List VM ← request (.inventory everything)
  match machines.find? fun vm => some vm.name = item.target_name with
  | none =>
    let target_name := item.target_name.getD "None"
    raiseRuntimeError s!"cannot find active DR VM {target_name} for final failback backup"
  | some vm =>
    let info ← platformInfoOrError everything
    let result ← Backups.backupVM engine dr_platform vm info false
    match result.get? "status", result.get? "snapshot" with
    | some (.str "success"), some snapshot => return (workload.name, snapshot.toText)
    | some (.str "success"), none => throw ⟨.keyError, "'snapshot'"⟩
    | _, _ =>
      let error := ((result.get? "error").getD .null).toText
      raiseRuntimeError s!"final backup failed for {workload.name}: {error}"

def finalBackups : List WorkloadRow → Dict → Prog Dict
  | [], final_points => return final_points
  | item :: rest, final_points => do
    let (name, snapshot) ← finalBackup engine item
    finalBackups rest (final_points.set name (.str snapshot))

/-- Restore one workload to the primary site. -/
def restorePrimary (run_id : Nat) (started : Timestamp) (final_points : Dict)
    (workload : DRVMConfig) : Prog Restored := do
  match final_points.get? workload.name with
  | none => throw ⟨.keyError, Json.reprText workload.name⟩
  | some snapshot =>
    match ← getPoint snapshot.toText with
    | none => throw ⟨.assertionError, ""⟩
    | some point =>
      let target_name := s!"{workload.name}-failback-{stamp started}"
      let (adapter, result) ← restoreReady engine point workload.source_platform target_name
        workload.restore_options
      let _ ← addDrWorkload {
        run_id := run_id, workload_name := workload.name, snapshot_id := some point.snapshot_id
        source_platform := workload.target_platform, target_platform := workload.source_platform
        target_name := some target_name, status := "restored", result := result, error := none }
      return { workload := workload, adapter := adapter, result := result }

def restorePrimaries (run_id : Nat) (started : Timestamp) (final_points : Dict) :
    List DRVMConfig → Prog (List Restored)
  | [] => return []
  | workload :: rest => do
    let one ← restorePrimary engine run_id started final_points workload
    let others ← restorePrimaries run_id started final_points rest
    return one :: others

/-- Switch the machines of the recovery site off, in turn. -/
def switchOff : List WorkloadRow → Prog Unit
  | [] => return ()
  | item :: rest => do
    let workload ← raised (workloadNamed engine item.workload_name)
    let adapter ← raised (engine.platform workload.target_platform)
    let _ ← powerOff adapter engine.getenv item.result
    switchOff rest

/-- The steps of a failback up to the withdrawal of the recovery site. -/
def returnWorkloads (run_id : Nat) (workloads : List WorkloadRow) :
    Prog (Dict × List Restored) := do
  let _ ← (net engine).prepare engine.cfg.dr.primary_site false
  let _ ← (net engine).deactivate engine.cfg.dr.primary_site false false
  let final_points ← finalBackups engine workloads []
  let started ← utcnow
  let restored ← restorePrimaries engine run_id started final_points (bootSequence engine)
  let _ ← (net engine).deactivate engine.cfg.dr.dr_site false false
  return (final_points, restored)

/-- The steps of a failback after the withdrawal of the recovery site. -/
def startPrimary (run_id source_run : Nat) (final_points : Dict) (restored : List Restored) :
    Prog Failback := do
  let _ ← (net engine).activate engine.cfg.dr.primary_site false
  let health ← startMachines engine (s!"failback workload {·} failed health checks") restored
  let details : Dict := [("source_failover_run", .int source_run),
    ("health", healthDetails health), ("final_snapshots", .obj final_points)]
  finishDrRun run_id true details none
  audit "dr-orchestrator" "dr.failback.complete" "dr_run" (toString run_id) details
  return .success run_id details

/-- A failback from its recorded run on. -/
def runFailback (run_id source_run : Nat) (workloads : List WorkloadRow) : Prog Failback := do
  let (final_points, restored) ← returnWorkloads engine run_id workloads
  switchOff engine workloads.reverse
  startPrimary engine run_id source_run final_points restored

/-- Record the failure and raise it again. -/
def abortFailback (run_id : Nat) (exc : Exn) : Prog Failback := do
  finishDrRun run_id false [] (some exc.message)
  audit "dr-orchestrator" "dr.failback.failed" "dr_run" (toString run_id)
    [("error", .str exc.message)]
  throw exc

def failback (execute confirm_primary_isolated : Bool) : Prog Failback := do
  ensureEnabled engine
  match ← latestDrRun (some .failover) (some .success) with
  | none => return .noActiveFailover
  | some last =>
    let active ← alreadyFailedOver
    if ¬ active then return .noActiveFailover
    else
      let workloads ← listDrWorkloads last.1
      if ¬ execute then return .planned last.1 workloads
      else if ¬ confirm_primary_isolated then
        raiseRuntimeError ("failback requires --confirm-primary-isolated: original primary " ++
          "workloads must be powered off/isolated before same-IP recovery")
      else
        let run_id ← createDrRun .failback engine.cfg.dr.dr_site engine.cfg.dr.primary_site
          [("source_failover_run", .int last.1)]
        tryCatch (runFailback engine run_id last.1 workloads) (abortFailback run_id)

end Withdrawal

section Supervision

/-- The outcome of one evaluation of the primary site. -/
inductive Watch where
  | maintenance
  | notDue (next_check_in_seconds : Nat) (health : HealthRow)
  | observed (health : HealthRow)
  | alreadyFailedOver (health : HealthRow)
  | promoted (health : HealthRow) (promotion : Promotion)

/-- How long the evaluation is still to wait, when the interval is longer than a minute. -/
def waitingTime (previous : Option HealthRow) : Prog (Option (Nat × HealthRow)) := do
  match previous with
  | none => return none
  | some previous =>
    if engine.cfg.dr.check_interval_seconds ≤ 60 then return none
    else
      let now ← utcnow
      let age : Int := (now : Int) - previous.checked_at
      let interval : Int := engine.cfg.dr.check_interval_seconds * second
      if age < interval then return some (max 1 ((interval - age) / second).toNat, previous)
      else return none

/-- How many probes have to fail. -/
def failureQuorum (probes : List ProbeResult) : Nat :=
  if engine.cfg.dr.primary_failure_quorum ≠ 0 then engine.cfg.dr.primary_failure_quorum
  else max 1 probes.length

/-- Probe the primary site and record the result. -/
def evaluatePrimary : Prog HealthRow := do
  let checks ← runHealthChecks engine.cfg.dr.primary_probes
  let failed := checks.checks.countP fun item => ¬ item.ok
  let required := failureQuorum engine checks.checks
  updateDrHealth "primary-site" (failed < required) (checks.toDict ++ [
    ("failed_probes", .int failed), ("failure_quorum", .int required),
    ("site_healthy", .bool (failed < required))])

def watch : Prog Watch := do
  ensureEnabled engine
  let maintenance : Bool ← request (.pathExists engine.cfg.dr.maintenance_file)
  if maintenance then return .maintenance
  else
    let previous ← getDrHealth "primary-site"
    match ← waitingTime engine previous with
    | some (seconds, health) => return .notDue seconds health
    | none =>
      let state ← evaluatePrimary engine
      if state.healthy ∨ state.consecutive_failures < engine.cfg.dr.failure_threshold ∨
          ¬ engine.cfg.dr.auto_failover then
        return .observed state
      else
        let active ← alreadyFailedOver
        if active then return .alreadyFailedOver state
        else
          let promotion ← promote engine true false true
          return .promoted state promotion

/-- What the synchronization of one workload reports. -/
inductive Synced where
  | alreadyPresent (snapshot_id : String)
  | copied (snapshot_id : String) (result : CopyResult)

/-- Copy a point to the replica and catalogue the copy. -/
def syncPoint (replica : ReplicaConfig) (point : Point) : Prog CopyResult := do
  let result ← copySnapshot engine.cfg.repository engine.getenv point.snapshot_id replica
    (some engine.cfg.repository.retention.keep_within_days)
  upsertRecoveryCopy point.snapshot_id replica.name replica.backend.text result.repository
    (replicaProvider replica) .success (some point.immutable_until)
    ((result.object_lock.map (·.details)).getD []) none
  return result

/-- Bring the newest point of one workload to the replica. -/
def syncWorkload (replica : ReplicaConfig) (workload : DRVMConfig) :
    Prog (Except String Synced) := do
  match ← latestPoint workload with
  | none => return .error s!"{workload.name}: no recovery point"
  | some point =>
    if point.suspicious then
      return .error s!"{workload.name}: latest point is suspicious and was not promoted to DR"
    else
      let existing ← getRecoveryCopy point.snapshot_id replica.name
      if existing.map (·.status) = some .success then return .ok (.alreadyPresent point.snapshot_id)
      else match ← (syncPoint engine replica point).attempt with
        | .ok result => return .ok (.copied point.snapshot_id result)
        | .error exc => return .error s!"{workload.name}: {exc.message}"

def syncWorkloads (replica : ReplicaConfig) :
    List DRVMConfig → Prog (List (String × Except String Synced))
  | [] => return []
  | workload :: rest => do
    let outcome ← syncWorkload engine replica workload
    let others ← syncWorkloads replica rest
    return (workload.name, outcome) :: others

/-- What is audited about a synchronized workload. -/
def syncReport (entry : String × Except String Synced) : Option Json :=
  match entry.2 with
  | .error _ => none
  | .ok (.alreadyPresent snapshot_id) => some (.obj [("workload", .str entry.1),
      ("snapshot_id", .str snapshot_id), ("status", .str "already-present")])
  | .ok (.copied snapshot_id result) => some (.obj [("workload", .str entry.1),
      ("snapshot_id", .str snapshot_id), ("status", .str "copied"),
      ("result", Backups.copyReport result)])

def syncError (entry : String × Except String Synced) : Option String :=
  match entry.2 with
  | .error message => some message
  | .ok _ => none

/-- Bring the newest point of every workload to the replica; true when all of them are there. -/
def sync : Prog (Bool × List (String × Except String Synced)) := do
  ensureEnabled engine
  let replica ← raised (engine.replica engine.cfg.dr.replica)
  let outcomes ← syncWorkloads engine replica engine.cfg.dr.workloads
  let errors := outcomes.filterMap syncError
  audit "dr-sync" "dr.sync" "dr_replica" replica.name
    [("copied", .arr (outcomes.filterMap syncReport)), ("errors", .arr (errors.map .str))]
  return (errors = [], outcomes)

end Supervision

section Footprints

theorem footprint_ensureEnabled (effects : List Effect) :
    Footprint effects (ensureEnabled engine) := by
  unfold ensureEnabled
  split
  · exact footprint_throw _
  · exact footprint_pure _

theorem run_ensureEnabled {env : Environment} {engine : Engine} {world after : World}
    (ran : run env.handler (ensureEnabled engine) world = (.ok (), after)) : after = world := by
  unfold ensureEnabled at ran
  split at ran
  · cases ran
  · exact (congrArg Prod.snd ran).symm

/-- Planning one workload reads the catalogue and the clock. -/
theorem footprint_planWorkload (workload : DRVMConfig) :
    Footprint [.silent] (planWorkload engine workload) := by
  refine footprint_bind (footprint_bind (footprint_reading rfl (by simp))
    fun _ => footprint_pure _) fun point => ?_
  refine footprint_bind (footprint_raised _) fun src => ?_
  refine footprint_bind (footprint_raised _) fun dst => ?_
  dsimp only
  split
  · exact footprint_pure _
  · cases point with
    | none => exact footprint_pure _
    | some point =>
      refine footprint_bind (footprint_reading rfl (by simp)) fun copy => ?_
      exact footprint_bind (footprint_utcnow (by simp)) fun _ => footprint_pure _

theorem footprint_planRows (workloads : List DRVMConfig) :
    Footprint [.silent] (planRows engine workloads) := by
  induction workloads with
  | nil => exact footprint_pure _
  | cons workload rest inductionHypothesis =>
    refine footprint_bind (footprint_planWorkload engine workload) fun row => ?_
    exact footprint_bind inductionHypothesis fun _ => footprint_pure _

/-- A plan changes nothing. -/
theorem footprint_plan : Footprint [.silent] (plan engine) := by
  refine footprint_bind (footprint_ensureEnabled engine _) fun _ => ?_
  refine footprint_bind (footprint_planRows engine _) fun rows => ?_
  refine footprint_bind (footprint_raised _) fun network_primary => ?_
  exact footprint_bind (footprint_raised _) fun network_dr => footprint_pure _

theorem footprint_checkTargets (names : List String) :
    Footprint [.outside] (checkTargets engine names) := by
  induction names with
  | nil => exact footprint_pure _
  | cons name rest inductionHypothesis =>
    have asked : Footprint [.outside] (checkTarget engine name) :=
      footprint_bind (footprint_raised _) fun _ => footprint_request (by simp [Command.effect])
    refine footprint_bind (footprint_attempt asked) fun outcome => ?_
    cases outcome with
    | ok issues =>
      exact footprint_bind (footprint_pure _) fun _ =>
        footprint_bind inductionHypothesis fun _ => footprint_pure _
    | error exc =>
      exact footprint_bind (footprint_pure _) fun _ =>
        footprint_bind inductionHypothesis fun _ => footprint_pure _

/-- A preflight asks, and changes nothing. -/
theorem footprint_preflight (plan : DRPlan) :
    Footprint [.outside, .ofGateway engine.cfg.dr.dr_site .preflight] (preflight engine plan) := by
  have replica : Footprint [.outside, .ofGateway engine.cfg.dr.dr_site .preflight]
      (checkReplica engine) :=
    footprint_bind (footprint_raised _) fun _ => footprint_request (by simp [Command.effect])
  refine footprint_bind (footprint_ensureEnabled engine _) fun _ => ?_
  refine footprint_bind (footprint_attempt replica) fun _ => ?_
  refine footprint_bind ((footprint_checkTargets engine _).mono (by simp)) fun _ => ?_
  refine footprint_bind (footprint_attempt
    ((NetworkManager.footprint_preflight _).mono (by simp))) fun _ => ?_
  exact footprint_pure _

theorem footprint_runFenceCommand (env_name : Option String) (label : String) :
    Footprint [.ofFence] (runFenceCommand engine env_name label) := by
  unfold runFenceCommand
  split
  · exact footprint_throw _
  · split
    · exact footprint_throw _
    · refine footprint_bind (footprint_raised _) fun argv => ?_
      refine footprint_bind (footprint_runCommand (by simp [Command.effect])) fun result => ?_
      split
      · exact footprint_throw _
      · exact footprint_pure _

theorem footprint_fenceByCommand : Footprint [.ofFence] (fenceByCommand engine) := by
  refine footprint_bind (footprint_runFenceCommand engine _ _) fun _ => ?_
  split
  · exact footprint_runFenceCommand engine _ _
  · exact footprint_pure _

/-- Fencing runs the fence commands and appends to the chain. -/
theorem footprint_fencePrimary (manual_confirmed automatic : Bool) :
    Footprint [.ofFence, .silent, .writing .audits]
      (fencePrimary engine manual_confirmed automatic) := by
  unfold fencePrimary
  split
  · refine footprint_bind ((footprint_fenceByCommand engine).mono (by simp)) fun _ => ?_
    exact footprint_audit (by simp) (by simp) _ _ _ _ _
  · split
    · exact footprint_throw _
    · split
      · exact footprint_throw _
      · exact footprint_audit (by simp) (by simp) _ _ _ _ _

theorem footprint_probeAll (checks : List HealthCheckConfig) :
    Footprint [.outside] (probeAll checks) := by
  induction checks with
  | nil => exact footprint_pure _
  | cons check rest inductionHypothesis =>
    refine footprint_bind (footprint_request (by simp [Command.effect])) fun result => ?_
    exact footprint_bind inductionHypothesis fun _ => footprint_pure _

theorem footprint_runHealthChecks (checks : List HealthCheckConfig) :
    Footprint [.outside] (runHealthChecks checks) :=
  footprint_bind (footprint_probeAll checks) fun _ => footprint_pure _

theorem footprint_awaitHealth (checks : List HealthCheckConfig)
    (interval remaining attempt : Nat) (last : HealthReport) :
    Footprint [.outside] (awaitHealth checks interval remaining attempt last) := by
  induction remaining generalizing attempt last with
  | zero => exact footprint_pure _
  | succ remaining inductionHypothesis =>
    refine footprint_bind (footprint_runHealthChecks checks) fun report => ?_
    dsimp only
    split
    · exact footprint_pure _
    · split
      · exact footprint_bind (footprint_request (by simp [Command.effect])) fun _ =>
          inductionHypothesis _ _
      · exact inductionHypothesis _ _

theorem footprint_waitWorkloadHealth (workload : DRVMConfig) :
    Footprint [.outside] (waitWorkloadHealth workload) := by
  unfold waitWorkloadHealth
  split
  · exact footprint_pure _
  · exact footprint_awaitHealth _ _ _ _ _

theorem footprint_alreadyFailedOver : Footprint [.silent] alreadyFailedOver := by
  refine footprint_bind (footprint_reading rfl (by simp)) fun failover => ?_
  refine footprint_bind (footprint_reading rfl (by simp)) fun failback => ?_
  split <;> exact footprint_pure _

/-- Restoring a point writes the request and the chain. -/
theorem footprint_restoreReady (point : Point) (target_platform target_name : String)
    (options : Dict) :
    Footprint [.silent, .outside, .ofRestic, .creation, .writing .requests, .writing .audits]
      (restoreReady engine point target_platform target_name options) := by
  refine footprint_bind ((footprint_createRestoreRequest _ _ _ _ _ _).mono (by decide))
    fun rid => ?_
  refine footprint_bind (engine.footprint_executeRestore _ _ _) fun result => ?_
  exact footprint_bind (footprint_raised _) fun _ => footprint_pure _

/-- What the restore of a workload may touch. -/
def restoreEffects : List Effect :=
  [.silent, .outside, .ofRestic, .creation, .writing .requests, .writing .audits,
    .writing .workloads]

theorem footprint_restoreWorkload (run_id : Nat) (started : Timestamp) (workload : DRVMConfig)
    (row : PlanRow) :
    Footprint restoreEffects (restoreWorkload engine run_id started workload row) := by
  unfold restoreWorkload
  dsimp only
  split
  · exact footprint_throw _
  · refine footprint_bind (footprint_transact
      (by simp [restoreEffects, Command.effect, writes])) fun point => ?_
    split
    · exact footprint_throw _
    · refine footprint_bind ((footprint_restoreReady engine _ _ _ _).mono (by decide))
        fun created => ?_
      exact footprint_pure _

theorem footprint_restoreWorkloads (run_id : Nat) (started : Timestamp)
    (pairs : List (DRVMConfig × PlanRow)) (restored : List Restored) :
    Footprint restoreEffects (restoreWorkloads engine run_id started pairs restored) := by
  induction pairs generalizing restored with
  | nil => exact footprint_pure _
  | cons pair rest inductionHypothesis =>
    refine footprint_bind (footprint_attempt (footprint_restoreWorkload engine _ _ _ _))
      fun outcome => ?_
    cases outcome with
    | error exc => exact footprint_pure _
    | ok created =>
      refine footprint_bind (footprint_attempt ((footprint_addDrWorkload _).mono (by decide)))
        fun recorded => ?_
      cases recorded with
      | error exc => exact footprint_pure _
      | ok number => exact inductionHypothesis _

theorem footprint_startMachines (failure : String → String) (machines : List Restored) :
    Footprint [.ofPower true, .outside] (startMachines engine failure machines) := by
  induction machines with
  | nil => exact footprint_pure _
  | cons machine rest inductionHypothesis =>
    refine footprint_bind ((footprint_powerOn _ _ _).mono (by simp)) fun _ => ?_
    refine footprint_bind ((footprint_waitWorkloadHealth _).mono (by simp)) fun check => ?_
    split
    · exact footprint_throw _
    · exact footprint_bind inductionHypothesis fun _ => footprint_pure _

theorem footprint_completePromotion (run_id : Nat) (restored : List Restored) :
    Footprint [.ofGateway engine.cfg.dr.dr_site .activate, .ofPower true, .outside, .silent,
      .writing .runs, .writing .audits] (completePromotion engine run_id restored) := by
  refine footprint_bind ((NetworkManager.footprint_activate _ _).mono (by simp)) fun _ => ?_
  refine footprint_bind ((footprint_startMachines engine _ _).mono (by simp)) fun health => ?_
  refine footprint_bind ((footprint_finishDrRun _ _ _ _).mono (by simp)) fun _ => ?_
  exact footprint_bind (footprint_audit (by simp) (by simp) _ _ _ _ _) fun _ => footprint_pure _

theorem footprint_switchOffQuietly (machines : List Restored) :
    Footprint [.ofPower false] (switchOffQuietly engine machines) := by
  induction machines with
  | nil => exact footprint_pure _
  | cons machine rest inductionHypothesis =>
    exact footprint_bind (footprint_attempt (footprint_powerOff _ _ _)) fun _ =>
      inductionHypothesis

/-- Cleaning a failed promotion up switches nothing on. -/
theorem footprint_abortPromotion (run_id : Nat) (restored : List Restored) (exc : Exn) :
    Footprint [.ofGateway engine.cfg.dr.dr_site .deactivate, .ofPower false, .silent,
      .writing .runs, .writing .audits] (abortPromotion engine run_id restored exc) := by
  refine footprint_bind ((NetworkManager.footprint_deactivate _ _ _).mono (by simp)) fun _ => ?_
  refine footprint_bind ((footprint_switchOffQuietly engine _).mono (by simp)) fun _ => ?_
  refine footprint_bind ((footprint_finishDrRun _ _ _ _).mono (by simp)) fun _ => ?_
  exact footprint_bind (footprint_audit (by simp) (by simp) _ _ _ _ _) fun _ => footprint_throw _

theorem footprint_prepareSites :
    Footprint [.ofGateway engine.cfg.dr.dr_site .check, .ofGateway engine.cfg.dr.dr_site .stretch,
      .ofGateway engine.cfg.dr.dr_site .announce,
      .ofGateway engine.cfg.dr.primary_site .deactivate, .silent] (prepareSites engine) := by
  refine footprint_bind ((NetworkManager.footprint_prepare _ _).mono (by simp)) fun _ => ?_
  refine footprint_bind ((NetworkManager.footprint_deactivate _ _ _).mono (by simp)) fun _ => ?_
  exact footprint_utcnow (by simp)

theorem footprint_finalBackup (item : WorkloadRow) :
    Footprint Backups.backupEffects (finalBackup engine item) := by
  refine footprint_bind (footprint_raised _) fun workload => ?_
  refine footprint_bind (footprint_raised _) fun dr_platform => ?_
  refine footprint_bind (footprint_request (by simp [Backups.backupEffects, Command.effect]))
    fun machines => ?_
  split
  · exact footprint_throw _
  · refine footprint_bind (footprint_tryCatch (footprint_request
      (by simp [Backups.backupEffects, Command.effect])) fun exc => footprint_pure _)
      fun info => ?_
    refine footprint_bind (Backups.footprint_backupVM engine _ _ _ _) fun result => ?_
    split
    · exact footprint_pure _
    · exact footprint_throw _
    · exact footprint_throw _

theorem footprint_finalBackups (items : List WorkloadRow) (final_points : Dict) :
    Footprint Backups.backupEffects (finalBackups engine items final_points) := by
  induction items generalizing final_points with
  | nil => exact footprint_pure _
  | cons item rest inductionHypothesis =>
    exact footprint_bind (footprint_finalBackup engine item) fun _ => inductionHypothesis _

theorem footprint_restorePrimary (run_id : Nat) (started : Timestamp) (final_points : Dict)
    (workload : DRVMConfig) :
    Footprint restoreEffects (restorePrimary engine run_id started final_points workload) := by
  unfold restorePrimary
  split
  · exact footprint_throw _
  · refine footprint_bind (footprint_transact
      (by simp [restoreEffects, Command.effect, writes])) fun point => ?_
    split
    · exact footprint_throw _
    · refine footprint_bind ((footprint_restoreReady engine _ _ _ _).mono (by decide))
        fun created => ?_
      refine footprint_bind (footprint_transact
        (by simp [restoreEffects, Command.effect, writes])) fun _ => ?_
      exact footprint_pure _

theorem footprint_restorePrimaries (run_id : Nat) (started : Timestamp) (final_points : Dict)
    (workloads : List DRVMConfig) :
    Footprint restoreEffects
      (restorePrimaries engine run_id started final_points workloads) := by
  induction workloads with
  | nil => exact footprint_pure _
  | cons workload rest inductionHypothesis =>
    refine footprint_bind (footprint_restorePrimary engine _ _ _ _) fun one => ?_
    exact footprint_bind inductionHypothesis fun _ => footprint_pure _

theorem footprint_switchOff (items : List WorkloadRow) :
    Footprint [.ofPower false] (switchOff engine items) := by
  induction items with
  | nil => exact footprint_pure _
  | cons item rest inductionHypothesis =>
    refine footprint_bind (footprint_raised _) fun workload => ?_
    refine footprint_bind (footprint_raised _) fun adapter => ?_
    exact footprint_bind (footprint_powerOff _ _ _) fun _ => inductionHypothesis

theorem footprint_switchOffConfigured (items : List WorkloadRow) :
    Footprint [.ofPower false] (switchOffConfigured engine items) := by
  induction items with
  | nil => exact footprint_pure _
  | cons item rest inductionHypothesis =>
    unfold switchOffConfigured
    split
    · exact inductionHypothesis
    · refine footprint_bind (footprint_raised _) fun adapter => ?_
      exact footprint_bind (footprint_powerOff _ _ _) fun _ => inductionHypothesis

/-- What a failback may touch before it withdraws the machines of the recovery site. -/
def returnEffects : List Effect :=
  [.ofGateway engine.cfg.dr.primary_site .check, .ofGateway engine.cfg.dr.primary_site .stretch,
    .ofGateway engine.cfg.dr.primary_site .announce,
    .ofGateway engine.cfg.dr.primary_site .deactivate,
    .ofGateway engine.cfg.dr.dr_site .deactivate, .silent, .outside, .ofRestic, .creation,
    .writing .jobs, .writing .points, .writing .copies, .writing .requests, .writing .audits,
    .writing .workloads]

theorem footprint_returnWorkloads (run_id : Nat) (workloads : List WorkloadRow) :
    Footprint (returnEffects engine) (returnWorkloads engine run_id workloads) := by
  refine footprint_bind ((NetworkManager.footprint_prepare _ _).mono (by simp [returnEffects]))
    fun _ => ?_
  refine footprint_bind ((NetworkManager.footprint_deactivate _ _ _).mono
    (by simp [returnEffects])) fun _ => ?_
  refine footprint_bind ((footprint_finalBackups engine _ _).mono
    (by simp [returnEffects, Backups.backupEffects])) fun final_points => ?_
  refine footprint_bind (footprint_utcnow (by simp [returnEffects])) fun started => ?_
  refine footprint_bind ((footprint_restorePrimaries engine _ _ _ _).mono
    (by simp [returnEffects, restoreEffects])) fun restored => ?_
  refine footprint_bind ((NetworkManager.footprint_deactivate _ _ _).mono
    (by simp [returnEffects])) fun _ => ?_
  exact footprint_pure _

theorem footprint_startPrimary (run_id source_run : Nat) (final_points : Dict)
    (restored : List Restored) :
    Footprint [.ofGateway engine.cfg.dr.primary_site .activate, .ofPower true, .outside, .silent,
      .writing .runs, .writing .audits]
      (startPrimary engine run_id source_run final_points restored) := by
  refine footprint_bind ((NetworkManager.footprint_activate _ _).mono (by simp)) fun _ => ?_
  refine footprint_bind ((footprint_startMachines engine _ _).mono (by simp)) fun health => ?_
  refine footprint_bind ((footprint_finishDrRun _ _ _ _).mono (by simp)) fun _ => ?_
  exact footprint_bind (footprint_audit (by simp) (by simp) _ _ _ _ _) fun _ => footprint_pure _

theorem footprint_abortFailback (run_id : Nat) (exc : Exn) :
    Footprint [.silent, .writing .runs, .writing .audits] (abortFailback run_id exc) := by
  refine footprint_bind ((footprint_finishDrRun _ _ _ _).mono (by simp)) fun _ => ?_
  exact footprint_bind (footprint_audit (by simp) (by simp) _ _ _ _ _) fun _ => footprint_throw _

theorem footprint_waitingTime (previous : Option HealthRow) :
    Footprint [.silent] (waitingTime engine previous) := by
  unfold waitingTime
  split
  · exact footprint_pure _
  · split
    · exact footprint_pure _
    · refine footprint_bind (footprint_utcnow (by simp)) fun now => ?_
      dsimp only
      split <;> exact footprint_pure _

/-- An evaluation probes the primary site and writes its health. -/
theorem footprint_evaluatePrimary :
    Footprint [.outside, .silent, .writing .health] (evaluatePrimary engine) := by
  refine footprint_bind ((footprint_runHealthChecks _).mono (by simp)) fun checks => ?_
  refine footprint_bind (footprint_reading rfl (by simp)) fun row => ?_
  refine footprint_bind (footprint_utcnow (by simp)) fun now => ?_
  refine footprint_bind (footprint_writing rfl (by simp)) fun _ => ?_
  exact footprint_bind (footprint_utcnow (by simp)) fun _ => footprint_pure _

end Footprints

/-- An engine with one protected workload and one replica. -/
def recovery : Engine where
  cfg := {
    repository := {
      url := "rest:https://vault:8000/repo", local_path := "/srv/repo"
      staging_path := "/srv/staging" }
    platforms := [{ name := "pve", type := .proxmox, endpoint := "pve" },
      { name := "pve-dr", type := .proxmox, endpoint := "pve-dr" }]
    replicas := [{ name := "offsite", backend := .filesystem, path := some "/mnt/offsite" }]
    dr := {
      enabled := true, replica := "offsite"
      sites := [
        { name := "primary", gateway := { host := "gw", vtep_ip := "192.0.2.1" } },
        { name := "dr", gateway := { host := "gw-dr", vtep_ip := "192.0.2.2" } }]
      networks := [{ vlan_id := 10, vni := 10010, gateway_cidr := "10.0.10.1/24" }]
      workloads := [{ name := "web", source_platform := "pve", target_platform := "pve-dr" }] } }
  getenv := fun _ => some "secret"

/-- A catalogue with one verified point of the workload, copied to the replica. -/
def replicated : Database where
  points := Tables.Keyed.empty.replace "4f1c" {
    created_at := 0, platform := "pve", platform_type := .proxmox, vm_id := "100"
    vm_name := "web", power_state := none, source_path := "/srv/staging/web"
    backup_bytes := 1, data_added := 1, file_count := 1, manifest_sha256 := none
    immutable_until := 0, suspicious := false, suspicious_reason := none, verified := true
    verified_at := none, metadata := [] }
  copies := Tables.Keyed.empty.store ("4f1c", "offsite") {
    backend := "filesystem", provider := none, repository := "/mnt/offsite", status := .success
    copied_at := some 0, verified := false, verified_at := none, immutable_until := none
    object_lock := [], error := none }

/-- A world in which machines are created, found and backed up as they should be. -/
def cooperative : Environment where
  answer := fun _ external =>
    match external with
    | .restoreVM .. => .ok [("vmid", .str "101")]
    | .inventory _ => .ok [{ id := "101", name := "web-dr-00010101T000000Z" }]
    | .run (.restic (.backup _ _)) _ _ => .ok {
        returncode := 0
        jsonLines := [some (.obj [("message_type", .str "summary"),
          ("snapshot_id", .str "9b2e")])] }
    | external => .ok (Environment.favourable external)
  elapsed := fun _ _ => 1

end Immutavault.DROrchestrator
