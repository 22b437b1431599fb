import Immutavault.Catalog
import Immutavault.Interleavings

/-!
# The machine the controller runs on

A controller process reads the clock, deletes directories, performs catalogue
transactions and asks the world for everything else: it runs commands on
repositories, gateways and hypervisors, and calls the transports, the conversion
provider and the storage clients. Each of these is one command of a program.

The environment answers every request from the whole history, or raises, so any
behaviour of the outside world, including one that depends on what other threads
did, is some environment. Transactions commit, time does not run backwards, and
deleting a directory ignores errors, as the program asks it to.
-/

namespace Immutavault.Machine

open Programs Values Timestamps Catalog Configuration

/-- A backup tool invocation, without the options that select its backend. -/
inductive ResticCommand where
  | backup (path : String) (tags : List String)
  | restore (options : List String) (snapshot_id target : String)
  | copy (options : List String) (snapshot_id : String)
  | probe (options : List String) (snapshot_id : String)
  | forgetPreview (policy : List String)
  | forget (snapshot_ids : List String)
  | prune
  deriving DecidableEq, Repr

def ResticCommand.argv : ResticCommand → List String
  | .backup path tags =>
    ["restic", "backup", path, "--json", "--one-file-system"] ++ tags.flatMap (["--tag", ·])
  | .restore options snapshot_id target =>
    ["restic"] ++ options ++ ["restore", snapshot_id, "--target", target]
  | .copy options snapshot_id => ["restic"] ++ options ++ ["copy", snapshot_id]
  | .probe options snapshot_id => ["restic"] ++ options ++ ["snapshots", snapshot_id, "--json"]
  | .forgetPreview policy => ["restic", "forget", "--dry-run", "--json"] ++ policy
  | .forget snapshot_ids => ["restic", "forget"] ++ snapshot_ids
  | .prune => ["restic", "prune"]

/-- What a script on a gateway is for. -/
inductive GatewayAction where
  | preflight
  | check
  | stretch
  | announce
  | activate
  | deactivate
  deriving DecidableEq, Repr

/-- A command that is run, labelled with the call of the program that issues it. -/
inductive Shell where
  | restic (command : ResticCommand)
  | fence (argv : List String)
  | gateway (site : String) (action : GatewayAction) (argv : List String)
  | power (platform : String) (on : Bool) (argv : List String)
  | testing (platform : String) (argv : List String)
  deriving DecidableEq, Repr

def Shell.argv : Shell → List String
  | .restic command => command.argv
  | .fence argv | .gateway _ _ argv | .power _ _ argv | .testing _ argv => argv

/-- The result of a finished command, with the JSON value its standard output
denotes and the JSON values of its lines. -/
structure CommandResult where
  returncode : Int
  stdout : String := ""
  stderr : String := ""
  json : Except Exn Json := .ok (.arr [])
  jsonLines : List (Option Json) := []

/-- A virtual machine of an inventory. -/
structure VM where
  id : String
  name : String
  power_state : String := "unknown"
  kind : String := "vm"

structure Manifest where
  total_bytes : Nat
  file_count : Nat
  digest : String

structure V2VPlan where
  allowed : Bool
  source_type : String
  target_type : String
  mode : String
  certification_id : Option String := none
  provider : Option String := none
  reasons : List String := []

/-- What a storage client reports about provider-side locking. -/
structure LockInfo where
  retain_until : Option Timestamp
  details : Dict

structure TargetHealth where
  ok : Bool
  problems : List String

structure ProbeResult where
  ok : Bool
  detail : Dict

/-- What the world outside the controller and its catalogue is asked. -/
inductive External where
  | run (shell : Shell) (env : List (String × String)) (input_text : Option String)
  | mkdir (path : String)
  | diskUsage (path : String)
  | pathExists (path : String)
  | sourceRepositoryWithAuth (url : String)
  | targetHealth (replica : ReplicaConfig)
  | s3Preflight (replica : ReplicaConfig)
  | ensureR2BucketLock (replica : ReplicaConfig) (minimum_days : Option Nat)
  | applyObjectLock (replica : ReplicaConfig) (minimum_days : Option Nat)
  | doctor (platform : PlatformConfig)
  | platformInfo (platform : PlatformConfig)
  | inventory (platform : PlatformConfig)
  | exportVM (platform : PlatformConfig) (vm : VM) (destination : String) (dry_run : Bool)
  | readConsistency (exported : String)
  | buildManifest (root : String)
  | detectBackupAnomaly (previous_bytes : Option Nat) (current_bytes data_added : Nat)
  | verifyManifest (root : String) (expected_digest : Option String)
  | restoreVM (platform : PlatformConfig) (source target_name : String) (options : Dict)
  | v2vPlan (point : Point) (target : PlatformConfig) (options : Dict)
  | v2vExecute (source : String) (point : Point) (target : PlatformConfig) (target_name : String)
      (options : Dict)
  | healthCheck (check : HealthCheckConfig)
  | sleep (seconds : Nat)

@[reducible] def External.Answer : External → Type
  | .run .. => CommandResult
  | .mkdir _ | .sleep _ => Unit
  | .diskUsage _ => Nat × Nat
  | .pathExists _ => Bool
  | .sourceRepositoryWithAuth _ | .exportVM .. => String
  | .targetHealth _ => TargetHealth
  | .s3Preflight _ | .platformInfo _ | .restoreVM .. | .v2vExecute .. => Dict
  | .ensureR2BucketLock .. | .applyObjectLock .. => LockInfo
  | .doctor _ => List String
  | .inventory _ => List VM
  | .readConsistency _ => Option Dict
  | .buildManifest _ => Manifest
  | .detectBackupAnomaly .. => Bool × Option String
  | .verifyManifest .. => Bool × List String
  | .v2vPlan .. => V2VPlan
  | .healthCheck _ => ProbeResult

/-- One command of a controller process. -/
inductive Command where
  | utcnow
  | rmtree (path : String)
  | transact (transaction : Transaction)
  | request (external : External)

@[reducible] def Command.Answer : Command → Type
  | .utcnow => Timestamp
  | .rmtree _ => Unit
  | .transact transaction => transaction.Answer
  | .request external => external.Answer

abbrev controller : Interface := ⟨Command, Command.Answer⟩

abbrev Prog (α : Type) := Program controller Exn α

/-- Everything that was asked, with its answers, oldest first. -/
abbrev History := List (Exchange controller Exn)

/-- How the world answers, and how much time each command takes. -/
structure Environment where
  answer : History → (external : External) → Except Exn external.Answer
  elapsed : History → Command → Nat

/-- The catalogue, the clock, and what happened so far. -/
structure World where
  db : Database
  clock : Timestamp
  log : History := []

namespace Environment

variable (env : Environment)

def reply (world : World) : (command : Command) → Except Exn command.Answer
  | .utcnow => .ok world.clock
  | .rmtree _ => .ok ()
  | .transact transaction => .ok (transaction.read world.db)
  | .request external => env.answer world.log external

def commit (db : Database) : Command → Database
  | .transact transaction => transaction.write db
  | _ => db

/-- Answer a command, commit what it writes, let time pass and record it. -/
def handler : Handler controller Exn World := fun command world =>
  (env.reply world command,
    { db := commit world.db command
      clock := world.clock + env.elapsed world.log command
      log := world.log ++ [⟨command, env.reply world command⟩] })

/-- A world in which every request fails and every command takes a microsecond. -/
def mute : Environment where
  answer := fun _ _ => .error ⟨.otherError, "unavailable"⟩
  elapsed := fun _ _ => 1

/-- What a request is answered when everything goes well and there is nothing to report. -/
def favourable : (external : External) → external.Answer
  | .run .. => { returncode := 0 }
  | .mkdir _ | .sleep _ => ()
  | .diskUsage _ => (100, 100)
  | .pathExists _ => true
  | .sourceRepositoryWithAuth url => url
  | .exportVM _ _ destination _ => destination
  | .targetHealth _ => ⟨true, []⟩
  | .s3Preflight _ | .platformInfo _ | .restoreVM .. | .v2vExecute .. => []
  | .ensureR2BucketLock .. | .applyObjectLock .. => ⟨none, []⟩
  | .doctor _ => []
  | .inventory _ => []
  | .readConsistency _ => none
  | .buildManifest _ => ⟨0, 0, ""⟩
  | .detectBackupAnomaly .. => (false, none)
  | .verifyManifest .. => (true, [])
  | .v2vPlan .. => ⟨true, "", "", "", none, none, []⟩
  | .healthCheck _ => ⟨true, []⟩

/-- A world in which every request succeeds and every command takes a microsecond. -/
def obliging : Environment where
  answer := fun _ external => .ok (favourable external)
  elapsed := fun _ _ => 1

end Environment

/-- Commands that the machine itself serves: the clock, deletions and the catalogue. -/
def Command.Internal : Command → Prop
  | .request _ => False
  | _ => True

/-- An answer that the machine can give: what it serves itself does not fail. -/
def Command.Served (command : Command) (answer : Except Exn command.Answer) : Prop :=
  command.Internal → ∃ value, answer = .ok value

/-- Every reply of an environment is one that the machine can give. -/
theorem served_reply (env : Environment) (world : World) (command : Command) :
    command.Served (env.reply world command) := by
  intro internal
  cases command with
  | utcnow => exact ⟨_, rfl⟩
  | rmtree path => exact ⟨_, rfl⟩
  | transact transaction => exact ⟨_, rfl⟩
  | request external => exact internal.elim

def utcnow : Prog Timestamp := @Program.perform controller Exn .utcnow

def rmtree (path : String) : Prog Unit := @Program.perform controller Exn (.rmtree path)

def transact (transaction : Transaction) : Prog transaction.Answer :=
  @Program.perform controller Exn (.transact transaction)

def request (external : External) : Prog external.Answer :=
  @Program.perform controller Exn (.request external)

/-- White space at both ends removed. -/
def stripped (text : String) : String := text.trimAscii.toString

/-- Run a command. A non-zero exit raises unless the caller asks for the result as it is. -/
def runCommand (shell : Shell) (env : List (String × String)) (input_text : Option String)
    (check : Bool) : Prog CommandResult := do
  let result : CommandResult ← request (.run shell env input_text)
  if check ∧ result.returncode ≠ 0 then
    let safe := " ".intercalate shell.argv
    raiseRuntimeError s!"command failed ({result.returncode}): {safe}\n{stripped result.stderr}"
  else return result

/-- The tables of the catalogue. -/
inductive Table where
  | jobs
  | points
  | copies
  | requests
  | runs
  | workloads
  | health
  | audits
  deriving DecidableEq, Repr

/-- The table a transaction writes. -/
def writes : Transaction → Option Table
  | .startJob .. | .finishJob .. => some .jobs
  | .replacePoint .. | .updateImmutableUntil .. | .markPointsExpired .. | .updateVerified .. =>
    some .points
  | .upsertCopy .. => some .copies
  | .insertRequest .. | .approveRequest .. | .startRequest .. | .finishRequest .. => some .requests
  | .insertRun .. | .finishRun .. => some .runs
  | .insertWorkload .. => some .workloads
  | .upsertHealth .. => some .health
  | .insertAudit .. => some .audits
  | _ => none

/-- What a command may change or cause, as far as the results tell commands apart. -/
inductive Effect where
  | silent
  | writing (table : Table)
  | ofRestic
  | ofForget
  | ofFence
  | ofGateway (site : String) (action : GatewayAction)
  | ofPower (on : Bool)
  | creation
  | outside
  deriving DecidableEq, Repr

def Command.effect : Command → Effect
  | .utcnow | .rmtree _ => .silent
  | .transact transaction =>
    match writes transaction with
    | some table => .writing table
    | none => .silent
  | .request (.run (.restic (.forget _)) _ _) | .request (.run (.restic .prune) _ _) => .ofForget
  | .request (.run (.restic _) _ _) => .ofRestic
  | .request (.run (.fence _) _ _) => .ofFence
  | .request (.run (.gateway site action _) _ _) => .ofGateway site action
  | .request (.run (.power _ on _) _ _) => .ofPower on
  | .request (.restoreVM ..) | .request (.v2vExecute ..) => .creation
  | .request _ => .outside

/-- Two states of the catalogue hold the same rows in a table. -/
def Table.Same (before after : Database) : Table → Prop
  | .jobs => after.jobs = before.jobs
  | .points => after.points = before.points
  | .copies => after.copies = before.copies
  | .requests => after.requests = before.requests
  | .runs => after.runs = before.runs
  | .workloads => after.workloads = before.workloads
  | .health => after.health = before.health
  | .audits => after.audits = before.audits

/-- A command leaves every table alone that it does not write. -/
theorem commit_same (db : Database) {command : Command} {table : Table}
    (other : command.effect ≠ .writing table) : table.Same db (Environment.commit db command) := by
  cases command with
  | utcnow => cases table <;> rfl
  | rmtree path => cases table <;> rfl
  | request external => cases table <;> rfl
  | transact transaction =>
    have different : writes transaction ≠ some table := by
      intro same
      exact other (by simp only [Command.effect, same])
    cases transaction <;> cases table <;> first | rfl | exact absurd rfl different

/-- A command that writes no table leaves the catalogue alone. -/
theorem commit_unwritten (db : Database) {command : Command}
    (unwritten : ∀ table, command.effect ≠ .writing table) :
    Environment.commit db command = db := by
  cases command with
  | utcnow => rfl
  | rmtree path => rfl
  | request external => rfl
  | transact transaction =>
    cases transaction <;> first | rfl | exact absurd rfl (unwritten _)

/-- A program whose every command, whatever is answered, has one of the effects. -/
def Footprint {α : Type} (effects : List Effect) (program : Prog α) : Prop :=
  Issues (fun command : controller.Command => Command.effect command ∈ effects) program

section Footprints

variable {α β : Type} {effects : List Effect}

@[simp] theorem footprint_pure (value : α) : Footprint effects (pure value : Prog α) := trivial

@[simp] theorem footprint_throw (error : Exn) : Footprint effects (throw error : Prog α) := trivial

@[simp] theorem footprint_raised (value : Except Exn α) :
    Footprint effects (raised value : Prog α) := by
  cases value <;> trivial

/-- The continuation of a pure computation is judged for the value that was computed. -/
theorem footprint_given {given : Except Exn α} {next : α → Prog β}
    (rest : ∀ value, given = .ok value → Footprint effects (next value)) :
    Footprint effects (raised given >>= next) := by
  cases given with
  | ok value => exact rest value rfl
  | error error => exact footprint_throw error

@[simp] theorem footprint_utcnow (silent : Effect.silent ∈ effects) : Footprint effects utcnow :=
  (issues_perform _).mpr silent

@[simp] theorem footprint_rmtree (silent : Effect.silent ∈ effects) (path : String) :
    Footprint effects (rmtree path) :=
  (issues_perform _).mpr silent

theorem footprint_transact {transaction : Transaction}
    (listed : (Command.transact transaction).effect ∈ effects) :
    Footprint effects (transact transaction) :=
  (issues_perform _).mpr listed

/-- A transaction that writes a table has the table's effect. -/
theorem footprint_writing {transaction : Transaction} {table : Table}
    (written : writes transaction = some table) (listed : .writing table ∈ effects) :
    Footprint effects (transact transaction) := by
  have effect : (Command.transact transaction).effect = .writing table := by
    change (match writes transaction with
      | some table => Effect.writing table
      | none => .silent) = _
    rw [written]
  exact footprint_transact (effect ▸ listed)

/-- A transaction that writes no table has no effect. -/
theorem footprint_reading {transaction : Transaction} (unwritten : writes transaction = none)
    (listed : .silent ∈ effects) : Footprint effects (transact transaction) := by
  have effect : (Command.transact transaction).effect = .silent := by
    change (match writes transaction with
      | some table => Effect.writing table
      | none => .silent) = _
    rw [unwritten]
  exact footprint_transact (effect ▸ listed)

theorem footprint_request {external : External}
    (listed : (Command.request external).effect ∈ effects) :
    Footprint effects (request external) :=
  (issues_perform _).mpr listed

theorem footprint_bind {program : Prog α} {next : α → Prog β}
    (first : Footprint effects program) (rest : ∀ value, Footprint effects (next value)) :
    Footprint effects (program >>= next) :=
  issues_bind first rest

theorem footprint_tryCatch {program : Prog α} {rescuer : Exn → Prog α}
    (first : Footprint effects program) (rest : ∀ error, Footprint effects (rescuer error)) :
    Footprint effects (tryCatch program rescuer) :=
  issues_tryCatch first rest

theorem footprint_attempt {program : Prog α} (first : Footprint effects program) :
    Footprint effects program.attempt :=
  issues_attempt first

theorem footprint_each {γ : Type} {step : γ → Prog Unit} {items : List γ}
    (all : ∀ item, Footprint effects (step item)) :
    Footprint effects (Program.each step items) :=
  issues_each fun item _ => all item

theorem Footprint.mono {program : Prog α} {more : List Effect}
    (footprint : Footprint effects program) (included : ∀ effect ∈ effects, effect ∈ more) :
    Footprint more program :=
  issues_mono footprint fun _ listed => included _ listed

/-- A segment whose effects keep an invariant of the phase. -/
theorem wp_footprint {φ : Type} {monitor : Monitor controller Exn φ} {program : Prog α}
    {phase : φ} (invariant : φ → Prop) (footprint : Footprint effects program)
    (initially : invariant phase)
    (step : ∀ phase (command : Command), invariant phase → command.effect ∈ effects →
      monitor.permits phase command ∧ ∀ answer, monitor.possible phase command answer →
        invariant (monitor.next phase command answer)) :
    wp monitor program (fun _ final => invariant final) phase :=
  wp_of_issues invariant footprint initially step

/-- A transaction of a process that runs alone, with the answer it gets. -/
theorem wp_transact {env : Environment} {permits : World → Command → Prop} {world : World}
    {transaction : Transaction}
    {post : Except Exn transaction.Answer → World → Prop}
    (permitted : permits world (.transact transaction))
    (holds : post (.ok (transaction.read world.db)) (env.handler (.transact transaction) world).2) :
    wp (env.handler.monitor permits) (transact transaction) post world := by
  refine wp_perform permitted ?_
  rintro answer rfl
  exact holds

/-- A clock reading of a process that runs alone. -/
theorem wp_utcnow {env : Environment} {permits : World → Command → Prop} {world : World}
    {post : Except Exn Timestamp → World → Prop} (permitted : permits world .utcnow)
    (holds : post (.ok world.clock) (env.handler .utcnow world).2) :
    wp (env.handler.monitor permits) utcnow post world := by
  refine wp_perform permitted ?_
  rintro answer rfl
  exact holds

/-- Running a command leaves traces only by the command itself. -/
theorem footprint_runCommand {shell : Shell} {env : List (String × String)}
    {input_text : Option String} {check : Bool}
    (listed : (Command.request (.run shell env input_text)).effect ∈ effects) :
    Footprint effects (runCommand shell env input_text check) := by
  refine footprint_bind (footprint_request listed) ?_
  intro result
  split
  · exact footprint_throw _
  · exact footprint_pure _

end Footprints

section Runs

variable {α : Type}

theorem same_trans {table : Table} {before between after : Database}
    (first : table.Same before between) (second : table.Same between after) :
    table.Same before after := by
  cases table <;> exact Eq.trans second first

/-- A run leaves every table alone that its program does not write. -/
theorem same_run {env : Environment} {program : Prog α} {effects : List Effect} {table : Table}
    (footprint : Footprint effects program) (unwritten : .writing table ∉ effects)
    (world : World) : table.Same world.db (run env.handler program world).2.db := by
  have initially : table.Same world.db world.db := by
    cases table <;> rfl
  have kept : wp (env.handler.monitor fun _ _ => True) program
      (fun _ (final : World) => table.Same world.db final.db) world := by
    refine wp_footprint (fun current : World => table.Same world.db current.db) footprint
      initially ?_
    intro current command same listed
    refine ⟨trivial, fun answer _ => same_trans same (commit_same current.db ?_)⟩
    intro written
    exact unwritten (written ▸ listed)
  exact wp_run kept

/-- What happened stays recorded. -/
theorem log_run (env : Environment) (program : Prog α) (world : World) :
    world.log <+: (run env.handler program world).2.log := by
  induction program generalizing world with
  | ret value => exact List.prefix_rfl
  | raise error => exact List.prefix_rfl
  | call command resume inductionHypothesis =>
    exact List.IsPrefix.trans (List.prefix_append world.log _)
      (inductionHypothesis (env.handler command world).1 (env.handler command world).2)

/-- What happened before a command of a run is recorded when it is issued. -/
theorem log_issued {env : Environment} {program : Prog α} {world : World}
    {entry : World × Command} (member : entry ∈ issued env.handler program world) :
    world.log <+: entry.1.log := by
  induction program generalizing world with
  | ret value => cases member
  | raise error => cases member
  | call command resume inductionHypothesis =>
    rcases List.mem_cons.mp member with rfl | later
    · exact List.prefix_rfl
    · exact List.IsPrefix.trans (List.prefix_append world.log _)
        (inductionHypothesis (env.handler command world).1 later)

end Runs

/-- A checked command returns only with exit zero; whatever else is answered raises. -/
theorem wp_runCommand {φ : Type} {monitor : Monitor controller Exn φ} {shell : Shell}
    {env : List (String × String)} {input_text : Option String} {check : Bool} {phase : φ}
    {post : Except Exn CommandResult → φ → Prop}
    (permitted : monitor.permits phase (.request (.run shell env input_text)))
    (fails : ∀ answer error,
      monitor.possible phase (.request (.run shell env input_text)) answer →
      post (.error error) (monitor.next phase (.request (.run shell env input_text)) answer))
    (returns : ∀ result,
      monitor.possible phase (.request (.run shell env input_text)) (.ok result) →
      (check = true → result.returncode = 0) →
      post (.ok result) (monitor.next phase (.request (.run shell env input_text)) (.ok result))) :
    wp monitor (runCommand shell env input_text check) post phase := by
  refine wp_bind (wp_perform permitted ?_)
  intro answer possible
  cases answer with
  | error error => exact fails _ error possible
  | ok result =>
    dsimp only
    split
    · exact wp_throw (fails _ _ possible)
    · rename_i clean
      refine wp_pure (returns result possible ?_)
      intro checked
      by_contra nonzero
      exact clean ⟨checked, nonzero⟩

end Immutavault.Machine
