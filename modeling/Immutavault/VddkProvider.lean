import Mathlib.Data.List.Dedup
import Immutavault.Integrity
import Immutavault.Machine

/-!
# The provider of incremental backups

An external helper reports what it is capable of, makes incremental backups into a
directory that is kept, and restores them. It is asked in JSON on its standard input and
answers in JSON on its standard output. What it answers may be any value.

A backup is accepted when the helper succeeds, attests what strict consistency asks for,
has left a layout file, and returns a checkpoint. Then the checkpoint replaces the one
before it, and after that the consistency and the transport are recorded and numbers of
the answer are converted. The checkpoint is advanced in the middle, so what fails later
leaves it advanced although the backup raises.

A file is replaced as a whole or not at all. What the helper does to the files in its
directory is not known, except that the checkpoint is not its own to write.
-/

namespace Immutavault.VddkProvider

open Programs Values PosixPaths GuestFiles JsonTexts Machine
open Integrity (utf8 decoded)

/-- Files of the destination by their names. -/
abbrev Files := Str → Option (List UInt8)

/-- What the provider asks of its host. Directories are named by the file for which they
are made. -/
inductive ProviderCommand where
  | executable (path : Str)
  | which (name : Str)
  | run (argv : List Str) (timeout : Int) (env : List (Str × Str)) (input_text : Option (List Char))
  | directory (secure : Bool) (purpose : Str)
  | isFile (name : Str)
  | read (name : Str)
  | replace (name : Str) (text : List Char)

@[reducible] def ProviderCommand.Answer : ProviderCommand → Type
  | .executable _ | .isFile _ => Bool
  | .which _ => Option Str
  | .run .. => CommandResult
  | .directory .. | .replace .. => Unit
  | .read _ => List Char

abbrev providing : Interface := ⟨ProviderCommand, ProviderCommand.Answer⟩

/-- An error of the transport with its reason and whether a full backup is safe instead,
or another exception. -/
inductive Failure where
  | transport (message reason : Str) (fallback_safe : Bool)
  | exn (error : Exn)
  deriving DecidableEq

abbrev Prog (α : Type) := Program providing Failure α

def ask (command : ProviderCommand) : Prog command.Answer :=
  @Program.perform providing Failure command

/-- Raise the exception of a failed pure computation. -/
def converted {α : Type} : Except Exn α → Prog α
  | .ok value => pure value
  | .error error => throw (.exn error)

def protocolVersion : Int := 1

def checkpointFile : Str := str ".immutavault-cbt-checkpoint.json"

def transportFile : Str := str ".immutavault-transport.json"

def layoutFile : Str := str "immutavault-vddk-layout.json"

def consistencyFile : Str := str ".immutavault-consistency.json"

section Consistency

variable {Φ : Type}

/-- What is known about the consistency of a backup. -/
structure ApplicationConsistency where
  state : Str
  method : Str
  requested : Bool
  strict : Bool
  provider_attested : Bool
  detail : Option Str

def applicationStates : List Str := [str "application-consistent", str "guest-quiesced"]

def ApplicationConsistency.application_consistent (consistency : ApplicationConsistency) : Bool :=
  consistency.state ∈ applicationStates

def ApplicationConsistency.as_dict (consistency : ApplicationConsistency) : Value Φ :=
  .dict [(str "state", .text consistency.state), (str "method", .text consistency.method),
    (str "requested", .bool consistency.requested), (str "strict", .bool consistency.strict),
    (str "provider_attested", .bool consistency.provider_attested),
    (str "detail", (consistency.detail.map .text).getD .null),
    (str "application_consistent", .bool consistency.application_consistent)]

variable [Floating Φ]

/-- The value under a key; what is missing is null. -/
def get (fields : List (Str × Value Φ)) (key : String) : Value Φ :=
  (Value.get? fields (str key)).getD .null

/-- The attestation of a provider, in lower case and without blanks around it. -/
def normalize_provider_consistency (lower : Str → Str) (value : Value Φ) (requested strict : Bool) :
    ApplicationConsistency :=
  match value with
  | .dict fields =>
    { state := lower (strip ((get fields "state").orElse (.text (str "unattested"))).toText)
      method := strip ((get fields "method").orElse (.text (str "provider"))).toText
      requested
      strict
      provider_attested := true
      detail := match get fields "detail" with
        | .null => none
        | .text [] => none
        | detail => some detail.toText }
  | _ =>
    { state := str "unattested"
      method := str "provider"
      requested
      strict
      provider_attested := false
      detail := some (str "provider did not return a consistency attestation") }

end Consistency

section Provider

variable {Φ : Type} [Floating Φ]

/-- The options of a platform, the timeout and the environment of commands. -/
structure Provider (Φ : Type) where
  options : List (Str × Value Φ)
  timeout : Int
  env : List (Str × Str)

variable (provider : Provider Φ)

def Provider.helper : Str :=
  ((get provider.options "vddk_helper").orElse (.text (str "immutavault-vddk"))).toText

/-- The text of a path; a path without components is the current directory. -/
def pathText (path : Path) : Str := if path.format = [] then str "." else path.format

/-- The helper as a command, if it is there: a path has to be executable, and a name is
looked up. -/
def resolvedHelper : Prog (Option Str) := do
  let candidate : Path := .parse provider.helper
  if candidate.root ≠ .relative ∨ Alphabet.slash ∈ provider.helper then
    let executable : Bool ← ask (.executable (pathText candidate))
    return if executable then some (pathText candidate) else none
  else ask (.which provider.helper)

/-- What a helper is capable of, or why it is not available. -/
structure Capabilities (Φ : Type) where
  available : Bool
  reason : Option Str
  helper : Str
  error : Option Str := none
  protocol_version : Option Int := none
  features : List (Value Φ) := []
  provider : Value Φ := .null
  provider_version : Value Φ := .null
  transport_modes : Value Φ := .null

/-- Kinds of values that can be compared with each other. -/
def kindOf : Value Φ → Nat
  | .null => 0
  | .bool _ | .int _ | .float _ => 1
  | .text _ => 2
  | .list _ => 3
  | .dict _ => 4

/-- Lists and dictionaries are in no set. -/
def hashable (features : List (Value Φ)) : Except Exn Unit :=
  match features.find? fun feature => 3 ≤ kindOf feature with
  | some feature => .error ⟨.otherError, s!"unhashable type: '{feature.className}'"⟩
  | none => .ok ()

/-- The features of a set in order. Values of different kinds have none, and that of
numbers is not looked at. -/
def sortedFeatures (features : List (Value Φ)) : Except Exn (List (Value Φ)) :=
  match features with
  | [] => .ok []
  | .text first :: rest =>
    if rest.all fun other => kindOf other = 2 then
      .ok ((((.text first :: rest).map Value.toText).dedup.insertionSort fun one other =>
        ¬ other < one).map .text)
    else .error ⟨.otherError, "'<' not supported between instances"⟩
  | first :: rest =>
    if rest.all fun other => kindOf other = kindOf first then .ok (first :: rest)
    else .error ⟨.otherError, "'<' not supported between instances"⟩

def requiredFeatures : List Str := [str "cbt", str "backup", str "restore"]

/-- The first of two texts that is not empty. -/
def orText (first second : Str) : Str := if first = [] then second else first

/-- What a command wrote, without blanks around it; its errors come first. -/
def complaint (result : CommandResult) : Str :=
  orText (strip (str result.stderr)) (strip (str result.stdout))

/-- The value that a command printed; nothing counts as an empty dictionary. -/
def printedValue (result : CommandResult) : Except LoadError (Value Φ) :=
  loads (if result.stdout = "" then ['\x7b', '\x7d'] else result.stdout.toList)

/-- Ask the helper what it is capable of. -/
def capabilities : Prog (Capabilities Φ) := do
  match ← resolvedHelper provider with
  | none => return ⟨false, some (str "helper_missing"), provider.helper, none, none, [], .null,
      .null, .null⟩
  | some helper =>
    let result : CommandResult ← ask (.run [helper, str "capabilities", str "--json"]
      (min provider.timeout 60) provider.env none)
    if result.returncode ≠ 0 then
      return ⟨false, some (str "capability_probe_failed"), helper, some (complaint result), none,
        [], .null, .null, .null⟩
    else
      match (printedValue result : Except LoadError (Value Φ)) with
      | .error .malformed => return ⟨false, some (str "invalid_capability_json"), helper, none,
          none, [], .null, .null, .null⟩
      | .error error => throw (.exn error.exn)
      | .ok payload =>
        let listed ← converted (payload.field (str "features") .null)
        let features ← converted (listed.orElse (.list [])).iterated
        converted (hashable features)
        let version ← converted (payload.field (str "protocol_version") .null)
        let protocol ← converted (version.orElse (.int 0)).toInt
        let sorted ← converted (sortedFeatures features)
        let name ← converted (payload.field (str "provider") (.text (str "vddk")))
        let provider_version ← converted (payload.field (str "provider_version") .null)
        let modes ← converted (payload.field (str "transport_modes") .null)
        let available := protocol = protocolVersion ∧
          ∀ feature ∈ requiredFeatures, (features.any (Value.isText feature)) = true
        return ⟨available, if available then none else some (str "missing_required_capability"),
          helper, none, some protocol, sorted, name, provider_version, modes.orElse (.list [])⟩

/-- Raise unless the provider is available; what it is then is returned. -/
def availableHelper : Prog (Capabilities Φ) := do
  let caps ← capabilities provider
  if caps.available then return caps
  else throw (.transport
    (str "VDDK/CBT provider unavailable: " ++ caps.reason.getD (str "None"))
    (orText (caps.reason.getD []) (str "provider_unavailable")) false)

/-- The checkpoint of the last backup, if there is one and it can be read. -/
def readCheckpoint : Prog (Option (Value Φ)) := do
  let present : Bool ← ask (.isFile checkpointFile)
  if present then
    match ← (ask (.read checkpointFile)).attempt with
    | .error (.exn error) => if error.kind.isOSError then return none else throw (.exn error)
    | .error failure => throw failure
    | .ok text =>
      match (loads text : Except LoadError (Value Φ)) with
      | .ok (.dict fields) => return some (.dict fields)
      | .ok _ | .error .malformed => return none
      | .error error => throw (.exn error.exn)
  else return none

/-- The text that a file holds for a value. -/
def fileText (value : Value Φ) : List Char := dumpsSorted .indented value ++ ['\n']

/-- Replace a file by the text of a value, as a whole. -/
def writeJsonAtomic (name : Str) (value : Value Φ) : Prog Unit := do
  ask (.directory true name)
  if value.fits then ask (.replace name (fileText value)) else throw (.exn tooManyDigits)

variable (Φ) in
def writeConsistency (consistency : ApplicationConsistency) : Prog Unit := do
  ask (.directory false consistencyFile)
  ask (.replace consistencyFile (fileText (consistency.as_dict : Value Φ)))

/-- What a backup is asked for. -/
structure BackupCall where
  platform_name : Str
  endpoint : Str
  vm_id : Str
  vm_name : Str
  destination : Path
  quiesce : Bool

/-- A reply that passed every gate. -/
structure Accepted (Φ : Type) where
  payload : List (Str × Value Φ)
  checkpoint : List (Str × Value Φ)
  consistency : ApplicationConsistency

/-- What a backup returns. -/
structure IncrementalResult (Φ : Type) where
  path : Path
  mode : Str
  changed_bytes : Int
  source_bytes_read : Int
  checkpoint : List (Str × Value Φ)
  detail : Value Φ

def Provider.strict : Bool :=
  ((Value.get? provider.options (str "application_consistency_strict")).getD (.bool false)).truthy

variable (lower : Str → Str) (call : BackupCall)

/-- The request of a backup. -/
def backupRequest : Prog (List Char) := do
  let previous ← readCheckpoint
  let block_size ← converted ((get provider.options "incremental_block_size").orElse
    (.int (128 * 1024 * 1024))).toInt
  let order ← converted ((get provider.options "vddk_transport_order").orElse
    (.list [.text (str "san"), .text (str "hotadd"), .text (str "nbdssl")])).iterated
  converted (Value.written .spaced (.dict [(str "protocol_version", .int protocolVersion),
    (str "operation", .text (str "backup")), (str "platform", .text call.platform_name),
    (str "endpoint", .text call.endpoint), (str "vm_id", .text call.vm_id),
    (str "vm_name", .text call.vm_name), (str "destination", .text (pathText call.destination)),
    (str "previous_checkpoint", previous.getD (.null : Value Φ)),
    (str "block_size", .int block_size), (str "transport_order", .list order),
    (str "quiesce", .bool call.quiesce),
    (str "application_consistency_strict", .bool provider.strict)]))

/-- What the helper printed; a text that is no JSON counts as an empty dictionary. -/
def replyOf (result : CommandResult) : Prog (Value Φ) :=
  match (printedValue result : Except LoadError (Value Φ)) with
  | .ok payload => return payload
  | .error .malformed => return .dict []
  | .error error => throw (.exn error.exn)

/-- Raise what a helper that did not succeed has to say. -/
def raiseUnsuccessful (result : CommandResult) (payload : Value Φ) : Prog (Accepted Φ) := do
  let reason := ((← converted (payload.field (str "reason") .null)).orElse
    (.text (str "provider_error"))).toText
  let error ← converted (payload.field (str "error") .null)
  let message := if error.truthy then error.toText else orText (complaint result) reason
  let safe ← converted (payload.field (str "fallback_safe") (.bool false))
  throw (.transport message reason safe.truthy)

/-- Everything of a backup up to the checkpoint: ask the helper, and pass every gate. -/
def examine : Prog (Accepted Φ) := do
  let caps ← availableHelper provider
  ask (.directory true [])
  let request ← backupRequest provider call
  let result : CommandResult ← ask (.run [caps.helper, str "backup", str "--json"]
    provider.timeout provider.env (some request))
  let payload : Value Φ ← replyOf result
  if result.returncode ≠ 0 then raiseUnsuccessful result payload
  else
    let status ← converted (payload.field (str "status") .null)
    match payload with
    | .dict fields =>
      if ¬ status.isText (str "success") then raiseUnsuccessful result payload
      else
        let consistency := normalize_provider_consistency lower (get fields "consistency")
          call.quiesce provider.strict
        if provider.strict ∧ call.quiesce ∧ ¬ consistency.application_consistent then
          throw (.transport (str ("VDDK provider reported backup success without proving " ++
            "application/guest quiescence; strict application consistency fails closed"))
            (str "application_consistency_unproven") false)
        else
          let layout : Bool ← ask (.isFile layoutFile)
          if ¬ layout then
            throw (.transport (str "VDDK provider reported success but did not create " ++
              layoutFile) (str "missing_layout") false)
          else
            match get fields "checkpoint" with
            | .dict (field :: rest) => return ⟨fields, field :: rest, consistency⟩
            | _ => throw (.transport
                (str "VDDK provider did not return a valid per-disk CBT checkpoint")
                (str "missing_checkpoint") false)
    | _ => raiseUnsuccessful result payload

/-- What is recorded of the transport. -/
def transportOf (accepted : Accepted Φ) (changed source : Int) : Value Φ :=
  .dict [(str "version", .int 1), (str "provider", .text (str "vddk-cbt")),
    (str "mode", .text ((get accepted.payload "mode").orElse (.text (str "incremental"))).toText),
    (str "changed_bytes", .int changed), (str "source_bytes_read", .int source),
    (str "transport", get accepted.payload "transport"),
    (str "checkpoint", .dict accepted.checkpoint),
    (str "consistency", accepted.consistency.as_dict)]

/-- The number under a key of a reply. -/
def numberOf (accepted : Accepted Φ) (key : String) : Except Exn Int :=
  ((get accepted.payload key).orElse (.int 0)).toInt

/-- What a backup does once the checkpoint is advanced. -/
def record (accepted : Accepted Φ) : Prog (IncrementalResult Φ) := do
  writeConsistency Φ accepted.consistency
  let changed ← converted (numberOf accepted "changed_bytes")
  let source ← converted (numberOf accepted "source_bytes_read")
  writeJsonAtomic transportFile (transportOf accepted changed source)
  return ⟨call.destination,
    ((get accepted.payload "mode").orElse (.text (str "incremental"))).toText, changed, source,
    accepted.checkpoint, transportOf accepted changed source⟩

/-- Make an incremental backup. -/
def backup : Prog (IncrementalResult Φ) := do
  let accepted ← examine provider lower call
  writeJsonAtomic checkpointFile (.dict accepted.checkpoint)
  record call accepted

end Provider

end Immutavault.VddkProvider
