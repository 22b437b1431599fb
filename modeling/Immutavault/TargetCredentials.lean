import Immutavault.EnvironmentEdits

/-!
# Credentials of other targets

The configuration of a target refers to variables, in the fields whose names end in `_env`,
and the mount of a share to the file with its credentials. Both are named after the display
name of the target, of which only a part counts: a variable is named by the runs of ASCII
letters and digits in upper case, a file by the first 48 characters, with a hyphen for
everything that is neither a letter nor a digit.

Saving or testing a target leaves these things of another one alone as long as nothing that
it writes falls on them. That is so when the secrets are of one line, the parts of the names
that count for variables differ, and so do those that count for files.
-/

namespace Immutavault.TargetCredentials

open Programs Values Configuration ManagementService EnterpriseFields
open EnvironmentFiles EnvironmentEdits SetupRequests
open GuestFiles (CodePoint Str str)
open JsonTexts (Floating Value)
open SessionOwnership (printed)
open SignedTokens (isSurrogate)

section Frames

/-- What the configuration of a target refers to: variables, and the file with the credentials
of a share, by its safe name. -/
structure Referred where
  names : List String
  credentials : Option Str

/-- The credentials of a target are as they were. The process may have read a variable anew
from the file, where it is as it was. -/
structure Kept (other : Referred) (before after : Appliance) : Prop where
  stored : ∀ key ∈ other.names, known after.envFile key = known before.envFile key
  loaded : ∀ key ∈ other.names, after.environ key = before.environ key ∨
    ∃ value, known before.envFile key = some value ∧ after.environ key = some value
  credentials : ∀ safe, other.credentials = some safe →
    after.files (credentialsFile safe) = before.files (credentialsFile safe)

variable {world : World} {other : Referred} {initial state : Appliance}

theorem Kept.refl (other : Referred) (state : Appliance) : Kept other state state :=
  ⟨fun _ _ => rfl, fun _ _ => Or.inl rfl, fun _ _ => rfl⟩

/-- A program that keeps the credentials of a target from the first state on. -/
abbrev Spares {α : Type} (world : World) (other : Referred) (initial : Appliance)
    (program : Prog α) : Prop := Keeps (machine world) (Kept other initial) program

theorem spares_ask {command : Command} (harmless : ∀ state, Kept other initial state →
    Kept other initial (obey world command state).2) :
    Spares world other initial (ask command) := by
  intro state kept
  refine wp_perform trivial fun answer _ => ?_
  show Kept other initial (handler world command state).2
  rcases handler_cases world command state with ⟨error, _, same⟩ | same
  · rw [same]
    exact kept
  · rw [same]
    exact harmless state kept

theorem spares_raised {α : Type} (outcome : Except Exn α) :
    Spares world other initial (raised outcome) := by
  cases outcome with
  | ok value => exact keeps_pure value
  | error error => exact keeps_throw error

/-- Commands that touch neither the environment nor a file. -/
theorem spares_readConfig : Spares world other initial readConfig := spares_ask fun _ kept => kept

theorem spares_writeFile {path text : Str}
    (elsewhere : ∀ safe, other.credentials = some safe → credentialsFile safe ≠ path) :
    Spares world other initial (ask (.writeFile path text)) := by
  refine spares_ask fun state kept => ?_
  show Kept other initial (writeText path text state).2
  unfold writeText
  split
  · exact ⟨kept.stored, kept.loaded, fun safe own =>
      (Function.update_of_ne (elsewhere safe own) _ _).trans (kept.credentials safe own)⟩
  · exact ⟨kept.stored, kept.loaded, fun safe own =>
      (Function.update_of_ne (elsewhere safe own) _ _).trans (kept.credentials safe own)⟩

theorem spares_removeFile {path : Str}
    (elsewhere : ∀ safe, other.credentials = some safe → credentialsFile safe ≠ path) :
    Spares world other initial (ask (.removeFile path)) :=
  spares_ask fun _ kept => ⟨kept.stored, kept.loaded, fun safe own =>
    (Function.update_of_ne (elsewhere safe own) _ _).trans (kept.credentials safe own)⟩

theorem spares_execute (arguments : List Str) : Spares world other initial (execute arguments) :=
  spares_ask fun _ kept => kept

theorem spares_checked (arguments : List Str) (message : String) :
    Spares world other initial (checked arguments message) := by
  refine keeps_bind (spares_execute arguments) fun succeeded => ?_
  cases succeeded with
  | true => exact keeps_pure ()
  | false => exact keeps_throw _

theorem spares_envWrite {updates : List (String × Str)}
    (free : ∀ key ∈ other.names, encodable updates = true → ¬ Assigns updates key) :
    Spares world other initial (ManagementService.envWrite updates) := by
  intro state kept
  refine wp_ask_bind rfl (fun _ => kept) ?_
  cases writes : EnvironmentFiles.envWrite state.envFile updates with
  | error error => exact wp_bind (wp_throw kept)
  | ok text =>
    refine wp_bind (wp_pure ?_)
    refine wp_perform trivial fun answer _ => ?_
    show Kept other initial (handler world (.replaceEnv text) state).2
    rcases handler_cases world (.replaceEnv text) state with ⟨error, _, same⟩ | same
    · rw [same]
      exact kept
    · rw [same]
      refine ⟨fun key listed => ?_, kept.loaded, kept.credentials⟩
      exact (known_envWrite writes (free key listed (encodable_of_envWrite writes))).trans
        (kept.stored key listed)

theorem spares_reloadEnv : Spares world other initial reloadEnv := by
  intro state kept
  refine wp_ask_bind rfl (fun _ => kept) ?_
  have each : ∀ entries : List (String × String), (∀ entry ∈ entries, entry.1 ∈ other.names →
      known initial.envFile entry.1 = some (str entry.2)) → Spares world other initial
        (Program.each (fun entry => ask (.setVariable entry.1 (str entry.2))) entries) := by
    intro entries
    induction entries with
    | nil => exact fun _ => keeps_pure ()
    | cons entry rest inductionHypothesis =>
      intro stored
      obtain ⟨own, others⟩ := List.forall_mem_cons.mp stored
      refine keeps_bind (spares_ask fun state kept => ?_) fun _ => inductionHypothesis others
      unfold obey
      dsimp only
      split
      · refine ⟨kept.stored, fun key named => ?_, kept.credentials⟩
        by_cases same : key = entry.1
        · subst same
          exact Or.inr ⟨_, own named, Function.update_self _ _ _⟩
        · dsimp only
          rw [Function.update_of_ne same]
          exact kept.loaded key named
      · exact kept
  refine each _ (fun entry listed named => ?_) state kept
  rw [← kept.stored _ named, known, (under_eq_some_iff (nodup_envRead _)).mpr listed]
  rfl

theorem spares_storeEnv {updates : List (String × Str)}
    (free : ∀ key ∈ other.names, encodable updates = true → ¬ Assigns updates key) :
    Spares world other initial (storeEnv updates) := by
  unfold storeEnv
  split
  · exact keeps_pure ()
  · exact keeps_bind (spares_envWrite free) fun _ => spares_reloadEnv

/-- Replacing the configuration does not touch the credentials of another target. -/
theorem spares_commit {data : Dict} {updates : List (String × Str)}
    (free : ∀ key ∈ other.names, encodable updates = true → ¬ Assigns updates key) :
    Spares world other initial (commit data updates) := by
  refine keeps_bind (spares_ask fun _ kept => kept) fun _ => ?_
  refine keeps_bind (spares_ask fun _ kept => kept) fun previous => ?_
  refine keeps_tryCatch ?_ fun error => ?_
  · refine keeps_bind ?_ fun _ => keeps_bind (spares_storeEnv free) fun _ =>
      spares_ask fun _ kept => kept
    exact keeps_bind (spares_ask fun _ kept => kept) fun _ =>
      spares_ask fun _ kept => ⟨kept.stored, kept.loaded, kept.credentials⟩
  · exact keeps_bind (spares_ask fun _ kept => ⟨kept.stored, kept.loaded, kept.credentials⟩)
      fun _ => keeps_throw error

section Files

theorem credentialsFile_ne_test (isalnum : CodePoint → Bool) {Φ : Type} [Floating Φ]
    (body : List (Str × Value Φ)) (safe : Str) :
    credentialsFile safe ≠ testCredentialsPath isalnum body := by
  intro same
  have kept : (credentialsFile safe)[1]? = some 101 := rfl
  have tested : (testCredentialsPath isalnum body)[1]? = some 114 := rfl
  rw [same, tested] at kept
  exact absurd kept (by decide)

/-- Units of mounts and credentials are kept under different endings. -/
theorem credentialsFile_ne_unit {unit : Str} (mounts : str ".mount" <:+ unit) (safe : Str) :
    credentialsFile safe ≠ unitPath unit := by
  intro same
  have kept : (credentialsFile safe).getLast? = some 115 := by
    rw [credentialsFile, List.getLast?_append]
    rfl
  have unitLast : unit.getLast? = some 116 := by
    obtain ⟨front, rfl⟩ := mounts
    rw [List.getLast?_append]
    rfl
  have mounted : (unitPath unit).getLast? = some 116 := by
    unfold unitPath joined
    split
    · exact unitLast
    · rw [List.getLast?_append, unitLast]
      rfl
  rw [same, mounted] at kept
  exact absurd kept (by decide)

end Files

theorem spares_writeCredentials {path : Str} {spec : MountSpec}
    (elsewhere : spec.mount_type = .cifs →
      ∀ safe, other.credentials = some safe → credentialsFile safe ≠ path) :
    Spares world other initial (writeCredentials path spec) := by
  unfold writeCredentials
  cases kind : spec.mount_type with
  | nfs => exact keeps_pure ()
  | cifs => exact keeps_bind (spares_writeFile (elsewhere kind)) fun _ =>
      spares_ask fun _ kept => kept

theorem spares_persistMount {path : Str} {spec : MountSpec}
    (elsewhere : spec.mount_type = .cifs →
      ∀ safe, other.credentials = some safe → credentialsFile safe ≠ path) :
    Spares world other initial (persistMount path spec) := by
  refine keeps_bind (spares_ask fun _ kept => kept) fun _ => ?_
  refine keeps_bind (spares_ask fun _ kept => kept) fun unit => ?_
  cases mounts : decide (str ".mount" <:+ unit) with
  | false => exact keeps_throw _
  | true =>
    refine keeps_bind (keeps_pure ()) fun _ => ?_
    refine keeps_bind (spares_writeCredentials elsewhere) fun _ => ?_
    refine keeps_bind (spares_writeFile fun safe _ =>
      credentialsFile_ne_unit (of_decide_eq_true mounts) safe) fun _ => ?_
    refine keeps_bind (spares_ask fun _ kept => kept) fun _ => ?_
    refine keeps_bind (spares_checked _ _) fun _ => ?_
    exact keeps_bind (spares_checked _ _) fun _ => spares_checked _ _

/-- A look at a target keeps the credentials of another one whose variables do not leak. -/
theorem spares_examineWith {env : List (String × Str)} (distinct : (env.map (·.1)).Nodup)
    (sealed : ∀ key ∈ other.names, ¬ Leaks env key) :
    Spares world other initial (examineWith env) := by
  refine keeps_bind (spares_ask fun _ kept => kept) fun _ => ?_
  intro state kept
  refine wp_ask_bind rfl (fun _ => kept) (wp_machine ?_)
  rw [run_temporaryEnv]
  refine ⟨kept.stored, fun key listed => ?_, kept.credentials⟩
  dsimp only
  split
  · exact kept.loaded key listed
  · rename_i fails
    rcases setEach_merged distinct (sealed key listed) state.envFile state.environ
      (Bool.not_eq_true _ ▸ fails) with same | ⟨value, found, set⟩
    · rw [same]
      exact kept.loaded key listed
    · exact Or.inr ⟨value, (kept.stored key listed).symm.trans found, set⟩

theorem spares_cleanMount {target path : Str} {spec : MountSpec}
    (elsewhere : ∀ safe, other.credentials = some safe → credentialsFile safe ≠ path) :
    Spares world other initial (cleanMount target path spec) := by
  refine keeps_bind (spares_execute _) fun _ => keeps_bind ?_ fun _ =>
    keeps_bind (keeps_attempt (spares_ask fun _ kept => kept)) fun _ => keeps_pure ()
  cases spec.mount_type with
  | nfs => exact keeps_pure ()
  | cifs => exact spares_removeFile elsewhere

/-- What raises ends a program; otherwise the program goes on with the value. -/
theorem spares_raised_bind {α β : Type} {outcome : Except Exn α} {next : α → Prog β}
    (rest : ∀ value, outcome = .ok value → Spares world other initial (next value)) :
    Spares world other initial (raised outcome >>= next) := by
  cases outcome with
  | ok value => exact rest value rfl
  | error error => exact keeps_throw error

end Frames

section Requests

variable {Φ : Type} [Floating Φ]

def textIn : Value Φ → Option String
  | .text text => some (printed text)
  | _ => none

/-- The variables that fields name. -/
def namedBy (fields : List (Str × Value Φ)) : List String :=
  fields.filterMap fun field => if str "_env" <:+ field.1 then textIn field.2 else none

def optionsOf (entry : List (Str × Value Φ)) : List (Str × Value Φ) :=
  match Value.get? entry (str "options") with
  | some (.dict fields) => fields
  | _ => []

/-- The variables that an entry refers to, itself or in its options. -/
def variablesOf (entry : List (Str × Value Φ)) : List String :=
  namedBy entry ++ namedBy (optionsOf entry)

variable (isalnum : CodePoint → Bool) (resolve : Str → Str)

/-- The safe name of a share with credentials. -/
def shareOf (body : List (Str × Value Φ)) : Option MountSpec → Option Str
  | none => none
  | some spec => match spec.mount_type with
    | .nfs => none
    | .cifs => some (safeName isalnum (textOr body "name" (str "share")))

/-- A platform or a storage target, by the request that it was saved with. -/
inductive Target (Φ : Type) where
  | platform (body : List (Str × Value Φ))
  | replica (body : List (Str × Value Φ))

def Target.name : Target Φ → Str
  | .platform body | .replica body => strippedAt body "name"

/-- What the configuration of a target refers to. -/
def Target.referred : Target Φ → Except Exn Referred
  | .platform body => do
    let prepared ← SetupRequests.platform body
    return ⟨variablesOf prepared.entry, none⟩
  | .replica body => do
    let prepared ← SetupRequests.replica body
    let mount ← mountOf resolve body
    return ⟨variablesOf prepared.entry, shareOf isalnum body mount⟩

/-- Requests to save or to test a target. -/
inductive Action (Φ : Type) where
  | savePlatform (body : List (Str × Value Φ))
  | testPlatform (body : List (Str × Value Φ))
  | saveStorage (body : List (Str × Value Φ))
  | testStorage (body : List (Str × Value Φ))

def Action.name : Action Φ → Str
  | .savePlatform body | .testPlatform body | .saveStorage body | .testStorage body =>
    strippedAt body "name"

def Action.program : Action Φ → Prog Unit
  | .savePlatform body => ManagementService.savePlatform body
  | .testPlatform body => ManagementService.testPlatform body
  | .saveStorage body => ManagementService.saveStorage isalnum resolve body
  | .testStorage body => ManagementService.testStorage isalnum resolve body

def isWritable (text : Str) : Bool := text.all fun point => !isSurrogate point

/-- The files of a mount can be written. -/
def canMount (credentials : Str) : Option MountSpec → Bool
  | none => true
  | some spec => (spec.mount_type = .nfs || isWritable (credentialsText spec)) &&
      isWritable (mountUnit spec (mountOptions credentials spec.mount_type))

/-- Nothing that a request writes falls on what another target refers to. -/
def Action.Apart (other : Referred) : Action Φ → Prop
  | .savePlatform body => ∀ prepared, platform body = .ok prepared →
      encodable prepared.env = true → ∀ key ∈ other.names, ¬ Assigns prepared.env key
  | .testPlatform body => ∀ prepared, platform body = .ok prepared →
      ∀ key ∈ other.names, ¬ Leaks prepared.env key
  | .saveStorage body => ∀ prepared mount, replica body = .ok prepared →
      mountOf resolve body = .ok mount →
        (∀ safe, shareOf isalnum body mount = some safe → other.credentials ≠ some safe) ∧
          (encodable prepared.env = true → canMount (credentialsPath isalnum body) mount = true →
            ∀ key ∈ other.names, ¬ Assigns prepared.env key)
  | .testStorage body => ¬ (textOr body "backend" [] = str "filesystem" ∧ asksMount body) →
      ∀ prepared, replica body = .ok prepared → ∀ key ∈ other.names, ¬ Leaks prepared.env key

variable {isalnum resolve} {world : World} {other : Referred} {initial : Appliance}
  {body : List (Str × Value Φ)} {prepared : Prepared Φ}

/-- The variables that requests set for the name of a target. -/
def families (tag : String) : List (List String) :=
  [[], [usernameVariable tag, passwordVariable tag], [sshKeyVariable tag],
    [repositoryVariable tag], [repositoryVariable tag, accessKeyVariable tag,
      secretKeyVariable tag]]

theorem platform_keys (accepted : platform body = .ok prepared) :
    ∃ tag, name (strippedAt body "name") = .ok tag ∧ prepared.env.map (·.1) ∈ families tag := by
  obtain ⟨tag, kind, named, _, same⟩ := platform_env accepted
  refine ⟨tag, named, ?_⟩
  have ssh : ∀ (mode : String) (options : List (Str × Value Φ)),
      (sshPart body tag mode options).env.map (·.1) ∈ families tag := by
    intro mode options
    unfold sshPart
    dsimp only
    split
    · exact List.mem_cons_self
    · simp [families]
  rw [same]
  cases kind with
  | vmware => simp [platformPart, vmwarePart, families]
  | proxmox => exact ssh _ _
  | xcpng => exact ssh _ _

theorem replica_keys (accepted : replica body = .ok prepared) :
    ∃ tag, name (strippedAt body "name") = .ok tag ∧ prepared.env.map (·.1) ∈ families tag := by
  obtain ⟨tag, kind, part, named, _, made, same⟩ := replica_env accepted
  refine ⟨tag, named, ?_⟩
  rw [same, replicaPart_env made]
  split <;> simp [families]

theorem underscore_ne {before last : String} (other : last.toList.reverse.take 1 ≠ ['_'])
    (long : 1 ≤ last.toList.length) : "_" ≠ before ++ last := by
  have apart : before ++ last ≠ "" ++ "_" := ends_differ 1 other long (by decide)
  exact fun same => apart same.symm

theorem families_nodup {tag : String} {keys : List String} (member : keys ∈ families tag) :
    keys.Nodup ∧ "_" ∉ keys := by
  have user : "_" ≠ usernameVariable tag := underscore_ne (by decide) (by decide)
  have password : "_" ≠ passwordVariable tag := underscore_ne (by decide) (by decide)
  have key : "_" ≠ sshKeyVariable tag := underscore_ne (by decide) (by decide)
  have repository : "_" ≠ repositoryVariable tag := underscore_ne (by decide) (by decide)
  have access : "_" ≠ accessKeyVariable tag := underscore_ne (by decide) (by decide)
  have secret : "_" ≠ secretKeyVariable tag := underscore_ne (by decide) (by decide)
  simp only [families, List.mem_cons, List.not_mem_nil, or_false] at member
  rcases member with rfl | rfl | rfl | rfl | rfl
  · exact ⟨List.nodup_nil, List.not_mem_nil⟩
  · exact ⟨by simpa using username_ne_password tag, by simp [user, password]⟩
  · exact ⟨List.nodup_singleton _, by simp [key]⟩
  · exact ⟨List.nodup_singleton _, by simp [repository]⟩
  · exact ⟨nodup_bucket tag, by simp [repository, access, secret]⟩

theorem platform_nodup (accepted : platform body = .ok prepared) :
    (prepared.env.map (·.1)).Nodup ∧ "_" ∉ prepared.env.map (·.1) := by
  obtain ⟨_, _, member⟩ := platform_keys accepted
  exact families_nodup member

theorem replica_nodup (accepted : replica body = .ok prepared) :
    (prepared.env.map (·.1)).Nodup ∧ "_" ∉ prepared.env.map (·.1) := by
  obtain ⟨_, _, member⟩ := replica_keys accepted
  exact families_nodup member

theorem credentialsFile_injective {safe other : Str}
    (same : credentialsFile safe = credentialsFile other) : safe = other :=
  List.append_cancel_left (List.append_cancel_right same)

theorem run_writeFile {path text : Str} {state : Appliance}
    (done : (run (handler world) (ask (.writeFile path text)) state).1 = .ok ()) :
    isWritable text = true := by
  rw [run_ask] at done
  rcases handler_cases world (.writeFile path text) state with ⟨error, _, same⟩ | same
  · rw [same] at done
    cases done
  · rw [same] at done
    replace done : (writeText path text state).1 = .ok () := done
    unfold writeText at done
    split at done
    · cases done
    · rename_i plain
      rw [Bool.not_eq_true, List.any_eq_false] at plain
      exact List.all_eq_true.mpr fun point member => by simpa using plain point member

/-- A mount that has been set up had files that could be written. -/
theorem run_persistGiven {path : Str} {mount : Option MountSpec} {state : Appliance}
    (done : (run (handler world) (persistGiven path mount) state).1 = .ok ()) :
    canMount path mount = true := by
  cases mount with
  | none => rfl
  | some spec =>
    obtain ⟨_, _, _, ran⟩ := (run_bind_eq_ok (handler world)).mp (Prod.ext done rfl)
    obtain ⟨unit, _, _, ran⟩ := (run_bind_eq_ok (handler world)).mp ran
    obtain ⟨_, _, _, ran⟩ := (run_bind_eq_ok (handler world)).mp ran
    obtain ⟨_, _, credentials, ran⟩ := (run_bind_eq_ok (handler world)).mp ran
    obtain ⟨_, _, unit, _⟩ := (run_bind_eq_ok (handler world)).mp ran
    rw [canMount, run_writeFile (congrArg Prod.fst unit), Bool.and_true, Bool.or_eq_true]
    unfold writeCredentials at credentials
    cases kind : spec.mount_type with
    | nfs => exact Or.inl rfl
    | cifs =>
      rw [kind] at credentials
      obtain ⟨_, _, wrote, _⟩ := (run_bind_eq_ok (handler world)).mp credentials
      exact Or.inr (run_writeFile (congrArg Prod.fst wrote))

theorem spares_persistGiven {mount : Option MountSpec}
    (apart : ∀ safe, shareOf isalnum body mount = some safe → other.credentials ≠ some safe) :
    Spares world other initial (persistGiven (credentialsPath isalnum body) mount) := by
  cases mount with
  | none => exact keeps_pure ()
  | some spec =>
    refine spares_persistMount fun kind safe own same => ?_
    refine apart safe ?_ own
    rw [shareOf, kind, credentialsFile_injective same]

/-- A request that is apart from a target keeps its credentials. -/
theorem Action.spares {action : Action Φ} (apart : action.Apart isalnum resolve other) :
    Spares world other initial (action.program isalnum resolve) := by
  cases action with
  | savePlatform body =>
    refine spares_raised_bind fun prepared accepted => ?_
    refine keeps_bind spares_readConfig fun data => spares_raised_bind fun candidate _ => ?_
    exact spares_commit fun key named whole => apart prepared accepted whole key named
  | testPlatform body =>
    refine spares_raised_bind fun prepared accepted => ?_
    exact spares_examineWith ((platform_nodup accepted).1) fun key named =>
      apart prepared accepted key named
  | saveStorage body =>
    refine spares_raised_bind fun prepared accepted => ?_
    refine spares_raised_bind fun mount asked => ?_
    obtain ⟨share, free⟩ := apart prepared mount accepted asked
    refine keeps_bind spares_readConfig fun data => spares_raised_bind fun candidate _ => ?_
    refine keeps_bind (spares_ask fun _ kept => kept) fun _ => ?_
    intro state kept
    have mounted : Kept other initial (run (handler world)
        (persistGiven (credentialsPath isalnum body) mount) state).2 :=
      wp_run (spares_persistGiven share state kept)
    refine wp_bind (wp_machine ?_)
    cases done : (run (handler world) (persistGiven (credentialsPath isalnum body) mount)
        state).1 with
    | error error => exact mounted
    | ok value =>
      exact spares_commit (fun key named whole => free whole (run_persistGiven done) key named)
        _ mounted
  | testStorage body =>
    show Spares world other initial (ManagementService.testStorage isalnum resolve body)
    unfold ManagementService.testStorage
    split
    · refine spares_raised_bind fun spec _ => ?_
      refine keeps_bind (spares_ask fun _ kept => kept) fun _ => ?_
      have elsewhere : ∀ safe, other.credentials = some safe →
          credentialsFile safe ≠ testCredentialsPath isalnum body :=
        fun safe _ => credentialsFile_ne_test isalnum body safe
      refine keeps_bind (keeps_attempt ?_) fun outcome =>
        keeps_bind (spares_cleanMount elsewhere) fun _ => spares_raised outcome
      refine keeps_bind (spares_writeCredentials fun _ => elsewhere) fun _ => ?_
      exact keeps_bind (spares_checked _ _) fun _ => spares_checked _ _
    · rename_i direct
      refine spares_raised_bind fun prepared accepted => ?_
      exact spares_examineWith ((replica_nodup accepted).1) fun key named =>
        apart direct prepared accepted key named

end Requests

section Names

/-- What stands before and behind the tag in the name of a variable. -/
def frames : List (String × String) :=
  [("IMMUTAVAULT_", "_USERNAME"), ("IMMUTAVAULT_", "_PASSWORD"), ("IMMUTAVAULT_", "_SSH_KEY"),
    ("RESTIC_", "_PASSWORD"), ("", "_ACCESS_KEY_ID"), ("", "_SECRET_ACCESS_KEY")]

/-- The variables that the name of a target stands for. -/
def ownVariables (tag : String) : List String :=
  frames.map fun frame => frame.1 ++ tag ++ frame.2

/-- The variables of a provider, which all its buckets share. -/
def sharedVariables : List String := ["CLOUDFLARE_ACCOUNT_ID", "CLOUDFLARE_API_TOKEN"]

/-- Two frames differ in their ends or, where these are the same, in their beginnings. -/
theorem frames_differ {frame other : String × String} (listed : frame ∈ frames)
    (another : other ∈ frames) : frame = other ∨
      frame.2.toList.reverse.take 5 ≠ other.2.toList.reverse.take 5 ∨
        frame.1.toList.head? ≠ other.1.toList.head? ∧ frame.1 ≠ "" ∧ other.1 ≠ "" := by
  have all : (frames.all fun frame => frames.all fun other => decide (frame = other ∨
      frame.2.toList.reverse.take 5 ≠ other.2.toList.reverse.take 5 ∨
        frame.1.toList.head? ≠ other.1.toList.head? ∧ frame.1 ≠ "" ∧ other.1 ≠ "")) = true := by
    decide
  exact of_decide_eq_true (List.all_eq_true.mp (List.all_eq_true.mp all _ listed) _ another)

/-- Targets with different tags have no variable in common. -/
theorem ownVariables_disjoint {tag other key : String} (own : key ∈ ownVariables tag)
    (another : key ∈ ownVariables other) : tag = other := by
  obtain ⟨frame, listed, rfl⟩ := List.mem_map.mp own
  obtain ⟨second, present, same⟩ := List.mem_map.mp another
  have long : ∀ frame ∈ frames, 5 ≤ frame.2.toList.length := by
    have all : (frames.all fun frame => decide (5 ≤ frame.2.toList.length)) = true := by
      decide
    exact fun frame listed => of_decide_eq_true (List.all_eq_true.mp all _ listed)
  rcases frames_differ listed present with rfl | ends | ⟨begins, filled, full⟩
  · have texts := congrArg String.toList same
    simp only [String.toList_append, List.append_assoc] at texts
    exact (String.toList_inj.mp (List.append_cancel_right (List.append_cancel_left texts))).symm
  · exact absurd same.symm (ends_differ 5 ends (long _ listed) (long _ present))
  · have texts := congrArg (fun text : String => text.toList.head?) same
    simp only [String.toList_append, List.append_assoc] at texts
    rw [List.head?_append_of_ne_nil _ (by simpa using full),
      List.head?_append_of_ne_nil _ (by simpa using filled)] at texts
    exact absurd texts.symm begins

theorem sharedVariables_foreign {tag key : String} (own : key ∈ ownVariables tag) :
    key ∉ sharedVariables := by
  obtain ⟨frame, listed, rfl⟩ := List.mem_map.mp own
  intro shared
  have all : (frames.all fun frame => sharedVariables.all fun key =>
      decide (frame.2.toList.reverse.take 5 ≠ key.toList.reverse.take 5 ∧
        5 ≤ frame.2.toList.length ∧ 5 ≤ key.toList.length)) = true := by decide
  obtain ⟨ends, long, longer⟩ := of_decide_eq_true
    (List.all_eq_true.mp (List.all_eq_true.mp all _ listed) _ shared)
  have apart : frame.1 ++ tag ++ frame.2 ≠ "" ++ (frame.1 ++ tag ++ frame.2) :=
    ends_differ 5 ends long longer
  exact apart (String.empty_append).symm

theorem families_own {tag : String} {keys : List String} (member : keys ∈ families tag) :
    ∀ key ∈ keys, key ∈ ownVariables tag := by
  have own : ownVariables tag = [usernameVariable tag, passwordVariable tag, sshKeyVariable tag,
      repositoryVariable tag, accessKeyVariable tag, secretKeyVariable tag] := by
    have access : "" ++ tag ++ "_ACCESS_KEY_ID" = accessKeyVariable tag := by
      rw [String.empty_append]
      rfl
    have secret : "" ++ tag ++ "_SECRET_ACCESS_KEY" = secretKeyVariable tag := by
      rw [String.empty_append]
      rfl
    rw [← access, ← secret]
    rfl
  rw [own]
  simp only [families, List.mem_cons, List.not_mem_nil, or_false] at member
  rcases member with rfl | rfl | rfl | rfl | rfl <;> simp

theorem login_family (tag : String) :
    [usernameVariable tag, passwordVariable tag] ∈ families tag := by simp [families]

theorem ssh_family (tag : String) : [sshKeyVariable tag] ∈ families tag := by simp [families]

theorem vault_family (tag : String) : [repositoryVariable tag] ∈ families tag := by
  simp [families]

theorem bucket_family (tag : String) :
    [repositoryVariable tag, accessKeyVariable tag, secretKeyVariable tag] ∈ families tag := by
  simp [families]

variable {Φ : Type} [Floating Φ] {body : List (Str × Value Φ)} {prepared : Prepared Φ}

theorem namedBy_append (fields others : List (Str × Value Φ)) :
    namedBy (fields ++ others) = namedBy fields ++ namedBy others := List.filterMap_append

/-- Fields that are taken over from a request name no variable. -/
theorem namedBy_filled {keys : List String}
    (plain : (keys.all fun key => !decide (str "_env" <:+ str key)) = true) :
    namedBy (filledFields body keys) = [] := by
  rw [namedBy, List.filterMap_eq_nil_iff]
  intro field listed
  obtain ⟨key, given, rfl⟩ := List.mem_map.mp listed
  have own := List.all_eq_true.mp plain key (List.mem_filter.mp given).1
  rw [if_neg (by simpa using own)]

/-- A platform refers to variables of its own name. -/
theorem platform_variables (accepted : platform body = .ok prepared) :
    ∃ tag, name (strippedAt body "name") = .ok tag ∧
      ∀ key ∈ variablesOf prepared.entry, key ∈ ownVariables tag := by
  unfold SetupRequests.platform at accepted
  split at accepted
  · cases accepted
  · rename_i kind known
    obtain ⟨_, _, accepted⟩ := bind_eq_ok.mp accepted
    obtain ⟨tag, named, done⟩ := bind_eq_ok.mp accepted
    obtain rfl := Except.ok.inj done
    refine ⟨tag, named, fun key listed => ?_⟩
    have ssh : key ∈ [printed (str (sshKeyVariable tag))] → key ∈ ownVariables tag := by
      intro listed
      rw [BrokerMessages.printed_str] at listed
      exact families_own (ssh_family tag) key listed
    cases kind with
    | vmware =>
      replace listed : key ∈ [printed (str (usernameVariable tag)),
          printed (str (passwordVariable tag))] ++ namedBy (filledFields body
            ["datacenter", "datastore", "network", "resource_pool"]) := listed
      rw [namedBy_filled (by decide), List.append_nil, BrokerMessages.printed_str,
        BrokerMessages.printed_str] at listed
      exact families_own (login_family tag) key listed
    | proxmox => exact ssh listed
    | xcpng =>
      replace listed : key ∈ [printed (str (sshKeyVariable tag))] ++
        namedBy (filledFields body ["restore_sr_uuid"]) := listed
      rw [namedBy_filled (by decide), List.append_nil] at listed
      exact ssh listed

/-- A storage target refers to variables of its own name and to those of its provider. -/
theorem replica_variables (accepted : replica body = .ok prepared) :
    ∃ tag, name (strippedAt body "name") = .ok tag ∧ ∀ key ∈ variablesOf prepared.entry,
      key ∈ ownVariables tag ∨ key ∈ sharedVariables := by
  unfold SetupRequests.replica at accepted
  split at accepted
  · cases accepted
  · rename_i kind known
    obtain ⟨_, _, accepted⟩ := bind_eq_ok.mp accepted
    obtain ⟨tag, named, accepted⟩ := bind_eq_ok.mp accepted
    obtain ⟨part, made, done⟩ := bind_eq_ok.mp accepted
    obtain rfl := Except.ok.inj done
    refine ⟨tag, named, fun key listed => ?_⟩
    have repository : key ∈ [printed (str (repositoryVariable tag))] → key ∈ ownVariables tag := by
      intro listed
      rw [BrokerMessages.printed_str] at listed
      exact families_own (vault_family tag) key listed
    cases kind with
    | s3 =>
      obtain ⟨_, _, made⟩ := bind_eq_ok.mp made
      obtain ⟨days, _, done⟩ := bind_eq_ok.mp made
      obtain rfl := Except.ok.inj done
      have own : key ∈ [printed (str (repositoryVariable tag)),
          printed (str (accessKeyVariable tag)), printed (str (secretKeyVariable tag))] →
            key ∈ ownVariables tag := by
        intro listed
        rw [BrokerMessages.printed_str, BrokerMessages.printed_str, BrokerMessages.printed_str]
          at listed
        exact families_own (bucket_family tag) key listed
      dsimp only at listed
      generalize decide (textOr body "provider" (str "custom") = str "cloudflare_r2") = r2
        at listed
      cases r2 with
      | false => exact Or.inl (own listed)
      | true =>
        replace listed : key ∈ [printed (str (repositoryVariable tag)),
          printed (str (accessKeyVariable tag)), printed (str (secretKeyVariable tag))] ++
            [printed (str "CLOUDFLARE_ACCOUNT_ID"), printed (str "CLOUDFLARE_API_TOKEN")] := listed
        rcases List.mem_append.mp listed with named | shared
        · exact Or.inl (own named)
        · rw [BrokerMessages.printed_str, BrokerMessages.printed_str] at shared
          exact Or.inr shared
    | filesystem =>
      obtain ⟨_, _, done⟩ := bind_eq_ok.mp made
      obtain rfl := Except.ok.inj done
      exact Or.inl (repository listed)
    | rest =>
      obtain ⟨_, _, done⟩ := bind_eq_ok.mp made
      obtain rfl := Except.ok.inj done
      exact Or.inl (repository listed)

theorem isTagCharacter_own {tag key : String}
    (tagged : ∀ character ∈ tag.toList, isTagCharacter character = true)
    (own : key ∈ ownVariables tag) : ∀ character ∈ key.toList, isTagCharacter character = true := by
  obtain ⟨frame, listed, rfl⟩ := List.mem_map.mp own
  have all : (frames.all fun frame => frame.1.toList.all isTagCharacter &&
      frame.2.toList.all isTagCharacter) = true := by decide
  have framed := List.all_eq_true.mp all frame listed
  rw [Bool.and_eq_true] at framed
  intro character member
  rw [String.toList_append, String.toList_append, List.mem_append, List.mem_append] at member
  rcases member with (before | middle) | behind
  · exact List.all_eq_true.mp framed.1 character before
  · exact tagged character middle
  · exact List.all_eq_true.mp framed.2 character behind

/-- A text of tag characters has no white space at its ends. -/
theorem trimmed_tagged {key : String}
    (tagged : ∀ character ∈ key.toList, isTagCharacter character = true) : trimmed key = key := by
  by_cases filled : key.toList = []
  · rw [String.toList_eq_nil_iff.mp filled]
    decide
  · obtain ⟨first, rest, begins⟩ := List.exists_cons_of_ne_nil filled
    have ends := List.dropLast_append_getLast filled
    exact ProxmoxImports.trimmed_self begins ends.symm
      (isWhitespace_tag (tagged first (begins ▸ List.mem_cons_self)))
      (isWhitespace_tag (tagged _ (List.getLast_mem filled)))

/-- A line that assigns a text of tag characters is read as its assignment or not at all. -/
theorem readLine_tagged {key : String} {behind : List Char} {reading : String × String}
    (tagged : ∀ character ∈ key.toList, isTagCharacter character = true)
    (read : readLine (String.ofList (key.toList ++ '=' :: behind)) = some reading) :
    reading.1 = key := by
  have bare : '=' ∉ key.toList := fun member => absurd (tagged '=' member) (by decide)
  unfold readLine at read
  rw [String.toList_ofList, splitEquals_line bare] at read
  have behind : ∀ condition : Prop, ∀ [Decidable condition] {value : Option (String × String)},
      (if condition then none else value) = some reading → value = some reading := by
    intro condition _ value given
    split at given
    · cases given
    · exact given
  replace read := behind _ read
  rw [Option.bind_some] at read
  dsimp only at read
  rw [String.ofList_toList, trimmed_tagged tagged] at read
  split at read
  · exact (congrArg Prod.fst (Option.some.inj read)).symm
  · cases read

/-- A secret of one line assigns no variable but its own. -/
theorem assigns_own {updates : List (String × Str)} {key : String}
    (tagged : ∀ update ∈ updates, ∀ character ∈ update.1.toList, isTagCharacter character = true)
    (plain : ∀ update ∈ updates, isPlain update.2 = true) (assigns : Assigns updates key) :
    key ∈ updates.map (·.1) := by
  obtain ⟨update, listed, _, reading, reads, rfl⟩ := assigns
  have characters := tagged update listed
  have clean : ∀ character ∈ lineOf (update.1, printed update.2), isLineBreak character = false :=
    lineOf_clean characters (oneLine_printed (plain update listed))
  rw [readings, linesAfter_line clean [] (by simp [lineOf]), List.mem_filterMap] at reads
  obtain ⟨raw, only, read⟩ := reads
  rw [List.mem_singleton.mp only, List.reverse_nil, List.nil_append, lineOf] at read
  rw [readLine_tagged characters read]
  exact List.mem_map_of_mem listed

/-- The secrets of a request are of one line and can be encoded. -/
def Action.Plain : Action Φ → Prop
  | .savePlatform body | .testPlatform body => ∀ prepared, platform body = .ok prepared →
      ∀ update ∈ prepared.env, isPlain update.2 = true
  | .saveStorage body | .testStorage body => ∀ prepared, replica body = .ok prepared →
      ∀ update ∈ prepared.env, isPlain update.2 = true

theorem leaks_mem {env : List (String × Str)} {key : String} (leaks : Leaks env key) :
    key ∈ env.map (·.1) := by
  obtain ⟨before, value, after, rfl, _⟩ := leaks
  simp

variable {isalnum : CodePoint → Bool} {resolve : Str → Str}

theorem referred_variables {target : Target Φ} {other : Referred}
    (referred : target.referred isalnum resolve = .ok other) :
    ∃ tag, SetupRequests.name target.name = .ok tag ∧ ∀ key ∈ other.names,
      key ∈ ownVariables tag ∨ key ∈ sharedVariables := by
  cases target with
  | platform body =>
    obtain ⟨prepared, accepted, done⟩ := bind_eq_ok.mp referred
    obtain rfl := Except.ok.inj done
    obtain ⟨tag, named, own⟩ := platform_variables accepted
    exact ⟨tag, named, fun key listed => Or.inl (own key listed)⟩
  | replica body =>
    obtain ⟨prepared, accepted, rest⟩ := bind_eq_ok.mp referred
    obtain ⟨mount, _, done⟩ := bind_eq_ok.mp rest
    obtain rfl := Except.ok.inj done
    exact replica_variables accepted

/-- A request with plain secrets is apart from the targets with other tags, if its share has
another safe name than theirs. -/
theorem Action.apart_of_tags {action : Action Φ} {target : Target Φ} {other : Referred}
    (referred : target.referred isalnum resolve = .ok other) (plain : action.Plain)
    (tags : ∀ tag, SetupRequests.name action.name = .ok tag → SetupRequests.name target.name ≠ .ok tag)
    (share : ∀ body mount safe, action = .saveStorage body → mountOf resolve body = .ok mount →
      shareOf isalnum body mount = some safe → other.credentials ≠ some safe) :
    action.Apart isalnum resolve other := by
  obtain ⟨second, called, theirs⟩ := referred_variables referred
  have foreign : ∀ {tag : String} {keys : List String},
      SetupRequests.name action.name = .ok tag → keys ∈ families tag →
        ∀ key ∈ other.names, key ∉ keys := by
    intro tag keys named member key listed own
    have mine := families_own member key own
    rcases theirs key listed with another | shared
    · exact tags tag named (ownVariables_disjoint mine another ▸ called)
    · exact sharedVariables_foreign mine shared
  have unassigned : ∀ {tag : String} {env : List (String × Str)},
      SetupRequests.name action.name = .ok tag → env.map (·.1) ∈ families tag →
        (∀ update ∈ env, isPlain update.2 = true) → ∀ key ∈ other.names, ¬ Assigns env key := by
    intro tag env named member secrets key listed assigns
    have tagged : ∀ update ∈ env, ∀ character ∈ update.1.toList,
        isTagCharacter character = true := fun update given =>
      isTagCharacter_own (name_shape named).1 (families_own member _ (List.mem_map_of_mem given))
    exact foreign named member key listed (assigns_own tagged secrets assigns)
  cases action with
  | savePlatform body =>
    intro prepared accepted _ key listed
    obtain ⟨tag, named, member⟩ := platform_keys accepted
    exact unassigned named member (plain prepared accepted) key listed
  | testPlatform body =>
    intro prepared accepted key listed leaks
    obtain ⟨tag, named, member⟩ := platform_keys accepted
    exact foreign named member key listed (leaks_mem leaks)
  | saveStorage body =>
    intro prepared mount accepted asked
    obtain ⟨tag, named, member⟩ := replica_keys accepted
    exact ⟨fun safe own => share body mount safe rfl asked own,
      fun _ _ key listed => unassigned named member (plain prepared accepted) key listed⟩
  | testStorage body =>
    intro _ prepared accepted key listed leaks
    obtain ⟨tag, named, member⟩ := replica_keys accepted
    exact foreign named member key listed (leaks_mem leaks)

end Names

end Immutavault.TargetCredentials
