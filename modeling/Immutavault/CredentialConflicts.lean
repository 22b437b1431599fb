import Immutavault.TargetCredentials
import Immutavault.RecoveryTests

/-!
# Conflicts of credentials

Where what a request writes falls on what another target refers to, there is a machine on
which it changes that: one without faults, with an empty configuration, on which every
candidate loads. So a request keeps the credentials of another target exactly when it is
apart from it.
-/

namespace Immutavault.CredentialConflicts

open Programs Values Configuration Management Tenancy ManagementService EnterpriseFields
open EnvironmentFiles EnvironmentEdits SetupRequests TargetCredentials
open GuestFiles (CodePoint Str str)
open JsonTexts (Floating Value Constant)
open SessionOwnership (printed)
open SignedTokens (isSurrogate)

section Reaching

/-- A machine on which nothing fails and every candidate loads. -/
def calm : World where
  fault := fun _ => none
  enterprise := fun _ => .ok RecoveryTests.bench.cfg.enterprise
  escape := fun _ => str "x.mount"
  succeeds := fun _ => true

/-- An appliance with an empty configuration and nothing but an environment file. -/
def blank (file : Option String) : Appliance := ⟨[], file, fun _ => none, fun _ => none⟩

variable {state after : Appliance}

/-- On a calm machine a command is obeyed. -/
theorem wp_calm {α : Type} {command : Command} {next : command.Answer → Prog α}
    {post : Except Exn α → Appliance → Prop} {value : command.Answer}
    (obeyed : obey calm command state = (.ok value, after))
    (goes : wp (machine calm) (next value) post after) :
    wp (machine calm) (ask command >>= next) post state := wp_obeyed rfl obeyed goes

theorem wp_calm_last {command : Command} {post : Except Exn command.Answer → Appliance → Prop}
    {value : command.Answer} (obeyed : obey calm command state = (.ok value, after))
    (holds : post (.ok value) after) : wp (machine calm) (ask command) post state :=
  wp_obeyed_last rfl obeyed holds

theorem loadManagement_absent (core : Config) {raw : Dict}
    (absent : raw.get? "management" = none) :
    ∃ management, loadManagement core raw = .ok management := by
  have socket : (trimmed (presentText [] "broker_socket"
      "/run/immutavault/manage.sock")).startsWith "/" = true := by decide +kernel
  unfold loadManagement
  rw [absent]
  simp only [mappingOf, ok_bind, Dict.get?, rowsOf, loadPolicies, List.mapM_nil, socket]
  exact ⟨_, rfl⟩

/-- A calm machine loads every configuration without a management section. -/
theorem loads_calm {data : Dict} (absent : data.get? "management" = none) :
    loads calm data = .ok () := by
  obtain ⟨management, loaded⟩ :=
    loadManagement_absent RecoveryTests.bench.cfg.enterprise.core absent
  show (do
    let _ ← loadV11Config RecoveryTests.bench.cfg.enterprise data
    return ()) = _
  unfold loadV11Config
  split
  · rfl
  · rename_i error same
    rw [loaded] at same
    cases same

variable {data : Dict} {env : List (String × Str)} {text : String}

theorem wp_keepsEnv {α : Type} {program : Prog α} (issues : Issues KeepsEnv program)
    (stored : state.envFile = some text) :
    wp (machine calm) program (fun _ final => final.envFile = some text) state :=
  wp_machine ((envFile_kept issues state).trans stored)

/-- What is stored in the environment file stays there while the rest is done. -/
theorem wp_replaceAll (loaded : loads calm data = .ok ()) (filled : env ≠ [])
    (writes : EnvironmentFiles.envWrite state.envFile env = .ok text) :
    wp (machine calm) (replaceAll data env) (fun _ final => final.envFile = some text) state := by
  have accepted : obey calm (.checkCandidate data) state = (.ok (), state) := Prod.ext loaded rfl
  refine wp_bind (wp_calm accepted (wp_calm_last rfl ?_))
  dsimp only
  refine wp_bind ?_
  rw [storeEnv, if_neg filled]
  refine wp_bind (wp_calm rfl (wp_bind (wp_raised ?_)))
  dsimp only
  rw [writes]
  refine wp_calm_last rfl ?_
  refine wp_mono (wp_keepsEnv issues_reloadEnv rfl) fun outcome middle stored => ?_
  cases outcome with
  | ok value => exact wp_keepsEnv (issues_ask fun _ _ => rfl) stored
  | error error => exact stored

/-- An edit on a calm machine leaves its variables in the file. -/
theorem wp_commit (loaded : loads calm data = .ok ()) (filled : env ≠ [])
    (writes : EnvironmentFiles.envWrite state.envFile env = .ok text) :
    wp (machine calm) (commit data env) (fun _ final => final.envFile = some text) state := by
  have accepted : obey calm (.validate data) state = (.ok (), state) := Prod.ext loaded rfl
  refine wp_calm accepted (wp_calm rfl (wp_tryCatch ?_))
  refine wp_mono (wp_replaceAll loaded filled writes) fun outcome middle stored => ?_
  cases outcome with
  | ok value => exact stored
  | error error => exact wp_calm rfl (wp_throw stored)

variable {Φ : Type} [Floating Φ] {isalnum : CodePoint → Bool} {resolve : Str → Str}
  {body : List (Str × Value Φ)} {prepared : Prepared Φ}

/-- A platform that is saved on a calm machine leaves its variables in the file. -/
theorem savePlatform_stores (accepted : platform body = .ok prepared) (filled : prepared.env ≠ [])
    (writes : EnvironmentFiles.envWrite none prepared.env = .ok text) :
    wp (machine calm) (savePlatform body) (fun _ final => final.envFile = some text)
      (blank none) := by
  refine wp_bind (wp_raised ?_)
  rw [accepted]
  refine wp_calm rfl (wp_bind (wp_raised ?_))
  exact wp_commit (loads_calm rfl) filled writes

theorem writeText_writable {path written : Str} (writable : isWritable written = true)
    (state : Appliance) : writeText path written state =
      (.ok (), { state with files := Function.update state.files path (some written) }) := by
  rw [writeText, if_neg]
  rw [Bool.not_eq_true, List.any_eq_false]
  exact fun point member => by simpa using List.all_eq_true.mp writable point member

theorem wp_checked {arguments : List Str} {message : String}
    {post : Except Exn Unit → Appliance → Prop} (holds : post (.ok ()) state) :
    wp (machine calm) (checked arguments message) post state :=
  wp_calm rfl (wp_pure holds)

/-- A mount whose files can be written is set up on a calm machine. -/
theorem wp_persistGiven {path : Str} {mount : Option MountSpec} (can : canMount path mount = true) :
    wp (machine calm) (persistGiven path mount)
      (fun outcome final => outcome = .ok () ∧ final = { state with files := final.files })
      state := by
  cases mount with
  | none => exact wp_pure ⟨rfl, rfl⟩
  | some spec =>
    rw [canMount, Bool.and_eq_true, Bool.or_eq_true] at can
    obtain ⟨credentials, unit⟩ := can
    refine wp_calm rfl (wp_calm rfl (wp_bind ?_))
    refine wp_pure ?_
    have written : wp (machine calm) (writeCredentials path spec)
        (fun outcome final => outcome = .ok () ∧ final = { state with files := final.files })
        state := by
      unfold writeCredentials
      cases kind : spec.mount_type with
      | nfs => exact wp_pure ⟨rfl, rfl⟩
      | cifs =>
        have writable := credentials.resolve_left (by rw [kind]; decide)
        exact wp_calm (writeText_writable writable _) (wp_calm_last rfl ⟨rfl, rfl⟩)
    refine wp_bind (wp_mono written fun outcome middle done => ?_)
    obtain ⟨rfl, same⟩ := done
    refine wp_calm (writeText_writable unit _) (wp_calm rfl ?_)
    refine wp_bind (wp_checked (wp_bind (wp_checked (wp_checked ⟨rfl, ?_⟩))))
    rw [same]

/-- A storage target that is saved on a calm machine leaves its variables in the file. -/
theorem saveStorage_stores {mount : Option MountSpec} (accepted : replica body = .ok prepared)
    (asked : mountOf resolve body = .ok mount) (filled : prepared.env ≠ [])
    (can : canMount (credentialsPath isalnum body) mount = true)
    (writes : EnvironmentFiles.envWrite none prepared.env = .ok text) :
    wp (machine calm) (saveStorage isalnum resolve body) (fun _ final => final.envFile = some text)
      (blank none) := by
  refine wp_bind (wp_raised ?_)
  rw [accepted]
  refine wp_bind (wp_raised ?_)
  rw [asked]
  refine wp_calm rfl (wp_bind (wp_raised ?_))
  refine wp_calm (Prod.ext (loads_calm rfl) rfl) ?_
  refine wp_bind (wp_mono (wp_persistGiven can) fun outcome middle done => ?_)
  obtain ⟨rfl, same⟩ := done
  refine wp_commit (loads_calm rfl) filled ?_
  rw [same]
  exact writes

/-- Commands that remove no file. -/
def KeepsFiles (command : Command) : Prop :=
  ∀ world state path, ((state : Appliance).files path).isSome →
    ((obey world command state).2.files path).isSome

theorem keeps_file {α : Type} {program : Prog α} (issues : Issues KeepsFiles program)
    (path : Str) : Keeps (machine calm) (fun state => (state.files path).isSome) program := by
  intro state kept
  refine wp_machine ?_
  refine @issues_run appliance Exn _ _ _ (handler calm) program
    (fun after => (after.files path).isSome) issues ?_ state kept
  intro command middle keeps kept
  rw [handler_obeys calm rfl]
  exact keeps calm middle path kept

theorem writeFile_keepsFiles (path text : Str) : KeepsFiles (.writeFile path text) := by
  intro world state other kept
  show ((writeText path text state).2.files other).isSome
  unfold writeText
  by_cases same : other = path
  · subst same
    split <;> simp
  · split <;> simpa [Function.update_of_ne same] using kept

theorem setVariable_keepsFiles (key : String) (value : Str) :
    KeepsFiles (.setVariable key value) := by
  intro world state path kept
  unfold obey
  dsimp only
  split <;> exact kept

theorem issues_checked (arguments : List Str) (message : String) :
    Issues KeepsFiles (checked arguments message) := by
  refine issues_bind (issues_ask fun _ _ _ kept => kept) fun succeeded => ?_
  cases succeeded with
  | true => exact issues_pure ()
  | false => exact issues_throw _

theorem issues_commit (data : Dict) (env : List (String × Str)) :
    Issues KeepsFiles (commit data env) := by
  have raises : ∀ outcome : Except Exn String, Issues KeepsFiles (raised outcome : Prog String) := by
    intro outcome
    cases outcome with
    | ok value => exact issues_pure value
    | error error => exact issues_throw error
  have stores : Issues KeepsFiles (storeEnv env) := by
    unfold storeEnv
    split
    · exact issues_pure ()
    · refine issues_bind ?_ fun _ => ?_
      · exact issues_bind (issues_ask fun _ _ _ kept => kept) fun file =>
          issues_bind (raises _) fun _ => issues_ask fun _ _ _ kept => kept
      · exact issues_bind (issues_ask fun _ _ _ kept => kept) fun file =>
          issues_each fun _ _ => issues_ask (setVariable_keepsFiles _ _)
  refine issues_bind (issues_ask fun _ _ _ kept => kept) fun _ => ?_
  refine issues_bind (issues_ask fun _ _ _ kept => kept) fun previous => ?_
  refine issues_tryCatch ?_ fun error => ?_
  · refine issues_bind ?_ fun _ => issues_bind stores fun _ => issues_ask fun _ _ _ kept => kept
    exact issues_bind (issues_ask fun _ _ _ kept => kept) fun _ =>
      issues_ask fun _ _ _ kept => kept
  · exact issues_bind (issues_ask fun _ _ _ kept => kept) fun _ => issues_throw error

/-- What is reached first is kept by the rest. -/
theorem wp_reach {α β : Type} {program : Prog α} {next : α → Prog β} {path : Str}
    (reached : wp (machine calm) program (fun _ final => (final.files path).isSome) state)
    (rest : ∀ value, Issues KeepsFiles (next value)) :
    wp (machine calm) (program >>= next) (fun _ final => (final.files path).isSome) state := by
  refine wp_bind (wp_mono reached fun outcome middle kept => ?_)
  cases outcome with
  | ok value => exact keeps_file (rest value) path middle kept
  | error error => exact kept

theorem wp_writeFile (path text : Str) (state : Appliance) :
    wp (machine calm) (ask (.writeFile path text))
      (fun _ final => (final.files path).isSome) state := by
  refine wp_perform trivial fun answer _ => ?_
  show ((handler calm (.writeFile path text) state).2.files path).isSome
  rw [handler_obeys calm rfl]
  show ((writeText path text state).2.files path).isSome
  unfold writeText
  split <;> simp

/-- A share that is saved on a calm machine leaves its credentials behind. -/
theorem saveStorage_writes {spec : MountSpec} (accepted : replica body = .ok prepared)
    (asked : mountOf resolve body = .ok (some spec)) (shared : spec.mount_type = .cifs) :
    wp (machine calm) (saveStorage isalnum resolve body)
      (fun _ final => (final.files (credentialsPath isalnum body)).isSome) (blank none) := by
  refine wp_bind (wp_raised ?_)
  rw [accepted]
  refine wp_bind (wp_raised ?_)
  rw [asked]
  refine wp_calm rfl (wp_bind (wp_raised ?_))
  refine wp_calm (Prod.ext (loads_calm rfl) rfl) (wp_reach ?_ fun _ => issues_commit _ _)
  refine wp_calm rfl (wp_calm rfl (wp_bind (wp_pure (wp_reach ?_ fun _ => ?_))))
  · rw [writeCredentials, shared]
    exact wp_reach (wp_writeFile _ _ _) fun _ => issues_ask fun _ _ _ kept => kept
  · refine issues_bind (issues_ask (writeFile_keepsFiles _ _)) fun _ => ?_
    refine issues_bind (issues_ask fun _ _ _ kept => kept) fun _ => ?_
    exact issues_bind (issues_checked _ _) fun _ =>
      issues_bind (issues_checked _ _) fun _ => issues_checked _ _

/-- The test of a target with a leaking variable leaves it behind. -/
theorem examineWith_leaves {file : Option String} {key : String} {value : Str}
    (fails : ((merged file env).all fun entry => isSettable entry.2) = false)
    (set : setEach (fun _ => none) (merged file env) key = some value) :
    wp (machine calm) (examineWith env) (fun _ final => final.environ key = some value)
      (blank file) := by
  refine wp_calm rfl (wp_calm rfl (wp_machine ?_))
  have stuck : ¬ ((merged (blank file).envFile env).all fun entry => isSettable entry.2) = true := by
    rw [Bool.not_eq_true]
    exact fails
  rw [run_temporaryEnv, if_neg stuck]
  exact set

end Reaching

section Exactness

variable {Φ : Type} [Floating Φ] {isalnum : CodePoint → Bool} {resolve : Str → Str}

theorem examineWith_leaks {env : List (String × Str)} {key : String}
    (keys : (env.map (·.1)).Nodup ∧ "_" ∉ env.map (·.1)) (leaks : Leaks env key) :
    ∃ file value, known file key ≠ some value ∧
      wp (machine calm) (examineWith env) (fun _ final => final.environ key = some value)
        (blank file) := by
  obtain ⟨file, value, fails, other, set⟩ := leak_left keys.1 keys.2 leaks
  exact ⟨file, value, other, examineWith_leaves fails set⟩

/-- A variable that is left behind is not as it was, and not as it is in the file. -/
theorem left_behind {file : Option String} {key : String} {value : Str} {after : Appliance}
    (other : known file key ≠ some value) (left : after.environ key = some value)
    (loaded : after.environ key = (blank file).environ key ∨ ∃ value,
      known (blank file).envFile key = some value ∧ after.environ key = some value) : False := by
  rcases loaded with same | ⟨stored, found, set⟩
  · rw [left] at same
    cases same
  · rw [left] at set
    exact other (set ▸ found)

/-- A request keeps the credentials of another target, on every machine and in every state,
exactly when nothing that it writes falls on them. -/
theorem keeps_iff_apart {action : Action Φ} {other : Referred} :
    (∀ world state, Kept other state
      (run (handler world) (action.program isalnum resolve) state).2) ↔
        action.Apart isalnum resolve other := by
  refine ⟨fun keeps => ?_, fun apart world state =>
    wp_run (action.spares apart state (Kept.refl other state))⟩
  cases action with
  | savePlatform body =>
    intro prepared accepted whole key named assigns
    obtain ⟨text, value, writes, found⟩ :=
      known_assigned (platform_nodup accepted).1 whole assigns
    have filled : prepared.env ≠ [] := by
      obtain ⟨update, listed, _⟩ := assigns
      exact List.ne_nil_of_mem listed
    have stored := wp_run (savePlatform_stores accepted filled writes)
    have same := (keeps calm (blank none)).stored key named
    rw [Action.program, stored, found] at same
    cases same
  | testPlatform body =>
    intro prepared accepted key named leaks
    obtain ⟨file, value, other, leaves⟩ := examineWith_leaks (platform_nodup accepted) leaks
    have ends : wp (machine calm) (ManagementService.testPlatform body)
        (fun _ final => final.environ key = some value) (blank file) := by
      refine wp_bind (wp_raised ?_)
      rw [accepted]
      exact leaves
    exact left_behind other (wp_run ends) ((keeps calm (blank file)).loaded key named)
  | saveStorage body =>
    intro prepared mount accepted asked
    constructor
    · intro safe own same
      cases mount with
      | none => cases own
      | some spec =>
        unfold shareOf at own
        dsimp only at own
        split at own
        · cases own
        · rename_i shared
          obtain rfl := Option.some.inj own
          have wrote : ((run (handler calm) (ManagementService.saveStorage isalnum resolve body)
              (blank none)).2.files (credentialsPath isalnum body)).isSome :=
            wp_run (saveStorage_writes accepted asked shared)
          have kept : (run (handler calm) (ManagementService.saveStorage isalnum resolve body)
              (blank none)).2.files (credentialsPath isalnum body) = none :=
            (keeps calm (blank none)).credentials _ same
          rw [kept] at wrote
          cases wrote
    · intro whole can key named assigns
      obtain ⟨text, value, writes, found⟩ :=
        known_assigned (replica_nodup accepted).1 whole assigns
      have filled : prepared.env ≠ [] := by
        obtain ⟨update, listed, _⟩ := assigns
        exact List.ne_nil_of_mem listed
      have stored := wp_run (saveStorage_stores accepted asked filled can writes)
      have same := (keeps calm (blank none)).stored key named
      rw [Action.program, stored, found] at same
      cases same
  | testStorage body =>
    intro direct prepared accepted key named leaks
    obtain ⟨file, value, other, leaves⟩ := examineWith_leaks (replica_nodup accepted) leaks
    have ends : wp (machine calm) (ManagementService.testStorage isalnum resolve body)
        (fun _ final => final.environ key = some value) (blank file) := by
      rw [ManagementService.testStorage, if_neg direct]
      refine wp_bind (wp_raised ?_)
      rw [accepted]
      exact leaves
    exact left_behind other (wp_run ends) ((keeps calm (blank file)).loaded key named)

/-- Whatever a request is about, it keeps the credentials of another target exactly when no
line of what it writes assigns a variable of the other one, when nothing of its own that
stays behind a failed test is such a variable, and when the credentials of the two shares,
if both have some, are in files of different names. -/
theorem keeps_credentials_iff (action : Action Φ) (target : Target Φ) :
    (∀ other, target.referred isalnum resolve = .ok other → ∀ world state, Kept other state
      (run (handler world) (action.program isalnum resolve) state).2) ↔
        ∀ other, target.referred isalnum resolve = .ok other →
          action.Apart isalnum resolve other :=
  forall₂_congr fun _ _ => keeps_iff_apart

/-- A hypervisor under a name. -/
def center (named : String) : List (Str × Value Constant) :=
  [(str "name", .text (str named)), (str "type", .text (str "vmware")),
    (str "endpoint", .text (str "vc.example")), (str "username", .text (str "svc")),
    (str "password", .text (str "secret"))]

/-- The hypervisors `vc-1` and `vc 1` share their variables. -/
theorem center_overwritten : ¬ ∀ (action : Action Constant) (target : Target Constant),
    action.name ≠ target.name → ∀ other,
      target.referred (fun _ => true) id = .ok other → ∀ world state,
        Kept other state (run (handler world) (action.program (fun _ => true) id) state).2 := by
  intro claimed
  have made : platform (center "vc-1") = .ok _ := rfl
  have referred : Target.referred (fun _ => true) id (.platform (center "vc 1")) = .ok _ := rfl
  have apart := keeps_iff_apart.mp (claimed (.savePlatform (center "vc-1"))
    (.platform (center "vc 1")) (by decide) _ referred)
  have named : isVariable (usernameVariable "VC_1").toList = true := by decide
  refine apart _ made (by decide) (usernameVariable "VC_1") (by decide)
    ⟨(usernameVariable "VC_1", str "svc"), by decide, by decide, ?_⟩
  exact readings_own named _

end Exactness

end Immutavault.CredentialConflicts
