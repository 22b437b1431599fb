import Mathlib.Data.List.Infix
import Immutavault.BucketLocks

/-!
# Mounted targets

A replica in a directory may be required to lie on a file system of its own. The health of
a target asks which mount contains the directory, and compares its type and its source with
what is configured. Beside that it asks whether the repository answers, and for a bucket
whether its rules are in force.

Every path lies on some mount, if only on the one at the top. That a mount was found says
therefore nothing about a file system of its own: a target whose directory is not mounted
has a good health whenever the top of the host passes the other checks.
-/

namespace Immutavault.MountChecks

open Programs Values Timestamps Configuration ResticRepository Machine ProviderLocks BucketLocks

section Tables

/-- A mounted file system, by the names that lead to its mount point from the top. -/
structure Mount (κ : Type) where
  target : List κ
  source : Option String := none
  fstype : Option String := none

variable {κ : Type}

/-- Of two mounts above a path the deeper one, or the later one of the same mount point. -/
def deeper (best : Option (Mount κ)) (mount : Mount κ) : Option (Mount κ) :=
  if best.all fun other => other.target.length ≤ mount.target.length then some mount else best

variable {mounts : List (Mount κ)} {path : List κ} {mount : Mount κ}

/-- No mount is passed over by a shallower one. -/
theorem foldl_deeper {best : Option (Mount κ)} (chosen : mounts.foldl deeper best = some mount) :
    (mount ∈ mounts ∨ best = some mount) ∧
      ∀ other, other ∈ mounts ∨ best = some other → other.target.length ≤ mount.target.length := by
  induction mounts generalizing best with
  | nil =>
    dsimp only [List.foldl_nil] at chosen
    subst chosen
    refine ⟨Or.inr rfl, ?_⟩
    rintro other (member | same)
    · exact absurd member List.not_mem_nil
    · cases same
      exact le_rfl
  | cons first rest inductionHypothesis =>
    rw [List.foldl_cons, deeper] at chosen
    split at chosen
    · rename_i shallow
      obtain ⟨member, most⟩ := inductionHypothesis chosen
      have own := most first (Or.inr rfl)
      refine ⟨Or.inl ?_, ?_⟩
      · rcases member with later | same
        · exact List.mem_cons_of_mem _ later
        · cases same
          exact List.mem_cons_self
      · rintro other (member | same)
        · rcases List.mem_cons.mp member with rfl | later
          · exact own
          · exact most other (Or.inl later)
        · subst same
          exact le_trans (by simpa using shallow) own
    · rename_i deep
      obtain ⟨member, most⟩ := inductionHypothesis chosen
      refine ⟨member.imp_left (List.mem_cons_of_mem _), ?_⟩
      rintro other (member | same)
      · rcases List.mem_cons.mp member with rfl | later
        · cases best with
          | none => simp at deep
          | some former =>
            have below : other.target.length < former.target.length := by simpa using deep
            exact below.le.trans (most former (Or.inr rfl))
        · exact most other (Or.inl later)
      · exact most other (Or.inr same)

variable [DecidableEq κ]

/-- The mount that contains a path: the deepest one above it. -/
def containing (mounts : List (Mount κ)) (path : List κ) : Option (Mount κ) :=
  (mounts.filter fun mount => mount.target <+: path).foldl deeper none

/-- A path lies on a file system of its own. -/
def Separate (mounts : List (Mount κ)) (path : List κ) : Prop :=
  ∃ mount, containing mounts path = some mount ∧ mount.target ≠ []

/-- The mount that contains a path is the deepest above it: the mount points of all others
above it are above its own. -/
theorem containing_spec (contains : containing mounts path = some mount) :
    mount ∈ mounts ∧ mount.target <+: path ∧
      ∀ other ∈ mounts, other.target <+: path → other.target <+: mount.target := by
  obtain ⟨chosen, most⟩ := foldl_deeper contains
  have member := chosen.resolve_right (fun impossible => by cases impossible)
  rw [List.mem_filter, decide_eq_true_eq] at member
  refine ⟨member.1, member.2, fun other within leads => ?_⟩
  exact List.prefix_of_prefix_length_le leads member.2
    (most other (Or.inl (List.mem_filter.mpr ⟨within, by simpa using leads⟩)))

/-- A mount contains a path when any mount is above it. -/
theorem containing_of_above (member : mount ∈ mounts) (leads : mount.target <+: path) :
    ∃ deepest, containing mounts path = some deepest := by
  have some_of_some : ∀ (others : List (Mount κ)) (best : Mount κ),
      ∃ deepest, others.foldl deeper (some best) = some deepest := by
    intro others
    induction others with
    | nil => exact fun best => ⟨best, rfl⟩
    | cons first rest inductionHypothesis =>
      intro best
      rw [List.foldl_cons, deeper]
      split
      · exact inductionHypothesis first
      · exact inductionHypothesis best
  have within : mount ∈ mounts.filter fun mount => mount.target <+: path :=
    List.mem_filter.mpr ⟨member, by simpa using leads⟩
  rw [containing]
  cases listed : mounts.filter fun mount => decide (mount.target <+: path) with
  | nil =>
    rw [listed] at within
    exact absurd within List.not_mem_nil
  | cons first rest => exact some_of_some rest first

/-- A path lies on a file system of its own exactly when something is mounted above it, below
the top. -/
theorem separate_iff : Separate mounts path ↔
    ∃ mount ∈ mounts, mount.target ≠ [] ∧ mount.target <+: path := by
  constructor
  · rintro ⟨mount, contains, below⟩
    obtain ⟨member, leads, _⟩ := containing_spec contains
    exact ⟨mount, member, below, leads⟩
  · rintro ⟨mount, member, below, leads⟩
    obtain ⟨deepest, contains⟩ := containing_of_above member leads
    have under := (containing_spec contains).2.2 mount member leads
    exact ⟨deepest, contains, fun top => below (List.prefix_nil.mp (top ▸ under))⟩

end Tables

/-- What the health of a target asks for: directories, commands and the rules of a bucket. -/
inductive Inspection where
  | mkdir (path : String)
  | findmnt (path : String)
  | which (name : String)
  | restic (argv : List String) (env : List (String × String))
  | r2BucketLockStatus (cfg : ReplicaConfig)

@[reducible] def Inspection.Answer : Inspection → Type
  | .mkdir _ => Unit
  | .findmnt _ | .restic .. => CommandResult
  | .which _ => Bool
  | .r2BucketLockStatus _ => LockStatus

/-- The command line that finds the mount of a path. -/
def findmntArgv (path : String) : List String :=
  ["findmnt", "-J", "-T", path, "-o", "TARGET,SOURCE,FSTYPE"]

abbrev inspection : Interface := ⟨Inspection, Inspection.Answer⟩

abbrev InspectionProg (α : Type) := Program inspection Exn α

def ask (command : Inspection) : InspectionProg command.Answer :=
  @Program.perform inspection Exn command

section Health

/-- What is known about the mount of a path. -/
structure MountInfo where
  mounted : Bool := false
  source : Option String := none
  fstype : Option String := none

/-- A text field of a row, when there is one. -/
def textField (row : Dict) (key : String) : Option String :=
  match Dict.get? row key with
  | some (.str text) => some text
  | _ => none

/-- The first row of a report about file systems. A report that cannot be read has none. -/
def mountInfoOf (report : Except Exn Json) : MountInfo :=
  match report with
  | .ok (.obj fields) =>
    match Dict.get? fields "filesystems" with
    | some (.arr (.obj row :: _)) => ⟨true, textField row "source", textField row "fstype"⟩
    | _ => {}
  | _ => {}

def mountInfo (path : String) : InspectionProg MountInfo := do
  ask (.mkdir path)
  let result : CommandResult ← ask (.findmnt path)
  if result.returncode ≠ 0 then return {}
  else return mountInfoOf result.json

/-- A configured text that is not empty does not occur in a known one. -/
def misses (configured found : Option String) : Bool :=
  match configured.filter (· ≠ ""), found.filter (· ≠ "") with
  | some part, some whole => ¬ part.toList <:+: whole.toList
  | _, _ => false

variable (cfg : ReplicaConfig) (getenv : Environ)

/-- What is wrong with a mount. -/
def mountProblems (info : MountInfo) : List String :=
  (if cfg.mount_required ∧ ¬ info.mounted then
    ["filesystem target is configured mount_required=true but is not a separate mounted filesystem"]
  else []) ++
  (if misses (cfg.mount_type.map lowered) (info.fstype.map lowered) then
    let found := info.fstype.getD ""
    let expected := cfg.mount_type.getD ""
    [s!"mounted filesystem type is {found}, expected {expected}"]
  else []) ++
  if misses cfg.mount_source info.source then
    let found := info.source.getD ""
    let expected := cfg.mount_source.getD ""
    [s!"mounted source is {found}, expected to contain {expected}"]
  else []

/-- A text, or nothing. -/
def orNull (text : Option String) : Json :=
  match text with
  | some text => .str text
  | none => .null

/-- Problems, and what is shown beside them. -/
abbrev Findings := List String × Dict

def filesystemHealth : InspectionProg Findings := do
  if cfg.backend ≠ .filesystem then return ([], [])
  else
    let path := cfg.path.getD ""
    let unavailable : List String ← tryCatch (do ask (.mkdir path); return []) fun exc =>
      if exc.kind.isOSError then pure [s!"filesystem path unavailable: {exc.message}"]
      else throw exc
    let info ← mountInfo path
    return (unavailable ++ mountProblems cfg info, [("mounted", .bool info.mounted),
      ("mount_source", orNull info.source), ("mount_type", orNull info.fstype)])

def resticHealth (env : List (String × String)) : InspectionProg Findings := do
  let installed : Bool ← ask (.which "restic")
  if installed then
    let result : CommandResult ←
      ask (.restic (["restic"] ++ resticOptions cfg ++ ["snapshots", "--json"]) env)
    return (if result.returncode ≠ 0 then
        ["restic repository is not initialized or not reachable"] else [],
      [("restic_repository_reachable", .bool (result.returncode = 0))])
  else return (["restic is not installed"], [])

def lockHealth : InspectionProg Findings := do
  if cfg.provider = "cloudflare_r2" ∧ cfg.r2_bucket_lock_enabled then
    match setting getenv cfg.r2_account_id_env, setting getenv cfg.r2_api_token_env with
    | some _, some _ =>
      tryCatch (do
        let lock : LockStatus ← ask (.r2BucketLockStatus cfg)
        return (if lock.enabled then [] else
          ["Cloudflare R2 Bucket Lock rules are incomplete or disabled"],
          [("provider_lock", .obj lock.details)]))
        fun exc => pure ([s!"Cloudflare R2 Bucket Lock verification failed: {exc.message}"], [])
    | _, _ => return ([], [("provider_lock", .obj [("configured", .bool true),
        ("verified", .bool false), ("note",
          .str "admin Cloudflare credentials are not loaded in this service environment")])])
  else return ([], [])

/-- Whether a target is fit for use, what is wrong with it, and what is shown. -/
structure Health where
  ok : Bool
  problems : List String
  details : Dict

def targetHealth : InspectionProg Health := do
  let repository ← raised (resticTargetUrl cfg)
  let details : Dict := [("name", .str cfg.name), ("backend", .str cfg.backend.text),
    ("repository", .str repository)]
  match targetEnv cfg getenv with
  | .error exc => return ⟨false, [exc.message], details⟩
  | .ok env =>
    let (mount, shown) ← filesystemHealth cfg
    let (restic, reachable) ← resticHealth cfg env
    let (lock, locked) ← lockHealth cfg getenv
    let problems := mount ++ restic ++ lock
    return ⟨problems.isEmpty, problems, details ++ shown ++ reachable ++ locked⟩

end Health

section Runs

/-- A host: its mounts and where paths lead, how the commands of a check fare, the bucket of
a target and its rules. -/
structure Host (κ : Type) where
  mounts : List (Mount κ)
  place : String → List κ
  mkdir : Nat → Except Exn Unit := fun _ => .ok ()
  findmnt : String → Except Exn CommandResult
  installed : String → Bool := fun _ => true
  restic : List String → List (String × String) → Except Exn CommandResult
  bucket : Bucket := ⟨0, none, none⟩
  rules : List R2Rule := []

variable {κ : Type}

/-- The host answers; the state is the number of directories that were asked for. -/
def Host.handler (host : Host κ) : Handler inspection Exn Nat
  | .mkdir _, made => (host.mkdir made, made + 1)
  | .findmnt path, made => (host.findmnt path, made)
  | .which name, made => (.ok (host.installed name), made)
  | .restic argv env, made => (host.restic argv env, made)
  | .r2BucketLockStatus cfg, made =>
    ((run host.bucket.handler (BucketLocks.r2BucketLockStatus cfg) host.rules).1, made)

/-- What is reported about a mount. -/
def report (target : String) (mount : Mount κ) : Json :=
  .obj [("filesystems", .arr [.obj [("target", .str target), ("source", orNull mount.source),
    ("fstype", orNull mount.fstype)]])]

variable {host : Host κ} {cfg : ReplicaConfig} {getenv : Environ} {made : Nat}

theorem run_ask (command : Inspection) :
    run host.handler (ask command) made = host.handler command made :=
  run_perform host.handler command made

/-- A check finds no problem. -/
def Clean (host : Host κ) (program : InspectionProg Findings) (made : Nat) : Prop :=
  ∃ shown after, run host.handler program made = (.ok ([], shown), after)

/-- A report is read as it was made. -/
theorem mountInfoOf_report (target : String) (mount : Mount κ) :
    mountInfoOf (.ok (report target mount)) = ⟨true, mount.source, mount.fstype⟩ := by
  obtain ⟨path, source, fstype⟩ := mount
  cases source <;> cases fstype <;>
    simp [mountInfoOf, report, orNull, textField, Dict.get?]

theorem clean_pure {findings : Findings} :
    Clean host (pure findings) made ↔ findings.1 = [] := by
  constructor
  · rintro ⟨shown, after, same⟩
    cases same
    rfl
  · intro none
    exact ⟨findings.2, made, by rw [← none]; rfl⟩

/-- A check that asks finds no problem when it is answered and finds none in the answer. -/
theorem clean_ask {command : Inspection} {next : command.Answer → InspectionProg Findings} :
    Clean host (ask command >>= next) made ↔
      ∃ value, (host.handler command made).1 = .ok value ∧
        Clean host (next value) (host.handler command made).2 := by
  rw [Clean, run_bind, run_ask]
  rcases host.handler command made with ⟨error | value, after⟩
  · refine iff_of_false ?_ ?_
    · rintro ⟨_, _, impossible⟩
      cases impossible
    · rintro ⟨_, impossible, _⟩
      cases impossible
  · constructor
    · exact fun clean => ⟨value, rfl, clean⟩
    · rintro ⟨_, same, clean⟩
      cases same
      exact clean

/-- The repository of a target answers. -/
theorem clean_restic (env : List (String × String)) :
    Clean host (resticHealth cfg env) made ↔ host.installed "restic" = true ∧
      ∃ result, host.restic (["restic"] ++ resticOptions cfg ++ ["snapshots", "--json"]) env =
        .ok result ∧ result.returncode = 0 := by
  rw [resticHealth, clean_ask]
  dsimp only [Host.handler]
  cases installed : host.installed "restic" with
  | false =>
    refine iff_of_false ?_ fun checked => by cases checked.1
    rintro ⟨_, same, clean⟩
    cases same
    exact absurd (clean_pure.mp clean) (by simp)
  | true =>
    rw [and_iff_right rfl]
    constructor
    · rintro ⟨_, same, clean⟩
      cases same
      obtain ⟨result, answered, clean⟩ := clean_ask.mp clean
      refine ⟨result, answered, ?_⟩
      by_contra unreached
      rw [if_pos unreached] at clean
      exact absurd (clean_pure.mp clean) (by simp)
    · rintro ⟨result, answered, reached⟩
      refine ⟨true, rfl, clean_ask.mpr ⟨result, answered, clean_pure.mpr ?_⟩⟩
      exact if_neg (not_not.mpr reached)

/-- What the status of a bucket comes to. -/
theorem run_r2BucketLockStatus (provider : cfg.provider = "cloudflare_r2") (bucket : Bucket)
    (rules : List R2Rule) :
    (run bucket.handler (BucketLocks.r2BucketLockStatus cfg) rules).1 =
      match bucket.reading with
      | some error => .error error
      | none => .ok (statusOf cfg rules bucket.now) := by
  rw [BucketLocks.r2BucketLockStatus, if_neg (not_not.mpr provider), run_bind, BucketLocks.run_ask]
  dsimp only [Bucket.handler]
  cases bucket.reading <;> rfl

/-- The bucket of a target is locked, if there is one and it may be asked. -/
theorem clean_lock : Clean host (lockHealth cfg getenv) made ↔
    (cfg.provider = "cloudflare_r2" → cfg.r2_bucket_lock_enabled = true →
      setting getenv cfg.r2_account_id_env ≠ none → setting getenv cfg.r2_api_token_env ≠ none →
        host.bucket.reading = none ∧ (statusOf cfg host.rules host.bucket.now).enabled = true) := by
  rw [lockHealth]
  by_cases locks : cfg.provider = "cloudflare_r2" ∧ cfg.r2_bucket_lock_enabled = true
  · rw [if_pos locks, forall_prop_of_true locks.1, forall_prop_of_true locks.2]
    split
    · rename_i account token
      rw [account, token, forall_prop_of_true (by simp), forall_prop_of_true (by simp)]
      rw [Clean, run_tryCatch, run_bind, run_ask]
      dsimp only [Host.handler]
      rw [run_r2BucketLockStatus locks.1]
      cases host.bucket.reading with
      | some error =>
        refine iff_of_false ?_ fun checked => by cases checked.1
        rintro ⟨shown, after, impossible⟩
        cases impossible
      | none =>
        dsimp only
        rw [and_iff_right rfl]
        by_cases enabled : (statusOf cfg host.rules host.bucket.now).enabled = true
        · rw [if_pos enabled]
          exact iff_of_true ⟨_, _, rfl⟩ enabled
        · rw [if_neg enabled]
          refine iff_of_false ?_ enabled
          rintro ⟨shown, after, impossible⟩
          cases impossible
    · rename_i unset
      refine iff_of_true (clean_pure.mpr rfl) fun account token => ?_
      obtain ⟨id, known⟩ := Option.ne_none_iff_exists'.mp account
      obtain ⟨secret, given⟩ := Option.ne_none_iff_exists'.mp token
      exact absurd given (unset _ _ known)
  · rw [if_neg locks]
    exact iff_of_true (clean_pure.mpr rfl) fun provider enabled => absurd ⟨provider, enabled⟩ locks

variable [DecidableEq κ]

/-- When a mount is found for a path, it is reported, and it is the one that contains it. -/
def Reports (host : Host κ) (path : String) : Prop :=
  ∀ result, host.findmnt path = .ok result → result.returncode = 0 →
    ∃ mount target, containing host.mounts (host.place path) = some mount ∧
      result.json = .ok (report target mount)

/-- Every check of a target passes, whatever its directory is mounted on: its environment is
complete, its directory is there, a mount is found and not at odds with what is configured,
its repository answers, and its bucket, if it has one, is locked. -/
structure Passes (host : Host κ) (cfg : ReplicaConfig) (getenv : Environ) : Prop where
  made : host.mkdir 0 = .ok () ∧ host.mkdir 1 = .ok ()
  found : ∃ result, host.findmnt (cfg.path.getD "") = .ok result ∧ result.returncode = 0
  fits : ∀ mount, containing host.mounts (host.place (cfg.path.getD "")) = some mount →
    misses (cfg.mount_type.map lowered) (mount.fstype.map lowered) = false ∧
      misses cfg.mount_source mount.source = false
  installed : host.installed "restic" = true
  reachable : ∃ env result, targetEnv cfg getenv = .ok env ∧
    host.restic (["restic"] ++ resticOptions cfg ++ ["snapshots", "--json"]) env = .ok result ∧
      result.returncode = 0
  locked : cfg.provider = "cloudflare_r2" → cfg.r2_bucket_lock_enabled = true →
    setting getenv cfg.r2_account_id_env ≠ none → setting getenv cfg.r2_api_token_env ≠ none →
      host.bucket.reading = none ∧ (statusOf cfg host.rules host.bucket.now).enabled = true

/-- What is found about a mount is no problem when it is not at odds with what is configured. -/
theorem mountProblems_eq_nil {info : MountInfo} (mounted : info.mounted = true) :
    mountProblems cfg info = [] ↔
      misses (cfg.mount_type.map lowered) (info.fstype.map lowered) = false ∧
        misses cfg.mount_source info.source = false := by
  simp [mountProblems, mounted]

/-- The directory of a target is there, a mount is found, and it is not at odds with what is
configured. -/
theorem clean_filesystem (filesystem : cfg.backend = .filesystem)
    (required : cfg.mount_required = true) (reports : Reports host (cfg.path.getD "")) :
    Clean host (filesystemHealth cfg) 0 ↔ (host.mkdir 0 = .ok () ∧ host.mkdir 1 = .ok ()) ∧
      (∃ result, host.findmnt (cfg.path.getD "") = .ok result ∧ result.returncode = 0) ∧
      ∀ mount, containing host.mounts (host.place (cfg.path.getD "")) = some mount →
        misses (cfg.mount_type.map lowered) (mount.fstype.map lowered) = false ∧
          misses cfg.mount_source mount.source = false := by
  rw [filesystemHealth, if_neg (not_not.mpr filesystem)]
  cases first : host.mkdir 0 with
  | error error =>
    refine iff_of_false ?_ fun checked => by cases checked.1.1
    rintro ⟨shown, after, ran⟩
    obtain ⟨unavailable, _, making, rest⟩ := (run_bind_eq_ok _).mp ran
    obtain ⟨info, _, _, done⟩ := (run_bind_eq_ok _).mp rest
    rw [run_tryCatch, run_bind, run_ask] at making
    dsimp only [Host.handler] at making
    rw [first] at making
    dsimp only at making
    split at making
    · cases making
      cases done
    · cases making
  | ok _ =>
    have makes : run host.handler (tryCatch (do ask (.mkdir (cfg.path.getD "")); return [])
        fun exc => if exc.kind.isOSError then pure [s!"filesystem path unavailable: {exc.message}"]
          else throw exc) 0 = (.ok [], 1) := by
      rw [run_tryCatch, run_bind, run_ask]
      dsimp only [Host.handler]
      rw [first]
      rfl
    rw [Clean, run_bind, makes]
    change Clean host (mountInfo _ >>= _) 1 ↔ _
    rw [mountInfo, bind_assoc, clean_ask]
    dsimp only [Host.handler]
    constructor
    · rintro ⟨_, second, clean⟩
      rw [bind_assoc, clean_ask] at clean
      obtain ⟨result, answered, clean⟩ := clean
      have found : result.returncode = 0 := by
        by_contra missing
        rw [if_pos missing] at clean
        have none := clean_pure.mp clean
        simp [mountProblems, required] at none
      rw [if_neg (not_not.mpr found)] at clean
      obtain ⟨mount, target, contains, reported⟩ := reports result answered found
      have fits := clean_pure.mp clean
      rw [List.nil_append, reported, mountInfoOf_report, mountProblems_eq_nil rfl] at fits
      refine ⟨⟨rfl, second⟩, ⟨result, answered, found⟩, fun other same => ?_⟩
      cases contains.symm.trans same
      exact fits
    · rintro ⟨⟨_, second⟩, ⟨result, answered, found⟩, fits⟩
      obtain ⟨mount, target, contains, reported⟩ := reports result answered found
      refine ⟨(), second, ?_⟩
      rw [bind_assoc, clean_ask]
      refine ⟨result, answered, ?_⟩
      rw [if_neg (not_not.mpr found)]
      refine clean_pure.mpr ?_
      rw [List.nil_append, reported, mountInfoOf_report, mountProblems_eq_nil rfl]
      exact fits mount contains

/-- A target that must be mounted has a good health exactly when every check passes. -/
theorem ok_iff (filesystem : cfg.backend = .filesystem) (required : cfg.mount_required = true)
    (reports : Reports host (cfg.path.getD "")) :
    (∃ health after, run host.handler (targetHealth cfg getenv) 0 = (.ok health, after) ∧
      health.ok = true) ↔ Passes host cfg getenv := by
  constructor
  · rintro ⟨health, after, ran, good⟩
    rw [targetHealth] at ran
    cases selected : targetEnv cfg getenv with
    | error error =>
      rw [selected] at ran
      obtain ⟨repository, _, _, rest⟩ := (run_bind_eq_ok _).mp ran
      cases rest
      cases good
    | ok env =>
      obtain ⟨_, repository, _, url, _⟩ := targetEnv_shape selected
      rw [selected, url, raised_ok, pure_bind] at ran
      obtain ⟨⟨mount, shown⟩, first, mounting, rest⟩ := (run_bind_eq_ok _).mp ran
      obtain ⟨⟨restic, reachable⟩, second, reaching, rest⟩ := (run_bind_eq_ok _).mp rest
      obtain ⟨⟨lock, locked⟩, third, locking, ended⟩ := (run_bind_eq_ok _).mp rest
      cases ended
      have none : (mount ++ restic ++ lock).isEmpty = true := good
      rw [List.isEmpty_iff, List.append_eq_nil_iff, List.append_eq_nil_iff] at none
      obtain ⟨⟨rfl, rfl⟩, rfl⟩ := none
      obtain ⟨made, found, fits⟩ :=
        (clean_filesystem filesystem required reports).mp ⟨_, _, mounting⟩
      obtain ⟨installed, result, answered, reached⟩ := (clean_restic env).mp ⟨_, _, reaching⟩
      exact ⟨made, found, fits, installed, ⟨env, result, selected, answered, reached⟩,
        clean_lock.mp ⟨_, _, locking⟩⟩
  · intro passes
    obtain ⟨env, result, selected, answered, reached⟩ := passes.reachable
    obtain ⟨_, repository, _, url, _⟩ := targetEnv_shape selected
    obtain ⟨shown, first, mounting⟩ :=
      (clean_filesystem filesystem required reports).mpr ⟨passes.made, passes.found, passes.fits⟩
    obtain ⟨reachable, second, reaching⟩ := (@clean_restic κ host cfg first env).mpr
      ⟨passes.installed, result, answered, reached⟩
    obtain ⟨locked, third, locking⟩ :=
      (@clean_lock κ host cfg getenv second).mpr passes.locked
    rw [targetHealth, url, raised_ok, pure_bind, selected]
    dsimp only
    rw [run_bind, mounting]
    dsimp only
    rw [run_bind, reaching]
    dsimp only
    rw [run_bind, locking]
    exact ⟨_, third, rfl, rfl⟩

/-- A good health of a target that must be mounted means a file system of its own, exactly when
the target has one or a check fails: the top of the host may pass them all. -/
theorem separate_of_ok_iff (filesystem : cfg.backend = .filesystem)
    (required : cfg.mount_required = true) (reports : Reports host (cfg.path.getD "")) :
    (∀ health after, run host.handler (targetHealth cfg getenv) 0 = (.ok health, after) →
      health.ok = true → Separate host.mounts (host.place (cfg.path.getD ""))) ↔
      Separate host.mounts (host.place (cfg.path.getD "")) ∨ ¬ Passes host cfg getenv := by
  rw [← ok_iff filesystem required reports]
  constructor
  · intro enforced
    by_cases good : ∃ health after, run host.handler (targetHealth cfg getenv) 0 =
        (.ok health, after) ∧ health.ok = true
    · obtain ⟨health, after, ran, ok⟩ := good
      exact Or.inl (enforced health after ran ok)
    · exact Or.inr good
  · rintro (separate | bad) health after ran ok
    · exact separate
    · exact absurd ⟨health, after, ran, ok⟩ bad

/-- A replica in a directory that must be mounted. -/
def vault : ReplicaConfig where
  name := "nas"
  backend := .filesystem
  path := some "/srv/immutavault"
  mount_required := true

/-- Its password. -/
def vaultEnviron : Environ := fun name =>
  if name = "RESTIC_REPLICA_PASSWORD" then some "secret" else none

/-- A host whose commands succeed, with a disk and what else is mounted. -/
def hostWith (others : List (Mount String)) : Host String where
  mounts := ⟨[], some "/dev/sda2", some "ext4"⟩ :: others
  place := fun _ => ["srv", "immutavault"]
  findmnt := fun path => .ok {
    returncode := 0
    json :=
      match containing (⟨[], some "/dev/sda2", some "ext4"⟩ :: others) ["srv", "immutavault"] with
      | some mount => .ok (report path mount)
      | none => .error ⟨.valueError, "nothing is mounted"⟩ }
  restic := fun _ _ => .ok { returncode := 0 }

/-- The disk of such a host is above every path. -/
theorem hostWith_reports (others : List (Mount String)) (path : String) :
    Reports (hostWith others) path := by
  intro result found _
  obtain ⟨mount, contains⟩ : ∃ mount,
      containing (hostWith others).mounts ["srv", "immutavault"] = some mount :=
    containing_of_above List.mem_cons_self List.nil_prefix
  cases found
  refine ⟨mount, path, contains, ?_⟩
  have same : containing (⟨[], some "/dev/sda2", some "ext4"⟩ :: others) ["srv", "immutavault"] =
      some mount := contains
  dsimp only
  rw [same]

/-- All checks of such a host pass. -/
theorem hostWith_passes (others : List (Mount String)) :
    Passes (hostWith others) vault vaultEnviron where
  made := ⟨rfl, rfl⟩
  found := ⟨_, rfl, rfl⟩
  fits _ _ := ⟨rfl, rfl⟩
  installed := rfl
  reachable := ⟨_, _, rfl, rfl, rfl⟩
  locked provider := absurd provider (by decide)

/-- A share that is mounted on the directory. -/
def share : Mount String := ⟨["srv", "immutavault"], some "truenas:/vault", some "nfs4"⟩

/-- When the directory is mounted, a good health means so. -/
theorem separate_of_ok_mounted : vault.mount_required = true ∧
    ∀ health after, run (hostWith [share]).handler (targetHealth vault vaultEnviron) 0 =
        (.ok health, after) →
      health.ok = true → Separate (hostWith [share]).mounts ["srv", "immutavault"] :=
  ⟨rfl, (separate_of_ok_iff rfl rfl (hostWith_reports _ _)).mpr (Or.inl (separate_iff.mpr
    ⟨share, List.mem_cons_of_mem _ List.mem_cons_self, by simp [share], List.prefix_rfl⟩))⟩

/-- When it is not, the health is good all the same, as the disk of the host passes. -/
theorem ok_unmounted :
    ∃ health after, run (hostWith []).handler (targetHealth vault vaultEnviron) 0 =
        (.ok health, after) ∧ health.ok = true ∧
      ¬ Separate (hostWith []).mounts ["srv", "immutavault"] := by
  obtain ⟨health, after, ran, good⟩ :=
    (ok_iff rfl rfl (hostWith_reports [] _)).mpr (hostWith_passes [])
  refine ⟨health, after, ran, good, fun separate => ?_⟩
  obtain ⟨mount, member, below, _⟩ := separate_iff.mp separate
  cases List.mem_singleton.mp member
  exact below rfl

end Runs

end Immutavault.MountChecks
