import Immutavault.ResticRepository

/-!
# Provider-side locks

After a copy, the persistent objects of a replica are locked at its provider, up to
a moment that is counted in days from the time of the request. An S3 store locks one
object after another and keeps a retention that is longer already. The bucket rules
of R2 lock whole namespaces, one dated rule for each; rules that reach further are
kept.

A storage client answers from everything that it was asked in one call, and what it
was asked is the trace of that call. When a call returns a moment, its trace shows
that every persistent object, or every persistent namespace, is locked up to it.
-/

namespace Immutavault.ProviderLocks

open Programs Values Timestamps Configuration ResticRepository Machine

/-- When a bucket rule releases its objects. -/
inductive R2Condition where
  | indefinite
  /-- The text of the date, and the moment that it can be read as. -/
  | date (text : String) (moment : Option Timestamp)
  | other (type : String)

structure R2Rule where
  id : String
  enabled : Bool := true
  keyPrefix : String
  condition : R2Condition

/-- What a storage client is asked. A listing comes in pages, and may break off. -/
inductive Storage where
  | utcnow
  | client
  | preflight
  | listObjects (keyPrefix : String)
  | getRetention (key : String)
  | putRetention (key mode : String) (retain_until : Timestamp)
  | getRules
  | putRules (rules : List R2Rule)

@[reducible] def Storage.Answer : Storage → Type
  | .utcnow => Timestamp
  | .listObjects _ => List (List String) × Option Exn
  | .getRetention _ => Option Timestamp
  | .getRules => List R2Rule
  | .client | .preflight | .putRetention .. | .putRules _ => Unit

abbrev storage : Interface := ⟨Storage, Storage.Answer⟩

abbrev StorageProg (α : Type) := Program storage Exn α

/-- Everything that one call asked, with its answers. -/
abbrev Trace := List (Exchange storage Exn)

def ask (command : Storage) : StorageProg command.Answer := @Program.perform storage Exn command

section Objects

variable (cfg : ReplicaConfig)

/-- Where the objects of the repository are listed. -/
def listPrefix : String :=
  let base_prefix := stripCharacter '/' cfg.keyPrefix
  if base_prefix = "" then "" else base_prefix ++ "/"

/-- An object that the repository keeps; its own lock files come and go. -/
def persistentKey (key : String) : Bool :=
  key ≠ "" ∧ ¬ key.startsWith (listPrefix cfg ++ "locks/")

/-- Lock one object, unless it is transient or locked for longer; true when it was locked. -/
def lockObject (retain_until : Timestamp) (key : String) : StorageProg Bool := do
  if ¬ persistentKey cfg key then return false
  else
    let existing_until : Option Timestamp ← tryCatch (ask (.getRetention key)) fun _ => pure none
    if existing_until.any (retain_until ≤ ·) then return false
    else
      ask (.putRetention key cfg.object_lock_mode retain_until)
      return true

/-- Lock objects one after another; answers how many were locked and how many were skipped. -/
def lockObjects (retain_until : Timestamp) : List String → Nat × Nat → StorageProg (Nat × Nat)
  | [], counts => return counts
  | key :: rest, (locked, skipped) => do
    if ← lockObject cfg retain_until key then lockObjects retain_until rest (locked + 1, skipped)
    else lockObjects retain_until rest (locked, skipped + 1)

def applyObjectLock (minimum_days : Option Nat) : StorageProg LockInfo := do
  if ¬ cfg.object_lock_enabled then
    return ⟨none, [("enabled", .bool false), ("locked", .int 0), ("skipped", .int 0)]⟩
  else if cfg.backend ≠ .s3 then
    raiseValueError "provider Object Lock is only available for S3 replicas"
  else
    ask .client
    ask .preflight
    let days := max cfg.object_lock_days (minimum_days.getD 0)
    let now : Timestamp ← ask .utcnow
    let retain_until := addDays now days
    let (pages, interrupted) ← ask (.listObjects (listPrefix cfg))
    let (locked, skipped) ← lockObjects cfg retain_until pages.flatten (0, 0)
    match interrupted with
    | some error => throw error
    | none => return ⟨some retain_until, [("enabled", .bool true),
        ("mode", .str cfg.object_lock_mode), ("days", .int days),
        ("retain_until", .str (isoformat retain_until)), ("locked", .int locked),
        ("skipped", .int skipped)]⟩

end Objects

section Rules

variable (cfg : ReplicaConfig)

/-- The namespaces of a repository that persist, with the suffixes of their rules. -/
def namespaces : List (String × String) :=
  [("data/", "data"), ("index/", "index"), ("snapshots/", "snapshots"), ("keys/", "keys"),
    ("config", "config")]

/-- The rules that lock the persistent namespaces up to a moment. -/
def persistentLockSpecs (retain_until : Timestamp) : List R2Rule :=
  namespaces.map fun entry => {
    id := cfg.r2_lock_rule_id ++ "-" ++ entry.2, keyPrefix := listPrefix cfg ++ entry.1
    condition := .date ((isoformat retain_until).replace "+00:00" "Z") (some retain_until) }

/-- The rule locks its objects at least up to a moment. Rules by age do not. -/
def R2Rule.coversUntil (rule : R2Rule) (desired_until : Timestamp) : Bool :=
  rule.enabled && match rule.condition with
    | .indefinite => true
    | .date _ moment => moment.any (desired_until ≤ ·)
    | .other _ => false

/-- The last rule with an identifier, and its position. -/
def lastWithId (id : String) : List R2Rule → Option (Nat × R2Rule)
  | [] => none
  | rule :: rest =>
    match lastWithId id rest with
    | some (position, found) => some (position + 1, found)
    | none => if rule.id = id then some (0, rule) else none

/-- The rules of a bucket while they are strengthened. -/
structure Strengthening where
  rules : List R2Rule
  effective : List R2Rule := []
  changed : Bool := false

/-- Put a wanted rule in, unless the rule that stands in its place reaches as far. -/
def place (found : List R2Rule) (retain_until : Timestamp) (state : Strengthening)
    (wanted : R2Rule) : Strengthening :=
  match lastWithId wanted.id found with
  | none => {
      rules := state.rules ++ [wanted], effective := state.effective ++ [wanted]
      changed := true }
  | some (position, existing) =>
    if existing.coversUntil retain_until ∧ existing.keyPrefix = wanted.keyPrefix then
      { state with effective := state.effective ++ [existing] }
    else {
      rules := state.rules.set position wanted, effective := state.effective ++ [wanted]
      changed := true }

def strengthen (found : List R2Rule) (retain_until : Timestamp) (desired : List R2Rule) :
    Strengthening :=
  desired.foldl (place found retain_until) { rules := found }

/-- What a rule shows. -/
def R2Rule.report (rule : R2Rule) : Json :=
  .obj [("id", .str rule.id), ("enabled", .bool rule.enabled), ("prefix", .str rule.keyPrefix),
    ("condition", match rule.condition with
      | .indefinite => .obj [("type", .str "Indefinite")]
      | .date text _ => .obj [("type", .str "Date"), ("date", .str text)]
      | .other type => .obj [("type", .str type)])]

def ensureR2BucketLock (minimum_days : Option Nat) : StorageProg LockInfo := do
  if cfg.provider ≠ "cloudflare_r2" ∨ ¬ cfg.r2_bucket_lock_enabled then
    raiseValueError "Cloudflare R2 Bucket Lock is not enabled for this target"
  else
    let rules : List R2Rule ← ask .getRules
    let days := max cfg.r2_bucket_lock_days (minimum_days.getD 0)
    let now : Timestamp ← ask .utcnow
    let retain_until := addDays now days
    let kept := rules.filter fun rule =>
      ¬ (rule.id = cfg.r2_lock_rule_id ∧ rule.keyPrefix = listPrefix cfg)
    let desired := persistentLockSpecs cfg retain_until
    let strengthened := strengthen kept retain_until desired
    if strengthened.changed then
      ask (.putRules strengthened.rules)
    return ⟨some retain_until, [("enabled", .bool true),
      ("kind", .str "cloudflare_r2_bucket_lock"),
      ("strength", .str "provider_bucket_policy_admin_mutable"),
      ("rule_id_base", .str cfg.r2_lock_rule_id), ("days", .int days),
      ("retain_until", .str (isoformat retain_until)), ("changed", .bool strengthened.changed),
      ("protected_prefixes", .arr (desired.map fun rule => .str rule.keyPrefix)),
      ("transient_prefix_excluded", .str (listPrefix cfg ++ "locks/")),
      ("rules", .arr (strengthened.effective.map R2Rule.report))]⟩

end Rules

/-- How a storage client answers, from what the call asked before. -/
abbrev Client := Trace → (command : Storage) → Except Exn command.Answer

/-- A client answers, and what it was asked is kept. -/
def Client.handler (client : Client) : Handler storage Exn Trace := fun command trace =>
  (client trace command, trace ++ [⟨command, client trace command⟩])

section Locks

variable (cfg : ReplicaConfig)

/-- The provider was asked to lock this object up to the moment, now or before. -/
def ObjectLocked (trace : Trace) (horizon : Timestamp) (key : String) : Prop :=
  (∃ mode retain_until, horizon ≤ retain_until ∧
    ⟨Storage.putRetention key mode retain_until, (.ok () : Except Exn Unit)⟩ ∈ trace) ∨
  ∃ existing_until, horizon ≤ existing_until ∧
    ⟨Storage.getRetention key, (.ok (some existing_until) : Except Exn (Option Timestamp))⟩ ∈ trace

/-- All objects were listed, and every persistent one is locked up to the moment. -/
def ObjectsLocked (trace : Trace) (horizon : Timestamp) : Prop :=
  ∃ pages : List (List String),
    ⟨Storage.listObjects (listPrefix cfg),
      (.ok (pages, none) : Except Exn (List (List String) × Option Exn))⟩ ∈ trace ∧
    ∀ key ∈ pages.flatten, persistentKey cfg key → ObjectLocked trace horizon key

/-- Every persistent namespace has a rule of the bucket that locks it up to the moment. -/
def NamespacesLocked (trace : Trace) (horizon : Timestamp) : Prop :=
  ∃ rules : List R2Rule,
    (⟨Storage.getRules, (.ok rules : Except Exn (List R2Rule))⟩ ∈ trace ∨
      ⟨Storage.putRules rules, (.ok () : Except Exn Unit)⟩ ∈ trace) ∧
    ∀ entry ∈ namespaces, ∃ rule ∈ rules, rule.keyPrefix = listPrefix cfg ++ entry.1 ∧
      rule.coversUntil horizon

end Locks

section Traces

variable {α : Type} {client : Client} {cfg : ReplicaConfig}

theorem run_ask (command : Storage) (trace : Trace) :
    run client.handler (ask command) trace =
      (client trace command, trace ++ [⟨command, client trace command⟩]) :=
  run_perform client.handler command trace

/-- What was asked stays in the trace. -/
theorem trace_run (program : StorageProg α) (trace : Trace) :
    trace <+: (run client.handler program trace).2 := by
  induction program generalizing trace with
  | ret value => exact List.prefix_rfl
  | raise error => exact List.prefix_rfl
  | call command resume inductionHypothesis =>
    exact (List.prefix_append trace _).trans (inductionHypothesis (client trace command) _)

theorem trace_ran {program : StorageProg α} {trace after : Trace} {outcome : Except Exn α}
    (ran : run client.handler program trace = (outcome, after)) : trace <+: after := by
  have grown := @trace_run α client program trace
  rwa [ran] at grown

/-- An answered question is in the trace. -/
theorem ask_ran {command : Storage} {trace after : Trace} {answer : Except Exn command.Answer}
    (ran : run client.handler (ask command) trace = (answer, after)) :
    ⟨command, answer⟩ ∈ after := by
  rw [run_ask] at ran
  cases ran
  exact List.mem_append_right _ (List.mem_singleton.mpr rfl)

theorem ObjectLocked.grown {trace after : Trace} {horizon : Timestamp} {key : String}
    (locked : ObjectLocked trace horizon key) (grown : trace <+: after) :
    ObjectLocked after horizon key := by
  rcases locked with ⟨mode, retain_until, far, asked⟩ | ⟨existing_until, far, answered⟩
  · exact Or.inl ⟨mode, retain_until, far, grown.subset asked⟩
  · exact Or.inr ⟨existing_until, far, grown.subset answered⟩

/-- An object that was passed without an error is locked, unless it is transient. -/
theorem lockObject_locks {retain_until : Timestamp} {key : String} {trace after : Trace}
    {locked : Bool} (persistent : persistentKey cfg key = true)
    (ran : run client.handler (lockObject cfg retain_until key) trace = (.ok locked, after)) :
    ObjectLocked after retain_until key := by
  unfold lockObject at ran
  rw [if_neg (by simp [persistent])] at ran
  obtain ⟨existing_until, read, retention, rest⟩ := (run_bind_eq_ok _).mp ran
  split at rest
  · -- The object has a longer retention, so the client was asked for it and answered.
    rename_i longer
    cases rest
    obtain ⟨moment, known, far⟩ : ∃ moment, existing_until = some moment ∧
        retain_until ≤ moment := by
      cases existing_until with
      | none => cases longer
      | some moment => exact ⟨moment, rfl, by simpa using longer⟩
    subst known
    rw [run_tryCatch, run_ask] at retention
    cases answered : client trace (.getRetention key) with
    | ok value =>
      rw [answered] at retention
      cases retention
      exact Or.inr ⟨moment, far, List.mem_append_right _ (List.mem_singleton.mpr rfl)⟩
    | error error =>
      rw [answered] at retention
      cases retention
  · obtain ⟨_, put, asked, rest⟩ := (run_bind_eq_ok _).mp rest
    cases rest
    exact Or.inl ⟨cfg.object_lock_mode, retain_until, le_rfl, ask_ran asked⟩

/-- So is every object of a list. -/
theorem lockObjects_locks {retain_until : Timestamp} {keys : List String} {counts : Nat × Nat}
    {trace after : Trace} {final : Nat × Nat}
    (ran : run client.handler (lockObjects cfg retain_until keys counts) trace =
      (.ok final, after)) :
    ∀ key ∈ keys, persistentKey cfg key = true → ObjectLocked after retain_until key := by
  induction keys generalizing counts trace with
  | nil => exact fun key member => absurd member List.not_mem_nil
  | cons first rest inductionHypothesis =>
    obtain ⟨locked, middle, here, later⟩ := (run_bind_eq_ok _).mp ran
    have others : ∀ key ∈ rest, persistentKey cfg key = true →
        ObjectLocked after retain_until key := by
      split at later <;> exact inductionHypothesis later
    intro key member persistent
    rcases List.mem_cons.mp member with rfl | member
    · refine (lockObject_locks persistent here).grown ?_
      split at later <;> exact trace_ran later
    · exact others key member persistent

/-- A lock call of an S3 store that returns a moment has locked every persistent object. -/
theorem applyObjectLock_locks {minimum_days : Option Nat} {trace after : Trace} {lock : LockInfo}
    (enabled : cfg.object_lock_enabled = true)
    (ran : run client.handler (applyObjectLock cfg minimum_days) trace = (.ok lock, after)) :
    ∃ horizon, lock.retain_until = some horizon ∧ ObjectsLocked cfg after horizon := by
  unfold applyObjectLock at ran
  rw [if_neg (by simp [enabled])] at ran
  split at ran
  · cases ran
  obtain ⟨_, connected, _, rest⟩ := (run_bind_eq_ok _).mp ran
  obtain ⟨_, checked, _, rest⟩ := (run_bind_eq_ok _).mp rest
  obtain ⟨now, timed, _, rest⟩ := (run_bind_eq_ok _).mp rest
  obtain ⟨⟨pages, interrupted⟩, listed, listing, rest⟩ := (run_bind_eq_ok _).mp rest
  obtain ⟨⟨locked, skipped⟩, final, locking, rest⟩ := (run_bind_eq_ok _).mp rest
  cases interrupted with
  | some error => cases rest
  | none =>
    cases rest
    exact ⟨_, rfl, pages, (trace_ran locking).subset (ask_ran listing),
      lockObjects_locks locking⟩

end Traces

section Strengthened

/-- The last rule with an identifier stands at its position. -/
theorem lastWithId_spec {id : String} {rules : List R2Rule} {position : Nat} {found : R2Rule}
    (last : lastWithId id rules = some (position, found)) :
    rules[position]? = some found ∧ found.id = id := by
  induction rules generalizing position with
  | nil => cases last
  | cons rule rest inductionHypothesis =>
    unfold lastWithId at last
    split at last
    · rename_i later _ below
      cases last
      exact inductionHypothesis below
    · split at last
      · rename_i same
        cases last
        exact ⟨rfl, same⟩
      · cases last

/-- The rules keep their places and identifiers while they are strengthened, and those
whose turn has not come are untouched. -/
def Placed (found : List R2Rule) (done : List String) (rules : List R2Rule) : Prop :=
  ∀ (position : Nat) (rule : R2Rule), found[position]? = some rule →
    ∃ present : R2Rule, rules[position]? = some present ∧ present.id = rule.id ∧
      (rule.id ∉ done → present = rule)

/-- A wanted rule is in force: a rule with its identifier and its prefix reaches as far. -/
def InForce (rules : List R2Rule) (retain_until : Timestamp) (wanted : R2Rule) : Prop :=
  ∃ (position : Nat) (present : R2Rule), rules[position]? = some present ∧
    present.id = wanted.id ∧ present.keyPrefix = wanted.keyPrefix ∧
    present.coversUntil retain_until = true

variable {found : List R2Rule} {retain_until : Timestamp} {state : Strengthening}
  {wanted : R2Rule} {done : List String}

/-- What placing a rule does: nothing, or it appends the rule, or it writes the rule over
the one with its identifier. -/
theorem place_cases (found : List R2Rule) (retain_until : Timestamp) (state : Strengthening)
    (wanted : R2Rule) :
    (∃ (position : Nat) (existing : R2Rule), found[position]? = some existing ∧
      existing.id = wanted.id ∧ existing.keyPrefix = wanted.keyPrefix ∧
      existing.coversUntil retain_until = true ∧
      (place found retain_until state wanted).rules = state.rules ∧
      (place found retain_until state wanted).changed = state.changed) ∨
    ((place found retain_until state wanted).changed = true ∧
      (place found retain_until state wanted).rules = state.rules ++ [wanted]) ∨
    ∃ (position : Nat) (existing : R2Rule), found[position]? = some existing ∧
      existing.id = wanted.id ∧ (place found retain_until state wanted).changed = true ∧
      (place found retain_until state wanted).rules = state.rules.set position wanted := by
  cases last : lastWithId wanted.id found with
  | none => exact Or.inr (Or.inl ⟨by simp [place, last], by simp [place, last]⟩)
  | some entry =>
    obtain ⟨position, existing⟩ := entry
    obtain ⟨stands, same⟩ := lastWithId_spec last
    by_cases covers : existing.coversUntil retain_until ∧ existing.keyPrefix = wanted.keyPrefix
    · exact Or.inl ⟨position, existing, stands, same, covers.2, covers.1,
        by simp [place, last, covers], by simp [place, last, covers]⟩
    · exact Or.inr (Or.inr ⟨position, existing, stands, same, by simp [place, last, covers],
        by simp [place, last, covers]⟩)

/-- A rule that is appended hides none. -/
theorem getElem?_kept {rules : List R2Rule} {position : Nat} {present : R2Rule}
    (stands : rules[position]? = some present) (last : R2Rule) :
    (rules ++ [last])[position]? = some present := by
  obtain ⟨inside, _⟩ := List.getElem?_eq_some_iff.mp stands
  rw [List.getElem?_append_left inside, stands]

theorem placed_place (placed : Placed found done state.rules) :
    Placed found (wanted.id :: done) (place found retain_until state wanted).rules := by
  intro position rule stands
  obtain ⟨present, there, same, untouched⟩ := placed position rule stands
  have later : rule.id ∉ wanted.id :: done → present = rule := fun absent =>
    untouched fun member => absent (List.mem_cons_of_mem _ member)
  rcases place_cases found retain_until state wanted with
    ⟨_, _, _, _, _, _, rules, _⟩ | ⟨_, rules⟩ | ⟨target, existing, at_target, its, _, rules⟩
  · exact ⟨present, rules ▸ there, same, later⟩
  · exact ⟨present, rules ▸ getElem?_kept there wanted, same, later⟩
  · by_cases here : position = target
    · subst here
      cases stands.symm.trans at_target
      obtain ⟨inside, _⟩ := List.getElem?_eq_some_iff.mp there
      refine ⟨wanted, ?_, its.symm, ?_⟩
      · rw [rules, List.getElem?_set_self inside]
      · exact fun absent => absurd (its ▸ List.mem_cons_self) absent
    · refine ⟨present, ?_, same, later⟩
      rw [rules, List.getElem?_set_ne (Ne.symm here), there]

/-- The rule that is placed is in force. -/
theorem inForce_place (placed : Placed found done state.rules) (new : wanted.id ∉ done)
    (covers : wanted.coversUntil retain_until = true) :
    InForce (place found retain_until state wanted).rules retain_until wanted := by
  rcases place_cases found retain_until state wanted with
    ⟨position, existing, stands, its, same, reaches, rules, _⟩ | ⟨_, rules⟩ |
      ⟨target, existing, at_target, its, _, rules⟩
  · obtain ⟨present, there, _, untouched⟩ := placed position existing stands
    cases untouched (its ▸ new)
    exact ⟨position, existing, rules ▸ there, its, same, reaches⟩
  · refine ⟨state.rules.length, wanted, ?_, rfl, rfl, covers⟩
    rw [rules, List.getElem?_append_right le_rfl]
    simp
  · obtain ⟨present, there, _, _⟩ := placed target existing at_target
    obtain ⟨inside, _⟩ := List.getElem?_eq_some_iff.mp there
    exact ⟨target, wanted, by rw [rules, List.getElem?_set_self inside], rfl, rfl, covers⟩

/-- A rule with another identifier stays in force. -/
theorem InForce.place {other : R2Rule} (inForce : InForce state.rules retain_until other)
    (placed : Placed found done state.rules) (different : other.id ≠ wanted.id) :
    InForce (ProviderLocks.place found retain_until state wanted).rules retain_until other := by
  obtain ⟨position, present, there, its, same, covers⟩ := inForce
  refine ⟨position, present, ?_, its, same, covers⟩
  rcases place_cases found retain_until state wanted with
    ⟨_, _, _, _, _, _, rules, _⟩ | ⟨_, rules⟩ | ⟨target, existing, at_target, named, _, rules⟩
  · exact rules ▸ there
  · exact rules ▸ getElem?_kept there wanted
  · have elsewhere : position ≠ target := by
      rintro rfl
      obtain ⟨standing, again, same_id, _⟩ := placed position existing at_target
      cases there.symm.trans again
      exact different (its.symm.trans (same_id.trans named))
    rw [rules, List.getElem?_set_ne (Ne.symm elsewhere), there]

/-- Placing rules one after another puts all of them in force. -/
theorem foldl_place {desired : List R2Rule} (placed : Placed found done state.rules)
    (distinct : (desired.map (·.id)).Nodup) (new : ∀ wanted ∈ desired, wanted.id ∉ done)
    (covers : ∀ wanted ∈ desired, wanted.coversUntil retain_until = true) :
    (∀ other, other.id ∈ done → InForce state.rules retain_until other →
      InForce (desired.foldl (place found retain_until) state).rules retain_until other) ∧
    ∀ wanted ∈ desired,
      InForce (desired.foldl (place found retain_until) state).rules retain_until wanted := by
  induction desired generalizing state done with
  | nil => exact ⟨fun _ _ inForce => inForce, fun _ member => absurd member List.not_mem_nil⟩
  | cons first rest inductionHypothesis =>
    have unplaced : first.id ∉ done := new first List.mem_cons_self
    obtain ⟨apart, distinct⟩ := List.nodup_cons.mp distinct
    have still : ∀ wanted ∈ rest, wanted.id ∉ first.id :: done := by
      intro wanted member
      simp only [List.mem_cons, not_or]
      exact ⟨fun same => apart (List.mem_map.mpr ⟨wanted, member, same⟩),
        new wanted (List.mem_cons_of_mem _ member)⟩
    obtain ⟨kept, all⟩ := inductionHypothesis (placed_place placed) distinct still
      fun wanted member => covers wanted (List.mem_cons_of_mem _ member)
    refine ⟨?_, ?_⟩
    · intro other member inForce
      refine kept other (List.mem_cons_of_mem _ member) (inForce.place placed ?_)
      exact fun same => unplaced (same ▸ member)
    · intro wanted member
      rcases List.mem_cons.mp member with rfl | later
      · exact kept wanted List.mem_cons_self
          (inForce_place placed unplaced (covers wanted List.mem_cons_self))
      · exact all wanted later

/-- Rules that did not change are the rules that were found. -/
theorem foldl_place_unchanged {desired : List R2Rule}
    (unchanged : (desired.foldl (place found retain_until) state).changed = false) :
    (desired.foldl (place found retain_until) state).rules = state.rules ∧
      state.changed = false := by
  induction desired generalizing state with
  | nil => exact ⟨rfl, unchanged⟩
  | cons first rest inductionHypothesis =>
    obtain ⟨rules, before⟩ := inductionHypothesis unchanged
    rcases place_cases found retain_until state first with
      ⟨_, _, _, _, _, _, same, kept⟩ | ⟨changed, _⟩ | ⟨_, _, _, _, changed, _⟩
    · exact ⟨rules.trans same, kept.symm.trans before⟩
    · cases before.symm.trans changed
    · cases before.symm.trans changed

/-- The rules of the namespaces have identifiers of their own. -/
theorem persistentLockSpecs_distinct (cfg : ReplicaConfig) (retain_until : Timestamp) :
    ((persistentLockSpecs cfg retain_until).map (·.id)).Nodup := by
  have suffixes : (namespaces.map Prod.snd).Nodup := by decide
  have named : (persistentLockSpecs cfg retain_until).map (·.id) =
      (namespaces.map Prod.snd).map (cfg.r2_lock_rule_id ++ "-" ++ ·) := by
    simp [persistentLockSpecs, Function.comp_def]
  rw [named]
  refine suffixes.map ?_
  intro first second same
  simpa using same

theorem persistentLockSpecs_cover (cfg : ReplicaConfig) (retain_until : Timestamp) :
    ∀ wanted ∈ persistentLockSpecs cfg retain_until,
      wanted.coversUntil retain_until = true := by
  intro wanted listed
  obtain ⟨entry, _, rfl⟩ := List.mem_map.mp listed
  simp [R2Rule.coversUntil]

/-- After strengthening, every wanted rule is in force. -/
theorem strengthen_inForce {desired : List R2Rule} (distinct : (desired.map (·.id)).Nodup)
    (covers : ∀ wanted ∈ desired, wanted.coversUntil retain_until = true) :
    ∀ wanted ∈ desired,
      InForce (strengthen found retain_until desired).rules retain_until wanted := by
  have placed : Placed found [] found := fun position rule stands =>
    ⟨rule, stands, rfl, fun _ => rfl⟩
  exact (@foldl_place found retain_until { rules := found } [] desired placed distinct
    (fun _ _ => List.not_mem_nil) covers).2

/-- A lock call of an R2 bucket that returns a moment has locked every namespace. -/
theorem ensureR2BucketLock_locks {client : Client} {cfg : ReplicaConfig}
    {minimum_days : Option Nat} {trace after : Trace} {lock : LockInfo}
    (ran : run client.handler (ensureR2BucketLock cfg minimum_days) trace = (.ok lock, after)) :
    ∃ horizon, lock.retain_until = some horizon ∧ NamespacesLocked cfg after horizon := by
  unfold ensureR2BucketLock at ran
  split at ran
  · cases ran
  obtain ⟨rules, read, reading, rest⟩ := (run_bind_eq_ok _).mp ran
  obtain ⟨now, timed, clock, rest⟩ := (run_bind_eq_ok _).mp rest
  dsimp only at rest
  generalize far : addDays now (max cfg.r2_bucket_lock_days (minimum_days.getD 0)) =
    horizon at rest
  generalize keeps : rules.filter (fun rule =>
    ¬ (rule.id = cfg.r2_lock_rule_id ∧ rule.keyPrefix = listPrefix cfg)) = kept at rest
  have locks : ∀ entry ∈ namespaces, ∃ rule ∈
      (strengthen kept horizon (persistentLockSpecs cfg horizon)).rules,
      rule.keyPrefix = listPrefix cfg ++ entry.1 ∧ rule.coversUntil horizon := by
    intro entry member
    obtain ⟨position, present, there, _, same, covers⟩ := strengthen_inForce
      (persistentLockSpecs_distinct cfg horizon) (persistentLockSpecs_cover cfg horizon) _
      (List.mem_map.mpr ⟨entry, member, rfl⟩)
    exact ⟨present, List.mem_of_getElem? there, same, covers⟩
  split at rest
  · obtain ⟨_, put, putting, rest⟩ := (run_bind_eq_ok _).mp rest
    cases rest
    exact ⟨_, rfl, _, Or.inr (ask_ran putting), locks⟩
  · rename_i unchanged
    cases rest
    have same : (strengthen kept horizon (persistentLockSpecs cfg horizon)).changed = false := by
      simpa using unchanged
    have found : (strengthen kept horizon (persistentLockSpecs cfg horizon)).rules = kept :=
      (foldl_place_unchanged same).1
    refine ⟨_, rfl, rules, Or.inl ((trace_ran clock).subset (ask_ran reading)), ?_⟩
    intro entry member
    obtain ⟨rule, present, same, covers⟩ := locks entry member
    rw [found, ← keeps] at present
    exact ⟨rule, (List.mem_filter.mp present).1, same, covers⟩

end Strengthened

end Immutavault.ProviderLocks
