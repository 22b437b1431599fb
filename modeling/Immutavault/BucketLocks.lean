import Mathlib.Algebra.Order.Monoid.Unbundled.WithTop
import Mathlib.Order.Lattice.Nat
import Mathlib.Data.List.Induction
import Mathlib.Order.MinMax
import Mathlib.Order.WithBot
import Immutavault.ProviderLocks

/-!
# Rules of a locked bucket

A bucket keeps a list of rules, which several replicas and people share. Strengthening
reads the list, drops a rule that earlier versions left behind, puts a dated rule in for
every namespace that is not covered far enough, and writes the list when that changed
something. The status reads the list and asks the same of it.

What strengthening makes of a list is computed once: the rule that counts for an
identifier is the last one with it, a rule that counts and does not cover its namespace
is written over in its place, and a rule that is missing is appended. From this it
follows that a strengthened bucket has a good status for a day, which rules are left as
they were, and how far the protection of an object reaches.

That protection is not monotone. The rule that counts may have another prefix, and the
rule that is dropped may have protected more than what is put in.
-/

namespace Immutavault.BucketLocks

open Programs Values Timestamps Configuration ResticRepository Machine ProviderLocks

deriving instance DecidableEq for R2Condition, R2Rule

section Status

variable (cfg : ReplicaConfig)

/-- The moment that a dated rule reaches. -/
def dateOf (rule : R2Rule) : Option Timestamp :=
  match rule.condition with
  | .date _ moment => moment
  | _ => none

/-- What the status of a bucket reports, and whether it is good. -/
structure LockStatus where
  enabled : Bool
  details : Dict

/-- A wanted rule has the rule that counts for it, with its prefix and reaching as far. -/
def covered (found : List R2Rule) (desired_until : Timestamp) (wanted : R2Rule) : Bool :=
  match lastWithId wanted.id found with
  | some (_, existing) =>
    existing.coversUntil desired_until && existing.keyPrefix = wanted.keyPrefix
  | none => false

/-- What rules say about the lock of a replica. A day may pass between two refreshes. -/
def statusOf (rules : List R2Rule) (now : Timestamp) : LockStatus :=
  let desired_until := addDays now (cfg.r2_bucket_lock_days - 1)
  let expected := persistentLockSpecs cfg desired_until
  let enabled := expected.all (covered rules desired_until)
  let matched := expected.filterMap fun rule => (lastWithId rule.id rules).map Prod.snd
  let finite_dates := matched.filterMap dateOf
  ⟨enabled, [("enabled", .bool enabled), ("kind", .str "cloudflare_r2_bucket_lock"),
    ("strength", .str "provider_bucket_policy_admin_mutable"),
    ("rule_id_base", .str cfg.r2_lock_rule_id),
    ("protected_prefixes", .arr (expected.map fun rule => .str rule.keyPrefix)),
    ("transient_prefix_excluded", .str (listPrefix cfg ++ "locks/")),
    ("minimum_retain_until", match finite_dates.min? with
      | some moment => .str (isoformat moment)
      | none => .null),
    ("matched_rules", .arr (matched.map R2Rule.report)),
    ("rules", .arr (rules.map R2Rule.report))]⟩

def r2BucketLockStatus : StorageProg LockStatus := do
  if cfg.provider ≠ "cloudflare_r2" then
    raiseValueError "R2 bucket-lock status requires provider=cloudflare_r2"
  else
    let rules : List R2Rule ← ask .getRules
    let now : Timestamp ← ask .utcnow
    return statusOf cfg rules now

end Status

section Strengthening

variable (found : List R2Rule) (horizon : Timestamp)

/-- No rule has the identifier of a wanted one. -/
def missing (wanted : R2Rule) : Bool := (lastWithId wanted.id found).isNone

/-- A wanted rule is written over the rule at a position. -/
def displaces (position : Nat) (wanted : R2Rule) : Bool :=
  (lastWithId wanted.id found).any fun entry => entry.1 = position && !covered found horizon wanted

/-- The rule that is in force for a wanted one afterwards. -/
def settled (wanted : R2Rule) : R2Rule :=
  match lastWithId wanted.id found with
  | some (_, existing) => if covered found horizon wanted then existing else wanted
  | none => wanted

/-- What stands at a position afterwards. -/
def replaced (desired : List R2Rule) (position : Nat) (rule : R2Rule) : R2Rule :=
  (desired.find? (displaces found horizon position)).getD rule

variable {found horizon}

theorem missing_eq_false {wanted : R2Rule} {entry : Nat × R2Rule}
    (last : lastWithId wanted.id found = some entry) : missing found wanted = false := by
  rw [missing, last]
  rfl

theorem displaces_iff {position : Nat} {wanted : R2Rule} :
    displaces found horizon position wanted = true ↔
      ∃ existing, lastWithId wanted.id found = some (position, existing) ∧
        covered found horizon wanted = false := by
  unfold displaces
  cases last : lastWithId wanted.id found with
  | none => simp
  | some entry =>
    obtain ⟨place, existing⟩ := entry
    simp only [Option.any_some, Bool.and_eq_true, decide_eq_true_eq, Bool.not_eq_true',
      Option.some.injEq, Prod.mk.injEq]
    constructor
    · rintro ⟨rfl, uncovered⟩
      exact ⟨existing, ⟨rfl, rfl⟩, uncovered⟩
    · rintro ⟨_, ⟨rfl, _⟩, uncovered⟩
      exact ⟨rfl, uncovered⟩

/-- Two rules that are written over the same one have its identifier. -/
theorem id_of_displaces {position : Nat} {one other : R2Rule}
    (first : displaces found horizon position one = true)
    (second : displaces found horizon position other = true) : one.id = other.id := by
  obtain ⟨former, atFirst, _⟩ := displaces_iff.mp first
  obtain ⟨latter, atSecond, _⟩ := displaces_iff.mp second
  obtain ⟨there, same⟩ := lastWithId_spec atFirst
  obtain ⟨again, alike⟩ := lastWithId_spec atSecond
  cases there.symm.trans again
  exact same.symm.trans alike

/-- What one wanted rule makes of the list. -/
theorem place_eq (state : Strengthening) (wanted : R2Rule) :
    place found horizon state wanted =
      { rules := match lastWithId wanted.id found with
          | none => state.rules ++ [wanted]
          | some (position, _) =>
            if covered found horizon wanted then state.rules else state.rules.set position wanted
        effective := state.effective ++ [settled found horizon wanted]
        changed := state.changed || !covered found horizon wanted } := by
  cases last : lastWithId wanted.id found with
  | none => simp [place, settled, covered, last]
  | some entry =>
    obtain ⟨position, existing⟩ := entry
    by_cases covers : existing.coversUntil horizon = true ∧ existing.keyPrefix = wanted.keyPrefix
    · simp [place, settled, covered, last, covers]
    · have uncovered : covered found horizon wanted = false := by
        simpa [covered, last] using covers
      simp [place, settled, uncovered, last, covers]

/-- What stands at a position, when one more rule is wanted. -/
theorem replaced_concat (done : List R2Rule) (wanted : R2Rule) (position : Nat) (rule : R2Rule) :
    replaced found horizon (done ++ [wanted]) position rule =
      (done.find? (displaces found horizon position)).getD
        (if displaces found horizon position wanted then wanted else rule) := by
  rw [replaced, List.find?_append]
  cases earlier : done.find? (displaces found horizon position) with
  | some other => rfl
  | none => cases last : displaces found horizon position wanted <;> simp [last]

/-- What strengthening makes of a list of rules, when every identifier is wanted once. -/
theorem strengthen_eq {desired : List R2Rule} (distinct : (desired.map (·.id)).Nodup) :
    strengthen found horizon desired =
      { rules := found.mapIdx (replaced found horizon desired) ++ desired.filter (missing found)
        effective := desired.map (settled found horizon)
        changed := desired.any fun wanted => !covered found horizon wanted } := by
  induction desired using List.reverseRecOn with
  | nil =>
    have same : found.mapIdx (replaced found horizon []) = found := by
      have identity : replaced found horizon [] = fun _ rule => rule := rfl
      refine List.ext_getElem? fun position => ?_
      rw [List.getElem?_mapIdx, identity, Option.map_id']
    simp [strengthen, same]
  | append_singleton done wanted inductionHypothesis =>
    rw [List.map_append, List.nodup_append] at distinct
    obtain ⟨distinct, _, apart⟩ := distinct
    have unlike : ∀ other ∈ done, other.id ≠ wanted.id := fun other member =>
      apart _ (List.mem_map.mpr ⟨other, member, rfl⟩) _ (by simp)
    rw [strengthen, List.foldl_append, List.foldl_cons, List.foldl_nil, ← strengthen,
      inductionHypothesis distinct, place_eq]
    -- A wanted rule that is not written over another leaves all positions as they are.
    have spared {position : Nat} (spares : displaces found horizon position wanted = false) :
        replaced found horizon (done ++ [wanted]) position = replaced found horizon done position := by
      funext rule
      rw [replaced_concat, spares]
      rfl
    have still (spares : ∀ position, displaces found horizon position wanted = false) :
        found.mapIdx (replaced found horizon (done ++ [wanted])) =
          found.mapIdx (replaced found horizon done) :=
      congrArg (found.mapIdx ·) (funext fun position => spared (spares position))
    cases last : lastWithId wanted.id found with
    | none =>
      have spares : ∀ position, displaces found horizon position wanted = false := fun position =>
        by simp [displaces, last]
      have absent : missing found wanted = true := by simp [missing, last]
      simp [still spares, absent]
    | some entry =>
      obtain ⟨position, existing⟩ := entry
      have present := missing_eq_false last
      cases covers : covered found horizon wanted with
      | true =>
        have spares : ∀ position, displaces found horizon position wanted = false :=
          fun position => by simp [displaces, last, covers]
        simp [still spares, present, covers]
      | false =>
        obtain ⟨there, _⟩ := lastWithId_spec last
        obtain ⟨inside, _⟩ := List.getElem?_eq_some_iff.mp there
        have rewritten : (found.mapIdx (replaced found horizon done)).set position wanted =
            found.mapIdx (replaced found horizon (done ++ [wanted])) := by
          refine List.ext_getElem? fun other => ?_
          by_cases here : position = other
          · subst here
            have own : displaces found horizon position wanted = true :=
              displaces_iff.mpr ⟨existing, last, covers⟩
            have alone : done.find? (displaces found horizon position) = none :=
              List.find?_eq_none.mpr fun earlier member also =>
                unlike earlier member (id_of_displaces also own)
            rw [List.getElem?_set_self (by simpa using inside), List.getElem?_mapIdx, there,
              Option.map_some, replaced_concat, alone, own]
            rfl
          · have spares : displaces found horizon other wanted = false := by
              simp [displaces, last, here]
            rw [List.getElem?_set_ne here, List.getElem?_mapIdx, List.getElem?_mapIdx,
              spared spares]
        simp [List.set_append_left, inside, rewritten, present, covers]

/-- The last rule with an identifier, when rules are written over others of their identifier. -/
theorem lastWithId_mapIdx {id : String} {rules : List R2Rule} {change : Nat → R2Rule → R2Rule}
    (named : ∀ position rule, rules[position]? = some rule → (change position rule).id = rule.id) :
    lastWithId id (rules.mapIdx change) =
      (lastWithId id rules).map fun entry => (entry.1, change entry.1 entry.2) := by
  induction rules generalizing change with
  | nil => rfl
  | cons rule rest inductionHypothesis =>
    have later := @inductionHypothesis (fun position => change (position + 1))
      fun position other there => named (position + 1) other (by simpa using there)
    rw [List.mapIdx_cons, lastWithId, later, lastWithId]
    cases lastWithId id rest with
    | some entry => rfl
    | none =>
      dsimp only [Option.map_none]
      rw [named 0 rule rfl]
      split <;> rfl

end Strengthening

section Counting

/-- The rule that counts for an identifier. -/
def counting (id : String) (rules : List R2Rule) : Option R2Rule :=
  (lastWithId id rules).map Prod.snd

variable {found : List R2Rule} {horizon : Timestamp} {id : String}

theorem counting_cons (rule : R2Rule) (rest : List R2Rule) :
    counting id (rule :: rest) =
      (counting id rest).or (if rule.id = id then some rule else none) := by
  rw [counting, lastWithId, counting]
  cases lastWithId id rest with
  | some entry => rfl
  | none =>
    dsimp only [Option.map_none, Option.none_or]
    split <;> rfl

theorem counting_append (first second : List R2Rule) :
    counting id (first ++ second) = (counting id second).or (counting id first) := by
  induction first with
  | nil =>
    rw [List.nil_append]
    exact Option.or_none.symm
  | cons rule rest inductionHypothesis =>
    rw [List.cons_append, counting_cons, inductionHypothesis, counting_cons, Option.or_assoc]

theorem counting_eq_none {rules : List R2Rule} (absent : ∀ rule ∈ rules, rule.id ≠ id) :
    counting id rules = none := by
  induction rules with
  | nil => rfl
  | cons rule rest inductionHypothesis =>
    rw [counting_cons, inductionHypothesis fun other member =>
      absent other (List.mem_cons_of_mem _ member), if_neg (absent rule List.mem_cons_self)]
    rfl

theorem counting_some {rules : List R2Rule} {rule : R2Rule} (counts : counting id rules = some rule) :
    rule ∈ rules ∧ rule.id = id := by
  obtain ⟨entry, last, rfl⟩ := Option.map_eq_some_iff.mp counts
  obtain ⟨there, same⟩ := lastWithId_spec last
  exact ⟨List.mem_of_getElem? there, same⟩

/-- Dropping rules with other identifiers does not change what counts. -/
theorem counting_filter {rules : List R2Rule} {keeps : R2Rule → Bool}
    (kept : ∀ rule ∈ rules, rule.id = id → keeps rule = true) :
    counting id (rules.filter keeps) = counting id rules := by
  induction rules with
  | nil => rfl
  | cons rule rest inductionHypothesis =>
    have later := inductionHypothesis fun other member =>
      kept other (List.mem_cons_of_mem _ member)
    rw [counting_cons, List.filter_cons]
    split
    · rw [counting_cons, later]
    · rename_i dropped
      have other : rule.id ≠ id := fun same => dropped (kept rule List.mem_cons_self same)
      rw [later, if_neg other, Option.or_none]

theorem covered_iff {wanted : R2Rule} :
    covered found horizon wanted = true ↔ ∃ existing, counting wanted.id found = some existing ∧
      existing.coversUntil horizon = true ∧ existing.keyPrefix = wanted.keyPrefix := by
  rw [covered, counting]
  cases lastWithId wanted.id found <;> simp

theorem settled_eq (wanted : R2Rule) :
    settled found horizon wanted =
      if covered found horizon wanted then (counting wanted.id found).getD wanted else wanted := by
  rw [settled, counting]
  cases last : lastWithId wanted.id found with
  | some entry => rfl
  | none => simp

variable {desired : List R2Rule}

/-- A rule of a list in which no identifier stands twice is known by its identifier. -/
theorem eq_of_id (distinct : (desired.map (·.id)).Nodup) {one other : R2Rule}
    (first : one ∈ desired) (second : other ∈ desired) (same : one.id = other.id) : one = other :=
  List.inj_on_of_nodup_map distinct first second same

/-- A rule is written over by a wanted rule with its identifier. -/
theorem replaced_id {position : Nat} {rule : R2Rule} (there : found[position]? = some rule) :
    (replaced found horizon desired position rule).id = rule.id := by
  unfold replaced
  cases finds : desired.find? (displaces found horizon position) with
  | none => rfl
  | some wanted =>
    obtain ⟨existing, last, _⟩ := displaces_iff.mp (List.find?_some finds)
    obtain ⟨again, same⟩ := lastWithId_spec last
    cases there.symm.trans again
    exact same.symm

/-- In such a list every rule counts. -/
theorem counting_of_mem (distinct : (desired.map (·.id)).Nodup) {wanted : R2Rule}
    (member : wanted ∈ desired) : counting wanted.id desired = some wanted := by
  cases counts : counting wanted.id desired with
  | some rule =>
    obtain ⟨within, same⟩ := counting_some counts
    rw [eq_of_id distinct within member same]
  | none =>
    obtain ⟨before, after, rfl⟩ := List.append_of_mem member
    rw [counting_append, counting_cons, if_pos rfl] at counts
    simp at counts

/-- After strengthening, the settled rule counts for every wanted one. -/
theorem counting_wanted (distinct : (desired.map (·.id)).Nodup) {wanted : R2Rule}
    (member : wanted ∈ desired) :
    counting wanted.id (strengthen found horizon desired).rules =
      some (settled found horizon wanted) := by
  rw [strengthen_eq distinct]
  dsimp only
  rw [counting_append]
  cases last : lastWithId wanted.id found with
  | none =>
    have absent : missing found wanted = true := by simp [missing, last]
    have new : settled found horizon wanted = wanted := by simp [settled, last]
    rw [counting_filter fun rule within same => eq_of_id distinct within member same ▸ absent,
      counting_of_mem distinct member, new, Option.some_or]
  | some entry =>
    obtain ⟨position, existing⟩ := entry
    have others : ∀ rule ∈ desired.filter (missing found), rule.id ≠ wanted.id := by
      intro rule within same
      obtain ⟨listed, absent⟩ := List.mem_filter.mp within
      rw [eq_of_id distinct listed member same, missing_eq_false last] at absent
      cases absent
    rw [counting_eq_none others, Option.none_or, counting,
      lastWithId_mapIdx fun _ _ there => replaced_id there, last]
    dsimp only [Option.map_some]
    congr 1
    cases covers : covered found horizon wanted with
    | true =>
      have spared : desired.find? (displaces found horizon position) = none := by
        refine List.find?_eq_none.mpr fun other listed also => ?_
        obtain ⟨again, there, uncovered⟩ := displaces_iff.mp also
        cases (lastWithId_spec there).1.symm.trans (lastWithId_spec last).1
        have same : other.id = wanted.id :=
          (lastWithId_spec there).2.symm.trans (lastWithId_spec last).2
        rw [eq_of_id distinct listed member same, covers] at uncovered
        cases uncovered
      simp [replaced, spared, settled, last, covers]
    | false =>
      have own : displaces found horizon position wanted = true :=
        displaces_iff.mpr ⟨existing, last, covers⟩
      cases finds : desired.find? (displaces found horizon position) with
      | none => exact absurd own (List.find?_eq_none.mp finds wanted member)
      | some other =>
        have same : other = wanted := eq_of_id distinct (List.mem_of_find?_eq_some finds) member
          (id_of_displaces (List.find?_some finds) own)
        simp [replaced, finds, same, settled, last, covers]

/-- For an identifier that is not wanted, the same rule counts as before. -/
theorem counting_unwanted (distinct : (desired.map (·.id)).Nodup)
    (unwanted : ∀ wanted ∈ desired, wanted.id ≠ id) :
    counting id (strengthen found horizon desired).rules = counting id found := by
  rw [strengthen_eq distinct]
  dsimp only
  rw [counting_append, counting_eq_none fun rule within =>
    unwanted rule (List.mem_filter.mp within).1, Option.none_or, counting,
    lastWithId_mapIdx fun _ _ there => replaced_id there, counting]
  cases last : lastWithId id found with
  | none => rfl
  | some entry =>
    obtain ⟨position, existing⟩ := entry
    have spared : desired.find? (displaces found horizon position) = none := by
      refine List.find?_eq_none.mpr fun other listed also => unwanted other listed ?_
      obtain ⟨again, there, _⟩ := displaces_iff.mp also
      cases (lastWithId_spec there).1.symm.trans (lastWithId_spec last).1
      exact (lastWithId_spec there).2.symm.trans (lastWithId_spec last).2
    simp [replaced, spared]

end Counting

section Runs

variable (cfg : ReplicaConfig)

/-- How a bucket serves one call: its clock, and the errors that reading and writing meet. A
write that meets an error stores nothing. -/
structure Bucket where
  now : Timestamp
  reading : Option Exn := none
  writing : Option Exn := none

def Bucket.handler (bucket : Bucket) : Handler storage Exn (List R2Rule)
  | .utcnow, rules => (.ok bucket.now, rules)
  | .getRules, rules =>
    match bucket.reading with
    | some error => (.error error, rules)
    | none => (.ok rules, rules)
  | .putRules given, rules =>
    match bucket.writing with
    | some error => (.error error, rules)
    | none => (.ok (), given)
  | .client, rules | .preflight, rules | .listObjects _, rules | .getRetention _, rules
  | .putRetention .., rules => (.error ⟨.otherError, "not a lock of a bucket"⟩, rules)

/-- A rule that an earlier version left behind: it also covers the locks of the repository. -/
def isLegacy (rule : R2Rule) : Bool :=
  rule.id = cfg.r2_lock_rule_id ∧ rule.keyPrefix = listPrefix cfg

/-- The moment that a call at this time locks the namespaces up to. -/
def retainUntil (minimum_days : Option Nat) (now : Timestamp) : Timestamp :=
  addDays now (max cfg.r2_bucket_lock_days (minimum_days.getD 0))

/-- The rules of a bucket strengthened up to a moment. -/
def strengthened (horizon : Timestamp) (rules : List R2Rule) : Strengthening :=
  strengthen (rules.filter fun rule => !isLegacy cfg rule) horizon (persistentLockSpecs cfg horizon)

/-- The rules of the bucket afterwards: they are written when a namespace was not covered. -/
def stored (horizon : Timestamp) (rules : List R2Rule) : List R2Rule :=
  if (strengthened cfg horizon rules).changed then (strengthened cfg horizon rules).rules else rules

/-- What a call that returned has made of the rules, and what it reports. -/
structure Ensured (minimum_days : Option Nat) (bucket : Bucket) (rules : List R2Rule)
    (lock : LockInfo) (after : List R2Rule) : Prop where
  provider : cfg.provider = "cloudflare_r2"
  after : after = stored cfg (retainUntil cfg minimum_days bucket.now) rules
  retain_until : lock.retain_until = some (retainUntil cfg minimum_days bucket.now)
  effective : lock.details.get? "rules" = some (.arr
    ((strengthened cfg (retainUntil cfg minimum_days bucket.now) rules).effective.map R2Rule.report))

variable {cfg} {bucket : Bucket} {rules after : List R2Rule} {minimum_days : Option Nat}
  {lock : LockInfo}

theorem run_ask (command : Storage) :
    run bucket.handler (ask command) rules = bucket.handler command rules :=
  run_perform bucket.handler command rules

/-- A call for a replica of R2 returns when the bucket serves it. -/
theorem ensure_returns (provider : cfg.provider = "cloudflare_r2")
    (enabled : cfg.r2_bucket_lock_enabled = true) (minimum_days : Option Nat) (now : Timestamp)
    (rules : List R2Rule) :
    ∃ lock after, run (Bucket.handler ⟨now, none, none⟩) (ensureR2BucketLock cfg minimum_days)
      rules = (.ok lock, after) := by
  rw [ensureR2BucketLock, if_neg (by simp [provider, enabled])]
  rw [run_bind, run_ask]
  dsimp only [Bucket.handler]
  rw [run_bind, run_ask]
  dsimp only [Bucket.handler]
  split
  · exact ⟨_, _, rfl⟩
  · exact ⟨_, _, rfl⟩

theorem filter_legacy :
    (rules.filter fun rule => decide (¬ (rule.id = cfg.r2_lock_rule_id ∧
      rule.keyPrefix = listPrefix cfg))) = rules.filter fun rule => !isLegacy cfg rule := by
  refine List.filter_congr fun rule _ => ?_
  simp [isLegacy]

theorem ensured_of_run
    (ran : run bucket.handler (ensureR2BucketLock cfg minimum_days) rules = (.ok lock, after)) :
    Ensured cfg minimum_days bucket rules lock after := by
  unfold ensureR2BucketLock at ran
  split at ran
  · cases ran
  rename_i enabled
  rw [not_or, not_not] at enabled
  obtain ⟨found, read, reading, rest⟩ := (run_bind_eq_ok _).mp ran
  obtain ⟨now, timed, clock, rest⟩ := (run_bind_eq_ok _).mp rest
  rw [run_ask] at reading clock
  dsimp only [Bucket.handler] at reading clock
  cases clock
  obtain ⟨rfl, rfl⟩ : found = rules ∧ read = rules := by
    cases failed : bucket.reading with
    | some error =>
      rw [failed] at reading
      cases reading
    | none =>
      rw [failed] at reading
      cases reading
      exact ⟨rfl, rfl⟩
  dsimp only at rest
  rw [filter_legacy] at rest
  split at rest
  · rename_i changed
    obtain ⟨_, put, putting, rest⟩ := (run_bind_eq_ok _).mp rest
    rw [run_ask] at putting
    dsimp only [Bucket.handler] at putting
    cases failed : bucket.writing with
    | some error =>
      rw [failed] at putting
      cases putting
    | none =>
      rw [failed] at putting
      cases putting
      cases rest
      exact ⟨enabled.1, (if_pos changed).symm, rfl, rfl⟩
  · rename_i unchanged
    cases rest
    exact ⟨enabled.1, (if_neg unchanged).symm, rfl, rfl⟩

/-- A wanted rule is not named like one that an earlier version left behind. -/
theorem wanted_id_ne {horizon : Timestamp} {wanted : R2Rule}
    (member : wanted ∈ persistentLockSpecs cfg horizon) : wanted.id ≠ cfg.r2_lock_rule_id := by
  obtain ⟨entry, _, rfl⟩ := List.mem_map.mp member
  intro same
  have lengths := congrArg String.length same
  simp only [String.length_append] at lengths
  have dash : "-".length = 1 := rfl
  omega

theorem counting_unlegacy {horizon : Timestamp} {wanted : R2Rule}
    (member : wanted ∈ persistentLockSpecs cfg horizon) :
    counting wanted.id (rules.filter fun rule => !isLegacy cfg rule) = counting wanted.id rules := by
  refine counting_filter fun rule _ same => ?_
  have other : rule.id ≠ cfg.r2_lock_rule_id := same ▸ wanted_id_ne member
  simp [isLegacy, other]

/-- Whether a namespace is covered does not depend on what an earlier version left behind. -/
theorem covered_unlegacy {horizon moment : Timestamp} {wanted : R2Rule}
    (member : wanted ∈ persistentLockSpecs cfg horizon) :
    covered (rules.filter fun rule => !isLegacy cfg rule) moment wanted =
      covered rules moment wanted := by
  rw [Bool.eq_iff_iff, covered_iff, covered_iff, counting_unlegacy member]

/-- A rule that reaches a moment reaches every earlier one. -/
theorem coversUntil_mono {rule : R2Rule} {horizon earlier : Timestamp} (before : earlier ≤ horizon)
    (covers : rule.coversUntil horizon = true) : rule.coversUntil earlier = true := by
  simp only [R2Rule.coversUntil, Bool.and_eq_true] at covers ⊢
  refine ⟨covers.1, ?_⟩
  cases condition : rule.condition with
  | indefinite => rfl
  | other type => simp [condition] at covers
  | date text moment =>
    cases moment with
    | none => simp [condition] at covers
    | some moment =>
      have far : horizon ≤ moment := by simpa [condition] using covers.2
      simpa using before.trans far

/-- The settled rule has the prefix of the wanted one and reaches as far. -/
theorem settled_covers {found : List R2Rule} {horizon : Timestamp} {wanted : R2Rule}
    (covers : wanted.coversUntil horizon = true) :
    (settled found horizon wanted).coversUntil horizon = true ∧
      (settled found horizon wanted).keyPrefix = wanted.keyPrefix ∧
      (settled found horizon wanted).id = wanted.id := by
  unfold settled
  cases last : lastWithId wanted.id found with
  | none => exact ⟨covers, rfl, rfl⟩
  | some entry =>
    dsimp only
    split
    · rename_i holds
      simp only [covered, last, Bool.and_eq_true, decide_eq_true_eq] at holds
      exact ⟨holds.1, holds.2, (lastWithId_spec last).2⟩
    · exact ⟨covers, rfl, rfl⟩

/-- Every namespace is covered afterwards. -/
theorem covered_stored {horizon : Timestamp} {wanted : R2Rule}
    (member : wanted ∈ persistentLockSpecs cfg horizon) :
    covered (stored cfg horizon rules) horizon wanted = true := by
  rw [stored, covered_iff]
  split
  · obtain ⟨covers, same, _⟩ := @settled_covers (rules.filter fun rule => !isLegacy cfg rule) horizon
      wanted (persistentLockSpecs_cover cfg horizon wanted member)
    exact ⟨_, counting_wanted (persistentLockSpecs_distinct cfg horizon) member, covers, same⟩
  · rename_i unchanged
    rw [strengthened, strengthen_eq (persistentLockSpecs_distinct cfg horizon)] at unchanged
    have all : ¬ (!covered (rules.filter fun rule => !isLegacy cfg rule) horizon wanted) = true :=
      fun uncovered => unchanged (List.any_eq_true.mpr ⟨wanted, member, uncovered⟩)
    rw [Bool.not_eq_true', Bool.not_eq_false, covered_unlegacy member] at all
    exact covered_iff.mp all

/-- A call at a time locks at least as far as the status asks for within a day. -/
theorem status_before_retainUntil {now later : Timestamp} (days : 1 ≤ cfg.r2_bucket_lock_days)
    (within : later ≤ addDays now 1) :
    addDays later (cfg.r2_bucket_lock_days - 1) ≤ retainUntil cfg minimum_days now := by
  have most : cfg.r2_bucket_lock_days * day ≤
      max cfg.r2_bucket_lock_days (minimum_days.getD 0) * day :=
    Nat.mul_le_mul_right day (le_max_left _ _)
  calc later + (cfg.r2_bucket_lock_days - 1) * day
      ≤ now + 1 * day + (cfg.r2_bucket_lock_days - 1) * day := Nat.add_le_add_right within _
    _ = now + cfg.r2_bucket_lock_days * day := by
      rw [Nat.add_assoc, ← Nat.add_mul, Nat.add_sub_cancel' days]
    _ ≤ retainUntil cfg minimum_days now := Nat.add_le_add_left most _

/-- The status of a bucket is good for a day after it was strengthened, whatever rules it
had. -/
theorem enabled_after_ensure {later : Timestamp} {failing : Option Exn}
    (days : 1 ≤ cfg.r2_bucket_lock_days)
    (ran : run bucket.handler (ensureR2BucketLock cfg minimum_days) rules = (.ok lock, after))
    (within : later ≤ addDays bucket.now 1) :
    ∃ status, run (Bucket.handler ⟨later, none, failing⟩) (r2BucketLockStatus cfg) after =
      (.ok status, after) ∧ status.enabled = true := by
  have ensured := ensured_of_run ran
  have good : (persistentLockSpecs cfg (addDays later (cfg.r2_bucket_lock_days - 1))).all
      (covered after (addDays later (cfg.r2_bucket_lock_days - 1))) = true := by
    refine List.all_eq_true.mpr fun expected listed => ?_
    obtain ⟨entry, member, rfl⟩ := List.mem_map.mp listed
    have covers := @covered_stored cfg rules (retainUntil cfg minimum_days bucket.now) _
      (List.mem_map.mpr ⟨entry, member, rfl⟩)
    rw [← ensured.after] at covers
    obtain ⟨rule, counts, reaches, same⟩ := covered_iff.mp covers
    exact covered_iff.mpr ⟨rule, counts,
      coversUntil_mono (status_before_retainUntil days within) reaches, same⟩
  refine ⟨statusOf cfg after later, ?_, good⟩
  rw [r2BucketLockStatus, if_neg (not_not.mpr ensured.provider)]
  rfl

/-- A replica of R2 with the default rules. -/
def sampleReplica : ReplicaConfig :=
  { name := "r2", provider := "cloudflare_r2", r2_bucket_lock_enabled := true }

/-- A bucket in which the rule of a namespace stands twice, with different prefixes. -/
def twice : List R2Rule :=
  [⟨"immutavault-retention-data", true, "immutavault/data/", .indefinite⟩,
    ⟨"immutavault-retention-data", true, "elsewhere/", .indefinite⟩]

/-- The status is good an hour after such a bucket was strengthened. -/
theorem enabled_after_ensure_twice :
    ∃ lock after, run (Bucket.handler ⟨day, none, none⟩) (ensureR2BucketLock sampleReplica none)
        twice = (.ok lock, after) ∧
      ∃ status, run (Bucket.handler ⟨day + 60 * minute, none, none⟩)
        (r2BucketLockStatus sampleReplica) after = (.ok status, after) ∧ status.enabled = true := by
  obtain ⟨lock, after, ran⟩ := @ensure_returns sampleReplica rfl rfl none day twice
  exact ⟨lock, after, ran, enabled_after_ensure (by decide) ran (by decide)⟩

end Runs

section Frame

variable (cfg : ReplicaConfig)

/-- The rules of a bucket that strengthening has no reason to touch, in their order: neither
left behind by an earlier version nor counting for a namespace. -/
def others (rules : List R2Rule) : List R2Rule :=
  let found := rules.filter fun rule => !isLegacy cfg rule
  (found.zipIdx.filter fun entry => namespaces.all fun ns =>
    (lastWithId (cfg.r2_lock_rule_id ++ "-" ++ ns.2) found).map Prod.fst ≠ some entry.2).map Prod.fst

/-- What a call reports is in the bucket, with every rule that it had no reason to touch and
without those that an earlier version left behind. -/
structure Reported (rules : List R2Rule) (lock : LockInfo) (after : List R2Rule) : Prop where
  clean : ∀ rule ∈ after, isLegacy cfg rule = false
  effective : ∃ effective : List R2Rule,
    lock.details.get? "rules" = some (.arr (effective.map R2Rule.report)) ∧
      effective.length = namespaces.length ∧ ∀ rule ∈ effective, rule ∈ after
  untouched : (others cfg rules).Sublist after

variable {cfg} {bucket : Bucket} {rules after : List R2Rule} {minimum_days : Option Nat}
  {lock : LockInfo} {horizon : Timestamp}

/-- The rules whose positions are not changed are there in their order. -/
theorem sublist_mapIdx {found : List R2Rule} {keeps : R2Rule × Nat → Bool}
    {change : Nat → R2Rule → R2Rule}
    (same : ∀ entry ∈ found.zipIdx, keeps entry = true → change entry.2 entry.1 = entry.1) :
    ((found.zipIdx.filter keeps).map Prod.fst).Sublist (found.mapIdx change) := by
  have alike : (found.zipIdx.filter keeps).map Prod.fst =
      (found.zipIdx.filter keeps).map fun entry => change entry.2 entry.1 := by
    refine List.map_congr_left fun entry member => ?_
    obtain ⟨within, kept⟩ := List.mem_filter.mp member
    exact (same entry within kept).symm
  rw [alike, List.mapIdx_eq_zipIdx_map]
  exact List.filter_sublist.map _

theorem strengthened_rules : (strengthened cfg horizon rules).rules =
    (rules.filter fun rule => !isLegacy cfg rule).mapIdx
        (replaced (rules.filter fun rule => !isLegacy cfg rule) horizon
          (persistentLockSpecs cfg horizon)) ++
      (persistentLockSpecs cfg horizon).filter
        (missing (rules.filter fun rule => !isLegacy cfg rule)) := by
  rw [strengthened, strengthen_eq (persistentLockSpecs_distinct cfg horizon)]

/-- The list is written exactly when a namespace was not covered. -/
theorem strengthened_changed : (strengthened cfg horizon rules).changed = true ↔
    ∃ wanted ∈ persistentLockSpecs cfg horizon, covered rules horizon wanted = false := by
  rw [strengthened, strengthen_eq (persistentLockSpecs_distinct cfg horizon)]
  dsimp only
  rw [List.any_eq_true]
  refine exists_congr fun wanted => and_congr_right fun member => ?_
  rw [Bool.not_eq_true', covered_unlegacy member]

/-- A wanted rule is not taken for one that an earlier version left behind. -/
theorem wanted_not_legacy {wanted : R2Rule} (member : wanted ∈ persistentLockSpecs cfg horizon) :
    isLegacy cfg wanted = false := by
  simp [isLegacy, wanted_id_ne member]

theorem strengthened_clean :
    ∀ rule ∈ (strengthened cfg horizon rules).rules, isLegacy cfg rule = false := by
  intro rule member
  rw [strengthened_rules, List.mem_append] at member
  rcases member with old | new
  · obtain ⟨position, inside, rfl⟩ := List.mem_mapIdx.mp old
    unfold replaced
    cases finds : (persistentLockSpecs cfg horizon).find? (displaces _ horizon position) with
    | some wanted => exact wanted_not_legacy (List.mem_of_find?_eq_some finds)
    | none =>
      have kept := (List.mem_filter.mp (List.getElem_mem inside)).2
      simpa using kept
  · exact wanted_not_legacy (List.mem_filter.mp new).1

theorem strengthened_untouched :
    (others cfg rules).Sublist (strengthened cfg horizon rules).rules := by
  rw [strengthened_rules]
  refine List.Sublist.trans (sublist_mapIdx fun entry _ uncounted => ?_)
    (List.sublist_append_left _ _)
  have spared : (persistentLockSpecs cfg horizon).find?
      (displaces (rules.filter fun rule => !isLegacy cfg rule) horizon entry.2) = none := by
    refine List.find?_eq_none.mpr fun wanted listed also => ?_
    obtain ⟨ns, member, rfl⟩ := List.mem_map.mp listed
    obtain ⟨existing, last, _⟩ := displaces_iff.mp also
    have elsewhere := List.all_eq_true.mp uncounted ns member
    rw [last] at elsewhere
    simp at elsewhere
  simp [replaced, spared]

theorem strengthened_effective :
    (strengthened cfg horizon rules).effective.length = namespaces.length ∧
      ∀ rule ∈ (strengthened cfg horizon rules).effective,
        rule ∈ (strengthened cfg horizon rules).rules := by
  have distinct := persistentLockSpecs_distinct cfg horizon
  have settles : (strengthened cfg horizon rules).effective = (persistentLockSpecs cfg horizon).map
      (settled (rules.filter fun rule => !isLegacy cfg rule) horizon) := by
    rw [strengthened, strengthen_eq distinct]
  rw [settles]
  refine ⟨by simp [persistentLockSpecs], fun rule member => ?_⟩
  obtain ⟨wanted, listed, rfl⟩ := List.mem_map.mp member
  exact (counting_some (counting_wanted distinct listed)).1

/-- What a call reports is what the bucket has, exactly when no earlier version left a rule
behind or a namespace was not covered: a list that is not written keeps such a rule. -/
theorem reported_iff
    (ran : run bucket.handler (ensureR2BucketLock cfg minimum_days) rules = (.ok lock, after)) :
    Reported cfg rules lock after ↔
      (∀ rule ∈ rules, isLegacy cfg rule = false) ∨
        ∃ wanted ∈ persistentLockSpecs cfg (retainUntil cfg minimum_days bucket.now),
          covered rules (retainUntil cfg minimum_days bucket.now) wanted = false := by
  have ensured := ensured_of_run ran
  rw [← strengthened_changed]
  by_cases changed :
      (strengthened cfg (retainUntil cfg minimum_days bucket.now) rules).changed = true
  · refine iff_of_true ?_ (Or.inr changed)
    have written := ensured.after.trans (if_pos changed)
    obtain ⟨five, there⟩ := strengthened_effective
    rw [written]
    exact ⟨strengthened_clean, ⟨_, ensured.effective, five, there⟩, strengthened_untouched⟩
  · have unwritten := ensured.after.trans (if_neg changed)
    rw [or_iff_left changed]
    constructor
    · exact fun reported => unwritten ▸ reported.clean
    · intro clean
      have kept : (rules.filter fun rule => !isLegacy cfg rule) = rules :=
        List.filter_eq_self.mpr fun rule member => by simp [clean rule member]
      have same : (strengthened cfg (retainUntil cfg minimum_days bucket.now) rules).rules =
          rules := by
        have unchanged := foldl_place_unchanged (Bool.eq_false_iff.mpr changed)
        exact unchanged.1.trans kept
      obtain ⟨five, there⟩ := strengthened_effective
      have untouched := @strengthened_untouched cfg rules (retainUntil cfg minimum_days bucket.now)
      rw [same] at untouched
      rw [unwritten]
      exact ⟨clean, ⟨_, ensured.effective, five, fun rule member => same ▸ there rule member⟩,
        untouched⟩

/-- What a call for a bucket with two rules of one namespace reports is what it has. -/
theorem reported_twice :
    ∃ lock after, run (Bucket.handler ⟨day, none, none⟩) (ensureR2BucketLock sampleReplica none)
      twice = (.ok lock, after) ∧ Reported sampleReplica twice lock after := by
  obtain ⟨lock, after, ran⟩ := @ensure_returns sampleReplica rfl rfl none day twice
  exact ⟨lock, after, ran, (reported_iff ran).mpr (Or.inl (by decide))⟩

/-- A bucket in which every namespace is locked for good, and a rule over the whole
repository that an earlier version left behind. -/
def leftBehind : List R2Rule :=
  ⟨"immutavault-retention", true, "immutavault/", .indefinite⟩ ::
    namespaces.map fun ns =>
      ⟨"immutavault-retention-" ++ ns.2, true, "immutavault/" ++ ns.1, .indefinite⟩

/-- The rule that was left behind stays in such a bucket. -/
theorem left_behind_stays :
    ∃ lock after, run (Bucket.handler ⟨day, none, none⟩) (ensureR2BucketLock sampleReplica none)
      leftBehind = (.ok lock, after) ∧ ¬ Reported sampleReplica leftBehind lock after := by
  obtain ⟨lock, after, ran⟩ := @ensure_returns sampleReplica rfl rfl none day leftBehind
  refine ⟨lock, after, ran, fun reported => ?_⟩
  have unchanged : ¬ (strengthened sampleReplica (retainUntil sampleReplica none day)
      leftBehind).changed = true := by decide
  have same : after = leftBehind := (ensured_of_run ran).after.trans (if_neg unchanged)
  have clean := reported.clean ⟨"immutavault-retention", true, "immutavault/", .indefinite⟩
    (same ▸ List.mem_cons_self)
  exact absurd clean (by decide)

end Frame

section Protection

/-- How far an object is protected: not at all, up to a moment, or for good. -/
abbrev Horizon := WithBot (WithTop Timestamp)

/-- How far a rule protects its objects. -/
def reach (rule : R2Rule) : Horizon :=
  if rule.enabled then
    match rule.condition with
    | .indefinite => ⊤
    | .date _ (some moment) => ((moment : WithTop Timestamp) : Horizon)
    | _ => ⊥
  else ⊥

def applies (rule : R2Rule) (key : String) : Bool := rule.keyPrefix.toList.isPrefixOf key.toList

/-- How far the rules of a bucket protect an object: as far as the one that reaches furthest. -/
def protection (rules : List R2Rule) (key : String) : Horizon :=
  ((rules.filter fun rule => applies rule key).map reach).foldr max ⊥

variable (cfg : ReplicaConfig)

/-- The locks of a repository, which come and go. -/
def Transient (key : String) : Prop := (listPrefix cfg ++ "locks/").toList <+: key.toList

instance (key : String) : Decidable (Transient cfg key) := by
  unfold Transient
  infer_instance

/-- The positions of a list that are written over. -/
def displaced (found : List R2Rule) (horizon : Timestamp) (entry : R2Rule × Nat) : Bool :=
  (persistentLockSpecs cfg horizon).any (displaces found horizon entry.2)

/-- The rules that go when the list is written. -/
def lost (horizon : Timestamp) (rules : List R2Rule) : List R2Rule :=
  let found := rules.filter fun rule => !isLegacy cfg rule
  rules.filter (isLegacy cfg) ++
    (found.zipIdx.filter (displaced cfg found horizon)).map Prod.fst

/-- The rules that stay when the list is written, and those that come. -/
def remaining (horizon : Timestamp) (rules : List R2Rule) : List R2Rule :=
  let found := rules.filter fun rule => !isLegacy cfg rule
  (found.zipIdx.filter fun entry => !displaced cfg found horizon entry).map Prod.fst ++
    (persistentLockSpecs cfg horizon).filter fun wanted => !covered rules horizon wanted

/-- Nothing is written, or every rule that goes and is not about the locks of the repository
has a rule beside it that stays or comes, applies wherever it does, and reaches as far. -/
def Outlived (horizon : Timestamp) (rules : List R2Rule) : Prop :=
  (∀ wanted ∈ persistentLockSpecs cfg horizon, covered rules horizon wanted = true) ∨
    ∀ rule ∈ lost cfg horizon rules, ¬ Transient cfg rule.keyPrefix → reach rule ≠ ⊥ →
      ∃ other ∈ remaining cfg horizon rules, applies other rule.keyPrefix = true ∧
        reach rule ≤ reach other

instance (horizon : Timestamp) (rules : List R2Rule) : Decidable (Outlived cfg horizon rules) := by
  unfold Outlived
  infer_instance

variable {cfg} {bucket : Bucket} {rules after : List R2Rule} {minimum_days : Option Nat}
  {lock : LockInfo} {horizon : Timestamp} {key : String}

theorem protection_cons (rule : R2Rule) (rest : List R2Rule) (key : String) :
    protection (rule :: rest) key =
      if applies rule key then max (reach rule) (protection rest key) else protection rest key := by
  rw [protection, List.filter_cons]
  split <;> rfl

/-- An object is protected as far as each rule that applies to it reaches, and no further. -/
theorem protection_le_iff {bound : Horizon} : protection rules key ≤ bound ↔
    ∀ rule ∈ rules, applies rule key = true → reach rule ≤ bound := by
  induction rules with
  | nil => simp [protection]
  | cons rule rest inductionHypothesis =>
    rw [protection_cons, List.forall_mem_cons]
    split
    · rename_i here
      rw [max_le_iff, inductionHypothesis, forall_prop_of_true here]
    · rename_i elsewhere
      rw [inductionHypothesis]
      simp [elsewhere]

/-- An object that is protected up to a moment has a rule that reaches it. -/
theorem le_protection_iff {bound : Horizon} (some : bound ≠ ⊥) : bound ≤ protection rules key ↔
    ∃ rule ∈ rules, applies rule key = true ∧ bound ≤ reach rule := by
  induction rules with
  | nil => simpa [protection] using some
  | cons rule rest inductionHypothesis =>
    rw [protection_cons]
    split
    · rename_i here
      simp [inductionHypothesis, here]
    · rename_i elsewhere
      simp [inductionHypothesis, elsewhere]

theorem applies_iff {rule : R2Rule} : applies rule key = true ↔
    rule.keyPrefix.toList <+: key.toList := List.isPrefixOf_iff_prefix

theorem mem_zipIdx_filter {found : List R2Rule} {keeps : R2Rule × Nat → Bool} {rule : R2Rule} :
    rule ∈ (found.zipIdx.filter keeps).map Prod.fst ↔
      ∃ position, found[position]? = some rule ∧ keeps (rule, position) = true := by
  simp [List.mem_map, List.mem_filter, List.mem_zipIdx_iff_getElem?]

/-- The rules before the list is written: they go or they stay. -/
theorem mem_rules {rule : R2Rule} (member : rule ∈ rules) :
    rule ∈ lost cfg horizon rules ∨ rule ∈ remaining cfg horizon rules := by
  by_cases legacy : isLegacy cfg rule = true
  · exact Or.inl (List.mem_append_left _ (List.mem_filter.mpr ⟨member, legacy⟩))
  · have kept : rule ∈ rules.filter fun rule => !isLegacy cfg rule :=
      List.mem_filter.mpr ⟨member, by simpa using legacy⟩
    obtain ⟨position, there⟩ := List.mem_iff_getElem?.mp kept
    by_cases goes : displaced cfg (rules.filter fun rule => !isLegacy cfg rule) horizon
        (rule, position) = true
    · exact Or.inl (List.mem_append_right _ (mem_zipIdx_filter.mpr ⟨position, there, goes⟩))
    · refine Or.inr (List.mem_append_left _ (mem_zipIdx_filter.mpr ⟨position, there, ?_⟩))
      simpa using goes

/-- The rules after the list was written. -/
theorem mem_strengthened {rule : R2Rule} :
    rule ∈ (strengthened cfg horizon rules).rules ↔ rule ∈ remaining cfg horizon rules := by
  have distinct := persistentLockSpecs_distinct cfg horizon
  constructor
  · intro member
    rw [strengthened_rules, List.mem_append] at member
    rcases member with old | new
    · obtain ⟨position, inside, rfl⟩ := List.mem_mapIdx.mp old
      unfold replaced
      cases finds : (persistentLockSpecs cfg horizon).find? (displaces _ horizon position) with
      | some wanted =>
        obtain ⟨_, _, uncovered⟩ := displaces_iff.mp (List.find?_some finds)
        have listed := List.mem_of_find?_eq_some finds
        rw [covered_unlegacy listed] at uncovered
        exact List.mem_append_right _ (List.mem_filter.mpr ⟨listed, by simp [uncovered]⟩)
      | none =>
        refine List.mem_append_left _ (mem_zipIdx_filter.mpr
          ⟨position, List.getElem?_eq_getElem inside, ?_⟩)
        simpa [displaced] using finds
    · obtain ⟨listed, absent⟩ := List.mem_filter.mp new
      have uncovered : covered rules horizon rule = false := by
        rw [← covered_unlegacy listed, covered, Option.isNone_iff_eq_none.mp absent]
      exact List.mem_append_right _ (List.mem_filter.mpr ⟨listed, by simp [uncovered]⟩)
  · intro member
    rcases List.mem_append.mp member with stays | comes
    · obtain ⟨position, there, spared⟩ := mem_zipIdx_filter.mp stays
      have finds : (persistentLockSpecs cfg horizon).find?
          (displaces (rules.filter fun rule => !isLegacy cfg rule) horizon position) = none := by
        simpa [displaced] using spared
      have still : ((rules.filter fun rule => !isLegacy cfg rule).mapIdx
          (replaced (rules.filter fun rule => !isLegacy cfg rule) horizon
            (persistentLockSpecs cfg horizon)))[position]? = some rule := by
        rw [List.getElem?_mapIdx, there, Option.map_some, replaced, finds]
        rfl
      rw [strengthened_rules]
      exact List.mem_append_left _ (List.mem_of_getElem? still)
    · obtain ⟨listed, uncovered⟩ := List.mem_filter.mp comes
      have own : settled (rules.filter fun rule => !isLegacy cfg rule) horizon rule = rule := by
        rw [settled_eq, covered_unlegacy listed, if_neg (by simpa using uncovered)]
      have counts := @counting_wanted (rules.filter fun rule => !isLegacy cfg rule) horizon _ distinct
        rule listed
      rw [own] at counts
      exact (counting_some counts).1

theorem applies_trans {one other : R2Rule} (first : applies other one.keyPrefix = true)
    (second : applies one key = true) : applies other key = true :=
  applies_iff.mpr ((applies_iff.mp first).trans (applies_iff.mp second))

/-- A call protects every object outside the locks of its repository at least as far as it
was protected, exactly when the rules that go are outlived. -/
theorem protection_kept_iff
    (ran : run bucket.handler (ensureR2BucketLock cfg minimum_days) rules = (.ok lock, after)) :
    (∀ key, ¬ Transient cfg key → protection rules key ≤ protection after key) ↔
      Outlived cfg (retainUntil cfg minimum_days bucket.now) rules := by
  have ensured := ensured_of_run ran
  by_cases changed :
      (strengthened cfg (retainUntil cfg minimum_days bucket.now) rules).changed = true
  · have written := ensured.after.trans (if_pos changed)
    obtain ⟨wanted, listed, uncovered⟩ := strengthened_changed.mp changed
    have writes : ¬ ∀ wanted ∈ persistentLockSpecs cfg (retainUntil cfg minimum_days bucket.now),
        covered rules (retainUntil cfg minimum_days bucket.now) wanted = true := fun all => by
      rw [all wanted listed] at uncovered
      cases uncovered
    rw [Outlived, or_iff_right writes, written]
    constructor
    · intro kept rule goes outside reaches
      have member : rule ∈ rules := by
        rcases List.mem_append.mp goes with left | closed
        · exact (List.mem_filter.mp left).1
        · obtain ⟨position, there, _⟩ := mem_zipIdx_filter.mp closed
          exact (List.mem_filter.mp (List.mem_of_getElem? there)).1
      have own : reach rule ≤ protection rules rule.keyPrefix :=
        protection_le_iff.mp le_rfl rule member (applies_iff.mpr List.prefix_rfl)
      obtain ⟨other, stands, holds, far⟩ :=
        (le_protection_iff reaches).mp (own.trans (kept rule.keyPrefix outside))
      exact ⟨other, mem_strengthened.mp stands, holds, far⟩
    · intro outlived key outside
      refine protection_le_iff.mpr fun rule member holds => ?_
      rcases @mem_rules cfg rules (retainUntil cfg minimum_days bucket.now) rule member with
        goes | stays
      · by_cases reaches : reach rule = ⊥
        · exact reaches ▸ bot_le
        · have elsewhere : ¬ Transient cfg rule.keyPrefix := fun within =>
            outside (within.trans (applies_iff.mp holds))
          obtain ⟨other, stands, also, far⟩ := outlived rule goes elsewhere reaches
          exact far.trans (protection_le_iff.mp le_rfl other (mem_strengthened.mpr stands)
            (applies_trans also holds))
      · exact protection_le_iff.mp le_rfl rule (mem_strengthened.mpr stays) holds
  · have unwritten := ensured.after.trans (if_neg changed)
    refine iff_of_true (fun key _ => unwritten ▸ le_rfl) (Or.inl fun wanted listed => ?_)
    by_contra uncovered
    exact changed (strengthened_changed.mpr ⟨wanted, listed, by simpa using uncovered⟩)

/-- A bucket whose data were locked for less. -/
def datedBefore : List R2Rule :=
  [⟨"immutavault-retention-data", true, "immutavault/data/", .date "" (some day)⟩,
    ⟨"archive", true, "archive/", .indefinite⟩]

/-- Nothing in such a bucket is protected less than before. -/
theorem protection_kept_dated :
    ∃ lock after, run (Bucket.handler ⟨day, none, none⟩) (ensureR2BucketLock sampleReplica none)
        datedBefore = (.ok lock, after) ∧
      ∀ key, ¬ Transient sampleReplica key → protection datedBefore key ≤ protection after key := by
  obtain ⟨lock, after, ran⟩ := @ensure_returns sampleReplica rfl rfl none day datedBefore
  exact ⟨lock, after, ran, (protection_kept_iff ran).mpr (by decide)⟩

/-- Another replica in the same bucket, with the same default name for its rules. -/
def otherReplica : ReplicaConfig := { sampleReplica with keyPrefix := "second" }

/-- The rules of a replica whose namespaces are locked for good. -/
def lockedForGood : List R2Rule :=
  namespaces.map fun ns =>
    ⟨"immutavault-retention-" ++ ns.2, true, "immutavault/" ++ ns.1, .indefinite⟩

/-- Locking another replica of the bucket takes the protection of the first one away. -/
theorem protection_taken_away :
    ∃ lock after, run (Bucket.handler ⟨day, none, none⟩) (ensureR2BucketLock otherReplica none)
        lockedForGood = (.ok lock, after) ∧
      ¬ ∀ key, ¬ Transient otherReplica key → protection lockedForGood key ≤ protection after key := by
  obtain ⟨lock, after, ran⟩ := @ensure_returns otherReplica rfl rfl none day lockedForGood
  refine ⟨lock, after, ran, fun kept => ?_⟩
  have less : ¬ protection lockedForGood "immutavault/data/0123" ≤
      protection (stored otherReplica (retainUntil otherReplica none day) lockedForGood)
        "immutavault/data/0123" := by decide
  rw [(ensured_of_run ran).after] at kept
  exact less (kept "immutavault/data/0123" (by decide))

end Protection

end Immutavault.BucketLocks
