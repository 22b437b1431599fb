import Immutavault.BucketLocks
import Immutavault.Interleavings

/-!
# Refreshes of one bucket at the same time

A backup copy, a manual hold and other replicas refresh the rules of one bucket, each with
a request that reads the whole list and, if a namespace is not covered, another that writes
the whole list back. Between the two, others may have written. The requests of any number
of calls are interleaved here in every order, over any clock and any failures.

What a call knows is the list that it read or wrote last. As long as every call writes only
over the list that it knows, and no two calls mean different things by one name, every
namespace that a known list covers stays covered, so that what a call reported still holds
when others have followed it. Nothing in the calls makes sure of the first: a hold for a
year is lost to a refresh that had read the list before.
-/

namespace Immutavault.RefreshRaces

open Programs Values Timestamps Configuration Machine ProviderLocks BucketLocks Interleavings

/-- One call: the replica, and the days that it asks for at least. -/
structure Refresh where
  cfg : ReplicaConfig
  minimum_days : Option Nat := none

/-- What the requests of all calls meet, by their number. A write that meets an error may
have been stored all the same. -/
structure Cloud where
  clock : Nat → Timestamp
  reading : Nat → Option Exn := fun _ => none
  writing : Nat → Option Exn := fun _ => none
  arrives : Nat → Bool := fun _ => false

/-- The rules that a bucket has, and how many requests there were. -/
structure Shared where
  rules : List R2Rule
  requests : Nat := 0

def Cloud.handler (cloud : Cloud) : Handler storage Exn Shared
  | .utcnow, shared =>
    (.ok (cloud.clock shared.requests), { shared with requests := shared.requests + 1 })
  | .getRules, shared =>
    (match cloud.reading shared.requests with
      | some error => .error error
      | none => .ok shared.rules, { shared with requests := shared.requests + 1 })
  | .putRules given, shared =>
    match cloud.writing shared.requests with
    | some error => (.error error,
        ⟨if cloud.arrives shared.requests then given else shared.rules, shared.requests + 1⟩)
    | none => (.ok (), ⟨given, shared.requests + 1⟩)
  | .client, shared | .preflight, shared | .listObjects _, shared | .getRetention _, shared
  | .putRetention .., shared => (.error ⟨.otherError, "not a lock of a bucket"⟩, shared)

section Calls

variable {ι : Type} [DecidableEq ι] (calls : ι → Refresh)

/-- The call itself. -/
def Refresh.ensure (call : Refresh) : StorageProg LockInfo :=
  ensureR2BucketLock call.cfg call.minimum_days

/-- All calls, before any of them has made a request. -/
def started (rules : List R2Rule) : Pool storage Exn ι Shared :=
  Pool.start (fun thread => (calls thread).ensure >>= fun _ => pure ()) ⟨rules, 0⟩

deriving instance DecidableEq for Storage

/-- What a call still does. -/
def left (pool : Pool storage Exn ι Shared) (thread : ι) : StorageProg LockInfo :=
  resumed (calls thread).ensure (exchangesOf thread pool.history)

/-- What a call reported, when it has returned. -/
def reported (pool : Pool storage Exn ι Shared) (thread : ι) : Option LockInfo :=
  match left calls pool thread with
  | .ret lock => some lock
  | _ => none

/-- What a call knows: the list of rules that it read or wrote last, and the time that it was
told. -/
structure Knowledge where
  rules : Option (List R2Rule) := none
  now : Option Timestamp := none

def learn (known : Knowledge) : Exchange storage Exn → Knowledge
  | ⟨.getRules, .ok rules⟩ => { known with rules := some rules }
  | ⟨.putRules rules, .ok _⟩ => { known with rules := some rules }
  | ⟨.utcnow, .ok now⟩ => { known with now := some now }
  | _ => known

def known (pool : Pool storage Exn ι Shared) (thread : ι) : Knowledge :=
  (exchangesOf thread pool.history).foldl learn {}

/-- A call that is about to write knows the rules that the bucket has. -/
def Steady (pool : Pool storage Exn ι Shared) (thread : ι) : Prop :=
  match pool.threads thread with
  | .call (.putRules _) _ => (known pool thread).rules = some pool.state.rules
  | _ => True

instance (pool : Pool storage Exn ι Shared) (thread : ι) : Decidable (Steady pool thread) := by
  unfold Steady
  split <;> infer_instance

/-- Every namespace is protected at least as far as each call for it reported. -/
def HorizonsKept (pool : Pool storage Exn ι Shared) : Prop :=
  ∀ thread lock, reported calls pool thread = some lock →
    ∃ horizon, lock.retain_until = some horizon ∧ ∀ entry ∈ namespaces,
      ((horizon : WithTop Timestamp) : Horizon) ≤
        protection pool.state.rules (listPrefix (calls thread).cfg ++ entry.1)

end Calls

section Names

/-- The name of the rule that a replica has for a namespace. -/
def ruleId (cfg : ReplicaConfig) (entry : String × String) : String :=
  cfg.r2_lock_rule_id ++ "-" ++ entry.2

/-- Two replicas do not mean different objects by one name, and the first has no rule that the
second takes for one of an earlier version. -/
def Compatible (one other : ReplicaConfig) : Prop :=
  ∀ mine ∈ namespaces,
    (∀ theirs ∈ namespaces, ruleId one mine = ruleId other theirs →
      listPrefix one ++ mine.1 = listPrefix other ++ theirs.1) ∧
    ¬ (ruleId one mine = other.r2_lock_rule_id ∧ listPrefix one ++ mine.1 = listPrefix other)

instance (one other : ReplicaConfig) : Decidable (Compatible one other) := by
  unfold Compatible
  infer_instance

variable {cfg other : ReplicaConfig} {rules before after : List R2Rule} {horizon : Timestamp}

/-- A namespace of a replica that was covered up to a moment is so afterwards. -/
def Retains (cfg : ReplicaConfig) (before after : List R2Rule) : Prop :=
  ∀ horizon, ∀ wanted ∈ persistentLockSpecs cfg horizon,
    covered before horizon wanted = true → covered after horizon wanted = true

theorem Retains.refl (cfg : ReplicaConfig) (rules : List R2Rule) : Retains cfg rules rules :=
  fun _ _ _ covers => covers

theorem Retains.trans {between : List R2Rule} (first : Retains cfg before between)
    (second : Retains cfg between after) : Retains cfg before after :=
  fun horizon wanted listed covers =>
    second horizon wanted listed (first horizon wanted listed covers)

theorem counting_filter_none {id : String} {keeps : R2Rule → Bool}
    (absent : counting id rules = none) : counting id (rules.filter keeps) = none := by
  induction rules with
  | nil => rfl
  | cons rule rest inductionHypothesis =>
    rw [counting_cons, Option.or_eq_none_iff] at absent
    have later := inductionHypothesis absent.1
    rw [List.filter_cons]
    split
    · rw [counting_cons, later, absent.2]
      rfl
    · exact later

/-- The rule that counts is still the one that counts when others are dropped. -/
theorem counting_kept {id : String} {keeps : R2Rule → Bool} {rule : R2Rule}
    (counts : counting id rules = some rule) (kept : keeps rule = true) :
    counting id (rules.filter keeps) = some rule := by
  induction rules with
  | nil => cases counts
  | cons first rest inductionHypothesis =>
    rw [counting_cons] at counts
    rw [List.filter_cons]
    cases later : counting id rest with
    | some found =>
      rw [later, Option.some_or] at counts
      have still := inductionHypothesis (later.trans counts)
      split
      · rw [counting_cons, still, Option.some_or]
      · exact still
    | none =>
      rw [later, Option.none_or] at counts
      split at counts
      · rename_i named
        cases counts
        rw [if_pos kept, counting_cons, counting_filter_none later, if_pos named, Option.none_or]
      · cases counts

/-- A call that writes over the rules that the bucket has leaves covered what was covered, also
for other replicas. -/
theorem retains_strengthened (compatible : Compatible other cfg) :
    Retains other rules (strengthened cfg horizon rules).rules := by
  intro moment expected listed covers
  obtain ⟨existing, counts, reaches, same⟩ := covered_iff.mp covers
  obtain ⟨mine, member, rfl⟩ := List.mem_map.mp listed
  obtain ⟨alike, unlegacy⟩ := compatible mine member
  have distinct := persistentLockSpecs_distinct cfg horizon
  have kept : counting (ruleId other mine) (rules.filter fun rule => !isLegacy cfg rule) =
      some existing := by
    refine counting_kept counts ?_
    have named := (counting_some counts).2
    simp only [isLegacy, Bool.not_eq_true', decide_eq_false_iff_not]
    rintro ⟨base, root⟩
    exact unlegacy ⟨named.symm.trans base, same.symm.trans root⟩
  by_cases theirs : ∃ wanted ∈ persistentLockSpecs cfg horizon, wanted.id = ruleId other mine
  · obtain ⟨wanted, listed, named⟩ := theirs
    have settles := @counting_wanted (rules.filter fun rule => !isLegacy cfg rule) horizon _
      distinct wanted listed
    rw [named] at settles
    have prefixes : listPrefix other ++ mine.1 = wanted.keyPrefix := by
      obtain ⟨entry, within, rfl⟩ := List.mem_map.mp listed
      exact alike entry within named.symm
    refine covered_iff.mpr ⟨_, settles, ?_⟩
    by_cases far : covered (rules.filter fun rule => !isLegacy cfg rule) horizon wanted = true
    · rw [settled_eq, if_pos far, named, kept]
      exact ⟨reaches, same⟩
    · rw [settled_eq, if_neg far]
      refine ⟨?_, prefixes.symm⟩
      have later : ¬ existing.coversUntil horizon = true := fun reached =>
        far (covered_iff.mpr ⟨existing, named ▸ kept, reached, same.trans prefixes⟩)
      have before : moment ≤ horizon := by
        by_contra beyond
        exact later (coversUntil_mono (le_of_not_ge beyond) reaches)
      exact coversUntil_mono before (persistentLockSpecs_cover cfg horizon _ listed)
  · have unwanted : ∀ wanted ∈ persistentLockSpecs cfg horizon, wanted.id ≠ ruleId other mine :=
      fun wanted listed named => theirs ⟨wanted, listed, named⟩
    exact covered_iff.mpr
      ⟨existing, (counting_unwanted distinct unwanted).trans kept, reaches, same⟩

/-- A covered namespace is protected as far. -/
theorem protection_of_covered {wanted : R2Rule} (covers : covered rules horizon wanted = true) :
    ((horizon : WithTop Timestamp) : Horizon) ≤ protection rules wanted.keyPrefix := by
  obtain ⟨existing, counts, reaches, same⟩ := covered_iff.mp covers
  have applies : applies existing wanted.keyPrefix = true :=
    applies_iff.mpr (same ▸ List.prefix_rfl)
  refine le_trans ?_ (protection_le_iff.mp le_rfl existing (counting_some counts).1 applies)
  simp only [R2Rule.coversUntil, Bool.and_eq_true] at reaches
  obtain ⟨enabled, far⟩ := reaches
  rw [reach, if_pos enabled]
  cases condition : existing.condition with
  | indefinite => exact le_top
  | other type => simp [condition] at far
  | date text moment =>
    cases moment with
    | none => simp [condition] at far
    | some moment =>
      have later : horizon ≤ moment := by simpa [condition] using far
      exact WithBot.coe_le_coe.mpr (WithTop.coe_le_coe.mpr later)

end Names

section Judgement

/-- A call writes what it makes of the list that it knows. -/
def writing (cfg : ReplicaConfig) : Monitor storage Exn Knowledge where
  permits known command := ∀ written, command = .putRules written →
    ∃ rules horizon, known.rules = some rules ∧ written = (strengthened cfg horizon rules).rules
  possible _ _ _ := True
  next known command answer := learn known ⟨command, answer⟩

/-- A call that returned reports the moment that follows from the time it was told, and knows
a list in which every namespace is covered as far. -/
def Reached (call : Refresh) (outcome : Except Exn LockInfo) (known : Knowledge) : Prop :=
  ∀ lock, outcome = .ok lock → ∃ rules now, known.rules = some rules ∧ known.now = some now ∧
    lock.retain_until = some (retainUntil call.cfg call.minimum_days now) ∧
    ∀ wanted ∈ persistentLockSpecs call.cfg (retainUntil call.cfg call.minimum_days now),
      covered rules (retainUntil call.cfg call.minimum_days now) wanted = true

theorem ensure_judged (call : Refresh) :
    wp (writing call.cfg) call.ensure (Reached call) {} := by
  have silent {error : Exn} {known : Knowledge} :
      Reached call (.error error) known := fun _ impossible => by cases impossible
  unfold Refresh.ensure ensureR2BucketLock
  split
  · exact wp_throw silent
  refine wp_bind (wp_perform (fun written impossible => by cases impossible) ?_)
  rintro (error | rules) -
  · exact silent
  refine wp_bind (wp_perform (fun written impossible => by cases impossible) ?_)
  rintro (error | now) -
  · exact silent
  dsimp only
  rw [filter_legacy]
  split
  · rename_i changed
    refine wp_bind (wp_perform ?_ ?_)
    · rintro written same
      cases same
      exact ⟨rules, _, rfl, rfl⟩
    rintro (error | _) -
    · exact silent
    refine wp_pure ?_
    rintro lock same
    cases same
    refine ⟨_, now, rfl, rfl, rfl, fun wanted listed => ?_⟩
    have same : stored call.cfg _ rules = (strengthened call.cfg _ rules).rules := if_pos changed
    exact same ▸ @covered_stored call.cfg rules _ wanted listed
  · rename_i unchanged
    refine wp_pure ?_
    rintro lock same
    cases same
    refine ⟨_, now, rfl, rfl, rfl, fun wanted listed => ?_⟩
    have same : stored call.cfg _ rules = rules := if_neg unchanged
    exact same ▸ @covered_stored call.cfg rules _ wanted listed

end Judgement

section Schedules

variable {ι : Type} [DecidableEq ι] {calls : ι → Refresh} {cloud : Cloud}
  {pool : Pool storage Exn ι Shared} {thread : ι}

/-- Every call is what is left of it, and does what it may. -/
structure Sound (calls : ι → Refresh) (pool : Pool storage Exn ι Shared) : Prop where
  threads : ∀ thread, pool.threads thread = left calls pool thread >>= fun _ => pure ()
  judged : ∀ thread, wp (writing (calls thread).cfg) (left calls pool thread)
    (Reached (calls thread)) (known pool thread)

/-- The namespaces that a known list covers are still covered. -/
def Retained (calls : ι → Refresh) (pool : Pool storage Exn ι Shared) : Prop :=
  ∀ thread rules, (known pool thread).rules = some rules →
    Retains (calls thread).cfg rules pool.state.rules

/-- What a request makes of the rules of the bucket. -/
theorem rules_handler (cloud : Cloud) (command : Storage) (shared : Shared) :
    (cloud.handler command shared).2.rules = shared.rules ∨
      ∃ written, command = .putRules written ∧
        (cloud.handler command shared).2.rules = written := by
  cases command with
  | putRules written =>
    dsimp only [Cloud.handler]
    split
    · dsimp only
      split
      · exact Or.inr ⟨written, rfl, rfl⟩
      · exact Or.inl rfl
    · exact Or.inr ⟨written, rfl, rfl⟩
  | _ => exact Or.inl rfl

/-- A call knows the rules that the bucket has, or those that it knew before. -/
theorem learn_handler (cloud : Cloud) (command : Storage) (shared : Shared) (known : Knowledge) :
    (learn known ⟨command, (cloud.handler command shared).1⟩).rules =
        some (cloud.handler command shared).2.rules ∨
      (learn known ⟨command, (cloud.handler command shared).1⟩).rules = known.rules := by
  cases command with
  | getRules =>
    dsimp only [Cloud.handler]
    cases cloud.reading shared.requests with
    | some error => exact Or.inr rfl
    | none => exact Or.inl rfl
  | putRules written =>
    dsimp only [Cloud.handler]
    cases cloud.writing shared.requests with
    | some error => exact Or.inr rfl
    | none => exact Or.inl rfl
  | _ => exact Or.inr rfl

/-- A thread that is about to make a request is a call that is about to make it. -/
theorem Sound.asks (sound : Sound calls pool) {command : Storage}
    {resume : Except Exn command.Answer → StorageProg Unit}
    (current : pool.threads thread = .call command resume) :
    ∃ rest : Except Exn command.Answer → StorageProg LockInfo,
      left calls pool thread = .call command rest := by
  have same := (sound.threads thread).symm.trans current
  cases remains : left calls pool thread with
  | ret lock =>
    rw [remains] at same
    cases same
  | raise error =>
    rw [remains] at same
    cases same
  | call asked rest =>
    rw [remains] at same
    cases same
    exact ⟨rest, rfl⟩

/-- The pool after a thread has made a request. -/
def performed (cloud : Cloud) (pool : Pool storage Exn ι Shared) (thread : ι) (command : Storage)
    (resume : Except Exn command.Answer → StorageProg Unit) : Pool storage Exn ι Shared where
  state := (cloud.handler command pool.state).2
  threads := Function.update pool.threads thread (resume (cloud.handler command pool.state).1)
  history := pool.history ++ [(thread, ⟨command, (cloud.handler command pool.state).1⟩)]

section Performed

variable {command : Storage} {resume : Except Exn command.Answer → StorageProg Unit}
  {rest : Except Exn command.Answer → StorageProg LockInfo} {other : ι}

theorem left_performed (remains : left calls pool thread = .call command rest) :
    left calls (performed cloud pool thread command resume) thread =
      rest (cloud.handler command pool.state).1 := by
  rw [left, performed, exchangesOf_concat, if_pos rfl, resumed_concat, ← left, remains,
    answered_call]

theorem left_other (different : thread ≠ other) :
    left calls (performed cloud pool thread command resume) other = left calls pool other := by
  rw [left, performed, exchangesOf_concat, if_neg different, List.append_nil, ← left]

theorem known_performed : known (performed cloud pool thread command resume) thread =
    learn (known pool thread) ⟨command, (cloud.handler command pool.state).1⟩ := by
  rw [known, performed, exchangesOf_concat, if_pos rfl, List.foldl_append]
  rfl

theorem known_other (different : thread ≠ other) :
    known (performed cloud pool thread command resume) other = known pool other := by
  rw [known, performed, exchangesOf_concat, if_neg different, List.append_nil, ← known]

end Performed

theorem advance_performed {command : Storage}
    {resume : Except Exn command.Answer → StorageProg Unit}
    (current : pool.threads thread = .call command resume) :
    advance cloud.handler pool thread = performed cloud pool thread command resume := by
  rw [advance, current]
  rfl

/-- One request of a thread leaves every call sound. -/
theorem sound_advance (sound : Sound calls pool) :
    Sound calls (advance cloud.handler pool thread) := by
  cases current : pool.threads thread with
  | ret value => rwa [advance, current]
  | raise error => rwa [advance, current]
  | call command resume =>
    obtain ⟨rest, remains⟩ := sound.asks current
    rw [advance_performed current]
    refine ⟨fun other => ?_, fun other => ?_⟩
    · by_cases same : thread = other
      · subst same
        rw [left_performed remains]
        have both := (sound.threads thread).symm.trans current
        rw [remains] at both
        cases both
        exact Function.update_self _ _ _
      · rw [left_other same, ← sound.threads other]
        exact Function.update_of_ne (Ne.symm same) _ _
    · by_cases same : thread = other
      · subst same
        have own := sound.judged thread
        rw [remains] at own
        rw [left_performed remains, known_performed]
        exact own.2 _ trivial
      · rw [left_other same, known_other same]
        exact sound.judged other

/-- One request leaves covered what was known to be covered, when a call writes only over the
rules that it knows. -/
theorem retained_advance (compatible : ∀ one other, Compatible (calls one).cfg (calls other).cfg)
    (sound : Sound calls pool) (retained : Retained calls pool) (steady : Steady pool thread) :
    Retained calls (advance cloud.handler pool thread) := by
  cases current : pool.threads thread with
  | ret value => rwa [advance, current]
  | raise error => rwa [advance, current]
  | call command resume =>
    obtain ⟨rest, remains⟩ := sound.asks current
    have own := sound.judged thread
    rw [remains] at own
    have covers (other : ι) : Retains (calls other).cfg pool.state.rules
        (cloud.handler command pool.state).2.rules := by
      rcases rules_handler cloud command pool.state with same | ⟨written, rfl, same⟩
      · rw [same]
        exact Retains.refl _ _
      · obtain ⟨rules, horizon, knows, makes⟩ := own.1 written rfl
        rw [Steady, current] at steady
        dsimp only at steady
        cases steady.symm.trans knows
        rw [same, makes]
        exact retains_strengthened (compatible other thread)
    rw [advance_performed current]
    intro other rules knows
    by_cases same : thread = other
    · subst same
      rw [known_performed] at knows
      rcases learn_handler cloud command pool.state (known pool thread) with now | before
      · cases now.symm.trans knows
        exact Retains.refl _ _
      · exact (retained thread rules (before.symm.trans knows)).trans (covers thread)
    · rw [known_other same] at knows
      exact (retained other rules knows).trans (covers other)

theorem sound_interleave (sound : Sound calls pool) (schedule : List ι) :
    Sound calls (interleave cloud.handler schedule pool) := by
  induction schedule generalizing pool with
  | nil => exact sound
  | cons thread rest inductionHypothesis => exact inductionHypothesis (sound_advance sound)

theorem retained_interleave
    (compatible : ∀ one other, Compatible (calls one).cfg (calls other).cfg)
    (sound : Sound calls pool) (retained : Retained calls pool) (schedule : List ι)
    (steady : Meets cloud.handler Steady schedule pool) :
    Retained calls (interleave cloud.handler schedule pool) := by
  induction schedule generalizing pool with
  | nil => exact retained
  | cons thread rest inductionHypothesis =>
    exact inductionHypothesis (sound_advance sound)
      (retained_advance compatible sound retained steady.1) steady.2

theorem sound_started (rules : List R2Rule) : Sound calls (started calls rules) where
  threads _ := rfl
  judged thread := ensure_judged (calls thread)

theorem retained_started (rules : List R2Rule) : Retained calls (started calls rules) :=
  fun _ _ impossible => by cases impossible

theorem left_of_reported {lock : LockInfo} (reports : reported calls pool thread = some lock) :
    left calls pool thread = .ret lock := by
  unfold reported at reports
  split at reports
  · rename_i value same
    cases reports
    exact same
  · cases reports

/-- A call whose thread has finished reported the moment that follows from the time it was
told. -/
theorem Sound.reports (sound : Sound calls pool) (finished : pool.threads thread = .ret ()) :
    ∃ lock now, reported calls pool thread = some lock ∧ (known pool thread).now = some now ∧
      lock.retain_until =
        some (retainUntil (calls thread).cfg (calls thread).minimum_days now) := by
  have same := (sound.threads thread).symm.trans finished
  have judged := sound.judged thread
  cases remains : left calls pool thread with
  | ret lock =>
    rw [remains] at judged
    obtain ⟨_, now, _, told, reached, _⟩ := judged lock rfl
    exact ⟨lock, now, by rw [reported, remains], told, reached⟩
  | raise error =>
    rw [remains] at same
    cases same
  | call asked rest =>
    rw [remains] at same
    cases same

/-- Calls that write only over the rules that they know, in any number and any order, lose
nothing of what any of them reported. -/
theorem horizons_kept (compatible : ∀ one other, Compatible (calls one).cfg (calls other).cfg)
    (cloud : Cloud) (rules : List R2Rule) (schedule : List ι)
    (steady : Meets cloud.handler Steady schedule (started calls rules)) :
    HorizonsKept calls (interleave cloud.handler schedule (started calls rules)) := by
  have sound := @sound_interleave _ _ _ cloud _ (@sound_started _ _ calls rules) schedule
  have retained := retained_interleave compatible (sound_started rules) (retained_started rules)
    schedule steady
  intro thread lock reports
  have judged := sound.judged thread
  rw [left_of_reported reports] at judged
  obtain ⟨found, now, knows, _, reached, covers⟩ := judged lock rfl
  refine ⟨_, reached, fun entry member => ?_⟩
  obtain ⟨wanted, listed, named⟩ : ∃ wanted ∈ persistentLockSpecs (calls thread).cfg
      (retainUntil (calls thread).cfg (calls thread).minimum_days now),
      wanted.keyPrefix = listPrefix (calls thread).cfg ++ entry.1 :=
    ⟨_, List.mem_map.mpr ⟨entry, member, rfl⟩, rfl⟩
  rw [← named]
  exact protection_of_covered (retained thread found knows _ wanted listed (covers wanted listed))

/-- A manual hold for a year, and the refresh after a backup copy. -/
def holdAndRefresh : Bool → Refresh
  | true => ⟨sampleReplica, some 365⟩
  | false => ⟨sampleReplica, none⟩

/-- A cloud that serves every request, an hour after the one before. -/
def hourly : Cloud := { clock := fun request => request * (60 * minute) }

/-- When one comes after the other, the hold is kept. -/
theorem horizons_kept_sequential :
    HorizonsKept holdAndRefresh (interleave hourly.handler [true, true, true, false, false, false]
      (started holdAndRefresh [])) := by
  have compatible : ∀ one other,
      Compatible (holdAndRefresh one).cfg (holdAndRefresh other).cfg := by decide
  exact horizons_kept compatible hourly [] _ (by decide)

/-- A refresh that had read the rules before takes the hold back. -/
theorem hold_lost :
    ¬ HorizonsKept holdAndRefresh (interleave hourly.handler [false, true, true, true, false, false]
      (started holdAndRefresh [])) := by
  intro kept
  have sound := @sound_interleave _ _ _ hourly _ (@sound_started _ _ holdAndRefresh [])
    [false, true, true, true, false, false]
  have finished : (interleave hourly.handler [false, true, true, true, false, false]
      (started holdAndRefresh [])).threads true = .ret () := rfl
  obtain ⟨lock, now, reports, told, reached⟩ := sound.reports finished
  obtain ⟨horizon, same, far⟩ := kept true lock reports
  have twice : (known (interleave hourly.handler [false, true, true, true, false, false]
      (started holdAndRefresh [])) true).now = some (2 * (60 * minute)) := by decide
  cases told.symm.trans twice
  cases reached.symm.trans same
  exact absurd (far ("data/", "data") (by decide)) (by decide)

end Schedules

end Immutavault.RefreshRaces
