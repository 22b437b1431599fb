import Mathlib.Data.List.Basic
import Immutavault.ProviderLocks

/-!
# Retention of the objects of a store

An S3 store has a retention for every object. Locking lists the objects page by page, reads
the retention of each persistent one, and asks for a new retention unless the one it read
reaches as far. A read that fails counts as no retention.

So a call that returns leaves every persistent object retained as far as it reports, and does
not touch the locks of the repository. That it never asks for less than an object has is true
exactly as long as no read fails for an object that is retained for longer.
-/

namespace Immutavault.ObjectRetention

open Programs Values Timestamps Configuration ResticRepository Machine ProviderLocks

/-- How a store serves one call: its clock, its objects in pages, the error that breaks the
listing off, and the errors of the reads and of the writes that follow them, by their number. -/
structure Store where
  now : Timestamp
  pages : List (List String)
  connecting : Option Exn := none
  checking : Option Exn := none
  interrupted : Option Exn := none
  reading : Nat → Option Exn := fun _ => none
  putting : Nat → Option Exn := fun _ => none

/-- The retention of every object, and how often one was read. -/
structure Objects where
  retention : String → Option Timestamp
  reads : Nat := 0

/-- An answer, unless there is an error. -/
def served {α : Type} (failing : Option Exn) (answer : α) : Except Exn α :=
  match failing with
  | some error => .error error
  | none => .ok answer

/-- The store retains an object up to a moment. -/
def Objects.retain (objects : Objects) (key : String) (moment : Timestamp) : Objects :=
  { objects with retention := Function.update objects.retention key (some moment) }

@[simp] theorem Objects.retain_self (objects : Objects) (key : String) (moment : Timestamp) :
    (objects.retain key moment).retention key = some moment := Function.update_self ..

theorem Objects.retain_of_ne {objects : Objects} {key other : String} {moment : Timestamp}
    (different : other ≠ key) :
    (objects.retain key moment).retention other = objects.retention other :=
  Function.update_of_ne different ..

def Store.handler (store : Store) : Handler storage Exn Objects
  | .utcnow, objects => (.ok store.now, objects)
  | .client, objects => (served store.connecting (), objects)
  | .preflight, objects => (served store.checking (), objects)
  | .listObjects _, objects => (.ok (store.pages, store.interrupted), objects)
  | .getRetention key, objects =>
    (served (store.reading objects.reads) (objects.retention key),
      { objects with reads := objects.reads + 1 })
  | .putRetention key _ retain_until, objects =>
    match store.putting objects.reads with
    | some error => (.error error, objects)
    | none => (.ok (), objects.retain key retain_until)
  | .getRules, objects | .putRules _, objects => (.error ⟨.otherError, "not an object"⟩, objects)

section Laws

variable (cfg : ReplicaConfig) (store : Store)

/-- The object that a request is about. -/
def touched : Storage → Option String
  | .getRetention key | .putRetention key _ _ => some key
  | _ => none

/-- A request does not ask for less than an object has. -/
def Lasting (entry : Objects × Storage) : Prop :=
  ∀ key mode retain_until existing, entry.2 = .putRetention key mode retain_until →
    entry.1.retention key = some existing → existing ≤ retain_until

/-- An object is retained at least up to a moment. -/
def Retained (objects : Objects) (horizon : Timestamp) (key : String) : Prop :=
  ∃ existing, objects.retention key = some existing ∧ horizon ≤ existing

/-- What a lock call that returned has made sure of, from the requests it made. -/
structure Locked (requests : List (Objects × Storage)) (lock : LockInfo) (after : Objects) :
    Prop where
  retained : ∀ horizon, lock.retain_until = some horizon →
    ∀ key ∈ store.pages.flatten, persistentKey cfg key = true → Retained after horizon key
  apart : ∀ entry ∈ requests, ∀ key, touched entry.2 = some key →
    ¬ key.startsWith (listPrefix cfg ++ "locks/") = true
  lasting : ∀ entry ∈ requests, Lasting entry

/-- The read with this number does not fail for an object that is retained for longer. -/
def Spared (objects : Objects) (horizon : Timestamp) (entry : String × Nat) : Prop :=
  store.reading entry.2 ≠ none → ∀ existing, objects.retention entry.1 = some existing →
    existing ≤ horizon

/-- No read fails for a persistent object that is retained for longer. -/
def Readable (objects : Objects) (horizon : Timestamp) (keys : List String) : Prop :=
  ∀ entry ∈ (keys.filter (persistentKey cfg)).zipIdx objects.reads,
    Spared store objects horizon entry

end Laws

section Runs

variable {cfg : ReplicaConfig} {store : Store} {horizon : Timestamp} {key : String}
  {objects after : Objects}

theorem run_ask (command : Storage) :
    run store.handler (ask command) objects = store.handler command objects :=
  run_perform store.handler command objects

theorem issued_ask (command : Storage) :
    issued store.handler (ask command) objects = [(objects, command)] :=
  issued_perform store.handler command objects

/-- What follows a question that was answered. -/
theorem issued_asked {α : Type} {command : Storage} {value : command.Answer}
    {next : command.Answer → StorageProg α} {middle : Objects}
    (answered : run store.handler (ask command) objects = (.ok value, middle)) :
    issued store.handler (ask command >>= next) objects =
      (objects, command) :: issued store.handler (next value) middle := by
  rw [issued_bind, issued_ask, answered]
  rfl

/-- What reading the retention of an object comes to: a read that fails counts as none. -/
def readRetention (store : Store) (objects : Objects) (key : String) : Option Timestamp :=
  if store.reading objects.reads = none then objects.retention key else none

/-- After a retention was read. -/
def Objects.read (objects : Objects) : Objects := { objects with reads := objects.reads + 1 }

theorem run_read (key : String) :
    run store.handler (tryCatch (ask (.getRetention key)) fun _ => pure none) objects =
      (.ok (readRetention store objects key), objects.read) := by
  rw [run_tryCatch, run_ask]
  dsimp only [Store.handler, readRetention, served]
  cases store.reading objects.reads <;> rfl

theorem issued_read (key : String) :
    issued store.handler (tryCatch (ask (.getRetention key)) fun _ => pure none) objects =
      [(objects, .getRetention key)] := by
  rw [issued_tryCatch, issued_ask, run_ask]
  dsimp only [Store.handler, served]
  cases store.reading objects.reads <;> rfl

/-- An object that does not persist is passed over. -/
theorem lockObject_transient (transient : ¬ persistentKey cfg key = true) :
    lockObject cfg horizon key = pure false :=
  if_pos transient

/-- A retention that was accepted is the retention of the object. -/
theorem put_ran {mode : String} {locked : Bool}
    (ran : run store.handler
      (ask (.putRetention key mode horizon) >>= fun _ => pure true) objects = (.ok locked, after)) :
    after = objects.retain key horizon ∧
      issued store.handler (ask (.putRetention key mode horizon) >>= fun _ => pure true) objects =
        [(objects, .putRetention key mode horizon)] := by
  rw [run_bind, run_ask] at ran
  rw [issued_bind, issued_ask, run_ask]
  dsimp only [Store.handler] at ran ⊢
  cases fails : store.putting objects.reads with
  | some error =>
    rw [fails] at ran
    cases ran
  | none =>
    rw [fails] at ran
    cases ran
    exact ⟨rfl, rfl⟩

/-- What locking a persistent object does, when it returns: nothing, as the retention that was
read reaches as far, or the object gets a new retention. -/
theorem lockObject_cases {locked : Bool} (persistent : persistentKey cfg key = true)
    (ran : run store.handler (lockObject cfg horizon key) objects = (.ok locked, after)) :
    (after = objects.read ∧ Retained objects horizon key ∧ store.reading objects.reads = none ∧
      issued store.handler (lockObject cfg horizon key) objects =
        [(objects, .getRetention key)]) ∨
    (after = objects.read.retain key horizon ∧
      (∀ existing, readRetention store objects key = some existing → existing ≤ horizon) ∧
      issued store.handler (lockObject cfg horizon key) objects =
        [(objects, .getRetention key),
          (objects.read, .putRetention key cfg.object_lock_mode horizon)]) := by
  unfold lockObject at ran ⊢
  rw [if_neg (not_not.mpr persistent)] at ran ⊢
  rw [run_bind, run_read] at ran
  rw [issued_bind, issued_read, run_read]
  dsimp only at ran ⊢
  by_cases far : (readRetention store objects key).any (horizon ≤ ·) = true
  · rw [if_pos far] at ran ⊢
    cases ran
    cases known : readRetention store objects key with
    | none =>
      rw [known] at far
      cases far
    | some existing =>
      rw [known] at far
      unfold readRetention at known
      split at known
      · rename_i serves
        exact Or.inl ⟨rfl, ⟨existing, known, by simpa using far⟩, serves, rfl⟩
      · cases known
  · rw [if_neg far] at ran ⊢
    obtain ⟨same, requests⟩ := put_ran ran
    refine Or.inr ⟨same, fun existing known => ?_, congrArg _ requests⟩
    rw [known] at far
    exact le_of_not_ge (by simpa using far)

/-- Locking several objects is locking the first one and then the others. -/
theorem lockObjects_cons {rest : List String} {counts final : Nat × Nat}
    (ran : run store.handler (lockObjects cfg horizon (key :: rest) counts) objects =
      (.ok final, after)) :
    ∃ locked middle further,
      run store.handler (lockObject cfg horizon key) objects = (.ok locked, middle) ∧
      run store.handler (lockObjects cfg horizon rest further) middle = (.ok final, after) ∧
      issued store.handler (lockObjects cfg horizon (key :: rest) counts) objects =
        issued store.handler (lockObject cfg horizon key) objects ++
          issued store.handler (lockObjects cfg horizon rest further) middle := by
  obtain ⟨locked, middle, first, later⟩ := (run_bind_eq_ok _).mp ran
  have requests := issued_bind store.handler (lockObject cfg horizon key)
    (fun locked => if locked = true then lockObjects cfg horizon rest (counts.1 + 1, counts.2)
      else lockObjects cfg horizon rest (counts.1, counts.2 + 1)) objects
  rw [first] at requests
  cases locked with
  | true => exact ⟨true, middle, _, first, later, requests⟩
  | false => exact ⟨false, middle, _, first, later, requests⟩

theorem Retained.retain {other : String} (retained : Retained objects horizon key) :
    Retained (objects.retain other horizon) horizon key := by
  obtain ⟨existing, known, far⟩ := retained
  by_cases same : key = other
  · subst same
    exact ⟨horizon, objects.retain_self key horizon, le_rfl⟩
  · exact ⟨existing, (Objects.retain_of_ne same).trans known, far⟩

theorem retained_retain (objects : Objects) : Retained (objects.retain key horizon) horizon key :=
  ⟨horizon, objects.retain_self key horizon, le_rfl⟩

/-- Every persistent object of a list is retained, and so is what was retained before. -/
theorem lockObjects_retained {keys : List String} {counts final : Nat × Nat}
    (ran : run store.handler (lockObjects cfg horizon keys counts) objects = (.ok final, after)) :
    (∀ key ∈ keys, persistentKey cfg key = true → Retained after horizon key) ∧
      ∀ key, Retained objects horizon key → Retained after horizon key := by
  induction keys generalizing objects counts with
  | nil =>
    cases ran
    exact ⟨fun _ member => absurd member List.not_mem_nil, fun _ retained => retained⟩
  | cons first rest inductionHypothesis =>
    obtain ⟨locked, middle, further, here, later, _⟩ := lockObjects_cons ran
    obtain ⟨others, kept⟩ := inductionHypothesis later
    have own : (persistentKey cfg first = true → Retained middle horizon first) ∧
        ∀ key, Retained objects horizon key → Retained middle horizon key := by
      by_cases persistent : persistentKey cfg first = true
      · rcases lockObject_cases persistent here with ⟨rfl, retained, _⟩ | ⟨rfl, _⟩
        · exact ⟨fun _ => retained, fun _ before => before⟩
        · exact ⟨fun _ => retained_retain _, fun _ before => Retained.retain before⟩
      · rw [lockObject_transient persistent] at here
        cases here
        exact ⟨fun also => absurd also persistent, fun _ before => before⟩
    refine ⟨fun key member persistent => ?_, fun key before => kept key (own.2 key before)⟩
    rcases List.mem_cons.mp member with rfl | member
    · exact kept key (own.1 persistent)
    · exact others key member persistent

/-- A persistent object is not one of the locks of the repository. -/
theorem persistent_apart (persistent : persistentKey cfg key = true) :
    ¬ key.startsWith (listPrefix cfg ++ "locks/") = true := by
  simp only [persistentKey, decide_eq_true_eq] at persistent
  exact persistent.2

/-- Only persistent objects are touched. -/
theorem lockObjects_apart {keys : List String} {counts final : Nat × Nat}
    (ran : run store.handler (lockObjects cfg horizon keys counts) objects = (.ok final, after)) :
    ∀ entry ∈ issued store.handler (lockObjects cfg horizon keys counts) objects,
      ∀ key, touched entry.2 = some key → persistentKey cfg key = true := by
  induction keys generalizing objects counts with
  | nil => exact fun _ member => absurd member List.not_mem_nil
  | cons first rest inductionHypothesis =>
    obtain ⟨locked, middle, further, here, later, requests⟩ := lockObjects_cons ran
    rw [requests]
    intro entry member key about
    rcases List.mem_append.mp member with now | then_
    · by_cases persistent : persistentKey cfg first = true
      · have same : key = first := by
          rcases lockObject_cases persistent here with ⟨_, _, _, asked⟩ | ⟨_, _, asked⟩
          · rw [asked, List.mem_singleton] at now
            subst now
            exact (Option.some.inj about).symm
          · rw [asked, List.mem_cons, List.mem_singleton] at now
            rcases now with rfl | rfl
            · exact (Option.some.inj about).symm
            · exact (Option.some.inj about).symm
        exact same ▸ persistent
      · rw [lockObject_transient persistent] at now
        cases now
    · exact inductionHypothesis later entry then_ key about

/-- An object may get a retention up to the moment without losing any. -/
def Fits (objects : Objects) (horizon : Timestamp) (key : String) : Prop :=
  ∀ existing, objects.retention key = some existing → existing ≤ horizon

theorem readable_cons {rest : List String} (persistent : persistentKey cfg key = true) :
    Readable cfg store objects horizon (key :: rest) ↔
      Spared store objects horizon (key, objects.reads) ∧
        Readable cfg store objects.read horizon rest := by
  rw [Readable, List.filter_cons, if_pos persistent, List.zipIdx_cons, List.forall_mem_cons]
  rfl

/-- A retention that fits does not change which reads may fail. -/
theorem readable_retain {keys : List String} (fits : Fits objects horizon key) :
    Readable cfg store (objects.retain key horizon) horizon keys ↔
      Readable cfg store objects horizon keys := by
  have alike : ∀ entry, Spared store (objects.retain key horizon) horizon entry ↔
      Spared store objects horizon entry := by
    intro entry
    by_cases same : entry.1 = key
    · refine iff_of_true (fun _ existing known => ?_) (fun _ existing known => ?_)
      · rw [same, Objects.retain_self] at known
        cases known
        exact le_rfl
      · exact fits existing (same ▸ known)
    · rw [Spared, Spared, Objects.retain_of_ne same]
  exact forall_congr' fun entry => imp_congr Iff.rfl (alike entry)

/-- A list of objects is locked without asking for less than one has, exactly when no read
fails for an object that is retained for longer. -/
theorem lockObjects_lasting {keys : List String} {counts final : Nat × Nat}
    (ran : run store.handler (lockObjects cfg horizon keys counts) objects = (.ok final, after)) :
    (∀ entry ∈ issued store.handler (lockObjects cfg horizon keys counts) objects, Lasting entry) ↔
      Readable cfg store objects horizon keys := by
  induction keys generalizing objects counts with
  | nil =>
    exact iff_of_true (fun _ member => absurd member List.not_mem_nil)
      (fun _ member => absurd member List.not_mem_nil)
  | cons first rest inductionHypothesis =>
    obtain ⟨locked, middle, further, here, later, requests⟩ := lockObjects_cons ran
    rw [requests, List.forall_mem_append, inductionHypothesis later]
    have reading : Lasting (objects, .getRetention first) := fun _ _ _ _ same => by cases same
    by_cases persistent : persistentKey cfg first = true
    · rw [readable_cons persistent]
      rcases lockObject_cases persistent here with ⟨rfl, _, serves, asked⟩ | ⟨rfl, known, asked⟩
      · rw [asked, List.forall_mem_singleton]
        exact and_congr_left fun _ => iff_of_true reading fun fails => absurd serves fails
      · rw [asked, List.forall_mem_cons, List.forall_mem_singleton, and_iff_right reading]
        have putting : Lasting (objects.read, .putRetention first cfg.object_lock_mode horizon) ↔
            Fits objects horizon first := by
          constructor
          · exact fun lasts existing known => lasts _ _ _ existing rfl known
          · intro fits key mode retain_until existing same known
            cases same
            exact fits existing known
        have spared : Spared store objects horizon (first, objects.reads) ↔
            Fits objects horizon first := by
          by_cases serves : store.reading objects.reads = none
          · refine iff_of_true (fun fails => absurd serves fails) fun existing there => ?_
            exact known existing (by rw [readRetention, if_pos serves, there])
          · exact ⟨fun spares => spares serves, fun fits _ => fits⟩
        rw [putting, spared]
        exact and_congr_right fun fits =>
          @readable_retain cfg store horizon first objects.read _ fits
    · rw [lockObject_transient persistent] at here ⊢
      cases here
      have passed : Readable cfg store objects horizon (first :: rest) ↔
          Readable cfg store objects horizon rest := by
        rw [Readable, List.filter_cons, if_neg persistent]
        rfl
      rw [passed]
      exact and_iff_right fun _ member => absurd member List.not_mem_nil

/-- The moment that a call reports. -/
def retainUntil (cfg : ReplicaConfig) (minimum_days : Option Nat) (store : Store) : Timestamp :=
  addDays store.now (max cfg.object_lock_days (minimum_days.getD 0))

/-- A call of a locked store that returned has locked its objects, and made no other request
about an object. -/
theorem applyObjectLock_ran {minimum_days : Option Nat} {lock : LockInfo}
    (enabled : cfg.object_lock_enabled = true)
    (ran : run store.handler (applyObjectLock cfg minimum_days) objects = (.ok lock, after)) :
    lock.retain_until = some (retainUntil cfg minimum_days store) ∧
      ∃ final, run store.handler (lockObjects cfg (retainUntil cfg minimum_days store)
          store.pages.flatten (0, 0)) objects = (.ok final, after) ∧
        issued store.handler (applyObjectLock cfg minimum_days) objects =
          [(objects, .client), (objects, .preflight), (objects, .utcnow),
            (objects, .listObjects (listPrefix cfg))] ++
            issued store.handler (lockObjects cfg (retainUntil cfg minimum_days store)
              store.pages.flatten (0, 0)) objects := by
  unfold applyObjectLock at ran ⊢
  rw [if_neg (not_not.mpr enabled)] at ran ⊢
  split at ran
  · cases ran
  rename_i stored
  rw [if_neg stored]
  obtain ⟨_, connected, connecting, rest⟩ := (run_bind_eq_ok _).mp ran
  obtain ⟨_, checked, checking, rest⟩ := (run_bind_eq_ok _).mp rest
  obtain ⟨now, timed, timing, rest⟩ := (run_bind_eq_ok _).mp rest
  obtain ⟨⟨pages, interrupted⟩, listed, listing, rest⟩ := (run_bind_eq_ok _).mp rest
  obtain ⟨final, locked, locking, ended⟩ := (run_bind_eq_ok _).mp rest
  rw [issued_asked connecting, issued_asked checking, issued_asked timing, issued_asked listing,
    issued_bind, locking]
  obtain rfl : connected = objects := (congrArg Prod.snd ((run_ask _).symm.trans connecting)).symm
  obtain rfl : checked = connected := (congrArg Prod.snd ((run_ask _).symm.trans checking)).symm
  cases (run_ask _).symm.trans timing
  cases (run_ask _).symm.trans listing
  cases interrupts : store.interrupted with
  | some error =>
    rw [interrupts] at ended
    cases ended
  | none =>
    rw [interrupts] at ended
    cases ended
    refine ⟨rfl, final, locking, ?_⟩
    exact congrArg ([_, _, _, _] ++ ·) (List.append_nil _)

/-- Locking objects returns when no write fails, whatever reads do. -/
theorem lockObjects_returns (accepts : ∀ reads, store.putting reads = none) (keys : List String)
    (counts : Nat × Nat) (objects : Objects) :
    ∃ final after, run store.handler (lockObjects cfg horizon keys counts) objects =
      (.ok final, after) := by
  induction keys generalizing counts objects with
  | nil => exact ⟨_, _, rfl⟩
  | cons first rest inductionHypothesis =>
    obtain ⟨locked, middle, here⟩ : ∃ locked middle,
        run store.handler (lockObject cfg horizon first) objects = (.ok locked, middle) := by
      by_cases persistent : persistentKey cfg first = true
      · unfold lockObject
        rw [if_neg (not_not.mpr persistent), run_bind, run_read]
        dsimp only
        split
        · exact ⟨_, _, rfl⟩
        · rw [run_bind, run_ask]
          dsimp only [Store.handler]
          rw [accepts]
          exact ⟨_, _, rfl⟩
      · rw [lockObject_transient persistent]
        exact ⟨_, _, rfl⟩
    rw [lockObjects, run_bind, here]
    dsimp only
    split
    · exact inductionHypothesis _ _
    · exact inductionHypothesis _ _

/-- So does a call for a store that serves everything but reads. -/
theorem applyObjectLock_returns (enabled : cfg.object_lock_enabled = true)
    (backend : cfg.backend = .s3) (store : Store) (connects : store.connecting = none)
    (checks : store.checking = none) (whole : store.interrupted = none)
    (accepts : ∀ reads, store.putting reads = none) (minimum_days : Option Nat)
    (objects : Objects) :
    ∃ lock after, run store.handler (applyObjectLock cfg minimum_days) objects =
      (.ok lock, after) := by
  obtain ⟨final, after, locking⟩ := @lockObjects_returns cfg store
    (retainUntil cfg minimum_days store) accepts store.pages.flatten (0, 0) objects
  unfold applyObjectLock
  rw [if_neg (not_not.mpr enabled), if_neg (not_not.mpr backend), run_bind, run_ask]
  dsimp only [Store.handler]
  rw [connects]
  dsimp only [served]
  rw [run_bind, run_ask]
  dsimp only [Store.handler]
  rw [checks]
  dsimp only [served]
  rw [run_bind, run_ask]
  dsimp only [Store.handler]
  rw [run_bind, run_ask]
  dsimp only [Store.handler]
  rw [retainUntil] at locking
  rw [whole, run_bind, locking]
  exact ⟨_, _, rfl⟩

/-- A call that returned has kept all it promises, exactly when the store is not locked by
objects or no read failed for an object that is retained for longer. -/
theorem locked_iff {minimum_days : Option Nat} {lock : LockInfo}
    (ran : run store.handler (applyObjectLock cfg minimum_days) objects = (.ok lock, after)) :
    Locked cfg store (issued store.handler (applyObjectLock cfg minimum_days) objects) lock after ↔
      cfg.object_lock_enabled = false ∨
        Readable cfg store objects (retainUntil cfg minimum_days store) store.pages.flatten := by
  by_cases enabled : cfg.object_lock_enabled = true
  · rw [enabled, or_iff_right (by simp)]
    obtain ⟨reports, final, locking, requests⟩ := applyObjectLock_ran enabled ran
    have lasting := lockObjects_lasting locking
    have silent (command : Storage) (unlocking : touched command = none) :
        Lasting (objects, command) := by
      intro key mode retain_until existing same
      dsimp only at same
      subst same
      cases unlocking
    constructor
    · intro locked
      refine lasting.mp fun entry member => locked.lasting entry ?_
      exact requests ▸ List.mem_append_right _ member
    · intro readable
      refine ⟨fun horizon same => ?_, fun entry member key about => ?_, fun entry member => ?_⟩
      · cases reports.symm.trans same
        exact (lockObjects_retained locking).1
      · rw [requests] at member
        rcases List.mem_append.mp member with before | within
        · simp only [List.mem_cons, List.not_mem_nil, or_false] at before
          rcases before with rfl | rfl | rfl | rfl <;> cases about
        · exact persistent_apart (lockObjects_apart locking entry within key about)
      · rw [requests] at member
        rcases List.mem_append.mp member with before | within
        · simp only [List.mem_cons, List.not_mem_nil, or_false] at before
          rcases before with rfl | rfl | rfl | rfl <;> exact silent _ rfl
        · exact lasting.mpr readable entry within
  · have disabled : applyObjectLock cfg minimum_days = pure ⟨none, [("enabled", .bool false),
        ("locked", .int 0), ("skipped", .int 0)]⟩ := if_pos enabled
    rw [disabled] at ran ⊢
    cases ran
    refine iff_of_true ⟨fun _ impossible => ?_, fun _ member => ?_, fun _ member => ?_⟩
      (Or.inl (by simpa using enabled))
    · cases impossible
    · exact absurd member List.not_mem_nil
    · exact absurd member List.not_mem_nil

/-- A bucket whose objects are locked. -/
def sampleReplica : ReplicaConfig :=
  { name := "b2", backend := .s3, provider := "backblaze_b2", keyPrefix := "vault"
    object_lock_enabled := true }

/-- A store with two pages of objects, one of them a lock of the repository. One read fails. -/
def sampleStore (failing : Nat) : Store where
  now := day
  pages := [["vault/data/abc", "vault/locks/temp"], ["vault/config"]]
  reading := fun read => if read = failing then some ⟨.otherError, "SlowDown"⟩ else none

/-- One of the objects is retained for a year, the others have no retention. -/
def held : Objects where
  retention := fun key => if key = "vault/data/abc" then some (addDays day 365) else none

theorem sampleStore_persistent (failing : Nat) :
    (sampleStore failing).pages.flatten.filter (persistentKey sampleReplica) =
      ["vault/data/abc", "vault/config"] := by
  change ["vault/data/abc", "vault/locks/temp", "vault/config"].filter _ = _
  decide +kernel

/-- When the read fails for the object without a retention, all promises are kept. -/
theorem locked_unretained :
    ∃ lock after, run (sampleStore 1).handler (applyObjectLock sampleReplica none) held =
        (.ok lock, after) ∧
      Locked sampleReplica (sampleStore 1)
        (issued (sampleStore 1).handler (applyObjectLock sampleReplica none) held) lock after := by
  obtain ⟨lock, after, ran⟩ := @applyObjectLock_returns sampleReplica rfl rfl (sampleStore 1) rfl
    rfl rfl (fun _ => rfl) none held
  refine ⟨lock, after, ran, (locked_iff ran).mpr (Or.inr ?_)⟩
  rw [Readable, sampleStore_persistent]
  rintro ⟨key, read⟩ member fails existing known
  simp only [held, List.zipIdx_cons, List.zipIdx_nil, List.mem_cons, Prod.mk.injEq,
    List.not_mem_nil, or_false] at member
  rcases member with ⟨rfl, rfl⟩ | ⟨rfl, rfl⟩
  · exact absurd rfl fails
  · cases known

/-- When it fails for the object that is retained for a year, the store is asked to retain it
for a month. -/
theorem held_shortened :
    ∃ lock after, run (sampleStore 0).handler (applyObjectLock sampleReplica none) held =
        (.ok lock, after) ∧
      ¬ Locked sampleReplica (sampleStore 0)
        (issued (sampleStore 0).handler (applyObjectLock sampleReplica none) held) lock after := by
  obtain ⟨lock, after, ran⟩ := @applyObjectLock_returns sampleReplica rfl rfl (sampleStore 0) rfl
    rfl rfl (fun _ => rfl) none held
  refine ⟨lock, after, ran, fun locked => ?_⟩
  obtain ⟨_, final, locking, requests⟩ := applyObjectLock_ran rfl ran
  have readable := (lockObjects_lasting locking).mp fun entry member =>
    locked.lasting entry (requests ▸ List.mem_append_right _ member)
  rw [Readable, sampleStore_persistent] at readable
  have short := readable ("vault/data/abc", 0) (by simp [held]) (by simp [sampleStore])
    (addDays day 365) rfl
  exact absurd short (by decide)

end Runs

end Immutavault.ObjectRetention
