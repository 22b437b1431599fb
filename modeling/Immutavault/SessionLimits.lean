import Immutavault.Interleavings
import Immutavault.SessionOwnership

/-!
# How many sessions one actor has

Every request of the broker is served by a thread of its own, so openings, closings and
the closing of what has expired interleave. An opening counts the sessions of its actor
in one critical section and enters the new session in another; between the two it mounts,
which takes minutes.

The count is right when it is taken. It stays an upper bound as long as nobody enters
another session of the same actor, for everything else only takes sessions away. So the
limit is kept along every run in which no opening is disturbed between its count and its
entry. Here a close looks its session up and forgets it in two steps, though the manager
does both under its lock: more interleavings are judged than the broker has.
-/

namespace Immutavault.SessionLimits

open Programs Interleavings Values PosixPaths Tables Timestamps GuestFiles SessionOwnership

/-- The number of registered sessions of an actor. -/
def owned (sessions : Keyed Str FLRSession) (actor : Str) : Nat :=
  sessions.rows.countP fun entry => entry.2.owner = actor

/-- The thread that serves one request. -/
def serving (settings : Settings) (casefold : Str → Str) (request : Request) : Prog Unit := do
  let _ ← dispatch settings casefold false false request
  return ()

variable {ι : Type} [DecidableEq ι]

/-- A thread reads the table. -/
def readsTable (thread : ι) (entry : ι × Exchange brokering Exn) : Bool :=
  decide (entry.1 = thread) && match entry.2.1 with | .table => true | _ => false

/-- What happened since a thread last read the table, newest first. -/
def sinceReading (history : List (ι × Exchange brokering Exn)) (thread : ι) :
    List (ι × Exchange brokering Exn) :=
  history.reverse.takeWhile fun entry => ¬ readsTable thread entry

/-- The actor of whom a command enters a session. -/
def entersFor : BrokerCommand → Option Str
  | .register _ session => some session.owner
  | _ => none

/-- Among these exchanges no session of the actor was entered. -/
def EntersNoneOf (actor : Str) (exchanges : List (ι × Exchange brokering Exn)) : Prop :=
  ∀ entry ∈ exchanges, entersFor entry.2.1 ≠ some actor

/-- An opening that is about to enter its session was not disturbed: nobody entered a
session of the same actor since it counted them. -/
def Undisturbed (step : Step brokering Exn ι Broker) : Prop :=
  ∀ actor ∈ entersFor step.command,
    EntersNoneOf actor (sinceReading step.history step.thread)

instance (actor : Str) (exchanges : List (ι × Exchange brokering Exn)) :
    Decidable (EntersNoneOf actor exchanges) :=
  inferInstanceAs (Decidable (∀ _ ∈ _, _))

instance (step : Step brokering Exn ι Broker) : Decidable (Undisturbed step) :=
  inferInstanceAs (Decidable (∀ _ ∈ _, _))

section Discipline

variable (settings : Settings)

/-- What a thread knows is the table as it last read it. It enters a session only where
that table had room for one more of its owner. -/
def counting : Monitor brokering Exn (Option (Keyed Str FLRSession)) where
  permits := fun seen command =>
    match command with
    | .register _ session => ∃ sessions, seen = some sessions ∧
        owned sessions session.owner < settings.max_sessions_per_user
    | _ => True
  possible := fun _ command answer =>
    match command, answer with
    | .table, .error _ => False
    | _, _ => True
  next := fun seen command answer =>
    match command, answer with
    | .table, .ok sessions => some sessions
    | _, _ => seen

variable {settings} {α : Type} {seen : Option (Keyed Str FLRSession)}

/-- What enters nothing is permitted at any time. -/
theorem wp_shrinks {program : Prog α} (shrinks : Shrinks program) :
    wp (counting settings) program (fun _ _ => True) seen := by
  refine wp_of_issues (fun _ => True) shrinks trivial ?_
  intro current command _ nothing
  refine ⟨?_, fun _ _ => trivial⟩
  cases command with
  | register session_id session => exact nothing.elim
  | _ => trivial

theorem looks_startMount (root : Path) :
    Looks (do host (.startMount root (← mountCommand root))) :=
  issues_bind (issues_bind (looks_host _) fun _ => issues_pure _) fun _ => looks_host _

/-- What asks only the host and the clock keeps what is known. -/
theorem keeps_looks {program : Prog α} (looks : Looks program) :
    wp (counting settings) program (fun _ final => final = seen) seen := by
  refine wp_of_issues (fun current => current = seen) looks rfl ?_
  rintro current command rfl outward
  cases command with
  | host request => exact ⟨trivial, fun _ _ => rfl⟩
  | now => exact ⟨trivial, fun _ _ => rfl⟩
  | _ => exact outward.elim

/-- A first part that looks only outside, and what follows it. -/
theorem wp_looking {β : Type} {program : Prog β} {next : β → Prog α} (looks : Looks program)
    (rest : ∀ value, wp (counting settings) (next value) (fun _ _ => True) seen) :
    wp (counting settings) (program >>= next) (fun _ _ => True) seen := by
  refine wp_bind (wp_mono (keeps_looks looks) ?_)
  rintro outcome final rfl
  cases outcome with
  | ok value => exact rest value
  | error error => trivial

/-- A first part that enters nothing, where nothing need be known afterwards. -/
theorem wp_shrinking {β : Type} {program : Prog β} {next : β → Prog α} (shrinks : Shrinks program)
    (rest : ∀ value seen, wp (counting settings) (next value) (fun _ _ => True) seen) :
    wp (counting settings) (program >>= next) (fun _ _ => True) seen := by
  refine wp_bind (wp_mono (wp_shrinks shrinks) ?_)
  intro outcome final _
  cases outcome with
  | ok value => exact rest value final
  | error error => trivial

/-- A mounted session is entered where there was room. -/
theorem wp_mountSession {sessions : Keyed Str FLRSession} (point : FilledPoint)
    (actor session_id : Str) (root : Path)
    (room : owned sessions actor < settings.max_sessions_per_user) :
    wp (counting settings) (mountSession settings point actor session_id root) (fun _ _ => True)
      (some sessions) := by
  refine wp_looking (looks_mountPoint settings point root) fun disks => ?_
  refine wp_looking ((issues_perform _).mpr trivial) fun time => ?_
  refine wp_bind (wp_perform ⟨sessions, rfl, room⟩ fun answer _ => ?_)
  cases answer <;> trivial

theorem wp_withdraw (root : Path) (started : Bool) (error : Exn) :
    wp (counting settings) (withdraw root started error : Prog α) (fun _ _ => True) seen := by
  have ends : Shrinks (do
      host (.closeLog root)
      host (.rmtree root)
      throw error : Prog α) :=
    issues_bind (shrinks_host _) fun _ => issues_bind (shrinks_host _) fun _ => issues_throw _
  refine wp_shrinks (issues_bind (shrinks_cleanupMountPaths _ _) fun _ => ?_)
  dsimp only
  split
  · exact issues_bind (shrinks_host _) fun _ => ends
  · exact ends

/-- An opening enters its session only where the table that it counted had room. -/
theorem wp_openSession (point : FilledPoint) (actor : Str) :
    wp (counting settings) (openSession settings point actor) (fun _ _ => True) seen := by
  unfold openSession
  split
  · exact wp_throw trivial
  refine wp_shrinking (looks_prerequisiteProblems settings).shrinks fun problems seen => ?_
  split
  · exact wp_throw trivial
  refine wp_shrinking (shrinks_cleanupExpired settings) fun _ seen => ?_
  refine wp_bind (wp_perform trivial fun answer possible => ?_)
  cases answer with
  | error error => exact possible.elim
  | ok sessions =>
    dsimp only
    split
    · exact wp_throw trivial
    · rename_i room
      refine wp_looking (looks_host _) fun session_id => ?_
      refine wp_looking (looks_prepareRoot _) fun _ => ?_
      refine wp_bind (wp_attempt (wp_mono (keeps_looks (looks_startMount _)) ?_))
      rintro outcome final rfl
      cases outcome with
      | error error => exact wp_withdraw _ _ _
      | ok _ =>
        refine wp_tryCatch (wp_mono (wp_mountSession point actor session_id _
          (Nat.lt_of_not_le room)) ?_)
        intro outcome final _
        cases outcome with
        | ok session => trivial
        | error error => exact wp_withdraw _ _ _

/-- Every request keeps the discipline. -/
theorem wp_serving (casefold : Str → Str) (request : Request) :
    wp (counting settings) (serving settings casefold request) (fun _ _ => True) none := by
  obtain ⟨order, fields⟩ := request
  have finishes : wp (counting settings) (dispatch settings casefold false false ⟨order, fields⟩)
      (fun _ _ => True) none := by
    cases order with
    | status => exact wp_shrinks (issues_bind (shrinks_status settings) fun _ => issues_pure _)
    | opening point =>
      refine wp_looking (issues_raised _) fun actor => ?_
      cases point with
      | none => exact wp_throw trivial
      | some point =>
        refine wp_looking (issues_raised _) fun point => ?_
        refine wp_bind (wp_mono (wp_openSession point actor) fun outcome final _ => ?_)
        cases outcome <;> trivial
    | browse action =>
      refine wp_shrinks (issues_bind (shrinks_raised _) fun actor => ?_)
      exact issues_bind (shrinks_serveOwned _ _ _ _ _ _ _) fun _ => issues_pure _
    | close =>
      refine wp_shrinks (issues_bind (shrinks_raised _) fun actor => ?_)
      exact issues_bind (shrinks_closeSession _ _ _ _) fun _ => issues_pure _
    | other name =>
      exact wp_shrinks (issues_bind (shrinks_raised _) fun actor => issues_throw _)
  refine wp_bind (wp_mono finishes fun outcome final _ => ?_)
  cases outcome <;> trivial

end Discipline

section Runs

variable {surroundings : Surroundings} {settings : Settings} {broker : Broker}
  {history : List (ι × Exchange brokering Exn)}

/-- What happened since a thread last read the table grows by every exchange, and begins
anew when the thread reads it again. -/
theorem sinceReading_concat (history : List (ι × Exchange brokering Exn)) (thread : ι)
    (entry : ι × Exchange brokering Exn) :
    sinceReading (history ++ [entry]) thread =
      if readsTable thread entry then [] else entry :: sinceReading history thread := by
  simp only [sinceReading, List.reverse_append, List.reverse_singleton, List.singleton_append,
    List.takeWhile_cons]
  cases readsTable thread entry <;> simp

/-- The limit is kept, and what a thread knows bounds what is there, for every actor of
whom no session was entered since. -/
structure Bounded (settings : Settings) (broker : Broker)
    (history : List (ι × Exchange brokering Exn)) (phases : ι → Option (Keyed Str FLRSession)) :
    Prop where
  within : ∀ actor, owned broker.sessions actor ≤ settings.max_sessions_per_user
  recent : ∀ thread sessions, phases thread = some sessions → ∀ actor,
    EntersNoneOf actor (sinceReading history thread) →
      owned broker.sessions actor ≤ owned sessions actor

/-- A command enters at most its own session. -/
theorem owned_updated (sessions : Keyed Str FLRSession) (command : BrokerCommand) (actor : Str)
    (foreign : entersFor command ≠ some actor) :
    owned (Surroundings.updated sessions command) actor ≤ owned sessions actor := by
  cases command with
  | register session_id session =>
    have counted := sessions.countP_store (fun entry => entry.2.owner = actor) session_id session
    have other : session.owner ≠ actor := fun same => foreign (congrArg some same)
    rw [if_neg (by simp [other])] at counted
    exact counted
  | forget session_id => exact sessions.countP_select _ _
  | now => exact le_rfl
  | table => exact le_rfl
  | host request => exact le_rfl

/-- One command of an undisturbed run keeps the limit. -/
theorem bounded_step {phases : ι → Option (Keyed Str FLRSession)} {thread : ι}
    {command : BrokerCommand} (bounded : Bounded settings broker history phases)
    (permitted : (counting settings).permits (phases thread) command)
    (undisturbed : Undisturbed ⟨broker, history, thread, command⟩) :
    Bounded settings (surroundings.handler command broker).2
      (history ++ [(thread, ⟨command, (surroundings.handler command broker).1⟩)])
      (Function.update phases thread ((counting settings).next (phases thread) command
        (surroundings.handler command broker).1)) := by
  constructor
  · intro actor
    by_cases own : entersFor command = some actor
    · cases command with
      | register session_id session =>
        obtain rfl : session.owner = actor := Option.some.inj own
        obtain ⟨sessions, seen, room⟩ := permitted
        have counted := broker.sessions.countP_store
          (fun entry => entry.2.owner = session.owner) session_id session
        have known := bounded.recent thread sessions seen session.owner
          (undisturbed session.owner rfl)
        simp only [decide_true, if_true] at counted
        exact counted.trans (Nat.succ_le_of_lt (known.trans_lt room))
      | _ => cases own
    · exact (owned_updated broker.sessions command actor own).trans (bounded.within actor)
  · intro other sessions seen actor enters
    by_cases reading : other = thread ∧ command = .table
    · obtain ⟨rfl, rfl⟩ := reading
      have same : sessions = broker.sessions := by
        simpa [counting, Surroundings.handler, Surroundings.reply] using seen.symm
      exact same ▸ le_rfl
    · have unread : readsTable other (thread, (⟨command, (surroundings.handler command
          broker).1⟩ : Exchange brokering Exn)) = false := by
        by_cases own : thread = other
        · cases command with
          | table => exact absurd ⟨own.symm, rfl⟩ reading
          | _ => exact Bool.and_false _
        · simp [readsTable, own]
      rw [sinceReading_concat, unread] at enters
      obtain ⟨first, earlier⟩ := List.forall_mem_cons.mp enters
      have known : phases other = some sessions := by
        by_cases own : other = thread
        · subst own
          rw [Function.update_self] at seen
          have kept : (counting settings).next (phases other) command
              (surroundings.handler command broker).1 = phases other := by
            cases command with
            | table => exact absurd ⟨rfl, rfl⟩ reading
            | _ => rfl
          rwa [kept] at seen
        · rwa [Function.update_of_ne own] at seen
      exact (owned_updated broker.sessions command actor first).trans
        (bounded.recent other sessions known actor earlier)

variable (surroundings settings) (casefold : Str → Str)

/-- All requests are about to be served, each by its thread. -/
def arriving (requests : ι → Request) : Pool brokering Exn ι Broker :=
  .start (fun thread => serving settings casefold (requests thread)) {}

/-- The session limit. Over every interleaving of any requests in which no opening is
disturbed between counting its actor's sessions and entering its own, no actor ever has
more sessions than the limit. -/
theorem limit_kept_when_undisturbed (requests : ι → Request) (schedule : List ι)
    (undisturbed : ∀ step ∈ steps surroundings.handler schedule
      (arriving settings casefold requests), Undisturbed step) (actor : Str) :
    owned (interleave surroundings.handler schedule
      (arriving settings casefold requests)).state.sessions actor ≤
        settings.max_sessions_per_user := by
  have preserves : Preserves surroundings.handler (counting settings)
      (@Bounded ι _ settings) Undisturbed fun _ => True := by
    intro broker history phases thread command bounded permitted undisturbed
    refine ⟨trivial, ?_, bounded_step bounded permitted undisturbed⟩
    cases command <;> trivial
  have begun : Bounded settings ({} : Broker) ([] : List (ι × Exchange brokering Exn))
      fun _ => none := by
    refine ⟨fun actor => Nat.zero_le _, ?_⟩
    intro thread sessions seen
    cases seen
  have judged : Judged (counting settings) (fun _ _ => True)
      (arriving settings casefold requests) fun _ => none :=
    fun thread => wp_serving casefold (requests thread)
  obtain ⟨_, phases, _, bounded⟩ :=
    interleave_invariant preserves judged begun schedule undisturbed
  exact bounded.within actor

end Runs

/-- An exchange that drew an identifier. -/
def draws : Exchange brokering Exn → Bool
  | ⟨.host .newIdentifier, _⟩ => true
  | _ => false

/-- An obliging vault that draws two different identifiers. -/
def drawing : Surroundings where
  clock := obliging.clock
  answer := fun log request => match request with
    | .newIdentifier => .ok (if log.any draws then str "b1" else str "a0")
    | other => obliging.answer log other

/-- One session for each user. -/
def single : Settings := { mounting with max_sessions_per_user := 1 }

/-- Alice opens two sessions at a time. -/
def twice : Pool brokering Exn Bool Broker := arriving single id fun _ => opening.request

/-- While one opening of alice has counted her sessions and mounts, another enters one. She
then has two, where one is the limit. -/
theorem limit_exceeded_by_two_openings :
    single.max_sessions_per_user < owned (interleave drawing.handler
      (List.replicate 10 true ++ List.replicate 26 false ++ List.replicate 16 true)
      twice).state.sessions (str "alice") := by
  decide

/-- One opening after the other keeps the limit. -/
theorem limit_kept_when_undisturbed_twice :
    owned (interleave drawing.handler (List.replicate 26 true ++ List.replicate 26 false)
      twice).state.sessions (str "alice") ≤ 1 :=
  limit_kept_when_undisturbed drawing single id (fun _ => opening.request) _
    (by decide) (str "alice")

end Immutavault.SessionLimits
