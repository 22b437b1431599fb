import Mathlib.Data.Fintype.Defs
import Immutavault.SessionLimits

/-!
# What becomes of a session that is being opened

Every request but a close begins with a clean-up, which also removes each directory
below the mount root that belongs to no registered session and is older than a session
may live. An opening registers its session last, so until then its directory belongs to
nobody, and only its age protects it.

A thread may take a directory away for three reasons: it is the directory of its own
opening, it belongs to a session that the thread found in the table, or the thread found
it too old. The first two never concern the opening of another thread, because
identifiers are drawn once and a registered session is no longer being opened. The third
does not as long as an opening ends before its directory is as old as a session may be.
-/

namespace Immutavault.OpeningSessions

open Programs Interleavings Values PosixPaths Tables Timestamps GuestFiles SessionOwnership
  SessionLimits

/-- A command that unmounts or removes the directories of a session's root. Mounting a
guest counts as well. -/
def Takes (root : Path) : BrokerCommand → Prop
  | .host (.rmtree path) => path = root
  | .host (.run argv) => argv.getLast? = some (guestMount root).format ∨
      argv.getLast? = some (resticMount root).format
  | _ => False

instance (root : Path) (command : BrokerCommand) : Decidable (Takes root command) := by
  unfold Takes
  split <;> infer_instance

/-- What a thread has learnt: the identifier it drew and whether it registered a session,
the sessions that it found in the table, its last reading of the clock, and the directory
that it last found too old. -/
structure Phase where
  drawn : Option Str := none
  registered : Bool := false
  seen : List (Str × FLRSession) := []
  reading : Option Timestamp := none
  aged : Option Path := none

section Discipline

variable (settings : Settings)

/-- A thread has a reason to take a root away. -/
def Phase.Entitled (phase : Phase) (root : Path) : Prop :=
  (∃ session_id, phase.drawn = some session_id ∧ root = sessionRoot settings session_id) ∨
  (∃ entry ∈ phase.seen, root = entry.2.root ∨ root = sessionRoot settings entry.1) ∨
  phase.aged = some root

/-- A directory that is older than a session may live, at the last reading of the clock. -/
def agedAt (path : Path) (modified : Timestamp) (reading : Option Timestamp) : Option Path :=
  reading.bind fun time =>
    if modified + settings.session_ttl_minutes * minute < time then some path else none

theorem agedAt_eq_some {path found : Path} {modified : Timestamp} {reading : Option Timestamp} :
    agedAt settings path modified reading = some found ↔
      ∃ time, reading = some time ∧ modified + settings.session_ttl_minutes * minute < time ∧
        path = found := by
  simp [agedAt, Option.bind_eq_some_iff]

/-- A thread takes away only what it has a reason to, draws one identifier, registers a
session under it in its own directory, and does nothing after that. -/
def taking : Monitor brokering Exn Phase where
  permits := fun phase command => phase.registered = false ∧
    match command with
    | .register session_id session =>
      phase.drawn = some session_id ∧ session.root = sessionRoot settings session_id
    | .host .newIdentifier => phase.drawn = none
    | .host (.rmtree path) => ∃ root, phase.Entitled settings root ∧
        Takes root (.host (.rmtree path))
    | .host (.run argv) => ∃ root, phase.Entitled settings root ∧ Takes root (.host (.run argv))
    | _ => True
  possible := fun _ command answer =>
    match command, answer with
    | .table, .error _ => False
    | .now, .error _ => False
    | .register .., .error _ => False
    | _, _ => True
  next := fun phase command answer =>
    match command, answer with
    | .table, .ok sessions => { phase with seen := phase.seen ++ sessions.rows }
    | .now, .ok time => { phase with reading := some time }
    | .register .., _ => { phase with registered := true }
    | .host .newIdentifier, .ok session_id => { phase with drawn := some session_id }
    | .host (.modifiedAt path), .ok modified =>
      { phase with aged := agedAt settings path modified phase.reading }
    | _, _ => phase

/-- What a part of a program may rely on. -/
structure Title where
  drawn : Option Str := none
  known : List (Str × FLRSession) := []
  aged : Option Path := none

/-- A phase in which no session was registered yet bears a title out. -/
structure Title.Held (title : Title) (phase : Phase) : Prop where
  open_ : phase.registered = false
  drawn : phase.drawn = title.drawn
  known : ∀ entry ∈ title.known, entry ∈ phase.seen
  aged : ∀ path, title.aged = some path → phase.aged = some path

/-- A title to a root. -/
def Title.Covers (title : Title) (root : Path) : Prop :=
  (∃ session_id, title.drawn = some session_id ∧ root = sessionRoot settings session_id) ∨
  (∃ entry ∈ title.known, root = entry.2.root ∨ root = sessionRoot settings entry.1) ∨
  title.aged = some root

variable {settings} {title : Title} {phase : Phase} {root : Path} {α : Type}

theorem Title.Held.entitled (held : title.Held phase) (covers : title.Covers settings root) :
    phase.Entitled settings root := by
  rcases covers with ⟨session_id, drawn, same⟩ | ⟨entry, member, same⟩ | aged
  · exact Or.inl ⟨session_id, held.drawn.trans drawn, same⟩
  · exact Or.inr (Or.inl ⟨entry, held.known entry member, same⟩)
  · exact Or.inr (Or.inr (held.aged root aged))

/-- A program that keeps a title. -/
abbrev Respects (settings : Settings) (title : Title) (program : Prog α) : Prop :=
  Keeps (taking settings) title.Held program

/-- Questions to the host that take nothing away, draw nothing and read no age. -/
def Harmless : HostRequest → Prop
  | .newIdentifier | .rmtree _ | .run _ | .modifiedAt _ => False
  | _ => True

theorem respects_host {request : HostRequest} (harmless : Harmless request) :
    Respects settings title (host request) := by
  intro phase held
  cases request with
  | newIdentifier => exact harmless.elim
  | rmtree path => exact harmless.elim
  | run argv => exact harmless.elim
  | modifiedAt path => exact harmless.elim
  | _ => exact wp_perform ⟨held.open_, trivial⟩ fun answer _ => held

theorem respects_now : Respects settings title now := by
  intro phase held
  refine wp_perform ⟨held.open_, trivial⟩ fun answer possible => ?_
  cases answer with
  | error error => exact possible.elim
  | ok time => exact ⟨held.open_, held.drawn, held.known, held.aged⟩

theorem respects_forget (session_id : Str) : Respects settings title (forget session_id) :=
  fun _ held => wp_perform ⟨held.open_, trivial⟩ fun _ _ => held

theorem respects_raised (value : Except Exn α) :
    Respects settings title (raised value : Prog α) := by
  cases value with
  | ok value => exact keeps_pure value
  | error error => exact keeps_throw error

/-- A directory that a title covers may be removed. -/
theorem respects_rmtree (covers : title.Covers settings root) :
    Respects settings title (host (.rmtree root)) :=
  fun _ held => wp_perform ⟨held.open_, root, held.entitled covers, rfl⟩ fun _ _ => held

/-- A command may be run on one of its two mounts. -/
theorem respects_run (covers : title.Covers settings root) {argv : List Str}
    (takes : Takes root (.host (.run argv))) : Respects settings title (host (.run argv)) :=
  fun _ held => wp_perform ⟨held.open_, root, held.entitled covers, takes⟩ fun _ _ => held

/-- A reading of the table adds to what is known. -/
theorem wp_table {next : Keyed Str FLRSession → Prog α} (held : title.Held phase)
    (rest : ∀ sessions, Respects settings { title with known := title.known ++ sessions.rows }
      (next sessions)) :
    wp (taking settings) (table >>= next) (fun _ final => title.Held final) phase := by
  refine wp_bind (wp_perform ⟨held.open_, trivial⟩ fun answer possible => ?_)
  cases answer with
  | error error => exact possible.elim
  | ok sessions =>
    have more : Title.Held { title with known := title.known ++ sessions.rows }
        ((taking settings).next phase .table (.ok sessions)) := by
      refine ⟨held.open_, held.drawn, ?_, held.aged⟩
      intro entry member
      rcases List.mem_append.mp member with before | now
      · exact List.mem_append_left _ (held.known entry before)
      · exact List.mem_append_right _ now
    refine wp_mono (rest sessions _ more) fun outcome final later => ?_
    exact ⟨later.open_, later.drawn,
      fun entry member => later.known entry (List.mem_append_left _ member), later.aged⟩

/-- So a program may begin by reading the table. -/
theorem respects_table {next : Keyed Str FLRSession → Prog α}
    (rest : ∀ sessions, Respects settings { title with known := title.known ++ sessions.rows }
      (next sessions)) : Respects settings title (table >>= next) :=
  fun _ held => wp_table held rest

theorem respects_runInstalled (covers : title.Covers settings root) (command : Option Str)
    (options : List Str) {paths : List Path}
    (mounts : ∀ path ∈ paths, path = guestMount root ∨ path = resticMount root) :
    Respects settings title (runInstalled command options paths) := by
  induction paths with
  | nil => exact keeps_pure ()
  | cons path rest inductionHypothesis =>
    obtain ⟨first, others⟩ := List.forall_mem_cons.mp mounts
    cases command with
    | none => exact keeps_pure ()
    | some installed =>
      refine keeps_bind ?_ fun _ => inductionHypothesis others
      refine keeps_bind (respects_host trivial) fun present => ?_
      split
      · refine keeps_bind (respects_run covers ?_) fun _ => keeps_pure ()
        rcases first with rfl | rfl
        · exact Or.inl List.getLast?_concat
        · exact Or.inr List.getLast?_concat
      · exact keeps_pure ()

theorem respects_firstInstalled (preferred other : String) :
    Respects settings title (firstInstalled preferred other) := by
  refine keeps_bind (respects_host trivial) fun found => ?_
  split
  · exact keeps_pure _
  · exact respects_host trivial

/-- The mounts of a covered root may be taken away. -/
theorem respects_cleanupMountPaths (covers : title.Covers settings root) :
    Respects settings title (cleanupMountPaths (guestMount root) (resticMount root)) := by
  refine keeps_bind (respects_host trivial) fun guestunmount => ?_
  refine keeps_bind (respects_runInstalled covers _ _ (by simp)) fun _ => ?_
  refine keeps_bind (respects_firstInstalled _ _) fun fuse => ?_
  exact respects_runInstalled covers _ _ (by simp)

/-- A close takes away the session that it finds, or with force one that was found before. -/
theorem respects_closeInherited {session_id : Str} (actor : Option Str) {force : Bool}
    (found : force = true → ∃ session, (session_id, session) ∈ title.known) :
    Respects settings title (closeInherited settings session_id actor force) := by
  refine respects_table fun sessions => ?_
  cases looked : sessions.lookup session_id with
  | none =>
    dsimp only
    split
    · rename_i forced
      obtain ⟨session, member⟩ := found forced
      have covers : Title.Covers settings { title with known := title.known ++ sessions.rows }
          (sessionRoot settings session_id) :=
        Or.inr (Or.inl ⟨(session_id, session), List.mem_append_left _ member, Or.inr rfl⟩)
      exact keeps_bind (respects_cleanupMountPaths covers) fun _ => respects_rmtree covers
    · exact keeps_throw _
  | some session =>
    have listed : (session_id, session) ∈ sessions.rows := (sessions.mem_rows_iff _ _).mpr looked
    have covers : Title.Covers settings { title with known := title.known ++ sessions.rows }
        session.root :=
      Or.inr (Or.inl ⟨(session_id, session), List.mem_append_right _ listed, Or.inl rfl⟩)
    dsimp only
    split
    · exact keeps_throw _
    · refine keeps_bind (respects_forget _) fun _ => ?_
      refine keeps_bind (respects_cleanupMountPaths covers) fun _ => ?_
      refine keeps_bind (respects_host trivial) fun _ => ?_
      exact keeps_bind (respects_host trivial) fun _ => respects_rmtree covers

theorem respects_closeSession {session_id : Str} (actor : Option Str) {force : Bool}
    (found : force = true → ∃ session, (session_id, session) ∈ title.known) :
    Respects settings title (closeSession settings session_id actor force) := by
  refine respects_table fun sessions => ?_
  cases looked : sessions.lookup session_id with
  | none =>
    refine respects_closeInherited actor fun forced => ?_
    obtain ⟨session, member⟩ := found forced
    exact ⟨session, List.mem_append_left _ member⟩
  | some session =>
    refine keeps_bind respects_now fun time => ?_
    dsimp only
    split
    · exact keeps_throw _
    · split
      · exact keeps_throw _
      · exact respects_closeInherited _ (by simp)

theorem respects_closeAll {listed : List Str}
    (found : ∀ session_id ∈ listed, ∃ session, (session_id, session) ∈ title.known) :
    Respects settings title (closeAll settings listed) := by
  induction listed with
  | nil => exact keeps_pure ()
  | cons session_id rest inductionHypothesis =>
    obtain ⟨first, others⟩ := List.forall_mem_cons.mp found
    exact keeps_bind (respects_closeSession none fun _ => first) fun _ => inductionHypothesis others

/-- A sweep removes a directory only after it found it too old. -/
theorem respects_sweepOrphan (unaged : title.aged = none) (child : Component CodePoint) :
    Respects settings title (sweepOrphan settings child) := by
  refine keeps_bind (respects_host trivial) fun directory => ?_
  split
  · exact keeps_pure ()
  refine respects_table fun sessions => ?_
  split
  · exact keeps_pure ()
  intro phase held
  refine wp_bind (wp_perform ⟨held.open_, trivial⟩ fun answer possible => ?_)
  cases answer with
  | error error => exact possible.elim
  | ok time =>
    refine wp_bind (wp_tryCatch (wp_bind (wp_perform ⟨held.open_, trivial⟩ fun answer _ => ?_)))
    have kept : ∀ aged, Title.Held { title with known := title.known ++ sessions.rows }
        { phase with reading := some time, aged := aged } := by
      refine fun aged => ⟨held.open_, held.drawn, held.known, fun path given => ?_⟩
      rw [show title.aged = some path from given] at unaged
      cases unaged
    cases answer with
    | error error =>
      dsimp only
      split
      · exact wp_pure (kept _)
      · exact wp_throw (kept _)
    | ok modified =>
      refine wp_pure ?_
      dsimp only
      split
      · rename_i old
        have covers : Title.Covers settings { title with
            known := title.known ++ sessions.rows
            aged := some (settings.mount_root.child child) } (settings.mount_root.child child) :=
          Or.inr (Or.inr rfl)
        have found : Title.Held { title with
            known := title.known ++ sessions.rows
            aged := some (settings.mount_root.child child) }
            { phase with
              reading := some time
              aged := agedAt settings (settings.mount_root.child child) modified (some time) } := by
          refine ⟨held.open_, held.drawn, held.known, fun path given => ?_⟩
          exact (agedAt_eq_some settings).mpr ⟨time, rfl, old, Option.some.inj given⟩
        have removes : Respects settings { title with
            known := title.known ++ sessions.rows
            aged := some (settings.mount_root.child child) } (do
              cleanupMountPaths (guestMount (settings.mount_root.child child))
                (resticMount (settings.mount_root.child child))
              host (.rmtree (settings.mount_root.child child))) :=
          keeps_bind (respects_cleanupMountPaths covers) fun _ => respects_rmtree covers
        refine wp_mono (removes _ found) fun outcome final later => ?_
        refine ⟨later.open_, later.drawn, later.known, fun path given => ?_⟩
        rw [show title.aged = some path from given] at unaged
        cases unaged
      · exact wp_pure (kept _)

theorem respects_sweepOrphans (unaged : title.aged = none)
    (listed : List (Component CodePoint)) :
    Respects settings title (sweepOrphans settings listed) := by
  induction listed with
  | nil => exact keeps_pure ()
  | cons child rest inductionHypothesis =>
    exact keeps_bind (respects_sweepOrphan unaged child) fun _ => inductionHypothesis

/-- A clean-up takes away expired sessions of the table, and what is too old. -/
theorem respects_cleanupExpired (unaged : title.aged = none) :
    Respects settings title (cleanupExpired settings) := by
  refine keeps_bind respects_now fun time => ?_
  refine respects_table fun sessions => ?_
  refine keeps_bind (respects_closeAll ?_) fun _ => ?_
  · intro session_id listed
    obtain ⟨entry, kept, rfl⟩ := List.mem_map.mp listed
    exact ⟨entry.2, List.mem_append_right _ (List.mem_of_mem_filter kept)⟩
  · refine keeps_bind (respects_host trivial) fun present => ?_
    split
    · exact keeps_pure ()
    · exact keeps_bind (respects_host trivial) fun children =>
        @respects_sweepOrphans settings { title with known := title.known ++ sessions.rows }
          unaged children

theorem respects_missingCommands (names : List String) :
    Respects settings title (missingCommands names) := by
  induction names with
  | nil => exact keeps_pure _
  | cons name rest inductionHypothesis =>
    exact keeps_bind (respects_host trivial) fun _ => keeps_bind inductionHypothesis fun _ =>
      keeps_pure _

theorem respects_prerequisiteProblems :
    Respects settings title (prerequisiteProblems settings) := by
  unfold prerequisiteProblems
  split
  · exact keeps_pure _
  · exact keeps_bind (respects_missingCommands _) fun _ =>
      keeps_bind (respects_firstInstalled _ _) fun _ => keeps_bind (respects_host trivial) fun _ =>
        keeps_pure _

theorem respects_browsing (program : Program files Exn α) :
    Respects settings title (browsing program) := by
  induction program with
  | ret value => exact keeps_pure value
  | raise error => exact keeps_throw error
  | call command resume inductionHypothesis =>
    intro phase held
    exact ⟨⟨held.open_, trivial⟩, fun answer _ => inductionHypothesis answer phase held⟩

theorem respects_snapshotRoot (restic : Path) (snapshot_id : Str) :
    Respects settings title (snapshotRoot restic snapshot_id) := by
  refine keeps_bind (respects_host trivial) fun present => ?_
  split
  · exact keeps_pure _
  · refine keeps_bind (respects_host trivial) fun directory => ?_
    split
    · exact keeps_pure _
    · refine keeps_bind (respects_host trivial) fun names => ?_
      split <;> exact keeps_pure _

/-- The guest is mounted below a covered root. -/
theorem respects_mountGuest (covers : title.Covers settings root) (disks : List Str) :
    Respects settings title (mountGuest disks (guestMount root)) := by
  refine keeps_bind (respects_host trivial) fun guestmount => ?_
  refine keeps_bind (respects_run covers (Or.inl ?_)) fun result => ?_
  · rw [show [str "-i", (guestMount root).format] = [str "-i"] ++ [(guestMount root).format] from rfl,
      ← List.append_assoc]
    exact List.getLast?_concat
  · split
    · exact keeps_throw _
    · exact keeps_pure _

theorem respects_findSnapshot (restic : Path) (snapshot_id : Str) :
    Respects settings title (findSnapshot settings restic snapshot_id) := by
  refine keeps_bind (respects_snapshotRoot _ _) fun snapshot => ?_
  refine keeps_bind (respects_host trivial) fun ready => ?_
  split
  · exact keeps_throw _
  · exact keeps_pure _

theorem respects_mountFrom (covers : title.Covers settings root) (point : FilledPoint)
    (snapshot : Path) : Respects settings title (mountFrom settings point root snapshot) := by
  refine keeps_bind (respects_raised _) fun source => ?_
  refine keeps_bind (respects_host trivial) fun present => ?_
  split
  · exact keeps_throw _
  refine keeps_bind (respects_host trivial) fun found => ?_
  dsimp only
  split
  · refine keeps_bind (respects_host trivial) fun layout => ?_
    split <;> exact keeps_throw _
  · refine keeps_bind (respects_mountGuest covers _) fun _ => ?_
    refine keeps_bind (respects_host trivial) fun browsable => ?_
    split
    · exact keeps_throw _
    · exact keeps_pure _

theorem respects_mountPoint (covers : title.Covers settings root) (point : FilledPoint) :
    Respects settings title (mountPoint settings point root) :=
  keeps_bind (respects_findSnapshot _ _) fun snapshot => respects_mountFrom covers point snapshot

theorem respects_prepareRoot (root : Path) : Respects settings title (prepareRoot root) :=
  keeps_bind (respects_host trivial) fun _ => keeps_bind (respects_host trivial) fun _ =>
    keeps_bind (respects_host trivial) fun _ => respects_host trivial

theorem respects_startMount (root : Path) :
    Respects settings title (do host (.startMount root (← mountCommand root))) :=
  keeps_bind (keeps_bind (respects_host trivial) fun _ => keeps_pure _) fun _ =>
    respects_host trivial

/-- A failed opening takes its own root away. -/
theorem respects_withdraw (covers : title.Covers settings root) (started : Bool) (error : Exn) :
    Respects settings title (withdraw root started error : Prog α) := by
  have ends : Respects settings title (do
      host (.closeLog root)
      host (.rmtree root)
      throw error : Prog α) :=
    keeps_bind (respects_host trivial) fun _ => keeps_bind (respects_rmtree covers) fun _ =>
      keeps_throw _
  refine keeps_bind (respects_cleanupMountPaths covers) fun _ => ?_
  dsimp only
  split
  · exact keeps_bind (respects_host trivial) fun _ => ends
  · exact ends

/-- A session is registered last; when that does not come about, the title is still held. -/
theorem wp_mountSession {session_id : Str} (drawn : title.drawn = some session_id)
    (held : title.Held phase) (point : FilledPoint) (actor : Str) :
    wp (taking settings)
      (mountSession settings point actor session_id (sessionRoot settings session_id))
      (fun outcome final => ∀ error, outcome = .error error → title.Held final) phase := by
  have covers : title.Covers settings (sessionRoot settings session_id) :=
    Or.inl ⟨session_id, drawn, rfl⟩
  refine wp_bind_keeps (respects_mountPoint covers point) held (fun _ _ held _ _ => held) ?_
  intro disks phase held
  refine wp_bind_keeps respects_now held (fun _ _ held _ _ => held) ?_
  intro time phase held
  refine wp_bind (wp_perform ⟨held.open_, held.drawn.trans drawn, rfl⟩ fun answer possible => ?_)
  cases answer with
  | error error => exact possible.elim
  | ok _ =>
    intro error impossible
    cases impossible

/-- The files of a session are served after a clean-up. -/
theorem respects_serveOwned (unaged : title.aged = none) (casefold : Str → Str) (action : Action)
    (session_id user_path actor : Str) (admin : Bool) :
    Respects settings title
      (serveOwned settings casefold action session_id user_path actor admin) := by
  refine keeps_bind ?_ fun session => ?_
  · refine keeps_bind (respects_cleanupExpired unaged) fun _ => ?_
    refine respects_table fun sessions => ?_
    split
    · exact keeps_throw _
    · split
      · exact keeps_throw _
      · exact keeps_pure _
  · cases action with
    | list => exact keeps_bind (respects_browsing _) fun _ => keeps_pure _
    | stat => exact keeps_bind (respects_browsing _) fun _ => keeps_pure _
    | download =>
      refine keeps_bind (respects_browsing _) fun file => ?_
      exact keeps_bind (respects_browsing _) fun _ => keeps_pure _

/-- A judgement without a postcondition, behind a part that respects a title. -/
theorem wp_respecting {β : Type} {program : Prog β} {next : β → Prog α}
    (respects : Respects settings title program) (held : title.Held phase)
    (rest : ∀ value final, title.Held final →
      wp (taking settings) (next value) (fun _ _ => True) final) :
    wp (taking settings) (program >>= next) (fun _ _ => True) phase :=
  wp_bind_keeps respects held (fun _ _ _ => trivial) rest

/-- An opening takes away what a clean-up does, and its own root. -/
theorem wp_openSession (unaged : title.aged = none) (undrawn : title.drawn = none)
    (held : title.Held phase) (point : FilledPoint) (actor : Str) :
    wp (taking settings) (openSession settings point actor) (fun _ _ => True) phase := by
  unfold openSession
  split
  · exact wp_throw trivial
  refine wp_respecting respects_prerequisiteProblems held fun problems phase held => ?_
  split
  · exact wp_throw trivial
  refine wp_respecting (respects_cleanupExpired unaged) held fun _ phase held => ?_
  refine wp_bind (wp_perform ⟨held.open_, trivial⟩ fun answer possible => ?_)
  cases answer with
  | error error => exact possible.elim
  | ok sessions =>
    dsimp only
    split
    · exact wp_throw trivial
    · refine wp_bind (wp_perform ⟨held.open_, held.drawn.trans undrawn⟩ fun answer _ => ?_)
      cases answer with
      | error error => trivial
      | ok session_id =>
        have own : Title.Held { title with drawn := some session_id }
            ((taking settings).next ((taking settings).next phase .table (.ok sessions))
              (.host .newIdentifier) (.ok session_id)) :=
          ⟨held.open_, rfl, fun entry member => List.mem_append_left _ (held.known entry member),
            held.aged⟩
        have covers : Title.Covers settings { title with drawn := some session_id }
            (sessionRoot settings session_id) := Or.inl ⟨session_id, rfl, rfl⟩
        refine wp_respecting (respects_prepareRoot _) own fun _ phase held => ?_
        refine wp_bind (wp_attempt (wp_mono (respects_startMount _ phase held) ?_))
        intro outcome phase held
        cases outcome with
        | error error =>
          exact wp_mono (respects_withdraw covers false error phase held) fun _ _ _ => trivial
        | ok _ =>
          refine wp_tryCatch (wp_mono (wp_mountSession rfl held point actor) ?_)
          intro outcome phase later
          cases outcome with
          | ok session => trivial
          | error error =>
            exact wp_mono (respects_withdraw covers true error phase (later error rfl))
              fun _ _ _ => trivial

/-- Every request keeps the discipline. -/
theorem wp_serving (casefold : Str → Str) (request : Request) :
    wp (taking settings) (serving settings casefold request) (fun _ _ => True) {} := by
  obtain ⟨order, fields⟩ := request
  have held : Title.Held {} ({} : Phase) := ⟨rfl, rfl, nofun, nofun⟩
  have finishes : wp (taking settings) (dispatch settings casefold false false ⟨order, fields⟩)
      (fun _ _ => True) {} := by
    cases order with
    | status =>
      refine wp_respecting ?_ held fun _ _ _ => wp_pure trivial
      refine keeps_bind (respects_cleanupExpired rfl) fun _ => ?_
      refine respects_table fun sessions => ?_
      exact keeps_bind respects_prerequisiteProblems fun _ => keeps_pure _
    | opening point =>
      refine wp_respecting (respects_raised _) held fun actor phase held => ?_
      cases point with
      | none => exact wp_throw trivial
      | some point =>
        refine wp_respecting (respects_raised _) held fun point phase held => ?_
        refine wp_bind (wp_mono (wp_openSession rfl rfl held point actor) fun outcome _ _ => ?_)
        cases outcome <;> trivial
    | browse action =>
      refine wp_respecting (respects_raised _) held fun actor phase held => ?_
      refine wp_respecting (respects_serveOwned rfl _ _ _ _ _ _) held fun _ _ _ => wp_pure trivial
    | close =>
      refine wp_respecting (respects_raised _) held fun actor phase held => ?_
      refine wp_respecting (respects_closeSession _ (by simp)) held fun _ _ _ => wp_pure trivial
    | other name =>
      refine wp_respecting (respects_raised _) held fun actor phase held => wp_throw trivial
  refine wp_bind (wp_mono finishes fun outcome final _ => ?_)
  cases outcome <;> trivial

end Discipline

section Identifiers

/-- An identifier is thirty-two hexadecimal digits. -/
def Hexadecimal (session_id : Str) : Prop :=
  session_id.length = 32 ∧ ∀ point ∈ session_id, point ∈ str "0123456789abcdef"

instance (session_id : Str) : Decidable (Hexadecimal session_id) :=
  @instDecidableAnd _ _ inferInstance (List.decidableBAll _ session_id)

/-- A hexadecimal digit is no space, is kept, and is no separator. -/
theorem digit_plain : ∀ point ∈ str "0123456789abcdef",
    isSpace point = false ∧ isKept point = true ∧ point ∉ str "._-" ∧ point ≠ Alphabet.slash := by
  have all : (str "0123456789abcdef").all (fun point => ! isSpace point && (isKept point &&
      (! decide (point ∈ str "._-") && ! decide (point = Alphabet.slash)))) = true := by
    decide
  intro point member
  have plain := List.all_eq_true.mp all point member
  simpa only [Bool.and_eq_true, Bool.not_eq_true', decide_eq_false_iff_not] using plain

theorem dropWhile_none {test : CodePoint → Bool} {text : Str}
    (none : ∀ point ∈ text, test point = false) : text.dropWhile test = text := by
  cases text with
  | nil => rfl
  | cons point rest => simp [none point List.mem_cons_self]

theorem collapseOthers_kept {text : Str} (kept : ∀ point ∈ text, isKept point = true)
    (replaced : Bool) : collapseOthers replaced text = text := by
  induction text generalizing replaced with
  | nil => rfl
  | cons point rest inductionHypothesis =>
    obtain ⟨first, others⟩ := List.forall_mem_cons.mp kept
    rw [collapseOthers, if_pos first, inductionHypothesis others]

/-- An identifier is its own safe component. -/
theorem safeComponent_hexadecimal {session_id : Str} (hexadecimal : Hexadecimal session_id) :
    safeComponent session_id = session_id := by
  obtain ⟨length, digits⟩ := hexadecimal
  have plain := fun point member => digit_plain point (digits point member)
  have back : ∀ point ∈ session_id.reverse, isSpace point = false ∧ point ∉ str "._-" :=
    fun point member => ⟨(plain point (List.mem_reverse.mp member)).1,
      (plain point (List.mem_reverse.mp member)).2.2.1⟩
  have stripped : strip session_id = session_id := by
    rw [strip, dropWhile_none fun point member => (plain point member).1,
      dropWhile_none fun point member => (back point member).1, List.reverse_reverse]
  have ends : stripEnds session_id = session_id := by
    rw [stripEnds, dropWhile_none fun point member => decide_eq_false (plain point member).2.2.1,
      dropWhile_none fun point member => decide_eq_false (back point member).2,
      List.reverse_reverse]
  have filled : session_id ≠ [] := by
    rintro rfl
    cases length
  rw [safeComponent, stripped,
    collapseOthers_kept fun point member => (plain point member).2.1, ends,
    List.take_of_length_le (by omega), if_neg filled]

/-- It is a component. -/
theorem proper_hexadecimal {session_id : Str} (hexadecimal : Hexadecimal session_id) :
    Proper session_id := by
  refine ⟨?_, ?_, ?_⟩
  · exact fun slashed => (digit_plain _ (hexadecimal.2 _ slashed)).2.2.2 rfl
  · rintro rfl
    cases hexadecimal.1
  · rintro rfl
    cases hexadecimal.1

/-- The root of a session lies directly below the mount root. -/
theorem sessionRoot_hexadecimal (settings : Settings) {session_id : Str}
    (hexadecimal : Hexadecimal session_id) :
    sessionRoot settings session_id =
      settings.mount_root.child ⟨session_id, proper_hexadecimal hexadecimal⟩ := by
  rw [sessionRoot, safeComponent_hexadecimal hexadecimal]
  exact PurePath.joinpath_proper settings.mount_root ⟨session_id, proper_hexadecimal hexadecimal⟩

theorem child_injective {base other : Path} {name second : Component CodePoint}
    (same : base.child name = other.child second) : base = other ∧ name = second := by
  obtain ⟨roots, tails⟩ := PurePath.mk.inj same
  obtain ⟨names, lasts⟩ := List.append_inj' tails rfl
  refine ⟨?_, List.singleton_inj.mp lasts⟩
  cases base
  cases other
  exact congrArg₂ PurePath.mk roots names

/-- Different identifiers have different roots. -/
theorem sessionRoot_injective (settings : Settings) {first second : Str}
    (one : Hexadecimal first) (other : Hexadecimal second)
    (same : sessionRoot settings first = sessionRoot settings second) : first = second := by
  rw [sessionRoot_hexadecimal settings one, sessionRoot_hexadecimal settings other] at same
  exact congrArg Subtype.val (child_injective same).2

theorem format_injective {first second : Path} (same : first.format = second.format) :
    first = second := by
  rw [← PurePath.parse_format first, same, PurePath.parse_format]

/-- A command takes at most one root away. -/
theorem takes_unique {command : BrokerCommand} {first second : Path} (one : Takes first command)
    (other : Takes second command) : first = second := by
  have distinct : (⟨str "guest", by decide⟩ : Component CodePoint) ≠ ⟨str "restic", by decide⟩ := by
    decide
  cases command with
  | host request =>
    cases request with
    | rmtree path => exact one.symm.trans other
    | run argv =>
      rcases one with guest | restic <;> rcases other with again | twice
      · have same := format_injective (Option.some.inj (guest.symm.trans again))
        exact (child_injective same).1
      · have same := format_injective (Option.some.inj (guest.symm.trans twice))
        exact absurd (child_injective same).2 distinct
      · have same := format_injective (Option.some.inj (restic.symm.trans again))
        exact absurd (child_injective same).2.symm distinct
      · have same := format_injective (Option.some.inj (restic.symm.trans twice))
        exact (child_injective same).1
    | _ => exact one.elim
  | _ => exact one.elim

end Identifiers

section Conditions

variable {ι : Type} [DecidableEq ι] (surroundings : Surroundings) (settings : Settings)

/-- The identifier that an exchange drew. -/
def drawnIn : Exchange brokering Exn → Option Str
  | ⟨.host .newIdentifier, .ok session_id⟩ => some session_id
  | _ => none

/-- The identifiers that a thread drew. -/
def drawnBy (history : List (ι × Exchange brokering Exn)) (thread : ι) : List Str :=
  (history.filter fun entry => entry.1 = thread).filterMap fun entry => drawnIn entry.2

/-- An exchange made a directory. -/
def makes (root : Path) : Exchange brokering Exn → Bool
  | ⟨.host (.mkdir path), .ok _⟩ => path = root
  | _ => false

/-- What had happened when a directory was made. -/
def madeAfter (log : History) (root : Path) : Option History :=
  if log.any (makes root) then some (log.takeWhile fun exchange => ! makes root exchange) else none

/-- An exchange asked for the age of a directory. -/
def asksAge (root : Path) : Exchange brokering Exn → Bool
  | ⟨.host (.modifiedAt path), _⟩ => path = root
  | _ => false

/-- A thread has not returned or failed yet. -/
def Unfinished (program : Prog Unit) : Prop :=
  match program with
  | .call .. => True
  | _ => False

instance (program : Prog Unit) : Decidable (Unfinished program) := by
  unfold Unfinished
  split <;> infer_instance

/-- While a session is being opened, no clock shows more than its time to live since its
directory was made: openings return or fail before that. -/
def Timely (pool : Pool brokering Exn ι Broker) : Prop :=
  ∀ thread, ∀ session_id ∈ drawnBy pool.history thread, Unfinished (pool.threads thread) →
    ∀ before ∈ madeAfter pool.state.log (sessionRoot settings session_id),
      ∀ time ∈ pool.state.log.filterMap clockReading,
        time ≤ surroundings.clock before + settings.session_ttl_minutes * minute

/-- A drawn identifier is hexadecimal and new, also as the name of a directory. -/
def Fresh (log : History) : Prop :=
  match surroundings.answer log .newIdentifier with
  | .ok session_id => Hexadecimal session_id ∧ session_id ∉ log.filterMap drawnIn ∧
      log.any (asksAge (sessionRoot settings session_id)) = false
  | .error _ => True

/-- The directory of a session was not modified before it was made. -/
def Dated (log : History) (path : Path) : Prop :=
  match surroundings.answer log (.modifiedAt path) with
  | .ok modified => ∀ session_id ∈ log.filterMap drawnIn, path = sessionRoot settings session_id →
      ∃ before ∈ madeAfter log path, surroundings.clock before ≤ modified
  | .error _ => True

/-- What the vault's host is relied on for, in the step that a thread takes next. -/
def Ordinary (pool : Pool brokering Exn ι Broker) (thread : ι) : Prop :=
  match pool.threads thread with
  | .call (.host .newIdentifier) _ => Fresh surroundings settings pool.state.log
  | .call (.host (.modifiedAt path)) _ => Dated surroundings settings pool.state.log path
  | _ => True

/-- The step that a thread takes next spares every session that another thread is
opening. -/
def Spares (pool : Pool brokering Exn ι Broker) (thread : ι) : Prop :=
  match pool.threads thread with
  | .call command _ => ∀ other, other ≠ thread → Unfinished (pool.threads other) →
      ∀ session_id ∈ drawnBy pool.history other,
        ¬ Takes (sessionRoot settings session_id) command
  | _ => True

instance [Fintype ι] (pool : Pool brokering Exn ι Broker) :
    Decidable (Timely surroundings settings pool) :=
  inferInstanceAs (Decidable (∀ _, ∀ _ ∈ _, _ → ∀ _ ∈ _, ∀ _ ∈ _, _))

instance (log : History) : Decidable (Fresh surroundings settings log) := by
  unfold Fresh
  split <;> infer_instance

instance (log : History) (path : Path) : Decidable (Dated surroundings settings log path) := by
  unfold Dated
  split <;> infer_instance

instance (pool : Pool brokering Exn ι Broker) (thread : ι) :
    Decidable (Ordinary surroundings settings pool thread) := by
  unfold Ordinary
  split <;> infer_instance

instance [Fintype ι] (pool : Pool brokering Exn ι Broker) (thread : ι) :
    Decidable (Spares settings pool thread) := by
  unfold Spares
  split <;> infer_instance

end Conditions

section Steps

variable {ι : Type} [DecidableEq ι] {surroundings : Surroundings} {settings : Settings}
  {phase : Phase} {command : BrokerCommand} {answer : Except Exn command.Answer}

/-- Drawing an identifier asks for no age. -/
theorem asksAge_drawing {exchange : Exchange brokering Exn} {session_id : Str} {root : Path}
    (draws : drawnIn exchange = some session_id) : asksAge root exchange = false := by
  unfold drawnIn at draws
  split at draws
  · rfl
  · cases draws

/-- What a thread has drawn is what it drew before, or what it draws now. -/
theorem drawn_next (permitted : (taking settings).permits phase command) (session_id : Str) :
    ((taking settings).next phase command answer).drawn = some session_id ↔
      phase.drawn = some session_id ∨ drawnIn ⟨command, answer⟩ = some session_id := by
  cases command with
  | host request =>
    cases request with
    | newIdentifier =>
      have undrawn : phase.drawn = none := permitted.2
      cases answer <;> simp [taking, drawnIn, undrawn]
    | modifiedAt path => cases answer <;> simp [taking, drawnIn]
    | _ => simp [taking, drawnIn]
  | now => cases answer <;> simp [taking, drawnIn]
  | table => cases answer <;> simp [taking, drawnIn]
  | _ => simp [taking, drawnIn]

theorem registered_next (registered : phase.registered = true) :
    ((taking settings).next phase command answer).registered = true := by
  cases command with
  | host request =>
    cases request with
    | newIdentifier => cases answer <;> exact registered
    | modifiedAt path => cases answer <;> exact registered
    | _ => exact registered
  | now => cases answer <;> exact registered
  | table => cases answer <;> exact registered
  | register session_id session => rfl
  | forget session_id => exact registered

/-- What a thread has seen is what it saw before, or what stands in the table now. -/
theorem seen_next {broker : Broker} {entry : Str × FLRSession}
    (member : entry ∈ ((taking settings).next phase command
      (surroundings.handler command broker).1).seen) :
    entry ∈ phase.seen ∨ entry ∈ broker.sessions.rows := by
  cases command with
  | table => exact List.mem_append.mp member
  | host request =>
    cases request with
    | newIdentifier =>
      cases replied : surroundings.answer broker.log .newIdentifier with
      | ok session_id =>
        simp only [Surroundings.handler, Surroundings.reply, replied, taking] at member
        exact Or.inl member
      | error error =>
        simp only [Surroundings.handler, Surroundings.reply, replied, taking] at member
        exact Or.inl member
    | modifiedAt path =>
      cases replied : surroundings.answer broker.log (.modifiedAt path) with
      | ok modified =>
        simp only [Surroundings.handler, Surroundings.reply, replied, taking] at member
        exact Or.inl member
      | error error =>
        simp only [Surroundings.handler, Surroundings.reply, replied, taking] at member
        exact Or.inl member
    | _ => exact Or.inl member
  | _ => exact Or.inl member

/-- The last reading of the clock is the one before, or is made now. -/
theorem reading_next {time : Timestamp}
    (read : ((taking settings).next phase command answer).reading = some time) :
    phase.reading = some time ∨ clockReading ⟨command, answer⟩ = some time := by
  cases command with
  | now =>
    cases answer with
    | ok now => exact Or.inr read
    | error error => exact Or.inl read
  | table => cases answer <;> exact Or.inl read
  | host request =>
    cases request with
    | newIdentifier => cases answer <;> exact Or.inl read
    | modifiedAt path => cases answer <;> exact Or.inl read
    | _ => exact Or.inl read
  | _ => exact Or.inl read

/-- The directory last found too old was found so before, or is found so now. -/
theorem aged_next {broker : Broker} {path : Path}
    (aged : ((taking settings).next phase command
      (surroundings.handler command broker).1).aged = some path) :
    phase.aged = some path ∨ ∃ modified time, command = .host (.modifiedAt path) ∧
      surroundings.answer broker.log (.modifiedAt path) = .ok modified ∧
      phase.reading = some time ∧ modified + settings.session_ttl_minutes * minute < time := by
  cases command with
  | host request =>
    cases request with
    | newIdentifier =>
      cases replied : surroundings.answer broker.log .newIdentifier with
      | ok session_id =>
        simp only [Surroundings.handler, Surroundings.reply, replied, taking] at aged
        exact Or.inl aged
      | error error =>
        simp only [Surroundings.handler, Surroundings.reply, replied, taking] at aged
        exact Or.inl aged
    | modifiedAt asked =>
      cases replied : surroundings.answer broker.log (.modifiedAt asked) with
      | ok modified =>
        simp only [Surroundings.handler, Surroundings.reply, replied, taking] at aged
        obtain ⟨time, read, old, rfl⟩ := (agedAt_eq_some settings).mp aged
        exact Or.inr ⟨modified, time, rfl, replied, read, old⟩
      | error error =>
        simp only [Surroundings.handler, Surroundings.reply, replied, taking] at aged
        exact Or.inl aged
    | _ => exact Or.inl aged
  | table => exact Or.inl aged
  | _ => exact Or.inl aged

/-- A session of the table stood there before, or is registered now. -/
theorem rows_next {sessions : Keyed Str FLRSession} {entry : Str × FLRSession}
    (member : entry ∈ (Surroundings.updated sessions command).rows) :
    entry ∈ sessions.rows ∨ command = .register entry.1 entry.2 := by
  obtain ⟨session_id, session⟩ := entry
  cases command with
  | register registered fresh =>
    have stored := ((sessions.store registered fresh).mem_rows_iff _ _).mp member
    rw [Keyed.lookup_store] at stored
    split at stored
    · rename_i same
      exact Or.inr (by rw [same, Option.some.inj stored])
    · exact Or.inl ((sessions.mem_rows_iff _ _).mpr stored)
  | forget forgotten => exact Or.inl (List.mem_of_mem_filter member)
  | _ => exact Or.inl member

theorem drawnBy_concat (history : List (ι × Exchange brokering Exn)) (thread other : ι)
    (exchange : Exchange brokering Exn) (session_id : Str) :
    session_id ∈ drawnBy (history ++ [(thread, exchange)]) other ↔
      session_id ∈ drawnBy history other ∨ other = thread ∧ drawnIn exchange = some session_id := by
  by_cases own : thread = other
  · subst own
    simp [drawnBy, List.mem_filterMap]
  · have foreign : ¬ other = thread := fun same => own same.symm
    simp [drawnBy, own, foreign]

end Steps

section Runs

variable {ι : Type} [DecidableEq ι] {surroundings : Surroundings} {settings : Settings}

/-- A session was registered by the thread that drew its identifier, in its own root. -/
def Registered (settings : Settings) (phases : ι → Phase) (entry : Str × FLRSession) : Prop :=
  ∃ thread, (phases thread).drawn = some entry.1 ∧ (phases thread).registered = true ∧
    entry.2.root = sessionRoot settings entry.1

/-- What holds between any two steps: identifiers belong to one thread each, sessions to
threads that have registered them, and nobody has found the directory of a session too old
that is still being opened. -/
structure Orderly (settings : Settings) (pool : Pool brokering Exn ι Broker)
    (phases : ι → Phase) : Prop where
  drawn : ∀ thread session_id, (phases thread).drawn = some session_id ↔
    session_id ∈ drawnBy pool.history thread
  logged : ∀ thread session_id, (phases thread).drawn = some session_id →
    session_id ∈ pool.state.log.filterMap drawnIn
  hexadecimal : ∀ thread session_id, (phases thread).drawn = some session_id →
    Hexadecimal session_id
  distinct : ∀ first second session_id, (phases first).drawn = some session_id →
    (phases second).drawn = some session_id → first = second
  table : ∀ entry ∈ pool.state.sessions.rows, Registered settings phases entry
  seen : ∀ thread, ∀ entry ∈ (phases thread).seen, Registered settings phases entry
  reading : ∀ thread time, (phases thread).reading = some time →
    time ∈ pool.state.log.filterMap clockReading
  aged : ∀ thread path, (phases thread).aged = some path →
    pool.state.log.any (asksAge path) = true ∧
      ∀ other session_id, (phases other).drawn = some session_id →
        path = sessionRoot settings session_id → ¬ Unfinished (pool.threads other)

/-- A thread that has returned or failed spares everything. -/
theorem spares_finished {pool : Pool brokering Exn ι Broker} {thread : ι}
    (finished : ∀ command resume, pool.threads thread ≠ .call command resume) :
    Spares settings pool thread := by
  cases current : pool.threads thread with
  | ret value => simp [Spares, current]
  | raise error => simp [Spares, current]
  | call command resume => exact absurd current (finished command resume)

/-- A step of an orderly pool spares every session that is being opened by another
thread. -/
theorem spares_of_orderly {pool : Pool brokering Exn ι Broker} {phases : ι → Phase}
    (judged : Judged (taking settings) (fun _ _ => True) pool phases)
    (orderly : Orderly settings pool phases) {thread : ι} {command : BrokerCommand}
    {resume : Except Exn command.Answer → Prog Unit}
    (current : pool.threads thread = .call command resume) : Spares settings pool thread := by
  rw [Spares, current]
  intro other foreign unfinished session_id listed takes
  have drew : (phases other).drawn = some session_id := (orderly.drawn other session_id).mpr listed
  have own := judged thread
  rw [current] at own
  have unregistered : (phases other).registered = false := by
    have standing := judged other
    cases program : pool.threads other with
    | call issued resumed =>
      rw [program] at standing
      exact standing.1.1
    | ret value => simp [Unfinished, program] at unfinished
    | raise error => simp [Unfinished, program] at unfinished
  -- Nobody else has registered the session of this identifier.
  have unshared : ∀ entry, Registered settings phases entry →
      sessionRoot settings session_id ≠ sessionRoot settings entry.1 := by
    rintro entry ⟨owner, drawn, registered, _⟩ same
    have equal := sessionRoot_injective settings (orderly.hexadecimal _ _ drew)
      (orderly.hexadecimal _ _ drawn) same
    have one := orderly.distinct other owner session_id drew (equal ▸ drawn)
    rw [← one, unregistered] at registered
    cases registered
  have reason : ∃ root, (phases thread).Entitled settings root ∧ Takes root command := by
    cases command with
    | host request =>
      cases request with
      | rmtree path => exact own.1.2
      | run argv => exact own.1.2
      | _ => exact takes.elim
    | _ => exact takes.elim
  obtain ⟨root, entitled, again⟩ := reason
  obtain rfl := takes_unique again takes
  rcases entitled with ⟨drawn, mine, same⟩ | ⟨entry, member, ofSession | ofIdentifier⟩ | aged
  · have equal := sessionRoot_injective settings (orderly.hexadecimal _ _ drew)
      (orderly.hexadecimal _ _ mine) same
    exact foreign (orderly.distinct other thread session_id drew (equal ▸ mine))
  · obtain ⟨_, _, _, inRoot⟩ := orderly.seen thread entry member
    exact unshared entry (orderly.seen thread entry member) (ofSession.trans inRoot)
  · exact unshared entry (orderly.seen thread entry member) ofIdentifier
  · exact (orderly.aged thread _ aged).2 other session_id drew rfl unfinished

/-- What a registration says stays true. -/
theorem Registered.step {phases : ι → Phase} {entry : Str × FLRSession} {thread : ι}
    {command : BrokerCommand} {answer : Except Exn command.Answer}
    (permitted : (taking settings).permits (phases thread) command)
    (registered : Registered settings phases entry) :
    Registered settings (Function.update phases thread
      ((taking settings).next (phases thread) command answer)) entry := by
  obtain ⟨owner, drawn, done, root⟩ := registered
  refine ⟨owner, ?_, ?_, root⟩
  · by_cases own : owner = thread
    · subst own
      rw [Function.update_self]
      exact (drawn_next permitted _).mpr (Or.inl drawn)
    · rwa [Function.update_of_ne own]
  · by_cases own : owner = thread
    · subst own
      rw [Function.update_self]
      exact registered_next done
    · rwa [Function.update_of_ne own]

/-- A finished thread stays finished. -/
theorem unfinished_advance {pool : Pool brokering Exn ι Broker} {thread other : ι}
    (unfinished : Unfinished ((advance surroundings.handler pool thread).threads other)) :
    Unfinished (pool.threads other) := by
  cases current : pool.threads thread with
  | ret value => simpa [advance, current] using unfinished
  | raise error => simpa [advance, current] using unfinished
  | call command resume =>
    by_cases own : other = thread
    · subst own
      rw [current]
      trivial
    · simpa [advance, current, own] using unfinished

/-- One step of a timely pool keeps it orderly. -/
theorem orderly_step {pool : Pool brokering Exn ι Broker} {phases : ι → Phase} {thread : ι}
    {command : BrokerCommand} {resume : Except Exn command.Answer → Prog Unit}
    (orderly : Orderly settings pool phases)
    (current : pool.threads thread = .call command resume)
    (permitted : (taking settings).permits (phases thread) command)
    (ordinary : Ordinary surroundings settings pool thread)
    (timely : Timely surroundings settings pool) :
    Orderly settings (advance surroundings.handler pool thread) (Function.update phases thread
      ((taking settings).next (phases thread) command
        (surroundings.handler command pool.state).1)) := by
  have logs : (advance surroundings.handler pool thread).state.log =
      pool.state.log ++ [⟨command, (surroundings.handler command pool.state).1⟩] := by
    simp [advance, current, Surroundings.handler]
  have histories : (advance surroundings.handler pool thread).history =
      pool.history ++ [(thread, ⟨command, (surroundings.handler command pool.state).1⟩)] := by
    simp [advance, current]
  have rows : (advance surroundings.handler pool thread).state.sessions =
      Surroundings.updated pool.state.sessions command := by
    simp [advance, current, Surroundings.handler]
  -- Whatever is drawn afterwards was drawn before, or is drawn by this step.
  have drawing : ∀ other session_id, (Function.update phases thread
      ((taking settings).next (phases thread) command
        (surroundings.handler command pool.state).1) other).drawn = some session_id ↔
      (phases other).drawn = some session_id ∨ other = thread ∧
        drawnIn ⟨command, (surroundings.handler command pool.state).1⟩ = some session_id := by
    intro other session_id
    by_cases own : other = thread
    · subst own
      rw [Function.update_self, drawn_next permitted]
      simp
    · rw [Function.update_of_ne own]
      simp [own]
  have fresh : ∀ session_id,
      drawnIn ⟨command, (surroundings.handler command pool.state).1⟩ = some session_id →
      Hexadecimal session_id ∧ session_id ∉ pool.state.log.filterMap drawnIn ∧
        pool.state.log.any (asksAge (sessionRoot settings session_id)) = false := by
    intro session_id draws
    cases command with
    | host request =>
      cases request with
      | newIdentifier =>
        rw [Ordinary, current] at ordinary
        have ordinary : Fresh surroundings settings pool.state.log := ordinary
        cases replied : surroundings.answer pool.state.log .newIdentifier with
        | error error =>
          simp [Surroundings.handler, Surroundings.reply, replied, drawnIn] at draws
        | ok answered =>
          simp only [Surroundings.handler, Surroundings.reply, replied, drawnIn,
            Option.some.injEq] at draws
          rw [Fresh, replied] at ordinary
          exact draws ▸ ordinary
      | _ => cases draws
    | _ => cases draws
  constructor
  · intro other session_id
    rw [drawing, histories, drawnBy_concat, orderly.drawn]
  · intro other session_id drew
    rw [logs, List.filterMap_append]
    rcases (drawing other session_id).mp drew with before | ⟨_, now⟩
    · exact List.mem_append_left _ (orderly.logged other session_id before)
    · exact List.mem_append_right _ (by simp [now])
  · intro other session_id drew
    rcases (drawing other session_id).mp drew with before | ⟨_, now⟩
    · exact orderly.hexadecimal other session_id before
    · exact (fresh session_id now).1
  · intro first second session_id one two
    rcases (drawing first session_id).mp one with before | ⟨rfl, now⟩ <;>
      rcases (drawing second session_id).mp two with earlier | ⟨rfl, later⟩
    · exact orderly.distinct first second session_id before earlier
    · exact absurd (orderly.logged first session_id before) (fresh session_id later).2.1
    · exact absurd (orderly.logged second session_id earlier) (fresh session_id now).2.1
    · rfl
  · intro entry member
    rw [rows] at member
    rcases rows_next member with before | rfl
    · exact (orderly.table entry before).step permitted
    · exact ⟨thread, (drawing thread entry.1).mpr (Or.inl permitted.2.1),
        by rw [Function.update_self]; rfl, permitted.2.2⟩
  · intro other entry member
    by_cases own : other = thread
    · subst own
      rw [Function.update_self] at member
      rcases seen_next member with before | now
      · exact (orderly.seen other entry before).step permitted
      · exact (orderly.table entry now).step permitted
    · rw [Function.update_of_ne own] at member
      exact (orderly.seen other entry member).step permitted
  · intro other time read
    rw [logs, List.filterMap_append]
    by_cases own : other = thread
    · subst own
      rw [Function.update_self] at read
      rcases reading_next read with before | now
      · exact List.mem_append_left _ (orderly.reading other time before)
      · exact List.mem_append_right _ (by simp [now])
    · rw [Function.update_of_ne own] at read
      exact List.mem_append_left _ (orderly.reading other time read)
  · intro other path aged
    rw [logs, List.any_append]
    -- It was found too old before, or it is by this step, while nobody opens it.
    have found : (phases other).aged = some path ∨ (pool.state.log ++ [(⟨command,
        (surroundings.handler command pool.state).1⟩ : Exchange brokering Exn)]).any
          (asksAge path) = true ∧
        ∀ opener session_id, (phases opener).drawn = some session_id →
          path = sessionRoot settings session_id → ¬ Unfinished (pool.threads opener) := by
      by_cases own : other = thread
      · subst own
        rw [Function.update_self] at aged
        rcases aged_next aged with before | ⟨modified, time, rfl, replied, read, old⟩
        · exact Or.inl before
        · refine Or.inr ⟨by simp [asksAge], ?_⟩
          intro opener session_id drew same unfinished
          rw [Ordinary, current] at ordinary
          have dated : Dated surroundings settings pool.state.log path := ordinary
          rw [Dated, replied] at dated
          obtain ⟨before, made, earlier⟩ :=
            dated session_id (orderly.logged opener session_id drew) same
          rw [same] at made
          have shown := timely opener session_id ((orderly.drawn opener session_id).mp drew)
            unfinished before made time (orderly.reading other time read)
          exact absurd (old.trans_le shown) (Nat.not_lt.mpr (Nat.add_le_add_right earlier _))
      · rw [Function.update_of_ne own] at aged
        exact Or.inl aged
    rcases found with before | ⟨asked, unopened⟩
    · obtain ⟨asked, unopened⟩ := orderly.aged other path before
      refine ⟨by rw [asked, Bool.true_or], ?_⟩
      intro opener session_id drew same unfinished
      rcases (drawing opener session_id).mp drew with earlier | ⟨_, now⟩
      · exact unopened opener session_id earlier same (unfinished_advance unfinished)
      · rw [same, (fresh session_id now).2.2] at asked
        cases asked
    · refine ⟨by rwa [List.any_append] at asked, ?_⟩
      intro opener session_id drew same unfinished
      rcases (drawing opener session_id).mp drew with earlier | ⟨_, now⟩
      · exact unopened opener session_id earlier same (unfinished_advance unfinished)
      · rw [List.any_append, same, (fresh session_id now).2.2, List.any_cons,
          asksAge_drawing now] at asked
        cases asked

variable (surroundings settings) (casefold : Str → Str)

/-- Sessions that are being opened are spared. Over every interleaving of any requests on
an ordinary host, in which openings return or fail before a clock shows more than their
time to live since their directory was made, no step of another thread unmounts or removes
the directory of a session whose opening has not returned or failed yet. -/
theorem opening_spared_when_timely (requests : ι → Request) (schedule : List ι)
    (met : Meets surroundings.handler (fun pool thread =>
      Ordinary surroundings settings pool thread ∧ Timely surroundings settings pool) schedule
      (arriving settings casefold requests)) :
    Meets surroundings.handler (Spares settings) schedule
      (arriving settings casefold requests) := by
  have judged : Judged (taking settings) (fun _ _ => True) (arriving settings casefold requests)
      fun _ => {} := fun thread => wp_serving casefold (requests thread)
  have begun : Orderly settings (arriving settings casefold requests) fun _ => {} := by
    constructor
    · exact fun thread session_id => iff_of_false nofun nofun
    · exact fun thread session_id drew => by cases drew
    · exact fun thread session_id drew => by cases drew
    · exact fun first second session_id drew => by cases drew
    · exact fun entry member => by cases member
    · exact fun thread entry member => by cases member
    · exact fun thread time read => by cases read
    · exact fun thread path aged => by cases aged
  refine meets_of_sustains ?_ ?_ judged begun schedule met
  · intro pool phases thread command resume judged orderly current condition
    have own := judged thread
    rw [current] at own
    refine ⟨spares_of_orderly judged orderly current, ?_,
      orderly_step orderly current own.1 condition.1 condition.2⟩
    cases command <;> trivial
  · exact fun pool thread finished => spares_finished finished

end Runs

/-- The identifier of the session in the example. -/
def identifier : Str := str "0123456789abcdef0123456789abcdef"

theorem hexadecimal_identifier : Hexadecimal identifier := by decide

/-- The repository's mount was started. -/
def startsMount : Exchange brokering Exn → Bool
  | ⟨.host (.startMount ..), _⟩ => true
  | _ => false

/-- The shortest time to live, and the longest wait for a mount. -/
def short : Settings := { mounting with session_ttl_minutes := 1, mount_wait_seconds := 180 }

/-- An obliging vault on which a repository takes some time to mount. -/
def mountingFor (time : Timestamp) : Surroundings where
  clock := fun log => if log.any startsMount then time else 0
  answer := fun log request =>
    let made := log.any (makes (sessionRoot short identifier))
    match request with
    | .newIdentifier => .ok identifier
    | .children _ =>
      .ok (if made then [⟨identifier, proper_hexadecimal hexadecimal_identifier⟩] else [])
    | .isDirectory _ => .ok made
    | other => obliging.answer log other

/-- Alice opens a session, and somebody asks for the broker's status. -/
def openingAndStatus : Pool brokering Exn Bool Broker :=
  arriving short id fun thread =>
    if thread then opening.request else (asking "bob" .status false).request

/-- After a minute, a request for the status removes the directory of the session that
alice is still opening. -/
theorem opening_swept :
    ¬ Meets (mountingFor (61 * second)).handler (Spares short)
      (List.replicate 18 true ++ List.replicate 16 false ++ [false]) openingAndStatus := by
  decide

/-- After half a minute it does not. -/
theorem opening_spared_when_timely_short :
    Meets (mountingFor (30 * second)).handler (Spares short)
      (List.replicate 18 true ++ List.replicate 20 false ++ List.replicate 10 true)
      openingAndStatus :=
  opening_spared_when_timely (mountingFor (30 * second)) short id _ _ (by decide)

end Immutavault.OpeningSessions
