import Immutavault.GuestFiles

/-!
# Who may use a recovery session

The broker keeps the recovery sessions of all portal users in one table. A request
names a session and an actor; listing, inspecting and downloading are served to the
owner of a session that has not expired, and closing it is refused to anyone else.
The enterprise manager overrides two inherited methods to that end: looking a
session up ignores the administrator flag, and closing one routes expiry through the
owner's own close.

The broker's clock may read anything at any time, and the host may refuse whatever
it is asked. Requests are served one after another. The two flags that the broker
never sets are parameters here, so that they can be shown to change nothing.
-/

namespace Immutavault.SessionOwnership

open Programs Values PosixPaths Tables Timestamps GuestFiles

/-- The exit of a command and what it printed. -/
structure Finished where
  returncode : Int
  output : String

/-- What the broker asks of its host. The search for disk images below a source, and
waiting for a path or a mounted file system to appear, are asked for as a whole; disk
images are named relative to their source. -/
inductive HostRequest where
  | newIdentifier
  | which (command : String)
  | fuseDevice
  | present (path : Path)
  | isDirectory (path : Path)
  | isFile (path : Path)
  | children (path : Path)
  | modifiedAt (path : Path)
  | mkdir (path : Path)
  | openLog (root : Path)
  | closeLog (root : Path)
  | startMount (root : Path) (argv : List Str)
  | stopMount (root : Path)
  | appears (path : Path) (seconds : Nat)
  | browsable (path : Path) (seconds : Nat)
  | diskImages (source : Path)
  | run (argv : List Str)
  | rmtree (path : Path)
  | look (command : FileCommand)

@[reducible] def HostRequest.Answer : HostRequest → Type
  | .newIdentifier => Str
  | .which _ => Option Str
  | .fuseDevice => Bool × Bool
  | .present _ | .isDirectory _ | .isFile _ | .appears .. | .browsable .. => Bool
  | .children _ => List (Component CodePoint)
  | .modifiedAt _ => Timestamp
  | .mkdir _ | .openLog _ | .closeLog _ | .startMount .. | .stopMount _ | .rmtree _ => Unit
  | .diskImages _ => List (List (Component CodePoint))
  | .run _ => Finished
  | .look command => command.Answer

/-- One command of the broker: it reads its clock, reads and changes its table of
sessions, and asks its host. -/
inductive BrokerCommand where
  | now
  | table
  | register (session_id : Str) (session : FLRSession)
  | forget (session_id : Str)
  | host (request : HostRequest)

@[reducible] def BrokerCommand.Answer : BrokerCommand → Type
  | .now => Timestamp
  | .table => Keyed Str FLRSession
  | .register .. | .forget _ => Unit
  | .host request => request.Answer

abbrev brokering : Interface := ⟨BrokerCommand, BrokerCommand.Answer⟩

abbrev Prog (α : Type) := Program brokering Exn α

/-- Everything that was asked, with its answers, oldest first. -/
abbrev History := List (Exchange brokering Exn)

/-- What the clock reads and what the host answers, given everything before. -/
structure Surroundings where
  clock : History → Timestamp
  answer : History → (request : HostRequest) → Except Exn request.Answer

/-- A broker: its sessions, and what happened so far. -/
structure Broker where
  sessions : Keyed Str FLRSession := .empty
  log : History := []

namespace Surroundings

variable (surroundings : Surroundings)

def reply (broker : Broker) : (command : BrokerCommand) → Except Exn command.Answer
  | .now => .ok (surroundings.clock broker.log)
  | .table => .ok broker.sessions
  | .register .. | .forget _ => .ok ()
  | .host request => surroundings.answer broker.log request

/-- What a command leaves of the table. -/
def updated (sessions : Keyed Str FLRSession) : BrokerCommand → Keyed Str FLRSession
  | .register session_id session => sessions.store session_id session
  | .forget session_id => sessions.select fun key _ => key ≠ session_id
  | _ => sessions

def handler : Handler brokering Exn Broker := fun command broker =>
  (surroundings.reply broker command,
    { sessions := updated broker.sessions command
      log := broker.log ++ [⟨command, surroundings.reply broker command⟩] })

end Surroundings

def now : Prog Timestamp := @Program.perform brokering Exn .now

def table : Prog (Keyed Str FLRSession) := @Program.perform brokering Exn .table

def register (session_id : Str) (session : FLRSession) : Prog Unit :=
  @Program.perform brokering Exn (.register session_id session)

def forget (session_id : Str) : Prog Unit := @Program.perform brokering Exn (.forget session_id)

def host (request : HostRequest) : Prog request.Answer :=
  @Program.perform brokering Exn (.host request)

/-- A call of the guest's file system, asked of the host. -/
def browsing {α : Type} : Program files Exn α → Prog α
  | .ret value => .ret value
  | .raise error => .raise error
  | .call command resume => .call (.host (.look command)) fun answer => browsing (resume answer)

/-- The settings of the manager. -/
structure Settings where
  enabled : Bool := true
  mount_root : Path
  session_ttl_minutes : Nat := 30
  max_sessions_per_user : Nat := 2
  max_disks : Nat := 16
  mount_wait_seconds : Nat := 30
  browsing : FLRSettings := {}

/-- A recovery point as the broker is handed it; a field that is not a text is none. -/
structure RecoveryPoint where
  snapshot_id : Option Str
  platform : Option Str
  vm_name : Option Str
  source_path : Option Str

/-- A recovery point whose four fields are filled. -/
structure FilledPoint where
  snapshot_id : Str
  platform : Str
  vm_name : Str
  source_path : Str

/-- A text as a message shows it. A lone surrogate stands for no character. -/
def printed (text : Str) : String := String.ofList (text.map fun point => Char.ofNat point.val)

/-- Code points that a safe component keeps. -/
def isKept (point : CodePoint) : Bool :=
  let code := point.val
  48 ≤ code ∧ code ≤ 57 ∨ 65 ≤ code ∧ code ≤ 90 ∨ 97 ≤ code ∧ code ≤ 122 ∨ point ∈ str "._-"

/-- Replace each run of other code points by one underscore. -/
def collapseOthers : Bool → Str → Str
  | _, [] => []
  | replaced, point :: rest =>
    if isKept point then point :: collapseOthers false rest
    else if replaced then collapseOthers true rest
    else str "_" ++ collapseOthers true rest

/-- A text without the separators at its two ends. -/
def stripEnds (text : Str) : Str :=
  ((text.dropWhile (· ∈ str "._-")).reverse.dropWhile (· ∈ str "._-")).reverse

/-- The name of a directory that stands for a text. -/
def safeComponent (value : Str) : Str :=
  let cleaned := (stripEnds (collapseOthers false (strip value))).take 160
  if cleaned = [] then str "unnamed" else cleaned

/-- The directory below a session's root on which the repository is mounted. -/
def resticMount (root : Path) : Path := root.child ⟨str "restic", by decide⟩

/-- The directory below a session's root on which the guest is mounted. -/
def guestMount (root : Path) : Path := root.child ⟨str "guest", proper_guest⟩

section Manager

variable (settings : Settings)

def sessionRoot (session_id : Str) : Path := settings.mount_root.joinpath (safeComponent session_id)

/-- The first of two commands that is installed. -/
def firstInstalled (preferred other : String) : Prog (Option Str) := do
  match ← host (.which preferred) with
  | some command => return some command
  | none => host (.which other)

/-- Commands of a list that are not installed, as problems. -/
def missingCommands : List String → Prog (List String)
  | [] => return []
  | name :: rest => do
    let found : Option Str ← host (.which name)
    let others ← missingCommands rest
    return if found.isSome then others
      else s!"FLR requires {name} but it is not installed" :: others

def prerequisiteProblems : Prog (List String) := do
  if ¬ settings.enabled then return []
  else
    let missing ← missingCommands ["restic", "guestmount", "guestunmount"]
    let fusermount ← firstInstalled "fusermount3" "fusermount"
    let (exists_, accessible) ← host .fuseDevice
    return missing ++
      (if fusermount.isSome then []
        else ["FLR requires fusermount3/fusermount but neither is installed"]) ++
      (if ¬ exists_ then ["FLR requires /dev/fuse"]
        else if accessible then []
        else ["FLR service identity cannot read/write /dev/fuse"])

/-- Run a command on a path if the path is there; how it exits is not looked at. -/
def runIfPresent (argv : List Str) (path : Path) : Prog Unit := do
  let present : Bool ← host (.present path)
  if present then
    let _ ← host (.run (argv ++ [path.format]))
    return ()
  else return ()

/-- Run a command on the paths that are there, if it is installed. -/
def runInstalled (command : Option Str) (options : List Str) : List Path → Prog Unit
  | [] => return ()
  | path :: rest => do
    match command with
    | some installed =>
      runIfPresent (installed :: options) path
      runInstalled command options rest
    | none => return ()

/-- Unmount the two mounts of a session. -/
def cleanupMountPaths (guest restic : Path) : Prog Unit := do
  let guestunmount : Option Str ← host (.which "guestunmount")
  runInstalled guestunmount [] [guest]
  let fuse ← firstInstalled "fusermount3" "fusermount"
  runInstalled fuse [str "-u"] [guest, restic]

/-- Close a session as every manager does it: refuse a known actor who does not own
it, forget it and take its mounts away. -/
def closeInherited (session_id : Str) (actor : Option Str) (force : Bool) : Prog Unit := do
  match (← table).lookup session_id with
  | none =>
    if force then
      let root := sessionRoot settings session_id
      cleanupMountPaths (guestMount root) (resticMount root)
      host (.rmtree root)
    else raiseValueError "FLR session not found"
  | some session =>
    if ¬ force ∧ actor ≠ none ∧ actor ≠ some session.owner then
      raisePermissionError "FLR session belongs to another portal user"
    else
      forget session_id
      cleanupMountPaths session.guest_mount (resticMount session.root)
      host (.stopMount session.root)
      host (.closeLog session.root)
      host (.rmtree session.root)

/-- Close a session as the enterprise manager does it: by its owner, or by anyone once
it has expired. -/
def closeSession (session_id : Str) (actor : Option Str) (force : Bool) : Prog Unit := do
  match (← table).lookup session_id with
  | some session =>
    let time ← now
    let expired : Bool := session.expires_at ≤ time
    if actor = none ∧ ¬ expired then
      raisePermissionError "active FLR sessions can only be closed by their owner"
    else if actor ≠ none ∧ actor ≠ some session.owner ∧ ¬ expired then
      raisePermissionError "FLR session belongs to another portal user"
    else closeInherited settings session_id (if expired then some session.owner else actor) false
  | none => closeInherited settings session_id actor force

/-- Close the listed sessions for the manager itself. -/
def closeAll : List Str → Prog Unit
  | [] => return ()
  | session_id :: rest => do
    closeSession settings session_id none true
    closeAll rest

/-- Remove a directory that belongs to no session and is older than a session may be. -/
def sweepOrphan (child : Component CodePoint) : Prog Unit := do
  let path := settings.mount_root.child child
  let directory : Bool ← host (.isDirectory path)
  if ¬ directory then return ()
  else
    let sessions ← table
    if (sessions.lookup child.val).isSome then return ()
    else
      let time ← now
      let modified ← tryCatch (do return some (← host (.modifiedAt path))) fun error =>
        if error.kind.isOSError then pure none else throw error
      match modified with
      | none => return ()
      | some modified =>
        if modified + settings.session_ttl_minutes * minute < time then
          cleanupMountPaths (guestMount path) (resticMount path)
          host (.rmtree path)
        else return ()

def sweepOrphans : List (Component CodePoint) → Prog Unit
  | [] => return ()
  | child :: rest => do
    sweepOrphan settings child
    sweepOrphans rest

/-- Close what has expired, and sweep what no session accounts for. -/
def cleanupExpired : Prog Unit := do
  let time ← now
  let sessions ← table
  closeAll settings ((sessions.rows.filter fun entry => entry.2.expires_at ≤ time).map Prod.fst)
  let present : Bool ← host (.present settings.mount_root)
  if ¬ present then return ()
  else
    let children : List (Component CodePoint) ← host (.children settings.mount_root)
    sweepOrphans settings children

/-- The session of a caller. The enterprise manager ignores the administrator flag. -/
def ownedSession (session_id actor : Str) (_admin : Bool) : Prog FLRSession := do
  cleanupExpired settings
  match (← table).lookup session_id with
  | none => raiseValueError "FLR session not found or expired"
  | some session =>
    if session.owner ≠ actor then
      raisePermissionError "FLR session belongs to another portal user"
    else return session

/-- List a directory of a session's guest. -/
def listGuest (casefold : Str → Str) (session : FLRSession) (session_id user_path : Str) :
    Program files Exn Listing := do
  let parts ← raised (relativeParts user_path)
  let directory ← safeGuestPath session.guest_mount parts
  let info ← lstat directory
  if info.kind ≠ .directory then raiseValueError "requested FLR path is not a directory"
  else
    let names ← scandir directory
    let entries ← describeEntries settings.browsing.max_download_bytes directory names
    return {
      session := session.public session_id
      path := str "/" ++ (str "/").intercalate parts
      entries := entries.insertionSort (listedBefore casefold) }

/-- Open a file of a session's guest. -/
def openGuest (session : FLRSession) (user_path : Str) : Program files Exn FLRFile := do
  let parts ← raised (relativeParts user_path)
  match parts.getLast? with
  | none => raiseValueError "a file path is required"
  | some name =>
    let path ← safeGuestPath session.guest_mount parts
    let info ← lstat path
    if info.kind ≠ .regular then raiseValueError "FLR download path is not a regular file"
    else if info.st_size > settings.browsing.max_download_bytes then
      raiseValueError s!"file is {info.st_size} bytes, above configured FLR download limit {
        settings.browsing.max_download_bytes}"
    else return { path := path, name := name, size := info.st_size }

/-- Past the lookup of the session, listing is listing as the base manager does it. -/
theorem listDirectory_eq (casefold : Str → Str) (manager : FLRManager)
    (same : manager.settings = settings.browsing) (now : Timestamp)
    (session_id user_path actor : Str) (admin : Bool) :
    listDirectory casefold manager now session_id user_path actor admin = (do
      let session ← raised (manager.session now session_id actor admin)
      listGuest settings casefold session session_id user_path) := by
  simp only [listDirectory, listGuest, same]

/-- The same for opening a file. -/
theorem openFile_eq (manager : FLRManager) (same : manager.settings = settings.browsing)
    (now : Timestamp) (session_id user_path actor : Str) (admin : Bool) :
    openFile manager now session_id user_path actor admin = (do
      let session ← raised (manager.session now session_id actor admin)
      openGuest settings session user_path) := by
  simp only [openFile, openGuest, same] <;> rfl

/-- The directory of a snapshot below the repository's mount. A snapshot named by a
prefix is found when the prefix belongs to one snapshot only. -/
def snapshotRoot (restic : Path) (snapshot_id : Str) : Prog Path := do
  let ids := restic.joinpath (str "ids")
  let exact := ids.joinpath snapshot_id
  let present : Bool ← host (.present exact)
  if present then return exact
  else
    let directory : Bool ← host (.isDirectory ids)
    if ¬ directory then return exact
    else
      let names : List (Component CodePoint) ← host (.children ids)
      match names.filter fun name => snapshot_id.isPrefixOf name.val with
      | [only] => return ids.child only
      | _ => return exact

/-- A source path inside a snapshot. -/
def sourceInsideSnapshot (snapshot : Path) (source_path : Str) : Except Exn Path :=
  let parts := (PurePath.parse source_path).parts.filter fun part => part ∉ [str "/", [], str "."]
  if str ".." ∈ parts then .error ⟨.valueError, "recovery point source path is unsafe"⟩
  else .ok (parts.foldl PurePath.joinpath snapshot)

/-- Mount the guest's disks, read only. -/
def mountGuest (disks : List Str) (guest : Path) : Prog Unit := do
  let guestmount : Option Str ← host (.which "guestmount")
  let result : Finished ← host (.run ([guestmount.getD (str "guestmount"), str "--ro"] ++
    disks.flatMap (fun disk => [str "-a", disk]) ++ [str "-i", guest.format]))
  if result.returncode ≠ 0 then
    raiseRuntimeError ("FLR could not inspect/mount the guest filesystem read-only: " ++
      result.output)
  else return ()

/-- The directory of a recovery point below the repository's mount, once it is there. -/
def findSnapshot (restic : Path) (snapshot_id : Str) : Prog Path := do
  let snapshot ← snapshotRoot restic snapshot_id
  let ready : Bool ← host (.appears snapshot settings.mount_wait_seconds)
  if ¬ ready then
    raiseRuntimeError "restic FUSE mount did not expose the requested recovery point"
  else return snapshot

/-- Find a guest's disks in a snapshot and mount the guest below a session's root. -/
def mountFrom (point : FilledPoint) (root snapshot : Path) : Prog (List Str) := do
  let source ← raised (sourceInsideSnapshot snapshot point.source_path)
  let present : Bool ← host (.present source)
  if ¬ present then
    raiseRuntimeError s!"FLR source path is missing inside recovery point: {
      printed point.source_path}"
  else
    let found : List (List (Component CodePoint)) ← host (.diskImages source)
    let disks := found.take settings.max_disks
    if disks = [] then
      let layout : Bool ← host (.isFile (source.joinpath (str "immutavault-vddk-layout.json")))
      if layout then
        raiseRuntimeError ("this native incremental recovery point does not expose standard " ++
          "read-only disk images for FLR; upgrade/configure the authorized VDDK helper to " ++
          "publish flr_disk_images in its layout")
      else
        raiseRuntimeError ("no directly mountable guest disk image was found in this recovery " ++
          "point; FLR currently requires VMDK/VHD/VHDX/QCOW2/RAW/IMG or a VDDK layout that " ++
          "declares flr_disk_images")
    else
      mountGuest (disks.map fun names => (source.below names).format) (guestMount root)
      let browsable : Bool ← host (.browsable (guestMount root) 10)
      if ¬ browsable then
        raiseRuntimeError "guest filesystem mount completed but no browsable filesystem appeared"
      else return disks.map fun names => (⟨.relative, names⟩ : Path).format

/-- Mount a recovery point below a session's root and find its guest's disks. -/
def mountPoint (point : FilledPoint) (root : Path) : Prog (List Str) := do
  let snapshot ← findSnapshot settings (resticMount root) point.snapshot_id
  mountFrom settings point root snapshot

/-- Take back what a failed opening left, and raise its error again. -/
def withdraw {α : Type} (root : Path) (started : Bool) (error : Exn) : Prog α := do
  cleanupMountPaths (guestMount root) (resticMount root)
  if started then host (.stopMount root)
  host (.closeLog root)
  host (.rmtree root)
  throw error

/-- What is recorded about a mounted recovery point. -/
def newSession (point : FilledPoint) (actor : Str) (root : Path) (disks : List Str)
    (time : Timestamp) : FLRSession where
  owner := actor
  snapshot_id := point.snapshot_id
  platform := point.platform
  vm_name := point.vm_name
  source_path := point.source_path
  root := root
  created_at := time
  expires_at := time + settings.session_ttl_minutes * minute
  disks := disks

/-- Mount a recovery point and enter the session into the table. -/
def mountSession (point : FilledPoint) (actor session_id : Str) (root : Path) :
    Prog PublicSession := do
  let disks ← mountPoint settings point root
  let time ← now
  let session := newSession settings point actor root disks time
  register session_id session
  return session.public session_id

/-- Prepare the directories of a new session. -/
def prepareRoot (root : Path) : Prog Unit := do
  host (.mkdir root)
  host (.mkdir (resticMount root))
  host (.mkdir (guestMount root))
  host (.openLog root)

/-- The mount command of the repository. -/
def mountCommand (root : Path) : Prog (List Str) := do
  let restic : Option Str ← host (.which "restic")
  return [restic.getD (str "restic"), str "mount", str "--no-lock", (resticMount root).format]

def openSession (point : FilledPoint) (actor : Str) : Prog PublicSession := do
  if ¬ settings.enabled then
    raiseRuntimeError "file-level recovery is disabled by IMMUTAVAULT_FLR_ENABLED"
  else
    let problems ← prerequisiteProblems settings
    if problems ≠ [] then raiseRuntimeError ("; ".intercalate problems)
    else
      cleanupExpired settings
      let sessions ← table
      let current := sessions.rows.countP fun entry => entry.2.owner = actor
      if settings.max_sessions_per_user ≤ current then
        raiseRuntimeError s!"FLR session limit reached for {printed actor}: {
          settings.max_sessions_per_user}"
      else
        let session_id : Str ← host .newIdentifier
        let root := sessionRoot settings session_id
        prepareRoot root
        let started ← (do host (.startMount root (← mountCommand root))).attempt
        match started with
        | .error error => withdraw root false error
        | .ok _ =>
          tryCatch (mountSession settings point actor session_id root) (withdraw root true)

/-- The manager's account of itself. -/
structure Status where
  enabled : Bool
  active_sessions : Nat
  session_ttl_minutes : Nat
  max_download_bytes : Nat
  prerequisite_problems : List String

def status : Prog Status := do
  cleanupExpired settings
  let sessions ← table
  let problems ← prerequisiteProblems settings
  return {
    enabled := settings.enabled
    active_sessions := sessions.rows.length
    session_ttl_minutes := settings.session_ttl_minutes
    max_download_bytes := settings.browsing.max_download_bytes
    prerequisite_problems := problems }

end Manager

/-- What the broker is asked for. -/
inductive Order where
  | status
  | opening (point : Option RecoveryPoint)
  | browse (action : Action)
  | close
  | other (name : String)

/-- A request with its fields. -/
structure Request where
  order : Order
  fields : BrokerRequest

/-- What the broker answers. -/
inductive Answer where
  | status (status : Status)
  | opened (session : PublicSession)
  | browsed (reply : Reply)
  | closed (session_id : Str)

/-- A recovery point whose fields are filled. -/
def filledPoint (point : RecoveryPoint) : Except Exn FilledPoint :=
  match point.snapshot_id, point.platform, point.vm_name, point.source_path with
  | some snapshot_id, some platform, some vm_name, some source_path =>
    if snapshot_id = [] ∨ platform = [] ∨ vm_name = [] ∨ source_path = [] then
      .error ⟨.valueError, "FLR recovery-point object is incomplete"⟩
    else .ok ⟨snapshot_id, platform, vm_name, source_path⟩
  | _, _, _, _ => .error ⟨.valueError, "FLR recovery-point object is incomplete"⟩

section Dispatch

variable (settings : Settings) (casefold : Str → Str)

/-- The files of a session, for its owner. -/
def serveOwned (action : Action) (session_id user_path actor : Str) (admin : Bool) :
    Prog Reply := do
  let session ← ownedSession settings session_id actor admin
  match action with
  | .list => return .listing (← browsing (listGuest settings casefold session session_id user_path))
  | .stat =>
    let file ← browsing (openGuest settings session user_path)
    return .file file.name file.size
  | .download =>
    let file ← browsing (openGuest settings session user_path)
    let content ← browsing (streamFile file)
    return .stream file.name file.size content

/-- Serve a request of a local peer. The broker sets neither flag. -/
def dispatch (admin force : Bool) (request : Request) : Prog Answer := do
  match request.order with
  | .status => return .status (← status settings)
  | .opening point =>
    let actor ← raised (requiredActor request.fields)
    match point with
    | none => raiseValueError "FLR open requires a recovery-point object"
    | some point =>
      let point ← raised (filledPoint point)
      return .opened (← openSession settings point actor)
  | .browse action =>
    let actor ← raised (requiredActor request.fields)
    return .browsed (← serveOwned settings casefold action (textOr request.fields.session_id [])
      (textOr request.fields.user_path (if action = .list then str "/" else [])) actor admin)
  | .close =>
    let actor ← raised (requiredActor request.fields)
    let session_id := textOr request.fields.session_id []
    closeSession settings session_id (some actor) force
    return .closed session_id
  | .other name =>
    let _ ← raised (requiredActor request.fields)
    raiseValueError s!"unsupported FLR broker action: {Json.reprText name}"

end Dispatch

section Table

variable {α : Type} (surroundings : Surroundings)

/-- A command that enters nothing into the table. -/
def EntersNothing : BrokerCommand → Prop
  | .register .. => False
  | _ => True

/-- A program that enters nothing into the table, whatever it is answered. -/
abbrev Shrinks (program : Prog α) : Prop := @Issues brokering Exn α EntersNothing program

/-- A command to the host or the clock. -/
def Outward : BrokerCommand → Prop
  | .host _ | .now => True
  | _ => False

/-- A program that asks only the host and the clock. -/
abbrev Looks (program : Prog α) : Prop := @Issues brokering Exn α Outward program

/-- What asks only the host and the clock enters nothing into the table. -/
theorem Looks.shrinks {program : Prog α} (looks : Looks program) : Shrinks program := by
  refine issues_mono looks fun command outward => ?_
  cases command with
  | register session_id session => exact outward.elim
  | _ => trivial

theorem looks_host (request : HostRequest) : Looks (host request) := (issues_perform _).mpr trivial

theorem looks_firstInstalled (preferred other : String) :
    Looks (firstInstalled preferred other) := by
  refine issues_bind (looks_host _) fun found => ?_
  split
  · exact issues_pure _
  · exact looks_host _

/-- The sessions of one table are sessions of another. -/
def Included (smaller larger : Keyed Str FLRSession) : Prop :=
  ∀ session_id session, smaller.lookup session_id = some session →
    larger.lookup session_id = some session

theorem Included.refl (sessions : Keyed Str FLRSession) : Included sessions sessions :=
  fun _ _ found => found

theorem Included.trans {first second third : Keyed Str FLRSession} (before : Included first second)
    (after : Included second third) : Included first third :=
  fun session_id session found => after session_id session (before session_id session found)

/-- Forgetting a session keeps the others. -/
theorem lookup_forgotten (sessions : Keyed Str FLRSession) (session_id other : Str) :
    (sessions.select fun key _ => key ≠ session_id).lookup other =
      if other = session_id then none else sessions.lookup other := by
  rw [Keyed.lookup_select]
  by_cases same : other = session_id
  · subst same
    cases sessions.lookup other <;> simp [Option.filter]
  · cases sessions.lookup other <;> simp [same, Option.filter]

/-- A command that enters nothing leaves a part of the table. -/
theorem included_updated {command : BrokerCommand} (nothing : EntersNothing command)
    (sessions : Keyed Str FLRSession) :
    Included (Surroundings.updated sessions command) sessions := by
  cases command with
  | register session_id session => exact nothing.elim
  | forget session_id =>
    intro other session found
    simp only [Surroundings.updated, lookup_forgotten] at found
    split at found
    · cases found
    · exact found
  | now => exact Included.refl sessions
  | table => exact Included.refl sessions
  | host request => exact Included.refl sessions

/-- A program that enters nothing leaves a part of the table. -/
theorem included_run {program : Prog α} (shrinks : Shrinks program) (broker : Broker) :
    Included (run surroundings.handler program broker).2.sessions broker.sessions := by
  induction program generalizing broker with
  | ret value => exact Included.refl _
  | raise error => exact Included.refl _
  | call command resume inductionHypothesis =>
    exact (inductionHypothesis _ (shrinks.2 _) _).trans (included_updated shrinks.1 _)

/-- The same for a run whose end is given by name. -/
theorem included_ran {program : Prog α} (shrinks : Shrinks program) {broker final : Broker}
    {outcome : Except Exn α}
    (ran : run surroundings.handler program broker = (outcome, final)) :
    Included final.sessions broker.sessions := by
  have included := included_run surroundings shrinks broker
  rwa [ran] at included

theorem shrinks_host (request : HostRequest) : Shrinks (host request) := (looks_host _).shrinks

theorem shrinks_now : Shrinks now := (issues_perform _).mpr trivial

theorem shrinks_table : Shrinks table := (issues_perform _).mpr trivial

theorem shrinks_forget (session_id : Str) : Shrinks (forget session_id) :=
  (issues_perform _).mpr trivial

/-- Reading a guest's files leaves the table alone. -/
theorem shrinks_browsing (program : Program files Exn α) : Shrinks (browsing program) := by
  induction program with
  | ret value => exact issues_pure value
  | raise error => exact issues_throw error
  | call command resume inductionHypothesis => exact ⟨trivial, inductionHypothesis⟩

theorem shrinks_raised (value : Except Exn α) : Shrinks (raised value : Prog α) :=
  issues_raised value

theorem shrinks_runInstalled (command : Option Str) (options : List Str) (paths : List Path) :
    Shrinks (runInstalled command options paths) := by
  induction paths with
  | nil => exact issues_pure ()
  | cons path rest inductionHypothesis =>
    cases command with
    | none => exact issues_pure ()
    | some installed =>
      refine issues_bind ?_ fun _ => inductionHypothesis
      refine issues_bind (shrinks_host _) fun present => ?_
      split
      · exact issues_bind (shrinks_host _) fun _ => issues_pure ()
      · exact issues_pure ()

theorem shrinks_cleanupMountPaths (guest restic : Path) :
    Shrinks (cleanupMountPaths guest restic) :=
  issues_bind (shrinks_host _) fun _ => issues_bind (shrinks_runInstalled _ _ _) fun _ =>
    issues_bind (looks_firstInstalled _ _).shrinks fun _ => shrinks_runInstalled _ _ _

variable (settings : Settings)

theorem shrinks_closeInherited (session_id : Str) (actor : Option Str) (force : Bool) :
    Shrinks (closeInherited settings session_id actor force) := by
  refine issues_bind shrinks_table fun sessions => ?_
  split
  · split
    · exact issues_bind (shrinks_cleanupMountPaths _ _) fun _ => shrinks_host _
    · exact issues_throw _
  · split
    · exact issues_throw _
    · exact issues_bind (shrinks_forget _) fun _ =>
        issues_bind (shrinks_cleanupMountPaths _ _) fun _ =>
          issues_bind (shrinks_host _) fun _ => issues_bind (shrinks_host _) fun _ =>
            shrinks_host _

theorem shrinks_closeSession (session_id : Str) (actor : Option Str) (force : Bool) :
    Shrinks (closeSession settings session_id actor force) := by
  refine issues_bind shrinks_table fun sessions => ?_
  split
  · refine issues_bind shrinks_now fun time => ?_
    dsimp only
    split
    · exact issues_throw _
    · split
      · exact issues_throw _
      · exact shrinks_closeInherited settings _ _ _
  · exact shrinks_closeInherited settings _ _ _

theorem shrinks_closeAll (listed : List Str) : Shrinks (closeAll settings listed) := by
  induction listed with
  | nil => exact issues_pure ()
  | cons session_id rest inductionHypothesis =>
    exact issues_bind (shrinks_closeSession settings _ _ _) fun _ => inductionHypothesis

theorem shrinks_sweepOrphan (child : Component CodePoint) :
    Shrinks (sweepOrphan settings child) := by
  refine issues_bind (shrinks_host _) fun directory => ?_
  split
  · exact issues_pure ()
  · refine issues_bind shrinks_table fun sessions => ?_
    split
    · exact issues_pure ()
    · refine issues_bind shrinks_now fun time => ?_
      refine issues_bind ?_ fun modified => ?_
      · refine issues_tryCatch (issues_bind (shrinks_host _) fun _ => issues_pure _) ?_
        intro error
        split
        · exact issues_pure _
        · exact issues_throw _
      · split
        · exact issues_pure ()
        · split
          · exact issues_bind (shrinks_cleanupMountPaths _ _) fun _ => shrinks_host _
          · exact issues_pure ()

theorem shrinks_sweepOrphans (listed : List (Component CodePoint)) :
    Shrinks (sweepOrphans settings listed) := by
  induction listed with
  | nil => exact issues_pure ()
  | cons child rest inductionHypothesis =>
    exact issues_bind (shrinks_sweepOrphan settings child) fun _ => inductionHypothesis

/-- What follows the closing of expired sessions. -/
theorem shrinks_sweep : Shrinks (do
    let present : Bool ← host (.present settings.mount_root)
    if ¬ present then return ()
    else
      let children : List (Component CodePoint) ← host (.children settings.mount_root)
      sweepOrphans settings children) := by
  refine issues_bind (shrinks_host _) fun present => ?_
  split
  · exact issues_pure ()
  · exact issues_bind (shrinks_host _) fun children => shrinks_sweepOrphans settings children

theorem shrinks_cleanupExpired : Shrinks (cleanupExpired settings) :=
  issues_bind shrinks_now fun _ => issues_bind shrinks_table fun _ =>
    issues_bind (shrinks_closeAll settings _) fun _ => shrinks_sweep settings

theorem shrinks_ownedSession (session_id actor : Str) (admin : Bool) :
    Shrinks (ownedSession settings session_id actor admin) := by
  refine issues_bind (shrinks_cleanupExpired settings) fun _ => ?_
  refine issues_bind shrinks_table fun sessions => ?_
  split
  · exact issues_throw _
  · split
    · exact issues_throw _
    · exact issues_pure _

theorem shrinks_serveOwned (casefold : Str → Str) (action : Action)
    (session_id user_path actor : Str) (admin : Bool) :
    Shrinks (serveOwned settings casefold action session_id user_path actor admin) := by
  refine issues_bind (shrinks_ownedSession settings _ _ _) fun session => ?_
  cases action with
  | list => exact issues_bind (shrinks_browsing _) fun _ => issues_pure _
  | stat => exact issues_bind (shrinks_browsing _) fun _ => issues_pure _
  | download =>
    exact issues_bind (shrinks_browsing _) fun _ => issues_bind (shrinks_browsing _) fun _ =>
      issues_pure _

end Table

section Looking

variable (surroundings : Surroundings) (settings : Settings)

/-- A question to the host is answered and recorded with its answer. -/
theorem run_asked {request : HostRequest} {answer : Except Exn request.Answer} {broker : Broker}
    (answered : surroundings.answer broker.log request = answer) :
    run surroundings.handler (host request) broker =
      (answer, { broker with log := broker.log ++ [⟨.host request, answer⟩] }) := by
  rw [← answered]
  exact run_perform _ _ _

@[simp] theorem run_now (broker : Broker) : run surroundings.handler now broker =
    (.ok (surroundings.clock broker.log),
      { broker with log := broker.log ++ [⟨.now, .ok (surroundings.clock broker.log)⟩] }) := rfl

@[simp] theorem run_table (broker : Broker) : run surroundings.handler table broker =
    (.ok broker.sessions, { broker with log := broker.log ++ [⟨.table, .ok broker.sessions⟩] }) :=
  rfl

@[simp] theorem run_forget (session_id : Str) (broker : Broker) :
    run surroundings.handler (forget session_id) broker = (.ok (),
      { sessions := broker.sessions.select fun key _ => key ≠ session_id
        log := broker.log ++ [⟨.forget session_id, .ok ()⟩] }) := rfl

@[simp] theorem run_register (session_id : Str) (session : FLRSession) (broker : Broker) :
    run surroundings.handler (register session_id session) broker = (.ok (),
      { sessions := broker.sessions.store session_id session
        log := broker.log ++ [⟨.register session_id session, .ok ()⟩] }) := rfl

@[simp] theorem run_raised {α : Type} (value : Except Exn α) (broker : Broker) :
    run surroundings.handler (raised value) broker = (value, broker) := by
  cases value <;> rfl

/-- A session that the inherited close was asked to close without error is gone. -/
theorem closeInherited_forgets {session_id : Str} {actor : Option Str} {force : Bool}
    {broker final : Broker} (ran : run surroundings.handler
      (closeInherited settings session_id actor force) broker = (.ok (), final)) :
    final.sessions.lookup session_id = none := by
  have included := included_ran surroundings (shrinks_closeInherited settings _ _ _) ran
  cases found : broker.sessions.lookup session_id with
  | none =>
    cases kept : final.sessions.lookup session_id with
    | none => rfl
    | some session =>
      have impossible := included session_id session kept
      rw [found] at impossible
      cases impossible
  | some session =>
    simp only [closeInherited, run_bind, run_table, found] at ran
    split at ran
    · simp [raisePermissionError] at ran
    · simp only [run_bind, run_forget] at ran
      have rest : Shrinks (do
          cleanupMountPaths session.guest_mount (resticMount session.root)
          host (.stopMount session.root)
          host (.closeLog session.root)
          host (.rmtree session.root)) :=
        issues_bind (shrinks_cleanupMountPaths _ _) fun _ => issues_bind (shrinks_host _) fun _ =>
          issues_bind (shrinks_host _) fun _ => shrinks_host _
      simp only [← run_bind] at ran
      have afterwards := included_ran surroundings rest ran
      cases kept : final.sessions.lookup session_id with
      | none => rfl
      | some other =>
        have impossible := afterwards session_id other kept
        simp only [lookup_forgotten, if_true] at impossible
        cases impossible

/-- The same for the close of the enterprise manager. -/
theorem closeSession_forgets {session_id : Str} {actor : Option Str} {force : Bool}
    {broker final : Broker} (ran : run surroundings.handler
      (closeSession settings session_id actor force) broker = (.ok (), final)) :
    final.sessions.lookup session_id = none := by
  cases found : broker.sessions.lookup session_id with
  | none =>
    simp only [closeSession, run_bind, run_table, found] at ran
    exact closeInherited_forgets surroundings settings ran
  | some session =>
    simp only [closeSession, run_bind, run_table, run_now, found] at ran
    split at ran
    · simp [raisePermissionError] at ran
    · split at ran
      · simp [raisePermissionError] at ran
      · exact closeInherited_forgets surroundings settings ran

/-- Every listed session is gone once all were closed. -/
theorem closeAll_forgets {listed : List Str} {broker final : Broker}
    (ran : run surroundings.handler (closeAll settings listed) broker = (.ok (), final)) :
    ∀ session_id ∈ listed, final.sessions.lookup session_id = none := by
  induction listed generalizing broker with
  | nil => simp
  | cons first rest inductionHypothesis =>
    obtain ⟨_, middle, closed, continued⟩ := (run_bind_eq_ok _).mp ran
    have included := included_ran surroundings (shrinks_closeAll settings rest) continued
    intro session_id member
    rcases List.mem_cons.mp member with rfl | later
    · cases kept : final.sessions.lookup session_id with
      | none => rfl
      | some session =>
        have impossible := included session_id session kept
        rw [closeSession_forgets surroundings settings closed] at impossible
        cases impossible
    · exact inductionHypothesis continued session_id later

/-- After a clean-up without error, every session left was there before and had not
expired when the clean-up began. -/
theorem cleanupExpired_keeps {broker final : Broker}
    (ran : run surroundings.handler (cleanupExpired settings) broker = (.ok (), final))
    {session_id : Str} {session : FLRSession}
    (found : final.sessions.lookup session_id = some session) :
    broker.sessions.lookup session_id = some session ∧
      surroundings.clock broker.log < session.expires_at := by
  have present : broker.sessions.lookup session_id = some session :=
    included_ran surroundings (shrinks_cleanupExpired settings) ran session_id session found
  refine ⟨present, ?_⟩
  by_contra reached
  have expired : session.expires_at ≤ surroundings.clock broker.log := Nat.le_of_not_lt reached
  simp only [cleanupExpired, run_bind, run_now, run_table] at ran
  simp only [← run_bind] at ran
  obtain ⟨_, middle, closed, swept⟩ := (run_bind_eq_ok _).mp ran
  have listed : session_id ∈ (broker.sessions.rows.filter fun entry =>
      entry.2.expires_at ≤ surroundings.clock broker.log).map Prod.fst := by
    refine List.mem_map.mpr ⟨(session_id, session), ?_, rfl⟩
    exact List.mem_filter.mpr ⟨(Keyed.mem_rows_iff _ _ _).mpr present, by simpa using expired⟩
  have gone := closeAll_forgets surroundings settings closed session_id listed
  have left := included_ran surroundings (shrinks_sweep settings) swept session_id session found
  rw [gone] at left
  cases left

/-- A session is handed out to its owner, who had it before it expired. -/
theorem ownedSession_owned {session_id actor : Str} {admin : Bool} {broker final : Broker}
    {session : FLRSession} (ran : run surroundings.handler
      (ownedSession settings session_id actor admin) broker = (.ok session, final)) :
    broker.sessions.lookup session_id = some session ∧ session.owner = actor ∧
      surroundings.clock broker.log < session.expires_at := by
  obtain ⟨_, middle, cleaned, continued⟩ := (run_bind_eq_ok _).mp ran
  simp only [run_bind, run_table] at continued
  split at continued
  · simp [raiseValueError] at continued
  · rename_i other found
    split at continued
    · simp [raisePermissionError] at continued
    · rename_i owned
      simp only [run_pure, Prod.mk.injEq, Except.ok.injEq] at continued
      obtain ⟨rfl, _⟩ := continued
      obtain ⟨present, unexpired⟩ := cleanupExpired_keeps surroundings settings cleaned found
      exact ⟨present, by simpa using owned, unexpired⟩

/-- A session that somebody else owns and that has not expired is not closed: the
request is refused, the table stays as it is, and the host is not asked for anything. -/
theorem closeSession_refused {session_id actor : Str} (force : Bool) {broker : Broker}
    {session : FLRSession} (found : broker.sessions.lookup session_id = some session)
    (foreign : session.owner ≠ actor)
    (unexpired : surroundings.clock (broker.log ++ [⟨.table, .ok broker.sessions⟩]) <
      session.expires_at) :
    run surroundings.handler (closeSession settings session_id (some actor) force) broker =
      (.error ⟨.permissionError, "FLR session belongs to another portal user"⟩,
        { broker with log := broker.log ++ [⟨.table, .ok broker.sessions⟩] ++ [⟨.now,
          .ok (surroundings.clock (broker.log ++ [⟨.table, .ok broker.sessions⟩]))⟩] }) := by
  have standing : ¬ session.expires_at ≤
      surroundings.clock (broker.log ++ [⟨.table, .ok broker.sessions⟩]) :=
    Nat.not_le_of_lt unexpired
  have other : ¬ actor = session.owner := fun same => foreign same.symm
  simp only [closeSession, run_bind, run_table, found, run_now]
  simp [standing, other, raisePermissionError]

end Looking

section Opening

variable (surroundings : Surroundings) (settings : Settings)

theorem looks_missingCommands (names : List String) : Looks (missingCommands names) := by
  induction names with
  | nil => exact issues_pure _
  | cons name rest inductionHypothesis =>
    exact issues_bind (looks_host _) fun _ => issues_bind inductionHypothesis fun _ =>
      issues_pure _

theorem looks_prerequisiteProblems : Looks (prerequisiteProblems settings) := by
  unfold prerequisiteProblems
  split
  · exact issues_pure _
  · exact issues_bind (looks_missingCommands _) fun _ =>
      issues_bind (looks_firstInstalled _ _) fun _ => issues_bind (looks_host _) fun _ =>
        issues_pure _

theorem looks_findSnapshot (restic : Path) (snapshot_id : Str) :
    Looks (findSnapshot settings restic snapshot_id) := by
  have root : Looks (snapshotRoot restic snapshot_id) := by
    refine issues_bind (looks_host _) fun present => ?_
    split
    · exact issues_pure _
    · refine issues_bind (looks_host _) fun directory => ?_
      split
      · exact issues_pure _
      · refine issues_bind (looks_host _) fun names => ?_
        split <;> exact issues_pure _
  refine issues_bind root fun snapshot => issues_bind (looks_host _) fun ready => ?_
  split
  · exact issues_throw _
  · exact issues_pure _

theorem looks_mountGuest (disks : List Str) (guest : Path) : Looks (mountGuest disks guest) := by
  refine issues_bind (looks_host _) fun guestmount => ?_
  refine issues_bind (looks_host _) fun result => ?_
  split
  · exact issues_throw _
  · exact issues_pure _

theorem looks_mountFrom (point : FilledPoint) (root snapshot : Path) :
    Looks (mountFrom settings point root snapshot) := by
  refine issues_bind (issues_raised _) fun source => ?_
  refine issues_bind (looks_host _) fun present => ?_
  split
  · exact issues_throw _
  refine issues_bind (looks_host _) fun found => ?_
  dsimp only
  split
  · refine issues_bind (looks_host _) fun layout => ?_
    split <;> exact issues_throw _
  · refine issues_bind (looks_mountGuest _ _) fun _ => ?_
    refine issues_bind (looks_host _) fun browsable => ?_
    split
    · exact issues_throw _
    · exact issues_pure _

theorem looks_mountPoint (point : FilledPoint) (root : Path) :
    Looks (mountPoint settings point root) :=
  issues_bind (looks_findSnapshot settings _ _) fun _ => looks_mountFrom settings point root _

theorem looks_prepareRoot (root : Path) : Looks (prepareRoot root) :=
  issues_bind (looks_host _) fun _ => issues_bind (looks_host _) fun _ =>
    issues_bind (looks_host _) fun _ => looks_host _

theorem shrinks_status : Shrinks (status settings) :=
  issues_bind (shrinks_cleanupExpired settings) fun _ => issues_bind shrinks_table fun _ =>
    issues_bind (looks_prerequisiteProblems settings).shrinks fun _ => issues_pure _

/-- What the end of an opening says about the table: a failure leaves a part of it,
and a success adds one session of the actor under the identifier it answers. -/
def Entered (actor : Str) (broker : Broker) (outcome : Except Exn PublicSession)
    (final : Broker) : Prop :=
  match outcome with
  | .error _ => Included final.sessions broker.sessions
  | .ok opened => ∃ session, final.sessions.lookup opened.session_id = some session ∧
      session.owner = actor ∧ ∀ other kept, other ≠ opened.session_id →
        final.sessions.lookup other = some kept → broker.sessions.lookup other = some kept

/-- An opening may start from a part of the table. -/
theorem Entered.weaken {actor : Str} {broker middle final : Broker}
    {outcome : Except Exn PublicSession} (entered : Entered actor middle outcome final)
    (included : Included middle.sessions broker.sessions) :
    Entered actor broker outcome final := by
  cases outcome with
  | error error => exact Included.trans entered included
  | ok opened =>
    obtain ⟨session, found, owned, others⟩ := entered
    exact ⟨session, found, owned, fun other kept different present =>
      included other kept (others other kept different present)⟩

/-- Every run of a program ends with a table that its outcome accounts for. -/
def Enters (actor : Str) (program : Prog PublicSession) : Prop :=
  ∀ broker, Entered actor broker (run surroundings.handler program broker).1
    (run surroundings.handler program broker).2

theorem enters_throw (actor : Str) (error : Exn) : Enters surroundings actor (throw error) :=
  fun _ => Included.refl _

/-- What enters nothing may come first. -/
theorem enters_bind {α : Type} {actor : Str} {first : Prog α} {next : α → Prog PublicSession}
    (shrinks : Shrinks first) (rest : ∀ value, Enters surroundings actor (next value)) :
    Enters surroundings actor (first >>= next) := by
  intro broker
  have included := included_run surroundings shrinks broker
  rw [run_bind]
  cases ran : run surroundings.handler first broker with
  | mk answer middle =>
    rw [ran] at included
    cases answer with
    | error error => exact included
    | ok value => exact (rest value middle).weaken included

/-- A failed program leaves a part of the table to its rescuer. -/
theorem enters_tryCatch {actor : Str} {program : Prog PublicSession}
    {rescuer : Exn → Prog PublicSession} (enters : Enters surroundings actor program)
    (rescued : ∀ error, Enters surroundings actor (rescuer error)) :
    Enters surroundings actor (tryCatch program rescuer) := by
  intro broker
  have entered := enters broker
  rw [run_tryCatch]
  cases ran : run surroundings.handler program broker with
  | mk answer middle =>
    rw [ran] at entered
    cases answer with
    | ok opened => exact entered
    | error error => exact (rescued error middle).weaken entered

/-- Mounting a session enters it last. -/
theorem mountSession_enters (point : FilledPoint) (actor session_id : Str) (root : Path) :
    Enters surroundings actor (mountSession settings point actor session_id root) := by
  refine enters_bind surroundings (looks_mountPoint settings point root).shrinks fun disks broker => ?_
  simp only [run_bind, run_now, run_register, run_pure]
  refine ⟨newSession settings point actor root disks (surroundings.clock broker.log), ?_, rfl, ?_⟩
  · simp [FLRSession.public, Keyed.lookup_store]
  · intro other kept different present
    have apart : other ≠ session_id := different
    simpa [Keyed.lookup_store, apart] using present

/-- Withdrawing enters nothing and raises. -/
theorem withdraw_enters (actor : Str) (root : Path) (started : Bool) (error : Exn) :
    Enters surroundings actor (withdraw root started error) := by
  refine enters_bind surroundings (shrinks_cleanupMountPaths _ _) fun _ => ?_
  have closing : Enters surroundings actor (do
      host (.closeLog root)
      host (.rmtree root)
      throw error) :=
    enters_bind surroundings (shrinks_host _) fun _ =>
      enters_bind surroundings (shrinks_host _) fun _ => enters_throw surroundings actor error
  dsimp only
  split
  · exact enters_bind surroundings (shrinks_host _) fun _ => closing
  · exact closing

/-- Opening a session enters it for its actor, or enters nothing. -/
theorem openSession_enters (point : FilledPoint) (actor : Str) :
    Enters surroundings actor (openSession settings point actor) := by
  unfold openSession
  split
  · exact enters_throw surroundings actor _
  refine enters_bind surroundings (looks_prerequisiteProblems settings).shrinks fun problems => ?_
  split
  · exact enters_throw surroundings actor _
  refine enters_bind surroundings (shrinks_cleanupExpired settings) fun _ => ?_
  refine enters_bind surroundings shrinks_table fun sessions => ?_
  dsimp only
  split
  · exact enters_throw surroundings actor _
  refine enters_bind surroundings (shrinks_host _) fun session_id => ?_
  refine enters_bind surroundings (looks_prepareRoot _).shrinks fun _ => ?_
  refine enters_bind surroundings (issues_attempt (issues_bind
    (issues_bind (shrinks_host _) fun _ => issues_pure _) fun _ => shrinks_host _))
    fun started => ?_
  cases started with
  | error error => exact withdraw_enters surroundings actor _ _ error
  | ok _ =>
    exact enters_tryCatch surroundings (mountSession_enters surroundings settings point actor _ _)
      fun error => withdraw_enters surroundings actor _ _ error

end Opening

section Requests

variable (surroundings : Surroundings) (settings : Settings) (casefold : Str → Str)

/-- A request, with the flags its serving is given. -/
structure Turn where
  request : Request
  admin : Bool := false
  force : Bool := false

/-- The actor on whose behalf a request is made, without surrounding white space. -/
def Turn.actor (turn : Turn) : Except Exn Str := requiredActor turn.request.fields

/-- The session a request names. -/
def Turn.session_id (turn : Turn) : Str := textOr turn.request.fields.session_id []

/-- A served request: what was asked, the broker before and after, and the answer. -/
structure Record where
  turn : Turn
  before : Broker
  outcome : Except Exn Answer
  after : Broker

/-- Serve one request. -/
def record (broker : Broker) (turn : Turn) : Record :=
  let result := run surroundings.handler
    (dispatch settings casefold turn.admin turn.force turn.request) broker
  ⟨turn, broker, result.1, result.2⟩

/-- Serve requests one after another. -/
def records (broker : Broker) : List Turn → List Record
  | [] => []
  | turn :: rest =>
    let first := record surroundings settings casefold broker turn
    first :: records first.after rest

/-- The broker after these requests. -/
def reached (broker : Broker) : List Turn → Broker
  | [] => broker
  | turn :: rest => reached (record surroundings settings casefold broker turn).after rest

/-- What happened while a request was served. -/
def Record.asked (record : Record) : History := record.after.log.drop record.before.log.length

/-- The time that an exchange with the clock read. -/
def clockReading : Exchange brokering Exn → Option Timestamp
  | ⟨.now, .ok time⟩ => some time
  | _ => none

/-- The first time that the clock showed while a request was served. -/
def Record.time (record : Record) : Option Timestamp := record.asked.findSome? clockReading

/-- Whether an exchange was with the host. -/
def asksHost : Exchange brokering Exn → Bool
  | ⟨.host _, _⟩ => true
  | _ => false

/-- The identifier of the session that a request opened. -/
def Record.opened (record : Record) : Option Str :=
  match record.outcome with
  | .ok (.opened session) => some session.session_id
  | _ => none

/-- The last record that opened a session under an identifier opened this one, for this
actor. -/
def OpenedBy (past : List Record) (session_id actor : Str) (session : FLRSession) : Prop :=
  ∃ earlier opening later, past = earlier ++ opening :: later ∧
    opening.opened = some session_id ∧ opening.turn.actor = .ok actor ∧
    opening.after.sessions.lookup session_id = some session ∧
    ∀ record ∈ later, record.opened ≠ some session_id

/-- Every session of the table was opened by its owner. -/
def Accounted (past : List Record) (broker : Broker) : Prop :=
  ∀ session_id session, broker.sessions.lookup session_id = some session →
    OpenedBy past session_id session.owner session

/-- An answer other than that of an opening. -/
def Answer.OpensNothing : Answer → Prop
  | .opened _ => False
  | _ => True

/-- A program that enters nothing and answers no opening keeps what it keeps. -/
theorem included_opening {program : Prog Answer} (shrinks : Shrinks program)
    (other : Yields Answer.OpensNothing program) (broker : Broker) (turn : Turn)
    {session_id : Str} {session : FLRSession}
    (found : (run surroundings.handler program broker).2.sessions.lookup session_id =
      some session) :
    broker.sessions.lookup session_id = some session ∧
      Record.opened ⟨turn, broker, (run surroundings.handler program broker).1,
        (run surroundings.handler program broker).2⟩ ≠ some session_id := by
  refine ⟨included_run surroundings shrinks broker session_id session found, ?_⟩
  unfold Record.opened
  dsimp only
  split
  · rename_i opened answered
    exact (yields_run other answered).elim
  · simp

/-- A session in the table after a request was there before, or is the one that the
request opened for its actor. -/
theorem record_accounts (broker : Broker) (turn : Turn) {session_id : Str} {session : FLRSession}
    (found : (record surroundings settings casefold broker turn).after.sessions.lookup session_id =
      some session) :
    (broker.sessions.lookup session_id = some session ∧
        (record surroundings settings casefold broker turn).opened ≠ some session_id) ∨
      (record surroundings settings casefold broker turn).opened = some session_id ∧
        turn.actor = .ok session.owner := by
  obtain ⟨⟨order, fields⟩, admin, force⟩ := turn
  cases order with
  | status =>
    exact Or.inl (included_opening surroundings
      (issues_bind (shrinks_status settings) fun _ => issues_pure _)
      (yields_bind fun reported => yields_pure (show (Answer.status reported).OpensNothing from
        trivial)) broker _ found)
  | browse action =>
    exact Or.inl (included_opening surroundings
      (issues_bind (shrinks_raised _) fun _ =>
        issues_bind (shrinks_serveOwned settings _ _ _ _ _ _) fun _ => issues_pure _)
      (yields_bind fun _ => yields_bind fun reply => yields_pure
        (show (Answer.browsed reply).OpensNothing from trivial)) broker _ found)
  | close =>
    exact Or.inl (included_opening surroundings
      (issues_bind (shrinks_raised _) fun _ =>
        issues_bind (shrinks_closeSession settings _ _ _) fun _ => issues_pure _)
      (yields_bind fun _ => yields_bind fun _ => yields_pure
        (show (Answer.closed (textOr fields.session_id [])).OpensNothing from trivial))
      broker _ found)
  | other name =>
    exact Or.inl (included_opening surroundings
      (issues_bind (shrinks_raised _) fun _ => issues_throw _)
      (yields_bind fun _ => yields_throw _) broker _ found)
  | opening point =>
    simp only [record, dispatch, run_bind, run_raised] at found ⊢
    cases named : requiredActor fields with
    | error error =>
      rw [named] at found
      exact Or.inl ⟨found, by simp [Record.opened]⟩
    | ok actor =>
      rw [named] at found
      cases point with
      | none => exact Or.inl ⟨found, by simp [Record.opened, raiseValueError]⟩
      | some given =>
        cases filled : filledPoint given with
        | error error =>
          simp only [filled, run_bind, run_raised] at found
          exact Or.inl ⟨found, by simp [Record.opened, run_bind, filled]⟩
        | ok point =>
          have entered := openSession_enters surroundings settings point actor broker
          simp only [run_bind, run_raised, filled] at found ⊢
          cases ran : run surroundings.handler (openSession settings point actor) broker with
          | mk outcome final =>
            rw [ran] at entered found
            cases outcome with
            | error error => exact Or.inl ⟨entered session_id session found, by simp [Record.opened]⟩
            | ok opened =>
              obtain ⟨own, present, owned, others⟩ := entered
              by_cases same : session_id = opened.session_id
              · subst same
                have mine : own = session := Option.some.inj (present.symm.trans found)
                exact Or.inr ⟨rfl, by rw [← mine, owned]; exact named⟩
              · refine Or.inl ⟨others session_id session same found, ?_⟩
                exact fun answered => same (Option.some.inj answered).symm

/-- Serving one more request keeps every session accounted for. -/
theorem accounted_record {past : List Record} {broker : Broker} (accounted : Accounted past broker)
    (turn : Turn) : Accounted (past ++ [record surroundings settings casefold broker turn])
      (record surroundings settings casefold broker turn).after := by
  intro session_id session found
  rcases record_accounts surroundings settings casefold broker turn found with
    ⟨before, another⟩ | ⟨opened, owned⟩
  · obtain ⟨earlier, opening, later, split, opened, owned, present, others⟩ :=
      accounted session_id session before
    refine ⟨earlier, opening, later ++ [record surroundings settings casefold broker turn], ?_,
      opened, owned, present, ?_⟩
    · rw [split, List.append_assoc, List.cons_append]
    · intro served member
      rcases List.mem_append.mp member with old | new
      · exact others served old
      · exact List.mem_singleton.mp new ▸ another
  · exact ⟨past, _, [], rfl, opened, owned, found, by simp⟩

/-- Along a run every session stays accounted for. -/
theorem accounted_records (turns : List Turn) {past : List Record} {broker : Broker}
    (accounted : Accounted past broker) :
    Accounted (past ++ records surroundings settings casefold broker turns)
      (reached surroundings settings casefold broker turns) := by
  induction turns generalizing past broker with
  | nil => simpa [records, reached] using accounted
  | cons turn rest inductionHypothesis =>
    have stepped := accounted_record surroundings settings casefold accounted turn
    have finished := inductionHypothesis stepped
    simpa [records, reached] using finished

/-- Serving never forgets what happened. -/
theorem log_run {α : Type} (program : Prog α) (broker : Broker) :
    broker.log <+: (run surroundings.handler program broker).2.log := by
  induction program generalizing broker with
  | ret value => exact List.prefix_rfl
  | raise error => exact List.prefix_rfl
  | call command resume inductionHypothesis =>
    exact List.IsPrefix.trans (List.prefix_append broker.log _) (inductionHypothesis
      (surroundings.handler command broker).1 (surroundings.handler command broker).2)

/-- What the first part of a sequence logged comes first. -/
theorem log_bind {α β : Type} (first : Prog α) (next : α → Prog β) (broker : Broker) :
    (run surroundings.handler first broker).2.log <+:
      (run surroundings.handler (first >>= next) broker).2.log := by
  rw [run_bind]
  cases run surroundings.handler first broker with
  | mk answer middle =>
    cases answer with
    | error error => exact List.prefix_rfl
    | ok value => exact log_run surroundings (next value) middle

/-- A clean-up looks at the clock first. -/
theorem log_cleanupExpired (broker : Broker) :
    broker.log ++ [⟨.now, .ok (surroundings.clock broker.log)⟩] <+:
      (run surroundings.handler (cleanupExpired settings) broker).2.log :=
  log_bind surroundings now _ broker

/-- Serving a session's files starts with a clean-up. -/
theorem log_serveOwned (action : Action) (session_id user_path actor : Str) (admin : Bool)
    (broker : Broker) :
    broker.log ++ [⟨.now, .ok (surroundings.clock broker.log)⟩] <+:
      (run surroundings.handler
        (serveOwned settings casefold action session_id user_path actor admin) broker).2.log :=
  (log_cleanupExpired surroundings settings broker).trans
    ((log_bind surroundings (cleanupExpired settings) _ broker).trans
      (log_bind surroundings (ownedSession settings session_id actor admin) _ broker))

/-- Closing a session of the table looks at the table and then at the clock. -/
theorem log_closeSession {session_id : Str} (actor : Option Str) (force : Bool) {broker : Broker}
    {session : FLRSession} (found : broker.sessions.lookup session_id = some session) :
    broker.log ++ [⟨.table, .ok broker.sessions⟩] ++
        [⟨.now, .ok (surroundings.clock (broker.log ++ [⟨.table, .ok broker.sessions⟩]))⟩] <+:
      (run surroundings.handler (closeSession settings session_id actor force) broker).2.log := by
  simp only [closeSession, run_bind, run_table, run_now, found]
  exact log_run surroundings _ { broker with log := broker.log ++
    [⟨.table, .ok broker.sessions⟩] ++
    [⟨.now, .ok (surroundings.clock (broker.log ++ [⟨.table, .ok broker.sessions⟩]))⟩] }

/-- The first reading of the clock is the one that the log shows first. -/
theorem time_of_earlier {record : Record} {earlier : History} {time : Timestamp}
    (logged : record.before.log ++ earlier ++ [⟨.now, .ok time⟩] <+: record.after.log)
    (silent : earlier.findSome? clockReading = none) : record.time = some time := by
  obtain ⟨more, extended⟩ := logged
  simp only [Record.time, Record.asked, ← extended, List.append_assoc, List.drop_left,
    List.findSome?_append, silent, Option.none_or]
  rfl

/-- Files are served to the owner of a session that had not expired. -/
theorem browsed_owned {broker : Broker} {turn : Turn} {action : Action} {reply : Reply}
    (browse : turn.request.order = .browse action)
    (served : (record surroundings settings casefold broker turn).outcome = .ok (.browsed reply)) :
    ∃ actor session, turn.actor = .ok actor ∧
      broker.sessions.lookup turn.session_id = some session ∧ session.owner = actor ∧
      ∃ time, (record surroundings settings casefold broker turn).time = some time ∧
        time < session.expires_at := by
  obtain ⟨⟨order, fields⟩, admin, force⟩ := turn
  obtain rfl : order = .browse action := browse
  simp only [record, dispatch, run_bind, run_raised] at served ⊢
  cases named : requiredActor fields with
  | error error => simp [named] at served
  | ok actor =>
    simp only [named] at served ⊢
    cases ran : run surroundings.handler (serveOwned settings casefold action
        (textOr fields.session_id []) (textOr fields.user_path
          (if action = .list then str "/" else [])) actor admin) broker with
    | mk outcome final =>
      rw [ran] at served
      cases outcome with
      | error error => cases served
      | ok _ =>
        obtain ⟨session, middle, handed, _⟩ := (run_bind_eq_ok _).mp ran
        obtain ⟨found, owned, unexpired⟩ := ownedSession_owned surroundings settings handed
        have reading := log_serveOwned surroundings settings casefold action
          (textOr fields.session_id []) (textOr fields.user_path
            (if action = .list then str "/" else [])) actor admin broker
        rw [ran] at reading
        refine ⟨actor, session, named, found, owned, surroundings.clock broker.log, ?_, unexpired⟩
        exact @time_of_earlier _ [] _ (by simpa using reading) rfl

/-- Somebody else's close of a session that has not expired is refused, whatever the
flags, and neither the table nor the host notices it. -/
theorem close_refused {broker : Broker} {turn : Turn} {actor : Str} {session : FLRSession}
    (closing : turn.request.order = .close) (named : turn.actor = .ok actor)
    (found : broker.sessions.lookup turn.session_id = some session)
    (foreign : session.owner ≠ actor) :
    ∃ time, (record surroundings settings casefold broker turn).time = some time ∧
      (time < session.expires_at →
        (record surroundings settings casefold broker turn).outcome =
            .error ⟨.permissionError, "FLR session belongs to another portal user"⟩ ∧
          (record surroundings settings casefold broker turn).after.sessions = broker.sessions ∧
          ∀ exchange ∈ (record surroundings settings casefold broker turn).asked,
            asksHost exchange = false) := by
  obtain ⟨⟨order, fields⟩, admin, force⟩ := turn
  obtain rfl : order = .close := closing
  have known : requiredActor fields = .ok actor := named
  have looked : broker.sessions.lookup (textOr fields.session_id []) = some session := found
  refine ⟨surroundings.clock (broker.log ++ [⟨.table, .ok broker.sessions⟩]), ?_, ?_⟩
  · refine @time_of_earlier _ [⟨.table, .ok broker.sessions⟩] _ ?_ rfl
    have closed := log_closeSession surroundings settings (some actor) force looked
    have wrapped := log_bind surroundings
      (closeSession settings (textOr fields.session_id []) (some actor) force)
      (fun _ => (pure (Answer.closed (textOr fields.session_id [])) : Prog Answer)) broker
    simp only [record, dispatch, run_bind, run_raised, known] at wrapped ⊢
    exact closed.trans wrapped
  · intro unexpired
    have refused := closeSession_refused surroundings settings force looked foreign unexpired
    have served : record surroundings settings casefold broker ⟨⟨.close, fields⟩, admin, force⟩ =
        ⟨⟨⟨.close, fields⟩, admin, force⟩, broker,
          .error ⟨.permissionError, "FLR session belongs to another portal user"⟩,
          { broker with log := broker.log ++ [⟨.table, .ok broker.sessions⟩] ++ [⟨.now,
            .ok (surroundings.clock (broker.log ++ [⟨.table, .ok broker.sessions⟩]))⟩] }⟩ := by
      simp only [record, dispatch, run_bind, run_raised, known, refused]
    rw [served]
    refine ⟨rfl, rfl, ?_⟩
    simp only [Record.asked, List.append_assoc, List.drop_left]
    intro exchange member
    rcases List.mem_cons.mp member with rfl | member
    · rfl
    · exact List.mem_singleton.mp member ▸ rfl

/-- Sessions belong to those who opened them. After any requests, and whatever flags the
next one is given, a listing, an inspection or a download that succeeds was asked for by
the actor who opened the session, before it expired; and a close of somebody else's
session that has not expired raises, leaves the table as it was and asks nothing of the
host, so that its owner can go on using it. -/
theorem sessions_owner_only (past : List Turn) (turn : Turn) :
    let broker := reached surroundings settings casefold {} past
    let next := record surroundings settings casefold broker turn
    (∀ action reply, turn.request.order = .browse action → next.outcome = .ok (.browsed reply) →
      ∃ actor session, turn.actor = .ok actor ∧
        OpenedBy (records surroundings settings casefold {} past) turn.session_id actor session ∧
        ∃ time, next.time = some time ∧ time < session.expires_at) ∧
    ∀ actor session, turn.request.order = .close → turn.actor = .ok actor →
      broker.sessions.lookup turn.session_id = some session → session.owner ≠ actor →
      ∃ time, next.time = some time ∧ (time < session.expires_at →
        next.outcome = .error ⟨.permissionError, "FLR session belongs to another portal user"⟩ ∧
          next.after.sessions = broker.sessions ∧
          ∀ exchange ∈ next.asked, asksHost exchange = false) := by
  intro broker next
  have accounted : Accounted (records surroundings settings casefold {} past) broker := by
    have nothing : Accounted [] {} := by
      intro session_id session found
      cases found
    exact accounted_records surroundings settings casefold past nothing
  constructor
  · intro action reply browse served
    obtain ⟨actor, session, named, found, owned, time, read, unexpired⟩ :=
      browsed_owned surroundings settings casefold browse served
    have opened := accounted turn.session_id session found
    exact ⟨actor, session, named, owned ▸ opened, time, read, unexpired⟩
  · intro actor session closing named found foreign
    exact close_refused surroundings settings casefold closing named found foreign

end Requests

/-- A vault whose clock stands still and whose host serves whatever it is asked. -/
def obliging : Surroundings where
  clock := fun _ => 0
  answer := fun _ request => match request with
    | .newIdentifier => .ok (str "5e55")
    | .which command => .ok (some (str command))
    | .fuseDevice => .ok (true, true)
    | .present _ | .appears .. | .browsable .. => .ok true
    | .isDirectory _ | .isFile _ => .ok false
    | .children _ => .ok []
    | .modifiedAt _ => .ok 0
    | .mkdir _ | .openLog _ | .closeLog _ | .startMount .. | .stopMount _ | .rmtree _ => .ok ()
    | .diskImages _ => .ok [[⟨str "disk.vmdk", by decide⟩]]
    | .run _ => .ok ⟨0, ""⟩
    | .look (.lstat _) => .ok ⟨.directory, 0, ""⟩
    | .look (.scandir _) => .ok []
    | .look (.read _) => .ok []

/-- Where the vault mounts. -/
def mounting : Settings where
  mount_root := PurePath.parse (str "/srv/flr")

/-- A request of an actor about the session of the example. -/
def asking (actor : String) (order : Order) (flags : Bool) : Turn where
  request := ⟨order, ⟨some (str actor), some (str "5e55"), none⟩⟩
  admin := flags
  force := flags

/-- Alice opens a session of a recovery point. -/
def opening : Turn := asking " alice" (.opening (some ⟨some (str "4f1c"), some (str "pve"),
  some (str "web"), some (str "/srv/web")⟩)) false

/-- Alice lists what she opened; Bob, with every flag set, cannot close it. -/
theorem sessions_owner_only_shared :
    (∃ actor session, (asking "alice" (.browse .list) false).actor = .ok actor ∧
      OpenedBy (records obliging mounting id {} [opening]) (str "5e55") actor session) ∧
    (record obliging mounting id (reached obliging mounting id {} [opening])
        (asking "bob" .close true)).outcome =
      .error ⟨.permissionError, "FLR session belongs to another portal user"⟩ := by
  let broker := reached obliging mounting id {} [opening]
  constructor
  · have served : ∃ reply, (record obliging mounting id broker
        (asking "alice" (.browse .list) false)).outcome = .ok (.browsed reply) := ⟨_, rfl⟩
    obtain ⟨reply, answered⟩ := served
    obtain ⟨actor, session, named, opened, _⟩ := (sessions_owner_only obliging mounting id
      [opening] (asking "alice" (.browse .list) false)).1 .list reply rfl answered
    exact ⟨actor, session, named, opened⟩
  · obtain ⟨time, read, refused⟩ := (sessions_owner_only obliging mounting id [opening]
      (asking "bob" .close true)).2 (str "bob") (newSession mounting ⟨str "4f1c", str "pve",
        str "web", str "/srv/web"⟩ (str "alice") (sessionRoot mounting (str "5e55"))
        [str "disk.vmdk"] 0) rfl (by rfl) (by rfl) (by decide)
    have first : (record obliging mounting id broker (asking "bob" .close true)).time = some 0 := by
      rfl
    obtain rfl : time = 0 := Option.some.inj (read.symm.trans first)
    exact (refused (by decide)).1

end Immutavault.SessionOwnership
