import Mathlib.Algebra.GroupWithZero.Nat
import Immutavault.PosixPaths
import Immutavault.Tables
import Immutavault.Timestamps
import Immutavault.Values

/-!
# File-level recovery inside a mounted guest

A recovery session exposes a guest's file system, mounted read-only on the
vault. A user names a path inside the guest; the manager turns it into
components, walks them from the mount one at a time and refuses symbolic links,
and then lists the directory or opens the file it arrives at.

Texts are lists of code points, lone surrogates included, because a request may
carry any of them. The tree of the host is arbitrary but does not change during
a call. Every host path that is asked about, listed or opened is recorded in the
order in which it is touched.
-/

namespace Immutavault.GuestFiles

open Programs Values PosixPaths Tables Timestamps

/-- A character of a text. -/
abbrev CodePoint := Fin 1114112

abbrev Str := List CodePoint

instance neZero_codePoints : NeZero 1114112 := ⟨by decide⟩

instance lawful_codePoints : LawfulBEq CodePoint := inferInstance

instance lawful_texts : LawfulBEq Str := inferInstance

instance : Alphabet CodePoint := ⟨47, 46, by decide⟩

/-- The code points of a literal. -/
def str (text : String) : Str := text.toList.map fun character => Fin.ofNat 1114112 character.toNat

/-- A character is its own code point. -/
theorem val_ofNat (character : Char) :
    (Fin.ofNat 1114112 character.toNat).val = character.toNat := by
  have bounded : character.toNat < 1114112 := by
    rcases character.valid with below | ⟨_, above⟩
    · exact Nat.lt_trans below (by decide)
    · exact above
  exact Nat.mod_eq_of_lt bounded

abbrev Path := PurePath CodePoint

/-- What an entry of a directory is. -/
inductive FileKind where
  | directory
  | regular
  | symlink
  | special
  deriving DecidableEq, Repr

/-- The status of a path: kind, size and the text of its modification time. -/
structure FileStatus where
  kind : FileKind
  st_size : Nat
  modified : String

/-- What the host's file system is asked. -/
inductive FileCommand where
  | lstat (path : Path)
  | scandir (path : Path)
  | read (path : Path)
  deriving DecidableEq

def FileCommand.path : FileCommand → Path
  | .lstat path | .scandir path | .read path => path

def FileCommand.Answer : FileCommand → Type
  | .lstat _ => FileStatus
  | .scandir _ => List (Component CodePoint)
  | .read _ => List UInt8

abbrev files : Interface := ⟨FileCommand, FileCommand.Answer⟩

/-- The host's file system during one call. -/
structure Tree where
  lstat : Path → Except Exn FileStatus
  scandir : Path → Except Exn (List (Component CodePoint))
  read : Path → Except Exn (List UInt8)

def Tree.answer (tree : Tree) : (command : FileCommand) → Except Exn command.Answer
  | .lstat path => tree.lstat path
  | .scandir path => tree.scandir path
  | .read path => tree.read path

/-- Answer from the tree and record what was touched, oldest first. -/
def Tree.handler (tree : Tree) : Handler files Exn (List FileCommand) :=
  fun command touched => (tree.answer command, touched ++ [command])

def lstat (path : Path) : Program files Exn FileStatus :=
  @Program.perform files Exn (FileCommand.lstat path)

def scandir (path : Path) : Program files Exn (List (Component CodePoint)) :=
  @Program.perform files Exn (FileCommand.scandir path)

def read (path : Path) : Program files Exn (List UInt8) :=
  @Program.perform files Exn (FileCommand.read path)

/-- The settings that browsing consults. -/
structure FLRSettings where
  max_download_bytes : Nat := 5 * 1024 * 1024 * 1024

/-- A session. Its two mounts lie directly below its own root directory. -/
structure FLRSession where
  owner : Str
  snapshot_id : Str
  platform : Str
  vm_name : Str
  source_path : Str
  root : Path
  created_at : Timestamp
  expires_at : Timestamp
  disks : List Str

theorem proper_guest : Proper (str "guest") := by decide

/-- The directory below the session's root on which the guest is mounted. -/
def FLRSession.guest_mount (session : FLRSession) : Path :=
  session.root.child ⟨str "guest", proper_guest⟩

/-- What a session shows to its user. -/
structure PublicSession where
  session_id : Str
  snapshot_id : Str
  platform : Str
  vm_name : Str
  created_at : String
  expires_at : String
  disks : List Str
  read_only : Bool

def FLRSession.public (session : FLRSession) (session_id : Str) : PublicSession where
  session_id := session_id
  snapshot_id := session.snapshot_id
  platform := session.platform
  vm_name := session.vm_name
  created_at := isoformat session.created_at
  expires_at := isoformat session.expires_at
  disks := session.disks
  read_only := true

/-- The sessions a manager keeps. -/
structure FLRManager where
  settings : FLRSettings
  sessions : Keyed Str FLRSession

/-- Forget the sessions that have expired. -/
def FLRManager.cleanupExpired (manager : FLRManager) (now : Timestamp) : FLRManager :=
  { manager with sessions := manager.sessions.filter fun session => now < session.expires_at }

/-- The session of a caller, once the expired ones are gone. -/
def FLRManager.session (manager : FLRManager) (now : Timestamp) (session_id actor : Str)
    (admin : Bool) : Except Exn FLRSession :=
  match (manager.cleanupExpired now).sessions.lookup session_id with
  | none => .error ⟨.valueError, "FLR session not found or expired"⟩
  | some session =>
    if ¬ admin ∧ session.owner ≠ actor then
      .error ⟨.permissionError, "FLR session belongs to another portal user"⟩
    else .ok session

/-- A user's path, read as a pure path; an empty one means the root. -/
def userPath (user_path : Str) : Path :=
  PurePath.parse (if user_path = [] then str "/" else user_path)

/-- The components a user's path names inside the guest. -/
def relativeParts (user_path : Str) : Except Exn (List Str) :=
  if (0 : CodePoint) ∈ user_path then .error ⟨.valueError, "invalid path"⟩
  else
    let parts := (userPath user_path).parts.filter fun part => part ∉ [str "/", [], str "."]
    if str ".." ∈ parts then .error ⟨.valueError, "path traversal is not allowed"⟩
    else .ok parts

/-- The status of a path that must exist. -/
def existing (path : Path) : Program files Exn FileStatus :=
  tryCatch (lstat path) fun error =>
    if error.kind = .fileNotFoundError then raiseValueError "path not found" else throw error

/-- Walk from a directory along the parts. Each path on the way must exist and
must not be a symbolic link. -/
def safeGuestPath (current : Path) : List Str → Program files Exn Path
  | [] => pure current
  | part :: rest => do
    let next := current.joinpath part
    let info ← existing next
    if info.kind = .symlink then raisePermissionError "FLR does not follow guest symlinks"
    else safeGuestPath next rest

/-- One line of a listing. -/
structure GuestEntry where
  name : Str
  kind : FileKind
  size : Option Nat
  modified : String
  downloadable : Bool

/-- Describe the entries of a directory; an entry that cannot be inspected is skipped. -/
def describeEntries (max_download_bytes : Nat) (directory : Path) :
    List (Component CodePoint) → Program files Exn (List GuestEntry)
  | [] => pure []
  | name :: rest => do
    let item ← tryCatch (do return some (← lstat (directory.child name))) fun error =>
      if error.kind.isOSError then pure none else throw error
    let others ← describeEntries max_download_bytes directory rest
    match item with
    | none => return others
    | some item =>
      return {
        name := name.val
        kind := item.kind
        size := if item.kind = .regular then some item.st_size else none
        modified := item.modified
        downloadable := item.kind = .regular ∧ item.st_size ≤ max_download_bytes } :: others

/-- Directories stand first, each group ordered by folded name. -/
def listedBefore (casefold : Str → Str) (first second : GuestEntry) : Prop :=
  if first.kind = .directory ∧ second.kind ≠ .directory then True
  else if first.kind ≠ .directory ∧ second.kind = .directory then False
  else ¬ casefold second.name < casefold first.name

instance (casefold : Str → Str) : DecidableRel (listedBefore casefold) := fun _ _ => by
  unfold listedBefore
  infer_instance

/-- A listed directory. -/
structure Listing where
  session : PublicSession
  path : Str
  entries : List GuestEntry

/-- A file that may be downloaded. -/
structure FLRFile where
  path : Path
  name : Str
  size : Nat
  deriving DecidableEq

section Manager

variable (casefold : Str → Str) (manager : FLRManager) (now : Timestamp)
  (session_id user_path actor : Str) (admin : Bool)

def listDirectory : Program files Exn Listing := do
  let session ← raised (manager.session now session_id actor admin)
  let parts ← raised (relativeParts user_path)
  let directory ← safeGuestPath session.guest_mount parts
  let info ← lstat directory
  if info.kind ≠ .directory then raiseValueError "requested FLR path is not a directory"
  else
    let names ← scandir directory
    let entries ← describeEntries manager.settings.max_download_bytes directory names
    return {
      session := session.public session_id
      path := str "/" ++ (str "/").intercalate parts
      entries := entries.insertionSort (listedBefore casefold) }

def openFile : Program files Exn FLRFile := do
  let session ← raised (manager.session now session_id actor admin)
  let parts ← raised (relativeParts user_path)
  match parts.getLast? with
  | none => raiseValueError "a file path is required"
  | some name =>
    let path ← safeGuestPath session.guest_mount parts
    let info ← lstat path
    if info.kind ≠ .regular then raiseValueError "FLR download path is not a regular file"
    else if info.st_size > manager.settings.max_download_bytes then
      raiseValueError s!"file is {info.st_size} bytes, above configured FLR download limit {
        manager.settings.max_download_bytes}"
    else return { path := path, name := name, size := info.st_size }

/-- The bytes of a file that was opened. -/
def streamFile (file : FLRFile) : Program files Exn (List UInt8) := read file.path

/-- What the broker is asked to do with a session's files. -/
inductive Action where
  | list
  | stat
  | download
  deriving DecidableEq

/-- What the broker answers. -/
inductive Reply where
  | listing (listing : Listing)
  | file (name : Str) (size : Nat)
  | stream (name : Str) (size : Nat) (content : List UInt8)

/-- The three ways to a guest's files: list, stat and download. -/
def serve : Action → Program files Exn Reply
  | .list => do
    return .listing (← listDirectory casefold manager now session_id user_path actor admin)
  | .stat => do
    let file ← openFile manager now session_id user_path actor admin
    return .file file.name file.size
  | .download => do
    let file ← openFile manager now session_id user_path actor admin
    let content ← streamFile file
    return .stream file.name file.size content

end Manager

/-- A request to the broker; a field that is absent or null is none. -/
structure BrokerRequest where
  actor : Option Str
  session_id : Option Str
  user_path : Option Str

/-- The text of a field, or the default when the field is missing or empty. -/
def textOr (field : Option Str) (default : Str) : Str :=
  match field with
  | none => default
  | some text => if text = [] then default else text

/-- Characters that stripping removes. -/
def isSpace (character : CodePoint) : Bool :=
  let code := character.val
  9 ≤ code ∧ code ≤ 13 ∨ 28 ≤ code ∧ code ≤ 32 ∨ code = 133 ∨ code = 160 ∨ code = 5760 ∨
    8192 ≤ code ∧ code ≤ 8202 ∨ code = 8232 ∨ code = 8233 ∨ code = 8239 ∨ code = 8287 ∨ code = 12288

def strip (text : Str) : Str := ((text.dropWhile isSpace).reverse.dropWhile isSpace).reverse

def requiredActor (request : BrokerRequest) : Except Exn Str :=
  let actor := strip (textOr request.actor [])
  if actor = [] then .error ⟨.permissionError, "FLR broker request requires an authenticated actor"⟩
  else if 512 < actor.length then .error ⟨.valueError, "FLR actor identifier is too long"⟩
  else .ok actor

/-- Serve a request of a local peer. A missing path means the root when listing. -/
def handle (casefold : Str → Str) (manager : FLRManager) (now : Timestamp) (action : Action)
    (request : BrokerRequest) : Program files Exn Reply := do
  let actor ← raised (requiredActor request)
  serve casefold manager now (textOr request.session_id [])
    (textOr request.user_path (if action = .list then str "/" else [])) actor false action

/-- No path from a directory down the names is a symbolic link. -/
def Plain (tree : Tree) (base : Path) (names : List (Component CodePoint)) : Prop :=
  ∀ count, 0 < count → count ≤ names.length →
    ∃ info, tree.lstat (base.below (names.take count)) = .ok info ∧ info.kind ≠ .symlink

/-- A command on the way down the names, at their end, or about an entry there. -/
def Approach (base : Path) (names : List (Component CodePoint)) (command : FileCommand) : Prop :=
  (∃ count, command.path = base.below (names.take count)) ∨
    ∃ name, command = .lstat ((base.below names).child name)

/-- A call stays inside a guest. Every path it touches is the mount or lies below
it. When it is accepted, the path it resolved leads through no symbolic link, and
nothing was touched but the paths leading there and, to describe them, the entries
of the listed directory. -/
structure Contained (tree : Tree) (mount : Path)
    (outcome : Except Exn Reply × List FileCommand) : Prop where
  inside : ∀ command ∈ outcome.2, PurePath.Within mount command.path
  resolved : ∀ reply, outcome.1 = .ok reply → ∃ names, Plain tree mount names ∧
    ∀ command ∈ outcome.2, Approach mount names command

/-- A user's path with exactly two leading slashes, no null and no parent part. -/
def Escapes (user_path : Str) : Prop :=
  (0 : CodePoint) ∉ user_path ∧ (splitroot user_path).1 = .double ∧
    str ".." ∉ (PurePath.parse user_path).parts

instance (user_path : Str) : Decidable (Escapes user_path) :=
  inferInstanceAs (Decidable (_ ∧ _ ∧ _))

section Resolution

/-- The parts that survive the filter are components, unless the path has the
two-slash root, which the filter does not know. -/
theorem filter_parts (path : Path) :
    path.parts.filter (fun part => part ∉ [str "/", [], str "."]) =
      (if path.root = .double then [str "//"] else []) ++ path.tail.map Subtype.val := by
  have kept : (path.tail.map Subtype.val).filter
      (fun part => part ∉ [str "/", [], str "."]) = path.tail.map Subtype.val := by
    apply List.filter_eq_self.mpr
    intro part member
    obtain ⟨name, _, rfl⟩ := List.mem_map.mp member
    obtain ⟨plain, filled, single⟩ := name.property
    have slashed : name.val ≠ str "/" := by
      intro same
      rw [same] at plain
      exact plain (by decide)
    have dotted : name.val ≠ str "." := single
    simp [slashed, filled, dotted]
  cases root : path.root with
  | relative => simp only [PurePath.parts, root, kept]; rfl
  | single =>
    have bare : (Root.text .single : Str) = str "/" := by decide
    simp only [PurePath.parts, root, bare, List.filter_cons, kept]
    simp
  | double =>
    have bare : (Root.text .double : Str) = str "//" := by decide
    have foreign : str "//" ∉ [str "/", [], str "."] := by decide
    simp only [PurePath.parts, root, bare, List.filter_cons, kept]
    simp [foreign]

/-- Only a path with exactly two leading slashes has the two-slash root. -/
theorem root_userPath (user_path : Str) :
    (userPath user_path).root = .double ↔ (splitroot user_path).1 = .double := by
  by_cases empty : user_path = []
  · subst empty
    decide
  · simp only [userPath, if_neg empty, PurePath.parse]

/-- A path escapes when it is accepted with the two-slash root as its first part. -/
theorem relativeParts_escaping {user_path : Str} (escapes : Escapes user_path) :
    relativeParts user_path = .ok (str "//" :: (userPath user_path).tail.map Subtype.val) := by
  obtain ⟨clean, double, descending⟩ := escapes
  have filled : user_path ≠ [] := by
    rintro rfl
    exact absurd double (by decide)
  have root : (userPath user_path).root = .double := (root_userPath user_path).mpr double
  have same : userPath user_path = PurePath.parse user_path := by
    simp only [userPath, if_neg filled]
  have upward : str ".." ∉ (userPath user_path).parts.filter
      (fun part => part ∉ [str "/", [], str "."]) := by
    rw [same]
    exact fun member => descending (List.mem_filter.mp member).1
  simp only [relativeParts, if_neg clean, if_neg upward]
  rw [filter_parts, if_pos root]
  rfl

/-- Any other path that is accepted yields components only. -/
theorem relativeParts_contained {user_path : Str} (contained : ¬ Escapes user_path)
    {parts : List Str} (accepted : relativeParts user_path = .ok parts) :
    parts = (userPath user_path).tail.map Subtype.val := by
  by_cases clean : (0 : CodePoint) ∈ user_path
  · simp [relativeParts, clean] at accepted
  · by_cases upward : str ".." ∈ (userPath user_path).parts.filter
        (fun part => part ∉ [str "/", [], str "."])
    · simp only [relativeParts, if_neg clean, if_pos upward] at accepted
      cases accepted
    · simp only [relativeParts, if_neg clean, if_neg upward, Except.ok.injEq] at accepted
      have rooted : (userPath user_path).root ≠ .double := by
        intro double
        apply contained
        refine ⟨clean, (root_userPath user_path).mp double, ?_⟩
        intro member
        apply upward
        have filled : user_path ≠ [] := by
          rintro rfl
          exact absurd double (by decide)
        have same : userPath user_path = PurePath.parse user_path := by
          simp only [userPath, if_neg filled]
        rw [same]
        exact List.mem_filter.mpr ⟨member, by decide⟩
      rw [← accepted, filter_parts, if_neg rooted, List.nil_append]

end Resolution

section Walking

variable (tree : Tree)

@[simp] theorem run_lstat (path : Path) (touched : List FileCommand) :
    run tree.handler (lstat path) touched = (tree.lstat path, touched ++ [.lstat path]) :=
  run_perform tree.handler (FileCommand.lstat path) touched

@[simp] theorem run_scandir (path : Path) (touched : List FileCommand) :
    run tree.handler (scandir path) touched = (tree.scandir path, touched ++ [.scandir path]) :=
  run_perform tree.handler (FileCommand.scandir path) touched

@[simp] theorem run_read (path : Path) (touched : List FileCommand) :
    run tree.handler (read path) touched = (tree.read path, touched ++ [.read path]) :=
  run_perform tree.handler (FileCommand.read path) touched

@[simp] theorem run_raised {α : Type} (value : Except Exn α) (touched : List FileCommand) :
    run tree.handler (raised value) touched = (value, touched) := by
  cases value <;> rfl

/-- A call never forgets what it touched. -/
theorem run_extends {α : Type} (program : Program files Exn α) (touched : List FileCommand) :
    touched <+: (run tree.handler program touched).2 := by
  induction program generalizing touched with
  | ret value => exact List.prefix_rfl
  | raise error => exact List.prefix_rfl
  | call command resume inductionHypothesis =>
    exact (List.prefix_append touched [command]).trans (inductionHypothesis _ _)

/-- Asking for an existing path touches that path once and nothing else. -/
theorem run_existing (path : Path) (touched : List FileCommand) :
    ∃ outcome, run tree.handler (existing path) touched = (outcome, touched ++ [.lstat path]) ∧
      ∀ info, outcome = .ok info → tree.lstat path = .ok info := by
  simp only [existing, run_tryCatch, run_lstat]
  cases tree.lstat path with
  | ok info => exact ⟨.ok info, rfl, fun _ same => same⟩
  | error error =>
    by_cases absent : error.kind = .fileNotFoundError
    · exact ⟨.error ⟨.valueError, "path not found"⟩, by simp [absent, raiseValueError], by simp⟩
    · exact ⟨.error error, by simp [absent], by simp⟩

/-- Walking down components touches only the paths on the way, and arrives at
the last of them when none is a symbolic link. -/
theorem run_safeGuestPath (names : List (Component CodePoint)) (current : Path)
    (touched : List FileCommand) :
    (∃ walked, (run tree.handler (safeGuestPath current (names.map Subtype.val)) touched).2 =
        touched ++ walked ∧
      ∀ command ∈ walked, ∃ count, command = .lstat (current.below (names.take count))) ∧
    ∀ target, (run tree.handler (safeGuestPath current (names.map Subtype.val)) touched).1 =
        .ok target → target = current.below names ∧ Plain tree current names := by
  induction names generalizing current touched with
  | nil =>
    refine ⟨⟨[], by simp [safeGuestPath], by simp⟩, ?_⟩
    intro target arrived
    simp only [List.map_nil, safeGuestPath, run_pure, Except.ok.injEq] at arrived
    refine ⟨by rw [← arrived, PurePath.below_nil], ?_⟩
    intro count positive bounded
    exact absurd (Nat.lt_of_lt_of_le positive bounded) (Nat.lt_irrefl 0)
  | cons name rest inductionHypothesis =>
    have deeper : ∀ count, (current.child name).below (rest.take count) =
        current.below ((name :: rest).take (count + 1)) := by
      intro count
      simp [PurePath.below, PurePath.child]
    obtain ⟨outcome, asked, found⟩ := run_existing tree (current.child name) touched
    simp only [List.map_cons, safeGuestPath, PurePath.joinpath_proper, run_bind, asked]
    cases outcome with
    | error error =>
      refine ⟨⟨[.lstat (current.child name)], rfl, ?_⟩, by simp⟩
      intro command member
      exact ⟨1, List.mem_singleton.mp member⟩
    | ok info =>
      by_cases linked : info.kind = .symlink
      · simp only [if_pos linked]
        refine ⟨⟨[.lstat (current.child name)], rfl, ?_⟩, by simp [raisePermissionError]⟩
        intro command member
        exact ⟨1, List.mem_singleton.mp member⟩
      · simp only [if_neg linked]
        obtain ⟨⟨walked, final, onTheWay⟩, arrives⟩ :=
          inductionHypothesis (current.child name) (touched ++ [.lstat (current.child name)])
        refine ⟨⟨.lstat (current.child name) :: walked,
          by rw [final, List.append_assoc]; rfl, ?_⟩, ?_⟩
        · intro command member
          rcases List.mem_cons.mp member with now | later
          · exact ⟨1, now⟩
          · obtain ⟨count, same⟩ := onTheWay command later
            exact ⟨count + 1, by rw [same, deeper]⟩
        · intro target arrived
          obtain ⟨same, plain⟩ := arrives target arrived
          refine ⟨by rw [same]; simp [PurePath.below, PurePath.child], ?_⟩
          intro count positive bounded
          cases count with
          | zero => exact absurd positive (Nat.lt_irrefl 0)
          | succ count =>
            rw [← deeper]
            by_cases started : count = 0
            · subst started
              exact ⟨info, by simpa [PurePath.below_nil] using found info rfl, linked⟩
            · exact plain count (Nat.pos_of_ne_zero started) (by simpa using bounded)

/-- Describing the entries of a directory touches those entries only. -/
theorem run_describeEntries (limit : Nat) (directory : Path) (names : List (Component CodePoint))
    (touched : List FileCommand) :
    ∃ looked, (run tree.handler (describeEntries limit directory names) touched).2 =
        touched ++ looked ∧
      ∀ command ∈ looked, ∃ name, command = .lstat (directory.child name) := by
  induction names generalizing touched with
  | nil => exact ⟨[], by simp [describeEntries], by simp⟩
  | cons name rest inductionHypothesis =>
    have inspected : ∃ outcome, run tree.handler
        (tryCatch (do return some (← lstat (directory.child name))) fun error =>
          if error.kind.isOSError then pure none else throw error) touched =
        (outcome, touched ++ [.lstat (directory.child name)]) := by
      simp only [run_tryCatch, run_bind, run_lstat, run_pure]
      cases tree.lstat (directory.child name) with
      | ok info => exact ⟨_, rfl⟩
      | error error =>
        by_cases skipped : error.kind.isOSError
        · exact ⟨.ok none, by simp [skipped]⟩
        · exact ⟨.error error, by simp [skipped]⟩
    obtain ⟨outcome, asked⟩ := inspected
    simp only [describeEntries, run_bind, asked]
    cases outcome with
    | error error =>
      refine ⟨[.lstat (directory.child name)], rfl, ?_⟩
      intro command member
      exact ⟨name, List.mem_singleton.mp member⟩
    | ok item =>
      obtain ⟨looked, final, entries⟩ :=
        inductionHypothesis (touched ++ [.lstat (directory.child name)])
      refine ⟨.lstat (directory.child name) :: looked, ?_, ?_⟩
      · rw [List.append_assoc] at final
        dsimp only
        cases described : run tree.handler (describeEntries limit directory rest)
            (touched ++ [.lstat (directory.child name)]) with
        | mk others after =>
          rw [described] at final
          cases others with
          | error error => exact final
          | ok others => cases item <;> exact final
      · intro command member
        rcases List.mem_cons.mp member with now | later
        · exact ⟨name, now⟩
        · exact entries command later

/-- What the first part of a program touched stays touched. -/
theorem run_bind_extends {α β : Type} (program : Program files Exn α)
    (next : α → Program files Exn β) (touched : List FileCommand) :
    (run tree.handler program touched).2 <+: (run tree.handler (program >>= next) touched).2 := by
  rw [run_bind]
  cases first : run tree.handler program touched with
  | mk outcome after =>
    cases outcome with
    | ok value => exact run_extends tree (next value) after
    | error error => exact List.prefix_rfl

/-- Walking from the two-slash part asks about the root of the host. -/
theorem root_touched (mount : Path) (rest : List Str) (touched : List FileCommand) :
    FileCommand.lstat ⟨.double, []⟩ ∈
      (run tree.handler (safeGuestPath mount (str "//" :: rest)) touched).2 := by
  have discarded : mount.joinpath (str "//") = ⟨.double, []⟩ := by
    rw [PurePath.joinpath_absolute mount (by decide)]
    decide
  obtain ⟨outcome, asked, _⟩ := run_existing tree ⟨.double, []⟩ touched
  have extended := run_bind_extends tree (existing ⟨.double, []⟩)
    (fun info => if info.kind = .symlink then
        raisePermissionError "FLR does not follow guest symlinks"
      else safeGuestPath ⟨.double, []⟩ rest) touched
  rw [asked] at extended
  simp only [safeGuestPath, discarded]
  exact extended.subset (List.mem_append_right _ (List.mem_singleton.mpr rfl))

end Walking

section Containment

/-- Commands on the way stay inside. -/
theorem Approach.within {base : Path} {names : List (Component CodePoint)} {command : FileCommand}
    (approach : Approach base names command) : PurePath.Within base command.path := by
  rcases approach with ⟨count, same⟩ | ⟨name, rfl⟩
  · exact same ▸ PurePath.within_below base _
  · exact (PurePath.within_below base names).child name

/-- A command at the end of the names is on the way. -/
theorem approach_target {base : Path} {names : List (Component CodePoint)} {command : FileCommand}
    (here : command.path = base.below names) : Approach base names command :=
  Or.inl ⟨names.length, by rw [here, List.take_length]⟩

/-- One more command at the end of the names keeps everything on the way. -/
theorem approach_concat {base : Path} {names : List (Component CodePoint)}
    {touched : List FileCommand} (before : ∀ command ∈ touched, Approach base names command)
    (last : FileCommand) (here : last.path = base.below names) :
    ∀ command ∈ touched ++ [last], Approach base names command := by
  intro command member
  rcases List.mem_append.mp member with earlier | now
  · exact before command earlier
  · exact approach_target (List.mem_singleton.mp now ▸ here)

variable (casefold : Str → Str) (tree : Tree) (manager : FLRManager) (now : Timestamp)
  (session_id user_path actor : Str) (admin : Bool) {session : FLRSession}

/-- The walk of a path that does not escape: what it touches is on the way, and
where it arrives no symbolic link led. -/
theorem walk_contained (mount : Path) (contained : ¬ Escapes user_path) {parts : List Str}
    (parsed : relativeParts user_path = .ok parts) :
    (∀ command ∈ (run tree.handler (safeGuestPath mount parts) []).2,
      Approach mount (userPath user_path).tail command) ∧
    ∀ target, (run tree.handler (safeGuestPath mount parts) []).1 = .ok target →
      target = mount.below (userPath user_path).tail ∧
        Plain tree mount (userPath user_path).tail := by
  obtain ⟨⟨walked, final, onTheWay⟩, arrives⟩ :=
    run_safeGuestPath tree (userPath user_path).tail mount []
  rw [← relativeParts_contained contained parsed, List.nil_append] at final
  rw [← relativeParts_contained contained parsed] at arrives
  refine ⟨?_, arrives⟩
  intro command member
  rw [final] at member
  obtain ⟨count, same⟩ := onTheWay command member
  exact Or.inl ⟨count, by rw [same]; rfl⟩

/-- Opening a file by a path that does not escape touches only paths on the way
to the opened one. -/
theorem openFile_contained (found : manager.session now session_id actor admin = .ok session)
    (contained : ¬ Escapes user_path) :
    (∀ command ∈ (run tree.handler
        (openFile manager now session_id user_path actor admin) []).2,
      Approach session.guest_mount (userPath user_path).tail command) ∧
    ∀ file, (run tree.handler (openFile manager now session_id user_path actor admin) []).1 =
      .ok file → file.path = session.guest_mount.below (userPath user_path).tail ∧
        Plain tree session.guest_mount (userPath user_path).tail := by
  simp only [openFile, run_bind, run_raised, found]
  cases parsed : relativeParts user_path with
  | error error => simp
  | ok parts =>
    cases last : parts.getLast? with
    | none => simp [last, raiseValueError]
    | some name =>
      obtain ⟨onTheWay, arrives⟩ :=
        walk_contained tree user_path session.guest_mount contained parsed
      simp only [last, run_bind]
      cases walk : run tree.handler (safeGuestPath session.guest_mount parts) [] with
      | mk outcome after =>
        rw [walk] at onTheWay arrives
        cases outcome with
        | error error => exact ⟨onTheWay, by simp⟩
        | ok target =>
          obtain ⟨same, plain⟩ := arrives target rfl
          have visited := approach_concat onTheWay (FileCommand.lstat target) same
          simp only [run_lstat]
          cases tree.lstat target with
          | error error => exact ⟨visited, by simp⟩
          | ok info =>
            dsimp only
            split
            · exact ⟨visited, by simp [raiseValueError]⟩
            · split
              · exact ⟨visited, by simp [raiseValueError]⟩
              · refine ⟨visited, ?_⟩
                intro file opened
                simp only [run_pure, Except.ok.injEq] at opened
                exact ⟨by rw [← opened, same], plain⟩

/-- Listing by a path that does not escape touches only paths on the way to the
listed directory, and then its entries. -/
theorem listDirectory_contained (found : manager.session now session_id actor admin = .ok session)
    (contained : ¬ Escapes user_path) :
    (∀ command ∈ (run tree.handler
        (listDirectory casefold manager now session_id user_path actor admin) []).2,
      Approach session.guest_mount (userPath user_path).tail command) ∧
    ∀ listing, (run tree.handler
        (listDirectory casefold manager now session_id user_path actor admin) []).1 =
      .ok listing → Plain tree session.guest_mount (userPath user_path).tail := by
  simp only [listDirectory, run_bind, run_raised, found]
  cases parsed : relativeParts user_path with
  | error error => simp
  | ok parts =>
    obtain ⟨onTheWay, arrives⟩ :=
      walk_contained tree user_path session.guest_mount contained parsed
    dsimp only
    cases walk : run tree.handler (safeGuestPath session.guest_mount parts) [] with
    | mk outcome after =>
      rw [walk] at onTheWay arrives
      cases outcome with
      | error error => exact ⟨onTheWay, by simp⟩
      | ok target =>
        obtain ⟨same, plain⟩ := arrives target rfl
        have visited := approach_concat onTheWay (FileCommand.lstat target) same
        simp only [run_lstat]
        cases tree.lstat target with
        | error error => exact ⟨visited, by simp⟩
        | ok info =>
          dsimp only
          split
          · exact ⟨visited, by simp [raiseValueError]⟩
          · have scanned := approach_concat visited (FileCommand.scandir target) same
            simp only [run_bind, run_scandir]
            cases tree.scandir target with
            | error error => exact ⟨scanned, by simp⟩
            | ok names =>
              obtain ⟨looked, final, entries⟩ := run_describeEntries tree
                manager.settings.max_download_bytes target names
                (after ++ [FileCommand.lstat target] ++ [FileCommand.scandir target])
              have described : ∀ command ∈ (run tree.handler
                  (describeEntries manager.settings.max_download_bytes target names)
                  (after ++ [FileCommand.lstat target] ++ [FileCommand.scandir target])).2,
                  Approach session.guest_mount (userPath user_path).tail command := by
                intro command member
                rw [final] at member
                rcases List.mem_append.mp member with earlier | entry
                · exact scanned command earlier
                · obtain ⟨name, rfl⟩ := entries command entry
                  exact Or.inr ⟨name, by rw [← same]⟩
              dsimp only
              cases lines : run tree.handler
                  (describeEntries manager.settings.max_download_bytes target names)
                  (after ++ [FileCommand.lstat target] ++ [FileCommand.scandir target]) with
              | mk outcome touched =>
                rw [lines] at described
                cases outcome with
                | error error => exact ⟨described, by simp⟩
                | ok entries => exact ⟨described, fun _ _ => plain⟩

/-- The three ways through one walk: a path that does not escape is contained. -/
theorem serve_contained (found : manager.session now session_id actor admin = .ok session)
    (action : Action) (contained : ¬ Escapes user_path) :
    Contained tree session.guest_mount (run tree.handler
      (serve casefold manager now session_id user_path actor admin action) []) := by
  have listing := listDirectory_contained casefold tree manager now session_id user_path actor
    admin found contained
  have opening := openFile_contained tree manager now session_id user_path actor admin found
    contained
  cases action with
  | list =>
    simp only [serve, run_bind]
    cases listed : run tree.handler
        (listDirectory casefold manager now session_id user_path actor admin) [] with
    | mk outcome after =>
      rw [listed] at listing
      cases outcome with
      | error error => exact ⟨fun command member => (listing.1 command member).within, by simp⟩
      | ok answer =>
        exact ⟨fun command member => (listing.1 command member).within,
          fun _ _ => ⟨_, listing.2 answer rfl, listing.1⟩⟩
  | stat =>
    simp only [serve, run_bind]
    cases opened : run tree.handler (openFile manager now session_id user_path actor admin) [] with
    | mk outcome after =>
      rw [opened] at opening
      cases outcome with
      | error error => exact ⟨fun command member => (opening.1 command member).within, by simp⟩
      | ok file =>
        exact ⟨fun command member => (opening.1 command member).within,
          fun _ _ => ⟨_, (opening.2 file rfl).2, opening.1⟩⟩
  | download =>
    simp only [serve, run_bind, streamFile]
    cases opened : run tree.handler (openFile manager now session_id user_path actor admin) [] with
    | mk outcome after =>
      rw [opened] at opening
      cases outcome with
      | error error => exact ⟨fun command member => (opening.1 command member).within, by simp⟩
      | ok file =>
        obtain ⟨same, plain⟩ := opening.2 file rfl
        have visited := approach_concat opening.1 (FileCommand.read file.path) same
        simp only [run_read]
        cases tree.read file.path with
        | error error => exact ⟨fun command member => (visited command member).within, by simp⟩
        | ok content =>
          exact ⟨fun command member => (visited command member).within,
            fun _ _ => ⟨_, plain, visited⟩⟩

/-- Every way to a guest's files asks about the root of the host when the path escapes. -/
theorem serve_escapes (found : manager.session now session_id actor admin = .ok session)
    (action : Action) (escapes : Escapes user_path) :
    FileCommand.lstat ⟨.double, []⟩ ∈ (run tree.handler
      (serve casefold manager now session_id user_path actor admin action) []).2 := by
  have parsed := relativeParts_escaping escapes
  have walked := root_touched tree session.guest_mount
    ((userPath user_path).tail.map Subtype.val) []
  have listed : FileCommand.lstat ⟨.double, []⟩ ∈ (run tree.handler
      (listDirectory casefold manager now session_id user_path actor admin) []).2 := by
    rw [listDirectory, run_bind, run_raised, found]
    dsimp only
    rw [run_bind, run_raised, parsed]
    exact (run_bind_extends tree _ _ _).subset walked
  have opened : FileCommand.lstat ⟨.double, []⟩ ∈ (run tree.handler
      (openFile manager now session_id user_path actor admin) []).2 := by
    obtain ⟨name, last⟩ : ∃ name, (str "//" ::
        (userPath user_path).tail.map Subtype.val).getLast? = some name :=
      ⟨_, List.getLast?_eq_some_getLast (by simp)⟩
    rw [openFile, run_bind, run_raised, found]
    dsimp only
    rw [run_bind, run_raised, parsed]
    simp only [last]
    exact (run_bind_extends tree _ _ _).subset walked
  cases action with
  | list => exact (run_bind_extends tree _ _ _).subset listed
  | stat => exact (run_bind_extends tree _ _ _).subset opened
  | download => exact (run_bind_extends tree _ _ _).subset opened

example : Escapes (str "//etc/shadow") ∧ ¬ Escapes (str "///etc/shadow") := by decide

end Containment

section Broker

variable (casefold : Str → Str) (manager : FLRManager) (now : Timestamp) (action : Action)
  (request : BrokerRequest)

/-- A request with an acceptable actor is served as that actor, without privilege. -/
theorem handle_served {actor : Str} (admitted : requiredActor request = .ok actor) :
    handle casefold manager now action request =
      serve casefold manager now (textOr request.session_id [])
        (textOr request.user_path (if action = .list then str "/" else [])) actor false action := by
  rw [handle, admitted]
  rfl

/-- A request without an acceptable actor touches nothing. -/
theorem handle_refused (tree : Tree) {error : Exn} (refused : requiredActor request = .error error) :
    run tree.handler (handle casefold manager now action request) [] = (.error error, []) := by
  rw [handle, refused]
  rfl

end Broker

/-- A host with one secret file outside every guest. -/
def sampleTree : Tree where
  lstat := fun path => .ok ⟨if path.tail.length < 2 then .directory else .regular, 9, "today"⟩
  scandir := fun _ => .ok []
  read := fun _ => .ok [114, 111, 111, 116]

def sampleSession : FLRSession where
  owner := str "alice"
  snapshot_id := str "9f"
  platform := str "lab"
  vm_name := str "web"
  source_path := str "/staging/web"
  root := PurePath.parse (str "/srv/immutavault/flr/s1")
  created_at := 0
  expires_at := 30 * minute
  disks := []

/-- A manager with one session of one owner. -/
def sampleManager : FLRManager := ⟨{}, Keyed.empty.replace (str "s1") sampleSession⟩

end Immutavault.GuestFiles
