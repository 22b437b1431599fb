import Mathlib.Algebra.Group.Nat.Defs
import Immutavault.FileDownloads
import Immutavault.HttpFields
import Immutavault.SeparatedTexts

/-!
# Downloading what a listing offers

A listing of a guest's directory marks entries as downloadable. The page of the portal
asks for such an entry by the listed path, a slash and the entry's name. The name passes
through the path's normalisation, through JSON, which holds every character, through the
query of a URL, which holds no lone surrogate, and through a header of the response,
whose lines hold Latin-1 without control characters.

The first half is about paths: the path that is asked for resolves to the entry that was
listed. The second half is about the response.
-/

namespace Immutavault.DownloadNames

open Programs Values PosixPaths GuestFiles SessionOwnership BrokerMessages PortalResponses
open SeparatedTexts
  FileDownloads HttpFields

section Paths

/-- The path of an entry of a listed directory, as the portal's page asks for it. -/
def entryPath (path name : Str) : Str :=
  if path = str "/" then path ++ name else path ++ str "/" ++ name

/-- A path from the guest's root. -/
def rooted (names : List (Component CodePoint)) : Path := ⟨.single, names⟩

theorem listed_path (names : List (Component CodePoint)) :
    str "/" ++ (str "/").intercalate (names.map Subtype.val) = (rooted names).format := rfl

theorem format_root_iff (names : List (Component CodePoint)) :
    (rooted names).format = str "/" ↔ names = [] := by
  constructor
  · intro same
    have parsed : PurePath.parse (rooted names).format = rooted names :=
      PurePath.parse_format (rooted names)
    have root : (PurePath.parse (str "/") : Path) = rooted [] := by decide
    rw [same, root] at parsed
    exact (congrArg PurePath.tail parsed).symm
  · rintro rfl
    decide

/-- The path of an entry has one more part than the directory's. -/
theorem entryPath_parts {parts : List Str} (rooted : str "/" ++ (str "/").intercalate parts = str "/" ↔
      parts = []) (name : Str) :
    entryPath (str "/" ++ (str "/").intercalate parts) name =
      str "/" ++ (str "/").intercalate (parts ++ [name]) := by
  unfold entryPath
  by_cases bare : parts = []
  · subst bare
    simp
  · rw [if_neg (mt rooted.mp bare), intercalate_concat _ bare]
    simp only [List.append_assoc]

/-- The path of an entry is the directory's with one more name. -/
theorem entryPath_format (names : List (Component CodePoint)) (name : Component CodePoint) :
    entryPath (rooted names).format name.val = (rooted (names ++ [name])).format := by
  have bare : str "/" ++ (str "/").intercalate (names.map Subtype.val) = str "/" ↔
      names.map Subtype.val = [] := by
    rw [listed_path, format_root_iff, List.map_eq_nil_iff]
  rw [← listed_path, entryPath_parts bare, ← listed_path, List.map_append]
  rfl

/-- The path of an entry of a directory of the host, as it is listed, is read from the
guest's root. -/
theorem entryPath_host (names : List (Component CodePoint)) (name : Component CodePoint) :
    userPath (entryPath (str "/" ++ (str "/").intercalate (str "//" :: names.map Subtype.val))
      name.val) = rooted (names ++ [name]) := by
  have bare : str "/" ++ (str "/").intercalate (str "//" :: names.map Subtype.val) = str "/" ↔
      str "//" :: names.map Subtype.val = [] := by
    have longer : ∀ rest, str "/" ++ (str "//" ++ rest) ≠ str "/" := by simp [str]
    cases names with
    | nil =>
      exact ⟨fun same => absurd same (longer []),
        fun impossible => absurd impossible (List.cons_ne_nil _ _)⟩
    | cons first others =>
      rw [List.map_cons, List.intercalate_cons_cons, List.append_assoc]
      exact ⟨fun same => absurd same (longer _),
        fun impossible => absurd impossible (List.cons_ne_nil _ _)⟩
  have further : str "/" ++ (str "/").intercalate (str "//" :: (names ++ [name]).map Subtype.val) =
      [47, 47, 47, 47] ++ (str "/").intercalate ((names ++ [name]).map Subtype.val) := by
    obtain ⟨first, others, same⟩ : ∃ first others, names ++ [name] = first :: others :=
      List.exists_cons_of_ne_nil (by simp)
    rw [same, List.map_cons, List.intercalate_cons_cons]
    rfl
  have named : names.map Subtype.val ++ [name.val] = (names ++ [name]).map Subtype.val := by simp
  rw [entryPath_parts bare, List.cons_append, named, further]
  have slashes : ∀ text : Str, (components ([47, 47, 47] ++ text) : List (Component CodePoint)) =
      components text := by
    intro text
    have once : ∀ text : Str, components (Alphabet.slash :: text) = components text := fun text => by
      simpa using components_append ([] : Str) text
    exact (once _).trans ((once _).trans (once text))
  have read : ∀ text : Str, userPath ([47, 47, 47, 47] ++ text) = ⟨.single, components text⟩ := by
    intro text
    rw [← slashes text]
    rfl
  rw [read]
  exact congrArg (PurePath.mk .single) (components_intercalate (names ++ [name]))

/-- A path from the root is accepted as it is when its names are clean. -/
theorem relativeParts_rooted {names : List (Component CodePoint)}
    (clean : ∀ name ∈ names, name.val ≠ str ".." ∧ (0 : CodePoint) ∉ name.val) :
    relativeParts (rooted names).format = .ok (names.map Subtype.val) := by
  have unbroken : (0 : CodePoint) ∉ (rooted names).format := by
    intro member
    have slash : (0 : CodePoint) ∉ str "/" := by decide
    rw [← listed_path, List.mem_append] at member
    rcases member with first | later
    · exact slash first
    · rcases mem_of_mem_intercalate later with between | ⟨text, listed, inside⟩
      · exact slash between
      · obtain ⟨name, member, rfl⟩ := List.mem_map.mp listed
        exact (clean name member).2 inside
  have filled : (rooted names).format ≠ [] := by
    rw [← listed_path]
    simp [str]
  have parsed : userPath (rooted names).format = rooted names := by
    rw [userPath, if_neg filled]
    exact PurePath.parse_format (rooted names)
  have single : (rooted names).root ≠ .double := by simp [rooted]
  have descending : str ".." ∉ names.map Subtype.val := by
    intro member
    obtain ⟨name, listed, same⟩ := List.mem_map.mp member
    exact (clean name listed).1 same
  unfold relativeParts
  rw [if_neg unbroken, parsed, filter_parts, if_neg single, List.nil_append]
  exact if_neg descending

/-- The characters of a path's components are the text's. -/
theorem mem_of_component {text : Str} {name : Component CodePoint}
    (member : name ∈ (PurePath.parse text).tail) {point : CodePoint} (inside : point ∈ name.val) :
    point ∈ text := by
  have below : point ∈ (splitroot text).2 := by
    obtain ⟨piece, listed, kept⟩ := List.mem_filterMap.mp member
    have same : name.val = piece := by
      split at kept
      · rw [← Option.some.inj kept]
      · cases kept
    have whole : point ∈ [Alphabet.slash].intercalate _ := mem_intercalate listed (same ▸ inside)
    rwa [List.intercalate_splitOn] at whole
  unfold splitroot at below
  split at below
  · cases below
  · split at below
    · exact below
    · split at below
      · cases below
      · split at below
        · exact List.mem_cons_of_mem _ (List.mem_cons_of_mem _ below)
        · exact List.mem_cons_of_mem _ below

/-- No part of an accepted path leads upwards or holds a null. -/
theorem clean_of_accepted {user_path : Str} {parts : List Str}
    (accepted : relativeParts user_path = .ok parts) :
    ∀ name ∈ (userPath user_path).tail, name.val ≠ str ".." ∧ (0 : CodePoint) ∉ name.val := by
  have kept : ∀ name ∈ (userPath user_path).tail, name.val ∈ parts := by
    intro name member
    have listed : name.val ∈ (userPath user_path).tail.map Subtype.val :=
      List.mem_map.mpr ⟨name, member, rfl⟩
    by_cases escapes : Escapes user_path
    · obtain rfl := Except.ok.inj ((relativeParts_escaping escapes).symm.trans accepted)
      exact List.mem_cons_of_mem _ listed
    · exact relativeParts_contained escapes accepted ▸ listed
  refine fun name member => ⟨fun up => ?_, fun broken => ?_⟩
  · have descending : str ".." ∉ parts := by
      unfold relativeParts at accepted
      split at accepted
      · cases accepted
      · dsimp only at accepted
        split at accepted
        · cases accepted
        · rename_i descending
          exact (Except.ok.inj accepted) ▸ descending
    exact descending (up ▸ kept name member)
  · have unbroken : (0 : CodePoint) ∉ user_path := by
      intro member
      rw [relativeParts, if_pos member] at accepted
      cases accepted
    have inside := mem_of_component member broken
    split at inside
    · exact absurd inside (by decide)
    · exact unbroken inside

end Paths

section Browsing

variable {tree : Tree} {settings : Settings} {session : FLRSession}

/-- A plain path is walked down to its end. -/
theorem safeGuestPath_reaches {names : List (Component CodePoint)} {current : Path}
    (plain : GuestFiles.Plain tree current names) (touched : List FileCommand) :
    (run tree.handler (safeGuestPath current (names.map Subtype.val)) touched).1 =
      .ok (current.below names) := by
  induction names generalizing current touched with
  | nil => simp [safeGuestPath, PurePath.below_nil]
  | cons name rest inductionHypothesis =>
    obtain ⟨info, found, unlinked⟩ := plain 1 (by decide) (by simp)
    have child : current.below ((name :: rest).take 1) = current.child name := by
      simp [PurePath.below, PurePath.child]
    have deeper : GuestFiles.Plain tree (current.child name) rest := by
      intro count positive bounded
      have further := plain (count + 1) (by omega) (by simpa using bounded)
      have same : current.below ((name :: rest).take (count + 1)) =
          (current.child name).below (rest.take count) := by
        simp [PurePath.below, PurePath.child]
      rwa [same] at further
    rw [child] at found
    simp only [List.map_cons, safeGuestPath, existing, PurePath.joinpath_proper, run_bind,
      run_tryCatch, run_lstat, found, if_neg unlinked]
    rw [inductionHypothesis deeper]
    simp [PurePath.below, PurePath.child]

/-- A described entry has a scanned name and the status of its path. -/
theorem described {limit : Nat} {directory : Path} {names : List (Component CodePoint)}
    {touched : List FileCommand} {entries : List GuestEntry}
    (ran : (run tree.handler (describeEntries limit directory names) touched).1 = .ok entries)
    {entry : GuestEntry} (member : entry ∈ entries) :
    ∃ name ∈ names, ∃ info, tree.lstat (directory.child name) = .ok info ∧
      entry.name = name.val ∧ (entry.downloadable = true →
        info.kind = .regular ∧ info.st_size ≤ limit ∧ entry.size = some info.st_size) := by
  induction names generalizing touched entries with
  | nil =>
    obtain rfl : [] = entries := by simpa [describeEntries] using ran
    cases member
  | cons name rest inductionHypothesis =>
    -- an entry of the rest is found there, whatever happens to this name
    have later : ∀ {others : List GuestEntry} {before : List FileCommand},
        (run tree.handler (describeEntries limit directory rest) before).1 = .ok others →
          entry ∈ others → ∃ other ∈ name :: rest, ∃ info,
            tree.lstat (directory.child other) = .ok info ∧ entry.name = other.val ∧
              (entry.downloadable = true →
                info.kind = .regular ∧ info.st_size ≤ limit ∧ entry.size = some info.st_size) := by
      intro others before gone inside
      obtain ⟨other, listed, found⟩ := inductionHypothesis gone inside
      exact ⟨other, List.mem_cons_of_mem _ listed, found⟩
    simp only [describeEntries, run_bind, run_tryCatch, run_lstat, run_pure] at ran
    cases status : tree.lstat (directory.child name) with
    | error error =>
      simp only [status] at ran
      by_cases skipped : error.kind.isOSError = true
      · simp only [skipped, if_true, run_pure] at ran
        cases gone : run tree.handler (describeEntries limit directory rest)
            (touched ++ [.lstat (directory.child name)]) with
        | mk outcome after =>
          rw [gone] at ran
          cases outcome with
          | error failed => cases ran
          | ok others =>
            obtain rfl : others = entries := by simpa using ran
            exact later (by rw [gone]) member
      · simp [skipped] at ran
    | ok info =>
      simp only [status] at ran
      cases gone : run tree.handler (describeEntries limit directory rest)
          (touched ++ [.lstat (directory.child name)]) with
      | mk outcome after =>
        rw [gone] at ran
        cases outcome with
        | error failed => cases ran
        | ok others =>
          simp only [run_pure, Except.ok.injEq] at ran
          subst ran
          rcases List.mem_cons.mp member with rfl | inside
          · refine ⟨name, List.mem_cons_self, info, status, rfl, fun downloadable => ?_⟩
            obtain ⟨regular, allowed⟩ : info.kind = .regular ∧ info.st_size ≤ limit := by
              simpa using downloadable
            exact ⟨regular, allowed, if_pos regular⟩
          · exact later (by rw [gone]) inside

/-- The directory that a user's path leads to. Exactly two leading slashes lead away from
the guest, to the host's own root. -/
def directoryOf (session : FLRSession) (user_path : Str) : Path :=
  (if Escapes user_path then ⟨.double, []⟩ else session.guest_mount).below (userPath user_path).tail

/-- Walking an accepted path arrives at its directory, and inside the guest the way is
plain. -/
theorem walked {user_path : Str} {parts : List Str} (accepted : relativeParts user_path = .ok parts)
    {touched : List FileCommand} {directory : Path}
    (ran : (run tree.handler (safeGuestPath session.guest_mount parts) touched).1 = .ok directory) :
    directory = directoryOf session user_path ∧ (¬ Escapes user_path →
      GuestFiles.Plain tree session.guest_mount (userPath user_path).tail) := by
  by_cases escapes : Escapes user_path
  · obtain rfl := Except.ok.inj ((relativeParts_escaping escapes).symm.trans accepted)
    refine ⟨?_, fun contained => absurd escapes contained⟩
    rw [directoryOf, if_pos escapes]
    have host : session.guest_mount.joinpath (str "//") = ⟨.double, []⟩ :=
      PurePath.joinpath_absolute _ rfl
    simp only [safeGuestPath, host, run_bind] at ran
    split at ran
    · rename_i info after asked
      split at ran
      · cases ran
      · exact ((run_safeGuestPath tree _ _ _).2 directory ran).1
    · cases ran
  · obtain rfl := relativeParts_contained escapes accepted
    obtain ⟨arrived, plain⟩ := (run_safeGuestPath tree _ _ _).2 directory ran
    exact ⟨by rw [directoryOf, if_neg escapes, arrived], fun _ => plain⟩

/-- What a listing says about the directory that was asked for. -/
theorem listed {casefold : Str → Str} {session_id user_path : Str} {touched : List FileCommand}
    {listing : Listing} (ran : (run tree.handler (listGuest settings casefold session session_id
      user_path) touched).1 = .ok listing) :
    ∃ parts scanned, relativeParts user_path = .ok parts ∧
      listing.path = str "/" ++ (str "/").intercalate parts ∧
      (¬ Escapes user_path →
        GuestFiles.Plain tree session.guest_mount (userPath user_path).tail) ∧
      tree.scandir (directoryOf session user_path) = .ok scanned ∧
      ∀ entry ∈ listing.entries, ∃ name ∈ scanned, ∃ info,
        tree.lstat ((directoryOf session user_path).child name) = .ok info ∧
          entry.name = name.val ∧ (entry.downloadable = true →
            info.kind = .regular ∧ info.st_size ≤ settings.browsing.max_download_bytes ∧
              entry.size = some info.st_size) := by
  unfold listGuest at ran
  cases accepted : relativeParts user_path with
  | error error => simp [accepted, run_bind] at ran
  | ok parts =>
    rw [accepted, raised_ok, pure_bind, run_bind] at ran
    cases reached : run tree.handler (safeGuestPath session.guest_mount parts) touched with
    | mk outcome after =>
      rw [reached] at ran
      cases outcome with
      | error error => cases ran
      | ok directory =>
        obtain ⟨arrived, plain⟩ := walked accepted (congrArg Prod.fst reached)
        rw [← arrived]
        simp only [run_bind, run_lstat] at ran
        cases status : tree.lstat directory with
        | error error =>
          rw [status] at ran
          cases ran
        | ok info =>
          simp only [status] at ran
          by_cases listable : info.kind = .directory
          · simp only [listable, ne_eq, not_true_eq_false, if_false, run_bind, run_scandir] at ran
            cases scan : tree.scandir directory with
            | error error =>
              rw [scan] at ran
              cases ran
            | ok scanned =>
              simp only [scan] at ran
              cases inspected : run tree.handler (describeEntries
                  settings.browsing.max_download_bytes directory scanned)
                  (after ++ [.lstat directory] ++ [.scandir directory]) with
              | mk result later =>
                rw [inspected] at ran
                cases result with
                | error error => cases ran
                | ok entries =>
                  obtain rfl := Except.ok.inj ran
                  refine ⟨parts, scanned, rfl, rfl, plain, rfl, fun entry member => ?_⟩
                  exact described (by rw [inspected]) ((List.mem_insertionSort _).mp member)
          · simp [listable, raiseValueError] at ran

/-- A file of the guest that is opened lies at the end of the path that was asked for. -/
theorem opened_below {user_path : Str} (contained : ¬ Escapes user_path)
    {touched : List FileCommand} {file : FLRFile}
    (ran : (run tree.handler (openGuest settings session user_path) touched).1 = .ok file) :
    file.path = session.guest_mount.below (userPath user_path).tail := by
  unfold openGuest at ran
  cases accepted : relativeParts user_path with
  | error error => simp [accepted, run_bind] at ran
  | ok parts =>
    rw [accepted, raised_ok, pure_bind] at ran
    cases last : parts.getLast? with
    | none => simp [last, raiseValueError] at ran
    | some name =>
      simp only [last, run_bind] at ran
      cases reached : run tree.handler (safeGuestPath session.guest_mount parts) touched with
      | mk outcome after =>
        rw [reached] at ran
        cases outcome with
        | error error => cases ran
        | ok path =>
          have arrived := (walked accepted (congrArg Prod.fst reached)).1
          rw [directoryOf, if_neg contained] at arrived
          simp only [run_lstat] at ran
          cases status : tree.lstat path with
          | error error =>
            rw [status] at ran
            cases ran
          | ok info =>
            simp only [status] at ran
            split_ifs at ran with foreign larger
            · simp [raiseValueError] at ran
            · simp [raiseValueError] at ran
            · obtain rfl := Except.ok.inj ran
              exact arrived

/-- Asking for a regular file below a plain path opens it. -/
theorem opened {names : List (Component CodePoint)} {name : Component CodePoint} {info : FileStatus}
    (plain : GuestFiles.Plain tree session.guest_mount names)
    (clean : ∀ part ∈ names ++ [name], part.val ≠ str ".." ∧ (0 : CodePoint) ∉ part.val)
    (found : tree.lstat ((session.guest_mount.below names).child name) = .ok info)
    (regular : info.kind = .regular)
    (allowed : info.st_size ≤ settings.browsing.max_download_bytes) (touched : List FileCommand) :
    (run tree.handler (openGuest settings session
      (entryPath (rooted names).format name.val)) touched).1 =
        .ok ⟨(session.guest_mount.below names).child name, name.val, info.st_size⟩ := by
  have walks : GuestFiles.Plain tree session.guest_mount (names ++ [name]) := by
    intro count positive bounded
    by_cases inside : count ≤ names.length
    · rw [List.take_append_of_le_length inside]
      exact plain count positive inside
    · have whole : (names ++ [name]).take count = names ++ [name] :=
        List.take_of_length_le (by simp at bounded ⊢; omega)
      rw [whole, ← PurePath.below_child]
      exact ⟨info, found, by rw [regular]; decide⟩
  have last : ((names ++ [name]).map Subtype.val).getLast? = some name.val := by simp
  have larger : ¬ info.st_size > settings.browsing.max_download_bytes := Nat.not_lt.mpr allowed
  unfold openGuest
  rw [entryPath_format, relativeParts_rooted clean, raised_ok, pure_bind, last]
  dsimp only
  cases reached : run tree.handler (safeGuestPath session.guest_mount
      ((names ++ [name]).map Subtype.val)) touched with
  | mk outcome after =>
    have arrived := safeGuestPath_reaches walks touched
    rw [reached, ← PurePath.below_child] at arrived
    dsimp only at arrived
    subst arrived
    rw [run_bind, reached]
    simp [run_bind, found, regular, larger]

end Browsing

section Responses

variable (site : Site)

/-- A field of the portal's answers, as its bytes are read. -/
def wireField (field : String × Str) : Field := ⟨ascii field.1, 32 :: toBytes field.2⟩

/-- Characters that reach a header and are allowed in it; the line ends among them are
replaced on the way. -/
def HeaderSafe (point : CodePoint) : Prop :=
  point.val = 9 ∨ point.val = 10 ∨ point.val = 13 ∨
    32 ≤ point.val ∧ point.val < 256 ∧ point.val ≠ 127

instance : DecidablePred HeaderSafe := fun _ => inferInstanceAs (Decidable (_ ∨ _))

instance (text : Str) : Decidable (∀ point ∈ text, HeaderSafe point) := List.decidableBAll _ text

/-- Bytes that are a status line of success, fields, an empty line and a body, and that
announce the length of the body. -/
def WellFormed (out : List UInt8) (size : Nat) (body : List UInt8) : Prop :=
  ∃ rest fields, out = statusLine 200 ++ rest ∧ Message rest fields body ∧
    wireField ("Content-Length", str (toString size)) ∈ fields

theorem toBytes_append (first second : Str) :
    toBytes (first ++ second) = toBytes first ++ toBytes second := List.map_append

/-- A literal has the same bytes. -/
theorem toBytes_str (text : String) : toBytes (str text) = ascii text := by
  rw [toBytes, str, ascii, List.map_map]
  refine List.map_congr_left fun character _ => ?_
  simp only [Function.comp_def, GuestFiles.val_ofNat]

/-- Fields are lines. -/
theorem fieldBytes_lines (fields : List (String × Str)) :
    fieldBytes fields = (fields.map wireField).flatMap Field.line := by
  rw [fieldBytes, List.flatMap_map]
  refine List.flatMap_congr fun field _ => ?_
  have colon : ascii ": " = [58, 32] := by decide
  have ended : ascii "\r\n" = [13, 10] := by decide
  simp [fieldLine, toBytes_append, toBytes_str, wireField, Field.line, colon, ended]

/-- The bytes of a text are bytes of a value exactly if its characters are allowed. -/
theorem value_byte_iff {point : CodePoint} (small : point.val < 256) :
    isValueByte (UInt8.ofNat point.val) = true ↔
      point.val = 9 ∨ 32 ≤ point.val ∧ point.val ≠ 127 := by
  have exact_ : (UInt8.ofNat point.val).toNat = point.val := by
    rw [UInt8.toNat_ofNat']
    exact Nat.mod_eq_of_lt small
  have tab : UInt8.ofNat point.val = 9 ↔ point.val = 9 := by
    rw [← UInt8.toNat_inj, exact_]
    rfl
  have delete : UInt8.ofNat point.val = 127 ↔ point.val = 127 := by
    rw [← UInt8.toNat_inj, exact_]
    rfl
  have blank : 32 ≤ UInt8.ofNat point.val ↔ 32 ≤ point.val := by
    rw [UInt8.le_iff_toNat_le, exact_]
    rfl
  simp [isValueByte, tab, delete, blank]

/-- A keyword that names a field. -/
def Named (keyword : String) : Prop :=
  ascii keyword ≠ [] ∧ ∀ byte ∈ ascii keyword, isTokenByte byte = true

instance (keyword : String) : Decidable (Named keyword) :=
  @instDecidableAnd _ _ _ (List.decidableBAll _ _)

/-- Characters that a value holds as they are. -/
def Allowed (point : CodePoint) : Prop :=
  point.val < 256 ∧ (point.val = 9 ∨ 32 ≤ point.val ∧ point.val ≠ 127)

/-- A field with an encodable value is valid exactly if all its characters are allowed. -/
theorem valid_wireField_iff {keyword : String} (named : Named keyword) {value : Str}
    (encodable : Encodable value) :
    (wireField (keyword, value)).Valid ↔ ∀ point ∈ value, Allowed point := by
  constructor
  · intro valid point member
    have inside : UInt8.ofNat point.val ∈ (wireField (keyword, value)).value :=
      List.mem_cons_of_mem _ (List.mem_map.mpr ⟨point, member, rfl⟩)
    exact ⟨encodable point member,
      (value_byte_iff (encodable point member)).mp (valid.value _ inside)⟩
  · intro allowed
    refine valid_of_values named.1 named.2 fun byte member => ?_
    rcases List.mem_cons.mp member with rfl | inside
    · decide
    · obtain ⟨point, listed, rfl⟩ := List.mem_map.mp inside
      exact (value_byte_iff (encodable point listed)).mpr (allowed point listed).2

/-- Fields with printable values are valid. -/
theorem valid_plain {keyword : String} (named : Named keyword) {value : Str} (plain : Plain value) :
    (wireField (keyword, value)).Valid :=
  (valid_wireField_iff named plain.encodable).mpr fun point member => by
    obtain ⟨printable, ascii⟩ := plain point member
    exact ⟨by omega, Or.inr ⟨printable, by omega⟩⟩

/-- The fields of a download before the one that holds its name. -/
def knownFields (name : Str) (size : Nat) : List (String × Str) :=
  [("Server", site.software), ("Date", site.date)] ++ announcing site name size

theorem plain_literal {text : String}
    (all : (str text).all (fun point => 32 ≤ point.val ∧ point.val < 127) = true) :
    Plain (str text) :=
  fun point member => by simpa using List.all_eq_true.mp all point member

theorem valid_knownFields (name : Str) (size : Nat) :
    ∀ field ∈ (knownFields site name size).map wireField, field.Valid := by
  have type : Plain ((site.guess_type name).getD (str "application/octet-stream")) := by
    cases guessed : site.guess_type name with
    | none => exact plain_literal (by decide)
    | some type => exact site.plain_type name type guessed
  intro field member
  simp only [knownFields, announcing, List.map_cons, List.map_nil, List.cons_append,
    List.nil_append, List.mem_cons, List.not_mem_nil, or_false] at member
  rcases member with rfl | rfl | rfl | rfl
  · exact valid_plain (by decide) site.plain_software
  · exact valid_plain (by decide) site.plain_date
  · exact valid_plain (by decide) type
  · exact valid_plain (by decide) (plain_toString size)

theorem valid_securityHeaders : ∀ field ∈ securityHeaders.map wireField, field.Valid := by
  have printable : ∀ field ∈ securityHeaders, Named field.1 ∧
      (field.2.all fun point => 32 ≤ point.val ∧ point.val < 127) = true := by decide
  intro field member
  obtain ⟨⟨keyword, value⟩, listed, rfl⟩ := List.mem_map.mp member
  obtain ⟨named, all⟩ := printable _ listed
  exact valid_plain named fun point inside => by simpa using List.all_eq_true.mp all point inside

/-- The field that holds a name is valid exactly if the characters of the name are safe. -/
theorem valid_disposition_iff {name : Str} (encodable : Encodable name) :
    (wireField ("Content-Disposition", disposition name)).Valid ↔
      ∀ point ∈ name, HeaderSafe point := by
  have fitting : Encodable (disposition name) :=
    (encodable_fieldLine (by decide) _).mp ((encodable_disposition name).mpr encodable)
  have replaced : ∀ point : CodePoint, point.val < 256 →
      (Allowed (if point ∈ str "\\\"\r\n" then 95 else point) ↔ HeaderSafe point) := by
    intro point small
    have special : point ∈ str "\\\"\r\n" ↔
        point.val = 92 ∨ point.val = 34 ∨ point.val = 13 ∨ point.val = 10 := by
      have listed : str "\\\"\r\n" = [92, 34, 13, 10] := by decide
      simp [listed, Fin.ext_iff]
    split
    · rename_i member
      rw [special] at member
      have safe : HeaderSafe point := by
        unfold HeaderSafe
        omega
      exact ⟨fun _ => safe, fun _ => ⟨by decide, Or.inr (by decide)⟩⟩
    · rename_i other
      rw [special] at other
      unfold Allowed HeaderSafe
      omega
  have before : ∀ point ∈ str "attachment; filename=\"", Allowed point := by
    have plain : Plain (str "attachment; filename=\"") := plain_literal (by decide)
    intro point member
    obtain ⟨printable, ascii⟩ := plain point member
    exact ⟨by omega, Or.inr ⟨printable, by omega⟩⟩
  have after : ∀ point ∈ str "\"", Allowed point := by
    intro point member
    obtain rfl : point = 34 := by
      have listed : str "\"" = [34] := by decide
      simpa [listed] using member
    exact ⟨by decide, Or.inr (by decide)⟩
  rw [valid_wireField_iff (by decide) fitting]
  constructor
  · intro allowed point member
    refine (replaced point (encodable point member)).mp (allowed _ ?_)
    refine List.mem_append_left _ (List.mem_append_right _ ?_)
    exact List.mem_map.mpr ⟨point, member, rfl⟩
  · intro safe point member
    rcases List.mem_append.mp member with inner | ended
    · rcases List.mem_append.mp inner with begun | named
      · exact before point begun
      · obtain ⟨original, listed, rfl⟩ := List.mem_map.mp named
        exact (replaced original (encodable original listed)).mpr (safe original listed)
    · exact after point ended

/-- A field with an encodable value is read as one line if the value holds no line end. -/
theorem legible_wireField {keyword : String} (named : Named keyword) {value : Str}
    (encodable : Encodable value) (unbroken : ∀ point ∈ value, point.val ≠ 13) :
    (wireField (keyword, value)).Legible := by
  refine ⟨named.1, named.2, fun member => ?_⟩
  rcases List.mem_cons.mp member with impossible | inside
  · exact absurd impossible (by decide)
  · obtain ⟨point, listed, same⟩ := List.mem_map.mp inside
    refine unbroken point listed ?_
    have back := congrArg UInt8.toNat same
    rw [UInt8.toNat_ofNat', Nat.mod_eq_of_lt (encodable point listed)] at back
    exact back

/-- The field that holds a name is read as one line. -/
theorem legible_disposition {name : Str} (encodable : Encodable name) :
    (wireField ("Content-Disposition", disposition name)).Legible := by
  have fitting : Encodable (disposition name) :=
    (encodable_fieldLine (by decide) _).mp ((encodable_disposition name).mpr encodable)
  refine legible_wireField (by decide) fitting fun point member => ?_
  rcases List.mem_append.mp member with inner | ended
  · rcases List.mem_append.mp inner with begun | inside
    · have plain : Plain (str "attachment; filename=\"") := plain_literal (by decide)
      have printable := (plain point begun).1
      omega
    · obtain ⟨original, _, rfl⟩ := List.mem_map.mp inside
      split
      · decide
      · rename_i other
        intro same
        obtain rfl : original = 13 := Fin.ext same
        exact other (by decide)
  · have plain : Plain (str "\"") := plain_literal (by decide)
    have printable := (plain point ended).1
    omega

theorem fieldBytes_append (first second : List (String × Str)) :
    fieldBytes (first ++ second) = fieldBytes first ++ fieldBytes second := List.flatMap_append

/-- What announces a file up to its name is the status line and the known fields. -/
theorem fileStart_lines (name : Str) (size : Nat) : fileStart site name size =
    statusLine 200 ++ ((knownFields site name size).map wireField).flatMap Field.line := by
  rw [← fieldBytes_lines, knownFields, fieldBytes_append, fileStart, responseLines,
    List.append_assoc]

/-- What announces a file. -/
theorem fileHead_lines (name : Str) (size : Nat) : fileHead site name size =
    statusLine 200 ++ (((knownFields site name size).map wireField).flatMap Field.line ++
      ((wireField ("Content-Disposition", disposition name)).line ++
        ((securityHeaders.map wireField).flatMap Field.line ++ [13, 10]))) := by
  have ended : ascii "\r\n" = [13, 10] := by decide
  have single : (wireField ("Content-Disposition", disposition name)).line =
      fieldBytes [("Content-Disposition", disposition name)] := by
    rw [fieldBytes_lines, List.map_singleton, List.flatMap_singleton]
  rw [single, ← fieldBytes_lines, ← fieldBytes_lines, knownFields, fieldBytes_append, fileHead,
    responseLines, fileHeaders_eq, fieldBytes_append, ended]
  simp only [List.append_assoc]

/-- The announced file is well formed exactly if the characters of its name are safe. -/
theorem wellFormed_sent {name : Str} (encodable : Encodable name) (body : List UInt8) :
    WellFormed (fileHead site name body.length ++ body) body.length body ↔
      ∀ point ∈ name, HeaderSafe point := by
  rw [← valid_disposition_iff encodable, fileHead_lines]
  constructor
  · rintro ⟨rest, fields, same, message, _⟩
    rw [List.append_assoc] at same
    obtain rfl := List.append_cancel_left same
    rw [List.append_assoc] at message
    obtain ⟨_, _, further⟩ := message.lines (valid_knownFields site name body.length)
    rw [List.append_assoc] at further
    exact (further.head (legible_disposition encodable)).1
  · intro valid
    refine ⟨_, (knownFields site name body.length).map wireField ++
      wireField ("Content-Disposition", disposition name) :: securityHeaders.map wireField,
      List.append_assoc _ _ _, ?_, ?_⟩
    · have all : ∀ field ∈ (knownFields site name body.length).map wireField ++
          wireField ("Content-Disposition", disposition name) :: securityHeaders.map wireField,
            field.Valid := by
        intro field member
        rcases List.mem_append.mp member with known | rest
        · exact valid_knownFields site name body.length field known
        · rcases List.mem_cons.mp rest with rfl | security
          · exact valid
          · exact valid_securityHeaders field security
      have message := message_lines all body
      rw [List.flatMap_append, List.flatMap_cons] at message
      simpa only [List.append_assoc, List.cons_append, List.nil_append] using message
    · refine List.mem_append_left _ (List.mem_map.mpr ⟨("Content-Length", _), ?_, rfl⟩)
      simp [knownFields, announcing]

/-- A status line in the place of a field is not well formed. -/
theorem not_wellFormed_refused (name : Str) (announced size : Nat) (more body : List UInt8) :
    ¬ WellFormed (fileStart site name announced ++ (ascii "HTTP" ++ 47 :: more)) size body := by
  rintro ⟨rest, fields, same, message, _⟩
  rw [fileStart_lines, List.append_assoc] at same
  obtain rfl := List.append_cancel_left same
  obtain ⟨_, _, further⟩ := message.lines (valid_knownFields site name announced)
  exact not_message (by decide) (List.all_eq_true.mp (by decide)) (by decide) (by decide) more _ _
    further

end Responses

section Downloading

/-- Characters that no URL holds. -/
def IsSurrogate (point : CodePoint) : Prop := 55296 ≤ point.val ∧ point.val < 57344

instance : DecidablePred IsSurrogate := fun _ => inferInstanceAs (Decidable (_ ∧ _))

instance (text : Str) : Decidable (∀ point ∈ text, ¬ IsSurrogate point) :=
  List.decidableBAll _ text

/-- A text as the portal reads it from the query of a URL. The page escapes the bytes of
its UTF-8 form, which a text with a surrogate does not have, and the portal reads back
what was escaped. -/
def throughQuery (text : Str) : Option Str :=
  if ∀ point ∈ text, ¬ IsSurrogate point then some text else none

/-- What the host's file systems keep to: the names in a directory are not the parent's,
hold no null and fit in 255 bytes, and a size fits in 63 bits. -/
structure Ordinary (tree : Tree) : Prop where
  names : ∀ directory names, tree.scandir directory = .ok names → ∀ name ∈ names,
    name.val ≠ str ".." ∧ (0 : CodePoint) ∉ name.val ∧ name.val.length ≤ 255
  sizes : ∀ path info, tree.lstat path = .ok info → info.st_size < 2 ^ 63

/-- The transfer of a file that the broker opens again as it was and reads as a whole. -/
def delivery (file : FLRFile) (chunks : List (List UInt8)) (chunk_size : Nat) : Transfer where
  size := file.size
  opened := .ok (file.name, file.size)
  chunks := chunks
  arrives := some chunks.flatten.length
  chunk_size := chunk_size

/-- What the portal sends for a file, on a connection that takes a number of bytes. -/
def answer (site : Site) (file : FLRFile) (chunks : List (List UInt8)) (chunk_size budget : Nat) :
    List UInt8 :=
  (run Connection.handler (serving site (sendFile site file.name file.size
    (delivery file chunks chunk_size).stream)) { budget := budget }).2.out

/-- Names and sizes of files fit in one line of the broker. -/
theorem fileMessage_fits {name : Str} (short : name.length ≤ 255) {size : Nat}
    (bounded : size < 2 ^ 63) : (jsonLine (fileMessage name size)).isOk := by
  have digits : (toString size).toList.length ≤ 19 := by
    rw [Nat.toString_eq_repr, String.length_toList]
    exact (Nat.length_repr_le_iff (by decide)).mpr (Nat.lt_of_lt_of_le bounded (by decide))
  have text : (Wire.encodeText name).length ≤ 12 * name.length + 2 := (length_encodeText name).2
  have keys : (Wire.encodeText (str "ok")).length = 4 ∧
      (Wire.encodeText (str "result")).length = 8 ∧ (Wire.encodeText (str "name")).length = 6 ∧
        (Wire.encodeText (str "size")).length = 6 := by decide
  have truth : (Wire.encode (.bool true)).length = 4 := by decide
  have number : (Wire.encode (.number size)).length = (toString size).toList.length := length_ascii _
  have named : (Wire.encode (.text name)).length = (Wire.encodeText name).length := by
    rw [Wire.encode]
  rw [jsonLine_isOk, fileMessage, okPayload, length_encode_dict]
  simp only [List.map_cons, List.map_nil, List.sum_cons, List.sum_nil, List.length_cons,
    List.length_nil, length_encode_dict, keys, truth, number, named, maxMessageBytes]
  omega

/-- A file whose name is encodable is sent as a whole. -/
theorem answer_sent (site : Site) {file : FLRFile} (encodable : Encodable file.name)
    (fits : (jsonLine (fileMessage file.name file.size)).isOk) {chunks : List (List UInt8)}
    (whole : chunks.flatten.length = file.size) {chunk_size : Nat} (positive : 0 < chunk_size)
    {budget : Nat}
    (room : (fileHead site file.name file.size).length + file.size ≤ budget) :
    answer site file chunks chunk_size budget =
      fileHead site file.name file.size ++ chunks.flatten := by
  have accepted : (delivery file chunks chunk_size).accepted = some chunks.flatten.length :=
    @accepted_whole (delivery file chunks chunk_size) file.name rfl fits
  have body : (delivery file chunks chunk_size).body = chunks.flatten :=
    @body_whole (delivery file chunks chunk_size) file.name rfl fits fun _ => rfl
  have head : (fileHead site file.name file.size).length ≤ budget := by omega
  let connection : Connection := ⟨budget - (fileHead site file.name file.size).length, [],
    fileHead site file.name file.size⟩
  obtain ⟨outcome, received, succeeds⟩ := @run_receive chunk_size positive file.size
    chunks.flatten connection
  have within : file.size ≤ connection.budget := by
    dsimp only [connection]
    omega
  obtain rfl : outcome = .ok () := succeeds.mpr ⟨by omega, within⟩
  have streamed := (run_stream (delivery file chunks chunk_size) connection).1 _ accepted
  rw [body, List.take_of_length_le (Nat.le_refl _)] at streamed
  have sent : run Connection.handler (delivery file chunks chunk_size).stream connection =
      (.ok (), { connection with
        budget := connection.budget - (chunks.flatten.take file.size).length
        out := connection.out ++ (chunks.flatten.take file.size).take connection.budget }) :=
    streamed.trans received
  rw [answer, run_serving, run_sendFile site encodable]
  simp only [Connection.send, List.nil_append, if_pos head]
  rw [sent]
  have all : chunks.flatten.take file.size = chunks.flatten := List.take_of_length_le (by omega)
  have taken : chunks.flatten.take connection.budget = chunks.flatten :=
    List.take_of_length_le (by omega)
  simp only [all, taken]
  rfl

/-- Of any other file the answer breaks off before its name, and an answer to the error
follows. -/
theorem answer_refused (site : Site) {file : FLRFile} (refused : ¬ Encodable file.name)
    (chunks : List (List UInt8)) (chunk_size : Nat) {budget : Nat}
    (room : (fileHead site file.name file.size).length ≤ budget) :
    ∃ more, answer site file chunks chunk_size budget =
      fileStart site file.name file.size ++ (ascii "HTTP" ++ 47 :: more) := by
  obtain ⟨rest, answered⟩ := answerError_out site
    (encodingError (fieldLine "Content-Disposition" (disposition file.name)))
  have longer : (fileStart site file.name file.size).length + 5 ≤
      (fileHead site file.name file.size).length := by
    rw [fileHead_lines, fileStart_lines]
    have keyword : 5 ≤ (wireField ("Content-Disposition", disposition file.name)).line.length := by
      have named : 5 ≤ (ascii "Content-Disposition").length := by decide
      simp only [wireField, Field.line, List.length_append]
      omega
    simp only [List.length_append]
    omega
  have begins : ascii "HTTP/1.0 " = ascii "HTTP" ++ [47] ++ ascii "1.0 " := by decide
  refine ⟨(ascii "1.0 " ++ rest).take (budget - ((fileStart site file.name file.size).length + 5)), ?_⟩
  rw [answer, run_serving, run_sendFile_refused site refused]
  simp only [answered, List.nil_append, begins]
  have split : fileStart site file.name file.size ++
      (ascii "HTTP" ++ [47] ++ ascii "1.0 " ++ rest) =
        (fileStart site file.name file.size ++ (ascii "HTTP" ++ [47])) ++ (ascii "1.0 " ++ rest) := by
    simp only [List.append_assoc]
  have size : (fileStart site file.name file.size ++ (ascii "HTTP" ++ [47])).length =
      (fileStart site file.name file.size).length + 5 := by
    rw [List.length_append]
    rfl
  rw [split, List.take_append, size, List.take_of_length_le (by omega)]
  simp only [List.append_assoc, List.singleton_append]

/-- The path of an entry passes through a query exactly if the directory's path and the
name do. -/
theorem throughQuery_entryPath (path name : Str) :
    throughQuery (entryPath path name) = some (entryPath path name) ↔
      (∀ point ∈ path, ¬ IsSurrogate point) ∧ ∀ point ∈ name, ¬ IsSurrogate point := by
  have slash : ∀ point ∈ str "/", ¬ IsSurrogate point := by decide
  have passes : (∀ point ∈ entryPath path name, ¬ IsSurrogate point) ↔
      (∀ point ∈ path, ¬ IsSurrogate point) ∧ ∀ point ∈ name, ¬ IsSurrogate point := by
    unfold entryPath
    split
    · simp only [List.forall_mem_append]
    · simp only [List.forall_mem_append]
      exact ⟨fun ⟨⟨before, _⟩, after⟩ => ⟨before, after⟩, fun ⟨before, after⟩ =>
        ⟨⟨before, slash⟩, after⟩⟩
  rw [← passes, throughQuery]
  split
  · rename_i clean
    exact ⟨fun _ => clean, fun _ => rfl⟩
  · rename_i broken
    exact ⟨fun impossible => (nomatch impossible), fun clean => absurd clean broken⟩

/-- A query changes no text. -/
theorem throughQuery_same {text requested : Str} (read : throughQuery text = some requested) :
    requested = text := by
  unfold throughQuery at read
  split at read
  · exact (Option.some.inj read).symm
  · cases read

/-- Asking for a listed entry returns that same file with its name and size, and the
portal answers with a well-formed response that holds its bytes. -/
def Downloads (tree : Tree) (settings : Settings) (session : FLRSession) (site : Site)
    (user_path : Str) (listing : Listing) (entry : GuestEntry) (chunks : List (List UInt8))
    (chunk_size budget : Nat) : Prop :=
  ∃ requested file, throughQuery (entryPath listing.path entry.name) = some requested ∧
    (run tree.handler (openGuest settings session requested) []).1 = .ok file ∧
    file.path = (directoryOf session user_path).joinpath entry.name ∧ file.name = entry.name ∧
    entry.size = some file.size ∧
    WellFormed (answer site file chunks chunk_size budget) file.size chunks.flatten

/-- A file that was opened is answered well exactly if the characters of its name are
safe. -/
theorem wellFormed_answer_iff (site : Site) {file : FLRFile}
    (fits : (jsonLine (fileMessage file.name file.size)).isOk) {chunks : List (List UInt8)}
    (whole : chunks.flatten.length = file.size) {chunk_size : Nat} (positive : 0 < chunk_size)
    {budget : Nat} (room : (fileHead site file.name file.size).length + file.size ≤ budget) :
    WellFormed (answer site file chunks chunk_size budget) file.size chunks.flatten ↔
      ∀ point ∈ file.name, HeaderSafe point := by
  by_cases encodable : Encodable file.name
  · rw [answer_sent site encodable fits whole positive room, ← whole]
    exact wellFormed_sent site encodable chunks.flatten
  · obtain ⟨more, answered⟩ := answer_refused site encodable chunks chunk_size
      (Nat.le_trans (Nat.le_add_right _ _) room)
    rw [answered]
    refine ⟨fun wellFormed => absurd wellFormed (not_wellFormed_refused site _ _ _ _ _),
      fun safe => absurd (fun point member => ?_) encodable⟩
    have kept := safe point member
    unfold HeaderSafe at kept
    omega

section Listed

variable {tree : Tree} {settings : Settings} {session : FLRSession} {site : Site}
  {casefold : Str → Str} {session_id user_path : Str} {touched : List FileCommand}
  {listing : Listing} {entry : GuestEntry} {chunks : List (List UInt8)} {chunk_size budget : Nat}

/-- A directory of the host that is listed is asked for inside the guest. -/
theorem not_downloads_host (escapes : Escapes user_path)
    {parts : List Str} (accepted : relativeParts user_path = .ok parts)
    (path : listing.path = str "/" ++ (str "/").intercalate parts) {name : Component CodePoint}
    (named : entry.name = name.val) :
    ¬ Downloads tree settings session site user_path listing entry chunks chunk_size budget := by
  rintro ⟨requested, file, query, opens, same, _⟩
  obtain rfl := Except.ok.inj ((relativeParts_escaping escapes).symm.trans accepted)
  have read : userPath requested = rooted ((userPath user_path).tail ++ [name]) := by
    rw [throughQuery_same query, path, named]
    exact entryPath_host _ name
  have contained : ¬ Escapes requested := by
    rintro ⟨_, double, _⟩
    have root := (root_userPath requested).mpr double
    rw [read] at root
    cases root
  rw [opened_below contained opens, read, named, PurePath.joinpath_proper, directoryOf,
    if_pos escapes] at same
  have tails := congrArg (fun path => path.tail.length) same
  simp only [PurePath.below, PurePath.child, FLRSession.guest_mount, rooted, List.length_append,
    List.length_cons, List.length_nil] at tails
  omega

/-- What is listed as downloadable can be downloaded exactly if the directory lies in the
guest, its path is a text of whole characters, and the name is one that a header holds. -/
theorem download_of_listed_iff (ordinary : Ordinary tree)
    (ran : (run tree.handler (listGuest settings casefold session session_id user_path)
      touched).1 = .ok listing)
    (member : entry ∈ listing.entries) (downloadable : entry.downloadable = true)
    (whole : entry.size = some chunks.flatten.length) (positive : 0 < chunk_size)
    (room : (fileHead site entry.name chunks.flatten.length).length +
      chunks.flatten.length ≤ budget) :
    Downloads tree settings session site user_path listing entry chunks chunk_size budget ↔
      ¬ Escapes user_path ∧ (∀ point ∈ listing.path, ¬ IsSurrogate point) ∧
        ∀ point ∈ entry.name, HeaderSafe point := by
  obtain ⟨parts, scanned, accepted, path, plain, scan, entries⟩ := listed ran
  obtain ⟨name, inside, info, found, named, offers⟩ := entries entry member
  obtain ⟨regular, allowed, sized⟩ := offers downloadable
  have size : info.st_size = chunks.flatten.length := Option.some.inj (sized.symm.trans whole)
  by_cases escapes : Escapes user_path
  · exact ⟨fun downloads => absurd downloads (not_downloads_host escapes accepted path named),
      fun condition => absurd escapes condition.1⟩
  · obtain ⟨notUp, unbroken, short⟩ := ordinary.names _ scanned scan name inside
    have clean : ∀ part ∈ (userPath user_path).tail ++ [name],
        part.val ≠ str ".." ∧ (0 : CodePoint) ∉ part.val := by
      intro part listed
      rcases List.mem_append.mp listed with before | last
      · exact clean_of_accepted accepted part before
      · obtain rfl := List.mem_singleton.mp last
        exact ⟨notUp, unbroken⟩
    obtain rfl := relativeParts_contained escapes accepted
    rw [listed_path] at path
    have directory : directoryOf session user_path =
        session.guest_mount.below (userPath user_path).tail := by rw [directoryOf, if_neg escapes]
    rw [directory] at found
    let file : FLRFile :=
      ⟨(session.guest_mount.below (userPath user_path).tail).child name, name.val, info.st_size⟩
    have opens : (run tree.handler (openGuest settings session
        (entryPath listing.path entry.name)) []).1 = .ok file := by
      rw [path, named]
      exact opened (plain escapes) clean found regular allowed []
    have fits : (jsonLine (fileMessage file.name file.size)).isOk :=
      fileMessage_fits short (ordinary.sizes _ info found)
    have answers : WellFormed (answer site file chunks chunk_size budget) file.size chunks.flatten ↔
        ∀ point ∈ entry.name, HeaderSafe point := by
      rw [named]
      refine wellFormed_answer_iff site fits size.symm positive ?_
      rw [named, ← size] at room
      exact room
    constructor
    · rintro ⟨requested, other, query, opened, _, _, _, wellFormed⟩
      obtain rfl := throughQuery_same query
      obtain rfl := Except.ok.inj (opens.symm.trans opened)
      exact ⟨escapes, ((throughQuery_entryPath _ _).mp query).1, answers.mp wellFormed⟩
    · rintro ⟨_, through, safe⟩
      have query : throughQuery (entryPath listing.path entry.name) =
          some (entryPath listing.path entry.name) := by
        refine (throughQuery_entryPath _ _).mpr ⟨through, fun point listed surrogate => ?_⟩
        have kept := safe point listed
        unfold HeaderSafe at kept
        unfold IsSurrogate at surrogate
        omega
      refine ⟨_, file, query, opens, ?_, named.symm, sized, answers.mpr safe⟩
      rw [directory, named, PurePath.joinpath_proper]

end Listed

section Examples

/-- A guest with one file in its root. -/
def holding (name : Component CodePoint) : Tree where
  lstat path :=
    if path = sampleSession.guest_mount then .ok ⟨.directory, 4096, ""⟩
    else if path = sampleSession.guest_mount.child name then .ok ⟨.regular, 4, ""⟩
    else .error ⟨.fileNotFoundError, "[Errno 2] No such file or directory"⟩
  scandir path :=
    if path = sampleSession.guest_mount then .ok [name]
    else .error ⟨.osError, "[Errno 20] Not a directory"⟩
  read _ := .error ⟨.osError, "[Errno 5] Input/output error"⟩

theorem holding_ordinary {name : Component CodePoint} (up : name.val ≠ str "..")
    (unbroken : (0 : CodePoint) ∉ name.val) (short : name.val.length ≤ 255) :
    Ordinary (holding name) := by
  constructor
  · intro directory names scanned other member
    dsimp only [holding] at scanned
    split at scanned
    · obtain rfl := Except.ok.inj scanned
      obtain rfl := List.mem_singleton.mp member
      exact ⟨up, unbroken, short⟩
    · cases scanned
  · intro path info found
    dsimp only [holding] at found
    split_ifs at found <;> cases found <;> decide

def latinName : Component CodePoint := ⟨str "a.txt", by decide⟩

/-- A name whose first character is no Latin-1. -/
def foreignName : Component CodePoint := ⟨str "文.txt", by decide⟩

def rootListing (name : Component CodePoint) : Listing where
  session := sampleSession.public (str "s1")
  path := str "/"
  entries := [⟨name.val, .regular, some 4, "", true⟩]

theorem listed_holding (name : Component CodePoint) : (run (holding name).handler
    (listGuest mounting id sampleSession (str "s1") (str "/")) []).1 = .ok (rootListing name) := by
  have accepted : relativeParts (str "/") = .ok [] := by rfl
  have root : (holding name).lstat sampleSession.guest_mount = .ok ⟨.directory, 4096, ""⟩ := by
    simp [holding]
  have scanned : (holding name).scandir sampleSession.guest_mount = .ok [name] := by
    simp [holding]
  have deeper : sampleSession.guest_mount.child name ≠ sampleSession.guest_mount := by
    intro same
    have tails := congrArg (fun path => path.tail.length) same
    simp [PurePath.child] at tails
  have file : (holding name).lstat (sampleSession.guest_mount.child name) =
      .ok ⟨.regular, 4, ""⟩ := by
    simp [holding, deeper]
  have allowed : 4 ≤ mounting.browsing.max_download_bytes := by decide
  unfold listGuest
  rw [accepted]
  simp only [raised_ok, pure_bind, safeGuestPath, run_bind, run_pure, run_lstat, root, ne_eq,
    not_true_eq_false, if_false, run_scandir, scanned, describeEntries, run_tryCatch, file]
  simp [rootListing, allowed, str]

/-- A file with a plain name is downloaded. -/
theorem download_of_listed_plain :
    Downloads (holding latinName) mounting sampleSession portalSite (str "/") (rootListing latinName)
      ⟨latinName.val, .regular, some 4, "", true⟩ [[1, 2], [3, 4]] 2 1000 :=
  (download_of_listed_iff (holding_ordinary (by decide) (by decide) (by decide))
    (listed_holding latinName) List.mem_cons_self rfl rfl (by decide) (by decide +kernel)).mpr
      ⟨by decide, by decide, by decide⟩

/-- A file whose name holds a character beyond Latin-1 is listed as downloadable, and the
answer to its download is not well formed. -/
theorem download_of_listed_refused :
    (run (holding foreignName).handler (listGuest mounting id sampleSession (str "s1") (str "/"))
      []).1 = .ok (rootListing foreignName) ∧
    ¬ Downloads (holding foreignName) mounting sampleSession portalSite (str "/")
      (rootListing foreignName) ⟨foreignName.val, .regular, some 4, "", true⟩ [[1, 2], [3, 4]] 2
        1000 := by
  refine ⟨listed_holding foreignName, ?_⟩
  rintro ⟨requested, file, query, opens, _, named, sized, wellFormed⟩
  have size : file.size = 4 := Option.some.inj sized.symm
  have safe := (wellFormed_answer_iff portalSite
    (by rw [named, size]; exact fileMessage_fits (by decide) (by decide)) (by rw [size]; rfl)
    (by decide) (by rw [named, size]; decide +kernel)).mp wellFormed
  rw [named] at safe
  revert safe
  decide

end Examples

end Downloading

end Immutavault.DownloadNames
