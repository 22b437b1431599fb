import Mathlib.Data.List.Dedup
import Mathlib.Data.List.Sort
import Immutavault.HostTrees
import Immutavault.SessionOwnership

/-!
# Which disk images a recovery session mounts

Disk images are looked for below a source directory: entries of real directories whose
names end like an image, and paths that a layout file declares. Either is kept when it
is a file, and whether it is one is asked through symbolic links. The source itself is
joined to the snapshot's directory from a text of the recovery point.

The host's file system is a tree with links. What is proved is that the guest's mount
command names exactly what the search selects; that without links, and for a source
whose text does not begin with exactly two slashes, all of it lies in the snapshot; and
that a source with exactly two leading slashes is a path of the host.
-/

namespace Immutavault.DiskImages

open Programs Values PosixPaths GuestFiles LinkedTrees HostTrees SessionOwnership

/-- What reading a file as a layout gives: a value, a failure that counts as an empty
layout, or an error that is raised. -/
inductive Reading where
  | json (value : Json)
  | unreadable
  | raising (error : Exn)

section Search

variable (lower : Str → Str) (host : Host Reading)

def diskSuffixes : List Str := [".vmdk", ".vhd", ".vhdx", ".qcow2", ".raw", ".img"].map str

def extentSuffixes : List Str :=
  ["-flat.vmdk", "-delta.vmdk", "-sesparse.vmdk", "-ctk.vmdk"].map str

/-- A name that ends like a disk image, and not like an extent of one. -/
def isDiskName (name : Str) : Bool :=
  diskSuffixes.any (·.isSuffixOf (lower name)) && !extentSuffixes.any (·.isSuffixOf (lower name))

/-- Files below a source that are named like disk images. Directories are entered as
the source has them, but not through a link. -/
def scanned (source : Path) : List (List (Component CodePoint)) :=
  match host.node source with
  | none => []
  | some node => (node.descend.filter fun names =>
      host.isFile (source.below (names.map Name.component)) &&
        (names.getLast?.map fun name => isDiskName lower name.val).getD false).map
          (·.map Name.component)

/-- The class of a value that is not a dictionary, as an error names it. -/
def className : Json → String
  | .null => "NoneType"
  | .bool _ => "bool"
  | .int _ => "int"
  | .str _ => "str"
  | .arr _ => "list"
  | .obj _ => "dict"

/-- What a loop over a value goes through. -/
def iterated : Json → Except Exn (List Json)
  | .arr items => .ok items
  | .obj fields => .ok (fields.map fun field => .str field.1)
  | .str text => .ok (text.toList.map fun character => .str (String.singleton character))
  | other => .error ⟨.otherError, s!"'{className other}' object is not iterable"⟩

/-- What a layout declares as disk images. -/
def declaredItems : Json → Except Exn (List Json)
  | .obj fields =>
    let images := (Dict.get? fields "flr_disk_images").getD .null
    let disks := (Dict.get? fields "flr_disks").getD .null
    if images.truthy then iterated images
    else if disks.truthy then iterated disks
    else .ok []
  | other => .error ⟨.otherError, s!"'{className other}' object has no attribute 'get'"⟩

/-- The file that a declared item names below the source, if it names one. -/
def declaredFile (source : Path) (item : Json) : Option (List (Component CodePoint)) :=
  let raw := match item with
    | .obj fields => (Dict.get? fields "path").getD .null
    | other => other
  if ¬ raw.truthy then none
  else
    let rel : Path := PurePath.parse (str raw.toText)
    if rel.root ≠ .relative ∨ str ".." ∈ rel.parts then none
    else if host.isFile (source.below rel.tail) then some rel.tail
    else none

/-- The files that the layout of a source declares. -/
def declared (source : Path) : Except Exn (List (List (Component CodePoint))) :=
  match host.node (source.joinpath (str "immutavault-vddk-layout.json")) with
  | some (.file (.json value)) =>
    (declaredItems value).map fun items => items.filterMap (declaredFile host source)
  | some (.file (.raising error)) => .error error
  | _ => .ok []

/-- The disk images below a source, each once, in the order of their texts. -/
def discoverDiskImages (source : Path) : Except Exn (List (List (Component CodePoint))) :=
  (declared host source).map fun named =>
    (scanned lower host source ++ named).dedup.insertionSort fun first second =>
      ¬ (source.below second).format < (source.below first).format

end Search

/-- The disk images among the arguments of a mount command, and nothing of another
command. -/
def attached : List Str → List Str
  | flag :: image :: rest => if flag = str "-a" then image :: attached rest else []
  | _ => []

def mountedImages : List Str → List Str
  | _ :: option :: rest => if option = str "--ro" then attached rest else []
  | _ => []

section Mounting

variable (surroundings : Surroundings) {α : Type}

/-- A run of a program passes an image to a mount command. -/
def Mounts (program : Prog α) (broker : Broker) (image : Str) : Prop :=
  ∃ state argv, (state, BrokerCommand.host (.run argv)) ∈
    issued surroundings.handler program broker ∧ image ∈ mountedImages argv

/-- A command that is none of the host's to run. -/
def RunsNothing : BrokerCommand → Prop
  | .host (.run _) => False
  | _ => True

variable {surroundings}

theorem not_mounts_of_quiet {program : Prog α}
    (quiet : @Issues brokering Exn α RunsNothing program) (broker : Broker) (image : Str) :
    ¬ Mounts surroundings program broker image := by
  rintro ⟨state, argv, asked, _⟩
  exact issues_issued quiet broker _ asked

/-- A question that is answered passes no image; what follows it may. -/
theorem mounts_ask {request : HostRequest} {answer : request.Answer} {broker : Broker}
    (answered : surroundings.answer broker.log request = .ok answer)
    (quiet : RunsNothing (.host request)) (next : request.Answer → Prog α) (image : Str) :
    Mounts surroundings (host request >>= next) broker image ↔
      Mounts surroundings (next answer)
        { broker with log := broker.log ++ [⟨.host request, .ok answer⟩] } image := by
  have alone : issued surroundings.handler (host request) broker = [(broker, .host request)] :=
    issued_perform _ _ _
  unfold Mounts
  rw [issued_bind, run_asked surroundings answered, alone]
  constructor
  · rintro ⟨state, argv, member, passed⟩
    rcases List.mem_append.mp member with first | later
    · obtain same := List.mem_singleton.mp first
      cases same
      exact quiet.elim
    · exact ⟨state, argv, later, passed⟩
  · rintro ⟨state, argv, member, passed⟩
    exact ⟨state, argv, List.mem_append_right _ member, passed⟩

/-- A question that fails ends the run. -/
theorem not_mounts_failed {request : HostRequest} {error : Exn} {broker : Broker}
    (failed : surroundings.answer broker.log request = .error error)
    (quiet : RunsNothing (.host request)) (next : request.Answer → Prog α) (image : Str) :
    ¬ Mounts surroundings (host request >>= next) broker image := by
  have alone : issued surroundings.handler (host request) broker = [(broker, .host request)] :=
    issued_perform _ _ _
  rintro ⟨state, argv, member, _⟩
  rcases (mem_issued_bind _).mp member with first | ⟨answer, middle, answered, _⟩
  · rw [alone] at first
    cases List.mem_singleton.mp first
    exact quiet.elim
  · rw [run_asked surroundings failed] at answered
    cases answered

/-- A command passes its images, and nothing else does when no command follows. -/
theorem mounts_run {argv : List Str} {next : Finished → Prog α}
    (quiet : ∀ result, @Issues brokering Exn α RunsNothing (next result)) (broker : Broker)
    (image : Str) :
    Mounts surroundings (do
      let result : Finished ← host (.run argv)
      next result) broker image ↔ image ∈ mountedImages argv := by
  have alone : issued surroundings.handler (host (.run argv)) broker =
    [(broker, .host (.run argv))] := issued_perform _ _ _
  constructor
  · rintro ⟨state, others, member, passed⟩
    rcases (mem_issued_bind _).mp member with first | ⟨result, middle, _, later⟩
    · rw [alone] at first
      cases List.mem_singleton.mp first
      exact passed
    · exact (issues_issued (quiet result) middle _ later).elim
  · intro passed
    refine ⟨broker, argv, (mem_issued_bind _).mpr (Or.inl ?_), passed⟩
    rw [alone]
    exact List.mem_singleton_self _

/-- The images among the arguments are the disks that the command is built from. -/
theorem attached_disks (disks : List Str) (guest : Str) :
    attached (disks.flatMap (fun disk => [str "-a", disk]) ++ [str "-i", guest]) = disks := by
  induction disks with
  | nil =>
    have other : str "-i" ≠ str "-a" := by decide
    simp [attached, other]
  | cons disk rest inductionHypothesis =>
    simpa [attached] using inductionHypothesis

end Mounting

section Selection

variable (lower : Str → Str) (host : Host Reading) (surroundings : Surroundings)

/-- A host that answers about its files as its tree has them. -/
structure Follows : Prop where
  which : ∀ log command, ∃ found, surroundings.answer log (.which command) = .ok found
  present : ∀ log path, surroundings.answer log (.present path) = .ok (host.present path)
  diskImages : ∀ log source,
    surroundings.answer log (.diskImages source) = discoverDiskImages lower host source

variable (settings : Settings) (point : FilledPoint) (root snapshot : Path)

/-- The images that the search selects below the source of a point. -/
def Selects (image : Path) : Prop :=
  ∃ source found, sourceInsideSnapshot snapshot point.source_path = .ok source ∧
    discoverDiskImages lower host source = .ok found ∧
    ∃ names ∈ found.take settings.max_disks, image = source.below names

/-- Every image that is passed to the guest's mount lies inside the snapshot. -/
def Contained (broker : Broker) : Prop :=
  ∀ image, Mounts surroundings (mountFrom settings point root snapshot) broker image →
    host.Inside snapshot (PurePath.parse image)

variable {lower host surroundings}

/-- What the scan finds is a file, named without going up. -/
theorem scanned_file {source : Path} {names : List (Component CodePoint)}
    (member : names ∈ scanned lower host source) :
    host.isFile (source.below names) = true ∧ ∃ plain : List Name,
      names = plain.map Name.component := by
  unfold scanned at member
  split at member
  · cases member
  · obtain ⟨plain, kept, rfl⟩ := List.mem_map.mp member
    have file := (List.mem_filter.mp kept).2
    rw [Bool.and_eq_true] at file
    exact ⟨file.1, plain, rfl⟩

/-- A declared item names a file without going up. -/
theorem declaredFile_file {source : Path} {item : Json} {names : List (Component CodePoint)}
    (chosen : declaredFile host source item = some names) :
    host.isFile (source.below names) = true ∧ ∃ plain : List Name,
      names = plain.map Name.component := by
  unfold declaredFile at chosen
  dsimp only at chosen
  generalize (match item with
    | .obj fields => (Dict.get? fields "path").getD .null
    | other => other) = raw at chosen
  split at chosen
  · cases chosen
  · split at chosen
    · cases chosen
    · rename_i allowed
      obtain ⟨relative, descending⟩ := not_or.mp allowed
      split at chosen
      · rename_i file
        obtain rfl := Option.some.inj chosen
        refine ⟨file, exists_names fun component member same => descending ?_⟩
        have bare : (PurePath.parse (str raw.toText)).root = .relative := not_not.mp relative
        rw [PurePath.parts, bare]
        exact List.mem_map.mpr ⟨component, member, same⟩
      · cases chosen

/-- And so is what the layout declares. -/
theorem declared_file {source : Path} {named : List (List (Component CodePoint))}
    (read : declared host source = .ok named) {names : List (Component CodePoint)}
    (member : names ∈ named) :
    host.isFile (source.below names) = true ∧ ∃ plain : List Name,
      names = plain.map Name.component := by
  unfold declared at read
  split at read
  · rename_i value _
    cases items : declaredItems value with
    | error error =>
      rw [items] at read
      cases read
    | ok listed =>
      rw [items] at read
      cases read
      obtain ⟨item, _, chosen⟩ := List.mem_filterMap.mp member
      exact declaredFile_file chosen
  · cases read
  · cases read
    cases member

/-- What the search finds is a file, named without going up. -/
theorem discovered_file {source : Path} {found : List (List (Component CodePoint))}
    (searched : discoverDiskImages lower host source = .ok found)
    {names : List (Component CodePoint)} (member : names ∈ found) :
    host.isFile (source.below names) = true ∧ ∃ plain : List Name,
      names = plain.map Name.component := by
  unfold discoverDiskImages at searched
  cases read : declared host source with
  | error error =>
    rw [read] at searched
    cases searched
  | ok named =>
    rw [read] at searched
    cases searched
    rw [List.mem_insertionSort, List.mem_dedup, List.mem_append] at member
    rcases member with scan | layout
    · exact scanned_file scan
    · exact declared_file read layout

/-- The mount of a guest passes the disks it is given. -/
theorem mounts_mountGuest (follows : Follows lower host surroundings) (disks : List Str)
    (guest : Path) (broker : Broker) (image : Str) {α : Type} {next : Prog α}
    (quiet : @Issues brokering Exn α RunsNothing next) :
    Mounts surroundings (do
      mountGuest disks guest
      next) broker image ↔ image ∈ disks := by
  obtain ⟨guestmount, installed⟩ := follows.which broker.log "guestmount"
  simp only [mountGuest, bind_assoc]
  rw [mounts_ask installed trivial, mounts_run]
  · have arguments : mountedImages ([guestmount.getD (str "guestmount"), str "--ro"] ++
        disks.flatMap (fun disk => [str "-a", disk]) ++ [str "-i", guest.format]) = disks := by
      simpa [mountedImages] using attached_disks disks guest.format
    rw [arguments]
  · intro result
    split
    · exact issues_bind (issues_throw _) fun _ => quiet
    · exact issues_bind (issues_pure _) fun _ => quiet

/-- What a session passes to the guest's mount is what the search selects. -/
theorem mounts_iff_selects (follows : Follows lower host surroundings) (broker : Broker)
    (image : Str) :
    Mounts surroundings (mountFrom settings point root snapshot) broker image ↔
      ∃ path, Selects lower host settings point snapshot path ∧ image = path.format := by
  unfold mountFrom
  cases inside : sourceInsideSnapshot snapshot point.source_path with
  | error error =>
    refine ⟨fun mounts => absurd mounts (not_mounts_of_quiet (by trivial) _ _), ?_⟩
    rintro ⟨_, ⟨source, found, accepted, _⟩, _⟩
    rw [inside] at accepted
    cases accepted
  | ok source =>
    -- what is selected is selected below this source
    have selected : ∀ path, Selects lower host settings point snapshot path ↔ ∃ found,
        discoverDiskImages lower host source = .ok found ∧
          ∃ names ∈ found.take settings.max_disks, path = source.below names := by
      intro path
      constructor
      · rintro ⟨other, found, accepted, searched⟩
        rw [inside] at accepted
        cases accepted
        exact ⟨found, searched⟩
      · rintro ⟨found, searched⟩
        exact ⟨source, found, inside, searched⟩
    simp only [selected]
    rw [raised_ok, pure_bind, mounts_ask (follows.present _ _) trivial]
    by_cases present : host.present source = true
    · simp only [present, not_true_eq_false, if_false]
      cases searched : discoverDiskImages lower host source with
      | error error =>
        refine ⟨fun mounts => absurd mounts
          (not_mounts_failed ((follows.diskImages _ _).trans searched) trivial _ _), ?_⟩
        rintro ⟨_, ⟨found, accepted, _⟩, _⟩
        cases accepted
      | ok found =>
        rw [mounts_ask ((follows.diskImages _ _).trans searched) trivial]
        dsimp only
        split
        · rename_i empty
          refine ⟨fun mounts => absurd mounts (not_mounts_of_quiet ?_ _ _), ?_⟩
          · refine issues_bind ((issues_perform _).mpr trivial) fun layout => ?_
            split <;> exact issues_throw _
          · rintro ⟨_, ⟨other, same, names, member, _⟩, _⟩
            cases same
            rw [empty] at member
            cases member
        · rw [mounts_mountGuest follows]
          · constructor
            · intro passed
              obtain ⟨names, member, rfl⟩ := List.mem_map.mp passed
              exact ⟨_, ⟨found, rfl, names, member, rfl⟩, rfl⟩
            · rintro ⟨path, ⟨other, same, names, member, rfl⟩, rfl⟩
              cases same
              exact List.mem_map_of_mem member
          · refine issues_bind ((issues_perform _).mpr trivial) fun browsable => ?_
            split
            · exact issues_throw _
            · exact issues_pure _
    · rw [if_pos present]
      refine ⟨fun mounts => absurd mounts (not_mounts_of_quiet (by trivial) _ _), ?_⟩
      rintro ⟨_, ⟨found, searched, names, member, _⟩, _⟩
      obtain ⟨file, _⟩ := discovered_file searched (List.mem_of_mem_take member)
      exact absurd (Host.present_of_below (Host.present_of_isFile file)) present

/-- A source that is accepted does not go up, and is joined to the snapshot part by part. -/
theorem source_accepted {source_path : Str} {source : Path}
    (accepted : sourceInsideSnapshot snapshot source_path = .ok source) :
    let parts := (if (PurePath.parse source_path).root = .double then [str "//"] else []) ++
      (PurePath.parse source_path).tail.map Subtype.val
    str ".." ∉ parts ∧ source = parts.foldl PurePath.joinpath snapshot := by
  intro parts
  simp only [sourceInsideSnapshot, filter_parts] at accepted
  by_cases upward : str ".." ∈ parts
  · rw [if_pos upward] at accepted
    cases accepted
  · rw [if_neg upward] at accepted
    exact ⟨upward, (Except.ok.inj accepted).symm⟩

/-- A source whose text does not begin with exactly two slashes is named below the
snapshot, without going up. -/
theorem source_below {source_path : Str} {source : Path}
    (accepted : sourceInsideSnapshot snapshot source_path = .ok source)
    (rooted : (PurePath.parse source_path).root ≠ .double) :
    ∃ plain : List Name, source = snapshot.below (plain.map Name.component) := by
  obtain ⟨descending, joined⟩ := source_accepted snapshot accepted
  rw [if_neg rooted, List.nil_append] at descending joined
  obtain ⟨plain, named⟩ := exists_names fun component member same =>
    descending (List.mem_map.mpr ⟨component, member, same⟩)
  rw [PurePath.foldl_joinpath, named] at joined
  exact ⟨plain, joined⟩

end Selection

section Examples

/-- A host whose file system does not change. -/
def hosting (lower : Str → Str) (host : Host Reading) : Surroundings where
  clock := fun _ => 0
  answer := fun log request => match request with
    | .which command => .ok (some (str command))
    | .present path => .ok (host.present path)
    | .diskImages source => discoverDiskImages lower host source
    | other => obliging.answer log other

theorem follows_hosting (lower : Str → Str) (host : Host Reading) :
    Follows lower host (hosting lower host) :=
  ⟨fun _ command => ⟨some (str command), rfl⟩, fun _ _ => rfl, fun _ _ => rfl⟩

/-- A directory with the listed entries. -/
def folder (entries : List (Name × Node Name Reading)) : Node Name Reading :=
  .directory (entries.map Prod.fst) fun name =>
    ((entries.find? fun entry => entry.1 = name).map Prod.snd).getD (.file .unreadable)

/-- A snapshot with one entry named like a disk image, on a host with a disk of its own. -/
def vault (image : Node Name Reading) : Host Reading where
  tree := folder [
    (⟨str "snap", by decide⟩, folder [(⟨str "disk.img", by decide⟩, image)]),
    (⟨str "dev", by decide⟩, folder [(⟨str "host.img", by decide⟩, .file .unreadable)])]

/-- A point with a source path. -/
def sourced (source_path : String) : FilledPoint :=
  ⟨str "4f1c", str "pve", str "web", str source_path⟩

/-- Where the snapshot is, and where the session is. -/
def snapshotPath : Path := PurePath.parse (str "/snap")

def sessionPath : Path := PurePath.parse (str "/srv/flr/5e55")

theorem linkFree_folder {entries : List (Name × Node Name Reading)}
    (free : ∀ entry ∈ entries, entry.2.LinkFree) : (folder entries).LinkFree := by
  intro name _
  dsimp only
  cases found : entries.find? fun entry => entry.1 = name with
  | none => exact trivial
  | some entry => exact free entry (List.mem_of_find?_eq_some found)

/-- What a session of the snapshot mounts lies in the snapshot. -/
def containedOn (host : Host Reading) (source_path : String) : Prop :=
  Contained host (hosting id host) mounting (sourced source_path) sessionPath snapshotPath {}

end Examples

end Immutavault.DiskImages
