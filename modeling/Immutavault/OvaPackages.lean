import Mathlib.Data.List.Infix
import Mathlib.Data.List.Sort
import Immutavault.ElementTrees
import Immutavault.HostTrees
import Immutavault.LooseValues
import Immutavault.UstarArchives

/-!
# Packaging a restored VMware guest

The built-in conversion packs a restored guest into an archive. The descriptor of the
guest, an OVF document, refers to its files by paths; a manifest may lie beside it. The
descriptor comes first, then the files in the order of the references, then the manifests,
each once and under its plain name.

What the restore has put back is a tree of files, directories and links, with an owner and
a time at every place. How a document is read, as a tree of elements and as a text, and how
a text is lowered are parameters. The directory for the archive lies outside the source.
An empty reference names no file and counts as none.
-/

namespace Immutavault.OvaPackages

open Values PosixPaths GuestFiles LinkedTrees HostTrees ElementTrees UstarArchives
open SessionOwnership (printed)

instance : Namespaced CodePoint := ⟨125⟩

/-- What parsing a document gives. -/
inductive Parsed where
  | tree (root : Element CodePoint)
  | malformed
  | raising (error : Exn)

/-- An ASCII character in lower case. -/
def lowerPoint (point : CodePoint) : CodePoint :=
  if 65 ≤ point.val ∧ point.val ≤ 90 then point + 32 else point

/-- How the bytes of a file are measured and read, and how a text is lowered: an ASCII
text character by character. -/
structure Reader (δ : Type) where
  size : δ → Nat
  parse : δ → Parsed
  text : δ → Str
  lower : Str → Str
  lower_ascii : ∀ text, (∀ point ∈ text, point.val < 128) → lower text = text.map lowerPoint

/-- The limits of a conversion, each within the bounds that loading a configuration checks. -/
structure Limits where
  max_disks : Nat := 16
  max_virtual_bytes : Nat := 64 * 1024 * 1024 * 1024 * 1024
  allow_uefi : Bool := true
  allow_secure_boot : Bool := false
  disks_bounded : 1 ≤ max_disks ∧ max_disks ≤ 64 := by decide
  bytes_bounded : 1024 * 1024 * 1024 ≤ max_virtual_bytes ∧
    max_virtual_bytes ≤ 1024 * 1024 * 1024 * 1024 * 1024 := by decide

/-- The limits of a configuration that names none. -/
def defaultLimits : Limits := {}

/-- Whom an entry belongs to, and when it was changed, in whole seconds. -/
structure Ownership where
  uid : Nat := 0
  gid : Nat := 0
  mtime : Int := 0

/-- A restored directory: its path, what stands there, and the ownership of every place
below it. -/
structure Source (δ : Type) where
  path : Path
  node : Option (Node Name δ)
  owner : List Name → Ownership

/-- What the conversion learns from the descriptor beside the files. -/
inductive Hint where
  | uefi
  | bios
  | unknown
  deriving DecidableEq, Repr

structure Flags where
  secure_boot : Bool
  source_tpm : Bool
  firmware_hint : Hint
  source_networks : List Str

/-- A guest below a source: the place and the name of its descriptor, and the descriptor
with its reading. -/
structure Guest (δ : Type) where
  top : Node Name δ
  place : List Name
  ovf : Name
  document : δ
  root : Element CodePoint

section Texts

/-- The suffix of a file name: its last dot and what follows, when a name stands before
the dot and something after it. -/
def suffix (name : Str) : Str :=
  let extension := (name.reverse.takeWhile (· ≠ Alphabet.dot)).reverse
  if extension = [] ∨ name.length ≤ extension.length + 1 then [] else Alphabet.dot :: extension

/-- A text contains a word. -/
def contains (text : Str) (word : String) : Bool := decide (str word <:+: text)

/-- The bytes of a character in a file name. A lone surrogate stands for one byte. -/
def width (point : CodePoint) : Nat :=
  if point.val < 128 ∨ 56448 ≤ point.val ∧ point.val < 56576 then 1
  else if point.val < 2048 then 2
  else if point.val < 65536 then 3
  else 4

/-- The bytes of a file name. -/
def nameLength (name : Name) : Nat := name.val.foldl (fun total point => total + width point) 0

end Texts

variable {δ : Type}

/-- An entry is a symbolic link. -/
def isSymlink : Node Name δ → Bool
  | .symlink _ => true
  | _ => false

/-- The names in a directory. -/
def listing : Node Name δ → List Name
  | .directory names _ => names
  | _ => []

/-- The source has to be a directory. -/
def directoryOf (source : Source δ) : Except Exn (Node Name δ) :=
  match source.node with
  | some (.directory names child) => .ok (.directory names child)
  | _ => .error ⟨.runtimeError, "VMware V2V source must be a restored recovery-point directory"⟩

/-- No entry below the source may be a link. -/
def refuseLinks (source : Source δ) (top : Node Name δ) : Except Exn Unit :=
  match top.descend.find? fun place => (top.find place).any isSymlink with
  | some place => .error ⟨.runtimeError, "VMware V2V source contains a symlink and is rejected: " ++
      printed (source.path.below (place.map Name.component)).format⟩
  | none => .ok ()

/-- The entries below a directory that are named like a descriptor, each as the place of
its parent and its name. -/
def descriptors (top : Node Name δ) : List (List Name × Name) :=
  top.descend.filterMap fun place => place.getLast?.bind fun name =>
    if str ".ovf" <:+ name.val then some (place.dropLast, name) else none

/-- There has to be exactly one descriptor. -/
def descriptorOf (top : Node Name δ) : Except Exn (List Name × Name) :=
  match descriptors top with
  | [descriptor] => .ok descriptor
  | found => .error ⟨.runtimeError,
      s!"VMware V2V requires exactly one OVF descriptor; found {found.length}"⟩

section Reading

variable (reader : Reader δ)

/-- Read the descriptor. -/
def documentOf : Option (Node Name δ) → Except Exn (δ × Element CodePoint)
  | some (.file document) =>
    match reader.parse document with
    | .tree root => .ok (document, root)
    | .malformed => .error ⟨.runtimeError, "VMware OVF descriptor is malformed"⟩
    | .raising error => .error error
  | _ => .error ⟨.osError, "Is a directory"⟩

theorem proper_component {component : Component CodePoint} (down : component.val ≠ str "..") :
    Proper component.val ∧ component.val ≠ str ".." :=
  ⟨component.property, down⟩

/-- The name that a reference gives, unless its path is absolute, goes up or has not
exactly one part. -/
def referenceName (href : Str) : Option Name :=
  match (PurePath.parse href : Path) with
  | ⟨.relative, [component]⟩ =>
    if up : component.val = str ".." then none else some ⟨component.val, proper_component up⟩
  | _ => none

/-- A new name goes behind the names that were seen. -/
def including (files : List Name) (name : Name) : List Name :=
  if name ∈ files then files else files ++ [name]

/-- Go through the file references of a descriptor. Each names a file that is there. -/
def addReferences (entry : Name → Option (Node Name δ)) :
    List Name → List (Element CodePoint) → Except Exn (List Name)
  | files, [] => .ok files
  | files, reference :: rest =>
    match reference.localAttribute (str "href") with
    | none | some [] => addReferences entry files rest
    | some href =>
      match referenceName href with
      | none => .error ⟨.runtimeError,
          "OVF contains unsafe external file reference: " ++ JsonTexts.Value.reprText href⟩
      | some name =>
        match entry name with
        | some (.file _) => addReferences entry (including files name) rest
        | _ => .error ⟨.runtimeError,
            "OVF referenced file is missing or unsafe: " ++ JsonTexts.Value.reprText href⟩

/-- One of the files has to be a disk. -/
def requireDisk (files : List Name) : Except Exn Unit :=
  if files.any fun name => reader.lower (suffix name.val) = str ".vmdk" then .ok ()
  else .error ⟨.runtimeError, "VMware OVF does not reference a VMDK disk"⟩

/-- The manifests in a directory, in the order of their names. -/
def manifestsIn (folder : Node Name δ) : List Name :=
  ((listing folder).filter fun name => str ".mf" <:+ name.val).insertionSort fun first second =>
    ¬ second.val < first.val

/-- Go through the manifests. One that is a link is left out. -/
def addManifests (entry : Name → Option (Node Name δ)) (files : List Name) (found : List Name) :
    List Name :=
  found.foldl (fun files name => if (entry name).any isSymlink then files else including files name)
    files

namespace Guest

variable (guest : Guest δ)

/-- What stands under a name beside the descriptor. -/
def entry (name : Name) : Option (Node Name δ) := guest.top.find (guest.place ++ [name])

/-- The manifests beside the descriptor. -/
def manifests : List Name := ((guest.top.find guest.place).map manifestsIn).getD []

/-- The networks that the descriptor defines, each once. -/
def networks : List Str :=
  (guest.root.findall (str "Network")).foldl (fun names network =>
    match network.localAttribute (str "name") with
    | none | some [] => names
    | some name => if name ∈ names then names else names ++ [name]) []

def flags : Flags :=
  let text := reader.lower (reader.text guest.document)
  { secure_boot := (contains text "secureboot" || contains text "secure boot") &&
      (contains text "true" || contains text "enabled")
    source_tpm := contains text "virtualtpm" || contains text "vtpm" ||
      contains text "trustedplatformmodule"
    firmware_hint := if contains text "firmware" && contains text "efi" then .uefi else .bios
    source_networks := guest.networks }

end Guest

/-- Choose the files of a guest, in the order of the archive. -/
def packageOf (source : Source δ) : Except Exn (Guest δ × List Name) := do
  let top ← directoryOf source
  refuseLinks source top
  let (place, ovf) ← descriptorOf top
  let (document, root) ← documentOf reader (top.find (place ++ [ovf]))
  let guest : Guest δ := ⟨top, place, ovf, document, root⟩
  let referenced ← addReferences guest.entry [ovf] (root.findall (str "File"))
  requireDisk reader referenced
  .ok (guest, addManifests guest.entry referenced guest.manifests)

/-- What the header of an entry records. -/
def statusOf (owner : Ownership) : Option (Node Name δ) → Status
  | some (.file contents) => ⟨.regular (reader.size contents), owner.uid, owner.gid, owner.mtime⟩
  | _ => ⟨.directory, owner.uid, owner.gid, owner.mtime⟩

/-- The bytes of an entry that is a file. -/
def contentsOf : Option (Node Name δ) → Option δ
  | some (.file contents) => some contents
  | _ => none

/-- The member that an entry becomes. -/
def memberOf (source : Source δ) (guest : Guest δ) (name : Name) : Member Name δ :=
  ⟨name, statusOf reader (source.owner (guest.place ++ [name])) (guest.entry name),
    contentsOf (guest.entry name)⟩

/-- How a header that cannot be written is reported. -/
def Refusal.exception : Refusal → Exn
  | .nameTooLong => ⟨.valueError, "name is too long"⟩
  | .overflow => ⟨.valueError, "overflow in number field"⟩

/-- Write the archive: the descriptor, then every other file. -/
def archiveOf (source : Source δ) (guest : Guest δ) (files : List Name) :
    Except Exn (List (Member Name δ)) :=
  (addAll nameLength [] ((guest.ovf :: files.filter (· ≠ guest.ovf)).map
    (memberOf reader source guest))).mapError Refusal.exception

/-- Pack a restored guest. -/
def prepareOva (source : Source δ) : Except Exn (List (Member Name δ) × Flags) := do
  let (guest, files) ← packageOf reader source
  let archive ← archiveOf reader source guest files
  .ok (archive, guest.flags reader)

/-- The stripped text of the first child with a local name, unless it is empty. -/
def childText (suffix : String) (node : Element CodePoint) : Option Str :=
  (node.children.find? fun child => Element.isLocal (str suffix) child.tag).bind fun child =>
    let value := strip (child.text.getD [])
    if value = [] then none else some value

/-- The networks to which the network cards of a descriptor are connected, in their order. -/
def connections : List (Element CodePoint) → Except Exn (List Str)
  | [] => .ok []
  | item :: rest =>
    if childText "ResourceType" item ≠ some (str "10") then connections rest
    else match childText "Connection" item with
      | none => .error ⟨.runtimeError,
          "OVF NIC is missing an explicit Connection; refusing ambiguous network remap"⟩
      | some connection => do .ok (connection :: (← connections rest))

/-- The firmware for which the words of a descriptor speak. -/
def evidence (text : Str) : Hint :=
  if contains text "uefi" || contains text "efi" then .uefi
  else if contains text "bios" || contains text "legacy" then .bios
  else .unknown

/-- Read the descriptor again. A descriptor that is not the only one or is malformed gives
nothing more. -/
def reread (source : Source δ) : Except Exn (Option (δ × Element CodePoint)) :=
  match ((source.node.map descriptors).getD []) with
  | [(place, ovf)] =>
    match source.node.bind (·.find (place ++ [ovf])) with
    | some (.file document) =>
      match reader.parse document with
      | .tree root => .ok (some (document, root))
      | .malformed => .ok none
      | .raising error => .error error
    | _ => .error ⟨.osError, "Is a directory"⟩
  | _ => .ok none

/-- Pack a restored guest, and take the networks of its cards and the firmware from the
descriptor. -/
def certifiedPrepareOva (source : Source δ) : Except Exn (List (Member Name δ) × Flags) := do
  let (archive, flags) ← prepareOva reader source
  match ← reread reader source with
  | none => .ok (archive, flags)
  | some (document, root) =>
    let connected ← connections (root.findall (str "Item"))
    .ok (archive, { flags with
      source_networks := if connected = [] then flags.source_networks else connected
      firmware_hint := evidence (reader.lower (reader.text document)) })

end Reading

section Choosing

variable {reader : Reader δ} {source : Source δ} {top : Node Name δ}

theorem directoryOf_eq_ok_iff : directoryOf source = .ok top ↔
    source.node = some top ∧ ∃ names child, top = .directory names child := by
  unfold directoryOf
  split
  · rename_i names child stands
    rw [stands, Except.ok.injEq, Option.some.injEq]
    exact ⟨fun same => ⟨same, names, child, same.symm⟩, And.left⟩
  · rename_i other
    constructor
    · intro impossible
      cases impossible
    · rintro ⟨stands, names, child, rfl⟩
      exact absurd stands (other names child)

/-- A tree passes the search for links when no place below it holds one. -/
theorem refuseLinks_eq_ok_iff : refuseLinks source top = .ok () ↔
    ∀ place ≠ [], ∀ target, top.find place ≠ some (.symlink target) := by
  have clean : (top.descend.find? fun place => (top.find place).any isSymlink) = none ↔
      ∀ place ≠ [], ∀ target, top.find place ≠ some (.symlink target) := by
    rw [List.find?_eq_none]
    constructor
    · intro free place filled target linked
      exact free place (Node.mem_descend.mpr ⟨filled, _, linked⟩) (by rw [linked]; rfl)
    · intro free place member linked
      obtain ⟨there, stands, link⟩ := (Option.any_eq_true _ _).mp linked
      cases there with
      | symlink target => exact free place (Node.mem_descend.mp member).1 target stands
      | _ => cases link
  rw [← clean, refuseLinks]
  cases top.descend.find? fun place => (top.find place).any isSymlink with
  | none => exact ⟨fun _ => rfl, fun _ => rfl⟩
  | some place => exact ⟨fun impossible => (by cases impossible), fun impossible => (by cases impossible)⟩

/-- The descriptors are the entries below the source that are named like one. -/
theorem mem_descriptors {place : List Name} {name : Name} : (place, name) ∈ descriptors top ↔
    str ".ovf" <:+ name.val ∧ ∃ there, top.find (place ++ [name]) = some there := by
  simp only [descriptors, List.mem_filterMap, Option.bind_eq_some_iff]
  constructor
  · rintro ⟨whole, member, last, ends, kept⟩
    split at kept
    · rename_i named
      obtain ⟨rfl, rfl⟩ := Prod.mk.inj (Option.some.inj kept)
      have parts : whole.dropLast ++ [last] = whole := by
        obtain ⟨filled, same⟩ := List.getLast?_eq_some_iff.mp ends
        simp [same]
      rw [parts]
      exact ⟨named, (Node.mem_descend.mp member).2⟩
    · cases kept
  · rintro ⟨named, stands⟩
    refine ⟨place ++ [name], Node.mem_descend.mpr ⟨by simp, stands⟩, name, by simp, ?_⟩
    simp [named]

theorem descriptorOf_eq_ok_iff {descriptor : List Name × Name} :
    descriptorOf top = .ok descriptor ↔ descriptors top = [descriptor] := by
  unfold descriptorOf
  split
  · rename_i only single
    rw [single, Except.ok.injEq, List.cons.injEq]
    exact ⟨fun same => ⟨same, rfl⟩, And.left⟩
  · rename_i several
    constructor
    · intro impossible
      cases impossible
    · intro single
      exact absurd single (several descriptor)

theorem documentOf_eq_ok_iff {node : Option (Node Name δ)} {document : δ}
    {root : Element CodePoint} : documentOf reader node = .ok (document, root) ↔
      node = some (.file document) ∧ reader.parse document = .tree root := by
  unfold documentOf
  split
  · rename_i found
    rw [Option.some.injEq, Node.file.injEq]
    split
    · rename_i tree parsed
      constructor
      · intro same
        obtain ⟨rfl, rfl⟩ := Prod.mk.inj (Except.ok.inj same)
        exact ⟨rfl, parsed⟩
      · rintro ⟨rfl, same⟩
        rw [parsed] at same
        rw [Parsed.tree.inj same]
    · rename_i broken
      constructor
      · intro impossible
        cases impossible
      · rintro ⟨rfl, same⟩
        rw [broken] at same
        cases same
    · rename_i broken
      constructor
      · intro impossible
        cases impossible
      · rintro ⟨rfl, same⟩
        rw [broken] at same
        cases same
  · rename_i other
    constructor
    · intro impossible
      cases impossible
    · rintro ⟨file, _⟩
      exact absurd file (other document)

end Choosing

section Names

/-- The names that are included one after another. -/
theorem mem_foldl_including {name : Name} {files names : List Name} :
    name ∈ names.foldl including files ↔ name ∈ files ∨ name ∈ names := by
  induction names generalizing files with
  | nil => simp
  | cons first rest inductionHypothesis =>
    have here : name ∈ including files first ↔ name ∈ files ∨ name = first := by
      unfold including
      split
      · rename_i seen
        exact ⟨.inl, fun either => either.elim id (fun same => same ▸ seen)⟩
      · simp
    rw [List.foldl_cons, inductionHypothesis, here, List.mem_cons, or_assoc]

/-- Names are included once. -/
theorem nodup_foldl_including {files names : List Name} (distinct : files.Nodup) :
    (names.foldl including files).Nodup := by
  induction names generalizing files with
  | nil => exact distinct
  | cons first rest inductionHypothesis =>
    refine inductionHypothesis ?_
    unfold including
    split
    · exact distinct
    · rename_i fresh
      exact distinct.append (List.nodup_singleton first) (by simpa using fresh)

/-- The first name stays the first. -/
theorem foldl_including_cons {first : Name} {files names : List Name} :
    ∃ rest, names.foldl including (first :: files) = first :: rest := by
  induction names generalizing files with
  | nil => exact ⟨files, rfl⟩
  | cons name rest inductionHypothesis =>
    rw [List.foldl_cons]
    unfold including
    split
    · exact inductionHypothesis
    · exact @inductionHypothesis (files ++ [name])

end Names

section References

/-- What a reference says, unless it says nothing. -/
def hrefOf (reference : Element CodePoint) : Option Str :=
  (reference.localAttribute (str "href")).filter (· ≠ [])

/-- A document refers to something in a file element. -/
def Refers (root : Element CodePoint) (href : Str) : Prop :=
  ∃ reference, Element.Descendant root reference ∧
    Element.isLocal (str "File") reference.tag = true ∧
    reference.localAttribute (str "href") = some href ∧ href ≠ []

/-- What a document refers to, in its order. -/
def hrefs (root : Element CodePoint) : List Str := (root.findall (str "File")).filterMap hrefOf

theorem mem_hrefs {root : Element CodePoint} {href : Str} :
    href ∈ hrefs root ↔ Refers root href := by
  simp only [hrefs, List.mem_filterMap, Element.mem_findall, hrefOf, Option.filter_eq_some_iff,
    decide_eq_true_eq]
  exact exists_congr fun reference => and_assoc

/-- A reference names a file beside the descriptor. -/
def Sound (entry : Name → Option (Node Name δ)) (href : Str) : Prop :=
  ∃ name contents, referenceName href = some name ∧ entry name = some (.file contents)

/-- References are accepted when each of them is sound, and their names are then included
in their order. -/
theorem addReferences_eq_ok_iff {entry : Name → Option (Node Name δ)}
    {references : List (Element CodePoint)} {files result : List Name} :
    addReferences entry files references = .ok result ↔
      (∀ href ∈ references.filterMap hrefOf, Sound entry href) ∧
        result = ((references.filterMap hrefOf).filterMap referenceName).foldl including files := by
  induction references generalizing files with
  | nil => simp [addReferences, eq_comm]
  | cons reference rest inductionHypothesis =>
    rw [addReferences]
    split
    · rename_i silent
      have nothing : hrefOf reference = none := by simp [hrefOf, silent]
      rw [List.filterMap_cons_none nothing]
      exact inductionHypothesis
    · rename_i silent
      have nothing : hrefOf reference = none := by simp [hrefOf, silent]
      rw [List.filterMap_cons_none nothing]
      exact inductionHypothesis
    · rename_i href filled said
      have given : hrefOf reference = some href := by
        rw [hrefOf, said, Option.filter_eq_some_iff]
        exact ⟨rfl, decide_eq_true filled⟩
      rw [List.filterMap_cons_some given, List.forall_mem_cons]
      cases named : referenceName href with
      | none =>
        constructor
        · intro impossible
          cases impossible
        · rintro ⟨⟨⟨name, contents, given, _⟩, _⟩, _⟩
          rw [named] at given
          cases given
      | some name =>
        rw [List.filterMap_cons_some named, List.foldl_cons]
        dsimp only
        split
        · rename_i contents stands
          have sound : Sound entry href := ⟨name, contents, named, stands⟩
          rw [inductionHypothesis]
          exact and_congr_left' ⟨fun others => ⟨sound, others⟩, And.right⟩
        · rename_i missing
          constructor
          · intro impossible
            cases impossible
          · rintro ⟨⟨⟨other, contents, given, stands⟩, _⟩, _⟩
            rw [named] at given
            obtain rfl := Option.some.inj given
            exact absurd stands (missing contents)

end References

section Accepting

/-- The files of a guest, in the order of the archive. -/
def Guest.files (guest : Guest δ) : List Name :=
  ((hrefs guest.root).filterMap referenceName ++
    guest.manifests.filter fun name => !(guest.entry name).any isSymlink).foldl including [guest.ovf]

/-- What packaging requires of a source: no link below it, one descriptor, which can be
parsed and whose references are names of files beside it, and among them a disk. -/
structure Accepted (reader : Reader δ) (source : Source δ) (guest : Guest δ) : Prop where
  directory : source.node = some guest.top ∧ ∃ names child, guest.top = .directory names child
  unlinked : ∀ place ≠ [], ∀ target, guest.top.find place ≠ some (.symlink target)
  single : descriptors guest.top = [(guest.place, guest.ovf)]
  written : guest.entry guest.ovf = some (.file guest.document)
  parsed : reader.parse guest.document = .tree guest.root
  sound : ∀ href, Refers guest.root href → Sound guest.entry href
  disk : ∃ href name, Refers guest.root href ∧ referenceName href = some name ∧
    reader.lower (suffix name.val) = str ".vmdk"

/-- The names that belong into the archive of a guest. -/
inductive Chosen (guest : Guest δ) : Name → Prop
  | descriptor : Chosen guest guest.ovf
  | reference {href : Str} {name : Name} (refers : Refers guest.root href)
      (named : referenceName href = some name) : Chosen guest name
  | manifest {folder : Node Name δ} {name : Name} (stands : guest.top.find guest.place = some folder)
      (listed : name ∈ listing folder) (named : str ".mf" <:+ name.val)
      (unlinked : (guest.entry name).any isSymlink = false) : Chosen guest name

variable {reader : Reader δ} {source : Source δ} {guest : Guest δ}

theorem mem_manifests {name : Name} : name ∈ guest.manifests ↔
    ∃ folder, guest.top.find guest.place = some folder ∧ name ∈ listing folder ∧
      str ".mf" <:+ name.val := by
  unfold Guest.manifests
  cases guest.top.find guest.place with
  | none => simp
  | some folder =>
    simp only [Option.map_some, Option.getD_some, manifestsIn, List.mem_insertionSort,
      List.mem_filter, decide_eq_true_eq, Option.some.injEq, exists_eq_left']

/-- The files of a guest are the names that belong into its archive. -/
theorem mem_files {name : Name} : name ∈ guest.files ↔ Chosen guest name := by
  rw [Guest.files, mem_foldl_including, List.mem_singleton, List.mem_append, List.mem_filterMap,
    List.mem_filter, mem_manifests]
  constructor
  · rintro (rfl | ⟨href, refers, named⟩ | ⟨⟨folder, stands, listed, named⟩, unlinked⟩)
    · exact .descriptor
    · exact .reference (mem_hrefs.mp refers) named
    · exact .manifest stands listed named (by simpa using unlinked)
  · intro chosen
    cases chosen with
    | descriptor => exact .inl rfl
    | reference refers named => exact .inr (.inl ⟨_, mem_hrefs.mpr refers, named⟩)
    | manifest stands listed named unlinked =>
      exact .inr (.inr ⟨⟨_, stands, listed, named⟩, by simp [unlinked]⟩)

theorem nodup_files : guest.files.Nodup := nodup_foldl_including (List.nodup_singleton guest.ovf)

theorem files_cons : ∃ rest, guest.files = guest.ovf :: rest := foldl_including_cons

/-- The archive's order is the order of the files. -/
theorem descriptor_first : guest.ovf :: guest.files.filter (· ≠ guest.ovf) = guest.files := by
  obtain ⟨rest, same⟩ : ∃ rest, guest.files = guest.ovf :: rest := files_cons
  have fresh : guest.ovf ∉ rest := by
    have distinct : guest.files.Nodup := nodup_files
    rw [same] at distinct
    exact (List.nodup_cons.mp distinct).1
  have others : rest.filter (· ≠ guest.ovf) = rest := by
    refine List.filter_eq_self.mpr fun name member => decide_eq_true fun repeated => ?_
    exact fresh (repeated ▸ member)
  rw [same, List.filter_cons_of_neg (by simp), others]

/-- The suffix of a descriptor is not that of a disk. -/
theorem suffix_descriptor {name : Str} (named : str ".ovf" <:+ name) :
    reader.lower (suffix name) ≠ str ".vmdk" := by
  obtain ⟨stem, rfl⟩ := named
  have extension : ((stem ++ str ".ovf").reverse.takeWhile (· ≠ Alphabet.dot)).reverse =
      str "ovf" := by
    rw [List.reverse_append]
    rfl
  have ends : suffix (stem ++ str ".ovf") = [] ∨ suffix (stem ++ str ".ovf") = str ".ovf" := by
    unfold suffix
    simp only [extension]
    split
    · exact .inl rfl
    · exact .inr rfl
  rcases ends with empty | full
  · rw [empty, reader.lower_ascii [] (by simp)]
    decide
  · have ascii : (str ".ovf").all (fun point => decide (point.val < 128)) = true := by decide
    rw [full, reader.lower_ascii (str ".ovf") fun point member =>
      of_decide_eq_true (List.all_eq_true.mp ascii point member)]
    decide

/-- Of the files that are seen before the manifests, one is a disk exactly when a
reference names one. -/
theorem requireDisk_eq_ok_iff (named : str ".ovf" <:+ guest.ovf.val) :
    requireDisk reader (((hrefs guest.root).filterMap referenceName).foldl including [guest.ovf]) =
        .ok () ↔
      ∃ href name, Refers guest.root href ∧ referenceName href = some name ∧
        reader.lower (suffix name.val) = str ".vmdk" := by
  have found : (((hrefs guest.root).filterMap referenceName).foldl including [guest.ovf]).any
      (fun name => reader.lower (suffix name.val) = str ".vmdk") = true ↔
      ∃ href name, Refers guest.root href ∧ referenceName href = some name ∧
        reader.lower (suffix name.val) = str ".vmdk" := by
    simp only [List.any_eq_true, mem_foldl_including, List.mem_singleton, List.mem_filterMap,
      mem_hrefs, decide_eq_true_eq]
    constructor
    · rintro ⟨name, rfl | ⟨href, refers, given⟩, disk⟩
      · exact absurd disk (suffix_descriptor named)
      · exact ⟨href, name, refers, given, disk⟩
    · rintro ⟨href, name, refers, given, disk⟩
      exact ⟨name, .inr ⟨href, refers, given⟩, disk⟩
  rw [← found, requireDisk]
  split
  · rename_i disk
    exact ⟨fun _ => disk, fun _ => rfl⟩
  · rename_i diskless
    exact ⟨fun impossible => (by cases impossible), fun disk => absurd disk diskless⟩

theorem addManifests_eq {entry : Name → Option (Node Name δ)} {files found : List Name} :
    addManifests entry files found =
      (found.filter fun name => !(entry name).any isSymlink).foldl including files := by
  unfold addManifests
  induction found generalizing files with
  | nil => rfl
  | cons name rest inductionHypothesis =>
    rw [List.foldl_cons, inductionHypothesis]
    cases linked : (entry name).any isSymlink with
    | true => rw [if_pos rfl, List.filter_cons_of_neg (by simp [linked])]
    | false =>
      rw [if_neg (by simp), List.filter_cons_of_pos (by simp [linked]), List.foldl_cons]

/-- A guest and its files are chosen exactly when the source is accepted with that guest. -/
theorem packageOf_eq_ok_iff {files : List Name} :
    packageOf reader source = .ok (guest, files) ↔
      Accepted reader source guest ∧ files = guest.files := by
  have listed : guest.files = addManifests guest.entry
      (((hrefs guest.root).filterMap referenceName).foldl including [guest.ovf]) guest.manifests := by
    rw [addManifests_eq, Guest.files, List.foldl_append]
  simp only [packageOf, bind_eq_ok]
  constructor
  · rintro ⟨top, isDirectory, _, unlinked, ⟨place, ovf⟩, single, ⟨document, root⟩, written,
      referenced, included, _, disk, finished⟩
    obtain ⟨rfl, rfl⟩ := Prod.mk.inj (Except.ok.inj finished)
    obtain ⟨sound, rfl⟩ := addReferences_eq_ok_iff.mp included
    have only := descriptorOf_eq_ok_iff.mp single
    have named : str ".ovf" <:+ ovf.val :=
      (mem_descriptors.mp (only ▸ List.mem_singleton_self (place, ovf))).1
    obtain ⟨file, parsed⟩ := documentOf_eq_ok_iff.mp written
    refine ⟨⟨directoryOf_eq_ok_iff.mp isDirectory, refuseLinks_eq_ok_iff.mp unlinked, only, file,
      parsed, fun href refers => sound href (mem_hrefs.mpr refers),
      (@requireDisk_eq_ok_iff _ _ ⟨top, place, ovf, document, root⟩ named).mp disk⟩, ?_⟩
    exact listed.symm
  · rintro ⟨accepted, rfl⟩
    have named : str ".ovf" <:+ guest.ovf.val :=
      (mem_descriptors.mp (accepted.single ▸ List.mem_singleton_self (guest.place, guest.ovf))).1
    refine ⟨guest.top, directoryOf_eq_ok_iff.mpr accepted.directory, (),
      refuseLinks_eq_ok_iff.mpr accepted.unlinked, (guest.place, guest.ovf),
      descriptorOf_eq_ok_iff.mpr accepted.single, (guest.document, guest.root),
      documentOf_eq_ok_iff.mpr ⟨accepted.written, accepted.parsed⟩, _,
      addReferences_eq_ok_iff.mpr ⟨fun href member => accepted.sound href (mem_hrefs.mp member), rfl⟩,
      (), (requireDisk_eq_ok_iff named).mpr accepted.disk, ?_⟩
    rw [listed]
    rfl

end Accepting

section Packing

/-- Which manager packs. -/
inductive Manager where
  | builtin
  | certified

def Manager.prepareOva (manager : Manager) (reader : Reader δ) (source : Source δ) :
    Except Exn (List (Member Name δ) × Flags) :=
  match manager with
  | .builtin => OvaPackages.prepareOva reader source
  | .certified => certifiedPrepareOva reader source

/-- The header of what stands under a name has room for it. -/
def Fits (reader : Reader δ) (source : Source δ) (guest : Guest δ) (name : Name) : Prop :=
  Representable (nameLength name)
    (statusOf reader (source.owner (guest.place ++ [name])) (guest.entry name))

/-- An archive holds exactly the files of a guest, each once, the descriptor first; every
member is an entry beside the descriptor that is not a link. -/
structure Packed (guest : Guest δ) (archive : List (Member Name δ)) : Prop where
  first : archive.head?.map (·.name) = some guest.ovf
  distinct : (archive.map (·.name)).Nodup
  complete : ∀ name, name ∈ archive.map (·.name) ↔ Chosen guest name
  contained : ∀ member ∈ archive, ∃ node, guest.entry member.name = some node ∧
    isSymlink node = false ∧ member.contents = contentsOf (some node)

variable {reader : Reader δ} {source : Source δ} {guest : Guest δ}

/-- What is listed in the directory of the descriptor stands beside it. -/
theorem entry_listed {folder : Node Name δ} {name : Name}
    (stands : guest.top.find guest.place = some folder) (listed : name ∈ listing folder) :
    ∃ node, guest.entry name = some node := by
  cases folder with
  | directory names child =>
    have within : name ∈ names := listed
    refine ⟨child name, ?_⟩
    rw [Guest.entry, Node.find_append, stands, Option.bind_some, Node.find, if_pos within,
      Node.find_nil]
  | _ => cases listed

/-- What is chosen stands beside the descriptor and is not a link. -/
theorem Accepted.entry_chosen (accepted : Accepted reader source guest) {name : Name}
    (chosen : Chosen guest name) :
    ∃ node, guest.entry name = some node ∧ isSymlink node = false := by
  cases chosen with
  | descriptor => exact ⟨_, accepted.written, rfl⟩
  | reference refers named =>
    obtain ⟨other, contents, same, stands⟩ := accepted.sound _ refers
    rw [named] at same
    obtain rfl := Option.some.inj same
    exact ⟨_, stands, rfl⟩
  | manifest stands listed _ unlinked =>
    obtain ⟨node, under⟩ := entry_listed stands listed
    exact ⟨node, under, by simpa [under] using unlinked⟩

/-- The archive is written exactly when every header has room. -/
theorem archiveOf_eq_ok_iff {archive : List (Member Name δ)} :
    archiveOf reader source guest guest.files = .ok archive ↔
      (∀ name, Chosen guest name → Fits reader source guest name) ∧
        archive = guest.files.map (memberOf reader source guest) := by
  have written : ∀ result : Except Refusal (List (Member Name δ)),
      result.mapError Refusal.exception = .ok archive ↔ result = .ok archive := by
    intro result
    cases result <;> simp [Except.mapError]
  rw [archiveOf, descriptor_first, written, addAll_eq_ok_iff, List.nil_append,
    List.forall_mem_map]
  exact and_congr_left' (forall_congr' fun name => imp_congr_left mem_files)

/-- Packing succeeds exactly when the source is accepted and every header has room. -/
theorem prepareOva_eq_ok_iff {archive : List (Member Name δ)} {flags : Flags} :
    prepareOva reader source = .ok (archive, flags) ↔
      ∃ guest, Accepted reader source guest ∧
        (∀ name, Chosen guest name → Fits reader source guest name) ∧
        archive = guest.files.map (memberOf reader source guest) ∧ flags = guest.flags reader := by
  simp only [prepareOva, bind_eq_ok]
  constructor
  · rintro ⟨⟨guest, files⟩, chosen, written, packed, finished⟩
    obtain ⟨accepted, rfl⟩ := packageOf_eq_ok_iff.mp chosen
    obtain ⟨rfl, rfl⟩ := Prod.mk.inj (Except.ok.inj finished)
    obtain ⟨fits, rfl⟩ := archiveOf_eq_ok_iff.mp packed
    exact ⟨guest, accepted, fits, rfl, rfl⟩
  · rintro ⟨guest, accepted, fits, rfl, rfl⟩
    exact ⟨(guest, guest.files), packageOf_eq_ok_iff.mpr ⟨accepted, rfl⟩, _,
      archiveOf_eq_ok_iff.mpr ⟨fits, rfl⟩, rfl⟩

/-- The certified manager keeps the archive. -/
theorem prepareOva_of_certified {archive : List (Member Name δ)} {flags : Flags}
    (packed : certifiedPrepareOva reader source = .ok (archive, flags)) :
    ∃ first, prepareOva reader source = .ok (archive, first) := by
  simp only [certifiedPrepareOva, bind_eq_ok] at packed
  obtain ⟨⟨written, first⟩, prepared, again, _, finished⟩ := packed
  cases again with
  | none =>
    obtain ⟨rfl, _⟩ := Prod.mk.inj (Except.ok.inj finished)
    exact ⟨first, prepared⟩
  | some reading =>
    obtain ⟨connected, _, same⟩ := bind_eq_ok.mp finished
    obtain ⟨rfl, _⟩ := Prod.mk.inj (Except.ok.inj same)
    exact ⟨first, prepared⟩

/-- What either manager packs comes from an accepted source. -/
theorem accepted_of_prepared {manager : Manager} {archive : List (Member Name δ)} {flags : Flags}
    (packed : manager.prepareOva reader source = .ok (archive, flags)) :
    ∃ guest, Accepted reader source guest ∧
      archive = guest.files.map (memberOf reader source guest) := by
  have prepared : ∃ first, prepareOva reader source = .ok (archive, first) := by
    cases manager with
    | builtin => exact ⟨flags, packed⟩
    | certified => exact prepareOva_of_certified packed
  obtain ⟨first, prepared⟩ := prepared
  obtain ⟨guest, accepted, _, same, _⟩ := prepareOva_eq_ok_iff.mp prepared
  exact ⟨guest, accepted, same⟩

theorem packed_files (accepted : Accepted reader source guest) :
    Packed guest (guest.files.map (memberOf reader source guest)) := by
  have names : (guest.files.map (memberOf reader source guest)).map (·.name) = guest.files := by
    rw [List.map_map]
    exact List.map_id guest.files
  refine ⟨?_, by rw [names]; exact nodup_files, fun name => by rw [names]; exact mem_files,
    fun member listed => ?_⟩
  · obtain ⟨rest, same⟩ : ∃ rest, guest.files = guest.ovf :: rest := files_cons
    rw [same]
    rfl
  · obtain ⟨name, within, rfl⟩ := List.mem_map.mp listed
    obtain ⟨node, stands, unlinked⟩ := accepted.entry_chosen (mem_files.mp within)
    exact ⟨node, stands, unlinked, by rw [← stands]; rfl⟩

/-- If a manager returns an archive, the source was accepted and the archive holds exactly
the files of its guest. A source that is not accepted is refused. -/
theorem archive_contained_complete (manager : Manager) (reader : Reader δ) (source : Source δ) :
    (∀ archive flags, manager.prepareOva reader source = .ok (archive, flags) →
        ∃ guest, Accepted reader source guest ∧ Packed guest archive) ∧
      ((¬ ∃ guest, Accepted reader source guest) →
        ∃ error, manager.prepareOva reader source = .error error) := by
  constructor
  · intro archive flags packed
    obtain ⟨guest, accepted, rfl⟩ := accepted_of_prepared packed
    exact ⟨guest, accepted, packed_files accepted⟩
  · intro refused
    cases outcome : manager.prepareOva reader source with
    | error error => exact ⟨error, rfl⟩
    | ok result =>
      obtain ⟨guest, accepted, _⟩ := @accepted_of_prepared _ _ _ manager result.1 result.2 outcome
      exact absurd ⟨guest, accepted⟩ refused

/-- What an accepted source packs has a header with room. -/
theorem fits_of_prepared (accepted : Accepted reader source guest)
    {archive : List (Member Name δ)} {flags : Flags}
    (packed : prepareOva reader source = .ok (archive, flags)) {name : Name}
    (chosen : Chosen guest name) : Fits reader source guest name := by
  obtain ⟨other, same, fits, _⟩ := prepareOva_eq_ok_iff.mp packed
  have own := packageOf_eq_ok_iff.mpr ⟨accepted, rfl⟩
  rw [packageOf_eq_ok_iff.mpr ⟨same, rfl⟩] at own
  obtain ⟨rfl, _⟩ := Prod.mk.inj (Except.ok.inj own)
  exact fits name chosen

/-- An archive with the files of an accepted source is returned exactly when the header of
every file has room for its name, its owner, its size and its time. -/
theorem archived_iff_fits (accepted : Accepted reader source guest) :
    (∃ archive flags, prepareOva reader source = .ok (archive, flags) ∧
        ∀ name, Chosen guest name → name ∈ archive.map (·.name)) ↔
      ∀ name, Chosen guest name → Fits reader source guest name := by
  constructor
  · rintro ⟨archive, flags, packed, _⟩ name chosen
    exact fits_of_prepared accepted packed chosen
  · intro fits
    exact ⟨_, _, prepareOva_eq_ok_iff.mpr ⟨guest, accepted, fits, rfl, rfl⟩,
      fun name chosen => ((packed_files accepted).complete name).mpr chosen⟩

end Packing

section Examples

/-- A file of an example: its size, what it parses as, and its text. -/
structure Sample where
  size : Nat
  root : Option (Element CodePoint)
  text : Str

def sampleReader : Reader Sample where
  size := Sample.size
  parse := fun sample => match sample.root with
    | some root => .tree root
    | none => .malformed
  text := Sample.text
  lower := List.map lowerPoint
  lower_ascii := fun _ _ => rfl

def ovfName : Name := ⟨str "guest.ovf", by decide⟩

theorem proper_disk : Proper (str "disk.vmdk") ∧ str "disk.vmdk" ≠ str ".." := by decide

def diskName : Name := ⟨str "disk.vmdk", proper_disk⟩

/-- A descriptor that refers to one disk. -/
def sampleRoot : Element CodePoint :=
  .element (str "Envelope") [] none [.element (str "References") [] none
    [.element (str "File") [(str "href", str "disk.vmdk")] none []]]

/-- A directory with a descriptor and a disk of some size. -/
def sampleTop (document : Sample) (size : Nat) : Node Name Sample :=
  .directory [ovfName, diskName] fun name =>
    if name = ovfName then .file document else .file ⟨size, none, []⟩

def sampleSource (document : Sample) (size : Nat) : Source Sample :=
  ⟨⟨.single, []⟩, some (sampleTop document size), fun _ => {}⟩

def sampleGuest (document : Sample) (root : Element CodePoint) (size : Nat) : Guest Sample :=
  ⟨sampleTop document size, [], ovfName, document, root⟩

/-- A descriptor that says nothing else. -/
def plainDocument : Sample := ⟨220, some sampleRoot, []⟩

theorem hrefs_sample : hrefs sampleRoot = [str "disk.vmdk"] := by decide

theorem referenceName_sample : referenceName (str "disk.vmdk") = some diskName := by decide

/-- A directory is accepted when its descriptor refers to its disk. -/
theorem accepted_sample {document : Sample} {root : Element CodePoint} (size : Nat)
    (parsed : document.root = some root) (refers : hrefs root = [str "disk.vmdk"]) :
    Accepted sampleReader (sampleSource document size) (sampleGuest document root size) where
  directory := ⟨rfl, _, _, rfl⟩
  unlinked := (@refuseLinks_eq_ok_iff _ (sampleSource document size) _).mp rfl
  single := rfl
  written := rfl
  parsed := by simp [sampleReader, sampleGuest, parsed]
  sound := by
    intro href referred
    have listed := mem_hrefs.mpr referred
    rw [sampleGuest, refers] at listed
    rw [List.mem_singleton.mp listed]
    exact ⟨diskName, _, referenceName_sample, rfl⟩
  disk := by
    have listed : str "disk.vmdk" ∈ hrefs root := by
      rw [refers]
      exact List.mem_singleton_self _
    exact ⟨_, diskName, mem_hrefs.mp listed, referenceName_sample, by decide⟩

def plainGuest (size : Nat) : Guest Sample := sampleGuest plainDocument sampleRoot size

theorem accepted_plain (size : Nat) :
    Accepted sampleReader (sampleSource plainDocument size) (plainGuest size) :=
  accepted_sample size rfl hrefs_sample

theorem files_plain (size : Nat) : (plainGuest size).files = [ovfName, diskName] := rfl

/-- A guest with a disk of 64 KiB is packed. -/
theorem small_disk_archived :
    ∃ archive flags, prepareOva sampleReader (sampleSource plainDocument 65536) = .ok (archive, flags) ∧
      ∀ name, Chosen (plainGuest 65536) name → name ∈ archive.map (·.name) := by
  refine (archived_iff_fits (accepted_plain 65536)).mpr fun name chosen => ?_
  have listed := mem_files.mpr chosen
  rw [files_plain] at listed
  rcases List.mem_cons.mp listed with rfl | last
  · exact ⟨by decide, by decide, by decide, by decide, by decide⟩
  · rw [List.mem_singleton.mp last]
    exact ⟨by decide, by decide, by decide, by decide, by decide⟩

/-- A guest whose disk has 8 GiB is within the limits and accepted, and no archive of it
is returned. -/
theorem large_disk_unarchived :
    ¬ ∀ (source : Source Sample) (guest : Guest Sample), Accepted sampleReader source guest →
      (∀ name contents, Chosen guest name → guest.entry name = some (.file contents) →
        sampleReader.size contents ≤ defaultLimits.max_virtual_bytes) →
      ∃ archive flags, prepareOva sampleReader source = .ok (archive, flags) ∧
        ∀ name, Chosen guest name → name ∈ archive.map (·.name) := by
  intro archives
  have chosen : Chosen (plainGuest (8 ^ 11)) diskName := by
    rw [← mem_files, files_plain]
    exact List.mem_cons_of_mem _ (List.mem_singleton_self _)
  have limited : ∀ name contents, Chosen (plainGuest (8 ^ 11)) name →
      (plainGuest (8 ^ 11)).entry name = some (.file contents) →
      sampleReader.size contents ≤ defaultLimits.max_virtual_bytes := by
    intro name contents within stands
    have listed := mem_files.mpr within
    rw [files_plain] at listed
    rcases List.mem_cons.mp listed with rfl | last
    · obtain rfl := Node.file.inj (Option.some.inj stands)
      decide
    · rw [List.mem_singleton.mp last] at stands
      obtain rfl := Node.file.inj (Option.some.inj stands)
      decide
  obtain ⟨archive, flags, packed, _⟩ := archives _ _ (accepted_plain (8 ^ 11)) limited
  have fits := (fits_of_prepared (accepted_plain (8 ^ 11)) packed chosen).size
  exact absurd fits (Nat.lt_irrefl _)

end Examples

end Immutavault.OvaPackages
