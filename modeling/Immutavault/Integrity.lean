import Mathlib.Algebra.Ring.Int.Defs
import Immutavault.Digests
import Immutavault.HostDisks
import Immutavault.JsonRoundTrips
import Immutavault.LooseValues

/-!
# Manifests of recovery points

A manifest records the files below a directory: the path of each, its size, when it was
written, and the digest of a file that is not too large. Files that are named like a
manifest are left out. The manifest is written into the directory, indented, and its
digest is that of its compact text with sorted keys.

A directory is verified against its manifest and an expected digest. Every recorded path
has to lead to a file of the recorded size and digest; what is there besides is not
looked at.
-/

namespace Immutavault.Integrity

open Values PosixPaths GuestFiles LinkedTrees HostTrees HostDisks JsonTexts Digests
open BrokerMessages.Wire (joinSurrogates)

/-- The bytes of a text. -/
def utf8 (text : List Char) : List UInt8 := text.flatMap String.utf8EncodeChar

/-- The text of bytes, if they are one. -/
def decoded (bytes : List UInt8) : Option (List Char) :=
  bytes.toByteArray.utf8Decode?.map Array.toList

theorem decoded_utf8 (text : List Char) : decoded (utf8 text) = some text := by
  have read : (utf8 text).toByteArray.utf8Decode? = some text.toArray :=
    List.utf8Decode?_utf8Encode
  simp [decoded, read]

theorem utf8_injective : Function.Injective utf8 := fun first second same =>
  Option.some.inj ((decoded_utf8 first).symm.trans ((congrArg decoded same).trans
    (decoded_utf8 second)))

def smallFileHashLimit : Nat := 64 * 1024 * 1024

def manifestName : Name := ⟨str ".immutavault-manifest.json", by decide⟩

def manifestPath (root : Path) : Path := root.child manifestName.component

section Building

variable (disk : Disk) (root : Path)

/-- The files below a directory, as they are found: each with its path and its data. -/
def found : List (List Name × FileData) :=
  match disk.host.node root with
  | none => []
  | some node => node.descend.filterMap fun names =>
    if names.getLast? = some manifestName then none
    else (disk.data (root.below (names.map Name.component))).map (names, ·)

/-- The files in the order of their paths. -/
def scanned : List (List Name × FileData) :=
  (found disk root).insertionSort fun first second =>
    ¬ (root.below (second.1.map Name.component)).parts <
      (root.below (first.1.map Name.component)).parts

/-- A path relative to the directory. -/
def relativeText (names : List Name) : Str :=
  (⟨.relative, names.map Name.component⟩ : Path).format

variable (Φ : Type)

/-- The record of a file. -/
def recordOf (entry : List Name × FileData) : Value Φ :=
  .dict [(str "path", .text (relativeText entry.1)), (str "size", .int entry.2.bytes.length),
    (str "mtime_ns", .int entry.2.mtime_ns),
    (str "sha256", if entry.2.bytes.length ≤ smallFileHashLimit then
      .text (str (sha256Hexdigest entry.2.bytes)) else .null)]

def manifestOf : Value Φ :=
  .dict [(str "version", .int 1), (str "files", .list ((scanned disk root).map (recordOf Φ))),
    (str "total_bytes", .int ((scanned disk root).map fun entry => entry.2.bytes.length).sum),
    (str "file_count", .int (scanned disk root).length)]

/-- A manifest that was built, its digest, and the disk on which it was written. -/
structure Built where
  manifest : Value Φ
  digest : String
  disk : Disk

variable {Φ} [Floating Φ]

/-- The bytes that the digest of a manifest is computed from. -/
def payload (manifest : Value Φ) : List UInt8 := utf8 (dumpsSorted .compact manifest)

/-- The text of a manifest on the disk. -/
def manifestText (manifest : Value Φ) : List UInt8 := utf8 (dumps .indented manifest)

variable (Φ) in
/-- Build the manifest of a directory and write it at the given time. -/
def build_manifest (now : Int) : Except Exn (Built Φ) := do
  let manifest := manifestOf disk root Φ
  let payload ← manifest.writtenSorted .compact
  let digest := sha256Hexdigest (utf8 payload)
  let text ← manifest.written .indented
  let after ← disk.write (manifestPath root) ⟨utf8 text, now⟩
  return ⟨manifest, digest, after⟩

/-- What is wrong with a file that a manifest records. -/
def recordErrors (item : Value Φ) : Except Exn (List Str) := do
  match ← item.subscript (str "path") with
  | .text path =>
    match disk.data (root.joinpath path) with
    | none => return [str "missing: " ++ path]
    | some data =>
      let size ← (← item.subscript (str "size")).toInt
      if (data.bytes.length : Int) ≠ size then return [str "size mismatch: " ++ path]
      else
        let digest ← item.field (str "sha256") .null
        if digest.truthy ∧ ¬ digest.isText (str (sha256Hexdigest data.bytes)) then
          return [str "hash mismatch: " ++ path]
        else return []
  | other => throw ⟨.otherError,
      s!"unsupported operand type(s) for /: 'PosixPath' and '{other.className}'"⟩

/-- What is wrong with the files of a list of records, in order. -/
def filesErrors : List (Value Φ) → Except Exn (List Str)
  | [] => return []
  | item :: rest => do
    let errors ← recordErrors disk root item
    let others ← filesErrors rest
    return errors ++ others

/-- What is wrong with the digest of a manifest; an empty digest is not asked for. -/
def digestErrors (expected_digest : Option String) (manifest : Value Φ) :
    Except Exn (List Str) := do
  match expected_digest with
  | none => return []
  | some expected =>
    if expected = "" then return []
    else
      let payload ← manifest.writtenSorted .compact
      if ¬ expected.toList.all fun character => character.toNat < 128 then
        throw ⟨.otherError,
          "comparing strings with non-ASCII characters is not supported"⟩
      else if sha256Hexdigest (utf8 payload) ≠ expected then
        return [str "manifest digest mismatch"]
      else return []

/-- The text of the manifest in a directory. Line ends are read as they are: they only
stand between values, where all of them are blanks. -/
def manifestRead : Except Exn (List Char) :=
  match disk.data (manifestPath root) with
  | none => .error ⟨.osError, "Is a directory"⟩
  | some data =>
    match decoded data.bytes with
    | none => .error ⟨.valueError, "'utf-8' codec can't decode"⟩
    | some text => .ok text

variable (Φ) in
/-- Verify the files of a directory against its manifest. -/
def verify_manifest (expected_digest : Option String) : Except Exn (Bool × List Str) := do
  if ¬ disk.host.present (manifestPath root) then return (false, [str "manifest missing"])
  else
    let text ← manifestRead disk root
    let manifest : Value Φ ← (loads text).mapError LoadError.exn
    let digest ← digestErrors expected_digest manifest
    let listed ← manifest.field (str "files") (.list [])
    let items ← listed.iterated
    let files ← filesErrors disk root items
    let errors := digest ++ files
    return (errors = [], errors)

end Building

section Recorded

variable {disk : Disk} {root : Path}

/-- A file that is recorded is there, and its names can be encoded. -/
theorem of_scanned {entry : List Name × FileData} (member : entry ∈ scanned disk root) :
    disk.data (root.below (entry.1.map Name.component)) = some entry.2 ∧
      ∀ name ∈ entry.1, Encodable name.val := by
  have listed := (List.perm_insertionSort _ _).mem_iff.mp member
  unfold found at listed
  split at listed
  · cases listed
  · rename_i node atRoot
    obtain ⟨names, below, kept⟩ := List.mem_filterMap.mp listed
    split at kept
    · cases kept
    · obtain ⟨data, there, rfl⟩ := Option.map_eq_some_iff.mp kept
      refine ⟨there, fun name within => ?_⟩
      obtain ⟨top, _, place⟩ := Option.bind_eq_some_iff.mp atRoot
      obtain ⟨_, deeper, reached⟩ := Node.mem_descend.mp below
      refine disk.encodable (top ++ names) deeper ?_ name (List.mem_append_right _ within)
      rw [Node.find_append, place]
      exact reached

theorem encodable_relativeText {names : List Name} (all : ∀ name ∈ names, Encodable name.val) :
    Encodable (relativeText names) := by
  have text : relativeText names = (str "/").intercalate (names.map Subtype.val) := by
    simp only [relativeText, PurePath.format, List.map_map]
    rfl
  rw [text]
  clear text
  induction names with
  | nil => rfl
  | cons name rest inductionHypothesis =>
    have own : Encodable name.val := all name List.mem_cons_self
    cases rest with
    | nil =>
      have single : (str "/").intercalate ([name].map Subtype.val) = name.val := by simp
      rw [single]
      exact own
    | cons second further =>
      have later := inductionHypothesis fun other within =>
        all other (List.mem_cons_of_mem _ within)
      have between : Encodable (str "/") := by decide
      rw [List.map_cons, List.map_cons, List.intercalate_cons_cons]
      unfold HostDisks.Encodable at own later between ⊢
      rw [List.all_append, List.all_append, own, between]
      exact later

variable {Φ : Type}

theorem clean_recordOf {entry : List Name × FileData} (fits : (recordOf Φ entry).fits = true)
    (encodable : ∀ name ∈ entry.1, Encodable name.val) : Clean (recordOf Φ entry) := by
  have joined := (encodable_relativeText encodable).joined
  simp only [recordOf, Value.fits, Value.fitsFields, Bool.true_and, Bool.and_true,
    Bool.and_eq_true, decide_eq_true_eq] at fits
  have keys : [str "path", str "size", str "mtime_ns", str "sha256"].Nodup := by decide
  refine ⟨keys, ?_⟩
  simp only [CleanFields, Clean, BrokerMessages.joinSurrogates_str, joined, fits.1, fits.2.1,
    true_and, and_true]
  split
  · exact BrokerMessages.joinSurrogates_str _
  · trivial

theorem cleanItems_iff {items : List (Value Φ)} :
    CleanItems items ↔ ∀ item ∈ items, Clean item := by
  induction items with
  | nil => simp [CleanItems]
  | cons item rest inductionHypothesis =>
    rw [CleanItems, inductionHypothesis, List.forall_mem_cons]

theorem fits_of_items {items : List (Value Φ)} (fits : Value.fitsItems items = true) :
    ∀ item ∈ items, item.fits = true := by
  induction items with
  | nil => exact fun _ impossible => nomatch impossible
  | cons item rest inductionHypothesis =>
    obtain ⟨first, others⟩ := (Bool.and_eq_true _ _).mp fits
    exact List.forall_mem_cons.mpr ⟨first, inductionHypothesis others⟩

/-- Every record of a manifest that can be written is clean. -/
theorem clean_recordOf_of_scanned (fits : (manifestOf disk root Φ).fits = true)
    {entry : List Name × FileData} (member : entry ∈ scanned disk root) :
    Clean (recordOf Φ entry) := by
  simp only [manifestOf, Value.fits, Value.fitsFields, Bool.and_true, Bool.and_eq_true] at fits
  exact clean_recordOf (fits_of_items fits.2.1 _ (List.mem_map.mpr ⟨entry, member, rfl⟩))
    (of_scanned member).2

/-- A manifest that can be written is read back as it is. -/
theorem clean_manifestOf (fits : (manifestOf disk root Φ).fits = true) :
    Clean (manifestOf disk root Φ) := by
  have recordsClean : CleanItems ((scanned disk root).map (recordOf Φ)) := by
    refine cleanItems_iff.mpr fun item member => ?_
    obtain ⟨entry, within, rfl⟩ := List.mem_map.mp member
    exact clean_recordOf_of_scanned fits within
  simp only [manifestOf, Value.fits, Value.fitsFields, Bool.and_true, Bool.and_eq_true,
    decide_eq_true_eq] at fits
  obtain ⟨_, _, total, count⟩ := fits
  have keys : [str "version", str "files", str "total_bytes", str "file_count"].Nodup := by decide
  refine ⟨keys, ?_⟩
  simp only [CleanFields, Clean, BrokerMessages.joinSurrogates_str, recordsClean, total, count,
    true_and, and_true]
  decide

end Recorded

section Verifying

variable {Φ : Type} [Floating Φ] {disk : Disk} {root : Path}

theorem ascii_sha256Hexdigest (message : List UInt8) :
    (sha256Hexdigest message).toList.all (fun character => character.toNat < 128) = true := by
  have digit : ∀ value < 16, (Digests.hexDigit value).toNat < 128 := by decide
  rw [sha256Hexdigest, String.toList_ofList, List.all_eq_true]
  intro character member
  obtain ⟨word, _, within⟩ := List.mem_flatMap.mp member
  obtain ⟨position, _, rfl⟩ := List.mem_map.mp within
  exact decide_eq_true (digit _ (Nat.mod_lt _ (by decide)))

theorem sha256Hexdigest_ne_empty (message : List UInt8) : sha256Hexdigest message ≠ "" := by
  intro same
  have length := length_sha256Hexdigest message
  rw [same] at length
  cases length

/-- There is nothing wrong with a digest of a message exactly when the manifest can be
written and its payload has the digest. -/
theorem digestErrors_eq_nil {message : List UInt8} {manifest : Value Φ} :
    digestErrors (some (sha256Hexdigest message)) manifest = .ok [] ↔
      manifest.fits = true ∧ sha256Hexdigest (payload manifest) = sha256Hexdigest message := by
  have ascii := ascii_sha256Hexdigest message
  unfold digestErrors
  simp only [if_neg (sha256Hexdigest_ne_empty message), ascii, Value.writtenSorted]
  by_cases fits : manifest.fits = true
  · rw [if_pos fits, ok_bind, if_neg (by simp), ← payload]
    by_cases same : sha256Hexdigest (payload manifest) = sha256Hexdigest message
    · rw [if_neg (not_not_intro same)]
      exact ⟨fun _ => ⟨fits, same⟩, fun _ => rfl⟩
    · rw [if_pos same]
      exact ⟨fun impossible => (nomatch impossible), fun both => absurd both.2 same⟩
  · rw [if_neg fits, error_bind]
    exact ⟨fun impossible => (nomatch impossible), fun both => absurd both.1 fits⟩

theorem filesErrors_eq_nil {items : List (Value Φ)} :
    filesErrors disk root items = .ok [] ↔
      ∀ item ∈ items, recordErrors disk root item = .ok [] := by
  induction items with
  | nil => simp [filesErrors, pure, Except.pure]
  | cons item rest inductionHypothesis =>
    rw [filesErrors, List.forall_mem_cons, ← inductionHypothesis, bind_eq_ok]
    constructor
    · rintro ⟨errors, first, onward⟩
      obtain ⟨others, second, same⟩ := bind_eq_ok.mp onward
      obtain ⟨rfl, rfl⟩ := List.append_eq_nil_iff.mp (Except.ok.inj same)
      exact ⟨first, second⟩
    · rintro ⟨first, second⟩
      exact ⟨[], first, bind_eq_ok.mpr ⟨[], second, rfl⟩⟩

/-- A directory that is verified has a manifest with the digest, and nothing is wrong with
the records. -/
theorem verified_iff {message : List UInt8} :
    verify_manifest disk root Φ (some (sha256Hexdigest message)) = .ok (true, []) ↔
      disk.host.present (manifestPath root) = true ∧ ∃ text manifest listed items,
        manifestRead disk root = .ok text ∧ loads text = .ok (manifest : Value Φ) ∧
        digestErrors (some (sha256Hexdigest message)) manifest = .ok [] ∧
        manifest.field (str "files") (.list []) = .ok listed ∧ listed.iterated = .ok items ∧
        ∀ item ∈ items, recordErrors disk root item = .ok [] := by
  unfold verify_manifest
  by_cases present : disk.host.present (manifestPath root) = true
  · rw [if_neg (not_not_intro present)]
    constructor
    · intro verified
      obtain ⟨text, read, onward⟩ := bind_eq_ok.mp verified
      obtain ⟨manifest, loaded, onward⟩ := bind_eq_ok.mp onward
      obtain ⟨digest, digestOk, onward⟩ := bind_eq_ok.mp onward
      obtain ⟨listed, files, onward⟩ := bind_eq_ok.mp onward
      obtain ⟨items, iterated, onward⟩ := bind_eq_ok.mp onward
      obtain ⟨errors, checked, same⟩ := bind_eq_ok.mp onward
      obtain ⟨rfl, rfl⟩ : digest = [] ∧ errors = [] :=
        List.append_eq_nil_iff.mp (congrArg Prod.snd (Except.ok.inj same))
      have parsed : loads text = .ok manifest := by
        cases given : (loads text : Except LoadError (Value Φ)) with
        | ok value =>
          rw [given] at loaded
          exact congrArg Except.ok (Except.ok.inj loaded)
        | error error =>
          rw [given] at loaded
          cases loaded
      exact ⟨present, text, manifest, listed, items, read, parsed, digestOk, files, iterated,
        filesErrors_eq_nil.mp checked⟩
    · rintro ⟨_, text, manifest, listed, items, read, loaded, digest, files, iterated, all⟩
      rw [read, ok_bind, loaded, Except.mapError, ok_bind, digest, ok_bind, files, ok_bind,
        iterated, ok_bind, filesErrors_eq_nil.mpr all]
      rfl
  · rw [if_pos present]
    exact ⟨fun impossible => (nomatch impossible), fun both => absurd both.1 present⟩

/-- What verification asks of a recorded file: its size, and its digest if it has one. -/
def Matches (recorded data : FileData) : Prop :=
  data.bytes.length = recorded.bytes.length ∧
    (recorded.bytes.length ≤ smallFileHashLimit →
      sha256Hexdigest data.bytes = sha256Hexdigest recorded.bytes)

/-- A record that says as much as the record of a file, whatever the order of its keys. -/
structure Describes (item : Value Φ) (entry : List Name × FileData) : Prop where
  path : item.subscript (str "path") = .ok (.text (relativeText entry.1))
  size : item.subscript (str "size") = .ok (.int entry.2.bytes.length)
  digest : item.field (str "sha256") .null = .ok
    (if entry.2.bytes.length ≤ smallFileHashLimit then
      .text (str (sha256Hexdigest entry.2.bytes)) else .null)

omit [Floating Φ] in
theorem describes_recordOf (entry : List Name × FileData) :
    Describes (recordOf Φ entry) entry := ⟨rfl, rfl, rfl⟩

theorem str_injective : Function.Injective str := by
  refine fun first second same => String.toList_injective (List.map_injective_iff.mpr ?_ same)
  intro one other points
  have bound : ∀ character : Char, character.toNat < 1114112 := by
    intro character
    have valid : character.toNat < 55296 ∨ 57343 < character.toNat ∧ character.toNat < 1114112 :=
      character.valid
    omega
  have codes : one.toNat % 1114112 = other.toNat % 1114112 := congrArg Fin.val points
  rw [Nat.mod_eq_of_lt (bound one), Nat.mod_eq_of_lt (bound other)] at codes
  exact Char.toNat_inj.mp codes

/-- A recorded digest is compared, and a missing one is not. -/
theorem digest_accepted {bytes : List UInt8} {entry : List Name × FileData} {digest : Value Φ}
    (shape : digest = if entry.2.bytes.length ≤ smallFileHashLimit then
      .text (str (sha256Hexdigest entry.2.bytes)) else .null) :
    ¬ (digest.truthy ∧ ¬ digest.isText (str (sha256Hexdigest bytes))) ↔
      (entry.2.bytes.length ≤ smallFileHashLimit →
        sha256Hexdigest bytes = sha256Hexdigest entry.2.bytes) := by
  by_cases small : entry.2.bytes.length ≤ smallFileHashLimit
  · rw [if_pos small] at shape
    have filled : str (sha256Hexdigest entry.2.bytes) ≠ [] := fun empty =>
      sha256Hexdigest_ne_empty _ (str_injective (empty.trans (rfl : [] = str "")))
    have shown : digest.truthy = true := by
      rw [shape, Value.truthy, Bool.not_eq_true']
      exact List.isEmpty_eq_false_iff.mpr filled
    have same : digest.isText (str (sha256Hexdigest bytes)) = true ↔
        sha256Hexdigest bytes = sha256Hexdigest entry.2.bytes := by
      rw [shape, Value.isText, decide_eq_true_eq, str_injective.eq_iff, eq_comm]
    rw [shown, same, and_iff_right rfl, not_not, forall_prop_of_true small]
  · rw [if_neg small] at shape
    have false : ¬ digest.truthy = true := by
      rw [shape]
      exact Bool.false_ne_true
    exact iff_of_true (fun both => false both.1) fun below => absurd below small

/-- Nothing is wrong with the record of a file exactly when its path leads to a file that
matches. -/
theorem recordErrors_eq_nil {item : Value Φ} {entry : List Name × FileData}
    (describes : Describes item entry) :
    recordErrors disk root item = .ok [] ↔
      ∃ data, disk.data (root.below (entry.1.map Name.component)) = some data ∧
        Matches entry.2 data := by
  have joined : root.joinpath (relativeText entry.1) = root.below (entry.1.map Name.component) :=
    PurePath.joinpath_format root _
  unfold recordErrors
  rw [describes.path, ok_bind]
  dsimp only
  rw [joined]
  cases there : disk.data (root.below (entry.1.map Name.component)) with
  | none =>
    constructor
    · intro impossible
      cases impossible
    · rintro ⟨_, impossible, _⟩
      cases impossible
  | some data =>
    dsimp only
    obtain ⟨digest, shape, field⟩ : ∃ digest : Value Φ,
        (digest = if entry.2.bytes.length ≤ smallFileHashLimit then
          .text (str (sha256Hexdigest entry.2.bytes)) else .null) ∧
        item.field (str "sha256") .null = .ok digest := ⟨_, rfl, describes.digest⟩
    rw [describes.size, ok_bind, Value.toInt, ok_bind, field]
    have only : (∃ given, some data = some given ∧ Matches entry.2 given) ↔
        Matches entry.2 data := by simp
    rw [only, Matches, ← @digest_accepted Φ _ data.bytes entry digest shape]
    by_cases size : data.bytes.length = entry.2.bytes.length
    · rw [if_neg (by simp [size]), ok_bind, and_iff_right size]
      split
      · rename_i wrong
        exact ⟨fun impossible => (nomatch impossible), fun right => absurd wrong right⟩
      · rename_i right
        exact ⟨fun _ => right, fun _ => rfl⟩
    · rw [if_pos (by exact_mod_cast size)]
      exact ⟨fun impossible => (nomatch impossible), fun both => absurd both.1 size⟩

end Verifying

section RoundTrip

variable {Φ : Type} [Floating Φ] {disk : Disk} {root : Path} {now : Int} {built : Built Φ}

/-- What a manifest that was built is, and what building it did to the disk. -/
structure Results (disk : Disk) (root : Path) (now : Int) (built : Built Φ) : Prop where
  fits : built.manifest.fits = true
  manifest : built.manifest = manifestOf disk root Φ
  digest : built.digest = sha256Hexdigest (payload built.manifest)
  written : disk.Written (manifestPath root) ⟨manifestText built.manifest, now⟩ built.disk

theorem results_of_build (ran : build_manifest disk root Φ now = .ok built) :
    Results disk root now built := by
  obtain ⟨sorted, one, onward⟩ := bind_eq_ok.mp ran
  obtain ⟨text, two, onward⟩ := bind_eq_ok.mp onward
  obtain ⟨after, wrote, same⟩ := bind_eq_ok.mp onward
  cases same
  have fits : (manifestOf disk root Φ).fits = true := by
    by_contra long
    rw [Value.writtenSorted, if_neg long] at one
    cases one
  rw [Value.writtenSorted, if_pos fits] at one
  rw [Value.written, if_pos fits] at two
  cases one
  cases two
  exact ⟨fits, rfl, rfl, Disk.written_of_write wrote⟩

/-- Building succeeds when the manifest can be written as a text and to its path. -/
theorem build_of_write (fits : (manifestOf disk root Φ).fits = true) {after : Disk}
    (wrote : disk.write (manifestPath root) ⟨manifestText (manifestOf disk root Φ), now⟩ =
      .ok after) :
    build_manifest disk root Φ now = .ok ⟨manifestOf disk root Φ,
      sha256Hexdigest (payload (manifestOf disk root Φ)), after⟩ := by
  rw [build_manifest, Value.writtenSorted, if_pos fits, ok_bind, Value.written, if_pos fits,
    ok_bind]
  change (disk.write (manifestPath root) ⟨manifestText (manifestOf disk root Φ), now⟩ >>= _) = _
  rw [wrote]
  rfl

/-- Writing the manifest changes what a path leads to only if it led to the manifest. -/
theorem data_built (results : Results disk root now built) {path : Path} {data : FileData}
    (before : disk.data path = some data) :
    built.disk.data path = some (if disk.inode path = disk.inode (manifestPath root) then
      ⟨manifestText built.manifest, now⟩ else data) := by
  obtain ⟨number, there, content, others, own⟩ := results.written.written
  obtain ⟨file, led, rfl⟩ := Option.map_eq_some_iff.mp before
  rw [Disk.data, results.written.stays path file led, Option.map_some]
  by_cases same : disk.inode path = disk.inode (manifestPath root)
  · have kept := results.written.stays (manifestPath root) file (same.symm.trans led)
    obtain rfl : number = file := Option.some.inj (there.symm.trans kept)
    rw [if_pos same, content]
  · have apart : file ≠ number := by
      rintro rfl
      exact same (led.trans (own path led).symm)
    rw [if_neg same, others file apart]

variable [LawfulFloating Φ]

/-- A manifest that was built is verified exactly when every recorded path still leads to a
file that matches. -/
theorem verified_built (results : Results disk root now built) :
    verify_manifest built.disk root Φ (some built.digest) = .ok (true, []) ↔
      ∀ entry ∈ scanned disk root, ∃ data,
        built.disk.data (root.below (entry.1.map Name.component)) = some data ∧
          Matches entry.2 data := by
  obtain ⟨number, there, content, _⟩ := results.written.written
  have clean : Clean built.manifest := by
    rw [results.manifest]
    exact clean_manifestOf (results.manifest ▸ results.fits)
  have read : manifestRead built.disk root = .ok (dumps .indented built.manifest) := by
    rw [manifestRead, Disk.data, there, Option.map_some, content]
    dsimp only
    rw [manifestText, decoded_utf8]
  have loaded : loads (dumps .indented built.manifest) = .ok built.manifest := by
    have blanks : loads (dumps .indented built.manifest ++ []) = .ok built.manifest :=
      loads_dumps .indented clean fun _ impossible => nomatch impossible
    rwa [List.append_nil] at blanks
  have present : built.disk.host.present (manifestPath root) = true := by
    obtain ⟨place, reached, _⟩ := Option.bind_eq_some_iff.mp (Disk.inode_eq_some.mp there)
    rw [Host.present, reached]
    rfl
  rw [results.digest, verified_iff]
  constructor
  · rintro ⟨_, text, manifest, listed, items, same, parsed, _, files, iterated, all⟩
    cases read.symm.trans same
    cases loaded.symm.trans parsed
    rw [results.manifest] at files
    cases files
    cases iterated
    intro entry member
    exact (recordErrors_eq_nil (describes_recordOf entry)).mp
      (all _ (List.mem_map.mpr ⟨entry, member, rfl⟩))
  · intro all
    refine ⟨present, _, _, .list ((scanned disk root).map (recordOf Φ)), _, read, loaded,
      digestErrors_eq_nil.mpr ⟨results.fits, rfl⟩, ?_, rfl, fun item member => ?_⟩
    · rw [results.manifest]
      rfl
    · obtain ⟨entry, within, rfl⟩ := List.mem_map.mp member
      exact (recordErrors_eq_nil (describes_recordOf entry)).mpr (all entry within)

/-- No recorded path leads to the file that the manifest is written to. -/
def Unshared (disk : Disk) (root : Path) : Prop :=
  ∀ entry ∈ scanned disk root,
    disk.inode (root.below (entry.1.map Name.component)) ≠ disk.inode (manifestPath root)

/-- When a recorded path leads to the manifest, the text that is written over the file has
its old size and digest. -/
def Coincides (disk : Disk) (root : Path) (now : Int) (manifest : Value Φ) : Prop :=
  ∀ entry ∈ scanned disk root,
    disk.inode (root.below (entry.1.map Name.component)) = disk.inode (manifestPath root) →
      Matches entry.2 ⟨manifestText manifest, now⟩

/-- A manifest that was built is verified unless writing it changed a recorded file. -/
theorem verified_iff_coincides (results : Results disk root now built) :
    verify_manifest built.disk root Φ (some built.digest) = .ok (true, []) ↔
      Coincides disk root now built.manifest := by
  rw [verified_built results]
  refine forall₂_congr fun entry member => ?_
  rw [data_built results (of_scanned member).1]
  by_cases same : disk.inode (root.below (entry.1.map Name.component)) =
      disk.inode (manifestPath root)
  · rw [if_pos same, forall_prop_of_true same]
    constructor
    · rintro ⟨_, same, matching⟩
      cases same
      exact matching
    · exact fun matching => ⟨_, rfl, matching⟩
  · rw [if_neg same]
    exact iff_of_true ⟨entry.2, rfl, rfl, fun _ => rfl⟩ fun shared => absurd shared same

end RoundTrip

section Soundness

variable {Φ : Type} [Floating Φ]

/-- The messages whose digests building a manifest takes. -/
def Hashed (disk : Disk) (root : Path) (manifest : Value Φ) (message : List UInt8) : Prop :=
  message = payload manifest ∨ ∃ entry ∈ scanned disk root, message = entry.2.bytes

variable (Φ) in
/-- The messages whose digests verifying a directory may take. -/
def Checked (disk : Disk) (root : Path) (message : List UInt8) : Prop :=
  (∃ text, ∃ manifest : Value Φ, manifestRead disk root = .ok text ∧ loads text = .ok manifest ∧
    message = payload manifest) ∨
  ∃ path data, disk.data path = some data ∧ message = data.bytes

/-- No message of one kind has the digest of another message of the other kind. -/
def Apart (first second : List UInt8 → Prop) : Prop :=
  ∀ one other, first one → second other → sha256Hexdigest one = sha256Hexdigest other → one = other

/-- A directory with the manifest that was built, up to the order of keys, and with every
recorded file. -/
structure Restored (disk : Disk) (root : Path) (manifest : Value Φ) (other : Disk) (top : Path) :
    Prop where
  manifest : ∃ text, ∃ found : Value Φ, manifestRead other top = .ok text ∧
    loads text = .ok found ∧ arranged found = arranged manifest
  files : ∀ entry ∈ scanned disk root, ∃ data,
    other.data (top.below (entry.1.map Name.component)) = some data ∧
      data.bytes.length = entry.2.bytes.length ∧
      (entry.2.bytes.length ≤ smallFileHashLimit → data.bytes = entry.2.bytes)

variable [LawfulFloating Φ] {disk other : Disk} {root top : Path} {now : Int} {built : Built Φ}

omit [Floating Φ] [LawfulFloating Φ] in
theorem eq_of_arranged_text {value : Value Φ} {text : Str}
    (same : arranged value = arranged (.text text)) : value = .text text := by
  cases value with
  | text other => exact same
  | _ => cases same

omit [Floating Φ] [LawfulFloating Φ] in
theorem eq_of_arranged_int {value : Value Φ} {number : Int}
    (same : arranged value = arranged (.int number)) : value = .int number := by
  cases value with
  | int other => exact same
  | _ => cases same

omit [Floating Φ] [LawfulFloating Φ] in
theorem eq_of_arranged_null {value : Value Φ} (same : arranged value = arranged .null) :
    value = .null := by
  cases value with
  | null => rfl
  | _ => cases same

omit [Floating Φ] [LawfulFloating Φ] in
/-- A record that is the record of a file up to the order of its keys says as much. -/
theorem describes_of_arranged {item : Value Φ} {entry : List Name × FileData}
    (clean : Clean (recordOf Φ entry)) (cleanItem : Clean item)
    (same : arranged item = arranged (recordOf Φ entry)) : Describes item entry := by
  obtain ⟨fields, rfl, found⟩ := get?_of_arranged clean cleanItem same
  obtain ⟨path, atPath, samePath, _⟩ := found (str "path") (.text (relativeText entry.1)) rfl
  obtain ⟨size, atSize, sameSize, _⟩ := found (str "size") (.int entry.2.bytes.length) rfl
  obtain ⟨digest, atDigest, sameDigest, _⟩ := found (str "sha256") _ rfl
  refine ⟨?_, ?_, ?_⟩
  · rw [Value.subscript, atPath, eq_of_arranged_text samePath]
  · rw [Value.subscript, atSize, eq_of_arranged_int sameSize]
  · rw [Value.field, atDigest]
    split at sameDigest
    · rename_i small
      rw [eq_of_arranged_text sameDigest, if_pos small]
      rfl
    · rename_i large
      rw [eq_of_arranged_null sameDigest, if_neg large]
      rfl

/-- What is verified against the digest of a manifest has the manifest and its files. -/
theorem restored_of_verified (results : Results disk root now built)
    (apart : Apart (Hashed disk root built.manifest) (Checked Φ other top))
    (verified : verify_manifest other top Φ (some built.digest) = .ok (true, [])) :
    Restored disk root built.manifest other top := by
  rw [results.digest] at verified
  obtain ⟨_, text, manifest, listed, items, read, loaded, digest, files, iterated, all⟩ :=
    verified_iff.mp verified
  have clean : Clean built.manifest := by
    rw [results.manifest]
    exact clean_manifestOf (results.manifest ▸ results.fits)
  have cleanFound : Clean manifest := clean_loads loaded
  have payloads : payload built.manifest = payload manifest :=
    apart _ _ (Or.inl rfl) (Or.inl ⟨text, manifest, read, loaded, rfl⟩)
      (digestErrors_eq_nil.mp digest).2.symm
  have same : arranged manifest = arranged built.manifest :=
    (dumpsSorted_injective clean cleanFound (utf8_injective payloads)).symm
  refine ⟨⟨text, manifest, read, loaded, same⟩, fun entry member => ?_⟩
  rw [results.manifest] at clean same
  obtain ⟨fields, rfl, found⟩ := get?_of_arranged clean cleanFound same
  obtain ⟨records, atFiles, sameRecords, cleanRecords⟩ := found (str "files") _ rfl
  have shape : listed = records := by
    rw [Value.field, atFiles] at files
    exact (Except.ok.inj files).symm
  subst shape
  cases listed with
  | list given =>
    cases iterated
    have listing : items.map arranged = ((scanned disk root).map (recordOf Φ)).map arranged := by
      rw [← arrangedItems_eq_map, ← arrangedItems_eq_map]
      exact Value.list.inj sameRecords
    have there : arranged (recordOf Φ entry) ∈ items.map arranged := by
      rw [listing, List.map_map]
      exact List.mem_map.mpr ⟨entry, member, rfl⟩
    obtain ⟨item, within, sameRecord⟩ := List.mem_map.mp there
    have cleanItem : Clean item := cleanItems_iff.mp cleanRecords item within
    have cleanRecord : Clean (recordOf Φ entry) :=
      clean_recordOf_of_scanned (results.manifest ▸ results.fits) member
    obtain ⟨data, atPath, size, content⟩ := (recordErrors_eq_nil
      (describes_of_arranged cleanRecord cleanItem sameRecord)).mp (all item within)
    exact ⟨data, atPath, size, fun small =>
      (apart _ _ (Or.inr ⟨entry, member, rfl⟩) (Or.inr ⟨_, data, atPath, rfl⟩)
        (content small).symm).symm⟩
  | _ => cases sameRecords

/-- A manifest that was built is verified when no recorded path leads to the manifest, and
otherwise only if writing it kept the size and the digest that were recorded. Whatever is
verified against its digest has the manifest and every recorded file. -/
theorem manifest_round_trip (ran : build_manifest disk root Φ now = .ok built) :
    (Unshared disk root →
      verify_manifest built.disk root Φ (some built.digest) = .ok (true, [])) ∧
    (verify_manifest built.disk root Φ (some built.digest) = .ok (true, []) →
      Coincides disk root now built.manifest) ∧
    ∀ other top, Apart (Hashed disk root built.manifest) (Checked Φ other top) →
      verify_manifest other top Φ (some built.digest) = .ok (true, []) →
        Restored disk root built.manifest other top := by
  have results := results_of_build ran
  refine ⟨fun unshared => ?_, (verified_iff_coincides results).mp,
    fun other top apart verified => restored_of_verified results apart verified⟩
  refine (verified_iff_coincides results).mpr fun entry member shared => ?_
  exact absurd shared (unshared entry member)

end Soundness

section Samples

def diskName : Name := ⟨str "disk.vmdk", by decide⟩

def latestName : Name := ⟨str "latest", by decide⟩

/-- The directory at the top. -/
def top : Path := ⟨.single, []⟩

def sampleFiles (number : Nat) : FileData := ⟨if number = 0 then [1, 2, 3] else [123, 125], 0⟩

/-- A directory with one file. -/
def plain : Disk :=
  .flat [diskName] (fun _ => .file 0) sampleFiles 1 (fun _ _ => Nat.zero_lt_one) (by decide)

/-- An older manifest, and a link to it. -/
def linkedNode (name : Name) : Node Name Nat :=
  if name = manifestName then .file 1 else .symlink ⟨false, [.enter manifestName]⟩

/-- A directory with an older manifest and a link to it. -/
def linked : Disk :=
  .flat [manifestName, latestName] linkedNode sampleFiles 2
    (by
      intro name member
      unfold linkedNode
      split
      · exact Nat.one_lt_two
      · trivial)
    (by decide)

theorem build_plain :
    ∃ built : Built Constant, build_manifest plain top Constant 0 = .ok built := by
  have fits : (manifestOf plain top Constant).fits = true := by decide
  have opened : resolveOpen plain.host.tree 40 (plain.host.start (manifestPath top))
      ((manifestPath top).tail.map stepOf) = some [manifestName] := by decide
  have encodable : ∀ name ∈ [manifestName], Encodable name.val := by decide
  have absent : plain.host.tree.find [manifestName] = none :=
    if_neg (by decide : manifestName ∉ [diskName])
  have wrote : ∀ content, plain.write (manifestPath top) content =
      .ok (plain.create [manifestName] encodable content) := by
    intro content
    simp only [Disk.write, opened, absent]
    exact dif_pos encodable
  exact ⟨_, build_of_write fits (wrote _)⟩

/-- The manifest of a directory without links is verified, against itself as well. -/
theorem manifest_round_trip_plain :
    ∃ built : Built Constant, build_manifest plain top Constant 0 = .ok built ∧
      verify_manifest built.disk top Constant (some built.digest) = .ok (true, []) ∧
      (Apart (Hashed plain top built.manifest) (Checked Constant built.disk top) →
        Restored plain top built.manifest built.disk top) := by
  obtain ⟨built, ran⟩ := build_plain
  have unshared : Unshared plain top := by
    have only : ∀ entry ∈ scanned plain top,
        plain.inode (top.below (entry.1.map Name.component)) ≠ plain.inode (manifestPath top) := by
      decide
    exact only
  obtain ⟨verified, _, sound⟩ := manifest_round_trip ran
  exact ⟨built, ran, verified unshared, fun apart => sound _ _ apart (verified unshared)⟩

/-- A link to an older manifest is recorded with what it led to, and then the manifest is
written over it. -/
theorem linked_not_verified :
    ∃ built : Built Constant, build_manifest linked top Constant 0 = .ok built ∧
      verify_manifest built.disk top Constant (some built.digest) ≠ .ok (true, []) := by
  have fits : (manifestOf linked top Constant).fits = true := by decide
  have opened : resolveOpen linked.host.tree 40 (linked.host.start (manifestPath top))
      ((manifestPath top).tail.map stepOf) = some [manifestName] := by decide
  have wrote : ∀ content, linked.write (manifestPath top) content =
      .ok (linked.overwrite 1 content) := by
    intro content
    simp only [Disk.write, opened]
    rfl
  have ran := build_of_write fits (wrote ⟨_, 0⟩)
  refine ⟨_, ran, fun verified => ?_⟩
  have recorded : ([latestName], sampleFiles 1) ∈ scanned linked top := by decide
  have shared : linked.inode (top.below ([latestName].map Name.component)) =
      linked.inode (manifestPath top) := by decide
  have same := (verified_iff_coincides (results_of_build ran)).mp verified _ recorded shared
  have longer : 2 < (manifestText (manifestOf linked top Constant)).length := by
    obtain ⟨rest, text⟩ : ∃ rest, dumps .indented (manifestOf linked top Constant) =
        '\x7b' :: '\n' :: ' ' :: rest := by
      rw [dumps, manifestOf, print]
      exact ⟨_, rfl⟩
    have ascii : utf8 ('\x7b' :: '\n' :: ' ' :: rest) = 123 :: 10 :: 32 :: utf8 rest := rfl
    rw [manifestText, text, ascii]
    simp only [List.length_cons]
    omega
  exact absurd same.1 (Nat.ne_of_gt longer)

end Samples

end Immutavault.Integrity
