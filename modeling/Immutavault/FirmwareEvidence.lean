import Immutavault.OvaPackages

/-!
# Which firmware a conversion uses

An inspector reports on the packed guest. When it does not report the firmware, the
conversion uses what the packaging found in the descriptor, and it refuses a guest whose
firmware is neither BIOS nor UEFI.

What the packaging finds is a matter of words in the whole text of the descriptor, names
and annotations included. A descriptor states its firmware in a configuration entry whose
key is the firmware and whose value is that of BIOS or EFI. It is proved when the words
agree with the statement; how the text belongs to the elements is left open.
-/

namespace Immutavault.FirmwareEvidence

open Values GuestFiles ElementTrees OvaPackages UstarArchives HostTrees
open SessionOwnership (printed)

/-- What a conversion knows about its guest. -/
structure V2VInspection where
  os_family : Str
  distro : Str
  osinfo : Str
  arch : Str
  firmware : Hint
  disk_count : Nat
  virtual_bytes : Int
  secure_boot : Bool
  source_tpm : Bool
  source_networks : List Str
  deriving DecidableEq

/-- A text, or unknown when it is empty. -/
def orUnknown (text : Str) : String := if text = [] then "unknown" else printed text

section Inspecting

variable (lower : Str → Str) (limits : Limits) (virtio : Bool)

/-- The report that the inspector prints. -/
def reportOf : Parsed → Except Exn (Element CodePoint)
  | .tree root => .ok root
  | .malformed => .error ⟨.runtimeError, "virt-v2v-inspector returned malformed XML"⟩
  | .raising error => .error error

/-- The text of a child, stripped and lowered. -/
def textOf (node : Element CodePoint) (tag : String) : Str :=
  lower (strip ((node.findtext (str tag)).getD []))

/-- The firmware that a report names. -/
def reportedFirmware (root : Element CodePoint) : Option Hint :=
  let firmware := lower (((root.find (str "firmware")).bind (·.get (str "type"))).getD [])
  if firmware = str "efi" ∨ firmware = str "uefi" then some .uefi
  else if firmware = str "bios" ∨ firmware = str "legacy" then some .bios
  else none

/-- The size that a disk of a report has. -/
def virtualSize (disk : Element CodePoint) : Except Exn Int :=
  let text := (disk.findtext (str "virtual-size")).getD []
  let size := strip (if text = [] then str "0" else text)
  if size = [] then .ok 0 else JsonTexts.Value.parseText size

/-- The sizes of disks together. -/
def virtualBytes : List (Element CodePoint) → Except Exn Int
  | [] => .ok 0
  | disk :: rest => do
    let size ← virtualSize disk
    let others ← virtualBytes rest
    .ok (size + others)

/-- The disks of a report. -/
def disksOf (root : Element CodePoint) : List (Element CodePoint) :=
  (root.childrenTagged (str "disks")).flatMap (·.childrenTagged (str "disk"))

/-- The operating system of a report, if a conversion of it is certified. -/
def systemOf (root : Element CodePoint) : Except Exn (Element CodePoint) :=
  match root.find (str "operatingsystem") with
  | none => .error ⟨.runtimeError, "virt-v2v-inspector did not identify an operating system"⟩
  | some system =>
    let family := textOf lower system "name"
    let arch := textOf lower system "arch"
    if ¬ (family = str "linux" ∨ family = str "windows") then .error ⟨.runtimeError,
      s!"guest OS family {orUnknown family} is outside the certified V2V matrix"⟩
    else if ¬ (arch = str "x86_64" ∨ arch = str "amd64") then .error ⟨.runtimeError,
      s!"guest architecture {orUnknown arch} is outside the certified V2V matrix"⟩
    else .ok system

/-- What a report and the flags of the packaging say about a guest. -/
def describe (root : Element CodePoint) (flags : Flags) : Except Exn V2VInspection := do
  let system ← systemOf lower root
  let disks := disksOf root
  let total ← virtualBytes disks
  .ok {
    os_family := textOf lower system "name"
    distro := textOf lower system "distro"
    osinfo := textOf lower system "osinfo"
    arch := textOf lower system "arch"
    firmware := (reportedFirmware lower root).getD flags.firmware_hint
    disk_count := disks.length
    virtual_bytes := total
    secure_boot := flags.secure_boot
    source_tpm := flags.source_tpm
    source_networks := flags.source_networks }

/-- What the limits and the host require of a guest. -/
def admitGuest (inspection : V2VInspection) : Except Exn Unit :=
  if inspection.disk_count < 1 ∨ limits.max_disks < inspection.disk_count then
    .error ⟨.runtimeError, s!"guest disk count {inspection.disk_count} exceeds certified limit " ++
      s!"{limits.max_disks}"⟩
  else if (limits.max_virtual_bytes : Int) < inspection.virtual_bytes then
    .error ⟨.runtimeError, "guest virtual disk capacity exceeds configured V2V safety limit"⟩
  else if inspection.firmware = .uefi ∧ limits.allow_uefi = false then
    .error ⟨.runtimeError, "UEFI V2V is disabled by policy"⟩
  else if inspection.secure_boot ∧ limits.allow_secure_boot = false then
    .error ⟨.runtimeError,
      "Secure Boot guest is blocked; v1.0 does not migrate source Secure Boot trust state"⟩
  else if inspection.source_tpm then
    .error ⟨.runtimeError,
      "source virtual TPM detected; v1.0 refuses to fabricate or discard TPM state"⟩
  else if inspection.os_family = str "windows" ∧ virtio = false then
    .error ⟨.runtimeError, "Windows V2V requires signed VirtIO drivers; configure VIRTIO_WIN or " ++
      "install /usr/share/virtio-win"⟩
  else .ok ()

/-- Inspect a packed guest. -/
def inspectGuest (output : Except Exn Parsed) (flags : Flags) : Except Exn V2VInspection := do
  let root ← reportOf (← output)
  let inspection ← describe lower root flags
  admitGuest limits virtio inspection
  .ok inspection

/-- Inspect a packed guest, and refuse one whose firmware is not attested. -/
def certifiedInspection (output : Except Exn Parsed) (flags : Flags) : Except Exn V2VInspection := do
  let inspection ← inspectGuest lower limits virtio output flags
  if inspection.firmware = .unknown then .error ⟨.runtimeError,
    "guest firmware could not be attested as BIOS or UEFI; built-in V2V refuses to guess"⟩
  else .ok inspection

end Inspecting

section Converting

variable {δ : Type} (reader : Reader δ) (limits : Limits) (virtio : Bool)

/-- A conversion up to its inspection: the inspector is run on the packed guest. -/
def conversion (source : Source δ) (inspector : List (Member Name δ) → Except Exn Parsed) :
    Except Exn V2VInspection := do
  let (archive, flags) ← certifiedPrepareOva reader source
  certifiedInspection reader.lower limits virtio (inspector archive) flags

/-- The firmware that a configuration entry states. -/
def statedBy (entry : Element CodePoint) : Option Hint :=
  if entry.localAttribute (str "key") = some (str "firmware") then
    (entry.localAttribute (str "value")).bind fun value =>
      if reader.lower value = str "efi" then some .uefi
      else if reader.lower value = str "bios" then some .bios
      else none
  else none

/-- The firmware that a descriptor states, and unknown when it states none. -/
def stated (root : Element CodePoint) : Hint :=
  ((root.findall (str "Config")).findSome? (statedBy reader)).getD .unknown

/-- Apart from the words of the descriptor, nothing stands against converting the guest
with this firmware: it can be packed, and with that hint it passes every other check. -/
def Admits (source : Source δ) (inspector : List (Member Name δ) → Except Exn Parsed)
    (firmware : Hint) : Prop :=
  firmware ≠ .unknown ∧ ∃ archive flags inspection,
    certifiedPrepareOva reader source = .ok (archive, flags) ∧
    inspectGuest reader.lower limits virtio (inspector archive)
      { flags with firmware_hint := firmware } = .ok inspection

/-- The inspector reports no firmware. -/
def Silent (inspector : List (Member Name δ) → Except Exn Parsed) : Prop :=
  ∀ archive root, inspector archive = .ok (.tree root) → reportedFirmware reader.lower root = none

/-- A conversion uses the firmware that the descriptor states. It refuses a descriptor that
states none, and a stated firmware that is admitted is used. -/
structure Attests (source : Source δ) (inspector : List (Member Name δ) → Except Exn Parsed)
    (guest : Guest δ) : Prop where
  used : ∀ inspection, conversion reader limits virtio source inspector = .ok inspection →
    inspection.firmware = stated reader guest.root
  refused : stated reader guest.root = .unknown →
    ∃ error, conversion reader limits virtio source inspector = .error error
  kept : Admits reader limits virtio source inspector (stated reader guest.root) →
    ∃ inspection, conversion reader limits virtio source inspector = .ok inspection

/-- For every firmware that is admitted, the words of the descriptor speak for it exactly
when the descriptor states it. -/
def Agrees (source : Source δ) (inspector : List (Member Name δ) → Except Exn Parsed)
    (guest : Guest δ) : Prop :=
  ∀ firmware, Admits reader limits virtio source inspector firmware →
    (evidence (reader.lower (reader.text guest.document)) = firmware ↔
      stated reader guest.root = firmware)

end Converting

section Agreeing

variable {δ : Type} {reader : Reader δ} {limits : Limits} {virtio : Bool} {source : Source δ}
  {inspector : List (Member Name δ) → Except Exn Parsed} {guest : Guest δ}

theorem reportOf_eq_ok_iff {parsed : Parsed} {root : Element CodePoint} :
    reportOf parsed = .ok root ↔ parsed = .tree root := by
  cases parsed with
  | tree found => rw [reportOf, Except.ok.injEq, Parsed.tree.injEq]
  | malformed => exact ⟨fun impossible => (by cases impossible), fun impossible => (by cases impossible)⟩
  | raising error => exact ⟨fun impossible => (by cases impossible), fun impossible => (by cases impossible)⟩

/-- The descriptor of an accepted source is read again as it was. -/
theorem reread_accepted (accepted : Accepted reader source guest) :
    reread reader source = .ok (some (guest.document, guest.root)) := by
  have written : guest.top.find (guest.place ++ [guest.ovf]) = some (.file guest.document) :=
    accepted.written
  simp only [reread, accepted.directory.1, Option.map_some, Option.getD_some, accepted.single,
    Option.bind_some, written, accepted.parsed]

/-- The hint of the certified packaging is what the words of the descriptor speak for. -/
theorem hint_of_certified (accepted : Accepted reader source guest)
    {archive : List (Member Name δ)} {flags : Flags}
    (packed : certifiedPrepareOva reader source = .ok (archive, flags)) :
    flags.firmware_hint = evidence (reader.lower (reader.text guest.document)) := by
  simp only [certifiedPrepareOva, bind_eq_ok, reread_accepted accepted] at packed
  obtain ⟨_, _, again, same, finished⟩ := packed
  obtain rfl := Except.ok.inj same
  obtain ⟨connected, _, last⟩ := bind_eq_ok.mp finished
  obtain ⟨_, rfl⟩ := Prod.mk.inj (Except.ok.inj last)
  rfl

/-- An inspection takes the firmware of the report, and else the hint. -/
theorem firmware_of_inspected {output : Except Exn Parsed} {flags : Flags}
    {inspection : V2VInspection}
    (inspected : inspectGuest reader.lower limits virtio output flags = .ok inspection) :
    ∃ root, output = .ok (.tree root) ∧
      inspection.firmware = (reportedFirmware reader.lower root).getD flags.firmware_hint := by
  simp only [inspectGuest, bind_eq_ok, reportOf_eq_ok_iff] at inspected
  obtain ⟨parsed, printed, root, rfl, described, same, _, _, finished⟩ := inspected
  obtain rfl := Except.ok.inj finished
  simp only [describe, bind_eq_ok] at same
  obtain ⟨_, _, _, _, built⟩ := same
  exact ⟨root, printed, (congrArg V2VInspection.firmware (Except.ok.inj built)).symm⟩

theorem firmware_of_silent (silent : Silent reader inspector) {archive : List (Member Name δ)}
    {flags : Flags} {inspection : V2VInspection}
    (inspected : inspectGuest reader.lower limits virtio (inspector archive) flags =
      .ok inspection) : inspection.firmware = flags.firmware_hint := by
  obtain ⟨root, printed, same⟩ := firmware_of_inspected inspected
  rw [same, silent archive root printed]
  rfl

/-- A conversion succeeds with what the inspection gives, when the firmware is known. -/
theorem conversion_eq_ok_iff {inspection : V2VInspection} :
    conversion reader limits virtio source inspector = .ok inspection ↔
      ∃ archive flags, certifiedPrepareOva reader source = .ok (archive, flags) ∧
        inspectGuest reader.lower limits virtio (inspector archive) flags = .ok inspection ∧
        inspection.firmware ≠ .unknown := by
  simp only [conversion, certifiedInspection, bind_eq_ok]
  constructor
  · rintro ⟨⟨archive, flags⟩, packed, found, inspected, finished⟩
    split at finished
    · cases finished
    · rename_i known
      obtain rfl := Except.ok.inj finished
      exact ⟨archive, flags, packed, inspected, known⟩
  · rintro ⟨archive, flags, packed, inspected, known⟩
    exact ⟨(archive, flags), packed, inspection, inspected, if_neg known⟩

/-- Without a report of the firmware, a conversion uses what the words speak for. -/
theorem firmware_of_conversion (accepted : Accepted reader source guest)
    (silent : Silent reader inspector) {inspection : V2VInspection}
    (converted : conversion reader limits virtio source inspector = .ok inspection) :
    inspection.firmware = evidence (reader.lower (reader.text guest.document)) ∧
      Admits reader limits virtio source inspector inspection.firmware := by
  obtain ⟨archive, flags, packed, inspected, known⟩ := conversion_eq_ok_iff.mp converted
  have used := firmware_of_silent silent inspected
  refine ⟨used.trans (hint_of_certified accepted packed), known, archive, flags, inspection, packed, ?_⟩
  rw [used]
  exact inspected

/-- A firmware that is admitted and for which the words speak is used. -/
theorem conversion_of_evidence (accepted : Accepted reader source guest)
    (silent : Silent reader inspector) {firmware : Hint}
    (admitted : Admits reader limits virtio source inspector firmware)
    (words : evidence (reader.lower (reader.text guest.document)) = firmware) :
    ∃ inspection, conversion reader limits virtio source inspector = .ok inspection ∧
      inspection.firmware = firmware := by
  obtain ⟨known, archive, flags, inspection, packed, inspected⟩ := admitted
  have own : { flags with firmware_hint := firmware } = flags := by
    rw [← words, ← hint_of_certified accepted packed]
  rw [own] at inspected
  have used : inspection.firmware = firmware := by
    rw [firmware_of_silent silent inspected, hint_of_certified accepted packed, words]
  exact ⟨inspection, conversion_eq_ok_iff.mpr ⟨archive, flags, packed, inspected, used ▸ known⟩,
    used⟩

/-- Without a report of the firmware, a conversion uses the stated firmware exactly when,
for every firmware that is admitted, the words of the descriptor speak for it when and only
when it is stated. -/
theorem attests_iff_agrees (accepted : Accepted reader source guest)
    (silent : Silent reader inspector) :
    Attests reader limits virtio source inspector guest ↔
      Agrees reader limits virtio source inspector guest := by
  constructor
  · intro attests firmware admitted
    constructor
    · intro words
      obtain ⟨inspection, converted, rfl⟩ :=
        conversion_of_evidence accepted silent admitted words
      exact (attests.used inspection converted).symm
    · intro states
      obtain ⟨inspection, converted⟩ := attests.kept (states ▸ admitted)
      rw [← (firmware_of_conversion accepted silent converted).1, ← states]
      exact attests.used inspection converted
  · intro agrees
    have used : ∀ inspection, conversion reader limits virtio source inspector = .ok inspection →
        inspection.firmware = stated reader guest.root := by
      intro inspection converted
      obtain ⟨words, admitted⟩ := firmware_of_conversion accepted silent converted
      exact ((agrees _ admitted).mp words.symm).symm
    refine ⟨used, fun nothing => ?_, fun admitted => ?_⟩
    · cases outcome : conversion reader limits virtio source inspector with
      | error error => exact ⟨error, rfl⟩
      | ok inspection =>
        obtain ⟨_, _, _, _, known⟩ := conversion_eq_ok_iff.mp outcome
        exact absurd ((used inspection outcome).trans nothing) known
    · obtain ⟨inspection, converted, _⟩ := conversion_of_evidence accepted silent admitted
        ((agrees _ admitted).mpr rfl)
      exact ⟨inspection, converted⟩

end Agreeing

section Examples

/-- A descriptor that states a firmware and holds an annotation. -/
def describedRoot (value note : String) : Element CodePoint :=
  .element (str "Envelope") [] none [
    .element (str "References") [] none
      [.element (str "File") [(str "href", str "disk.vmdk")] none []],
    .element (str "Config") [(str "key", str "firmware"), (str "value", str value)] none [],
    .element (str "Annotation") [] (some (str note)) []]

def describedDocument (value note : String) : Sample :=
  ⟨161 + value.length + note.length, some (describedRoot value note),
    str ("<Envelope><References><File href='disk.vmdk'/></References>" ++
      "<Config key='firmware' value='" ++ value ++ "'/><Annotation>" ++ note ++
      "</Annotation></Envelope>")⟩

def describedSource (value note : String) : Source Sample :=
  sampleSource (describedDocument value note) 65536

def describedGuest (value note : String) : Guest Sample :=
  sampleGuest (describedDocument value note) (describedRoot value note) 65536

theorem accepted_described (value note : String) :
    Accepted sampleReader (describedSource value note) (describedGuest value note) :=
  accepted_sample 65536 rfl rfl

/-- A report on a Linux guest with one disk, without its firmware. -/
def silentReport : Element CodePoint :=
  .element (str "virt-v2v-inspection") [] none [
    .element (str "operatingsystem") [] none [
      .element (str "name") [] (some (str "linux")) [],
      .element (str "arch") [] (some (str "x86_64")) []],
    .element (str "disks") [] none
      [.element (str "disk") [] none [.element (str "virtual-size") [] (some (str "65536")) []]]]

def silentInspector (_archive : List (Member Name Sample)) : Except Exn Parsed :=
  .ok (.tree silentReport)

theorem silent_inspector : Silent sampleReader silentInspector := by
  intro archive root same
  obtain rfl := Parsed.tree.inj (Except.ok.inj same)
  decide

/-- A descriptor that states EFI is converted with UEFI. -/
theorem stated_efi_attested :
    Attests sampleReader {} true (describedSource "efi" "web") silentInspector
      (describedGuest "efi" "web") := by
  refine (attests_iff_agrees (accepted_described "efi" "web") silent_inspector).mpr fun _ _ => ?_
  have words : evidence (sampleReader.lower (sampleReader.text (describedDocument "efi" "web"))) =
      .uefi := by decide +kernel
  have states : stated sampleReader (describedRoot "efi" "web") = .uefi := by decide
  exact Eq.congr_left (words.trans states.symm)

/-- A descriptor that states BIOS and calls its guest predefined is converted with UEFI. -/
theorem stated_bios_overridden :
    ¬ ∀ (source : Source Sample) (guest : Guest Sample)
        (inspector : List (Member Name Sample) → Except Exn Parsed),
      Accepted sampleReader source guest → Silent sampleReader inspector →
      stated sampleReader guest.root ≠ .unknown →
      ∀ inspection, conversion sampleReader {} true source inspector = .ok inspection →
        inspection.firmware = stated sampleReader guest.root := by
  intro attested
  have states : stated sampleReader (describedRoot "bios" "predefined") = .bios := by decide
  have converted : conversion sampleReader {} true (describedSource "bios" "predefined")
      silentInspector = .ok ⟨str "linux", [], [], str "x86_64", .uefi, 1, 65536, false, false, []⟩ := by
    decide +kernel
  have same := attested _ (describedGuest "bios" "predefined") _
    (accepted_described "bios" "predefined") silent_inspector
    (fun unknown => by cases states.symm.trans unknown) _ converted
  cases same.trans states

end Examples

end Immutavault.FirmwareEvidence
