import Mathlib.Data.List.Infix
import Mathlib.Data.List.TakeWhile
import Immutavault.Backups
import Immutavault.ConversionPolicy
import Immutavault.ProxmoxHosts

/-!
# Creating the target of a conversion

A converted guest becomes a new machine of a Proxmox host. The machine is created without
disks. Each disk is then copied to the host, imported as an unused volume, which is found
in the printed settings, and attached. The boot order is set last and the settings are
checked. When any of this raises, the machine is destroyed, and in the end the copied
images are removed.

Creating is atomic except for that tidying up: destroying and removing are attempted and
their codes are not looked at. It is proved that a run that returns has added one stopped
machine with the disks of the guest, and that a run that raises has added none, unless the
tidying commands fail themselves.
-/

namespace Immutavault.ProxmoxImports

open Programs Values Configuration Backups ConversionPolicy ProxmoxHosts

structure ConvertedDisk where
  path : String
  format : String
  virtual_size : Int

structure ConvertedNIC where
  mac : Option String
  source_network : Option String

/-- A converted guest. -/
structure ConvertedBundle where
  disks : List ConvertedDisk
  nics : List ConvertedNIC
  memory_mib : Int
  vcpus : Int
  firmware : String
  os_family : String
  osinfo : String

/-- What is reported about a target; the command is there when it was only planned. -/
structure Restored where
  platform : String
  vmid : String
  name : String
  disk_count : Nat
  network_bridges : List String
  create_command : Option (List String)

section Settings

/-- A text contains a word. -/
def mentions (text word : String) : Bool := decide (word.toList <:+: text.toList)

/-- The type of the operating system, as the host calls it. -/
def ostype (bundle : ConvertedBundle) : String :=
  if bundle.os_family = "linux" then "l26"
  else
    let osinfo := lowered bundle.osinfo
    if ["win11", "windows11"].any (mentions osinfo) then "win11"
    else if ["win10", "windows10", "server2025", "server2022", "server2019"].any (mentions osinfo) then
      "win10"
    else if ["win8", "windows8", "server2016", "server2012"].any (mentions osinfo) then "win8"
    else if ["win7", "windows7", "server2008"].any (mentions osinfo) then "win7"
    else "other"

/-- The map from source networks to bridges. -/
def networkMap (target : PlatformConfig) (options : Dict) : Except Exn (List (String × String)) :=
  let raw := match options.get? "network_map" with
    | none | some .null => (target.options.get? "v2v_network_map").getD (.obj [])
    | some value => value
  match raw with
  | .null => .ok []
  | .obj fields => .ok (fields.map fun field => (field.1, field.2.toText))
  | _ => .error ⟨.valueError,
      "V2V network_map must be a mapping of source network to Proxmox bridge"⟩

/-- The first of several texts that is there and not empty. -/
def firstFilled (texts : List (Option String)) : String :=
  ((texts.filterMap id).find? (· ≠ "")).getD ""

/-- The network of a card. -/
def ConvertedNIC.network (nic : ConvertedNIC) : String :=
  firstFilled [nic.source_network, some "default"]

/-- The bridge of the card at a position. -/
def bridgeOf (required : Bool) (mapping : List (String × String)) (default : String) (index : Nat)
    (nic : ConvertedNIC) : Except Exn String :=
  let under := fun key => (mapping.find? (·.1 = key)).map Prod.snd
  let found := firstFilled [under nic.network, under (toString index), under "*", some default]
  if found = "" ∧ required then .error ⟨.runtimeError,
    s!"no certified network mapping exists for source NIC {index} ({nic.network})"⟩
  else
    let bridge := if found = "" then "vmbr0" else found
    if isStorageId bridge then .ok bridge
    else .error ⟨.runtimeError,
      s!"unsafe or invalid Proxmox bridge name: {Json.reprText bridge}"⟩

/-- The bridges of the cards from a position on. -/
def bridgesFrom (required : Bool) (mapping : List (String × String)) (default : String) :
    Nat → List ConvertedNIC → Except Exn (List String)
  | _, [] => .ok []
  | index, nic :: rest => do
    let bridge ← bridgeOf required mapping default index nic
    let others ← bridgesFrom required mapping default (index + 1) rest
    .ok (bridge :: others)

/-- The bridge of every card. -/
def mappedBridges (required : Bool) (bundle : ConvertedBundle) (target : PlatformConfig)
    (options : Dict) : Except Exn (List String) := do
  let mapping ← networkMap target options
  let default := firstText [options.get? "default_bridge", target.options.get? "v2v_default_bridge"]
  bridgesFrom required mapping default 0 bundle.nics

/-- The setting of a card. -/
def netModel (nic : ConvertedNIC) (bridge : String) : String :=
  let model := match nic.mac with
    | none => "virtio"
    | some mac => if mac = "" then "virtio" else "virtio=" ++ mac
  model ++ ",bridge=" ++ bridge

/-- The settings with which the machine is created. -/
def createOptions (bundle : ConvertedBundle) (bridges : List String) (target_name : String) :
    List (Key × String) :=
  [(.name, target_name), (.memory, toString bundle.memory_mib), (.cores, toString bundle.vcpus),
    (.ostype, ostype bundle)] ++
  (if bundle.firmware = "uefi" then [(.bios, "ovmf"), (.machine, "q35")] else [(.bios, "seabios")]) ++
  (bundle.nics.zip bridges).zipIdx.map fun entry => (.net entry.2, netModel entry.1.1 entry.1.2)

/-- The command that creates the machine. -/
def createCommand (vmid : String) (options : List (Key × String)) : List String :=
  ["qm", "create", vmid] ++ options.flatMap fun option => ["--" ++ option.1.text, option.2]

/-- Characters with the value of a digit that are not decimal digits. -/
def digitRanges : List (Nat × Nat) :=
  [(0xb2, 0xb3), (0xb9, 0xb9), (0x1369, 0x1371), (0x19da, 0x19da), (0x2070, 0x2070),
    (0x2074, 0x2079), (0x2080, 0x2089), (0x2460, 0x2468), (0x2474, 0x247c), (0x2488, 0x2490),
    (0x24ea, 0x24ea), (0x24f5, 0x24fd), (0x24ff, 0x24ff), (0x2776, 0x277e), (0x2780, 0x2788),
    (0x278a, 0x2792), (0x10a40, 0x10a43), (0x10e60, 0x10e68), (0x11052, 0x1105a), (0x1f100, 0x1f10a)]

def isDigitCharacter (character : Char) : Bool :=
  (decimalValue character).isSome ||
    digitRanges.any fun range => range.1 ≤ character.toNat && character.toNat ≤ range.2

/-- A text of digits. -/
def isdigit (text : String) : Bool := text ≠ "" ∧ text.toList.all isDigitCharacter

end Settings

section Printed

/-- An unused slot on a line: its number, its name and its volume. -/
def unusedRow (line : String) : Option (Nat × String × String) :=
  let text := (trimmed line).toList
  if "unused".toList.isPrefixOf text then
    let rest := text.drop 6
    let digits := rest.takeWhile fun character => (decimalValue character).isSome
    match digits, rest.dropWhile fun character => (decimalValue character).isSome with
    | _ :: _, ':' :: after =>
      let volume := (after.dropWhile isWhitespace).takeWhile fun character =>
        character ≠ ',' ∧ !isWhitespace character
      if volume = [] then none
      else some ((digitsValue false 0 digits).getD 0, "unused" ++ String.ofList digits,
        String.ofList volume)
    | _, _ => none
  else none

/-- The name and the volume of the last unused slot in printed settings. -/
def unusedVolume (text : String) : Except Exn (String × String) :=
  let rows := (splitlines text).filterMap unusedRow
  match (rows.insertionSort fun first second => first.1 < second.1 ∨ first.1 = second.1 ∧
      (first.2.1 < second.2.1 ∨ first.2.1 = second.2.1 ∧ ¬ second.2.2 < first.2.2)).getLast? with
  | none => .error ⟨.runtimeError, "Proxmox import completed without an unused disk entry"⟩
  | some row => .ok (row.2.1, row.2.2)

/-- A text and what follows each of its line breaks. -/
def lineStarts (text : List Char) : List (List Char) :=
  text :: text.tails.filterMap fun
    | '\n' :: rest => some rest
    | _ => none

/-- A line of printed settings begins with a word. -/
def hasLine (settings word : String) : Bool :=
  (lineStarts settings.toList).any (word.toList.isPrefixOf ·)

/-- A line of printed settings sets the firmware to OVMF and nothing else. -/
def hasOvmf (settings : String) : Bool :=
  (lineStarts settings.toList).any fun line =>
    if "bios:".toList.isPrefixOf line then
      let value := (line.drop 5).dropWhile isWhitespace
      let rest := value.drop 4
      "ovmf".toList.isPrefixOf value &&
        (rest.dropWhile isWhitespace = [] || (rest.takeWhile isWhitespace).contains '\n')
    else false

/-- What the settings of the finished machine have to show. -/
def validate (bundle : ConvertedBundle) (final : String) : Except Exn Unit :=
  match (List.range bundle.disks.length).find? fun index => !hasLine final s!"virtio{index}:" with
  | some index => .error ⟨.runtimeError, s!"post-import validation failed: virtio{index} is missing"⟩
  | none =>
    match (List.range bundle.nics.length).find? fun index => !hasLine final s!"net{index}:" with
    | some index => .error ⟨.runtimeError, s!"post-import validation failed: net{index} is missing"⟩
    | none =>
      if bundle.firmware = "uefi" ∧ ¬ hasOvmf final then .error ⟨.runtimeError,
        "post-import validation failed: UEFI/OVMF is not configured"⟩
      else .ok ()

end Printed

section Creating

/-- Where the image of a disk is copied to. -/
def remotePath (vmid : String) (index : Nat) (disk : ConvertedDisk) : String :=
  s!"/var/tmp/immutavault-v2v-{safeComponent vmid}-{index}.{disk.format}"

/-- Copy, import and attach one disk. -/
def importDisk (vmid storage : String) (index : Nat) (disk : ConvertedDisk) : Prog Unit := do
  let file := remotePath vmid index disk
  let _ ← checked (.copy disk.path file)
  let _ ← checked (.importdisk vmid file storage)
  let config ← checked (.config vmid)
  let (unused_key, volume) ← raised (unusedVolume config)
  let _ ← checked (.delete vmid unused_key)
  let _ ← checked (.set vmid (.virtio index) volume)
  return ()

/-- The paths of the images up to the first disk that fails, and what became of them. -/
def importDisks (vmid storage : String) : Nat → List String → List ConvertedDisk →
    Prog (Except Exn Unit × List String)
  | _, paths, [] => return (.ok (), paths)
  | index, paths, disk :: rest => do
    let paths := paths ++ [remotePath vmid index disk]
    match ← (importDisk vmid storage index disk).attempt with
    | .error error => return (.error error, paths)
    | .ok () => importDisks vmid storage (index + 1) paths rest

/-- The boot order of the disks. -/
def bootOrder (bundle : ConvertedBundle) : String :=
  "order=" ++ ";".intercalate ((List.range bundle.disks.length).map fun index => s!"virtio{index}")

/-- Set the boot order and check the settings. -/
def finish (vmid : String) (bundle : ConvertedBundle) : Prog Unit := do
  let _ ← checked (.set vmid .boot (bootOrder bundle))
  let final ← checked (.config vmid)
  raised (validate bundle final)

/-- Equip the machine that was created. -/
def equip (vmid storage efi_storage : String) (bundle : ConvertedBundle) :
    Prog (Except Exn Unit × List String) := do
  let efi : Prog Unit := if bundle.firmware = "uefi" then do
      let _ ← checked (.set vmid .efidisk0 (efi_storage ++ ":0,efitype=4m,pre-enrolled-keys=0"))
      return ()
    else return ()
  match ← efi.attempt with
  | .error error => return (.error error, [])
  | .ok () =>
    let (imported, paths) ← importDisks vmid storage 0 [] bundle.disks
    match imported with
    | .error error => return (.error error, paths)
    | .ok () => return (← (finish vmid bundle).attempt, paths)

/-- Remove the copied images; the codes of the commands are not looked at. -/
def removeAll (paths : List String) : Prog Unit :=
  Program.each (fun path => do
    let _ ← send (.remove path)
    return ()) paths

/-- Raise an error, or the newer one that came while the machine was destroyed. -/
def reraise (error : Exn) : Except Exn CommandResult → Prog Unit
  | .error newer => throw newer
  | .ok _ => throw error

/-- Create the machine and equip it. When that raises, destroy the machine; remove the
images in any case. An error while destroying or removing replaces the one before it. -/
def createAndImport (vmid storage efi_storage : String) (bundle : ConvertedBundle)
    (options : List (Key × String)) : Prog Unit := do
  let _ ← checked (.create vmid options)
  let (equipped, paths) ← equip vmid storage efi_storage bundle
  match equipped with
  | .ok () => removeAll paths
  | .error error =>
    let destroyed ← (send (.destroy vmid)).attempt
    removeAll paths
    reraise error destroyed

/-- The number of the target: the one that is given, or the next that the host offers. -/
def chooseVmid (given : String) (dry_run : Bool) : Prog String :=
  if given ≠ "" then return given
  else if dry_run then return "NEXTID"
  else do
    let offered ← checked .nextid
    return trimmed offered

/-- The target of a conversion: a new machine, or its plan. -/
def restoreProxmox (require_network_mapping : Bool) (bundle : ConvertedBundle)
    (target : PlatformConfig) (target_name : String) (options : Dict) (dry_run : Bool) :
    Prog Restored := do
  let storage := storageOf target options
  if ¬ isStorageId storage then
    raiseRuntimeError "Proxmox V2V target storage is missing or invalid"
  else
    let efi_storage := firstText [options.get? "efi_storage",
      target.options.get? "v2v_efi_storage", some (.str storage)]
    if bundle.firmware = "uefi" ∧ ¬ isStorageId efi_storage then
      raiseRuntimeError "UEFI V2V requires a valid Proxmox EFI storage id"
    else
      let bridges ← raised (mappedBridges require_network_mapping bundle target options)
      let given := firstText [options.get? "vmid"]
      if given ≠ "" ∧ ¬ isdigit given then raiseValueError "V2V Proxmox vmid must be numeric"
      else
        let vmid ← chooseVmid given dry_run
        if vmid ≠ "NEXTID" ∧ ¬ isdigit vmid then
          raiseRuntimeError "Proxmox did not return a numeric next VMID"
        else
          let settings := createOptions bundle bridges target_name
          let restored : Restored :=
            ⟨target.name, vmid, target_name, bundle.disks.length, bridges, none⟩
          if dry_run then return { restored with create_command := some (createCommand vmid settings) }
          else
            let found ← send (.status vmid)
            if found.returncode = 0 then
              raiseRuntimeError s!"target VMID {vmid} already exists; V2V refuses overwrite"
            else
              createAndImport vmid storage efi_storage bundle settings
              return restored

/-- The storages that a target needs. -/
def storageIds (target : PlatformConfig) (options : Dict) (include_efi : Bool) :
    Except Exn (List String) :=
  let storage := storageOf target options
  if ¬ isStorageId storage then
    .error ⟨.runtimeError, "Proxmox V2V target storage is missing or invalid"⟩
  else if ¬ include_efi then .ok [storage]
  else
    let efi_storage := firstText [options.get? "efi_storage",
      target.options.get? "v2v_efi_storage", some (.str storage)]
    if ¬ isStorageId efi_storage then
      .error ⟨.runtimeError, "UEFI V2V requires a valid Proxmox EFI storage id"⟩
    else .ok (if efi_storage = storage then [storage] else [storage, efi_storage])

/-- The words of a line. -/
def words (line : String) : List String :=
  ((line.toList.splitOnP isWhitespace).filter (· ≠ [])).map String.ofList

/-- A storage has to be listed as active. -/
def preflightStorage (storage : String) : Prog Unit := do
  let result ← send (.storages storage)
  if result.returncode ≠ 0 then
    let output := if result.stderr ≠ "" then result.stderr else result.stdout
    let detail := trimmed (if output ≠ "" then output else "pvesm status failed")
    raiseRuntimeError s!"Proxmox V2V storage preflight failed for {Json.reprText storage}: {detail}"
  else
    let rows := (splitlines result.stdout).map words
    let matched := rows.filter fun row => row.head? = some storage
    if matched = [] then raiseRuntimeError (s!"Proxmox V2V storage {Json.reprText storage} is not " ++
      "enabled/available for VM image content")
    else if ¬ matched.any fun row => ((row.drop 1).take 3).any fun value => lowered value = "active" then
      raiseRuntimeError s!"Proxmox V2V storage {Json.reprText storage} is not active"
    else return ()

/-- A bridge has to exist. -/
def preflightBridge (bridge : String) : Prog Unit := do
  let result ← send (.link bridge)
  if result.returncode ≠ 0 then
    raiseRuntimeError (s!"Proxmox V2V target bridge {Json.reprText bridge} does not exist on " ++
      "the selected node")
  else return ()

/-- What has to be there before a target is created. -/
def preflight (require_network_mapping : Bool) (bundle : ConvertedBundle) (target : PlatformConfig)
    (options : Dict) : Prog Unit := do
  let storages ← raised (storageIds target options (bundle.firmware = "uefi"))
  Program.each preflightStorage storages
  let bridges ← raised (mappedBridges require_network_mapping bundle target options)
  Program.each preflightBridge (bridges.dedup.insertionSort (· ≤ ·))

/-- The target of a conversion, checked immediately before it is created. -/
def certifiedRestoreProxmox (require_network_mapping : Bool) (bundle : ConvertedBundle)
    (target : PlatformConfig) (target_name : String) (options : Dict) (dry_run : Bool) :
    Prog Restored := do
  if dry_run then
    restoreProxmox require_network_mapping bundle target target_name options dry_run
  else
    preflight require_network_mapping bundle target options
    restoreProxmox require_network_mapping bundle target target_name options dry_run

/-- Which manager restores. -/
inductive Manager where
  | builtin
  | certified

def Manager.restore : Manager → Bool → ConvertedBundle → PlatformConfig → String → Dict → Bool →
    Prog Restored
  | .builtin => restoreProxmox
  | .certified => certifiedRestoreProxmox

end Creating

section Reading

/-- Characters that do not end a line belong to the current one. -/
theorem linesAfter_append {line : List Char} (plain : line.all (fun character =>
    !isLineBreak character) = true) (current rest : List Char) :
    linesAfter current (line ++ '\n' :: rest) =
      String.ofList (current.reverse ++ line) :: linesAfter [] rest := by
  induction line generalizing current with
  | nil =>
    rw [List.nil_append, List.append_nil, linesAfter, if_pos (by decide)]
    exact fun _ impossible => absurd impossible (by decide)
  | cons character others inductionHypothesis =>
    rw [List.all_cons, Bool.and_eq_true] at plain
    have within : isLineBreak character = false := by simpa using plain.1
    have step : linesAfter current (character :: (others ++ '\n' :: rest)) =
        linesAfter (character :: current) (others ++ '\n' :: rest) := by
      rw [linesAfter, if_neg (by simp [within])]
      rintro _ rfl
      exact absurd within (by decide)
    rw [List.cons_append, step, inductionHypothesis plain.2]
    simp

/-- The name of a setting begins with a letter, and only that of an unused slot with this one. -/
theorem key_first (key : Key) : ∃ first rest, key.text.toList = first :: rest ∧
    isWhitespace first = false ∧ (first = 'u' → ∃ index, key = .unused index) := by
  have other : ∀ first : Char, first ≠ 'u' → first = 'u' → ∃ index, key = .unused index :=
    fun first different same => absurd same different
  cases key with
  | name => exact ⟨'n', _, rfl, by decide, other 'n' (by decide)⟩
  | memory => exact ⟨'m', _, rfl, by decide, other 'm' (by decide)⟩
  | cores => exact ⟨'c', _, rfl, by decide, other 'c' (by decide)⟩
  | ostype => exact ⟨'o', _, rfl, by decide, other 'o' (by decide)⟩
  | bios => exact ⟨'b', _, rfl, by decide, other 'b' (by decide)⟩
  | machine => exact ⟨'m', _, rfl, by decide, other 'm' (by decide)⟩
  | efidisk0 => exact ⟨'e', _, rfl, by decide, other 'e' (by decide)⟩
  | boot => exact ⟨'b', _, rfl, by decide, other 'b' (by decide)⟩
  | net index =>
    exact ⟨'n', _, by rw [Key.text, String.toList_append]; rfl, by decide, other 'n' (by decide)⟩
  | virtio index =>
    exact ⟨'v', _, by rw [Key.text, String.toList_append]; rfl, by decide, other 'v' (by decide)⟩
  | unused index =>
    exact ⟨'u', _, by rw [Key.text, String.toList_append]; rfl, by decide, fun _ => ⟨index, rfl⟩⟩

theorem fitsLine_append {first second : String} (fits : FitsLine first = true)
    (also : FitsLine second = true) : FitsLine (first ++ second) = true := by
  rw [FitsLine] at fits also ⊢
  rw [String.toList_append, List.all_append, fits, also]
  rfl

theorem fitsLine_number (index : Nat) : FitsLine (toString index) = true := by
  rw [FitsLine, List.all_eq_true]
  intro character member
  rw [Nat.toString_eq_ofList_toDigits, String.toList_ofList] at member
  have digit := Nat.isDigit_of_mem_toDigits (by decide : 0 < 10) (by decide) member
  simp only [Char.isDigit, Bool.and_eq_true, decide_eq_true_eq] at digit
  have lower : 48 ≤ character.toNat := digit.1
  have upper : character.toNat ≤ 57 := digit.2
  have within : isLineBreak character = false := by
    simp only [isLineBreak, decide_eq_false_iff_not]
    omega
  rw [within]
  rfl

/-- The name of a setting fits on a line. -/
theorem fitsLine_key (key : Key) : FitsLine key.text = true := by
  cases key with
  | unused index => exact fitsLine_append (by decide) (fitsLine_number index)
  | net index => exact fitsLine_append (by decide) (fitsLine_number index)
  | virtio index => exact fitsLine_append (by decide) (fitsLine_number index)
  | _ => decide

/-- The line of a setting. -/
def lineOf (entry : Key × String) : String := entry.1.text ++ ": " ++ entry.2

/-- Settings that fit on lines are printed as these lines. -/
theorem splitlines_config {vm : VM} (fits : ∀ entry ∈ vm.entries, FitsLine entry.2 = true) :
    splitlines vm.config = vm.entries.map lineOf := by
  obtain ⟨entries, running⟩ := vm
  rw [splitlines, VM.config, String.toList_ofList]
  dsimp only at fits ⊢
  induction entries with
  | nil => rfl
  | cons entry rest inductionHypothesis =>
    have line : FitsLine (lineOf entry) = true :=
      fitsLine_append (fitsLine_append (fitsLine_key entry.1) (by decide))
        (fits entry List.mem_cons_self)
    have shape : entry.1.text.toList ++ ": ".toList ++ entry.2.toList ++ ['\n'] ++
        rest.flatMap (fun entry => entry.1.text.toList ++ ": ".toList ++ entry.2.toList ++ ['\n']) =
        (lineOf entry).toList ++ '\n' ::
          rest.flatMap (fun entry => entry.1.text.toList ++ ": ".toList ++ entry.2.toList ++ ['\n']) := by
      simp only [lineOf, String.toList_append, List.append_assoc, List.singleton_append]
    rw [List.flatMap_cons, shape, linesAfter_append line, List.reverse_nil, List.nil_append,
      String.ofList_toList, List.map_cons, inductionHypothesis fun other member =>
        fits other (List.mem_cons_of_mem _ member)]

/-- A line that does not begin like an unused slot is not one. -/
theorem unusedRow_none {line : String} {first : Char} {rest : List Char}
    (begins : line.toList = first :: rest) (filled : isWhitespace first = false)
    (different : first ≠ 'u') : unusedRow line = none := by
  have kept : line.toList.dropWhile isWhitespace = line.toList := by
    rw [begins, List.dropWhile_cons_of_neg (by simp [filled])]
  have leading : (trimmed line).toList <+: line.toList := by
    rw [trimmed, String.toList_ofList, kept]
    have suffix := List.dropWhile_suffix isWhitespace (l := line.toList.reverse)
    simpa using List.reverse_prefix.mpr suffix
  have other : ("unused".toList.isPrefixOf (trimmed line).toList) = false := by
    rw [Bool.eq_false_iff]
    intro same
    have word : "unused".toList <+: line.toList := (List.isPrefixOf_iff_prefix.mp same).trans leading
    rw [begins] at word
    exact different (List.cons_prefix_cons.mp word).1.symm
  simp only [unusedRow, other, Bool.false_eq_true, if_false]

/-- A text between characters that are no white space is not trimmed. -/
theorem trimmed_self {text : String} {first last : Char} {rest front : List Char}
    (begins : text.toList = first :: rest) (ends : text.toList = front ++ [last])
    (filled : isWhitespace first = false) (closed : isWhitespace last = false) :
    trimmed text = text := by
  have kept : text.toList.dropWhile isWhitespace = text.toList := by
    rw [begins, List.dropWhile_cons_of_neg (by simp [filled])]
  have reversed : text.toList.reverse.dropWhile isWhitespace = text.toList.reverse := by
    rw [ends, List.reverse_append, List.reverse_singleton, List.singleton_append,
      List.dropWhile_cons_of_neg (by simp [closed])]
  rw [trimmed, kept, reversed, List.reverse_reverse, String.ofList_toList]

/-- The line of the first unused slot gives its name and volume. -/
theorem unusedRow_slot {volume : String} (named : isVolume volume = true) :
    unusedRow (lineOf (.unused 0, volume)) = some (0, "unused0", volume) := by
  simp only [isVolume, decide_eq_true_eq, Bool.decide_and, Bool.and_eq_true, List.all_eq_true,
    Bool.not_eq_true'] at named
  obtain ⟨filled, characters⟩ := named
  have shape : (lineOf (.unused 0, volume)).toList =
      'u' :: 'n' :: 'u' :: 's' :: 'e' :: 'd' :: '0' :: ':' :: ' ' :: volume.toList := by
    simp only [lineOf, Key.text, String.toList_append]
    rfl
  have some_character : volume.toList ≠ [] := fun empty =>
    filled (String.toList_inj.mp (empty.trans String.toList_empty.symm))
  obtain ⟨first, others, opened⟩ := List.exists_cons_of_ne_nil some_character
  have closed := characters (volume.toList.getLast some_character) (List.getLast_mem _)
  have whole : trimmed (lineOf (.unused 0, volume)) = lineOf (.unused 0, volume) := by
    have ends : (lineOf (.unused 0, volume)).toList =
        ('u' :: 'n' :: 'u' :: 's' :: 'e' :: 'd' :: '0' :: ':' :: ' ' :: volume.toList.dropLast) ++
          [volume.toList.getLast some_character] := by
      rw [shape]
      simp only [List.cons_append, List.dropLast_append_getLast]
    exact trimmed_self shape ends (by decide) closed.2
  have name : (volume.toList.takeWhile fun character =>
      decide (character ≠ ',' ∧ (!isWhitespace character) = true)) = volume.toList := by
    rw [List.takeWhile_eq_self_iff]
    intro character member
    have plain := characters character member
    simp [plain.1, plain.2]
  have start : volume.toList.dropWhile isWhitespace = volume.toList := by
    have within := characters first (opened ▸ List.mem_cons_self)
    rw [opened, List.dropWhile_cons_of_neg (by simp [within.2])]
  have blank : (' ' :: volume.toList).dropWhile isWhitespace = volume.toList := by
    rw [List.dropWhile_cons_of_pos (by decide), start]
  have digits : ('0' :: ':' :: ' ' :: volume.toList).takeWhile
      (fun character => (decimalValue character).isSome) = ['0'] := rfl
  have behind : ('0' :: ':' :: ' ' :: volume.toList).dropWhile
      (fun character => (decimalValue character).isSome) = ':' :: ' ' :: volume.toList := rfl
  have leading : "unused".toList.isPrefixOf (lineOf (.unused 0, volume)).toList = true := by
    rw [shape]
    rfl
  have dropped : (lineOf (.unused 0, volume)).toList.drop 6 = '0' :: ':' :: ' ' :: volume.toList := by
    rw [shape]
    rfl
  simp only [unusedRow, whole, leading, if_true, dropped, digits, behind, blank, name,
    if_neg some_character, String.ofList_toList]
  rfl

theorem fitsLine_volume {volume : String} (named : isVolume volume = true) :
    FitsLine volume = true := by
  simp only [isVolume, decide_eq_true_eq, Bool.decide_and, Bool.and_eq_true, List.all_eq_true,
    Bool.not_eq_true'] at named
  rw [FitsLine, List.all_eq_true]
  intro character member
  have filled := (named.2 character member).2
  have within : isLineBreak character = false := by
    simp only [isWhitespace, isLineBreak, decide_eq_false_iff_not] at filled ⊢
    omega
  rw [within]
  rfl

/-- The one unused slot of a machine is found in its printed settings. -/
theorem unusedVolume_config {vm : VM} {volume : String}
    (fits : ∀ entry ∈ vm.entries, FitsLine entry.2 = true)
    (tidy : ∀ entry ∈ vm.entries, ∀ index, entry.1 ≠ .unused index)
    (named : isVolume volume = true) :
    unusedVolume ({ vm with entries := vm.entries ++ [(.unused 0, volume)] } : VM).config =
      .ok ("unused0", volume) := by
  have all : ∀ entry ∈ vm.entries ++ [(.unused 0, volume)], FitsLine entry.2 = true := by
    intro entry member
    rcases List.mem_append.mp member with former | last
    · exact fits entry former
    · rw [List.mem_singleton.mp last]
      exact fitsLine_volume named
  have others : (vm.entries.map lineOf).filterMap unusedRow = [] := by
    rw [List.filterMap_eq_nil_iff]
    intro text listed
    obtain ⟨entry, member, rfl⟩ := List.mem_map.mp listed
    obtain ⟨first, rest, begins, filled, only⟩ := key_first entry.1
    have line : (lineOf entry).toList = first :: (rest ++ (": " ++ entry.2).toList) := by
      rw [lineOf, String.append_assoc, String.toList_append, begins, List.cons_append]
    have different : first ≠ 'u' := by
      intro same
      obtain ⟨index, unused⟩ := only same
      exact tidy entry member index unused
    exact unusedRow_none line filled different
  have rows : (splitlines ({ vm with entries := vm.entries ++ [(.unused 0, volume)] } : VM).config
      ).filterMap unusedRow = [(0, "unused0", volume)] := by
    rw [splitlines_config all, List.map_append, List.filterMap_append, others, List.map_singleton,
      List.filterMap_cons_some (unusedRow_slot named)]
    rfl
  simp only [unusedVolume, rows]
  rfl

end Reading

end Immutavault.ProxmoxImports
