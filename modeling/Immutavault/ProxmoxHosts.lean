import Mathlib.Logic.Function.Basic
import Immutavault.Programs
import Immutavault.Values

/-!
# A Proxmox host and its commands

A host has machines under numbers, files, and volumes that belong to a machine. A machine
is a list of settings and runs or does not. A command that is obeyed changes the host or is
refused by it: a number that is taken is not created, an absent machine is not changed, a
value that does not fit on a line is not set, and only a volume that is there is attached.

An oracle says of every command, by its position in the run, whether it is obeyed, ends
with a failing code, or is broken off by an error. A command that is not obeyed has no
effect. Which volume an import allocates, and whether deleting an unused setting frees its
volume, is left to the host.
-/

namespace Immutavault.ProxmoxHosts

open Programs Values

/-- The settings of a machine. -/
inductive Key where
  | name
  | memory
  | cores
  | ostype
  | bios
  | machine
  | efidisk0
  | boot
  | net (index : Nat)
  | virtio (index : Nat)
  | unused (index : Nat)
  deriving DecidableEq

def Key.text : Key → String
  | .name => "name"
  | .memory => "memory"
  | .cores => "cores"
  | .ostype => "ostype"
  | .bios => "bios"
  | .machine => "machine"
  | .efidisk0 => "efidisk0"
  | .boot => "boot"
  | .net index => "net" ++ toString index
  | .virtio index => "virtio" ++ toString index
  | .unused index => "unused" ++ toString index

/-- A machine: its settings, and whether it runs. -/
structure VM where
  entries : List (Key × String)
  running : Bool := false

namespace VM

variable (vm : VM)

/-- The value of a setting. -/
def get (key : Key) : Option String := (vm.entries.find? (·.1 = key)).map Prod.snd

/-- Change a setting. -/
def set (key : Key) (value : String) : VM :=
  { vm with entries := vm.entries.filter (·.1 ≠ key) ++ [(key, value)] }

/-- Delete the setting with a name. -/
def delete (name : String) : VM := { vm with entries := vm.entries.filter (·.1.text ≠ name) }

/-- The first unused slot. -/
def slot : Nat :=
  ((List.range (vm.entries.length + 1)).find? fun index =>
    vm.entries.all fun entry => entry.1 ≠ .unused index).getD 0

/-- The settings as they are printed, one on a line. -/
def config : String :=
  String.ofList (vm.entries.flatMap fun entry =>
    entry.1.text.toList ++ ": ".toList ++ entry.2.toList ++ ['\n'])

end VM

/-- Machines by their numbers, files with the image that each holds, and volumes with
their machine and image. -/
structure Host where
  machines : String → Option VM
  files : String → Option String
  volumes : String → Option (String × String)

/-- What is asked of a host. -/
inductive Remote where
  | nextid
  | status (vmid : String)
  | create (vmid : String) (options : List (Key × String))
  | set (vmid : String) (key : Key) (value : String)
  | delete (vmid name : String)
  | importdisk (vmid remote storage : String)
  | config (vmid : String)
  | destroy (vmid : String)
  | copy (image remote : String)
  | remove (remote : String)
  | storages (storage : String)
  | link (bridge : String)

/-- The commands that undo and tidy up. -/
def Remote.Tidies : Remote → Prop
  | .destroy _ | .remove _ => True
  | _ => False

/-- The commands that only read. -/
def Remote.Reads : Remote → Prop
  | .nextid | .status _ | .config _ | .storages _ | .link _ => True
  | _ => False

/-- What a finished command leaves behind. -/
structure CommandResult where
  returncode : Int
  stdout : String
  stderr : String

abbrev remote : Interface := ⟨Remote, fun _ => CommandResult⟩

abbrev Prog := Program remote Exn

/-- A value that is printed on one line. -/
def FitsLine (value : String) : Bool := value.toList.all fun character => !isLineBreak character

/-- The name of a volume has neither white space nor a comma. -/
def isVolume (name : String) : Bool :=
  name ≠ "" ∧ name.toList.all fun character => character ≠ ',' ∧ !isWhitespace character

/-- What is left to the host. -/
structure Platform where
  nextid : Host → String
  volume : Host → String → String → String
  frees : Bool
  storages : Host → String → Option String
  link : Host → String → Bool

section Effects

variable (platform : Platform)

/-- Change a machine that is there. -/
def Host.change (host : Host) (vmid : String) (change : VM → Option VM) : Option Host := do
  let vm ← host.machines vmid
  let changed ← change vm
  some { host with machines := Function.update host.machines vmid (some changed) }

/-- Set a value that fits. A disk is attached only from a volume that is there. -/
def Host.set (host : Host) (vmid : String) (key : Key) (value : String) : Option Host :=
  match key with
  | .virtio _ =>
    if (host.volumes value).isNone then none
    else host.change vmid fun vm => if FitsLine value then some (vm.set key value) else none
  | _ => host.change vmid fun vm => if FitsLine value then some (vm.set key value) else none

/-- Delete a setting. The volume of an unused one may be freed. -/
def Host.delete (host : Host) (vmid name : String) : Option Host := do
  let vm ← host.machines vmid
  let freed := vm.entries.filterMap fun entry => match entry.1 with
    | .unused _ => if platform.frees ∧ entry.1.text = name then some entry.2 else none
    | _ => none
  some { host with
    machines := Function.update host.machines vmid (some (vm.delete name))
    volumes := fun volume => if volume ∈ freed then none else host.volumes volume }

/-- Import a file as a new volume, under the first unused slot. -/
def Host.importdisk (host : Host) (vmid file storage : String) : Option Host := do
  let vm ← host.machines vmid
  let image ← host.files file
  let volume := platform.volume host vmid storage
  if (host.volumes volume).isSome ∨ ¬ isVolume volume then none
  else some { host with
    machines := Function.update host.machines vmid
      (some { vm with entries := vm.entries ++ [(.unused vm.slot, volume)] })
    volumes := Function.update host.volumes volume (some (vmid, image)) }

/-- Create a machine under a number that is free. -/
def Host.create (host : Host) (vmid : String) (options : List (Key × String)) : Option Host :=
  if (host.machines vmid).isSome ∨ ¬ options.all (fun option => FitsLine option.2) then none
  else some { host with machines := Function.update host.machines vmid (some ⟨options, false⟩) }

/-- Destroy a machine and what belongs to it. -/
def Host.destroy (host : Host) (vmid : String) : Option Host :=
  (host.machines vmid).map fun _ => { host with
    machines := Function.update host.machines vmid none
    volumes := fun volume => (host.volumes volume).filter (·.1 ≠ vmid) }

/-- A command that is obeyed: the host behind it and what it prints, unless it is refused. -/
def Host.obey (host : Host) : Remote → Option (Host × String)
  | .nextid => some (host, platform.nextid host)
  | .status vmid => (host.machines vmid).map fun vm =>
      (host, if vm.running then "status: running" else "status: stopped")
  | .create vmid options => (host.create vmid options).map (·, "")
  | .set vmid key value => (host.set vmid key value).map (·, "")
  | .delete vmid name => (host.delete platform vmid name).map (·, "")
  | .importdisk vmid file storage => (host.importdisk platform vmid file storage).map (·, "")
  | .config vmid => (host.machines vmid).map fun vm => (host, vm.config)
  | .destroy vmid => (host.destroy vmid).map (·, "")
  | .copy image file => some ({ host with files := Function.update host.files file (some image) }, "")
  | .remove file => some ({ host with files := Function.update host.files file none }, "")
  | .storages storage => (platform.storages host storage).map (host, ·)
  | .link bridge => if platform.link host bridge then some (host, "") else none

end Effects

/-- What becomes of a command: it is obeyed, it ends with a failing code, or an error
breaks it off. -/
inductive Verdict where
  | obeyed
  | failed (result : CommandResult) (failing : result.returncode ≠ 0)
  | broken (error : Exn)

/-- Verdicts by the position of a command in the run. -/
abbrev Oracle := Nat → Remote → Verdict

/-- A host, and how many commands it was sent. -/
structure World where
  host : Host
  count : Nat

/-- A host under an oracle. Only a command that is obeyed has an effect. -/
def answering (platform : Platform) (oracle : Oracle) : Handler remote Exn World :=
  fun command world =>
    match oracle world.count command with
    | .broken error => (.error error, ⟨world.host, world.count + 1⟩)
    | .failed result _ => (.ok result, ⟨world.host, world.count + 1⟩)
    | .obeyed =>
      match world.host.obey platform command with
      | some (host, stdout) => (.ok ⟨0, stdout, ""⟩, ⟨host, world.count + 1⟩)
      | none => (.ok ⟨1, "", "refused"⟩, ⟨world.host, world.count + 1⟩)

/-- Send a command, whatever code it ends with. -/
def send (command : Remote) : Prog CommandResult := @Program.perform remote Exn command

/-- Send a command, and raise when it ends with a failing code. -/
def checked (command : Remote) : Prog String := do
  let result ← send command
  if result.returncode ≠ 0 then
    raiseRuntimeError s!"command failed ({result.returncode}): {trimmed result.stderr}"
  else return result.stdout

section Sending

variable {platform : Platform} {oracle : Oracle} {permits : World → Remote → Prop}
  {command : Remote} {world : World}

/-- Sending a command is judged by its three outcomes: it is obeyed, or nothing happens and
its code fails, or nothing happens and it raises. -/
theorem wp_send {post : Except Exn CommandResult → World → Prop} (permitted : permits world command)
    (obeyed : ∀ host stdout, world.host.obey platform command = some (host, stdout) →
      post (.ok ⟨0, stdout, ""⟩) ⟨host, world.count + 1⟩)
    (failed : (oracle world.count command = .obeyed → world.host.obey platform command = none) →
      ∀ result : CommandResult, result.returncode ≠ 0 →
        post (.ok result) ⟨world.host, world.count + 1⟩)
    (broken : oracle world.count command ≠ .obeyed →
      ∀ error, post (.error error) ⟨world.host, world.count + 1⟩) :
    wp ((answering platform oracle).monitor permits) (send command) post world := by
  refine wp_perform permitted ?_
  rintro answer rfl
  simp only [Handler.monitor, answering]
  cases verdict : oracle world.count command with
  | broken error => exact broken (by rw [verdict]; exact Verdict.noConfusion) error
  | failed result failing =>
    refine failed (fun impossible => ?_) result failing
    rw [verdict] at impossible
    cases impossible
  | obeyed =>
    cases effect : world.host.obey platform command with
    | some changed => exact obeyed changed.1 changed.2 effect
    | none => exact failed (fun _ => effect) _ (by decide)

/-- A checked command was obeyed, or it raises and nothing happened. -/
theorem wp_checked {post : Except Exn String → World → Prop} (permitted : permits world command)
    (obeyed : ∀ host stdout, world.host.obey platform command = some (host, stdout) →
      post (.ok stdout) ⟨host, world.count + 1⟩)
    (failed : ∀ error, post (.error error) ⟨world.host, world.count + 1⟩) :
    wp ((answering platform oracle).monitor permits) (checked command) post world := by
  refine wp_bind (wp_send permitted (fun host stdout effect => ?_) (fun _ result failing => ?_)
    fun _ error => failed error)
  · exact obeyed host stdout effect
  · dsimp only
    rw [if_pos failing]
    exact failed _

end Sending

section Settings

variable {vm : VM}

/-- A setting that was changed has its new value. -/
@[simp] theorem VM.get_set_self (key : Key) (value : String) :
    (vm.set key value).get key = some value := by
  have absent : (vm.entries.filter (·.1 ≠ key)).find? (·.1 = key) = none := by
    rw [List.find?_eq_none]
    intro entry member
    simpa using (List.mem_filter.mp member).2
  change ((vm.entries.filter (·.1 ≠ key) ++ [(key, value)]).find? (·.1 = key)).map Prod.snd = _
  rw [List.find?_append, absent]
  simp

/-- Other settings keep theirs. -/
theorem VM.get_set_of_ne {key other : Key} (different : other ≠ key) (value : String) :
    (vm.set key value).get other = vm.get other := by
  have kept : (vm.entries.filter (·.1 ≠ key)).find? (·.1 = other) =
      vm.entries.find? (·.1 = other) := by
    rw [List.find?_filter]
    refine congrArg (fun test => List.find? test vm.entries) (funext fun entry => ?_)
    by_cases same : entry.1 = other
    · simp [same, different]
    · simp [same]
  change ((vm.entries.filter (·.1 ≠ key) ++ [(key, value)]).find? (·.1 = other)).map Prod.snd = _
  rw [List.find?_append, kept]
  simp [VM.get, different.symm]

/-- Without an unused setting the first slot is free. -/
theorem VM.slot_eq_zero (tidy : ∀ entry ∈ vm.entries, ∀ index, entry.1 ≠ .unused index) :
    vm.slot = 0 := by
  have free : (vm.entries.all fun entry => entry.1 ≠ .unused 0) = true := by
    rw [List.all_eq_true]
    intro entry member
    exact decide_eq_true (tidy entry member 0)
  simp only [VM.slot, List.range_succ_eq_map, List.find?_cons, free, Option.getD_some]

end Settings

section Obeying

variable {platform : Platform} {host after : Host} {vmid stdout : String} {vm : VM}

/-- A machine is created under a free number, with settings that fit and stopped. -/
theorem obey_create {options : List (Key × String)}
    (obeyed : host.obey platform (.create vmid options) = some (after, stdout)) :
    host.machines vmid = none ∧ (∀ option ∈ options, FitsLine option.2 = true) ∧
      after.machines = Function.update host.machines vmid (some ⟨options, false⟩) ∧
      after.files = host.files := by
  obtain ⟨created, effect, same⟩ := Option.map_eq_some_iff.mp obeyed
  obtain ⟨rfl, _⟩ := Prod.mk.inj same
  unfold Host.create at effect
  split at effect
  · cases effect
  · rename_i allowed
    obtain ⟨free, fits⟩ := not_or.mp allowed
    rw [not_not, List.all_eq_true] at fits
    obtain rfl := Option.some.inj effect
    exact ⟨by simpa using free, fits, rfl, rfl⟩

/-- A setting is changed on the machine that is there, to a value that fits. -/
theorem obey_set {key : Key} {value : String} (stands : host.machines vmid = some vm)
    (obeyed : host.obey platform (.set vmid key value) = some (after, stdout)) :
    FitsLine value = true ∧ (∀ index, key = .virtio index → (host.volumes value).isSome = true) ∧
      after.machines = Function.update host.machines vmid (some (vm.set key value)) ∧
      after.files = host.files ∧ after.volumes = host.volumes := by
  obtain ⟨changed, effect, same⟩ := Option.map_eq_some_iff.mp obeyed
  obtain ⟨rfl, _⟩ := Prod.mk.inj same
  have plain : ∀ {result : Host}, (host.change vmid fun vm =>
      if FitsLine value then some (vm.set key value) else none) = some result →
      FitsLine value = true ∧ result =
        { host with machines := Function.update host.machines vmid (some (vm.set key value)) } := by
    intro result found
    simp only [Host.change, stands, Option.bind_eq_bind, Option.bind_some] at found
    split at found
    · rename_i fits
      exact ⟨fits, (Option.some.inj found).symm⟩
    · cases found
  unfold Host.set at effect
  split at effect
  · split at effect
    · cases effect
    · rename_i present
      obtain ⟨fits, rfl⟩ := plain effect
      exact ⟨fits, fun _ _ => by simpa [Option.isSome_iff_ne_none] using present, rfl, rfl, rfl⟩
  · rename_i other
    obtain ⟨fits, rfl⟩ := plain effect
    exact ⟨fits, fun index same => absurd same (other index), rfl, rfl, rfl⟩

/-- A setting is deleted; no other volume than one under its name is freed. -/
theorem obey_delete {name : String} (stands : host.machines vmid = some vm)
    (obeyed : host.obey platform (.delete vmid name) = some (after, stdout)) :
    after.machines = Function.update host.machines vmid (some (vm.delete name)) ∧
      after.files = host.files ∧ ∀ volume, after.volumes volume = host.volumes volume ∨
        after.volumes volume = none ∧ ∃ index, (.unused index, volume) ∈ vm.entries := by
  obtain ⟨changed, effect, same⟩ := Option.map_eq_some_iff.mp obeyed
  obtain ⟨rfl, _⟩ := Prod.mk.inj same
  simp only [Host.delete, stands, Option.bind_eq_bind, Option.bind_some, Option.some.injEq] at effect
  obtain rfl := effect
  refine ⟨rfl, rfl, fun volume => ?_⟩
  dsimp only
  split
  · rename_i freed
    obtain ⟨entry, member, given⟩ := List.mem_filterMap.mp freed
    obtain ⟨key, value⟩ := entry
    split at given
    · rename_i index named
      split at given
      · obtain rfl := Option.some.inj given
        obtain rfl : key = .unused index := named
        exact .inr ⟨rfl, index, member⟩
      · cases given
    · cases given
  · exact .inl rfl

/-- An import adds a volume that was not there, under the first unused slot. -/
theorem obey_importdisk {file storage : String} (stands : host.machines vmid = some vm)
    (obeyed : host.obey platform (.importdisk vmid file storage) = some (after, stdout)) :
    ∃ volume image, host.files file = some image ∧ host.volumes volume = none ∧
      isVolume volume = true ∧
      after.machines = Function.update host.machines vmid
        (some { vm with entries := vm.entries ++ [(.unused vm.slot, volume)] }) ∧
      after.files = host.files ∧
      after.volumes = Function.update host.volumes volume (some (vmid, image)) := by
  obtain ⟨changed, effect, same⟩ := Option.map_eq_some_iff.mp obeyed
  obtain ⟨rfl, _⟩ := Prod.mk.inj same
  simp only [Host.importdisk, stands, Option.bind_eq_bind, Option.bind_some] at effect
  obtain ⟨image, copied, imported⟩ := Option.bind_eq_some_iff.mp effect
  split at imported
  · cases imported
  · rename_i allowed
    obtain ⟨free, named⟩ := not_or.mp allowed
    rw [not_not] at named
    obtain rfl := Option.some.inj imported
    exact ⟨_, image, copied, by simpa using free, named, rfl, rfl, rfl⟩

/-- A file is written. -/
theorem obey_copy {image file : String}
    (obeyed : host.obey platform (.copy image file) = some (after, stdout)) :
    after.machines = host.machines ∧ after.volumes = host.volumes ∧
      after.files = Function.update host.files file (some image) := by
  obtain ⟨rfl, _⟩ := Prod.mk.inj (Option.some.inj obeyed)
  exact ⟨rfl, rfl, rfl⟩

/-- The settings of a machine are printed. -/
theorem obey_config (stands : host.machines vmid = some vm)
    (obeyed : host.obey platform (.config vmid) = some (after, stdout)) :
    after = host ∧ stdout = vm.config := by
  simp only [Host.obey, stands, Option.map_some, Option.some.injEq, Prod.mk.injEq] at obeyed
  exact ⟨obeyed.1.symm, obeyed.2.symm⟩

theorem printed_host {printed : Option String}
    (obeyed : printed.map (host, ·) = some (after, stdout)) : after = host := by
  obtain ⟨_, _, same⟩ := Option.map_eq_some_iff.mp obeyed
  exact (Prod.mk.inj same).1.symm

/-- A command that only reads leaves the host as it is. -/
theorem obey_reads {command : Remote} (reads : command.Reads)
    (obeyed : host.obey platform command = some (after, stdout)) : after = host := by
  cases command with
  | nextid => exact (Prod.mk.inj (Option.some.inj obeyed)).1.symm
  | status number =>
    obtain ⟨_, _, same⟩ := Option.map_eq_some_iff.mp obeyed
    exact (Prod.mk.inj same).1.symm
  | config number =>
    obtain ⟨_, _, same⟩ := Option.map_eq_some_iff.mp obeyed
    exact (Prod.mk.inj same).1.symm
  | storages storage => exact printed_host obeyed
  | link bridge =>
    simp only [Host.obey] at obeyed
    split at obeyed
    · exact (Prod.mk.inj (Option.some.inj obeyed)).1.symm
    · cases obeyed
  | _ => exact reads.elim

/-- A machine that is there is destroyed. -/
theorem obey_destroy (stands : host.machines vmid = some vm) :
    ∃ after, host.obey platform (.destroy vmid) = some (after, "") ∧
      after.machines = Function.update host.machines vmid none ∧ after.files = host.files := by
  simp only [Host.obey, Host.destroy, stands, Option.map_some]
  exact ⟨_, rfl, rfl, rfl⟩

end Obeying

end Immutavault.ProxmoxHosts
