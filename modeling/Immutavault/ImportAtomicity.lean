import Immutavault.ProxmoxImports

/-!
# Creating a target is atomic

The machines of a host before a run are compared with those after it. While a target is
equipped, the host differs from what it was by one stopped machine under a number that was
free and by files among the copied images. Attaching a disk extends the disks that the new
machine has by the next one of the guest.

An oracle is tidy when the commands that destroy and remove are obeyed. The codes of these
commands are not looked at, so that a run under another oracle may leave the machine or an
image behind. A machine that was there before is left alone under every oracle.
-/

namespace Immutavault.ImportAtomicity

open Programs Values Configuration ProxmoxHosts ProxmoxImports

/-- Every machine that was there is there as it was. -/
def Spared (initial host : Host) : Prop :=
  ∀ vmid vm, initial.machines vmid = some vm → host.machines vmid = some vm

/-- The commands that destroy and remove are obeyed. -/
def Tidy (oracle : Oracle) : Prop :=
  ∀ count (command : Remote), command.Tidies → oracle count command = .obeyed

/-- The host differs by one machine under a number that was free, and by some files. -/
structure Started (initial : Host) (vmid : String) (paths : List String) (host : Host) (vm : VM) :
    Prop where
  fresh : initial.machines vmid = none
  machines : host.machines = Function.update initial.machines vmid (some vm)
  files : ∀ path, path ∉ paths → host.files path = initial.files path

/-- A machine has these disks of a guest, in their order. -/
def HasDisks (host : Host) (vmid : String) (vm : VM) (disks : List ConvertedDisk) : Prop :=
  ∀ index disk, disks[index]? = some disk → ∃ volume, vm.get (.virtio index) = some volume ∧
    host.volumes volume = some (vmid, disk.path)

/-- The machine is stopped, its settings fit on lines, none of them is an unused slot, and
its cards are those with which it was created. -/
structure Plain (options : List (Key × String)) (vm : VM) : Prop where
  stopped : vm.running = false
  fits : ∀ entry ∈ vm.entries, FitsLine entry.2 = true
  tidy : ∀ entry ∈ vm.entries, ∀ index, entry.1 ≠ .unused index
  nets : ∀ index, vm.get (.net index) = (VM.mk options false).get (.net index)

/-- What holds of the host and the new machine between two disks. -/
structure Building (initial : Host) (vmid : String) (paths : List String)
    (options : List (Key × String)) (done : List ConvertedDisk) (host : Host) (vm : VM) : Prop where
  started : Started initial vmid paths host vm
  plain : Plain options vm
  disks : HasDisks host vmid vm done

section Steps

variable {initial host : Host} {vmid : String} {paths : List String} {vm : VM}
  {options : List (Key × String)} {done : List ConvertedDisk}

theorem Started.stands (started : Started initial vmid paths host vm) :
    host.machines vmid = some vm := by
  rw [started.machines, Function.update_self]

theorem Started.spared (started : Started initial vmid paths host vm) : Spared initial host := by
  intro other kept stands
  have different : other ≠ vmid := by
    rintro rfl
    rw [started.fresh] at stands
    cases stands
  rw [started.machines, Function.update_of_ne different]
  exact stands

theorem Started.mono (started : Started initial vmid paths host vm) {more : List String}
    (within : paths ⊆ more) : Started initial vmid more host vm :=
  ⟨started.fresh, started.machines, fun path outside =>
    started.files path fun member => outside (within member)⟩

/-- The new machine is replaced by another. -/
theorem Started.replaced (started : Started initial vmid paths host vm) {after : Host} {other : VM}
    (machines : after.machines = Function.update host.machines vmid (some other))
    (files : after.files = host.files) : Started initial vmid paths after other :=
  ⟨started.fresh, by rw [machines, started.machines, Function.update_idem], fun path outside => by
    rw [files]
    exact started.files path outside⟩

/-- Setting a value that is no card and no unused slot keeps the machine plain. -/
theorem Plain.set (plain : Plain options vm) {key : Key} {value : String}
    (fits : FitsLine value = true) (noSlot : ∀ index, key ≠ .unused index)
    (noCard : ∀ index, key ≠ .net index) : Plain options (vm.set key value) where
  stopped := plain.stopped
  fits := by
    intro entry member
    rcases List.mem_append.mp member with former | last
    · exact plain.fits entry (List.mem_filter.mp former).1
    · rw [List.mem_singleton.mp last]
      exact fits
  tidy := by
    intro entry member
    rcases List.mem_append.mp member with former | last
    · exact plain.tidy entry (List.mem_filter.mp former).1
    · rw [List.mem_singleton.mp last]
      exact noSlot
  nets := by
    intro index
    rw [VM.get_set_of_ne (noCard index).symm]
    exact plain.nets index

/-- Setting another value than a disk keeps the disks. -/
theorem HasDisks.set (disks : HasDisks host vmid vm done) {key : Key}
    (noDisk : ∀ index, key ≠ .virtio index) (value : String) :
    HasDisks host vmid (vm.set key value) done := by
  intro index disk listed
  obtain ⟨volume, attached, holds⟩ := disks index disk listed
  exact ⟨volume, by rw [VM.get_set_of_ne (noDisk index).symm]; exact attached, holds⟩

/-- Attaching a volume with the image of the next disk adds that disk. -/
theorem HasDisks.attach (disks : HasDisks host vmid vm done) {disk : ConvertedDisk}
    {volume : String} (holds : host.volumes volume = some (vmid, disk.path)) :
    HasDisks host vmid (vm.set (.virtio done.length) volume) (done ++ [disk]) := by
  intro index other listed
  by_cases former : index < done.length
  · rw [List.getElem?_append_left former] at listed
    obtain ⟨own, attached, image⟩ := disks index other listed
    have different : Key.virtio index ≠ .virtio done.length :=
      fun same => absurd (Key.virtio.inj same) (Nat.ne_of_lt former)
    exact ⟨own, by rw [VM.get_set_of_ne different]; exact attached, image⟩
  · rw [List.getElem?_append_right (Nat.le_of_not_lt former)] at listed
    obtain ⟨bound, same⟩ := List.getElem?_eq_some_iff.mp listed
    have here : index = done.length := by
      have single : index - done.length < 1 := bound
      omega
    subst here
    have own : disk = other := by simpa using same
    exact ⟨volume, VM.get_set_self _ _, own ▸ holds⟩

/-- A machine without unused slots is not changed by deleting the first one behind them. -/
theorem delete_slot (tidy : ∀ entry ∈ vm.entries, ∀ index, entry.1 ≠ .unused index)
    (volume : String) :
    ({ vm with entries := vm.entries ++ [(.unused 0, volume)] } : VM).delete "unused0" = vm := by
  have kept : vm.entries.filter (·.1.text ≠ "unused0") = vm.entries := by
    refine List.filter_eq_self.mpr fun entry member => decide_eq_true fun same => ?_
    obtain ⟨first, rest, begins, _, only⟩ := key_first entry.1
    rw [same] at begins
    obtain ⟨index, unused⟩ := only (List.cons.inj begins).1.symm
    exact tidy entry member index unused
  have whole : (vm.entries ++ [(Key.unused 0, volume)]).filter (·.1.text ≠ "unused0") =
      vm.entries := by
    rw [List.filter_append, kept]
    exact List.append_nil _
  rw [VM.delete, whole]

end Steps

section Equipping

variable {platform : Platform} {oracle : Oracle} {initial : Host} {vmid storage : String}
  {options : List (Key × String)}

/-- Every command is sent while the machines that were there are spared. -/
abbrev sparing (platform : Platform) (oracle : Oracle) (initial : Host) : Monitor remote Exn World :=
  (answering platform oracle).monitor fun world _ => Spared initial world.host

/-- Attaching one disk extends the disks, or raises beside the started machine. -/
theorem wp_importDisk {paths : List String} {done : List ConvertedDisk} {disk : ConvertedDisk}
    {world : World} {vm : VM} (building : Building initial vmid paths options done world.host vm)
    (listed : remotePath vmid done.length disk ∈ paths) :
    wp (sparing platform oracle initial) (importDisk vmid storage done.length disk)
      (fun outcome final => match outcome with
        | .ok _ => ∃ vm, Building initial vmid paths options (done ++ [disk]) final.host vm
        | .error _ => ∃ vm, Started initial vmid paths final.host vm) world := by
  obtain ⟨started, plain, disks⟩ := building
  refine wp_bind (wp_checked started.spared (fun copied _ sent => ?_) fun _ => ⟨vm, started⟩)
  obtain ⟨sameMachines, sameVolumes, written⟩ := obey_copy sent
  have behind : Started initial vmid paths copied vm := by
    refine ⟨started.fresh, sameMachines.trans started.machines, fun path outside => ?_⟩
    have different : path ≠ remotePath vmid done.length disk := fun same => outside (same ▸ listed)
    rw [written, Function.update_of_ne different]
    exact started.files path outside
  refine wp_bind (wp_checked behind.spared (fun imported _ sent => ?_) fun _ => ⟨vm, behind⟩)
  obtain ⟨volume, image, there, free, named, machines, files, volumes⟩ :=
    obey_importdisk behind.stands sent
  rw [written, Function.update_self] at there
  obtain rfl := Option.some.inj there
  rw [VM.slot_eq_zero plain.tidy] at machines
  have slotted := behind.replaced machines files
  refine wp_bind (wp_checked slotted.spared (fun printed stdout sent => ?_) fun _ => ⟨_, slotted⟩)
  obtain ⟨rfl, rfl⟩ := obey_config slotted.stands sent
  dsimp only
  rw [unusedVolume_config plain.fits plain.tidy named]
  refine wp_bind (wp_raised ?_)
  refine wp_bind (wp_checked slotted.spared (fun deleted _ sent => ?_) fun _ => ⟨_, slotted⟩)
  obtain ⟨remaining, sameFiles, kept⟩ := obey_delete slotted.stands sent
  rw [delete_slot plain.tidy] at remaining
  have cleared := slotted.replaced remaining sameFiles
  refine wp_bind (wp_checked cleared.spared (fun attached _ sent => ?_) fun _ => ⟨_, cleared⟩)
  obtain ⟨fits, present, changed, lastFiles, lastVolumes⟩ := obey_set cleared.stands sent
  refine ⟨_, cleared.replaced changed lastFiles, plain.set fits (fun _ => Key.noConfusion)
    (fun _ => Key.noConfusion), ?_⟩
  -- Nothing but the slot's own volume can have been freed.
  have other : ∀ name holder, copied.volumes name = some holder → attached.volumes name = some holder := by
    intro name holder holds
    have different : name ≠ volume := by
      rintro rfl
      rw [free] at holds
      cases holds
    have added : printed.volumes name = some holder := by
      rw [volumes, Function.update_of_ne different, holds]
    rw [lastVolumes]
    rcases kept name with same | ⟨_, index, member⟩
    · rw [same, added]
    · rcases List.mem_append.mp member with former | last
      · exact absurd rfl (plain.tidy _ former index)
      · exact absurd (Prod.mk.inj (List.mem_singleton.mp last)).2 different
  have own : attached.volumes volume = some (vmid, disk.path) := by
    have still := present done.length rfl
    rw [lastVolumes]
    rcases kept volume with same | ⟨gone, _⟩
    · rw [same, volumes, Function.update_self]
    · rw [gone] at still
      cases still
  refine HasDisks.attach ?_ own
  intro index former listed
  obtain ⟨name, attachedTo, holds⟩ := disks index former listed
  exact ⟨name, attachedTo, other name _ (by rw [sameVolumes]; exact holds)⟩

/-- The disks are attached one after another, up to the first that raises. -/
theorem wp_importDisks {paths : List String} {done rest : List ConvertedDisk} {world : World}
    {vm : VM} (building : Building initial vmid paths options done world.host vm) :
    wp (sparing platform oracle initial) (importDisks vmid storage done.length paths rest)
      (fun outcome final => match outcome with
        | .ok (.ok (), paths) =>
          ∃ vm, Building initial vmid paths options (done ++ rest) final.host vm
        | .ok (.error _, paths) => ∃ vm, Started initial vmid paths final.host vm
        | .error _ => False) world := by
  induction rest generalizing paths done world vm with
  | nil => exact wp_pure ⟨vm, by rw [List.append_nil]; exact building⟩
  | cons disk rest inductionHypothesis =>
    have longer : Building initial vmid (paths ++ [remotePath vmid done.length disk]) options done
        world.host vm :=
      ⟨building.started.mono (List.subset_append_left _ _), building.plain, building.disks⟩
    refine wp_bind (wp_attempt (wp_mono (wp_importDisk longer (by simp)) ?_))
    intro outcome final ended
    cases outcome with
    | error error => exact wp_pure ended
    | ok _ =>
      obtain ⟨next, further⟩ := ended
      have onward := inductionHypothesis further
      rw [List.length_append, List.length_singleton] at onward
      refine wp_mono onward ?_
      intro outcome final reached
      rw [List.append_assoc, List.singleton_append] at reached
      exact reached

/-- A finished machine has its boot order. -/
theorem wp_finish {paths : List String} {bundle : ConvertedBundle} {world : World} {vm : VM}
    (building : Building initial vmid paths options bundle.disks world.host vm) :
    wp (sparing platform oracle initial) (finish vmid bundle)
      (fun outcome final => match outcome with
        | .ok _ => ∃ vm, Building initial vmid paths options bundle.disks final.host vm ∧
            vm.get .boot = some (bootOrder bundle)
        | .error _ => ∃ vm, Started initial vmid paths final.host vm) world := by
  obtain ⟨started, plain, disks⟩ := building
  refine wp_bind (wp_checked started.spared (fun ordered _ sent => ?_) fun _ => ⟨vm, started⟩)
  obtain ⟨fits, _, machines, files, volumes⟩ := obey_set started.stands sent
  have behind := started.replaced machines files
  refine wp_bind (wp_checked behind.spared (fun printed stdout sent => ?_) fun _ => ⟨_, behind⟩)
  obtain ⟨rfl, rfl⟩ := obey_config behind.stands sent
  refine wp_raised ?_
  cases validate bundle (vm.set .boot (bootOrder bundle)).config with
  | error error => exact ⟨_, behind⟩
  | ok _ =>
    refine ⟨_, ⟨behind, plain.set fits (fun _ => Key.noConfusion) (fun _ => Key.noConfusion), ?_⟩,
      VM.get_set_self _ _⟩
    intro index disk listed
    have noDisk : ∀ index, Key.boot ≠ .virtio index := fun _ => Key.noConfusion
    obtain ⟨volume, attached, holds⟩ := disks.set noDisk (bootOrder bundle) index disk listed
    exact ⟨volume, attached, by rw [volumes]; exact holds⟩

/-- The machine that was created gets its firmware disk, the disks of the guest and its boot
order, or what raises leaves it started. -/
theorem wp_equip {efi_storage : String} {bundle : ConvertedBundle} {world : World} {vm : VM}
    (building : Building initial vmid [] options [] world.host vm) :
    wp (sparing platform oracle initial) (equip vmid storage efi_storage bundle)
      (fun outcome final => match outcome with
        | .ok (.ok _, paths) => ∃ vm, Building initial vmid paths options bundle.disks final.host vm ∧
            vm.get .boot = some (bootOrder bundle)
        | .ok (.error _, paths) => ∃ vm, Started initial vmid paths final.host vm
        | .error _ => False) world := by
  have firmware : wp (sparing platform oracle initial) (if bundle.firmware = "uefi" then do
      let _ ← checked (.set vmid .efidisk0 (efi_storage ++ ":0,efitype=4m,pre-enrolled-keys=0"))
      return ()
    else return () : Prog Unit)
      (fun outcome final => match outcome with
        | .ok _ => ∃ vm, Building initial vmid [] options [] final.host vm
        | .error _ => ∃ vm, Started initial vmid [] final.host vm) world := by
    obtain ⟨started, plain, _⟩ := building
    split
    · refine wp_bind (wp_checked started.spared (fun after _ sent => ?_) fun _ => ⟨vm, started⟩)
      obtain ⟨fits, _, machines, files, _⟩ := obey_set started.stands sent
      exact ⟨_, started.replaced machines files, plain.set fits (fun _ => Key.noConfusion)
        (fun _ => Key.noConfusion), fun _ _ listed => by cases listed⟩
    · exact wp_pure ⟨vm, started, plain, fun _ _ listed => by cases listed⟩
  refine wp_bind (wp_attempt (wp_mono firmware ?_))
  intro outcome middle ended
  cases outcome with
  | error error => exact wp_pure ended
  | ok _ =>
    obtain ⟨equipped, further⟩ := ended
    refine wp_bind (wp_mono (wp_importDisks further) ?_)
    intro outcome middle reached
    rcases outcome with _ | ⟨_ | _, paths⟩
    · exact reached
    · exact wp_pure reached
    · obtain ⟨complete, whole⟩ := reached
      refine wp_bind (wp_attempt (wp_mono (wp_finish whole) ?_))
      intro outcome final finished
      cases outcome with
      | error error => exact wp_pure finished
      | ok _ => exact wp_pure finished

end Equipping

section Tidying

variable {platform : Platform} {oracle : Oracle} {initial : Host}

/-- Removing images changes no machine and no volume. Under a tidy oracle it removes them all. -/
theorem wp_removeAll {paths : List String} (world : World) (spared : Spared initial world.host) :
    wp (sparing platform oracle initial) (removeAll paths)
      (fun outcome final => final.host.machines = world.host.machines ∧
        final.host.volumes = world.host.volumes ∧
        (Tidy oracle → outcome = .ok () ∧ ∀ path, final.host.files path =
          if path ∈ paths then none else world.host.files path)) world := by
  induction paths generalizing world with
  | nil => exact wp_pure ⟨rfl, rfl, fun _ => ⟨rfl, fun _ => by simp⟩⟩
  | cons file rest inductionHypothesis =>
    have later : ∀ {after : Host} {count : Nat}, after.machines = world.host.machines →
        after.volumes = world.host.volumes →
        (Tidy oracle → after.files = Function.update world.host.files file none) →
        wp (sparing platform oracle initial) (removeAll rest) (fun outcome final =>
          final.host.machines = world.host.machines ∧ final.host.volumes = world.host.volumes ∧
          (Tidy oracle → outcome = .ok () ∧ ∀ path, final.host.files path =
            if path ∈ file :: rest then none else world.host.files path)) ⟨after, count⟩ := by
      intro after count machines volumes files
      have still : Spared initial after := fun vmid vm stands => by
        rw [machines]
        exact spared vmid vm stands
      refine wp_mono (inductionHypothesis ⟨after, count⟩ still) ?_
      rintro outcome final ⟨sameMachines, sameVolumes, removed⟩
      refine ⟨sameMachines.trans machines, sameVolumes.trans volumes, fun tidy => ?_⟩
      obtain ⟨returned, left⟩ := removed tidy
      refine ⟨returned, fun path => ?_⟩
      rw [left, files tidy]
      by_cases here : path = file
      · simp [here]
      · simp [here]
    refine wp_bind (wp_bind (wp_send spared (fun after _ sent => ?_) (fun failed _ _ => ?_)
      fun broken _ => ?_))
    · obtain ⟨rfl, _⟩ := Prod.mk.inj (Option.some.inj sent)
      exact wp_pure (later rfl rfl fun _ => rfl)
    · refine wp_pure (later rfl rfl fun tidy => ?_)
      cases failed (tidy _ (.remove file) trivial)
    · exact ⟨rfl, rfl, fun tidy => absurd (tidy _ (.remove file) trivial) broken⟩

/-- No file is there that was not there before. -/
def Cleared (initial host : Host) : Prop :=
  ∀ path image, host.files path = some image → initial.files path = some image

/-- A stopped machine with the disks of a guest in their order, which is also the order of
booting, and with the cards of these settings. -/
structure Holds (host : Host) (vmid : String) (vm : VM) (bundle : ConvertedBundle)
    (options : List (Key × String)) : Prop where
  stopped : vm.running = false
  disks : HasDisks host vmid vm bundle.disks
  boot : vm.get .boot = some (bootOrder bundle)
  nets : ∀ index, vm.get (.net index) = (VM.mk options false).get (.net index)

/-- The host has one new machine, which holds a guest. -/
def Created (initial host : Host) (vmid : String) (bundle : ConvertedBundle)
    (options : List (Key × String)) : Prop :=
  initial.machines vmid = none ∧ ∃ vm,
    host.machines = Function.update initial.machines vmid (some vm) ∧ Holds host vmid vm bundle options

variable {vmid storage efi_storage : String} {options : List (Key × String)}

theorem cleared_of_removed {paths : List String} {host after : Host}
    (before : ∀ path, path ∉ paths → host.files path = initial.files path)
    (removed : ∀ path, after.files path = if path ∈ paths then none else host.files path) :
    Cleared initial after := by
  intro path image stands
  rw [removed] at stands
  split at stands
  · cases stands
  · rename_i outside
    rw [← before path outside]
    exact stands

/-- Behind a failure the images are removed, and under a tidy oracle the machine is gone. -/
theorem wp_discard {paths : List String} {world : World} {vm : VM} {error : Exn}
    (started : Started initial vmid paths world.host vm) :
    wp (sparing platform oracle initial) (do
        let destroyed ← (send (.destroy vmid)).attempt
        removeAll paths
        reraise error destroyed)
      (fun outcome final => (∃ error, outcome = .error error) ∧ Spared initial final.host ∧
        (Tidy oracle → final.host.machines = initial.machines ∧ Cleared initial final.host)) world := by
  have settled : ∀ (destroyed : Except Exn CommandResult) (middle : Host) (count : Nat),
      Spared initial middle → middle.files = world.host.files →
      (Tidy oracle → middle.machines = initial.machines) →
      wp (sparing platform oracle initial) (do
          removeAll paths
          reraise error destroyed)
        (fun outcome final => (∃ error, outcome = .error error) ∧ Spared initial final.host ∧
          (Tidy oracle → final.host.machines = initial.machines ∧ Cleared initial final.host))
        ⟨middle, count⟩ := by
    intro destroyed middle count spared files gone
    refine wp_bind (wp_mono (wp_removeAll ⟨middle, count⟩ spared) ?_)
    rintro outcome final ⟨machines, _, removed⟩
    have still : Spared initial final.host := fun other kept stands => by
      rw [machines]
      exact spared other kept stands
    have clean : Tidy oracle →
        final.host.machines = initial.machines ∧ Cleared initial final.host := by
      intro tidy
      refine ⟨machines.trans (gone tidy), cleared_of_removed started.files fun path => ?_⟩
      rw [(removed tidy).2, files]
    cases outcome with
    | error newer => exact ⟨⟨newer, rfl⟩, still, clean⟩
    | ok _ =>
      cases destroyed with
      | error newer => exact wp_throw ⟨⟨newer, rfl⟩, still, clean⟩
      | ok _ => exact wp_throw ⟨⟨error, rfl⟩, still, clean⟩
  obtain ⟨without, effect, machines, files⟩ := @obey_destroy platform _ _ _ started.stands
  have restored : without.machines = initial.machines := by
    rw [machines, started.machines, Function.update_idem, ← started.fresh, Function.update_eq_self]
  refine wp_bind (wp_attempt (wp_send started.spared (fun after _ sent => ?_) (fun failed _ _ => ?_)
    fun broken _ => ?_))
  · obtain ⟨rfl, _⟩ := Prod.mk.inj (Option.some.inj (sent.symm.trans effect))
    exact settled _ _ _ (fun other kept stands => by rw [restored]; exact stands) files
      fun _ => restored
  · refine settled _ _ _ started.spared rfl fun tidy => ?_
    cases (failed (tidy _ (.destroy vmid) trivial)).symm.trans effect
  · exact settled _ _ _ started.spared rfl fun tidy =>
      absurd (tidy _ (.destroy vmid) trivial) broken

/-- Creating and equipping a machine adds that machine or raises. -/
theorem wp_createAndImport {bundle : ConvertedBundle} {count : Nat}
    (noSlot : ∀ option ∈ options, ∀ index, option.1 ≠ .unused index) :
    wp (sparing platform oracle initial) (createAndImport vmid storage efi_storage bundle options)
      (fun outcome final => Spared initial final.host ∧ match outcome with
        | .ok _ => Created initial final.host vmid bundle options ∧
            (Tidy oracle → Cleared initial final.host)
        | .error _ => Tidy oracle → final.host.machines = initial.machines ∧
            Cleared initial final.host) ⟨initial, count⟩ := by
  have itself : Spared initial initial := fun _ _ stands => stands
  have nothing : Cleared initial initial := fun _ _ stands => stands
  refine wp_bind (wp_checked itself (fun created _ sent => ?_) fun _ =>
    ⟨itself, fun _ => ⟨rfl, nothing⟩⟩)
  obtain ⟨free, fits, machines, files⟩ := obey_create sent
  have building : Building initial vmid [] options [] created ⟨options, false⟩ :=
    ⟨⟨free, machines, fun _ _ => by rw [files]⟩, ⟨rfl, fits, noSlot, fun _ => rfl⟩,
      fun _ _ listed => by cases listed⟩
  refine wp_bind (wp_mono (wp_equip building) ?_)
  intro outcome final equipped
  rcases outcome with _ | ⟨error | _, paths⟩
  · exact equipped.elim
  · obtain ⟨vm, started⟩ := equipped
    refine wp_mono (wp_discard started) ?_
    rintro _ last ⟨⟨newer, rfl⟩, spared, clean⟩
    exact ⟨spared, clean⟩
  · obtain ⟨vm, ⟨started, plain, disks⟩, boot⟩ := equipped
    refine wp_mono (wp_removeAll _ started.spared) ?_
    rintro outcome last ⟨sameMachines, sameVolumes, removed⟩
    have spared : Spared initial last.host := fun other kept stands => by
      rw [sameMachines]
      exact started.spared other kept stands
    refine ⟨spared, ?_⟩
    cases outcome with
    | error broken => exact fun tidy => by cases (removed tidy).1
    | ok _ =>
      refine ⟨⟨started.fresh, vm, sameMachines.trans started.machines, plain.stopped, ?_, boot,
        plain.nets⟩, fun tidy => cleared_of_removed started.files (removed tidy).2⟩
      intro index disk listed
      obtain ⟨volume, attached, holds⟩ := disks index disk listed
      exact ⟨volume, attached, by rw [sameVolumes]; exact holds⟩

end Tidying

section Restoring

variable {platform : Platform} {oracle : Oracle} {initial : Host}

/-- A command that only reads leaves the host as it is, whatever becomes of it. -/
theorem keeps_send {command : Remote} (reads : command.Reads) :
    Keeps (sparing platform oracle initial) (fun world => world.host = initial) (send command) := by
  intro world same
  have spared : Spared initial world.host := fun _ _ stands => by rw [same]; exact stands
  refine wp_send spared (fun after _ sent => ?_) (fun _ _ _ => same) fun _ _ => same
  exact (obey_reads reads sent).trans same

theorem keeps_each {α : Type} {step : α → Prog Unit} {items : List α}
    (each : ∀ item ∈ items,
      Keeps (sparing platform oracle initial) (fun world => world.host = initial) (step item)) :
    Keeps (sparing platform oracle initial) (fun world => world.host = initial)
      (Program.each step items) := by
  induction items with
  | nil => exact fun world same => wp_pure same
  | cons item rest inductionHypothesis =>
    exact keeps_bind (each item List.mem_cons_self) fun _ =>
      inductionHypothesis fun other member => each other (List.mem_cons_of_mem _ member)

theorem keeps_raise {α : Type} (kind : ErrorKind) (message : String) :
    Keeps (sparing platform oracle initial) (fun world => world.host = initial)
      (throw ⟨kind, message⟩ : Prog α) := fun _ same => same

theorem keeps_raised {α : Type} (value : Except Exn α) :
    Keeps (sparing platform oracle initial) (fun world => world.host = initial)
      (raised value : Prog α) := fun _ same => wp_raised same

/-- Checking a storage or a bridge leaves the host as it is. -/
theorem keeps_preflightStorage (storage : String) :
    Keeps (sparing platform oracle initial) (fun world => world.host = initial)
      (preflightStorage storage) := by
  refine keeps_bind (keeps_send trivial) fun result => ?_
  split
  · exact keeps_raise _ _
  · dsimp only
    split
    · exact keeps_raise _ _
    · split
      · exact keeps_raise _ _
      · exact fun _ same => wp_pure same

theorem keeps_preflightBridge (bridge : String) :
    Keeps (sparing platform oracle initial) (fun world => world.host = initial)
      (preflightBridge bridge) := by
  refine keeps_bind (keeps_send trivial) fun result => ?_
  split
  · exact keeps_raise _ _
  · exact fun _ same => wp_pure same

theorem keeps_preflight (required : Bool) (bundle : ConvertedBundle) (target : PlatformConfig)
    (wanted : Dict) :
    Keeps (sparing platform oracle initial) (fun world => world.host = initial)
      (preflight required bundle target wanted) := by
  refine keeps_bind (keeps_raised _) fun storages => ?_
  refine keeps_bind (keeps_each fun storage _ => keeps_preflightStorage storage) fun _ => ?_
  refine keeps_bind (keeps_raised _) fun bridges => ?_
  exact keeps_each fun bridge _ => keeps_preflightBridge bridge

theorem keeps_chooseVmid (given : String) (dry_run : Bool) :
    Keeps (sparing platform oracle initial) (fun world => world.host = initial)
      (chooseVmid given dry_run) := by
  unfold chooseVmid
  split
  · exact fun _ same => wp_pure same
  · split
    · exact fun _ same => wp_pure same
    · refine keeps_bind (keeps_bind (keeps_send trivial) fun result => ?_) fun _ =>
        fun _ same => wp_pure same
      split
      · exact keeps_raise _ _
      · exact fun _ same => wp_pure same

/-- The machine is created with no unused slot. -/
theorem noSlot_createOptions (bundle : ConvertedBundle) (bridges : List String) (name : String) :
    ∀ option ∈ createOptions bundle bridges name, ∀ index, option.1 ≠ .unused index := by
  intro option member index
  simp only [createOptions, List.mem_append, List.mem_cons, List.not_mem_nil, or_false,
    List.mem_map] at member
  rcases member with (((rfl | rfl | rfl | rfl)) | firmware) | ⟨entry, _, rfl⟩
  · exact Key.noConfusion
  · exact Key.noConfusion
  · exact Key.noConfusion
  · exact Key.noConfusion
  · split at firmware
    · rcases List.mem_cons.mp firmware with rfl | last
      · exact Key.noConfusion
      · rw [List.mem_singleton.mp last]
        exact Key.noConfusion
    · rw [List.mem_singleton.mp firmware]
      exact Key.noConfusion
  · exact Key.noConfusion

theorem length_bridgesFrom {required : Bool} {mapping : List (String × String)} {default : String}
    {index : Nat} {nics : List ConvertedNIC} {bridges : List String}
    (mapped : bridgesFrom required mapping default index nics = .ok bridges) :
    bridges.length = nics.length := by
  induction nics generalizing index bridges with
  | nil =>
    obtain rfl := Except.ok.inj mapped
    rfl
  | cons nic rest inductionHypothesis =>
    obtain ⟨bridge, _, onward⟩ := bind_eq_ok.mp mapped
    obtain ⟨others, later, same⟩ := bind_eq_ok.mp onward
    obtain rfl := Except.ok.inj same
    rw [List.length_cons, List.length_cons, inductionHypothesis later]

/-- Every card has a bridge. -/
theorem length_mappedBridges {required : Bool} {bundle : ConvertedBundle} {target : PlatformConfig}
    {wanted : Dict} {bridges : List String}
    (mapped : mappedBridges required bundle target wanted = .ok bridges) :
    bridges.length = bundle.nics.length := by
  obtain ⟨mapping, _, found⟩ := bind_eq_ok.mp mapped
  exact length_bridgesFrom found

/-- The setting under the number of a card is found among numbered settings. -/
theorem find_numbered {β : Type} (value : β → String) (items : List β) (start index : Nat) :
    ((items.zipIdx start).map fun entry => (Key.net entry.2, value entry.1)).find?
        (·.1 = .net (start + index)) =
      items[index]?.map fun item => (.net (start + index), value item) := by
  induction items generalizing start index with
  | nil => rfl
  | cons item rest inductionHypothesis =>
    rw [List.zipIdx_cons, List.map_cons]
    cases index with
    | zero => simp
    | succ index =>
      have onward := inductionHypothesis (start + 1) index
      rw [Nat.add_right_comm, Nat.add_assoc] at onward
      rw [List.find?_cons_of_neg (by simp), onward, List.getElem?_cons_succ]

/-- The card is created on its bridge with the address of the guest. -/
theorem get_net_createOptions {bundle : ConvertedBundle} {bridges : List String} (name : String)
    {index : Nat} {nic : ConvertedNIC} {bridge : String} (card : bundle.nics[index]? = some nic)
    (under : bridges[index]? = some bridge) :
    (VM.mk (createOptions bundle bridges name) false).get (.net index) =
      some (netModel nic bridge) := by
  have pair : (bundle.nics.zip bridges)[index]? = some (nic, bridge) :=
    List.getElem?_zip_eq_some.mpr ⟨card, under⟩
  have found := find_numbered (fun entry : ConvertedNIC × String => netModel entry.1 entry.2)
    (bundle.nics.zip bridges) 0 index
  rw [Nat.zero_add, pair, Option.map_some] at found
  rw [VM.get, createOptions, List.find?_append, List.find?_append, found]
  by_cases uefi : bundle.firmware = "uefi"
  · simp [uefi]
  · simp [uefi]

/-- A stopped machine with the disks of a guest in their order, which is also the order of
booting, and with its cards on these bridges. -/
structure IsTarget (host : Host) (vmid : String) (vm : VM) (bundle : ConvertedBundle)
    (bridges : List String) : Prop where
  stopped : vm.running = false
  disks : HasDisks host vmid vm bundle.disks
  boot : vm.get .boot = some (bootOrder bundle)
  nets : ∀ index nic, bundle.nics[index]? = some nic → ∃ bridge,
    bridges[index]? = some bridge ∧ vm.get (.net index) = some (netModel nic bridge)

/-- What a run of restoring leaves behind, by its outcome. -/
def Restores (oracle : Oracle) (initial : Host) (required : Bool) (bundle : ConvertedBundle)
    (target : PlatformConfig) (wanted : Dict) (outcome : Except Exn Restored) (final : World) :
    Prop :=
  Spared initial final.host ∧ match outcome with
    | .ok restored => (∃ bridges vm, mappedBridges required bundle target wanted = .ok bridges ∧
          initial.machines restored.vmid = none ∧
          final.host.machines = Function.update initial.machines restored.vmid (some vm) ∧
          IsTarget final.host restored.vmid vm bundle bridges) ∧
        (Tidy oracle → Cleared initial final.host)
    | .error _ => Tidy oracle → final.host.machines = initial.machines ∧ Cleared initial final.host

theorem restores_untouched {required : Bool} {bundle : ConvertedBundle} {target : PlatformConfig}
    {wanted : Dict} (error : Exn) (final : World) (same : final.host = initial) :
    Restores oracle initial required bundle target wanted (.error error) final := by
  refine ⟨fun _ _ stands => by rw [same]; exact stands, fun _ => ⟨by rw [same], ?_⟩⟩
  intro path image stands
  rw [← same]
  exact stands

/-- Restoring creates the target or raises. -/
theorem wp_restoreProxmox {required : Bool} {bundle : ConvertedBundle} {target : PlatformConfig}
    {name : String} {wanted : Dict} {world : World} (same : world.host = initial) :
    wp (sparing platform oracle initial)
      (restoreProxmox required bundle target name wanted false)
      (Restores oracle initial required bundle target wanted) world := by
  unfold restoreProxmox
  dsimp only
  split
  · exact restores_untouched _ _ same
  · split
    · exact restores_untouched _ _ same
    · refine wp_bind (wp_raised ?_)
      cases mapped : mappedBridges required bundle target wanted with
      | error error => exact restores_untouched _ _ same
      | ok bridges =>
        dsimp only
        split
        · exact restores_untouched _ _ same
        · refine wp_bind_keeps (keeps_chooseVmid _ false) same restores_untouched ?_
          intro vmid middle untouched
          split
          · exact restores_untouched _ _ untouched
          · rw [if_neg Bool.false_ne_true]
            refine wp_bind_keeps (keeps_send trivial) untouched restores_untouched ?_
            intro found later still
            split
            · exact restores_untouched _ _ still
            · obtain ⟨host, count⟩ := later
              obtain rfl : host = initial := still
              refine wp_bind (wp_mono (wp_createAndImport (noSlot_createOptions bundle bridges name)) ?_)
              rintro outcome final ⟨spared, ended⟩
              cases outcome with
              | error error => exact ⟨spared, ended⟩
              | ok _ =>
                obtain ⟨⟨fresh, vm, machines, holds⟩, cleared⟩ := ended
                refine wp_pure ⟨spared, ⟨bridges, vm, mapped, fresh, machines, holds.stopped,
                  holds.disks, holds.boot, ?_⟩, cleared⟩
                intro index nic card
                obtain ⟨bound, _⟩ := List.getElem?_eq_some_iff.mp card
                rw [← length_mappedBridges mapped] at bound
                exact ⟨_, List.getElem?_eq_getElem bound, (holds.nets index).trans
                  (get_net_createOptions name card (List.getElem?_eq_getElem bound))⟩

theorem wp_restore {manager : Manager} {required : Bool} {bundle : ConvertedBundle}
    {target : PlatformConfig} {name : String} {wanted : Dict} {count : Nat} :
    wp (sparing platform oracle initial) (manager.restore required bundle target name wanted false)
      (Restores oracle initial required bundle target wanted) ⟨initial, count⟩ := by
  cases manager with
  | builtin => exact wp_restoreProxmox rfl
  | certified =>
    exact wp_bind_keeps (keeps_preflight required bundle target wanted) rfl restores_untouched
      fun _ _ same => wp_restoreProxmox same

end Restoring

section Examples

/-- A host without machines, and what it leaves open. -/
def emptyHost : Host := ⟨fun _ => none, fun _ => none, fun _ => none⟩

def samplePlatform : Platform where
  nextid := fun _ => "100"
  volume := fun _ vmid storage => storage ++ ":vm-" ++ vmid ++ "-disk-0"
  frees := false
  storages := fun _ storage => some (storage ++ " dir active")
  link := fun _ _ => true

/-- Importing fails, and so does destroying. -/
def brokenOracle : Oracle := fun _ command => match command with
  | .importdisk .. | .destroy _ => .failed ⟨255, "", "lost connection"⟩ (by decide)
  | _ => .obeyed

def sampleBundle : ConvertedBundle where
  disks := [⟨"/work/web-sda", "qcow2", 65536⟩]
  nics := [⟨some "52:54:00:12:34:56", some "VM Network"⟩]
  memory_mib := 2048
  vcpus := 2
  firmware := "bios"
  os_family := "linux"
  osinfo := "debian12"

def sampleTarget : PlatformConfig where
  name := "pve"
  type := .proxmox
  endpoint := "pve.example"

def sampleOptions : Dict := [("storage", .str "local"), ("vmid", .str "100"),
  ("network_map", .obj [("VM Network", .str "vmbr1")])]

end Examples

end Immutavault.ImportAtomicity
