import Immutavault.Histories
import Immutavault.RecoveryTests

/-!
# A recovery test starts only on an isolated network

A machine of a recovery test is switched on in one place. Behind every command that
does so lies an isolation that returned, and an isolation returns only when every
network card that the platform listed was moved, each by a command that exited with
zero. The network is the one that the request names, and it is registered for the
platform at the time of the execution.

Moving a card is read off the history of the run. A Proxmox card keeps its settings
but for the bridge, so its new value is compared setting by setting.
-/

namespace Immutavault.TestIsolation

open Programs Values Catalog Machine Configuration ResticRepository StateDatabase Adapters
open RestoreEngine Management RecoveryTests Histories

section Settings

/-- Text between separators holds no separator. -/
theorem not_mem_splitOn {χ : Type} [DecidableEq χ] {separator : χ} {text piece : List χ}
    (member : piece ∈ text.splitOn separator) : separator ∉ piece := by
  induction text generalizing piece with
  | nil =>
    obtain rfl : piece = [] := by simpa using member
    exact List.not_mem_nil
  | cons first rest inductionHypothesis =>
    rw [List.splitOn_cons_eq_if_modifyHead] at member
    split at member
    · rcases List.mem_cons.mp member with rfl | later
      · exact List.not_mem_nil
      · exact inductionHypothesis later
    · rename_i other
      have different : separator ≠ first := by
        rintro rfl
        exact other (by simp)
      cases pieces : rest.splitOn separator with
      | nil => exact absurd pieces (List.splitOn_ne_nil _ _)
      | cons head others =>
        rw [pieces, List.modifyHead_cons] at member
        rcases List.mem_cons.mp member with rfl | later
        · have clean : separator ∉ head := inductionHypothesis (pieces ▸ List.mem_cons_self)
          simp [different, clean]
        · exact inductionHypothesis (pieces ▸ List.mem_cons_of_mem _ later)

/-- A setting is not empty and holds no comma. -/
theorem netParts_plain {value part : String} (member : part ∈ netParts value) :
    part ≠ "" ∧ ',' ∉ part.toList := by
  obtain ⟨piece, kept, rfl⟩ := List.mem_map.mp member
  obtain ⟨inside, nonempty⟩ := List.mem_filter.mp kept
  refine ⟨?_, by simpa using not_mem_splitOn inside⟩
  intro empty
  have same : piece = [] := by simpa using congrArg String.toList empty
  simp [same] at nonempty

/-- Joined settings are read back. -/
theorem netParts_intercalate {parts : List String} (some_parts : parts ≠ [])
    (plain : ∀ part ∈ parts, part ≠ "" ∧ ',' ∉ part.toList) :
    netParts (",".intercalate parts) = parts := by
  have pieces : (",".intercalate parts).toList.splitOn ',' = parts.map String.toList := by
    rw [String.toList_intercalate]
    refine List.splitOn_intercalate ',' ?_ (by simpa using some_parts)
    intro piece member
    obtain ⟨part, inside, rfl⟩ := List.mem_map.mp member
    exact (plain part inside).2
  have kept : (parts.map String.toList).filter (· ≠ []) = parts.map String.toList := by
    refine List.filter_eq_self.mpr ?_
    intro piece member
    obtain ⟨part, inside, rfl⟩ := List.mem_map.mp member
    simpa using (plain part inside).1
  rw [netParts, pieces, kept, List.map_map]
  simp [Function.comp_def]

/-- A moved card keeps its settings but for the bridge, which is the network. -/
theorem netParts_bridgedValue (value : String) {network : String} (clean : ',' ∉ network.toList) :
    netParts (bridgedValue value network) =
      (netParts value).filter (fun part => ¬ isBridgePart part) ++ ["bridge=" ++ network] := by
  refine netParts_intercalate (by simp) ?_
  intro part member
  rcases List.mem_append.mp member with kept | added
  · exact netParts_plain (List.mem_of_mem_filter kept)
  · obtain rfl := List.mem_singleton.mp added
    exact ⟨by simp [← String.toList_inj], by simpa using clean⟩

theorem isBridgePart_added (network : String) : isBridgePart ("bridge=" ++ network) = true := by
  simp [isBridgePart]

/-- Characters that are not white space survive trimming. -/
theorem mem_trimmed {text : String} {character : Char} (member : character ∈ text.toList)
    (visible : isWhitespace character = false) : character ∈ (trimmed text).toList := by
  have survives : ∀ characters : List Char, character ∈ characters →
      character ∈ characters.dropWhile isWhitespace := by
    intro characters inside
    induction characters with
    | nil => cases inside
    | cons first rest inductionHypothesis =>
      rw [List.dropWhile_cons]
      split
      · rename_i blank
        rcases List.mem_cons.mp inside with rfl | later
        · rw [visible] at blank
          cases blank
        · exact inductionHypothesis later
      · exact inside
  have trimmedFront := survives _ member
  have trimmedBack := survives _ (List.mem_reverse.mpr trimmedFront)
  simpa [trimmed] using trimmedBack

/-- The name of a bridge holds no comma. -/
theorem bridgeName_clean {network : String} (named : isBridgeName (trimmed network) = true) :
    ',' ∉ network.toList := by
  intro member
  have kept : ',' ∈ (trimmed network).toList := mem_trimmed member (by decide)
  simp only [isBridgeName, decide_eq_true_eq, List.all_eq_true] at named
  have impossible := named.2.2 ',' kept
  revert impossible
  decide

end Settings

section Isolation

variable (platform : PlatformConfig) (getenv : Environ) (restored : Dict) (network : String)

/-- Every listed card of a VMware machine was moved to the network. -/
def MovedVmware (start now : World) : Prop :=
  ∃ settings listing, govcEnv platform getenv = .ok settings ∧
    Succeeded start now (.testing platform.name
      ["govc", "device.ls", "-vm", fieldText restored "name" ""]) settings listing ∧
    vmwareDevices listing.stdout ≠ [] ∧
    ∀ device ∈ vmwareDevices listing.stdout, ∃ result,
      Succeeded start now (.testing platform.name ["govc", "vm.network.change", "-vm",
        fieldText restored "name" "", "-net", network, device]) settings result

/-- A command succeeded on the platform's host. -/
def SucceededOnHost (start now : World) (command : String) (result : CommandResult) : Prop :=
  Succeeded start now (.testing platform.name (ssh platform getenv ++ [command])) [] result

/-- Every listed card of a Proxmox machine was given a value with the network as its one bridge
and all the settings that it had otherwise. -/
def MovedProxmox (start now : World) : Prop :=
  let vmid := quote (fieldText restored "vmid" "")
  ∃ listing, SucceededOnHost platform getenv start now s!"qm config {vmid}" listing ∧
    proxmoxNets listing.stdout ≠ [] ∧
    ∀ net ∈ proxmoxNets listing.stdout, ∃ written result,
      SucceededOnHost platform getenv start now s!"qm set {vmid} --{net.1} {quote written}" result ∧
      (netParts written).filter isBridgePart = ["bridge=" ++ network] ∧
      (netParts written).filter (fun part => ¬ isBridgePart part) =
        (netParts net.2).filter (fun part => ¬ isBridgePart part)

/-- Every listed card of an XCP-ng machine was moved to the one network of that name. -/
def MovedXcpng (start now : World) : Prop :=
  let uuid := quote (fieldText restored "uuid" "")
  ∃ networks network_uuid listing,
    SucceededOnHost platform getenv start now
      s!"xe network-list {networkSelector (trimmed network)} params=uuid --minimal" networks ∧
    (minimalItems networks.stdout).eraseDups = [network_uuid] ∧
    SucceededOnHost platform getenv start now
      s!"xe vif-list vm-uuid={uuid} params=uuid --minimal" listing ∧
    minimalItems listing.stdout ≠ [] ∧
    ∀ vif ∈ minimalItems listing.stdout, ∃ result,
      SucceededOnHost platform getenv start now
        s!"xe vif-move uuid={quote vif} network-uuid={quote network_uuid}" result

/-- Every card that the platform listed for the machine was moved to the network. -/
def Moved (start now : World) : Prop :=
  match platform.type with
  | .vmware => MovedVmware platform getenv restored network start now
  | .proxmox => MovedProxmox platform getenv restored network start now
  | .xcpng => MovedXcpng platform getenv restored network start now

variable {platform getenv restored network} {env : Environment}

/-- A checked client command that returned succeeded with the client's settings. -/
theorem govc_ran {arguments : List String} {world after : World} {result : CommandResult}
    (ran : run env.handler (govc platform getenv arguments true) world = (.ok result, after)) :
    ∃ settings, govcEnv platform getenv = .ok settings ∧
      Succeeded world after (.testing platform.name ("govc" :: arguments)) settings result := by
  obtain ⟨settings, known, rest⟩ := run_raised_bind ran
  exact ⟨settings, known, runCommand_ran rest⟩

theorem isolateVmware_moves {validated : ValidatedNetwork} {start now : World} {isolation : Dict}
    (ran : run env.handler (isolateVmware platform getenv restored network validated) start =
      (.ok isolation, now)) : MovedVmware platform getenv restored network start now := by
  unfold isolateVmware at ran
  dsimp only at ran
  split at ran
  · cases ran
  · obtain ⟨devices, listed, listing, moving⟩ := (run_bind_eq_ok _).mp ran
    obtain ⟨result, middle, asked, checked⟩ := (run_bind_eq_ok _).mp listing
    obtain ⟨settings, known, succeeded⟩ := govc_ran asked
    obtain ⟨_, moved, looped, done⟩ := (run_bind_eq_ok _).mp moving
    dsimp only at checked
    split at checked
    · cases checked
    · rename_i some_devices
      obtain ⟨rfl, rfl⟩ : vmwareDevices result.stdout = devices ∧ middle = listed := by
        simpa only [run_pure, Prod.mk.injEq, Except.ok.injEq] using checked
      obtain rfl : moved = now := congrArg Prod.snd done
      refine ⟨settings, result, known,
        succeeded.within List.prefix_rfl (log_ran looped), some_devices, ?_⟩
      intro device member
      obtain ⟨before, after, behind, changed, ahead⟩ := each_ran looped device member
      obtain ⟨answer, done, changing, finished⟩ := (run_bind_eq_ok _).mp changed
      obtain ⟨again, same, own⟩ := govc_ran changing
      obtain rfl : settings = again := Except.ok.inj (known.symm.trans same)
      obtain rfl : done = after := congrArg Prod.snd finished
      exact ⟨answer, own.within ((log_ran asked).trans behind) ahead⟩

theorem isolateProxmox_moves {validated : ValidatedNetwork} {start now : World} {isolation : Dict}
    (clean : ',' ∉ network.toList)
    (ran : run env.handler (isolateProxmox platform getenv restored network validated) start =
      (.ok isolation, now)) : MovedProxmox platform getenv restored network start now := by
  unfold isolateProxmox at ran
  dsimp only at ran
  split at ran
  · cases ran
  · split at ran
    · cases ran
    · obtain ⟨listing, listed, asked, rest⟩ := (run_bind_eq_ok _).mp ran
      obtain ⟨_, moved, looped, checked⟩ := (run_bind_eq_ok _).mp rest
      split at checked
      · cases checked
      · rename_i some_nets
        obtain rfl : moved = now := congrArg Prod.snd checked
        refine ⟨listing, (runCommand_ran asked).within List.prefix_rfl (log_ran looped),
          some_nets, ?_⟩
        intro net member
        obtain ⟨before, after, behind, written, ahead⟩ := each_ran looped net member
        obtain ⟨answer, done, setting, finished⟩ := (run_bind_eq_ok _).mp written
        obtain rfl : done = after := congrArg Prod.snd finished
        refine ⟨bridgedValue net.2 network, answer,
          (runCommand_ran setting).within ((log_ran asked).trans behind) ahead, ?_, ?_⟩
        · rw [netParts_bridgedValue net.2 clean, List.filter_append]
          simp [isBridgePart_added, List.filter_filter]
        · rw [netParts_bridgedValue net.2 clean, List.filter_append]
          simp [isBridgePart_added, List.filter_filter]

theorem isolateXcpng_moves {network_uuid : String} {networks : CommandResult}
    {start middle now : World} {isolation : Dict}
    (resolved : SucceededOnHost platform getenv start middle
      s!"xe network-list {networkSelector (trimmed network)} params=uuid --minimal" networks)
    (only : (minimalItems networks.stdout).eraseDups = [network_uuid])
    (grown : start.log <+: middle.log)
    (ran : run env.handler (isolateXcpng platform getenv restored
      { network := trimmed network, network_uuid := some network_uuid }) middle =
      (.ok isolation, now)) : MovedXcpng platform getenv restored network start now := by
  unfold isolateXcpng at ran
  dsimp only at ran
  split at ran
  · cases ran
  · obtain ⟨listing, listed, asked, rest⟩ := (run_bind_eq_ok _).mp ran
    split at rest
    · cases rest
    · rename_i some_vifs
      obtain ⟨_, moved, looped, done⟩ := (run_bind_eq_ok _).mp rest
      obtain rfl : moved = now := congrArg Prod.snd done
      refine ⟨networks, network_uuid, listing,
        resolved.within List.prefix_rfl ((log_ran asked).trans (log_ran looped)), only,
        (runCommand_ran asked).within grown (log_ran looped), some_vifs, ?_⟩
      intro vif member
      obtain ⟨before, after, behind, moving, ahead⟩ := each_ran looped vif member
      obtain ⟨answer, done, command, finished⟩ := (run_bind_eq_ok _).mp moving
      obtain rfl : done = after := congrArg Prod.snd finished
      exact ⟨answer, (runCommand_ran command).within
        (grown.trans ((log_ran asked).trans behind)) ahead⟩

/-- An isolation that returned moved every card that the platform listed. -/
theorem isolate_moves {start now : World} {isolation : Dict}
    (ran : run env.handler (isolate platform getenv restored network) start =
      (.ok isolation, now)) : Moved platform getenv restored network start now := by
  obtain ⟨validated, middle, validating, isolating⟩ := (run_bind_eq_ok _).mp ran
  unfold validateNetwork at validating
  unfold Moved
  dsimp only at validating isolating
  split at validating
  · cases validating
  · cases type : platform.type with
    | vmware =>
      simp only [type] at isolating ⊢
      obtain ⟨settings, listing, known, listed, some_devices, moved⟩ :=
        isolateVmware_moves isolating
      have grown := log_ran validating
      refine ⟨settings, listing, known, listed.within grown List.prefix_rfl, some_devices, ?_⟩
      intro device member
      obtain ⟨result, own⟩ := moved device member
      exact ⟨result, own.within grown List.prefix_rfl⟩
    | proxmox =>
      simp only [type] at validating isolating ⊢
      unfold validateProxmox at validating
      split at validating
      · cases validating
      · rename_i named
        have clean : ',' ∉ network.toList := bridgeName_clean (not_not.mp named)
        obtain ⟨listing, listed, some_nets, moved⟩ := isolateProxmox_moves clean isolating
        have grown := log_ran validating
        refine ⟨listing, listed.within grown List.prefix_rfl, some_nets, ?_⟩
        intro net member
        obtain ⟨written, result, own, exact⟩ := moved net member
        exact ⟨written, result, own.within grown List.prefix_rfl, exact⟩
    | xcpng =>
      simp only [type] at validating isolating ⊢
      obtain ⟨uuid, resolvedAt, resolving, done⟩ := (run_bind_eq_ok _).mp validating
      obtain ⟨networks, listedAt, asked, checked⟩ := (run_bind_eq_ok _).mp resolving
      split at checked
      · rename_i found only
        obtain ⟨rfl, rfl⟩ : found = uuid ∧ listedAt = resolvedAt := by
          simpa only [run_pure, Prod.mk.injEq, Except.ok.injEq] using checked
        obtain ⟨rfl, rfl⟩ : { network := trimmed network, network_uuid := some found } =
            validated ∧ listedAt = middle := by
          simpa only [run_pure, Prod.mk.injEq, Except.ok.injEq] using done
        exact isolateXcpng_moves (runCommand_ran asked) only (log_ran validating) isolating
      · cases checked

end Isolation

section Footprints

attribute [local irreducible] Footprint

variable {platform : PlatformConfig} {getenv : Environ}

theorem footprint_govc (arguments : List String) (check : Bool) :
    Footprint [.outside] (govc platform getenv arguments check) := by
  refine footprint_bind (footprint_raised _) fun settings => ?_
  exact footprint_runCommand (by simp [Command.effect])

theorem footprint_onHost (command : String) (check : Bool) :
    Footprint [.outside] (onHost platform getenv command check) :=
  footprint_runCommand (by simp [Command.effect])

theorem footprint_validateVmware (network : String) :
    Footprint [.outside] (validateVmware platform getenv network) := by
  refine footprint_bind (footprint_govc _ _) fun found => ?_
  split
  · refine footprint_bind (footprint_govc _ _) fun groups => ?_
    split
    · exact footprint_throw _
    · exact footprint_pure _
  · exact footprint_pure _

theorem footprint_validateProxmox (network : String) :
    Footprint [.outside] (validateProxmox platform getenv network) := by
  unfold validateProxmox
  split
  · exact footprint_throw _
  · refine footprint_bind (footprint_onHost _ _) fun result => ?_
    split
    · exact footprint_throw _
    · exact footprint_pure _

theorem footprint_validateXcpng (network : String) :
    Footprint [.outside] (validateXcpng platform getenv network) := by
  refine footprint_bind (footprint_bind (footprint_onHost _ _) fun result => ?_)
    fun uuid => footprint_pure _
  split
  · exact footprint_pure _
  · exact footprint_throw _

theorem footprint_validateNetwork (network : String) :
    Footprint [.outside] (validateNetwork platform getenv network) := by
  unfold validateNetwork
  dsimp only
  split
  · exact footprint_throw _
  · split
    · exact footprint_validateVmware _
    · exact footprint_validateProxmox _
    · exact footprint_validateXcpng _

/-- Moving cards asks the platform, and does nothing else. -/
theorem footprint_isolate (restored : Dict) (network : String) :
    Footprint [.outside] (isolate platform getenv restored network) := by
  refine footprint_bind (footprint_validateNetwork network) fun validated => ?_
  split
  · unfold isolateVmware
    dsimp only
    split
    · exact footprint_throw _
    · refine footprint_bind (footprint_bind (footprint_govc _ _) fun listing => ?_)
        fun devices => ?_
      · dsimp only
        split
        · exact footprint_throw _
        · exact footprint_pure _
      · refine footprint_bind (footprint_each fun device => ?_) fun _ => footprint_pure _
        exact footprint_bind (footprint_govc _ _) fun _ => footprint_pure _
  · unfold isolateProxmox
    dsimp only
    split
    · exact footprint_throw _
    · split
      · exact footprint_throw _
      · refine footprint_bind (footprint_onHost _ _) fun listing => ?_
        refine footprint_bind (footprint_each fun net => ?_) fun _ => ?_
        · exact footprint_bind (footprint_onHost _ _) fun _ => footprint_pure _
        · split
          · exact footprint_throw _
          · exact footprint_pure _
  · unfold isolateXcpng
    dsimp only
    split
    · exact footprint_throw _
    · refine footprint_bind (footprint_onHost _ _) fun listing => ?_
      split
      · exact footprint_throw _
      · refine footprint_bind (footprint_each fun vif => ?_) fun _ => footprint_pure _
        exact footprint_bind (footprint_onHost _ _) fun _ => footprint_pure _

theorem footprint_running (restored : Dict) :
    Footprint [.outside] (running platform getenv restored) := by
  unfold running
  split
  · exact footprint_bind (footprint_govc _ _) fun _ => footprint_pure _
  · exact footprint_bind (footprint_onHost _ _) fun _ => footprint_pure _
  · exact footprint_bind (footprint_onHost _ _) fun _ => footprint_pure _

theorem footprint_destroy (restored : Dict) :
    Footprint [.outside] (destroy platform getenv restored) := by
  have command : Footprint [.outside] (destroyCommand platform getenv restored) := by
    unfold destroyCommand
    split
    · exact footprint_govc _ _
    · exact footprint_onHost _ _
    · exact footprint_onHost _ _
  refine footprint_bind command fun result => ?_
  split
  · exact footprint_throw _
  · exact footprint_pure _

/-- Appending to the chain before answering touches the chain only. -/
theorem footprint_auditThen {α : Type} {actor action object_type object_id : String}
    {details : Dict} (value : α) : Footprint [.silent, .writing .audits]
      (audit actor action object_type object_id details >>= fun _ => pure value) :=
  footprint_bind (footprint_audit (by simp) (by simp) _ _ _ _ _) fun _ => footprint_pure _

variable (managed : ManagedRecoveryEngine)

theorem footprint_ensureTestable (snapshot_id : String) :
    Footprint [.silent] (ManagedRecoveryEngine.ensureTestable snapshot_id) := by
  refine footprint_bind (footprint_reading rfl (by simp)) fun point => ?_
  split
  · exact footprint_throw _
  · split
    · exact footprint_throw _
    · split
      · exact footprint_throw _
      · exact footprint_pure _

theorem footprint_ensureAllowed (target : PlatformConfig) (network : String) :
    Footprint [.silent] (managed.ensureAllowed target network) := by
  unfold ManagedRecoveryEngine.ensureAllowed
  split
  · exact footprint_throw _
  · exact footprint_pure _

/-- Validating a test reads the catalogue and asks the platform. -/
theorem footprint_validateDrTest (snapshot_id target_platform : String) (options : Dict) :
    Footprint [.silent, .outside]
      (managed.validateDrTest snapshot_id target_platform options) := by
  refine footprint_bind (footprint_raised _) fun found => ?_
  split
  · exact footprint_throw _
  · refine footprint_bind ((footprint_ensureTestable _).mono (by simp)) fun _ => ?_
    refine footprint_bind (footprint_raised _) fun target => ?_
    refine footprint_bind ((footprint_ensureAllowed managed _ _).mono (by simp)) fun _ => ?_
    exact footprint_bind ((footprint_validateNetwork _).mono (by simp)) fun _ => footprint_pure _

/-- The cleanup switches off at most. -/
theorem footprint_cleanUp (target : PlatformConfig) (restored : Dict) :
    Footprint [.outside, .ofPower false] (managed.cleanUp target restored) := by
  refine footprint_bind (footprint_attempt ((footprint_powerOff _ _ _).mono (by simp)))
    fun off => ?_
  split
  · refine footprint_bind (footprint_attempt ((footprint_destroy _).mono (by simp))) fun _ => ?_
    exact footprint_pure _
  · exact footprint_pure _

theorem footprint_recordTestFailure (request_id : Nat) (actor network : String)
    (primary_error : Option Exn) (cleanup_errors : List String) :
    Footprint [.silent, .writing .requests, .writing .audits]
      (ManagedRecoveryEngine.recordTestFailure request_id actor network primary_error
        cleanup_errors) := by
  refine footprint_bind ((footprint_finishRestore _ _ _ _).mono (by simp)) fun _ => ?_
  refine footprint_bind (footprint_audit (by simp) (by simp) _ _ _ _ _) fun _ => ?_
  split <;> exact footprint_throw _

end Footprints

section Executions

attribute [local irreducible] Footprint

variable {managed : ManagedRecoveryEngine} {env : Environment} {world : World}
  {request_id : Nat} {actor : String} {dry_run : Bool} {entry : World × Command}

/-- What stands behind a command that switches the machine of a test on: the request that is
executed, its registered network, the machine that the restore returned, and the isolation of
that machine, which returned before the command and moved every card. -/
structure Isolated (managed : ManagedRecoveryEngine) (env : Environment) (world : World)
    (request_id : Nat) (actor : String) (entry : World × Command) (req : RequestRow)
    (target : PlatformConfig) (network : String) (restored : Dict) (start isolatedAt : World) :
    Prop where
  requested : world.db.requests.lookup request_id = some req
  marked : ∃ marker, drTestMarker req.options = .ok (some (marker, network))
  located : managed.super.platform req.target_platform = .ok target
  allowed : network ∈ managed.cfg.management.networksOf target.name
  restores : ∃ before, world.log <+: before.log ∧
    run env.handler (managed.super.executeRestore request_id actor false) before =
      (.ok restored, start)
  isolates : ∃ isolation, run env.handler (isolate target managed.getenv restored network) start =
    (.ok isolation, isolatedAt)
  moved : Moved target managed.getenv restored network start isolatedAt
  behind : isolatedAt.log <+: entry.1.log
  switches : ∃ argv settings report,
    power target managed.getenv restored true = .ok (argv, settings, report) ∧
    entry.2 = .request (.run (.power target.name true argv) settings none)
  first : recorded (.ofPower true) entry.1.log = recorded (.ofPower true) world.log

/-- A validated test has a marker, a configured platform and a registered network. -/
theorem validateDrTest_ran {snapshot_id target_platform : String} {options : Dict}
    {target : PlatformConfig} {marker : Dict} {network : String} {after : World}
    (ran : run env.handler (managed.validateDrTest snapshot_id target_platform options) world =
      (.ok (target, marker, network), after)) :
    drTestMarker options = .ok (some (marker, network)) ∧
      managed.super.platform target_platform = .ok target ∧
      network ∈ managed.cfg.management.networksOf target.name := by
  obtain ⟨found, marked, rest⟩ := run_raised_bind ran
  cases found with
  | none => cases rest
  | some found =>
    obtain ⟨point, tested, _, rest⟩ := (run_bind_eq_ok _).mp rest
    obtain ⟨located, known, rest⟩ := run_raised_bind rest
    obtain ⟨_, checked, allowing, rest⟩ := (run_bind_eq_ok _).mp rest
    obtain ⟨_, validated, _, done⟩ := (run_bind_eq_ok _).mp rest
    obtain ⟨rfl, rfl, rfl⟩ : located = target ∧ found.1 = marker ∧ found.2 = network := by
      simp only [run_pure, Prod.mk.injEq, Except.ok.injEq] at done
      exact done.1
    refine ⟨marked, known, ?_⟩
    unfold ManagedRecoveryEngine.ensureAllowed at allowing
    split at allowing
    · cases allowing
    · rename_i registered
      exact not_not.mp registered

/-- In the test of a restored machine, the machine is switched on once its isolation returned. -/
theorem testMachine_isolated {target : PlatformConfig} {network : String} {restored : Dict}
    {start : World} (switched : entry.2.effect = .ofPower true)
    (member : entry ∈ issued env.handler
      (managed.testMachine request_id actor target network restored) start) :
    ∃ isolation isolatedAt,
      run env.handler (isolate target managed.getenv restored network) start =
        (.ok isolation, isolatedAt) ∧ isolatedAt.log <+: entry.1.log ∧
      (∃ argv settings report,
        power target managed.getenv restored true = .ok (argv, settings, report) ∧
        entry.2 = .request (.run (.power target.name true argv) settings none)) ∧
      recorded (.ofPower true) entry.1.log = recorded (.ofPower true) start.log := by
  obtain ⟨isolation, isolatedAt, isolating, member⟩ :=
    issued_after (footprint_isolate _ _) (by simp [switched]) member
  have auditing : Footprint [.silent, .writing .audits]
      (audit actor "dr.test.isolated" "restore_request" (toString request_id) isolation) :=
    footprint_audit (by simp) (by simp) _ _ _ _ _
  obtain ⟨_, audited, auditRan, member⟩ := issued_after auditing (by simp [switched]) member
  have quiet : recorded (.ofPower true) audited.log = recorded (.ofPower true) start.log :=
    (recorded_ran auditing (by simp) auditRan).trans
      (recorded_ran (footprint_isolate _ _) (by simp) isolating)
  have ahead := log_ran auditRan
  refine ⟨isolation, isolatedAt, isolating, ?_⟩
  rcases (mem_issued_bind _).mp member with powering | ⟨_, poweredAt, _, later⟩
  · obtain ⟨planned, known, issuing⟩ := issued_raised_bind powering
    rcases (mem_issued_bind _).mp issuing with own | ⟨_, _, _, impossible⟩
    · obtain rfl := issued_runCommand own
      exact ⟨ahead, ⟨planned.1, planned.2.1, planned.2.2, known, rfl⟩, quiet⟩
    · cases impossible
  · obtain ⟨_, slept, _, later⟩ := issued_after
      (footprint_request (by simp [Command.effect] : _ ∈ [Effect.outside])) (by simp [switched])
      later
    obtain ⟨boot, watched, _, later⟩ := issued_after (footprint_running restored)
      (by simp [switched]) later
    dsimp only at later
    split at later
    · cases later
    · refine absurd later (not_issued (footprint_auditThen _)
        (by simp [switched]))

/-- A run of a test switches a machine on only behind the restore that returned it. -/
theorem executeTest_isolated {target : PlatformConfig} {network : String} {before : World}
    (switched : entry.2.effect = .ofPower true)
    (member : entry ∈ issued env.handler
      (managed.executeTest request_id actor target network) before) :
    ∃ restored start, run env.handler (managed.super.executeRestore request_id actor false) before =
        (.ok restored, start) ∧
      entry ∈ issued env.handler
        (managed.testMachine request_id actor target network restored) start := by
  have restoring := managed.super.footprint_executeRestore request_id actor false
  obtain ⟨outcome, start, attempted, member⟩ :=
    issued_after (footprint_attempt restoring) (by simp [switched]) member
  rw [run_attempt] at attempted
  obtain ⟨rfl, rfl⟩ : _ = outcome ∧ _ = start := by
    simpa only [Prod.mk.injEq, Except.ok.injEq] using attempted
  cases outcome : (run env.handler (managed.super.executeRestore request_id actor false) before).1 with
  | error error =>
    rw [outcome] at member
    exact absurd member (not_issued (footprint_recordTestFailure _ _ _ _ _) (by simp [switched]))
  | ok restored =>
    rw [outcome] at member
    refine ⟨restored, _, Prod.ext outcome rfl, ?_⟩
    rcases (mem_issued_bind _).mp member with testing | ⟨tested, _, _, later⟩
    · rwa [issued_attempt] at testing
    · obtain ⟨cleanup_errors, cleaned, _, later⟩ :=
        issued_after (footprint_cleanUp managed target restored) (by simp [switched]) later
      dsimp only at later
      split at later
      · refine absurd later (not_issued (footprint_auditThen _)
          (by simp [switched]))
      · exact absurd later
          (not_issued (footprint_recordTestFailure _ _ _ _ _) (by simp [switched]))
      · exact absurd later
          (not_issued (footprint_recordTestFailure _ _ _ _ _) (by simp [switched]))

/-- Whatever an execution does, it switches a machine on only when the machine is isolated. -/
theorem power_on_isolated
    (member : entry ∈ issued env.handler (managed.executeRestore request_id actor dry_run) world)
    (switched : entry.2.effect = .ofPower true) :
    ∃ req target network restored start isolatedAt,
      Isolated managed env world request_id actor entry req target network restored start
        isolatedAt := by
  have reading : Footprint [.silent] (getRestoreRequest request_id) :=
    footprint_reading rfl (by simp)
  obtain ⟨found, looked, readRan, member⟩ := issued_after reading (by simp [switched]) member
  have requested := (transact_ran readRan).1
  cases found with
  | none => cases member
  | some req =>
    obtain ⟨marked, _, member⟩ := issued_raised_bind member
    cases marked with
    | none =>
      exact absurd member (not_issued (managed.super.footprint_executeRestore _ _ _)
        (by simp [switched]))
    | some marked =>
      have validating := footprint_validateDrTest managed req.snapshot_id req.target_platform
        req.options
      obtain ⟨⟨target, marker, network⟩, validatedAt, validated, member⟩ :=
        issued_after validating (by simp [switched]) member
      obtain ⟨marked, located, allowed⟩ := validateDrTest_ran validated
      dsimp only at member
      split at member
      · refine absurd member (not_issued (footprint_bind
          (managed.super.footprint_executeRestore _ _ _) fun _ => footprint_pure _)
          (by simp [switched]))
      · obtain ⟨restored, start, restores, member⟩ := executeTest_isolated switched member
        obtain ⟨isolation, isolatedAt, isolates, behind, switches, quiet⟩ :=
          testMachine_isolated switched member
        refine ⟨req, target, network, restored, start, isolatedAt, {
          requested := requested, marked := ⟨marker, marked⟩, located := located
          allowed := allowed
          restores := ⟨validatedAt, (log_ran readRan).trans (log_ran validated), restores⟩
          isolates := ⟨isolation, isolates⟩, moved := isolate_moves isolates, behind := behind
          switches := switches, first := ?_ }⟩
        calc recorded (.ofPower true) entry.1.log
            = recorded (.ofPower true) start.log := quiet
          _ = recorded (.ofPower true) validatedAt.log :=
            recorded_ran (managed.super.footprint_executeRestore _ _ _) (by simp) restores
          _ = recorded (.ofPower true) looked.log := recorded_ran validating (by simp) validated
          _ = recorded (.ofPower true) world.log := recorded_ran reading (by simp) readRan

end Executions

/-- An approved test that goes well switches its machine on. -/
theorem power_on_isolated_bench :
    ∃ entry ∈ issued benchHost.handler (bench.executeRestore 1 "carol" false)
        ⟨benchCatalogue, 0, []⟩,
      ∃ req target network restored start isolatedAt,
        Isolated bench benchHost ⟨benchCatalogue, 0, []⟩ 1 "carol" entry req target network
          restored start isolatedAt := by
  have starts : (issued benchHost.handler (bench.executeRestore 1 "carol" false)
      ⟨benchCatalogue, 0, []⟩).any (fun entry => Command.effect entry.2 = .ofPower true) = true := by
    decide
  obtain ⟨entry, member, switched⟩ := List.any_eq_true.mp starts
  exact ⟨entry, member, power_on_isolated member (of_decide_eq_true switched)⟩

end Immutavault.TestIsolation
