import Immutavault.CheckpointAtomicity
import Immutavault.IncrementalExports

/-!
# Chains of increments

An increment is taken against the checkpoint of the one before it. Whether a machine can be
recovered from a cache therefore depends on all the exports that have touched it, on those
that failed, and on those of other machines in the same directory.

A helper that keeps its protocol turns a complete image into a complete image, and makes one
where no checkpoint is given. Every delivered view is then a complete image of its machine at
its checkpoint, whatever fails in between, if a removal takes the checkpoint away and no two
machines share a directory. Machines with names that have the same safe component do share one.
-/

namespace Immutavault.CheckpointChains

open Programs Values PosixPaths GuestFiles JsonTexts VddkProvider IncrementalExports
open SessionOwnership (safeComponent)
open Integrity (utf8 decoded decoded_utf8)
open Machine (CommandResult)

section Hosts

/-- What lies in the staging directory of an export. -/
inductive Package where
  | nothing
  | partly
  | view (files : Files)
  | clone (marker : Option (List Char))

/-- How everything outside the program behaves at every moment. -/
structure Host where
  provider : Nat → Surroundings
  order : Nat → Except Exn Unit
  removing : Nat → Files → Files

/-- The caches of all machines, and what is being staged. -/
structure World where
  clock : Nat := 0
  caches : Path → Files := fun _ _ => none
  target : Package := .nothing

variable (host : Host) (root : Path)

/-- The provider works in the cache of one machine. -/
def Host.below : Handler providing Failure World := fun command world =>
  let answered := (host.provider world.clock).handler command (world.caches root)
  (answered.1, ⟨world.clock + 1, Function.update world.caches root answered.2, world.target⟩)

/-- What is staged once a command has succeeded or failed. -/
def staged (cache : Files) (target : Package) : Except Exn Unit → ExportCommand → Package
  | .ok (), .snapshotView => .view cache
  | .ok (), .fullExport _ false => .clone none
  | .ok (), .writeMarker text => .clone (some text)
  | .error _, .snapshotView | .error _, .fullExport _ false | .error _, .writeMarker _ => .partly
  | _, _ => target

def Host.above : Handler exporting Failure World
  | .removeCache, world =>
    (.ok (), ⟨world.clock + 1, Function.update world.caches root
      (host.removing world.clock (world.caches root)), world.target⟩)
  | command, world =>
    ((host.order world.clock).mapError .exn, ⟨world.clock + 1, world.caches,
      staged (world.caches root) world.target (host.order world.clock) command⟩)

def Host.handler : Handler (providing.both exporting) Failure World
  | .inl command, world => host.below root command world
  | .inr command, world => host.above root command world

variable {host root}

theorem run_provided {α : Type} (program : Prog α) (world : World) :
    run (host.handler root) (provided program) world = run (host.below root) program world := by
  unfold provided
  induction program generalizing world with
  | ret value => rfl
  | raise error => rfl
  | call command resume inductionHypothesis => exact inductionHypothesis _ _

theorem run_order (command : ExportCommand) (world : World) :
    run (host.handler root) (order command) world = host.above root command world := by
  rcases answered : host.above root command world with ⟨error | done, after⟩
  · simp only [order, Program.perform, Program.second, run, Host.handler, answered]
  · simp only [order, Program.perform, Program.second, run, Host.handler, answered]

/-- Other commands than a removal leave the caches alone. -/
theorem run_aside {command : ExportCommand} (other : command ≠ .removeCache) (world : World) :
    run (host.handler root) (order command) world =
      ((host.order world.clock).mapError .exn, ⟨world.clock + 1, world.caches,
        staged (world.caches root) world.target (host.order world.clock) command⟩) := by
  rw [run_order]
  cases command with
  | removeCache => exact absurd rfl other
  | _ => rfl

theorem run_aside_ok {command : ExportCommand} (other : command ≠ .removeCache)
    {world after : World} {done : Unit}
    (ran : run (host.handler root) (order command) world = (.ok done, after)) :
    after = ⟨world.clock + 1, world.caches,
      staged (world.caches root) world.target (.ok ()) command⟩ := by
  rw [run_aside other] at ran
  cases answer : host.order world.clock with
  | ok done =>
    rw [answer] at ran
    exact (Prod.mk.inj ran).2.symm
  | error error =>
    rw [answer] at ran
    cases ran

theorem run_below (command : ProviderCommand) (world : World) :
    run (host.below root) (ask command) world = host.below root command world :=
  @run_perform providing _ _ (host.below root) command world

/-- A command of the provider changes the cache as it changes any directory. -/
theorem below_cache (command : ProviderCommand) (world : World) :
    (host.below root command world).2.caches root =
      ((host.provider world.clock).handler command (world.caches root)).2 :=
  Function.update_self _ _ _

end Hosts

section Images

variable {Φ : Type} [Floating Φ]

/-- Files that the provider writes beside those of its helper. -/
def annotations : List Str := [checkpointFile, consistencyFile, transportFile]

/-- The files of the helper. -/
def blocks (files : Files) : Files := fun name => if name ∈ annotations then none else files name

variable (Φ) in
/-- The checkpoint of a cache, if it can be read. -/
def checkpointOf (files : Files) : Option (Value Φ) :=
  match ((files checkpointFile).bind decoded).map loads with
  | some (.ok (.dict fields)) => some (.dict fields)
  | _ => none

/-- A machine, by the name of its platform and its own id. -/
abbrev MachineKey := Str × Str

variable (Φ) in
/-- What it means that files are a complete image of a machine at a checkpoint. -/
abbrev Image := MachineKey → Value Φ → Files → Prop

/-- The request is about a machine. -/
def About (machine : MachineKey) (asked : List (Str × Value Φ)) : Prop :=
  get asked "platform" = .text machine.1 ∧ get asked "vm_id" = .text machine.2

/-- A helper that is asked for a backup reports success and a checkpoint. -/
def Succeeds (env : Surroundings) (asked checkpoint : List (Str × Value Φ)) (files after : Files) :
    Prop :=
  ∃ helper request result fields, Value.written .spaced (.dict asked) = .ok request ∧
    env.answers [helper, str "backup", str "--json"] (some request) files = (.ok result, after) ∧
    result.returncode = 0 ∧ printedValue result = .ok (Value.dict fields) ∧
    (get fields "status").isText (str "success") = true ∧
    get fields "checkpoint" = .dict checkpoint

/-- The helper keeps its protocol: asking what it is capable of changes nothing, and what it
reports as a success is a complete image, if what it was given was one. A removal takes at
least the checkpoint away. -/
structure Host.Honest (host : Host) (image : Image Φ) : Prop where
  probes : ∀ clock helper input_text files,
    ((host.provider clock).answers [helper, str "capabilities", str "--json"] input_text
      files).2 = files
  backups : ∀ clock machine asked checkpoint files after, About machine asked →
    Succeeds (host.provider clock) asked checkpoint files after →
    (get asked "previous_checkpoint" = .null ∨
      image machine (get asked "previous_checkpoint") (blocks files)) →
    image machine (arranged (.dict checkpoint)) (blocks after)
  removes : ∀ clock files, host.removing clock files checkpointFile = none

/-- The image that the checkpoint of a cache promises is there. -/
def Based (image : Image Φ) (machine : MachineKey) (files : Files) : Prop :=
  ∀ value, checkpointOf Φ files = some value → image machine value (blocks files)

/-- Files from which a machine can be recovered as it was at the checkpoint they hold. -/
def Recoverable (image : Image Φ) (machine : MachineKey) (files : Files) : Prop :=
  ∃ value, checkpointOf Φ files = some value ∧ image machine value (blocks files)

theorem Recoverable.based {image : Image Φ} {machine : MachineKey} {files : Files}
    (recoverable : Recoverable image machine files) : Based image machine files := by
  obtain ⟨value, held, complete⟩ := recoverable
  intro other found
  obtain rfl := Option.some.inj (held.symm.trans found)
  exact complete

/-- Without a checkpoint nothing is promised. -/
theorem based_of_absent {image : Image Φ} {machine : MachineKey} {files : Files}
    (absent : files checkpointFile = none) : Based image machine files := by
  intro value found
  rw [checkpointOf, absent] at found
  cases found

theorem checkpointOf_bytes [LawfulFloating Φ] {files : Files} {checkpoint : List (Str × Value Φ)}
    (clean : Clean (.dict checkpoint))
    (stored : files checkpointFile = some (checkpointBytes checkpoint)) :
    checkpointOf Φ files = some (arranged (.dict checkpoint)) := by
  rw [checkpointOf, stored, Option.bind_some, checkpointBytes, decoded_utf8, Option.map_some,
    loads_fileText clean]
  rfl

end Images

section Looking

variable {Φ : Type} [Floating Φ] {host : Host} {root : Path} {image : Image Φ}

/-- Commands that look only. -/
def Looks : ProviderCommand → Prop
  | .replace .. => False
  | .run argv _ _ _ => ∃ helper, argv = [helper, str "capabilities", str "--json"]
  | _ => True

theorem issues_ask {property : ProviderCommand → Prop} {command : ProviderCommand}
    (holds : property command) : Issues property (ask command) :=
  (@issues_perform providing Failure property command).mpr holds

theorem issues_converted {α : Type} {property : ProviderCommand → Prop} (given : Except Exn α) :
    Issues property (converted given) := by
  cases given with
  | ok value => exact issues_pure value
  | error error => exact issues_throw _

theorem looks_capabilities (provider : Provider Φ) : Issues Looks (capabilities provider) := by
  apply issues_bind
  · unfold resolvedHelper
    dsimp only
    split
    · exact issues_bind (issues_ask trivial) fun _ => issues_pure _
    · exact issues_ask trivial
  intro helper
  cases helper with
  | none => exact issues_pure _
  | some helper =>
    apply issues_bind (issues_ask ⟨helper, rfl⟩)
    intro result
    split
    · exact issues_pure _
    · split
      · exact issues_pure _
      · exact issues_throw _
      · apply issues_bind (issues_converted _); intro listed
        apply issues_bind (issues_converted _); intro features
        apply issues_bind (issues_converted _); intro _
        apply issues_bind (issues_converted _); intro version
        apply issues_bind (issues_converted _); intro protocol
        apply issues_bind (issues_converted _); intro sorted
        apply issues_bind (issues_converted _); intro name
        apply issues_bind (issues_converted _); intro provider_version
        exact issues_bind (issues_converted _) fun modes => issues_pure _

theorem looks_availableHelper (provider : Provider Φ) :
    Issues Looks (availableHelper provider) := by
  apply issues_bind (looks_capabilities provider)
  intro caps
  split
  · exact issues_pure _
  · exact issues_throw _

theorem looks_readCheckpoint : Issues Looks (readCheckpoint : Prog (Option (Value Φ))) := by
  apply issues_bind (issues_ask trivial)
  intro present
  split
  · apply issues_bind (issues_attempt (issues_ask trivial))
    intro outcome
    split
    · split
      · exact issues_pure _
      · exact issues_throw _
    · exact issues_throw _
    · split <;> first | exact issues_pure _ | exact issues_throw _
  · exact issues_pure _

theorem looks_backupRequest (provider : Provider Φ) (call : BackupCall) :
    Issues Looks (backupRequest provider call) := by
  apply issues_bind looks_readCheckpoint
  intro previous
  apply issues_bind (issues_converted _)
  intro block_size
  exact issues_bind (issues_converted _) fun order => issues_converted _

/-- Looking changes no file. -/
theorem caches_of_looks {α : Type} {program : Prog α} (honest : host.Honest image)
    (looks : Issues Looks program) {world after : World} {outcome : Except Failure α}
    (ran : run (host.below root) program world = (outcome, after)) :
    after.caches = world.caches := by
  obtain rfl : (run (host.below root) program world).2 = after := congrArg Prod.snd ran
  apply @issues_run providing _ _ _ Looks (host.below root) program
    (fun after => after.caches = world.caches) looks _ world rfl
  intro command state look same
  have kept : ((host.provider state.clock).handler command (state.caches root)).2 =
      state.caches root := by
    cases command with
    | run argv timeout env input_text =>
      obtain ⟨helper, rfl⟩ := look
      exact honest.probes _ _ _ _
    | replace name text => exact look.elim
    | _ => rfl
  change Function.update state.caches root _ = _
  rw [kept, Function.update_eq_self, same]

/-- The provider touches neither other caches nor what is staged. -/
theorem below_elsewhere {α : Type} {program : Prog α} {world after : World}
    {outcome : Except Failure α} (ran : run (host.below root) program world = (outcome, after)) :
    after.target = world.target ∧
      ∀ other, other ≠ root → after.caches other = world.caches other := by
  obtain rfl : (run (host.below root) program world).2 = after := congrArg Prod.snd ran
  apply @issues_run providing _ _ _ (fun _ => True) (host.below root) program
    (fun after => after.target = world.target ∧
      ∀ other, other ≠ root → after.caches other = world.caches other)
    (issues_all program fun _ => trivial) _ world ⟨rfl, fun _ _ => rfl⟩
  intro command state _ ⟨target, caches⟩
  constructor
  · exact target
  · intro other apart
    exact (Function.update_of_ne apart _ _).trans (caches other apart)

end Looking

section Requests

variable {Φ : Type} [Floating Φ] {host : Host} {root : Path} {image : Image Φ}
  {provider : Provider Φ} {lower : Str → Str} {call : BackupCall} {world after : World}

theorem converted_ok {α : Type} {given : Except Exn α} {value : α}
    (ran : run (host.below root) (converted given) world = (.ok value, after)) :
    given = .ok value ∧ after = world := by
  cases given with
  | ok other =>
    cases ran
    exact ⟨rfl, rfl⟩
  | error error => cases ran

/-- What is read as the last checkpoint is the one that the cache holds, or none. -/
theorem readCheckpoint_ok {previous : Option (Value Φ)}
    (ran : run (host.below root) readCheckpoint world = (.ok previous, after)) :
    previous = none ∨ previous = checkpointOf Φ (world.caches root) := by
  obtain ⟨present, middle, asked, ran⟩ := (run_bind_eq_ok _).mp ran
  have still : middle.caches root = world.caches root := by
    rw [run_below] at asked
    cases asked
    exact Function.update_self _ _ _
  split at ran
  · obtain ⟨outcome, later, tried, ran⟩ := (run_bind_eq_ok _).mp ran
    rw [run_attempt, run_below] at tried
    have answered := Except.ok.inj (Prod.mk.inj tried).1
    split at ran
    · split at ran
      · cases ran
        exact Or.inl rfl
      · cases ran
    · cases ran
    · rename_i text
      have stored : (world.caches root checkpointFile).bind decoded = some text := by
        have known : ((host.provider middle.clock).readText checkpointFile
            (middle.caches root)).mapError Failure.exn = .ok text := answered
        rw [still, Surroundings.readText] at known
        cases reading : (host.provider middle.clock).reading checkpointFile with
        | error error =>
          rw [reading] at known
          cases known
        | ok done =>
          rw [reading] at known
          cases found : (world.caches root checkpointFile).bind decoded with
          | none =>
            simp only [found] at known
            cases known
          | some text' =>
            simp only [found] at known
            cases known
            rfl
      split at ran
      · rename_i fields loaded
        cases ran
        right
        rw [checkpointOf, stored, Option.map_some, loaded]
      · cases ran
        exact Or.inl rfl
      · cases ran
        exact Or.inl rfl
      · cases ran
  · cases ran
    exact Or.inl rfl

/-- A request names the machine, and the checkpoint that the cache holds, if any. -/
theorem backupRequest_ok {request : List Char}
    (ran : run (host.below root) (backupRequest provider call) world = (.ok request, after)) :
    ∃ asked : List (Str × Value Φ), Value.written .spaced (.dict asked) = .ok request ∧
      About (call.platform_name, call.vm_id) asked ∧
      (get asked "previous_checkpoint" = .null ∨
        checkpointOf Φ (world.caches root) = some (get asked "previous_checkpoint")) := by
  obtain ⟨previous, _, read, ran⟩ := (run_bind_eq_ok _).mp ran
  obtain ⟨block_size, _, _, ran⟩ := (run_bind_eq_ok _).mp ran
  obtain ⟨order, _, _, ran⟩ := (run_bind_eq_ok _).mp ran
  obtain ⟨text, _⟩ := converted_ok ran
  refine ⟨_, text, ⟨rfl, rfl⟩, ?_⟩
  change previous.getD .null = .null ∨
    checkpointOf Φ (world.caches root) = some (previous.getD .null)
  rcases readCheckpoint_ok read with rfl | same
  · exact Or.inl rfl
  · cases known : checkpointOf Φ (world.caches root) with
    | none =>
      rw [known] at same
      exact Or.inl (by rw [same]; rfl)
    | some value =>
      rw [known] at same
      exact Or.inr (by rw [same]; rfl)

/-- What a command of the helper answers, and what it leaves. -/
theorem run_ok {argv : List Str} {timeout : Int} {env : List (Str × Str)}
    {input_text : Option (List Char)} {result : CommandResult}
    (ran : run (host.below root) (ask (.run argv timeout env input_text)) world =
      (.ok result, after)) :
    (host.provider world.clock).answers argv input_text (world.caches root) =
      (.ok result, after.caches root) := by
  rw [run_below] at ran
  obtain rfl := congrArg Prod.snd ran
  have answered := congrArg Prod.fst ran
  apply Prod.ext
  · change ((host.provider world.clock).answers argv input_text
      (world.caches root)).1.mapError Failure.exn = .ok result at answered
    cases reply : ((host.provider world.clock).answers argv input_text (world.caches root)).1 with
    | error error =>
      rw [reply] at answered
      cases answered
    | ok other =>
      rw [reply] at answered
      cases answered
      rfl
  · exact (below_cache (.run argv timeout env input_text) world).symm

theorem replyOf_ok {result : CommandResult} {payload : Value Φ}
    (ran : run (host.below root) (replyOf result) world = (.ok payload, after)) :
    (printedValue result = .ok payload ∨ payload = .dict []) ∧ after = world := by
  unfold replyOf at ran
  split at ran
  · rename_i found
    cases ran
    exact ⟨Or.inl found, rfl⟩
  · cases ran
    exact ⟨Or.inr rfl, rfl⟩
  · cases ran

theorem raiseUnsuccessful_raises {result : CommandResult} {payload : Value Φ}
    {accepted : Accepted Φ} :
    run (host.below root) (raiseUnsuccessful result payload) world ≠ (.ok accepted, after) := by
  intro ran
  obtain ⟨reason, _, _, ran⟩ := (run_bind_eq_ok _).mp ran
  obtain ⟨error, _, _, ran⟩ := (run_bind_eq_ok _).mp ran
  obtain ⟨safe, _, _, ran⟩ := (run_bind_eq_ok _).mp ran
  cases ran

omit [Floating Φ] in
/-- A dictionary in a clean one is clean. -/
theorem clean_get {fields inner : List (Str × Value Φ)} {key : String}
    (clean : Clean (.dict fields)) (found : get fields key = .dict inner) :
    Clean (.dict inner) := by
  unfold VddkProvider.get at found
  cases there : Value.get? fields (str key) with
  | none =>
    rw [there] at found
    cases found
  | some value =>
    rw [there] at found
    obtain rfl : value = .dict inner := found
    have member := (get?_eq_some_iff clean.1).mp there
    exact (cleanFields_iff.mp clean.2 _ member).2

/-- A reply that passed every gate is the success of a helper that was asked for a backup of
this machine. -/
theorem examine_ok (honest : host.Honest image) {accepted : Accepted Φ}
    (ran : run (host.below root) (examine provider lower call) world = (.ok accepted, after)) :
    ∃ clock asked, About (call.platform_name, call.vm_id) asked ∧
      Succeeds (host.provider clock) asked accepted.checkpoint (world.caches root)
        (after.caches root) ∧
      (get asked "previous_checkpoint" = .null ∨
        checkpointOf Φ (world.caches root) = some (get asked "previous_checkpoint")) ∧
      Clean (.dict accepted.checkpoint : Value Φ) := by
  obtain ⟨caps, one, probed, behindProbe⟩ := (run_bind_eq_ok _).mp ran
  obtain ⟨_, two, made, behindDirectory⟩ := (run_bind_eq_ok _).mp behindProbe
  obtain ⟨request, three, composed, behindRequest⟩ := (run_bind_eq_ok _).mp behindDirectory
  obtain ⟨result, four, replied, behindReply⟩ := (run_bind_eq_ok _).mp behindRequest
  obtain ⟨payload, five, printed, gates⟩ := (run_bind_eq_ok _).mp behindReply
  have first := caches_of_looks honest (looks_availableHelper provider) probed
  have looking : Issues Looks (ask (.directory true [])) := issues_ask trivial
  have second := caches_of_looks honest looking made
  have third := caches_of_looks honest (looks_backupRequest provider call) composed
  obtain ⟨asked, text, about, previous⟩ := backupRequest_ok composed
  rw [second, first] at previous
  have answered := run_ok replied
  rw [third, second, first] at answered
  obtain ⟨read, rfl⟩ := replyOf_ok printed
  -- The gates behind a reply are passed by a success with a checkpoint only.
  split at gates
  · exact absurd gates raiseUnsuccessful_raises
  · rename_i code
    obtain ⟨status, six, shown, behindStatus⟩ := (run_bind_eq_ok _).mp gates
    obtain ⟨given, rfl⟩ := converted_ok shown
    split at behindStatus
    · rename_i fields
      obtain rfl := Except.ok.inj given
      split at behindStatus
      · exact absurd behindStatus raiseUnsuccessful_raises
      · rename_i successful
        dsimp only at behindStatus
        split at behindStatus
        · cases behindStatus
        · obtain ⟨layout, seven, looked, last⟩ := (run_bind_eq_ok _).mp behindStatus
          have still : seven.caches root = six.caches root := by
            rw [run_below] at looked
            cases looked
            exact Function.update_self _ _ _
          split at last
          · cases last
          · split at last
            · rename_i field rest checkpoint
              cases last
              have printed : printedValue result = .ok (Value.dict fields) := by
                rcases read with shown | empty
                · exact shown
                · cases empty
                  cases checkpoint
              rw [still]
              refine ⟨three.clock, asked, about, ?_, previous, ?_⟩
              · exact ⟨caps.helper, request, result, fields, text, answered, not_not.mp code,
                  printed, not_not.mp successful, checkpoint⟩
              · exact clean_get (clean_loads printed) checkpoint
            · cases last
    · exact absurd behindStatus raiseUnsuccessful_raises

end Requests

section Backups

variable {Φ : Type} [Floating Φ] {host : Host} {root : Path} {image : Image Φ}
  {provider : Provider Φ} {lower : Str → Str} {call : BackupCall} {world after : World}

/-- Commands that write beside the files of the helper. -/
def Annotates : ProviderCommand → Prop
  | .replace name _ => name = consistencyFile ∨ name = transportFile
  | .directory .. => True
  | _ => False

theorem annotates_record (accepted : Accepted Φ) : Issues Annotates (record call accepted) := by
  apply issues_bind
  · exact issues_bind (issues_ask trivial) fun _ => issues_ask (Or.inl rfl)
  intro _
  apply issues_bind (issues_converted _)
  intro changed
  apply issues_bind (issues_converted _)
  intro source
  apply issues_bind
  · apply issues_bind (issues_ask trivial)
    intro _
    split
    · exact issues_ask (Or.inr rfl)
    · exact issues_throw _
  · exact fun _ => issues_pure _

theorem blocks_update {files : Files} {name : Str} (own : name ∈ annotations)
    (bytes : Option (List UInt8)) : blocks (Function.update files name bytes) = blocks files := by
  funext other
  unfold blocks
  split
  · rfl
  · rename_i foreign
    apply Function.update_of_ne
    rintro rfl
    exact foreign own

/-- Neither the files of the helper nor the checkpoint are touched. -/
theorem annotated {α : Type} {program : Prog α} (annotates : Issues Annotates program)
    {outcome : Except Failure α} (ran : run (host.below root) program world = (outcome, after)) :
    blocks (after.caches root) = blocks (world.caches root) ∧
      after.caches root checkpointFile = world.caches root checkpointFile := by
  obtain rfl : (run (host.below root) program world).2 = after := congrArg Prod.snd ran
  apply @issues_run providing _ _ _ Annotates (host.below root) program
    (fun after => blocks (after.caches root) = blocks (world.caches root) ∧
      after.caches root checkpointFile = world.caches root checkpointFile) annotates _ world
    ⟨rfl, rfl⟩
  rintro command state own ⟨same, stored⟩
  rw [below_cache]
  cases command with
  | replace name text =>
    unfold Surroundings.handler
    dsimp only
    split
    · have listed : name ∈ annotations := by
        rcases own with rfl | rfl
        · decide
        · decide
      have other : checkpointFile ≠ name := by
        rcases own with rfl | rfl
        · decide
        · decide
      exact ⟨(blocks_update listed _).trans same, (Function.update_of_ne other _ _).trans stored⟩
    · exact ⟨same, stored⟩
  | directory => exact ⟨same, stored⟩
  | _ => exact own.elim

/-- A value that was written replaces its file. -/
theorem writeJsonAtomic_ok {name : Str} {value : Value Φ}
    (ran : run (host.below root) (writeJsonAtomic name value) world = (.ok (), after)) :
    after.caches root =
      Function.update (world.caches root) name (some (utf8 (fileText value))) := by
  obtain ⟨_, middle, made, ran⟩ := (run_bind_eq_ok _).mp ran
  have still : middle.caches root = world.caches root := by
    rw [run_below] at made
    obtain rfl := congrArg Prod.snd made
    exact Function.update_self _ _ _
  split at ran
  · rw [run_below, Host.below] at ran
    dsimp only at ran
    rw [still] at ran
    obtain ⟨written, rfl⟩ := Prod.mk.inj ran
    apply (Function.update_self root _ _).trans
    unfold Surroundings.handler at written ⊢
    dsimp only at written ⊢
    split
    · rfl
    · rename_i error failed
      rw [failed] at written
      cases written
  · cases ran

/-- An increment that returns leaves a complete image with its checkpoint, if there was one
before, or no checkpoint. -/
theorem backup_ok [LawfulFloating Φ] (honest : host.Honest image)
    (based : Based image (call.platform_name, call.vm_id) (world.caches root))
    {result : IncrementalResult Φ}
    (ran : run (host.below root) (backup provider lower call) world = (.ok result, after)) :
    Recoverable image (call.platform_name, call.vm_id) (after.caches root) := by
  obtain ⟨accepted, one, examined, behind⟩ := (run_bind_eq_ok _).mp ran
  obtain ⟨_, two, written, recorded⟩ := (run_bind_eq_ok _).mp behind
  obtain ⟨clock, asked, about, succeeds, previous, clean⟩ := examine_ok honest examined
  have complete : image (call.platform_name, call.vm_id) (arranged (.dict accepted.checkpoint))
      (blocks (one.caches root)) := by
    apply honest.backups clock _ asked accepted.checkpoint _ _ about succeeds
    rcases previous with none | held
    · exact Or.inl none
    · exact Or.inr (based _ held)
  have advanced := writeJsonAtomic_ok written
  obtain ⟨same, stored⟩ := annotated (annotates_record accepted) recorded
  refine ⟨arranged (.dict accepted.checkpoint), ?_, ?_⟩
  · apply checkpointOf_bytes clean
    rw [stored, advanced, Function.update_self]
    rfl
  · rw [same, advanced, blocks_update (by decide)]
    exact complete

end Backups

section Exports

variable {Φ : Type} [Floating Φ] {host : Host} {root : Path} {image : Image Φ}
  {machine : MachineKey} {others : Path → Files} {world : World}

/-- What holds while the helper may be at work: other caches are as they were, and what is
staged can be recovered. -/
structure Loose (image : Image Φ) (machine : MachineKey) (root : Path) (others : Path → Files)
    (world : World) : Prop where
  elsewhere : ∀ other, other ≠ root → world.caches other = others other
  staged : ∀ files, world.target = .view files → Recoverable image machine files

/-- What holds between the exports of a machine. -/
structure Sound (image : Image Φ) (machine : MachineKey) (root : Path) (others : Path → Files)
    (world : World) : Prop extends Loose image machine root others world where
  based : Based image machine (world.caches root)

/-- Every command is permitted. -/
abbrev watching (host : Host) (root : Path) : Monitor (providing.both exporting) Failure World :=
  (host.handler root).monitor fun _ _ => True

/-- What a run ends in is what a program is judged by. -/
theorem wp_of_run {I : Interface} {ε α σ : Type} {handler : Handler I ε σ} {program : Program I ε α}
    {post : Except ε α → σ → Prop} {state : σ}
    (holds : post (run handler program state).1 (run handler program state).2) :
    wp (handler.monitor fun _ _ => True) program post state := by
  induction program generalizing state with
  | ret value => exact holds
  | raise error => exact holds
  | call command resume inductionHypothesis =>
    constructor
    · trivial
    · rintro answer rfl
      exact inductionHypothesis _ holds

theorem keeps_looking {α : Type} {program : Prog α} (honest : host.Honest image)
    (looks : Issues Looks program) :
    Keeps (watching host root) (Sound image machine root others) (provided program) := by
  intro before sound
  apply wp_of_run
  rw [run_provided]
  rcases ran : run (host.below root) program before with ⟨outcome, after⟩
  have same := caches_of_looks honest looks ran
  have target := (below_elsewhere ran).1
  constructor
  · constructor
    · intro other apart
      rw [same]
      exact sound.elsewhere other apart
    · intro files view
      exact sound.staged files (target.symm.trans view)
  · rw [same]
    exact sound.based

/-- Clones and markers leave the caches alone. -/
theorem keeps_order {command : ExportCommand} (other : command ≠ .removeCache)
    (unseen : command ≠ .snapshotView) :
    Keeps (watching host root) (Sound image machine root others) (order command) := by
  intro before sound
  apply wp_of_run
  rw [run_aside other]
  constructor
  · constructor
    · exact sound.elsewhere
    · intro files view
      apply sound.staged files
      change staged (before.caches root) before.target (host.order before.clock) command =
        .view files at view
      unfold staged at view
      split at view
      · exact absurd rfl unseen
      all_goals first | cases view | exact view
  · exact sound.based

theorem keeps_fullFallback (reason error : Str) (cache_invalidated : Bool) :
    Keeps (watching host root) (Sound image machine root others)
      (fullFallback Φ reason error cache_invalidated) := by
  apply keeps_bind (keeps_order (by simp) (by simp))
  exact fun _ => keeps_order (by simp) (by simp)

/-- Once the cache is removed, nothing is promised that is not there. -/
theorem wp_removeCache (honest : host.Honest image)
    (loose : Loose image machine root others world) :
    wp (watching host root) (order .removeCache)
      (fun outcome after => outcome = .ok () ∧ Sound image machine root others after) world := by
  apply wp_of_run
  rw [run_order]
  constructor
  · rfl
  constructor
  · constructor
    · intro other apart
      exact (Function.update_of_ne apart _ _).trans (loose.elsewhere other apart)
    · exact loose.staged
  · apply based_of_absent
    have left : (host.above root .removeCache world).2.caches root =
        host.removing world.clock (world.caches root) := Function.update_self _ _ _
    rw [left]
    exact honest.removes _ _

/-- What failed is put right whatever it was. -/
theorem wp_recover (honest : host.Honest image) (adapter : Adapter Φ) (failure : Failure)
    (loose : Loose image machine root others world) :
    wp (watching host root) (recover adapter failure)
      (fun _ after => Sound image machine root others after) world := by
  have removed := wp_removeCache honest loose
  cases failure with
  | transport message reason fallback_safe =>
    apply wp_bind
    apply wp_mono removed
    rintro _ after ⟨rfl, sound⟩
    dsimp only
    split
    · exact keeps_fullFallback _ _ _ after sound
    · exact wp_throw sound
  | exn error =>
    apply wp_bind
    apply wp_mono removed
    rintro _ after ⟨rfl, sound⟩
    exact wp_throw sound

/-- An increment with its view leaves everything sound when it returns. -/
theorem wp_exportIncrement [LawfulFloating Φ] (honest : host.Honest image) (adapter : Adapter Φ)
    (lower : Str → Str) (vm : VM) (env : List (Str × Str))
    (sound : Sound image (adapter.name, vm.id) root others world) :
    wp (watching host root) (exportIncrement adapter lower vm env)
      (fun outcome after => match outcome with
        | .ok () => Sound image (adapter.name, vm.id) root others after
        | .error _ => Loose image (adapter.name, vm.id) root others after) world := by
  apply wp_bind
  apply wp_of_run
  rw [run_provided]
  rcases ran : run (host.below root) (backup (adapter.provider env) lower (adapter.call vm)) world
    with ⟨failure | result, middle⟩
  · obtain ⟨target, elsewhere⟩ := below_elsewhere ran
    constructor
    · intro other apart
      exact (elsewhere other apart).trans (sound.elsewhere other apart)
    · intro files view
      exact sound.staged files (target.symm.trans view)
  · obtain ⟨target, elsewhere⟩ := below_elsewhere ran
    have recoverable := backup_ok honest sound.based ran
    dsimp only
    apply wp_of_run
    rw [run_aside (by simp)]
    have kept : ∀ other, other ≠ root → middle.caches other = others other := by
      intro other apart
      exact (elsewhere other apart).trans (sound.elsewhere other apart)
    cases host.order middle.clock with
    | ok done =>
      constructor
      · constructor
        · exact kept
        · intro files view
          obtain rfl := Package.view.inj view
          exact recoverable
      · exact recoverable.based
    | error error =>
      constructor
      · exact kept
      · exact fun files view => nomatch view

theorem keeps_exportWithout (adapter : Adapter Φ) (caps : Capabilities Φ) (dry_run : Bool) :
    Keeps (watching host root) (Sound image machine root others)
      (exportWithout adapter caps dry_run) := by
  unfold exportWithout
  dsimp only
  split
  · split
    · exact keeps_order (by simp) (by simp)
    · exact keeps_throw _
  · split
    · exact keeps_fullFallback _ _ _
    · exact keeps_throw _

/-- An export of a machine keeps its cache sound, whether it returns or raises. -/
theorem keeps_exportVM [LawfulFloating Φ] (honest : host.Honest image) (adapter : Adapter Φ)
    (lower : Str → Str) (vm : VM) (destination : Path) (dry_run : Bool) :
    Keeps (watching host root) (Sound image (adapter.name, vm.id) root others)
      (exportVM adapter lower vm destination dry_run) := by
  unfold exportVM
  dsimp only
  split
  · exact keeps_bind (keeps_order (by simp) (by simp)) fun _ => keeps_pure _
  · refine keeps_bind (keeps_looking honest (issues_converted _)) fun env => ?_
    refine keeps_bind (keeps_looking honest (looks_capabilities _)) fun caps => ?_
    split
    · exact keeps_bind (keeps_exportWithout adapter caps dry_run) fun _ => keeps_pure _
    · split
      · exact keeps_pure _
      · refine keeps_bind (keeps_order (by simp) (by simp)) ?_
        intro _ before sound
        apply wp_bind
        apply wp_attempt
        apply wp_mono (wp_exportIncrement honest adapter lower vm env sound)
        rintro (failure | done) after held
        · apply wp_bind
          apply wp_mono (wp_recover honest adapter failure held)
          intro outcome final kept
          cases outcome with
          | ok done => exact kept
          | error error => exact kept
        · exact held

end Exports

section Runs

variable {Φ : Type} [Floating Φ] {host : Host} {image : Image Φ} {lower : Str → Str}

/-- An export that is asked for. -/
structure Request (Φ : Type) where
  adapter : Adapter Φ
  vm : VM
  destination : Path
  dry_run : Bool

def Request.root (request : Request Φ) : Path := request.adapter.cacheRoot request.vm

def Request.machine (request : Request Φ) : MachineKey := (request.adapter.name, request.vm.id)

/-- An export has a staging directory of its own. -/
def exported (host : Host) (lower : Str → Str) (request : Request Φ) (world : World) :
    Except Failure Path × World :=
  run (host.handler request.root)
    (exportVM request.adapter lower request.vm request.destination request.dry_run)
    { world with target := .nothing }

/-- What the exports that return deliver, one after the other. -/
def exportAll (host : Host) (lower : Str → Str) : List (Request Φ) → World →
    List (Request Φ × Package) × World
  | [], world => ([], world)
  | request :: rest, world =>
    let after := (exported host lower request world).2
    let later := exportAll host lower rest after
    match (exported host lower request world).1 with
    | .ok _ => ((request, after.target) :: later.1, later.2)
    | .error _ => later

/-- The caches of other machines stay as they are. -/
theorem sound_exported [LawfulFloating Φ] (honest : host.Honest image) (lower : Str → Str)
    {request : Request Φ} {world : World}
    (based : Based image request.machine (world.caches request.root)) :
    Sound image request.machine request.root world.caches
      (exported host lower request world).2 := by
  have started : Sound image request.machine request.root world.caches
      { world with target := .nothing } := by
    constructor
    · constructor
      · exact fun _ _ => rfl
      · exact fun files view => nomatch view
    · exact based
  exact wp_run (keeps_exportVM honest request.adapter lower request.vm request.destination
    request.dry_run _ started)

/-- Every view that is delivered is a complete image of its machine at the checkpoint it holds,
and so is every cache that holds a checkpoint, as long as machines do not share caches. -/
theorem deliveries_recoverable [LawfulFloating Φ] (honest : host.Honest image)
    (requests : List (Request Φ)) (world : World)
    (apart : ∀ first ∈ requests, ∀ second ∈ requests, first.root = second.root →
      first.machine = second.machine)
    (based : ∀ request ∈ requests, Based image request.machine (world.caches request.root)) :
    (∀ request files, (request, .view files) ∈ (exportAll host lower requests world).1 →
      Recoverable image request.machine files) ∧
    ∀ request ∈ requests, Based image request.machine
      ((exportAll host lower requests world).2.caches request.root) := by
  suffices general : ∀ known : List (Request Φ), (∀ request ∈ requests, request ∈ known) →
      (∀ first ∈ known, ∀ second ∈ known, first.root = second.root →
        first.machine = second.machine) →
      (∀ request ∈ known, Based image request.machine (world.caches request.root)) →
      (∀ request files, (request, .view files) ∈ (exportAll host lower requests world).1 →
        Recoverable image request.machine files) ∧
      ∀ request ∈ known, Based image request.machine
        ((exportAll host lower requests world).2.caches request.root) from
    general requests (fun _ member => member) apart based
  intro known
  clear apart based
  induction requests generalizing world with
  | nil =>
    intro _ _ based
    constructor
    · intro request files member
      cases member
    · exact based
  | cons request rest inductionHypothesis =>
    intro listed apart based
    have here : request ∈ known := listed request List.mem_cons_self
    have sound := sound_exported honest lower (based request here)
    have onward := inductionHypothesis (exported host lower request world).2
      (fun other member => listed other (List.mem_cons_of_mem _ member)) apart (by
        intro other member
        by_cases same : other.root = request.root
        · rw [apart other member request here same, same]
          exact sound.based
        · rw [sound.elsewhere other.root same]
          exact based other member)
    rw [exportAll]
    split
    · constructor
      · intro other files member
        rcases List.mem_cons.mp member with first | later
        · obtain ⟨rfl, view⟩ := Prod.mk.inj first
          exact sound.staged files view.symm
        · exact onward.1 other files later
      · exact onward.2
    · exact onward

end Runs

section Samples

/-- The file of a helper that copies its only disk as a whole. -/
def diskFile : Str := str "disk.blk"

/-- A host on which nothing fails, with this helper. -/
def copyingHost : Host where
  provider _ :=
    { VddkProvider.host (successful "42") with
      answers := fun argv _ files =>
        if argv[1]? = some (str "backup") then
          (.ok ⟨0, successful "42", "", .ok (.arr []), []⟩,
            Function.update (Function.update files layoutFile (some [])) diskFile (some [1]))
        else (.ok ⟨0, capable, "", .ok (.arr []), []⟩, files) }
  order _ := .ok ()
  removing _ _ _ := none

/-- The disk is there. -/
def wholeDisk : Image Constant := fun _ _ files => files diskFile = some [1]

def vcenter : Adapter Constant := ⟨str "vc-main", str "https://vc/sdk", str "cbt", [], 60, .ok []⟩

def nightly (name : String) : Request Constant :=
  ⟨vcenter, ⟨str name, str name⟩, PurePath.parse (str "/staging"), false⟩

theorem copyingHost_honest : copyingHost.Honest wholeDisk where
  probes _ helper _ files := by
    have other : [helper, str "capabilities", str "--json"][1]? ≠ some (str "backup") := by
      intro same
      have apart : str "capabilities" ≠ str "backup" := by decide
      exact apart (Option.some.inj same)
    change (if _ then _ else _ : Except Exn CommandResult × Files).2 = files
    rw [if_neg other]
  backups _ _ _ _ files after _ succeeds _ := by
    obtain ⟨helper, request, result, fields, _, answered, _⟩ := succeeds
    have left := congrArg Prod.snd answered
    change (Function.update (Function.update files layoutFile (some [])) diskFile (some [1])) =
      after at left
    subst left
    have own : diskFile ∉ annotations := by decide
    exact (if_neg own).trans (Function.update_self _ _ _)
  removes _ _ := rfl

/-- Two machines in turn, one of them twice. -/
def nights : List (Request Constant) := ["web01", "sql01", "web01"].map nightly

theorem nights_recoverable :
    (∀ request files, (request, .view files) ∈ (exportAll copyingHost id nights {}).1 →
      Recoverable wholeDisk request.machine files) ∧
    ∀ request ∈ nights, Based wholeDisk request.machine
      ((exportAll copyingHost id nights {}).2.caches request.root) := by
  have apart : ∀ one ∈ ["web01", "sql01", "web01"], ∀ other ∈ ["web01", "sql01", "web01"],
      (nightly one).root = (nightly other).root → one = other := by decide +kernel
  refine deliveries_recoverable copyingHost_honest nights _ ?_ ?_
  · intro first one second two shared
    obtain ⟨name, listed, rfl⟩ := List.mem_map.mp one
    obtain ⟨other, member, rfl⟩ := List.mem_map.mp two
    rw [apart name listed other member shared]
  · exact fun _ _ => based_of_absent rfl

end Samples

end Immutavault.CheckpointChains
