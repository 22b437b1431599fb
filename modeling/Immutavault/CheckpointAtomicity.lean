import Immutavault.VddkProvider

/-!
# When a failed backup leaves the checkpoint alone

A backup that raises should leave the checkpoint as it was, so that the next one starts
from where the last good one ended. A backup that returns has put its own checkpoint
there.

The second is always so. The first is so as long as a gate refuses the reply, or the
checkpoint itself cannot be written. Once it is written, the backup may still fail: the
consistency or the transport may not be written, and a reply may hold numbers that cannot
be converted. Nothing takes the checkpoint back then.
-/

namespace Immutavault.VddkProvider

open Programs Values PosixPaths GuestFiles JsonTexts Machine
open Integrity (utf8 decoded)

/-- How the host answers. What is asked several times in one backup is asked for different
files. -/
structure Surroundings where
  executable : Str → Bool
  which : Str → Option Str
  answers : List Str → Option (List Char) → Files → Except Exn CommandResult × Files
  directory : Str → Except Exn Unit
  reading : Str → Except Exn Unit
  replacing : Str → Except Exn Unit

namespace Surroundings

variable (env : Surroundings)

/-- The text of a file. -/
def readText (name : Str) (files : Files) : Except Exn (List Char) := do
  env.reading name
  match (files name).bind decoded with
  | some text => return text
  | none => throw ⟨.valueError, "'utf-8' codec can't decode"⟩

def handler : Handler providing Failure Files
  | .executable path, files => (.ok (env.executable path), files)
  | .which name, files => (.ok (env.which name), files)
  | .run argv _ _ input_text, files =>
    ((env.answers argv input_text files).1.mapError .exn, (env.answers argv input_text files).2)
  | .directory _ purpose, files => ((env.directory purpose).mapError .exn, files)
  | .isFile name, files => (.ok (files name).isSome, files)
  | .read name, files => ((env.readText name files).mapError .exn, files)
  | .replace name text, files =>
    match env.replacing name with
    | .ok () => (.ok (), Function.update files name (some (utf8 text)))
    | .error error => (.error (.exn error), files)

/-- The helper leaves the checkpoint to the provider. -/
def KeepsCheckpoint : Prop :=
  ∀ argv input_text files,
    (env.answers argv input_text files).2 checkpointFile = files checkpointFile

end Surroundings

/-- Commands that do not write the checkpoint. -/
def Spares : ProviderCommand → Prop
  | .replace name _ => name ≠ checkpointFile
  | _ => True

section Sparing

variable {α Φ : Type} [Floating Φ]

theorem spares_converted (given : Except Exn α) : Issues Spares (converted given) := by
  cases given <;> simp [converted]

@[simp] theorem spares_ask {command : ProviderCommand} :
    Issues Spares (ask command) ↔ Spares command := by
  unfold ask
  exact @issues_perform providing _ _ command

theorem spares_resolvedHelper (provider : Provider Φ) :
    Issues Spares (resolvedHelper provider) := by
  unfold resolvedHelper
  dsimp only
  split
  · exact issues_bind (spares_ask.mpr trivial) fun _ => issues_pure _
  · exact spares_ask.mpr trivial

theorem spares_capabilities (provider : Provider Φ) : Issues Spares (capabilities provider) := by
  refine issues_bind (spares_resolvedHelper provider) fun helper => ?_
  cases helper with
  | none => exact issues_pure _
  | some helper =>
    refine issues_bind (spares_ask.mpr trivial) fun result => ?_
    split
    · exact issues_pure _
    · split
      · exact issues_pure _
      · exact issues_throw _
      · refine issues_bind (spares_converted _) fun listed => ?_
        refine issues_bind (spares_converted _) fun features => ?_
        refine issues_bind (spares_converted _) fun _ => ?_
        refine issues_bind (spares_converted _) fun version => ?_
        refine issues_bind (spares_converted _) fun protocol => ?_
        refine issues_bind (spares_converted _) fun sorted => ?_
        refine issues_bind (spares_converted _) fun name => ?_
        refine issues_bind (spares_converted _) fun provider_version => ?_
        exact issues_bind (spares_converted _) fun modes => issues_pure _

theorem spares_availableHelper (provider : Provider Φ) :
    Issues Spares (availableHelper provider) := by
  refine issues_bind (spares_capabilities provider) fun caps => ?_
  split
  · exact issues_pure _
  · exact issues_throw _

theorem spares_readCheckpoint : Issues Spares (readCheckpoint : Prog (Option (Value Φ))) := by
  refine issues_bind (spares_ask.mpr trivial) fun present => ?_
  split
  · refine issues_bind (issues_attempt (spares_ask.mpr trivial)) fun outcome => ?_
    split
    · split
      · exact issues_pure _
      · exact issues_throw _
    · exact issues_throw _
    · split <;> first | exact issues_pure _ | exact issues_throw _
  · exact issues_pure _

theorem spares_backupRequest (provider : Provider Φ) (call : BackupCall) :
    Issues Spares (backupRequest provider call) := by
  refine issues_bind spares_readCheckpoint fun previous => ?_
  refine issues_bind (spares_converted _) fun block_size => ?_
  exact issues_bind (spares_converted _) fun order => spares_converted _

theorem spares_raiseUnsuccessful (result : CommandResult) (payload : Value Φ) :
    Issues Spares (raiseUnsuccessful result payload) := by
  refine issues_bind (spares_converted _) fun reason => ?_
  refine issues_bind (spares_converted _) fun error => ?_
  exact issues_bind (spares_converted _) fun safe => issues_throw _

/-- Up to the gates nothing writes the checkpoint. -/
theorem spares_examine (provider : Provider Φ) (lower : Str → Str) (call : BackupCall) :
    Issues Spares (examine provider lower call) := by
  refine issues_bind (spares_availableHelper provider) fun caps => ?_
  refine issues_bind (spares_ask.mpr trivial) fun _ => ?_
  refine issues_bind (spares_backupRequest provider call) fun request => ?_
  refine issues_bind (spares_ask.mpr trivial) fun result => ?_
  refine issues_bind ?_ fun payload => ?_
  · unfold replyOf
    split <;> first | exact issues_pure _ | exact issues_throw _
  · split
    · exact spares_raiseUnsuccessful result payload
    · refine issues_bind (spares_converted _) fun status => ?_
      split
      · split
        · exact spares_raiseUnsuccessful result _
        · dsimp only
          split
          · exact issues_throw _
          · refine issues_bind (spares_ask.mpr trivial) fun layout => ?_
            split
            · exact issues_throw _
            · split <;> first | exact issues_pure _ | exact issues_throw _
      · exact spares_raiseUnsuccessful result _

theorem spares_writeJsonAtomic {name : Str} (other : name ≠ checkpointFile) (value : Value Φ) :
    Issues Spares (writeJsonAtomic name value) := by
  refine issues_bind (spares_ask.mpr trivial) fun _ => ?_
  split
  · exact spares_ask.mpr other
  · exact issues_throw _

/-- Nor does anything behind it. -/
theorem spares_record (call : BackupCall) (accepted : Accepted Φ) :
    Issues Spares (record call accepted) := by
  have other : consistencyFile ≠ checkpointFile := by decide
  refine issues_bind (issues_bind (spares_ask.mpr trivial) fun _ => spares_ask.mpr other)
    fun _ => ?_
  refine issues_bind (spares_converted _) fun changed => ?_
  refine issues_bind (spares_converted _) fun source => ?_
  exact issues_bind (spares_writeJsonAtomic (by decide) _) fun _ => issues_pure _

end Sparing

section Atomicity

variable {Φ : Type} [Floating Φ] (env : Surroundings) (provider : Provider Φ) (lower : Str → Str)
  (call : BackupCall)

/-- The bytes of a checkpoint's file. -/
def checkpointBytes (checkpoint : List (Str × Value Φ)) : List UInt8 :=
  utf8 (fileText (.dict checkpoint))

/-- A backup that raises leaves the checkpoint as it was, and one that returns has put its
checkpoint there. -/
structure Atomic (files : Files) : Prop where
  raises : ∀ failure after, run env.handler (backup provider lower call) files =
    (.error failure, after) → after checkpointFile = files checkpointFile
  returns : ∀ result after, run env.handler (backup provider lower call) files =
    (.ok result, after) → after checkpointFile = some (checkpointBytes result.checkpoint)

/-- A checkpoint can be written. -/
structure Advances (checkpoint : List (Str × Value Φ)) : Prop where
  directory : env.directory checkpointFile = .ok ()
  fits : (Value.dict checkpoint).fits = true
  replacing : env.replacing checkpointFile = .ok ()

/-- Behind the checkpoint nothing fails: both files are written, and the numbers of the
reply can be converted. -/
structure Completes (accepted : Accepted Φ) : Prop where
  consistencyDirectory : env.directory consistencyFile = .ok ()
  consistency : env.replacing consistencyFile = .ok ()
  numbers : ∃ changed source, numberOf accepted "changed_bytes" = .ok changed ∧
    numberOf accepted "source_bytes_read" = .ok source ∧
    (transportOf accepted changed source).fits = true
  transportDirectory : env.directory transportFile = .ok ()
  transport : env.replacing transportFile = .ok ()

/-- The file of a checkpoint is read as the checkpoint, with its keys in order. -/
theorem loads_fileText [LawfulFloating Φ] {value : Value Φ} (clean : Clean value) :
    loads (fileText value) = .ok (arranged value) := by
  refine loads_dumps .indented (clean_arranged clean) fun blank member => ?_
  rw [List.mem_singleton.mp member]
  rfl

variable {env}

theorem run_ask (command : ProviderCommand) (files : Files) :
    run env.handler (ask command) files = env.handler command files :=
  @run_perform providing _ _ env.handler command files

@[simp] theorem run_converted_ok {α : Type} (value : α) (files : Files) :
    run env.handler (converted (.ok value)) files = (.ok value, files) := rfl

@[simp] theorem run_converted_error {α : Type} (error : Exn) (files : Files) :
    run env.handler (converted (.error error) : Prog α) files = (.error (.exn error), files) := rfl

/-- What spares the checkpoint leaves it as it is. -/
theorem checkpoint_spared {α : Type} {program : Prog α} (keeps : env.KeepsCheckpoint)
    (spares : Issues Spares program) (files : Files) :
    (run env.handler program files).2 checkpointFile = files checkpointFile := by
  refine @issues_run providing _ _ _ Spares env.handler program
    (fun after => after checkpointFile = files checkpointFile) spares ?_ files rfl
  intro command state spared same
  cases command with
  | run argv timeout settings input_text => exact (keeps argv input_text state).trans same
  | replace name text =>
    have apart : checkpointFile ≠ name := fun equal => spared equal.symm
    cases replacing : env.replacing name with
    | ok done => simpa [Surroundings.handler, replacing, Function.update_of_ne apart] using same
    | error error => simpa [Surroundings.handler, replacing] using same
  | _ => exact same

/-- A value that can be written replaces its file. -/
theorem run_writeJsonAtomic {name : Str} {value : Value Φ} (files : Files)
    (directory : env.directory name = .ok ()) (fits : value.fits = true)
    (replacing : env.replacing name = .ok ()) :
    run env.handler (writeJsonAtomic name value) files =
      (.ok (), Function.update files name (some (utf8 (fileText value)))) := by
  rw [writeJsonAtomic, run_bind, run_ask, Surroundings.handler, directory]
  change run env.handler (if value.fits = true then _ else _) files = _
  rw [if_pos fits, run_ask, Surroundings.handler, replacing]

/-- A value that cannot be written changes nothing. -/
theorem run_writeJsonAtomic_raises {name : Str} {value : Value Φ} (files : Files)
    (fails : ¬ (env.directory name = .ok () ∧ value.fits = true ∧ env.replacing name = .ok ())) :
    ∃ failure, run env.handler (writeJsonAtomic name value) files = (.error failure, files) := by
  rw [writeJsonAtomic, run_bind, run_ask, Surroundings.handler]
  cases directory : env.directory name with
  | error error => exact ⟨_, rfl⟩
  | ok done =>
    change ∃ failure, run env.handler (if value.fits = true then _ else _) files = _
    by_cases fits : value.fits = true
    · rw [if_pos fits, run_ask, Surroundings.handler]
      cases replacing : env.replacing name with
      | error error => exact ⟨_, rfl⟩
      | ok done => exact absurd ⟨directory, fits, replacing⟩ fails
    · rw [if_neg fits]
      exact ⟨_, rfl⟩

/-- What follows the checkpoint returns it when nothing fails. -/
theorem run_record {accepted : Accepted Φ} (completes : Completes env accepted) (files : Files) :
    ∃ result after, run env.handler (record call accepted) files = (.ok result, after) ∧
      result.checkpoint = accepted.checkpoint := by
  obtain ⟨consistencyDirectory, consistency, ⟨changed, source, one, two, fits⟩,
    transportDirectory, transport⟩ := completes
  have first : run env.handler (writeConsistency Φ accepted.consistency) files = (.ok (),
      Function.update files consistencyFile
        (some (utf8 (fileText (accepted.consistency.as_dict : Value Φ))))) := by
    rw [writeConsistency, run_bind, run_ask, Surroundings.handler, consistencyDirectory]
    change run env.handler (ask _) files = _
    rw [run_ask, Surroundings.handler, consistency]
  rw [record, run_bind, first]
  dsimp only
  rw [one, two, run_bind, run_converted_ok]
  dsimp only
  rw [run_bind, run_converted_ok]
  dsimp only
  rw [run_bind, run_writeJsonAtomic _ transportDirectory fits transport]
  exact ⟨_, _, rfl, rfl⟩

theorem converted_ok {α : Type} {given : Except Exn α} {value : α} {files after : Files}
    (ran : run env.handler (converted given) files = (.ok value, after)) : given = .ok value := by
  cases given with
  | ok other =>
    cases ran
    rfl
  | error error => cases ran

/-- What can be written has been written. -/
theorem writeJsonAtomic_ok {name : Str} {value : Value Φ} {files after : Files}
    (ran : run env.handler (writeJsonAtomic name value) files = (.ok (), after)) :
    env.directory name = .ok () ∧ value.fits = true ∧ env.replacing name = .ok () := by
  by_contra fails
  obtain ⟨failure, raised⟩ := run_writeJsonAtomic_raises files fails
  cases ran.symm.trans raised

theorem writeConsistency_ok {consistency : ApplicationConsistency} {files after : Files}
    (ran : run env.handler (writeConsistency Φ consistency) files = (.ok (), after)) :
    env.directory consistencyFile = .ok () ∧ env.replacing consistencyFile = .ok () := by
  rw [writeConsistency, run_bind, run_ask, Surroundings.handler] at ran
  cases directory : env.directory consistencyFile with
  | error error =>
    rw [directory] at ran
    cases ran
  | ok done =>
    rw [directory] at ran
    change run env.handler (ask _) files = _ at ran
    rw [run_ask, Surroundings.handler] at ran
    cases replacing : env.replacing consistencyFile with
    | error error =>
      rw [replacing] at ran
      cases ran
    | ok done => exact ⟨rfl, rfl⟩

/-- When what follows the checkpoint returns, nothing has failed. -/
theorem completes_of_record {accepted : Accepted Φ} {files after : Files}
    {result : IncrementalResult Φ}
    (ran : run env.handler (record call accepted) files = (.ok result, after)) :
    Completes env accepted := by
  obtain ⟨_, _, first, ran⟩ := (run_bind_eq_ok _).mp ran
  obtain ⟨changed, _, one, ran⟩ := (run_bind_eq_ok _).mp ran
  obtain ⟨source, _, two, ran⟩ := (run_bind_eq_ok _).mp ran
  obtain ⟨_, _, last, _⟩ := (run_bind_eq_ok _).mp ran
  obtain ⟨consistencyDirectory, consistency⟩ := writeConsistency_ok first
  obtain ⟨transportDirectory, fits, transport⟩ := writeJsonAtomic_ok last
  exact ⟨consistencyDirectory, consistency, ⟨changed, source, converted_ok one, converted_ok two,
    fits⟩, transportDirectory, transport⟩

variable {provider lower call}

theorem atomic_of_raised {files after : Files} {failure : Failure}
    (ran : run env.handler (backup provider lower call) files = (.error failure, after))
    (same : after checkpointFile = files checkpointFile) :
    Atomic env provider lower call files where
  raises _ _ other := by
    cases ran.symm.trans other
    exact same
  returns _ _ other := by cases ran.symm.trans other

theorem atomic_of_returned {files after : Files} {result : IncrementalResult Φ}
    (ran : run env.handler (backup provider lower call) files = (.ok result, after))
    (same : after checkpointFile = some (checkpointBytes result.checkpoint)) :
    Atomic env provider lower call files where
  raises _ _ other := by cases ran.symm.trans other
  returns _ _ other := by
    cases ran.symm.trans other
    exact same

variable (provider lower call)

/-- A backup leaves the checkpoint as it was or puts its own there exactly when nothing
fails behind the checkpoint, unless the checkpoint was there before. -/
theorem checkpoint_atomic (keeps : env.KeepsCheckpoint) (files : Files) :
    Atomic env provider lower call files ↔
      ∀ accepted middle,
        run env.handler (examine provider lower call) files = (.ok accepted, middle) →
        Advances env accepted.checkpoint →
          Completes env accepted ∨
            files checkpointFile = some (checkpointBytes accepted.checkpoint) := by
  have spared := checkpoint_spared keeps (spares_examine provider lower call) files
  rcases examined : run env.handler (examine provider lower call) files with
    ⟨error | accepted, middle⟩
  · have whole : run env.handler (backup provider lower call) files = (.error error, middle) := by
      rw [backup, run_bind, examined]
    rw [examined] at spared
    exact iff_of_true (atomic_of_raised whole spared) fun _ _ impossible => by cases impossible
  rw [examined] at spared
  have onward : run env.handler (backup provider lower call) files =
      run env.handler (do
        writeJsonAtomic checkpointFile (.dict accepted.checkpoint)
        record call accepted) middle := by
    rw [backup, run_bind, examined]
  by_cases advances : Advances env accepted.checkpoint
  · rw [run_bind, run_writeJsonAtomic middle advances.directory advances.fits advances.replacing,
      ← checkpointBytes] at onward
    have kept := checkpoint_spared keeps (spares_record call accepted)
      (Function.update middle checkpointFile (some (checkpointBytes accepted.checkpoint)))
    rw [Function.update_self] at kept
    by_cases completes : Completes env accepted
    · obtain ⟨result, after, ran, same⟩ := run_record call completes
        (Function.update middle checkpointFile (some (checkpointBytes accepted.checkpoint)))
      rw [ran] at kept
      refine iff_of_true (atomic_of_returned (onward.trans ran) (same ▸ kept))
        fun other _ given _ => ?_
      cases given
      exact Or.inl completes
    · rcases ended : run env.handler (record call accepted) (Function.update middle checkpointFile
        (some (checkpointBytes accepted.checkpoint))) with ⟨failure | result, after⟩
      · rw [ended] at kept
        constructor
        · intro atomic other _ given _
          cases given
          exact Or.inr ((atomic.raises failure after (onward.trans ended)).symm.trans kept)
        · intro all
          rcases all accepted middle rfl advances with impossible | same
          · exact absurd impossible completes
          · exact atomic_of_raised (onward.trans ended) (kept.trans same.symm)
      · exact absurd (completes_of_record call ended) completes
  · have fails : ¬ (env.directory checkpointFile = .ok () ∧
        (Value.dict accepted.checkpoint).fits = true ∧ env.replacing checkpointFile = .ok ()) :=
      fun ⟨directory, fits, replacing⟩ => advances ⟨directory, fits, replacing⟩
    obtain ⟨failure, ran⟩ := run_writeJsonAtomic_raises middle fails
    rw [run_bind, ran] at onward
    refine iff_of_true (atomic_of_raised onward spared) fun other _ given advanced => ?_
    cases given
    exact absurd advanced advances

end Atomicity

section Samples

/-- What a helper with all features prints. -/
def capable : String :=
  "\x7b\"protocol_version\": 1, \"features\": [\"cbt\", \"backup\", \"restore\"]\x7d"

/-- A successful reply whose number of changed bytes is the given text. -/
def successful (changed : String) : String :=
  "\x7b\"status\": \"success\", \"checkpoint\": \x7b\"disk-2000\": \"52/17\"\x7d, " ++
    "\"changed_bytes\": " ++ changed ++ "\x7d"

/-- A host on which everything can be written, with a helper that replies. -/
def host (reply : String) : Surroundings where
  executable _ := false
  which name := some name
  answers argv _ files :=
    (.ok ⟨0, if argv.contains (str "backup") then reply else capable, "", .ok (.arr []), []⟩, files)
  directory _ := .ok ()
  reading _ := .ok ()
  replacing _ := .ok ()

/-- A destination with a layout and without a checkpoint. -/
def laidOut (name : Str) : Option (List UInt8) := if name = layoutFile then some [] else none

def sampleProvider : Provider Constant := ⟨[], 60, []⟩

def sampleCall : BackupCall :=
  ⟨str "vc-main", str "https://vc/sdk", str "vm-1", str "sql01", ⟨.single, []⟩, true⟩

theorem host_keeps (reply : String) : (host reply).KeepsCheckpoint := fun _ _ _ => rfl

/-- A reply with a number is recorded to the end. -/
theorem checkpoint_atomic_number :
    Atomic (host (successful "42")) sampleProvider id sampleCall laidOut := by
  refine (checkpoint_atomic sampleProvider id sampleCall (host_keeps _) laidOut).mpr ?_
  intro accepted middle ran _
  have numbers : (match (run (host (successful "42")).handler
      (examine sampleProvider id sampleCall) laidOut).1 with
    | .ok accepted => decide (numberOf accepted "changed_bytes" = .ok 42 ∧
        numberOf accepted "source_bytes_read" = .ok 0 ∧ (transportOf accepted 42 0).fits = true)
    | .error _ => false) = true := by decide +kernel
  rw [ran] at numbers
  obtain ⟨changed, source, fits⟩ := of_decide_eq_true numbers
  exact Or.inl ⟨rfl, rfl, ⟨42, 0, changed, source, fits⟩, rfl, rfl⟩

/-- A reply whose number of changed bytes is no number raises behind the checkpoint. -/
theorem checkpoint_advanced :
    ¬ Atomic (host (successful "\"many\"")) sampleProvider id sampleCall laidOut := by
  have raised : (match run (host (successful "\"many\"")).handler
      (backup sampleProvider id sampleCall) laidOut with
    | (.error _, after) => decide (after checkpointFile ≠ laidOut checkpointFile)
    | (.ok _, _) => false) = true := by decide +kernel
  intro atomic
  split at raised
  · rename_i failure after ran
    exact of_decide_eq_true raised (atomic.raises failure after ran)
  · cases raised

end Samples

end Immutavault.VddkProvider
