import Immutavault.Histories

/-!
# Runs in which transactions fail

The catalogue of a controller may refuse a transaction: it is locked, the disk is
full, a value cannot be stored. A transaction that fails changes nothing, and its
error is raised where the transaction was asked for.

What is known of runs whose transactions all commit is established again for these
runs: what they leave in the history, which tables they leave alone, and what
becomes of a program that first marks a row and then goes on.
-/

namespace Immutavault.FaultyRuns

open Programs Values Timestamps Catalog Machine Histories

section Faults

/-- Which transactions fail, and with what. -/
abbrev Faults := World → Transaction → Option Exn

/-- A world in which transactions may fail; one that fails changes nothing. -/
def faulting (env : Environment) (faults : Faults) : Handler controller Exn World :=
  fun command world =>
    match command with
    | .transact transaction =>
      match faults world transaction with
      | none => env.handler (.transact transaction) world
      | some error => (.error error, {
          db := world.db
          clock := world.clock + env.elapsed world.log (.transact transaction)
          log := world.log ++ [⟨.transact transaction, .error error⟩] })
    | command => env.handler command world

/-- No transaction fails. -/
def never : Faults := fun _ _ => none

variable {α β : Type} {env : Environment} {faults : Faults}

theorem log_faulting (command : Command) (world : World) :
    (faulting env faults command world).2.log =
      world.log ++ [⟨command, (faulting env faults command world).1⟩] := by
  cases command with
  | transact transaction =>
    simp only [faulting]
    split <;> rfl
  | utcnow => rfl
  | rmtree path => rfl
  | request external => rfl

/-- A command commits what it writes, or nothing. -/
theorem db_faulting (command : Command) (world : World) :
    (faulting env faults command world).2.db = Environment.commit world.db command ∨
      (faulting env faults command world).2.db = world.db := by
  cases command with
  | transact transaction =>
    simp only [faulting]
    split
    · exact Or.inl rfl
    · exact Or.inr rfl
  | utcnow => exact Or.inl rfl
  | rmtree path => exact Or.inl rfl
  | request external => exact Or.inl rfl

/-- A transaction answers from the catalogue and commits, or fails and does neither. -/
theorem run_transact {transaction : Transaction} {world after : World}
    {outcome : Except Exn transaction.Answer}
    (ran : run (faulting env faults) (transact transaction) world = (outcome, after)) :
    (outcome = .ok (transaction.read world.db) ∧ after.db = transaction.write world.db) ∨
      ((∃ error, outcome = .error error) ∧ after.db = world.db) := by
  have exchanged : faulting env faults (.transact transaction) world = (outcome, after) :=
    (run_perform (faulting env faults) (Command.transact transaction) world).symm.trans ran
  simp only [faulting] at exchanged
  split at exchanged
  · cases exchanged
    exact Or.inl ⟨rfl, rfl⟩
  · cases exchanged
    exact Or.inr ⟨⟨_, rfl⟩, rfl⟩

/-- A run leaves every table alone that its program does not write. -/
theorem same_faulting {effects : List Effect} {table : Table} {program : Prog α}
    {outcome : Except Exn α} {world after : World} (footprint : Footprint effects program)
    (unwritten : .writing table ∉ effects)
    (ran : run (faulting env faults) program world = (outcome, after)) :
    table.Same world.db after.db := by
  have kept : wp ((faulting env faults).monitor fun _ _ => True) program
      (fun _ (final : World) => table.Same world.db final.db) world := by
    refine wp_footprint (fun current : World => table.Same world.db current.db) footprint
      (by cases table <;> rfl) ?_
    intro current command same listed
    refine ⟨trivial, fun answer _ => same_trans same ?_⟩
    have other : Command.effect command ≠ .writing table := fun written =>
      unwritten (written ▸ listed)
    rcases @db_faulting env faults command current with committed | nothing
    · change table.Same current.db (faulting env faults command current).2.db
      exact committed ▸ commit_same current.db other
    · change table.Same current.db (faulting env faults command current).2.db
      rw [nothing]
      cases table <;> rfl
  have same := wp_run kept
  rwa [ran] at same

/-- A run exchanges only commands that its program issues. -/
theorem only_faulting {property : controller.Command → Prop} {program : Prog α}
    {outcome : Except Exn α} {world after : World} (issues : Issues property program)
    (ran : run (faulting env faults) program world = (outcome, after)) :
    Only (fun exchange => property exchange.1) world after := by
  induction program generalizing world with
  | ret value =>
    cases ran
    exact Only.refl _ _
  | raise error =>
    cases ran
    exact Only.refl _ _
  | call command resume inductionHypothesis =>
    have first : Only (fun exchange => property exchange.1) world
        (faulting env faults command world).2 := by
      refine ⟨_, log_faulting command world, ?_⟩
      intro exchange member
      rw [List.mem_singleton.mp member]
      exact issues.1
    exact first.trans (inductionHypothesis _ (issues.2 _) ran)

/-- What happened stays recorded. -/
theorem since_faulting {program : Prog α} {outcome : Except Exn α} {start world after : World}
    {listed : History} (since : Since start listed world)
    (ran : run (faulting env faults) program world = (outcome, after)) :
    Since start listed after := by
  obtain ⟨later, split, _⟩ := only_faulting (issues_all program fun _ => trivial) ran
  exact since.grown ⟨later, split.symm⟩

/-- One more command takes place, with the answer it gets. -/
theorem log_perform {command : Command} {world after : World}
    {answer : Except Exn command.Answer}
    (ran : run (faulting env faults) (@Program.perform controller Exn command) world =
      (answer, after)) : after.log = world.log ++ [⟨command, answer⟩] := by
  have exchanged : faulting env faults command world = (answer, after) :=
    (run_perform (faulting env faults) command world).symm.trans ran
  have logged := @log_faulting env faults command world
  rwa [exchanged] at logged

theorem since_perform {command : Command} {start world after : World} {listed : History}
    {answer : Except Exn command.Answer} (since : Since start listed world)
    (ran : run (faulting env faults) (@Program.perform controller Exn command) world =
      (answer, after)) : Since start (listed ++ [⟨command, answer⟩]) after := by
  obtain ⟨later, split, inside⟩ := since
  refine ⟨later ++ [⟨command, answer⟩], ?_, inside.append_right _⟩
  rw [log_perform ran, split, List.append_assoc]

/-- A single command that is answered leaves one exchange. -/
theorem only_perform {property : Exchange controller Exn → Prop} {command : Command}
    {world after : World} {answer : Except Exn command.Answer} (holds : property ⟨command, answer⟩)
    (ran : run (faulting env faults) (@Program.perform controller Exn command) world =
      (answer, after)) : Only property world after := by
  refine ⟨_, log_perform ran, ?_⟩
  intro exchange member
  exact (List.mem_singleton.mp member) ▸ holds

/-- A run keeps whatever every transaction keeps. -/
theorem kept_faulting {property : Database → Prop} {program : Prog α}
    {outcome : Except Exn α} {world after : World}
    (step : ∀ (db : Database) (transaction : Transaction), property db →
      property (transaction.write db))
    (holds : property world.db)
    (ran : run (faulting env faults) program world = (outcome, after)) : property after.db := by
  induction program generalizing world with
  | ret value =>
    cases ran
    exact holds
  | raise error =>
    cases ran
    exact holds
  | call command resume inductionHypothesis =>
    refine inductionHypothesis _ ?_ ran
    rcases @db_faulting env faults command world with committed | nothing
    · rw [committed]
      cases command with
      | transact transaction => exact step world.db transaction holds
      | utcnow => exact holds
      | rmtree path => exact holds
      | request external => exact holds
    · exact nothing ▸ holds

/-- A point that is catalogued stays catalogued. -/
theorem point_stays {snapshot_id : String} (db : Database) (transaction : Transaction)
    (present : (db.points.lookup snapshot_id).isSome) :
    ((transaction.write db).points.lookup snapshot_id).isSome := by
  have modified : ∀ (points : Tables.Keyed String PointRow) (key : String)
      (change : PointRow → PointRow), (points.lookup snapshot_id).isSome →
      ((points.modify key change).lookup snapshot_id).isSome := by
    intro points key change there
    rw [Tables.Keyed.lookup_modify]
    split
    · rename_i same
      rwa [Option.isSome_map, ← same]
    · exact there
  cases transaction with
  | replacePoint key row =>
    change ((db.points.replace key row).lookup snapshot_id).isSome
    rw [Tables.Keyed.lookup_replace]
    split
    · rfl
    · exact present
  | updateImmutableUntil key moment => exact modified _ _ _ present
  | updateVerified key verified moment metadata => exact modified _ _ _ present
  | markPointsExpired keys moment =>
    change ((keys.foldl _ db.points).lookup snapshot_id).isSome
    generalize db.points = points at present
    induction keys generalizing points with
    | nil => exact present
    | cons key rest inductionHypothesis => exact inductionHypothesis _ (modified _ _ _ present)
  | _ => exact present

theorem copy_stays {key : String × String} (db : Database) (transaction : Transaction)
    (present : (db.copies.lookup key).isSome) :
    ((transaction.write db).copies.lookup key).isSome := by
  cases transaction with
  | upsertCopy snapshot_id target_name row =>
    change ((db.copies.store (snapshot_id, target_name) row).lookup key).isSome
    rw [Tables.Keyed.lookup_store]
    split
    · rfl
    · exact present
  | _ => exact present

/-- A command whose exit is not looked at returns what it is answered. -/
theorem run_unchecked (shell : Shell) (settings : List (String × String))
    (input_text : Option String) (world : World) :
    run (faulting env faults) (runCommand shell settings input_text false) world =
      (env.answer world.log (.run shell settings input_text),
        (env.handler (.request (.run shell settings input_text)) world).2) := by
  have asked : run (faulting env faults) (request (.run shell settings input_text)) world =
      (env.answer world.log (.run shell settings input_text),
        (env.handler (.request (.run shell settings input_text)) world).2) :=
    run_perform (faulting env faults) (Command.request (.run shell settings input_text)) world
  rw [runCommand, run_bind, asked]
  cases env.answer world.log (.run shell settings input_text) <;> rfl

/-- A checked command asks once, and returns only what exited with zero. -/
theorem run_checked (shell : Shell) (settings : List (String × String))
    (input_text : Option String) (world : World) :
    ∃ outcome, run (faulting env faults) (runCommand shell settings input_text true) world =
        (outcome, (env.handler (.request (.run shell settings input_text)) world).2) ∧
      ∀ result, outcome = .ok result →
        env.answer world.log (.run shell settings input_text) = .ok result ∧
          result.returncode = 0 := by
  have asked : run (faulting env faults) (request (.run shell settings input_text)) world =
      (env.answer world.log (.run shell settings input_text),
        (env.handler (.request (.run shell settings input_text)) world).2) :=
    run_perform (faulting env faults) (Command.request (.run shell settings input_text)) world
  rw [runCommand, run_bind, asked]
  cases env.answer world.log (.run shell settings input_text) with
  | error error => exact ⟨_, rfl, fun _ impossible => by cases impossible⟩
  | ok result =>
    dsimp only
    split
    · exact ⟨_, rfl, fun _ impossible => by cases impossible⟩
    · rename_i clean
      refine ⟨_, rfl, fun other same => ?_⟩
      obtain rfl := Except.ok.inj same
      exact ⟨rfl, by simpa using clean⟩

/-- A program whose first command marks a row: either the mark is set and stays, or it is
not, and the program raises. -/
theorem run_marked {mark : Prog Unit} {next : Prog α} {unmarked marked : World → Prop}
    {world after : World} {outcome : Except Exn α}
    (marks : ∀ answer middle, run (faulting env faults) mark world = (answer, middle) →
      (answer = .ok () ∧ marked middle) ∨ ((∃ error, answer = .error error) ∧ unmarked middle))
    (stays : ∀ middle, run (faulting env faults) next middle = (outcome, after) →
      marked middle → marked after)
    (ran : run (faulting env faults) (mark >>= fun _ => next) world = (outcome, after)) :
    ((run (faulting env faults) mark world).1 = .ok () ∧ marked after) ∨
      ((run (faulting env faults) mark world).1 ≠ .ok () ∧ (∃ error, outcome = .error error) ∧
        unmarked after) := by
  rw [run_bind] at ran
  cases answered : run (faulting env faults) mark world with
  | mk answer middle =>
    rw [answered] at ran
    rcases marks answer middle answered with ⟨rfl, set⟩ | ⟨⟨error, rfl⟩, unset⟩
    · exact Or.inl ⟨rfl, stays middle ran set⟩
    · cases ran
      exact Or.inr ⟨by simp, ⟨error, rfl⟩, unset⟩

/-- After this world the rest raises nothing, or success was recorded and the failure was not. -/
def Settled (handler : Handler controller Exn World) (rest : Prog Dict) (succeed : Prog Unit)
    (overwrite : Exn → Prog Unit) (world : World) : Prop :=
  ∀ error after, run handler rest world = (.error error, after) →
    (run handler succeed world).1 = .ok () ∧ (run handler (overwrite error) after).1 ≠ .ok ()

/-- When the rest raises, settling is what it says for that one error. -/
theorem settled_raised {handler : Handler controller Exn World} {rest : Prog Dict}
    {succeed : Prog Unit} {overwrite : Exn → Prog Unit} {world after : World} {error : Exn}
    (raised : run handler rest world = (.error error, after)) :
    Settled handler rest succeed overwrite world ↔
      (run handler succeed world).1 = .ok () ∧
        (run handler (overwrite error) after).1 ≠ .ok () := by
  constructor
  · exact fun holds => holds error after raised
  · intro holds other final again
    cases raised.symm.trans again
    exact holds

theorem settled_returned {handler : Handler controller Exn World} {rest : Prog Dict}
    {succeed : Prog Unit} {overwrite : Exn → Prog Unit} {world after : World} {result : Dict}
    (returned : run handler rest world = (.ok result, after)) :
    Settled handler rest succeed overwrite world := by
  intro error final raised
  cases returned.symm.trans raised

end Faults

end Immutavault.FaultyRuns
