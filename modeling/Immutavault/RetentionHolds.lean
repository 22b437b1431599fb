import Mathlib.Data.List.Dedup
import Immutavault.Backups

/-!
# Retention and concurrent holds

Retention reads the protected points once and uses that set across a preview and
a forget. A hold that commits in between protects its point in the catalogue
while the running retention does not know it.

What retention knows at its forget is followed through the history: the set it
read, the snapshots its preview listed, and the holds that committed since the
read. A point that is protected at the forget was in the set or was extended
since, whatever the order of commands, so retention spares every protected point
as long as no hold since the read still protects a listed point that the set
does not contain.
-/

namespace Immutavault.RetentionHolds

open Programs Interleavings Values Timestamps Catalog Machine StateDatabase ResticRepository
open RestoreEngine Backups

/-- The set that retention read, what its preview listed, and the holds since the read. -/
structure Window where
  selected : List String := []
  listed : List String := []
  late : List (String × Timestamp) := []

/-- The snapshots that a preview lists for removal. -/
def previewed (result : CommandResult) : List String :=
  match result.json with
  | .error _ => []
  | .ok groups =>
    match previewIds groups with
    | .error _ => []
    | .ok ids => ids

/-- What one exchange adds to the window. -/
def Window.observe (window : Window) : Exchange controller Exn → Window
  | ⟨.transact (.protectedSnapshotIds _), .ok ids⟩ => { selected := ids }
  | ⟨.request (.run (.restic (.forgetPreview _)) _ _), .ok result⟩ =>
    { window with listed := previewed result }
  | ⟨.transact (.updateImmutableUntil snapshot_id immutable_until), _⟩ =>
    { window with late := window.late ++ [(snapshot_id, immutable_until)] }
  | _ => window

section Windows

variable {ι : Type}

/-- The window after a history. -/
def window (history : List (ι × Exchange controller Exn)) : Window :=
  history.foldl (fun window entry => window.observe entry.2) {}

theorem window_concat (history : List (ι × Exchange controller Exn)) (thread : ι)
    (exchange : Exchange controller Exn) :
    window (history ++ [(thread, exchange)]) = (window history).observe exchange := by
  simp [window]

end Windows

/-- A point that is not expired. -/
def Live (world : World) (snapshot_id : String) : Prop :=
  ∃ row, world.db.points.lookup snapshot_id = some row ∧ row.expired = false

/-- A point that is not expired and whose recorded immutability lies in the future. -/
def Held (world : World) (snapshot_id : String) : Prop :=
  ∃ row, world.db.points.lookup snapshot_id = some row ∧ row.expired = false ∧
    world.clock < row.immutable_until

/-- Every held point was read as protected or extended since. -/
def Covered (world : World) (window : Window) : Prop :=
  ∀ snapshot_id row, world.db.points.lookup snapshot_id = some row → row.expired = false →
    world.clock < row.immutable_until →
    snapshot_id ∈ window.selected ∨ (snapshot_id, row.immutable_until) ∈ window.late

/-- How far a call has come: a hold stays where it is, retention goes through its stages. -/
inductive Stage where
  | holding
  | idle
  | dated (now : Timestamp)
  | selected (ids : List String)
  | listed (ids candidates : List String)
  | forgetting (ids : List String)

/-- Commands that concern neither retention nor the immutability of points. -/
def Ordinary : Command → Prop
  | .utcnow | .transact (.updateImmutableUntil ..) | .transact (.protectedSnapshotIds _)
  | .transact (.markPointsExpired ..) | .request (.run (.restic (.forgetPreview _)) _ _)
  | .request (.run (.restic (.forget _)) _ _) => False
  | command => command.effect ≠ .writing .points

/-- The discipline of one retention run, and of holds beside it. -/
def pruning : Monitor controller Exn Stage where
  permits := fun stage command =>
    match command with
    | .utcnow => True
    | .transact (.updateImmutableUntil ..) => stage = .holding
    | .transact (.protectedSnapshotIds now) => stage = .dated now
    | .request (.run (.restic (.forgetPreview _)) _ _) => ∃ ids, stage = .selected ids
    | .request (.run (.restic (.forget ids)) _ _) => ∃ selected candidates,
        stage = .listed selected candidates ∧ ∀ id ∈ ids, id ∈ candidates ∧ id ∉ selected
    | .transact (.markPointsExpired ids _) => stage = .forgetting ids
    | command => Ordinary command
  possible := fun _ command answer => Command.Served command answer
  next := fun stage command answer =>
    match command, answer with
    | .utcnow, .ok now =>
      match stage with
      | .idle => .dated now
      | _ => stage
    | .transact (.protectedSnapshotIds _), .ok ids => .selected ids
    | .request (.run (.restic (.forgetPreview _)) _ _), .ok result =>
      match stage with
      | .selected ids => .listed ids (previewed result)
      | _ => stage
    | .request (.run (.restic (.forget ids)) _ _), _ => .forgetting ids
    | _, _ => stage

section Ordinary

variable {command : Command}

/-- An ordinary command is permitted at every stage. -/
theorem permits_ordinary (ordinary : Ordinary command) (stage : Stage) :
    pruning.permits stage command := by
  simp only [pruning]
  split <;> first | exact ordinary.elim | exact ordinary

/-- An ordinary command keeps the stage. -/
theorem next_ordinary (ordinary : Ordinary command) (stage : Stage)
    (answer : Except Exn command.Answer) : pruning.next stage command answer = stage := by
  simp only [pruning]
  split <;> first | exact ordinary.elim | rfl

/-- An ordinary command is not observed. -/
theorem observe_ordinary (ordinary : Ordinary command) (window : Window)
    (answer : Except Exn command.Answer) : window.observe ⟨command, answer⟩ = window := by
  unfold Window.observe
  split <;> first | rfl | (rename_i same; cases same; exact ordinary.elim)

/-- An ordinary command leaves the points alone. -/
theorem points_ordinary (ordinary : Ordinary command) (db : Database) :
    (Environment.commit db command).points = db.points := by
  have other : command.effect ≠ .writing .points := by
    unfold Ordinary at ordinary
    split at ordinary <;> first | exact ordinary | exact ordinary.elim
  exact commit_same db other

/-- A permitted command is ordinary, reads the clock, or is one of the five that
retention and holds are about. -/
theorem permitted_cases {stage : Stage} (permitted : pruning.permits stage command) :
    Ordinary command ∨ command = .utcnow ∨
    (∃ snapshot_id immutable_until, stage = .holding ∧
      command = .transact (.updateImmutableUntil snapshot_id immutable_until)) ∨
    (∃ now, stage = .dated now ∧ command = .transact (.protectedSnapshotIds now)) ∨
    (∃ ids policy env input_text, stage = .selected ids ∧
      command = .request (.run (.restic (.forgetPreview policy)) env input_text)) ∨
    (∃ ids selected candidates env input_text, stage = .listed selected candidates ∧
      (∀ id ∈ ids, id ∈ candidates ∧ id ∉ selected) ∧
      command = .request (.run (.restic (.forget ids)) env input_text)) ∨
    (∃ ids expired_at, stage = .forgetting ids ∧
      command = .transact (.markPointsExpired ids expired_at)) := by
  simp only [pruning] at permitted
  split at permitted
  · exact Or.inr (Or.inl rfl)
  · exact Or.inr (Or.inr (Or.inl ⟨_, _, permitted, rfl⟩))
  · exact Or.inr (Or.inr (Or.inr (Or.inl ⟨_, permitted, rfl⟩)))
  · obtain ⟨ids, staged⟩ := permitted
    exact Or.inr (Or.inr (Or.inr (Or.inr (Or.inl ⟨ids, _, _, _, staged, rfl⟩))))
  · obtain ⟨selected, candidates, staged, chosen⟩ := permitted
    exact Or.inr (Or.inr (Or.inr (Or.inr (Or.inr (Or.inl
      ⟨_, selected, candidates, _, _, staged, chosen, rfl⟩)))))
  · exact Or.inr (Or.inr (Or.inr (Or.inr (Or.inr (Or.inr ⟨_, _, permitted, rfl⟩)))))
  · exact Or.inl permitted

/-- A hold stays a hold over every command that it is permitted. -/
theorem next_holding (permitted : pruning.permits .holding command)
    (answer : Except Exn command.Answer) : pruning.next .holding command answer = .holding := by
  rcases permitted_cases permitted with ordinary | rfl | ⟨_, _, _, rfl⟩ |
    ⟨_, impossible, _⟩ | ⟨_, _, _, _, impossible, _⟩ | ⟨_, _, _, _, _, impossible, _⟩ |
    ⟨_, _, impossible, _⟩
  · exact next_ordinary ordinary _ answer
  · cases answer <;> rfl
  · cases answer <;> rfl
  all_goals cases impossible

end Ordinary

section Calls

variable {α : Type}

/-- Commands that a segment may issue beside the ones that are spoken about. -/
def Incidental (command : Command) : Prop := Ordinary command ∨ command = .utcnow

/-- Auditing is incidental. -/
theorem incidental_audit (actor action object_type object_id : String) (details : Dict) :
    Issues (fun command : controller.Command => Incidental command)
      (audit actor action object_type object_id details) := by
  refine issues_bind ((issues_perform _).mpr (Or.inr rfl)) fun created_at => ?_
  refine issues_bind ((issues_perform _).mpr (Or.inl (by simp [Ordinary, Command.effect, writes])))
    fun tail => ?_
  exact (issues_perform _).mpr (Or.inl (by simp [Ordinary, Command.effect, writes]))

/-- Incidental commands are permitted wherever they are issued. -/
theorem wp_incidental {program : Prog α} {stage : Stage}
    (incidental : Issues (fun command : controller.Command => Incidental command) program) :
    wp pruning program (fun _ _ => True) stage := by
  refine wp_of_issues (fun _ => True) incidental trivial ?_
  rintro stage command _ (ordinary | rfl)
  · exact ⟨permits_ordinary ordinary stage, fun _ _ => trivial⟩
  · exact ⟨trivial, fun _ _ => trivial⟩

/-- What a hold issues: incidental commands and updates of immutability. -/
def Extending (command : Command) : Prop :=
  Incidental command ∨ ∃ snapshot_id immutable_until,
    command = .transact (.updateImmutableUntil snapshot_id immutable_until)

theorem extending_perform {command : Command} (ordinary : Ordinary command) :
    Issues (fun command : controller.Command => Extending command)
      (@Program.perform controller Exn command) :=
  (issues_perform _).mpr (Or.inl (Or.inl ordinary))

theorem extending_audit (actor action object_type object_id : String) (details : Dict) :
    Issues (fun command : controller.Command => Extending command)
      (audit actor action object_type object_id details) :=
  issues_mono (incidental_audit _ _ _ _ _) fun _ => Or.inl

theorem extending_extendReplicaLocks (snapshot_id actor : String) (days : Nat) (saved : Timestamp)
    (replicas : List Configuration.ReplicaConfig) :
    Issues (fun command : controller.Command => Extending command)
      (extendReplicaLocks snapshot_id actor days saved replicas) := by
  induction replicas with
  | nil => exact issues_pure _
  | cons replica rest inductionHypothesis =>
    unfold extendReplicaLocks
    dsimp only
    split
    · refine issues_bind (extending_perform (by simp [Ordinary, Command.effect, writes]))
        fun copy => ?_
      split
      · refine issues_bind (issues_tryCatch ?_ fun error => extending_audit _ _ _ _ _)
          fun _ => inductionHypothesis
        refine issues_bind ?_ fun lock => extending_audit _ _ _ _ _
        unfold lockRequest
        split <;> exact extending_perform (by simp [Ordinary, Command.effect])
      · exact inductionHypothesis
    · exact inductionHypothesis

/-- A hold updates immutability and otherwise issues incidental commands. -/
theorem extending_holdRecoveryPoint (engine : Engine) (snapshot_id actor : String) (days : Int)
    (reason : String) :
    Issues (fun command : controller.Command => Extending command)
      (holdRecoveryPoint engine snapshot_id actor days reason) := by
  unfold holdRecoveryPoint
  split
  · exact issues_throw _
  · refine issues_bind (extending_perform (by simp [Ordinary, Command.effect, writes]))
      fun point => ?_
    split
    · exact issues_throw _
    · refine issues_bind ((issues_perform _).mpr (Or.inl (Or.inr rfl))) fun now => ?_
      refine issues_bind ?_ fun saved => issues_bind (extending_extendReplicaLocks _ _ _ _ _)
        fun _ => issues_pure _
      refine issues_bind (extending_perform (by simp [Ordinary, Command.effect, writes]))
        fun row => ?_
      split
      · exact issues_throw _
      · refine issues_bind ((issues_perform _).mpr (Or.inr ⟨_, _, rfl⟩)) fun _ => ?_
        exact issues_bind (extending_audit _ _ _ _ _) fun _ => issues_pure _

/-- A hold stays a hold. -/
theorem wp_holdRecoveryPoint (engine : Engine) (snapshot_id actor : String) (days : Int)
    (reason : String) :
    wp pruning (holdRecoveryPoint engine snapshot_id actor days reason) (fun _ _ => True)
      .holding := by
  refine wp_mono (wp_of_issues (· = Stage.holding)
    (extending_holdRecoveryPoint engine snapshot_id actor days reason) rfl ?_) fun _ _ _ => trivial
  rintro stage command rfl ((ordinary | rfl) | ⟨snapshot_id, immutable_until, rfl⟩)
  · exact ⟨permits_ordinary ordinary _, fun answer _ => next_ordinary ordinary _ answer⟩
  · refine ⟨trivial, fun answer _ => ?_⟩
    cases answer <;> rfl
  · refine ⟨rfl, fun answer _ => ?_⟩
    cases answer <;> rfl

/-- What the repository removes was listed by its preview and not selected, and is
what the forget named. -/
theorem wp_repositoryRetention (cfg : Configuration.RepositoryConfig) (getenv : Environ)
    (protectedIds : List String) :
    wp pruning (ResticRepository.retention cfg getenv protectedIds)
      (fun outcome stage => ∀ removed, outcome = .ok removed →
        removed = [] ∨ stage = .forgetting removed) (.selected protectedIds) := by
  have raises (error : Exn) (stage : Stage) : ∀ removed : List String,
      Except.error error = .ok removed → removed = [] ∨ stage = .forgetting removed :=
    fun _ impossible => by cases impossible
  refine wp_bind (wp_raised ?_)
  cases env cfg getenv true with
  | error error => exact raises error _
  | ok env =>
    refine wp_bind (wp_runCommand ⟨_, rfl⟩ (fun _ error _ => raises error _) ?_)
    intro preview _ _
    refine wp_bind (wp_raised ?_)
    cases read : preview.json with
    | error error => exact raises error _
    | ok groups =>
      refine wp_bind (wp_raised ?_)
      cases listed : previewIds groups with
      | error error => exact raises error _
      | ok candidates =>
        have shown : previewed preview = candidates := by simp only [previewed, read, listed]
        dsimp only
        split
        · exact wp_pure fun removed same => Or.inl (Except.ok.inj same).symm
        · refine wp_bind (wp_runCommand ⟨protectedIds, candidates, by rw [← shown]; rfl, ?_⟩
            (fun _ error _ => raises error _) ?_)
          · intro id member
            have chosen := List.mem_filter.mp
              ((List.mem_insertionSort _).mp (List.mem_dedup.mp member))
            exact ⟨chosen.1, (of_decide_eq_true chosen.2).2⟩
          · intro forgotten _ _
            refine wp_bind (wp_runCommand (by simp [pruning, Ordinary, Command.effect])
              (fun _ error _ => raises error _) ?_)
            intro pruned _ _
            exact wp_pure fun removed same => Or.inr (by rw [← Except.ok.inj same]; rfl)

/-- Retention goes through its stages in order. -/
theorem wp_retention (engine : Engine) :
    wp pruning (Backups.retention engine) (fun _ _ => True) .idle := by
  refine wp_bind (wp_bind (wp_perform trivial ?_))
  intro now served
  obtain ⟨now, rfl⟩ := served trivial
  refine wp_perform rfl ?_
  intro selected served
  obtain ⟨selected, rfl⟩ := served trivial
  refine wp_bind (wp_mono (wp_repositoryRetention _ _ selected) ?_)
  intro outcome stage named
  cases outcome with
  | error error => trivial
  | ok removed =>
    have finish (stage : Stage) : wp pruning (do
        audit "root-maintenance" "retention.complete" "repository" "primary"
          [("removed", .arr (removed.map .str)),
            ("protected_count", .int selected.dedup.length)]
        return removed) (fun _ _ => True) stage :=
      wp_incidental (issues_bind (incidental_audit _ _ _ _ _) fun _ => issues_pure _)
    refine wp_bind ?_
    unfold markPointsExpired
    split
    · exact wp_pure (finish stage)
    · rename_i nonempty
      have staged : stage = .forgetting removed := (named removed rfl).resolve_left nonempty
      subst staged
      refine wp_bind (wp_perform trivial ?_)
      intro now served
      obtain ⟨now, rfl⟩ := served trivial
      refine wp_perform rfl ?_
      intro marked served
      obtain ⟨marked, rfl⟩ := served trivial
      exact finish _

end Calls

section Knowledge

/-- What retention knows at a stage. -/
def Knows (world : World) (window : Window) : Stage → Prop
  | .dated now => now ≤ world.clock
  | .selected ids => window.selected = ids ∧ Covered world window
  | .listed ids candidates => window.selected = ids ∧ window.listed = candidates ∧
      Covered world window
  | _ => True

variable {env : Environment} {world : World} {seen : Window} {stage : Stage}

/-- The clock does not run backwards. -/
theorem clock_le (command : Command) : world.clock ≤ (env.handler command world).2.clock :=
  Nat.le_add_right _ _

/-- Commands that leave the points alone keep the held points covered. -/
theorem Covered.kept (covered : Covered world seen) {command : Command}
    (same : (Environment.commit world.db command).points = world.db.points) :
    Covered (env.handler command world).2 seen := by
  intro snapshot_id row found live future
  have found : world.db.points.lookup snapshot_id = some row := by rw [← same]; exact found
  exact covered snapshot_id row found live (Nat.lt_of_le_of_lt (clock_le command) future)

/-- A hold that commits is seen. -/
theorem Covered.extended (covered : Covered world seen) (snapshot_id : String)
    (immutable_until : Timestamp) (answer : Except Exn Unit) :
    Covered (env.handler (.transact (.updateImmutableUntil snapshot_id immutable_until)) world).2
      (seen.observe ⟨.transact (.updateImmutableUntil snapshot_id immutable_until), answer⟩) := by
  intro held row found live future
  have future : world.clock < row.immutable_until :=
    Nat.lt_of_le_of_lt (Nat.le_add_right _ _) future
  simp only [Environment.handler, Environment.commit, Transaction.write,
    Tables.Keyed.lookup_modify] at found
  simp only [Window.observe, List.mem_append, List.mem_singleton]
  split at found
  · rename_i same
    obtain ⟨old, _, rfl⟩ := Option.map_eq_some_iff.mp found
    exact Or.inr (Or.inr (by rw [same]))
  · rcases covered held row found live future with selected | late
    · exact Or.inl selected
    · exact Or.inr (Or.inl late)

/-- What is read as protected covers every held point. -/
theorem Covered.selected {now : Timestamp} (past : now ≤ world.clock) (listed : List String)
    (late : List (String × Timestamp)) :
    Covered (env.handler (.transact (.protectedSnapshotIds now)) world).2
      ⟨Transaction.read world.db (.protectedSnapshotIds now), listed, late⟩ := by
  intro snapshot_id row found live future
  refine Or.inl (List.mem_map.mpr ⟨{ row with snapshot_id := snapshot_id }, ?_, rfl⟩)
  refine List.mem_filter.mpr ⟨?_, ?_⟩
  · refine List.mem_map.mpr ⟨(snapshot_id, row), List.mem_filter.mpr ⟨?_, by simp [live]⟩, rfl⟩
    exact (Tables.Keyed.mem_rows_iff world.db.points snapshot_id row).mpr found
  · have later : world.clock < row.immutable_until :=
      Nat.lt_of_le_of_lt (Nat.le_add_right _ _) future
    exact decide_eq_true (Nat.lt_of_le_of_lt past later)

/-- Whatever other calls do, retention keeps what it knows. -/
theorem Knows.kept (knows : Knows world seen stage) {command : Command}
    (other : pruning.permits .holding command) :
    Knows (env.handler command world).2
      (seen.observe ⟨command, (env.handler command world).1⟩) stage := by
  have keep (quiet : ∀ window : Window,
        window.observe ⟨command, (env.handler command world).1⟩ = window)
      (same : (Environment.commit world.db command).points = world.db.points) :
      Knows (env.handler command world).2
        (seen.observe ⟨command, (env.handler command world).1⟩) stage := by
    rw [quiet]
    cases stage with
    | dated now => exact Nat.le_trans knows (clock_le command)
    | selected ids => exact ⟨knows.1, knows.2.kept same⟩
    | listed ids candidates => exact ⟨knows.1, knows.2.1, knows.2.2.kept same⟩
    | holding | idle | forgetting ids => trivial
  rcases permitted_cases other with ordinary | rfl | ⟨snapshot_id, immutable_until, _, rfl⟩ |
    ⟨_, impossible, _⟩ | ⟨_, _, _, _, impossible, _⟩ | ⟨_, _, _, _, _, impossible, _⟩ |
    ⟨_, _, impossible, _⟩
  · exact keep (fun window => observe_ordinary ordinary window _) (points_ordinary ordinary _)
  · exact keep (fun window => rfl) rfl
  · cases stage with
    | dated now => exact Nat.le_trans knows (clock_le _)
    | selected ids => exact ⟨knows.1, knows.2.extended snapshot_id immutable_until _⟩
    | listed ids candidates =>
      exact ⟨knows.1, knows.2.1, knows.2.2.extended snapshot_id immutable_until _⟩
    | holding | idle | forgetting ids => trivial
  all_goals cases impossible

/-- Retention's own commands keep what it knows true, stage by stage. -/
theorem Knows.next (knows : Knows world seen stage) {command : Command}
    (permitted : pruning.permits stage command) :
    Knows (env.handler command world).2 (seen.observe ⟨command, (env.handler command world).1⟩)
      (pruning.next stage command (env.handler command world).1) := by
  rcases permitted_cases permitted with ordinary | rfl | ⟨snapshot_id, immutable_until, rfl, rfl⟩ |
    ⟨now, rfl, rfl⟩ | ⟨ids, policy, renv, input_text, rfl, rfl⟩ |
    ⟨ids, selected, candidates, renv, input_text, rfl, _, rfl⟩ | ⟨ids, expired_at, rfl, rfl⟩
  · rw [next_ordinary ordinary]
    exact knows.kept (permits_ordinary ordinary _)
  · cases stage with
    | idle => exact clock_le .utcnow
    | _ => exact @Knows.kept _ _ _ _ knows .utcnow trivial
  · trivial
  · exact ⟨rfl, Covered.selected knows [] []⟩
  · have answered : (env.handler (.request (.run (.restic (.forgetPreview policy)) renv
        input_text)) world).1 = env.answer world.log (.run (.restic (.forgetPreview policy)) renv
        input_text) := rfl
    rw [answered]
    cases env.answer world.log (.run (.restic (.forgetPreview policy)) renv input_text) with
    | error error => exact ⟨knows.1, knows.2.kept rfl⟩
    | ok result => exact ⟨knows.1, rfl, knows.2.kept rfl⟩
  · trivial
  · trivial

end Knowledge

/-- One call of an operator that holds a recovery point. -/
structure Hold where
  engine : Engine
  snapshot_id : String
  actor : String
  days : Int
  reason : String

def Hold.program (hold : Hold) : Prog Unit := do
  let _ ← holdRecoveryPoint hold.engine hold.snapshot_id hold.actor hold.days hold.reason

section Concurrency

variable {ι : Type} [DecidableEq ι]

/-- One thread runs retention, every other thread a hold. -/
def calls (maintenance : ι) (engine : Engine) (holds : ι → Hold) (thread : ι) : Prog Unit :=
  if thread = maintenance then do
    let _ ← Backups.retention engine
  else (holds thread).program

omit [DecidableEq ι] in
/-- At a forget, no hold that committed since the protected set was read still
protects a snapshot that the preview lists and the set does not contain. -/
def Undisturbed (step : Step controller Exn ι World) : Prop :=
  match step.command with
  | .request (.run (.restic (.forget _)) _ _) =>
    ∀ entry ∈ (window step.history).late, entry.1 ∈ (window step.history).listed →
      entry.1 ∉ (window step.history).selected → entry.2 ≤ step.state.clock
  | _ => True

instance {ι : Type} (step : Step controller Exn ι World) : Decidable (Undisturbed step) := by
  unfold Undisturbed
  split <;> infer_instance

omit [DecidableEq ι] in
/-- A forget names no held point. -/
def Spares (step : Step controller Exn ι World) : Prop :=
  match step.command with
  | .request (.run (.restic (.forget ids)) _ _) => ∀ id, Held step.state id → id ∉ ids
  | _ => True

/-- The holds are holds, and retention knows what its stage says. -/
def Watched (maintenance : ι) (world : World) (history : List (ι × Exchange controller Exn))
    (stages : ι → Stage) : Prop :=
  (∀ thread, thread ≠ maintenance → stages thread = .holding) ∧
    Knows world (window history) (stages maintenance)

variable (env : Environment) (maintenance : ι)

omit [DecidableEq ι] in
/-- What retention knows at its forget, undisturbed, spares every held point. -/
theorem spares_of_knows {world : World} {history : List (ι × Exchange controller Exn)}
    {stage : Stage} {command : Command} (thread : ι) (knows : Knows world (window history) stage)
    (permitted : pruning.permits stage command)
    (undisturbed : Undisturbed ⟨world, history, thread, command⟩) :
    Spares (⟨world, history, thread, command⟩ : Step controller Exn ι World) := by
  unfold Spares
  split
  · rename_i ids renv input_text same
    have same : command = .request (.run (.restic (.forget ids)) renv input_text) := same
    subst same
    obtain ⟨selected, candidates, rfl, chosen⟩ := permitted
    obtain ⟨selects, lists, covered⟩ := knows
    rintro id ⟨row, found, live, future⟩ named
    obtain ⟨listed, unselected⟩ := chosen id named
    rcases covered id row found live future with kept | late
    · exact unselected (selects ▸ kept)
    · have passed := undisturbed (id, row.immutable_until) late (lists ▸ listed)
        (selects ▸ unselected)
      exact absurd future (Nat.not_lt_of_le passed)
  · trivial

/-- An undisturbed step spares every held point, and retention keeps its knowledge. -/
theorem preserves_watched : Preserves env.handler pruning (Watched maintenance) Undisturbed
    Spares := by
  rintro world history stages thread command ⟨others, knows⟩ permitted undisturbed
  have served := served_reply env world command
  simp only [Watched, window_concat]
  by_cases own : thread = maintenance
  · subst own
    refine ⟨spares_of_knows thread knows permitted undisturbed, served, ?_, ?_⟩
    · intro other different
      simp [different, others other different]
    · rw [Function.update_self]
      exact knows.next permitted
  · have holding := others thread own
    rw [holding] at permitted
    have still : pruning.next (stages thread) command (env.handler command world).1 =
        stages thread := by
      rw [holding]
      exact next_holding permitted _
    rw [still, Function.update_eq_self]
    have holdingKnows : Knows world (window history) .holding := trivial
    exact ⟨spares_of_knows thread holdingKnows permitted undisturbed, served, others,
      knows.kept permitted⟩

/-- The point is live, and retention is past its forget, which did not name it. -/
def Spared (maintenance : ι) (snapshot_id : String) (world : World)
    (_ : List (ι × Exchange controller Exn)) (stages : ι → Stage) : Prop :=
  (∀ thread, thread ≠ maintenance → stages thread = .holding) ∧
    (∃ ids, stages maintenance = .forgetting ids ∧ snapshot_id ∉ ids) ∧ Live world snapshot_id

omit [DecidableEq ι] in
/-- Marking points expired leaves every other point as it is. -/
theorem lookup_markPointsExpired (points : Tables.Keyed String PointRow)
    (snapshot_ids : List String) (expired_at : Timestamp) {snapshot_id : String}
    (absent : snapshot_id ∉ snapshot_ids) :
    (snapshot_ids.foldl (fun points snapshot_id => points.modify snapshot_id fun row =>
      { row with expired := true, expired_at := some expired_at }) points).lookup snapshot_id =
      points.lookup snapshot_id := by
  induction snapshot_ids generalizing points with
  | nil => rfl
  | cons first rest inductionHypothesis =>
    obtain ⟨different, later⟩ := not_or.mp (mt List.mem_cons.mpr absent)
    rw [List.foldl_cons, inductionHypothesis _ later, Tables.Keyed.lookup_modify,
      if_neg different]

omit [DecidableEq ι] in
/-- A live point stays live, unless it is among the points that retention marks. -/
theorem live_kept {world : World} {snapshot_id : String} (live : Live world snapshot_id)
    {stage : Stage} {command : Command} (permitted : pruning.permits stage command)
    (spared : ∀ ids, stage = .forgetting ids → snapshot_id ∉ ids) :
    Live (env.handler command world).2 snapshot_id := by
  obtain ⟨row, found, present⟩ := live
  have kept (same : (Environment.commit world.db command).points = world.db.points) :
      Live (env.handler command world).2 snapshot_id :=
    ⟨row, by rw [← found, ← same]; rfl, present⟩
  rcases permitted_cases permitted with ordinary | rfl | ⟨extended, immutable_until, _, rfl⟩ |
    ⟨_, _, rfl⟩ | ⟨_, _, _, _, _, rfl⟩ | ⟨_, _, _, _, _, _, _, rfl⟩ | ⟨ids, expired_at, staged, rfl⟩
  · exact kept (points_ordinary ordinary _)
  · exact kept rfl
  · by_cases same : snapshot_id = extended
    · subst same
      refine ⟨{ row with immutable_until := immutable_until }, ?_, present⟩
      simp [Environment.handler, Environment.commit, Transaction.write,
        Tables.Keyed.lookup_modify, found]
    · refine ⟨row, ?_, present⟩
      simp [Environment.handler, Environment.commit, Transaction.write,
        Tables.Keyed.lookup_modify, found, same]
  · exact kept rfl
  · exact kept rfl
  · exact kept rfl
  · refine ⟨row, ?_, present⟩
    rw [← found]
    exact lookup_markPointsExpired _ _ _ (spared ids staged)

/-- Past the forget, a point that it did not name stays live over any step. -/
theorem preserves_spared (snapshot_id : String) : Preserves env.handler pruning
    (Spared maintenance snapshot_id) (fun _ => True) (fun _ => True) := by
  rintro world history stages thread command ⟨others, ⟨ids, staged, unnamed⟩, live⟩ permitted _
  have served := served_reply env world command
  have still : pruning.next (stages thread) command (env.handler command world).1 =
      stages thread := by
    by_cases own : thread = maintenance
    · subst own
      rw [staged] at permitted ⊢
      rcases permitted_cases permitted with ordinary | rfl | ⟨_, _, impossible, _⟩ |
        ⟨_, impossible, _⟩ | ⟨_, _, _, _, impossible, _⟩ | ⟨_, _, _, _, _, impossible, _⟩ |
        ⟨_, _, _, rfl⟩
      · exact next_ordinary ordinary _ _
      · rfl
      · cases impossible
      · cases impossible
      · cases impossible
      · cases impossible
      · rfl
    · rw [others thread own] at permitted ⊢
      exact next_holding permitted _
  rw [still, Function.update_eq_self]
  refine ⟨trivial, served, others, ⟨ids, staged, unnamed⟩, live_kept env live permitted ?_⟩
  intro named forgetting
  by_cases own : thread = maintenance
  · subst own
    rw [staged] at forgetting
    cases forgetting
    exact unnamed
  · rw [others thread own] at forgetting
    cases forgetting

/-- From an undisturbed forget on, a point that was held stays live. -/
theorem spared_from_forget {pool : Pool controller Exn ι World} {stages : ι → Stage}
    (judged : Judged pruning (fun _ _ => True) pool stages)
    (watched : Watched maintenance pool.state pool.history stages) {thread : ι}
    {ids : List String} {renv : List (String × String)} {input_text : Option String}
    {resume : Except Exn CommandResult → Prog Unit}
    (current : pool.threads thread =
      .call (.request (.run (.restic (.forget ids)) renv input_text)) resume)
    (undisturbed : Undisturbed ⟨pool.state, pool.history, thread,
      .request (.run (.restic (.forget ids)) renv input_text)⟩)
    {snapshot_id : String} (held : Held pool.state snapshot_id) (after : List ι) :
    snapshot_id ∉ ids ∧
      Live (interleave env.handler after (advance env.handler pool thread)).state snapshot_id := by
  obtain ⟨others, knows⟩ := watched
  have own := judged thread
  rw [current] at own
  obtain ⟨selected, candidates, staged, _⟩ := own.1
  have same : thread = maintenance := by
    by_contra different
    rw [others thread different] at staged
    cases staged
  subst same
  have unnamed : snapshot_id ∉ ids :=
    spares_of_knows thread knows own.1 undisturbed snapshot_id held
  have performed : (advance env.handler pool thread).state =
      (env.handler (.request (.run (.restic (.forget ids)) renv input_text)) pool.state).2 := by
    simp [advance, current]
  have live : Live (advance env.handler pool thread).state snapshot_id := by
    obtain ⟨row, found, present, _⟩ := held
    rw [performed]
    refine live_kept env ⟨row, found, present⟩ own.1 ?_
    intro named forgetting
    rw [staged] at forgetting
    cases forgetting
  have advanced : Spared thread snapshot_id (advance env.handler pool thread).state
      (advance env.handler pool thread).history
      (Function.update stages thread (.forgetting ids)) := by
    refine ⟨?_, ⟨ids, by simp, unnamed⟩, live⟩
    intro other different
    simp [different, others other different]
  have rejudged : Judged pruning (fun _ _ => True) (advance env.handler pool thread)
      (Function.update stages thread (.forgetting ids)) :=
    judged_advance judged current (served_reply env pool.state _)
  obtain ⟨_, _, _, _, _, spared⟩ := interleave_invariant (preserves_spared env thread snapshot_id)
    rejudged advanced after (by simp)
  exact ⟨unnamed, spared⟩

variable (engine : Engine) (holds : ι → Hold) (world : World)

/-- Retention starts idle, every hold as a hold. -/
def firstStage (thread : ι) : Stage := if thread = maintenance then .idle else .holding

/-- Every call starts where its discipline begins. -/
theorem judged_start : Judged pruning (fun _ _ => True)
    (Pool.start (calls maintenance engine holds) world) (firstStage maintenance) := by
  intro thread
  simp only [Pool.start, calls, firstStage]
  split
  · refine wp_bind (wp_mono (wp_retention engine) ?_)
    intro outcome stage _
    cases outcome <;> trivial
  · refine wp_bind (wp_mono (wp_holdRecoveryPoint _ _ _ _ _) ?_)
    intro outcome stage _
    cases outcome <;> trivial

/-- Nothing is known yet, and nothing needs to be. -/
theorem watched_start : Watched maintenance world
    ([] : List (ι × Exchange controller Exn)) (firstStage maintenance) := by
  refine ⟨fun other different => if_neg different, ?_⟩
  have idle : firstStage maintenance maintenance = .idle := if_pos rfl
  rw [idle]
  trivial

/-- Retention respects holds. In every run of one retention beside any holds that
is undisturbed, a point that is held when a forget is issued is not named by it
and is still live whenever the run is stopped later. -/
theorem retention_respects_holds (schedule : List ι)
    (undisturbed : ∀ step ∈ steps env.handler schedule
      (Pool.start (calls maintenance engine holds) world), Undisturbed step) :
    ∀ before thread after ids renv input_text resume, schedule = before ++ thread :: after →
      (interleave env.handler before (Pool.start (calls maintenance engine holds) world)).threads
        thread = .call (.request (.run (.restic (.forget ids)) renv input_text)) resume →
      ∀ id, Held (interleave env.handler before
          (Pool.start (calls maintenance engine holds) world)).state id →
        id ∉ ids ∧ Live (interleave env.handler schedule
          (Pool.start (calls maintenance engine holds) world)).state id := by
  rintro before thread after ids renv input_text resume rfl current id held
  rw [steps_append] at undisturbed
  obtain ⟨_, stages, judged, watched⟩ := interleave_invariant
    (preserves_watched env maintenance) (judged_start maintenance engine holds world)
    (watched_start maintenance world) before
    fun step member => undisturbed step (List.mem_append_left _ member)
  have here := undisturbed _ (List.mem_append_right _ (mem_steps_cons env.handler current after))
  rw [interleave_append, interleave_cons]
  exact spared_from_forget env maintenance judged watched current here held after

end Concurrency

/-- The catalogue with a second point, which is not protected either. -/
def twoPoints : Database :=
  { catalogue with
    points := catalogue.points.replace "77aa" {
      created_at := 0, platform := "pve", platform_type := .proxmox, vm_id := "101"
      vm_name := "db", power_state := none, source_path := "/srv/staging/db"
      backup_bytes := 1, data_added := 1, file_count := 1, manifest_sha256 := none
      immutable_until := 0, suspicious := false, suspicious_reason := none, verified := true
      verified_at := none, metadata := [] } }

/-- A preview that lists both points for removal; everything else succeeds. -/
def listing : Environment where
  answer := fun log external =>
    match external with
    | .run (.restic (.forgetPreview _)) _ _ => .ok {
        returncode := 0
        json := .ok (.arr [.obj [("remove", .arr [
          .obj [("id", .str "4f1c")], .obj [("id", .str "77aa")]])]]) }
    | external => Environment.obliging.answer log external
  elapsed := fun _ _ => 1

/-- Retention and one hold of thirty days. -/
def retentionAndHold : Pool controller Exn Bool World :=
  Pool.start (calls true vault fun _ => ⟨vault, "4f1c", "alice", 30, "audit"⟩) ⟨twoPoints, 0, []⟩

/-- Retention reads the protected points, the hold commits, and retention has its preview. -/
def heldTooLate : Pool controller Exn Bool World :=
  interleave listing.handler ([true, true] ++ List.replicate 7 false ++ [true]) retentionAndHold

/-- A point that is held when the forget is issued can be named by it, and is expired
by the end of the run. -/
theorem hold_after_read :
    Held heldTooLate.state "4f1c" ∧
    (∃ renv input_text resume, heldTooLate.threads true =
      .call (.request (.run (.restic (.forget ["4f1c", "77aa"])) renv input_text)) resume) ∧
    ¬ Live (interleave listing.handler (List.replicate 7 true) heldTooLate).state "4f1c" := by
  refine ⟨⟨_, rfl, rfl, by decide⟩, ⟨_, _, _, rfl⟩, ?_⟩
  rintro ⟨row, found, live⟩
  have expired : ((interleave listing.handler (List.replicate 7 true)
      heldTooLate).state.db.points.lookup "4f1c").map (·.expired) = some true := by
    decide
  rw [found, Option.map_some, live] at expired
  exact absurd expired (by decide)

/-- A hold that commits before retention reads the protected points is respected. -/
theorem retention_respects_holds_in_turn :
    "4f1c" ∉ ["77aa"] ∧ Live (interleave listing.handler
      ((List.replicate 7 false ++ [true, true, true]) ++ true :: List.replicate 7 true)
      retentionAndHold).state "4f1c" :=
  retention_respects_holds listing true vault (fun _ => ⟨vault, "4f1c", "alice", 30, "audit"⟩)
    ⟨twoPoints, 0, []⟩ _ (by decide) (List.replicate 7 false ++ [true, true, true]) true
    (List.replicate 7 true) ["77aa"] _ _ _ rfl rfl "4f1c" ⟨_, rfl, rfl, by decide⟩

end Immutavault.RetentionHolds
