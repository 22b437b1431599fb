import Immutavault.Backups
import Immutavault.FaultyRuns

/-!
# What retention leaves in the catalogue

Retention lets the repository forget snapshots, prunes it, and only then marks the points of
these snapshots expired. A prune that fails, or a catalogue that refuses the update, leaves
points that look alive and whose snapshots are gone.

Catalogue and repository agree after a call, whatever fails in it, exactly when every point
that was forgotten had expired before, or the pruning and the update went through. A call
that forgets nothing always leaves them in agreement.
-/

namespace Immutavault.RetentionOutcomes

open Programs Values Timestamps Catalog Machine Histories Configuration ResticRepository
open StateDatabase RestoreEngine Backups FaultyRuns

attribute [local irreducible] Footprint

section Stages

variable (engine : Engine)

/-- What retention is about to forget. -/
structure Selection where
  protectedIds : List String
  settings : List (String × String)
  removed : List String

/-- Read the protected points, and select the others that the policy would remove. -/
def select : Prog Selection := do
  let protectedIds ← protectedSnapshotIds
  let settings ← raised (env engine.cfg.repository engine.getenv true)
  let preview ← runCommand
    (.restic (.forgetPreview (retentionPolicy engine.cfg.repository.retention))) settings none true
  let groups ← raised preview.json
  let candidates ← raised (previewIds groups)
  return {
    protectedIds := protectedIds
    settings := settings
    removed := ((candidates.filter fun sid => sid ≠ "" ∧ sid ∉ protectedIds).insertionSort
      (· ≤ ·)).dedup }

def forget (selection : Selection) : Prog Unit := do
  if selection.removed = [] then return ()
  else
    let _ ← runCommand (.restic (.forget selection.removed)) selection.settings none true
    return ()

/-- Prune what was forgotten, and mark it in the catalogue. -/
def sweep (selection : Selection) : Prog Unit := do
  if selection.removed = [] then return ()
  else
    let _ ← runCommand (.restic .prune) selection.settings none true
    markPointsExpired selection.removed

/-- Audit a retention. -/
def report (selection : Selection) : Prog (List String) := do
  audit "root-maintenance" "retention.complete" "repository" "primary"
    [("removed", .arr (selection.removed.map .str)),
      ("protected_count", .int selection.protectedIds.dedup.length)]
  return selection.removed

/-- Retention selects, forgets, sweeps and reports. -/
theorem retention_eq : Backups.retention engine = (do
    let selection ← select engine
    forget selection
    sweep selection
    report selection) := by
  unfold Backups.retention ResticRepository.retention select
  simp only [bind_assoc, pure_bind]
  refine congrArg _ (funext fun protectedIds => congrArg _ (funext fun settings =>
    congrArg _ (funext fun preview => congrArg _ (funext fun groups =>
      congrArg _ (funext fun candidates => ?_)))))
  generalize ((candidates.filter fun sid => sid ≠ "" ∧ sid ∉ protectedIds).insertionSort
    (· ≤ ·)).dedup = removed
  by_cases none_removed : removed = []
  · simp [forget, sweep, report, markPointsExpired, none_removed]
  · simp [forget, sweep, report, none_removed]

theorem footprint_select : Footprint [.silent, .ofRestic] (select engine) := by
  refine footprint_bind (footprint_bind (footprint_utcnow (by simp)) fun _ =>
    footprint_reading rfl (by simp)) fun protectedIds => ?_
  refine footprint_bind (footprint_raised _) fun settings => ?_
  refine footprint_bind (footprint_runCommand (by simp [Command.effect])) fun preview => ?_
  refine footprint_bind (footprint_raised _) fun groups => ?_
  exact footprint_bind (footprint_raised _) fun candidates => footprint_pure _

theorem footprint_forget (selection : Selection) : Footprint [.ofForget] (forget selection) := by
  unfold forget
  split
  · exact footprint_pure _
  · exact footprint_bind (footprint_runCommand (by simp [Command.effect])) fun _ =>
      footprint_pure _

/-- Reporting leaves the points alone. -/
theorem footprint_report (selection : Selection) :
    Footprint [.silent, .writing .audits] (report selection) :=
  footprint_bind (footprint_audit (by simp) (by simp) _ _ _ _ _) fun _ => footprint_pure _

end Stages

section Points

variable {engine : Engine} {env : Environment} {faults : Faults} {world after : World}

/-- Marking points expired marks these and no others. -/
theorem lookup_marked (points : Tables.Keyed String PointRow) (snapshot_ids : List String)
    (expired_at : Timestamp) (snapshot_id : String) :
    ((snapshot_ids.foldl (fun points snapshot_id => points.modify snapshot_id fun row =>
      { row with expired := true, expired_at := some expired_at }) points).lookup snapshot_id).map
        (·.expired) =
      if snapshot_id ∈ snapshot_ids then (points.lookup snapshot_id).map fun _ => true
      else (points.lookup snapshot_id).map (·.expired) := by
  induction snapshot_ids generalizing points with
  | nil => simp
  | cons first rest inductionHypothesis =>
    rw [List.foldl_cons, inductionHypothesis, Tables.Keyed.lookup_modify]
    by_cases same : snapshot_id = first
    · subst same
      cases points.lookup snapshot_id <;> simp
    · simp [same]

/-- A snapshot was forgotten. -/
def Forgets (snapshot_id : String) (exchange : Exchange controller Exn) : Prop :=
  ∃ snapshot_ids settings result,
    exchange = ⟨Command.request (.run (.restic (.forget snapshot_ids)) settings none), .ok result⟩ ∧
      result.returncode = 0 ∧ snapshot_id ∈ snapshot_ids

/-- Sweeping leaves the flags of the points alone, unless it marks what was forgotten. -/
theorem run_sweep {selection : Selection} {answer : Except Exn Unit}
    (ran : run (faulting env faults) (sweep selection) world = (answer, after)) :
    (answer = .ok () ∧ ∀ snapshot_id, (after.db.points.lookup snapshot_id).map (·.expired) =
      if snapshot_id ∈ selection.removed then
        (world.db.points.lookup snapshot_id).map fun _ => true
      else (world.db.points.lookup snapshot_id).map (·.expired)) ∨
    ((∃ error, answer = .error error) ∧ after.db.points = world.db.points) := by
  unfold sweep at ran
  split at ran
  · rename_i none_removed
    cases ran
    exact Or.inl ⟨rfl, fun snapshot_id => by simp [none_removed]⟩
  · rename_i some_removed
    have pruning : Footprint [.ofForget]
        (runCommand (.restic .prune) selection.settings none true) :=
      footprint_runCommand (by simp [Command.effect])
    rcases run_bind_cases _ ran with ⟨error, rfl, failed⟩ | ⟨_, pruned, prunes, rest⟩
    · exact Or.inr ⟨⟨error, rfl⟩,
        same_faulting pruning (by simp : Effect.writing .points ∉ _) failed⟩
    have same : pruned.db.points = world.db.points :=
      same_faulting pruning (by simp : Effect.writing .points ∉ _) prunes
    rw [markPointsExpired, if_neg some_removed] at rest
    rcases run_bind_cases _ rest with ⟨error, rfl, failed⟩ | ⟨now, timed, reads, rest⟩
    · have kept : after.db.points = pruned.db.points :=
        same_faulting (footprint_utcnow (by simp : _ ∈ [Effect.silent]))
          (by simp : Effect.writing .points ∉ _) failed
      exact Or.inr ⟨⟨error, rfl⟩, kept.trans same⟩
    have kept : timed.db.points = pruned.db.points :=
      same_faulting (footprint_utcnow (by simp : _ ∈ [Effect.silent]))
        (by simp : Effect.writing .points ∉ _) reads
    rcases run_transact rest with ⟨answered, committed⟩ | ⟨raised, nothing⟩
    · refine Or.inl ⟨answered, fun snapshot_id => ?_⟩
      rw [committed, ← same, ← kept]
      exact lookup_marked timed.db.points selection.removed now snapshot_id
    · exact Or.inr ⟨raised, (congrArg Database.points nothing).trans (kept.trans same)⟩

/-- A command that forgets no snapshots. -/
def Unforgetting (command : controller.Command) : Prop :=
  ∀ snapshot_ids settings,
    command ≠ Command.request (.run (.restic (.forget snapshot_ids)) settings none)

theorem only_unforgetting {α : Type} {program : Prog α} {outcome : Except Exn α}
    (issues : Issues Unforgetting program)
    (ran : run (faulting env faults) program world = (outcome, after)) :
    Only (fun exchange => ∀ snapshot_id, ¬ Forgets snapshot_id exchange) world after := by
  refine (only_faulting issues ran).mono ?_
  rintro exchange unforgetting snapshot_id ⟨snapshot_ids, settings, result, rfl, _⟩
  exact unforgetting snapshot_ids settings rfl

/-- Running another command forgets nothing. -/
theorem issues_command {command : ResticCommand} {settings : List (String × String)}
    (other : ∀ snapshot_ids, command ≠ .forget snapshot_ids) :
    Issues Unforgetting (runCommand (.restic command) settings none true) := by
  refine issues_bind ((issues_perform _).mpr ?_) fun result => ?_
  · rintro snapshot_ids settings same
    cases same
    exact other snapshot_ids rfl
  · split
    · exact issues_throw _
    · exact issues_pure _

theorem issues_sweep (selection : Selection) : Issues Unforgetting (sweep selection) := by
  unfold sweep
  split
  · exact issues_pure _
  · refine issues_bind (issues_command fun _ same => by cases same) fun _ => ?_
    unfold markPointsExpired
    split
    · exact issues_pure _
    · exact issues_bind ((issues_perform _).mpr fun _ _ same => by cases same) fun _ =>
        (issues_perform _).mpr fun _ _ same => by cases same

/-- Commands that ask nothing outside forget nothing. -/
theorem issues_report (selection : Selection) : Issues Unforgetting (report selection) := by
  refine issues_bind ?_ fun _ => issues_pure _
  exact issues_bind ((issues_perform _).mpr fun _ _ same => by cases same) fun _ =>
    issues_bind ((issues_perform _).mpr fun _ _ same => by cases same) fun _ =>
      (issues_perform _).mpr fun _ _ same => by cases same

/-- Selecting forgets nothing. -/
theorem issues_select : Issues Unforgetting (select engine) := by
  have footprint := footprint_select engine
  unfold Footprint at footprint
  refine issues_mono footprint ?_
  rintro command listed snapshot_ids settings rfl
  simp [Command.effect] at listed

/-- What the forget of a selection leaves in the history: the forgotten snapshots when it
returns, and no forgotten snapshot when it raises. -/
theorem run_forget {selection : Selection} {answer : Except Exn Unit}
    (ran : run (faulting env faults) (forget selection) world = (answer, after)) :
    (answer = .ok () ∧
      (∀ snapshot_id ∈ selection.removed, ∃ exchange, Forgets snapshot_id exchange ∧
        Since world [exchange] after) ∧
      Only (fun exchange => ∀ snapshot_id, Forgets snapshot_id exchange →
        snapshot_id ∈ selection.removed) world after) ∨
    ((∃ error, answer = .error error) ∧
      Only (fun exchange => ∀ snapshot_id, ¬ Forgets snapshot_id exchange) world after) := by
  unfold forget at ran
  split at ran
  · rename_i none_removed
    cases ran
    exact Or.inl ⟨rfl, by simp [none_removed], Only.refl _ _⟩
  · rename_i some_removed
    rw [runCommand, bind_assoc] at ran
    rcases run_bind_cases _ ran with ⟨error, rfl, failed⟩ | ⟨result, asked, asks, rest⟩
    · refine Or.inr ⟨⟨error, rfl⟩, only_perform ?_ failed⟩
      rintro snapshot_id ⟨_, _, _, same, _⟩
      cases same
    · split at rest
      · rename_i nonzero
        cases rest
        refine Or.inr ⟨⟨_, rfl⟩, only_perform ?_ asks⟩
        rintro snapshot_id ⟨_, _, _, same, clean, _⟩
        cases same
        exact nonzero.2 clean
      · rename_i clean
        cases rest
        have zero : result.returncode = 0 := by
          by_contra nonzero
          exact clean ⟨rfl, nonzero⟩
        refine Or.inl ⟨rfl, ?_, only_perform ?_ asks⟩
        · intro snapshot_id member
          exact ⟨_, ⟨_, _, result, rfl, zero, member⟩, since_perform (Since.refl world) asks⟩
        · rintro snapshot_id ⟨_, _, _, same, _, member⟩
          cases same
          exact member

/-- After a call a point has expired exactly if it had before or its snapshot was forgotten. -/
def Agrees (world after : World) : Prop :=
  ∀ snapshot_id row, after.db.points.lookup snapshot_id = some row →
    (row.expired = true ↔
      (∃ before, world.db.points.lookup snapshot_id = some before ∧ before.expired = true) ∨
        ∃ exchange, Forgets snapshot_id exchange ∧ Since world [exchange] after)

/-- Wherever a call forgets, all that is forgotten had expired, or it is swept. -/
def Swept (engine : Engine) (env : Environment) (faults : Faults) (world : World) : Prop :=
  ∀ selection selected forgotten,
    run (faulting env faults) (select engine) world = (.ok selection, selected) →
    run (faulting env faults) (forget selection) selected = (.ok (), forgotten) →
    (∀ snapshot_id ∈ selection.removed, ∀ row,
        world.db.points.lookup snapshot_id = some row → row.expired = true) ∨
      (run (faulting env faults) (sweep selection) forgotten).1 = .ok ()

/-- Nothing was forgotten and nothing marked. -/
theorem agrees_untouched (same : after.db.points = world.db.points)
    (only : Only (fun exchange => ∀ snapshot_id, ¬ Forgets snapshot_id exchange) world after) :
    Agrees world after := by
  intro snapshot_id row found
  constructor
  · exact fun expired => Or.inl ⟨row, same ▸ found, expired⟩
  · rintro (⟨before, there, expired⟩ | ⟨exchange, forgets, since⟩)
    · obtain rfl : before = row := Option.some.inj (there.symm.trans (same ▸ found))
      exact expired
    · exact absurd forgets (only.since since _ (List.mem_singleton.mpr rfl) snapshot_id)

/-- What was forgotten, and nothing else, was marked. -/
theorem agrees_marked {removed : List String}
    (marked : ∀ snapshot_id, (after.db.points.lookup snapshot_id).map (·.expired) =
      if snapshot_id ∈ removed then (world.db.points.lookup snapshot_id).map fun _ => true
      else (world.db.points.lookup snapshot_id).map (·.expired))
    (all : ∀ snapshot_id ∈ removed, ∃ exchange, Forgets snapshot_id exchange ∧
      Since world [exchange] after)
    (only : Only (fun exchange => ∀ snapshot_id, Forgets snapshot_id exchange →
      snapshot_id ∈ removed) world after) : Agrees world after := by
  intro snapshot_id row found
  have flag := marked snapshot_id
  rw [found, Option.map_some] at flag
  by_cases member : snapshot_id ∈ removed
  · rw [if_pos member] at flag
    have expired : row.expired = true := by
      cases there : world.db.points.lookup snapshot_id with
      | none =>
        rw [there] at flag
        cases flag
      | some before =>
        rw [there] at flag
        exact Option.some.inj flag
    exact ⟨fun _ => Or.inr (all snapshot_id member), fun _ => expired⟩
  · rw [if_neg member] at flag
    obtain ⟨before, there, same⟩ := Option.map_eq_some_iff.mp flag.symm
    constructor
    · exact fun expired => Or.inl ⟨before, there, same.trans expired⟩
    · rintro (⟨again, found, expired⟩ | ⟨exchange, forgets, since⟩)
      · obtain rfl : before = again := Option.some.inj (there.symm.trans found)
        exact same ▸ expired
      · exact absurd (only.since since _ (List.mem_singleton.mpr rfl) snapshot_id forgets) member

/-- What was forgotten was not marked, which is as it should be only where it had expired. -/
theorem agrees_unmarked_iff {removed : List String} (same : after.db.points = world.db.points)
    (all : ∀ snapshot_id ∈ removed, ∃ exchange, Forgets snapshot_id exchange ∧
      Since world [exchange] after)
    (only : Only (fun exchange => ∀ snapshot_id, Forgets snapshot_id exchange →
      snapshot_id ∈ removed) world after) :
    Agrees world after ↔ ∀ snapshot_id ∈ removed, ∀ row,
      world.db.points.lookup snapshot_id = some row → row.expired = true := by
  constructor
  · intro agrees snapshot_id member row there
    exact (agrees snapshot_id row (same ▸ there)).mpr (Or.inr (all snapshot_id member))
  · intro expired snapshot_id row found
    have there : world.db.points.lookup snapshot_id = some row := same ▸ found
    constructor
    · exact fun flag => Or.inl ⟨row, there, flag⟩
    · rintro (⟨before, again, flag⟩ | ⟨exchange, forgets, since⟩)
      · obtain rfl : before = row := Option.some.inj (again.symm.trans there)
        exact flag
      · exact expired snapshot_id
          (only.since since _ (List.mem_singleton.mpr rfl) snapshot_id forgets) row there

/-- Once a selection was forgotten, it has to be swept unless it had expired. -/
theorem agrees_forgotten_iff {selection : Selection} {forgotten : World}
    (same : forgotten.db.points = world.db.points)
    (all : ∀ snapshot_id ∈ selection.removed, ∃ exchange, Forgets snapshot_id exchange ∧
      Since world [exchange] forgotten)
    (only : Only (fun exchange => ∀ snapshot_id, Forgets snapshot_id exchange →
      snapshot_id ∈ selection.removed) world forgotten) :
    Agrees world (run (faulting env faults) (do
        sweep selection
        report selection) forgotten).2 ↔
      (∀ snapshot_id ∈ selection.removed, ∀ row,
        world.db.points.lookup snapshot_id = some row → row.expired = true) ∨
      (run (faulting env faults) (sweep selection) forgotten).1 = .ok () := by
  have forgets : ∀ {start now : World},
      Only (fun exchange => ∀ snapshot_id, ¬ Forgets snapshot_id exchange) start now →
      Only (fun exchange => ∀ snapshot_id, Forgets snapshot_id exchange →
        snapshot_id ∈ selection.removed) start now := fun none_forgotten =>
    none_forgotten.mono fun _ never snapshot_id forgets => absurd forgets (never snapshot_id)
  rw [run_bind]
  cases sweeping : run (faulting env faults) (sweep selection) forgotten with
  | mk answer swept =>
    have sweeps := forgets (only_unforgetting (issues_sweep selection) sweeping)
    rcases run_sweep sweeping with ⟨rfl, marked⟩ | ⟨⟨error, rfl⟩, kept⟩
    · dsimp only
      cases reporting : run (faulting env faults) (report selection) swept with
      | mk outcome after =>
        have reports := forgets (only_unforgetting (issues_report selection) reporting)
        have reported : after.db.points = swept.db.points :=
          same_faulting (footprint_report selection) (by simp : Effect.writing .points ∉ _)
            reporting
        refine iff_of_true (agrees_marked ?_ ?_ ((only.trans sweeps).trans reports)) (Or.inr rfl)
        · intro snapshot_id
          rw [reported, ← same]
          exact marked snapshot_id
        · intro snapshot_id member
          obtain ⟨exchange, own, since⟩ := all snapshot_id member
          exact ⟨exchange, own, since_faulting (since_faulting since sweeping) reporting⟩
    · refine (agrees_unmarked_iff (kept.trans same) ?_ (only.trans sweeps)).trans ?_
      · intro snapshot_id member
        obtain ⟨exchange, own, since⟩ := all snapshot_id member
        exact ⟨exchange, own, since_faulting since sweeping⟩
      · exact ⟨Or.inl, fun either => either.resolve_right fun impossible => nomatch impossible⟩

/-- Catalogue and repository agree after a call, however it ends, exactly when what it forgets
is swept or had expired. -/
theorem agrees_iff : Agrees world (run (faulting env faults) (Backups.retention engine) world).2 ↔
    Swept engine env faults world := by
  rw [retention_eq, run_bind]
  cases selecting : run (faulting env faults) (select engine) world with
  | mk outcome selected =>
    have points : selected.db.points = world.db.points :=
      same_faulting (footprint_select engine) (by simp : Effect.writing .points ∉ _) selecting
    have quiet := only_unforgetting issues_select selecting
    cases outcome with
    | error error =>
      constructor
      · intro _ selection selected forgotten again
        cases selecting.symm.trans again
      · exact fun _ => agrees_untouched points quiet
    | ok selection =>
      dsimp only
      rw [run_bind]
      cases forgetting : run (faulting env faults) (forget selection) selected with
      | mk answer forgotten =>
        have kept : forgotten.db.points = selected.db.points :=
          same_faulting (footprint_forget selection) (by simp : Effect.writing .points ∉ _)
            forgetting
        rcases run_forget forgetting with ⟨rfl, all, only⟩ | ⟨⟨error, rfl⟩, only⟩
        · have since : world.log <+: selected.log := by
            obtain ⟨later, split, _⟩ := quiet
            exact ⟨later, split.symm⟩
          refine (agrees_forgotten_iff (kept.trans points) ?_ ?_).trans ?_
          · intro snapshot_id member
            obtain ⟨exchange, own, within⟩ := all snapshot_id member
            exact ⟨exchange, own, within.earlier since⟩
          · exact (quiet.mono fun _ never snapshot_id forgets =>
              absurd forgets (never snapshot_id)).trans only
          · constructor
            · intro swept other reached ended again emptied
              obtain ⟨rfl, rfl⟩ : selection = other ∧ selected = reached := by
                simpa only [Prod.mk.injEq, Except.ok.injEq] using selecting.symm.trans again
              obtain rfl : forgotten = ended :=
                congrArg Prod.snd (forgetting.symm.trans emptied)
              exact swept
            · exact fun swept => swept selection selected forgotten selecting forgetting
        · constructor
          · intro _ other reached forgotten again failing
            obtain ⟨rfl, rfl⟩ : selection = other ∧ selected = reached := by
              simpa only [Prod.mk.injEq, Except.ok.injEq] using selecting.symm.trans again
            cases forgetting.symm.trans failing
          · exact fun _ => agrees_untouched (kept.trans points) (quiet.trans only)

/-- A repository whose policy removes the point, and which cannot be pruned. -/
def unprunable : Environment where
  answer := fun _ external => match external with
    | .run (.restic (.forgetPreview _)) _ _ => .ok {
        returncode := 0
        json := .ok (.arr [.obj [("remove", .arr [.obj [("id", .str "4f1c")]])]]) }
    | .run (.restic .prune) _ _ => .ok { returncode := 1 }
    | external => .ok (Environment.favourable external)
  elapsed := fun _ _ => 1

/-- A history in which the snapshot was forgotten. -/
def forgot (snapshot_id : String) (history : History) : Bool :=
  history.any fun exchange => match exchange with
    | ⟨.request (.run (.restic (.forget snapshot_ids)) _ none), .ok result⟩ =>
      result.returncode = 0 ∧ snapshot_id ∈ snapshot_ids
    | _ => false

theorem forgets_of_forgot {snapshot_id : String} {history : History}
    (forgotten : forgot snapshot_id history = true) :
    ∃ exchange ∈ history, Forgets snapshot_id exchange := by
  obtain ⟨exchange, member, own⟩ := List.any_eq_true.mp forgotten
  split at own
  · exact ⟨_, member, _, _, _, rfl, of_decide_eq_true own⟩
  · cases own

/-- The point is forgotten, and looks alive in the catalogue. -/
theorem unprunable_point_alive : ¬ Agrees { db := catalogue, clock := 1 }
    (run (faulting unprunable fun _ _ => none) (Backups.retention vault)
      { db := catalogue, clock := 1 }).2 := by
  intro agrees
  have alive : ((run (faulting unprunable fun _ _ => none) (Backups.retention vault)
      { db := catalogue, clock := 1 }).2.db.points.lookup "4f1c").map (·.expired) =
        some false := by decide
  have forgotten : forgot "4f1c" (run (faulting unprunable fun _ _ => none)
      (Backups.retention vault) { db := catalogue, clock := 1 }).2.log = true := by decide
  generalize (run (faulting unprunable fun _ _ => none) (Backups.retention vault)
    { db := catalogue, clock := 1 }).2 = after at agrees alive forgotten
  obtain ⟨row, found, unexpired⟩ := Option.map_eq_some_iff.mp alive
  obtain ⟨exchange, member, forgets⟩ := forgets_of_forgot forgotten
  have expired := (agrees "4f1c" row found).mpr (Or.inr
    ⟨exchange, forgets, after.log, rfl, List.singleton_sublist.mpr member⟩)
  rw [unexpired] at expired
  cases expired

end Points

end Immutavault.RetentionOutcomes
