import Immutavault.Backups
import Immutavault.FaultyRuns

/-!
# Verifying a recovery point again

The flag of a recovery point says that it was verified. Verifying a point restores it,
looks for the restored path, checks its manifest and then writes the flag. Whatever raises
on the way leaves the flag as the last verification wrote it, and a point that once passed
goes on to count as verified.

The call is followed up to its verdict and from there on, in runs in which transactions may
fail as well. After a call the flag says no more than the call has found, exactly when a
point that counted as verified gets a verdict, and a verdict against it is written.
-/

namespace Immutavault.Verifications

open Programs Values Timestamps Catalog Machine Histories Configuration ResticRepository
open StateDatabase RestoreEngine Backups FaultyRuns

attribute [local irreducible] Footprint

section Stages

variable (engine : Engine)

/-- Where a point is restored to be verified. -/
def verifyRoot (snapshot_id : String) : String :=
  joinPath engine.cfg.runtime.verify_staging_path (safeComponent snapshot_id)

/-- Where the restored point is then found. -/
def restoredPath (snapshot_id : String) (point : Point) : String :=
  joinPath (verifyRoot engine snapshot_id) (lstripSlash point.source_path)

/-- What a verification has found: whether the point is as it should be, what is recorded with
that, and whether there was a manifest to check. -/
structure Verdict where
  ok : Bool
  details : Dict
  checked : Bool

/-- Restore a point and check its manifest. -/
def judge (snapshot_id : String) (point : Point) : Prog Verdict := do
  restore engine.cfg.repository engine.getenv snapshot_id (verifyRoot engine snapshot_id) none
  let present : Bool ← request (.pathExists (restoredPath engine snapshot_id point))
  if ¬ present then
    return { ok := false, details := [("error", .str "restored path missing")], checked := false }
  else
    let (ok, errors) ← request (.verifyManifest (restoredPath engine snapshot_id point)
      point.manifest_sha256)
    return { ok := ok, details := [("errors", .arr ((errors.take 20).map .str))], checked := true }

/-- Audit a manifest that was checked. -/
def report (snapshot_id actor : String) (verdict : Verdict) : Prog Bool := do
  if verdict.checked then
    audit actor "recovery.verify" "recovery_point" snapshot_id
      (("success", .bool verdict.ok) :: verdict.details)
    return verdict.ok
  else return false

/-- Write the flag. -/
def conclude (snapshot_id actor : String) (verdict : Verdict) : Prog Bool := do
  markVerified snapshot_id verdict.ok verdict.details
  report snapshot_id actor verdict

/-- A verification up to the restore. -/
def prepare (snapshot_id : String) : Prog Point := do
  match ← getPoint snapshot_id with
  | none => raiseValueError "unknown recovery point"
  | some point =>
    engine.ensurePathCapacity engine.cfg.runtime.verify_staging_path "verification"
    rmtree (verifyRoot engine snapshot_id)
    return point

/-- A verification up to its verdict. -/
def untilJudged (snapshot_id : String) : Prog Verdict := do
  let point ← prepare engine snapshot_id
  judge engine snapshot_id point

/-- Judging writes nothing. -/
theorem footprint_judge (snapshot_id : String) (point : Point) :
    Footprint [.outside, .ofRestic] (judge engine snapshot_id point) := by
  refine footprint_bind (footprint_restore _ _ _ _ _) fun _ => ?_
  refine footprint_bind (footprint_request (by simp [Command.effect])) fun present => ?_
  split
  · exact footprint_pure _
  · exact footprint_bind (footprint_request (by simp [Command.effect])) fun _ => footprint_pure _

theorem footprint_prepare (snapshot_id : String) :
    Footprint [.silent, .outside] (prepare engine snapshot_id) := by
  refine footprint_bind (footprint_reading rfl (by simp)) fun found => ?_
  cases found with
  | none => exact footprint_throw _
  | some point =>
    refine footprint_bind ((engine.footprint_ensurePathCapacity _ _).mono (by simp)) fun _ => ?_
    exact footprint_bind (footprint_rmtree (by simp) _) fun _ => footprint_pure _

theorem footprint_untilJudged (snapshot_id : String) :
    Footprint [.silent, .outside, .ofRestic] (untilJudged engine snapshot_id) :=
  footprint_bind ((footprint_prepare engine _).mono (by simp)) fun _ =>
    (footprint_judge engine _ _).mono (by simp)

/-- The inspection of a restored point judges it and writes the flag. -/
theorem inspectRestored_eq (snapshot_id actor : String) (point : Point) :
    inspectRestored engine snapshot_id actor point (verifyRoot engine snapshot_id) = (do
      let verdict ← judge engine snapshot_id point
      conclude snapshot_id actor verdict) := by
  unfold inspectRestored judge
  simp only [bind_assoc]
  refine congrArg _ (funext fun _ => congrArg _ (funext fun present => ?_))
  cases present with
  | false => rfl
  | true => simp [conclude, report, restoredPath]

/-- Reporting leaves the points alone. -/
theorem footprint_report (snapshot_id actor : String) (verdict : Verdict) :
    Footprint [.silent, .writing .audits] (report snapshot_id actor verdict) := by
  unfold report
  split
  · exact footprint_bind (footprint_audit (by simp) (by simp) _ _ _ _ _) fun _ => footprint_pure _
  · exact footprint_pure _

/-- What a verification does once it has a verdict. -/
def settle (snapshot_id actor : String) (verdict : Verdict) : Prog Bool := do
  let outcome ← (conclude snapshot_id actor verdict).attempt
  rmtree (verifyRoot engine snapshot_id)
  raised outcome

variable {engine} {handler : Handler controller Exn World} {snapshot_id actor : String}
  {world judged : World}

theorem verifyRecoveryPoint_eq (snapshot_id actor : String) :
    verifyRecoveryPoint engine snapshot_id actor = (do
      let point ← prepare engine snapshot_id
      let outcome ← (do
        let verdict ← judge engine snapshot_id point
        conclude snapshot_id actor verdict).attempt
      rmtree (verifyRoot engine snapshot_id)
      raised outcome) := by
  unfold verifyRecoveryPoint prepare
  rw [bind_assoc]
  refine congrArg _ (funext fun found => ?_)
  cases found with
  | none => rfl
  | some point =>
    simp only [bind_assoc, pure_bind, ← inspectRestored_eq]
    rfl

/-- A verification that comes to no verdict goes on to raise, and touches nothing. -/
theorem verify_raised {error : Exn}
    (ran : run handler (untilJudged engine snapshot_id) world = (.error error, judged)) :
    ∃ rest : Prog Bool, Footprint [.silent] rest ∧
      run handler (verifyRecoveryPoint engine snapshot_id actor) world =
        run handler rest judged := by
  rw [verifyRecoveryPoint_eq, run_bind]
  rcases run_bind_cases _ ran with ⟨_, same, early⟩ | ⟨point, ready, prepared, judging⟩
  · exact ⟨throw _, footprint_throw _, by rw [early]; rfl⟩
  · refine ⟨rmtree (verifyRoot engine snapshot_id) >>= fun _ => throw error,
      footprint_bind (footprint_rmtree (by simp) _) fun _ => footprint_throw _, ?_⟩
    rw [prepared]
    dsimp only
    rw [run_bind, run_attempt, run_bind, judging]
    rfl

/-- One that comes to a verdict settles it. -/
theorem verify_judged {verdict : Verdict}
    (ran : run handler (untilJudged engine snapshot_id) world = (.ok verdict, judged)) :
    run handler (verifyRecoveryPoint engine snapshot_id actor) world =
      run handler (settle engine snapshot_id actor verdict) judged := by
  obtain ⟨point, ready, prepared, judging⟩ := (run_bind_eq_ok _).mp ran
  rw [verifyRecoveryPoint_eq, run_bind, prepared, settle]
  dsimp only
  rw [run_bind, run_attempt, run_bind, judging, run_bind, run_attempt]

end Stages

section Flags

variable {engine : Engine} {env : Environment} {faults : Faults} {snapshot_id actor : String}
  {world judged after : World}

/-- A manifest check that succeeded. -/
def Checks (exchange : Exchange controller Exn) : Prop :=
  ∃ root digest errors,
    exchange = ⟨Command.request (.verifyManifest root digest), .ok (true, errors)⟩

/-- A check that failed is none that succeeded. -/
theorem not_checks (root : String) (digest : Option String) (errors : List String) :
    ¬ Checks ⟨Command.request (.verifyManifest root digest), .ok (false, errors)⟩ := by
  rintro ⟨_, _, _, same⟩
  cases same

theorem not_checks_raised (command : Command) (error : Exn) : ¬ Checks ⟨command, .error error⟩ := by
  rintro ⟨_, _, _, same⟩
  cases same

/-- A command that checks no manifest. -/
def Unchecking (command : controller.Command) : Prop :=
  ∀ root digest, command ≠ Command.request (.verifyManifest root digest)

/-- Commands that ask nothing outside check no manifest. -/
theorem issues_unchecking {α : Type} {effects : List Effect} {program : Prog α}
    (footprint : Footprint effects program) (inside : .outside ∉ effects) :
    Issues Unchecking program := by
  unfold Footprint at footprint
  refine issues_mono footprint ?_
  rintro command listed root digest rfl
  exact inside listed

theorem only_unchecking {α : Type} {program : Prog α} {outcome : Except Exn α}
    (issues : Issues Unchecking program)
    (ran : run (faulting env faults) program world = (outcome, after)) :
    Only (fun exchange => ¬ Checks exchange) world after := by
  refine (only_faulting issues ran).mono ?_
  rintro exchange unchecking ⟨root, digest, errors, rfl⟩
  exact unchecking root digest rfl

/-- Up to the restore no manifest is checked. -/
theorem issues_prepare : Issues Unchecking (prepare engine snapshot_id) := by
  refine issues_bind ((issues_perform _).mpr fun root digest same => by cases same) fun found => ?_
  cases found with
  | none => exact issues_throw _
  | some point =>
    refine issues_bind (issues_bind ((issues_perform _).mpr fun root digest same => by cases same)
      fun _ => issues_bind ((issues_perform _).mpr fun root digest same => by cases same)
        fun usage => ?_) fun _ => ?_
    · dsimp only
      split <;> split <;> first | exact issues_throw _ | exact issues_pure _
    · exact issues_bind ((issues_perform _).mpr fun root digest same => by cases same)
        fun _ => issues_pure _

/-- Nor while a point is restored. -/
theorem issues_restore (cfg : RepositoryConfig) (getenv : Environ) (target : String) :
    Issues Unchecking (ResticRepository.restore cfg getenv snapshot_id target none) := by
  refine issues_bind ((issues_perform _).mpr fun root digest same => by cases same) fun _ => ?_
  refine issues_bind (issues_raised _) fun settings => ?_
  refine issues_bind (issues_bind ((issues_perform _).mpr fun root digest same => by cases same)
    fun result => ?_) fun _ => issues_pure _
  split
  · exact issues_throw _
  · exact issues_pure _

/-- The point that is verified is the catalogued one. -/
theorem prepare_ran {point : Point}
    (ran : run (faulting env faults) (prepare engine snapshot_id) world = (.ok point, after)) :
    world.db.livePoint snapshot_id = some point := by
  obtain ⟨found, looked, read, rest⟩ := (run_bind_eq_ok _).mp ran
  rcases run_transact read with ⟨answered, _⟩ | ⟨⟨_, impossible⟩, _⟩
  · obtain rfl : found = world.db.livePoint snapshot_id := Except.ok.inj answered
    cases live : world.db.livePoint snapshot_id with
    | none =>
      rw [live] at rest
      cases rest
    | some stored =>
      rw [live] at rest
      obtain ⟨_, ready, _, rest⟩ := (run_bind_eq_ok _).mp rest
      obtain ⟨_, cleared, _, done⟩ := (run_bind_eq_ok _).mp rest
      rw [Except.ok.inj (congrArg Prod.fst done)]
  · cases impossible

/-- A verdict for a point stands on a check of its manifest that succeeded. -/
theorem judge_ran {point : Point} {outcome : Except Exn Verdict}
    (ran : run (faulting env faults) (judge engine snapshot_id point) world = (outcome, judged)) :
    (∃ verdict errors, outcome = .ok verdict ∧ verdict.ok = true ∧
        Since world [⟨Command.request (.verifyManifest (restoredPath engine snapshot_id point)
          point.manifest_sha256), .ok (true, errors)⟩] judged) ∨
      ((∀ verdict, outcome = .ok verdict → verdict.ok = false) ∧
        Only (fun exchange => ¬ Checks exchange) world judged) := by
  rcases run_bind_cases _ ran with ⟨error, rfl, failed⟩ | ⟨_, restored, restoring, rest⟩
  · exact Or.inr ⟨fun _ impossible => (nomatch impossible), only_unchecking (issues_restore _ _ _)
      failed⟩
  have before := only_unchecking (issues_restore _ _ _) restoring
  rcases run_bind_cases _ rest with ⟨error, rfl, failed⟩ | ⟨present, looked, looking, rest⟩
  · exact Or.inr ⟨fun _ impossible => (nomatch impossible), before.trans
      (only_perform (not_checks_raised _ _) failed)⟩
  have looked_for : Only (fun exchange => ¬ Checks exchange) restored looked := by
    refine only_perform ?_ looking
    rintro ⟨_, _, _, same⟩
    cases same
  cases present with
  | false =>
    cases rest
    exact Or.inr ⟨fun verdict same => Except.ok.inj same ▸ rfl, before.trans looked_for⟩
  | true =>
    rcases run_bind_cases _ rest with ⟨error, rfl, failed⟩ | ⟨found, checked, checking, rest⟩
    · exact Or.inr ⟨fun _ impossible => (nomatch impossible),
        (before.trans looked_for).trans (only_perform (not_checks_raised _ _) failed)⟩
    · cases rest
      obtain ⟨ok, errors⟩ := found
      cases ok with
      | true =>
        have since := since_perform (since_faulting (since_faulting (Since.refl world) restoring)
          looking) checking
        exact Or.inl ⟨_, errors, rfl, rfl, since⟩
      | false =>
        refine Or.inr ⟨fun verdict same => Except.ok.inj same ▸ rfl,
          (before.trans looked_for).trans (only_perform (not_checks _ _ _) checking)⟩

/-- The same for a verification up to its verdict. -/
theorem untilJudged_ran {outcome : Except Exn Verdict}
    (ran : run (faulting env faults) (untilJudged engine snapshot_id) world = (outcome, judged)) :
    (∃ verdict point errors, outcome = .ok verdict ∧ verdict.ok = true ∧
        world.db.livePoint snapshot_id = some point ∧
        Since world [⟨Command.request (.verifyManifest (restoredPath engine snapshot_id point)
          point.manifest_sha256), .ok (true, errors)⟩] judged) ∨
      ((∀ verdict, outcome = .ok verdict → verdict.ok = false) ∧
        Only (fun exchange => ¬ Checks exchange) world judged) := by
  rcases run_bind_cases _ ran with ⟨error, rfl, failed⟩ | ⟨point, ready, prepared, judging⟩
  · exact Or.inr ⟨fun _ impossible => (nomatch impossible), only_unchecking issues_prepare failed⟩
  rcases judge_ran judging with ⟨verdict, errors, answered, good, since⟩ | ⟨bad, only⟩
  · have behind : world.log <+: ready.log := by
      obtain ⟨later, split, _⟩ := only_unchecking issues_prepare prepared
      exact ⟨later, split.symm⟩
    exact Or.inl ⟨verdict, point, errors, answered, good, prepare_ran prepared,
      since.earlier behind⟩
  · exact Or.inr ⟨bad, (only_unchecking issues_prepare prepared).trans only⟩

/-- Updating a catalogued point sets its flag, or fails and leaves the points. -/
theorem run_updateVerified {verified : Bool} {metadata : Dict} {clock : Prog (Option Timestamp)}
    {row : PointRow} {answer : Except Exn Unit} (footprint : Footprint [.silent] clock)
    (there : world.db.points.lookup snapshot_id = some row)
    (ran : run (faulting env faults) (clock >>= fun verified_at =>
      transact (.updateVerified snapshot_id verified verified_at metadata)) world =
        (answer, after)) :
    (answer = .ok () ∧ ∃ row, after.db.points.lookup snapshot_id = some row ∧
      row.verified = verified) ∨
    ((∃ error, answer = .error error) ∧ after.db.points = world.db.points) := by
  rcases run_bind_cases _ ran with ⟨error, rfl, failed⟩ | ⟨verified_at, timed, timing, rest⟩
  · exact Or.inr ⟨⟨error, rfl⟩,
      same_faulting footprint (by simp : Effect.writing .points ∉ _) failed⟩
  · have same : timed.db.points = world.db.points :=
      same_faulting footprint (by simp : Effect.writing .points ∉ _) timing
    rcases run_transact rest with ⟨answered, committed⟩ | ⟨raised, nothing⟩
    · refine Or.inl ⟨answered, { row with
        verified := verified, verified_at := verified_at, metadata := metadata }, ?_, rfl⟩
      rw [committed]
      change (timed.db.points.modify snapshot_id _).lookup snapshot_id = _
      rw [Tables.Keyed.lookup_modify, if_pos rfl, same, there]
      rfl
    · exact Or.inr ⟨raised, (congrArg Database.points nothing).trans same⟩

/-- Writing the flag of a point sets it to the verdict, or fails and leaves the points. -/
theorem run_markVerified {verified : Bool} {details : Dict} {answer : Except Exn Unit}
    (ran : run (faulting env faults) (markVerified snapshot_id verified details) world =
      (answer, after)) :
    (answer = .ok () ∧ ∃ row, after.db.points.lookup snapshot_id = some row ∧
      row.verified = verified) ∨
    ((∃ error, answer = .error error) ∧ after.db.points = world.db.points) := by
  have reading : Footprint [.silent] (transact (.selectMetadata snapshot_id)) :=
    footprint_reading rfl (by simp)
  rcases run_bind_cases _ ran with ⟨error, rfl, failed⟩ | ⟨found, looked, read, rest⟩
  · exact Or.inr ⟨⟨error, rfl⟩, same_faulting reading (by simp : Effect.writing .points ∉ _) failed⟩
  have same : looked.db.points = world.db.points :=
    same_faulting reading (by simp : Effect.writing .points ∉ _) read
  rcases run_transact read with ⟨answered, _⟩ | ⟨⟨_, impossible⟩, _⟩
  · obtain rfl : found = (world.db.points.lookup snapshot_id).map (·.metadata) :=
      Except.ok.inj answered
    cases there : world.db.points.lookup snapshot_id with
    | none =>
      rw [there] at rest
      cases rest
      exact Or.inr ⟨⟨_, rfl⟩, same⟩
    | some row =>
      rw [there] at rest
      have there : looked.db.points.lookup snapshot_id = some row := same ▸ there
      rw [← same]
      cases verified with
      | true =>
        have clock : Footprint [.silent] (do return some (← utcnow) : Prog (Option Timestamp)) :=
          footprint_bind (footprint_utcnow (by simp)) fun _ => footprint_pure _
        exact run_updateVerified clock there rest
      | false =>
        exact run_updateVerified (footprint_pure none) there rest
  · cases impossible

/-- Settling checks no manifest. -/
theorem footprint_settle (verdict : Verdict) :
    Footprint [.silent, .writing .points, .writing .audits]
      (settle engine snapshot_id actor verdict) := by
  refine footprint_bind (footprint_attempt (footprint_bind ((footprint_markVerified _ _ _).mono
    (by simp)) fun _ => (footprint_report _ _ _).mono (by simp))) fun outcome => ?_
  exact footprint_bind (footprint_rmtree (by simp) _) fun _ => footprint_raised _

/-- A verdict that is settled stands in the flag, or could not be written. -/
theorem settle_ran {verdict : Verdict} {outcome : Except Exn Bool}
    (ran : run (faulting env faults) (settle engine snapshot_id actor verdict) judged =
      (outcome, after)) :
    ((run (faulting env faults) (markVerified snapshot_id verdict.ok verdict.details) judged).1 =
        .ok () ∧
      ∃ row, after.db.points.lookup snapshot_id = some row ∧ row.verified = verdict.ok) ∨
    ((run (faulting env faults) (markVerified snapshot_id verdict.ok verdict.details) judged).1 ≠
        .ok () ∧ after.db.points = judged.db.points) := by
  have clearing : ∀ outcome : Except Exn Bool, Footprint [.silent]
      (rmtree (verifyRoot engine snapshot_id) >>= fun _ => raised outcome) := fun outcome =>
    footprint_bind (footprint_rmtree (by simp) _) fun _ => footprint_raised _
  rw [settle, run_bind, run_attempt] at ran
  cases concluding : run (faulting env faults) (conclude snapshot_id actor verdict) judged with
  | mk answer concluded =>
    rw [concluding] at ran
    have cleared : after.db.points = concluded.db.points :=
      same_faulting (clearing answer) (by simp : Effect.writing .points ∉ _) ran
    rw [cleared]
    have stays : ∀ middle, run (faulting env faults) (report snapshot_id actor verdict) middle =
        (answer, concluded) →
        (∃ row, middle.db.points.lookup snapshot_id = some row ∧ row.verified = verdict.ok) →
        ∃ row, concluded.db.points.lookup snapshot_id = some row ∧ row.verified = verdict.ok := by
      rintro middle rest ⟨row, found, agrees⟩
      have same : concluded.db.points = middle.db.points :=
        same_faulting (footprint_report _ _ _) (by simp : Effect.writing .points ∉ _) rest
      exact ⟨row, same ▸ found, agrees⟩
    rcases run_marked (fun _ _ => run_markVerified) stays concluding with written | ⟨unwritten, -, same⟩
    · exact Or.inl written
    · exact Or.inr ⟨unwritten, same⟩

/-- After a call the flag says no more than the call has found: a point that counts as verified
had its manifest checked in this call. -/
def Current (engine : Engine) (env : Environment) (faults : Faults) (snapshot_id actor : String)
    (world : World) : Prop :=
  ∀ outcome after row,
    run (faulting env faults) (verifyRecoveryPoint engine snapshot_id actor) world =
      (outcome, after) →
    after.db.points.lookup snapshot_id = some row → row.verified = true →
    ∃ point errors, world.db.livePoint snapshot_id = some point ∧
      Since world [⟨Command.request (.verifyManifest (restoredPath engine snapshot_id point)
        point.manifest_sha256), .ok (true, errors)⟩] after

/-- A point that counts as verified gets a verdict, and a verdict against it is written. -/
def Concluded (engine : Engine) (env : Environment) (faults : Faults) (snapshot_id : String)
    (world : World) : Prop :=
  ∀ row, world.db.points.lookup snapshot_id = some row → row.verified = true →
    ∃ verdict judged,
      run (faulting env faults) (untilJudged engine snapshot_id) world = (.ok verdict, judged) ∧
      (verdict.ok = false → (run (faulting env faults)
        (markVerified snapshot_id false verdict.details) judged).1 = .ok ())

/-- After a call that neither wrote the flag nor checked a manifest, the flag is current only if
the point did not count as verified. -/
theorem current_untouched (untouched : ∀ outcome after, run (faulting env faults)
      (verifyRecoveryPoint engine snapshot_id actor) world = (outcome, after) →
      after.db.points = world.db.points ∧ Only (fun exchange => ¬ Checks exchange) world after) :
    Current engine env faults snapshot_id actor world ↔
      ∀ row, world.db.points.lookup snapshot_id = some row → row.verified ≠ true := by
  constructor
  · intro current row found verified
    obtain ⟨same, only⟩ := untouched _ _ rfl
    obtain ⟨point, errors, _, since⟩ := current _ _ row rfl (same ▸ found) verified
    exact only.since since _ (List.mem_singleton.mpr rfl) ⟨_, _, _, rfl⟩
  · intro unverified outcome after row ran found verified
    obtain ⟨same, _⟩ := untouched outcome after ran
    exact absurd verified (unverified row (same ▸ found))

/-- A call that checked the manifest leaves a current flag. -/
theorem current_checked {verdict : Verdict} {point : Point} {errors : List String}
    (judging : run (faulting env faults) (untilJudged engine snapshot_id) world =
      (.ok verdict, judged)) (live : world.db.livePoint snapshot_id = some point)
    (since : Since world [⟨Command.request (.verifyManifest (restoredPath engine snapshot_id point)
      point.manifest_sha256), .ok (true, errors)⟩] judged) :
    Current engine env faults snapshot_id actor world := by
  have settling := @verify_judged engine (faulting env faults) snapshot_id actor world judged
    verdict judging
  intro outcome after row ran _ _
  exact ⟨point, errors, live, since_faulting since (settling ▸ ran)⟩

/-- A call that comes to no verdict leaves the flag as it was. -/
theorem current_raised_iff {error : Exn}
    (judging : run (faulting env faults) (untilJudged engine snapshot_id) world =
      (.error error, judged)) (only : Only (fun exchange => ¬ Checks exchange) world judged) :
    Current engine env faults snapshot_id actor world ↔
      Concluded engine env faults snapshot_id world := by
  obtain ⟨rest, quiet, same⟩ := @verify_raised engine (faulting env faults) snapshot_id actor
    world judged error judging
  have kept : judged.db.points = world.db.points :=
    same_faulting (footprint_untilJudged engine snapshot_id)
      (by simp : Effect.writing .points ∉ _) judging
  rw [current_untouched fun outcome after ran => ?_]
  · constructor
    · exact fun unverified row found verified => absurd verified (unverified row found)
    · intro concluded row found verified
      obtain ⟨verdict, _, again, _⟩ := concluded row found verified
      cases judging.symm.trans again
  · have points : after.db.points = judged.db.points :=
      same_faulting quiet (by simp : Effect.writing .points ∉ _) (same ▸ ran)
    exact ⟨points.trans kept,
      only.trans (only_unchecking (issues_unchecking quiet (by simp)) (same ▸ ran))⟩

/-- A verdict against the point makes the flag current when it can be written. -/
theorem current_against_iff {verdict : Verdict}
    (judging : run (faulting env faults) (untilJudged engine snapshot_id) world =
      (.ok verdict, judged)) (against : verdict.ok = false)
    (only : Only (fun exchange => ¬ Checks exchange) world judged) :
    Current engine env faults snapshot_id actor world ↔
      Concluded engine env faults snapshot_id world := by
  have settling := @verify_judged engine (faulting env faults) snapshot_id actor world judged
    verdict judging
  have kept : judged.db.points = world.db.points :=
    same_faulting (footprint_untilJudged engine snapshot_id)
      (by simp : Effect.writing .points ∉ _) judging
  cases settled : run (faulting env faults) (settle engine snapshot_id actor verdict) judged with
  | mk result final =>
    have ended : ∀ {outcome after}, run (faulting env faults)
        (verifyRecoveryPoint engine snapshot_id actor) world = (outcome, after) →
        result = outcome ∧ final = after := by
      intro outcome after ran
      simpa only [Prod.mk.injEq] using settled.symm.trans (settling.symm.trans ran)
    rcases settle_ran settled with ⟨written, stored, there, agrees⟩ | ⟨unwritten, same⟩
    · constructor
      · exact fun _ row _ _ => ⟨verdict, judged, judging, fun _ => against ▸ written⟩
      · intro _ outcome after row ran found verified
        obtain ⟨rfl, rfl⟩ := ended ran
        obtain rfl : stored = row := Option.some.inj (there.symm.trans found)
        rw [agrees, against] at verified
        cases verified
    · rw [current_untouched fun outcome after ran => ?_]
      · constructor
        · exact fun unverified row found verified => absurd verified (unverified row found)
        · intro concluded row found verified
          obtain ⟨named, reached, again, wrote⟩ := concluded row found verified
          obtain ⟨rfl, rfl⟩ : verdict = named ∧ judged = reached := by
            simpa only [Prod.mk.injEq, Except.ok.injEq] using judging.symm.trans again
          rw [against] at unwritten
          exact absurd (wrote against) unwritten
      · obtain ⟨rfl, rfl⟩ := ended ran
        exact ⟨same.trans kept, only.trans (only_unchecking
          (issues_unchecking (footprint_settle verdict) (by simp)) settled)⟩

/-- The flag is current after a call exactly when a point that counted as verified got a verdict
and a verdict against it was written. -/
theorem current_iff : Current engine env faults snapshot_id actor world ↔
    Concluded engine env faults snapshot_id world := by
  cases judging : run (faulting env faults) (untilJudged engine snapshot_id) world with
  | mk outcome judged =>
    rcases untilJudged_ran judging with ⟨verdict, point, errors, rfl, good, live, since⟩ | ⟨bad, only⟩
    · constructor
      · intro _ row _ _
        refine ⟨verdict, judged, judging, fun against => ?_⟩
        rw [good] at against
        cases against
      · exact fun _ => current_checked judging live since
    · cases outcome with
      | error error => exact current_raised_iff judging only
      | ok verdict => exact current_against_iff judging (bad verdict rfl) only

/-- A world in which the repository cannot be read. -/
def unreadable : Environment where
  answer := fun _ external => match external with
    | .run (.restic (.restore ..)) _ _ => .ok { returncode := 1 }
    | external => .ok (Environment.favourable external)
  elapsed := fun _ _ => 1

/-- The manifest of a restored point was verified. -/
def verifiesManifest : Exchange controller Exn → Bool
  | ⟨.request (.verifyManifest ..), _⟩ => true
  | _ => false

/-- A point that was verified once is verified still when it cannot be restored any more. -/
theorem unreadable_point_verified :
    ¬ Current vault unreadable (fun _ _ => none) "4f1c" "cli" { db := catalogue, clock := 0 } := by
  intro current
  have never : (run (faulting unreadable fun _ _ => none) (verifyRecoveryPoint vault "4f1c" "cli")
      { db := catalogue, clock := 0 }).2.log.all (fun exchange => ! verifiesManifest exchange) =
        true := by decide
  have flag : ((run (faulting unreadable fun _ _ => none) (verifyRecoveryPoint vault "4f1c" "cli")
      { db := catalogue, clock := 0 }).2.db.points.lookup "4f1c").map (·.verified) = some true := by
    decide
  cases ran : run (faulting unreadable fun _ _ => none) (verifyRecoveryPoint vault "4f1c" "cli")
      { db := catalogue, clock := 0 } with
  | mk outcome after =>
    rw [ran] at never flag
    obtain ⟨row, found, verified⟩ := Option.map_eq_some_iff.mp flag
    obtain ⟨point, errors, _, later, split, inside⟩ := current _ _ row ran found verified
    have member := inside.mem (List.mem_singleton.mpr rfl)
    have judged := List.all_eq_true.mp never _ (split ▸ List.mem_append_right _ member)
    exact absurd judged (by simp [verifiesManifest])

end Flags

end Immutavault.Verifications
