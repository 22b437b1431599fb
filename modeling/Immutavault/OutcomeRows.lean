import Immutavault.JobOutcomes

/-!
# Rows that record outcomes

A backup records its outcome in its job, a restore in its request. Both record
success in the middle of what they do, go on with steps that may fail, and record
failure over it when one of them does. The row then says that nothing was done,
although the recovery point is in the catalogue, or the machine was created.

A restore is followed here through its stages as a backup is, and the two are put
together.
-/

namespace Immutavault.OutcomeRows

open Programs Values Timestamps Catalog Machine Histories Configuration ResticRepository
open StateDatabase RestoreEngine Backups FaultyRuns JobOutcomes

section Requests

variable (engine : Engine) {env : Environment} {faults : Faults}

/-- The request was started since the call began. -/
def Started (start : World) (request_id : Nat) (now : World) : Prop :=
  ∃ moment, Since start
    [⟨Command.transact (.startRequest request_id moment), (.ok () : Except Exn Unit)⟩] now

/-- A machine was created since the call began: the transport or the conversion provider
returned a result. -/
def Created (start now : World) : Prop :=
  ∃ exchange : Exchange controller Exn, Since start [exchange] now ∧
    Command.effect exchange.1 = .creation ∧ ∃ result, exchange.2 = .ok result

/-- The row of a started request agrees with what happened. -/
def RequestAgrees (start : World) (request_id : Nat) (now : World) : Prop :=
  Started start request_id now →
    ((∃ row, now.db.requests.lookup request_id = some row ∧ row.status = .success) ↔
      Created start now)

/-- The two rows a restore may end with. -/
def recordRestored (prepared : Engine.Prepared) (result : Dict) : Prog Unit :=
  finishRestore prepared.request_id true result none

def recordUnrestored (prepared : Engine.Prepared) (error : Exn) : Prog Unit :=
  finishRestore prepared.request_id false [] (some error.message)

/-- What follows once a restore is recorded. -/
def concludeRestore (prepared : Engine.Prepared) (actor : String) (result : Dict) :
    Prog Dict := do
  audit actor (prepared.actionFamily ++ ".complete") "restore_request"
    (toString prepared.request_id) result
  rmtree (engine.restoreRoot prepared.request_id)
  return result

/-- Record a restore, and everything after it. -/
def settleRestore (prepared : Engine.Prepared) (actor : String) (result : Dict) : Prog Dict := do
  recordRestored prepared result
  concludeRestore engine prepared actor result

/-- What follows once a failed restore is recorded: it is raised again. -/
def raiseAgain (prepared : Engine.Prepared) (actor : String) (error : Exn) : Prog Dict := do
  audit actor (prepared.actionFamily ++ ".failed") "restore_request"
    (toString prepared.request_id) (Engine.failureDetails prepared error)
  if ¬ engine.cfg.runtime.keep_staging_on_failure then
    rmtree (engine.restoreRoot prepared.request_id)
  throw error

theorem performRestore_eq (prepared : Engine.Prepared) (target_name actor : String) :
    engine.performRestore prepared target_name actor = (do
      engine.fetchSource prepared
      let result ← engine.createMachine prepared target_name
      settleRestore engine prepared actor result) := rfl

/-- A restore up to the creation of its machine. -/
def creating (request_id : Nat) (actor : String) : Prog (Engine.Prepared × Dict) := do
  let prepared ← engine.prepareRestore request_id actor
  let req ← startRestore prepared.request_id actor
  engine.fetchSource prepared
  let result ← engine.createMachine prepared req.target_name
  return (prepared, result)

/-- A restore that creates its machine settles from there. -/
def RestoreSettles (handler : Handler controller Exn World) (request_id : Nat) (actor : String)
    (dry_run : Bool) (world : World) : Prop :=
  dry_run = false → ∀ prepared result middle,
    run handler (creating engine request_id actor) world = (.ok (prepared, result), middle) →
    Settled handler (settleRestore engine prepared actor result) (recordRestored prepared result)
      (recordUnrestored prepared) middle

theorem footprint_concludeRestore (prepared : Engine.Prepared) (actor : String) (result : Dict) :
    Footprint [.silent, .writing .audits] (concludeRestore engine prepared actor result) := by
  refine footprint_bind (footprint_audit (by simp) (by simp) _ _ _ _ _) fun _ => ?_
  exact footprint_bind (footprint_rmtree (by simp) _) fun _ => footprint_pure _

theorem footprint_raiseAgain (prepared : Engine.Prepared) (actor : String) (error : Exn) :
    Footprint [.silent, .writing .audits] (raiseAgain engine prepared actor error) := by
  refine footprint_bind (footprint_audit (by simp) (by simp) _ _ _ _ _) fun _ => ?_
  dsimp only
  split
  · exact footprint_bind (footprint_rmtree (by simp) _) fun _ => footprint_throw _
  · exact footprint_throw _

/-- An exchange that starts no request. -/
def Unstarting (exchange : Exchange controller Exn) : Prop :=
  ∀ request_id moment, exchange ≠
    ⟨Command.transact (.startRequest request_id moment), (.ok () : Except Exn Unit)⟩

/-- Effects that leave requests alone start none. -/
theorem only_unstarting {effects : List Effect} {start now : World}
    (only : Only (fun exchange => Command.effect exchange.1 ∈ effects) start now)
    (unwritten : .writing .requests ∉ effects) : Only Unstarting start now := by
  refine only.mono ?_
  rintro exchange listed request_id moment rfl
  exact unwritten listed

theorem not_started {start now : World} (only : Only Unstarting start now) (request_id : Nat) :
    ¬ Started start request_id now := by
  rintro ⟨moment, since⟩
  exact only.since since _ (List.mem_singleton.mpr rfl) request_id moment rfl

/-- An exchange that creates no machine. -/
def Uncreating (exchange : Exchange controller Exn) : Prop :=
  Command.effect exchange.1 = .creation → ∀ result, exchange.2 ≠ .ok result

theorem only_uncreating {effects : List Effect} {start now : World}
    (only : Only (fun exchange => Command.effect exchange.1 ∈ effects) start now)
    (absent : .creation ∉ effects) : Only Uncreating start now :=
  only.mono fun _ listed creates => absurd (creates ▸ listed) absent

theorem not_created {start now : World} (only : Only Uncreating start now) :
    ¬ Created start now := by
  rintro ⟨exchange, since, creates, result, answered⟩
  exact only.since since exchange (List.mem_singleton.mpr rfl) creates result answered

theorem Created.ran {α : Type} {start now after : World} {program : Prog α}
    {outcome : Except Exn α} (created : Created start now)
    (ran : run (faulting env faults) program now = (outcome, after)) : Created start after := by
  obtain ⟨exchange, since, creates, answered⟩ := created
  exact ⟨exchange, since_faulting since ran, creates, answered⟩

theorem Started.ran {α : Type} {start now after : World} {request_id : Nat} {program : Prog α}
    {outcome : Except Exn α} (started : Started start request_id now)
    (ran : run (faulting env faults) program now = (outcome, after)) :
    Started start request_id after := by
  obtain ⟨moment, since⟩ := started
  exact ⟨moment, since_faulting since ran⟩

/-- Creating a machine returns exactly when the world was asked and answered. -/
theorem createMachine_returns {prepared : Engine.Prepared} {target_name : String}
    {start world after : World} {result : Dict} (since : Since start [] world)
    (ran : run (faulting env faults) (engine.createMachine prepared target_name) world =
      (.ok result, after)) : Created start after := by
  unfold Engine.createMachine at ran
  dsimp only at ran
  split at ran
  · obtain ⟨created, middle, asked, rest⟩ := (run_bind_eq_ok _).mp ran
    cases rest
    exact ⟨_, since_perform since asked, rfl, created, rfl⟩
  · obtain ⟨created, middle, asked, rest⟩ := (run_bind_eq_ok _).mp ran
    cases rest
    exact ⟨_, since_perform since asked, rfl, created, rfl⟩

theorem createMachine_raises {prepared : Engine.Prepared} {target_name : String}
    {world after : World} {error : Exn}
    (ran : run (faulting env faults) (engine.createMachine prepared target_name) world =
      (.error error, after)) : Only Uncreating world after := by
  unfold Engine.createMachine at ran
  dsimp only at ran
  split at ran
  · rcases run_bind_cases _ ran with ⟨_, _, asked⟩ | ⟨_, _, _, rest⟩
    · exact only_perform (fun _ result impossible => by cases impossible) asked
    · cases rest
  · rcases run_bind_cases _ ran with ⟨_, _, asked⟩ | ⟨_, _, _, rest⟩
    · exact only_perform (fun _ result impossible => by cases impossible) asked
    · cases rest

/-- Finishing a request changes its row, or fails and leaves it. -/
theorem run_finishRestore {request_id : Nat} {success : Bool} {result : Dict}
    {error : Option String} {row : RequestRow} {world middle : World} {answer : Except Exn Unit}
    (there : world.db.requests.lookup request_id = some row)
    (ran : run (faulting env faults) (finishRestore request_id success result error) world =
      (answer, middle)) :
    (answer = .ok () ∧ ∃ finished, middle.db.requests.lookup request_id = some finished ∧
      finished.status = if success then .success else .failed) ∨
    ((∃ raised, answer = .error raised) ∧
      middle.db.requests.lookup request_id = some row) := by
  rw [finishRestore, run_bind] at ran
  rcases run_transact ran with ⟨answered, committed⟩ | ⟨raised, nothing⟩
  · refine Or.inl ⟨answered, ?_⟩
    refine ⟨{ row with
      status := if success then .success else .failed
      finished_at := some world.clock, result := some result, error := error }, ?_, rfl⟩
    rw [committed]
    change (world.db.requests.modify request_id _).lookup request_id = _
    rw [Tables.Numbered.lookup_modify, if_pos rfl, there]
    rfl
  · refine Or.inr ⟨raised, ?_⟩
    rw [nothing]
    exact there

/-- A program that first finishes a request, and then does not touch requests. -/
theorem run_finishingRestore {effects : List Effect} {α : Type} {next : Prog α}
    {request_id : Nat} {success : Bool} {result : Dict} {error : Option String}
    {row : RequestRow} {world after : World} {outcome : Except Exn α}
    (footprint : Footprint effects next) (unwritten : .writing .requests ∉ effects)
    (there : world.db.requests.lookup request_id = some row)
    (ran : run (faulting env faults)
      (finishRestore request_id success result error >>= fun _ => next) world =
        (outcome, after)) :
    ((run (faulting env faults) (finishRestore request_id success result error) world).1 =
        .ok () ∧
      ∃ finished, after.db.requests.lookup request_id = some finished ∧
        finished.status = if success then .success else .failed) ∨
    ((run (faulting env faults) (finishRestore request_id success result error) world).1 ≠
        .ok () ∧
      (∃ raised, outcome = .error raised) ∧
      after.db.requests.lookup request_id = some row) := by
  refine run_marked (fun answer middle => run_finishRestore there) ?_ ran
  rintro middle rest ⟨finished, found, agrees⟩
  have same : after.db.requests = middle.db.requests := same_faulting footprint unwritten rest
  exact ⟨finished, same ▸ found, agrees⟩

/-- A request is started and running, or it is not and the program raises. -/
theorem run_startRestore {request_id : Nat} {actor : String} {start world after : World}
    {outcome : Except Exn RequestRow} (since : Since start [] world)
    (ran : run (faulting env faults) (startRestore request_id actor) world = (outcome, after)) :
    (Started start request_id after ∧
      ∃ row, after.db.requests.lookup request_id = some row ∧ row.status = .running) ∨
    ((∃ error, outcome = .error error) ∧ Only Unstarting world after) := by
  have reading : Footprint [.silent] (getRestoreRequest request_id) :=
    footprint_reading rfl (by simp)
  rcases run_bind_cases _ ran with ⟨error, rfl, read⟩ | ⟨found, looked, read, rest⟩
  · exact Or.inr ⟨⟨error, rfl⟩, only_unstarting (only_faulting reading read) (by simp)⟩
  have looking := only_unstarting (only_faulting reading read) (by simp)
  cases found with
  | none =>
    cases rest
    exact Or.inr ⟨⟨_, rfl⟩, looking⟩
  | some req =>
    dsimp only at rest
    split at rest
    · cases rest
      exact Or.inr ⟨⟨_, rfl⟩, looking⟩
    rcases run_bind_cases _ rest with ⟨error, _, timed⟩ | ⟨now, timed, clock, rest⟩
    · cases timed
    have timing := only_unstarting (only_faulting
      (footprint_utcnow (by simp : Effect.silent ∈ [Effect.silent])) clock) (by simp)
    have there : timed.db.requests.lookup request_id = some req := by
      have same : timed.db = looked.db := by
        cases clock
        rfl
      rcases run_transact read with ⟨answered, unchanged⟩ | ⟨⟨_, impossible⟩, _⟩
      · rw [same, unchanged]
        exact (Except.ok.inj answered).symm
      · cases impossible
    rcases run_bind_cases _ rest with ⟨error, rfl, started⟩ | ⟨_, running, started, rest⟩
    · refine Or.inr ⟨⟨error, rfl⟩, (looking.trans timing).trans (only_perform ?_ started)⟩
      intro other moment same
      cases same
    · -- From here on the request is started, and nothing else touches it.
      have starts : Since start
          [⟨Command.transact (.startRequest request_id now), (.ok () : Except Exn Unit)⟩]
          running :=
        since_perform (since_faulting (since_faulting since read) clock) started
      have after_start : Footprint [.silent, .writing .audits] (do
          audit actor "restore.execute" "restore_request" (toString request_id) []
          let started ← getRestoreRequest request_id
          return started.getD req) := by
        refine footprint_bind (footprint_audit (by simp) (by simp) _ _ _ _ _) fun _ => ?_
        exact footprint_bind (reading.mono (by simp)) fun _ => footprint_pure _
      have same : after.db.requests = running.db.requests :=
        same_faulting after_start (by simp : Effect.writing .requests ∉ _) rest
      refine Or.inl ⟨Started.ran ⟨now, starts⟩ rest, { req with
        status := .running, started_at := some now }, ?_, rfl⟩
      rcases run_transact started with ⟨_, committed⟩ | ⟨⟨_, impossible⟩, _⟩
      · rw [same, committed]
        change (timed.db.requests.modify request_id _).lookup request_id = _
        rw [Tables.Numbered.lookup_modify, if_pos rfl, there]
        rfl
      · cases impossible

/-- Settling records the restore, or raises and leaves the row. -/
theorem run_settleRestore {prepared : Engine.Prepared} {actor : String} {result : Dict}
    {row : RequestRow} {world after : World} {outcome : Except Exn Dict}
    (there : world.db.requests.lookup prepared.request_id = some row)
    (ran : run (faulting env faults) (settleRestore engine prepared actor result) world =
      (outcome, after)) :
    ((run (faulting env faults) (recordRestored prepared result) world).1 = .ok () ∧
      ∃ finished, after.db.requests.lookup prepared.request_id = some finished ∧
        finished.status = .success) ∨
    ((run (faulting env faults) (recordRestored prepared result) world).1 ≠ .ok () ∧
      (∃ raised, outcome = .error raised) ∧
      after.db.requests.lookup prepared.request_id = some row) :=
  run_finishingRestore (footprint_concludeRestore engine prepared actor result) (by simp) there ran

/-- A failure is recorded over the row, or the row stays. -/
theorem run_recordFailure {prepared : Engine.Prepared} {actor : String} {error : Exn}
    {row : RequestRow} {world after : World} {outcome : Except Exn Dict}
    (there : world.db.requests.lookup prepared.request_id = some row)
    (ran : run (faulting env faults) (engine.recordFailure prepared actor error) world =
      (outcome, after)) :
    ((run (faulting env faults) (recordUnrestored prepared error) world).1 = .ok () ∧
      ∃ finished, after.db.requests.lookup prepared.request_id = some finished ∧
        finished.status = .failed) ∨
    ((run (faulting env faults) (recordUnrestored prepared error) world).1 ≠ .ok () ∧
      (∃ raised, outcome = .error raised) ∧
      after.db.requests.lookup prepared.request_id = some row) :=
  run_finishingRestore (footprint_raiseAgain engine prepared actor error) (by simp) there ran

/-- A running request whose restore fails before the machine is created agrees. -/
theorem agrees_uncreated {prepared : Engine.Prepared} {actor : String} {error : Exn}
    {row : RequestRow} {start failed after : World} {outcome : Except Exn Dict}
    (there : failed.db.requests.lookup prepared.request_id = some row)
    (running : row.status = .running) (uncreated : Only Uncreating start failed)
    (concluded : run (faulting env faults) (engine.recordFailure prepared actor error) failed =
      (outcome, after)) : RequestAgrees start prepared.request_id after := by
  intro _
  have recording := only_uncreating (only_faulting
    (engine.footprint_recordFailure prepared actor error) concluded) (by simp)
  refine iff_of_false ?_ (not_created (uncreated.trans recording))
  rintro ⟨shown, found, success⟩
  rcases run_recordFailure engine there concluded with ⟨_, finished, again, fails⟩ | ⟨_, _, again⟩
  · cases found.symm.trans again
    cases success.symm.trans fails
  · cases found.symm.trans again
    cases success.symm.trans running

/-- Once the machine is created, the row agrees exactly when the rest settles. -/
theorem agrees_created {prepared : Engine.Prepared} {actor : String} {result : Dict}
    {row : RequestRow} {start middle between after : World} {settled outcome : Except Exn Dict}
    (there : middle.db.requests.lookup prepared.request_id = some row)
    (running : row.status = .running) (started : Started start prepared.request_id middle)
    (created : Created start middle)
    (ran : run (faulting env faults) (settleRestore engine prepared actor result) middle =
      (settled, between))
    (concluded : (∃ value, settled = .ok value ∧ after = between) ∨
      ∃ error, settled = .error error ∧ run (faulting env faults)
        (engine.recordFailure prepared actor error) between = (outcome, after)) :
    RequestAgrees start prepared.request_id after ↔
      Settled (faulting env faults) (settleRestore engine prepared actor result)
        (recordRestored prepared result) (recordUnrestored prepared) middle := by
  rcases concluded with ⟨value, rfl, rfl⟩ | ⟨error, rfl, failed⟩
  · refine iff_of_true ?_ (settled_returned ran)
    intro _
    rcases run_settleRestore engine there ran with ⟨_, succeeded⟩ | ⟨_, ⟨_, impossible⟩, _⟩
    · exact iff_of_true succeeded (created.ran ran)
    · cases impossible
  · have begun := (started.ran ran).ran failed
    have made := (created.ran ran).ran failed
    have agrees : RequestAgrees start prepared.request_id after ↔
        ∃ row, after.db.requests.lookup prepared.request_id = some row ∧
          row.status = .success := by
      constructor
      · exact fun holds => (holds begun).mpr made
      · exact fun succeeded _ => iff_of_true succeeded made
    rw [agrees, settled_raised ran]
    rcases run_settleRestore engine there ran with
      ⟨recorded, shown, found, success⟩ | ⟨missed, _, left⟩
    · rcases run_recordFailure engine found failed with
        ⟨overwritten, finished, again, fails⟩ | ⟨kept, _, again⟩
      · refine iff_of_false ?_ fun holds => holds.2 overwritten
        rintro ⟨other, same, succeeded⟩
        cases again.symm.trans same
        cases fails.symm.trans succeeded
      · exact iff_of_true ⟨shown, again, success⟩ ⟨recorded, kept⟩
    · refine iff_of_false ?_ fun holds => missed holds.1
      rintro ⟨other, same, succeeded⟩
      rcases run_recordFailure engine left failed with
        ⟨_, finished, again, fails⟩ | ⟨_, _, again⟩
      · cases again.symm.trans same
        cases fails.symm.trans succeeded
      · cases again.symm.trans same
        cases running.symm.trans succeeded

/-- A restore up to its creation runs through its stages. -/
theorem run_creating {request_id : Nat} {actor : String} {prepared : Engine.Prepared}
    {result : Dict} {world final : World}
    (ran : run (faulting env faults) (creating engine request_id actor) world =
      (.ok (prepared, result), final)) :
    ∃ ready req running fetched,
      run (faulting env faults) (engine.prepareRestore request_id actor) world =
        (.ok prepared, ready) ∧
      run (faulting env faults) (startRestore prepared.request_id actor) ready =
        (.ok req, running) ∧
      run (faulting env faults) (engine.fetchSource prepared) running = (.ok (), fetched) ∧
      run (faulting env faults) (engine.createMachine prepared req.target_name) fetched =
        (.ok result, final) := by
  obtain ⟨found, ready, prepares, rest⟩ := (run_bind_eq_ok _).mp ran
  obtain ⟨req, running, starts, rest⟩ := (run_bind_eq_ok _).mp rest
  obtain ⟨_, fetched, fetches, rest⟩ := (run_bind_eq_ok _).mp rest
  obtain ⟨made, created, creates, rest⟩ := (run_bind_eq_ok _).mp rest
  cases rest
  exact ⟨ready, req, running, fetched, prepares, starts, fetches, creates⟩

/-- From the start of the request on, its row agrees exactly when the restore settles. -/
theorem agrees_running {request_id : Nat} {actor : String} {prepared : Engine.Prepared}
    {req : RequestRow} {row : RequestRow} {world ready running after : World}
    {outcome : Except Exn Dict}
    (prepares : run (faulting env faults) (engine.prepareRestore request_id actor) world =
      (.ok prepared, ready))
    (starts : run (faulting env faults) (startRestore prepared.request_id actor) ready =
      (.ok req, running))
    (started : Started world prepared.request_id running)
    (there : running.db.requests.lookup prepared.request_id = some row)
    (shown : row.status = .running)
    (ran : run (faulting env faults) (tryCatch
      (engine.performRestore prepared req.target_name actor)
      (engine.recordFailure prepared actor)) running = (outcome, after)) :
    RequestAgrees world prepared.request_id after ↔
      RestoreSettles engine (faulting env faults) request_id actor false world := by
  have fetching := engine.footprint_fetchSource prepared
  have uncreated : Only Uncreating world running :=
    (only_uncreating (only_faulting (engine.footprint_prepareRestore request_id actor) prepares)
      (by simp)).trans (only_uncreating (only_faulting (footprint_startRestore _ _) starts)
      (by simp))
  rw [run_tryCatch, performRestore_eq] at ran
  cases performed : run (faulting env faults) (do
      engine.fetchSource prepared
      let result ← engine.createMachine prepared req.target_name
      settleRestore engine prepared actor result) running with
  | mk answer between =>
    rw [performed] at ran
    rcases run_bind_cases _ performed with ⟨error, rfl, raised⟩ | ⟨_, fetched, fetches, rest⟩
    · have same : between.db.requests = running.db.requests :=
        same_faulting fetching (by simp : Effect.writing .requests ∉ _) raised
      refine iff_of_true (agrees_uncreated engine (same ▸ there) shown (uncreated.trans
        (only_uncreating (only_faulting fetching raised) (by simp))) ran) ?_
      intro _ other result final creating
      obtain ⟨_, _, _, _, again, restarts, fetches, _⟩ := run_creating engine creating
      cases prepares.symm.trans again
      cases starts.symm.trans restarts
      cases raised.symm.trans fetches
    have kept : fetched.db.requests = running.db.requests :=
      same_faulting fetching (by simp : Effect.writing .requests ∉ _) fetches
    rcases run_bind_cases _ rest with ⟨error, rfl, raised⟩ | ⟨result, created, creates, rest⟩
    · have same : between.db.requests = fetched.db.requests := same_faulting
        (engine.footprint_createMachine _ _) (by simp : Effect.writing .requests ∉ _) raised
      refine iff_of_true (agrees_uncreated engine (same ▸ kept ▸ there) shown ((uncreated.trans
        (only_uncreating (only_faulting fetching fetches) (by simp))).trans
        (createMachine_raises engine raised)) ran) ?_
      intro _ other result final creating
      obtain ⟨_, _, _, _, again, restarts, refetches, creates⟩ := run_creating engine creating
      cases prepares.symm.trans again
      cases starts.symm.trans restarts
      cases fetches.symm.trans refetches
      cases raised.symm.trans creates
    · have same : created.db.requests = fetched.db.requests := same_faulting
        (engine.footprint_createMachine _ _) (by simp : Effect.writing .requests ∉ _) creates
      have since : Since world [] fetched :=
        since_faulting (since_faulting (since_faulting (Since.refl world) prepares) starts) fetches
      have concluded : (∃ value, answer = .ok value ∧ after = between) ∨
          ∃ error, answer = .error error ∧ run (faulting env faults)
            (engine.recordFailure prepared actor error) between = (outcome, after) := by
        cases answer with
        | ok value =>
          cases ran
          exact Or.inl ⟨value, rfl, rfl⟩
        | error error => exact Or.inr ⟨error, rfl, ran⟩
      refine (agrees_created engine (same ▸ kept ▸ there) shown
        ((started.ran fetches).ran creates) (createMachine_returns engine since creates) rest
        concluded).trans ?_
      · constructor
        · intro holds _ other made final creating
          obtain ⟨_, _, _, _, again, restarts, refetches, recreates⟩ :=
            run_creating engine creating
          cases prepares.symm.trans again
          cases starts.symm.trans restarts
          cases fetches.symm.trans refetches
          cases creates.symm.trans recreates
          exact holds
        · intro holds
          refine holds rfl prepared result created ?_
          simp only [creating, run_bind, prepares, starts, fetches, creates]
          rfl

/-- The row of a request agrees with what its execution did exactly when the restore
settles. -/
theorem request_agrees {request_id : Nat} {actor : String} {dry_run : Bool}
    {world after : World} {outcome : Except Exn Dict}
    (ran : run (faulting env faults) (engine.executeRestore request_id actor dry_run) world =
      (outcome, after)) :
    RequestAgrees world request_id after ↔
      RestoreSettles engine (faulting env faults) request_id actor dry_run world := by
  cases dry_run with
  | true =>
    have footprint : Footprint [.silent, .outside] (engine.executeRestore request_id actor true) :=
      footprint_bind (engine.footprint_lookup request_id true) fun _ => footprint_pure _
    refine iff_of_true ?_ nofun
    exact fun started => absurd started
      (not_started (only_unstarting (only_faulting footprint ran) (by simp)) request_id)
  | false =>
    have preparing := engine.footprint_prepareRestore request_id actor
    have ran : run (faulting env faults) (do
        let prepared ← engine.prepareRestore request_id actor
        engine.runRestore prepared actor) world = (outcome, after) := ran
    rcases run_bind_cases _ ran with ⟨error, rfl, raised⟩ | ⟨prepared, ready, prepares, rest⟩
    · refine iff_of_true ?_ ?_
      · exact fun started => absurd started
          (not_started (only_unstarting (only_faulting preparing raised) (by simp)) request_id)
      · intro _ prepared result final creating
        obtain ⟨_, _, _, _, again, _⟩ := run_creating engine creating
        cases raised.symm.trans again
    have unstarted := only_unstarting (only_faulting preparing prepares) (by simp)
    obtain rfl : prepared.request_id = request_id :=
      yields_run (engine.yields_prepareRestore request_id actor) (congrArg Prod.fst prepares)
    rcases run_bind_cases _ rest with ⟨error, rfl, raised⟩ | ⟨req, running, starts, rest⟩
    · refine iff_of_true ?_ ?_
      · intro started
        rcases run_startRestore (since_faulting (Since.refl world) prepares) raised with
          ⟨_, row, found, shown⟩ | ⟨_, unstarting⟩
        · have uncreated := (only_uncreating (only_faulting preparing prepares) (by simp)).trans
            (only_uncreating (only_faulting (footprint_startRestore _ _) raised) (by simp))
          refine iff_of_false ?_ (not_created uncreated)
          rintro ⟨other, same, success⟩
          cases found.symm.trans same
          cases shown.symm.trans success
        · exact absurd started (not_started (unstarted.trans unstarting) _)
      · intro _ other result final creating
        obtain ⟨_, _, _, _, again, starts, _⟩ := run_creating engine creating
        cases prepares.symm.trans again
        cases raised.symm.trans starts
    · rcases run_startRestore (since_faulting (Since.refl world) prepares) starts with
        ⟨started, row, found, shown⟩ | ⟨⟨_, impossible⟩, _⟩
      · exact agrees_running engine prepares starts started found shown rest
      · cases impossible

end Requests

section Outcomes

variable (engine : Engine) (env : Environment) (faults : Faults)

/-- Whatever the world answers and whichever transactions fail, the job of a backup and the
row of a started request agree with what happened exactly when nothing fails after the
point is stored or the machine is created, or when success was recorded and the failure
could not be. -/
theorem outcome_rows_agree :
    (∀ platform vm platform_info dry_run world,
      JobAgrees world
          (run (faulting env faults) (backupVM engine platform vm platform_info dry_run) world).2
          (run (faulting env faults) (backupVM engine platform vm platform_info dry_run) world).1 ↔
        BackupSettles engine (faulting env faults) platform vm platform_info dry_run world) ∧
    (∀ request_id actor dry_run world,
      RequestAgrees world request_id
          (run (faulting env faults) (engine.executeRestore request_id actor dry_run) world).2 ↔
        RestoreSettles engine (faulting env faults) request_id actor dry_run world) :=
  ⟨fun _ _ _ _ _ => job_agrees engine rfl, fun _ _ _ _ => request_agrees engine rfl⟩

end Outcomes

/-- An engine that verifies what it backed up. -/
def verifying : Engine :=
  { vault with cfg := { vault.cfg with protection := { verify_after_backup := true } } }

/-- A world in which backups are stored and restores from the repository fail. -/
def unreadable : Environment where
  answer := fun _ external => match external with
    | .run (.restic (.backup ..)) _ _ => .ok {
        returncode := 0
        jsonLines := [some (.obj [("message_type", .str "summary"), ("snapshot_id", .str "9b27")])] }
    | .run (.restic (.restore ..)) _ _ => .ok { returncode := 1 }
    | external => .ok (Environment.favourable external)
  elapsed := fun _ _ => 1

/-- A catalogue that is locked when a restore is audited. -/
def locked : Faults := fun _ transaction => match transaction with
  | .insertAudit row =>
    if row.action = "restore.complete" then some ⟨.otherError, "database is locked"⟩ else none
  | _ => none

def platform : PlatformConfig := { name := "pve", type := .proxmox, endpoint := "pve" }

def machine : VM := { id := "100", name := "web" }

/-- A part that returned is followed by one that passes the test. -/
def followed {α : Type} (next : α → World → Bool) : Except Exn α × World → Bool
  | (.ok value, middle) => next value middle
  | (.error _, _) => false

theorem followed_iff {α : Type} {next : α → World → Bool} {ran : Except Exn α × World} :
    followed next ran = true ↔ ∃ value middle, ran = (.ok value, middle) ∧ next value middle = true := by
  obtain ⟨outcome, middle⟩ := ran
  cases outcome <;> simp [followed]

/-- A backup whose verification fails is recorded and returned as failed, although its point
is catalogued; so is a restore whose audit fails, although its machine was created. -/
theorem outcome_rows_disagree :
    ¬ JobAgrees ⟨{}, 0, []⟩
      (run (faulting unreadable fun _ _ => none)
        (backupVM verifying platform machine [] false) ⟨{}, 0, []⟩).2
      (run (faulting unreadable fun _ _ => none)
        (backupVM verifying platform machine [] false) ⟨{}, 0, []⟩).1 ∧
    ¬ RequestAgrees ⟨catalogue, 0, []⟩ 1
      (run (faulting Environment.obliging locked)
        (vault.executeRestore 1 "carol" false) ⟨catalogue, 0, []⟩).2 := by
  constructor
  · intro agrees
    have settles := (job_agrees verifying rfl).mp agrees rfl
    have check : followed (fun stored middle =>
        (run (faulting unreadable fun _ _ => none) (settle verifying platform machine stored.1
          stored.2.1 stored.2.2) middle).1.toOption.isNone)
        (run (faulting unreadable fun _ _ => none) (storing verifying platform machine [])
          ⟨{}, 0, []⟩) = true := by decide
    obtain ⟨⟨staging_root, job_id, drafted⟩, middle, stored, failed⟩ := followed_iff.mp check
    cases settled : run (faulting unreadable fun _ _ => none) (settle verifying platform machine
        staging_root job_id drafted) middle with
    | mk outcome final =>
      rw [settled] at failed
      cases outcome with
      | ok result => cases failed
      | error error => exact (settles _ _ _ _ stored error final settled).2 rfl
  · intro agrees
    have settles := (request_agrees vault rfl).mp agrees rfl
    have check : followed (fun created middle =>
        (run (faulting Environment.obliging locked) (settleRestore vault created.1 "carol"
          created.2) middle).1.toOption.isNone)
        (run (faulting Environment.obliging locked) (creating vault 1 "carol")
          ⟨catalogue, 0, []⟩) = true := by decide
    obtain ⟨⟨prepared, result⟩, middle, created, failed⟩ := followed_iff.mp check
    cases settled : run (faulting Environment.obliging locked) (settleRestore vault prepared
        "carol" result) middle with
    | mk outcome final =>
      rw [settled] at failed
      cases outcome with
      | ok result => cases failed
      | error error => exact (settles _ _ _ created error final settled).2 rfl

end Immutavault.OutcomeRows
