import Immutavault.Histories
import Immutavault.RestoreEngine

/-!
# What becomes of a restore request

A request is inserted once, and from then on only its status and the columns that go
with it change: who asked for what, from where to where, and with which options, stays
as it was inserted. Rows are never removed.

An execution works with the options that the catalogue holds for its request.
-/

namespace Immutavault.RequestRows

open Programs Values Timestamps Catalog Machine Configuration StateDatabase RestoreEngine Histories

/-- A later state of a request asks for the same. -/
structure Continues (row later : RequestRow) : Prop where
  requester : later.requester = row.requester
  snapshot_id : later.snapshot_id = row.snapshot_id
  source_platform : later.source_platform = row.source_platform
  target_platform : later.target_platform = row.target_platform
  target_name : later.target_name = row.target_name
  options : later.options = row.options

theorem Continues.refl (row : RequestRow) : Continues row row := ⟨rfl, rfl, rfl, rfl, rfl, rfl⟩

theorem Continues.trans {row later last : RequestRow} (first : Continues row later)
    (second : Continues later last) : Continues row last where
  requester := second.requester.trans first.requester
  snapshot_id := second.snapshot_id.trans first.snapshot_id
  source_platform := second.source_platform.trans first.source_platform
  target_platform := second.target_platform.trans first.target_platform
  target_name := second.target_name.trans first.target_name
  options := second.options.trans first.options

/-- Every request is there later, too, and asks for the same. -/
def Kept (before after : Database) : Prop :=
  ∀ request_id row, before.requests.lookup request_id = some row →
    ∃ later, after.requests.lookup request_id = some later ∧ Continues row later

theorem Kept.refl (db : Database) : Kept db db := fun _ row found => ⟨row, found, .refl row⟩

theorem Kept.trans {before between after : Database} (first : Kept before between)
    (second : Kept between after) : Kept before after := by
  intro request_id row found
  obtain ⟨later, present, continues⟩ := first request_id row found
  obtain ⟨last, there, further⟩ := second request_id later present
  exact ⟨last, there, continues.trans further⟩

/-- Rows that stand where they stood are kept. -/
theorem kept_same {before after : Database} (same : after.requests = before.requests) :
    Kept before after :=
  fun _ row found => ⟨row, same ▸ found, .refl row⟩

/-- Changing the progress of one request keeps all of them. -/
theorem kept_modify {before after : Database} {request_id : Nat}
    {change : RequestRow → RequestRow}
    (modified : after.requests = before.requests.modify request_id change)
    (continues : ∀ row, Continues row (change row)) : Kept before after := by
  intro other row found
  rw [modified, Tables.Numbered.lookup_modify]
  by_cases here : other = request_id
  · subst here
    exact ⟨change row, by rw [if_pos rfl, found]; rfl, continues row⟩
  · exact ⟨row, by rw [if_neg here, found], .refl row⟩

/-- Every command keeps all requests. -/
theorem kept_commit (db : Database) (command : Command) :
    Kept db (Environment.commit db command) := by
  cases command with
  | utcnow => exact .refl db
  | rmtree path => exact .refl db
  | request external => exact .refl db
  | transact transaction =>
    cases transaction with
    | insertRequest row =>
      intro request_id old found
      refine ⟨old, ?_, .refl old⟩
      change (db.requests.insert row).lookup request_id = some old
      rw [Tables.Numbered.lookup_insert, if_neg (Nat.ne_of_lt (Tables.Numbered.lookup_lt found)),
        found]
    | approveRequest request_id approved_by approved_at =>
      exact kept_modify rfl fun row => ⟨rfl, rfl, rfl, rfl, rfl, rfl⟩
    | startRequest request_id started_at =>
      exact kept_modify rfl fun row => ⟨rfl, rfl, rfl, rfl, rfl, rfl⟩
    | finishRequest request_id success finished_at result error =>
      exact kept_modify rfl fun row => ⟨rfl, rfl, rfl, rfl, rfl, rfl⟩
    | _ => exact kept_same rfl

/-- The commands that write requests. -/
inductive WritesRequest : Command → Prop
  | inserts (row : RequestRow) : WritesRequest (.transact (.insertRequest row))
  | approves (request_id : Nat) (approved_by : String) (approved_at : Timestamp) :
    WritesRequest (.transact (.approveRequest request_id approved_by approved_at))
  | starts (request_id : Nat) (started_at : Timestamp) :
    WritesRequest (.transact (.startRequest request_id started_at))
  | finishes (request_id : Nat) (success : Bool) (finished_at : Timestamp) (result : Dict)
      (error : Option String) :
    WritesRequest (.transact (.finishRequest request_id success finished_at result error))

theorem writesRequest_of_effect {command : Command} (written : command.effect = .writing .requests) :
    WritesRequest command := by
  cases command with
  | transact transaction =>
    cases transaction with
    | insertRequest row => exact .inserts row
    | approveRequest request_id approved_by approved_at => exact .approves _ _ _
    | startRequest request_id started_at => exact .starts _ _
    | finishRequest request_id success finished_at result error => exact .finishes _ _ _ _ _
    | _ => exact absurd written (by simp [Command.effect, writes])
  | utcnow => cases written
  | rmtree path => cases written
  | request external =>
    cases external with
    | run shell renv input_text =>
      cases shell with
      | restic tool => cases tool <;> cases written
      | _ => cases written
    | _ => cases written

section Runs

variable {α : Type} {env : Environment} {world : World}

theorem kept_run (program : Prog α) (world : World) :
    Kept world.db (run env.handler program world).2.db := by
  induction program generalizing world with
  | ret value => exact .refl _
  | raise error => exact .refl _
  | call command resume inductionHypothesis =>
    have next := inductionHypothesis (env.handler command world).1 (env.handler command world).2
    exact (kept_commit world.db command).trans next

theorem kept_ran {program : Prog α} {outcome : Except Exn α} {after : World}
    (ran : run env.handler program world = (outcome, after)) : Kept world.db after.db := by
  have kept := @kept_run α env program world
  rwa [ran] at kept

end Runs

section Lookups

variable {env : Environment} {engine : Engine} {request_id : Nat} {dry_run : Bool}
  {world final : World} {prepared : Engine.Prepared}

/-- What was prepared belongs to a request of the catalogue, with its options. -/
structure Requested (db : Database) (request_id : Nat) (prepared : Engine.Prepared) : Prop where
  own : prepared.request_id = request_id
  options : ∃ req, db.requests.lookup request_id = some req ∧ prepared.options = req.options

theorem lookupNative_requested
    (ran : run env.handler (engine.lookupNative request_id dry_run) world =
      (.ok prepared, final)) : Requested world.db request_id prepared := by
  rw [Engine.lookupNative, getRestoreRequest, run_transact_bind] at ran
  cases present : Transaction.read world.db (.selectRequest request_id) with
  | none =>
    rw [present] at ran
    cases ran
  | some req =>
    rw [present] at ran
    obtain ⟨_, plannable, _, ran⟩ := (run_bind_eq_ok _).mp ran
    obtain ⟨point, found, _, ran⟩ := (run_bind_eq_ok _).mp ran
    cases point with
    | none => cases ran
    | some point =>
      obtain ⟨target, known, ran⟩ := run_raised_bind ran
      obtain ⟨source, _, _, ran⟩ := (run_bind_eq_ok _).mp ran
      cases ran
      exact ⟨rfl, req, present, rfl⟩

/-- Whichever way an execution looks its request up, it finds it with its options. -/
theorem lookup_requested
    (ran : run env.handler (engine.lookup request_id dry_run) world = (.ok prepared, final)) :
    Requested world.db request_id prepared := by
  unfold Engine.lookup at ran
  split at ran
  · exact lookupNative_requested ran
  · rw [getRestoreRequest, run_transact_bind] at ran
    cases present : Transaction.read world.db (.selectRequest request_id) with
    | none =>
      rw [present] at ran
      cases ran
    | some req =>
      rw [present] at ran
      dsimp only at ran
      rw [getPoint, run_transact_bind] at ran
      cases found : Transaction.read ((env.handler (.transact (.selectRequest request_id))
          world).2.db) (.selectPoint req.snapshot_id) with
      | none =>
        rw [found] at ran
        cases ran
      | some point =>
        rw [found] at ran
        obtain ⟨target, known, ran⟩ := run_raised_bind ran
        dsimp only at ran
        split at ran
        · have native : Requested world.db request_id prepared := by
            refine @lookupNative_requested _ _ _ _ ((env.handler (.transact
              (.selectPoint req.snapshot_id)) (env.handler (.transact (.selectRequest request_id))
              world).2).2) _ _ ran
          exact native
        · obtain ⟨_, _, _, ran⟩ := (run_bind_eq_ok _).mp ran
          obtain ⟨plan, _, ran⟩ := run_request_bind ran
          split at ran
          · cases ran
          · obtain ⟨source, _, _, ran⟩ := (run_bind_eq_ok _).mp ran
            cases ran
            exact ⟨rfl, req, present, rfl⟩

end Lookups

end Immutavault.RequestRows
