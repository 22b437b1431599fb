import Immutavault.RequestRows

/-!
# Every change has its audit event

Approving a restore, starting one and extending the immutability of a recovery point
each commit their change first and append the audit event afterwards, in a transaction
of its own. Between the two a change stands in the catalogue without its event, and a
process that dies there leaves it so.

A change therefore owes an event until its process has appended it. What the catalogue
demands is covered at every moment: the event is there, or a process owes it. So every
state in which nobody owes anything is complete, whatever the processes do and however
their transactions interleave.
-/

namespace Immutavault.AuditCompleteness

open Programs Interleavings Values Timestamps Catalog Machine StateDatabase RequestRows

/-- An event that a change owes: its action, its object and, where the change records one,
its actor. -/
structure Debt where
  action : String
  object_type : String
  object_id : String
  actor : Option String
  deriving DecidableEq

/-- An event of the audit table pays a debt. -/
def Debt.PaidBy (debt : Debt) (row : AuditRow) : Prop :=
  row.action = debt.action ∧ row.object_type = debt.object_type ∧ row.object_id = debt.object_id ∧
    ∀ actor, debt.actor = some actor → row.actor = actor

/-- The audit table holds a matching event. -/
def Audited (db : Database) (debt : Debt) : Prop :=
  ∃ entry ∈ db.audits.rows, debt.PaidBy entry.2

/-- The event of an approved request, by its approver. -/
def approval (request_id : Nat) (approved_by : Option String) : Debt :=
  ⟨"restore.approve", "restore_request", toString request_id, approved_by⟩

/-- The event of a running request. -/
def execution (request_id : Nat) : Debt :=
  ⟨"restore.execute", "restore_request", toString request_id, none⟩

/-- The event of a point whose immutability was extended. -/
def hold (snapshot_id : String) : Debt := ⟨"recovery.hold", "recovery_point", snapshot_id, none⟩

/-- The event that a command owes. -/
def owes : Command → Option Debt
  | .transact (.approveRequest request_id approved_by _) =>
    some (approval request_id (some approved_by))
  | .transact (.startRequest request_id _) => some (execution request_id)
  | .transact (.updateImmutableUntil snapshot_id _) => some (hold snapshot_id)
  | _ => none

/-- The event that a command appends. -/
def appended : Command → Option AuditRow
  | .transact (.insertAudit row) => some row
  | _ => none

/-- The request that a command inserts. -/
def inserted : Command → Option RequestRow
  | .transact (.insertRequest row) => some row
  | _ => none

/-- What is owed after one more command: an appended event settles it. -/
def account (debt : Option Debt) (command : Command) : Option Debt :=
  if (appended command).isSome then none else (owes command).or debt

variable {ι : Type} [DecidableEq ι]

/-- What a process owes after everything that happened. -/
def owed (history : List (ι × Exchange controller Exn)) (thread : ι) : Option Debt :=
  (history.filter fun entry => entry.1 = thread).foldl
    (fun debt entry => account debt entry.2.1) none

/-- The immutability of a point was raised by one of these steps. -/
def Raised (steps : List (Step controller Exn ι World)) (snapshot_id : String) : Prop :=
  ∃ step ∈ steps, ∃ immutable_until row,
    step.command = .transact (.updateImmutableUntil snapshot_id immutable_until) ∧
      step.state.db.points.lookup snapshot_id = some row ∧ row.immutable_until < immutable_until

/-- Every approved and every running request, and every point whose immutability was
raised, has its event. -/
structure Complete (steps : List (Step controller Exn ι World)) (db : Database) : Prop where
  approved : ∀ request_id row, db.requests.lookup request_id = some row →
    row.status = .approved → Audited db (approval request_id row.approved_by)
  running : ∀ request_id row, db.requests.lookup request_id = some row →
    row.status = .running → Audited db (execution request_id)
  raised : ∀ snapshot_id, Raised steps snapshot_id → Audited db (hold snapshot_id)

/-- A command that touches neither requests nor points nor the audit table. -/
def Unaudited (command : Command) : Prop :=
  command.effect ∉ [.writing .requests, .writing .points, .writing .audits]

/-- One call of a process. The engines create requests pending, or ready where no second
pair of eyes is required. What else a process does is one command at a time. -/
inductive Call where
  | create (requester : String) (point : Point) (target_platform target_name : String)
      (options : Dict) (require_four_eyes : Bool)
  | approve (request_id : Nat) (approver : String) (four_eyes : Bool)
  | start (request_id : Nat) (actor : String)
  | finish (request_id : Nat) (success : Bool) (result : Dict) (error : Option String)
  | upsert (point : Point)
  | extend (snapshot_id : String) (immutable_until : Timestamp) (actor reason : String)
  | expire (snapshot_ids : List String)
  | verify (snapshot_id : String) (verified : Bool) (details : Dict)
  | audit (actor action object_type object_id : String) (details : Dict)
  | other (command : Command) (unaudited : Unaudited command)

def Call.program : Call → Prog Unit
  | .create requester point target_platform target_name options require_four_eyes => do
    let _ ← createRestoreRequest requester point target_platform target_name options
      (if require_four_eyes then .pending_approval else .ready)
    return ()
  | .approve request_id approver four_eyes => approveRestore request_id approver four_eyes
  | .start request_id actor => do
    let _ ← startRestore request_id actor
    return ()
  | .finish request_id success result error => finishRestore request_id success result error
  | .upsert point => upsertRecoveryPoint point
  | .extend snapshot_id immutable_until actor reason => do
    let _ ← extendImmutability snapshot_id immutable_until actor reason
    return ()
  | .expire snapshot_ids => markPointsExpired snapshot_ids
  | .verify snapshot_id verified details => markVerified snapshot_id verified details
  | .audit actor action object_type object_id details =>
    StateDatabase.audit actor action object_type object_id details
  | .other command _ => do
    let _ ← @Program.perform controller Exn command
    return ()

/-- The calls of a process one after another; what one raises does not keep the next from
being made. -/
def process : List Call → Prog Unit :=
  Program.each fun call => do
    let _ ← call.program.attempt
    return ()

section Discipline

/-- The discipline of a process: it changes nothing else before it has paid what it owes,
pays with a matching event, and inserts no request that would owe one. -/
def bookkeeping : Monitor controller Exn (Option Debt) where
  permits := fun debt command =>
    (owes command ≠ none → debt = none) ∧
    (∀ row, appended command = some row → ∀ due, debt = some due → due.PaidBy row) ∧
    (∀ row, inserted command = some row → row.status ≠ .approved ∧ row.status ≠ .running)
  possible := fun _ command answer => command.Served answer
  next := fun debt command _ => account debt command

/-- A command that owes nothing, appends no event and inserts no request. -/
def Plain (command : Command) : Prop :=
  owes command = none ∧ appended command = none ∧ inserted command = none

theorem account_plain {command : Command} (plain : Plain command) (debt : Option Debt) :
    account debt command = debt := by
  simp [account, plain.1, plain.2.1]

/-- A plain command is permitted at any time and changes no debt. -/
theorem permits_plain {command : Command} (plain : Plain command) (debt : Option Debt) :
    bookkeeping.permits debt command := by
  refine ⟨fun owing => absurd plain.1 owing, ?_, ?_⟩
  · intro row appends
    rw [plain.2.1] at appends
    cases appends
  · intro row inserts
    rw [plain.2.2] at inserts
    cases inserts

theorem plain_of_unaudited {command : Command} (unaudited : Unaudited command) :
    Plain command := by
  cases command with
  | transact transaction =>
    cases transaction <;> first
      | exact ⟨rfl, rfl, rfl⟩
      | exact absurd (by simp [Command.effect, writes]) unaudited
  | utcnow => exact ⟨rfl, rfl, rfl⟩
  | rmtree path => exact ⟨rfl, rfl, rfl⟩
  | request external => exact ⟨rfl, rfl, rfl⟩

/-- A command that owes an event neither appends one nor inserts a request. -/
theorem quiet_of_owing {command : Command} {due : Debt} (owing : owes command = some due) :
    appended command = none ∧ inserted command = none := by
  unfold owes at owing
  split at owing <;> first | exact ⟨rfl, rfl⟩ | cases owing

variable {α : Type} {debt : Option Debt}

/-- One plain command before a program. -/
theorem wp_plain {command : Command} {next : command.Answer → Prog α}
    {post : Except Exn α → Option Debt → Prop} (plain : Plain command)
    (internal : command.Internal)
    (rest : ∀ value, wp bookkeeping (next value) post debt) :
    wp bookkeeping (@Program.perform controller Exn command >>= next) post debt := by
  refine wp_bind (wp_perform (permits_plain plain debt) fun answer served => ?_)
  obtain ⟨value, rfl⟩ := served internal
  rw [show bookkeeping.next debt command (.ok value) = debt from account_plain plain debt]
  exact rest value

/-- An audit pays what is owed. -/
theorem wp_audit (actor action object_type object_id : String) (details : Dict)
    (pays : ∀ due, debt = some due → due.action = action ∧ due.object_type = object_type ∧
      due.object_id = object_id ∧ ∀ given, due.actor = some given → actor = given) :
    wp bookkeeping (StateDatabase.audit actor action object_type object_id details)
      (fun outcome final => outcome = .ok () ∧ final = none) debt := by
  refine wp_plain ⟨rfl, rfl, rfl⟩ trivial fun created_at => ?_
  refine wp_plain ⟨rfl, rfl, rfl⟩ trivial fun tail => ?_
  refine wp_perform ⟨fun owing => absurd rfl owing, ?_, fun row inserts => by cases inserts⟩ ?_
  · intro row appends due owing
    obtain ⟨ownAction, ownType, ownObject, ownActor⟩ := pays due owing
    rw [← Option.some.inj appends]
    exact ⟨ownAction.symm, ownType.symm, ownObject.symm, ownActor⟩
  · intro answer served
    obtain ⟨value, rfl⟩ := served trivial
    exact ⟨rfl, rfl⟩

/-- A change that owes an event, by a process that owes none. -/
theorem wp_owing {command : Command} {due : Debt} {next : command.Answer → Prog α}
    {post : Except Exn α → Option Debt → Prop} (owing : owes command = some due)
    (internal : command.Internal)
    (rest : ∀ value, wp bookkeeping (next value) post (some due)) :
    wp bookkeeping (@Program.perform controller Exn command >>= next) post none := by
  obtain ⟨appendsNone, insertsNone⟩ := quiet_of_owing owing
  refine wp_bind (wp_perform ⟨fun _ => rfl, ?_, ?_⟩ ?_)
  · intro row appends
    rw [appendsNone] at appends
    cases appends
  · intro row inserts
    rw [insertsNone] at inserts
    cases inserts
  · intro answer served
    obtain ⟨value, rfl⟩ := served internal
    have charged : bookkeeping.next none command (.ok value) = some due := by
      simp [bookkeeping, account, appendsNone, owing]
    rw [charged]
    exact rest value

/-- Paying a debt before the rest of a program. -/
theorem wp_paying {due : Debt} {actor action object_type object_id : String} {details : Dict}
    {next : Unit → Prog α} {post : Except Exn α → Option Debt → Prop}
    (pays : due.action = action ∧ due.object_type = object_type ∧ due.object_id = object_id ∧
      ∀ given, due.actor = some given → actor = given)
    (rest : wp bookkeeping (next ()) post none) :
    wp bookkeeping (StateDatabase.audit actor action object_type object_id details >>= next) post
      (some due) := by
  refine wp_bind (wp_mono (wp_audit _ _ _ _ _ ?_) ?_)
  · rintro given ⟨⟩
    exact pays
  · rintro outcome final ⟨rfl, rfl⟩
    exact rest

/-- A transaction that is plain, as the whole of a call or as its end. -/
theorem wp_plainly {command : Command} (plain : Plain command) (internal : command.Internal) :
    wp bookkeeping (@Program.perform controller Exn command) (fun _ final => final = none)
      none := by
  refine wp_perform (permits_plain plain none) fun answer served => ?_
  obtain ⟨value, rfl⟩ := served internal
  exact account_plain plain none

theorem wp_createRestoreRequest (requester : String) (point : Point)
    (target_platform target_name : String) (options : Dict) {status : RequestStatus}
    (fresh : status ≠ .approved ∧ status ≠ .running) :
    wp bookkeeping (createRestoreRequest requester point target_platform target_name options status)
      (fun _ final => final = none) none := by
  refine wp_plain ⟨rfl, rfl, rfl⟩ trivial fun now => ?_
  refine wp_bind (wp_perform ⟨fun _ => rfl, fun row appends => (by cases appends), ?_⟩ ?_)
  · intro row inserts
    rw [← Option.some.inj inserts]
    exact fresh
  · intro answer served
    obtain ⟨value, rfl⟩ := served trivial
    refine wp_bind (wp_mono (wp_audit _ _ _ _ _ fun due none => by cases none) ?_)
    rintro outcome final ⟨rfl, rfl⟩
    exact wp_pure rfl

theorem wp_approveRestore (request_id : Nat) (approver : String) (four_eyes : Bool) :
    wp bookkeeping (approveRestore request_id approver four_eyes) (fun _ final => final = none)
      none := by
  refine wp_plain ⟨rfl, rfl, rfl⟩ trivial fun req => ?_
  cases req with
  | none => exact wp_throw rfl
  | some req =>
    dsimp only
    split
    · exact wp_throw rfl
    · split
      · exact wp_throw rfl
      · refine wp_plain ⟨rfl, rfl, rfl⟩ trivial fun now => ?_
        refine wp_owing rfl trivial fun _ => wp_mono (wp_audit _ _ _ _ _ ?_) fun _ _ => And.right
        rintro due ⟨⟩
        exact ⟨rfl, rfl, rfl, fun given same => Option.some.inj same⟩

theorem wp_startRestore (request_id : Nat) (actor : String) :
    wp bookkeeping (startRestore request_id actor) (fun _ final => final = none) none := by
  refine wp_plain ⟨rfl, rfl, rfl⟩ trivial fun req => ?_
  cases req with
  | none => exact wp_throw rfl
  | some req =>
    dsimp only
    split
    · exact wp_throw rfl
    · refine wp_plain ⟨rfl, rfl, rfl⟩ trivial fun now => ?_
      refine wp_owing rfl trivial fun _ => wp_paying ⟨rfl, rfl, rfl, fun given none => by cases none⟩ ?_
      exact wp_plain ⟨rfl, rfl, rfl⟩ trivial fun started => wp_pure rfl

theorem wp_extendImmutability (snapshot_id : String) (immutable_until : Timestamp)
    (actor reason : String) :
    wp bookkeeping (extendImmutability snapshot_id immutable_until actor reason)
      (fun _ final => final = none) none := by
  refine wp_plain ⟨rfl, rfl, rfl⟩ trivial fun row => ?_
  cases row with
  | none => exact wp_throw rfl
  | some current =>
    exact wp_owing rfl trivial fun _ => wp_paying ⟨rfl, rfl, rfl, fun given none => by cases none⟩ (wp_pure rfl)

theorem wp_markVerified (snapshot_id : String) (verified : Bool) (details : Dict) :
    wp bookkeeping (markVerified snapshot_id verified details) (fun _ final => final = none)
      none := by
  refine wp_plain ⟨rfl, rfl, rfl⟩ trivial fun row => ?_
  cases row with
  | none => exact wp_throw rfl
  | some metadata =>
    have stores : ∀ verified_at, wp bookkeeping (transact (.updateVerified snapshot_id verified
        verified_at (metadata.set "verification" (.obj details)))) (fun _ final => final = none)
        none := fun verified_at => wp_plainly ⟨rfl, rfl, rfl⟩ trivial
    cases verified with
    | true =>
      refine wp_bind (wp_plain ⟨rfl, rfl, rfl⟩ trivial fun now => ?_)
      exact wp_pure (stores (some now))
    | false => exact stores none

/-- What a program returns may be dropped. -/
theorem wp_dropped {program : Prog α}
    (holds : wp bookkeeping program (fun _ final => final = none) none) :
    wp bookkeeping (do let _ ← program; return ()) (fun _ final => final = none) none := by
  refine wp_bind (wp_mono holds ?_)
  intro outcome final settled
  cases outcome with
  | ok value => exact settled
  | error error => exact settled

/-- Every call keeps the discipline, and owes nothing once it has ended. -/
theorem wp_call (call : Call) :
    wp bookkeeping call.program (fun _ final => final = none) none := by
  cases call with
  | create requester point target_platform target_name options require_four_eyes =>
    refine wp_dropped (wp_createRestoreRequest _ _ _ _ _ ?_)
    cases require_four_eyes <;> decide
  | approve request_id approver four_eyes => exact wp_approveRestore _ _ _
  | start request_id actor => exact wp_dropped (wp_startRestore _ _)
  | finish request_id success result error =>
    refine wp_plain ⟨rfl, rfl, rfl⟩ trivial fun now => ?_
    exact wp_plainly ⟨rfl, rfl, rfl⟩ trivial
  | upsert point => exact wp_plainly ⟨rfl, rfl, rfl⟩ trivial
  | extend snapshot_id immutable_until actor reason => exact wp_dropped (wp_extendImmutability _ _ _ _)
  | expire snapshot_ids =>
    change wp bookkeeping (markPointsExpired snapshot_ids) _ none
    unfold markPointsExpired
    split
    · exact wp_pure rfl
    · refine wp_plain ⟨rfl, rfl, rfl⟩ trivial fun now => ?_
      exact wp_plainly ⟨rfl, rfl, rfl⟩ trivial
  | verify snapshot_id verified details => exact wp_markVerified snapshot_id verified details
  | audit actor action object_type object_id details =>
    refine wp_mono (wp_audit _ _ _ _ _ fun due none => by cases none) ?_
    rintro outcome final ⟨_, settled⟩
    exact settled
  | other command unaudited =>
    refine wp_dropped (wp_perform (permits_plain (plain_of_unaudited unaudited) none) ?_)
    intro answer _
    exact account_plain (plain_of_unaudited unaudited) none

/-- So does a process, call after call. -/
theorem wp_process (calls : List Call) :
    wp bookkeeping (process calls) (fun _ final => final = none) none := by
  induction calls with
  | nil => exact wp_pure rfl
  | cons call rest inductionHypothesis =>
    refine wp_bind (wp_mono (wp_dropped (wp_attempt (wp_call call))) ?_)
    rintro outcome final rfl
    cases outcome with
    | ok value => exact inductionHypothesis
    | error error => rfl

end Discipline

section Books

variable {env : Environment} {history : List (ι × Exchange controller Exn)} {db : Database}

/-- What a process owes changes with its own commands only. -/
theorem owed_concat (history : List (ι × Exchange controller Exn)) (thread other : ι)
    (exchange : Exchange controller Exn) :
    owed (history ++ [(thread, exchange)]) other =
      if other = thread then account (owed history other) exchange.1 else owed history other := by
  by_cases own : other = thread
  · subst own
    simp [owed]
  · have foreign : ¬ thread = other := fun same => own same.symm
    simp [owed, own, foreign]

/-- What the catalogue and its history demand an event for. -/
inductive Demands (history : List (ι × Exchange controller Exn)) (db : Database) : Debt → Prop
  | approved (request_id : Nat) (row : RequestRow)
      (found : db.requests.lookup request_id = some row) (status : row.status = .approved) :
    Demands history db (approval request_id row.approved_by)
  | running (request_id : Nat) (row : RequestRow)
      (found : db.requests.lookup request_id = some row) (status : row.status = .running) :
    Demands history db (execution request_id)
  | extended (entry : ι × Exchange controller Exn) (member : entry ∈ history)
      (snapshot_id : String) (immutable_until : Timestamp)
      (updates : entry.2.1 = .transact (.updateImmutableUntil snapshot_id immutable_until)) :
    Demands history db (hold snapshot_id)

/-- After a command, a row was there before it, or the command owes what the row demands. -/
theorem demands_lookup {debt : Option Debt} {command : Command} {request_id : Nat}
    {row : RequestRow} (permitted : bookkeeping.permits debt command)
    (found : (Environment.commit db command).requests.lookup request_id = some row)
    (status : row.status = .approved ∨ row.status = .running) :
    db.requests.lookup request_id = some row ∨
      owes command = some (if row.status = .approved then approval request_id row.approved_by
        else execution request_id) := by
  by_cases written : command.effect = .writing .requests
  · cases writesRequest_of_effect written with
    | inserts inserted =>
      change (db.requests.insert inserted).lookup request_id = some row at found
      rw [Tables.Numbered.lookup_insert] at found
      split at found
      · have fresh := permitted.2.2 inserted rfl
        cases found
        rcases status with approved | running
        · exact absurd approved fresh.1
        · exact absurd running fresh.2
      · exact Or.inl found
    | approves target approved_by approved_at =>
      simp only [Environment.commit, Transaction.write, Tables.Numbered.lookup_modify] at found
      split at found
      · rename_i own
        obtain ⟨old, _, rfl⟩ := Option.map_eq_some_iff.mp found
        exact Or.inr (by simp [owes, own])
      · exact Or.inl found
    | starts target started_at =>
      simp only [Environment.commit, Transaction.write, Tables.Numbered.lookup_modify] at found
      split at found
      · rename_i own
        obtain ⟨old, _, rfl⟩ := Option.map_eq_some_iff.mp found
        exact Or.inr (by simp [owes, own])
      · exact Or.inl found
    | finishes target success finished_at result error =>
      simp only [Environment.commit, Transaction.write, Tables.Numbered.lookup_modify] at found
      split at found
      · obtain ⟨old, _, rfl⟩ := Option.map_eq_some_iff.mp found
        rcases status with approved | running
        · cases success <;> cases approved
        · cases success <;> cases running
      · exact Or.inl found
  · have same : (Environment.commit db command).requests = db.requests := commit_same db written
    exact Or.inl (same ▸ found)

omit [DecidableEq ι] in
/-- After a command, something was demanded before it, or the command owes it. -/
theorem demands_commit {due : Debt} {debt : Option Debt} {thread : ι} {command : Command}
    {answer : Except Exn command.Answer} (permitted : bookkeeping.permits debt command)
    (demands : Demands (history ++ [(thread, ⟨command, answer⟩)]) (Environment.commit db command)
      due) : Demands history db due ∨ owes command = some due := by
  cases demands with
  | approved request_id row found status =>
    rcases demands_lookup permitted found (Or.inl status) with before | owing
    · exact Or.inl (.approved request_id row before status)
    · rw [if_pos status] at owing
      exact Or.inr owing
  | running request_id row found status =>
    rcases demands_lookup permitted found (Or.inr status) with before | owing
    · exact Or.inl (.running request_id row before status)
    · rw [if_neg (by simp [status])] at owing
      exact Or.inr owing
  | extended entry member snapshot_id immutable_until updates =>
    rcases List.mem_append.mp member with before | now
    · exact Or.inl (.extended entry before snapshot_id immutable_until updates)
    · have same : entry = (thread, ⟨command, answer⟩) := List.mem_singleton.mp now
      subst same
      have updates : command = .transact (.updateImmutableUntil snapshot_id immutable_until) :=
        updates
      exact Or.inr (by rw [updates]; rfl)

/-- Events stay. -/
theorem audited_commit {due : Debt} (command : Command) (audited : Audited db due) :
    Audited (Environment.commit db command) due := by
  obtain ⟨entry, member, pays⟩ := audited
  refine ⟨entry, ?_, pays⟩
  cases command with
  | transact transaction =>
    cases transaction with
    | insertAudit row => exact List.mem_append_left _ member
    | _ => exact member
  | utcnow => exact member
  | rmtree path => exact member
  | request external => exact member

/-- An event is there once it was appended. -/
theorem audited_appended {due : Debt} {command : Command} {row : AuditRow}
    (appends : appended command = some row) (pays : due.PaidBy row) :
    Audited (Environment.commit db command) due := by
  unfold appended at appends
  split at appends
  · cases appends
    exact ⟨(db.audits.next, row), List.mem_append_right _ (List.mem_singleton.mpr rfl), pays⟩
  · cases appends

/-- The books are straight: the phases say what is owed, and whatever is demanded has its
event or is owed by a process. -/
structure Straight (world : World) (history : List (ι × Exchange controller Exn))
    (phases : ι → Option Debt) : Prop where
  known : ∀ thread, phases thread = owed history thread
  covered : ∀ due, Demands history world.db due →
    Audited world.db due ∨ ∃ thread, phases thread = some due

/-- A permitted command keeps the books straight. -/
theorem straight_step {world : World} {phases : ι → Option Debt} {thread : ι} {command : Command}
    (straight : Straight world history phases)
    (permitted : bookkeeping.permits (phases thread) command) :
    Straight (env.handler command world).2
      (history ++ [(thread, ⟨command, (env.handler command world).1⟩)])
      (Function.update phases thread (account (phases thread) command)) := by
  constructor
  · intro other
    rw [owed_concat]
    by_cases own : other = thread
    · subst own
      simp [straight.known]
    · simp [own, straight.known]
  · intro due demands
    rcases demands_commit permitted demands with before | owing
    · rcases straight.covered due before with audited | ⟨other, standing⟩
      · exact Or.inl (audited_commit command audited)
      · by_cases own : other = thread
        · subst own
          cases appends : appended command with
          | some row =>
            exact Or.inl (audited_appended appends (permitted.2.1 row appends due standing))
          | none =>
            have owesNothing : owes command = none := by
              by_contra owing
              rw [permitted.1 owing] at standing
              cases standing
            refine Or.inr ⟨other, ?_⟩
            simp [account, appends, owesNothing, standing]
        · exact Or.inr ⟨other, by rw [Function.update_of_ne own, standing]⟩
    · refine Or.inr ⟨thread, ?_⟩
      simp [account, (quiet_of_owing owing).1, owing]

end Books

section Runs

variable (env : Environment) {world : World}

/-- All processes begin their calls over a catalogue. -/
def beginning (processes : ι → List Call) (world : World) : Pool controller Exn ι World :=
  .start (fun thread => process (processes thread)) world

/-- The books stay straight over any interleaving of any calls. -/
theorem straight_run (initially : @Complete ι [] world.db) (processes : ι → List Call)
    (schedule : List ι) :
    ∃ phases, Straight (interleave env.handler schedule (beginning processes world)).state
      (interleave env.handler schedule (beginning processes world)).history phases := by
  have begun : Straight world ([] : List (ι × Exchange controller Exn)) fun _ => none := by
    refine ⟨fun thread => rfl, fun due demands => Or.inl ?_⟩
    cases demands with
    | approved request_id row found status => exact initially.approved request_id row found status
    | running request_id row found status => exact initially.running request_id row found status
    | extended entry member => cases member
  have preserves : Preserves env.handler bookkeeping Straight (fun (_ : Step _ _ ι _) => True)
      fun _ => True := by
    intro world history phases thread command straight permitted _
    exact ⟨trivial, served_reply env world command, straight_step straight permitted⟩
  have judged : Judged bookkeeping (fun _ final => final = none) (beginning processes world)
      fun _ => none := fun thread => wp_process (processes thread)
  obtain ⟨_, phases, _, straight⟩ :=
    interleave_invariant preserves judged begun schedule fun _ _ => trivial
  exact ⟨phases, straight⟩

end Runs

/-- A catalogue whose only request waits for its approval. -/
def waiting : World where
  db := { RestoreEngine.catalogue with
    requests := RestoreEngine.catalogue.requests.modify 1 fun row =>
      { row with status := .pending_approval, approved_by := none } }
  clock := 1

theorem complete_waiting : @Complete Unit [] waiting.db := by
  have only : ∀ request_id row, waiting.db.requests.lookup request_id = some row →
      row.status = .pending_approval := by
    intro request_id row found
    have member := Tables.find_mem found
    simp only [waiting, RestoreEngine.catalogue, Tables.Numbered.rows_modify,
      Tables.Numbered.rows_insert] at member
    simp [Tables.Numbered.empty, Tables.alter] at member
    exact member.2 ▸ rfl
  constructor
  · intro request_id row found status
    simp [only request_id row found] at status
  · intro request_id row found status
    simp [only request_id row found] at status
  · rintro snapshot_id ⟨step, member, _⟩
    cases member

/-- One process makes its calls, and stops after so many commands. -/
def stopped (calls : List Call) (count : Nat) :
    List (Step controller Exn Unit World) × Database :=
  let pool := beginning (fun _ => calls) waiting
  (steps Environment.mute.handler (List.replicate count ()) pool,
    (interleave Environment.mute.handler (List.replicate count ()) pool).state.db)

end Immutavault.AuditCompleteness
