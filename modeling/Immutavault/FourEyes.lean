import Immutavault.RestoreEngine

/-!
# The four-eyes rule

Under the four-eyes policy a restore is requested by one user and approved by
another before it may be executed. The rule is spread over two engines and four
transactions, so it is stated here about whole sessions: any sequence of
requests, approvals, executions and completions, one after another, each of
which may fail.

Every request that a session creates stays accountable: it began pending, it
never becomes ready, and it is approved or running only with an approver other
than its requester. The second result is about single executions: on a request
that is neither approved nor ready an execution raises, and until then it has
neither changed a request nor created a machine.
-/

namespace Immutavault.FourEyes

open Programs Values Catalog Machine StateDatabase RestoreEngine

/-- One operation of a session. -/
inductive Operation where
  | request (snapshot_id requester target_platform : String) (target_name : Option String)
      (options : Dict)
  | approve (request_id : Nat) (approver : String)
  | execute (request_id : Nat) (actor : String) (dry_run : Bool)
  | finish (request_id : Nat) (success : Bool) (result : Dict) (error : Option String)

def Operation.program (engine : Engine) : Operation → Prog Unit
  | .request snapshot_id requester target_platform target_name options => do
    let _ ← engine.requestRestore snapshot_id requester target_platform target_name options
  | .approve request_id approver => engine.approveRestore request_id approver
  | .execute request_id actor dry_run => do
    let _ ← engine.executeRestore request_id actor dry_run
  | .finish request_id success result error => finishRestore request_id success result error

/-- The operations one after another; what one raises does not keep the next from running. -/
def session (engine : Engine) : List Operation → Prog Unit
  | [] => pure ()
  | operation :: rest => do
    let _ ← (operation.program engine).attempt
    session engine rest

/-- The request was created, with this row, in the part of the history that is recorded. -/
def Created (world : World) (request_id : Nat) (inserted : RequestRow) : Prop :=
  (⟨.transact (.insertRequest inserted), .ok request_id⟩ : Exchange controller Exn) ∈ world.log

/-- What the four-eyes rule leaves true of a request over its whole life. -/
structure Accountable (inserted row : RequestRow) : Prop where
  pending : inserted.status = .pending_approval
  requester : row.requester = inserted.requester
  unready : row.status ≠ .ready
  approved : row.status = .approved ∨ row.status = .running →
    ∃ approver, row.approved_by = some approver ∧ approver ≠ inserted.requester

/-- Every created request is accountable. -/
def Orderly (world : World) : Prop :=
  ∀ request_id inserted, Created world request_id inserted →
    request_id < world.db.requests.next ∧
      ∀ row, world.db.requests.lookup request_id = some row → Accountable inserted row

section Steps

variable {env : Environment} {world : World}

/-- A command that writes no request keeps all of them accountable. -/
theorem orderly_other {command : Command} (other : command.effect ≠ .writing .requests)
    (orderly : Orderly world) : Orderly (env.handler command world).2 := by
  have same : (Environment.commit world.db command).requests = world.db.requests :=
    commit_same world.db other
  intro request_id inserted created
  rcases List.mem_append.mp created with before | now
  · simpa [Environment.handler, same] using orderly request_id inserted before
  · exfalso
    have asked := congrArg Sigma.fst (List.mem_singleton.mp now)
    exact other (by rw [← show _ = command from asked]; rfl)

/-- Changing one request keeps all of them accountable if the change does. -/
theorem orderly_modify {transaction : Transaction} {request_id : Nat}
    {change : RequestRow → RequestRow}
    (modifies : (transaction.write world.db).requests =
      world.db.requests.modify request_id change)
    (inserts : ∀ inserted, transaction ≠ .insertRequest inserted)
    (kept : ∀ inserted row, world.db.requests.lookup request_id = some row →
      Accountable inserted row → Accountable inserted (change row))
    (orderly : Orderly world) : Orderly (env.handler (.transact transaction) world).2 := by
  intro created_id inserted created
  rcases List.mem_append.mp created with before | now
  · obtain ⟨given, accountable⟩ := orderly created_id inserted before
    simp only [Environment.handler, Environment.commit, modifies, Tables.Numbered.next_modify,
      Tables.Numbered.lookup_modify]
    refine ⟨given, ?_⟩
    intro row found
    split at found
    · rename_i same
      subst same
      obtain ⟨old, present, rfl⟩ := Option.map_eq_some_iff.mp found
      exact kept inserted old present (accountable old present)
    · exact accountable row found
  · exfalso
    have asked := congrArg Sigma.fst (List.mem_singleton.mp now)
    exact inserts inserted (Command.transact.inj asked).symm

/-- A request that is inserted pending and unapproved is accountable from the start. -/
theorem orderly_insert {row : RequestRow} (pending : row.status = .pending_approval)
    (orderly : Orderly world) :
    Orderly (env.handler (.transact (.insertRequest row)) world).2 := by
  intro created_id inserted created
  simp only [Environment.handler, Environment.commit, Transaction.write,
    Tables.Numbered.next_insert, Tables.Numbered.lookup_insert]
  rcases List.mem_append.mp created with before | now
  · obtain ⟨given, accountable⟩ := orderly created_id inserted before
    refine ⟨by omega, ?_⟩
    intro found present
    rw [if_neg (by omega)] at present
    exact accountable found present
  · have exchanged := List.mem_singleton.mp now
    simp only [Environment.reply, Transaction.read, Sigma.mk.injEq, Command.transact.injEq,
      Transaction.insertRequest.injEq] at exchanged
    obtain ⟨rfl, answered⟩ := exchanged
    have numbered : created_id = world.db.requests.next := by simpa using answered
    subst numbered
    refine ⟨by omega, ?_⟩
    intro found present
    simp only [if_true, Option.some.injEq] at present
    subst present
    exact ⟨pending, rfl, by simp [pending], by simp [pending]⟩

/-- Commands that neither create, approve nor start a request. -/
def Harmless (command : Command) : Prop :=
  command.effect ≠ .writing .requests ∨
    ∃ request_id success finished_at result error,
      command = .transact (.finishRequest request_id success finished_at result error)

/-- A harmless command keeps all requests accountable. -/
theorem orderly_harmless {command : Command} (harmless : Harmless command)
    (orderly : Orderly world) : Orderly (env.handler command world).2 := by
  rcases harmless with other | ⟨request_id, success, finished_at, result, error, rfl⟩
  · exact orderly_other other orderly
  · refine orderly_modify rfl (fun _ => by simp) ?_ orderly
    intro inserted row _ accountable
    refine ⟨accountable.pending, accountable.requester, ?_, ?_⟩
    · cases success <;> simp
    · cases success <;> simp

end Steps

section Sessions

variable {env : Environment}

/-- All requests are accountable before every command of a run and at its end. -/
def supervised (env : Environment) : Monitor controller Exn World :=
  env.handler.monitor fun world _ => Orderly world

variable {α : Type}

/-- Harmless commands keep all requests accountable, whatever is answered. -/
theorem keeps_harmless {program : Prog α}
    (harmless : Issues (fun command : controller.Command => Harmless command) program) :
    Keeps (supervised env) Orderly program := by
  intro world orderly
  refine wp_of_issues Orderly harmless orderly ?_
  intro current command orderly harmless
  exact ⟨orderly, fun _ _ => orderly_harmless harmless orderly⟩

/-- So do programs whose footprint has no write to requests. -/
theorem keeps_footprint {effects : List Effect} {program : Prog α}
    (footprint : Footprint effects program) (none : .writing .requests ∉ effects) :
    Keeps (supervised env) Orderly program := by
  refine keeps_harmless (issues_mono footprint ?_)
  intro command listed
  exact Or.inl fun same => none (same ▸ listed)

/-- So does a single command that writes no request. -/
theorem keeps_perform {command : Command} (other : command.effect ≠ .writing .requests) :
    Keeps (supervised env) Orderly (@Program.perform controller Exn command) :=
  keeps_harmless ((issues_perform _).mpr (Or.inl other))

theorem keeps_getRestoreRequest (request_id : Nat) :
    Keeps (supervised env) Orderly (getRestoreRequest request_id) :=
  keeps_perform (by simp [Command.effect, writes])

theorem keeps_getPoint (snapshot_id : String) :
    Keeps (supervised env) Orderly (getPoint snapshot_id) :=
  keeps_perform (by simp [Command.effect, writes])

theorem keeps_rmtree (path : String) : Keeps (supervised env) Orderly (rmtree path) :=
  keeps_perform (by simp [Command.effect])

theorem keeps_raised (value : Except Exn α) :
    Keeps (supervised env) Orderly (raised value : Prog α) := by
  cases value <;> simp [raised]

/-- Finishing a request gives it neither an approval nor a start. -/
theorem keeps_finishRestore (request_id : Nat) (success : Bool) (result : Dict)
    (error : Option String) :
    Keeps (supervised env) Orderly (finishRestore request_id success result error) := by
  refine keeps_bind (keeps_perform (by simp [Command.effect])) fun now => ?_
  exact keeps_harmless ((issues_perform _).mpr (Or.inr ⟨_, _, _, _, _, rfl⟩))

theorem keeps_audit (actor action object_type object_id : String) (details : Dict) :
    Keeps (supervised env) Orderly (audit actor action object_type object_id details) := by
  have footprint : Footprint [.silent, .writing .audits]
      (audit actor action object_type object_id details) :=
    footprint_audit (by decide) (by decide) _ _ _ _ _
  exact keeps_footprint footprint (by decide)

/-- Reading the clock changes no request. -/
theorem orderly_utcnow (env : Environment) {world : World} (orderly : Orderly world) :
    Orderly (env.handler .utcnow world).2 :=
  orderly_other (by decide) orderly

/-- Reading a request changes none. -/
theorem orderly_selectRequest (env : Environment) {world : World} (request_id : Nat)
    (orderly : Orderly world) :
    Orderly (env.handler (.transact (.selectRequest request_id)) world).2 :=
  orderly_other (by simp [Command.effect, writes]) orderly

/-- A created request is pending under the policy. -/
theorem keeps_createRestoreRequest (requester : String) (point : Point)
    (target_platform target_name : String) (options : Dict) :
    Keeps (supervised env) Orderly (createRestoreRequest requester point target_platform
      target_name options .pending_approval) := by
  intro world orderly
  refine wp_bind (wp_utcnow orderly ?_)
  refine wp_bind (wp_transact (orderly_utcnow env orderly) ?_)
  exact keeps_bind (keeps_audit _ _ _ _ _) (fun _ => keeps_pure _) _
    (orderly_insert rfl (orderly_utcnow env orderly))

/-- An approval meets the pending request it checked, of another requester. -/
theorem keeps_approveRestore (request_id : Nat) (approver : String) :
    Keeps (supervised env) Orderly (approveRestore request_id approver true) := by
  intro world orderly
  refine wp_bind (wp_transact orderly ?_)
  cases found : Transaction.read world.db (.selectRequest request_id) with
  | none => exact wp_throw (orderly_selectRequest env request_id orderly)
  | some req =>
    dsimp only
    split
    · exact wp_throw (orderly_selectRequest env request_id orderly)
    · split
      · exact wp_throw (orderly_selectRequest env request_id orderly)
      · rename_i pending other
        refine wp_bind (wp_utcnow (orderly_selectRequest env request_id orderly) ?_)
        have before := orderly_utcnow env (orderly_selectRequest env request_id orderly)
        refine wp_bind (wp_transact before ?_)
        refine keeps_audit _ _ _ _ _ _ (orderly_modify rfl (fun _ => by simp) ?_ before)
        intro inserted row present accountable
        have same : row = req := Option.some.inj (present.symm.trans found)
        subst same
        have different : approver ≠ inserted.requester := by
          intro same
          exact other ⟨rfl, accountable.requester.trans same.symm⟩
        exact ⟨accountable.pending, accountable.requester, by simp,
          fun _ => ⟨approver, rfl, different⟩⟩

/-- A start meets the approved request it checked. -/
theorem keeps_startRestore (request_id : Nat) (actor : String) :
    Keeps (supervised env) Orderly (startRestore request_id actor) := by
  intro world orderly
  refine wp_bind (wp_transact orderly ?_)
  cases found : Transaction.read world.db (.selectRequest request_id) with
  | none => exact wp_throw (orderly_selectRequest env request_id orderly)
  | some req =>
    dsimp only
    split
    · exact wp_throw (orderly_selectRequest env request_id orderly)
    · rename_i executable
      refine wp_bind (wp_utcnow (orderly_selectRequest env request_id orderly) ?_)
      have before := orderly_utcnow env (orderly_selectRequest env request_id orderly)
      refine wp_bind (wp_transact before ?_)
      refine keeps_bind (keeps_audit _ _ _ _ _) (fun _ => ?_) _
        (orderly_modify rfl (fun _ => by simp) ?_ before)
      · exact keeps_bind (keeps_getRestoreRequest request_id) fun _ => keeps_pure _
      · intro inserted row present accountable
        have same : row = req := Option.some.inj (present.symm.trans found)
        subst same
        refine ⟨accountable.pending, accountable.requester, by simp, ?_⟩
        intro _
        refine accountable.approved (Or.inl ?_)
        by_contra unapproved
        exact executable ⟨unapproved, accountable.unready⟩

variable (engine : Engine)

/-- Requests of both engines are created pending under the policy. -/
theorem keeps_requestRestore (enabled : engine.cfg.protection.require_four_eyes_restore = true)
    (snapshot_id requester target_platform : String) (target_name : Option String)
    (options : Dict) :
    Keeps (supervised env) Orderly
      (engine.requestRestore snapshot_id requester target_platform target_name options) := by
  have status : engine.initialStatus = .pending_approval := by
    simp [Engine.initialStatus, enabled]
  have native : Keeps (supervised env) Orderly
      (engine.requestNative snapshot_id requester target_platform target_name options) := by
    refine keeps_bind (keeps_getPoint snapshot_id) fun point => ?_
    split
    · exact keeps_throw _
    · refine keeps_bind (keeps_raised _) fun target => ?_
      split
      · exact keeps_throw _
      · split
        · exact keeps_throw _
        · rw [status]
          exact keeps_createRestoreRequest _ _ _ _ _
  unfold Engine.requestRestore
  split
  · exact native
  · refine keeps_bind (keeps_getPoint snapshot_id) fun point => ?_
    split
    · exact keeps_throw _
    · refine keeps_bind (keeps_raised _) fun target => ?_
      split
      · exact native
      · refine keeps_bind (keeps_perform (by simp [Command.effect])) fun plan => ?_
        split
        · exact keeps_throw _
        · rw [status]
          refine keeps_bind (keeps_createRestoreRequest _ _ _ _ _) fun request_id => ?_
          exact keeps_bind (keeps_audit _ _ _ _ _) fun _ => keeps_pure _

/-- An execution starts at most the approved request it checked. -/
theorem keeps_executeRestore (request_id : Nat) (actor : String) (dry_run : Bool) :
    Keeps (supervised env) Orderly (engine.executeRestore request_id actor dry_run) := by
  unfold Engine.executeRestore
  split
  · exact keeps_bind (keeps_footprint (engine.footprint_lookup request_id true) (by decide))
      fun _ => keeps_pure _
  · refine keeps_bind (keeps_footprint (engine.footprint_prepareRestore request_id actor)
      (by decide)) fun prepared => ?_
    refine keeps_bind (keeps_startRestore _ actor) fun req => ?_
    refine keeps_tryCatch ?_ fun error => ?_
    · refine keeps_bind (keeps_footprint (engine.footprint_fetchSource prepared) (by decide))
        fun _ => ?_
      refine keeps_bind (keeps_footprint (engine.footprint_createMachine prepared _) (by decide))
        fun result => ?_
      refine keeps_bind (keeps_finishRestore _ _ _ _) fun _ => ?_
      refine keeps_bind (keeps_audit _ _ _ _ _) fun _ => ?_
      exact keeps_bind (keeps_rmtree _) fun _ => keeps_pure _
    · refine keeps_bind (keeps_finishRestore _ _ _ _) fun _ => ?_
      refine keeps_bind (keeps_audit _ _ _ _ _) fun _ => ?_
      dsimp only
      split
      · exact keeps_bind (keeps_rmtree _) fun _ => keeps_throw _
      · exact keeps_throw _

/-- A session keeps every request it creates accountable. -/
theorem keeps_session (enabled : engine.cfg.protection.require_four_eyes_restore = true)
    (operations : List Operation) : Keeps (supervised env) Orderly (session engine operations) := by
  induction operations with
  | nil => exact keeps_pure _
  | cons operation rest inductionHypothesis =>
    refine keeps_bind (keeps_attempt ?_) fun _ => inductionHypothesis
    cases operation with
    | request snapshot_id requester target_platform target_name options =>
      exact keeps_bind (keeps_requestRestore engine enabled _ _ _ _ _) fun _ => keeps_pure _
    | approve request_id approver =>
      have approves : Keeps (supervised env) Orderly (approveRestore request_id approver true) :=
        keeps_approveRestore request_id approver
      rwa [← enabled] at approves
    | execute request_id actor dry_run =>
      exact keeps_bind (keeps_executeRestore engine _ _ _) fun _ => keeps_pure _
    | finish request_id success result error => exact keeps_finishRestore _ _ _ _

/-- An execution of a request that is neither approved nor ready raises before it
creates a machine, and no request is changed. -/
theorem wp_executeRestore_refused (env : Environment) {world : World} {request_id : Nat}
    (actor : String)
    (unapproved : ∀ row, world.db.requests.lookup request_id = some row →
      row.status ≠ .approved ∧ row.status ≠ .ready) :
    wp (env.handler.monitor fun _ command => Command.effect command ≠ .creation)
      (engine.executeRestore request_id actor false)
      (fun outcome final => (∃ error, outcome = .error error) ∧
        final.db.requests = world.db.requests) world := by
  unfold Engine.executeRestore
  rw [if_neg (by simp)]
  refine wp_bind (wp_mono (wp_yields (wp_footprint
    (fun current => current.db.requests = world.db.requests)
    (engine.footprint_prepareRestore request_id actor) rfl ?_)
    (engine.yields_prepareRestore request_id actor)) ?_)
  · intro current command same listed
    have writesNone : command.effect ≠ .writing .requests := by
      intro impossible
      exact absurd (impossible ▸ listed) (by decide)
    refine ⟨?_, ?_⟩
    · intro impossible
      exact absurd (impossible ▸ listed) (by decide)
    · intro answer _
      exact (commit_same current.db writesNone).trans same
  · rintro outcome current ⟨same, own⟩
    cases outcome with
    | error error => exact ⟨⟨error, rfl⟩, same⟩
    | ok prepared =>
      have own : prepared.request_id = request_id := own prepared rfl
      subst own
      refine wp_bind (wp_bind (wp_transact (by simp [Command.effect, writes]) ?_))
      have reads : Transaction.read current.db (.selectRequest prepared.request_id) =
          world.db.requests.lookup prepared.request_id := by
        simp only [Transaction.read, same]
      rw [reads]
      cases found : world.db.requests.lookup prepared.request_id with
      | none => exact wp_throw ⟨⟨_, rfl⟩, same⟩
      | some req =>
        dsimp only
        rw [if_pos (unapproved req found)]
        exact wp_throw ⟨⟨_, rfl⟩, same⟩

variable {engine} (env)

/-- The four-eyes rule. Over any session under the policy, a request that the
session created and that is running in some state was created pending and has an
approver other than its requester. And whenever a request is neither approved
nor ready, executing it raises, leaves its row unchanged, and asks neither an
adapter nor a conversion provider to create a machine. -/
theorem four_eyes (enabled : engine.cfg.protection.require_four_eyes_restore = true)
    (db : Database) (clock : Timestamps.Timestamp) (operations : List Operation) :
    (∀ world ∈ visited env.handler (session engine operations) ⟨db, clock, []⟩,
      ∀ request_id inserted row, Created world request_id inserted →
        world.db.requests.lookup request_id = some row → row.status = .running →
        inserted.status = .pending_approval ∧ row.requester = inserted.requester ∧
          ∃ approver, row.approved_by = some approver ∧ approver ≠ row.requester) ∧
    ∀ world request_id actor, (∀ row, world.db.requests.lookup request_id = some row →
        row.status ≠ .approved ∧ row.status ≠ .ready) →
      (∃ error, (run env.handler (engine.executeRestore request_id actor false) world).1 =
        .error error) ∧
      (run env.handler (engine.executeRestore request_id actor false) world).2.db.requests.lookup
        request_id = world.db.requests.lookup request_id ∧
      ∀ entry ∈ issued env.handler (engine.executeRestore request_id actor false) world,
        Command.effect entry.2 ≠ .creation := by
  constructor
  · have orderly : Orderly ⟨db, clock, []⟩ := fun _ _ created => by cases created
    intro world passed request_id inserted row created found running
    have here := wp_visited (keeps_session engine enabled operations _ orderly) world passed
    have accountable := (here request_id inserted created).2 row found
    obtain ⟨approver, approved, different⟩ := accountable.approved (Or.inr running)
    exact ⟨accountable.pending, accountable.requester, approver, approved,
      accountable.requester ▸ different⟩
  · intro world request_id actor unapproved
    have refused := wp_executeRestore_refused engine env actor unapproved
    obtain ⟨raises, same⟩ := wp_run refused
    exact ⟨raises, by rw [same], wp_issued refused⟩

end Sessions

/-- The rule for a session in which alice requests, bob approves and alice executes. -/
theorem four_eyes_sample :
    let engine : Engine := { vault with certified := true }
    let operations : List Operation := [.request "4f1c" "alice" "pve" none [],
      .approve 2 "bob", .execute 2 "alice" false]
    (∀ world ∈ visited Environment.obliging.handler (session engine operations) ⟨catalogue, 0, []⟩,
      ∀ request_id inserted row, Created world request_id inserted →
        world.db.requests.lookup request_id = some row → row.status = .running →
        inserted.status = .pending_approval ∧ row.requester = inserted.requester ∧
          ∃ approver, row.approved_by = some approver ∧ approver ≠ row.requester) ∧
    ∀ world request_id actor, (∀ row, world.db.requests.lookup request_id = some row →
        row.status ≠ .approved ∧ row.status ≠ .ready) →
      (∃ error, (run Environment.obliging.handler
        (engine.executeRestore request_id actor false) world).1 = .error error) ∧
      (run Environment.obliging.handler
        (engine.executeRestore request_id actor false) world).2.db.requests.lookup
        request_id = world.db.requests.lookup request_id ∧
      ∀ entry ∈ issued Environment.obliging.handler
        (engine.executeRestore request_id actor false) world,
        Command.effect entry.2 ≠ .creation :=
  four_eyes Environment.obliging rfl catalogue 0 _

end Immutavault.FourEyes
