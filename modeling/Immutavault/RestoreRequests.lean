import Immutavault.RestoreEngine

/-!
# Restore requests under concurrent calls

Approving and starting a request each read its row, check its status and then
update it, and the check and the update are two transactions. Calls of several
operators interleave, so an update may meet another status than the one that was
checked.

One call follows a simple discipline: it starts the request at most once, it
creates a machine only after it started the request, and it finishes the request
only after that. Over any interleaving of any number of calls, this discipline
gives a request at most one execution and a status that only moves forward, as
long as every update still meets a status from which it may be made.
-/

namespace Immutavault.RestoreRequests

open Programs Interleavings Values Catalog Machine StateDatabase RestoreEngine

/-- The status of a request, if there is one. -/
def status (db : Database) (request_id : Nat) : Option RequestStatus :=
  (db.requests.lookup request_id).map (·.status)

/-- The request that a command updates, and the status it gives to it. -/
def moves : Command → Option (Nat × RequestStatus)
  | .transact (.approveRequest request_id ..) => some (request_id, .approved)
  | .transact (.startRequest request_id _) => some (request_id, .running)
  | .transact (.finishRequest request_id success ..) =>
    some (request_id, if success then .success else .failed)
  | _ => none

/-- Only commands that write requests move one. -/
theorem moves_eq_none {command : Command} (other : command.effect ≠ .writing .requests) :
    moves command = none := by
  unfold moves
  split
  · exact absurd rfl other
  · exact absurd rfl other
  · exact absurd rfl other
  · rfl

/-- A command that moves a present request gives its status to it. -/
theorem status_moved (db : Database) {command : Command} {request_id : Nat}
    {given current : RequestStatus} (moved : moves command = some (request_id, given))
    (present : status db request_id = some current) :
    status (Environment.commit db command) request_id = some given := by
  obtain ⟨row, found, _⟩ := Option.map_eq_some_iff.mp present
  unfold moves at moved
  split at moved <;> cases moved <;>
    simp [status, Environment.commit, Transaction.write, Tables.Numbered.lookup_modify, found]

/-- A command that writes no request leaves every status as it is. -/
theorem status_kept (db : Database) {command : Command}
    (other : command.effect ≠ .writing .requests) (request_id : Nat) :
    status (Environment.commit db command) request_id = status db request_id := by
  have same : (Environment.commit db command).requests = db.requests := commit_same db other
  simp only [status, same]

/-- The life of a request, in one step or none. -/
inductive Forward : Option RequestStatus → Option RequestStatus → Prop where
  | still (current : Option RequestStatus) : Forward current current
  | approved : Forward (some .pending_approval) (some .approved)
  | started : Forward (some .approved) (some .running)
  | startedAtOnce : Forward (some .ready) (some .running)
  | succeeded : Forward (some .running) (some .success)
  | failed : Forward (some .running) (some .failed)

/-- How far one call has come with its request. -/
inductive Phase where
  | idle
  | started
  | finished
  deriving DecidableEq

/-- The discipline of one call on one request. -/
def handling (request_id : Nat) : Monitor controller Exn Phase where
  permits := fun phase command =>
    match moves command with
    | some (target, .approved) | some (target, .running) => target = request_id ∧ phase = .idle
    | some (target, .success) | some (target, .failed) => target = request_id ∧ phase = .started
    | some _ => False
    | none => Command.effect command ≠ .writing .requests ∧
        (Command.effect command = .creation → phase = .started)
  possible := fun _ command answer => Command.Served command answer
  next := fun phase command _ =>
    match moves command with
    | some (_, .running) => .started
    | some (_, .success) | some (_, .failed) => .finished
    | _ => phase

section Calls

variable {request_id : Nat} {phase : Phase} {α : Type}

/-- Commands that neither write requests nor create machines. -/
def quiet : List Effect := [.silent, .outside, .ofRestic, .writing .audits]

/-- A quiet command is permitted in every phase and keeps it. -/
theorem handling_quiet {command : Command} (listed : command.effect ∈ quiet) :
    (handling request_id).permits phase command ∧
      ∀ answer, (handling request_id).next phase command answer = phase := by
  have writesNone : command.effect ≠ .writing .requests := by
    intro same
    exact absurd (same ▸ listed) (by decide)
  have createsNone : command.effect ≠ .creation := by
    intro same
    exact absurd (same ▸ listed) (by decide)
  constructor
  · simp only [handling, moves_eq_none writesNone]
    exact ⟨writesNone, fun creation => absurd creation createsNone⟩
  · intro answer
    simp only [handling, moves_eq_none writesNone]

/-- A command without any effect is permitted in every phase. -/
theorem permits_silent {command : Command} (silent : command.effect = .silent) :
    (handling request_id).permits phase command :=
  (handling_quiet (by rw [silent]; decide)).1

/-- A quiet segment keeps the phase. -/
theorem wp_quiet {program : Prog α} (footprint : Footprint quiet program) :
    wp (handling request_id) program (fun _ final => final = phase) phase := by
  refine wp_footprint (· = phase) footprint rfl ?_
  rintro current command rfl listed
  exact ⟨(handling_quiet listed).1, fun answer _ => (handling_quiet listed).2 answer⟩

/-- Auditing keeps the phase and does not raise. -/
theorem wp_audit (actor action object_type object_id : String) (details : Dict) :
    wp (handling request_id) (audit actor action object_type object_id details)
      (fun outcome final => final = phase ∧ outcome = .ok ()) phase := by
  refine wp_bind (wp_perform (permits_silent rfl) ?_)
  intro created_at served
  obtain ⟨created_at, rfl⟩ := served trivial
  refine wp_bind (wp_perform (permits_silent rfl) ?_)
  intro tail served
  obtain ⟨tail, rfl⟩ := served trivial
  refine wp_perform (handling_quiet (by simp [quiet, Command.effect, writes])).1 ?_
  intro written served
  obtain ⟨written, rfl⟩ := served trivial
  exact ⟨rfl, rfl⟩

/-- An approval updates the request at most once, before any start. -/
theorem wp_approveRestore (approver : String) (four_eyes : Bool) :
    wp (handling request_id) (approveRestore request_id approver four_eyes)
      (fun _ _ => True) .idle := by
  refine wp_bind (wp_perform (permits_silent rfl) ?_)
  intro req served
  obtain ⟨req, rfl⟩ := served trivial
  cases req with
  | none => exact wp_throw trivial
  | some req =>
    dsimp only
    split
    · exact wp_throw trivial
    · split
      · exact wp_throw trivial
      · refine wp_bind (wp_perform (permits_silent rfl) ?_)
        intro now served
        obtain ⟨now, rfl⟩ := served trivial
        refine wp_bind (wp_perform ⟨rfl, rfl⟩ ?_)
        intro updated served
        obtain ⟨updated, rfl⟩ := served trivial
        exact wp_mono (wp_audit _ _ _ _ _) fun _ _ _ => trivial

/-- A start that returns has moved the request to running. -/
theorem wp_startRestore (actor : String) :
    wp (handling request_id) (startRestore request_id actor)
      (fun outcome final => ∀ value, outcome = .ok value → final = .started) .idle := by
  have refused (error : Exn) : ∀ value : RequestRow,
      Except.error error = .ok value → Phase.idle = .started := fun _ impossible => by
    cases impossible
  refine wp_bind (wp_perform (permits_silent rfl) ?_)
  intro req served
  obtain ⟨req, rfl⟩ := served trivial
  cases req with
  | none => exact wp_throw (refused _)
  | some req =>
    dsimp only
    split
    · exact wp_throw (refused _)
    · refine wp_bind (wp_perform (permits_silent rfl) ?_)
      intro now served
      obtain ⟨now, rfl⟩ := served trivial
      refine wp_bind (wp_perform ⟨rfl, rfl⟩ ?_)
      intro updated served
      obtain ⟨updated, rfl⟩ := served trivial
      refine wp_bind (wp_mono (wp_audit _ _ _ _ _) ?_)
      rintro outcome final ⟨rfl, rfl⟩
      refine wp_bind (wp_perform (permits_silent rfl) ?_)
      intro row served
      obtain ⟨row, rfl⟩ := served trivial
      exact wp_pure fun _ _ => rfl

/-- Finishing is one update after the start, and does not raise. -/
theorem wp_finishRestore (success : Bool) (result : Dict) (error : Option String) :
    wp (handling request_id) (finishRestore request_id success result error)
      (fun outcome final => final = .finished ∧ outcome = .ok ()) .started := by
  refine wp_bind (wp_perform (permits_silent rfl) ?_)
  intro now served
  obtain ⟨now, rfl⟩ := served trivial
  refine wp_perform ?_ ?_
  · cases success <;> exact ⟨rfl, rfl⟩
  · intro finished served
    obtain ⟨finished, rfl⟩ := served trivial
    refine ⟨?_, rfl⟩
    cases success <;> rfl

variable (engine : Engine) {prepared : Engine.Prepared}

/-- A started restore that returns is finished; one that raises is not. -/
theorem wp_performRestore (own : prepared.request_id = request_id) (target_name actor : String) :
    wp (handling request_id) (engine.performRestore prepared target_name actor)
      (fun outcome final => ∀ error, outcome = .error error → final = .started) .started := by
  subst own
  refine wp_bind (wp_mono (wp_quiet
    ((engine.footprint_fetchSource prepared).mono (by decide))) ?_)
  rintro fetched phase rfl
  cases fetched with
  | error error => exact fun _ _ => rfl
  | ok fetched =>
    have created : wp (handling prepared.request_id) (engine.createMachine prepared target_name)
        (fun _ final => final = .started) .started := by
      refine wp_footprint (· = Phase.started)
        (engine.footprint_createMachine prepared target_name) rfl ?_
      rintro phase command rfl listed
      have creation : command.effect = .creation := by simpa using listed
      have other : command.effect ≠ .writing .requests := by rw [creation]; decide
      simp [handling, moves_eq_none other, other]
    refine wp_bind (wp_mono created ?_)
    rintro result phase rfl
    cases result with
    | error error => exact fun _ _ => rfl
    | ok result =>
      refine wp_bind (wp_mono (wp_finishRestore true result none) ?_)
      rintro outcome phase ⟨rfl, rfl⟩
      refine wp_bind (wp_mono (wp_audit _ _ _ _ _) ?_)
      rintro outcome phase ⟨rfl, rfl⟩
      refine wp_bind (wp_perform (permits_silent rfl) ?_)
      intro removed served
      obtain ⟨removed, rfl⟩ := served trivial
      exact wp_pure fun _ impossible => by cases impossible

/-- Recording a failure finishes the request that was started. -/
theorem wp_recordFailure (own : prepared.request_id = request_id) (actor : String)
    (error : Exn) :
    wp (handling request_id) (engine.recordFailure prepared actor error)
      (fun _ _ => True) .started := by
  subst own
  refine wp_bind (wp_mono (wp_finishRestore false [] _) ?_)
  rintro outcome phase ⟨rfl, rfl⟩
  refine wp_bind (wp_mono (wp_audit _ _ _ _ _) ?_)
  rintro outcome phase ⟨rfl, rfl⟩
  dsimp only
  split
  · refine wp_bind (wp_mono (wp_quiet (footprint_rmtree (by decide) _)) fun outcome _ _ => ?_)
    cases outcome <;> trivial
  · exact wp_throw trivial

/-- An execution keeps the discipline from its first command to its last. -/
theorem wp_executeRestore (actor : String) (dry_run : Bool) :
    wp (handling request_id) (engine.executeRestore request_id actor dry_run)
      (fun _ _ => True) .idle := by
  unfold Engine.executeRestore
  split
  · refine wp_bind (wp_mono (wp_quiet
      ((engine.footprint_lookup request_id true).mono (by decide))) fun outcome _ _ => ?_)
    cases outcome <;> trivial
  · refine wp_bind (wp_mono (wp_yields (wp_quiet
      ((engine.footprint_prepareRestore request_id actor).mono (by decide)))
      (engine.yields_prepareRestore request_id actor)) ?_)
    rintro outcome phase ⟨rfl, own⟩
    cases outcome with
    | error error => trivial
    | ok prepared =>
      have own : prepared.request_id = request_id := own prepared rfl
      subst own
      refine wp_bind (wp_mono (wp_startRestore actor) ?_)
      intro outcome phase started
      cases outcome with
      | error error => trivial
      | ok req =>
        have started : phase = .started := started req rfl
        subst started
        refine wp_tryCatch (wp_mono (wp_performRestore engine rfl _ actor) ?_)
        intro outcome phase remains
        cases outcome with
        | ok result => trivial
        | error error =>
          have remains : phase = .started := remains error rfl
          subst remains
          exact wp_recordFailure engine rfl actor error

end Calls

/-- One call of an operator on a request, on either engine. -/
inductive Call where
  | approve (engine : Engine) (approver : String)
  | execute (engine : Engine) (actor : String) (dry_run : Bool)

def Call.program (request_id : Nat) : Call → Prog Unit
  | .approve engine approver => engine.approveRestore request_id approver
  | .execute engine actor dry_run => do
    let _ ← engine.executeRestore request_id actor dry_run

/-- Every call keeps the discipline. -/
theorem wp_call (request_id : Nat) (call : Call) :
    wp (handling request_id) (call.program request_id) (fun _ _ => True) .idle := by
  cases call with
  | approve engine approver => exact wp_approveRestore approver _
  | execute engine actor dry_run =>
    refine wp_bind (wp_mono (wp_executeRestore engine actor dry_run) ?_)
    intro outcome phase _
    cases outcome <;> trivial

/-- A command that starts a request. -/
def starts (command : Command) : Bool := (moves command).map Prod.snd = some .running

/-- A command that creates a machine. -/
def creates (command : Command) : Bool := command.effect = .creation

/-- An update still meets a status from which it may be made. -/
def Guarded {ι : Type} (step : Step controller Exn ι World) : Prop :=
  match moves step.command with
  | some (target, .approved) =>
    status step.state.db target ∈ [some .pending_approval, some .approved]
  | some (target, .running) => status step.state.db target ∈ [some .approved, some .ready]
  | _ => True

instance {ι : Type} (step : Step controller Exn ι World) : Decidable (Guarded step) := by
  unfold Guarded
  split <;> infer_instance

section Standing

variable {ι : Type}

/-- Nobody has started the request, or exactly one call has, and the status shows
how far that call has come. -/
inductive Standing (current : Option RequestStatus) (starters : List ι) (phases : ι → Phase) :
    Prop where
  | untouched (nobody : starters = []) (idle : ∀ thread, phases thread = .idle) :
      Standing current starters phases
  | taken (starter : ι) (sole : starters = [starter])
      (idle : ∀ thread, thread ≠ starter → phases thread = .idle)
      (shown : (phases starter = .started ∧ current = some .running) ∨
        (phases starter = .finished ∧ (current = some .success ∨ current = some .failed))) :
      Standing current starters phases

variable {current : Option RequestStatus} {starters : List ι} {phases : ι → Phase} {thread : ι}

namespace Standing

/-- At most one call has started the request. -/
theorem length_le_one (standing : Standing current starters phases) : starters.length ≤ 1 := by
  cases standing with
  | untouched nobody idle => simp [nobody]
  | taken starter sole idle shown => simp [sole]

/-- A call that is past its start is the one that started. -/
theorem member (standing : Standing current starters phases) (busy : phases thread ≠ .idle) :
    thread ∈ starters := by
  cases standing with
  | untouched nobody idle => exact absurd (idle thread) busy
  | taken starter sole idle shown =>
    by_cases same : thread = starter
    · simp [sole, same]
    · exact absurd (idle thread same) busy

/-- As long as the status shows no start, there was none. -/
theorem unstarted (standing : Standing current starters phases)
    (early : current ∈ [some .pending_approval, some .approved, some .ready]) :
    starters = [] ∧ ∀ thread, phases thread = .idle := by
  cases standing with
  | untouched nobody idle => exact ⟨nobody, idle⟩
  | taken starter sole idle shown =>
    exfalso
    rcases shown with ⟨_, rfl⟩ | ⟨_, rfl | rfl⟩ <;> exact absurd early (by decide)

variable [DecidableEq ι]

/-- A start that meets an approved or ready request is the first. -/
theorem started (standing : Standing current starters phases)
    (early : current ∈ [some .pending_approval, some .approved, some .ready]) (thread : ι) :
    Standing (some .running) (starters ++ [thread]) (Function.update phases thread .started) := by
  obtain ⟨nobody, idle⟩ := standing.unstarted early
  refine .taken thread (by simp [nobody]) ?_ (Or.inl ⟨by simp, rfl⟩)
  intro other different
  simp [different, idle other]

/-- The call that started finds the request running, and finishes it. -/
theorem finished (standing : Standing current starters phases)
    (busy : phases thread = .started) {given : RequestStatus}
    (last : given = .success ∨ given = .failed) :
    current = some .running ∧
      Standing (some given) starters (Function.update phases thread .finished) := by
  cases standing with
  | untouched nobody idle => exact absurd (idle thread) (by rw [busy]; decide)
  | taken starter sole idle shown =>
    have same : thread = starter := by
      by_contra different
      exact absurd (idle thread different) (by rw [busy]; decide)
    subst same
    have running : current = some .running := by
      rcases shown with ⟨_, running⟩ | ⟨finished, _⟩
      · exact running
      · exact absurd finished (by rw [busy]; decide)
    refine ⟨running, .taken thread sole ?_ (Or.inr ⟨by simp, ?_⟩)⟩
    · intro other different
      simp [different, idle other different]
    · simpa using last

end Standing

end Standing

section Concurrency

variable {ι : Type} [DecidableEq ι] (env : Environment) (request_id : Nat)

/-- The calls stand well, and only a call that started has created a machine. -/
def Sole (world : World) (history : List (ι × Exchange controller Exn)) (phases : ι → Phase) :
    Prop :=
  Standing (status world.db request_id) (performers starts history) phases ∧
    ∀ thread ∈ performers creates history, thread ∈ performers starts history

/-- A guarded step moves the status forward and keeps the calls standing well. -/
theorem preserves_sole : Preserves (ι := ι) env.handler (handling request_id) (Sole request_id)
    Guarded (fun step => Forward (status step.state.db request_id)
      (status (Environment.commit step.state.db step.command) request_id)) := by
  rintro world history phases thread command ⟨standing, created⟩ permitted guarded
  have served := served_reply env world command
  have advanced : (env.handler command world).2.db = Environment.commit world.db command := rfl
  simp only [Sole, advanced, performers_concat]
  simp only [Guarded] at guarded
  cases moved : moves command with
  | none =>
    simp only [handling, moved] at permitted ⊢
    have unmoved := status_kept world.db permitted.1 request_id
    have noStart : starts command = false := by simp [starts, moved]
    refine ⟨unmoved ▸ Forward.still _, served, ?_⟩
    rw [unmoved, Function.update_eq_self]
    simp only [noStart, Bool.false_eq_true, if_false, List.append_nil]
    refine ⟨standing, ?_⟩
    intro creator member
    rcases List.mem_append.mp member with before | now
    · exact created creator before
    · cases creation : creates command with
      | false => simp [creation] at now
      | true =>
        have own : creator = thread := by simpa [creation] using now
        have busy : phases thread = .started := permitted.2 (by simpa [creates] using creation)
        exact own ▸ standing.member (by rw [busy]; decide)
  | some move =>
    obtain ⟨target, given⟩ := move
    have noCreation : creates command = false := by
      by_contra creation
      have effect : command.effect = .creation := by simpa [creates] using creation
      have other : command.effect ≠ .writing .requests := by rw [effect]; decide
      rw [moves_eq_none other] at moved
      exact absurd moved (by simp)
    simp only [noCreation, Bool.false_eq_true, if_false, List.append_nil]
    cases given with
    | pending_approval => simp [handling, moved] at permitted
    | ready => simp [handling, moved] at permitted
    | approved =>
      simp only [handling, moved] at permitted guarded ⊢
      obtain ⟨rfl, idle⟩ := permitted
      have noStart : starts command = false := by simp [starts, moved]
      obtain ⟨nobody, allIdle⟩ := standing.unstarted
        (by rcases List.mem_pair.mp guarded with here | here <;> simp [here])
      simp only [noStart, Bool.false_eq_true, if_false, List.append_nil, Function.update_eq_self]
      refine ⟨?_, served, .untouched nobody allIdle, created⟩
      rcases List.mem_pair.mp guarded with here | here
      · rw [status_moved world.db moved here, here]
        exact Forward.approved
      · rw [status_moved world.db moved here, here]
        exact Forward.still _
    | running =>
      simp only [handling, moved] at permitted guarded ⊢
      obtain ⟨rfl, idle⟩ := permitted
      have start : starts command = true := by simp [starts, moved]
      have begun := standing.started
        (by rcases List.mem_pair.mp guarded with here | here <;> simp [here]) thread
      simp only [start, if_true]
      rcases List.mem_pair.mp guarded with here | here
      · rw [status_moved world.db moved here, here]
        exact ⟨Forward.started, served, begun, fun creator before =>
          List.mem_append_left _ (created creator before)⟩
      · rw [status_moved world.db moved here, here]
        exact ⟨Forward.startedAtOnce, served, begun, fun creator before =>
          List.mem_append_left _ (created creator before)⟩
    | success =>
      simp only [handling, moved] at permitted ⊢
      obtain ⟨rfl, busy⟩ := permitted
      have noStart : starts command = false := by simp [starts, moved]
      obtain ⟨running, done⟩ := standing.finished busy (Or.inl rfl)
      simp only [noStart, Bool.false_eq_true, if_false, List.append_nil]
      rw [status_moved world.db moved running, running]
      exact ⟨Forward.succeeded, served, done, created⟩
    | failed =>
      simp only [handling, moved] at permitted ⊢
      obtain ⟨rfl, busy⟩ := permitted
      have noStart : starts command = false := by simp [starts, moved]
      obtain ⟨running, done⟩ := standing.finished busy (Or.inr rfl)
      simp only [noStart, Bool.false_eq_true, if_false, List.append_nil]
      rw [status_moved world.db moved running, running]
      exact ⟨Forward.failed, served, done, created⟩

variable (calls : ι → Call) (world : World)

/-- A request is executed at most once: over any interleaving of the transactions
of any approvals and executions whose updates each meet a status from which they
may be made, at most one call starts the request, only that call creates a
machine, and every step leaves the status or moves it forward. -/
theorem executed_at_most_once (schedule : List ι)
    (guarded : ∀ step ∈ steps env.handler schedule
      (Pool.start (fun thread => (calls thread).program request_id) world), Guarded step) :
    let reached := interleave env.handler schedule
      (Pool.start (fun thread => (calls thread).program request_id) world)
    (performers starts reached.history).length ≤ 1 ∧
    (∀ thread ∈ performers creates reached.history, thread ∈ performers starts reached.history) ∧
    ∀ step ∈ steps env.handler schedule
        (Pool.start (fun thread => (calls thread).program request_id) world),
      Forward (status step.state.db request_id)
        (status (Environment.commit step.state.db step.command) request_id) := by
  have judged : Judged (handling request_id) (fun _ _ => True)
      (Pool.start (fun thread => (calls thread).program request_id) world) (fun _ => .idle) :=
    fun thread => wp_call request_id (calls thread)
  have initially : Sole request_id world ([] : List (ι × Exchange controller Exn))
      (fun _ => .idle) :=
    ⟨.untouched rfl fun _ => rfl, by simp⟩
  obtain ⟨forward, phases, _, standing, created⟩ :=
    interleave_invariant (preserves_sole env request_id) judged initially schedule guarded
  exact ⟨standing.length_le_one, created, forward⟩

end Concurrency

/-- Two operators execute the same request. -/
def twoExecutions (thread : Bool) : Call :=
  .execute vault (if thread then "carol" else "dave") false

/-- One execution checks the status, the other runs from its first to its last
command, and the first continues. -/
def racing : Pool controller Exn Bool World :=
  interleave Environment.obliging.handler
    (List.replicate 7 false ++ List.replicate 24 true ++ List.replicate 17 false)
    (Pool.start (fun thread => (twoExecutions thread).program 1) ⟨catalogue, 0, []⟩)

/-- An approved request can be executed by two calls, each of which creates a machine. -/
theorem racing_executions :
    status catalogue 1 = some .approved ∧
    (∀ thread, racing.threads thread = .ret ()) ∧
    performers starts racing.history = [true, false] ∧
    performers creates racing.history = [true, false] := by
  refine ⟨by decide, ?_, by decide, by decide⟩
  intro thread
  cases thread <;> rfl

/-- The two executions in turn: the second is refused before it changes anything. -/
theorem executed_at_most_once_in_turn :
    let reached := interleave Environment.obliging.handler
      (List.replicate 24 false ++ List.replicate 24 true)
      (Pool.start (fun thread => (twoExecutions thread).program 1) ⟨catalogue, 0, []⟩)
    (performers starts reached.history).length ≤ 1 ∧
    (∀ thread ∈ performers creates reached.history, thread ∈ performers starts reached.history) ∧
    ∀ step ∈ steps Environment.obliging.handler
        (List.replicate 24 false ++ List.replicate 24 true)
        (Pool.start (fun thread => (twoExecutions thread).program 1) ⟨catalogue, 0, []⟩),
      Forward (status step.state.db 1)
        (status (Environment.commit step.state.db step.command) 1) :=
  executed_at_most_once Environment.obliging 1 twoExecutions ⟨catalogue, 0, []⟩
    (List.replicate 24 false ++ List.replicate 24 true) (by decide)

end Immutavault.RestoreRequests
