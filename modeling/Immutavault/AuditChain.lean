import Immutavault.HashChains
import Immutavault.StateDatabase

/-!
# The audit chain under concurrent appends

Every audited action appends one event to a chain of digests, and an auditor
recomputes the chain. Appending takes two transactions: one reads the last
digest, one inserts the event that refers to it. Two callers that read the same
last digest both refer to it, and the chain no longer verifies.

The complaints of the auditor are related to linkage in the general sense, where
appending is understood. Over any interleaving of any number of calls, the chain
verifies exactly when every insert still found the digest that it refers to.
-/

namespace Immutavault.AuditChain

open Programs Interleavings Values Catalog Machine StateDatabase HashChains

/-- What a digest covers besides the previous digest. -/
structure AuditEvent where
  created_at : String
  actor : String
  action : String
  object_type : String
  object_id : String
  details_json : String

/-- The digest of an event over its predecessor. -/
def digest (event : AuditEvent) (prev_hash : String) : String :=
  auditHash event.created_at event.actor event.action event.object_type event.object_id
    event.details_json prev_hash

/-- A row as an entry of a chain; a missing digest reads as empty. -/
def entry (row : AuditRow) : Entry AuditEvent String where
  event := ⟨row.created_at, row.actor, row.action, row.object_type, row.object_id,
    row.details_json⟩
  previous := row.prev_hash.getD ""
  hash := row.event_hash.getD ""

/-- The audit table as a chain. -/
def chain (db : Database) : List (Entry AuditEvent String) :=
  db.audits.rows.map fun row => entry row.2

/-- A digest is never empty and never the seed. -/
theorem digest_ne (event : AuditEvent) (prev_hash : String) {text : String}
    (short : text.length ≠ 64) : digest event prev_hash ≠ text := by
  intro same
  apply short
  rw [← same]
  exact length_auditHash _ _ _ _ _ _ _

/-- The auditor has no complaint exactly when the rows are linked. -/
theorem chainErrors_eq_nil (prev_hash : String) (rows : List (Nat × AuditRow)) :
    chainErrors prev_hash rows = [] ↔
      Linked digest prev_hash (rows.map fun row => entry row.2) := by
  induction rows generalizing prev_hash with
  | nil => simp [chainErrors, Linked]
  | cons row rest inductionHypothesis =>
    obtain ⟨number, row⟩ := row
    have covered : AuditRow.hash row prev_hash = digest (entry row).event prev_hash := rfl
    simp only [chainErrors, List.append_eq_nil_iff, inductionHypothesis, List.map_cons, Linked,
      covered, and_assoc]
    have refers : ((if row.prev_hash.getD "" ≠ prev_hash then
        [s!"audit event {number} previous hash mismatch"] else []) = []) ↔
        (entry row).previous = prev_hash := by
      simp [entry]
    have covers : ((if row.event_hash.getD "" ≠ digest (entry row).event prev_hash then
        [s!"audit event {number} hash mismatch"] else []) = []) ↔
        (entry row).hash = digest (entry row).event prev_hash := by
      simp [entry]
    rw [refers, covers]
    refine and_congr_right fun _ => and_congr_right fun hashed => ?_
    have filled : row.event_hash.getD "" ≠ "" := by
      have value : row.event_hash.getD "" = digest (entry row).event prev_hash := hashed
      rw [value]
      exact digest_ne _ _ (by decide)
    simp only [if_neg filled]
    rfl

/-- Verification answers for the rows it reads. -/
theorem run_verifyAuditChain (env : Environment) (world : World) :
    (run env.handler verifyAuditChain world).1 = .ok (true, []) ↔
      Linked digest "GENESIS" (chain world.db) := by
  rw [chain, ← chainErrors_eq_nil]
  have answered : (run env.handler verifyAuditChain world).1 =
      .ok (decide (chainErrors "GENESIS" world.db.audits.rows = []),
        chainErrors "GENESIS" world.db.audits.rows) := rfl
  rw [answered]
  simp

/-- The last digest that an append reads is the last digest of a linked chain. -/
theorem tailHash_auditTail {db : Database} (linked : Linked digest "GENESIS" (chain db)) :
    tailHash (Transaction.read db .auditTail) = tail "GENESIS" (chain db) := by
  simp only [chain, Transaction.read] at linked ⊢
  rcases List.eq_nil_or_concat db.audits.rows with empty | ⟨rows, last, ends⟩
  · simp only [empty]
    rfl
  · rw [List.concat_eq_append] at ends
    rw [ends, List.map_append, List.map_cons, List.map_nil, linked_concat] at linked
    have filled : last.2.event_hash.getD "" ≠ "" := by
      have value : last.2.event_hash.getD "" = _ := linked.2.2
      rw [value]
      exact digest_ne _ _ (by decide)
    rw [ends, List.map_append, List.map_cons, List.map_nil, tail_concat, List.getLast?_concat]
    cases hash : last.2.event_hash with
    | none => simp [hash] at filled
    | some text =>
      have nonempty : text ≠ "" := by simpa [hash] using filled
      simp [tailHash, entry, hash, nonempty]

/-- One call of an auditing method. -/
structure AuditCall where
  actor : String
  action : String
  object_type : String
  object_id : String
  details : Dict

def AuditCall.program (call : AuditCall) : Prog Unit :=
  audit call.actor call.action call.object_type call.object_id call.details

/-- A command that leaves the chain alone, or inserts an event whose digest covers
the digest it refers to. -/
def Appends : Command → Prop
  | .transact (.insertAudit row) => ∃ prev_hash, row.prev_hash = some prev_hash ∧
      row.event_hash = some (AuditRow.hash row prev_hash)
  | command => command.effect ≠ .writing .audits

/-- A step that inserts an event does so while the digest it refers to is the last one. -/
def Fresh {ι : Type} (step : Step controller Exn ι World) : Prop :=
  match step.command with
  | .transact (.insertAudit row) =>
    row.prev_hash = some (tailHash (Transaction.read step.state.db .auditTail))
  | _ => True

/-- A chain stays linked exactly when it was and an inserted event refers to its end. -/
theorem linked_commit (db : Database) (row : AuditRow) {prev_hash : String}
    (refers : row.prev_hash = some prev_hash)
    (covers : row.event_hash = some (AuditRow.hash row prev_hash)) :
    Linked digest "GENESIS" (chain (Environment.commit db (.transact (.insertAudit row)))) ↔
      Linked digest "GENESIS" (chain db) ∧
        row.prev_hash = some (tailHash (Transaction.read db .auditTail)) := by
  have extended : chain (Environment.commit db (.transact (.insertAudit row))) =
      chain db ++ [entry row] := by
    simp [chain, Environment.commit, Transaction.write]
  rw [extended, linked_concat]
  refine and_congr_right fun linked => ?_
  rw [tailHash_auditTail linked, refers, Option.some_inj]
  have previous : (entry row).previous = prev_hash := by simp [entry, refers]
  have hashed : (entry row).hash = digest (entry row).event prev_hash := by
    simp only [entry, covers, Option.getD_some]
    rfl
  rw [previous]
  constructor
  · exact fun linked => linked.1
  · intro same
    exact ⟨same, by rw [← same, hashed]⟩

/-- A command that does not insert an event leaves the chain as it is. -/
theorem chain_commit (db : Database) {command : Command}
    (other : command.effect ≠ .writing .audits) :
    chain (Environment.commit db command) = chain db := by
  have same : (Environment.commit db command).audits = db.audits := commit_same db other
  simp only [chain, same]

/-- The commands of one call, judged without regard to the answers. -/
def appending : Monitor controller Exn Unit where
  permits := fun _ command => Appends command
  possible := fun _ _ _ => True
  next := fun _ _ _ => ()

/-- Every call only reads, or inserts an event over the digest that it read. -/
theorem audit_appends (call : AuditCall) :
    wp appending call.program (fun _ _ => True) () := by
  refine wp_bind (wp_perform (by simp [appending, Appends, Command.effect]) ?_)
  intro created_at _
  cases created_at with
  | error error => trivial
  | ok created_at =>
    refine wp_bind (wp_perform (by simp [appending, Appends, Command.effect, writes]) ?_)
    intro tail _
    cases tail with
    | error error => trivial
    | ok tail =>
      refine wp_perform ?_ fun _ _ => trivial
      exact ⟨tailHash tail, rfl, rfl⟩

/-- A permitted command inserts a covered event or leaves the chain alone. -/
theorem appends_cases {command : Command} (appends : Appends command) :
    (∃ row prev_hash, command = .transact (.insertAudit row) ∧ row.prev_hash = some prev_hash ∧
      row.event_hash = some (AuditRow.hash row prev_hash)) ∨
    command.effect ≠ .writing .audits := by
  unfold Appends at appends
  split at appends
  · obtain ⟨prev_hash, refers, covers⟩ := appends
    exact Or.inl ⟨_, prev_hash, rfl, refers, covers⟩
  · exact Or.inr appends

section Concurrency

variable {ι : Type} [DecidableEq ι] (env : Environment)

/-- A linked chain stays linked over a fresh step. -/
theorem preserves_linked : Preserves (ι := ι) env.handler appending
    (fun world _ _ => Linked digest "GENESIS" (chain world.db)) Fresh (fun _ => True) := by
  intro world history phases thread command linked permitted fresh
  refine ⟨trivial, trivial, ?_⟩
  change Linked digest "GENESIS" (chain (Environment.commit world.db command))
  rcases appends_cases permitted with ⟨row, prev_hash, rfl, refers, covers⟩ | other
  · exact (linked_commit world.db row refers covers).mpr ⟨linked, fresh⟩
  · rwa [chain_commit world.db other]

/-- A broken chain stays broken over any step. -/
theorem preserves_broken : Preserves (ι := ι) env.handler appending
    (fun world _ _ => ¬ Linked digest "GENESIS" (chain world.db)) (fun _ => True)
    (fun _ => True) := by
  intro world history phases thread command broken permitted _
  refine ⟨trivial, trivial, ?_⟩
  change ¬ Linked digest "GENESIS" (chain (Environment.commit world.db command))
  rcases appends_cases permitted with ⟨row, prev_hash, rfl, refers, covers⟩ | other
  · intro linked
    exact broken ((linked_commit world.db row refers covers).mp linked).1
  · rwa [chain_commit world.db other]

/-- Any step leaves every call where it only reads and inserts covered events. -/
theorem preserves_judgement : Preserves (ι := ι) env.handler appending (fun _ _ _ => True)
    (fun _ => True) (fun _ => True) :=
  fun _ _ _ _ _ _ _ _ => ⟨trivial, trivial, trivial⟩

/-- After a step that inserts an event over a stale digest the chain is broken. -/
theorem advance_stale {pool : Pool controller Exn ι World} {phases : ι → Unit}
    (judged : Judged appending (fun _ _ => True) pool phases) {thread : ι} {command : Command}
    {resume : Except Exn command.Answer → Prog Unit}
    (current : pool.threads thread = .call command resume)
    (stale : ¬ Fresh (⟨pool.state, pool.history, thread, command⟩ : Step controller Exn ι World)) :
    ¬ Linked digest "GENESIS" (chain (advance env.handler pool thread).state.db) := by
  have own := judged thread
  rw [current] at own
  have committed : (advance env.handler pool thread).state.db =
      Environment.commit pool.state.db command := by
    simp [advance, current, Environment.handler]
  rw [committed]
  rcases appends_cases own.1 with ⟨row, prev_hash, rfl, refers, covers⟩ | other
  · intro extended
    exact stale ((linked_commit pool.state.db row refers covers).mp extended).2
  · exfalso
    apply stale
    unfold Fresh
    split
    · rename_i row inserted
      exact absurd (by rw [show command = _ from inserted]; rfl) other
    · trivial

variable (calls : ι → AuditCall) (world : World)

omit [DecidableEq ι] in
/-- Every call starts where it only reads and inserts covered events. -/
theorem judged_start : Judged appending (fun _ _ => True)
    (Pool.start (fun thread => (calls thread).program) world) (fun _ => ()) :=
  fun thread => audit_appends (calls thread)

/-- Verification under concurrency. Starting from a chain that verifies, it
verifies after any interleaving of the transactions of any audit calls exactly
when every insert found the digest it refers to still the last one. -/
theorem audit_chain_interleaved
    (verified : (run env.handler verifyAuditChain world).1 = .ok (true, []))
    (schedule : List ι) :
    (run env.handler verifyAuditChain (interleave env.handler schedule
        (Pool.start (fun thread => (calls thread).program) world)).state).1 = .ok (true, []) ↔
      ∀ step ∈ steps env.handler schedule
        (Pool.start (fun thread => (calls thread).program) world), Fresh step := by
  rw [run_verifyAuditChain] at verified ⊢
  constructor
  · intro linked
    rcases first_violation env.handler Fresh schedule
      (Pool.start (fun thread => (calls thread).program) world) with
      fresh | ⟨before, thread, after, command, resume, divided, met, current, stale⟩
    · exact fresh
    · exfalso
      obtain ⟨_, phases, judged, sound⟩ := interleave_invariant (preserves_linked env)
        (judged_start calls world) verified before met
      have broken := advance_stale env judged current stale
      obtain ⟨_, _, later, _⟩ := advance_invariant (preserves_judgement env) judged trivial thread
        (by simp)
      obtain ⟨_, _, _, remains⟩ := interleave_invariant (preserves_broken env) later broken after
        (by simp)
      rw [divided, interleave_append, interleave_cons] at linked
      exact remains linked
  · intro fresh
    obtain ⟨_, _, _, linked⟩ := interleave_invariant (preserves_linked env)
      (judged_start calls world) verified schedule fresh
    exact linked

end Concurrency

/-- Two logins audited at the same time. -/
def twoLogins (thread : Bool) : AuditCall :=
  ⟨if thread then "alice" else "bob", "portal.login", "session", "portal", []⟩

/-- Both calls read the last digest before either inserts its event. -/
def racing : Pool controller Exn Bool World :=
  interleave Environment.mute.handler [false, false, true, true, false, true]
    (Pool.start (fun thread => (twoLogins thread).program) ⟨{}, 0, []⟩)

/-- The event of a login that refers to the seed. -/
def loginRow (thread : Bool) (now : Timestamps.Timestamp) : AuditRow :=
  let row : AuditRow := {
    created_at := Timestamps.isoformat now
    actor := (twoLogins thread).actor
    action := "portal.login"
    object_type := "session"
    object_id := "portal"
    details_json := Json.dumpsCompact (.obj [])
    prev_hash := some "GENESIS"
    event_hash := none }
  { row with event_hash := some (AuditRow.hash row "GENESIS") }

/-- Both events of the race refer to the seed. -/
theorem racing_rows : racing.state.db.audits.rows = [(1, loginRow false 0), (2, loginRow true 2)] :=
  rfl

/-- From an empty table, two complete calls can leave a chain that does not verify. -/
theorem racing_appends :
    (run Environment.mute.handler verifyAuditChain ⟨{}, 0, []⟩).1 = .ok (true, []) ∧
    (∀ thread, racing.threads thread = .ret ()) ∧
    (run Environment.mute.handler verifyAuditChain racing.state).1 ≠ .ok (true, []) := by
  refine ⟨rfl, ?_, ?_⟩
  · intro thread
    cases thread <;> rfl
  · intro verified
    rw [run_verifyAuditChain, chain, racing_rows] at verified
    have linked : "GENESIS" = digest (entry (loginRow false 0)).event "GENESIS" := verified.2.2.1
    exact digest_ne _ _ (by decide) linked.symm

/-- The equivalence where the two calls run one after the other. -/
theorem audit_chain_interleaved_in_turn :
    (run Environment.mute.handler verifyAuditChain
      (interleave Environment.mute.handler [false, false, false, true, true, true]
        (Pool.start (fun thread => (twoLogins thread).program) ⟨{}, 0, []⟩)).state).1 =
        .ok (true, []) ↔
      ∀ step ∈ steps Environment.mute.handler [false, false, false, true, true, true]
        (Pool.start (fun thread => (twoLogins thread).program) ⟨{}, 0, []⟩), Fresh step :=
  audit_chain_interleaved Environment.mute twoLogins ⟨{}, 0, []⟩ rfl
    [false, false, false, true, true, true]

end Immutavault.AuditChain
