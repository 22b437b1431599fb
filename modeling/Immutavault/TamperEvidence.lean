import Immutavault.AuditChain

/-!
# What the audit chain gives evidence of

A table that verifies is determined by its last digest, as far as the digests of
its events do not collide: two tables that verify and end in the same digest hold
the same events. A table from before the chain is signed when the database is
opened, and verifies from then on, however much is appended to it.

Signing is repeated whenever the database is opened. It keeps every digest that is
there and fills in those that are missing, so it preserves the complaints about
signed rows, and drops the complaints about the others.
-/

namespace Immutavault.TamperEvidence

open Programs Values Catalog Machine StateDatabase HashChains AuditChain

section Backfill

/-- A row that carries a digest. -/
def Signed (row : AuditRow) : Prop := row.event_hash.getD "" ≠ ""

instance (row : AuditRow) : Decidable (Signed row) := by
  unfold Signed
  infer_instance

/-- The digest that a row hands to the next one. -/
def handed (prev_hash : String) (row : AuditRow) : String :=
  if Signed row then row.event_hash.getD "" else AuditRow.hash row prev_hash

/-- A row as opening the database leaves it. -/
def sign (prev_hash : String) (row : AuditRow) : AuditRow :=
  if Signed row then row
  else { row with
    prev_hash := some prev_hash
    event_hash := some (AuditRow.hash row prev_hash) }

/-- The rows as opening the database leaves them. -/
def signAll (prev_hash : String) : List (Nat × AuditRow) → List (Nat × AuditRow)
  | [] => []
  | (number, row) :: rest => (number, sign prev_hash row) :: signAll (handed prev_hash row) rest

/-- Changing a row with a number of its own changes this row only. -/
theorem alter_own {number : Nat} {row : AuditRow} {change : AuditRow → AuditRow}
    {done rest : List (Nat × AuditRow)}
    (distinct : ((done ++ (number, row) :: rest).map Prod.fst).Nodup) :
    Tables.alter number change (done ++ (number, row) :: rest) =
      done ++ (number, change row) :: rest := by
  have others : ∀ entry ∈ done ++ rest, entry.1 ≠ number := by
    rw [List.map_append, List.map_cons, List.nodup_middle, List.nodup_cons] at distinct
    intro entry member same
    refine distinct.1 ?_
    rw [← List.map_append]
    exact List.mem_map.mpr ⟨entry, member, same⟩
  have kept : ∀ {part : List (Nat × AuditRow)}, (∀ entry ∈ part, entry.1 ≠ number) →
      Tables.alter number change part = part := by
    intro part different
    refine (List.map_congr_left fun entry member => ?_).trans (List.map_id part)
    exact if_neg (different entry member)
  have first := kept fun entry member => others entry (List.mem_append_left rest member)
  have second := kept fun entry member => others entry (List.mem_append_right done member)
  rw [Tables.alter] at first second ⊢
  rw [List.map_append, List.map_cons, first, second, if_pos rfl]

/-- The updates of opening the database sign the rows in order. -/
theorem rows_backfillRows (prev_hash : String) {done rest : List (Nat × AuditRow)}
    {audits : Tables.Numbered AuditRow} (split : audits.rows = done ++ rest) :
    (backfillRows prev_hash rest audits).rows = done ++ signAll prev_hash rest := by
  induction rest generalizing prev_hash done audits with
  | nil => simpa [backfillRows, signAll] using split
  | cons entry rest inductionHypothesis =>
    obtain ⟨number, row⟩ := entry
    rw [backfillRows, signAll]
    by_cases blank : row.event_hash.getD "" = ""
    · have unsigned : ¬ Signed row := fun signed => signed blank
      rw [if_pos blank, handed, sign, if_neg unsigned, if_neg unsigned]
      have distinct : (audits.rows.map Prod.fst).Nodup :=
        audits.ascending.imp fun less => Nat.ne_of_lt less
      rw [split] at distinct
      have changed : (audits.modify number fun stored =>
          { stored with
            prev_hash := some prev_hash
            event_hash := some (AuditRow.hash row prev_hash) }).rows =
          (done ++ [(number, { row with
            prev_hash := some prev_hash
            event_hash := some (AuditRow.hash row prev_hash) })]) ++ rest := by
        rw [Tables.Numbered.rows_modify, split, alter_own distinct, List.append_assoc]
        rfl
      rw [inductionHypothesis _ changed, List.append_assoc]
      rfl
    · have signed : Signed row := blank
      rw [if_neg blank, handed, sign, if_pos signed, if_pos signed]
      have moved : audits.rows = (done ++ [(number, row)]) ++ rest := by
        rw [split, List.append_assoc]
        rfl
      rw [inductionHypothesis _ moved, List.append_assoc]
      rfl

theorem rows_init (db : Database) :
    (init db).audits.rows = signAll "GENESIS" db.audits.rows :=
  rows_backfillRows "GENESIS" (List.nil_append _).symm

/-- A digest is never empty. -/
theorem hash_ne_empty (row : AuditRow) (prev_hash : String) : AuditRow.hash row prev_hash ≠ "" :=
  digest_ne (entry row).event prev_hash (by decide)

/-- Signed rows are left alone. -/
theorem backfillRows_signed (prev_hash : String) {rows : List (Nat × AuditRow)}
    (signed : ∀ entry ∈ rows, Signed entry.2) (audits : Tables.Numbered AuditRow) :
    backfillRows prev_hash rows audits = audits := by
  induction rows generalizing prev_hash with
  | nil => rfl
  | cons entry rest inductionHypothesis =>
    obtain ⟨first, others⟩ := List.forall_mem_cons.mp signed
    exact (if_neg first).trans (inductionHypothesis _ others)

theorem init_signed {db : Database} (signed : ∀ entry ∈ db.audits.rows, Signed entry.2) :
    init db = db := by
  rw [init, backfillAuditHashes, backfillRows_signed _ signed]

/-- Opening the database signs every row. -/
theorem signed_signAll (prev_hash : String) (rows : List (Nat × AuditRow)) :
    ∀ entry ∈ signAll prev_hash rows, Signed entry.2 := by
  induction rows generalizing prev_hash with
  | nil => simp [signAll]
  | cons entry rest inductionHypothesis =>
    refine List.forall_mem_cons.mpr ⟨?_, inductionHypothesis _⟩
    unfold sign
    split
    · assumption
    · exact hash_ne_empty _ _

/-- Opening the database again changes nothing. -/
theorem init_init (db : Database) : init (init db) = init db := by
  refine init_signed ?_
  rw [rows_init]
  exact signed_signAll _ _

/-- Every signed row continues the chain, where a row without a digest counts with the
digest that it should have. -/
def Continues (prev_hash : String) : List (Nat × AuditRow) → Prop
  | [] => True
  | (_, row) :: rest =>
    (Signed row → row.prev_hash.getD "" = prev_hash ∧
      row.event_hash.getD "" = AuditRow.hash row prev_hash) ∧
    Continues (handed prev_hash row) rest

/-- What is linked after the rows were signed. -/
theorem linked_signAll (prev_hash : String) (rows : List (Nat × AuditRow)) :
    Linked digest prev_hash ((signAll prev_hash rows).map fun row => entry row.2) ↔
      Continues prev_hash rows := by
  induction rows generalizing prev_hash with
  | nil => simp [signAll, Linked, Continues]
  | cons first rest inductionHypothesis =>
    obtain ⟨number, row⟩ := first
    rw [signAll, List.map_cons, Linked, Continues, ← inductionHypothesis, ← and_assoc]
    by_cases signed : Signed row
    · rw [sign, handed, if_pos signed, if_pos signed]
      refine and_congr ?_ Iff.rfl
      exact ⟨fun fits _ => fits, fun fits => fits signed⟩
    · rw [sign, handed, if_neg signed, if_neg signed]
      refine and_congr (iff_of_true ⟨rfl, rfl⟩ fun impossible => absurd impossible signed) Iff.rfl

end Backfill

section Evidence

/-- The row that an entry of a verified chain stands for. -/
def rowOf (entry : Entry AuditEvent String) : AuditRow where
  created_at := entry.event.created_at
  actor := entry.event.actor
  action := entry.event.action
  object_type := entry.event.object_type
  object_id := entry.event.object_id
  details_json := entry.event.details_json
  prev_hash := some entry.previous
  event_hash := some entry.hash

/-- A row both of whose digests are there is all that its entry says. -/
theorem rowOf_entry {row : AuditRow} (refers : (entry row).previous ≠ "")
    (signed : (entry row).hash ≠ "") : rowOf (entry row) = row := by
  obtain ⟨created_at, actor, action, object_type, object_id, details_json, prev_hash,
    event_hash⟩ := row
  cases prev_hash with
  | none => exact absurd rfl refers
  | some previous =>
    cases event_hash with
    | none => exact absurd rfl signed
    | some hash => rfl

/-- In a linked chain no digest is missing. -/
theorem filled_of_linked {previous : String} (filled : previous ≠ "")
    {entries : List (Entry AuditEvent String)} (linked : Linked digest previous entries) :
    ∀ entry ∈ entries, entry.previous ≠ "" ∧ entry.hash ≠ "" := by
  induction entries generalizing previous with
  | nil => simp
  | cons first rest inductionHypothesis =>
    obtain ⟨refers, hashed, continued⟩ := linked
    have own : first.hash ≠ "" := hashed ▸ digest_ne first.event previous (by decide)
    exact List.forall_mem_cons.mpr ⟨⟨refers ▸ filled, own⟩, inductionHypothesis own continued⟩

/-- Nor is any digest the seed. -/
theorem unseeded_of_linked {previous : String} {entries : List (Entry AuditEvent String)}
    (linked : Linked digest previous entries) : ∀ entry ∈ entries, entry.hash ≠ "GENESIS" := by
  induction entries generalizing previous with
  | nil => simp
  | cons first rest inductionHypothesis =>
    obtain ⟨_, hashed, continued⟩ := linked
    refine List.forall_mem_cons.mpr ⟨?_, inductionHypothesis continued⟩
    exact hashed ▸ digest_ne first.event previous (by decide)

/-- A verified table is read off its chain. -/
theorem rows_of_chain {db : Database} (linked : Linked digest "GENESIS" (chain db)) :
    db.audits.rows.map Prod.snd = (chain db).map rowOf := by
  have filled := filled_of_linked (by decide) linked
  rw [chain, List.map_map]
  refine List.map_congr_left fun row member => ?_
  obtain ⟨refers, signed⟩ := filled (entry row.2) (List.mem_map.mpr ⟨row, member, rfl⟩)
  exact (rowOf_entry refers signed).symm

/-- No two different events of the two tables, each with the digest that it refers to,
have the same digest. Of all texts this cannot be asked, for there are more of them than
digests. -/
def Apart (first second : Database) : Prop :=
  ∀ one ∈ chain first, ∀ other ∈ chain second,
    digest one.event one.previous = digest other.event other.previous →
      one.event = other.event ∧ one.previous = other.previous

/-- Two verified tables with the same last digest hold the same rows. -/
theorem rows_unique {first second : Database} (apart : Apart first second)
    (firstLinked : Linked digest "GENESIS" (chain first))
    (secondLinked : Linked digest "GENESIS" (chain second))
    (ends : Transaction.read first .auditTail = Transaction.read second .auditTail) :
    first.audits.rows.map Prod.snd = second.audits.rows.map Prod.snd := by
  have tails : tail "GENESIS" (chain first) = tail "GENESIS" (chain second) := by
    rw [← tailHash_auditTail firstLinked, ← tailHash_auditTail secondLinked, ends]
  have same : chain first = chain second := by
    refine linked_unique digest firstLinked secondLinked ?_ apart tails
    intro entry member
    rcases List.mem_append.mp member with one | other
    · exact unseeded_of_linked firstLinked entry one
    · exact unseeded_of_linked secondLinked entry other
  rw [rows_of_chain firstLinked, rows_of_chain secondLinked, same]

/-- Audited actions, one after another. -/
def auditEach : List AuditCall → Prog Unit
  | [] => return ()
  | call :: rest => do
    call.program
    auditEach rest

/-- An audited action extends a linked chain by a linked event. -/
theorem run_audit (env : Environment) (call : AuditCall) {world : World}
    (linked : Linked digest "GENESIS" (chain world.db)) :
    ∃ after, run env.handler call.program world = (.ok (), after) ∧
      Linked digest "GENESIS" (chain after.db) :=
  ⟨_, rfl, (linked_commit world.db _ rfl rfl).mpr ⟨linked, rfl⟩⟩

theorem run_auditEach (env : Environment) (calls : List AuditCall) {world : World}
    (linked : Linked digest "GENESIS" (chain world.db)) :
    ∃ after, run env.handler (auditEach calls) world = (.ok (), after) ∧
      Linked digest "GENESIS" (chain after.db) := by
  induction calls generalizing world with
  | nil => exact ⟨world, rfl, linked⟩
  | cons call rest inductionHypothesis =>
    obtain ⟨middle, ran, extended⟩ := run_audit env call linked
    obtain ⟨after, others, final⟩ := inductionHypothesis extended
    exact ⟨after, (run_bind_eq_ok env.handler).mpr ⟨(), middle, ran, others⟩, final⟩

/-- Without digests there is nothing that a row could contradict. -/
theorem continues_unsigned (prev_hash : String) {rows : List (Nat × AuditRow)}
    (unsigned : ∀ entry ∈ rows, ¬ Signed entry.2) : Continues prev_hash rows := by
  induction rows generalizing prev_hash with
  | nil => trivial
  | cons entry rest inductionHypothesis =>
    obtain ⟨first, others⟩ := List.forall_mem_cons.mp unsigned
    exact ⟨fun signed => absurd signed first, inductionHypothesis _ others⟩

/-- The tables that verify are told apart by their last digests, and a table without
digests verifies from its first opening on, after any audited actions. -/
theorem audit_chain_tamper_evident (env : Environment) :
    (∀ first second : World,
      (run env.handler verifyAuditChain first).1 = .ok (true, []) →
      (run env.handler verifyAuditChain second).1 = .ok (true, []) →
      Transaction.read first.db .auditTail = Transaction.read second.db .auditTail →
      Apart first.db second.db →
      first.db.audits.rows.map Prod.snd = second.db.audits.rows.map Prod.snd) ∧
    (∀ (world : World) (calls : List AuditCall),
      (∀ row ∈ world.db.audits.rows, ¬ Signed row.2) →
      (run env.handler (do auditEach calls; verifyAuditChain)
        { world with db := init world.db }).1 = .ok (true, [])) := by
  constructor
  · intro first second firstVerified secondVerified ends apart
    rw [run_verifyAuditChain] at firstVerified secondVerified
    exact rows_unique apart firstVerified secondVerified ends
  · intro world calls unsigned
    have signed : Linked digest "GENESIS" (chain (init world.db)) := by
      rw [chain, rows_init, linked_signAll]
      exact continues_unsigned _ unsigned
    obtain ⟨after, ran, linked⟩ := run_auditEach env calls
      (show Linked digest "GENESIS" (chain ({ world with db := init world.db } : World).db)
        from signed)
    rw [run_bind, ran]
    exact (run_verifyAuditChain env after).mpr linked

/-- A table with one event, under a number. -/
def single (number : Nat) (row : AuditRow) : World where
  db := { audits := ⟨[(number, row)], number + 1, by simp, by simp⟩ }
  clock := 1
  log := []

/-- An event from before the chain. -/
def undigested (row : AuditRow) : AuditRow := { row with prev_hash := none, event_hash := none }

/-- The same event under two numbers, and an event from before the chain on which another
is audited. -/
theorem audit_chain_tamper_evident_sample :
    (single 1 (loginRow false 0)).db.audits.rows.map Prod.snd =
      (single 5 (loginRow false 0)).db.audits.rows.map Prod.snd ∧
    (run Environment.mute.handler (do auditEach [twoLogins true]; verifyAuditChain)
      { single 1 (undigested (loginRow false 0)) with
        db := init (single 1 (undigested (loginRow false 0))).db }).1 = .ok (true, []) := by
  have verified : ∀ number, (run Environment.mute.handler verifyAuditChain
      (single number (loginRow false 0))).1 = .ok (true, []) := by
    intro number
    rw [run_verifyAuditChain]
    exact ⟨rfl, rfl, trivial⟩
  have only : ∀ number, ∀ given ∈ chain (single number (loginRow false 0)).db,
      given = entry (loginRow false 0) := by
    simp [chain, single]
  refine ⟨(audit_chain_tamper_evident Environment.mute).1 _ _ (verified 1) (verified 5) rfl ?_,
    (audit_chain_tamper_evident Environment.mute).2 _ [twoLogins true] ?_⟩
  · intro one member other listed _
    rw [only 1 one member, only 5 other listed]
    exact ⟨rfl, rfl⟩
  · intro row member signed
    have same : row = (1, undigested (loginRow false 0)) := by
      simpa [single] using member
    rw [same] at signed
    exact signed rfl

end Evidence

section Reopening

variable {env : Environment}

/-- Opening the database any number of times is opening it once, or not at all. -/
theorem iterate_init (db : Database) (times : Nat) :
    init^[times] db = db ∨ init^[times] db = init db := by
  induction times with
  | zero => exact Or.inl rfl
  | succ times inductionHypothesis =>
    rw [Function.iterate_succ_apply']
    rcases inductionHypothesis with same | once
    · exact Or.inr (by rw [same])
    · exact Or.inr (by rw [once, init_init])

/-- Verification of the table after the database was opened. -/
theorem run_verifyAuditChain_init (world : World) :
    (run env.handler verifyAuditChain { world with db := init world.db }).1 = .ok (true, []) ↔
      Continues "GENESIS" world.db.audits.rows := by
  rw [run_verifyAuditChain, chain, rows_init, linked_signAll]

/-- A verified table is signed throughout. -/
theorem signed_of_verified {world : World}
    (verified : (run env.handler verifyAuditChain world).1 = .ok (true, [])) :
    ∀ row ∈ world.db.audits.rows, Signed row.2 := by
  intro row member
  rw [run_verifyAuditChain] at verified
  exact (filled_of_linked (by decide) verified (entry row.2)
    (List.mem_map.mpr ⟨row, member, rfl⟩)).2

/-- A table that does not verify keeps failing, however often the database is opened,
exactly when all its rows are signed or some signed row does not continue the chain. -/
theorem reopening_keeps_failing (env : Environment) (world : World) :
    ((run env.handler verifyAuditChain world).1 ≠ .ok (true, []) →
      ∀ times, (run env.handler verifyAuditChain
        { world with db := init^[times] world.db }).1 ≠ .ok (true, [])) ↔
    (∀ row ∈ world.db.audits.rows, Signed row.2) ∨
      ¬ Continues "GENESIS" world.db.audits.rows := by
  constructor
  · intro keeps
    by_contra neither
    obtain ⟨blank, continues⟩ := not_or.mp neither
    have failing : (run env.handler verifyAuditChain world).1 ≠ .ok (true, []) :=
      fun verified => blank (signed_of_verified verified)
    refine keeps failing 1 ((run_verifyAuditChain_init world).mpr ?_)
    exact not_not.mp continues
  · intro condition failing times verified
    rcases iterate_init world.db times with same | once
    · rw [same] at verified
      exact failing verified
    · rw [once] at verified
      rcases condition with all | broken
      · rw [init_signed all] at verified
        exact failing verified
      · exact broken ((run_verifyAuditChain_init world).mp verified)

/-- An event that was written anew, without a digest. -/
def forged : AuditRow := { undigested (loginRow true 1) with actor := "mallory" }

/-- A table whose second event was written anew. -/
def rewritten : World where
  db := { audits := ((Tables.Numbered.empty.insert (loginRow false 0)).insert forged) }
  clock := 2
  log := []

theorem rows_rewritten : rewritten.db.audits.rows = [(1, loginRow false 0), (2, forged)] := rfl

/-- The rewritten event is found out, until the database is opened again. -/
theorem reopening_launders :
    (∃ row ∈ rewritten.db.audits.rows, Signed row.2) ∧
    (run Environment.mute.handler verifyAuditChain rewritten).1 ≠ .ok (true, []) ∧
    (run Environment.mute.handler verifyAuditChain
      { rewritten with db := init^[1] rewritten.db }).1 = .ok (true, []) := by
  have first : Signed (loginRow false 0) := hash_ne_empty _ _
  refine ⟨⟨(1, loginRow false 0), by simp [rows_rewritten], first⟩, ?_, ?_⟩
  · intro verified
    have last : Signed forged := signed_of_verified verified (2, forged) (by simp [rows_rewritten])
    exact last rfl
  · refine (run_verifyAuditChain_init rewritten).mpr ?_
    rw [rows_rewritten]
    exact ⟨fun _ => ⟨rfl, rfl⟩, fun signed => absurd rfl signed, trivial⟩

end Reopening

end Immutavault.TamperEvidence
