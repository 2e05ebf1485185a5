import ImmutableLedger.Repository.Outbox

/-! `PostgresLedgerRepository`: its statements, its append transaction, and a database whose
answers may be lost.
-/

set_option autoImplicit false

namespace ImmutableLedger

structure Tables where
  entries : LedgerEntries
  outbox : LedgerWriteOutbox

/-- What one execution draws from outside: random identifiers and the time of the database. -/
structure Draw where
  ids : FreshIds
  now : DateTime

namespace Tables

def empty : Tables := ⟨.empty, .empty⟩

def query (tables : Tables) : (request : ReadRequest) → request.Reply
  | .getEntry entryId => tables.entries.getEntry entryId
  | .getChainTip entryType =>
      (tables.entries.tipRow entryType >>= requireRow).map LedgerEntryRecord.tip
  | .getEntriesByTypePaged entryType afterPosition limit =>
      tables.entries.page entryType afterPosition limit
  | .findIdempotent entryType idempotencyKey =>
      tables.entries.findIdempotent entryType idempotencyKey
  | .getEntryByHash entryType entryHash => tables.entries.getEntryByHash entryType entryHash
  | .pendingOutbox => .ok tables.outbox.pending
  | .getDistinctEntryTypes => .ok tables.entries.distinctEntryTypes

def nextPosition (tables : Tables) (input : EntryWriteInput) : Except RepositoryError Int64 := do
  match ← tables.entries.tipRow input.entryType with
  | none =>
    if input.previousHash.isEmpty then .error .chainIntegrityViolation
    else .ok 1
  | some row =>
    if row.entryHash ≠ input.previousHash then .error .chainIntegrityViolation
    else .ok (row.chainPosition + 1)

/-- Key reuse has its own error; any other unique violation counts as a broken chain. -/
def insertError : InsertError → RepositoryError
  | .uniqueViolation constraint =>
      if constraint = "idx_ledger_idempotency" then .idempotencyConflict
      else .chainIntegrityViolation
  | .other => .unavailable

/-- The append transaction. The advisory lock makes it one step, and every failure rolls it
back. -/
def writeEntryWithOutbox [Sha256] (tables : Tables) (draw : Draw) (input : EntryWriteInput) :
    Except RepositoryError WriteResult × Tables :=
  match tables.nextPosition input with
  | .error err => (.error err, tables)
  | .ok nextPosition =>
    let entry := input.entry draw.ids nextPosition
    match tables.entries.insert entry.stored with
    | .error err => (.error (insertError err), tables)
    | .ok entries =>
      if input.createOutbox then
        let outbox := input.outbox draw.ids nextPosition
        match tables.outbox.insert ⟨outbox, draw.now⟩ with
        | none => (.error .unavailable, tables)
        | some rows => (.ok ⟨entry, some outbox⟩, ⟨entries, rows⟩)
      else (.ok ⟨entry, none⟩, { tables with entries := entries })

def execute [Sha256] (draw : Draw) : (request : RepositoryRequest) → Tables → request.Reply × Tables
  | .read request, tables => (tables.query request, tables)
  | .writeEntryWithOutbox input, tables => tables.writeEntryWithOutbox draw input
  | .markOutboxDelivered outboxId, tables =>
      let updated := tables.outbox.markOutboxDelivered outboxId
      (updated.1, { tables with outbox := updated.2 })
  | .incrementOutboxAttempt outboxId, tables =>
      let updated := tables.outbox.incrementOutboxAttempt outboxId
      (updated.1, { tables with outbox := updated.2 })
  | .markOutboxFailed outboxId, tables =>
      let updated := tables.outbox.markOutboxFailed outboxId
      (updated.1, { tables with outbox := updated.2 })

/-! What an append transaction can do. -/

/-- The link a new entry of a type has to carry: the hash of the tip, or anything but the empty
text if there is no tip. -/
def Extends (tables : Tables) (input : EntryWriteInput) (nextPosition : Int64) : Prop :=
  match (tables.entries.chain input.entryType).getLast? with
  | none => input.previousHash ≠ "" ∧ nextPosition = 1
  | some tip => input.previousHash = tip.entryHash ∧ nextPosition = tip.chainPosition + 1

variable [Sha256] {tables : Tables} {draw : Draw} {input : EntryWriteInput}

omit [Sha256] in
theorem nextPosition_eq (tables : Tables) (input : EntryWriteInput) :
    tables.nextPosition input =
      match (tables.entries.chain input.entryType).getLast? with
      | none =>
        if input.previousHash.isEmpty then .error .chainIntegrityViolation
        else .ok 1
      | some row =>
        if row.entryHash ≠ input.previousHash then .error .chainIntegrityViolation
        else .ok (row.chainPosition + 1) := by
  rw [nextPosition, LedgerEntries.tipRow_eq]
  rfl

omit [Sha256] in
theorem nextPosition_ok_iff {nextPosition : Int64} :
    tables.nextPosition input = .ok nextPosition ↔ tables.Extends input nextPosition := by
  rw [nextPosition_eq, Extends]
  split
  · by_cases vacant : input.previousHash = ""
    · simp [vacant]
    · rw [if_neg (by simpa using vacant), Except.ok.injEq]
      exact ⟨fun same => ⟨vacant, same.symm⟩, fun both => both.2.symm⟩
  · next row _ =>
    by_cases linked : row.entryHash = input.previousHash
    · rw [if_neg (not_not_intro linked), Except.ok.injEq]
      exact ⟨fun same => ⟨linked.symm, same.symm⟩, fun both => both.2.symm⟩
    · simp [linked, Ne.symm linked]

omit [Sha256] in
theorem nextPosition_error {err : RepositoryError}
    (rejected : tables.nextPosition input = .error err) : err = .chainIntegrityViolation := by
  rw [nextPosition_eq] at rejected
  split at rejected <;> split at rejected <;> cases rejected <;> rfl

/-- A committed append: where the entry went and what it left in the outbox. -/
structure Committed (before : Tables) (draw : Draw) (input : EntryWriteInput) (result : WriteResult)
    (after : Tables) (nextPosition : Int64) : Prop where
  extends_tip : before.Extends input nextPosition
  entry : result.entry = input.entry draw.ids nextPosition
  inserted : before.entries.insert result.entry.stored = .ok after.entries
  outbox : result.outbox =
    if input.createOutbox then some (input.outbox draw.ids nextPosition) else none
  announced : ∀ record, result.outbox = some record →
    before.outbox.insert ⟨record, draw.now⟩ = some after.outbox
  silent : result.outbox = none → after.outbox = before.outbox

theorem Committed.rows {before after : Tables} {result : WriteResult} {nextPosition : Int64}
    (committed : Committed before draw input result after nextPosition) :
    after.entries.rows = before.entries.rows ++ [result.entry.stored] :=
  (LedgerEntries.insert_ok committed.inserted).1

/-- A transaction either commits or changes nothing. -/
theorem writeEntryWithOutbox_cases :
    (∃ err, tables.writeEntryWithOutbox draw input = (.error err, tables) ∧
      (err = .idempotencyConflict → ∃ key, input.idempotencyKey = some key)) ∨
    ∃ result after nextPosition, tables.writeEntryWithOutbox draw input = (.ok result, after) ∧
      Committed tables draw input result after nextPosition := by
  rcases positioned : tables.nextPosition input with err | nextPosition
  · refine .inl ⟨err, by simp [writeEntryWithOutbox, positioned], fun conflict => ?_⟩
    rw [nextPosition_error positioned] at conflict
    contradiction
  have extends_tip := nextPosition_ok_iff.mp positioned
  rcases stored : tables.entries.insert (input.entry draw.ids nextPosition).stored with err | entries
  · refine .inl ⟨insertError err, by simp [writeEntryWithOutbox, positioned, stored], ?_⟩
    cases err with
    | other => simp [insertError]
    | uniqueViolation constraint =>
      intro conflict
      have reused : constraint = "idx_ledger_idempotency" := by
        by_contra another
        simp [insertError, another] at conflict
      subst reused
      exact LedgerEntries.insert_idempotency stored
  cases announces : input.createOutbox with
  | false =>
    refine .inr ⟨⟨input.entry draw.ids nextPosition, none⟩, { tables with entries := entries },
      nextPosition, by simp [writeEntryWithOutbox, positioned, stored, announces], ?_⟩
    exact ⟨extends_tip, rfl, stored, by simp [announces], by simp, fun _ => rfl⟩
  | true =>
    rcases queued : tables.outbox.insert ⟨input.outbox draw.ids nextPosition, draw.now⟩ with _ | rows
    · refine .inl ⟨.unavailable, ?_, by simp⟩
      simp [writeEntryWithOutbox, positioned, stored, announces, queued]
    · refine .inr ⟨⟨input.entry draw.ids nextPosition, some (input.outbox draw.ids nextPosition)⟩,
        ⟨entries, rows⟩, nextPosition, ?_, ?_⟩
      · simp [writeEntryWithOutbox, positioned, stored, announces, queued]
      · exact ⟨extends_tip, rfl, stored, by simp [announces], by simpa using queued, by simp⟩

/-- Entries change by committed appends and in no other way. -/
theorem execute_entries (draw : Draw) (request : RepositoryRequest) (tables : Tables) :
    (tables.execute draw request).2.entries = tables.entries ∨
      ∃ input result after nextPosition, request = .writeEntryWithOutbox input ∧
        (tables.execute draw request).2 = after ∧
          Committed tables draw input result after nextPosition := by
  cases request with
  | writeEntryWithOutbox input =>
    obtain ⟨err, rejected, -⟩ | ⟨result, after, nextPosition, wrote, committed⟩ :=
      tables.writeEntryWithOutbox_cases
    · exact .inl (congrArg (fun ran => ran.2.entries) rejected)
    · exact .inr ⟨input, result, after, nextPosition, rfl, congrArg Prod.snd wrote, committed⟩
  | read request => exact .inl rfl
  | markOutboxDelivered outboxId => exact .inl rfl
  | incrementOutboxAttempt outboxId => exact .inl rfl
  | markOutboxFailed outboxId => exact .inl rfl

end Tables

end ImmutableLedger
