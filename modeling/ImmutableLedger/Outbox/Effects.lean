import ImmutableLedger.Outbox.Announcements
import ImmutableLedger.Repository.InMemory

/-! Both repositories keep their outbox by effects. -/

set_option autoImplicit false

namespace ImmutableLedger

open Announcements

/-- A repository whose steps are effects on its announcements. -/
structure Announcing (backend : Backend) where
  announcements : backend.Store → Announcements
  inflight : backend.Store → List Inflight
  performs : ∀ {client request before reply after},
    backend.performs client request before reply after →
      (announcements before).Effect client request (announcements after) ∧
        ∀ late ∈ inflight after, late ∈ inflight before ∨ late = ⟨client, request⟩
  abandoned : ∀ {client request before after}, backend.abandoned client request before after →
    announcements after = announcements before ∧
      ∀ late ∈ inflight after, late ∈ inflight before ∨ late = ⟨client, request⟩
  environment : ∀ {before after}, backend.environment before after →
    (announcements after = announcements before ∨ ∃ late ∈ inflight before,
      (announcements before).Effect late.client late.request (announcements after)) ∧
        ∀ late ∈ inflight after, late ∈ inflight before
  pending : ∀ {client before after} {records : List OutboxRecord},
    backend.performs client (.read .pendingOutbox) before (.ok records) after →
      ∀ record ∈ records, record ∈ (announcements before).outbox

theorem LedgerWriteOutbox.effect {ledger : Announcements} {client : Nat}
    {request : RepositoryRequest} (selects : OutboxRecord → Bool) (change : Change)
    (delivers : ∀ row, selects row = true → (change.set row).status = .delivered →
      row.status = .delivered ∨ request = .markOutboxDelivered row.outboxId) :
    ledger.Effect client request (ledger.update (change.on selects)) := by
  refine .updated _ (change.keeps_on selects) fun row => ?_
  unfold Change.on
  split
  · next selected => exact delivers row selected
  · exact .inl

theorem outbox_announces [Sha256] (input : EntryWriteInput) (ids : FreshIds)
    (nextPosition : Int64) :
    (input.outbox ids nextPosition).Announces (input.entry ids nextPosition) :=
  ⟨rfl, rfl, ids.eventId, rfl⟩

theorem eq_outbox_of_announced [Sha256] {input : EntryWriteInput} {ids : FreshIds}
    {nextPosition : Int64} {row : OutboxRecord}
    (announced : (if input.createOutbox then some (input.outbox ids nextPosition) else none) =
      some row) : row = input.outbox ids nextPosition := by
  split at announced <;> cases announced
  rfl

theorem OutboxRecord.Announces.stored {row : OutboxRecord} {entry : LedgerEntryRecord}
    (announces : row.Announces entry) : row.Announces entry.stored :=
  ⟨announces.entryId, announces.entryType, announces.payload.imp fun eventId same =>
    same.trans (entry.payload_stored eventId).symm⟩

/-! Postgres. -/

def Database.announcements (db : Database) : Announcements where
  entries := {entry | entry ∈ db.tables.entries.rows}
  outbox := {record | record ∈ db.tables.outbox.rows.map (·.record)}
  origins := {origin | origin ∈ db.origins}

theorem Tables.Committed.announcement {before after : Tables} [Sha256] {draw : Draw}
    {input : EntryWriteInput} {result : WriteResult} {nextPosition : Int64}
    (committed : Committed before draw input result after nextPosition) :
    {record | record ∈ after.outbox.rows.map (·.record)} =
      {record | record ∈ before.outbox.rows.map (·.record) ∨ result.outbox = some record} := by
  cases announced : result.outbox with
  | none => simp [committed.silent announced]
  | some record =>
    have rows := (LedgerWriteOutbox.insert_some (committed.announced record announced)).1
    ext other
    simp [rows, eq_comm]

variable [Sha256]

theorem Tables.Committed.effect {db : Database} {after : Tables} {draw : Draw}
    {input : EntryWriteInput} {result : WriteResult} {nextPosition : Int64}
    (committed : Committed db.tables draw input result after nextPosition) (client : Nat)
    (inflight : List Inflight) :
    db.announcements.Effect client (.writeEntryWithOutbox input)
      (Database.announcements ⟨after, inflight, db.origins ++ [⟨result.entry.entryId, client⟩]⟩) := by
  have added : Database.announcements
      ⟨after, inflight, db.origins ++ [⟨result.entry.entryId, client⟩]⟩ =
        db.announcements.add client result.entry.stored result.outbox := by
    unfold Database.announcements Announcements.add
    rw [committed.announcement]
    congr 1
    · ext entry
      simp [committed.rows, or_comm]
    · ext origin
      simp [or_comm, LedgerEntryRecord.stored]
  obtain ⟨-, -, freshId⟩ := LedgerEntries.insert_ok committed.inserted
  rw [added]
  refine .written input _ _ rfl (fun other member same => freshId ?_) ?_ fun row announced => ?_
  · exact List.mem_map.mpr ⟨other, member, same⟩
  · rw [committed.outbox]
    cases input.createOutbox <;> rfl
  · have fresh := (LedgerWriteOutbox.insert_some (committed.announced row announced)).2
    have unused : ∀ other ∈ db.announcements.outbox, other.outboxId ≠ row.outboxId := by
      rintro other member same
      obtain ⟨stored, inRows, rfl⟩ := List.mem_map.mp member
      exact fresh (List.mem_map.mpr ⟨stored, inRows, same⟩)
    obtain rfl := eq_outbox_of_announced (committed.outbox.symm.trans announced)
    rw [committed.entry]
    exact ⟨(outbox_announces input draw.ids nextPosition).stored, rfl, unused⟩

def Memory.announcements (memory : Memory) : Announcements where
  entries := {entry | ∃ entryId, memory.store.entries.lookup entryId = some entry}
  outbox := {record | ∃ outboxId, memory.store.outbox.lookup outboxId = some record}
  origins := {origin | origin ∈ memory.origins}

end ImmutableLedger
