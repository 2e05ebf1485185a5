import ImmutableLedger.Repository.Backend
import Mathlib.Data.Set.Basic

/-! What an outbox promises, whatever keeps it.

A ledger is seen as its entries, the rows that announce them and who wrote what. An effect is
what one request can do to these, and it keeps the promise if the request was in order.
-/

set_option autoImplicit false

namespace ImmutableLedger

/-- A row refers to an entry and carries what the entry says. -/
structure OutboxRecord.Announces (row : OutboxRecord) (entry : LedgerEntryRecord) : Prop where
  entryId : row.entryId = entry.entryId
  entryType : row.entryType = entry.entryType
  payload : ∃ eventId, row.payload = entry.payload eventId

theorem OutboxRecord.SameEvent.announces {record row : OutboxRecord} {entry : LedgerEntryRecord}
    (same : record.SameEvent row) (announces : row.Announces entry) : record.Announces entry :=
  ⟨same.entryId.trans announces.entryId, same.entryType.trans announces.entryType,
    announces.payload.imp fun _ => same.payload.trans⟩

structure Announcements where
  entries : Set LedgerEntryRecord
  outbox : Set OutboxRecord
  origins : Set Origin

namespace Announcements

/-- The promise. `publishes` says which clients have a publisher, and `published` which rows a
publisher has accepted. -/
structure Kept (publishes : Nat → Bool) (published : OutboxRecord → Prop) (ledger : Announcements) :
    Prop where
  written : ∀ entry ∈ ledger.entries, ∃ client, ⟨entry.entryId, client⟩ ∈ ledger.origins
  stored : ∀ origin ∈ ledger.origins, ∃ entry ∈ ledger.entries, entry.entryId = origin.entryId
  writtenOnce : ∀ origin ∈ ledger.origins, ∀ other ∈ ledger.origins,
    origin.entryId = other.entryId → origin = other
  announced : ∀ origin ∈ ledger.origins, publishes origin.client = true →
    ∃! row, row ∈ ledger.outbox ∧ row.entryId = origin.entryId
  silent : ∀ origin ∈ ledger.origins, publishes origin.client = false →
    ∀ row ∈ ledger.outbox, row.entryId ≠ origin.entryId
  announces : ∀ row ∈ ledger.outbox, ∃ entry ∈ ledger.entries, row.Announces entry
  uniqueOutboxId : ∀ row ∈ ledger.outbox, ∀ other ∈ ledger.outbox,
    row.outboxId = other.outboxId → row = other
  delivered : ∀ row ∈ ledger.outbox, row.status = .delivered → published row

def none : Announcements := ⟨∅, ∅, ∅⟩

variable (ledger : Announcements)

/-- One more entry, with its announcement if it has one. -/
def add (client : Nat) (entry : LedgerEntryRecord) (announcement : Option OutboxRecord) :
    Announcements where
  entries := insert entry ledger.entries
  outbox := {row | row ∈ ledger.outbox ∨ announcement = some row}
  origins := insert ⟨entry.entryId, client⟩ ledger.origins

def update (change : OutboxRecord → OutboxRecord) : Announcements :=
  { ledger with outbox := change '' ledger.outbox }

/-- What a request of a client may do to a ledger. -/
inductive Effect (client : Nat) (request : RepositoryRequest) : Announcements → Prop where
  | unchanged : Effect client request ledger
  | written (input : EntryWriteInput) (entry : LedgerEntryRecord)
      (announcement : Option OutboxRecord) (asked : request = .writeEntryWithOutbox input)
      (fresh : ∀ other ∈ ledger.entries, other.entryId ≠ entry.entryId)
      (announced : announcement.isSome = input.createOutbox)
      (announces : ∀ row, announcement = some row → row.Announces entry ∧ row.status = .pending ∧
        ∀ other ∈ ledger.outbox, other.outboxId ≠ row.outboxId) :
      Effect client request (ledger.add client entry announcement)
  | updated (change : OutboxRecord → OutboxRecord)
      (keeps : ∀ row, (change row).SameEvent row)
      (delivers : ∀ row, (change row).status = .delivered →
        row.status = .delivered ∨ request = .markOutboxDelivered row.outboxId) :
      Effect client request (ledger.update change)

/-- Announcements do not go away. -/
def Keeps (before after : Announcements) : Prop :=
  ∀ row ∈ before.outbox, ∃ kept ∈ after.outbox, row.SameEvent kept

theorem Keeps.refl (ledger : Announcements) : ledger.Keeps ledger :=
  fun row member => ⟨row, member, .refl row⟩

theorem Keeps.trans {first second third : Announcements} (keeps : first.Keeps second)
    (next : second.Keeps third) : first.Keeps third := fun row member => by
  obtain ⟨kept, keptMember, same⟩ := keeps row member
  obtain ⟨last, lastMember, again⟩ := next kept keptMember
  exact ⟨last, lastMember, same.trans again⟩

/-- A request in order: an append announces itself if its client has a publisher, and what is
marked as delivered has been published. -/
def Permits (publishes : Nat → Bool) (published : OutboxRecord → Prop) (client : Nat) :
    RepositoryRequest → Prop
  | .writeEntryWithOutbox input => input.createOutbox = publishes client
  | .markOutboxDelivered outboxId => ∃ row ∈ ledger.outbox, row.outboxId = outboxId ∧ published row
  | _ => True

variable {ledger} {publishes : Nat → Bool} {published : OutboxRecord → Prop} {client : Nat}
  {request : RepositoryRequest} {after : Announcements}

theorem Effect.keeps (effect : ledger.Effect client request after) : ledger.Keeps after := by
  cases effect with
  | unchanged => exact .refl ledger
  | written input entry announcement asked fresh announced announces =>
    exact fun row member => ⟨row, .inl member, .refl row⟩
  | updated change keeps delivers =>
    exact fun row member => ⟨change row, Set.mem_image_of_mem change member, (keeps row).symm⟩

theorem Kept.add (kept : ledger.Kept publishes published) {entry : LedgerEntryRecord}
    {announcement : Option OutboxRecord}
    (fresh : ∀ other ∈ ledger.entries, other.entryId ≠ entry.entryId)
    (announced : announcement.isSome = publishes client)
    (announces : ∀ row, announcement = some row → row.Announces entry ∧ row.status = .pending ∧
      ∀ other ∈ ledger.outbox, other.outboxId ≠ row.outboxId) :
    (ledger.add client entry announcement).Kept publishes published := by
  have unwritten : ∀ origin ∈ ledger.origins, origin.entryId ≠ entry.entryId :=
    fun origin member same => by
      obtain ⟨other, stored, written⟩ := kept.stored origin member
      exact fresh other stored (written.trans same)
  have unannounced : ∀ row ∈ ledger.outbox, row.entryId ≠ entry.entryId := fun row member same => by
    obtain ⟨other, stored, about⟩ := kept.announces row member
    exact fresh other stored (about.entryId.symm.trans same)
  have about : ∀ row, announcement = some row → row.entryId = entry.entryId :=
    fun row asked => (announces row asked).1.entryId
  constructor
  case written =>
    rintro other (rfl | member)
    · exact ⟨client, .inl rfl⟩
    · exact (kept.written other member).imp fun _ => .inr
  case stored =>
    rintro origin (rfl | member)
    · exact ⟨entry, .inl rfl, rfl⟩
    · exact (kept.stored origin member).imp fun _ => And.imp_left .inr
  case writtenOnce =>
    rintro origin (rfl | member) other (rfl | another) same
    · rfl
    · exact absurd same.symm (unwritten other another)
    · exact absurd same (unwritten origin member)
    · exact kept.writtenOnce origin member other another same
  case announced =>
    rintro origin (rfl | member) publishing
    · obtain ⟨row, asked⟩ := Option.isSome_iff_exists.mp (announced.trans publishing)
      refine ⟨row, ⟨.inr asked, about row asked⟩, ?_⟩
      rintro other ⟨old | new, same⟩
      · exact absurd same (unannounced other old)
      · exact Option.some.inj (new.symm.trans asked)
    · obtain ⟨row, ⟨inOutbox, same⟩, only⟩ := kept.announced origin member publishing
      refine ⟨row, ⟨.inl inOutbox, same⟩, ?_⟩
      rintro other ⟨old | new, alsoSame⟩
      · exact only other ⟨old, alsoSame⟩
      · exact absurd (alsoSame.symm.trans (about other new)) (unwritten origin member)
  case silent =>
    rintro origin (rfl | member) quiet row (old | new)
    · exact unannounced row old
    · rw [new, show publishes client = false from quiet] at announced
      cases announced
    · exact kept.silent origin member quiet row old
    · exact fun same => unwritten origin member (same.symm.trans (about row new))
  case announces =>
    rintro row (old | new)
    · exact (kept.announces row old).imp fun _ => And.imp_left .inr
    · exact ⟨entry, .inl rfl, (announces row new).1⟩
  case uniqueOutboxId =>
    rintro row (old | new) other (alsoOld | alsoNew) same
    · exact kept.uniqueOutboxId row old other alsoOld same
    · exact absurd same ((announces other alsoNew).2.2 row old)
    · exact absurd same.symm ((announces row new).2.2 other alsoOld)
    · exact Option.some.inj (new.symm.trans alsoNew)
  case delivered =>
    rintro row (old | new) done
    · exact kept.delivered row old done
    · cases (announces row new).2.1.symm.trans done

theorem Kept.update (kept : ledger.Kept publishes published)
    (spreads : ∀ row other, published row → row.SameEvent other → published other)
    {change : OutboxRecord → OutboxRecord} (keeps : ∀ row, (change row).SameEvent row)
    (delivers : ∀ row ∈ ledger.outbox, (change row).status = .delivered → published row) :
    (ledger.update change).Kept publishes published where
  written := kept.written
  stored := kept.stored
  writtenOnce := kept.writtenOnce
  announced := fun origin member publishing => by
    obtain ⟨row, ⟨inOutbox, same⟩, only⟩ := kept.announced origin member publishing
    refine ⟨change row, ⟨Set.mem_image_of_mem change inOutbox, (keeps row).entryId.trans same⟩, ?_⟩
    rintro _ ⟨⟨other, another, rfl⟩, alsoSame⟩
    rw [only other ⟨another, (keeps other).entryId.symm.trans alsoSame⟩]
  silent := by
    rintro origin member quiet _ ⟨row, inOutbox, rfl⟩
    rw [(keeps row).entryId]
    exact kept.silent origin member quiet row inOutbox
  announces := by
    rintro _ ⟨row, inOutbox, rfl⟩
    exact (kept.announces row inOutbox).imp fun _ => And.imp_right (keeps row).announces
  uniqueOutboxId := by
    rintro _ ⟨row, inOutbox, rfl⟩ _ ⟨other, another, rfl⟩ same
    rw [(keeps row).outboxId, (keeps other).outboxId] at same
    rw [kept.uniqueOutboxId row inOutbox other another same]
  delivered := by
    rintro _ ⟨row, inOutbox, rfl⟩ done
    exact spreads row _ (delivers row inOutbox done) (keeps row).symm

/-- Whatever a request in order does, the promise is kept. -/
theorem Kept.effect (kept : ledger.Kept publishes published)
    (spreads : ∀ row other, published row → row.SameEvent other → published other)
    (permits : ledger.Permits publishes published client request)
    (effect : ledger.Effect client request after) : after.Kept publishes published := by
  cases effect with
  | unchanged => exact kept
  | written input entry announcement asked fresh announced announces =>
    subst asked
    exact kept.add fresh (announced.trans permits) announces
  | updated change keeps delivers =>
    refine kept.update spreads keeps fun row member done => ?_
    rcases delivers row done with before | asked
    · exact kept.delivered row member before
    · subst asked
      obtain ⟨other, another, same, accepted⟩ := permits
      rwa [kept.uniqueOutboxId row member other another same.symm]

/-- The promise is about what has been published by now. -/
theorem Kept.mono {more : OutboxRecord → Prop} (kept : ledger.Kept publishes published)
    (grows : ∀ row, published row → more row) : ledger.Kept publishes more :=
  { kept with delivered := fun row member done => grows row (kept.delivered row member done) }

theorem Permits.mono {more : OutboxRecord → Prop} (permits : ledger.Permits publishes published
    client request) (grows : ∀ row, published row → more row)
    (spreads : ∀ row other, more row → row.SameEvent other → more other)
    (keeps : ledger.Keeps after) : after.Permits publishes more client request := by
  cases request with
  | markOutboxDelivered outboxId =>
    obtain ⟨row, member, same, accepted⟩ := permits
    obtain ⟨kept, keptMember, version⟩ := keeps row member
    exact ⟨kept, keptMember, version.outboxId.symm.trans same,
      spreads row kept (grows row accepted) version⟩
  | writeEntryWithOutbox input => exact permits
  | _ => trivial

end Announcements

end ImmutableLedger
