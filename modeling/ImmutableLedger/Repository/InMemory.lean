import ImmutableLedger.Repository.Backend
import Mathlib.Data.List.AList

/-! `InMemoryLedgerRepository`, the store of tests and demonstrations.

A `HashMap` is an association list whose order means nothing. Entries and announcements are
stored under their own identifiers.
-/

set_option autoImplicit false

namespace ImmutableLedger

open Query

structure InMemory where
  entries : AList fun _ : Uuid => LedgerEntryRecord
  orderedByType : AList fun _ : String => List Uuid
  chainTips : AList fun _ : String => ChainTip
  idempotencyIndex : AList fun _ : String × String => Uuid
  outbox : AList fun _ : Uuid => OutboxRecord
  entriesKeyed : ∀ entryId entry, entries.lookup entryId = some entry → entry.entryId = entryId
  outboxKeyed : ∀ outboxId record, outbox.lookup outboxId = some record →
    record.outboxId = outboxId

/-- A map whose values carry their keys stays one when a value is stored under its key. -/
theorem keyed_insert {α β : Type} [DecidableEq α] {map : AList fun _ : α => β} {keyOf : β → α}
    (keyed : ∀ key value, map.lookup key = some value → keyOf value = key) (value : β) (key : α)
    (found : β) (present : (map.insert (keyOf value) value).lookup key = some found) :
    keyOf found = key := by
  by_cases same : key = keyOf value
  · subst same
    rw [AList.lookup_insert] at present
    rw [Option.some.inj present]
  · rw [AList.lookup_insert_ne same] at present
    exact keyed key found present

namespace InMemory

def empty : InMemory where
  entries := ∅
  orderedByType := ∅
  chainTips := ∅
  idempotencyIndex := ∅
  outbox := ∅
  entriesKeyed := fun _ _ found => by simp at found
  outboxKeyed := fun _ _ found => by simp at found

variable (store : InMemory)

def keyTaken (input : EntryWriteInput) : Bool :=
  input.idempotencyKey.any fun key =>
    (store.idempotencyIndex.lookup (input.entryType, key)).isSome

def nextPosition (input : EntryWriteInput) : Except RepositoryError Int64 :=
  let tip := store.chainTips.lookup input.entryType
  let nextPosition := (tip.map fun tip => tip.position + 1).getD 1
  if nextPosition = 1 ∧ input.previousHash.isEmpty then .error .chainIntegrityViolation
  else if 1 < nextPosition then
    match tip with
    | none => .error .chainIntegrityViolation
    | some tip =>
      if tip.hash ≠ input.previousHash then .error .chainIntegrityViolation else .ok nextPosition
  else .ok nextPosition

/-- The maps after an entry was added at the end of its chain. -/
def add (entry : LedgerEntryRecord) (outbox : Option OutboxRecord) : InMemory where
  entries := store.entries.insert entry.entryId entry
  orderedByType := store.orderedByType.insert entry.entryType
    ((store.orderedByType.lookup entry.entryType).getD [] ++ [entry.entryId])
  chainTips := store.chainTips.insert entry.entryType entry.tip
  idempotencyIndex := match entry.idempotencyKey with
    | none => store.idempotencyIndex
    | some key => store.idempotencyIndex.insert (entry.entryType, key) entry.entryId
  outbox := match outbox with
    | none => store.outbox
    | some record => store.outbox.insert record.outboxId record
  entriesKeyed := keyed_insert store.entriesKeyed entry
  outboxKeyed := by
    cases outbox with
    | none => exact store.outboxKeyed
    | some record => exact keyed_insert store.outboxKeyed record

def writeEntryWithOutbox [Sha256] (ids : FreshIds) (input : EntryWriteInput) :
    Except RepositoryError WriteResult × InMemory :=
  if store.keyTaken input then (.error .idempotencyConflict, store)
  else
    match store.nextPosition input with
    | .error err => (.error err, store)
    | .ok nextPosition =>
      let entry := input.entry ids nextPosition
      let outbox := if input.createOutbox then some (input.outbox ids nextPosition) else none
      (.ok ⟨entry, outbox⟩, store.add entry outbox)

/-- The loop of `get_entries_by_type_paged`, which checks its limit after each push. -/
def collect (afterPosition : Int64) (limit : Nat) (out : List LedgerEntryRecord) :
    List Uuid → List LedgerEntryRecord
  | [] => out
  | id :: ids =>
    match store.entries.lookup id with
    | none => collect afterPosition limit out ids
    | some entry =>
      if afterPosition < entry.chainPosition then
        if limit ≤ (out ++ [entry]).length then out ++ [entry]
        else collect afterPosition limit (out ++ [entry]) ids
      else collect afterPosition limit out ids

def pending : List OutboxRecord :=
  (store.outbox.entries.map (·.snd)).filter fun record => decide (record.status = .pending)

def query : (request : ReadRequest) → request.Reply
  | .getEntry entryId => requireRow (store.entries.lookup entryId)
  | .getChainTip entryType => requireRow (store.chainTips.lookup entryType)
  | .getEntriesByTypePaged entryType afterPosition limit =>
      .ok (match store.orderedByType.lookup entryType with
        | none => []
        | some ids => store.collect afterPosition limit.toUInt64.toNat [] ids)
  | .findIdempotent entryType idempotencyKey =>
      .ok ((store.idempotencyIndex.lookup (entryType, idempotencyKey)).bind store.entries.lookup)
  | .getEntryByHash entryType entryHash =>
      requireRow ((store.entries.entries.map (·.snd)).find? fun entry =>
        decide (entry.entryType = entryType ∧ entry.entryHash = entryHash))
  | .pendingOutbox => .ok store.pending
  | .getDistinctEntryTypes => .ok (orderBy id store.orderedByType.keys)

/-- `get_mut`, and a change to what it finds. -/
def updateOutbox (outboxId : Uuid) (change : LedgerWriteOutbox.Change) :
    Except RepositoryError Unit × InMemory :=
  match present : store.outbox.lookup outboxId with
  | none => (.error .notFound, store)
  | some record =>
    (.ok (),
      { store with
        outbox := store.outbox.insert outboxId (change.set record)
        outboxKeyed := by
          rw [← (change.keeps record).outboxId.trans (store.outboxKeyed outboxId record present)]
          exact keyed_insert store.outboxKeyed (change.set record) })

def execute [Sha256] (ids : FreshIds) : (request : RepositoryRequest) → InMemory →
    request.Reply × InMemory
  | .read request, store => (store.query request, store)
  | .writeEntryWithOutbox input, store => store.writeEntryWithOutbox ids input
  | .markOutboxDelivered outboxId, store =>
      store.updateOutbox outboxId (LedgerWriteOutbox.setStatus .delivered)
  | .incrementOutboxAttempt outboxId, store =>
      store.updateOutbox outboxId LedgerWriteOutbox.addAttempt
  | .markOutboxFailed outboxId, store =>
      store.updateOutbox outboxId (LedgerWriteOutbox.setStatus .failed)

/-- Identifiers that no value is stored under yet, as `Uuid::new_v4` draws them. -/
structure Unused (ids : FreshIds) : Prop where
  entryId : ids.entryId ∉ store.entries
  outboxId : ids.outboxId ∉ store.outbox

end InMemory

/-- The maps behind their lock. `origins` records who wrote what and answers no request. -/
structure Memory where
  store : InMemory
  origins : List Origin

namespace Memory

def executed [Sha256] (memory : Memory) (ids : FreshIds) (client : Nat)
    (request : RepositoryRequest) : Memory where
  store := (memory.store.execute ids request).2
  origins := memory.origins ++ Database.origin client request (memory.store.execute ids request).1

inductive Performs [Sha256] (client : Nat) (request : RepositoryRequest) (memory : Memory) :
    request.Reply → Memory → Prop where
  | executed (ids : FreshIds) (unused : memory.store.Unused ids) :
      Performs client request memory (memory.store.execute ids request).1
        (memory.executed ids client request)

theorem Performs.read [Sha256] {client : Nat} {message : ReadRequest} {memory after : Memory}
    {reply : RepositoryRequest.Reply (.read message)}
    (performed : Performs client (.read message) memory reply after) :
    reply = memory.store.query message := by
  cases performed
  rfl

theorem Performs.of_execute [Sha256] {client : Nat} {request : RepositoryRequest} {memory : Memory}
    {ids : FreshIds} (unused : memory.store.Unused ids) {reply : request.Reply} {store : InMemory}
    (ran : memory.store.execute ids request = (reply, store)) :
    Performs client request memory reply
      ⟨store, memory.origins ++ Database.origin client request reply⟩ := by
  have performed := @Performs.executed _ client request memory ids unused
  rw [Memory.executed, ran] at performed
  exact performed

/-- The order of a map may be any. -/
inductive Moves (memory : Memory) : Memory → Prop where
  | rearranged (entries : AList fun _ : Uuid => LedgerEntryRecord)
      (outbox : AList fun _ : Uuid => OutboxRecord)
      (sameEntries : entries.entries.Perm memory.store.entries.entries)
      (sameOutbox : outbox.entries.Perm memory.store.outbox.entries) :
      Moves memory
        { memory with
          store :=
            { memory.store with
              entries := entries
              outbox := outbox
              entriesKeyed := by
                simpa only [AList.perm_lookup sameEntries] using memory.store.entriesKeyed
              outboxKeyed := by
                simpa only [AList.perm_lookup sameOutbox] using memory.store.outboxKeyed } }

end Memory

/-- A call that is dropped while it waits for the lock changes nothing. -/
def inMemory [Sha256] : Backend where
  Store := Memory
  performs := Memory.Performs
  abandoned _ _ before after := after = before
  environment := Memory.Moves

end ImmutableLedger
