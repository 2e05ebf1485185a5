import ImmutableLedger.Repository.InMemory

/-! The indexes of the in-memory repository.

Beside its entries the repository keeps the identifiers of each chain in the order of their
appends, the tip of each chain and the identifier under each key. `Consistent` says that these
agree with the entries, and every operation keeps it.
-/

set_option autoImplicit false

namespace ImmutableLedger

open Query

namespace InMemory

variable (store : InMemory) (entryType : String)

def listed : List Uuid := (store.orderedByType.lookup entryType).getD []

/-- The entries of a type in the order of their appends. -/
def chain : List LedgerEntryRecord := (store.listed entryType).filterMap store.entries.lookup

def Stores (entry : LedgerEntryRecord) : Prop := store.entries.lookup entry.entryId = some entry

/-- The lists of identifiers name the entries of their type and no others. -/
structure Indexed : Prop where
  resolved : ∀ entryType id, id ∈ store.listed entryType →
    ∃ entry, store.entries.lookup id = some entry ∧ entry.entryType = entryType
  indexed : ∀ entry, store.Stores entry → entry.entryId ∈ store.listed entry.entryType

structure Consistent : Prop extends Indexed store where
  tips : ∀ entryType,
    store.chainTips.lookup entryType = (store.chain entryType).getLast?.map LedgerEntryRecord.tip
  keys : ∀ entryType key id, store.idempotencyIndex.lookup (entryType, key) = some id ↔
    ∃ entry, store.entries.lookup id = some entry ∧ entry.entryType = entryType ∧
      entry.idempotencyKey = some key

variable {store entryType}

theorem stores_of_lookup {id : Uuid} {entry : LedgerEntryRecord}
    (found : store.entries.lookup id = some entry) : store.Stores entry := by
  have keyed := store.entriesKeyed id entry found
  rw [Stores, keyed, found]

theorem Indexed.mem_chain (indexed : store.Indexed) {entry : LedgerEntryRecord} :
    entry ∈ store.chain entryType ↔ store.Stores entry ∧ entry.entryType = entryType := by
  unfold chain
  rw [List.mem_filterMap]
  constructor
  · rintro ⟨id, member, found⟩
    obtain ⟨other, alsoFound, typed⟩ := indexed.resolved entryType id member
    obtain rfl := Option.some.inj (found.symm.trans alsoFound)
    exact ⟨stores_of_lookup found, typed⟩
  · rintro ⟨stored, rfl⟩
    exact ⟨entry.entryId, indexed.indexed entry stored, stored⟩

/-- The loop of a page collects the rows above a position, up to its limit. -/
theorem collect_eq (afterPosition : Int64) (limit : Nat) (ids : List Uuid)
    (out : List LedgerEntryRecord) (short : out.length < limit) :
    store.collect afterPosition limit out ids =
      out ++ (above (fun entry => entry.chainPosition.toInt) afterPosition.toInt
        (ids.filterMap store.entries.lookup)).take (limit - out.length) := by
  induction ids generalizing out with
  | nil => simp [collect, above]
  | cons id ids ih =>
    unfold collect
    cases found : store.entries.lookup id with
    | none => simpa [found] using ih out short
    | some entry =>
      simp only [List.filterMap_cons, found, above]
      by_cases beyond : afterPosition < entry.chainPosition
      · rw [if_pos beyond, List.filter_cons_of_pos (by simpa [← Int64.lt_iff_toInt_lt] using beyond)]
        obtain ⟨room, left⟩ : ∃ room, limit - out.length = room + 1 :=
          ⟨limit - out.length - 1, by omega⟩
        have longer : (out ++ [entry]).length = out.length + 1 := by simp
        rw [left, List.take_succ_cons, longer]
        split
        · have full : room = 0 := by omega
          simp [full]
        · rw [ih _ (by omega), longer, List.append_assoc,
            show limit - (out.length + 1) = room by omega]
          rfl
      · rw [if_neg beyond, List.filter_cons_of_neg (by simpa [← Int64.lt_iff_toInt_lt] using beyond)]
        exact ih out short

theorem query_page (store : InMemory) (entryType : String) (afterPosition : Int64) {limit : Int64}
    (positive : 0 < limit) :
    store.query (.getEntriesByTypePaged entryType afterPosition limit) =
      .ok ((above (fun entry : LedgerEntryRecord => entry.chainPosition.toInt) afterPosition.toInt
        (store.chain entryType)).take limit.toInt.toNat) := by
  have bound : limit.toUInt64.toNat = limit.toInt.toNat :=
    Int64.toNat_toUInt64_of_le (Int64.le_of_lt positive)
  have roomy : ([] : List LedgerEntryRecord).length < limit.toInt.toNat := by
    have positive : 0 < limit.toInt := Int64.lt_iff_toInt_lt.mp positive
    simp only [List.length_nil]
    omega
  refine congrArg Except.ok ?_
  unfold chain listed
  cases store.orderedByType.lookup entryType with
  | none => simp [above]; rfl
  | some ids =>
    dsimp only
    rw [bound, collect_eq _ _ _ _ roomy]
    rfl

/-! Appends. -/

variable {entry : LedgerEntryRecord} {outbox : Option OutboxRecord}

@[simp] theorem orderedByType_add : (store.add entry outbox).orderedByType =
    store.orderedByType.insert entry.entryType (store.listed entry.entryType ++ [entry.entryId]) :=
  rfl

@[simp] theorem chainTips_add :
    (store.add entry outbox).chainTips = store.chainTips.insert entry.entryType entry.tip := rfl

theorem idempotencyIndex_add_none (unkeyed : entry.idempotencyKey = none) :
    (store.add entry outbox).idempotencyIndex = store.idempotencyIndex := by
  simp [add, unkeyed]

theorem idempotencyIndex_add_some {key : String} (keyed : entry.idempotencyKey = some key) :
    (store.add entry outbox).idempotencyIndex =
      store.idempotencyIndex.insert (entry.entryType, key) entry.entryId := by
  simp [add, keyed]

theorem lookup_add (fresh : entry.entryId ∉ store.entries) {id : Uuid} {other : LedgerEntryRecord}
    (found : store.entries.lookup id = some other) :
    (store.add entry outbox).entries.lookup id = some other := by
  have different : id ≠ entry.entryId := by
    intro same
    rw [← same, ← AList.lookup_eq_none, found] at fresh
    cases fresh
  rw [← found]
  exact AList.lookup_insert_ne different

theorem stores_add_self : (store.add entry outbox).Stores entry := AList.lookup_insert _

theorem stores_add (fresh : entry.entryId ∉ store.entries) {other : LedgerEntryRecord} :
    (store.add entry outbox).Stores other ↔ other = entry ∨ store.Stores other := by
  constructor
  · intro stored
    by_cases same : other.entryId = entry.entryId
    · left
      have found : (store.add entry outbox).entries.lookup other.entryId = some entry := by
        rw [same]
        exact AList.lookup_insert _
      exact Option.some.inj (stored.symm.trans found)
    · right
      rw [Stores, ← stored]
      exact (AList.lookup_insert_ne same).symm
  · rintro (rfl | stored)
    · exact stores_add_self
    · exact lookup_add fresh stored

theorem listed_add (entryType : String) :
    (store.add entry outbox).listed entryType =
      if entry.entryType = entryType then store.listed entryType ++ [entry.entryId]
      else store.listed entryType := by
  rw [listed, orderedByType_add]
  split
  · next same =>
    subst same
    rw [AList.lookup_insert]
    rfl
  · next other =>
    rw [AList.lookup_insert_ne (Ne.symm other)]
    rfl

theorem Consistent.chain_add (consistent : store.Consistent)
    (fresh : entry.entryId ∉ store.entries) (entryType : String) :
    (store.add entry outbox).chain entryType =
      if entry.entryType = entryType then store.chain entryType ++ [entry]
      else store.chain entryType := by
  -- What was listed before is looked up as before.
  have kept : (store.listed entryType).filterMap (store.add entry outbox).entries.lookup =
      store.chain entryType := by
    refine List.filterMap_congr fun id member => ?_
    obtain ⟨other, found, -⟩ := consistent.resolved entryType id member
    rw [found]
    exact lookup_add fresh found
  have added : (store.add entry outbox).entries.lookup entry.entryId = some entry :=
    AList.lookup_insert _
  unfold chain
  rw [listed_add]
  split
  · rw [List.filterMap_append, kept, chain]
    simp [added]
  · exact kept

theorem Consistent.add (consistent : store.Consistent) (fresh : entry.entryId ∉ store.entries)
    (unused : ∀ key, entry.idempotencyKey = some key →
      store.idempotencyIndex.lookup (entry.entryType, key) = none) :
    (store.add entry outbox).Consistent := by
  refine ⟨⟨?_, ?_⟩, ?_, ?_⟩
  · intro entryType id member
    rw [listed_add] at member
    have earlier : id ∈ store.listed entryType →
        ∃ other, (store.add entry outbox).entries.lookup id = some other ∧
          other.entryType = entryType := by
      intro listed
      obtain ⟨other, found, typed⟩ := consistent.resolved entryType id listed
      exact ⟨other, lookup_add fresh found, typed⟩
    split at member
    · next typed =>
      rcases List.mem_append.mp member with listed | last
      · exact earlier listed
      · obtain rfl := List.mem_singleton.mp last
        exact ⟨entry, stores_add_self, typed⟩
    · exact earlier member
  · intro other stored
    rw [listed_add]
    rcases (stores_add fresh).mp stored with rfl | before
    · rw [if_pos rfl]
      exact List.mem_append_right _ (List.mem_singleton_self _)
    · have listed := consistent.indexed other before
      split
      · exact List.mem_append_left _ listed
      · exact listed
  · intro entryType
    rw [consistent.chain_add fresh, chainTips_add]
    split
    · next typed =>
      subst typed
      rw [AList.lookup_insert]
      simp
    · next other => rw [AList.lookup_insert_ne (Ne.symm other), consistent.tips]
  · intro entryType key id
    -- An identifier is found under a key because it was before, or because it is the new one.
    have found_iff : (∃ other, (store.add entry outbox).entries.lookup id = some other ∧
        other.entryType = entryType ∧ other.idempotencyKey = some key) ↔
          (id = entry.entryId ∧ entry.entryType = entryType ∧ entry.idempotencyKey = some key) ∨
            store.idempotencyIndex.lookup (entryType, key) = some id := by
      rw [consistent.keys]
      constructor
      · rintro ⟨other, found, typed, keyed⟩
        have sameId := (store.add entry outbox).entriesKeyed id other found
        rcases (stores_add fresh).mp (stores_of_lookup found) with rfl | before
        · exact .inl ⟨sameId.symm, typed, keyed⟩
        · exact .inr ⟨other, sameId ▸ before, typed, keyed⟩
      · rintro (⟨rfl, typed, keyed⟩ | ⟨other, found, typed, keyed⟩)
        · exact ⟨entry, stores_add_self, typed, keyed⟩
        · exact ⟨other, lookup_add fresh found, typed, keyed⟩
    rw [found_iff]
    cases carried : entry.idempotencyKey with
    | none => simp [idempotencyIndex_add_none carried]
    | some own =>
      rw [idempotencyIndex_add_some carried]
      by_cases same : (entryType, key) = (entry.entryType, own)
      · obtain ⟨rfl, rfl⟩ := Prod.mk.inj same
        rw [AList.lookup_insert, unused key carried]
        simp [eq_comm]
      · have other : ¬(entry.entryType = entryType ∧ own = key) := by
          rintro ⟨rfl, rfl⟩
          exact same rfl
        rw [AList.lookup_insert_ne same, Option.some.injEq]
        simp only [other, and_false, false_or]

theorem empty_consistent : empty.Consistent := by
  refine ⟨⟨?_, ?_⟩, ?_, ?_⟩
  · intro entryType id member
    exact absurd member List.not_mem_nil
  · intro entry stored
    cases stored
  · intro entryType
    rfl
  · intro entryType key id
    simp [empty]

/-! Every operation. -/

/-- The same entries under the same indexes; announcements may differ. -/
structure SameEntries (first second : InMemory) : Prop where
  entries : ∀ id, first.entries.lookup id = second.entries.lookup id
  orderedByType : first.orderedByType = second.orderedByType
  chainTips : first.chainTips = second.chainTips
  idempotencyIndex : first.idempotencyIndex = second.idempotencyIndex

namespace SameEntries

variable {first second : InMemory} (same : SameEntries first second)

theorem refl (store : InMemory) : SameEntries store store := ⟨fun _ => rfl, rfl, rfl, rfl⟩

include same

theorem listed (entryType : String) : first.listed entryType = second.listed entryType := by
  rw [InMemory.listed, same.orderedByType, InMemory.listed]

theorem chain (entryType : String) : first.chain entryType = second.chain entryType := by
  rw [InMemory.chain, same.listed, InMemory.chain]
  exact List.filterMap_congr fun id _ => same.entries id

theorem mem_entries {id : Uuid} : id ∈ first.entries ↔ id ∈ second.entries := by
  rw [← AList.lookup_isSome, ← AList.lookup_isSome, same.entries]

theorem consistent (holds : second.Consistent) : first.Consistent := by
  refine ⟨⟨?_, ?_⟩, ?_, ?_⟩
  · intro entryType id member
    rw [same.listed] at member
    rw [same.entries]
    exact holds.resolved entryType id member
  · intro entry stored
    rw [same.listed]
    exact holds.indexed entry (by rwa [Stores, ← same.entries])
  · intro entryType
    rw [same.chainTips, same.chain]
    exact holds.tips entryType
  · intro entryType key id
    rw [same.idempotencyIndex, same.entries]
    exact holds.keys entryType key id

end SameEntries

theorem updateOutbox_sameEntries (outboxId : Uuid) (change : LedgerWriteOutbox.Change) :
    SameEntries (store.updateOutbox outboxId change).2 store := by
  unfold updateOutbox
  split <;> exact ⟨fun _ => rfl, rfl, rfl, rfl⟩

/-- What an append has added. -/
structure Added [Sha256] (before : InMemory) (ids : FreshIds) (input : EntryWriteInput)
    (result : WriteResult) (after : InMemory) (nextPosition : Int64) : Prop where
  positioned : before.nextPosition input = .ok nextPosition
  unkeyed : before.keyTaken input = false
  entry : result.entry = input.entry ids nextPosition
  outbox : result.outbox =
    if input.createOutbox then some (input.outbox ids nextPosition) else none
  after : after = before.add result.entry result.outbox

/-- A write is refused for its key, or for its link, or it adds an entry. -/
theorem writeEntryWithOutbox_cases [Sha256] (store : InMemory) (ids : FreshIds)
    (input : EntryWriteInput) :
    (store.keyTaken input = true ∧
      store.writeEntryWithOutbox ids input = (.error .idempotencyConflict, store)) ∨
    (store.keyTaken input = false ∧ ∃ err, store.nextPosition input = .error err ∧
      store.writeEntryWithOutbox ids input = (.error err, store)) ∨
    ∃ result after nextPosition, store.writeEntryWithOutbox ids input = (.ok result, after) ∧
      store.Added ids input result after nextPosition := by
  unfold writeEntryWithOutbox
  cases taken : store.keyTaken input with
  | true => exact .inl ⟨rfl, rfl⟩
  | false =>
    cases positioned : store.nextPosition input with
    | error err => exact .inr (.inl ⟨rfl, err, rfl, rfl⟩)
    | ok nextPosition =>
      exact .inr (.inr ⟨_, _, nextPosition, rfl, positioned, taken, rfl, rfl, rfl⟩)

theorem nextPosition_error {input : EntryWriteInput} {err : RepositoryError}
    (rejected : store.nextPosition input = .error err) : err = .chainIntegrityViolation := by
  unfold nextPosition at rejected
  dsimp only at rejected
  split at rejected
  · exact (Except.error.inj rejected).symm
  · split at rejected
    · split at rejected
      · exact (Except.error.inj rejected).symm
      · split at rejected
        · exact (Except.error.inj rejected).symm
        · cases rejected
    · cases rejected

theorem keyTaken_eq_false {input : EntryWriteInput} (unkeyed : store.keyTaken input = false)
    (key : String) (keyed : input.idempotencyKey = some key) :
    store.idempotencyIndex.lookup (input.entryType, key) = none := by
  simpa [keyTaken, keyed] using unkeyed

theorem Added.consistent [Sha256] {before after : InMemory} {ids : FreshIds}
    {input : EntryWriteInput} {result : WriteResult} {nextPosition : Int64}
    (added : before.Added ids input result after nextPosition) (unused : before.Unused ids)
    (consistent : before.Consistent) : after.Consistent := by
  rw [added.after, added.entry]
  exact consistent.add unused.entryId (keyTaken_eq_false added.unkeyed)

theorem execute_consistent [Sha256] (consistent : store.Consistent) {ids : FreshIds}
    (unused : store.Unused ids) (request : RepositoryRequest) :
    (store.execute ids request).2.Consistent := by
  cases request with
  | read request => exact consistent
  | writeEntryWithOutbox input =>
    rw [execute]
    rcases store.writeEntryWithOutbox_cases ids input with
      ⟨-, refused⟩ | ⟨-, err, -, refused⟩ | ⟨result, after, nextPosition, wrote, added⟩
    · rw [refused]
      exact consistent
    · rw [refused]
      exact consistent
    · rw [wrote]
      exact added.consistent unused consistent
  | markOutboxDelivered outboxId => exact (updateOutbox_sameEntries _ _).consistent consistent
  | incrementOutboxAttempt outboxId => exact (updateOutbox_sameEntries _ _).consistent consistent
  | markOutboxFailed outboxId => exact (updateOutbox_sameEntries _ _).consistent consistent

end InMemory

theorem Memory.Moves.sameEntries {before after : Memory} (moved : before.Moves after) :
    InMemory.SameEntries after.store before.store := by
  cases moved with
  | rearranged entries outbox sameEntries sameOutbox =>
    exact ⟨fun id => AList.perm_lookup sameEntries, rfl, rfl, rfl⟩

end ImmutableLedger
