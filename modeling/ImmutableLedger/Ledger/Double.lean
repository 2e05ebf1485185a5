import ImmutableLedger.Ledger.Interleavings
import ImmutableLedger.Repository.Indexes

/-! The in-memory repository beside the Postgres one.

Both are asked to append the same entry to the same ledger. They look at the key and at the link
in a different order, which shows when both stand in the way.
-/

set_option autoImplicit false

namespace ImmutableLedger

open Query

/-- One ledger, kept by both repositories. -/
structure Represents (store : InMemory) (tables : Tables) : Prop where
  consistent : store.Consistent
  chains : ∀ entryType, tables.entries.chain entryType =
    (store.chain entryType).map LedgerEntryRecord.stored
  contiguous : ∀ entryType, Contiguous tables.entries entryType
  outbox : ∀ record : OutboxRecord, (∃ row ∈ tables.outbox.rows, row.record = record) ↔
    store.outbox.lookup record.outboxId = some record

/-- What the columns hold of a request. -/
def EntryWriteInput.fitsColumns (input : EntryWriteInput) : Bool :=
  fitsVarchar 255 input.entryType && fitsVarchar 255 input.agentId &&
    fitsVarchar 100 input.contentType && fitsVarchar 255 input.sourceId &&
    input.correlationId.all (fitsVarchar 255) && input.idempotencyKey.all (fitsVarchar 255) &&
    input.inputHash.all (fitsVarchar 128) && input.signerKeyReference.all (fitsVarchar 255) &&
    fitsVarchar 64 input.previousHash

/-- Identifiers that no row has yet. -/
structure Tables.Unused (tables : Tables) (ids : FreshIds) : Prop where
  entryId : ids.entryId ∉ tables.entries.rows.map (·.entryId)
  outboxId : ids.outboxId ∉ tables.outbox.rows.map (·.outboxId)

/-- The key of a request is stored already. -/
def Tables.KeyUsed (tables : Tables) (input : EntryWriteInput) : Prop :=
  ∃ key, input.idempotencyKey = some key ∧
    ∃ row ∈ tables.entries.rows, row.entryType = input.entryType ∧ row.idempotencyKey = some key

/-- The chain has moved on from the entry a request names. -/
def Tables.Stale (tables : Tables) (input : EntryWriteInput) : Prop :=
  ∃ tip, (tables.entries.chain input.entryType).getLast? = some tip ∧
    tip.entryHash ≠ input.previousHash

/-! The two checks, side by side. -/

theorem Represents.lookup_iff {store : InMemory} {tables : Tables}
    (represents : Represents store tables) {row : LedgerEntryRecord} :
    row ∈ tables.entries.rows ↔ ∃ entry, store.Stores entry ∧ row = entry.stored := by
  have listed : row ∈ tables.entries.chain row.entryType ↔
      ∃ entry ∈ store.chain row.entryType, entry.stored = row := by
    rw [represents.chains, List.mem_map]
  constructor
  · intro member
    obtain ⟨entry, inChain, same⟩ := listed.mp (LedgerEntries.mem_chain.mpr ⟨member, rfl⟩)
    exact ⟨entry, (represents.consistent.mem_chain.mp inChain).1, same.symm⟩
  · rintro ⟨entry, stored, rfl⟩
    have inChain := represents.consistent.mem_chain.mpr ⟨stored, rfl⟩
    exact (LedgerEntries.mem_chain.mp (listed.mpr ⟨entry, inChain, rfl⟩)).1

theorem Represents.keyTaken_iff {store : InMemory} {tables : Tables}
    (represents : Represents store tables) (input : EntryWriteInput) :
    store.keyTaken input = true ↔ tables.KeyUsed input := by
  have found (key : String) : (store.idempotencyIndex.lookup (input.entryType, key)).isSome = true ↔
      ∃ row ∈ tables.entries.rows, row.entryType = input.entryType ∧
        row.idempotencyKey = some key := by
    rw [Option.isSome_iff_exists]
    constructor
    · rintro ⟨id, indexed⟩
      obtain ⟨entry, stored, typed, keyed⟩ := (represents.consistent.keys _ _ _).mp indexed
      have member := represents.lookup_iff.mpr ⟨entry, InMemory.stores_of_lookup stored, rfl⟩
      exact ⟨entry.stored, member, typed, keyed⟩
    · rintro ⟨row, member, typed, keyed⟩
      obtain ⟨entry, stored, rfl⟩ := represents.lookup_iff.mp member
      exact ⟨entry.entryId, (represents.consistent.keys _ _ _).mpr ⟨entry, stored, typed, keyed⟩⟩
  unfold InMemory.keyTaken Tables.KeyUsed
  cases input.idempotencyKey with
  | none => simp
  | some key => simpa using found key

/-- A tip is never below the first position, so the two rules for a link come to the same. -/
theorem Represents.nextPosition_eq {store : InMemory} {tables : Tables}
    (represents : Represents store tables) (input : EntryWriteInput) :
    store.nextPosition input = tables.nextPosition input := by
  have last : (tables.entries.chain input.entryType).getLast? =
      (store.chain input.entryType).getLast?.map LedgerEntryRecord.stored := by
    rw [represents.chains, List.getLast?_map]
  rw [Tables.nextPosition_eq, InMemory.nextPosition, represents.consistent.tips]
  cases found : (store.chain input.entryType).getLast? with
  | none =>
    rw [last, found]
    by_cases vacant : input.previousHash = "" <;> simp [vacant]
  | some entry =>
    rw [found] at last
    have at_ : entry.stored.position = (tables.entries.chain input.entryType).length :=
      (represents.contiguous input.entryType).position_tip last
    have samePosition : entry.stored.position = entry.chainPosition.toInt := rfl
    have room := tables.entries.length_chain_le input.entryType
    have low : 1 ≤ entry.chainPosition.toInt := by
      have nonempty : (tables.entries.chain input.entryType) ≠ [] := by
        intro empty
        rw [empty] at last
        cases last
      have := List.length_pos_iff.mpr nonempty
      omega
    have next : (entry.chainPosition + 1).toInt = entry.chainPosition.toInt + 1 :=
      toInt_add_one (by omega) (by omega)
    have beyond : 1 < entry.chainPosition + 1 := by
      rw [Int64.lt_iff_toInt_lt, next, show (1 : Int64).toInt = 1 from rfl]
      omega
    have notFirst : ¬entry.chainPosition + 1 = 1 := (Int64.ne_of_lt beyond).symm
    rw [last]
    simp [LedgerEntryRecord.tip, LedgerEntryRecord.stored, beyond, notFirst]

/-! What the columns take. -/

theorem Uuid.noNul_toText (id : Uuid) : Char.ofNat 0 ∉ id.toText.toList := by
  intro member
  have kept : Char.ofNat 0 ∈ id.toText.toList.filter (fun symbol => decide (symbol ≠ '-')) :=
    List.mem_filter.mpr ⟨member, by decide⟩
  rw [id.filter_toText] at kept
  exact Encoding.ne_of_mem_hexEncode kept (Char.ofNat 0) (by decide) rfl

theorem noNul_of_fitsVarchar {width : Nat} {text : String} (fits : fitsVarchar width text = true) :
    Char.ofNat 0 ∉ text.toList := by
  simp only [fitsVarchar, Bool.and_eq_true, Bool.not_eq_true', List.contains_iff_mem,
    Bool.eq_false_iff, ne_eq] at fits
  exact fits.2

section

variable [Sha256] {input : EntryWriteInput} {ids : FreshIds} {nextPosition : Int64}

theorem fitsColumns_entry (fits : input.fitsColumns = true) :
    (input.entry ids nextPosition).stored.fitsColumns = true := by
  have hash : fitsVarchar 64 (input.entry ids nextPosition).stored.entryHash = true :=
    fitsVarchar_sha256Hex _
  have version : [entryHashVersionV2, entryHashVersionV3].contains
      (input.entry ids nextPosition).stored.hashVersion = true := by
    change [entryHashVersionV2, entryHashVersionV3].contains entryHashVersion = true
    decide
  simp only [EntryWriteInput.fitsColumns, Bool.and_eq_true] at fits
  simp only [LedgerEntryRecord.fitsColumns, Bool.and_eq_true, hash, version]
  obtain ⟨rest, previous⟩ := fits
  exact ⟨⟨⟨rest, trivial⟩, trivial⟩, previous⟩

theorem fitsColumns_outbox (fits : input.fitsColumns = true) (now : DateTime) :
    (⟨input.outbox ids nextPosition, now⟩ : OutboxRow).fitsColumns = true := by
  have hash : Char.ofNat 0 ∉ (input.entry ids nextPosition).entryHash.toList :=
    noNul_of_fitsVarchar (fitsVarchar_sha256Hex _)
  simp only [EntryWriteInput.fitsColumns, Bool.and_eq_true] at fits
  obtain ⟨⟨⟨⟨⟨⟨⟨⟨type, agent⟩, -⟩, source⟩, correlation⟩, -⟩, -⟩, -⟩, -⟩ := fits
  have text {value : String} (noNul : Char.ofNat 0 ∉ value.toList) :
      (JsonScalar.text value).fitsJsonb = true := by
    simpa [JsonScalar.fitsJsonb] using noNul
  have correlated : (input.correlationId.elim JsonScalar.null .text).fitsJsonb = true := by
    cases carried : input.correlationId with
    | none => rfl
    | some value =>
      rw [carried] at correlation
      exact text (noNul_of_fitsVarchar correlation)
  have payload : ((input.entry ids nextPosition).payload ids.eventId).all
      (fun member => member.2.fitsJsonb) = true := by
    unfold LedgerEntryRecord.payload ledgerWrittenPayload
    simp only [List.all_cons, List.all_nil, Bool.and_true, Bool.and_eq_true]
    exact ⟨text (Uuid.noNul_toText _), text (by decide), text (Uuid.noNul_toText _),
      text (noNul_of_fitsVarchar type), text (noNul_of_fitsVarchar agent),
      text (noNul_of_fitsVarchar source), text hash,
      text (show Char.ofNat 0 ∉ entryHashVersion.toList by decide), correlated, rfl,
      text (by decide)⟩
  unfold OutboxRow.fitsColumns
  rw [show (input.outbox ids nextPosition).entryType = input.entryType from rfl, type]
  exact payload

/-! One append in both repositories. -/

/-- What an append reports. -/
def EntryWriteInput.written (input : EntryWriteInput) (ids : FreshIds) (nextPosition : Int64) :
    WriteResult where
  entry := input.entry ids nextPosition
  outbox := if input.createOutbox then some (input.outbox ids nextPosition) else none

/-- The rows an append leaves behind. -/
structure Tables.Grown (before : Tables) (draw : Draw) (input : EntryWriteInput)
    (nextPosition : Int64) (after : Tables) : Prop where
  entries : after.entries.rows =
    before.entries.rows ++ [(input.entry draw.ids nextPosition).stored]
  outbox : after.outbox.rows = before.outbox.rows ++
    (input.written draw.ids nextPosition).outbox.toList.map (⟨·, draw.now⟩)

/-- Both refuse for the same reason and change nothing, or both append at the same position and
with the same link what is the same but for the identifiers. -/
inductive SameOutcome (draw : Draw) (ids : FreshIds) (input : EntryWriteInput) (tables : Tables)
    (store : InMemory) : Except RepositoryError WriteResult × Tables →
      Except RepositoryError WriteResult × InMemory → Prop where
  | refused (err : RepositoryError) :
      SameOutcome draw ids input tables store (.error err, tables) (.error err, store)
  | appended (nextPosition : Int64) (after : Tables)
      (grown : tables.Grown draw input nextPosition after) :
      SameOutcome draw ids input tables store (.ok (input.written draw.ids nextPosition), after)
        (.ok (input.written ids nextPosition),
          store.add (input.entry ids nextPosition) (input.written ids nextPosition).outbox)

omit [Sha256] in
theorem Contiguous.freshPosition {table : LedgerEntries} {row : LedgerEntryRecord}
    (contiguous : Contiguous table row.entryType)
    (position : row.position = (table.chain row.entryType).length + 1) :
    row.typePosition ∉ table.rows.map (·.typePosition) := by
  intro found
  obtain ⟨other, member, same⟩ := List.mem_map.mp found
  obtain ⟨typed, samePosition⟩ := Prod.mk.inj same
  have inChain : other ∈ table.chain row.entryType := LedgerEntries.mem_chain.mpr ⟨member, typed⟩
  have bound := (contiguous.position_le inChain).2
  have positions : other.position = row.position := congrArg Int64.toInt samePosition
  omega

variable {tables : Tables} {draw : Draw}

omit [Sha256] in
/-- The keys decide about a row that is new otherwise. -/
theorem insert_fits {table : LedgerEntries} {row : LedgerEntryRecord}
    (fits : row.fitsColumns = true) (freshId : row.entryId ∉ table.rows.map (·.entryId))
    (freshPosition : row.typePosition ∉ table.rows.map (·.typePosition))
    (room : table.rows.length < rowLimit) :
    ((∃ index ∈ row.idempotencyIndex, index ∈ table.rows.filterMap (·.idempotencyIndex)) ∧
      table.insert row = .error (.uniqueViolation "idx_ledger_idempotency")) ∨
    ((¬∃ index ∈ row.idempotencyIndex, index ∈ table.rows.filterMap (·.idempotencyIndex)) ∧
      ∃ after, table.insert row = .ok after ∧ after.rows = table.rows ++ [row]) := by
  by_cases taken : ∃ index ∈ row.idempotencyIndex, index ∈ table.rows.filterMap (·.idempotencyIndex)
  · left
    refine ⟨taken, ?_⟩
    rw [LedgerEntries.insert, if_neg (by simp [fits]), dif_neg freshId, dif_neg freshPosition,
      dif_pos taken]
  · right
    refine ⟨taken, ?_⟩
    rw [LedgerEntries.insert, if_neg (by simp [fits]), dif_neg freshId, dif_neg freshPosition,
      dif_neg taken, dif_pos room]
    exact ⟨_, rfl, rfl⟩

omit [Sha256] in
theorem queue_fits {table : LedgerWriteOutbox} {row : OutboxRow} (fits : row.fitsColumns = true)
    (fresh : row.outboxId ∉ table.rows.map (·.outboxId)) :
    ∃ after, table.insert row = some after ∧ after.rows = table.rows ++ [row] := by
  rw [LedgerWriteOutbox.insert, dif_pos fresh, if_pos fits]
  exact ⟨_, rfl, rfl⟩

theorem keyUsed_iff (tables : Tables) (ids : FreshIds) (nextPosition : Int64) :
    (∃ index ∈ (input.entry ids nextPosition).stored.idempotencyIndex,
      index ∈ tables.entries.rows.filterMap (·.idempotencyIndex)) ↔ tables.KeyUsed input := by
  have indexed : (input.entry ids nextPosition).stored.idempotencyIndex =
      input.idempotencyKey.map fun key => (input.entryType, key) := rfl
  rw [indexed]
  unfold Tables.KeyUsed
  cases input.idempotencyKey with
  | none => simp
  | some key => simp [List.mem_filterMap, LedgerEntries.idempotencyIndex_eq_some]

/-- What Postgres does with a request it can store: the link comes first and the key second. -/
theorem Tables.writeEntryWithOutbox_fits (contiguous : Contiguous tables.entries input.entryType)
    (fits : input.fitsColumns = true) (room : tables.entries.rows.length < rowLimit)
    (unused : tables.Unused draw.ids) :
    (∃ err, tables.nextPosition input = .error err ∧
      tables.writeEntryWithOutbox draw input = (.error err, tables)) ∨
    ∃ nextPosition, tables.nextPosition input = .ok nextPosition ∧
      ((tables.KeyUsed input ∧
        tables.writeEntryWithOutbox draw input = (.error .idempotencyConflict, tables)) ∨
      (¬tables.KeyUsed input ∧ ∃ after, tables.Grown draw input nextPosition after ∧
        tables.writeEntryWithOutbox draw input =
          (.ok (input.written draw.ids nextPosition), after))) := by
  cases positioned : tables.nextPosition input with
  | error err => exact .inl ⟨err, rfl, by rw [writeEntryWithOutbox, positioned]⟩
  | ok nextPosition =>
    right
    refine ⟨nextPosition, rfl, ?_⟩
    have position := (nextPosition_ok_iff.mp positioned).position contiguous
    have freshPosition : (input.entry draw.ids nextPosition).stored.typePosition ∉
        tables.entries.rows.map (·.typePosition) :=
      Contiguous.freshPosition contiguous position
    rcases insert_fits (fitsColumns_entry fits) unused.entryId freshPosition room with
      ⟨taken, rejected⟩ | ⟨free, entries, inserted, rows⟩
    · left
      refine ⟨(keyUsed_iff tables _ _).mp taken, ?_⟩
      simp only [writeEntryWithOutbox, positioned, rejected]
      rfl
    · right
      refine ⟨fun used => free ((keyUsed_iff tables _ _).mpr used), ?_⟩
      cases announces : input.createOutbox with
      | false =>
        refine ⟨{ tables with entries := entries }, ⟨rows, ?_⟩, ?_⟩
        · simp [EntryWriteInput.written, announces]
        · simp [writeEntryWithOutbox, positioned, inserted, announces, EntryWriteInput.written]
      | true =>
        have accepted : (⟨input.outbox draw.ids nextPosition, draw.now⟩ : OutboxRow).fitsColumns =
            true := fitsColumns_outbox fits draw.now
        obtain ⟨outbox, queued, outboxRows⟩ := queue_fits accepted unused.outboxId
        refine ⟨⟨entries, outbox⟩, ⟨rows, ?_⟩, ?_⟩
        · simp [EntryWriteInput.written, announces, outboxRows]
        · simp [writeEntryWithOutbox, positioned, inserted, announces, queued,
            EntryWriteInput.written]

/-! The ledger they keep. -/

variable {store : InMemory}

omit [Sha256] in
theorem Represents.unused (represents : Represents store tables) (unused : tables.Unused ids) :
    store.Unused ids where
  entryId := by
    intro present
    obtain ⟨entry, found⟩ := Option.isSome_iff_exists.mp (AList.lookup_isSome.mpr present)
    have keyed : entry.entryId = ids.entryId := store.entriesKeyed _ _ found
    refine unused.entryId (List.mem_map.mpr ⟨entry.stored, ?_, keyed⟩)
    exact represents.lookup_iff.mpr ⟨entry, InMemory.stores_of_lookup found, rfl⟩
  outboxId := by
    intro present
    obtain ⟨record, found⟩ := Option.isSome_iff_exists.mp (AList.lookup_isSome.mpr present)
    have keyed := store.outboxKeyed _ _ found
    obtain ⟨row, member, same⟩ := (represents.outbox record).mpr (keyed ▸ found)
    refine unused.outboxId (List.mem_map.mpr ⟨row, member, ?_⟩)
    rw [OutboxRow.outboxId, same, keyed]

theorem Represents.chains_add (represents : Represents store tables)
    (unused : tables.Unused draw.ids) {after : Tables}
    (extension : tables.Extends input nextPosition)
    (grown : tables.Grown draw input nextPosition after) (outbox : Option OutboxRecord)
    (entryType : String) :
    after.entries.chain entryType =
      ((store.add (input.entry draw.ids nextPosition) outbox).chain entryType).map
        LedgerEntryRecord.stored := by
  have contiguous := represents.contiguous input.entryType
  have position := extension.position contiguous
  have highest : ∀ other ∈ tables.entries.chain (input.entry draw.ids nextPosition).stored.entryType,
      other.position < (input.entry draw.ids nextPosition).stored.position := by
    intro other member
    have bound := (contiguous.position_le member).2
    have same : (input.entry draw.ids nextPosition).stored.position = nextPosition.toInt := rfl
    omega
  have fresh := (represents.unused unused).entryId
  rw [LedgerEntries.chain_append grown.entries highest,
    represents.consistent.chain_add fresh, represents.chains]
  have typed : (input.entry draw.ids nextPosition).stored.entryType =
    (input.entry draw.ids nextPosition).entryType := rfl
  rw [typed]
  split
  · rw [List.map_append, List.map_singleton]
  · rfl

omit [Sha256] in
theorem Contiguous.concat {before after : LedgerEntries} {row : LedgerEntryRecord}
    {entryType : String} (contiguous : Contiguous before entryType)
    (chain : after.chain entryType = before.chain entryType ++ [row])
    (position : row.position = (before.chain entryType).length + 1) :
    Contiguous after entryType := by
  rw [Contiguous, chain, List.map_append, show _ = _ from contiguous, List.length_append,
    List.length_singleton, positions_succ, List.map_singleton, position]

theorem Represents.contiguous_add (represents : Represents store tables) {after : Tables}
    (extension : tables.Extends input nextPosition)
    (grown : tables.Grown draw input nextPosition after) (entryType : String) :
    Contiguous after.entries entryType := by
  have contiguous := represents.contiguous input.entryType
  have position := extension.position contiguous
  have chain := LedgerEntries.chain_append grown.entries (fun other member => by
    have bound := (contiguous.position_le member).2
    have same : (input.entry draw.ids nextPosition).stored.position = nextPosition.toInt := rfl
    omega) entryType
  split at chain
  · next typed =>
    subst typed
    exact contiguous.concat chain position
  · rw [Contiguous, chain]
    exact represents.contiguous entryType

/-- The same entry appended to both leaves them with the same ledger. -/
theorem Represents.add (represents : Represents store tables) (unused : tables.Unused draw.ids)
    {after : Tables} (extension : tables.Extends input nextPosition)
    (grown : tables.Grown draw input nextPosition after) (free : ¬tables.KeyUsed input) :
    Represents (store.add (input.entry draw.ids nextPosition)
      (input.written draw.ids nextPosition).outbox) after where
  consistent := by
    refine represents.consistent.add (represents.unused unused).entryId ?_
    refine InMemory.keyTaken_eq_false ?_
    rw [← Bool.not_eq_true, represents.keyTaken_iff]
    exact free
  chains := represents.chains_add unused extension grown _
  contiguous := represents.contiguous_add extension grown
  outbox := by
    intro record
    rw [grown.outbox]
    cases announced : (input.written draw.ids nextPosition).outbox with
    | none => simpa [InMemory.add] using represents.outbox record
    | some own =>
      have ownId : own.outboxId = draw.ids.outboxId := by
        unfold EntryWriteInput.written at announced
        dsimp only at announced
        split at announced
        · exact Option.some.inj announced ▸ rfl
        · cases announced
      have inserted : (store.add (input.entry draw.ids nextPosition) (some own)).outbox =
        store.outbox.insert own.outboxId own := rfl
      have listed : (∃ row ∈ tables.outbox.rows ++ [⟨own, draw.now⟩], row.record = record) ↔
          (∃ row ∈ tables.outbox.rows, row.record = record) ∨ own = record := by
        simp [or_and_right, exists_or]
      rw [inserted, Option.toList_some, List.map_singleton, listed]
      by_cases same : record.outboxId = own.outboxId
      · rw [same, AList.lookup_insert, Option.some.injEq]
        refine or_iff_right ?_
        rintro ⟨row, member, rfl⟩
        exact unused.outboxId (List.mem_map.mpr ⟨row, member, same.trans ownId⟩)
      · rw [AList.lookup_insert_ne same, represents.outbox]
        refine or_iff_left ?_
        rintro rfl
        exact same rfl

/-! Where they part. -/

omit [Sha256] in
/-- A used key means there is a tip, so only a wrong link can be in its way. -/
theorem Tables.KeyUsed.stale_of_error {err : RepositoryError} (used : tables.KeyUsed input)
    (rejected : tables.nextPosition input = .error err) : tables.Stale input := by
  obtain ⟨key, -, row, member, typed, -⟩ := used
  have inChain : row ∈ tables.entries.chain input.entryType :=
    LedgerEntries.mem_chain.mpr ⟨member, typed⟩
  rw [nextPosition_eq] at rejected
  split at rejected
  · next vacant =>
    rw [List.getLast?_eq_none_iff.mp vacant] at inChain
    cases inChain
  · next tip last =>
    refine ⟨tip, last, ?_⟩
    intro linked
    rw [if_neg (not_not_intro linked)] at rejected
    cases rejected

omit [Sha256] in
theorem Tables.Stale.not_ok (stale : tables.Stale input)
    (accepted : tables.nextPosition input = .ok nextPosition) : False := by
  obtain ⟨tip, last, differs⟩ := stale
  have extension := nextPosition_ok_iff.mp accepted
  rw [Extends, last] at extension
  exact differs extension.1.symm

/-- The repositories do the same unless the key of the request is stored already and the chain has
moved on from the entry it names; their ledgers never part. -/
theorem writeEntryWithOutbox_agrees_iff (represents : Represents store tables)
    (fits : input.fitsColumns = true) (room : tables.entries.rows.length < rowLimit)
    (unusedRow : tables.Unused draw.ids) (unused : store.Unused ids) :
    (SameOutcome draw ids input tables store (tables.writeEntryWithOutbox draw input)
        (store.writeEntryWithOutbox ids input) ↔
      ¬(tables.KeyUsed input ∧ tables.Stale input)) ∧
    (draw.ids = ids → Represents (store.writeEntryWithOutbox ids input).2
      (tables.writeEntryWithOutbox draw input).2) := by
  have keys := represents.keyTaken_iff input
  have positions := represents.nextPosition_eq input
  rcases Tables.writeEntryWithOutbox_fits (represents.contiguous _) fits room unusedRow with
    ⟨err, rejected, refused⟩ | ⟨nextPosition, positioned, taken | free⟩
  · -- The link is wrong. Postgres never gets to the key.
    have violation := Tables.nextPosition_error rejected
    subst violation
    by_cases used : tables.KeyUsed input
    · have conflict : store.writeEntryWithOutbox ids input = (.error .idempotencyConflict, store) := by
        rw [InMemory.writeEntryWithOutbox, if_pos (keys.mpr used)]
      rw [refused, conflict]
      refine ⟨iff_of_false nofun ?_, fun _ => represents⟩
      exact not_not_intro ⟨used, used.stale_of_error rejected⟩
    · have alike : store.writeEntryWithOutbox ids input =
          (.error .chainIntegrityViolation, store) := by
        rw [InMemory.writeEntryWithOutbox, if_neg (fun taken => used (keys.mp taken)), positions,
          rejected]
      rw [refused, alike]
      refine ⟨iff_of_true (.refused _) ?_, fun _ => represents⟩
      exact fun both => used both.1
  · -- The link is right and the key is used.
    obtain ⟨used, refused⟩ := taken
    have alike : store.writeEntryWithOutbox ids input = (.error .idempotencyConflict, store) := by
      rw [InMemory.writeEntryWithOutbox, if_pos (keys.mpr used)]
    rw [refused, alike]
    refine ⟨iff_of_true (.refused _) ?_, fun _ => represents⟩
    exact fun both => both.2.not_ok positioned
  · -- Nothing is in the way.
    obtain ⟨unkeyed, after, grown, wrote⟩ := free
    have alike : store.writeEntryWithOutbox ids input = (.ok (input.written ids nextPosition),
        store.add (input.entry ids nextPosition) (input.written ids nextPosition).outbox) := by
      rw [InMemory.writeEntryWithOutbox, if_neg (fun taken => unkeyed (keys.mp taken)), positions,
        positioned]
      rfl
    rw [wrote, alike]
    refine ⟨iff_of_true (.appended nextPosition after grown) ?_, ?_⟩
    · exact fun both => unkeyed both.1
    · rintro rfl
      exact represents.add unusedRow (Tables.nextPosition_ok_iff.mp positioned) grown unkeyed

end

theorem Represents.empty : Represents .empty .empty where
  consistent := InMemory.empty_consistent
  chains := fun _ => rfl
  contiguous := fun _ => rfl
  outbox := by
    intro record
    constructor
    · rintro ⟨row, member, -⟩
      cases member
    · intro found
      cases found

namespace Sample

theorem noRow_empty (octet : UInt8) : Tables.empty.Unused (ids octet) :=
  ⟨List.not_mem_nil, List.not_mem_nil⟩

variable [Sha256]

/-- The first entry in the in-memory repository. -/
def firstStore : InMemory := InMemory.empty.add first none

theorem firstTables_grown : Tables.empty.Grown ⟨ids 1, instant⟩ firstInput 1 firstTables :=
  ⟨rfl, rfl⟩

theorem first_represents : Represents firstStore firstTables := by
  have extension : Tables.empty.Extends firstInput 1 := ⟨sha256Hex_ne_empty _, rfl⟩
  refine Represents.empty.add (noRow_empty 1) extension firstTables_grown ?_
  rintro ⟨key, -, row, member, -⟩
  cases member

/-- The key of the first entry, sent again with a link that is not the tip. -/
def staleInput : EntryWriteInput := { firstInput with previousHash := "stale" }

theorem stale_stale : firstTables.Stale staleInput := by
  have typed : first.stored.entryType = "audit.event" := rfl
  have chain : firstTables.entries.chain "audit.event" = [first.stored] :=
    LedgerEntries.chain_of_ascending (by simp [firstTables, typed])
      (List.pairwise_singleton _ _)
  refine ⟨first.stored, congrArg List.getLast? chain, ?_⟩
  intro same
  have length : first.stored.entryHash.length = 64 := length_sha256Hex _
  rw [same] at length
  exact absurd length (show ¬"stale".length = 64 by decide)

theorem stale_used : firstTables.KeyUsed staleInput :=
  ⟨"first", rfl, first.stored, List.mem_singleton_self _, rfl, rfl⟩

end Sample

/-- A stored key behind a tip that has moved on: Postgres reports a broken chain, the in-memory
repository a conflict. -/
theorem writeEntryWithOutbox_parts :
    letI := Fips180.sha256
    Represents Sample.firstStore Sample.firstTables ∧ Sample.staleInput.fitsColumns = true ∧
      Sample.firstTables.writeEntryWithOutbox ⟨Sample.ids 2, Sample.instant⟩ Sample.staleInput =
        (.error .chainIntegrityViolation, Sample.firstTables) ∧
      Sample.firstStore.writeEntryWithOutbox (Sample.ids 2) Sample.staleInput =
        (.error .idempotencyConflict, Sample.firstStore) ∧
      ¬SameOutcome ⟨Sample.ids 2, Sample.instant⟩ (Sample.ids 2) Sample.staleInput
        Sample.firstTables Sample.firstStore
        (Sample.firstTables.writeEntryWithOutbox ⟨Sample.ids 2, Sample.instant⟩ Sample.staleInput)
        (Sample.firstStore.writeEntryWithOutbox (Sample.ids 2) Sample.staleInput) := by
  let := Fips180.sha256
  have refused : Sample.firstTables.writeEntryWithOutbox ⟨Sample.ids 2, Sample.instant⟩
      Sample.staleInput = (.error .chainIntegrityViolation, Sample.firstTables) := by
    rw [Tables.writeEntryWithOutbox]
    cases positioned : Sample.firstTables.nextPosition Sample.staleInput with
    | error err => rw [Tables.nextPosition_error positioned]
    | ok nextPosition => exact (Sample.stale_stale.not_ok positioned).elim
  have conflict : Sample.firstStore.writeEntryWithOutbox (Sample.ids 2) Sample.staleInput =
      (.error .idempotencyConflict, Sample.firstStore) := by
    have taken := (Sample.first_represents.keyTaken_iff Sample.staleInput).mpr Sample.stale_used
    rw [InMemory.writeEntryWithOutbox, if_pos taken]
  refine ⟨Sample.first_represents, by decide, refused, conflict, ?_⟩
  rw [refused, conflict]
  intro same
  cases same

/-- A first entry is appended alike. -/
theorem writeEntryWithOutbox_agrees_first :
    letI := Fips180.sha256
    SameOutcome ⟨Sample.ids 1, Sample.instant⟩ (Sample.ids 1) Sample.firstInput .empty .empty
      (Tables.empty.writeEntryWithOutbox ⟨Sample.ids 1, Sample.instant⟩ Sample.firstInput)
      (InMemory.empty.writeEntryWithOutbox (Sample.ids 1) Sample.firstInput) := by
  let := Fips180.sha256
  have hash : fitsVarchar 64 Sample.firstInput.previousHash = true := fitsVarchar_sha256Hex _
  have fits : Sample.firstInput.fitsColumns = true := by
    rw [EntryWriteInput.fitsColumns, hash]
    decide
  have room : Tables.empty.entries.rows.length < rowLimit := show 0 < rowLimit by decide
  have unused := Sample.noRow_empty 1
  refine (writeEntryWithOutbox_agrees_iff Represents.empty fits room unused
    (Represents.empty.unused unused)).1.mpr ?_
  rintro ⟨⟨key, -, row, member, -⟩, -⟩
  cases member

end ImmutableLedger
