import ImmutableLedger.Repository.Indexes
import ImmutableLedger.Service.Queries

/-! The filters of `query_entries` in memory, beside those of the statements.

A prefix becomes a pattern in one repository and `starts_with` in the other, and a bound on the
time is compared with an instant in one and with its millisecond in the other.
-/

set_option autoImplicit false

namespace ImmutableLedger

open Query

/-- What `apply_query_filters` retains. -/
def EntryQuery.retains (query : EntryQuery) (entry : LedgerEntryRecord) : Bool :=
  query.entryTypePrefix.all (fun filter => filter.toList.isPrefixOf entry.entryType.toList) &&
    query.agentId.all (fun filter => decide (entry.agentId = filter)) &&
    query.sourceId.all (fun filter => decide (entry.sourceId = filter)) &&
    query.correlationId.all (fun filter => decide (entry.correlationId = some filter)) &&
    query.fromTsMs.all (fun millis => decide (millis ≤ entry.writtenTs.timestampMillis)) &&
    query.toTsMs.all (fun millis => decide (entry.writtenTs.timestampMillis ≤ millis))

/-- `to_timestamp` of a number of milliseconds, as an instant in nanoseconds. -/
def exactTimestamp (millis : Int64) : Int := millis.toInt * 10 ^ 6

def applyQueryFilters (query : EntryQuery) (entries : List LedgerEntryRecord) :
    List LedgerEntryRecord :=
  entries.filter query.retains

namespace InMemory

variable (store : InMemory) (query : EntryQuery)

def selected : List LedgerEntryRecord := applyQueryFilters query (store.entries.entries.map (·.snd))

/-- The selection is counted and cut under one lock. -/
def queryEntries : QueryResult :=
  let values := orderBy
    (fun entry => toLex (entry.writtenTs.timestampMillis.toInt, entry.chainPosition.toInt))
    (store.selected query)
  { entries := (values.drop query.offset).take query.limit
    totalCount := Int64.ofNat values.length }

end InMemory

/-! Prefixes. -/

/-- A query by entry type alone. -/
def prefixQuery (filter : String) (limit offset : Nat) : EntryQuery where
  entryTypePrefix := some filter
  agentId := none
  sourceId := none
  correlationId := none
  fromTsMs := none
  toTsMs := none
  limit := limit
  offset := offset

/-- Postgres answers, with the entries whose type begins with the filter, as the other repository
does. -/
structure PrefixExact (toTimestamp : Int64 → Int) (filter : String) : Prop where
  counts : ∀ (table : LedgerEntries) (limit offset : Nat) reply,
    table.Answers toTimestamp (.count (prefixQuery filter limit offset)) reply →
      ∃ total, reply = .ok total
  lists : ∀ (table : LedgerEntries) (limit offset : Nat) reply, offset < 2 ^ 63 →
    table.Answers toTimestamp (.page (prefixQuery filter limit offset)) reply →
      ∃ rows, reply = .ok rows
  selects : ∀ (table : LedgerEntries) (limit offset : Nat),
    (∀ row ∈ table.rows, row.fitsColumns = true) → ∀ row ∈ table.rows,
      (row ∈ table.selected toTimestamp (prefixQuery filter limit offset) ↔
        filter.toList <+: row.entryType.toList)
  agrees : ∀ (table : LedgerEntries) (limit offset : Nat),
    (∀ row ∈ table.rows, row.fitsColumns = true) →
      table.selected toTimestamp (prefixQuery filter limit offset) =
        applyQueryFilters (prefixQuery filter limit offset) table.rows

/-- The filter can be sent, and it stands for itself or for nothing that can be stored. -/
def PlainPrefix (filter : String) : Prop :=
  Char.ofNat 0 ∉ filter.toList ∧
    ((∀ symbol ∈ filter.toList, ¬Special symbol) ∨ 255 < (shortestMatch filter.toList).length)

section

variable {toTimestamp : Int64 → Int} {filter : String} {limit offset : Nat}
  {row : LedgerEntryRecord}

theorem selects_prefixQuery : (prefixQuery filter limit offset).selects toTimestamp row =
    like (filter.toList ++ ['%']) row.entryType.toList := by
  simp [EntryQuery.selects, prefixQuery]

theorem retains_prefixQuery : (prefixQuery filter limit offset).retains row =
    filter.toList.isPrefixOf row.entryType.toList := by
  simp [EntryQuery.retains, prefixQuery]

theorem sendable_prefixQuery :
    (prefixQuery filter limit offset).sendable = true ↔ Char.ofNat 0 ∉ filter.toList := by
  simp [EntryQuery.sendable, prefixQuery]

theorem fitsVarchar_iff {width : Nat} {text : String} :
    fitsVarchar width text = true ↔ text.toList.length ≤ width ∧ Char.ofNat 0 ∉ text.toList := by
  simp [fitsVarchar, ← String.length_toList]

theorem LedgerEntryRecord.entryType_fits (fits : row.fitsColumns = true) :
    fitsVarchar 255 row.entryType = true := by
  simp only [fitsColumns, Bool.and_eq_true] at fits
  tauto

/-- On what can be stored, a plain prefix is a pattern for what begins with it. -/
theorem PlainPrefix.like_eq (plain : PlainPrefix filter) (fits : row.fitsColumns = true) :
    like (filter.toList ++ ['%']) row.entryType.toList =
      filter.toList.isPrefixOf row.entryType.toList := by
  rcases plain.2 with literal | long
  · exact like_plain literal _
  · -- Neither side is true of so short a type.
    obtain ⟨short, -⟩ := fitsVarchar_iff.mp (LedgerEntryRecord.entryType_fits fits)
    have unmatched : like (filter.toList ++ ['%']) row.entryType.toList = false := by
      by_contra matched
      rw [Bool.not_eq_false] at matched
      have least := length_shortestMatch_le matched
      omega
    have apart : filter.toList.isPrefixOf row.entryType.toList = false := by
      by_contra begins
      rw [Bool.not_eq_false, List.isPrefixOf_iff_prefix] at begins
      have least := begins.length_le
      have shortest := length_shortestMatch filter.toList
      omega
    rw [unmatched, apart]

end

namespace Sample

theorem epoch_lower : DateTime.earliest ≤ 0 := by decide

theorem epoch_upper : 0 ≤ DateTime.latest := by decide

/-- An entry with nothing but a type. -/
def ofType (entryType : String) : LedgerEntryRecord where
  entryId := ⟨Vector.replicate 16 0⟩
  entryType := entryType
  agentId := ""
  content := []
  contentType := ""
  sourceId := ""
  correlationId := none
  idempotencyKey := none
  inputHash := none
  writerSignature := none
  signerKeyReference := none
  attestationReport := none
  hashVersion := entryHashVersion
  entryHash := ""
  previousHash := ""
  chainPosition := 1
  writtenTs := ⟨0, epoch_lower, epoch_upper⟩

theorem ofType_fits {entryType : String} (fits : fitsVarchar 255 entryType = true) :
    (ofType entryType).fitsColumns = true := by
  rw [LedgerEntryRecord.fitsColumns]
  simp only [ofType, fits]
  decide

end Sample

theorem LedgerEntries.exists_single (row : LedgerEntryRecord) :
    ∃ table : LedgerEntries, table.rows = [row] := by
  refine
    ⟨{ rows := [row]
       uniqueEntryId := ?_
       uniqueTypePosition := ?_
       uniqueIdempotencyKey := ?_
       bounded := ?_ }, rfl⟩
  · exact List.nodup_singleton _
  · exact List.nodup_singleton _
  · cases indexed : row.idempotencyIndex with
    | none => simp [indexed]
    | some index => simp [indexed]
  · exact show 1 ≤ rowLimit by decide

/-- The prefix filter is exact on both repositories for a plain prefix and for no other. -/
theorem prefixExact_iff (toTimestamp : Int64 → Int) (filter : String) :
    PrefixExact toTimestamp filter ↔ PlainPrefix filter := by
  constructor
  · intro exact_
    have sendable : (prefixQuery filter 0 0).sendable = true := by
      by_contra refused
      obtain ⟨total, accepted⟩ := exact_.counts .empty 0 0 _ rfl
      rw [if_neg refused] at accepted
      cases accepted
    have noNul := sendable_prefixQuery.mp sendable
    refine ⟨noNul, ?_⟩
    by_contra neither
    rw [not_or, not_lt] at neither
    obtain ⟨special, short⟩ := neither
    -- The shortest match can be stored, and it does not begin with the filter.
    have fits : fitsVarchar 255 (String.ofList (shortestMatch filter.toList)) = true := by
      rw [fitsVarchar_iff, String.toList_ofList]
      refine ⟨short, fun member => ?_⟩
      rcases mem_shortestMatch member with found | same | same
      · exact noNul found
      · exact absurd same (by decide)
      · exact absurd same (by decide)
    obtain ⟨table, rows⟩ :=
      LedgerEntries.exists_single (Sample.ofType (String.ofList (shortestMatch filter.toList)))
    have member : Sample.ofType (String.ofList (shortestMatch filter.toList)) ∈ table.rows := by
      rw [rows]
      exact List.mem_singleton_self _
    have storable : ∀ row ∈ table.rows, row.fitsColumns = true := by
      rw [rows]
      exact List.forall_mem_singleton.mpr (Sample.ofType_fits fits)
    have typed : (Sample.ofType (String.ofList (shortestMatch filter.toList))).entryType.toList =
        shortestMatch filter.toList := String.toList_ofList
    have selected : Sample.ofType (String.ofList (shortestMatch filter.toList)) ∈
        table.selected toTimestamp (prefixQuery filter 0 0) := by
      rw [LedgerEntries.selected, List.mem_filter, selects_prefixQuery, typed]
      exact ⟨member, like_shortestMatch _⟩
    have begins := (exact_.selects table 0 0 storable _ member).mp selected
    rw [typed] at begins
    exact special (plain_of_begins begins)
  · intro plain
    have sendable : ∀ limit offset, (prefixQuery filter limit offset).sendable = true :=
      fun limit offset => sendable_prefixQuery.mpr plain.1
    constructor
    · intro table limit offset reply answered
      rw [LedgerEntries.Answers, if_pos (sendable limit offset)] at answered
      exact ⟨_, answered⟩
    · intro table limit offset reply small answered
      rw [LedgerEntries.Answers, if_pos ⟨sendable limit offset, small⟩] at answered
      obtain ⟨rows, -, shown⟩ := answered
      exact ⟨_, shown⟩
    · intro table limit offset storable row member
      rw [LedgerEntries.selected, List.mem_filter, selects_prefixQuery,
        plain.like_eq (storable row member), List.isPrefixOf_iff_prefix]
      exact and_iff_right member
    · intro table limit offset storable
      refine List.filter_congr fun row member => ?_
      rw [selects_prefixQuery, retains_prefixQuery, plain.like_eq (storable row member)]

/-- The underscore of a type matches a dot. -/
theorem prefixExact_underscore : ¬PrefixExact exactTimestamp "cpex_" := by
  intro exact_
  obtain ⟨table, rows⟩ := LedgerEntries.exists_single (Sample.ofType "cpex.tool")
  have member : Sample.ofType "cpex.tool" ∈ table.rows := by
    rw [rows]
    exact List.mem_singleton_self _
  have storable : ∀ row ∈ table.rows, row.fitsColumns = true := by
    rw [rows]
    exact List.forall_mem_singleton.mpr (Sample.ofType_fits (by decide))
  have selected : Sample.ofType "cpex.tool" ∈
      table.selected exactTimestamp (prefixQuery "cpex_" 100 0) := by
    rw [LedgerEntries.selected, List.mem_filter, selects_prefixQuery]
    exact ⟨member, by decide⟩
  have begins := (exact_.selects table 100 0 storable _ member).mp selected
  rw [← List.isPrefixOf_iff_prefix] at begins
  exact absurd begins (by decide)

/-! Time windows. -/

/-- The query without its bounds on the time. -/
def EntryQuery.anyTime (query : EntryQuery) : EntryQuery :=
  { query with fromTsMs := none, toTsMs := none }

/-- All filters but those on the time let the entry pass, in both repositories. -/
structure EntryQuery.OthersMatch (query : EntryQuery) (entry : LedgerEntryRecord) : Prop where
  selects : query.anyTime.selects exactTimestamp entry = true
  retains : query.anyTime.retains entry = true

/-- The millisecond that is reported for the entry lies between the bounds. -/
def EntryQuery.Within (query : EntryQuery) (entry : LedgerEntryRecord) : Prop :=
  (∀ millis ∈ query.fromTsMs, millis ≤ entry.writtenTs.timestampMillis) ∧
    ∀ millis ∈ query.toTsMs, entry.writtenTs.timestampMillis ≤ millis

/-- Of an entry that was written at an instant and that Postgres keeps to the microsecond, both
repositories say what its reported time says. -/
structure WindowExact (query : EntryQuery) (table : LedgerEntries) (store : InMemory)
    (entry : LedgerEntryRecord) : Prop where
  selects : entry.stored ∈ table.selected exactTimestamp query ↔ query.Within entry
  agrees : entry.stored ∈ table.selected exactTimestamp query ↔ entry ∈ store.selected query

/-- The last millisecond of the window is that of the entry, and the entry came later in it. -/
def LateInLast (query : EntryQuery) (entry : LedgerEntryRecord) : Prop :=
  query.toTsMs = some entry.writtenTs.timestampMillis ∧
    entry.stored.writtenTs.nanos % 10 ^ 6 ≠ 0 ∧
      ∀ millis ∈ query.fromTsMs, millis ≤ entry.writtenTs.timestampMillis

theorem DateTime.timestampMillis_toInt (instant : DateTime) :
    instant.timestampMillis.toInt = instant.nanos / 10 ^ 6 := by
  have lower := instant.lower
  have upper := instant.upper
  simp only [earliest, latest] at lower upper
  rw [timestampMillis]
  apply Int64.toInt_ofInt_of_le
  · omega
  · omega

section

variable {query : EntryQuery} {entry : LedgerEntryRecord}

theorem EntryQuery.selects_eq (toTimestamp : Int64 → Int) (query : EntryQuery)
    (row : LedgerEntryRecord) : query.selects toTimestamp row =
      (query.anyTime.selects toTimestamp row &&
        query.fromTsMs.all (fun millis => decide (toTimestamp millis ≤ row.writtenTs.nanos)) &&
          query.toTsMs.all (fun millis => decide (row.writtenTs.nanos ≤ toTimestamp millis))) := by
  simp [selects, anyTime]

theorem EntryQuery.retains_eq (query : EntryQuery) (entry : LedgerEntryRecord) :
    query.retains entry = (query.anyTime.retains entry &&
      query.fromTsMs.all (fun millis => decide (millis ≤ entry.writtenTs.timestampMillis)) &&
        query.toTsMs.all (fun millis => decide (entry.writtenTs.timestampMillis ≤ millis))) := by
  simp [retains, anyTime]

theorem EntryQuery.retains_iff (others : query.OthersMatch entry) :
    query.retains entry = true ↔ query.Within entry := by
  rw [query.retains_eq, others.retains]
  simp [Within, Option.all_eq_true]

/-- Bounds from below agree: a millisecond has passed when the instant is at or behind its start. -/
theorem from_iff (instant : DateTime) (millis : Int64) :
    exactTimestamp millis ≤ instant.truncateMicros.nanos ↔ millis ≤ instant.timestampMillis := by
  rw [Int64.le_iff_toInt_le, instant.timestampMillis_toInt, exactTimestamp, DateTime.truncateMicros]
  dsimp only
  omega

/-- Bounds from above do not: only the start of the last millisecond is within. -/
theorem to_iff (instant : DateTime) (millis : Int64) :
    instant.truncateMicros.nanos ≤ exactTimestamp millis ↔ instant.timestampMillis ≤ millis ∧
      ¬(millis = instant.timestampMillis ∧ instant.truncateMicros.nanos % 10 ^ 6 ≠ 0) := by
  rw [Int64.le_iff_toInt_le, ← Int64.toInt_inj, instant.timestampMillis_toInt, exactTimestamp,
    DateTime.truncateMicros]
  dsimp only
  omega

theorem EntryQuery.selects_iff (others : query.OthersMatch entry) :
    query.selects exactTimestamp entry.stored = true ↔
      query.Within entry ∧ ¬LateInLast query entry := by
  have matched : query.anyTime.selects exactTimestamp entry.stored = true := others.selects
  have instant : entry.stored.writtenTs = entry.writtenTs.truncateMicros := rfl
  rw [query.selects_eq, matched, LateInLast, instant]
  simp only [Bool.true_and, Bool.and_eq_true, Option.all_eq_true, decide_eq_true_eq, from_iff, to_iff,
    EntryQuery.Within]
  cases query.toTsMs with
  | none => simp
  | some millis =>
    simp only [Option.mem_some_iff, forall_eq', Option.some.injEq]
    tauto

theorem InMemory.mem_selected {store : InMemory} (kept : store.Stores entry) :
    entry ∈ store.selected query ↔ query.retains entry = true := by
  have member : entry ∈ store.entries.entries.map (·.snd) :=
    List.mem_map.mpr ⟨_, AList.mem_lookup_iff.mp kept, rfl⟩
  rw [selected, applyQueryFilters, List.mem_filter, and_iff_right member]

end

/-- A time window means what the reported times say, unless the entry came later within the last
millisecond of it. -/
theorem windowExact_iff {query : EntryQuery} {table : LedgerEntries} {store : InMemory}
    {entry : LedgerEntryRecord} (stored : entry.stored ∈ table.rows) (kept : store.Stores entry)
    (others : query.OthersMatch entry) :
    WindowExact query table store entry ↔ ¬LateInLast query entry := by
  have inTable : entry.stored ∈ table.selected exactTimestamp query ↔
      query.Within entry ∧ ¬LateInLast query entry := by
    rw [LedgerEntries.selected, List.mem_filter, and_iff_right stored, query.selects_iff others]
  have inMemory : entry ∈ store.selected query ↔ query.Within entry := by
    rw [InMemory.mem_selected kept, query.retains_iff others]
  -- An entry that is late in the last millisecond is within the window.
  have within : LateInLast query entry → query.Within entry := by
    rintro ⟨last, -, notBefore⟩
    refine ⟨notBefore, fun millis bound => ?_⟩
    rw [last, Option.mem_some_iff] at bound
    exact bound ▸ Int64.le_refl _
  constructor
  · rintro ⟨selects, -⟩ late
    exact (inTable.mp (selects.mpr (within late))).2 late
  · intro early
    constructor
    · rw [inTable, and_iff_left early]
    · rw [inTable, inMemory, and_iff_left early]

namespace Sample

theorem lateInstant_lower : DateTime.earliest ≤ 1500000 := by decide

theorem lateInstant_upper : 1500000 ≤ DateTime.latest := by decide

/-- An entry that was written half a millisecond after the first one since the epoch began. -/
def late : LedgerEntryRecord :=
  { ofType "audit.event" with writtenTs := ⟨1500000, lateInstant_lower, lateInstant_upper⟩ }

/-- The window from a millisecond to itself. -/
def during (millis : Int64) : EntryQuery :=
  { prefixQuery "" 100 0 with fromTsMs := some millis, toTsMs := some millis }

theorem late_othersMatch (millis : Int64) : (during millis).OthersMatch late := by
  constructor
  · change like ([] ++ ['%']) _ && true && true && true && true && true = true
    rw [List.nil_append, like_anything]
    rfl
  · rfl

end Sample

/-- The window of the time that is reported for an entry does not have the entry in it. -/
theorem windowExact_late :
    ¬∀ (table : LedgerEntries) (store : InMemory), Sample.late.stored ∈ table.rows →
      store.Stores Sample.late → (Sample.during 1).OthersMatch Sample.late →
        WindowExact (Sample.during 1) table store Sample.late := by
  intro exact_
  obtain ⟨table, rows⟩ := LedgerEntries.exists_single Sample.late.stored
  have member : Sample.late.stored ∈ table.rows := by
    rw [rows]
    exact List.mem_singleton_self _
  have window := exact_ table (InMemory.empty.add Sample.late none) member InMemory.stores_add_self
    (Sample.late_othersMatch 1)
  have reported : Sample.late.writtenTs.timestampMillis = 1 := by decide
  have within : (Sample.during 1).Within Sample.late := by
    constructor
    · intro millis bound
      rw [reported, ← Option.some.inj bound]
      exact Int64.le_refl _
    · intro millis bound
      rw [reported, ← Option.some.inj bound]
      exact Int64.le_refl _
  have selected := window.selects.mpr within
  rw [LedgerEntries.selected, List.mem_filter] at selected
  exact absurd selected.2 (by decide)

/-- A window that ends a millisecond later has it. -/
theorem windowExact_early :
    ∃ (table : LedgerEntries) (store : InMemory), Sample.late.stored ∈ table.rows ∧
      WindowExact (Sample.during 2) table store Sample.late := by
  obtain ⟨table, rows⟩ := LedgerEntries.exists_single Sample.late.stored
  have member : Sample.late.stored ∈ table.rows := by
    rw [rows]
    exact List.mem_singleton_self _
  have early : ¬LateInLast (Sample.during 2) Sample.late := by
    rintro ⟨last, -⟩
    exact absurd (Option.some.inj last) (by decide)
  exact ⟨table, InMemory.empty.add Sample.late none, member,
    (windowExact_iff member InMemory.stores_add_self (Sample.late_othersMatch 2)).mpr early⟩

end ImmutableLedger
