import ImmutableLedger.Audit.Walk
import ImmutableLedger.Crypto.Fips180

/-! What a passed audit says about the positions of a chain. -/

set_option autoImplicit false

namespace ImmutableLedger

open Query Chain

/-- The positions of a chain of `count` entries. -/
def positions (count : Nat) : List Int := (List.range count).map fun i : Nat => (i : Int) + 1

@[simp] theorem length_positions (count : Nat) : (positions count).length = count := by
  simp [positions]

theorem positions_succ (count : Nat) :
    positions (count + 1) = positions count ++ [(count : Int) + 1] := by
  simp [positions, List.range_succ]

theorem mem_positions {count : Nat} {position : Int} :
    position ∈ positions count ↔ 1 ≤ position ∧ position ≤ count := by
  simp only [positions, List.mem_map, List.mem_range]
  constructor
  · rintro ⟨i, below, rfl⟩
    omega
  · rintro ⟨low, high⟩
    exact ⟨(position - 1).toNat, by omega, by omega⟩

/-- Counting along a list, a row comes at the position after those before it. -/
theorem position_of_split {before rest : List LedgerEntryRecord} {row : LedgerEntryRecord}
    {count : Nat}
    (counted : (before ++ row :: rest).map LedgerEntryRecord.position = positions count) :
    row.position = before.length + 1 := by
  have here := congrArg (fun list : List Int => list[before.length]?) counted
  simp only [List.map_append, List.map_cons, positions, List.getElem?_map] at here
  rw [List.getElem?_append_right (by simp), List.length_map, Nat.sub_self,
    List.getElem?_cons_zero] at here
  obtain ⟨i, found, same⟩ := Option.map_eq_some_iff.mp here.symm
  rw [List.getElem?_eq_some_iff] at found
  obtain ⟨_, value⟩ := found
  rw [List.getElem_range] at value
  omega

/-! Rows at the positions 1, 2, ... -/

section

variable {rows : List LedgerEntryRecord}

theorem position_getElem (counted : rows.map LedgerEntryRecord.position = positions rows.length)
    {i : Nat} (within : i < rows.length) : rows[i].position = i + 1 := by
  have split : rows = rows.take i ++ rows[i] :: rows.drop (i + 1) := by simp
  rw [split] at counted
  have place := position_of_split counted
  rwa [List.length_take, Nat.min_eq_left (Nat.le_of_lt within)] at place

theorem above_counted (counted : rows.map LedgerEntryRecord.position = positions rows.length)
    (count : Nat) : above LedgerEntryRecord.position count rows = rows.drop count := by
  have low : above LedgerEntryRecord.position count (rows.take count) = [] := by
    apply List.filter_eq_nil_iff.mpr
    intro row member
    obtain ⟨i, within, rfl⟩ := List.mem_take_iff_getElem.mp member
    have place := position_getElem counted (i := i) (by omega)
    simp only [decide_eq_true_eq]
    omega
  have high : above LedgerEntryRecord.position count (rows.drop count) = rows.drop count := by
    apply List.filter_eq_self.mpr
    intro row member
    obtain ⟨i, within, rfl⟩ := List.mem_drop_iff_getElem.mp member
    have place := position_getElem counted (i := count + i) (by omega)
    simp only [decide_eq_true_eq]
    omega
  calc above LedgerEntryRecord.position count rows
      = above LedgerEntryRecord.position count (rows.take count ++ rows.drop count) := by
        rw [List.take_append_drop]
    _ = rows.drop count := by
        rw [above, List.filter_append, ← above, ← above, low, high, List.nil_append]

/-- A row at a position is where its position says. -/
theorem getElem?_of_position (counted : rows.map LedgerEntryRecord.position = positions rows.length)
    {row : LedgerEntryRecord} (member : row ∈ rows) :
    ∃ i : Nat, rows[i]? = some row ∧ row.position = i + 1 := by
  obtain ⟨i, within, rfl⟩ := List.mem_iff_getElem.mp member
  exact ⟨i, List.getElem?_eq_getElem within, position_getElem counted within⟩

/-- Of two counted lists the one with the rows of the other begins with them. -/
theorem prefix_of_counted {more : List LedgerEntryRecord}
    (counted : rows.map LedgerEntryRecord.position = positions rows.length)
    (countedMore : more.map LedgerEntryRecord.position = positions more.length)
    (fewer : rows ⊆ more) : rows <+: more := by
  apply List.prefix_iff_getElem?.mpr
  intro i within
  obtain ⟨j, found, place⟩ := getElem?_of_position countedMore (fewer (List.getElem_mem within))
  have same : j = i := by
    have index := position_getElem counted within
    omega
  rw [same] at found
  exact found

/-- Past a row a walk carries its hash. -/
theorem lastHash_take_succ (genesis : String) {i : Nat} {row : LedgerEntryRecord}
    (found : rows[i]? = some row) :
    lastHash LedgerEntryRecord.entryHash genesis (rows.take (i + 1)) = row.entryHash := by
  obtain ⟨within, rfl⟩ := List.getElem?_eq_some_iff.mp found
  rw [List.take_succ_eq_append_getElem within, lastHash_append]
  rfl

end

/-- The rows of a type occupy the positions 1, 2, ..., as many as there are. -/
def Contiguous (table : LedgerEntries) (entryType : String) : Prop :=
  (table.chain entryType).map LedgerEntryRecord.position =
    positions (table.chain entryType).length

theorem Contiguous.audited_eq {table : LedgerEntries} {entryType : String}
    (contiguous : Contiguous table entryType) :
    table.audited entryType = table.chain entryType := by
  refine List.filter_eq_self.mpr fun row member => decide_eq_true ?_
  have listed : row.position ∈ positions (table.chain entryType).length := by
    rw [← show _ = _ from contiguous]
    exact List.mem_map_of_mem member
  exact (mem_positions.mp listed).1

section

variable [Sha256]

/-- A chain of `count` entries of which none is missing, none is out of place and every one is
correctly linked and hashed. -/
structure Complete (genesis : String) (table : LedgerEntries) (entryType : String)
    (count : Nat) : Prop where
  stored : (table.ofType entryType).length = count
  contiguous : (table.chain entryType).map LedgerEntryRecord.position = positions count
  linked : LinkedEntries genesis (table.chain entryType)
  hashed : ∀ row ∈ table.ofType entryType, row.HashValid

theorem Complete.contiguous_table {genesis : String} {table : LedgerEntries} {entryType : String}
    {count : Nat} (complete : Complete genesis table entryType count) :
    Contiguous table entryType := by
  rw [Contiguous, LedgerEntries.length_chain, complete.stored]
  exact complete.contiguous

theorem complete_iff {genesis : String} {table : LedgerEntries} {entryType : String} :
    Complete genesis table entryType (table.ofType entryType).length ↔
      Contiguous table entryType ∧ Sound genesis table entryType := by
  constructor
  · intro complete
    have contiguous := complete.contiguous_table
    refine ⟨contiguous, ?_, fun row member => ?_⟩
    · rw [contiguous.audited_eq]
      exact complete.linked
    · rw [contiguous.audited_eq, LedgerEntries.mem_chain, ← LedgerEntries.mem_ofType] at member
      exact complete.hashed row member
  · rintro ⟨contiguous, linked, hashed⟩
    rw [contiguous.audited_eq] at linked hashed
    refine ⟨rfl, ?_, linked, fun row member => ?_⟩
    · rw [← LedgerEntries.length_chain]
      exact contiguous
    · exact hashed row (LedgerEntries.mem_chain.mpr (LedgerEntries.mem_ofType.mp member))

/-- A full audit vouches for every stored row of a chain exactly if no row hides from it at a
position below 1 or behind a gap, or the rows it does see betray themselves. -/
theorem fullAudit_complete_iff (config : AppConfig) (tables : Tables) (entryType : String) :
    (∀ output, FullAudit config tables entryType output → output.chainValid = true →
      Complete config.genesisHash tables.entries entryType output.entriesChecked) ↔
      Contiguous tables.entries entryType ∨ ¬Sound config.genesisHash tables.entries entryType := by
  constructor
  · intro vouched
    by_cases sound : Sound config.genesisHash tables.entries entryType
    · obtain ⟨output, audit⟩ := fullAudit_exists config tables entryType
      exact .inl (vouched output audit ((fullAudit_valid_iff audit).mpr sound)).contiguous_table
    · exact .inr sound
  · rintro condition output audit valid
    have sound := (fullAudit_valid_iff audit).mp valid
    have contiguous := condition.resolve_right (not_not_intro sound)
    rw [fullAudit_entriesChecked audit valid, contiguous.audited_eq, LedgerEntries.length_chain]
    exact complete_iff.mpr ⟨contiguous, sound⟩

omit [Sha256] in
theorem LedgerEntries.chain_of_ascending {table : LedgerEntries} {entryType : String}
    (typed : ∀ row ∈ table.rows, row.entryType = entryType)
    (ascends : Ascending LedgerEntryRecord.position table.rows) :
    table.chain entryType = table.rows := by
  have all : table.ofType entryType = table.rows :=
    List.filter_eq_self.mpr fun row member => decide_eq_true (typed row member)
  rw [chain, all]
  exact ascends.orderBy_eq

/-! A gap that passes. -/

namespace Sample

def config : AppConfig where
  maxContentSizeBytes := 1048576
  genesisHashInput := "ARE_LEDGER_GENESIS"
  chainMaxRetries := 10
  chainHaltRecoverySeconds := 60
  outboxMaxRetries := 10
  verifyMaxEntriesPerChain := 10000

def instant : DateTime := ⟨1750000000000000000, by decide, by decide⟩

def request (previousHash : String) : EntryWriteInput where
  entryType := "audit.event"
  agentId := "agent"
  content := [123, 125]
  contentType := "application/json"
  sourceId := "source"
  correlationId := none
  idempotencyKey := none
  inputHash := none
  writerSignature := none
  signerKeyReference := none
  attestationReport := none
  previousHash := previousHash
  writtenTs := instant
  createOutbox := false

def ids (octet : UInt8) : FreshIds :=
  let id : Uuid := ⟨Vector.replicate 16 octet⟩
  ⟨id, id, id⟩

/-- An entry as a repository writes it behind `previousHash`. -/
def entry (octet : UInt8) (previousHash : String) (position : Int64) : LedgerEntryRecord :=
  (request previousHash).entry (ids octet) position

variable (octet : UInt8) (previousHash : String) (position : Int64)

@[simp] theorem entry_entryType :
    (entry octet previousHash position).entryType = "audit.event" := rfl

@[simp] theorem entry_position :
    (entry octet previousHash position).position = position.toInt := rfl

@[simp] theorem entry_previousHash :
    (entry octet previousHash position).previousHash = previousHash := rfl

@[simp] theorem entry_hashValid : (entry octet previousHash position).HashValid :=
  EntryWriteInput.entry_hashValid _ _ _

/-! Tables that hold a few rows. -/

omit [Sha256] in
theorem noKeys : ([] : List (String × String)).Nodup := List.nodup_nil

omit [Sha256] in
theorem oneRow : 1 ≤ rowLimit := by decide

omit [Sha256] in
theorem twoRows : 2 ≤ rowLimit := by decide

/-- The second of three entries is gone, and the third was written anew on top of the first. -/
def gapped : Tables where
  entries :=
    let first := entry 1 config.genesisHash 1
    { rows := [first, entry 3 first.entryHash 3]
      uniqueEntryId := show [(ids 1).entryId, (ids 3).entryId].Nodup by decide
      uniqueTypePosition :=
        show [("audit.event", (1 : Int64)), ("audit.event", (3 : Int64))].Nodup by decide
      uniqueIdempotencyKey := noKeys
      bounded := twoRows }
  outbox := .empty

theorem gapped_chain : gapped.entries.chain "audit.event" = gapped.entries.rows :=
  LedgerEntries.chain_of_ascending (by simp [gapped]) (by simp [gapped, Ascending])

theorem gapped_audited : gapped.entries.audited "audit.event" = gapped.entries.rows := by
  rw [LedgerEntries.audited, LedgerEntries.chainAbove, gapped_chain]
  exact List.filter_eq_self.mpr (by simp [gapped])

theorem gapped_sound : Sound config.genesisHash gapped.entries "audit.event" := by
  refine ⟨?_, ?_⟩
  · rw [gapped_audited]
    exact ⟨rfl, rfl, trivial⟩
  · rw [gapped_audited]
    simp [gapped]

theorem gapped_not_contiguous : ¬Contiguous gapped.entries "audit.event" := by
  rw [Contiguous, gapped_chain]
  exact show ¬[(1 : Int64).toInt, (3 : Int64).toInt] = positions 2 by decide

end Sample

end

/-- The audit of a chain without its second entry reports a valid chain. -/
theorem fullAudit_misses_gap :
    letI := Fips180.sha256
    ¬ ∀ output, FullAudit Sample.config Sample.gapped "audit.event" output →
      output.chainValid = true →
        Complete Sample.config.genesisHash Sample.gapped.entries "audit.event"
          output.entriesChecked := by
  intro vouched
  let := Fips180.sha256
  obtain ⟨output, audit⟩ := fullAudit_exists Sample.config Sample.gapped "audit.event"
  have valid := (fullAudit_valid_iff audit).mpr Sample.gapped_sound
  exact Sample.gapped_not_contiguous (vouched output audit valid).contiguous_table

end ImmutableLedger
