import ImmutableLedger.Audit.Completeness
import ImmutableLedger.Repository.Backend

/-! Appends keep chains whole.

Within one database step an append lands behind the tip it was checked against. The only
thing the transaction does not check is the link of a first entry, so a request is `Ready`
when it names the genesis hash or the chain it goes to has an entry already.
-/

set_option autoImplicit false

namespace ImmutableLedger

open Query Chain

theorem LedgerEntries.ofType_append {before after : LedgerEntries} {row : LedgerEntryRecord}
    (rows : after.rows = before.rows ++ [row]) (entryType : String) :
    after.ofType entryType =
      if row.entryType = entryType then before.ofType entryType ++ [row]
      else before.ofType entryType := by
  rw [ofType, rows, List.filter_append]
  by_cases typed : row.entryType = entryType <;> simp [typed, ofType]

theorem LedgerEntries.chain_append {before after : LedgerEntries} {row : LedgerEntryRecord}
    (rows : after.rows = before.rows ++ [row])
    (highest : ∀ other ∈ before.chain row.entryType, other.position < row.position)
    (entryType : String) :
    after.chain entryType =
      if row.entryType = entryType then before.chain entryType ++ [row]
      else before.chain entryType := by
  rw [chain, ofType_append rows]
  split
  · next typed =>
    subst typed
    refine orderBy_concat (before.uniquePosition _) fun other member => highest other ?_
    exact mem_chain.mpr (mem_ofType.mp member)
  · rfl

/-- The hash a walk carries is that of the last row. -/
theorem lastHash_of_getLast? {genesis : String} {rows : List LedgerEntryRecord}
    {tip : LedgerEntryRecord} (last : rows.getLast? = some tip) :
    lastHash LedgerEntryRecord.entryHash genesis rows = tip.entryHash := by
  obtain ⟨front, rfl⟩ := List.getLast?_eq_some_iff.mp last
  simp

/-- In a chain without gaps the tip is at the position that counts its rows. -/
theorem Contiguous.position_tip {table : LedgerEntries} {entryType : String}
    (contiguous : Contiguous table entryType) {tip : LedgerEntryRecord}
    (last : (table.chain entryType).getLast? = some tip) :
    tip.position = (table.chain entryType).length := by
  obtain ⟨front, split⟩ := List.getLast?_eq_some_iff.mp last
  have counted : (front ++ [tip]).map LedgerEntryRecord.position =
      positions (table.chain entryType).length := by
    rw [← split]
    exact contiguous
  rw [position_of_split counted, split, List.length_append, List.length_singleton]
  omega

theorem Contiguous.position_le {table : LedgerEntries} {entryType : String}
    (contiguous : Contiguous table entryType) {row : LedgerEntryRecord}
    (member : row ∈ table.chain entryType) :
    1 ≤ row.position ∧ row.position ≤ (table.chain entryType).length := by
  refine mem_positions.mp ?_
  rw [← show _ = _ from contiguous]
  exact List.mem_map_of_mem member

/-- The request names the genesis hash, or the chain it extends has an entry. -/
def Ready (genesis : String) (tables : Tables) : RepositoryRequest → Prop
  | .writeEntryWithOutbox input =>
      input.previousHash = genesis ∨ tables.entries.ofType input.entryType ≠ []
  | _ => True

/-- A position that leaves room below the largest number is followed by the next one. -/
theorem toInt_add_one {position : Int64} (low : 0 ≤ position.toInt)
    (room : position.toInt ≤ rowLimit) : (position + 1).toInt = position.toInt + 1 := by
  have limit : rowLimit = 2 ^ 43 := rfl
  rw [Int64.toInt_add, show (1 : Int64).toInt = 1 from rfl, Int.bmod]
  omega

theorem Tables.Extends.position {tables : Tables} {input : EntryWriteInput} {nextPosition : Int64}
    (extension : tables.Extends input nextPosition)
    (contiguous : Contiguous tables.entries input.entryType) :
    nextPosition.toInt = (tables.entries.chain input.entryType).length + 1 := by
  unfold Extends at extension
  split at extension
  · next vacant =>
    obtain ⟨-, rfl⟩ := extension
    rw [List.getLast?_eq_none_iff.mp vacant]
    rfl
  · next tip last =>
    obtain ⟨-, rfl⟩ := extension
    have at_ : tip.chainPosition.toInt = _ := contiguous.position_tip last
    have room := tables.entries.length_chain_le input.entryType
    rw [toInt_add_one (by omega) (by omega), at_]

/-- The transaction puts a ready entry where a complete chain ends. -/
theorem Tables.Extends.follows {genesis : String} {tables : Tables} {input : EntryWriteInput}
    {nextPosition : Int64} (extension : tables.Extends input nextPosition)
    (ready : Ready genesis tables (.writeEntryWithOutbox input))
    (contiguous : Contiguous tables.entries input.entryType) :
    nextPosition.toInt = (tables.entries.chain input.entryType).length + 1 ∧
      input.previousHash = lastHash LedgerEntryRecord.entryHash genesis
        (tables.entries.chain input.entryType) := by
  refine ⟨extension.position contiguous, ?_⟩
  unfold Extends at extension
  split at extension
  · next vacant =>
    have nothing := List.getLast?_eq_none_iff.mp vacant
    have unstored : tables.entries.ofType input.entryType = [] := by
      rw [← List.length_eq_zero_iff, ← LedgerEntries.length_chain, nothing, List.length_nil]
    rw [nothing]
    exact ready.resolve_right fun stored => stored unstored
  · next tip last => exact extension.1.trans (lastHash_of_getLast? last).symm

section

variable [Sha256]

/-- Every chain of the table is complete. -/
def ChainsValid (genesis : String) (table : LedgerEntries) : Prop :=
  ∀ entryType, Complete genesis table entryType (table.ofType entryType).length

theorem ChainsValid.empty (genesis : String) : ChainsValid genesis .empty := fun _ =>
  ⟨rfl, rfl, trivial, fun _ member => absurd member List.not_mem_nil⟩

theorem ChainsValid.append {genesis : String} {before after : LedgerEntries}
    {row : LedgerEntryRecord} (valid : ChainsValid genesis before)
    (rows : after.rows = before.rows ++ [row])
    (position : row.position = (before.chain row.entryType).length + 1)
    (link : row.previousHash =
      lastHash LedgerEntryRecord.entryHash genesis (before.chain row.entryType))
    (hashed : row.HashValid) : ChainsValid genesis after := by
  have contiguous := (valid row.entryType).contiguous_table
  have highest : ∀ other ∈ before.chain row.entryType, other.position < row.position :=
    fun other member => by
      have bound := (contiguous.position_le member).2
      omega
  intro entryType
  obtain ⟨-, counted, linked, hashes⟩ := valid entryType
  have chain := LedgerEntries.chain_append rows highest entryType
  have stored := LedgerEntries.ofType_append rows entryType
  by_cases typed : row.entryType = entryType
  · subst typed
    rw [if_pos rfl] at chain stored
    refine ⟨rfl, ?_, ?_, ?_⟩
    · rw [chain, stored, List.map_append, counted, List.length_append, List.length_singleton,
        positions_succ, List.map_singleton, position, LedgerEntries.length_chain]
    · rw [chain]
      exact linked_concat.mpr ⟨linked, link⟩
    · rw [stored]
      exact List.forall_mem_append.mpr ⟨hashes, List.forall_mem_singleton.mpr hashed⟩
  · rw [if_neg typed] at chain stored
    refine ⟨rfl, ?_, ?_, ?_⟩
    · rw [chain, stored, counted]
    · rw [chain]
      exact linked
    · rw [stored]
      exact hashes

theorem Tables.Committed.chainsValid {genesis : String} {before after : Tables} {draw : Draw}
    {input : EntryWriteInput} {result : WriteResult} {nextPosition : Int64}
    (committed : Committed before draw input result after nextPosition)
    (ready : Ready genesis before (.writeEntryWithOutbox input))
    (valid : ChainsValid genesis before.entries) : ChainsValid genesis after.entries := by
  obtain ⟨position, link⟩ :=
    committed.extends_tip.follows ready (valid input.entryType).contiguous_table
  have rows := committed.rows
  rw [committed.entry] at rows
  refine valid.append rows position link ?_
  rw [LedgerEntryRecord.hashValid_stored]
  exact input.entry_hashValid draw.ids nextPosition

end

end ImmutableLedger
