import ImmutableLedger.Repository.Queries
import ImmutableLedger.Service.Types

/-! `query_entries`, as a service over Postgres runs it. -/

set_option autoImplicit false

namespace ImmutableLedger

open Concurrency

structure QueryEntriesInput where
  entryType : Option String
  agentId : Option String
  sourceId : Option String
  correlationId : Option String
  fromTs : Option Int64
  toTs : Option Int64
  pageSize : Int32
  pageToken : Option String

structure QueryResult where
  entries : List LedgerEntryRecord
  totalCount : Int64

def execute (statement : QueryStatement) :
    ExceptT RepositoryError (Program statements) statement.Value :=
  ExceptT.mk (Program.perform (I := statements) statement)

namespace PostgresLedgerRepository

/-- The count first and the page after it, outside of a common transaction. -/
def queryEntries (query : EntryQuery) : ExceptT RepositoryError (Program statements) QueryResult := do
  let totalCount ← execute (.count query)
  let entries ← execute (.page query)
  return { entries := entries, totalCount := totalCount }

end PostgresLedgerRepository

/-- `parse::<usize>`, which takes a leading plus sign. -/
def parseUsize (raw : String) : Option Nat :=
  let digits := match raw.toList with
    | '+' :: rest => rest
    | symbols => symbols
  if digits.isEmpty || !digits.all Char.isDigit then none
  else
    let value := Nat.ofDigitChars 10 digits 0
    if value < 2 ^ 64 then some value else none

def pageLimit (pageSize : Int32) : Nat :=
  if pageSize ≤ 0 then 100
  else if 1000 < pageSize then 1000
  else pageSize.toInt.toNat

def QueryEntriesInput.offset (query : QueryEntriesInput) : Nat :=
  (query.pageToken.bind parseUsize).getD 0

def QueryEntriesInput.entryQuery (query : QueryEntriesInput) : EntryQuery where
  entryTypePrefix := query.entryType
  agentId := query.agentId
  sourceId := query.sourceId
  correlationId := query.correlationId
  fromTsMs := query.fromTs
  toTsMs := query.toTs
  limit := pageLimit query.pageSize
  offset := query.offset

def queryEntries (query : QueryEntriesInput) :
    ExceptT ServiceError (Program statements) (List LedgerEntryRecord × Option String × Int64) := do
  let result ← ExceptT.mk do
    return (← (PostgresLedgerRepository.queryEntries query.entryQuery).run).mapError mapRepo
  let pageEntries := result.entries
  let total := result.totalCount
  let nextOffset := query.offset + pageEntries.length
  let nextToken := if nextOffset < total.toUInt64.toNat then some (toString nextOffset) else none
  return (pageEntries, nextToken, total)

/-- A token is read back as the offset it was written for. -/
theorem parseUsize_toString {offset : Nat} (small : offset < 2 ^ 64) :
    parseUsize (toString offset) = some offset := by
  have symbols : (toString offset).toList = Nat.toDigits 10 offset := by
    rw [Nat.toString_eq_repr, Nat.repr, String.toList_ofList]
  have digits : (Nat.toDigits 10 offset).all Char.isDigit = true :=
    List.all_eq_true.mpr fun symbol member => Nat.isDigit_of_mem_toDigits (by decide) (by decide) member
  have nonempty : (Nat.toDigits 10 offset).isEmpty = false := by
    rw [List.isEmpty_eq_false_iff]
    exact Nat.toDigits_ne_nil
  have unsigned : ∀ rest, Nat.toDigits 10 offset ≠ '+' :: rest := by
    intro rest same
    rw [same, List.all_cons] at digits
    exact absurd digits (by simp [Char.isDigit])
  unfold parseUsize
  rw [symbols]
  split
  · next rest same => exact absurd same (unsigned rest)
  · dsimp only
    rw [nonempty, digits, Nat.ofDigitChars_ten_toDigits]
    exact if_pos small

theorem toString_offset_ne_empty (offset : Nat) : (toString offset).isEmpty = false := by
  rw [Nat.toString_eq_repr, Nat.repr, String.isEmpty_eq_false_iff]
  intro vacant
  have symbols := congrArg String.toList vacant
  rw [String.toList_ofList] at symbols
  exact Nat.toDigits_ne_nil symbols

end ImmutableLedger
