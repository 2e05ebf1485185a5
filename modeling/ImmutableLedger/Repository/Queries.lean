import Mathlib.Data.Prod.Lex
import ImmutableLedger.Concurrency.Program
import ImmutableLedger.Query.Like
import ImmutableLedger.Repository.Tables

/-! The two statements of `query_entries`.

A filter is a count and, after it, a page of the same selection. The order of a page is by time
and position, which does not decide about rows of different chains that share both.
-/

set_option autoImplicit false

namespace ImmutableLedger

open Concurrency

structure EntryQuery where
  entryTypePrefix : Option String
  agentId : Option String
  sourceId : Option String
  correlationId : Option String
  fromTsMs : Option Int64
  toTsMs : Option Int64
  limit : Nat
  offset : Nat
  deriving DecidableEq

section

variable (toTimestamp : Int64 → Int)

/-- The WHERE clause. `toTimestamp` is `to_timestamp` of a number of milliseconds that was divided
by 1000 as a floating-point number, in nanoseconds. -/
def EntryQuery.selects (query : EntryQuery) (row : LedgerEntryRecord) : Bool :=
  query.entryTypePrefix.all (fun text => like (text.toList ++ ['%']) row.entryType.toList) &&
    query.agentId.all (fun id => decide (row.agentId = id)) &&
    query.sourceId.all (fun id => decide (row.sourceId = id)) &&
    query.correlationId.all (fun id => decide (row.correlationId = some id)) &&
    query.fromTsMs.all (fun millis => decide (toTimestamp millis ≤ row.writtenTs.nanos)) &&
    query.toTsMs.all (fun millis => decide (row.writtenTs.nanos ≤ toTimestamp millis))

/-- The sort key of a page. -/
def LedgerEntryRecord.timePosition (row : LedgerEntryRecord) : Int ×ₗ Int :=
  toLex (row.writtenTs.nanos, row.chainPosition.toInt)

namespace LedgerEntries

variable (table : LedgerEntries) (query : EntryQuery)

def selected : List LedgerEntryRecord := table.rows.filter (query.selects toTimestamp)

/-- An arrangement that ORDER BY written_ts, chain_position allows. -/
structure Listing (rows : List LedgerEntryRecord) : Prop where
  perm : rows.Perm (table.selected toTimestamp query)
  sorted : rows.Pairwise fun first second => first.timePosition ≤ second.timePosition

/-- LIMIT $7 OFFSET $8 -/
def pageOf (rows : List LedgerEntryRecord) : List LedgerEntryRecord :=
  (rows.drop query.offset).take query.limit

end LedgerEntries

end

/-! The statements, as requests. -/

inductive QueryStatement where
  | count (query : EntryQuery)
  | page (query : EntryQuery)

def QueryStatement.Value : QueryStatement → Type
  | .count _ => Int64
  | .page _ => List LedgerEntryRecord

abbrev QueryStatement.Reply (statement : QueryStatement) : Type :=
  Except RepositoryError statement.Value

/-- The vocabulary of `query_entries`. -/
abbrev statements : Interface := ⟨QueryStatement, QueryStatement.Reply⟩

/-- Whether Postgres takes the texts of a filter as parameters: a text value holds no NUL. -/
def EntryQuery.sendable (query : EntryQuery) : Bool :=
  [query.entryTypePrefix, query.agentId, query.sourceId, query.correlationId].all fun parameter =>
    parameter.all fun text => !text.toList.contains (Char.ofNat 0)

/-- What Postgres may answer. It rejects an offset that is negative as an `i64`. -/
def LedgerEntries.Answers (toTimestamp : Int64 → Int) (table : LedgerEntries) :
    (statement : QueryStatement) → statement.Reply → Prop
  | .count query, reply =>
      reply = if query.sendable then .ok (Int64.ofNat (table.selected toTimestamp query).length)
        else .error .unavailable
  | .page query, reply =>
      if query.sendable ∧ query.offset < 2 ^ 63 then
        ∃ rows, table.Listing toTimestamp query rows ∧ reply = .ok (LedgerEntries.pageOf query rows)
      else reply = .error .unavailable

end ImmutableLedger
