import ImmutableLedger.Grpc.Handlers
import ImmutableLedger.Service.Queries

/-! `QueryEntries` and the client that reads all of its pages. -/

set_option autoImplicit false

namespace ImmutableLedger.Grpc

open Concurrency

structure QueryEntriesRequest where
  entryType : String
  agentId : String
  sourceId : String
  correlationId : String
  fromTs : Int64
  toTs : Int64
  pageSize : Int32
  pageToken : String

structure QueryEntriesResponse where
  entries : List LedgerEntry
  nextPageToken : String
  totalCount : Int64

def queryEntriesInput (input : QueryEntriesRequest) : QueryEntriesInput where
  entryType := emptyToNone input.entryType
  agentId := emptyToNone input.agentId
  sourceId := emptyToNone input.sourceId
  correlationId := emptyToNone input.correlationId
  fromTs := if input.fromTs = 0 then none else some input.fromTs
  toTs := if input.toTs = 0 then none else some input.toTs
  pageSize := input.pageSize
  pageToken := emptyToNone input.pageToken

def queryEntries (request : QueryEntriesRequest) :
    ExceptT Status (Program statements) QueryEntriesResponse := do
  let (entries, nextToken, totalCount) ←
    answer (ImmutableLedger.queryEntries (queryEntriesInput request))
  return {
    entries := entries.map ledgerEntry
    nextPageToken := nextToken.getD ""
    totalCount := totalCount }

/-- What is answered with a page, when `total` rows were counted before. -/
def queryEntriesResponse (offset : Nat) (total : Int64) (page : List LedgerEntryRecord) :
    QueryEntriesResponse where
  entries := page.map ledgerEntry
  nextPageToken :=
    (if offset + page.length < total.toUInt64.toNat then some (toString (offset + page.length))
      else none).getD ""
  totalCount := total

/-- A request is a count and, unless that fails, a page. -/
theorem run_queryEntries (request : QueryEntriesRequest) :
    let input := queryEntriesInput request
    (queryEntries request).run = Program.call (I := statements) (.count input.entryQuery)
      fun (counted : QueryStatement.Reply (.count input.entryQuery)) =>
        match counted with
        | .error err => .done (.error (mapErr (mapRepo err)))
        | .ok total => Program.call (I := statements) (.page input.entryQuery)
            fun (listed : QueryStatement.Reply (.page input.entryQuery)) =>
              match listed with
              | .error err => .done (.error (mapErr (mapRepo err)))
              | .ok page => .done (.ok (queryEntriesResponse input.offset total page)) := by
  change Program.call (I := statements) _ _ = _
  congr 1
  funext counted
  cases counted with
  | error err => rfl
  | ok total =>
    change Program.call (I := statements) _ _ = _
    congr 1
    funext listed
    cases listed <;> rfl

namespace LedgerClient

/-- The loop of `query`, cut off after `bound` further pages. -/
def follow (request : QueryEntriesRequest) :
    Nat → List LedgerEntry → QueryEntriesResponse → ExceptT Status (Program statements) (List LedgerEntry)
  | bound, entries, response =>
    if response.nextPageToken.isEmpty then return entries
    else match bound with
      | 0 => ExceptT.mk .unfinished
      | bound + 1 => do
        let next ← queryEntries { request with pageToken := response.nextPageToken }
        follow request bound (entries ++ next.entries) next

def request (agentId entryType sourceId correlationId : String) (fromTs toTs : Int64)
    (pageSize : Int32) : QueryEntriesRequest where
  entryType := entryType
  agentId := agentId
  sourceId := sourceId
  correlationId := correlationId
  fromTs := fromTs
  toTs := toTs
  pageSize := pageSize
  pageToken := ""

/-- `query`, which starts without a token. -/
def query (bound : Nat) (agentId entryType sourceId correlationId : String) (fromTs toTs : Int64)
    (pageSize : Int32) : ExceptT Status (Program statements) (List LedgerEntry) := do
  let req := request agentId entryType sourceId correlationId fromTs toTs pageSize
  let response ← queryEntries req
  follow req bound response.entries response

end LedgerClient

end ImmutableLedger.Grpc
