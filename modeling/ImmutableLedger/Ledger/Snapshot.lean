import ImmutableLedger.Ledger.Paging
import ImmutableLedger.Query.Ties

/-! Reading all pages of a query while nothing is appended.

Each page is cut from an arrangement of its own. As long as no page ends between rows that the
order leaves tied, the arrangements have the same rows on it.
-/

set_option autoImplicit false

namespace ImmutableLedger

open Concurrency Query Grpc

section

variable (toTimestamp : Int64 → Int) (table : LedgerEntries) (query : EntryQuery)

end

variable {toTimestamp : Int64 → Int} {table : LedgerEntries} {query : EntryQuery}

section

variable {request : QueryEntriesRequest} {offset : Nat}

end

/-! The client. -/

section

variable {request next : QueryEntriesRequest} {offset bound : Nat} {entries : List LedgerEntry}
  {rows : List LedgerEntryRecord}

end

namespace Sample

variable [Sha256]

end Sample

end ImmutableLedger
