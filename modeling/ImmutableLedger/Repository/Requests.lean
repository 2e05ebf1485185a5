import ImmutableLedger.Concurrency.Program
import ImmutableLedger.Repository.Records

/-! The operations of a `LedgerRepository`, as requests. -/

set_option autoImplicit false

namespace ImmutableLedger

open Concurrency

inductive ReadRequest where
  | getEntry (entryId : Uuid)
  | getChainTip (entryType : String)
  | getEntriesByTypePaged (entryType : String) (afterPosition limit : Int64)
  | findIdempotent (entryType idempotencyKey : String)
  | getEntryByHash (entryType entryHash : String)
  | pendingOutbox
  | getDistinctEntryTypes
  deriving DecidableEq

def ReadRequest.Value : ReadRequest → Type
  | .getEntry _ => LedgerEntryRecord
  | .getChainTip _ => ChainTip
  | .getEntriesByTypePaged _ _ _ => List LedgerEntryRecord
  | .findIdempotent _ _ => Option LedgerEntryRecord
  | .getEntryByHash _ _ => LedgerEntryRecord
  | .pendingOutbox => List OutboxRecord
  | .getDistinctEntryTypes => List String

abbrev ReadRequest.Reply (request : ReadRequest) : Type := Except RepositoryError request.Value

inductive RepositoryRequest where
  | read (request : ReadRequest)
  | writeEntryWithOutbox (input : EntryWriteInput)
  | markOutboxDelivered (outboxId : Uuid)
  | incrementOutboxAttempt (outboxId : Uuid)
  | markOutboxFailed (outboxId : Uuid)
  deriving DecidableEq

def RepositoryRequest.Value : RepositoryRequest → Type
  | .read request => request.Value
  | .writeEntryWithOutbox _ => WriteResult
  | .markOutboxDelivered _ => Unit
  | .incrementOutboxAttempt _ => Unit
  | .markOutboxFailed _ => Unit

abbrev RepositoryRequest.Reply (request : RepositoryRequest) : Type :=
  Except RepositoryError request.Value

/-- The vocabulary of code that only reads. -/
abbrev reads : Interface := ⟨ReadRequest, ReadRequest.Reply⟩

end ImmutableLedger
