import ImmutableLedger.Repository.Requests

/-! Requests, answers and errors of the service. -/

set_option autoImplicit false

namespace ImmutableLedger

structure AppConfig where
  maxContentSizeBytes : Nat
  genesisHashInput : String
  chainMaxRetries : UInt32
  chainHaltRecoverySeconds : UInt64
  outboxMaxRetries : UInt32
  verifyMaxEntriesPerChain : Int64

def AppConfig.genesisHash [Sha256] (config : AppConfig) : String :=
  sha256Hex (asBytes config.genesisHashInput)

inductive ServiceError where
  | notFound
  | invalidArgument (message : String)
  | alreadyExists (message : String)
  | unavailable
  | internal (message : String)
  deriving DecidableEq

def ServiceError.display : ServiceError → String
  | .notFound => "not found"
  | .invalidArgument message => "invalid argument: " ++ message
  | .alreadyExists message => "already exists: " ++ message
  | .unavailable => "unavailable"
  | .internal message => "internal: " ++ message

/-- The one text for a key that is taken by another request. -/
def idempotencyKeyReused : String :=
  "idempotency_key already used with different entry content or metadata"

def mapRepo : RepositoryError → ServiceError
  | .notFound => .notFound
  | .unavailable => .unavailable
  | .idempotencyConflict => .alreadyExists idempotencyKeyReused
  | .chainIntegrityViolation => .internal "chain integrity violation"

structure WriteEntryInput where
  entryType : String
  agentId : String
  content : Bytes
  contentType : String
  sourceId : String
  correlationId : Option String
  idempotencyKey : Option String
  inputHash : Option String
  writerSignature : Option Bytes
  signerKeyReference : Option String
  attestationReport : Option Bytes
  deriving DecidableEq

structure WriteEntryOutput where
  entryId : Uuid
  entryHash : String
  chainPosition : Int64
  writtenTsMs : Int64
  hashVersion : String
  deriving DecidableEq

structure VerifyEntryOutput where
  entryId : Uuid
  hashValid : Bool
  chainLinkValid : Bool
  failureReason : String
  deriving DecidableEq

structure VerifyChainOutput where
  chainValid : Bool
  entriesChecked : Nat
  firstInvalidEntryId : Option Uuid
  failureReason : String
  deriving DecidableEq

structure ProofReceiptOutput where
  entryHash : String
  entryType : String
  chainPosition : Int64
  writtenTsMs : Int64
  entryId : Uuid
  inputHash : String
  writerSignature : Bytes
  signerKeyReference : String
  attestationReport : Bytes
  hashVersion : String
  deriving DecidableEq

/-- The answer about a stored entry, whether it was just written or replayed. -/
def LedgerEntryRecord.writeOutput (entry : LedgerEntryRecord) : WriteEntryOutput where
  entryId := entry.entryId
  entryHash := entry.entryHash
  chainPosition := entry.chainPosition
  writtenTsMs := entry.writtenTs.timestampMillis
  hashVersion := entry.hashVersion

@[simp] theorem LedgerEntryRecord.writeOutput_stored (entry : LedgerEntryRecord) :
    entry.stored.writeOutput = entry.writeOutput := by
  simp [writeOutput, stored]

end ImmutableLedger
