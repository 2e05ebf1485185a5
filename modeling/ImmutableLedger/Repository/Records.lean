import ImmutableLedger.Crypto.Envelope

/-! What the repositories store and exchange. -/

set_option autoImplicit false

namespace ImmutableLedger

structure LedgerEntryRecord where
  entryId : Uuid
  entryType : String
  agentId : String
  content : Bytes
  contentType : String
  sourceId : String
  correlationId : Option String
  idempotencyKey : Option String
  inputHash : Option String
  writerSignature : Option Bytes
  signerKeyReference : Option String
  attestationReport : Option Bytes
  hashVersion : String
  entryHash : String
  previousHash : String
  chainPosition : Int64
  writtenTs : DateTime
  deriving DecidableEq

/-- The envelope a reader of a stored entry recomputes. -/
def LedgerEntryRecord.canonicalInput (entry : LedgerEntryRecord) : CanonicalEntryHashInput where
  entryId := entry.entryId
  entryType := entry.entryType
  agentId := entry.agentId
  content := entry.content
  contentType := entry.contentType
  sourceId := entry.sourceId
  correlationId := entry.correlationId
  idempotencyKey := entry.idempotencyKey
  inputHash := entry.inputHash
  writerSignature := entry.writerSignature
  signerKeyReference := entry.signerKeyReference
  attestationReport := entry.attestationReport
  chainPosition := entry.chainPosition
  writtenTsMs := entry.writtenTs.timestampMillis
  previousHash := entry.previousHash

def LedgerEntryRecord.recomputed [Sha256] (entry : LedgerEntryRecord) : Option String :=
  canonicalEntryHashForVersion entry.hashVersion entry.canonicalInput

def LedgerEntryRecord.HashValid [Sha256] (entry : LedgerEntryRecord) : Prop :=
  entry.recomputed = some entry.entryHash

instance [Sha256] (entry : LedgerEntryRecord) : Decidable entry.HashValid :=
  inferInstanceAs (Decidable (_ = _))

/-- An entry as its TIMESTAMPTZ column gives it back. -/
def LedgerEntryRecord.stored (entry : LedgerEntryRecord) : LedgerEntryRecord :=
  { entry with writtenTs := entry.writtenTs.truncateMicros }

@[simp] theorem LedgerEntryRecord.canonicalInput_stored (entry : LedgerEntryRecord) :
    entry.stored.canonicalInput = entry.canonicalInput := by
  simp [canonicalInput, stored]

@[simp] theorem LedgerEntryRecord.hashValid_stored [Sha256] (entry : LedgerEntryRecord) :
    entry.stored.HashValid ↔ entry.HashValid := by
  simp only [HashValid, recomputed, canonicalInput_stored]
  rfl

inductive OutboxStatus where
  | pending
  | delivered
  | failed
  deriving DecidableEq

inductive JsonScalar where
  | null
  | text (value : String)
  | number (value : Int64)
  deriving DecidableEq

/-- A JSON object of scalars. The repositories pass payloads on as JSON text. -/
abbrev Payload := List (String × JsonScalar)

structure OutboxRecord where
  outboxId : Uuid
  entryId : Uuid
  entryType : String
  payload : Payload
  status : OutboxStatus
  attemptCount : Int32
  deriving DecidableEq

/-- Two versions of one announcement: status and attempts may differ. -/
structure OutboxRecord.SameEvent (record row : OutboxRecord) : Prop where
  outboxId : record.outboxId = row.outboxId
  entryId : record.entryId = row.entryId
  entryType : record.entryType = row.entryType
  payload : record.payload = row.payload

namespace OutboxRecord.SameEvent

variable {first second third : OutboxRecord}

theorem refl (record : OutboxRecord) : record.SameEvent record := ⟨rfl, rfl, rfl, rfl⟩

theorem symm (same : first.SameEvent second) : second.SameEvent first :=
  ⟨same.outboxId.symm, same.entryId.symm, same.entryType.symm, same.payload.symm⟩

theorem trans (same : first.SameEvent second) (next : second.SameEvent third) :
    first.SameEvent third :=
  ⟨same.outboxId.trans next.outboxId, same.entryId.trans next.entryId,
    same.entryType.trans next.entryType, same.payload.trans next.payload⟩

end OutboxRecord.SameEvent

structure ChainTip where
  entryId : Uuid
  hash : String
  hashVersion : String
  position : Int64
  writtenTs : DateTime
  deriving DecidableEq

def LedgerEntryRecord.tip (entry : LedgerEntryRecord) : ChainTip where
  entryId := entry.entryId
  hash := entry.entryHash
  hashVersion := entry.hashVersion
  position := entry.chainPosition
  writtenTs := entry.writtenTs

inductive RepositoryError where
  | notFound
  | unavailable
  | chainIntegrityViolation
  | idempotencyConflict
  deriving DecidableEq

structure WriteResult where
  entry : LedgerEntryRecord
  outbox : Option OutboxRecord
  deriving DecidableEq

structure EntryWriteInput where
  entryType : String
  agentId : String
  content : Bytes
  contentType : String
  sourceId : String
  correlationId : Option String
  idempotencyKey : Option String
  inputHash : Option String
  writerSignature : Option Bytes
  signerKeyReference : Option String
  attestationReport : Option Bytes
  previousHash : String
  writtenTs : DateTime
  createOutbox : Bool
  deriving DecidableEq

/-- The identifiers drawn by one `write_entry_with_outbox`. -/
structure FreshIds where
  entryId : Uuid
  outboxId : Uuid
  eventId : Uuid

structure LedgerWrittenPayloadInput where
  entryId : Uuid
  entryType : String
  agentId : String
  sourceId : String
  entryHash : String
  hashVersion : String
  correlationId : Option String
  writtenTsMs : Int64

def ledgerWrittenPayload (eventId : Uuid) (input : LedgerWrittenPayloadInput) : Payload :=
  [("event_id", .text eventId.toText),
   ("event_type", .text "LEDGER_ENTRY_WRITTEN"),
   ("entry_id", .text input.entryId.toText),
   ("entry_type", .text input.entryType),
   ("agent_id", .text input.agentId),
   ("source_id", .text input.sourceId),
   ("entry_hash", .text input.entryHash),
   ("hash_version", .text input.hashVersion),
   ("correlation_id", input.correlationId.elim .null .text),
   ("written_ts", .number input.writtenTsMs),
   ("schema_version", .text "1.0.0")]

/-- The announcement of a stored entry. -/
def LedgerEntryRecord.payload (entry : LedgerEntryRecord) (eventId : Uuid) : Payload :=
  ledgerWrittenPayload eventId
    { entryId := entry.entryId
      entryType := entry.entryType
      agentId := entry.agentId
      sourceId := entry.sourceId
      entryHash := entry.entryHash
      hashVersion := entry.hashVersion
      correlationId := entry.correlationId
      writtenTsMs := entry.writtenTs.timestampMillis }

@[simp] theorem LedgerEntryRecord.payload_stored (entry : LedgerEntryRecord) (eventId : Uuid) :
    entry.stored.payload eventId = entry.payload eventId := by
  simp [payload, stored]

namespace EntryWriteInput

variable (input : EntryWriteInput) (ids : FreshIds) (nextPosition : Int64)

def canonicalInput : CanonicalEntryHashInput where
  entryId := ids.entryId
  entryType := input.entryType
  agentId := input.agentId
  content := input.content
  contentType := input.contentType
  sourceId := input.sourceId
  correlationId := input.correlationId
  idempotencyKey := input.idempotencyKey
  inputHash := input.inputHash
  writerSignature := input.writerSignature
  signerKeyReference := input.signerKeyReference
  attestationReport := input.attestationReport
  chainPosition := nextPosition
  writtenTsMs := input.writtenTs.timestampMillis
  previousHash := input.previousHash

def entry [Sha256] : LedgerEntryRecord where
  entryId := ids.entryId
  entryType := input.entryType
  agentId := input.agentId
  content := input.content
  contentType := input.contentType
  sourceId := input.sourceId
  correlationId := input.correlationId
  idempotencyKey := input.idempotencyKey
  inputHash := input.inputHash
  writerSignature := input.writerSignature
  signerKeyReference := input.signerKeyReference
  attestationReport := input.attestationReport
  hashVersion := entryHashVersion
  entryHash := canonicalEntryHash (input.canonicalInput ids nextPosition)
  previousHash := input.previousHash
  chainPosition := nextPosition
  writtenTs := input.writtenTs

def outbox [Sha256] : OutboxRecord where
  outboxId := ids.outboxId
  entryId := ids.entryId
  entryType := input.entryType
  payload := (input.entry ids nextPosition).payload ids.eventId
  status := .pending
  attemptCount := 0

theorem entry_hashValid [Sha256] : (input.entry ids nextPosition).HashValid :=
  canonicalEntryHash_eq _

end EntryWriteInput

end ImmutableLedger
