import ImmutableLedger.Service.Proofs

/-! The messages of the gRPC interface and how they stand for those of the service. -/

set_option autoImplicit false

namespace ImmutableLedger.Grpc

inductive Code where
  | notFound
  | invalidArgument
  | alreadyExists
  | unavailable
  | internal
  deriving DecidableEq

structure Status where
  code : Code
  message : String
  deriving DecidableEq

def mapErr : ServiceError → Status
  | .notFound => ⟨.notFound, "not found"⟩
  | .invalidArgument message => ⟨.invalidArgument, message⟩
  | .alreadyExists message => ⟨.alreadyExists, message⟩
  | .unavailable => ⟨.unavailable, "unavailable"⟩
  | .internal message => ⟨.internal, message⟩

structure WriteEntryRequest where
  entryType : String
  agentId : String
  content : Bytes
  contentType : String
  sourceId : String
  correlationId : String
  idempotencyKey : String
  inputHash : String
  writerSignature : Bytes
  signerKeyReference : String
  attestationReport : Bytes
  deriving DecidableEq

structure WriteEntryResponse where
  entryId : String
  entryHash : String
  chainPosition : String
  writtenTs : Int64
  hashVersion : String
  deriving DecidableEq

structure ProofReceipt where
  entryHash : String
  entryType : String
  chainPosition : Int64
  writtenTs : Int64
  entryId : String
  inputHash : String
  writerSignature : Bytes
  signerKeyReference : String
  attestationReport : Bytes
  hashVersion : String
  deriving DecidableEq

structure GetEntryRequest where
  entryId : String

structure LedgerEntry where
  entryId : String
  entryType : String
  agentId : String
  content : Bytes
  contentType : String
  sourceId : String
  correlationId : String
  entryHash : String
  previousHash : String
  chainPosition : Int64
  writtenTs : Int64
  idempotencyKey : String
  inputHash : String
  writerSignature : Bytes
  signerKeyReference : String
  attestationReport : Bytes
  hashVersion : String
  deriving DecidableEq

structure GetEntryResponse where
  entry : Option LedgerEntry
  deriving DecidableEq

structure GetEntryByHashRequest where
  entryHash : String
  entryType : String

structure VerifyEntryRequest where
  entryId : String

structure VerifyEntryResponse where
  entryId : String
  hashValid : Bool
  chainLinkValid : Bool
  failureReason : String
  deriving DecidableEq

structure VerifyProofRequest where
  entryHash : String
  entryType : String

structure VerifyProofResponse where
  valid : Bool
  entryType : String
  agentId : String
  writtenTs : Int64
  chainPosition : Int64
  failureReason : String
  sourceId : String
  correlationId : String
  contentType : String
  inputHash : String
  writerSignature : Bytes
  signerKeyReference : String
  attestationReport : Bytes
  hashVersion : String
  deriving DecidableEq

/-! Absent and empty values: a message has no way to tell them apart. -/

def emptyToNone (value : String) : Option String :=
  if value.isEmpty then none else some value

@[simp] theorem getD_emptyToNone (value : String) : (emptyToNone value).getD "" = value := by
  unfold emptyToNone
  split
  · next vacant => exact (String.isEmpty_iff.mp vacant).symm
  · rfl

/-- What `write_entry` hands to the service. -/
def writeEntryInput (input : WriteEntryRequest) : WriteEntryInput where
  entryType := input.entryType
  agentId := input.agentId
  content := input.content
  contentType := input.contentType
  sourceId := input.sourceId
  correlationId := emptyToNone input.correlationId
  idempotencyKey := emptyToNone input.idempotencyKey
  inputHash := emptyToNone input.inputHash
  writerSignature := if input.writerSignature.isEmpty then none else some input.writerSignature
  signerKeyReference := emptyToNone input.signerKeyReference
  attestationReport :=
    if input.attestationReport.isEmpty then none else some input.attestationReport

/-- What `issue_receipt` hands to the service. -/
def issueReceiptInput (input : WriteEntryRequest) : WriteEntryInput where
  entryType := input.entryType
  agentId := input.agentId
  content := input.content
  contentType := input.contentType
  sourceId := input.sourceId
  correlationId := if input.correlationId.isEmpty then none else some input.correlationId
  idempotencyKey := if input.idempotencyKey.isEmpty then none else some input.idempotencyKey
  inputHash := if input.inputHash.isEmpty then none else some input.inputHash
  writerSignature := if input.writerSignature.isEmpty then none else some input.writerSignature
  signerKeyReference :=
    if input.signerKeyReference.isEmpty then none else some input.signerKeyReference
  attestationReport :=
    if input.attestationReport.isEmpty then none else some input.attestationReport

def writeEntryResponse (output : WriteEntryOutput) : WriteEntryResponse where
  entryId := output.entryId.toText
  entryHash := output.entryHash
  chainPosition := toString output.chainPosition
  writtenTs := output.writtenTsMs
  hashVersion := output.hashVersion

def proofReceipt (receipt : ProofReceiptOutput) : ProofReceipt where
  entryHash := receipt.entryHash
  entryType := receipt.entryType
  chainPosition := receipt.chainPosition
  writtenTs := receipt.writtenTsMs
  entryId := receipt.entryId.toText
  inputHash := receipt.inputHash
  writerSignature := receipt.writerSignature
  signerKeyReference := receipt.signerKeyReference
  attestationReport := receipt.attestationReport
  hashVersion := receipt.hashVersion

/-- The copy of an entry that every lookup sends. -/
def ledgerEntry (entry : LedgerEntryRecord) : LedgerEntry where
  entryId := entry.entryId.toText
  entryType := entry.entryType
  agentId := entry.agentId
  content := entry.content
  contentType := entry.contentType
  sourceId := entry.sourceId
  correlationId := entry.correlationId.getD ""
  entryHash := entry.entryHash
  previousHash := entry.previousHash
  chainPosition := entry.chainPosition
  writtenTs := entry.writtenTs.timestampMillis
  idempotencyKey := entry.idempotencyKey.getD ""
  inputHash := entry.inputHash.getD ""
  writerSignature := entry.writerSignature.getD []
  signerKeyReference := entry.signerKeyReference.getD ""
  attestationReport := entry.attestationReport.getD []
  hashVersion := entry.hashVersion

def verifyEntryResponse (output : VerifyEntryOutput) : VerifyEntryResponse where
  entryId := output.entryId.toText
  hashValid := output.hashValid
  chainLinkValid := output.chainLinkValid
  failureReason := output.failureReason

def verifyProofResponse (output : VerifyProofOutput) : VerifyProofResponse where
  valid := output.valid
  entryType := output.entryType
  agentId := output.agentId
  writtenTs := output.writtenTsMs
  chainPosition := output.chainPosition
  failureReason := output.failureReason
  sourceId := output.sourceId
  correlationId := output.correlationId
  contentType := output.contentType
  inputHash := output.inputHash
  writerSignature := output.writerSignature
  signerKeyReference := output.signerKeyReference
  attestationReport := output.attestationReport
  hashVersion := output.hashVersion

end ImmutableLedger.Grpc
