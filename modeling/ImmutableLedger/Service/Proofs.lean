import ImmutableLedger.Service.Verify

/-! `get_entry`, `get_entry_by_hash` and `verify_proof`. -/

set_option autoImplicit false

namespace ImmutableLedger

structure VerifyProofOutput where
  valid : Bool
  entryType : String
  agentId : String
  writtenTsMs : Int64
  chainPosition : Int64
  failureReason : String
  sourceId : String
  correlationId : String
  contentType : String
  inputHash : String
  writerSignature : Bytes
  signerKeyReference : String
  attestationReport : Bytes
  hashVersion : String
  deriving DecidableEq

def getEntry (entryId : Uuid) : Verification LedgerEntryRecord :=
  ask (.getEntry entryId)

def getEntryByHash (entryType entryHash : String) : Verification LedgerEntryRecord :=
  ask (.getEntryByHash entryType entryHash)

/-- What is said about an entry once its hash was recomputed. -/
def LedgerEntryRecord.proofOutput [Sha256] (entry : LedgerEntryRecord) : VerifyProofOutput :=
  let computed := entry.recomputed
  let hashValid := decide (computed = some entry.entryHash)
  { valid := hashValid
    entryType := entry.entryType
    agentId := entry.agentId
    writtenTsMs := entry.writtenTs.timestampMillis
    chainPosition := entry.chainPosition
    failureReason :=
      if computed.isNone then "unsupported_hash_version"
      else if hashValid then ""
      else "entry_hash_mismatch"
    sourceId := entry.sourceId
    correlationId := entry.correlationId.getD ""
    contentType := entry.contentType
    inputHash := entry.inputHash.getD ""
    writerSignature := entry.writerSignature.getD []
    signerKeyReference := entry.signerKeyReference.getD ""
    attestationReport := entry.attestationReport.getD []
    hashVersion := entry.hashVersion }

def verifyProof [Sha256] (entryType entryHash : String) : Verification VerifyProofOutput := do
  let entry ← getEntryByHash entryType entryHash
  return entry.proofOutput

section

variable [Sha256] {entry : LedgerEntryRecord}

@[simp] theorem LedgerEntryRecord.valid_proofOutput :
    entry.proofOutput.valid = true ↔ entry.HashValid :=
  decide_eq_true_iff

variable {answers : (message : ReadRequest) → message.Reply} {entryType entryHash : String}
  {entryId : Uuid}

omit [Sha256] in
theorem getEntryByHash_evaluate : (getEntryByHash entryType entryHash).run.evaluate answers =
    some ((answers (.getEntryByHash entryType entryHash)).mapError mapRepo) := rfl

/-- A proof is about the entry a lookup by hash finds. -/
theorem verifyProof_evaluate_iff {output : VerifyProofOutput} :
    (verifyProof entryType entryHash).run.evaluate answers = some (.ok output) ↔
      ∃ entry : LedgerEntryRecord,
        answers (.getEntryByHash entryType entryHash) = .ok entry ∧ output = entry.proofOutput := by
  rw [verifyProof, Concurrency.Program.evaluate_exceptBind, getEntryByHash_evaluate]
  rcases answers (.getEntryByHash entryType entryHash) with err | entry
  · constructor
    · intro returned
      cases returned
    · rintro ⟨entry, found, -⟩
      cases found
  · constructor
    · intro returned
      cases returned
      exact ⟨entry, rfl, rfl⟩
    · rintro ⟨found, same, rfl⟩
      cases same
      rfl

end

end ImmutableLedger
