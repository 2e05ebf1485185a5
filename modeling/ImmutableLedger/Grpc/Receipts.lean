import ImmutableLedger.Audit.Proofs
import ImmutableLedger.Grpc.Handlers

/-! Receipts and lookups tell the story of the request. -/

set_option autoImplicit false

namespace ImmutableLedger.Grpc

open Concurrency StoreProtocol

section

variable [Sha256]

theorem issueReceipt_run (service : Instance) (request : WriteEntryRequest) :
    (issueReceipt service request).run =
      (ImmutableLedger.issueReceipt service (issueReceiptInput request)).run >>= fun result =>
        .done ((result.mapError mapErr).map proofReceipt) := by
  rw [issueReceipt, answer, ExceptT.run_bind, ExceptT.run_mk, Program.bind_assoc]
  congr 1
  funext result
  cases result <;> rfl

theorem writeEntry_run (service : Instance) (request : WriteEntryRequest) :
    (writeEntry service request).run =
      (ImmutableLedger.writeEntry service (writeEntryInput request)).run >>= fun result =>
        .done ((result.mapError mapErr).map writeEntryResponse) := by
  rw [writeEntry, answer, ExceptT.run_bind, ExceptT.run_mk, Program.bind_assoc]
  congr 1
  funext result
  cases result <;> rfl

end

section

variable {row : LedgerEntryRecord} {request : WriteEntryRequest}

variable [Sha256]

end

/-! Lookups of a stored row. -/

section

variable {row : LedgerEntryRecord} {tables : Tables}

theorem getEntryByHash_evaluate (typed : row.entryType ≠ "") (hashed : row.entryHash ≠ "")
    (found : tables.entries.getEntryByHash row.entryType row.entryHash = .ok row) :
    (getEntryByHash ⟨row.entryHash, row.entryType⟩).run.evaluate tables.query =
      some (.ok ⟨some (ledgerEntry row)⟩) :=
  getEntryByHash_answered typed hashed found

end

section

variable [Sha256]

end

/-! A receipt for a first entry. -/

namespace Sample

open ImmutableLedger.Sample

def parser : UuidParser where
  fromStr := Uuid.ofText
  fromStr_toText := Uuid.ofText_toText

def request : WriteEntryRequest where
  entryType := "audit.event"
  agentId := "agent"
  content := [123, 125]
  contentType := "application/json"
  sourceId := "source"
  correlationId := ""
  idempotencyKey := "first"
  inputHash := ""
  writerSignature := []
  signerKeyReference := ""
  attestationReport := []

variable [Sha256]

def receipt : ProofReceiptOutput := (write [123, 125]).receipt first.writeOutput

end Sample

end ImmutableLedger.Grpc
