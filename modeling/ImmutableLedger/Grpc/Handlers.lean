import ImmutableLedger.Grpc.Messages
import ImmutableLedger.Service.World

/-! The handlers of the gRPC interface. -/

set_option autoImplicit false

namespace ImmutableLedger.Grpc

open Concurrency

/-- `Uuid::from_str`, which reads what identifiers are written as, among other spellings. -/
structure UuidParser where
  fromStr : String → Option Uuid
  fromStr_toText : ∀ id : Uuid, fromStr id.toText = some id

def UuidParser.parseUuid (parser : UuidParser) (raw : String) : Except Status Uuid :=
  match parser.fromStr raw with
  | some id => .ok id
  | none => .error ⟨.invalidArgument, "must be valid UUID"⟩

@[simp] theorem UuidParser.parseUuid_toText (parser : UuidParser) (id : Uuid) :
    parser.parseUuid id.toText = .ok id := by
  rw [parseUuid, parser.fromStr_toText]

/-- A call into the service, with its error as a status. -/
def answer {I : Interface} {α : Type} (call : ExceptT ServiceError (Program I) α) :
    ExceptT Status (Program I) α :=
  ExceptT.mk do return (← call.run).mapError mapErr

section

variable [Sha256]

def writeEntry (service : Instance) (request : WriteEntryRequest) :
    ExceptT Status (Program services) WriteEntryResponse := do
  let output ← answer (ImmutableLedger.writeEntry service (writeEntryInput request))
  return writeEntryResponse output

def issueReceipt (service : Instance) (request : WriteEntryRequest) :
    ExceptT Status (Program services) ProofReceipt := do
  let receipt ← answer (ImmutableLedger.issueReceipt service (issueReceiptInput request))
  return proofReceipt receipt

/-- A read of the repository on behalf of a handler. -/
abbrev Lookup := ExceptT Status (Program reads)

omit [Sha256] in
def getEntry (parser : UuidParser) (request : GetEntryRequest) : Lookup GetEntryResponse := do
  let entryId ← ExceptT.mk (.done (parser.parseUuid request.entryId))
  let entry ← answer (ImmutableLedger.getEntry entryId)
  return ⟨some (ledgerEntry entry)⟩

omit [Sha256] in
def getEntryByHash (request : GetEntryByHashRequest) : Lookup GetEntryResponse := do
  if request.entryHash.isEmpty || request.entryType.isEmpty then
    throw ⟨.invalidArgument, "entry_hash and entry_type are required"⟩
  let entry ← answer (ImmutableLedger.getEntryByHash request.entryType request.entryHash)
  return ⟨some (ledgerEntry entry)⟩

def verifyEntry (config : AppConfig) (parser : UuidParser) (request : VerifyEntryRequest) :
    Lookup VerifyEntryResponse := do
  let entryId ← ExceptT.mk (.done (parser.parseUuid request.entryId))
  let output ← answer (ImmutableLedger.verifyEntry config entryId)
  return verifyEntryResponse output

def verifyProof (request : VerifyProofRequest) : Lookup VerifyProofResponse := do
  if request.entryHash.isEmpty || request.entryType.isEmpty then
    throw ⟨.invalidArgument, "entry_hash and entry_type are required"⟩
  let output ← answer (ImmutableLedger.verifyProof request.entryType request.entryHash)
  return verifyProofResponse output

end

/-! What the lookups answer with an entry that was found. -/

section

variable {answers : (message : ReadRequest) → message.Reply} {row : LedgerEntryRecord}
  {entryType entryHash : String}

theorem getEntry_answered (parser : UuidParser) {entryId : Uuid}
    (found : answers (.getEntry entryId) = .ok row) :
    (getEntry parser ⟨entryId.toText⟩).run.evaluate answers = some (.ok ⟨some (ledgerEntry row)⟩) := by
  rw [getEntry, parser.parseUuid_toText]
  change Program.evaluate _ (Program.call _ _) = _
  rw [Program.evaluate_call, found]
  rfl

theorem getEntryByHash_answered (typed : entryType ≠ "") (hashed : entryHash ≠ "")
    (found : answers (.getEntryByHash entryType entryHash) = .ok row) :
    (getEntryByHash ⟨entryHash, entryType⟩).run.evaluate answers =
      some (.ok ⟨some (ledgerEntry row)⟩) := by
  rw [getEntryByHash, if_neg (by simp [typed, hashed])]
  change Program.evaluate _ (Program.call _ _) = _
  rw [Program.evaluate_call, found]
  rfl

theorem verifyProof_answered [Sha256] (typed : entryType ≠ "") (hashed : entryHash ≠ "")
    (found : answers (.getEntryByHash entryType entryHash) = .ok row) :
    (verifyProof ⟨entryHash, entryType⟩).run.evaluate answers =
      some (.ok (verifyProofResponse row.proofOutput)) := by
  rw [verifyProof, if_neg (by simp [typed, hashed])]
  change Program.evaluate _ (Program.call _ _) = _
  rw [Program.evaluate_call, found]
  rfl

/-- A response about an entry is the output of the service. -/
theorem verifyEntry_answered [Sha256] {config : AppConfig} (parser : UuidParser) {entryId : Uuid}
    {response : VerifyEntryResponse}
    (returned : (verifyEntry config parser ⟨entryId.toText⟩).run.evaluate answers =
      some (.ok response)) :
    ∃ output, (ImmutableLedger.verifyEntry config entryId).run.evaluate answers =
      some (.ok output) ∧ response = verifyEntryResponse output := by
  rw [verifyEntry, parser.parseUuid_toText] at returned
  change Program.evaluate (I := reads) answers (ExceptT.run (answer _ >>= _)) = _ at returned
  rw [Program.evaluate_exceptBind, answer, ExceptT.run_mk, Program.evaluate_bind] at returned
  cases outcome : (ImmutableLedger.verifyEntry config entryId).run.evaluate answers with
  | none =>
    rw [outcome] at returned
    cases returned
  | some result =>
    rw [outcome] at returned
    cases result with
    | error err => cases returned
    | ok output =>
      cases returned
      exact ⟨output, rfl, rfl⟩

end

end ImmutableLedger.Grpc
