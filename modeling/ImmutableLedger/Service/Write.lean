import ImmutableLedger.Service.Requests

/-! `write_entry` and `issue_receipt`. -/

set_option autoImplicit false

namespace ImmutableLedger

open Concurrency

def validate (config : AppConfig) (input : WriteEntryInput) : Except ServiceError Unit :=
  if input.entryType.isEmpty || input.agentId.isEmpty || input.contentType.isEmpty ||
      input.sourceId.isEmpty then
    .error (.invalidArgument "entry_type, agent_id, content_type and source_id are required")
  else if config.maxContentSizeBytes < input.content.length then
    .error (.invalidArgument
      ("content exceeds max " ++ toString config.maxContentSizeBytes ++ " bytes"))
  else .ok ()

/-- The recovery time of a halt, in nanoseconds. -/
def AppConfig.chainHaltRecovery (config : AppConfig) : Nat :=
  config.chainHaltRecoverySeconds.toNat * 10 ^ 9

def checkHalt (config : AppConfig) (entryType : String) : Call Unit := do
  match ← request (.chainHaltedElapsed entryType) with
  | none => return ()
  | some (elapsed : Nat) =>
    if elapsed < config.chainHaltRecovery then throw .unavailable
    else request (.chainHaltedRemove entryType)

def idempotentRequestMatches (existing : LedgerEntryRecord) (input : WriteEntryInput) : Bool :=
  existing.agentId == input.agentId &&
    existing.content == input.content &&
    existing.contentType == input.contentType &&
    existing.sourceId == input.sourceId &&
    existing.correlationId == input.correlationId &&
    existing.inputHash == input.inputHash &&
    existing.writerSignature == input.writerSignature &&
    existing.signerKeyReference == input.signerKeyReference &&
    existing.attestationReport == input.attestationReport

/-- The answer to a request whose key is already stored. -/
def replay (existing : LedgerEntryRecord) (input : WriteEntryInput) :
    Except ServiceError WriteEntryOutput :=
  if idempotentRequestMatches existing input then .ok existing.writeOutput
  else .error (.alreadyExists idempotencyKeyReused)

/-- The lookup before the chain lock. -/
def findReplay (input : WriteEntryInput) : Call (Option WriteEntryOutput) :=
  match input.idempotencyKey with
  | none => return none
  | some key => do
    match ← askRepository (.read (.findIdempotent input.entryType key)) with
    | none => return none
    | some (existing : LedgerEntryRecord) => return some (← ExceptT.mk (.done (replay existing input)))

/-- The lookup after the repository has reported a conflict. -/
def replayConflict (input : WriteEntryInput) : Call WriteEntryOutput :=
  match input.idempotencyKey with
  | none => throw (.alreadyExists idempotencyKeyReused)
  | some key => do
    match ← askRepository (.read (.findIdempotent input.entryType key)) with
    | none => throw .unavailable
    | some (existing : LedgerEntryRecord) => ExceptT.mk (.done (replay existing input))

def WriteEntryInput.entryWriteInput (input : WriteEntryInput) (previousHash : String)
    (writtenTs : DateTime) (createOutbox : Bool) : EntryWriteInput where
  entryType := input.entryType
  agentId := input.agentId
  content := input.content
  contentType := input.contentType
  sourceId := input.sourceId
  correlationId := input.correlationId
  idempotencyKey := input.idempotencyKey
  inputHash := input.inputHash
  writerSignature := input.writerSignature
  signerKeyReference := input.signerKeyReference
  attestationReport := input.attestationReport
  previousHash := previousHash
  writtenTs := writtenTs
  createOutbox := createOutbox

variable [Sha256] (service : Instance) (input : WriteEntryInput)

/-- The hash the next entry has to link to, as far as the caller can see. -/
def currentTipHash : Call String := do
  match ← request (.repository (.read (.getChainTip input.entryType))) with
  | .ok (tip : ChainTip) => return tip.hash
  | .error .notFound => return service.config.genesisHash
  | .error err => throw (mapRepo err)

/-- The retry loop, with the number of attempts made and the number left. -/
def appendAttempts (attempt : Nat) : Nat → Call WriteEntryOutput
  | 0 => throw (.internal "chain integrity violation")
  | remaining + 1 => do
    let previousHash ← currentTipHash service input
    let writtenTs ← request .utcNow
    match ← request (.repository (.writeEntryWithOutbox
        (input.entryWriteInput previousHash writtenTs service.publisherEnabled))) with
    | .ok (result : WriteResult) => return result.entry.writeOutput
    | .error .chainIntegrityViolation =>
      if 0 < remaining then
        request (.sleep (10 * 2 ^ attempt % 2 ^ 64))
        appendAttempts (attempt + 1) remaining
      else
        request (.chainHaltedInsert input.entryType)
        throw (.internal "chain integrity violation")
    | .error .idempotencyConflict => replayConflict input
    | .error err => throw (mapRepo err)

/-- The attempts under the lock of the chain, which is given back however they end. -/
def appendUnderLock : Call WriteEntryOutput := do
  let lock ← request (.chainLock input.entryType)
  request (.acquire lock)
  ExceptT.mk do
    let result ← (appendAttempts service input 0 service.config.chainMaxRetries.toNat).run
    Program.perform (I := services) (.release lock)
    return result

def writeEntry : Call WriteEntryOutput := do
  ExceptT.mk (.done (validate service.config input))
  checkHalt service.config input.entryType
  match ← findReplay input with
  | some output => return output
  | none => appendUnderLock service input

def WriteEntryInput.receipt (write : WriteEntryOutput) : ProofReceiptOutput where
  entryHash := write.entryHash
  entryType := input.entryType
  chainPosition := write.chainPosition
  writtenTsMs := write.writtenTsMs
  entryId := write.entryId
  inputHash := input.inputHash.getD ""
  writerSignature := input.writerSignature.getD []
  signerKeyReference := input.signerKeyReference.getD ""
  attestationReport := input.attestationReport.getD []
  hashVersion := write.hashVersion

def issueReceipt : Call ProofReceiptOutput := do
  let write ← writeEntry service input
  return input.receipt write

/-! The requests a write makes. -/

/-- A request about the halt of the chain or the key. -/
def ServiceRequest.IsLookup : ServiceRequest → Prop
  | .repository (.read (.findIdempotent entryType key)) =>
      entryType = input.entryType ∧ input.idempotencyKey = some key
  | .chainHaltedElapsed entryType => entryType = input.entryType
  | .chainHaltedRemove entryType => entryType = input.entryType
  | _ => False

/-- A request about the chain of the entry, its key, or an append of what was sent. -/
def ServiceRequest.IsWrite : ServiceRequest → Prop
  | .repository (.read (.getChainTip entryType)) => entryType = input.entryType
  | .repository (.read (.findIdempotent entryType key)) =>
      entryType = input.entryType ∧ input.idempotencyKey = some key
  | .repository (.writeEntryWithOutbox entry) => ∃ previousHash writtenTs,
      entry = input.entryWriteInput previousHash writtenTs service.publisherEnabled
  | .repository _ => False
  | .chainHaltedElapsed entryType => entryType = input.entryType
  | .chainHaltedRemove entryType => entryType = input.entryType
  | .chainHaltedInsert entryType => entryType = input.entryType
  | .chainLock entryType => entryType = input.entryType
  | .publish _ => False
  | _ => True

omit [Sha256] in
theorem ServiceRequest.IsLookup.isWrite (message : ServiceRequest)
    (lookup : message.IsLookup input) : message.IsWrite service input := by
  cases message with
  | repository request =>
    cases request with
    | read request => cases request <;> first | exact lookup | exact lookup.elim
    | _ => exact lookup.elim
  | chainHaltedElapsed entryType => exact lookup
  | chainHaltedRemove entryType => exact lookup
  | _ => exact lookup.elim

omit [Sha256] in
theorem checkHalt_all (config : AppConfig) :
    (checkHalt config input.entryType).run.All (ServiceRequest.IsLookup input) := by
  refine Program.All.exceptBind ⟨rfl, fun _ => trivial⟩ fun elapsed => ?_
  cases elapsed with
  | none => trivial
  | some elapsed =>
    dsimp only
    split
    · trivial
    · exact ⟨rfl, fun _ => trivial⟩

omit [Sha256] in
theorem findReplay_all : (findReplay input).run.All (ServiceRequest.IsLookup input) := by
  unfold findReplay
  split
  · trivial
  · next key keyed =>
    refine Program.All.exceptBind ⟨⟨rfl, keyed⟩, fun _ => trivial⟩ fun found => ?_
    cases found with
    | none => trivial
    | some existing => exact Program.All.exceptBind trivial fun _ => trivial

omit [Sha256] in
theorem replayConflict_all :
    (replayConflict input).run.All (ServiceRequest.IsLookup input) := by
  unfold replayConflict
  split
  · trivial
  · next key keyed =>
    refine Program.All.exceptBind ⟨⟨rfl, keyed⟩, fun _ => trivial⟩ fun found => ?_
    cases found with
    | none => trivial
    | some existing => trivial

theorem currentTipHash_all :
    (currentTipHash service input).run.All (ServiceRequest.IsWrite service input) := by
  refine Program.All.exceptBind ⟨rfl, fun _ => trivial⟩ fun tip => ?_
  split <;> trivial

theorem appendAttempts_all (attempt remaining : Nat) :
    (appendAttempts service input attempt remaining).run.All
      (ServiceRequest.IsWrite service input) := by
  induction remaining generalizing attempt with
  | zero => trivial
  | succ remaining ih =>
    refine Program.All.exceptBind (currentTipHash_all service input) fun previousHash => ?_
    refine Program.All.exceptBind ⟨trivial, fun _ => trivial⟩ fun writtenTs => ?_
    refine Program.All.exceptBind ⟨⟨previousHash, writtenTs, rfl⟩, fun _ => trivial⟩ fun reply => ?_
    split
    · trivial
    · split
      · exact Program.All.exceptBind ⟨trivial, fun _ => trivial⟩ fun _ => ih (attempt + 1)
      · exact Program.All.exceptBind ⟨rfl, fun _ => trivial⟩ fun _ => trivial
    · exact (replayConflict_all input).imp (ServiceRequest.IsLookup.isWrite service input)
    · trivial

theorem writeEntry_all :
    (writeEntry service input).run.All (ServiceRequest.IsWrite service input) := by
  refine Program.All.exceptBind trivial fun _ => ?_
  have lookup := ServiceRequest.IsLookup.isWrite service input
  refine Program.All.exceptBind ((checkHalt_all input _).imp lookup) fun _ => ?_
  refine Program.All.exceptBind ((findReplay_all input).imp lookup) fun found => ?_
  cases found with
  | some output => trivial
  | none =>
    refine Program.All.exceptBind ⟨rfl, fun _ => trivial⟩ fun lock => ?_
    refine Program.All.exceptBind ⟨trivial, fun _ => trivial⟩ fun _ => ?_
    exact (appendAttempts_all service input 0 _).bind fun _ => ⟨trivial, fun _ => trivial⟩

theorem issueReceipt_all :
    (issueReceipt service input).run.All (ServiceRequest.IsWrite service input) :=
  Program.All.exceptBind (writeEntry_all service input) fun _ => trivial

end ImmutableLedger
