import ImmutableLedger.Service.Write

/-! The idempotency rule of the ledger, as its clients rely on it.

A key of a type of entry stands for one entry. A request with the same material is answered with the
receipt of that entry, and one with other material is refused.
-/

set_option autoImplicit false

namespace ImmutableLedger.Idempotency

/-- What the ledger gives to a new entry. -/
structure Stamp where
  entryId : Uuid
  hashVersion : String
  entryHash : String
  previousHash : String
  chainPosition : Int64
  writtenTs : DateTime

def Stamp.entry (stamp : Stamp) (input : WriteEntryInput) : LedgerEntryRecord where
  entryId := stamp.entryId
  entryType := input.entryType
  agentId := input.agentId
  content := input.content
  contentType := input.contentType
  sourceId := input.sourceId
  correlationId := input.correlationId
  idempotencyKey := input.idempotencyKey
  inputHash := input.inputHash
  writerSignature := input.writerSignature
  signerKeyReference := input.signerKeyReference
  attestationReport := input.attestationReport
  hashVersion := stamp.hashVersion
  entryHash := stamp.entryHash
  previousHash := stamp.previousHash
  chainPosition := stamp.chainPosition
  writtenTs := stamp.writtenTs

def find (input : WriteEntryInput) (stored : List LedgerEntryRecord) : Option LedgerEntryRecord :=
  stored.find? fun entry =>
    entry.entryType == input.entryType && entry.idempotencyKey == input.idempotencyKey

/-- The answer to a request with a key, and the entry that it adds, if any. -/
def issueReceipt (config : AppConfig) (stamp : Stamp) (input : WriteEntryInput)
    (stored : List LedgerEntryRecord) :
    Except ServiceError ProofReceiptOutput × List LedgerEntryRecord :=
  match validate config input with
  | .error err => (.error err, [])
  | .ok () =>
    match find input stored with
    | some existing => ((replay existing input).map input.receipt, [])
    | none => (.ok (input.receipt (stamp.entry input).writeOutput), [stamp.entry input])

/-- The request is answered with a receipt of an entry that is stored. -/
structure Settled (config : AppConfig) (input : WriteEntryInput) (receipt : ProofReceiptOutput)
    (stored : List LedgerEntryRecord) : Prop where
  valid : validate config input = .ok ()
  replayed : ∃ existing, find input stored = some existing ∧
    (replay existing input).map input.receipt = .ok receipt

variable {config : AppConfig} {stamp : Stamp} {input : WriteEntryInput} {receipt : ProofReceiptOutput}
  {stored : List LedgerEntryRecord}

theorem replay_entry : replay (stamp.entry input) input = .ok (stamp.entry input).writeOutput := by
  simp [replay, idempotentRequestMatches, Stamp.entry]

theorem find_append {existing : LedgerEntryRecord} (found : find input stored = some existing)
    (more : List LedgerEntryRecord) : find input (stored ++ more) = some existing := by
  rw [find, List.find?_append, ← find, found, Option.some_or]

theorem Settled.append (settled : Settled config input receipt stored)
    (more : List LedgerEntryRecord) : Settled config input receipt (stored ++ more) := by
  obtain ⟨valid, existing, found, replayed⟩ := settled
  exact ⟨valid, existing, find_append found more, replayed⟩

theorem Settled.issueReceipt (settled : Settled config input receipt stored) :
    issueReceipt config stamp input stored = (.ok receipt, []) := by
  obtain ⟨valid, existing, found, replayed⟩ := settled
  simp only [Idempotency.issueReceipt, valid, found, replayed]

/-- A request that is refused adds nothing. -/
theorem issueReceipt_error {err : ServiceError} {added : List LedgerEntryRecord}
    (refused : issueReceipt config stamp input stored = (.error err, added)) : added = [] := by
  rw [issueReceipt] at refused
  split at refused
  · exact (Prod.mk.inj refused).2.symm
  · split at refused
    · exact (Prod.mk.inj refused).2.symm
    · cases refused

/-- A receipt is for an entry that was stored or is added, and from then on it is settled. -/
theorem issueReceipt_ok {added : List LedgerEntryRecord}
    (issued : issueReceipt config stamp input stored = (.ok receipt, added)) :
    added.length ≤ 1 ∧ Settled config input receipt (stored ++ added) := by
  rw [issueReceipt] at issued
  cases valid : validate config input with
  | error err =>
    rw [valid] at issued
    cases issued
  | ok accepted =>
    rw [valid] at issued
    dsimp only at issued
    cases held : find input stored with
    | some existing =>
      rw [held] at issued
      obtain ⟨replayed, rfl⟩ := Prod.mk.inj issued
      rw [List.append_nil]
      exact ⟨Nat.zero_le _, valid, existing, held, replayed⟩
    | none =>
      rw [held] at issued
      obtain ⟨same, rfl⟩ := Prod.mk.inj issued
      cases same
      refine ⟨le_rfl, valid, stamp.entry input, ?_, by rw [replay_entry]; rfl⟩
      rw [find, List.find?_append, ← find, held, Option.none_or]
      simp [Stamp.entry]

/-- A request with a key that is not taken adds an entry. -/
theorem issueReceipt_new (valid : validate config input = .ok ()) (unused : find input stored = none) :
    issueReceipt config stamp input stored =
      (.ok (input.receipt (stamp.entry input).writeOutput), [stamp.entry input]) := by
  simp only [issueReceipt, valid, unused]

theorem small_of_valid (valid : validate config input = .ok ()) :
    input.content.length ≤ config.maxContentSizeBytes := by
  rw [validate] at valid
  split at valid
  · cases valid
  · split at valid
    · cases valid
    · next small => exact Nat.le_of_not_lt small

theorem valid_of_small (entryType : input.entryType ≠ "") (agentId : input.agentId ≠ "")
    (contentType : input.contentType ≠ "") (sourceId : input.sourceId ≠ "")
    (small : input.content.length ≤ config.maxContentSizeBytes) : validate config input = .ok () := by
  rw [validate, if_neg (by simp [entryType, agentId, contentType, sourceId]),
    if_neg (Nat.not_lt.mpr small)]

end ImmutableLedger.Idempotency
