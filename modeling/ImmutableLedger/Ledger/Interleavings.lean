import ImmutableLedger.Crypto.Fips180
import ImmutableLedger.Ledger.Writes

/-! The ledger under any interleaving of calls.

Instances that agree on a genesis share one database. Runs start without lost requests, and
from then on replies are lost, calls are dropped and late commits land at any moment.
-/

set_option autoImplicit false

namespace ImmutableLedger

open Concurrency

/-- The part of a receipt that says how its entry was written. -/
def ProofReceiptOutput.write (receipt : ProofReceiptOutput) : WriteEntryOutput where
  entryId := receipt.entryId
  entryHash := receipt.entryHash
  chainPosition := receipt.chainPosition
  writtenTsMs := receipt.writtenTsMs
  hashVersion := receipt.hashVersion

@[simp] theorem WriteEntryInput.write_receipt (input : WriteEntryInput) (output : WriteEntryOutput) :
    (input.receipt output).write = output := rfl

/-- A call that was asked to write an entry has returned a result. -/
inductive Replied : Thread services ServiceTask.Result → WriteEntryInput →
    Except ServiceError WriteEntryOutput → Prop where
  | writeEntry (client : Nat) (input : WriteEntryInput)
      (result : Except ServiceError WriteEntryOutput) :
      Replied ⟨.writeEntry client input, .done result⟩ input result
  | issueReceipt (client : Nat) (input : WriteEntryInput)
      (result : Except ServiceError ProofReceiptOutput) :
      Replied ⟨.issueReceipt client input, .done result⟩ input
        (result.map ProofReceiptOutput.write)

/-- The rows of `ledger_entries` in a configuration. -/
abbrev entriesOf [Sha256] (config : ServiceConfiguration postgres) : LedgerEntries :=
  config.state.store.tables.entries

section

variable [Sha256]

omit [Sha256] in
theorem answered_of_receipted {input : WriteEntryInput}
    {result : Except ServiceError ProofReceiptOutput} {tables : Tables}
    (receipted : Receipted input result tables) :
    Answered input (result.map ProofReceiptOutput.write) tables := by
  cases result with
  | ok receipt =>
    obtain ⟨output, answered, rfl⟩ := receipted
    exact answered
  | error err => exact receipted

/-- What calls returned is borne out by the entries for as long as the run goes on. -/
theorem Replied.answered {genesis : String} {wereValid : Prop}
    {config : ServiceConfiguration postgres}
    (holds : (appending genesis wereValid).lift.Holds Returned config)
    {thread : Thread services ServiceTask.Result} (started : thread ∈ config.threads)
    {input : WriteEntryInput} {result : Except ServiceError WriteEntryOutput}
    (replied : Replied thread input result) :
    Answered input result config.state.store.tables := by
  obtain ⟨i, present⟩ := List.getElem?_of_mem started
  cases replied with
  | writeEntry client input result => exact holds.returned present
  | issueReceipt client input result => exact answered_of_receipted (holds.returned present)

variable {deployment : Deployment} {wereValid : Prop}

theorem rows_extend {before after : ServiceConfiguration postgres}
    (holds : (appending deployment.genesisHash wereValid).lift.Holds Returned before)
    (run : ServiceRun postgres deployment before after) :
    (entriesOf before).rows <+: (entriesOf after).rows :=
  (Protocol.Holds.run (fun _ _ _ => safe_body deployment) holds run).2 _ (Nat.le_refl _)

end

/-! Two calls, run to their end. -/

namespace Sample

def deployment : Deployment where
  instances := fun client => ⟨config, client % 2 == 0⟩
  genesisHashInput := config.genesisHashInput
  sameGenesis := fun _ => rfl

def write (content : Bytes) : WriteEntryInput where
  entryType := "audit.event"
  agentId := "agent"
  content := content
  contentType := "application/json"
  sourceId := "source"
  correlationId := none
  idempotencyKey := some "first"
  inputHash := none
  writerSignature := none
  signerKeyReference := none
  attestationReport := none

def database (tables : Tables) : Database := ⟨tables, [], []⟩

variable [Sha256]

/-- What an append behind the genesis leaves behind. -/
def firstInput : EntryWriteInput :=
  (write [123, 125]).entryWriteInput config.genesisHash instant false

def first : LedgerEntryRecord := firstInput.entry (ids 1) 1

def firstTables : Tables where
  entries :=
    { rows := [first.stored]
      uniqueEntryId := List.nodup_singleton _
      uniqueTypePosition := List.nodup_singleton _
      uniqueIdempotencyKey := List.nodup_singleton _
      bounded := oneRow }
  outbox := .empty

theorem first_fits : first.stored.fitsColumns = true := by
  have hash : fitsVarchar 64 first.stored.entryHash = true := fitsVarchar_sha256Hex _
  have previous : fitsVarchar 64 first.stored.previousHash = true := fitsVarchar_sha256Hex _
  rw [LedgerEntryRecord.fitsColumns, hash, previous]
  exact show (fitsVarchar 255 "audit.event" && fitsVarchar 255 "agent" &&
    fitsVarchar 100 "application/json" && fitsVarchar 255 "source" && true &&
      fitsVarchar 255 "first" && true && true &&
        [entryHashVersionV2, entryHashVersionV3].contains entryHashVersion && true && true) =
          true by decide

theorem first_written :
    Tables.empty.writeEntryWithOutbox ⟨ids 1, instant⟩ firstInput =
      (.ok ⟨first, none⟩, firstTables) := by
  have positioned : Tables.empty.nextPosition firstInput = .ok 1 :=
    Tables.nextPosition_ok_iff.mpr ⟨sha256Hex_ne_empty _, rfl⟩
  have inserted : Tables.empty.entries.insert (firstInput.entry (ids 1) 1).stored =
      .ok firstTables.entries := by
    rw [LedgerEntries.insert, show (firstInput.entry (ids 1) 1).stored.fitsColumns = true from
      first_fits]
    rfl
  simp only [Tables.writeEntryWithOutbox, positioned, inserted]
  rfl

end Sample

section

variable [Sha256] {deployment : Deployment} {wereValid : Prop}

/-! Idempotency keys. -/

end

end ImmutableLedger
