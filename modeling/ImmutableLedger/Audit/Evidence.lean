import ImmutableLedger.Audit.Proofs
import ImmutableLedger.Grpc.Queries
import ImmutableLedger.Grpc.Receipts

/-! The independent check of an entry in `run_evidence.py`.

The script rebuilds the canonical envelope from a message, without the ledger's own code.
-/

set_option autoImplicit false

namespace ImmutableLedger

open Concurrency Grpc

namespace RunEvidence

def hashVersionV2 : String := "ARE_LEDGER_ENTRY_HASH_V2"

def hashVersionV3 : String := "ARE_LEDGER_ENTRY_HASH_V3"

structure AssertionError where
  message : String

def fields (version : String) (entry : LedgerEntry) : List (String × Bytes) :=
  (if version = hashVersionV3 then [("hash_version", asBytes version)] else []) ++
  [("entry_id", asBytes entry.entryId),
   ("entry_type", asBytes entry.entryType),
   ("agent_id", asBytes entry.agentId),
   ("content", entry.content),
   ("content_type", asBytes entry.contentType),
   ("source_id", asBytes entry.sourceId),
   ("correlation_id", asBytes entry.correlationId),
   ("idempotency_key", asBytes entry.idempotencyKey),
   ("input_hash", asBytes entry.inputHash)] ++
  (if version = hashVersionV3 then
    [("writer_signature", entry.writerSignature),
     ("signer_key_reference", asBytes entry.signerKeyReference),
     ("attestation_report", entry.attestationReport)]
   else []) ++
  [("chain_position", decimalInt entry.chainPosition),
   ("written_ts_ms", decimalInt entry.writtenTs),
   ("previous_hash", asBytes entry.previousHash)]

def canonical (version : String) (entry : LedgerEntry) : Bytes :=
  asBytes version ++ [newline] ++ (fields version entry).flatMap fun field =>
    asBytes field.1 ++ [colon] ++ decimalNat field.2.length ++ [colon] ++ field.2 ++ [newline]

/-- An empty version stands for version 2. -/
def independentlyComputeEntryHash [Sha256] (entry : LedgerEntry) : Except AssertionError String :=
  let version := if entry.hashVersion.isEmpty then hashVersionV2 else entry.hashVersion
  if version = hashVersionV3 ∨ version = hashVersionV2 then .ok (sha256Hex (canonical version entry))
  else .error ⟨"Unsupported hash version: " ++ version⟩

/-- The assertion about an entry and its rebuilt hash. -/
def Accepts [Sha256] (entry : LedgerEntry) : Prop :=
  independentlyComputeEntryHash entry = .ok entry.entryHash

/-! Agreement with the envelope of the ledger. -/

/-- Fields appended one by one are the joined fields. -/
theorem appendFields_eq_flatMap (bytes : Bytes) (fields : List (String × Bytes)) :
    appendFields bytes fields = bytes ++ fields.flatMap fun field =>
      asBytes field.1 ++ [colon] ++ decimalNat field.2.length ++ [colon] ++ field.2 ++ [newline] := by
  induction fields generalizing bytes with
  | nil => simp [appendFields]
  | cons field rest ih =>
    rw [appendFields, List.foldl_cons, ← appendFields, ih]
    simp [appendField]

variable (row : LedgerEntryRecord)

theorem fields_v2 : fields hashVersionV2 (ledgerEntry row) = canonicalFieldsV2 row.canonicalInput := by
  simp [fields, hashVersionV2, hashVersionV3, canonicalFieldsV2, ledgerEntry,
    LedgerEntryRecord.canonicalInput]

theorem fields_v3 : fields hashVersionV3 (ledgerEntry row) = canonicalFieldsV3 row.canonicalInput := by
  simp [fields, hashVersionV3, canonicalFieldsV3, entryHashVersionV3, ledgerEntry,
    LedgerEntryRecord.canonicalInput]

theorem canonical_v2 :
    canonical hashVersionV2 (ledgerEntry row) = canonicalEntryBytesV2 row.canonicalInput := by
  rw [canonical, fields_v2, canonicalEntryBytesV2, appendFields_eq_flatMap]
  rfl

theorem canonical_v3 :
    canonical hashVersionV3 (ledgerEntry row) = canonicalEntryBytesV3 row.canonicalInput := by
  rw [canonical, fields_v3, canonicalEntryBytesV3, appendFields_eq_flatMap]
  rfl

variable [Sha256] {row}

/-- The script and the ledger compute one hash from an entry of either version. -/
theorem independentlyComputeEntryHash_eq
    (supported : row.hashVersion = entryHashVersionV2 ∨ row.hashVersion = entryHashVersionV3) :
    ∃ hash, row.recomputed = some hash ∧
      independentlyComputeEntryHash (ledgerEntry row) = .ok hash := by
  have version : (ledgerEntry row).hashVersion = row.hashVersion := rfl
  cases supported with
  | inl second =>
    refine ⟨canonicalEntryHashV2 row.canonicalInput, ?_, ?_⟩
    · rw [LedgerEntryRecord.recomputed, second]
      rfl
    · rw [independentlyComputeEntryHash, version, second, canonicalEntryHashV2, ← canonical_v2]
      rfl
  | inr third =>
    refine ⟨canonicalEntryHashV3 row.canonicalInput, ?_, ?_⟩
    · rw [LedgerEntryRecord.recomputed, third]
      rfl
    · rw [independentlyComputeEntryHash, version, third, canonicalEntryHashV3, ← canonical_v3]
      rfl

theorem accepts_iff
    (supported : row.hashVersion = entryHashVersionV2 ∨ row.hashVersion = entryHashVersionV3) :
    Accepts (ledgerEntry row) ↔ row.HashValid := by
  obtain ⟨hash, recomputed, rebuilt⟩ := independentlyComputeEntryHash_eq supported
  rw [Accepts, rebuilt, LedgerEntryRecord.HashValid, recomputed, Except.ok.injEq, Option.some.injEq]
  rfl

end RunEvidence

section

variable [Sha256] {config : AppConfig} {answers : (message : ReadRequest) → message.Reply}
  {row : LedgerEntryRecord}

/-- `verify_entry` judges the hash of the row that is found. -/
theorem verifyEntry_hashValid {entryId : Uuid} {output : VerifyEntryOutput}
    (found : answers (.getEntry entryId) = .ok row)
    (returned : (verifyEntry config entryId).run.evaluate answers = some (.ok output)) :
    output.hashValid = true ↔ row.HashValid := by
  rw [verifyEntry, Program.evaluate_exceptBind, evaluate_ask, found] at returned
  simp only [Except.mapError, Option.bind_some] at returned
  by_cases unsupported : row.recomputed.isNone = true
  · rw [if_pos unsupported] at returned
    cases returned
    rw [LedgerEntryRecord.HashValid, Option.isNone_iff_eq_none.mp unsupported]
    simp
  · rw [if_neg unsupported, Program.evaluate_exceptBind] at returned
    cases linked : (chainLinkValid config row).run.evaluate answers with
    | none =>
      rw [linked] at returned
      cases returned
    | some verdict =>
      rw [linked] at returned
      cases verdict with
      | error err => cases returned
      | ok verdict =>
        cases returned
        exact decide_eq_true_iff

omit [Sha256] in
/-- Every page of a query consists of the messages of the rows that were listed. -/
theorem queryEntries_listed {listed : (statement : QueryStatement) → statement.Reply}
    {request : QueryEntriesRequest} {response : QueryEntriesResponse}
    (returned : (Grpc.queryEntries request).run.evaluate listed = some (.ok response)) :
    ∃ page : List LedgerEntryRecord,
      listed (.page (queryEntriesInput request).entryQuery) = .ok page ∧
        response.entries = page.map ledgerEntry := by
  rw [run_queryEntries, Program.evaluate_call] at returned
  cases counted : listed (.count (queryEntriesInput request).entryQuery) with
  | error err =>
    rw [counted] at returned
    cases returned
  | ok total =>
    rw [counted] at returned
    change Program.evaluate (I := statements) listed (Program.call (I := statements) _ _) = _
      at returned
    rw [Program.evaluate_call] at returned
    cases paged : listed (.page (queryEntriesInput request).entryQuery) with
    | error err =>
      rw [paged] at returned
      cases returned
    | ok page =>
      rw [paged] at returned
      cases returned
      exact ⟨page, rfl, rfl⟩

open RunEvidence in
/-- Whichever way a row is looked up, its message has all that was hashed, and the script accepts
the message exactly if the ledger reports the hash as valid. -/
structure Reverifiable (config : AppConfig) (parser : UuidParser)
    (answers : (message : ReadRequest) → message.Reply) (row : LedgerEntryRecord) : Prop where
  rebuilt : ∃ hash, canonicalEntryHashForVersion row.hashVersion row.canonicalInput = some hash ∧
    independentlyComputeEntryHash (ledgerEntry row) = .ok hash
  byId : ∀ entryId, answers (.getEntry entryId) = .ok row →
    (Grpc.getEntry parser ⟨entryId.toText⟩).run.evaluate answers =
      some (.ok ⟨some (ledgerEntry row)⟩) ∧
    ∀ response, (Grpc.verifyEntry config parser ⟨entryId.toText⟩).run.evaluate answers =
      some (.ok response) → (Accepts (ledgerEntry row) ↔ response.hashValid = true)
  byHash : ∀ entryType entryHash, entryType ≠ "" → entryHash ≠ "" →
    answers (.getEntryByHash entryType entryHash) = .ok row →
    (Grpc.getEntryByHash ⟨entryHash, entryType⟩).run.evaluate answers =
      some (.ok ⟨some (ledgerEntry row)⟩) ∧
    ∃ response, (Grpc.verifyProof ⟨entryHash, entryType⟩).run.evaluate answers =
      some (.ok response) ∧ (Accepts (ledgerEntry row) ↔ response.valid = true)
  queried : ∀ (listed : (statement : QueryStatement) → statement.Reply) request response,
    (Grpc.queryEntries request).run.evaluate listed = some (.ok response) →
    ∃ page : List LedgerEntryRecord,
      listed (.page (queryEntriesInput request).entryQuery) = .ok page ∧
        response.entries = page.map ledgerEntry

/-- A row of either version can be verified from its message alone, whatever it holds. In a table
it is found by its identifier, and a lookup by its hash finds nothing else. -/
theorem message_reverifiable (config : AppConfig) (parser : UuidParser)
    (supported : row.hashVersion = entryHashVersionV2 ∨ row.hashVersion = entryHashVersionV3) :
    (∀ answers, Reverifiable config parser answers row) ∧
      ∀ tables : Tables, row ∈ tables.entries.rows →
        tables.query (.getEntry row.entryId) = .ok row ∧
          ∀ found, tables.query (.getEntryByHash row.entryType row.entryHash) = .ok found →
            found = row := by
  have agree := RunEvidence.accepts_iff supported
  constructor
  · intro answers
    constructor
    · exact RunEvidence.independentlyComputeEntryHash_eq supported
    · intro entryId found
      refine ⟨getEntry_answered parser found, fun response returned => ?_⟩
      obtain ⟨output, evaluated, rfl⟩ := verifyEntry_answered parser returned
      exact agree.trans (verifyEntry_hashValid found evaluated).symm
    · intro entryType entryHash typed hashed found
      refine ⟨getEntryByHash_answered typed hashed found, _,
        verifyProof_answered typed hashed found, ?_⟩
      exact agree.trans LedgerEntryRecord.valid_proofOutput.symm
    · exact fun listed request response => queryEntries_listed
  · intro tables member
    refine ⟨LedgerEntries.getEntry_of_mem member, fun found lookup => ?_⟩
    exact LedgerEntries.getEntryByHash_only member lookup

end

/-- An edited entry, whose empty correlation the message does not tell from none. -/
theorem message_reverifiable_edited :
    letI := Fips180.sha256
    Reverifiable Sample.config Sample.parser Sample.editedTables.query Sample.edited ∧
      Sample.editedTables.query (.getEntry Sample.edited.entryId) = .ok Sample.edited := by
  let := Fips180.sha256
  obtain ⟨everywhere, stored⟩ := message_reverifiable Sample.config Sample.parser
    (show Sample.edited.hashVersion = _ ∨ Sample.edited.hashVersion = _ from .inr rfl)
  exact ⟨everywhere _, (stored _ (List.mem_singleton_self _)).1⟩

end ImmutableLedger
