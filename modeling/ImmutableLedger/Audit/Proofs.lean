import ImmutableLedger.Audit.Tamper
import ImmutableLedger.Ledger.Interleavings
import ImmutableLedger.Service.Proofs

/-! Proofs about an entry outlive every edit of the table. -/

set_option autoImplicit false

namespace ImmutableLedger

open Query

/-- Everything a proof reports is as the entry has it. -/
structure VerifyProofOutput.Reports (output : VerifyProofOutput) (entry : LedgerEntryRecord) :
    Prop where
  entryType : output.entryType = entry.entryType
  agentId : output.agentId = entry.agentId
  sourceId : output.sourceId = entry.sourceId
  correlationId : output.correlationId = entry.correlationId.getD ""
  contentType : output.contentType = entry.contentType
  inputHash : output.inputHash = entry.inputHash.getD ""
  writerSignature : output.writerSignature = entry.writerSignature.getD []
  signerKeyReference : output.signerKeyReference = entry.signerKeyReference.getD ""
  attestationReport : output.attestationReport = entry.attestationReport.getD []
  chainPosition : output.chainPosition = entry.chainPosition
  writtenTsMs : output.writtenTsMs = entry.writtenTs.timestampMillis
  hashVersion : output.hashVersion = entry.hashVersion

/-- Every string that is hashed to check the rows of a table. -/
def LedgerEntries.hashedStrings (table : LedgerEntries) : Set Bytes :=
  {bytes | ∃ row ∈ table.rows, row.hashedBytes = some bytes}

/-- A hash lookup that finds a row has found the only one. -/
theorem LedgerEntries.getEntryByHash_single {table : LedgerEntries} {entryType entryHash : String}
    {row : LedgerEntryRecord} (found : table.getEntryByHash entryType entryHash = .ok row) :
    (table.rows.filter fun row =>
      decide (row.entryType = entryType ∧ row.entryHash = entryHash)) = [row] := by
  unfold getEntryByHash at found
  cases rows : table.rows.filter fun row =>
      decide (row.entryType = entryType ∧ row.entryHash = entryHash) with
  | nil =>
    rw [rows] at found
    cases found
  | cons first rest =>
    cases rest with
    | nil =>
      rw [rows] at found
      cases found
      rfl
    | cons second others =>
      rw [rows] at found
      cases found

theorem LedgerEntries.getEntryByHash_found {table : LedgerEntries} {entryType entryHash : String}
    {row : LedgerEntryRecord} (found : table.getEntryByHash entryType entryHash = .ok row) :
    row ∈ table.rows ∧ row.entryType = entryType ∧ row.entryHash = entryHash := by
  have selected : row ∈ table.rows.filter fun row =>
      decide (row.entryType = entryType ∧ row.entryHash = entryHash) := by
    rw [getEntryByHash_single found]
    exact List.mem_singleton_self row
  simpa using selected

theorem LedgerEntries.getEntryByHash_only {table : LedgerEntries} {row found : LedgerEntryRecord}
    (member : row ∈ table.rows)
    (lookup : table.getEntryByHash row.entryType row.entryHash = .ok found) : found = row := by
  have selected : row ∈ table.rows.filter fun other =>
      decide (other.entryType = row.entryType ∧ other.entryHash = row.entryHash) :=
    List.mem_filter.mpr ⟨member, decide_eq_true ⟨rfl, rfl⟩⟩
  rw [getEntryByHash_single lookup] at selected
  exact (List.mem_singleton.mp selected).symm

section

variable [Sha256]

/-- An accepted entry carries the current version and a hash that is right. -/
theorem Tables.accepted_entry {before after : Tables} {draw : Draw} {input : EntryWriteInput}
    {result : WriteResult}
    (accepted : before.writeEntryWithOutbox draw input = (.ok result, after)) :
    result.entry.hashVersion = entryHashVersionV3 ∧ result.entry.HashValid := by
  obtain ⟨err, rejected, -⟩ | ⟨written, reached, nextPosition, wrote, committed⟩ :=
    @Tables.writeEntryWithOutbox_cases _ before draw input
  · cases (accepted.symm.trans rejected : (Except.ok result, after) = (Except.error err, before))
  · cases (accepted.symm.trans wrote : (Except.ok result, after) = (Except.ok written, reached))
    rw [committed.entry]
    exact ⟨rfl, input.entry_hashValid draw.ids nextPosition⟩

/-- Entries that agree on what version 3 binds are reported alike. -/
theorem SameBoundEntry.reports {row entry : LedgerEntryRecord} (same : SameBoundEntry row entry)
    (version : row.hashVersion = entryHashVersionV3) : row.proofOutput.Reports entry := by
  have bound := same.proofMaterial version
  exact
    { entryType := bound.entryType
      agentId := bound.agentId
      sourceId := bound.sourceId
      correlationId := bound.correlationId
      contentType := bound.contentType
      inputHash := bound.inputHash
      writerSignature := bound.writerSignature
      signerKeyReference := bound.signerKeyReference
      attestationReport := bound.attestationReport
      chainPosition := bound.chainPosition
      writtenTsMs := bound.writtenTsMs
      hashVersion := same.hashVersion }

omit [Sha256] in
/-- Every string that was hashed for an entry, or is hashed for a row of a table. -/
def proofStrings (entry : LedgerEntryRecord) (table : LedgerEntries) : Set Bytes :=
  {bytes | entry.hashedBytes = some bytes ∨ bytes ∈ table.hashedStrings}

/-- Whatever a table was made into, a proof that verifies is about the entry as it was accepted,
and a lookup by the same hash returns what was written. -/
theorem verifyProof_binds {before after : Tables} {draw : Draw} {input : EntryWriteInput}
    {result : WriteResult}
    (accepted : before.writeEntryWithOutbox draw input = (.ok result, after)) (later : Tables)
    (collisionFree : Set.InjOn Sha256.digest (proofStrings result.entry later.entries))
    {output : VerifyProofOutput}
    (returned : (verifyProof result.entry.entryType result.entry.entryHash).run.evaluate
      later.query = some (.ok output))
    (verified : output.valid = true) :
    output.Reports result.entry ∧ ∃ row,
      (getEntryByHash result.entry.entryType result.entry.entryHash).run.evaluate later.query =
        some (.ok row) ∧ row.content = result.entry.content := by
  obtain ⟨version, valid⟩ := Tables.accepted_entry accepted
  obtain ⟨row, found, rfl⟩ := verifyProof_evaluate_iff.mp returned
  obtain ⟨member, -, shared⟩ := LedgerEntries.getEntryByHash_found found
  have same : SameBoundEntry row result.entry := by
    apply sameBoundEntry_of_entryHash collisionFree
    · exact LedgerEntryRecord.valid_proofOutput.mp verified
    · exact valid
    · intro bytes hashed
      exact .inr ⟨row, member, hashed⟩
    · intro bytes hashed
      exact .inl hashed
    · exact shared
  constructor
  · exact same.reports (same.hashVersion.trans version)
  · refine ⟨row, ?_, same.bound.content⟩
    rw [getEntryByHash_evaluate, found]
    rfl

theorem ChainsValid.hashValid {genesis : String} {table : LedgerEntries} {row : LedgerEntryRecord}
    (valid : ChainsValid genesis table) (member : row ∈ table.rows) : row.HashValid :=
  (valid row.entryType).hashed row (LedgerEntries.mem_ofType.mpr ⟨member, rfl⟩)

/-- A hash is the hash of one row at most. -/
theorem ChainsValid.eq_of_entryHash {genesis : String} {table : LedgerEntries} {hashed : Set Bytes}
    (valid : ChainsValid genesis table) (collisionFree : Set.InjOn Sha256.digest hashed)
    (strings : table.hashedStrings ⊆ hashed) {row other : LedgerEntryRecord}
    (member : row ∈ table.rows) (another : other ∈ table.rows)
    (shared : row.entryHash = other.entryHash) : row = other := by
  have same : SameBoundEntry row other := by
    apply sameBoundEntry_of_entryHash collisionFree (valid.hashValid member)
      (valid.hashValid another)
    · intro bytes hashed
      exact strings ⟨row, member, hashed⟩
    · intro bytes hashed
      exact strings ⟨other, another, hashed⟩
    · exact shared
  exact LedgerEntries.eq_of_entryId member another same.bound.entryId

namespace Sample

/-- The first entry with an empty correlation in place of none. -/
def edited : LedgerEntryRecord := { first.stored with correlationId := some "" }

def editedTables : Tables where
  entries :=
    { rows := [edited]
      uniqueEntryId := List.nodup_singleton _
      uniqueTypePosition := List.nodup_singleton _
      uniqueIdempotencyKey := List.nodup_singleton _
      bounded := oneRow }
  outbox := .empty

theorem edited_hashedBytes : edited.hashedBytes = first.hashedBytes := rfl

theorem edited_valid : edited.HashValid :=
  firstInput.entry_hashValid (ids 1) 1

theorem edited_found :
    editedTables.query (.getEntryByHash first.entryType first.entryHash) = .ok edited := by
  have selected : editedTables.entries.rows.filter (fun row =>
      decide (row.entryType = first.entryType ∧ row.entryHash = first.entryHash)) = [edited] := by
    refine List.filter_eq_self.mpr ?_
    intro row member
    obtain rfl := List.mem_singleton.mp member
    exact decide_eq_true ⟨rfl, rfl⟩
  change editedTables.entries.getEntryByHash first.entryType first.entryHash = _
  rw [LedgerEntries.getEntryByHash, selected]
  rfl

end Sample

end

/-- An edited entry still verifies, and is still reported as it was accepted. -/
theorem verifyProof_binds_edited :
    letI := Fips180.sha256
    Sample.edited.proofOutput.Reports Sample.first ∧ ∃ row,
      (getEntryByHash Sample.first.entryType Sample.first.entryHash).run.evaluate
        Sample.editedTables.query = some (.ok row) ∧ row.content = Sample.first.content := by
  let := Fips180.sha256
  have collisionFree : Set.InjOn Sha256.digest
      (proofStrings Sample.first Sample.editedTables.entries) := by
    have hashed : ∀ bytes ∈ proofStrings Sample.first Sample.editedTables.entries,
        Sample.first.hashedBytes = some bytes := by
      intro bytes member
      cases member with
      | inl written => exact written
      | inr stored =>
        obtain ⟨row, member, hashed⟩ := stored
        obtain rfl := List.mem_singleton.mp member
        exact Sample.edited_hashedBytes.symm.trans hashed
    intro bytes member other another _
    exact Option.some.inj ((hashed bytes member).symm.trans (hashed other another))
  have returned : (verifyProof Sample.first.entryType Sample.first.entryHash).run.evaluate
      Sample.editedTables.query = some (.ok Sample.edited.proofOutput) :=
    verifyProof_evaluate_iff.mpr ⟨Sample.edited, Sample.edited_found, rfl⟩
  exact verifyProof_binds Sample.first_written Sample.editedTables collisionFree returned
    (LedgerEntryRecord.valid_proofOutput.mpr Sample.edited_valid)

end ImmutableLedger
