import Mathlib.Data.Set.Function
import ImmutableLedger.Audit.Completeness

/-! Tamper evidence: what two audited contents share once they share one entry hash. -/

set_option autoImplicit false

namespace ImmutableLedger

open Encoding Query Chain

/-- The same entry as far as the version it was hashed under binds it. -/
structure SameBoundEntry (first second : LedgerEntryRecord) : Prop where
  hashVersion : first.hashVersion = second.hashVersion
  entryHash : first.entryHash = second.entryHash
  bound : SameEntryV2 first.canonicalInput second.canonicalInput
  proofMaterial : first.hashVersion = entryHashVersionV3 →
    SameEntryV3 first.canonicalInput second.canonicalInput

/-- Envelopes tell versions apart and determine every field their version binds. -/
theorem canonicalEntryBytesForVersion_inj {firstVersion secondVersion : String}
    {first second : CanonicalEntryHashInput} {bytes : Bytes}
    (hashedFirst : canonicalEntryBytesForVersion firstVersion first = some bytes)
    (hashedSecond : canonicalEntryBytesForVersion secondVersion second = some bytes) :
    firstVersion = secondVersion ∧ SameEntryV2 first second ∧
      (firstVersion = entryHashVersionV3 → SameEntryV3 first second) := by
  have versions : entryHashVersionV2 ≠ entryHashVersionV3 := by decide
  unfold canonicalEntryBytesForVersion at hashedFirst hashedSecond
  split_ifs at hashedFirst hashedSecond with firstV2 secondV2 secondV3 firstV3 secondV2 secondV3
  · have same := (canonicalEntryBytesV2_eq_iff first second).mp
      (Option.some.inj (hashedFirst.trans hashedSecond.symm))
    exact ⟨firstV2.trans secondV2.symm, same, fun isV3 => absurd (firstV2.symm.trans isV3) versions⟩
  · exact absurd (Option.some.inj (hashedFirst.trans hashedSecond.symm))
      (canonicalEntryBytesV2_ne_V3 first second)
  · exact absurd (Option.some.inj (hashedSecond.trans hashedFirst.symm))
      (canonicalEntryBytesV2_ne_V3 second first)
  · have same := (canonicalEntryBytesV3_eq_iff first second).mp
      (Option.some.inj (hashedFirst.trans hashedSecond.symm))
    exact ⟨firstV3.trans secondV3.symm, same.toSameEntryV2, fun _ => same⟩

/-- The bytes an entry's hash is computed from. -/
def LedgerEntryRecord.hashedBytes (row : LedgerEntryRecord) : Option Bytes :=
  canonicalEntryBytesForVersion row.hashVersion row.canonicalInput

/-- Every string a full audit of a chain hashes. -/
def auditedStrings (config : AppConfig) (table : LedgerEntries) (entryType : String) : Set Bytes :=
  {bytes | bytes = asBytes config.genesisHashInput ∨
    ∃ row ∈ table.audited entryType, row.hashedBytes = some bytes}

section

variable [Sha256]

theorem LedgerEntryRecord.HashValid.exists_bytes {row : LedgerEntryRecord} (valid : row.HashValid) :
    ∃ bytes, row.hashedBytes = some bytes ∧ row.entryHash = sha256Hex bytes := by
  rw [HashValid, recomputed, canonicalEntryHashForVersion_eq_map] at valid
  obtain ⟨bytes, hashed, same⟩ := Option.map_eq_some_iff.mp valid
  exact ⟨bytes, hashed, same.symm⟩

/-- Among strings without a collision, a shared hash is a shared entry. -/
theorem sameBoundEntry_of_entryHash {hashed : Set Bytes}
    (collisionFree : Set.InjOn Sha256.digest hashed) {first second : LedgerEntryRecord}
    (validFirst : first.HashValid) (validSecond : second.HashValid)
    (memberFirst : ∀ bytes, first.hashedBytes = some bytes → bytes ∈ hashed)
    (memberSecond : ∀ bytes, second.hashedBytes = some bytes → bytes ∈ hashed)
    (shared : first.entryHash = second.entryHash) : SameBoundEntry first second := by
  obtain ⟨firstBytes, hashedFirst, digestFirst⟩ := validFirst.exists_bytes
  obtain ⟨secondBytes, hashedSecond, digestSecond⟩ := validSecond.exists_bytes
  have digests : Sha256.digest firstBytes = Sha256.digest secondBytes := by
    rw [← sha256Hex_inj, ← digestFirst, ← digestSecond, shared]
  obtain rfl := collisionFree (memberFirst _ hashedFirst) (memberSecond _ hashedSecond) digests
  obtain ⟨version, bound, proofMaterial⟩ :=
    canonicalEntryBytesForVersion_inj hashedFirst hashedSecond
  exact ⟨version, shared, bound, proofMaterial⟩

/-- The rows of a type from position 1 up to a row. -/
def LedgerEntries.auditedUpTo (table : LedgerEntries) (entryType : String)
    (row : LedgerEntryRecord) : List LedgerEntryRecord :=
  upTo LedgerEntryRecord.position row.position (table.audited entryType)

omit [Sha256] in
/-- The rows up to an audited row are a piece of the audit that ends in it. -/
theorem LedgerEntries.exists_auditedUpTo {table : LedgerEntries} {entryType : String}
    {row : LedgerEntryRecord} (member : row ∈ table.audited entryType) :
    ∃ before, table.auditedUpTo entryType row = before ++ [row] ∧
      before ++ [row] <+: table.audited entryType := by
  obtain ⟨before, rest, split⟩ := List.append_of_mem member
  refine ⟨before, (table.audited_ascending entryType).upTo_last split, rest, ?_⟩
  rw [split, List.append_assoc, List.singleton_append]

theorem entryHash_ne_genesisHash {config : AppConfig} {hashed : Set Bytes}
    (collisionFree : Set.InjOn Sha256.digest hashed)
    (genesis : asBytes config.genesisHashInput ∈ hashed)
    (genesisFree : ∀ version input,
      canonicalEntryBytesForVersion version input ≠ some (asBytes config.genesisHashInput))
    {row : LedgerEntryRecord} (valid : row.HashValid)
    (member : ∀ bytes, row.hashedBytes = some bytes → bytes ∈ hashed) :
    row.entryHash ≠ config.genesisHash := by
  intro same
  obtain ⟨bytes, hashedAs, digest⟩ := valid.exists_bytes
  have digests : Sha256.digest bytes = Sha256.digest (asBytes config.genesisHashInput) :=
    sha256Hex_inj.mp (digest.symm.trans same)
  exact genesisFree _ _
    (hashedAs.trans (congrArg some (collisionFree (member bytes hashedAs) genesis digests)))

/-- Two contents that pass a full audit and share the hash of an entry agree on everything the
hashes bind, from the first row up to that entry. -/
theorem fullAudit_binds_prefix (config : AppConfig) (first second : Tables) (entryType : String)
    (collisionFree : Set.InjOn Sha256.digest
      (auditedStrings config first.entries entryType ∪
        auditedStrings config second.entries entryType))
    (genesisFree : ∀ version input,
      canonicalEntryBytesForVersion version input ≠ some (asBytes config.genesisHashInput))
    {firstOutput secondOutput : VerifyChainOutput}
    (auditFirst : FullAudit config first entryType firstOutput)
    (auditSecond : FullAudit config second entryType secondOutput)
    (validFirst : firstOutput.chainValid = true) (validSecond : secondOutput.chainValid = true)
    {a b : LedgerEntryRecord} (memberA : a ∈ first.entries.ofType entryType)
    (memberB : b ∈ second.entries.ofType entryType) (positiveA : 1 ≤ a.position)
    (positiveB : 1 ≤ b.position) (shared : a.entryHash = b.entryHash) :
    List.Forall₂ SameBoundEntry (first.entries.auditedUpTo entryType a)
      (second.entries.auditedUpTo entryType b) := by
  have soundFirst := (fullAudit_valid_iff auditFirst).mp validFirst
  have soundSecond := (fullAudit_valid_iff auditSecond).mp validSecond
  obtain ⟨beforeA, upToA, partA⟩ :=
    LedgerEntries.exists_auditedUpTo (LedgerEntries.mem_audited.mpr ⟨memberA, positiveA⟩)
  obtain ⟨beforeB, upToB, partB⟩ :=
    LedgerEntries.exists_auditedUpTo (LedgerEntries.mem_audited.mpr ⟨memberB, positiveB⟩)
  have stringsA : ∀ x ∈ beforeA ++ [a], ∀ bytes, x.hashedBytes = some bytes →
      bytes ∈ auditedStrings config first.entries entryType ∪
        auditedStrings config second.entries entryType :=
    fun x member bytes hashed => .inl (.inr ⟨x, partA.subset member, hashed⟩)
  have stringsB : ∀ y ∈ beforeB ++ [b], ∀ bytes, y.hashedBytes = some bytes →
      bytes ∈ auditedStrings config first.entries entryType ∪
        auditedStrings config second.entries entryType :=
    fun y member bytes hashed => .inr (.inr ⟨y, partB.subset member, hashed⟩)
  rw [upToA, upToB]
  refine Linked.agree (fun x memberX y memberY same => ?_) (fun x member => ?_) (fun y member => ?_)
    (soundFirst.linked.of_prefix partA) (soundSecond.linked.of_prefix partB) shared
  · have entry := sameBoundEntry_of_entryHash collisionFree
      (soundFirst.hashed x (partA.subset memberX)) (soundSecond.hashed y (partB.subset memberY))
      (stringsA x memberX) (stringsB y memberY) same
    exact ⟨entry, entry.bound.previousHash⟩
  · have reached := List.mem_append_left [a] member
    exact entryHash_ne_genesisHash collisionFree (.inl (.inl rfl)) genesisFree
      (soundFirst.hashed x (partA.subset reached)) (stringsA x reached)
  · have reached := List.mem_append_left [b] member
    exact entryHash_ne_genesisHash collisionFree (.inl (.inl rfl)) genesisFree
      (soundSecond.hashed y (partB.subset reached)) (stringsB y reached)

end

namespace Sample

def genesisText : String := "953874fb73b9e81a078e26d311cbda1fe04f72150c0075d70be75d376feca0d7"

def envelope : Bytes := canonicalEntryBytesV2 ((request genesisText).canonicalInput (ids 1) 1)

def genesisDigest : Vector UInt8 32 :=
  #v[149, 56, 116, 251, 115, 185, 232, 26, 7, 142, 38, 211, 17, 203, 218, 31,
     224, 79, 114, 21, 12, 0, 117, 215, 11, 231, 93, 55, 111, 236, 160, 215]

def envelopeDigest : Vector UInt8 32 :=
  #v[190, 23, 212, 72, 134, 38, 96, 9, 74, 222, 54, 140, 38, 217, 53, 232,
     22, 230, 221, 129, 172, 161, 43, 70, 57, 161, 120, 236, 108, 80, 12, 114]

/-- SHA-256 on the two strings an audit of one version 2 entry hashes. -/
@[reducible]
def recorded : Sha256 where
  digest bytes :=
    if bytes = asBytes config.genesisHashInput then genesisDigest
    else if bytes = envelope then envelopeDigest
    else Vector.replicate 32 0

/-- A version 2 entry, whose hash does not cover the signature. -/
def legacy (writerSignature : Option Bytes) : LedgerEntryRecord :=
  { @entry recorded 1 genesisText 1 with
    writerSignature := writerSignature
    hashVersion := entryHashVersionV2
    entryHash := "be17d448862660094ade368c26d935e816e6dd81aca12b4639a178ec6c500c72" }

def legacyTables (writerSignature : Option Bytes) : Tables where
  entries :=
    { rows := [legacy writerSignature]
      uniqueEntryId := List.nodup_singleton _
      uniqueTypePosition := List.nodup_singleton _
      uniqueIdempotencyKey := noKeys
      bounded := oneRow }
  outbox := .empty

/-- The genesis text is too short for an envelope. -/
theorem genesisFree (version : String) (input : CanonicalEntryHashInput) :
    canonicalEntryBytesForVersion version input ≠ some (asBytes config.genesisHashInput) := by
  have short : (asBytes config.genesisHashInput).length = 18 := by decide
  have headerV2 : (asBytes entryHashVersionV2).length = 24 := by decide
  have headerV3 : (asBytes entryHashVersionV3).length = 24 := by decide
  intro same
  unfold canonicalEntryBytesForVersion at same
  split_ifs at same
  · have lengths := congrArg List.length (Option.some.inj same)
    rw [canonicalEntryBytesV2, appendFields_eq, short] at lengths
    simp only [List.length_append, headerV2] at lengths
    omega
  · have lengths := congrArg List.length (Option.some.inj same)
    rw [canonicalEntryBytesV3, appendFields_eq, short] at lengths
    simp only [List.length_append, headerV3] at lengths
    omega

variable (writerSignature : Option Bytes)

theorem legacy_hashedBytes : (legacy writerSignature).hashedBytes = some envelope := rfl

theorem envelope_ne_genesis : envelope ≠ asBytes config.genesisHashInput := fun same =>
  genesisFree entryHashVersionV2 _ ((legacy_hashedBytes none).trans (congrArg some same))

theorem recorded_genesis :
    recorded.digest (asBytes config.genesisHashInput) = genesisDigest :=
  if_pos rfl

theorem recorded_envelope : recorded.digest envelope = envelopeDigest :=
  (if_neg envelope_ne_genesis).trans (if_pos rfl)

theorem legacy_audited :
    (legacyTables writerSignature).entries.audited "audit.event" = [legacy writerSignature] := by
  have chain : (legacyTables writerSignature).entries.chain "audit.event" =
      [legacy writerSignature] :=
    LedgerEntries.chain_of_ascending (by simp [legacyTables, legacy])
      (List.pairwise_singleton _ _)
  rw [LedgerEntries.audited, LedgerEntries.chainAbove, chain]
  rfl

theorem legacy_sound :
    letI := recorded
    Sound config.genesisHash (legacyTables writerSignature).entries "audit.event" := by
  let := recorded
  have genesis : config.genesisHash = genesisText := by
    rw [AppConfig.genesisHash, sha256Hex, recorded_genesis]
    decide
  have valid : (legacy writerSignature).HashValid := by
    have hex : sha256Hex envelope = (legacy writerSignature).entryHash := by
      rw [sha256Hex, recorded_envelope]
      exact show String.ofList (hexEncode envelopeDigest.toList) =
        "be17d448862660094ade368c26d935e816e6dd81aca12b4639a178ec6c500c72" by decide
    rw [LedgerEntryRecord.HashValid, LedgerEntryRecord.recomputed,
      canonicalEntryHashForVersion_eq_map, ← LedgerEntryRecord.hashedBytes, legacy_hashedBytes,
      Option.map_some, hex]
  refine ⟨?_, ?_⟩
  · rw [legacy_audited]
    exact ⟨genesis.symm, trivial⟩
  · rw [legacy_audited]
    exact List.forall_mem_singleton.mpr valid

theorem legacy_strings :
    auditedStrings config (legacyTables writerSignature).entries "audit.event" =
      {asBytes config.genesisHashInput, envelope} := by
  ext bytes
  simp [auditedStrings, legacy_audited, legacy_hashedBytes, eq_comm]

theorem recorded_injOn :
    Set.InjOn recorded.digest {asBytes config.genesisHashInput, envelope} := by
  have distinct : genesisDigest ≠ envelopeDigest := by decide
  rintro first (rfl | rfl) second (rfl | rfl) same
  · rfl
  · exact absurd (recorded_genesis.symm.trans (same.trans recorded_envelope)) distinct
  · exact absurd (recorded_genesis.symm.trans (same.symm.trans recorded_envelope)) distinct
  · rfl

end Sample

/-- Two audited contents may differ in a signature that version 2 does not bind. -/
theorem fullAudit_binds_legacy_prefix :
    letI := Sample.recorded
    List.Forall₂ SameBoundEntry
      ((Sample.legacyTables none).entries.auditedUpTo "audit.event" (Sample.legacy none))
      ((Sample.legacyTables (some [7])).entries.auditedUpTo "audit.event"
        (Sample.legacy (some [7]))) := by
  let := Sample.recorded
  have audit (signature : Option Bytes) := fullAudit_exists Sample.config
    (Sample.legacyTables signature) "audit.event"
  obtain ⟨_, first⟩ := audit none
  obtain ⟨_, second⟩ := audit (some [7])
  refine fullAudit_binds_prefix Sample.config (Sample.legacyTables none)
    (Sample.legacyTables (some [7])) "audit.event" ?_ Sample.genesisFree first second
    ((fullAudit_valid_iff first).mpr (Sample.legacy_sound none))
    ((fullAudit_valid_iff second).mpr (Sample.legacy_sound _)) ?_ ?_ ?_ ?_ rfl
  · rw [Sample.legacy_strings, Sample.legacy_strings, Set.union_self]
    exact Sample.recorded_injOn
  · exact LedgerEntries.mem_ofType.mpr ⟨List.mem_singleton_self _, rfl⟩
  · exact LedgerEntries.mem_ofType.mpr ⟨List.mem_singleton_self _, rfl⟩
  · decide
  · decide

end ImmutableLedger
