import ImmutableLedger.Data.Identity
import ImmutableLedger.Encoding.Fields

/-! The canonical envelope of an entry and its hash.

SHA-256 comes from outside the repository, so it enters as `Sha256` and nothing here
depends on which function it is. What the envelope binds is a fact about the bytes that are
hashed and is stated about them.
-/

set_option autoImplicit false

namespace ImmutableLedger

open Encoding

class Sha256 where
  digest : Bytes → Vector UInt8 32

def sha256Hex [Sha256] (value : Bytes) : String :=
  String.ofList (hexEncode (Sha256.digest value).toList)

/-- Hexadecimal text loses nothing of a digest. -/
theorem sha256Hex_inj [Sha256] {first second : Bytes} :
    sha256Hex first = sha256Hex second ↔ Sha256.digest first = Sha256.digest second := by
  constructor
  · intro same
    exact Vector.toList_inj.mp (hexEncode_injective (String.ofList_injective same))
  · intro same
    rw [sha256Hex, sha256Hex, same]

theorem length_sha256Hex [Sha256] (value : Bytes) : (sha256Hex value).length = 64 := by
  simp [sha256Hex]

theorem sha256Hex_ne_empty [Sha256] (value : Bytes) : sha256Hex value ≠ "" := by
  intro empty
  have length := length_sha256Hex value
  rw [empty] at length
  exact absurd length (by decide)

def entryHashVersionV2 : String := "ARE_LEDGER_ENTRY_HASH_V2"

def entryHashVersionV3 : String := "ARE_LEDGER_ENTRY_HASH_V3"

def entryHashVersion : String := entryHashVersionV3

structure CanonicalEntryHashInput where
  entryId : Uuid
  entryType : String
  agentId : String
  content : Bytes
  contentType : String
  sourceId : String
  correlationId : Option String
  idempotencyKey : Option String
  inputHash : Option String
  writerSignature : Option Bytes
  signerKeyReference : Option String
  attestationReport : Option Bytes
  chainPosition : Int64
  writtenTsMs : Int64
  previousHash : String
  deriving DecidableEq

def appendField (bytes : Bytes) (name : String) (value : Bytes) : Bytes :=
  bytes ++ asBytes name ++ [colon] ++ decimalNat value.length ++ [colon] ++ value ++ [newline]

def appendFields (bytes : Bytes) (fields : List (String × Bytes)) : Bytes :=
  fields.foldl (fun written field => appendField written field.1 field.2) bytes

def canonicalFieldsV2 (input : CanonicalEntryHashInput) : List (String × Bytes) :=
  [("entry_id", asBytes input.entryId.toText),
   ("entry_type", asBytes input.entryType),
   ("agent_id", asBytes input.agentId),
   ("content", input.content),
   ("content_type", asBytes input.contentType),
   ("source_id", asBytes input.sourceId),
   ("correlation_id", asBytes (input.correlationId.getD "")),
   ("idempotency_key", asBytes (input.idempotencyKey.getD "")),
   ("input_hash", asBytes (input.inputHash.getD "")),
   ("chain_position", decimalInt input.chainPosition),
   ("written_ts_ms", decimalInt input.writtenTsMs),
   ("previous_hash", asBytes input.previousHash)]

def canonicalFieldsV3 (input : CanonicalEntryHashInput) : List (String × Bytes) :=
  [("hash_version", asBytes entryHashVersionV3),
   ("entry_id", asBytes input.entryId.toText),
   ("entry_type", asBytes input.entryType),
   ("agent_id", asBytes input.agentId),
   ("content", input.content),
   ("content_type", asBytes input.contentType),
   ("source_id", asBytes input.sourceId),
   ("correlation_id", asBytes (input.correlationId.getD "")),
   ("idempotency_key", asBytes (input.idempotencyKey.getD "")),
   ("input_hash", asBytes (input.inputHash.getD "")),
   ("writer_signature", input.writerSignature.getD []),
   ("signer_key_reference", asBytes (input.signerKeyReference.getD "")),
   ("attestation_report", input.attestationReport.getD []),
   ("chain_position", decimalInt input.chainPosition),
   ("written_ts_ms", decimalInt input.writtenTsMs),
   ("previous_hash", asBytes input.previousHash)]

def canonicalEntryBytesV2 (input : CanonicalEntryHashInput) : Bytes :=
  appendFields (asBytes entryHashVersionV2 ++ [newline]) (canonicalFieldsV2 input)

def canonicalEntryBytesV3 (input : CanonicalEntryHashInput) : Bytes :=
  appendFields (asBytes entryHashVersionV3 ++ [newline]) (canonicalFieldsV3 input)

def canonicalEntryHashV2 [Sha256] (input : CanonicalEntryHashInput) : String :=
  sha256Hex (canonicalEntryBytesV2 input)

def canonicalEntryHashV3 [Sha256] (input : CanonicalEntryHashInput) : String :=
  sha256Hex (canonicalEntryBytesV3 input)

/-- The bytes a version hashes, if the version is known. -/
def canonicalEntryBytesForVersion (version : String) (input : CanonicalEntryHashInput) :
    Option Bytes :=
  if version = entryHashVersionV2 then some (canonicalEntryBytesV2 input)
  else if version = entryHashVersionV3 then some (canonicalEntryBytesV3 input)
  else none

def canonicalEntryHashForVersion [Sha256] (version : String) (input : CanonicalEntryHashInput) :
    Option String :=
  if version = entryHashVersionV2 then some (canonicalEntryHashV2 input)
  else if version = entryHashVersionV3 then some (canonicalEntryHashV3 input)
  else none

theorem canonicalEntryHashForVersion_eq_map [Sha256] (version : String)
    (input : CanonicalEntryHashInput) :
    canonicalEntryHashForVersion version input =
      (canonicalEntryBytesForVersion version input).map sha256Hex := by
  unfold canonicalEntryHashForVersion canonicalEntryBytesForVersion
  split
  · rfl
  · split <;> rfl

/-- The version new entries are written under is always supported. -/
theorem canonicalEntryHash_supported [Sha256] (input : CanonicalEntryHashInput) :
    canonicalEntryHashForVersion entryHashVersion input = some (canonicalEntryHashV3 input) := by
  simp [canonicalEntryHashForVersion, entryHashVersion, entryHashVersionV2, entryHashVersionV3]

def canonicalEntryHash [Sha256] (input : CanonicalEntryHashInput) : String :=
  (canonicalEntryHashForVersion entryHashVersion input).get
    (by simp [canonicalEntryHash_supported])

theorem canonicalEntryHash_eq [Sha256] (input : CanonicalEntryHashInput) :
    canonicalEntryHashForVersion entryHashVersion input = some (canonicalEntryHash input) := by
  simp [canonicalEntryHash]

/-! What the bytes determine. -/

def envelopeFormat : Format UInt8 where
  mark := colon
  terminator := newline
  numeral := decimalNat
  numeral_injective := decimalNat_injective
  mark_notMem_numeral := colon_notMem_decimalNat

theorem appendFields_eq (bytes : Bytes) (fields : List (String × Bytes)) :
    appendFields bytes fields =
      bytes ++ envelopeFormat.fields (fields.map fun field => (asBytes field.1, field.2)) := by
  induction fields generalizing bytes with
  | nil => simp [appendFields]
  | cons field rest ih =>
    rw [appendFields, List.foldl_cons, ← appendFields, ih]
    simp [appendField, envelopeFormat, Format.field, Format.fields]

/-- Envelopes under one header with the same field names have the same fields. -/
theorem appendFields_inj {header : Bytes} {first second : List (String × Bytes)}
    (names : first.map Prod.fst = second.map Prod.fst)
    (same : appendFields header first = appendFields header second) : first = second := by
  rw [appendFields_eq, appendFields_eq, List.append_cancel_left_eq] at same
  have pairs := envelopeFormat.fields_inj
    (by simpa [Function.comp_def] using congrArg (List.map asBytes) names) same
  exact List.map_injective_iff.mpr
    (fun left right equal => by
      obtain ⟨name, value⟩ := Prod.mk.inj equal
      exact Prod.ext (asBytes_injective name) value) pairs

/-- Equality of the fields bound by version 2, an absent optional counting as an empty one. -/
structure SameEntryV2 (first second : CanonicalEntryHashInput) : Prop where
  entryId : first.entryId = second.entryId
  entryType : first.entryType = second.entryType
  agentId : first.agentId = second.agentId
  content : first.content = second.content
  contentType : first.contentType = second.contentType
  sourceId : first.sourceId = second.sourceId
  correlationId : first.correlationId.getD "" = second.correlationId.getD ""
  idempotencyKey : first.idempotencyKey.getD "" = second.idempotencyKey.getD ""
  inputHash : first.inputHash.getD "" = second.inputHash.getD ""
  chainPosition : first.chainPosition = second.chainPosition
  writtenTsMs : first.writtenTsMs = second.writtenTsMs
  previousHash : first.previousHash = second.previousHash

/-- Version 3 also binds the proof material. -/
structure SameEntryV3 (first second : CanonicalEntryHashInput) : Prop
    extends SameEntryV2 first second where
  writerSignature : first.writerSignature.getD [] = second.writerSignature.getD []
  signerKeyReference : first.signerKeyReference.getD "" = second.signerKeyReference.getD ""
  attestationReport : first.attestationReport.getD [] = second.attestationReport.getD []

theorem canonicalFieldsV2_names (first second : CanonicalEntryHashInput) :
    (canonicalFieldsV2 first).map Prod.fst = (canonicalFieldsV2 second).map Prod.fst := rfl

theorem canonicalFieldsV3_names (first second : CanonicalEntryHashInput) :
    (canonicalFieldsV3 first).map Prod.fst = (canonicalFieldsV3 second).map Prod.fst := rfl

theorem canonicalEntryBytesV2_eq_iff (first second : CanonicalEntryHashInput) :
    canonicalEntryBytesV2 first = canonicalEntryBytesV2 second ↔ SameEntryV2 first second := by
  constructor
  · intro same
    have fields := appendFields_inj (canonicalFieldsV2_names first second) same
    simp only [canonicalFieldsV2, List.cons.injEq, Prod.mk.injEq, true_and, and_true, asBytes_inj,
      decimalInt_inj] at fields
    obtain ⟨entryId, entryType, agentId, content, contentType, sourceId, correlationId,
      idempotencyKey, inputHash, chainPosition, writtenTsMs, previousHash⟩ := fields
    exact ⟨Uuid.toText_injective entryId, entryType, agentId, content, contentType, sourceId,
      correlationId, idempotencyKey, inputHash, chainPosition, writtenTsMs, previousHash⟩
  · intro same
    simp only [canonicalEntryBytesV2, canonicalFieldsV2, same.entryId, same.entryType, same.agentId,
      same.content, same.contentType, same.sourceId, same.correlationId, same.idempotencyKey,
      same.inputHash, same.chainPosition, same.writtenTsMs, same.previousHash]

theorem canonicalEntryBytesV3_eq_iff (first second : CanonicalEntryHashInput) :
    canonicalEntryBytesV3 first = canonicalEntryBytesV3 second ↔ SameEntryV3 first second := by
  constructor
  · intro same
    have fields := appendFields_inj (canonicalFieldsV3_names first second) same
    simp only [canonicalFieldsV3, List.cons.injEq, Prod.mk.injEq, true_and, and_true, asBytes_inj,
      decimalInt_inj] at fields
    obtain ⟨entryId, entryType, agentId, content, contentType, sourceId, correlationId,
      idempotencyKey, inputHash, writerSignature, signerKeyReference, attestationReport,
      chainPosition, writtenTsMs, previousHash⟩ := fields
    exact ⟨⟨Uuid.toText_injective entryId, entryType, agentId, content, contentType, sourceId,
      correlationId, idempotencyKey, inputHash, chainPosition, writtenTsMs, previousHash⟩,
      writerSignature, signerKeyReference, attestationReport⟩
  · intro same
    simp only [canonicalEntryBytesV3, canonicalFieldsV3, same.entryId, same.entryType, same.agentId,
      same.content, same.contentType, same.sourceId, same.correlationId, same.idempotencyKey,
      same.inputHash, same.writerSignature, same.signerKeyReference, same.attestationReport,
      same.chainPosition, same.writtenTsMs, same.previousHash]

/-- The headers differ in their last byte, so no field can make up for them. -/
theorem canonicalEntryBytesV2_ne_V3 (first second : CanonicalEntryHashInput) :
    canonicalEntryBytesV2 first ≠ canonicalEntryBytesV3 second := by
  intro same
  rw [canonicalEntryBytesV2, canonicalEntryBytesV3, appendFields_eq, appendFields_eq,
    List.append_assoc, List.append_assoc] at same
  obtain ⟨header, -⟩ := List.append_inj same (by decide)
  exact absurd (asBytes_injective header) (by decide)

/-- The canonical envelope can be read back in one way only. -/
theorem canonicalEnvelope_uniquely_decodable (first second : CanonicalEntryHashInput) :
    (canonicalEntryBytesV3 first = canonicalEntryBytesV3 second ↔ SameEntryV3 first second) ∧
      (canonicalEntryBytesV2 first = canonicalEntryBytesV2 second ↔ SameEntryV2 first second) ∧
      canonicalEntryBytesV2 first ≠ canonicalEntryBytesV3 second :=
  ⟨canonicalEntryBytesV3_eq_iff first second, canonicalEntryBytesV2_eq_iff first second,
    canonicalEntryBytesV2_ne_V3 first second⟩

end ImmutableLedger
