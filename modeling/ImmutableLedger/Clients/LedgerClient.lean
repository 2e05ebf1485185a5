import ImmutableLedger.Grpc.Messages
import ImmutableLedger.Python.Values

/-! The messages that the Python client sends. -/

set_option autoImplicit false

namespace ImmutableLedger

/-- `text.encode("utf-8")` -/
def Python.Str.encoded (text : Str) : Except Exn Bytes :=
  match text.encode with
  | some bytes => .ok bytes
  | none => .error .unicodeEncodeError

theorem Python.Str.encoded_ok {text : Str} {bytes : Bytes} :
    text.encoded = .ok bytes ↔ text.encode = some bytes := by
  rw [encoded]
  cases text.encode <;> simp

theorem Python.Str.exists_encoded {text : Str} :
    (∃ bytes, text.encoded = .ok bytes) ↔ text.hasSurrogate = false := by
  have plain := @Str.symbols_isSome text
  rw [encoded, encode]
  cases found : text.symbols <;> simp_all

namespace LedgerClient

open Python

/-- The arguments of `write` and of `issue_receipt`. -/
structure Args where
  entryType : Str
  agentId : Str
  content : Str
  contentType : Str
  sourceId : Str
  correlationId : Str
  idempotencyKey : Str
  inputHash : Str
  writerSignature : Bytes
  signerKeyReference : Str
  attestationReport : Bytes

/-- A field of a message, which no text with a surrogate can be. -/
def field (text : Str) : Except Exn String :=
  match text.symbols with
  | some symbols => .ok (String.ofList symbols)
  | none => .error .unicodeEncodeError

/-- The message of a write or of a receipt. Without a key the client makes one up. -/
def writeEntryRequest (uuid4 : Str) (args : Args) : Except Exn Grpc.WriteEntryRequest := do
  let content ← args.content.encoded
  let idempotencyKey := if args.idempotencyKey = [] then uuid4 else args.idempotencyKey
  let entryType ← field args.entryType
  let agentId ← field args.agentId
  let contentType ← field args.contentType
  let sourceId ← field args.sourceId
  let correlationId ← field args.correlationId
  let idempotencyKey ← field idempotencyKey
  let inputHash ← field args.inputHash
  let signerKeyReference ← field args.signerKeyReference
  .ok
    { entryType
      agentId
      content
      contentType
      sourceId
      correlationId
      idempotencyKey
      inputHash
      writerSignature := args.writerSignature
      signerKeyReference
      attestationReport := args.attestationReport }

theorem field_ok {text : Str} {sent : String} : field text = .ok sent ↔ text = str sent := by
  rw [field]
  cases found : text.symbols with
  | none =>
    simp only [reduceCtorEq, false_iff]
    rintro rfl
    rw [str, Str.symbols_map_char] at found
    cases found
  | some symbols =>
    cases Str.symbols_eq_some.mp found
    simp only [Except.ok.injEq, str]
    constructor
    · rintro rfl
      rw [String.toList_ofList]
    · intro same
      have symbols : symbols = sent.toList := by simpa using congrArg Str.symbols same
      rw [symbols, String.ofList_toList]

theorem exists_field {text : Str} : (∃ sent, field text = .ok sent) ↔ text.hasSurrogate = false := by
  have plain := @Str.symbols_isSome text
  rw [field]
  cases found : text.symbols <;> simp_all

/-- The texts of a write, besides its key. -/
def Args.texts (args : Args) : List Str :=
  [args.content, args.entryType, args.agentId, args.contentType, args.sourceId, args.correlationId,
    args.inputHash, args.signerKeyReference]

theorem exists_writeEntryRequest {uuid4 : Str} {args : Args} (keyed : args.idempotencyKey ≠ []) :
    (∃ request, writeEntryRequest uuid4 args = .ok request) ↔
      args.idempotencyKey.hasSurrogate = false ∧ ∀ text ∈ args.texts, text.hasSurrogate = false := by
  simp only [writeEntryRequest, if_neg keyed, exists_bind_ok, Except.ok.injEq, exists_eq', and_true,
    exists_and_right, exists_field, Str.exists_encoded, Args.texts, List.forall_mem_cons]
  constructor
  · rintro ⟨content, entryType, agentId, contentType, sourceId, correlationId, key, inputHash, signer⟩
    exact ⟨key, content, entryType, agentId, contentType, sourceId, correlationId, inputHash, signer,
      fun _ none => absurd none List.not_mem_nil⟩
  · rintro ⟨key, content, entryType, agentId, contentType, sourceId, correlationId, inputHash, signer, -⟩
    exact ⟨content, entryType, agentId, contentType, sourceId, correlationId, key, inputHash, signer⟩

/-- What a message says of the arguments. -/
structure Carried (args : Args) (message : Grpc.WriteEntryRequest) : Prop where
  content : args.content.encode = some message.content
  entryType : args.entryType = str message.entryType
  agentId : args.agentId = str message.agentId
  contentType : args.contentType = str message.contentType
  sourceId : args.sourceId = str message.sourceId
  idempotencyKey : args.idempotencyKey = str message.idempotencyKey

theorem writeEntryRequest_ok {uuid4 : Str} {args : Args} {message : Grpc.WriteEntryRequest}
    (keyed : args.idempotencyKey ≠ []) (made : writeEntryRequest uuid4 args = .ok message) :
    Carried args message := by
  simp only [writeEntryRequest, if_neg keyed, bind_ok, Str.encoded_ok, field_ok] at made
  obtain ⟨content, encoded, entryType, named, agentId, agent, contentType, typed, sourceId, source,
    correlationId, -, key, same, inputHash, -, signer, -, ⟨⟩⟩ := made
  exact ⟨encoded, named, agent, typed, source, same⟩

/-- A field of a text that is not empty is not empty. -/
theorem ne_empty {text : Str} {sent : String} (same : text = str sent) (nonempty : text ≠ []) :
    sent ≠ "" := by
  rintro rfl
  exact nonempty same

/-- With a key of its own a message does not depend on the one that the client could make up. -/
theorem writeEntryRequest_keyed {first second : Str} {args : Args} (keyed : args.idempotencyKey ≠ []) :
    writeEntryRequest first args = writeEntryRequest second args := by
  simp only [writeEntryRequest, if_neg keyed]

end LedgerClient

end ImmutableLedger
