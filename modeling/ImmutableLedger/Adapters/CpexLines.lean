import ImmutableLedger.Adapters.CoveredContent
import ImmutableLedger.Adapters.Outcomes
import ImmutableLedger.Adapters.UntypedDetector
import ImmutableLedger.Json.Encodable
import ImmutableLedger.Json.Loads
import ImmutableLedger.Python.Tenths

/-! The lines that the CPEX adapter processes.

A line is JSON of any shape. The helpers that take fields from it raise where a value is not of the
type they expect, and only `json.loads` and the call of the client are guarded. What the adapter
prints on the way is left out, apart from the report of a written record, which is guarded too.
-/

set_option autoImplicit false

namespace ImmutableLedger.Cpex

open Python Json Adapters

variable {F : Type}

inductive RecordType where
  | decision
  | effect
  deriving DecidableEq

def RecordType.name : RecordType → Str
  | .decision => str "decision"
  | .effect => str "effect"

def legacyStreamPrefixMap : List (Str × RecordType) :=
  [(str "dec-", .decision), (str "eff-", .effect)]

def recordTypeKeys : List (Str × RecordType) :=
  [(str "aid.decision", .decision), (str "aid.effect", .effect), (str "cpex.decision", .decision),
    (str "cpex.effect", .effect)]

def streamStampKeys : List Str := [str "aid.stream", str "cpex.stream"]

/-- The first of the prefixes that a stream has. -/
def legacyRecordType (streamId : Value F) : List (Str × RecordType) → Except Exn (Option RecordType)
  | [] => .ok none
  | (front, recordType) :: rest => do
    let found ← streamId.startsWith front
    if found then .ok (some recordType) else legacyRecordType streamId rest

/-- The type of a record by a key of its `unmapped`, if that is an object. -/
def unmappedRecordType (unmapped : Value F) : Option RecordType :=
  (recordTypeKeys.find? fun entry => entry.1 ∈ unmapped.keys).map (·.2)

def detectRecordType (event : Value F) : Except Exn (Option RecordType) := do
  let unmapped ← event.get (str "unmapped") .none
  match unmappedRecordType unmapped with
  | some recordType => .ok (some recordType)
  | none => do
    let streamId ← event.get (str "stream_id") (.str [])
    legacyRecordType streamId legacyStreamPrefixMap

/-- The first object under one of the keys. -/
def nestedStamps (unmapped : Value F) : List Str → Except Exn (Option (Value F))
  | [] => .ok none
  | key :: rest => do
    let stamps ← unmapped.get key .none
    if stamps.isDict then .ok (some stamps) else nestedStamps unmapped rest

def extractStreamStamps (event : Value F) : Except Exn (Untyped.Stamps F) := do
  let unmapped ← event.get (str "unmapped") (.dict [])
  let nested ← nestedStamps unmapped streamStampKeys
  let stamps := nested.getD event
  let epoch ← stamps.get (str "epoch") .none
  let streamId ← stamps.get (str "stream_id") (.str [])
  let streamSeq ← stamps.get (str "stream_seq") .none
  let emissionSeq ← stamps.get (str "emission_seq") .none
  .ok { epoch, streamId, streamSeq, emissionSeq }

/-- `event.get(field, {}).get(key, otherwise)` -/
def extract (event : Value F) (field key : Str) (otherwise : Value F) : Except Exn (Value F) := do
  let nested ← event.get field (.dict [])
  nested.get key otherwise

def extractCorrelationId (event : Value F) : Except Exn (Value F) :=
  extract event (str "metadata") (str "correlation_uid") (.str [])

def extractIdempotencyKey (event : Value F) : Except Exn (Value F) :=
  extract event (str "metadata") (str "uid") (.str [])

def extractSignerKeyReference (event : Value F) : Except Exn (Value F) :=
  extract event (str "unmapped") (str "signature_key_id") (.str [])

/-- The arguments of a write. -/
structure Submission (F : Type) where
  entryType : Str
  agentId : Value F
  content : Bytes
  contentType : Str
  sourceId : Str
  correlationId : Value F
  idempotencyKey : Value F
  inputHash : String
  writerSignature : Bytes
  signerKeyReference : Value F

/-- The position in the chain that a call yields, or what it raises. -/
structure Client (F : Type) where
  write : Submission F → Except Exn Int
  issueReceipt : Submission F → Except Exn Int

/-- What can become of a line. -/
inductive Outcome where
  | written
  | parseErrors
  | writeErrors
  | skipped
  deriving DecidableEq

structure Stats where
  count : Outcome → Nat
  gapsDetected : Nat

def Stats.new : Stats := ⟨fun _ => 0, 0⟩

def Stats.increase (stats : Stats) (outcome : Outcome) : Stats :=
  { stats with count := Adapters.increase stats.count outcome }

section

variable [Interpreter F]

def extractAgentId (event : Value F) : Except Exn (Value F) := do
  let uid ← extract event (str "ai_agent") (str "uid") (.str [])
  if uid.truthy then .ok uid else event.get (str "agent_id") (.str (str "unknown"))

/-- A signature that cannot be decoded is left out. -/
def extractWriterSignature (b64decode : Value F → Except Exn Bytes) (event : Value F) :
    Except Exn Bytes := do
  let encoded ← extract event (str "unmapped") (str "signature_b64") (.str [])
  if encoded.truthy then
    match b64decode encoded with
    | .ok signature => .ok signature
    | .error _ => .ok []
  else .ok []

def submission [Sha256] (b64decode : Value F → Except Exn Bytes) (recordType : RecordType)
    (event : Value F) : Except Exn (Submission F) := do
  let agentId ← extractAgentId event
  let correlationId ← extractCorrelationId event
  let idempotencyKey ← extractIdempotencyKey event
  let writerSignature ← extractWriterSignature b64decode event
  let signerKeyReference ← extractSignerKeyReference event
  let (content, inputHash) ← canonicalizeContent event
  .ok
    { entryType := str "cpex." ++ recordType.name
      agentId
      content
      contentType := str "application/ocsf+json"
      sourceId := str "cpex-audit-seam"
      correlationId
      idempotencyKey
      inputHash
      writerSignature
      signerKeyReference }

/-- The gaps that a record shows. A record without a stream or a number is not checked. -/
def track (detector : Untyped.GapDetector F) (stamps : Untyped.Stamps F) :
    Except Exn (List Str × Untyped.GapDetector F) :=
  if stamps.streamId.truthy && !stamps.streamSeq.isNone then do
    let (gaps, checked) ← detector.check stamps
    .ok (gaps, checked.popNotes.2)
  else .ok ([], detector)

def Client.call (client : Client F) (writeOnly : Bool) (args : Submission F) : Except Exn Int :=
  if writeOnly then client.write args else client.issueReceipt args

/-- A record that is written is counted before it is reported, and its report raises where the agent
cannot be padded to a width. -/
def submit (client : Client F) (writeOnly : Bool) (args : Submission F) (stats : Stats) : Stats :=
  match client.call writeOnly args with
  | .error _ => stats.increase .writeErrors
  | .ok _ =>
    let written := stats.increase .written
    if args.agentId.formattable then written else written.increase .writeErrors

def processLine [Sha256] (json : Loads F) (b64decode : Value F → Except Exn Bytes)
    (client : Client F) (writeOnly : Bool) (line : Str) (stats : Stats) (detector : Untyped.GapDetector F) :
    Except Exn (Stats × Untyped.GapDetector F) :=
  if line.strip = [] then .ok (stats, detector)
  else
    match json.loads line.strip with
    | .decodeError => .ok (stats.increase .parseErrors, detector)
    | .raises exception => .error exception
    | .value event => do
      match ← detectRecordType event with
      | none => .ok (stats.increase .skipped, detector)
      | some recordType => do
        let stamps ← extractStreamStamps event
        let (gaps, detector) ← track detector stamps
        let args ← submission b64decode recordType event
        .ok (submit client writeOnly args
          { stats with gapsDetected := stats.gapsDetected + gaps.length }, detector)

/-- The lines of a file one after the other, each with the client as it behaves then. -/
def processLines [Sha256] (json : Loads F) (b64decode : Value F → Except Exn Bytes)
    (writeOnly : Bool) :
    List (Str × Client F) → Stats → Untyped.GapDetector F → Except Exn (Stats × Untyped.GapDetector F)
  | [], stats, detector => .ok (stats, detector)
  | (line, client) :: rest, stats, detector => do
    let (stats, detector) ← processLine json b64decode client writeOnly line stats detector
    processLines json b64decode writeOnly rest stats detector

/-! What the helpers need. -/

omit [Interpreter F] in
theorem extract_ok {event : Dict (Value F)} {field key : Str} {otherwise : Value F} :
    (∃ found, extract (.dict event) field key otherwise = .ok found) ↔ ObjectAt field event := by
  rw [extract, get_dict, exists_bind_ok, objectAt_iff]
  constructor
  · rintro ⟨nested, same, found⟩
    exact Except.ok.inj same ▸ get_ok.mp found
  · intro object
    exact ⟨_, rfl, get_ok.mpr object⟩

theorem extractAgentId_ok {event : Dict (Value F)} :
    (∃ agentId, extractAgentId (.dict event) = .ok agentId) ↔ ObjectAt (str "ai_agent") event := by
  rw [extractAgentId, exists_bind_ok]
  constructor
  · rintro ⟨uid, found, -⟩
    exact extract_ok.mp ⟨uid, found⟩
  · intro object
    obtain ⟨uid, found⟩ := (@extract_ok F event (str "ai_agent") (str "uid") (.str [])).mpr object
    refine ⟨uid, found, ?_⟩
    split
    · exact ⟨_, rfl⟩
    · exact ⟨_, rfl⟩

theorem extractWriterSignature_ok {b64decode : Value F → Except Exn Bytes} {event : Dict (Value F)} :
    (∃ signature, extractWriterSignature b64decode (.dict event) = .ok signature) ↔
      ObjectAt (str "unmapped") event := by
  rw [extractWriterSignature, exists_bind_ok]
  constructor
  · rintro ⟨encoded, found, -⟩
    exact extract_ok.mp ⟨encoded, found⟩
  · intro object
    obtain ⟨encoded, found⟩ :=
      (@extract_ok F event (str "unmapped") (str "signature_b64") (.str [])).mpr object
    refine ⟨encoded, found, ?_⟩
    split
    · split
      · exact ⟨_, rfl⟩
      · exact ⟨_, rfl⟩
    · exact ⟨_, rfl⟩

theorem canonicalizeContent_exists [Sha256] {event : Dict (Value F)}
    (distinct : (Dict.keys event).Nodup) :
    (∃ found, canonicalizeContent (.dict event) = .ok found) ↔
      (Value.dict event).Floatless ∧ ObjectAt (str "unmapped") event ∧
        (Value.dict (strip event)).Encodable := by
  simp only [canonicalizeContent_ok distinct]
  constructor
  · rintro ⟨found, floatless, object, encoded, -⟩
    have bytes : (canonical.write (.dict (strip event))).encode.isSome := by rw [encoded]; rfl
    exact ⟨floatless, object, (canonical_encode_isSome (strip_floatless floatless)).mp bytes⟩
  · rintro ⟨floatless, object, encodable⟩
    obtain ⟨bytes, encoded⟩ := Option.isSome_iff_exists.mp
      ((canonical_encode_isSome (strip_floatless floatless)).mpr encodable)
    exact ⟨(bytes, sha256Hex bytes), floatless, object, encoded, rfl⟩

theorem submission_ok [Sha256] {b64decode : Value F → Except Exn Bytes} {recordType : RecordType}
    {event : Dict (Value F)} (distinct : (Dict.keys event).Nodup) :
    (∃ args, submission b64decode recordType (.dict event) = .ok args) ↔
      ObjectAt (str "ai_agent") event ∧ ObjectAt (str "metadata") event ∧
        ObjectAt (str "unmapped") event ∧ (Value.dict event).Floatless ∧
        (Value.dict (strip event)).Encodable := by
  simp only [submission, exists_bind_ok]
  constructor
  · rintro ⟨agentId, agent, correlationId, correlation, -, -, -, -, -, -, found, canonical, -⟩
    obtain ⟨floatless, object, encodable⟩ := (canonicalizeContent_exists distinct).mp ⟨found, canonical⟩
    exact ⟨extractAgentId_ok.mp ⟨agentId, agent⟩, extract_ok.mp ⟨correlationId, correlation⟩, object,
      floatless, encodable⟩
  · rintro ⟨agent, metadata, object, floatless, encodable⟩
    obtain ⟨agentId, agent⟩ := extractAgentId_ok.mpr agent
    obtain ⟨correlationId, correlation⟩ := extract_ok.mpr metadata
    obtain ⟨idempotencyKey, idempotency⟩ := extract_ok.mpr metadata
    obtain ⟨signature, signed⟩ := (@extractWriterSignature_ok F _ b64decode event).mpr object
    obtain ⟨reference, signer⟩ := extract_ok.mpr object
    obtain ⟨found, canonical⟩ := (canonicalizeContent_exists distinct).mpr ⟨floatless, object, encodable⟩
    exact ⟨agentId, agent, correlationId, correlation, idempotencyKey, idempotency, signature, signed,
      reference, signer, found, canonical, _, rfl⟩

/-- What the adapter needs of an event that is a record. -/
structure Recordable [Sha256] (b64decode : Value F → Except Exn Bytes) (client : Client F)
    (writeOnly : Bool) (detector : Untyped.GapDetector F) (recordType : RecordType)
    (event : Dict (Value F)) : Prop where
  aiAgent : ObjectAt (str "ai_agent") event
  metadata : ObjectAt (str "metadata") event
  unmapped : ObjectAt (str "unmapped") event
  floatless : (Value.dict event).Floatless
  encodable : (Value.dict (strip event)).Encodable
  /-- Stamps that are checked are of types that can be. -/
  stampable : ∀ stamps, extractStreamStamps (.dict event) = .ok stamps → stamps.streamId.truthy →
    stamps.streamSeq.isNone = false → detector.Stampable stamps
  /-- The name of the agent of a record that is written can be padded. -/
  reported : ∀ args, submission b64decode recordType (.dict event) = .ok args →
    args.agentId.formattable ∨ ∃ exception, client.call writeOnly args = .error exception

/-- A detector stays reachable whether or not it was asked. -/
theorem track_reachable {detector next : Untyped.GapDetector F} {stamps : Untyped.Stamps F}
    {gaps : List Str} (reachable : detector.Reachable)
    (tracked : track detector stamps = .ok (gaps, next)) : next.Reachable := by
  rw [track] at tracked
  split at tracked
  · obtain ⟨⟨alerts, checked⟩, found, same⟩ := bind_ok.mp tracked
    cases same
    exact .popNotes (.check reachable found)
  · cases tracked
    exact reachable

end

/-- A client that always succeeds. -/
def obliging : Client Tenths := ⟨fun _ => .ok 1, fun _ => .ok 1⟩

end ImmutableLedger.Cpex
