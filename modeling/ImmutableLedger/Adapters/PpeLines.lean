import ImmutableLedger.Adapters.Outcomes
import ImmutableLedger.Adapters.PpeContract
import ImmutableLedger.Json.Floats
import ImmutableLedger.Json.Loads

/-! The lines that the PPE adapter processes.

An event that the contract accepts is mapped to an OCSF document, and the bytes of the document are
submitted. The mapping runs unchecked: it lowers the input hash, which the contract looked at as
text only, and encodes texts that may have no encoding.
-/

set_option autoImplicit false

namespace ImmutableLedger.PraxisPpe

open Python Json Adapters

variable {F : Type}

/-- A field under its name in the document, if the event has it. -/
def carried (event : Dict (Value F)) (name field : Str) : Dict (Value F) :=
  match event.lookup field with
  | some value => [(name, value)]
  | none => []

def unmapped (event : Dict (Value F)) (inputHash : Str) : Dict (Value F) :=
  [(str "praxis.ppe.schema_version", item event (str "schema_version")),
    (str "praxis.ppe.decision", item event (str "decision")),
    (str "praxis.ppe.policy_id", item event (str "policy_id")),
    (str "praxis.ppe.policy_version", item event (str "policy_version")),
    (str "praxis.ppe.resource", item event (str "resource")),
    (str "praxis.ppe.reason_code", item event (str "reason_code")),
    (str "praxis.ppe.input_hash", .str inputHash)] ++
  carried event (str "praxis.ppe.duration_ms") (str "duration_ms") ++
  carried event (str "praxis.ppe.transform_id") (str "transform_id")

def document (event : Dict (Value F)) (inputHash : Str) : Dict (Value F) :=
  [(str "class_uid", .int 6003),
    (str "class_name", .str (str "AI Operation")),
    (str "activity_name", .str (str "Policy Decision")),
    (str "time", item event (str "occurred_at")),
    (str "metadata", .dict
      [(str "uid", item event (str "event_id")),
        (str "correlation_uid", item event (str "trace_id")),
        (str "version", .str (str "1.0.0"))]),
    (str "ai_agent", .dict [(str "uid", item event (str "subject_id"))]),
    (str "unmapped", .dict (unmapped event inputHash))]

/-- `value.lower()` -/
def lowered (library : Library) : Value F → Except Refusal Str
  | .str text => .ok (library.lower text)
  | _ => .error (.raises .attributeError)

structure Fields (F : Type) where
  entryType : Str
  agentId : Value F
  content : Bytes
  contentType : Str
  sourceId : Str
  correlationId : Value F
  idempotencyKey : Value F
  inputHash : Str

/-- What can become of a line. -/
inductive Outcome where
  | written
  | parseErrors
  | contractErrors
  | writeErrors
  deriving DecidableEq

abbrev Stats := Outcome → Nat

/-- The receipt of a line, if there is one, the counters after it and the calls of the client. -/
structure Processed (F : Type) where
  receipt : Option Int
  stats : Stats
  calls : List (Fields F)

section

variable [Interpreter F]

def mapToOcsf (library : Library) (event : Dict (Value F)) : Except Refusal (Dict (Value F)) := do
  validateEvent library (.dict event)
  let inputHash ← lowered library (item event (str "input_hash"))
  .ok (document event inputHash)

def canonicalizeOcsf (ocsfEvent : Dict (Value F)) : Except Refusal Bytes :=
  match (canonical.write (.dict ocsfEvent)).encode with
  | some bytes => .ok bytes
  | none => .error (.raises .unicodeEncodeError)

def ledgerFields (library : Library) (sourceId : Str) : Value F → Except Refusal (Fields F)
  | .dict event => do
    let ocsfEvent ← mapToOcsf library event
    let content ← canonicalizeOcsf ocsfEvent
    let inputHash ← lowered library (item event (str "input_hash"))
    .ok
      { entryType := str "praxis.ppe.policy." ++ (item event (str "decision")).text ++ str ".v1"
        agentId := item event (str "subject_id")
        content
        contentType := str "application/ocsf+json"
        sourceId
        correlationId := item event (str "trace_id")
        idempotencyKey := item event (str "event_id")
        inputHash }
  | event => do
    validateEvent library event
    .error (.raises .attributeError)

def processLine (json : Loads F) (library : Library) (sourceId : Str)
    (issueReceipt : Fields F → Except Exn Int) (line : Str) (stats : Stats) :
    Except Exn (Processed F) :=
  if line.strip = [] then .ok ⟨none, stats, []⟩
  else
    match json.loads line.strip with
    | .decodeError => .ok ⟨none, increase stats .parseErrors, []⟩
    | .raises exception => .error exception
    | .value event =>
      match ledgerFields library sourceId event with
      | .error (.contractError _) => .ok ⟨none, increase stats .contractErrors, []⟩
      | .error (.raises exception) => .error exception
      | .ok fields =>
        match issueReceipt fields with
        | .error _ => .ok ⟨none, increase stats .writeErrors, [fields]⟩
        | .ok position => .ok ⟨some position, increase stats .written, [fields]⟩

/-! The texts of an event and of its document. -/

omit [Interpreter F] in
theorem item_member {event : Dict (Value F)} (distinct : (Dict.keys event).Nodup)
    {member : Str × Value F} (found : member ∈ event) : item event member.1 = member.2 := by
  rw [item, Dict.lookup_member distinct found, Option.getD_some]

omit [Interpreter F] in
theorem scalar_encodable {value : Value F} (parts : value.parts = [value]) (texts : value.texts = []) :
    value.Encodable := by
  intro part found text held
  rw [parts] at found
  rw [List.mem_singleton.mp found, texts] at held
  exact absurd held List.not_mem_nil

omit [Interpreter F] in
theorem item_encodable {event : Dict (Value F)}
    (encodable : ∀ member ∈ event, member.2.Encodable) (field : Str) :
    (item event field).Encodable := by
  rw [item]
  cases held : event.lookup field with
  | none => exact scalar_encodable rfl rfl
  | some value =>
    obtain ⟨front, rest, same, -⟩ := List.lookup_eq_some_iff.mp held
    exact encodable (field, value) (by rw [same]; simp)

/-- The names of the contract are plain. -/
theorem names_plain : ∀ name ∈ requiredFields ++ optionalFields, name.hasSurrogate = false := by
  decide

omit [Interpreter F] in
theorem event_encodable {event : Dict (Value F)} (distinct : (Dict.keys event).Nodup)
    (known : ∀ key ∈ Dict.keys event, key ∈ requiredFields ++ optionalFields) :
    (Value.dict event).Encodable ↔
      ∀ field ∈ requiredFields ++ optionalFields, (item event field).Encodable := by
  rw [Value.encodable_dict]
  constructor
  · intro all field listed
    exact item_encodable (fun member found => (all member found).2) field
  · intro all member found
    have listed := known member.1 (List.mem_map_of_mem found)
    exact ⟨names_plain member.1 listed, item_member distinct found ▸ all member.1 listed⟩

omit [Interpreter F] in
theorem carried_encodable {event : Dict (Value F)} {name field : Str} (plain : name.hasSurrogate = false) :
    (∀ member ∈ carried event name field, member.1.hasSurrogate = false ∧ member.2.Encodable) ↔
      (item event field).Encodable := by
  rw [carried, item]
  cases event.lookup field with
  | none =>
    have none : (Value.none : Value F).Encodable := scalar_encodable rfl rfl
    simp [none]
  | some value => simp [plain]

omit [Interpreter F] in
theorem document_encodable {event : Dict (Value F)} {inputHash : Str} :
    (Value.dict (document event inputHash)).Encodable ↔ inputHash.hasSurrogate = false ∧
      ∀ field ∈ textFields ++ optionalFields, (item event field).Encodable := by
  have whole : (Value.int 6003 : Value F).Encodable := scalar_encodable rfl rfl
  have text (text : Str) : (Value.str text : Value F).Encodable ↔ text.hasSurrogate = false := by
    simp [Value.Encodable, Value.parts, Value.texts]
  have duration := @carried_encodable F event (str "praxis.ppe.duration_ms") (str "duration_ms")
    (Str.hasSurrogate_str _)
  have transformId := @carried_encodable F event (str "praxis.ppe.transform_id") (str "transform_id")
    (Str.hasSurrogate_str _)
  have fields : textFields ++ optionalFields = [str "schema_version", str "event_id", str "occurred_at",
      str "trace_id", str "decision", str "policy_id", str "policy_version", str "subject_id",
      str "resource", str "reason_code", str "duration_ms", str "transform_id"] := by decide
  rw [fields]
  simp only [document, unmapped, Value.encodable_dict, List.forall_mem_append, List.forall_mem_cons,
    duration, transformId, Str.hasSurrogate_str, text, whole, true_and, List.not_mem_nil,
    false_implies, implies_true, and_true]
  constructor
  · rintro ⟨time, ⟨eventId, trace⟩, subject, ⟨⟨version, decision, policy, policyVersion, resource,
      reason, hash⟩, duration⟩, transformId⟩
    exact ⟨hash, version, eventId, time, trace, decision, policy, policyVersion, subject, resource,
      reason, duration, transformId⟩
  · rintro ⟨hash, version, eventId, time, trace, decision, policy, policyVersion, subject, resource,
      reason, duration, transformId⟩
    exact ⟨time, ⟨eventId, trace⟩, subject, ⟨⟨version, decision, policy, policyVersion, resource,
      reason, hash⟩, duration⟩, transformId⟩

theorem isSha256_ascii {text : Str} (hash : isSha256 text) : ∀ point ∈ text, point.code < 128 := by
  have digits := (Bool.and_eq_true_iff.mp hash).2
  intro point found
  have digit := List.all_eq_true.mp digits point found
  cases point with
  | surrogate number => cases digit
  | char symbol =>
    apply Decidable.byContradiction
    intro large
    have code : ¬ symbol.toNat < 128 := large
    simp only [hexDigit, Char.isDigit, Char.le_def] at digit
    split at digit
    · next small => simp [UInt32.le_iff_toNat_le] at small; omega
    · split at digit
      · next small => simp [UInt32.le_iff_toNat_le] at small; omega
      · split at digit
        · next small => simp [UInt32.le_iff_toNat_le] at small; omega
        · cases digit

/-- A hash is ASCII, so it stays text that can be encoded in lower case. -/
theorem lower_plain (library : Library) {text : Str} (hash : isSha256 text) :
    (library.lower text).hasSurrogate = false ∧ text.hasSurrogate = false := by
  have ascii := isSha256_ascii hash
  have chars : ∀ point ∈ text, ∃ symbol, point = .char symbol := by
    intro point found
    cases point with
    | char symbol => exact ⟨symbol, rfl⟩
    | surrogate number =>
      have small := ascii _ found
      simp only [CodePoint.code] at small
      omega
  rw [library.lower_ascii text ascii]
  constructor
  · rw [Str.hasSurrogate, List.any_map, List.any_eq_false]
    intro point found
    obtain ⟨symbol, rfl⟩ := chars point found
    simp [lowerPoint]
  · rw [Str.hasSurrogate, List.any_eq_false]
    intro point found
    obtain ⟨symbol, rfl⟩ := chars point found
    simp

/-! What is submitted for an event. -/

/-- The arguments of the call for an event whose hash and document are known. -/
def submitted (library : Library) (sourceId : Str) (event : Dict (Value F)) (hash : Str)
    (content : Bytes) : Fields F where
  entryType := str "praxis.ppe.policy." ++ (item event (str "decision")).text ++ str ".v1"
  agentId := item event (str "subject_id")
  content := content
  contentType := str "application/ocsf+json"
  sourceId := sourceId
  correlationId := item event (str "trace_id")
  idempotencyKey := item event (str "event_id")
  inputHash := library.lower hash

omit [Interpreter F] in
theorem lowered_ok {library : Library} {value : Value F} {text : Str} :
    lowered library value = .ok text ↔ ∃ hash, value = .str hash ∧ text = library.lower hash := by
  cases value <;> simp [lowered, eq_comm]

omit [Interpreter F] in
theorem lowered_raises {library : Library} {value : Value F} :
    Raises (lowered library value) ↔ ¬ value.isStr := by
  cases value <;> simp [lowered, Raises, Value.isStr]

theorem canonicalizeOcsf_ok {ocsfEvent : Dict (Value F)} {content : Bytes} :
    canonicalizeOcsf ocsfEvent = .ok content ↔
      (canonical.write (.dict ocsfEvent)).encode = some content := by
  rw [canonicalizeOcsf]
  split <;> simp_all

theorem mapToOcsf_ok {library : Library} {event ocsfEvent : Dict (Value F)} :
    mapToOcsf library event = .ok ocsfEvent ↔ Accepted library event ∧
      ∃ hash, item event (str "input_hash") = .str hash ∧
        ocsfEvent = document event (library.lower hash) := by
  rw [mapToOcsf, unit_bind_ok, validateEvent, validateMembers_ok, bind_ok]
  apply and_congr_right
  intro accepted
  simp only [lowered_ok, Except.ok.injEq]
  constructor
  · rintro ⟨_, ⟨hash, held, rfl⟩, rfl⟩
    exact ⟨hash, held, rfl⟩
  · rintro ⟨hash, held, rfl⟩
    exact ⟨_, ⟨hash, held, rfl⟩, rfl⟩

theorem ledgerFields_ok {library : Library} {sourceId : Str} {event : Dict (Value F)}
    {fields : Fields F} :
    ledgerFields library sourceId (.dict event) = .ok fields ↔ Accepted library event ∧
      ∃ hash content, item event (str "input_hash") = .str hash ∧
        (canonical.write (.dict (document event (library.lower hash)))).encode = some content ∧
        fields = submitted library sourceId event hash content := by
  simp only [ledgerFields, bind_ok, mapToOcsf_ok, canonicalizeOcsf_ok, lowered_ok, Except.ok.injEq]
  constructor
  · rintro ⟨_, ⟨accepted, hash, held, rfl⟩, content, encoded, _, ⟨other, also, rfl⟩, rfl⟩
    cases held.symm.trans also
    exact ⟨accepted, hash, content, held, encoded, rfl⟩
  · rintro ⟨accepted, hash, content, held, encoded, rfl⟩
    exact ⟨_, ⟨accepted, hash, held, rfl⟩, content, encoded, _, ⟨hash, held, rfl⟩, rfl⟩

section

variable [FloatRepr F]

/-- The document of an accepted event has bytes exactly when the event has no surrogate. -/
theorem content_exists {library : Library} {event : Dict (Value F)}
    (distinct : (Dict.keys event).Nodup) (accepted : Accepted library event) {hash : Str}
    (held : item event (str "input_hash") = .str hash) :
    (∃ content, (canonical.write (.dict (document event (library.lower hash)))).encode = some content) ↔
      (Value.dict event).Encodable := by
  have shown : isSha256 hash := by
    have text := accepted.inputHash
    rw [held] at text
    exact text
  obtain ⟨lower, plain⟩ := lower_plain library shown
  have fields : requiredFields ++ optionalFields =
      textFields ++ str "input_hash" :: optionalFields := by decide
  have digest : (item event (str "input_hash")).Encodable := by
    rw [held]
    simpa [Value.Encodable, Value.parts, Value.texts] using plain
  rw [← Option.isSome_iff_exists, canonical_encodable, document_encodable,
    event_encodable distinct accepted.shaped.known, fields]
  simp only [lower, true_and, List.forall_mem_append, List.forall_mem_cons, digest]

theorem ledgerFields_exists {library : Library} {sourceId : Str} {event : Dict (Value F)}
    (distinct : (Dict.keys event).Nodup) :
    (∃ fields, ledgerFields library sourceId (.dict event) = .ok fields) ↔ Accepted library event ∧
      (item event (str "input_hash")).isStr ∧ (Value.dict event).Encodable := by
  simp only [ledgerFields_ok]
  constructor
  · rintro ⟨fields, accepted, hash, content, held, encoded, rfl⟩
    refine ⟨accepted, ?_, (content_exists distinct accepted held).mp ⟨content, encoded⟩⟩
    rw [held]
    rfl
  · rintro ⟨accepted, text, encodable⟩
    obtain ⟨hash, held⟩ : ∃ hash, item event (str "input_hash") = .str hash := by
      cases shape : item event (str "input_hash") <;> simp [shape, Value.isStr] at text ⊢
    obtain ⟨content, encoded⟩ := (content_exists distinct accepted held).mpr encodable
    exact ⟨_, accepted, hash, content, held, encoded, rfl⟩

omit [FloatRepr F] in
/-- Once an event is accepted no check is left that could refuse it. -/
theorem ledgerFields_accepted {library : Library} {sourceId : Str} {event : Dict (Value F)}
    (accepted : Accepted library event) :
    (∃ fields, ledgerFields library sourceId (.dict event) = .ok fields) ∨
      Raises (ledgerFields library sourceId (.dict event)) := by
  have valid : validateEvent library (.dict event) = .ok () := validateMembers_ok.mpr accepted
  rw [ledgerFields, mapToOcsf, valid]
  cases lower : lowered library (item event (str "input_hash")) with
  | error refusal =>
    have raised : Raises (lowered library (item event (str "input_hash"))) := by
      cases shape : item event (str "input_hash") <;> simp [shape, lowered, Raises] at lower ⊢
    obtain ⟨exception, same⟩ := raised
    cases lower.symm.trans same
    exact .inr ⟨exception, rfl⟩
  | ok hash =>
    cases bytes : canonicalizeOcsf (document event hash) with
    | ok content => exact .inl ⟨_, by simp [bind, Except.bind, bytes]; rfl⟩
    | error refusal =>
      have raised : Raises (canonicalizeOcsf (document event hash)) := by
        rw [canonicalizeOcsf] at bytes ⊢
        split at bytes
        · cases bytes
        · simp [Raises]
      obtain ⟨exception, same⟩ := raised
      exact .inr ⟨exception, by simp [bind, Except.bind, same]⟩

/-- What raises does so at the decision, at the input hash or at a surrogate. -/
theorem ledgerFields_raises {library : Library} {sourceId : Str} {event : Dict (Value F)}
    (distinct : (Dict.keys event).Nodup) :
    Raises (ledgerFields library sourceId (.dict event)) ↔
      (Shaped library event ∧ ¬ (item event (str "decision")).hashable) ∨
      (Accepted library event ∧
        ¬ ((item event (str "input_hash")).isStr ∧ (Value.dict event).Encodable)) := by
  by_cases accepted : Accepted library event
  · have valid := validateMembers_ok.mpr accepted
    have unraised : ¬ (Shaped library event ∧ ¬ (item event (str "decision")).hashable) := by
      rw [← validateMembers_raises, valid]
      simp [Raises]
    simp only [unraised, accepted, true_and, false_or]
    have yields := @ledgerFields_exists F _ _ library sourceId event distinct
    simp only [accepted, true_and] at yields
    rw [← yields]
    rcases @ledgerFields_accepted F _ library sourceId event accepted with ⟨fields, found⟩ | raised
    · simp [found, Raises]
    · refine iff_of_true raised ?_
      rintro ⟨fields, found⟩
      obtain ⟨exception, same⟩ := raised
      cases found.symm.trans same
  · simp only [accepted, false_and, or_false]
    rw [← validateMembers_raises, ledgerFields, mapToOcsf, validateEvent]
    cases refused : validateMembers library event with
    | ok => exact absurd (validateMembers_ok.mp refused) accepted
    | error refusal => simp [Raises, bind, Except.bind]

end

/-- The events that the adapter accepts or turns down by the contract. -/
structure Handled (library : Library) (event : Dict (Value F)) : Prop where
  decision : Shaped library event → (item event (str "decision")).hashable
  inputHash : Accepted library event → (item event (str "input_hash")).isStr
  encodable : Accepted library event → (Value.dict event).Encodable

theorem handled_iff [FloatRepr F] {library : Library} {sourceId : Str} {event : Dict (Value F)}
    (distinct : (Dict.keys event).Nodup) :
    Handled library event ↔ ¬ Raises (ledgerFields library sourceId (.dict event)) := by
  rw [ledgerFields_raises distinct]
  constructor
  · rintro ⟨decision, inputHash, encodable⟩ (⟨shaped, unhashable⟩ | ⟨accepted, failed⟩)
    · exact unhashable (decision shaped)
    · exact failed ⟨inputHash accepted, encodable accepted⟩
  · intro quiet
    refine ⟨fun shaped => ?_, fun accepted => ?_, fun accepted => ?_⟩
    · apply Decidable.byContradiction
      exact fun unhashable => quiet (.inl ⟨shaped, unhashable⟩)
    · apply Decidable.byContradiction
      exact fun other => quiet (.inr ⟨accepted, fun both => other both.1⟩)
    · apply Decidable.byContradiction
      exact fun other => quiet (.inr ⟨accepted, fun both => other both.2⟩)

/-- What is to become of every line. -/
def Settled (json : Loads F) (library : Library) (line : Str) (stats : Stats)
    (action : Except Exn (Processed F)) : Prop :=
  ∃ result, action = .ok result ∧
    (if line.strip = [] then result.stats = stats else CountsOne stats result.stats) ∧
    (result.calls ≠ [] ↔ line.strip ≠ [] ∧
      ∃ event, json.loads line.strip = .value event ∧ validateEvent library event = .ok ())

theorem processLine_settled [FloatRepr F] {json : Loads F} {library : Library} {sourceId : Str}
    {issueReceipt : Fields F → Except Exn Int} {line : Str} {stats : Stats}
    (parsed : ∀ exception, json.loads line.strip ≠ .raises exception) :
    Settled json library line stats (processLine json library sourceId issueReceipt line stats) ↔
      ∀ event, line.strip ≠ [] → json.loads line.strip = .value (.dict event) →
        Handled library event := by
  by_cases blank : line.strip = []
  · have same : processLine json library sourceId issueReceipt line stats = .ok ⟨none, stats, []⟩ :=
      if_pos blank
    simp [Settled, same, blank]
  rw [Settled, processLine, if_neg blank]
  simp only [if_neg blank]
  cases loaded : json.loads line.strip with
  | raises exception => exact absurd loaded (parsed exception)
  | decodeError => simp [increase_countsOne]
  | value event =>
    have valid : (line.strip ≠ [] ∧ ∃ other, (Loaded.value event : Loaded F) = .value other ∧
        validateEvent library other = .ok ()) ↔ validateEvent library event = .ok () := by
      simp [blank]
    simp only [valid]
    cases event with
    | dict members =>
      have handled := @handled_iff F _ _ library sourceId members (json.distinct loaded).keys
      have only : (∀ event, line.strip ≠ [] → (Loaded.value (.dict members) : Loaded F) =
          .value (.dict event) → Handled library event) ↔ Handled library members := by
        simp [blank]
      have accepted : validateEvent library (.dict members) = .ok () ↔ Accepted library members :=
        validateMembers_ok
      rw [only, handled, accepted]
      cases found : ledgerFields library sourceId (.dict members) with
      | ok fields =>
        have held := (ledgerFields_ok.mp found).1
        apply iff_of_true
        · dsimp only
          cases issueReceipt fields with
          | ok position =>
            exact ⟨⟨some position, _, [fields]⟩, rfl, increase_countsOne _, by simp [held]⟩
          | error exception =>
            exact ⟨⟨none, _, [fields]⟩, rfl, increase_countsOne _, by simp [held]⟩
        · simp [Raises]
      | error refusal =>
        cases refusal with
        | raises exception =>
          apply iff_of_false
          · rintro ⟨result, same, -⟩
            cases same
          · exact not_not_intro ⟨exception, rfl⟩
        | contractError message =>
          have refused : ¬ Accepted library members := by
            intro held
            rcases @ledgerFields_accepted F _ library sourceId members held with
              ⟨fields, same⟩ | ⟨exception, same⟩
            · cases found.symm.trans same
            · cases found.symm.trans same
          apply iff_of_true
          · exact ⟨⟨none, _, []⟩, rfl, increase_countsOne _, by simp [refused]⟩
          · simp [Raises]
    | _ => simp [ledgerFields, validateEvent, bind, Except.bind, increase_countsOne]

end

/-- A library that knows ASCII and one timestamp. -/
def asciiLibrary : Library where
  lower text := text.map lowerPoint
  lower_ascii _ _ := rfl
  fromisoformat text := if text = str "2026-09-17T14:00:00+00:00" then some true else none
  fieldOrder := textFields
  fieldOrder_perm := .refl _

def decided (decision : Value Tenths) : Dict (Value Tenths) :=
  [(str "decision", decision),
    (str "event_id", .str (str "e")),
    (str "input_hash", .str (List.replicate 64 (.char 'A'))),
    (str "occurred_at", .str (str "2026-09-17T14:00:00Z")),
    (str "policy_id", .str (str "p")),
    (str "policy_version", .str (str "1")),
    (str "reason_code", .str (str "ok")),
    (str "resource", .str (str "r")),
    (str "schema_version", .str schemaVersion),
    (str "subject_id", .str (str "s")),
    (str "trace_id", .str (str "t"))]

def decidedLine (decision : Value Tenths) : Str := canonical.write (.dict (decided decision))

theorem allowLine_settled :
    Settled Tenths.dialect.loads asciiLibrary (decidedLine (.str (str "allow"))) (fun _ => 0)
      (processLine Tenths.dialect.loads asciiLibrary (str "source") (fun _ => .ok 7)
        (decidedLine (.str (str "allow"))) fun _ => 0) := by
  have floatless : (Value.dict (decided (.str (str "allow")))).Floatless := fun number part => by
    simp [decided, Value.parts, Value.partsMembers] at part
  have loaded := Tenths.dialect.loads_canonical (by decide +kernel) floatless rfl
  have unblanked : (decidedLine (.str (str "allow"))).strip = decidedLine (.str (str "allow")) := by
    decide +kernel
  apply (processLine_settled (Tenths.dialect.loads_quiet _)).mpr
  intro event _ same
  rw [unblanked, decidedLine, loaded] at same
  cases same
  exact ⟨fun _ => rfl, fun _ => rfl, fun _ => by decide +kernel⟩

/-- A list cannot be looked up in a set. -/
theorem listLine_raises :
    ¬ Settled Tenths.dialect.loads asciiLibrary (decidedLine (.list [])) (fun _ => 0)
      (processLine Tenths.dialect.loads asciiLibrary (str "source") (fun _ => .ok 7)
        (decidedLine (.list [])) fun _ => 0) := by
  have floatless : (Value.dict (decided (.list []))).Floatless := fun number part => by
    simp [decided, Value.parts, Value.partsMembers, Value.partsItems] at part
  have loaded := Tenths.dialect.loads_canonical (by decide +kernel) floatless rfl
  have unblanked : (decidedLine (.list [])).strip = decidedLine (.list []) := by decide +kernel
  have shaped : Shaped asciiLibrary (decided (.list [])) :=
    ⟨by decide +kernel, by decide +kernel, by decide +kernel, rfl⟩
  have distinct : (Dict.keys (decided (.list []))).Nodup := by decide +kernel
  obtain ⟨exception, raised⟩ := (@ledgerFields_raises Tenths _ _ asciiLibrary (str "source") _
    distinct).mpr (.inl ⟨shaped, by decide⟩)
  rintro ⟨result, processed, -⟩
  rw [processLine, unblanked, if_neg (by decide +kernel), decidedLine, loaded] at processed
  simp only [raised] at processed
  cases processed

end ImmutableLedger.PraxisPpe
