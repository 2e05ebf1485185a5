import ImmutableLedger.Adapters.PpeLines

/-! What the content of a PPE entry preserves.

An event is read back from the bytes that are submitted for it, field by field, by a reader that
accepts JSON and nothing more.
-/

set_option autoImplicit false

namespace ImmutableLedger

open Python Json

variable {F : Type}

namespace Python.Value

/-- The value under a path of keys. -/
def under (value : Value F) : List Str → Option (Value F)
  | [] => some value
  | key :: rest =>
    match value with
    | .dict members => (members.lookup key).bind fun inner => inner.under rest
    | _ => Option.none

theorem parts_of_hashable {value : Value F} (scalar : value.hashable) : value.parts = [value] := by
  cases value <;> simp [hashable, parts] at scalar ⊢

theorem distinct_of_hashable {value : Value F} (scalar : value.hashable) : value.Distinct := by
  cases value with
  | list => cases scalar
  | dict => cases scalar
  | _ => exact alone rfl rfl

end Python.Value

namespace Json

theorem arranged_of_hashable {order : Option (Str → List Nat)} {value : Value F}
    (scalar : value.hashable) : arranged order value = value := by
  cases value with
  | list => cases scalar
  | dict => cases scalar
  | _ => rfl

/-- A path leads to the same value however members are ordered. -/
theorem under_arranged (order : Option (Str → List Nat)) {value : Value F} (distinct : value.Distinct)
    (path : List Str) : (arranged order value).under path = (value.under path).map (arranged order) := by
  induction path generalizing value with
  | nil => rfl
  | cons key rest ih =>
    cases value with
    | dict members =>
      have keys : (Dict.keys (arrange order members)).Nodup :=
        ((arrange_perm order members).map _).nodup_iff.mpr distinct.keys
      have found := Dict.lookup_perm keys (arrange_perm order members) key
      rw [arranged_dict, Value.under, Value.under, Dict.lookup_map, found]
      cases held : members.lookup key with
      | none => rfl
      | some inner =>
        have member := (Dict.lookup_eq_some distinct.keys).mp held
        exact ih (distinct.member member)
    | list items => rw [arranged_list]; rfl
    | _ => rfl

end Json

namespace PraxisPpe

/-- Where a field of the event is in the document. -/
def fieldPath (field : Str) : List Str :=
  if field = str "occurred_at" then [str "time"]
  else if field = str "event_id" then [str "metadata", str "uid"]
  else if field = str "trace_id" then [str "metadata", str "correlation_uid"]
  else if field = str "subject_id" then [str "ai_agent", str "uid"]
  else [str "unmapped", str "praxis.ppe." ++ field]

theorem document_text (event : Dict (Value F)) (inputHash : Str) : ∀ field ∈ textFields,
    (Value.dict (document event inputHash)).under (fieldPath field) = some (item event field) := by
  have fields : textFields = [str "schema_version", str "event_id", str "occurred_at", str "trace_id",
      str "decision", str "policy_id", str "policy_version", str "subject_id", str "resource",
      str "reason_code"] := by decide
  rw [fields]
  simp only [List.forall_mem_cons]
  exact ⟨rfl, rfl, rfl, rfl, rfl, rfl, rfl, rfl, rfl, rfl, fun _ none => absurd none List.not_mem_nil⟩

theorem document_optional (event : Dict (Value F)) (inputHash : Str) : ∀ field ∈ optionalFields,
    (Value.dict (document event inputHash)).under (fieldPath field) = event.lookup field := by
  have inner (field : Str) (other : (fieldPath field) = [str "unmapped", str "praxis.ppe." ++ field]) :
      (Value.dict (document event inputHash)).under (fieldPath field) =
        (unmapped event inputHash).lookup (str "praxis.ppe." ++ field) := by
    rw [other]
    show ((unmapped event inputHash).lookup _).bind (fun value => some value) = _
    rw [Option.bind_fun_some]
  simp only [optionalFields, List.forall_mem_cons]
  refine ⟨?_, ?_, fun _ none => absurd none List.not_mem_nil⟩
  · rw [inner _ rfl, unmapped, carried, carried]
    cases event.lookup (str "duration_ms") <;> cases event.lookup (str "transform_id") <;> rfl
  · rw [inner _ rfl, unmapped, carried, carried]
    cases event.lookup (str "duration_ms") <;> cases event.lookup (str "transform_id") <;> rfl

theorem document_hash (event : Dict (Value F)) (inputHash : Str) :
    (Value.dict (document event inputHash)).under (fieldPath (str "input_hash")) =
      some (.str inputHash) := rfl

section

variable [Interpreter F] {library : Library} {event : Dict (Value F)}

omit [Interpreter F] in
theorem lookup_item {field : Str} (present : field ∈ Dict.keys event) :
    event.lookup field = some (item event field) := by
  cases held : event.lookup field with
  | none => exact absurd present (Dict.lookup_eq_none.mp held)
  | some value => rw [item, held, Option.getD_some]

/-- No field of an accepted event that goes into the document is an array or an object. -/
theorem Accepted.hashable (accepted : Accepted library event) :
    ∀ field ∈ textFields ++ optionalFields, (item event field).hashable := by
  intro field listed
  rcases List.mem_append.mp listed with text | optional
  · obtain ⟨text, held, -⟩ := isText_iff.mp (accepted.texts field text)
    rw [held]
    rfl
  · simp only [optionalFields, List.mem_cons, List.not_mem_nil, or_false] at optional
    rw [item]
    rcases optional with rfl | rfl
    · cases held : event.lookup (str "duration_ms") with
      | none => rfl
      | some value =>
        rcases (accepted.duration value held).1 with ⟨number, rfl⟩ | ⟨number, rfl⟩ <;> rfl
    · cases held : event.lookup (str "transform_id") with
      | none => rfl
      | some value =>
        obtain ⟨text, rfl, -⟩ := isText_iff.mp (accepted.transformId value held)
        rfl

omit [Interpreter F] in
theorem mem_carried {name field : Str} {member : Str × Value F}
    (found : member ∈ carried event name field) : member = (name, item event field) := by
  rw [carried] at found
  rw [item]
  split at found
  · next value held =>
    rw [held]
    exact List.mem_singleton.mp found
  · exact absurd found List.not_mem_nil

omit [Interpreter F] in
/-- The values in a document, by the fields they come from. -/
theorem mem_unmapped {inputHash : Str} {member : Str × Value F}
    (found : member ∈ unmapped event inputHash) :
    member.2 = .str inputHash ∨ ∃ field ∈ textFields ++ optionalFields, member.2 = item event field := by
  rw [unmapped] at found
  rcases List.mem_append.mp found with found | found
  · rcases List.mem_append.mp found with found | found
    · simp only [List.mem_cons, List.not_mem_nil, or_false] at found
      rcases found with rfl | rfl | rfl | rfl | rfl | rfl | rfl
      · exact .inr ⟨str "schema_version", by decide, rfl⟩
      · exact .inr ⟨str "decision", by decide, rfl⟩
      · exact .inr ⟨str "policy_id", by decide, rfl⟩
      · exact .inr ⟨str "policy_version", by decide, rfl⟩
      · exact .inr ⟨str "resource", by decide, rfl⟩
      · exact .inr ⟨str "reason_code", by decide, rfl⟩
      · exact .inl rfl
    · rw [mem_carried found]
      exact .inr ⟨str "duration_ms", by decide, rfl⟩
  · rw [mem_carried found]
    exact .inr ⟨str "transform_id", by decide, rfl⟩

omit [Interpreter F] in
theorem carried_keys (name field : Str) : (Dict.keys (carried event name field)).Sublist [name] := by
  rw [carried]
  split
  · exact .refl _
  · exact List.nil_sublist _

omit [Interpreter F] in
/-- Whichever of the optional fields an event has, no two keys are equal. -/
theorem unmapped_keys (inputHash : Str) : (Dict.keys (unmapped event inputHash)).Nodup := by
  have names : (["praxis.ppe.schema_version", "praxis.ppe.decision", "praxis.ppe.policy_id",
      "praxis.ppe.policy_version", "praxis.ppe.resource", "praxis.ppe.reason_code",
      "praxis.ppe.input_hash"] ++ ["praxis.ppe.duration_ms"] ++ ["praxis.ppe.transform_id"]).Nodup := by
    decide
  have keys := names.map str_injective
  refine List.Sublist.nodup ?_ keys
  rw [unmapped, Dict.keys, List.map_append, List.map_append, List.map_append, List.map_append]
  exact ((List.Sublist.refl _).append (carried_keys _ _)).append (carried_keys _ _)

/-- No key occurs twice in a document. -/
theorem document_distinct (accepted : Accepted library event) (inputHash : Str) :
    (Value.dict (document event inputHash)).Distinct := by
  have field (field : Str) (listed : field ∈ textFields ++ optionalFields) :
      (item event field).Distinct := Value.distinct_of_hashable (accepted.hashable field listed)
  have scalar (value : Value F) (plain : value.hashable) : value.Distinct :=
    Value.distinct_of_hashable plain
  have inner : (Value.dict (unmapped event inputHash)).Distinct := by
    refine Value.distinct_dict.mpr ⟨unmapped_keys inputHash, fun member found => ?_⟩
    rcases mem_unmapped found with same | ⟨name, listed, same⟩
    · exact same ▸ scalar _ rfl
    · exact same ▸ field name listed
  have metadata : (Value.dict [(str "uid", item event (str "event_id")),
      (str "correlation_uid", item event (str "trace_id")),
      (str "version", .str (str "1.0.0"))]).Distinct := by
    rw [Value.distinct_dict]
    simp only [List.forall_mem_cons]
    exact ⟨of_decide_eq_true rfl, field _ (by decide), field _ (by decide), scalar _ rfl,
      fun _ none => absurd none List.not_mem_nil⟩
  have agent : (Value.dict [(str "uid", item event (str "subject_id"))]).Distinct := by
    rw [Value.distinct_dict]
    simp only [List.forall_mem_cons]
    exact ⟨of_decide_eq_true rfl, field _ (by decide), fun _ none => absurd none List.not_mem_nil⟩
  rw [document, Value.distinct_dict]
  simp only [List.forall_mem_cons]
  exact ⟨of_decide_eq_true rfl, scalar _ rfl, scalar _ rfl, scalar _ rfl, field _ (by decide), metadata,
    agent, inner, fun _ none => absurd none List.not_mem_nil⟩

/-- The duration of an event is a number, if it is a float. -/
def FiniteDuration (event : Dict (Value F)) : Prop :=
  ∀ number, event.lookup (str "duration_ms") = some (.float number) →
    Interpreter.nonFinite number = none

theorem field_float (accepted : Accepted library event) {field : Str}
    (listed : field ∈ textFields ++ optionalFields) {number : F}
    (part : .float number ∈ (item event field).parts) :
    event.lookup (str "duration_ms") = some (.float number) := by
  rw [Value.parts_of_hashable (accepted.hashable field listed), List.mem_singleton] at part
  rcases List.mem_append.mp listed with text | optional
  · obtain ⟨text, held, -⟩ := isText_iff.mp (accepted.texts field text)
    cases part.trans held
  · simp only [optionalFields, List.mem_cons, List.not_mem_nil, or_false] at optional
    rcases optional with rfl | rfl
    · cases held : event.lookup (str "duration_ms") with
      | none => rw [item, held] at part; cases part
      | some value => rw [item, held] at part; exact congrArg some part.symm
    · cases held : event.lookup (str "transform_id") with
      | none => rw [item, held] at part; cases part
      | some value =>
        obtain ⟨text, rfl, -⟩ := isText_iff.mp (accepted.transformId value held)
        rw [item, held] at part
        cases part

/-- The only float that a document can have is the duration. -/
theorem document_finite (accepted : Accepted library event) (inputHash : Str) :
    AllFinite (.dict (document event inputHash)) ↔ FiniteDuration event := by
  constructor
  · intro finite number held
    apply finite number
    have place : (str "praxis.ppe.duration_ms", .float number) ∈ unmapped event inputHash := by
      rw [unmapped, carried, held]
      simp
    have inner : .float number ∈ (Value.dict (unmapped event inputHash)).parts :=
      Value.mem_parts_dict.mpr (.inr ⟨_, place, Value.self_mem_parts _⟩)
    refine Value.mem_parts_dict.mpr (.inr ⟨(str "unmapped", _), ?_, inner⟩)
    simp [document]
  · intro finite
    have field (name : Str) (listed : name ∈ textFields ++ optionalFields) :
        AllFinite (item event name) := fun number part =>
      finite number (field_float accepted listed part)
    have int (number : Int) : AllFinite (.int number : Value F) := fun _ part => by
      cases List.mem_singleton.mp part
    have text (text : Str) : AllFinite (.str text : Value F) := fun _ part => by
      cases List.mem_singleton.mp part
    have inner : ∀ member ∈ unmapped event inputHash, AllFinite member.2 := by
      intro member found
      rcases mem_unmapped found with same | ⟨name, listed, same⟩
      · exact same ▸ text _
      · exact same ▸ field name listed
    rw [document]
    simp only [allFinite_dict, List.forall_mem_cons]
    exact ⟨int _, text _, text _, field _ (by decide),
      ⟨field _ (by decide), field _ (by decide), text _, fun _ none => absurd none List.not_mem_nil⟩,
      ⟨field _ (by decide), fun _ none => absurd none List.not_mem_nil⟩, inner,
      fun _ none => absurd none List.not_mem_nil⟩

/-- What a document says of an event, and of the call that submits it. -/
structure Evidence (library : Library) (event : Dict (Value F)) (fields : Fields F)
    (parsed : Value F) : Prop where
  /-- A field that the event does not have is not in the document either. -/
  recovered : ∀ field ∈ textFields ++ optionalFields,
    parsed.under (fieldPath field) = event.lookup field
  inputHash : ∃ hash, event.lookup (str "input_hash") = some (.str hash) ∧
    parsed.under (fieldPath (str "input_hash")) = some (.str (library.lower hash)) ∧
    fields.inputHash = library.lower hash
  entryType : ∃ decision, parsed.under (fieldPath (str "decision")) = some (.str decision) ∧
    fields.entryType = str "praxis.ppe.policy." ++ decision ++ str ".v1"
  agentId : parsed.under (fieldPath (str "subject_id")) = some fields.agentId
  correlationId : parsed.under (fieldPath (str "trace_id")) = some fields.correlationId
  idempotencyKey : parsed.under (fieldPath (str "event_id")) = some fields.idempotencyKey

theorem evidence (accepted : Accepted library event) {hash : Str}
    (held : item event (str "input_hash") = .str hash) (sourceId : Str) (content : Bytes) :
    Evidence library event (submitted library sourceId event hash content)
      (arranged (some Str.codes) (.dict (document event (library.lower hash)))) := by
  have under := under_arranged (some Str.codes) (document_distinct accepted (library.lower hash))
  have present (field : Str) (listed : field ∈ requiredFields) :
      event.lookup field = some (item event field) :=
    lookup_item (accepted.shaped.complete field listed)
  have scalar (field : Str) (listed : field ∈ textFields ++ optionalFields) :
      arranged (some Str.codes) (item event field) = item event field :=
    arranged_of_hashable (accepted.hashable field listed)
  have text (field : Str) (listed : field ∈ textFields) :
      (arranged (some Str.codes) (.dict (document event (library.lower hash)))).under (fieldPath field) =
        some (item event field) := by
    rw [under, document_text event _ field listed, Option.map_some,
      scalar field (List.mem_append_left _ listed)]
  refine ⟨?_, ?_, ?_, text _ (by decide), text _ (by decide), text _ (by decide)⟩
  · intro field listed
    rcases List.mem_append.mp listed with required | optional
    · rw [text field required, present field (List.mem_of_mem_filter required)]
    · rw [under, document_optional event _ field optional]
      have kept := scalar field listed
      rw [item] at kept
      cases found : event.lookup field with
      | none => rfl
      | some value =>
        rw [found, Option.getD_some] at kept
        rw [Option.map_some, kept]
  · exact ⟨hash, held ▸ present _ (by decide), by rw [under, document_hash]; rfl, rfl⟩
  · obtain ⟨decision, -, same⟩ := accepted.decision
    refine ⟨decision, same ▸ text _ (by decide), ?_⟩
    rw [submitted, same]
    rfl

/-- The content of an event is JSON, the event is read back from it, and no event that differs has
the same content. -/
def Lossless [FloatRepr F] (library : Library) (sourceId : Str) (event : Dict (Value F)) : Prop :=
  ∃ fields parsed, ledgerFields library sourceId (.dict event) = .ok fields ∧
    (Str.decode fields.content).bind (read (strict F)) = some parsed ∧
    Evidence library event fields parsed ∧
    ∀ other otherSource otherFields, (Value.dict other).Distinct →
      ledgerFields library otherSource (.dict other) = .ok otherFields →
      otherFields.content = fields.content →
      (∀ field ∈ textFields ++ optionalFields, other.lookup field = event.lookup field) ∧
      otherFields.inputHash = fields.inputHash

/-- The accepted events whose content is evidence of them. -/
structure Presentable (event : Dict (Value F)) : Prop where
  inputHash : (item event (str "input_hash")).isStr
  encodable : (Value.dict event).Encodable
  duration : FiniteDuration event

theorem ledgerFields_lossless [FloatRepr F] {sourceId : Str} (distinct : (Value.dict event).Distinct)
    (accepted : validateEvent library (.dict event) = .ok ()) :
    Lossless library sourceId event ↔ Presentable event := by
  have accepted : Accepted library event := validateMembers_ok.mp accepted
  constructor
  · rintro ⟨fields, parsed, submits, reads, -⟩
    obtain ⟨-, inputHash, encodable⟩ := (ledgerFields_exists distinct.keys).mp ⟨fields, submits⟩
    obtain ⟨-, hash, content, held, encoded, rfl⟩ := ledgerFields_ok.mp submits
    have text := Str.decode_encode encoded
    refine ⟨inputHash, encodable, (document_finite accepted (library.lower hash)).mp ?_⟩
    apply (read_strict_isSome (document_distinct accepted (library.lower hash))).mp
    rw [submitted, text, Option.bind_some] at reads
    rw [reads]
    rfl
  · rintro ⟨inputHash, encodable, duration⟩
    obtain ⟨fields, submits⟩ := (@ledgerFields_exists F _ _ library sourceId event distinct.keys).mpr
      ⟨accepted, inputHash, encodable⟩
    obtain ⟨-, hash, content, held, encoded, rfl⟩ := ledgerFields_ok.mp submits
    have reads := read_strict (document_distinct accepted (library.lower hash))
      ((document_finite accepted _).mpr duration)
    have text := Str.decode_encode encoded
    have shown := evidence accepted held sourceId content
    refine ⟨_, _, submits, ?_, shown, ?_⟩
    · rw [submitted, text, Option.bind_some, reads]
    · intro other otherSource otherFields alsoDistinct also same
      obtain ⟨otherAccepted, otherHash, otherContent, otherHeld, otherEncoded, rfl⟩ :=
        ledgerFields_ok.mp also
      -- Equal bytes are equal texts, and a text that is read at all is read as one document.
      have sameContent : otherContent = content := same
      have texts := Str.encode_inj otherEncoded (sameContent ▸ encoded)
      have otherReadable : AllFinite (.dict (document other (library.lower otherHash))) := by
        apply (read_strict_isSome (document_distinct otherAccepted _)).mp
        rw [texts, reads]
        rfl
      have otherReads := read_strict (document_distinct otherAccepted _) otherReadable
      rw [texts, reads] at otherReads
      have otherShown := evidence otherAccepted otherHeld otherSource otherContent
      rw [← Option.some.inj otherReads] at otherShown
      refine ⟨fun field listed => ?_, ?_⟩
      · exact (otherShown.recovered field listed).symm.trans (shown.recovered field listed)
      · obtain ⟨_, -, first, firstHash⟩ := otherShown.inputHash
        obtain ⟨_, -, second, secondHash⟩ := shown.inputHash
        rw [firstHash, secondHash]
        exact Value.str.inj (Option.some.inj (first.symm.trans second))

end

theorem allowed_lossless :
    Lossless asciiLibrary (str "source") (decided (.str (str "allow"))) := by
  have distinct : (Value.dict (decided (.str (str "allow")))).Distinct := by decide +kernel
  apply (ledgerFields_lossless distinct rfl).mpr
  refine ⟨rfl, by decide +kernel, fun number held => ?_⟩
  cases held

/-- An event with a duration that is no number. -/
def unmeasured : Dict (Value Tenths) :=
  (str "duration_ms", .float (.nonFinite .nan)) :: decided (.str (str "allow"))

theorem unmeasured_not_lossless :
    validateEvent asciiLibrary (.dict unmeasured) = .ok () ∧
      ¬ Lossless asciiLibrary (str "source") unmeasured := by
  have valid : validateEvent asciiLibrary (.dict unmeasured) = .ok () := rfl
  refine ⟨valid, ?_⟩
  rintro ⟨fields, parsed, submits, reads, -⟩
  obtain ⟨accepted, hash, content, held, encoded, rfl⟩ := ledgerFields_ok.mp submits
  have text := Str.decode_encode encoded
  rw [submitted, text, Option.bind_some] at reads
  have finite := (read_strict_isSome (document_distinct accepted (asciiLibrary.lower hash))).mp
    (by rw [reads]; rfl)
  cases (document_finite accepted _).mp finite (.nonFinite .nan) rfl

end PraxisPpe

end ImmutableLedger
