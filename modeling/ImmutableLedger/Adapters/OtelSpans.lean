import ImmutableLedger.Json.Write
import ImmutableLedger.Python.Operations

/-! What the OTEL adapter makes of one span.

The attributes of a resource come as an object or, in OTLP, as a list of keys with values.
-/

set_option autoImplicit false

namespace ImmutableLedger.Otel

open Python Json

variable {F : Type}

def spanNameMap : List (Str × Str) :=
  [(str "tools/call", str "kagenti.tool.call"),
    (str "tools/list", str "kagenti.tool.list"),
    (str "agent.deploy", str "kagenti.agent.deployed"),
    (str "agent.start", str "kagenti.agent.started"),
    (str "agent.stop", str "kagenti.agent.stopped"),
    (str "llm.request", str "kagenti.llm.request"),
    (str "llm.response", str "kagenti.llm.response"),
    (str "a2a.task.send", str "kagenti.a2a.task.sent"),
    (str "a2a.task.receive", str "kagenti.a2a.task.received"),
    (str "a2a.task.complete", str "kagenti.a2a.task.completed")]

/-- `span.get(key, span.get(other, otherwise))` -/
def getEither (span : Value F) (key other : Str) (otherwise : Value F) : Except Exn (Value F) := do
  let fallback ← span.get other otherwise
  span.get key fallback

/-- `text.replace('/', '.').replace(' ', '_')` -/
def dotted (text : Str) : Str :=
  text.map fun point =>
    if point = .char '/' then .char '.' else if point = .char ' ' then .char '_' else point

/-- A name that is hashable and not in the table has to have a lower case. -/
def extractEntryType (lower : Str → Str) (span : Value F) : Except Exn Str := do
  let name ← getEither span (str "name") (str "span_name") (.str (str "unknown"))
  name.hash
  match name with
  | .str text =>
    match spanNameMap.lookup text with
    | some entryType => .ok entryType
    | none => .ok (str "kagenti." ++ dotted (lower text))
  | _ => .error .attributeError

/-- An attribute of a list: its key and its text. -/
def attributePair : Value F → Except Exn (Value F × Value F)
  | .dict members =>
    match members.lookup (str "key") with
    | none => .error .other
    | some key => do
      let value ← (Value.dict members).get (str "value") (.dict [])
      let text ← value.get (str "stringValue") (.str [])
      key.hash
      .ok (key, text)
  | _ => .error .typeError

/-- The dictionary of a list of attributes. A key that is no text is never looked for. -/
def attributeDict : List (Value F) → Dict (Value F) → Except Exn (Dict (Value F))
  | [], found => .ok found
  | item :: rest, found => do
    let (key, text) ← attributePair item
    match key with
    | .str key => attributeDict rest (Dict.assign key text found)
    | _ => attributeDict rest found

def attributes : Value F → Except Exn (Value F)
  | .list items => do
    let found ← attributeDict items []
    .ok (.dict found)
  | attrs => .ok attrs

section

variable [Interpreter F]

/-- The first of some fields that is not empty. -/
def firstTruthy (value : Value F) : List Str → Except Exn (Option (Value F))
  | [] => .ok none
  | key :: rest => do
    let found ← value.get key (.str [])
    if found.truthy then .ok (some found) else firstTruthy value rest

def extractAgentId (span : Value F) : Except Exn (Value F) := do
  let resource ← span.get (str "resource") (.dict [])
  let attrs ← resource.get (str "attributes") (.dict [])
  let attrDict ← attributes attrs
  let named ← firstTruthy attrDict
    [str "spiffe.id", str "service.name", str "k8s.pod.name", str "agent.id"]
  match named with
  | some value => .ok value
  | none => do
    let found ← firstTruthy span [str "service.name", str "agent_id", str "agent.id"]
    .ok (found.getD (.str (str "unknown-agent")))

def extractTraceId (span : Value F) : Except Exn (Value F) := do
  let found ← firstTruthy span [str "traceId", str "trace_id", str "traceID"]
  match found with
  | some value => .ok value
  | none => do
    let context ← getEither span (str "spanContext") (str "context") (.dict [])
    getEither context (str "traceId") (str "trace_id") (.str [])

/-- The arguments of a write. -/
structure Submission (F : Type) where
  entryType : Str
  agentId : Value F
  content : Str
  contentType : Str
  sourceId : Str
  correlationId : Value F

def submission (lower : Str → Str) (span : Value F) : Except Exn (Submission F) := do
  let entryType ← extractEntryType lower span
  let agentId ← extractAgentId span
  let traceId ← extractTraceId span
  .ok
    { entryType
      agentId
      content := Json.default.write span
      contentType := str "application/otlp+json"
      sourceId := str "kagenti-otel-collector"
      correlationId := traceId }

end

/-! The spans that can be mapped. -/

/-- What a span is called, by either of the names of the field. -/
def nameOf (span : Dict (Value F)) : Value F :=
  (span.lookup (str "name")).getD ((span.lookup (str "span_name")).getD (.str (str "unknown")))

/-- An attribute with a key, whose value may be absent. -/
def Attribute (item : Value F) : Prop :=
  ∃ members, item = .dict members ∧
    (∃ key, members.lookup (str "key") = some key ∧ key.hashable) ∧ ObjectAt (str "value") members

/-- The attributes of a resource, which may be absent. -/
def Attributed (resource : Dict (Value F)) : Prop :=
  ∀ attrs, resource.lookup (str "attributes") = some attrs →
    (∃ members, attrs = .dict members) ∨ ∃ items, attrs = .list items ∧ ∀ item ∈ items, Attribute item

/-- The context of a span, which may be absent. -/
def contextOf (span : Dict (Value F)) : Value F :=
  (span.lookup (str "spanContext")).getD ((span.lookup (str "context")).getD (.dict []))

def traceKeys : List Str := [str "traceId", str "trace_id", str "traceID"]

structure Mappable [Interpreter F] (span : Dict (Value F)) : Prop where
  name : (nameOf span).isStr
  resource : ∀ value, span.lookup (str "resource") = some value →
    ∃ resource, value = .dict resource ∧ Attributed resource
  /-- Without a trace of its own a span has it from its context. -/
  context : (∀ key ∈ traceKeys, ∀ value, span.lookup key = some value → value.truthy = false) →
    ∃ context, contextOf span = .dict context

theorem getEither_dict (span : Dict (Value F)) (key other : Str) (otherwise : Value F) :
    getEither (.dict span) key other otherwise =
      .ok ((span.lookup key).getD ((span.lookup other).getD otherwise)) := rfl

theorem getEither_ok {value otherwise : Value F} {key other : Str} :
    (∃ found, getEither value key other otherwise = .ok found) ↔ ∃ members, value = .dict members := by
  cases value <;> simp [getEither, Value.get, bind, Except.bind]

theorem extractEntryType_ok {lower : Str → Str} {span : Dict (Value F)} :
    (∃ entryType, extractEntryType lower (.dict span) = .ok entryType) ↔ (nameOf span).isStr := by
  have name : getEither (.dict span) (str "name") (str "span_name") (.str (str "unknown")) =
      .ok (nameOf span) := rfl
  rw [extractEntryType, name]
  cases nameOf span with
  | str text =>
    cases known : spanNameMap.lookup text <;>
      simp [Value.hash, Value.hashable, Value.isStr, known, bind, Except.bind]
  | _ => simp [Value.hash, Value.hashable, Value.isStr, bind, Except.bind]

theorem attributePair_ok {item : Value F} :
    (∃ pair, attributePair item = .ok pair) ↔ Attribute item := by
  cases item with
  | dict members =>
    simp only [Attribute, Value.dict.injEq, exists_eq_left', attributePair]
    cases members.lookup (str "key") with
    | none => simp
    | some key =>
      simp only [Option.some.injEq, exists_eq_left', exists_bind_ok, get_dict, Except.ok.injEq,
        objectAt_iff]
      constructor
      · rintro ⟨text, found, ⟨⟩, hashable, -⟩
        exact ⟨Value.hash_ok.mp hashable, get_ok.mp ⟨text, found⟩⟩
      · rintro ⟨hashable, object⟩
        obtain ⟨text, found⟩ := (@get_ok F _ (.str []) (str "stringValue")).mpr object
        exact ⟨text, found, .unit, Value.hash_ok.mpr hashable, _, rfl⟩
  | _ => simp [attributePair, Attribute]

theorem attributeDict_ok {items : List (Value F)} {earlier : Dict (Value F)} :
    (∃ found, attributeDict items earlier = .ok found) ↔ ∀ item ∈ items, Attribute item := by
  induction items generalizing earlier with
  | nil => simp [attributeDict]
  | cons item rest ih =>
    rw [attributeDict, exists_bind_ok, List.forall_mem_cons, ← attributePair_ok]
    constructor
    · rintro ⟨⟨key, text⟩, found, others⟩
      refine ⟨⟨_, found⟩, ?_⟩
      cases key <;> exact ih.mp others
    · rintro ⟨⟨⟨key, text⟩, found⟩, others⟩
      refine ⟨_, found, ?_⟩
      cases key <;> exact ih.mpr others

/-- Attributes are an object, or else a list that makes one. -/
theorem attributes_ok {attrs : Value F} :
    (∃ members, attributes attrs = .ok (.dict members)) ↔ (∃ members, attrs = .dict members) ∨
      ∃ items, attrs = .list items ∧ ∀ item ∈ items, Attribute item := by
  cases attrs with
  | list items =>
    have made := @attributeDict_ok F items []
    simp only [attributes, bind_ok, reduceCtorEq, exists_false, false_or, Value.list.injEq,
      exists_eq_left', ← made]
    constructor
    · rintro ⟨members, found, same, -⟩
      exact ⟨found, same⟩
    · rintro ⟨found, same⟩
      exact ⟨found, found, same, rfl⟩
  | dict members => simp [attributes]
  | _ => simp [attributes]

section

variable [Interpreter F]

theorem firstTruthy_dict (members : Dict (Value F)) (keys : List Str) :
    ∃ found, firstTruthy (.dict members) keys = .ok found := by
  induction keys with
  | nil => exact ⟨none, rfl⟩
  | cons key rest ih =>
    rw [firstTruthy, get_dict]
    show ∃ found, (if ((members.lookup key).getD (.str [])).truthy then _ else _) = _
    split
    · exact ⟨_, rfl⟩
    · exact ih

theorem firstTruthy_ok {value : Value F} {key : Str} {keys : List Str} :
    (∃ found, firstTruthy value (key :: keys) = .ok found) ↔ ∃ members, value = .dict members := by
  cases value with
  | dict members => simp [firstTruthy_dict]
  | _ => simp [firstTruthy, Value.get, bind, Except.bind]

/-- Nothing is found when every field is absent or empty. -/
theorem firstTruthy_none {members : Dict (Value F)} {keys : List Str} :
    firstTruthy (.dict members) keys = .ok none ↔
      ∀ key ∈ keys, ∀ value, members.lookup key = some value → value.truthy = false := by
  induction keys with
  | nil => simp [firstTruthy]
  | cons key rest ih =>
    have empty : ((members.lookup key).getD (.str [])).truthy = false ↔
        ∀ value, members.lookup key = some value → value.truthy = false := by
      cases members.lookup key with
      | none => simp [Value.truthy]
      | some value => simp
    rw [List.forall_mem_cons, ← ih, ← empty, firstTruthy, get_dict]
    show (if ((members.lookup key).getD (.str [])).truthy then _ else _) = _ ↔ _
    split
    · next truthy => simp [truthy]
    · next falsy => simp [falsy]

theorem extractAgentId_ok {span : Dict (Value F)} :
    (∃ agentId, extractAgentId (.dict span) = .ok agentId) ↔
      ∀ value, span.lookup (str "resource") = some value →
        ∃ resource, value = .dict resource ∧ Attributed resource := by
  have resource (members : Dict (Value F)) : Attributed members ↔
      ∃ found, attributes ((members.lookup (str "attributes")).getD (.dict [])) = .ok (.dict found) := by
    rw [attributes_ok, Attributed]
    cases members.lookup (str "attributes") with
    | none => simp
    | some attrs => simp
  have named (attrDict : Value F) : (∃ agentId, (firstTruthy attrDict [str "spiffe.id",
      str "service.name", str "k8s.pod.name", str "agent.id"] >>= fun named =>
        match named with
        | some value => .ok value
        | none => do
          let found ← firstTruthy (.dict span) [str "service.name", str "agent_id", str "agent.id"]
          .ok (found.getD (.str (str "unknown-agent")))) = .ok agentId) ↔
      ∃ members, attrDict = .dict members := by
    rw [exists_bind_ok]
    constructor
    · rintro ⟨found, searched, -⟩
      exact firstTruthy_ok.mp ⟨found, searched⟩
    · rintro ⟨members, rfl⟩
      obtain ⟨found, searched⟩ := firstTruthy_dict members
        [str "spiffe.id", str "service.name", str "k8s.pod.name", str "agent.id"]
      refine ⟨found, searched, ?_⟩
      cases found with
      | some value => exact ⟨value, rfl⟩
      | none =>
        obtain ⟨other, searched⟩ := firstTruthy_dict span
          [str "service.name", str "agent_id", str "agent.id"]
        exact ⟨_, bind_ok.mpr ⟨other, searched, rfl⟩⟩
  have whole : (∃ agentId, extractAgentId (.dict span) = .ok agentId) ↔
      ∃ members, (span.lookup (str "resource")).getD (.dict []) = .dict members ∧
        Attributed members := by
    rw [extractAgentId, get_dict]
    constructor
    · rintro ⟨agentId, found⟩
      obtain ⟨value, held, rest⟩ := bind_ok.mp found
      obtain ⟨attrs, got, more⟩ := bind_ok.mp rest
      obtain ⟨members, rfl⟩ := get_ok.mp ⟨attrs, got⟩
      obtain ⟨attrDict, made, last⟩ := bind_ok.mp more
      obtain ⟨object, rfl⟩ := (named attrDict).mp ⟨agentId, last⟩
      cases Except.ok.inj got
      exact ⟨members, Except.ok.inj held, (resource members).mpr ⟨object, made⟩⟩
    · rintro ⟨members, same, attributed⟩
      obtain ⟨object, made⟩ := (resource members).mp attributed
      obtain ⟨agentId, found⟩ := (named (.dict object)).mpr ⟨object, rfl⟩
      refine ⟨agentId, bind_ok.mpr ⟨_, rfl, ?_⟩⟩
      rw [same, get_dict]
      exact bind_ok.mpr ⟨_, rfl, bind_ok.mpr ⟨_, made, found⟩⟩
  rw [whole]
  cases span.lookup (str "resource") with
  | none =>
    have absent : Attributed ([] : Dict (Value F)) := fun _ none => by cases none
    simp [absent]
  | some value => simp

theorem extractTraceId_ok {span : Dict (Value F)} :
    (∃ traceId, extractTraceId (.dict span) = .ok traceId) ↔
      ((∀ key ∈ traceKeys, ∀ value, span.lookup key = some value → value.truthy = false) →
        ∃ context, contextOf span = .dict context) := by
  obtain ⟨found, searched⟩ := firstTruthy_dict span traceKeys
  have searching : firstTruthy (.dict span) [str "traceId", str "trace_id", str "traceID"] =
      .ok found := searched
  rw [← firstTruthy_none, searched, extractTraceId, searching]
  cases found with
  | some value =>
    constructor
    · rintro - none
      cases none
    · exact fun _ => ⟨value, rfl⟩
  | none =>
    constructor
    · rintro ⟨traceId, found⟩ -
      obtain ⟨_, ⟨⟩, more⟩ := bind_ok.mp found
      obtain ⟨_, ⟨⟩, last⟩ := bind_ok.mp more
      exact getEither_ok.mp ⟨traceId, last⟩
    · intro object
      obtain ⟨traceId, last⟩ := (@getEither_ok F _ (.str []) (str "traceId") (str "trace_id")).mpr
        (object rfl)
      exact ⟨traceId, bind_ok.mpr ⟨none, rfl, bind_ok.mpr ⟨_, rfl, last⟩⟩⟩

/-- The spans that are submitted, for whatever the client makes of them. -/
theorem submission_ok {lower : Str → Str} {span : Dict (Value F)} :
    (∃ args, submission lower (.dict span) = .ok args) ↔ Mappable span := by
  rw [submission, exists_bind_ok]
  constructor
  · rintro ⟨entryType, named, more⟩
    obtain ⟨agentId, agent, last⟩ := exists_bind_ok.mp more
    obtain ⟨traceId, trace, -⟩ := exists_bind_ok.mp last
    exact ⟨extractEntryType_ok.mp ⟨entryType, named⟩, extractAgentId_ok.mp ⟨agentId, agent⟩,
      extractTraceId_ok.mp ⟨traceId, trace⟩⟩
  · rintro ⟨name, resource, context⟩
    obtain ⟨entryType, named⟩ := (@extractEntryType_ok F lower span).mpr name
    obtain ⟨agentId, agent⟩ := extractAgentId_ok.mpr resource
    obtain ⟨traceId, trace⟩ := extractTraceId_ok.mpr context
    exact ⟨entryType, named, exists_bind_ok.mpr ⟨agentId, agent, exists_bind_ok.mpr
      ⟨traceId, trace, _, rfl⟩⟩⟩

theorem submission_content {lower : Str → Str} {span : Value F} {args : Submission F}
    (mapped : submission lower span = .ok args) : args.content = Json.default.write span := by
  obtain ⟨entryType, -, more⟩ := bind_ok.mp mapped
  obtain ⟨agentId, -, last⟩ := bind_ok.mp more
  obtain ⟨traceId, -, same⟩ := bind_ok.mp last
  cases same
  rfl

end

end ImmutableLedger.Otel
