import ImmutableLedger.Adapters.OtelSpans
import ImmutableLedger.Json.Loads
import ImmutableLedger.Python.Tenths

/-! The lines that the OTEL adapter processes.

An envelope is flattened to its spans before any of them is submitted, and the arguments of a
submission are made outside of the guard around the call of the client.
-/

set_option autoImplicit false

namespace ImmutableLedger.Otel

open Python Json

variable {F : Type}

structure Stats where
  written : Nat
  writeErrors : Nat
  skipped : Nat
  deriving DecidableEq

/-- The counters after some spans and the calls that were made for them. -/
structure Run (F : Type) where
  stats : Stats
  calls : List (Submission F)

/-- The client, which knows the calls that were made before: the position of an entry, or what it
raises. -/
abbrev Client (F : Type) := List (Submission F) → Submission F → Except Exn Int

/-- A span with the resource of its group. -/
def withResource (resource span : Value F) : Except Exn (List (Value F)) := do
  let span ← span.setItem (str "resource") resource
  .ok [span]

/-- `for span in ss.get("spans", [])` -/
def scopeSpans (resource scope : Value F) : Except Exn (List (Value F)) := do
  let spans ← scope.get (str "spans") (.list [])
  let spans ← spans.iterate
  gather (withResource resource) spans

/-- `for ss in rs.get("scopeSpans", [])` -/
def resourceSpans (group : Value F) : Except Exn (List (Value F)) := do
  let resource ← group.get (str "resource") (.dict [])
  let scopes ← group.get (str "scopeSpans") (.list [])
  let scopes ← scopes.iterate
  gather (scopeSpans resource) scopes

section

variable [Interpreter F]

/-- `key in value` -/
def holds (key : Str) : Value F → Except Exn Bool
  | .dict members => .ok (decide (key ∈ Dict.keys members))
  | .list items => .ok (items.any fun item => item.same (.str key))
  | .str text => .ok (text.contains key)
  | _ => .error .typeError

/-- `value["resourceSpans"]`, of a value that holds it. -/
def subscript (key : Str) : Value F → Except Exn (Value F)
  | .dict members =>
    match members.lookup key with
    | some value => .ok value
    | none => .error .other
  | _ => .error .typeError

def spansOf (value : Value F) : Except Exn (Option (List (Value F))) := do
  let envelope ← holds (str "resourceSpans") value
  if envelope then do
    let groups ← subscript (str "resourceSpans") value
    let groups ← groups.iterate
    let spans ← gather resourceSpans groups
    .ok (some spans)
  else do
    let named ← holds (str "name") value
    if named then .ok (some [value])
    else do
      let spanNamed ← holds (str "span_name") value
      if spanNamed then .ok (some [value]) else .ok none

def tryParseSpan (json : Loads F) (line : Str) : Except Exn (Option (List (Value F))) :=
  if line.strip = [] then .ok none
  else
    match json.loads line.strip with
    | .decodeError => .ok none
    | .raises exception => .error exception
    | .value value => spansOf value

/-- Whether the first part of a trace id can be taken, for the report of a written span. -/
def sliceable : Value F → Bool
  | .str _ => true
  | .list _ => true
  | _ => false

/-- A span that is written is counted before it is reported. -/
def submitSpan (client : Client F) (args : Submission F) (run : Run F) : Run F :=
  let calls := run.calls ++ [args]
  match client run.calls args with
  | .error _ => ⟨{ run.stats with writeErrors := run.stats.writeErrors + 1 }, calls⟩
  | .ok _ =>
    let written := { run.stats with written := run.stats.written + 1 }
    if sliceable args.correlationId then ⟨written, calls⟩
    else ⟨{ written with writeErrors := written.writeErrors + 1 }, calls⟩

def submitSpans (lower : Str → Str) (client : Client F) : List (Value F) → Run F → Except Exn (Run F)
  | [], run => .ok run
  | span :: rest, run => do
    let args ← submission lower span
    submitSpans lower client rest (submitSpan client args run)

def processLine (json : Loads F) (lower : Str → Str) (client : Client F) (line : Str) (run : Run F) :
    Except Exn (Run F) := do
  let spans ← tryParseSpan json line
  match spans.getD [] with
  | [] =>
    if line.strip = [] then .ok run
    else .ok { run with stats := { run.stats with skipped := run.stats.skipped + 1 } }
  | span :: rest => submitSpans lower client (span :: rest) run

end

/-! What an envelope holds. -/

/-- The objects of an array. -/
def objects : Value F → List (Dict (Value F))
  | .list items => items.filterMap fun
    | .dict members => some members
    | _ => none
  | _ => []

/-- A field that is an array unless it is absent. -/
def arrayField (members : Dict (Value F)) (field : Str) : Value F :=
  (members.lookup field).getD (.list [])

def resourceOf (group : Dict (Value F)) : Value F :=
  (group.lookup (str "resource")).getD (.dict [])

/-- The span objects of an envelope in the order of the document, each with the resource of its
group. -/
def envelopeSpans (envelope : Dict (Value F)) : List (Dict (Value F)) :=
  (objects (arrayField envelope (str "resourceSpans"))).flatMap fun group =>
    (objects (arrayField group (str "scopeSpans"))).flatMap fun scope =>
      (objects (arrayField scope (str "spans"))).map fun span =>
        Dict.assign (str "resource") (resourceOf group) span

def named (span : Dict (Value F)) : Bool := ((span.lookup (str "name")).map Value.isStr).getD false

/-- A value to go through, all of whose members are objects of a kind. -/
def Each (value : Value F) (good : Dict (Value F) → Prop) : Prop :=
  ∃ items, value.iterate = .ok items ∧ ∀ item ∈ items, ∃ members, item = .dict members ∧ good members

theorem filterMap_objects {items : List (Value F)}
    (all : ∀ item ∈ items, ∃ members, item = .dict members) :
    items = (objects (.list items)).map .dict := by
  induction items with
  | nil => rfl
  | cons item rest ih =>
    obtain ⟨⟨members, rfl⟩, tail⟩ := List.forall_mem_cons.mp all
    exact congrArg (Value.dict members :: ·) (ih tail)

/-- Only arrays have objects to go through: the keys of an object and the parts of a text are none. -/
theorem each_iff {value : Value F} {good : Dict (Value F) → Prop} :
    Each value good ↔
      value.iterate = .ok ((objects value).map .dict) ∧ ∀ members ∈ objects value, good members := by
  have texts (texts : List Str) : (∀ item ∈ texts.map (Value.str (F := F)), ∃ members,
      item = .dict members ∧ good members) → texts = [] := by
    intro all
    cases texts with
    | nil => rfl
    | cons first rest =>
      obtain ⟨members, same, -⟩ := all _ List.mem_cons_self
      cases same
  constructor
  · rintro ⟨items, iterated, all⟩
    cases value with
    | list others =>
      cases Except.ok.inj iterated
      have shape := filterMap_objects fun item found =>
        have ⟨members, same, _⟩ := all item found
        ⟨members, same⟩
      refine ⟨congrArg Except.ok shape, fun members found => ?_⟩
      have listed : Value.dict members ∈ items := by
        rw [shape]
        exact List.mem_map_of_mem found
      obtain ⟨other, same, held⟩ := all _ listed
      cases same
      exact held
    | dict members =>
      cases Except.ok.inj iterated
      have none := texts _ all
      exact ⟨by rw [Value.iterate, none]; rfl, fun _ absent => absurd absent List.not_mem_nil⟩
    | str text =>
      cases Except.ok.inj iterated
      have none : text.map (fun point => [point]) = [] := texts _ (by rw [List.map_map]; exact all)
      rw [List.map_eq_nil_iff] at none
      exact ⟨by rw [none]; rfl, fun _ absent => absurd absent List.not_mem_nil⟩
    | _ => cases iterated
  · rintro ⟨iterated, all⟩
    refine ⟨_, iterated, fun item found => ?_⟩
    obtain ⟨members, held, rfl⟩ := List.mem_map.mp found
    exact ⟨members, rfl, all members held⟩

/-- A loop over the members of a value, whose body raises on all but objects. -/
theorem loop_exists {β : Type} {f : Value F → Except Exn (List β)} {value : Value F}
    (objectsOnly : ∀ item found, f item = .ok found → ∃ members, item = .dict members) :
    (∃ found, (value.iterate >>= gather f) = .ok found) ↔
      Each value fun members => ∃ found, f (.dict members) = .ok found := by
  rw [exists_bind_ok]
  constructor
  · rintro ⟨items, iterated, gathered⟩
    refine ⟨items, iterated, fun item held => ?_⟩
    obtain ⟨found, yields⟩ := gather_exists.mp gathered item held
    obtain ⟨members, rfl⟩ := objectsOnly item found yields
    exact ⟨members, rfl, found, yields⟩
  · rintro ⟨items, iterated, all⟩
    refine ⟨items, iterated, gather_exists.mpr fun item held => ?_⟩
    obtain ⟨members, rfl, found⟩ := all item held
    exact found

theorem loop_eq {β : Type} {f : Value F → Except Exn (List β)} {g : Dict (Value F) → List β}
    {value : Value F} {found : List β}
    (objectsOnly : ∀ item found, f item = .ok found → ∃ members, item = .dict members)
    (each : ∀ members found, f (.dict members) = .ok found → found = g members)
    (looped : (value.iterate >>= gather f) = .ok found) : found = (objects value).flatMap g := by
  obtain ⟨iterated, -⟩ := each_iff.mp ((loop_exists objectsOnly).mp ⟨found, looped⟩)
  rw [iterated] at looped
  have gathered : gather f ((objects value).map .dict) = .ok found := looped
  rw [gather_eq (g := fun item => match item with
    | .dict members => g members
    | _ => []) ?_ gathered, List.flatMap_map]
  intro item held found yields
  obtain ⟨members, -, rfl⟩ := List.mem_map.mp held
  exact each members found yields

/-! Flattening. -/

theorem withResource_exists {resource span : Value F} :
    (∃ found, withResource resource span = .ok found) ↔ ∃ members, span = .dict members := by
  cases span <;> simp [withResource, Value.setItem, bind, Except.bind]

theorem scopeSpans_dict (resource : Value F) (scope : Dict (Value F)) :
    scopeSpans resource (.dict scope) =
      (arrayField scope (str "spans")).iterate >>= gather (withResource resource) := rfl

theorem resourceSpans_dict (group : Dict (Value F)) :
    resourceSpans (.dict group) = (arrayField group (str "scopeSpans")).iterate >>=
      gather (scopeSpans (resourceOf group)) := rfl

theorem withResource_only (resource item : Value F) (found : List (Value F))
    (yields : withResource resource item = .ok found) : ∃ members, item = .dict members :=
  withResource_exists.mp ⟨found, yields⟩

theorem scopeSpans_only (resource item : Value F) (found : List (Value F))
    (yields : scopeSpans resource item = .ok found) : ∃ members, item = .dict members := by
  obtain ⟨spans, got, -⟩ := bind_ok.mp yields
  exact get_ok.mp ⟨spans, got⟩

theorem resourceSpans_only (item : Value F) (found : List (Value F))
    (yields : resourceSpans item = .ok found) : ∃ members, item = .dict members := by
  obtain ⟨resource, got, -⟩ := bind_ok.mp yields
  exact get_ok.mp ⟨resource, got⟩

/-- An envelope all of whose arrays are arrays of objects. -/
def Nested (envelope : Dict (Value F)) : Prop :=
  Each (arrayField envelope (str "resourceSpans")) fun group =>
    Each (arrayField group (str "scopeSpans")) fun scope =>
      Each (arrayField scope (str "spans")) fun _ => True

theorem flatten_exists {envelope : Dict (Value F)} :
    (∃ found, ((arrayField envelope (str "resourceSpans")).iterate >>= gather resourceSpans) =
      .ok found) ↔ Nested envelope := by
  have scope (resource : Value F) (scope : Dict (Value F)) :
      (∃ found, scopeSpans resource (.dict scope) = .ok found) ↔
        Each (arrayField scope (str "spans")) fun _ => True := by
    rw [scopeSpans_dict, loop_exists (withResource_only resource)]
    simp only [withResource_exists, Value.dict.injEq, exists_eq']
  have group (group : Dict (Value F)) : (∃ found, resourceSpans (.dict group) = .ok found) ↔
      Each (arrayField group (str "scopeSpans")) fun scope =>
        Each (arrayField scope (str "spans")) fun _ => True := by
    rw [resourceSpans_dict, loop_exists (scopeSpans_only (resourceOf group))]
    simp only [scope]
  rw [loop_exists resourceSpans_only, Nested]
  simp only [group]

theorem flatten_eq {envelope : Dict (Value F)} {found : List (Value F)}
    (flattened : ((arrayField envelope (str "resourceSpans")).iterate >>= gather resourceSpans) =
      .ok found) : found = (envelopeSpans envelope).map .dict := by
  have span (resource : Value F) (members : Dict (Value F)) (found : List (Value F))
      (yields : withResource resource (.dict members) = .ok found) :
      found = [.dict (Dict.assign (str "resource") resource members)] := by
    cases yields
    rfl
  have scope (resource : Value F) (scope : Dict (Value F)) (found : List (Value F))
      (yields : scopeSpans resource (.dict scope) = .ok found) :
      found = ((objects (arrayField scope (str "spans"))).map fun span =>
        Dict.assign (str "resource") resource span).map .dict := by
    rw [loop_eq (withResource_only resource) (span resource) yields, List.map_map]
    exact List.map_eq_flatMap.symm
  have group (group : Dict (Value F)) (found : List (Value F))
      (yields : resourceSpans (.dict group) = .ok found) :
      found = ((objects (arrayField group (str "scopeSpans"))).flatMap fun scope =>
        (objects (arrayField scope (str "spans"))).map fun span =>
          Dict.assign (str "resource") (resourceOf group) span).map .dict := by
    rw [loop_eq (scopeSpans_only _) (scope (resourceOf group)) yields, List.map_flatMap]
    rfl
  rw [loop_eq resourceSpans_only group flattened, envelopeSpans, List.map_flatMap]

/-! Submission. -/

section

variable [Interpreter F] {lower : Str → Str} {client : Client F}

omit [Interpreter F] in
/-- A span counts as written or as failed, and its call comes after the calls made before. -/
theorem submitSpan_spec (args : Submission F) (run : Run F) :
    (submitSpan client args run).calls = run.calls ++ [args] ∧
      run.stats.written + run.stats.writeErrors + 1 ≤
        (submitSpan client args run).stats.written + (submitSpan client args run).stats.writeErrors := by
  rw [submitSpan]
  cases client run.calls args with
  | error exception => exact ⟨rfl, Nat.le_refl _⟩
  | ok position =>
    simp only
    split
    · exact ⟨rfl, by simp only; omega⟩
    · exact ⟨rfl, by simp only; omega⟩

theorem submitSpans_exists {spans : List (Value F)} {run : Run F} :
    (∃ after, submitSpans lower client spans run = .ok after) ↔
      ∀ span ∈ spans, ∃ args, submission lower span = .ok args := by
  induction spans generalizing run with
  | nil => simp [submitSpans]
  | cons span rest ih =>
    rw [submitSpans, exists_bind_ok, List.forall_mem_cons]
    constructor
    · rintro ⟨args, mapped, others⟩
      exact ⟨⟨args, mapped⟩, ih.mp others⟩
    · rintro ⟨⟨args, mapped⟩, others⟩
      exact ⟨args, mapped, ih.mpr others⟩

/-- What a run over some spans has added: one call for each of them, in their order. -/
theorem submitSpans_spec {spans : List (Value F)} {run after : Run F}
    (submitted : submitSpans lower client spans run = .ok after) :
    ∃ calls, after.calls = run.calls ++ calls ∧
      calls.map (·.content) = spans.map Json.default.write ∧
      run.stats.written + run.stats.writeErrors + spans.length ≤
        after.stats.written + after.stats.writeErrors := by
  induction spans generalizing run with
  | nil =>
    cases submitted
    exact ⟨[], (List.append_nil _).symm, rfl, Nat.le_refl _⟩
  | cons span rest ih =>
    obtain ⟨args, mapped, others⟩ := bind_ok.mp submitted
    obtain ⟨called, counted⟩ := @submitSpan_spec F client args run
    obtain ⟨calls, same, contents, more⟩ := ih others
    refine ⟨args :: calls, ?_, ?_, ?_⟩
    · rw [same, called, List.append_assoc, List.singleton_append]
    · rw [List.map_cons, List.map_cons, contents, submission_content mapped]
    · rw [List.length_cons]
      omega

/-- An envelope whose spans can all be reached and mapped. -/
def Orderly (envelope : Dict (Value F)) : Prop :=
  Nested envelope ∧ ∀ span ∈ envelopeSpans envelope, Mappable span

/-- Every span with a name is submitted once, in the order of the document and with the resource of
its group, and every span is counted. -/
def Delivered (envelope : Dict (Value F)) (run after : Run F) : Prop :=
  ∃ (spans : List (Dict (Value F))) (calls : List (Submission F)),
    spans.Sublist (envelopeSpans envelope) ∧
    spans.filter named = (envelopeSpans envelope).filter named ∧
    after.calls = run.calls ++ calls ∧
    calls.map (·.content) = spans.map (fun span => Json.default.write (.dict span)) ∧
    run.stats.written + run.stats.writeErrors + (envelopeSpans envelope).length ≤
      after.stats.written + after.stats.writeErrors

/-- An envelope is taken apart before anything of it is submitted. -/
theorem tryParseSpan_envelope {json : Loads F} {line : Str} {envelope : Dict (Value F)}
    (nonblank : line.strip ≠ []) (loaded : json.loads line.strip = .value (.dict envelope))
    (isEnvelope : str "resourceSpans" ∈ Dict.keys envelope) :
    tryParseSpan json line =
      ((arrayField envelope (str "resourceSpans")).iterate >>= gather resourceSpans) >>=
        fun spans => .ok (some spans) := by
  have holding : holds (str "resourceSpans") (.dict envelope) = .ok true :=
    congrArg Except.ok (decide_eq_true isEnvelope)
  have held : subscript (str "resourceSpans") (.dict envelope) =
      .ok (arrayField envelope (str "resourceSpans")) := by
    cases found : envelope.lookup (str "resourceSpans") with
    | none => exact absurd isEnvelope (Dict.lookup_eq_none.mp found)
    | some value => simp [subscript, arrayField, found]
  rw [tryParseSpan, if_neg nonblank, loaded]
  simp only [spansOf, holding, held]
  show ((arrayField envelope (str "resourceSpans")).iterate >>= fun groups =>
    gather resourceSpans groups >>= fun spans => .ok (some spans)) = _
  cases (arrayField envelope (str "resourceSpans")).iterate <;> rfl

theorem processLine_delivers {json : Loads F} {line : Str} {run : Run F}
    {envelope : Dict (Value F)} (nonblank : line.strip ≠ [])
    (loaded : json.loads line.strip = .value (.dict envelope))
    (isEnvelope : str "resourceSpans" ∈ Dict.keys envelope) :
    (∃ after, processLine json lower client line run = .ok after ∧ Delivered envelope run after) ↔
      Orderly envelope := by
  rw [Orderly, ← flatten_exists, processLine, tryParseSpan_envelope nonblank loaded isEnvelope]
  cases flattened : (arrayField envelope (str "resourceSpans")).iterate >>= gather resourceSpans with
  | error exception =>
    simp [bind, Except.bind]
  | ok found =>
    have spans := flatten_eq flattened
    have mapped : (∀ span ∈ found, ∃ args, submission lower span = .ok args) ↔
        ∀ span ∈ envelopeSpans envelope, Mappable span := by
      rw [spans, List.forall_mem_map]
      simp only [submission_ok]
    simp only [Except.ok.injEq, exists_eq', true_and, ← mapped]
    cases found with
    | nil =>
      have none : envelopeSpans envelope = [] := List.map_eq_nil_iff.mp spans.symm
      refine iff_of_true ?_ fun span absent => absurd absent List.not_mem_nil
      refine ⟨{ run with stats := { run.stats with skipped := run.stats.skipped + 1 } },
        if_neg nonblank, [], [], ?_⟩
      rw [none]
      exact ⟨.slnil, rfl, (List.append_nil _).symm, rfl, Nat.le_refl _⟩
    | cons span rest =>
      rw [← @submitSpans_exists F _ lower client (span :: rest) run]
      constructor
      · rintro ⟨after, processed, -⟩
        exact ⟨after, processed⟩
      · rintro ⟨after, submitted⟩
        obtain ⟨calls, same, contents, counted⟩ := submitSpans_spec submitted
        refine ⟨after, submitted, envelopeSpans envelope, calls, .refl _, rfl, same, ?_, ?_⟩
        · rw [contents, spans, List.map_map]
          rfl
        · rwa [spans, List.length_map] at counted

end

/-- An envelope of one group with one scope. -/
def envelopeOf (spans : List (Value Tenths)) : Dict (Value Tenths) :=
  [(str "resourceSpans", .list [.dict
    [(str "resource", .dict []), (str "scopeSpans", .list [.dict [(str "spans", .list spans)]])]])]

def lineOf (spans : List (Value Tenths)) : Str := canonical.write (.dict (envelopeOf spans))

def spanCalled (name : Value Tenths) : Value Tenths :=
  .dict [(str "name", name), (str "traceId", .str (str "t"))]

def lowerAscii (text : Str) : Str :=
  text.map fun
    | .char symbol => .char symbol.toLower
    | .surrogate number => .surrogate number

/-- A client that always succeeds. -/
def obliging : Client Tenths := fun _ _ => .ok 1

def start : Run Tenths := ⟨⟨0, 0, 0⟩, []⟩

def twoSpans : List (Value Tenths) := [spanCalled (.str (str "a")), spanCalled (.str (str "b"))]

theorem twoSpans_delivered :
    ∃ after, processLine Tenths.dialect.loads lowerAscii obliging (lineOf twoSpans) start = .ok after ∧
      Delivered (envelopeOf twoSpans) start after := by
  have floatless : (Value.dict (envelopeOf twoSpans)).Floatless := fun number part => by
    simp [envelopeOf, twoSpans, spanCalled, Value.parts, Value.partsMembers, Value.partsItems] at part
  have unblanked : (lineOf twoSpans).strip = lineOf twoSpans := by decide +kernel
  have nonblank : (lineOf twoSpans).strip ≠ [] := by decide +kernel
  have loaded : Tenths.dialect.loads.loads (lineOf twoSpans).strip =
      .value (.dict (envelopeOf twoSpans)) := by
    have read := Tenths.dialect.loads_canonical (by decide +kernel) floatless rfl
    rw [unblanked, lineOf, read]
  apply (processLine_delivers nonblank loaded (by decide +kernel)).mpr
  have spans : envelopeSpans (envelopeOf twoSpans) =
      [[(str "name", .str (str "a")), (str "traceId", .str (str "t")), (str "resource", .dict [])],
        [(str "name", .str (str "b")), (str "traceId", .str (str "t")), (str "resource", .dict [])]] := rfl
  refine ⟨flatten_exists.mp ⟨_, rfl⟩, ?_⟩
  rw [spans]
  simp only [List.forall_mem_cons]
  exact ⟨(@submission_ok Tenths _ lowerAscii _).mp ⟨_, rfl⟩,
    (@submission_ok Tenths _ lowerAscii _).mp ⟨_, rfl⟩, fun _ none => absurd none List.not_mem_nil⟩

/-- A span whose name is null keeps the one after it from being submitted. -/
theorem nullName_raises :
    ¬ ∃ after, processLine Tenths.dialect.loads lowerAscii obliging
      (lineOf [spanCalled .none, spanCalled (.str (str "b"))]) start = .ok after := by
  have floatless : (Value.dict (envelopeOf
      [spanCalled .none, spanCalled (.str (str "b"))])).Floatless := fun number part => by
    simp [envelopeOf, spanCalled, Value.parts, Value.partsMembers, Value.partsItems] at part
  have loaded := Tenths.dialect.loads_canonical (by decide +kernel) floatless rfl
  have unblanked : (lineOf [spanCalled .none, spanCalled (.str (str "b"))]).strip =
      lineOf [spanCalled .none, spanCalled (.str (str "b"))] := by decide +kernel
  rintro ⟨after, processed⟩
  rw [processLine, tryParseSpan, unblanked, if_neg (by decide +kernel), lineOf, loaded] at processed
  cases processed

end ImmutableLedger.Otel
