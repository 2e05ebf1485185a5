import ImmutableLedger.Json.Read
import ImmutableLedger.Python.Operations

/-! The contract of the Praxis PPE events.

`validate_event` takes any JSON value. Some of its checks use a field before the type of the field
is checked: a decision that cannot be hashed raises, and an input hash is only looked at as text.
-/

set_option autoImplicit false

namespace ImmutableLedger.PraxisPpe

open Python Json

variable {F : Type}

def schemaVersion : Str := str "praxis.ppe.audit.v1"

def decisions : List Str := [str "allow", str "deny", str "transform"]

def requiredFields : List Str :=
  [str "schema_version", str "event_id", str "occurred_at", str "trace_id", str "decision",
    str "policy_id", str "policy_version", str "subject_id", str "resource", str "reason_code",
    str "input_hash"]

def optionalFields : List Str := [str "duration_ms", str "transform_id"]

def forbiddenKeys : List Str :=
  [str "api_key", str "authorization", str "completion", str "credential", str "model_api_key",
    str "password", str "prompt", str "secret", str "token"]

/-- The required fields that are texts. -/
def textFields : List Str := requiredFields.filter (· ≠ str "input_hash")

/-- A letter of ASCII in lower case. -/
def lowerPoint : CodePoint → CodePoint
  | .char symbol => .char symbol.toLower
  | .surrogate number => .surrogate number

/-- What the adapter takes from the standard library, and the order in which a set of names is gone
through, which differs from one process to the next. -/
structure Library where
  lower : Str → Str
  lower_ascii : ∀ text : Str, (∀ point ∈ text, point.code < 128) → lower text = text.map lowerPoint
  /-- Whether a timestamp has a time zone, if it is one. -/
  fromisoformat : Str → Option Bool
  fieldOrder : List Str
  fieldOrder_perm : fieldOrder.Perm textFields

/-- How an event is turned down: by the contract, or by an exception that is none of it. -/
inductive Refusal where
  | contractError (message : Str)
  | raises (exception : Exn)
  deriving DecidableEq

def check (holds : Bool) (message : Str) : Except Refusal Unit :=
  if holds then .ok () else .error (.contractError message)

/-- `', '.join(sorted(names))` -/
def listed (names : List Str) : Str :=
  (str ", ").intercalate (names.insertionSort fun first second => Str.codes first ≤ Str.codes second)

/-- `text.replace("Z", "+00:00")` -/
def replaceZulu (text : Str) : Str :=
  text.flatMap fun point => if point = .char 'Z' then str "+00:00" else [point]

/-- `SHA256_RE.fullmatch` -/
def isSha256 (text : Str) : Bool := text.length = 64 && text.all fun point => (hexDigit point).isSome

mutual

def findForbiddenKey (lower : Str → Str) (path : Str) : Value F → Option Str
  | .dict members => findForbiddenMember lower path members
  | .list items => findForbiddenItem lower path 0 items
  | _ => none
termination_by structural value => value

def findForbiddenMember (lower : Str → Str) (path : Str) : List (Str × Value F) → Option Str
  | [] => none
  | (key, nested) :: rest =>
    if lower key ∈ forbiddenKeys then some (path ++ str "." ++ key)
    else
      match findForbiddenKey lower (path ++ str "." ++ key) nested with
      | some found => some found
      | none => findForbiddenMember lower path rest
termination_by structural members => members

def findForbiddenItem (lower : Str → Str) (path : Str) (index : Nat) :
    List (Value F) → Option Str
  | [] => none
  | nested :: rest =>
    match findForbiddenKey lower (path ++ str "[" ++ decimal index ++ str "]") nested with
    | some found => some found
    | none => findForbiddenItem lower path (index + 1) rest
termination_by structural items => items

end

/-- `event[field]`, of a field that is there. -/
def item (event : Dict (Value F)) (field : Str) : Value F := (event.lookup field).getD .none

/-- A text with something else than blanks in it. -/
def isText : Value F → Bool
  | .str text => !text.strip.isEmpty
  | _ => false

/-- The texts in the order in which they are checked. -/
def checkTexts (event : Dict (Value F)) : List Str → Except Refusal Unit
  | [] => .ok ()
  | field :: rest => do
    check (isText (item event field)) (field ++ str " must be a non-empty string")
    checkTexts event rest

/-- Whether the timestamp has a time zone. What is no text has no `replace`. -/
def occurredAt (library : Library) (value : Value F) : Except Refusal Bool :=
  let refused := Refusal.contractError (str "occurred_at must be an RFC 3339 timestamp")
  match value with
  | .str text =>
    match library.fromisoformat (replaceZulu text) with
    | some aware => .ok aware
    | none => .error refused
  | _ => .error refused

section

variable [Interpreter F]

/-- `value < 0`, of a number. -/
def isNegative : Value F → Bool
  | .int value => value < 0
  | .float value => Interpreter.floatLeInt value 0 && !Interpreter.floatEqInt value 0
  | _ => false

def checkDuration (event : Dict (Value F)) : Except Refusal Unit :=
  match event.lookup (str "duration_ms") with
  | none => .ok ()
  | some duration => do
    let message := str "duration_ms must be a non-negative number"
    check (match duration with
      | .int _ => true
      | .float _ => true
      | _ => false) message
    check (!isNegative duration) message

def checkTransform (event : Dict (Value F)) : Except Refusal Unit := do
  check (!((item event (str "decision")).eq (.str (str "transform")) &&
      !((event.lookup (str "transform_id")).getD .none).truthy))
    (str "transform decisions require transform_id")
  match event.lookup (str "transform_id") with
  | none => .ok ()
  | some transformId => check (isText transformId) (str "transform_id must be a non-empty string")

def checkForbidden (library : Library) (event : Dict (Value F)) : Except Refusal Unit :=
  match findForbiddenKey library.lower (str "event") (.dict event) with
  | some forbidden =>
    .error (.contractError (str "sensitive-content field is prohibited: " ++ forbidden))
  | none => .ok ()

/-- An element is looked for in a set by its hash. -/
def checkDecision (decision : Value F) : Except Refusal Unit :=
  if decision.hashable then
    check (decisions.any fun known => decision.eq (.str known))
      (str "unsupported decision: " ++ decision.repr)
  else .error (.raises .typeError)

def validateMembers (library : Library) (event : Dict (Value F)) : Except Refusal Unit := do
  checkForbidden library event
  let missing := requiredFields.filter (· ∉ Dict.keys event)
  check missing.isEmpty (str "missing required fields: " ++ listed missing)
  let unknown := (Dict.keys event).filter (· ∉ requiredFields ++ optionalFields)
  check unknown.isEmpty (str "unknown fields: " ++ listed unknown)
  let version := item event (str "schema_version")
  check (version.eq (.str schemaVersion)) (str "unsupported schema_version: " ++ version.repr)
  checkDecision (item event (str "decision"))
  check (isSha256 (item event (str "input_hash")).text)
    (str "input_hash must be a 64-character SHA-256 hex digest")
  let aware ← occurredAt library (item event (str "occurred_at"))
  check aware (str "occurred_at must include an RFC 3339 timezone")
  checkTexts event library.fieldOrder
  checkDuration event
  checkTransform event

def validateEvent (library : Library) : Value F → Except Refusal Unit
  | .dict event => validateMembers library event
  | _ => .error (.contractError (str "event must be a JSON object"))

/-! What is accepted. -/

/-- What is looked at before the decision. -/
structure Shaped (library : Library) (event : Dict (Value F)) : Prop where
  harmless : findForbiddenKey library.lower (str "event") (.dict event) = none
  complete : ∀ field ∈ requiredFields, field ∈ Dict.keys event
  known : ∀ key ∈ Dict.keys event, key ∈ requiredFields ++ optionalFields
  version : item event (str "schema_version") = .str schemaVersion

/-- The events of the contract, as far as the code looks. -/
structure Accepted (library : Library) (event : Dict (Value F)) : Prop where
  shaped : Shaped library event
  decision : ∃ decision ∈ decisions, item event (str "decision") = .str decision
  inputHash : isSha256 (item event (str "input_hash")).text
  occurredAt : ∃ text, item event (str "occurred_at") = .str text ∧
    library.fromisoformat (replaceZulu text) = some true
  texts : ∀ field ∈ textFields, isText (item event field)
  duration : ∀ value, event.lookup (str "duration_ms") = some value →
    ((∃ number, value = .int number) ∨ ∃ number, value = .float number) ∧ isNegative value = false
  transformed : item event (str "decision") = .str (str "transform") →
    (item event (str "transform_id")).truthy
  transformId : ∀ value, event.lookup (str "transform_id") = some value → isText value

theorem check_ok {holds : Bool} {message : Str} : check holds message = .ok () ↔ holds := by
  rw [check]
  split <;> simp_all

theorem eq_str {value : Value F} {text : Str} : value.eq (.str text) ↔ value = .str text := by
  cases value <;> simp [Value.eq, Value.same, Value.sameScalar, Value.toInt]

omit [Interpreter F] in
theorem checkForbidden_ok {library : Library} {event : Dict (Value F)} :
    checkForbidden library event = .ok () ↔
      findForbiddenKey library.lower (str "event") (.dict event) = none := by
  rw [checkForbidden]
  split <;> simp_all

theorem checkDecision_ok {decision : Value F} :
    checkDecision decision = .ok () ↔ ∃ known ∈ decisions, decision = .str known := by
  rw [checkDecision]
  split
  · rw [check_ok, List.any_eq_true]
    simp only [eq_str]
  · next unhashable =>
    simp only [reduceCtorEq, false_iff]
    rintro ⟨known, -, rfl⟩
    exact unhashable rfl

omit [Interpreter F] in
theorem isText_iff {value : Value F} : isText value ↔ ∃ text, value = .str text ∧ text.strip ≠ [] := by
  cases value <;> simp [isText]

omit [Interpreter F] in
theorem checkTexts_ok {event : Dict (Value F)} {fields : List Str} :
    checkTexts event fields = .ok () ↔ ∀ field ∈ fields, isText (item event field) := by
  induction fields with
  | nil => simp [checkTexts]
  | cons field rest ih =>
    rw [checkTexts, unit_bind_ok, check_ok, ih, List.forall_mem_cons]

omit [Interpreter F] in
theorem occurredAt_ok {library : Library} {value : Value F} {aware : Bool} :
    occurredAt library value = .ok aware ↔
      ∃ text, value = .str text ∧ library.fromisoformat (replaceZulu text) = some aware := by
  cases value with
  | str text =>
    rw [occurredAt]
    split <;> simp_all
  | _ => simp [occurredAt]

theorem checkDuration_ok {event : Dict (Value F)} :
    checkDuration event = .ok () ↔ ∀ value, event.lookup (str "duration_ms") = some value →
      ((∃ number, value = .int number) ∨ ∃ number, value = .float number) ∧
        isNegative value = false := by
  rw [checkDuration]
  split
  · next none => simp [none]
  · next duration held =>
    simp only [held, unit_bind_ok, check_ok, Option.some.injEq, forall_eq', Bool.not_eq_true']
    cases duration <;> simp

theorem checkTransform_ok {event : Dict (Value F)} :
    checkTransform event = .ok () ↔
      (item event (str "decision") = .str (str "transform") →
        (item event (str "transform_id")).truthy) ∧
      ∀ value, event.lookup (str "transform_id") = some value → isText value := by
  rw [checkTransform, unit_bind_ok, check_ok]
  simp only [Bool.not_eq_true', Bool.and_eq_false_iff, Bool.not_eq_false']
  apply and_congr
  · rw [← eq_str, item, item, ← Bool.not_eq_true, ← imp_iff_not_or]
  · split
    · next none => simp [none]
    · next value held => simp [held, check_ok]

theorem validateMembers_ok {library : Library} {event : Dict (Value F)} :
    validateMembers library event = .ok () ↔ Accepted library event := by
  simp only [validateMembers, unit_bind_ok, @bind_ok Refusal Bool Unit, check_ok, checkForbidden_ok, checkDecision_ok, checkTexts_ok,
    checkDuration_ok, checkTransform_ok, occurredAt_ok, eq_str, List.isEmpty_iff,
    List.filter_eq_nil_iff, decide_eq_true_eq, not_not]
  constructor
  · rintro ⟨harmless, complete, known, version, decision, inputHash, _, timestamp, rfl, texts,
      duration, transformed, transformId⟩
    exact ⟨⟨harmless, complete, known, version⟩, decision, inputHash, timestamp,
      fun field listed => texts field (library.fieldOrder_perm.mem_iff.mpr listed), duration,
      transformed, transformId⟩
  · rintro ⟨⟨harmless, complete, known, version⟩, decision, inputHash, timestamp, texts, duration,
      transformed, transformId⟩
    exact ⟨harmless, complete, known, version, decision, inputHash, true, timestamp, rfl,
      fun field listed => texts field (library.fieldOrder_perm.mem_iff.mp listed), duration,
      transformed, transformId⟩

/-! What raises instead of turning an event down. -/

def Raises {α : Type} (action : Except Refusal α) : Prop :=
  ∃ exception, action = .error (.raises exception)

omit [Interpreter F] in
theorem bind_raises {α β : Type} {action : Except Refusal α} {next : α → Except Refusal β} :
    Raises (action >>= next) ↔ Raises action ∨ ∃ found, action = .ok found ∧ Raises (next found) := by
  cases action <;> simp [Raises, bind, Except.bind]

omit [Interpreter F] in
theorem check_raises {holds : Bool} {message : Str} : ¬ Raises (check holds message) := by
  rw [check]
  split <;> simp [Raises]

omit [Interpreter F] in
theorem checkForbidden_raises {library : Library} {event : Dict (Value F)} :
    ¬ Raises (checkForbidden library event) := by
  rw [checkForbidden]
  split <;> simp [Raises]

theorem checkDecision_raises {decision : Value F} :
    Raises (checkDecision decision) ↔ ¬ decision.hashable := by
  rw [checkDecision]
  split
  · next hashable => exact iff_of_false check_raises (not_not_intro hashable)
  · next unhashable => exact iff_of_true ⟨.typeError, rfl⟩ unhashable

omit [Interpreter F] in
theorem checkTexts_raises {event : Dict (Value F)} {fields : List Str} :
    ¬ Raises (checkTexts event fields) := by
  induction fields with
  | nil => simp [checkTexts, Raises]
  | cons field rest ih => simp [checkTexts, bind_raises, check_raises, ih]

omit [Interpreter F] in
theorem occurredAt_raises {library : Library} {value : Value F} :
    ¬ Raises (occurredAt library value) := by
  cases value with
  | str text =>
    rw [occurredAt]
    split <;> simp [Raises]
  | _ => simp [occurredAt, Raises]

theorem checkDuration_raises {event : Dict (Value F)} : ¬ Raises (checkDuration event) := by
  rw [checkDuration]
  split
  · simp [Raises]
  · simp [bind_raises, check_raises]

theorem checkTransform_raises {event : Dict (Value F)} : ¬ Raises (checkTransform event) := by
  rw [checkTransform, bind_raises]
  rintro (first | ⟨_, -, second⟩)
  · exact check_raises first
  · split at second
    · simp [Raises] at second
    · exact check_raises second

/-- Only the decision can raise, once everything before it is accepted. -/
theorem validateMembers_raises {library : Library} {event : Dict (Value F)} :
    Raises (validateMembers library event) ↔
      Shaped library event ∧ ¬ (item event (str "decision")).hashable := by
  have unit (action : Except Refusal Unit) (claim : Prop) :
      (∃ found, action = .ok found ∧ claim) ↔ action = .ok () ∧ claim :=
    ⟨fun ⟨⟨⟩, both⟩ => both, fun both => ⟨(), both⟩⟩
  simp only [validateMembers, bind_raises, check_raises, checkForbidden_raises, checkDecision_raises,
    checkTexts_raises, occurredAt_raises, checkDuration_raises, checkTransform_raises, false_or,
    and_false, exists_false, or_false, unit, checkForbidden_ok, check_ok, eq_str, List.isEmpty_iff,
    List.filter_eq_nil_iff, decide_eq_true_eq, not_not]
  constructor
  · rintro ⟨harmless, complete, known, version, unhashable⟩
    exact ⟨⟨harmless, complete, known, version⟩, unhashable⟩
  · rintro ⟨⟨harmless, complete, known, version⟩, unhashable⟩
    exact ⟨harmless, complete, known, version, unhashable⟩

end

end ImmutableLedger.PraxisPpe
