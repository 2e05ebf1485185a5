import ImmutableLedger.Json.Write

/-! What Python does with a value of any kind. -/

set_option autoImplicit false

namespace ImmutableLedger.Python

variable {F : Type}

namespace Value

/-- `isinstance(value, int)`, with the number. A `bool` is an `int`. -/
def toInt : Value F → Option Int
  | .bool value => some (if value then 1 else 0)
  | .int value => some value
  | _ => Option.none

def isNumber : Value F → Bool
  | .bool _ => true
  | .int _ => true
  | .float _ => true
  | _ => false

/-- `value is None` -/
def isNone : Value F → Bool
  | .none => true
  | _ => false

def isStr : Value F → Bool
  | .str _ => true
  | _ => false

def isDict : Value F → Bool
  | .dict _ => true
  | _ => false

/-- Whether a value can be a key. -/
def hashable : Value F → Bool
  | .list _ => false
  | .dict _ => false
  | _ => true

/-- Whether a format specification with a width applies to a value. -/
def formattable : Value F → Bool
  | .none => false
  | .list _ => false
  | .dict _ => false
  | _ => true

/-- `value.get(key, otherwise)` -/
def get (value : Value F) (key : Str) (otherwise : Value F) : Except Exn (Value F) :=
  match value with
  | .dict members => .ok ((members.lookup key).getD otherwise)
  | _ => .error .attributeError

/-- `hash(value)`, of which only that it is there counts. -/
def hash (value : Value F) : Except Exn PUnit :=
  if value.hashable then .ok .unit else .error .typeError

theorem hash_ok {value : Value F} : value.hash = .ok .unit ↔ value.hashable := by
  rw [hash]
  split <;> simp_all

def startsWith (value : Value F) (front : Str) : Except Exn Bool :=
  match value with
  | .str text => .ok (text.startsWith front)
  | _ => .error .attributeError

section

variable [Interpreter F]

/-- `bool(value)` -/
def truthy : Value F → Bool
  | .none => false
  | .bool value => value
  | .int value => value ≠ 0
  | .float value => !Interpreter.floatZero value
  | .str text => !text.isEmpty
  | .list items => !items.isEmpty
  | .dict members => !members.isEmpty

def sameScalar (first second : Value F) : Bool :=
  match first.toInt, second.toInt with
  | some value, some other => value = other
  | some value, Option.none =>
    match second with
    | .float other => Interpreter.floatEqInt other value
    | _ => false
  | Option.none, some other =>
    match first with
    | .float value => Interpreter.floatEqInt value other
    | _ => false
  | Option.none, Option.none =>
    match first, second with
    | .none, .none => true
    | .str text, .str other => text = other
    | .float value, .float other => Interpreter.floatKey value other
    | _, _ => false

mutual

/-- Whether two values are identical or equal, as items of lists and as keys are compared. -/
def same : Value F → Value F → Bool
  | .list items, .list others => sameItems items others
  | .dict members, .dict others => members.length == others.length && sameMembers members others
  | first, second => sameScalar first second
termination_by structural value => value

def sameItems : List (Value F) → List (Value F) → Bool
  | [], [] => true
  | item :: rest, other :: others => same item other && sameItems rest others
  | _, _ => false
termination_by structural items => items

def sameMembers : List (Str × Value F) → Dict (Value F) → Bool
  | [], _ => true
  | (key, value) :: rest, others =>
    (match others.lookup key with
      | some other => same value other
      | Option.none => false) && sameMembers rest others
termination_by structural members => members

end

/-- `first == second` -/
def eq (first second : Value F) : Bool :=
  match first, second with
  | .float value, .float other => Interpreter.floatEq value other
  | _, _ => same first second

def leNumbers (first second : Value F) : Except Exn Bool :=
  match first, second with
  | .float value, .float other => .ok (Interpreter.floatLe value other)
  | .float value, second =>
    match second.toInt with
    | some other => .ok (Interpreter.floatLeInt value other)
    | Option.none => .error .typeError
  | first, .float other =>
    match first.toInt with
    | some value => .ok (Interpreter.intLeFloat value other)
    | Option.none => .error .typeError
  | first, second =>
    match first.toInt, second.toInt with
    | some value, some other => .ok (decide (value ≤ other))
    | _, _ => .error .typeError

mutual

/-- `first <= second` -/
def le : Value F → Value F → Except Exn Bool
  | .str text, .str other => .ok (decide (text.codes ≤ other.codes))
  | .list items, .list others => leItems items others
  | first, second => leNumbers first second
termination_by structural value => value

def leItems : List (Value F) → List (Value F) → Except Exn Bool
  | [], _ => .ok true
  | _ :: _, [] => .ok false
  | item :: rest, other :: others =>
    if same item other then leItems rest others else le item other
termination_by structural items => items

end

/-- `value + number` -/
def addInt (value : Value F) (number : Int) : Except Exn (Value F) :=
  match value with
  | .float held => .ok (.float (Interpreter.floatAdd held number))
  | value =>
    match value.toInt with
    | some held => .ok (.int (held + number))
    | Option.none => .error .typeError

mutual

/-- `repr(value)` -/
def repr : Value F → Str
  | .none => Python.str "None"
  | .bool true => Python.str "True"
  | .bool false => Python.str "False"
  | .int value => Json.decimal value
  | .float value => Interpreter.floatText value
  | .str text => Interpreter.strRepr F text
  | .list items =>
    .char '[' :: (Python.str ", ").intercalate (reprItems items) ++ [.char ']']
  | .dict members =>
    .char '{' :: (Python.str ", ").intercalate (reprMembers members) ++ [.char '}']
termination_by structural value => value

def reprItems : List (Value F) → List Str
  | [] => []
  | item :: rest => repr item :: reprItems rest
termination_by structural items => items

def reprMembers : List (Str × Value F) → List Str
  | [] => []
  | (key, value) :: rest =>
    (Interpreter.strRepr F key ++ Python.str ": " ++ repr value) :: reprMembers rest
termination_by structural members => members

end

/-- `str(value)`, as f-strings show it. -/
def text : Value F → Str
  | .str text => text
  | value => value.repr

theorem addInt_isOk {value : Value F} {number : Int} :
    (∃ sum, value.addInt number = .ok sum) ↔ value.isNumber := by
  cases value <;> simp [addInt, toInt, isNumber]

theorem isNumber_of_eq {value : Value F} {number : Int} (equal : value.eq (.int number)) :
    value.isNumber := by
  cases value <;> simp_all [eq, same, sameScalar, toInt, isNumber]

/-- A number is comparable to the numbers and to nothing else. -/
theorem le_number {first second : Value F} (number : second.isNumber) :
    (∃ answer, first.le second = .ok answer) ↔ first.isNumber := by
  cases second <;> simp only [isNumber, Bool.false_eq_true] at number <;>
    cases first <;> simp [le, leNumbers, toInt, isNumber]

end

end Value

/-- `value[key] = held` -/
def Value.setItem (value : Value F) (key : Str) (held : Value F) : Except Exn (Value F) :=
  match value with
  | .dict members => .ok (.dict (Dict.assign key held members))
  | _ => .error .typeError

/-- What a `for` goes through. -/
def Value.iterate : Value F → Except Exn (List (Value F))
  | .list items => .ok items
  | .dict members => .ok ((Dict.keys members).map .str)
  | .str text => .ok (text.map fun point => .str [point])
  | _ => .error .typeError

/-- A loop that collects what every item yields, until one raises. -/
def gather {α β ε : Type} (f : α → Except ε (List β)) : List α → Except ε (List β)
  | [] => .ok []
  | item :: rest => do
    let found ← f item
    let more ← gather f rest
    .ok (found ++ more)

theorem gather_exists {α β ε : Type} {f : α → Except ε (List β)} {items : List α} :
    (∃ found, gather f items = .ok found) ↔ ∀ item ∈ items, ∃ found, f item = .ok found := by
  induction items with
  | nil => simp [gather]
  | cons item rest ih =>
    rw [gather, exists_bind_ok, List.forall_mem_cons, ← ih]
    constructor
    · rintro ⟨found, first, collected⟩
      obtain ⟨more, others, -⟩ := exists_bind_ok.mp collected
      exact ⟨⟨found, first⟩, more, others⟩
    · rintro ⟨⟨found, first⟩, more, others⟩
      exact ⟨found, first, exists_bind_ok.mpr ⟨more, others, _, rfl⟩⟩

/-- What is collected is what the items yield, in their order. -/
theorem gather_eq {α β ε : Type} {f : α → Except ε (List β)} {g : α → List β} {items : List α}
    {found : List β} (each : ∀ item ∈ items, ∀ found, f item = .ok found → found = g item)
    (gathered : gather f items = .ok found) : found = items.flatMap g := by
  induction items generalizing found with
  | nil => cases gathered; rfl
  | cons item rest ih =>
    obtain ⟨head, tail⟩ := List.forall_mem_cons.mp each
    rw [gather, bind_ok] at gathered
    obtain ⟨first, here, gathered⟩ := gathered
    obtain ⟨more, others, same⟩ := bind_ok.mp gathered
    cases same
    rw [List.flatMap_cons, head first here, ih tail others]

/-! Fields of objects. -/

theorem get_dict (event : Dict (Value F)) (key : Str) (otherwise : Value F) :
    (Value.dict event).get key otherwise = .ok ((event.lookup key).getD otherwise) := rfl

theorem get_ok {value otherwise : Value F} {key : Str} :
    (∃ found, value.get key otherwise = .ok found) ↔ ∃ members, value = .dict members := by
  cases value <;> simp [Value.get]

/-- A field that is absent or an object. -/
def ObjectAt (field : Str) (event : Dict (Value F)) : Prop :=
  ∀ value, event.lookup field = some value → ∃ members, value = .dict members

/-- The default of a field is an empty object, so a field that is absent does no harm. -/
theorem objectAt_iff {event : Dict (Value F)} {field : Str} :
    ObjectAt field event ↔ ∃ members, (event.lookup field).getD (.dict []) = .dict members := by
  rw [ObjectAt]
  cases event.lookup field with
  | none => simp
  | some value => simp

end ImmutableLedger.Python
