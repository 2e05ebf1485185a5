import ImmutableLedger.Python.Dict

/-! The values of `json.loads`, and what Python does with them.

Every operation is defined on every value, and raises where Python raises. What this needs of the
interpreter beyond integers and text, its floats and the `repr` of a text, is a parameter.
-/

set_option autoImplicit false

namespace ImmutableLedger.Python

inductive Value (F : Type) where
  | none
  | bool (value : Bool)
  | int (value : Int)
  | float (value : F)
  | str (text : Str)
  | list (items : List (Value F))
  | dict (members : List (Str × Value F))

/-- The floats that are no numbers. -/
inductive NonFinite where
  | nan
  | infinity
  | negativeInfinity
  deriving DecidableEq

/-- What `json.dumps` writes for such a float, and `json.loads` reads. -/
def NonFinite.name : NonFinite → Str
  | .nan => Python.str "NaN"
  | .infinity => Python.str "Infinity"
  | .negativeInfinity => Python.str "-Infinity"

/-- The floats of an interpreter and what it shows of values. -/
class Interpreter (F : Type) where
  nonFinite : F → Option NonFinite
  /-- `repr` of a float. -/
  floatText : F → Str
  /-- A float that is equal to zero. -/
  floatZero : F → Bool
  floatAdd : F → Int → F
  floatEq : F → F → Bool
  floatEqInt : F → Int → Bool
  floatLe : F → F → Bool
  floatLeInt : F → Int → Bool
  intLeFloat : Int → F → Bool
  /-- Floats that are the same key of a dictionary. -/
  floatKey : F → F → Bool
  /-- `repr` of a text, with its quotes. -/
  strRepr : Str → Str

/-- What an operation can raise. -/
inductive Exn where
  | attributeError
  | typeError
  | valueError (message : Str)
  | unicodeEncodeError
  | other
  deriving DecidableEq

theorem bind_ok {ε α β : Type} {action : Except ε α} {next : α → Except ε β} {result : β} :
    action >>= next = .ok result ↔ ∃ found, action = .ok found ∧ next found = .ok result := by
  cases action <;> simp [bind, Except.bind]

/-- An action that yields nothing only has to succeed. -/
theorem unit_bind_ok {ε β : Type} {action : Except ε Unit} {next : Unit → Except ε β} {result : β} :
    action >>= next = .ok result ↔ action = .ok () ∧ next () = .ok result := by
  rw [bind_ok]
  constructor
  · rintro ⟨⟨⟩, found⟩
    exact found
  · intro found
    exact ⟨(), found⟩

theorem exists_ite_ok {ε α : Type} {condition : Prop} [Decidable condition] {first second : α} :
    ∃ result, (if condition then (.ok first : Except ε α) else .ok second) = .ok result := by
  split <;> exact ⟨_, rfl⟩

theorem exists_bind_ok {ε α β : Type} {action : Except ε α} {next : α → Except ε β} :
    (∃ result, action >>= next = .ok result) ↔
      ∃ found, action = .ok found ∧ ∃ result, next found = .ok result := by
  cases action <;> simp [bind, Except.bind]

variable {F : Type}

namespace Value

/-- Induction over a value, its items and its members. -/
@[induction_eliminator]
theorem induct {motive : Value F → Prop} (none : motive .none) (bool : ∀ value, motive (.bool value))
    (int : ∀ value, motive (.int value)) (float : ∀ value, motive (.float value))
    (str : ∀ text, motive (.str text))
    (list : ∀ items, (∀ item ∈ items, motive item) → motive (.list items))
    (dict : ∀ members, (∀ member ∈ members, motive member.2) → motive (.dict members))
    (value : Value F) : motive value :=
  @Value.rec F motive (fun items => ∀ item ∈ items, motive item)
    (fun members => ∀ member ∈ members, motive member.2) (fun member => motive member.2)
    none bool int float str list dict
    (fun _ absent => absurd absent List.not_mem_nil)
    (fun _ _ head tail => List.forall_mem_cons.mpr ⟨head, tail⟩)
    (fun _ absent => absurd absent List.not_mem_nil)
    (fun _ _ head tail => List.forall_mem_cons.mpr ⟨head, tail⟩) (fun _ _ value => value) value

/-! What a value is made of. -/

mutual

/-- A value and all the values in it. -/
def parts : Value F → List (Value F)
  | .list items => .list items :: partsItems items
  | .dict members => .dict members :: partsMembers members
  | value => [value]
termination_by structural value => value

def partsItems : List (Value F) → List (Value F)
  | [] => []
  | item :: rest => parts item ++ partsItems rest
termination_by structural items => items

def partsMembers : List (Str × Value F) → List (Value F)
  | [] => []
  | (_, value) :: rest => parts value ++ partsMembers rest
termination_by structural members => members

end

theorem partsItems_eq (items : List (Value F)) : partsItems items = items.flatMap parts := by
  induction items with
  | nil => rfl
  | cons item rest ih => rw [partsItems, ih, List.flatMap_cons]

theorem partsMembers_eq (members : Dict (Value F)) :
    partsMembers members = members.flatMap fun member => member.2.parts := by
  induction members with
  | nil => rfl
  | cons member rest ih => rw [partsMembers, ih, List.flatMap_cons]

theorem mem_parts_list {value : Value F} {items : List (Value F)} :
    value ∈ (list items).parts ↔ value = .list items ∨ ∃ item ∈ items, value ∈ item.parts := by
  rw [parts, List.mem_cons, partsItems_eq, List.mem_flatMap]

theorem mem_parts_dict {value : Value F} {members : Dict (Value F)} :
    value ∈ (dict members).parts ↔
      value = .dict members ∨ ∃ member ∈ members, value ∈ member.2.parts := by
  rw [parts, List.mem_cons, partsMembers_eq, List.mem_flatMap]

theorem self_mem_parts (value : Value F) : value ∈ value.parts := by
  cases value <;> simp [parts]

/-- No dictionary of a value has two members of one key. Python has no other values. -/
def Distinct (value : Value F) : Prop :=
  ∀ members, .dict members ∈ value.parts → (Dict.keys members).Nodup

/-- The keys of a dictionary, of which other values have none. -/
def keys : Value F → List Str
  | .dict members => Dict.keys members
  | _ => []

theorem distinct_iff {value : Value F} : value.Distinct ↔ ∀ part ∈ value.parts, part.keys.Nodup := by
  constructor
  · intro distinct part found
    cases part with
    | dict members => exact distinct members found
    | _ => exact List.nodup_nil
  · intro all members part
    exact all _ part

instance (value : Value F) : Decidable value.Distinct := decidable_of_iff _ distinct_iff.symm

theorem Distinct.item {items : List (Value F)} (distinct : (list items).Distinct)
    {item : Value F} (found : item ∈ items) : item.Distinct :=
  fun members part => distinct members (mem_parts_list.mpr (.inr ⟨item, found, part⟩))

theorem Distinct.keys {members : Dict (Value F)} (distinct : (dict members).Distinct) :
    (Dict.keys members).Nodup :=
  distinct members (self_mem_parts _)

theorem Distinct.member {members : Dict (Value F)} (distinct : (dict members).Distinct)
    {member : Str × Value F} (found : member ∈ members) : member.2.Distinct :=
  fun inner part => distinct inner (mem_parts_dict.mpr (.inr ⟨member, found, part⟩))

theorem distinct_list {items : List (Value F)} :
    (list items).Distinct ↔ ∀ item ∈ items, item.Distinct := by
  constructor
  · intro distinct item found
    exact distinct.item found
  · intro all members part
    rcases mem_parts_list.mp part with same | ⟨item, found, part⟩
    · cases same
    · exact all item found members part

theorem distinct_dict {members : Dict (Value F)} :
    (dict members).Distinct ↔
      (Dict.keys members).Nodup ∧ ∀ member ∈ members, member.2.Distinct := by
  constructor
  · intro distinct
    exact ⟨distinct.keys, fun member found => distinct.member found⟩
  · rintro ⟨keys, all⟩ inner part
    rcases mem_parts_dict.mp part with same | ⟨member, found, part⟩
    · cases same
      exact keys
    · exact all member found inner part

def Floatless (value : Value F) : Prop := ∀ number, .float number ∉ value.parts

theorem floatless_list {items : List (Value F)} :
    (list items).Floatless ↔ ∀ item ∈ items, item.Floatless := by
  simp only [Floatless, mem_parts_list]
  constructor
  · intro all item found number part
    exact all number (.inr ⟨item, found, part⟩)
  · rintro all number (same | ⟨item, found, part⟩)
    · cases same
    · exact all item found number part

theorem floatless_dict {members : Dict (Value F)} :
    (dict members).Floatless ↔ ∀ member ∈ members, member.2.Floatless := by
  simp only [Floatless, mem_parts_dict]
  constructor
  · intro all member found number part
    exact all number (.inr ⟨member, found, part⟩)
  · rintro all number (same | ⟨member, found, part⟩)
    · cases same
    · exact all member found number part

/-! A value with its numbers replaced. -/

variable {G : Type} (int : Int → Value G) (float : F → Option (Value G))

mutual

/-- A float that has no counterpart leaves the value without one. -/
def convert : Value F → Option (Value G)
  | .none => some .none
  | .bool value => some (.bool value)
  | .int value => some (int value)
  | .float value => float value
  | .str text => some (.str text)
  | .list items => (convertItems items).map .list
  | .dict members => (convertMembers members).map .dict
termination_by structural value => value

def convertItems : List (Value F) → Option (List (Value G))
  | [] => some []
  | item :: rest => do
    let item ← convert item
    let rest ← convertItems rest
    some (item :: rest)
termination_by structural items => items

def convertMembers : List (Str × Value F) → Option (Dict (Value G))
  | [] => some []
  | (key, value) :: rest => do
    let value ← convert value
    let rest ← convertMembers rest
    some ((key, value) :: rest)
termination_by structural members => members

end

theorem convertItems_eq (items : List (Value F)) :
    convertItems int float items = items.mapM (convert int float) := by
  induction items with
  | nil => rfl
  | cons item rest ih => rw [convertItems, ih, List.mapM_cons]; rfl

theorem convertMembers_eq (members : Dict (Value F)) :
    convertMembers int float members = Dict.convert (convert int float) members := by
  induction members with
  | nil => rfl
  | cons member rest ih =>
    rw [convertMembers, ih, Dict.convert_cons]
    cases convert int float member.2 with
    | none => rfl
    | some value => cases Dict.convert (convert int float) rest <;> rfl

theorem mapM_same {α β : Type} {f g : α → Option β} {items : List α} {found : List β}
    (first : items.mapM f = some found) (second : items.mapM g = some found) :
    ∀ item ∈ items, ∃ value, f item = some value ∧ g item = some value := by
  induction items generalizing found with
  | nil => exact fun _ none => absurd none List.not_mem_nil
  | cons item rest ih =>
    rw [List.mapM_cons] at first second
    obtain ⟨value, head, first⟩ := Option.bind_eq_some_iff.mp first
    obtain ⟨more, tail, same⟩ := Option.bind_eq_some_iff.mp first
    cases Option.some.inj same
    obtain ⟨other, also, second⟩ := Option.bind_eq_some_iff.mp second
    obtain ⟨others, tails, same⟩ := Option.bind_eq_some_iff.mp second
    obtain ⟨rfl, rfl⟩ := List.cons.inj (Option.some.inj same)
    exact List.forall_mem_cons.mpr ⟨⟨_, head, also⟩, ih tail tails⟩

theorem exists_mapM {α β : Type} {f : α → Option β} {items : List α}
    (each : ∀ item ∈ items, ∃ value, f item = some value) : ∃ found, items.mapM f = some found := by
  induction items with
  | nil => exact ⟨[], rfl⟩
  | cons item rest ih =>
    obtain ⟨⟨value, head⟩, tail⟩ := List.forall_mem_cons.mp each
    obtain ⟨more, rests⟩ := ih tail
    exact ⟨value :: more, by rw [List.mapM_cons, head, rests]; rfl⟩

/-- Without floats there is nothing that could have no counterpart. -/
theorem Floatless.exists_convert {value : Value F} (floatless : value.Floatless) :
    ∃ found, value.convert int float = some found := by
  induction value with
  | float number => exact absurd (self_mem_parts _) (floatless number)
  | list items ih =>
    obtain ⟨found, converted⟩ := exists_mapM fun item held =>
      ih item held (floatless_list.mp floatless item held)
    exact ⟨.list found, by rw [convert, convertItems_eq, converted, Option.map_some]⟩
  | dict members ih =>
    obtain ⟨found, converted⟩ := Dict.exists_convert fun member held =>
      ih member held (floatless_dict.mp floatless member held)
    exact ⟨.dict found, by rw [convert, convertMembers_eq, converted, Option.map_some]⟩
  | _ => exact ⟨_, rfl⟩

/-- A value whose floats are their own counterparts is its own. -/
theorem convert_fixed {float : F → Option (Value F)} {value : Value F}
    (fixed : ∀ number, .float number ∈ value.parts → float number = some (.float number)) :
    value.convert .int float = some value := by
  induction value with
  | float number => exact fixed number (self_mem_parts _)
  | list items ih =>
    have each : ∀ item ∈ items, convert .int float item = some item := fun item held =>
      ih item held fun number part => fixed number (mem_parts_list.mpr (.inr ⟨item, held, part⟩))
    have all : items.mapM (convert .int float) = some items := by
      clear ih fixed
      induction items with
      | nil => rfl
      | cons item rest tail =>
        obtain ⟨head, rests⟩ := List.forall_mem_cons.mp each
        rw [List.mapM_cons, head, tail rests]
        rfl
    rw [convert, convertItems_eq, all, Option.map_some]
  | dict members ih =>
    have each : ∀ member ∈ members, convert .int float member.2 = some member.2 := fun member held =>
      ih member held fun number part => fixed number (mem_parts_dict.mpr (.inr ⟨member, held, part⟩))
    have all : Dict.convert (convert .int float) members = some members := by
      clear ih fixed
      induction members with
      | nil => rfl
      | cons member rest tail =>
        obtain ⟨head, rests⟩ := List.forall_mem_cons.mp each
        rw [Dict.convert_cons, head, tail rests]
        rfl
    rw [convert, convertMembers_eq, all, Option.map_some]
  | _ => rfl

theorem convert_self (value : Value F) :
    value.convert .int (fun number => some (.float number)) = some value :=
  convert_fixed fun _ _ => rfl

/-- A value with a counterpart has no float without one. -/
theorem convert_isSome {float : F → Option (Value G)} {value : Value F} {found : Value G}
    (converted : value.convert int float = some found) :
    ∀ number, .float number ∈ value.parts → ∃ other, float number = some other := by
  induction value generalizing found with
  | float number =>
    intro other part
    cases List.mem_singleton.mp part
    exact ⟨found, converted⟩
  | list items ih =>
    intro number part
    rw [convert, convertItems_eq] at converted
    obtain ⟨others, all, -⟩ := Option.map_eq_some_iff.mp converted
    rcases mem_parts_list.mp part with same | ⟨item, held, part⟩
    · cases same
    · obtain ⟨other, counterpart, -⟩ := mapM_same all all item held
      exact ih item held counterpart number part
  | dict members ih =>
    intro number part
    rw [convert, convertMembers_eq] at converted
    obtain ⟨others, all, -⟩ := Option.map_eq_some_iff.mp converted
    rcases mem_parts_dict.mp part with same | ⟨member, held, part⟩
    · cases same
    · obtain ⟨other, counterpart, -⟩ := Dict.convert_same all all member held
      exact ih member held counterpart number part
  | _ =>
    intro number part
    cases List.mem_singleton.mp part

end Value

end ImmutableLedger.Python
