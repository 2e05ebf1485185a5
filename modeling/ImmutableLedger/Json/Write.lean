import ImmutableLedger.Python.Values
import Mathlib.Data.List.Sort

/-! Writing JSON text.

The grammar leaves open how numbers and symbols are written, in which order the members of an
object come and what separates them. A `Layout` settles that, and `write` follows it.
-/

set_option autoImplicit false

namespace ImmutableLedger.Json

open Python

structure Layout (F : Type) where
  /-- By what the members of an object are ordered, if they are. -/
  order : Option (Str → List Nat)
  itemSeparator : Str
  keySeparator : Str
  escape : CodePoint → Str
  int : Int → Str
  float : F → Str

/-- The members of an object in the order in which they are written. -/
def arrange {α : Type} (order : Option (Str → List Nat)) (members : List (Str × α)) :
    List (Str × α) :=
  match order with
  | none => members
  | some key => members.insertionSort fun first second => key first.1 ≤ key second.1

def quote : CodePoint := .char '"'

namespace Layout

variable {F : Type} (layout : Layout F)

def string (text : Str) : Str := quote :: text.flatMap layout.escape ++ [quote]

def member (text : Str × Str) : Str := layout.string text.1 ++ layout.keySeparator ++ text.2

mutual

def write : Value F → Str
  | .none => str "null"
  | .bool true => str "true"
  | .bool false => str "false"
  | .int value => layout.int value
  | .float value => layout.float value
  | .str text => layout.string text
  | .list items =>
      .char '[' :: layout.itemSeparator.intercalate (writeItems items) ++ [.char ']']
  | .dict members =>
      .char '{' :: layout.itemSeparator.intercalate
        ((arrange layout.order (writeMembers members)).map layout.member) ++ [.char '}']
termination_by structural value => value

def writeItems : List (Value F) → List Str
  | [] => []
  | item :: rest => write item :: writeItems rest
termination_by structural items => items

def writeMembers : List (Str × Value F) → List (Str × Str)
  | [] => []
  | (key, value) :: rest => (key, write value) :: writeMembers rest
termination_by structural members => members

end

@[simp] theorem writeItems_eq (items : List (Value F)) :
    layout.writeItems items = items.map layout.write := by
  induction items with
  | nil => rfl
  | cons item rest ih => rw [writeItems, ih, List.map_cons]

@[simp] theorem writeMembers_eq (members : List (Str × Value F)) :
    layout.writeMembers members = members.map fun member => (member.1, layout.write member.2) := by
  induction members with
  | nil => rfl
  | cons member rest ih => rw [writeMembers, ih, List.map_cons]

end Layout

/-- Members are ordered by their keys, whatever their values. -/
theorem arrange_map {α β : Type} (order : Option (Str → List Nat)) (f : α → β)
    (members : List (Str × α)) :
    arrange order (members.map fun member => (member.1, f member.2)) =
      (arrange order members).map fun member => (member.1, f member.2) := by
  cases order with
  | none => rfl
  | some key =>
    exact (List.map_insertionSort (fun first second : Str × α => key first.1 ≤ key second.1)
      (fun first second : Str × β => key first.1 ≤ key second.1)
      (fun member => (member.1, f member.2)) members fun _ _ _ _ => Iff.rfl).symm

theorem arrange_perm {α : Type} (order : Option (Str → List Nat)) (members : List (Str × α)) :
    (arrange order members).Perm members := by
  cases order with
  | none => exact .refl _
  | some key => exact List.perm_insertionSort _ members

/-! `json.dumps`. -/

/-- A number with four hexadecimal digits. -/
def hex4 (number : Nat) : Str :=
  [number / 4096, number / 256 % 16, number / 16 % 16, number % 16].map fun digit =>
    .char digit.digitChar

def unicodeEscape (number : Nat) : Str := str "\\u" ++ hex4 number

/-- The symbols with an escape of their own. -/
def shortEscape : CodePoint → Option Str
  | .char '"' => some (str "\\\"")
  | .char '\\' => some (str "\\\\")
  | .char '\n' => some (str "\\n")
  | .char '\r' => some (str "\\r")
  | .char '\t' => some (str "\\t")
  | .char '\x0c' => some (str "\\f")
  | .char '\x08' => some (str "\\b")
  | _ => none

/-- `ensure_ascii=False` -/
def escapeRaw (point : CodePoint) : Str :=
  match shortEscape point with
  | some escaped => escaped
  | none => if point.code < 0x20 then unicodeEscape point.code else [point]

def highSurrogate (code : Nat) : Nat := 0xD800 + (code - 0x10000) / 0x400

def lowSurrogate (code : Nat) : Nat := 0xDC00 + (code - 0x10000) % 0x400

/-- `ensure_ascii=True` -/
def escapeAscii (point : CodePoint) : Str :=
  match shortEscape point with
  | some escaped => escaped
  | none =>
    if 0x20 ≤ point.code ∧ point.code < 0x7F then [point]
    else if point.code < 0x10000 then unicodeEscape point.code
    else unicodeEscape (highSurrogate point.code) ++ unicodeEscape (lowSurrogate point.code)

/-- `int.__repr__` -/
def decimal : Int → Str
  | .ofNat value => (Nat.toDigits 10 value).map .char
  | .negSucc value => .char '-' :: (Nat.toDigits 10 (value + 1)).map .char

def floatJson {F : Type} [Interpreter F] (value : F) : Str :=
  match Interpreter.nonFinite value with
  | some constant => constant.name
  | none => Interpreter.floatText value

/-- `json.dumps(value)` -/
def default {F : Type} [Interpreter F] : Layout F where
  order := none
  itemSeparator := str ", "
  keySeparator := str ": "
  escape := escapeAscii
  int := decimal
  float := floatJson

/-- `json.dumps(value, sort_keys=True, separators=(",", ":"), ensure_ascii=False)` -/
def canonical {F : Type} [Interpreter F] : Layout F where
  order := some Str.codes
  itemSeparator := str ","
  keySeparator := str ":"
  escape := escapeRaw
  int := decimal
  float := floatJson

end ImmutableLedger.Json
