import ImmutableLedger.Python.Values
import ImmutableLedger.Python.Dict

/-! Reading JSON text, as `json.loads` does.

A reader is told what to make of a number that is no integer, and whether the names of the
non-finite floats, which the grammar of JSON does not have, are values.
-/

set_option autoImplicit false

namespace ImmutableLedger.Json

open Python

/-- A number by its parts. -/
structure Literal where
  negative : Bool
  whole : Str
  /-- The digits after the point. -/
  fraction : Str
  /-- The exponent with its letter and its sign. -/
  exponent : Str
  deriving DecidableEq

structure Dialect (G : Type) where
  float : Literal → G
  constant : NonFinite → Option G

def blanks : List CodePoint := [.char ' ', .char '\t', .char '\n', .char '\r']

def skip (text : Str) : Str := text.dropWhile blanks.contains

/-- What follows a symbol. -/
def expect (symbol : Char) : Str → Option Str
  | [] => none
  | point :: rest => if point = .char symbol then some rest else none

/-! Numbers. -/

def isDigit : CodePoint → Bool
  | .char symbol => symbol.isDigit
  | .surrogate _ => false

def isSign (point : CodePoint) : Bool := point == .char '+' || point == .char '-'

def natural (digits : Str) : Nat := Nat.ofDigitChars 10 (digits.symbols.getD []) 0

def sign (text : Str) : Bool × Str :=
  match expect '-' text with
  | some rest => (true, rest)
  | none => (false, text)

/-- No digit comes after a leading zero. -/
def whole (text : Str) : Option (Str × Str) :=
  match expect '0' text with
  | some rest => some (str "0", rest)
  | none => if (text.takeWhile isDigit).isEmpty then none else some (text.span isDigit)

def fraction (text : Str) : Str × Str :=
  match expect '.' text with
  | some rest => if (rest.takeWhile isDigit).isEmpty then ([], text) else rest.span isDigit
  | none => ([], text)

def exponent (text : Str) : Str × Str :=
  match text with
  | [] => ([], [])
  | letter :: rest =>
    if letter = .char 'e' ∨ letter = .char 'E' then
      let (sign, digits) := rest.span isSign
      if sign.length ≤ 1 ∧ digits.takeWhile isDigit ≠ [] then
        (letter :: sign ++ digits.takeWhile isDigit, digits.dropWhile isDigit)
      else ([], text)
    else ([], text)

def literal (text : Str) : Option (Literal × Str) := do
  let (negative, text) := sign text
  let (whole, text) ← whole text
  let (fraction, text) := fraction text
  let (exponent, text) := exponent text
  some (⟨negative, whole, fraction, exponent⟩, text)

def Literal.integer (literal : Literal) : Int :=
  if literal.negative then -(natural literal.whole : Int) else natural literal.whole

/-! Strings. -/

def hexDigit : CodePoint → Option Nat
  | .char symbol =>
    if symbol.isDigit then some (symbol.toNat - 48)
    else if 'a' ≤ symbol ∧ symbol ≤ 'f' then some (symbol.toNat - 87)
    else if 'A' ≤ symbol ∧ symbol ≤ 'F' then some (symbol.toNat - 55)
    else none
  | .surrogate _ => none

def hexadecimal (digits : Str) : Option Nat :=
  digits.foldlM (fun number digit => (hexDigit digit).map (16 * number + ·)) 0

def unescape : CodePoint → Option CodePoint
  | .char '"' => some (.char '"')
  | .char '\\' => some (.char '\\')
  | .char '/' => some (.char '/')
  | .char 'b' => some (.char '\x08')
  | .char 'f' => some (.char '\x0c')
  | .char 'n' => some (.char '\n')
  | .char 'r' => some (.char '\r')
  | .char 't' => some (.char '\t')
  | _ => none

/-- A code point of a string and whether it was written by its number. -/
structure Piece where
  point : CodePoint
  numbered : Bool

/-- The pieces of a string up to its closing quote, and what follows it. -/
def pieces : Str → Option (List Piece × Str)
  | [] => none
  | .char '"' :: rest => some ([], rest)
  | .char '\\' :: .char 'u' :: a :: b :: c :: d :: rest => do
    let number ← hexadecimal [a, b, c, d]
    let (more, rest) ← pieces rest
    some (⟨.ofCode number, true⟩ :: more, rest)
  | .char '\\' :: letter :: rest => do
    let point ← unescape letter
    let (more, rest) ← pieces rest
    some (⟨point, false⟩ :: more, rest)
  | point :: rest => do
    guard (0x20 ≤ point.code)
    let (more, rest) ← pieces rest
    some (⟨point, false⟩ :: more, rest)

/-- The symbol of two surrogates that belong together. -/
def pair (high low : Nat) : CodePoint := .ofCode (0x10000 + high * 0x400 + (low - 0x400))

/-- A high surrogate and a low one that were both written by their numbers are one symbol. -/
def joined : List Piece → Str
  | [] => []
  | ⟨.surrogate high, true⟩ :: ⟨.surrogate low, true⟩ :: rest =>
    if high.val < 0x400 ∧ 0x400 ≤ low.val then pair high low :: joined rest
    else .surrogate high :: joined (⟨.surrogate low, true⟩ :: rest)
  | piece :: rest => piece.point :: joined rest

def string (text : Str) : Option (Str × Str) :=
  (pieces text).map fun (pieces, rest) => (joined pieces, rest)

/-! Values. -/

variable {G : Type} (dialect : Dialect G)

def number (text : Str) : Option (Value G × Str) :=
  (literal text).map fun (literal, rest) =>
    if literal.fraction = [] ∧ literal.exponent = [] then (.int literal.integer, rest)
    else (.float (dialect.float literal), rest)

def words : List (Str × Option (Value G)) :=
  [(str "null", some .none), (str "true", some (.bool true)), (str "false", some (.bool false)),
    (str "NaN", (dialect.constant .nan).map .float),
    (str "Infinity", (dialect.constant .infinity).map .float),
    (str "-Infinity", (dialect.constant .negativeInfinity).map .float)]

def word (text : Str) : Option (Value G × Str) :=
  (words dialect).findSome? fun (word, value) =>
    if word.isPrefixOf text then value.map fun value => (value, text.drop word.length) else none

def scalar (text : Str) : Option (Value G × Str) := (number dialect text).or (word dialect text)

mutual

def value : Nat → Str → Option (Value G × Str)
  | 0, _ => none
  | fuel + 1, text =>
    match skip text with
    | .char '"' :: rest => (string rest).map fun (text, rest) => (.str text, rest)
    | .char '[' :: rest =>
      match expect ']' (skip rest) with
      | some rest => some (.list [], rest)
      | none => (items fuel rest).map fun (items, rest) => (.list items, rest)
    | .char '{' :: rest =>
      match expect '}' (skip rest) with
      | some rest => some (.dict [], rest)
      | none => (members fuel rest).map fun (pairs, rest) => (.dict (Dict.ofPairs pairs), rest)
    | text => scalar dialect text

def items : Nat → Str → Option (List (Value G) × Str)
  | 0, _ => none
  | fuel + 1, text => do
    let (item, rest) ← value fuel text
    match expect ',' (skip rest) with
    | some rest => (items fuel rest).map fun (more, rest) => (item :: more, rest)
    | none => (expect ']' (skip rest)).map fun rest => ([item], rest)

def members : Nat → Str → Option (List (Str × Value G) × Str)
  | 0, _ => none
  | fuel + 1, text => do
    let rest ← expect '"' (skip text)
    let (key, rest) ← string rest
    let rest ← expect ':' (skip rest)
    let (item, rest) ← value fuel rest
    match expect ',' (skip rest) with
    | some rest => (members fuel rest).map fun (more, rest) => ((key, item) :: more, rest)
    | none => (expect '}' (skip rest)).map fun rest => ([(key, item)], rest)

end

/-- The value of a whole text. A value nests at most as deep as its text is long. -/
def read (text : Str) : Option (Value G) := do
  let (value, rest) ← value dialect (2 * text.length + 1) text
  guard (skip rest = [])
  some value

end ImmutableLedger.Json
