import ImmutableLedger.Data.Text

/-! Python text.

A `str` is a sequence of code points, and a code point may be a surrogate that has no partner:
`json.loads` makes one of `"\ud800"`. Such a text has no UTF-8 encoding.
-/

set_option autoImplicit false

namespace ImmutableLedger.Python

inductive CodePoint where
  | char (symbol : Char)
  | surrogate (number : Fin 0x800)
  deriving DecidableEq

def CodePoint.code : CodePoint → Nat
  | .char symbol => symbol.toNat
  | .surrogate number => 0xD800 + number.val

/-- The code point of a number, which has to be one. -/
def CodePoint.ofCode (code : Nat) : CodePoint :=
  if surrogate : 0xD800 ≤ code ∧ code < 0xE000 then .surrogate ⟨code - 0xD800, by omega⟩
  else .char (Char.ofNat code)

theorem CodePoint.code_injective : Function.Injective CodePoint.code := by
  intro first second same
  have outside (symbol : Char) : symbol.toNat < 0xD800 ∨ 0xDFFF < symbol.toNat := by
    rcases symbol.valid with low | ⟨high, -⟩
    · exact .inl low
    · exact .inr high
  cases first with
  | char symbol =>
    have apart := outside symbol
    cases second with
    | char other => exact congrArg _ (Char.ext (UInt32.toNat_inj.mp same))
    | surrogate number =>
      simp only [code] at same
      omega
  | surrogate number =>
    cases second with
    | char symbol =>
      have apart := outside symbol
      simp only [code] at same
      omega
    | surrogate other =>
      simp only [code] at same
      exact congrArg _ (Fin.ext (by omega))

abbrev Str := List CodePoint

instance : LawfulBEq Str := inferInstance

def str (text : String) : Str := text.toList.map .char

theorem str_injective : Function.Injective str := by
  intro first second same
  apply String.toList_injective
  exact List.map_injective_iff.mpr (fun _ _ equal => CodePoint.char.inj equal) same

namespace Str

/-- The code points of a text, by which texts are compared. -/
def codes (text : Str) : List Nat := text.map CodePoint.code

theorem codes_injective : Function.Injective codes :=
  List.map_injective_iff.mpr CodePoint.code_injective

/-! UTF-8. -/

def symbols : Str → Option (List Char)
  | [] => some []
  | .char symbol :: rest => (symbols rest).map (symbol :: ·)
  | .surrogate _ :: _ => none

/-- `text.encode("utf-8")`, which fails on a surrogate. -/
def encode (text : Str) : Option Bytes :=
  text.symbols.map fun symbols => asBytes (String.ofList symbols)

def decode (bytes : Bytes) : Option Str :=
  (String.fromUTF8? ⟨bytes.toArray⟩).map str

def hasSurrogate (text : Str) : Bool :=
  text.any fun
    | .char _ => false
    | .surrogate _ => true

@[simp] theorem symbols_map_char (text : List Char) : symbols (text.map .char) = some text := by
  induction text with
  | nil => rfl
  | cons symbol rest ih => simp [symbols, ih]

theorem symbols_eq_some {text : Str} {found : List Char} :
    text.symbols = some found ↔ text = found.map .char := by
  induction text generalizing found with
  | nil => cases found <;> simp [symbols]
  | cons point rest ih =>
    cases point with
    | char symbol =>
      rw [symbols, Option.map_eq_some_iff]
      constructor
      · rintro ⟨front, found, rfl⟩
        rw [ih.mp found, List.map_cons]
      · intro same
        cases found with
        | nil => cases same
        | cons first front =>
          obtain ⟨head, rfl⟩ := List.cons.inj same
          cases head
          exact ⟨front, ih.mpr rfl, rfl⟩
    | surrogate number => cases found <;> simp [symbols]

theorem symbols_isSome {text : Str} : text.symbols.isSome = !text.hasSurrogate := by
  induction text with
  | nil => rfl
  | cons point rest ih =>
    cases point with
    | char symbol => simpa [symbols, hasSurrogate] using ih
    | surrogate number => simp [symbols, hasSurrogate]

/-- An encoded text is the one it decodes to. -/
theorem decode_encode {text : Str} {bytes : Bytes} (encoded : text.encode = some bytes) :
    decode bytes = some text := by
  obtain ⟨symbols, found, rfl⟩ := Option.map_eq_some_iff.mp encoded
  have same : (⟨(asBytes (String.ofList symbols)).toArray⟩ : ByteArray) =
      (String.ofList symbols).toByteArray := ByteArray.ext (by simp [asBytes])
  have read : String.fromUTF8? (String.ofList symbols).toByteArray = some (String.ofList symbols) := by
    rw [String.fromUTF8?, dif_pos (String.ofList symbols).isValidUTF8]
    rfl
  rw [decode, same, read, symbols_eq_some.mp found, Option.map_some, str, String.toList_ofList]

theorem encode_inj {first second : Str} {bytes : Bytes} (encoded : first.encode = some bytes)
    (also : second.encode = some bytes) : first = second :=
  Option.some.inj ((decode_encode encoded).symm.trans (decode_encode also))

/-! Blanks. -/

/-- The code points that `str.isspace` and `str.strip` take for white space. -/
def blanks : List Nat :=
  [0x09, 0x0A, 0x0B, 0x0C, 0x0D, 0x1C, 0x1D, 0x1E, 0x1F, 0x20, 0x85, 0xA0, 0x1680, 0x2000, 0x2001,
    0x2002, 0x2003, 0x2004, 0x2005, 0x2006, 0x2007, 0x2008, 0x2009, 0x200A, 0x2028, 0x2029, 0x202F,
    0x205F, 0x3000]

def strip (text : Str) : Str :=
  (text.dropWhile fun point => blanks.contains point.code).rdropWhile fun point =>
    blanks.contains point.code

def startsWith (text front : Str) : Bool := front.isPrefixOf text

/-- `part in text` -/
def contains (text part : Str) : Bool := decide (part <:+: text)

end Str

end ImmutableLedger.Python
