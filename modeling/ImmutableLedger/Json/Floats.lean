import ImmutableLedger.Json.Encodable
import ImmutableLedger.Json.RoundTrip
import ImmutableLedger.Python.Tenths

/-! Floats in JSON text.

The `repr` of a finite float is a number of the grammar, and reads back as the float it is shown
for. The names that Python writes for the other floats are not JSON, and a strict reader has none of
them.
-/

set_option autoImplicit false

namespace ImmutableLedger.Json

open Python

variable {F : Type}

/-- What is relied on of `repr` for floats and of `float` for texts. -/
class FloatRepr (F : Type) [Interpreter F] where
  ofLiteral : Literal → F
  finite : ∀ value : F, Interpreter.nonFinite value = none → ∃ literal : Literal,
    literal.WellFormed ∧ ¬ (literal.fraction = [] ∧ literal.exponent = []) ∧
      Interpreter.floatText value = literal.text ∧ ofLiteral literal = value

theorem digits_plain {digits : Str} (all : ∀ point ∈ digits, isDigit point) :
    digits.hasSurrogate = false := by
  rw [Str.hasSurrogate, List.any_eq_false]
  intro point found
  have digit := all point found
  cases point with
  | char symbol => simp
  | surrogate number => cases digit

theorem Literal.WellFormed.plain {literal : Literal} (wellFormed : literal.WellFormed) :
    literal.text.hasSurrogate = false := by
  have whole : literal.whole.hasSurrogate = false := by
    rcases wellFormed.whole with zero | ⟨-, -, digits⟩
    · rw [zero]
      rfl
    · exact digits_plain digits
  have exponent : literal.exponent.hasSurrogate = false := by
    rcases wellFormed.exponent with none | ⟨letter, sign, digits, parts, letters, signs, -, all⟩
    · rw [none]
      rfl
    · have front : Str.hasSurrogate [letter] = false := by
        rcases letters with rfl | rfl <;> rfl
      have middle : Str.hasSurrogate sign = false := by
        simp only [List.mem_cons, List.not_mem_nil, or_false] at signs
        rcases signs with rfl | rfl | rfl <;> rfl
      rw [parts, ← List.singleton_append, Str.hasSurrogate_append, Str.hasSurrogate_append, front,
        middle, digits_plain all]
      rfl
  have fraction : Str.hasSurrogate
      (if literal.fraction = [] then [] else .char '.' :: literal.fraction) = false := by
    split
    · rfl
    · exact (Str.hasSurrogate_append [.char '.'] _).trans (digits_plain wellFormed.fraction)
  have sign : Str.hasSurrogate (if literal.negative then [.char '-'] else []) = false := by
    split <;> rfl
  rw [Literal.text, Str.hasSurrogate_append, Str.hasSurrogate_append, Str.hasSurrogate_append, sign,
    whole, fraction, exponent]
  rfl

section

variable [Interpreter F]

/-- Every float in a value is a number. -/
def AllFinite (value : Value F) : Prop :=
  ∀ number : F, .float number ∈ value.parts → Interpreter.nonFinite number = none

theorem allFinite_dict {members : Dict (Value F)} :
    AllFinite (.dict members) ↔ ∀ member ∈ members, AllFinite member.2 := by
  simp only [AllFinite, Value.mem_parts_dict, reduceCtorEq, false_or]
  constructor
  · intro finite member found number part
    exact finite number ⟨member, found, part⟩
  · rintro finite number ⟨member, found, part⟩
    exact finite member found number part

/-- What is read back for a float without the names of the non-finite ones. -/
def readBack (number : F) : Option (Value F) :=
  match Interpreter.nonFinite number with
  | some _ => none
  | none => some (.float number)

variable [FloatRepr F]

variable (F) in
/-- The grammar of JSON and nothing more. -/
def strict : Dialect F where
  float := FloatRepr.ofLiteral
  constant := fun _ => none

theorem floatJson_plain (value : F) : (floatJson value).hasSurrogate = false := by
  rw [floatJson]
  cases finite : Interpreter.nonFinite value with
  | some constant => cases constant <;> rfl
  | none =>
    obtain ⟨literal, wellFormed, -, text, -⟩ := FloatRepr.finite value finite
    exact text ▸ wellFormed.plain

theorem canonical_plain_floats : (canonical : Layout F).Plain fun _ => True where
  itemSeparator := rfl
  keySeparator := rfl
  escape := escapeRaw_plain
  int := decimal_plain
  float := fun value _ => floatJson_plain value

/-- Whether a text can be encoded is up to its strings and keys. -/
theorem canonical_encodable {value : Value F} :
    (canonical.write value).encode.isSome ↔ value.Encodable := by
  have plain := @write_encodable F canonical (fun _ => True) canonical_plain_floats value
    fun _ _ => trivial
  rw [Str.encode_isSome, ← plain, Bool.not_eq_true']

theorem strict_readable : (canonical : Layout F).Readable (strict F) .int readBack fun _ => True where
  itemSeparator := rfl
  keySeparator := rfl
  escape := rfl
  int := scalar_decimal _
  float value _ := by
    show Scalar (strict F) (floatJson value) (readBack value)
    rw [floatJson, readBack]
    cases finite : Interpreter.nonFinite value with
    | some constant => exact scalar_constant (strict F) constant
    | none =>
      obtain ⟨literal, wellFormed, fractional, text, same⟩ := FloatRepr.finite value finite
      have read := scalar_literal (strict F) wellFormed
      rw [if_neg fractional] at read
      have float : (strict F).float literal = value := same
      rwa [float, ← text] at read

omit [FloatRepr F] in
theorem readBack_of_finite {number : F} (finite : Interpreter.nonFinite number = none) :
    readBack number = some (.float number) := by
  rw [readBack, finite]

theorem read_strict {value : Value F} (distinct : value.Distinct) (finite : AllFinite value) :
    read (strict F) (canonical.write value) = some (arranged (some Str.codes) value) := by
  rw [read_write strict_readable distinct fun _ _ => trivial]
  apply Value.convert_fixed
  intro number part
  exact readBack_of_finite (finite number ((float_arranged _).mp part))

/-- The compact text of a value is JSON exactly when its floats are numbers. -/
theorem read_strict_isSome {value : Value F} (distinct : value.Distinct) :
    (read (strict F) (canonical.write value)).isSome ↔ AllFinite value := by
  constructor
  · rw [read_write strict_readable distinct fun _ _ => trivial]
    intro readable number part
    obtain ⟨found, converted⟩ := Option.isSome_iff_exists.mp readable
    obtain ⟨other, back⟩ := Value.convert_isSome _ converted number ((float_arranged _).mpr part)
    rw [readBack] at back
    split at back
    · cases back
    · next finite => exact finite
  · intro finite
    rw [read_strict distinct finite]
    rfl

end

/-- A number of tenths by its parts. -/
def tenthsLiteral (tenths : Int) : Literal where
  negative := tenths < 0
  whole := (Nat.toDigits 10 (tenths.natAbs / 10)).map .char
  fraction := (Nat.toDigits 10 (tenths.natAbs % 10)).map .char
  exponent := []

theorem tenthsLiteral_fraction (tenths : Int) :
    (tenthsLiteral tenths).fraction = [.char (tenths.natAbs % 10).digitChar] := by
  rw [tenthsLiteral, Nat.toDigits_of_lt_base (Nat.mod_lt _ (by decide))]
  rfl

theorem tenthsLiteral_text (tenths : Int) : (Tenths.number tenths).text = (tenthsLiteral tenths).text := by
  have shown (number : Nat) : decimal number = (Nat.toDigits 10 number).map .char := rfl
  have fraction : (tenthsLiteral tenths).fraction ≠ [] := by
    rw [tenthsLiteral_fraction]
    exact List.cons_ne_nil _ _
  have quotient : (tenths.natAbs : Int) / 10 = (tenths.natAbs / 10 : Nat) := by omega
  have remainder : (tenths.natAbs : Int) % 10 = (tenths.natAbs % 10 : Nat) := by omega
  rw [Tenths.text, Literal.text, if_neg fraction, quotient, remainder, shown, shown]
  simp [tenthsLiteral, str]

theorem tenthsLiteral_value (tenths : Int) : Tenths.ofLiteral (tenthsLiteral tenths) = .number tenths := by
  have digit : natural ((tenthsLiteral tenths).fraction.take 1) = tenths.natAbs % 10 := by
    have shown := natural_toDigits (tenths.natAbs % 10)
    rw [Nat.toDigits_of_lt_base (Nat.mod_lt _ (by decide))] at shown
    rw [tenthsLiteral_fraction]
    exact shown
  have whole : natural (tenthsLiteral tenths).whole = tenths.natAbs / 10 := natural_toDigits _
  have negative : (tenthsLiteral tenths).negative = decide (tenths < 0) := rfl
  simp only [Tenths.ofLiteral, digit, whole, negative, decide_eq_true_eq, Tenths.number.injEq]
  split <;> omega

instance : FloatRepr Tenths where
  ofLiteral := Tenths.ofLiteral
  finite value number := by
    cases value with
    | number tenths =>
      refine ⟨tenthsLiteral tenths, ⟨toDigits_whole _, ?_, .inl rfl⟩, ?_,
        tenthsLiteral_text tenths, tenthsLiteral_value tenths⟩
      · exact isDigit_toDigits _
      · rintro ⟨none, -⟩
        rw [tenthsLiteral_fraction] at none
        cases none
    | nonFinite constant => cases number

end ImmutableLedger.Json
