import Mathlib.Data.List.Basic

/-! Lower-case hexadecimal text of a byte string, two digits to the byte. -/

set_option autoImplicit false

namespace ImmutableLedger.Encoding

def hexDigits (byte : UInt8) : List Char :=
  [Nat.digitChar (byte.toNat / 16), Nat.digitChar (byte.toNat % 16)]

def hexEncode (bytes : List UInt8) : List Char :=
  bytes.flatMap hexDigits

theorem digitChar_inj_of_lt {first second : Nat} (firstDigit : first < 16)
    (secondDigit : second < 16) (same : first.digitChar = second.digitChar) : first = second := by
  have digits : ∀ a b : Fin 16, a.val.digitChar = b.val.digitChar → a = b := by decide
  exact congrArg Fin.val (digits ⟨first, firstDigit⟩ ⟨second, secondDigit⟩ same)

theorem hexDigits_injective : Function.Injective hexDigits := by
  intro first second same
  simp only [hexDigits, List.cons.injEq, and_true] at same
  have firstBound := first.toNat_lt
  have secondBound := second.toNat_lt
  have high := digitChar_inj_of_lt (by omega) (by omega) same.1
  have low := digitChar_inj_of_lt (by omega) (by omega) same.2
  exact UInt8.toNat_inj.mp (by omega)

@[simp] theorem hexEncode_nil : hexEncode [] = [] := rfl

@[simp] theorem hexEncode_cons (byte : UInt8) (rest : List UInt8) :
    hexEncode (byte :: rest) = hexDigits byte ++ hexEncode rest := rfl

@[simp] theorem hexEncode_length (bytes : List UInt8) :
    (hexEncode bytes).length = 2 * bytes.length := by
  induction bytes with
  | nil => rfl
  | cons byte rest ih => simp [hexDigits, ih]; omega

theorem hexEncode_injective : Function.Injective hexEncode := by
  intro first
  induction first with
  | nil =>
    intro second same
    cases second with
    | nil => rfl
    | cons byte rest => simp [hexDigits] at same
  | cons byte rest ih =>
    intro second same
    cases second with
    | nil => simp [hexDigits] at same
    | cons other others =>
      have parts : hexDigits byte ++ hexEncode rest = hexDigits other ++ hexEncode others := same
      obtain ⟨digits, tail⟩ := List.append_inj parts rfl
      rw [hexDigits_injective digits, ih tail]

/-! Reading the digits back. -/

def digitValue (symbol : Char) : Option Nat :=
  (List.range 16).find? fun digit => decide (digit.digitChar = symbol)

def hexDecode : List Char → Option (List UInt8)
  | [] => some []
  | [_] => none
  | high :: low :: rest => do
    let high ← digitValue high
    let low ← digitValue low
    return UInt8.ofNat (16 * high + low) :: (← hexDecode rest)

theorem digitValue_digitChar {digit : Nat} (bound : digit < 16) :
    digitValue digit.digitChar = some digit := by
  have digits : ∀ a : Fin 16, digitValue a.val.digitChar = some a.val := by decide
  exact digits ⟨digit, bound⟩

theorem hexDecode_hexEncode (bytes : List UInt8) : hexDecode (hexEncode bytes) = some bytes := by
  induction bytes with
  | nil => rfl
  | cons byte rest ih =>
    have bound := byte.toNat_lt
    have high : digitValue (byte.toNat / 16).digitChar = some (byte.toNat / 16) :=
      digitValue_digitChar (by omega)
    have low : digitValue (byte.toNat % 16).digitChar = some (byte.toNat % 16) :=
      digitValue_digitChar (by omega)
    have whole : UInt8.ofNat (16 * (byte.toNat / 16) + byte.toNat % 16) = byte := by
      rw [Nat.div_add_mod, UInt8.ofNat_toNat]
    rw [hexEncode_cons, hexDigits, List.cons_append, List.singleton_append, hexDecode, high, low, ih]
    exact congrArg (fun first => some (first :: rest)) whole

theorem ne_of_mem_hexEncode {bytes : List UInt8} {symbol : Char} (member : symbol ∈ hexEncode bytes)
    (other : Char) (outside : ∀ digit < 16, Nat.digitChar digit ≠ other) : symbol ≠ other := by
  obtain ⟨byte, -, digit⟩ := List.mem_flatMap.mp member
  have bound := byte.toNat_lt
  simp only [hexDigits, List.mem_cons, List.not_mem_nil, or_false] at digit
  rcases digit with rfl | rfl
  · exact outside _ (by omega)
  · exact outside _ (by omega)

end ImmutableLedger.Encoding
