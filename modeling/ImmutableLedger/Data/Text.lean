import Mathlib

/-! Byte views of text and of numbers.

A Rust `String` is its UTF-8 bytes, and so is a Lean one: `asBytes` is `as_bytes`. Lengths,
positions and timestamps enter the hashed text as decimal numerals (`to_string`).
-/

set_option autoImplicit false

namespace ImmutableLedger

abbrev Bytes := List UInt8

def asBytes (text : String) : Bytes := text.toByteArray.data.toList

theorem asBytes_injective : Function.Injective asBytes := by
  intro first second same
  exact String.toByteArray_inj.mp (ByteArray.ext (Array.toList_inj.mp same))

@[simp] theorem asBytes_inj {first second : String} : asBytes first = asBytes second ↔ first = second :=
  asBytes_injective.eq_iff

@[simp] theorem asBytes_ofList (symbols : List Char) :
    asBytes (String.ofList symbols) = symbols.flatMap String.utf8EncodeChar := by
  simp [asBytes, String.ofList, List.utf8Encode]

/-- `usize::to_string`, as bytes. -/
def decimalNat (number : Nat) : Bytes := asBytes number.repr

/-- `i64::to_string`, as bytes. -/
def decimalInt (number : Int64) : Bytes := asBytes number.toInt.repr

theorem decimalNat_injective : Function.Injective decimalNat := fun _ _ same =>
  Nat.repr_injective (asBytes_injective same)

theorem decimalInt_injective : Function.Injective decimalInt := fun _ _ same =>
  Int64.toInt_inj.mp (Int.repr_injective (asBytes_injective same))

@[simp] theorem decimalInt_inj {first second : Int64} :
    decimalInt first = decimalInt second ↔ first = second :=
  decimalInt_injective.eq_iff

def colon : UInt8 := 58

def newline : UInt8 := 10

theorem colon_notMem_digit {digit : Char} (isDigit : digit.isDigit = true) :
    colon ∉ String.utf8EncodeChar digit := by
  obtain ⟨lower, upper⟩ : 48 ≤ digit.val.toNat ∧ digit.val.toNat ≤ 57 := by
    simpa [Char.isDigit, UInt32.le_iff_toNat_le] using isDigit
  have ascii : digit.val.toNat ≤ 127 := by omega
  simp only [String.utf8EncodeChar, ascii, if_true, List.mem_singleton]
  intro same
  have value : colon.toNat = digit.val.toNat % 2 ^ 8 := by
    simpa only [UInt8.toNat_ofNat'] using congrArg UInt8.toNat same
  have code : colon.toNat = 58 := rfl
  omega

theorem colon_notMem_decimalNat (number : Nat) : colon ∉ decimalNat number := by
  rw [decimalNat, Nat.repr, asBytes_ofList]
  intro member
  obtain ⟨digit, inNumeral, found⟩ := List.mem_flatMap.mp member
  exact colon_notMem_digit (Nat.isDigit_of_mem_toDigits (by decide) (by decide) inNumeral) found

end ImmutableLedger
