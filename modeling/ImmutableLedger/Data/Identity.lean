import ImmutableLedger.Data.Text
import ImmutableLedger.Encoding.Hexadecimal

/-! Identifiers and points in time. -/

set_option autoImplicit false

namespace ImmutableLedger

open Encoding

structure Uuid where
  octets : Vector UInt8 16
  deriving DecidableEq

def Uuid.digits (id : Uuid) : List Char := hexEncode id.octets.toList

/-- The hyphenated text of a UUID: groups of 8, 4, 4, 4 and 12 lower-case digits. -/
def Uuid.toText (id : Uuid) : String :=
  let digits := id.digits
  String.ofList (digits.take 8 ++ '-' :: (digits.drop 8).take 4 ++ '-' :: (digits.drop 12).take 4 ++
    '-' :: (digits.drop 16).take 4 ++ '-' :: digits.drop 20)

/-- The digits of an identifier are its text without the hyphens. -/
theorem Uuid.filter_toText (id : Uuid) :
    id.toText.toList.filter (fun symbol => decide (symbol ≠ '-')) = id.digits := by
  have keeps : ∀ part : List Char, part.Sublist id.digits →
      part.filter (fun symbol => decide (symbol ≠ '-')) = part := fun part sub =>
    List.filter_eq_self.mpr fun symbol member =>
      decide_eq_true (ne_of_mem_hexEncode (sub.subset member) '-' (by decide))
  have group : ∀ n, ((id.digits.drop n).take 4).filter (fun symbol => decide (symbol ≠ '-')) =
      (id.digits.drop n).take 4 := fun n =>
    keeps _ ((List.take_sublist _ _).trans (List.drop_sublist _ _))
  have hyphen : ∀ rest : List Char, ('-' :: rest).filter (fun symbol => decide (symbol ≠ '-')) =
      rest.filter (fun symbol => decide (symbol ≠ '-')) := fun rest => rfl
  have join : ∀ n m, (id.digits.drop n).take m ++ id.digits.drop (n + m) = id.digits.drop n :=
    fun n m => by rw [← List.drop_drop, List.take_append_drop]
  simp only [toText, String.toList_ofList, List.filter_append, hyphen, group,
    keeps _ (List.take_sublist _ _), keeps _ (List.drop_sublist _ _), List.append_assoc]
  rw [join 16 4, join 12 4, join 8 4, List.take_append_drop]

theorem Uuid.toText_injective : Function.Injective Uuid.toText := by
  intro first second same
  have digits : first.digits = second.digits := by
    rw [← first.filter_toText, ← second.filter_toText, same]
  have octets := Vector.toList_inj.mp (hexEncode_injective digits)
  cases first
  cases second
  exact congrArg Uuid.mk octets

/-- The identifier that is written as a text. -/
def Uuid.ofText (text : String) : Option Uuid := do
  let octets ← hexDecode (text.toList.filter fun symbol => decide (symbol ≠ '-'))
  if complete : octets.toArray.size = 16 then
    let id : Uuid := ⟨⟨octets.toArray, complete⟩⟩
    if id.toText = text then some id else none
  else none

theorem Uuid.ofText_toText (id : Uuid) : Uuid.ofText id.toText = some id := by
  have decoded : hexDecode (id.toText.toList.filter fun symbol => decide (symbol ≠ '-')) =
      some id.octets.toList := by
    rw [id.filter_toText, digits, hexDecode_hexEncode]
  have complete : id.octets.toList.toArray.size = 16 := by simp
  have same : (⟨⟨id.octets.toList.toArray, complete⟩⟩ : Uuid) = id := by
    cases id
    exact congrArg Uuid.mk (Vector.toArray_inj.mp Array.toArray_toList)
  unfold ofText
  rw [decoded]
  simp [same]

/-- The instants a `DateTime<Utc>` can hold, in nanoseconds since the epoch. -/
def DateTime.earliest : Int := -8334601228800 * 10 ^ 9

def DateTime.latest : Int := 8210266876799 * 10 ^ 9 + 999999999

structure DateTime where
  nanos : Int
  lower : DateTime.earliest ≤ nanos
  upper : nanos ≤ DateTime.latest
  deriving DecidableEq

/-- `timestamp_millis`, rounding towards the past. -/
def DateTime.timestampMillis (instant : DateTime) : Int64 :=
  Int64.ofInt (instant.nanos / 10 ^ 6)

/-- What a TIMESTAMPTZ column keeps of an instant. -/
def DateTime.truncateMicros (instant : DateTime) : DateTime where
  nanos := instant.nanos / 1000 * 1000
  lower := by
    have := instant.lower
    simp only [earliest] at *
    omega
  upper := by
    have := instant.upper
    simp only [latest] at *
    omega

/-- Storage keeps the millisecond, which is what hashes and responses carry. -/
@[simp] theorem DateTime.timestampMillis_truncateMicros (instant : DateTime) :
    instant.truncateMicros.timestampMillis = instant.timestampMillis := by
  simp only [timestampMillis, truncateMicros]
  congr 1
  omega

end ImmutableLedger
