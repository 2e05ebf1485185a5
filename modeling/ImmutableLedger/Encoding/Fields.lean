import Mathlib.Data.List.Basic

/-! Named fields written one after another, each with the length of its value.

A field is its name, a mark, the numeral of the value's length, the mark again, the value
and a terminator. The value may hold any symbols, the mark and the terminator included:
the length in front of it says where it ends.
-/

set_option autoImplicit false

namespace ImmutableLedger.Encoding

variable {α : Type}

/-- Punctuation and numerals of a field. A numeral is told from what follows it by the mark. -/
structure Format (α : Type) where
  mark : α
  terminator : α
  numeral : Nat → List α
  numeral_injective : Function.Injective numeral
  mark_notMem_numeral : ∀ length, mark ∉ numeral length

namespace Format

variable (format : Format α)

def field (name value : List α) : List α :=
  name ++ format.mark :: (format.numeral value.length ++ format.mark :: (value ++ [format.terminator]))

/-- Each name is paired with its value; the order is part of the encoding. -/
def fields (entries : List (List α × List α)) : List α :=
  entries.flatMap fun entry => format.field entry.1 entry.2

@[simp] theorem fields_nil : format.fields [] = [] := rfl

@[simp] theorem fields_cons (entry : List α × List α) (rest : List (List α × List α)) :
    format.fields (entry :: rest) = format.field entry.1 entry.2 ++ format.fields rest := rfl

/-- The mark ends a numeral, so what is written before its first occurrence is determined. -/
theorem numeral_append_inj {first second : Nat} {restFirst restSecond : List α}
    (same : format.numeral first ++ format.mark :: restFirst =
      format.numeral second ++ format.mark :: restSecond) :
    first = second ∧ restFirst = restSecond := by
  have absent := format.mark_notMem_numeral
  rcases List.append_eq_append_iff.mp same with ⟨between, numeral, rest⟩ | ⟨between, numeral, rest⟩
  · cases between with
    | nil => exact ⟨format.numeral_injective (by simpa using numeral.symm), by simpa using rest⟩
    | cons symbol between =>
      obtain ⟨found, -⟩ := List.cons.inj rest
      exact absurd (by simp [numeral, found]) (absent second)
  · cases between with
    | nil => exact ⟨format.numeral_injective (by simpa using numeral), by simpa using rest.symm⟩
    | cons symbol between =>
      obtain ⟨found, -⟩ := List.cons.inj rest
      exact absurd (by simp [numeral, found]) (absent first)

/-- A field read under its name gives back its value, whatever is written after it. -/
theorem field_append_inj {name first second restFirst restSecond : List α}
    (same : format.field name first ++ restFirst = format.field name second ++ restSecond) :
    first = second ∧ restFirst = restSecond := by
  simp only [field, List.append_assoc, List.cons_append, List.append_cancel_left_eq,
    List.cons.injEq, true_and] at same
  obtain ⟨length, values⟩ := format.numeral_append_inj same
  obtain ⟨value, rest⟩ := List.append_inj values length
  simp only [List.nil_append, List.cons.injEq, true_and] at rest
  exact ⟨value, rest⟩

theorem fields_append_inj {first second : List (List α × List α)} {restFirst restSecond : List α}
    (names : first.map Prod.fst = second.map Prod.fst)
    (same : format.fields first ++ restFirst = format.fields second ++ restSecond) :
    first = second ∧ restFirst = restSecond := by
  induction first generalizing second with
  | nil =>
    obtain rfl : second = [] := by simpa using names.symm
    exact ⟨rfl, same⟩
  | cons entry entries ih =>
    cases second with
    | nil => simp at names
    | cons other others =>
      simp only [List.map_cons, List.cons.injEq] at names
      obtain ⟨name, names⟩ := names
      simp only [fields_cons, List.append_assoc, name] at same
      obtain ⟨value, rest⟩ := format.field_append_inj same
      obtain ⟨tail, rest⟩ := ih names rest
      exact ⟨by rw [Prod.ext name value, tail], rest⟩

/-- Two sequences with the same names in the same order are the same when their encodings are. -/
theorem fields_inj {first second : List (List α × List α)}
    (names : first.map Prod.fst = second.map Prod.fst)
    (same : format.fields first = format.fields second) : first = second := by
  have padded : format.fields first ++ [] = format.fields second ++ [] := by rw [same]
  exact (format.fields_append_inj names padded).1

end Format

end ImmutableLedger.Encoding
