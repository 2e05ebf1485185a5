import Mathlib.Data.List.Nodup
import Mathlib.Data.List.Pairwise

/-! Lookups by a key that no two rows share. -/

set_option autoImplicit false

namespace ImmutableLedger.Query

variable {α β : Type} {rows : List α}

/-- A partial index without duplicates tells its rows apart. -/
theorem eq_of_nodup_filterMap {index : α → Option β} (unique : (rows.filterMap index).Nodup)
    {first second : α} {value : β} (member : first ∈ rows) (another : second ∈ rows)
    (indexed : index first = some value) (alsoIndexed : index second = some value) :
    first = second := by
  by_contra distinct
  have : Std.Symm fun a b : α => ∀ x, index a = some x → ∀ y, index b = some y → x ≠ y :=
    ⟨fun _ _ differ x found y alsoFound => (differ y alsoFound x found).symm⟩
  have apart := List.Pairwise.forall (List.pairwise_filterMap.mp unique) member another distinct
  exact apart value indexed value alsoIndexed rfl

variable {select : α → Bool}

/-- Lookups that hold of one row at most return it alone. -/
theorem filter_eq_find? (distinct : rows.Nodup)
    (unique : ∀ first ∈ rows, ∀ second ∈ rows, select first = true → select second = true →
      first = second) : rows.filter select = (rows.find? select).toList := by
  induction rows with
  | nil => rfl
  | cons row rest ih =>
    obtain ⟨fresh, distinctRest⟩ := List.nodup_cons.mp distinct
    by_cases selected : select row = true
    · have others : rest.filter select = [] := List.filter_eq_nil_iff.mpr fun other member found => by
        have same := unique row List.mem_cons_self other (List.mem_cons_of_mem _ member) selected found
        exact fresh (same ▸ member)
      simp [selected, others]
    · rw [List.filter_cons_of_neg selected, List.find?_cons_of_neg selected]
      exact ih distinctRest fun first member second another =>
        unique first (List.mem_cons_of_mem _ member) second (List.mem_cons_of_mem _ another)

theorem find?_eq_some {row : α} (member : row ∈ rows) (selected : select row = true)
    (unique : ∀ other ∈ rows, select other = true → other = row) :
    rows.find? select = some row := by
  rcases found : rows.find? select with _ | other
  · exact absurd selected (List.find?_eq_none.mp found row member)
  · rw [unique other (List.mem_of_find?_eq_some found) (List.find?_some found)]

end ImmutableLedger.Query
