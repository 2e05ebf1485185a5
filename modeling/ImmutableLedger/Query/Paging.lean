import ImmutableLedger.Query.Ordered

/-! Reading an ordered selection by offsets.

The rank of a row is the number of rows before it. Rows that are added can only raise it, and a
page is made of the rows whose rank falls into its window.
-/

set_option autoImplicit false

namespace ImmutableLedger.Query

variable {α κ : Type} [LinearOrder κ] {key : α → κ} {rows : List α} {row : α}

def rank (key : α → κ) (row : α) (rows : List α) : Nat :=
  rows.countP fun other => decide (key other < key row)

theorem rank_perm {other : List α} (perm : rows.Perm other) : rank key row rows = rank key row other :=
  perm.countP_eq _

theorem rank_le_of_sublist {more : List α} (sublist : rows.Sublist more) :
    rank key row rows ≤ rank key row more :=
  sublist.countP_le

theorem rank_lt_length (member : row ∈ rows) : rank key row rows < rows.length := by
  unfold rank
  rw [List.countP_eq_length_filter]
  refine lt_of_le_of_ne (List.length_filter_le _ _) fun same => ?_
  have all := List.length_filter_eq_length_iff.mp same row member
  simp at all

/-- In an ascending list the rank of a row is its place. -/
theorem Ascending.rank_eq (ascends : Ascending key rows) {place : Nat}
    (found : rows[place]? = some row) : rank key row rows = place := by
  obtain ⟨within, rfl⟩ := List.getElem?_eq_some_iff.mp found
  have split : rows = rows.take place ++ rows[place] :: rows.drop (place + 1) := by simp
  have whole := ascends
  rw [split] at whole
  obtain ⟨-, tail, lower⟩ := List.pairwise_append.mp whole
  have before : (rows.take place).countP (fun other => decide (key other < key rows[place])) =
      (rows.take place).length := by
    apply List.countP_eq_length.mpr
    intro other member
    exact decide_eq_true (lower other member _ List.mem_cons_self)
  have behind : (rows[place] :: rows.drop (place + 1)).countP
      (fun other => decide (key other < key rows[place])) = 0 := by
    apply List.countP_eq_zero.mpr
    intro other member
    have above : key rows[place] ≤ key other := Ascending.head?_le tail rfl member
    simpa using above
  calc rank key rows[place] rows
      = rank key rows[place] (rows.take place ++ rows[place] :: rows.drop (place + 1)) :=
        congrArg (rank key rows[place]) split
    _ = place := by
        rw [rank, List.countP_append, before, behind, List.length_take]
        omega

/-- A page of an ascending list holds the rows whose rank is in its window. -/
theorem Ascending.mem_page_iff (ascends : Ascending key rows) (offset limit : Nat) :
    row ∈ (rows.drop offset).take limit ↔
      row ∈ rows ∧ offset ≤ rank key row rows ∧ rank key row rows < offset + limit := by
  constructor
  · intro member
    obtain ⟨i, within, rfl⟩ := List.mem_take_iff_getElem.mp member
    rw [List.length_drop] at within
    have place : rows[offset + i]? = some (rows.drop offset)[i] := by
      rw [List.getElem_drop, List.getElem?_eq_getElem]
    refine ⟨List.mem_of_mem_drop (List.mem_of_mem_take member), ?_⟩
    rw [ascends.rank_eq place]
    omega
  · rintro ⟨member, low, high⟩
    obtain ⟨place, within, rfl⟩ := List.mem_iff_getElem.mp member
    rw [ascends.rank_eq (List.getElem?_eq_getElem within)] at low high
    refine List.mem_take_iff_getElem.mpr ⟨place - offset, by rw [List.length_drop]; omega, ?_⟩
    rw [List.getElem_drop]
    congr 1
    omega

end ImmutableLedger.Query
