import ImmutableLedger.Query.Paging

/-! Arrangements of rows whose sort key does not decide about all of them.

Two arrangements of the same rows have the same rows before a cut, unless the cut falls between
rows with the same key. There it can be moved from one of them to another.
-/

set_option autoImplicit false

namespace ImmutableLedger.Query

variable {α κ : Type} [LinearOrder κ] (key : α → κ)

/-- An order that ORDER BY allows. -/
structure Arranges (rows listing : List α) : Prop where
  perm : listing.Perm rows
  sorted : listing.Pairwise fun first second => key first ≤ key second

/-- The cut has some of the rows with one key before it, and others behind it. -/
def CutsTie (rows : List α) (cut : Nat) : Prop :=
  ∃ row ∈ rows, rank key row rows < cut ∧ cut < rows.countP fun other => decide (key other ≤ key row)

variable {key} {rows listing other : List α} {cut : Nat}

/-! Places in an arrangement. -/

theorem Arranges.le_of_le (arranged : Arranges key rows listing) {i j : Nat} (ordered : i ≤ j)
    (within : j < listing.length) : key listing[i] ≤ key listing[j] := by
  rcases Nat.eq_or_lt_of_le ordered with rfl | before
  · exact le_refl _
  · exact List.pairwise_iff_getElem.mp arranged.sorted i j (by omega) within before

theorem countP_split (rows : List α) (cut : Nat) (select : α → Bool) :
    rows.countP select = (rows.take cut).countP select + (rows.drop cut).countP select := by
  rw [← List.countP_append, List.take_append_drop]

/-- On both sides of such a cut stand rows with the same key. -/
theorem CutsTie.split (cuts : CutsTie key rows cut) (arranged : Arranges key rows listing) :
    ∃ front first second rest, listing = front ++ first :: second :: rest ∧
      front.length + 1 = cut ∧ key first = key second := by
  obtain ⟨row, -, low, high⟩ := cuts
  obtain ⟨place, rfl⟩ : ∃ place, cut = place + 1 := ⟨cut - 1, by omega⟩
  have within : place + 1 < listing.length := by
    have most := List.countP_le_length (p := fun other => decide (key other ≤ key row)) (l := rows)
    rw [arranged.perm.length_eq]
    omega
  -- As many rows as stand before the cut cannot all be below the tied key.
  have above : key row ≤ key listing[place] := by
    by_contra below
    rw [not_le] at below
    have all : (listing.take (place + 1)).countP (fun other => decide (key other < key row)) =
        (listing.take (place + 1)).length := by
      apply List.countP_eq_length.mpr
      intro other member
      obtain ⟨j, near, rfl⟩ := List.mem_take_iff_getElem.mp member
      exact decide_eq_true (lt_of_le_of_lt (arranged.le_of_le (by omega) (by omega)) below)
    rw [← rank_perm arranged.perm, rank, countP_split listing (place + 1), all,
      List.length_take] at low
    omega
  -- And the rows behind the cut are not all above it.
  have below : key listing[place + 1] ≤ key row := by
    by_contra above
    rw [not_le] at above
    have none : (listing.drop (place + 1)).countP (fun other => decide (key other ≤ key row)) = 0 := by
      apply List.countP_eq_zero.mpr
      intro other member
      obtain ⟨j, far, rfl⟩ := List.mem_drop_iff_getElem.mp member
      have beyond := lt_of_lt_of_le above
        (arranged.le_of_le (i := place + 1) (j := place + 1 + j) (by omega) (by omega))
      simpa using beyond
    have most := List.countP_le_length (p := fun other => decide (key other ≤ key row))
      (l := listing.take (place + 1))
    rw [← arranged.perm.countP_eq, countP_split listing (place + 1), none] at high
    rw [List.length_take] at most
    omega
  have ordered := arranged.le_of_le (Nat.le_succ place) within
  refine ⟨listing.take place, listing[place], listing[place + 1], listing.drop (place + 2), ?_, ?_, ?_⟩
  · rw [← List.drop_eq_getElem_cons within, ← List.drop_eq_getElem_cons, List.take_append_drop]
  · rw [List.length_take]
    omega
  · exact le_antisymm ordered (below.trans above)

/-- Rows with the same key may change places. -/
theorem Arranges.swap {front rest : List α} {first second : α}
    (arranged : Arranges key rows (front ++ first :: second :: rest)) (same : key first = key second) :
    Arranges key rows (front ++ second :: first :: rest) where
  perm := ((List.Perm.swap first second rest).append_left front).trans arranged.perm
  sorted := by
    have sorted := arranged.sorted
    simp only [List.pairwise_append, List.pairwise_cons, List.mem_cons, forall_eq_or_imp] at sorted ⊢
    obtain ⟨before, ⟨⟨between, firstRest⟩, secondRest, behind⟩, across⟩ := sorted
    refine ⟨before, ⟨⟨same.ge, secondRest⟩, firstRest, behind⟩, ?_⟩
    intro row member
    obtain ⟨toFirst, toSecond, toRest⟩ := across row member
    exact ⟨toSecond, toFirst, toRest⟩

end ImmutableLedger.Query
