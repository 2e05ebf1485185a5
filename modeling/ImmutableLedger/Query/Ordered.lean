import Mathlib.Data.List.Sort
import Mathlib.Data.List.Nodup

/-! Ordered queries over rows whose sort key is unique.

`orderBy` is ORDER BY over a list of rows in any order. When no two rows share a key the
result is determined by the set of rows alone, so it commutes with selection, and a table
can be read page by page, each page starting after the last key of the one before.
-/

set_option autoImplicit false

namespace ImmutableLedger.Query

variable {α κ : Type} [LinearOrder κ] (key : α → κ)

def orderBy (rows : List α) : List α := rows.insertionSort fun a b => key a ≤ key b

theorem orderBy_perm (rows : List α) : (orderBy key rows).Perm rows :=
  List.perm_insertionSort _ rows

@[simp] theorem mem_orderBy {row : α} {rows : List α} : row ∈ orderBy key rows ↔ row ∈ rows :=
  List.mem_insertionSort _

@[simp] theorem length_orderBy (rows : List α) : (orderBy key rows).length = rows.length :=
  List.length_insertionSort _ rows

theorem orderBy_pairwise (rows : List α) :
    (orderBy key rows).Pairwise fun a b => key a ≤ key b := by
  have : Std.Total fun a b : α => key a ≤ key b := ⟨fun a b => le_total (key a) (key b)⟩
  have : IsTrans α fun a b : α => key a ≤ key b := ⟨fun _ _ _ first second => first.trans second⟩
  exact List.pairwise_insertionSort _ rows

variable {key}

/-- Rows in strictly ascending order of their key. -/
def Ascending (key : α → κ) (rows : List α) : Prop := rows.Pairwise fun a b => key a < key b

theorem orderBy_ascending {rows : List α} (unique : (rows.map key).Nodup) :
    Ascending key (orderBy key rows) := by
  have distinct : ((orderBy key rows).map key).Nodup :=
    ((orderBy_perm key rows).map key).nodup_iff.mpr unique
  rw [List.Nodup, List.pairwise_map] at distinct
  exact (orderBy_pairwise key rows).imp₂ (fun _ _ le ne => lt_of_le_of_ne le ne) distinct

/-- Two ascending lists of the same rows are the same list. -/
theorem Ascending.eq_of_perm {first second : List α} (firstAscends : Ascending key first)
    (secondAscends : Ascending key second) (perm : first.Perm second) : first = second :=
  perm.eq_of_pairwise (fun _ _ _ _ lt gt => absurd (lt.trans gt) (lt_irrefl _)) firstAscends
    secondAscends

theorem Ascending.head?_le {rows : List α} {first row : α} (ascends : Ascending key rows)
    (found : rows.head? = some first) (member : row ∈ rows) : key first ≤ key row := by
  obtain ⟨rest, rfl⟩ := List.head?_eq_some_iff.mp found
  rcases List.mem_cons.mp member with rfl | later
  · exact le_refl _
  · exact le_of_lt (List.rel_of_pairwise_cons ascends later)

/-- Rows below a row come before it. -/
theorem Ascending.mem_before {before rest : List α} {row other : α}
    (ascends : Ascending key (before ++ row :: rest)) (member : other ∈ before ++ row :: rest)
    (below : key other < key row) : other ∈ before := by
  obtain ⟨-, tail, -⟩ := List.pairwise_append.mp ascends
  rcases List.mem_append.mp member with early | late
  · exact early
  · have above := Ascending.head?_le tail rfl late
    exact absurd (lt_of_lt_of_le below above) (lt_irrefl _)

theorem Ascending.filter {rows : List α} (ascends : Ascending key rows) (select : α → Bool) :
    Ascending key (rows.filter select) :=
  List.Pairwise.filter _ ascends

theorem Ascending.orderBy_eq {rows : List α} (ascends : Ascending key rows) :
    orderBy key rows = rows :=
  List.Pairwise.insertionSort_eq (ascends.imp fun lt => le_of_lt lt)

omit [LinearOrder κ] in
theorem nodup_map_filter {rows : List α} (unique : (rows.map key).Nodup) (select : α → Bool) :
    ((rows.filter select).map key).Nodup :=
  unique.sublist ((List.filter_sublist).map key)

theorem orderBy_filter {rows : List α} (unique : (rows.map key).Nodup) (select : α → Bool) :
    orderBy key (rows.filter select) = (orderBy key rows).filter select :=
  (orderBy_ascending (nodup_map_filter unique select)).eq_of_perm
    ((orderBy_ascending unique).filter select)
    ((orderBy_perm key _).trans ((orderBy_perm key rows).symm.filter select))

/-- A row with a key above all others comes last. -/
theorem orderBy_concat {rows : List α} {row : α} (unique : (rows.map key).Nodup)
    (greatest : ∀ other ∈ rows, key other < key row) :
    orderBy key (rows ++ [row]) = orderBy key rows ++ [row] := by
  have ascends : Ascending key (orderBy key rows ++ [row]) :=
    List.pairwise_append.mpr ⟨orderBy_ascending unique, List.pairwise_singleton _ _,
      fun other member last same => by
        obtain rfl := List.mem_singleton.mp same
        exact greatest other ((mem_orderBy key).mp member)⟩
  have distinct : ((rows ++ [row]).map key).Nodup := by
    rw [List.map_append, List.nodup_append]
    refine ⟨unique, List.nodup_singleton _, fun a member b same => ?_⟩
    obtain ⟨other, found, rfl⟩ := List.mem_map.mp member
    obtain rfl := List.mem_singleton.mp same
    exact ne_of_lt (greatest other found)
  exact (orderBy_ascending distinct).eq_of_perm ascends
    ((orderBy_perm key _).trans ((orderBy_perm key rows).symm.append_right [row]))

/-- The descending order is the ascending one read backwards. -/
theorem orderBy_dual {rows : List α} (unique : (rows.map key).Nodup) :
    orderBy (fun row => OrderDual.toDual (key row)) rows = (orderBy key rows).reverse := by
  have distinct : (rows.map fun row => OrderDual.toDual (key row)).Nodup := unique
  refine (orderBy_ascending distinct).eq_of_perm ?_
    ((orderBy_perm _ rows).trans ((orderBy_perm key rows).symm.trans (List.reverse_perm _).symm))
  exact List.pairwise_reverse.mpr (orderBy_ascending unique)

/-! Reading an ascending list page by page. -/

/-- The rows above a bound. -/
def above (key : α → κ) (bound : κ) (rows : List α) : List α :=
  rows.filter fun row => decide (bound < key row)

theorem Ascending.above_self {rows : List α} {row : α} (ascends : Ascending key (row :: rows)) :
    above key (key row) (row :: rows) = rows := by
  obtain ⟨greater, -⟩ := List.pairwise_cons.mp ascends
  simpa [above, lt_irrefl] using greater

/-- What is above the last row of a page is what the page left out. -/
theorem Ascending.above_last {rows : List α} (ascends : Ascending key rows) (before : List α)
    (last : α) (rest : List α) (split : rows = before ++ last :: rest) :
    above key (key last) rows = rest := by
  subst split
  obtain ⟨-, tail, lower⟩ := List.pairwise_append.mp ascends
  have low : above key (key last) before = [] :=
    List.filter_eq_nil_iff.mpr fun row member => by
      simpa using le_of_lt (lower row member last List.mem_cons_self)
  have high : above key (key last) (last :: rest) = rest := Ascending.above_self tail
  rw [above, List.filter_append, ← above, ← above, low, high, List.nil_append]

theorem above_above {rows : List α} {low high : κ} (le : low ≤ high) :
    above key high (above key low rows) = above key high rows := by
  rw [above, above, List.filter_filter, above]
  refine List.filter_congr fun row _ => ?_
  by_cases reached : high < key row
  · simp [reached, lt_of_le_of_lt le reached]
  · simp [reached]

/-- The lowest of the rows above a bound is found first. -/
theorem Ascending.head?_above {rows : List α} {row : α} {bound : κ} (ascends : Ascending key rows)
    (member : row ∈ rows) (higher : bound < key row)
    (least : ∀ other ∈ rows, bound < key other → key row ≤ key other) :
    (above key bound rows).head? = some row := by
  obtain ⟨front, rest, rfl⟩ := List.append_of_mem member
  obtain ⟨-, -, lower⟩ := List.pairwise_append.mp ascends
  -- What stands before the row is below it, and so not above the bound.
  have low : above key bound front = [] := by
    apply List.filter_eq_nil_iff.mpr
    intro other early
    have under := lower other early row List.mem_cons_self
    have outside : ¬bound < key other := fun reached =>
      absurd (least other (List.mem_append_left _ early) reached) (not_le_of_gt under)
    simpa using outside
  rw [above, List.filter_append, ← above, low, List.nil_append, List.filter_cons_of_pos]
  · rfl
  · exact decide_eq_true higher

/-- The rows up to a bound. -/
def upTo (key : α → κ) (bound : κ) (rows : List α) : List α :=
  rows.filter fun row => decide (key row ≤ bound)

theorem Ascending.upTo_last {rows : List α} (ascends : Ascending key rows) {before rest : List α}
    {last : α} (split : rows = before ++ last :: rest) :
    upTo key (key last) rows = before ++ [last] := by
  subst split
  obtain ⟨-, tail, lower⟩ := List.pairwise_append.mp ascends
  have kept : upTo key (key last) before = before := List.filter_eq_self.mpr fun row member =>
    decide_eq_true (le_of_lt (lower row member last List.mem_cons_self))
  have dropped : upTo key (key last) rest = [] := List.filter_eq_nil_iff.mpr fun row member => by
    simpa using List.rel_of_pairwise_cons tail member
  rw [upTo, List.filter_append, List.filter_cons_of_pos (by simp), ← upTo, ← upTo, kept, dropped]

theorem Ascending.upTo_append_above {rows : List α} (ascends : Ascending key rows) (bound : κ) :
    upTo key bound rows ++ above key bound rows = rows := by
  induction rows with
  | nil => rfl
  | cons row rest ih =>
    obtain ⟨greater, onward⟩ := List.pairwise_cons.mp ascends
    by_cases within : key row ≤ bound
    · rw [upTo, above, List.filter_cons_of_pos (by simpa using within),
        List.filter_cons_of_neg (by simpa using within)]
      exact congrArg (row :: ·) (ih onward)
    · -- The first row is beyond the bound, and so are all others.
      rw [not_le] at within
      have nothing : upTo key bound (row :: rest) = [] := by
        apply List.filter_eq_nil_iff.mpr
        intro other member
        have beyond : bound < key other := by
          rcases List.mem_cons.mp member with rfl | later
          · exact within
          · exact within.trans (greater other later)
        simpa using beyond
      rw [nothing, List.nil_append]
      apply List.filter_eq_self.mpr
      intro other member
      rcases List.mem_cons.mp member with rfl | later
      · exact decide_eq_true within
      · exact decide_eq_true (within.trans (greater other later))

end ImmutableLedger.Query
