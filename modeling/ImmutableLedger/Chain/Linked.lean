import Mathlib.Data.List.Forall2
import Mathlib.Data.List.Induction

/-! Sequences linked by hashes.

Every row carries the hash of the row before it, and the first one a genesis value. If a
hash determines what its row binds, and that includes the row's own link, then a hash shared
by two linked sequences determines everything that comes before it in either of them.
-/

set_option autoImplicit false

namespace ImmutableLedger.Chain

variable {α ν : Type} (previous hash : α → ν)

/-- The hash a walk carries after `rows`. -/
def lastHash (genesis : ν) (rows : List α) : ν :=
  rows.foldl (fun _ row => hash row) genesis

def Linked (genesis : ν) : List α → Prop
  | [] => True
  | row :: rest => previous row = genesis ∧ Linked (hash row) rest

variable {previous hash}

@[simp] theorem lastHash_nil (genesis : ν) : lastHash hash genesis [] = genesis := rfl

@[simp] theorem lastHash_cons (genesis : ν) (row : α) (rest : List α) :
    lastHash hash genesis (row :: rest) = lastHash hash (hash row) rest := rfl

@[simp] theorem lastHash_append (genesis : ν) (first second : List α) :
    lastHash hash genesis (first ++ second) = lastHash hash (lastHash hash genesis first) second :=
  List.foldl_append

@[simp] theorem linked_nil (genesis : ν) : Linked previous hash genesis [] := trivial

@[simp] theorem linked_cons {genesis : ν} {row : α} {rest : List α} :
    Linked previous hash genesis (row :: rest) ↔
      previous row = genesis ∧ Linked previous hash (hash row) rest := Iff.rfl

@[simp] theorem linked_append {genesis : ν} {first second : List α} :
    Linked previous hash genesis (first ++ second) ↔
      Linked previous hash genesis first ∧
        Linked previous hash (lastHash hash genesis first) second := by
  induction first generalizing genesis with
  | nil => simp
  | cons row rest ih => simp [ih, and_assoc]

theorem linked_concat {genesis : ν} {rows : List α} {row : α} :
    Linked previous hash genesis (rows ++ [row]) ↔
      Linked previous hash genesis rows ∧ previous row = lastHash hash genesis rows := by
  simp

theorem Linked.of_prefix {genesis : ν} {front rows : List α}
    (linked : Linked previous hash genesis rows) (part : front <+: rows) :
    Linked previous hash genesis front := by
  obtain ⟨rest, rfl⟩ := part
  exact (linked_append.mp linked).1

/-- Two linked sequences that end in the same hash agree throughout. `same` is what a hash
binds of a row, and no row of either sequence hashes to the genesis value. -/
theorem Linked.agree {same : α → α → Prop} {genesis : ν} {first second : List α} {a b : α}
    (binds : ∀ x ∈ first ++ [a], ∀ y ∈ second ++ [b], hash x = hash y →
      same x y ∧ previous x = previous y)
    (genesisFirst : ∀ x ∈ first, hash x ≠ genesis) (genesisSecond : ∀ y ∈ second, hash y ≠ genesis)
    (linkedFirst : Linked previous hash genesis (first ++ [a]))
    (linkedSecond : Linked previous hash genesis (second ++ [b]))
    (shared : hash a = hash b) : List.Forall₂ same (first ++ [a]) (second ++ [b]) := by
  obtain ⟨beforeA, linkA⟩ := linked_concat.mp linkedFirst
  obtain ⟨beforeB, linkB⟩ := linked_concat.mp linkedSecond
  obtain ⟨sameLast, links⟩ := binds a (by simp) b (by simp) shared
  rw [linkA, linkB] at links
  -- The links below the shared hash agree, so the induction goes down both sequences at once.
  induction first using List.reverseRecOn generalizing second a b with
  | nil =>
    rcases List.eq_nil_or_concat second with rfl | ⟨rest, y, rfl⟩
    · simpa using sameLast
    · exact absurd (by simpa using links.symm) (genesisSecond y (by simp))
  | append_singleton start x ih =>
    rcases List.eq_nil_or_concat second with rfl | ⟨rest, y, rfl⟩
    · exact absurd (by simpa using links) (genesisFirst x (by simp))
    · rw [List.concat_eq_append] at *
      have hashes : hash x = hash y := by simpa using links
      obtain ⟨sameXY, linksXY⟩ := binds x (by simp) y (by simp) hashes
      obtain ⟨earlierX, linkX⟩ := linked_concat.mp beforeA
      obtain ⟨earlierY, linkY⟩ := linked_concat.mp beforeB
      rw [linkX, linkY] at linksXY
      refine List.rel_append (ih ?_ ?_ ?_ beforeA beforeB hashes earlierX linkX earlierY linkY sameXY
        linksXY) (List.Forall₂.cons sameLast List.Forall₂.nil)
      · intro x' memberX y' memberY
        exact binds x' (List.mem_append_left _ memberX) y' (List.mem_append_left _ memberY)
      · exact fun x' member => genesisFirst x' (List.mem_append_left _ member)
      · exact fun y' member => genesisSecond y' (List.mem_append_left _ member)

end ImmutableLedger.Chain
