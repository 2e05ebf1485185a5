import Mathlib.Logic.Function.Basic
import Mathlib.Tactic.Basic

/-! Counters of what became of the lines of an input. -/

set_option autoImplicit false

namespace ImmutableLedger.Adapters

variable {α : Type} [DecidableEq α] {stats : α → Nat} {first second : α}

/-- `stats[outcome] += 1` -/
def increase (stats : α → Nat) (outcome : α) : α → Nat :=
  Function.update stats outcome (stats outcome + 1)

/-- One of the counters is greater by one, and the others are as they were. -/
def CountsOne (before after : α → Nat) : Prop := ∃ outcome, after = increase before outcome

theorem increase_countsOne (outcome : α) : CountsOne stats (increase stats outcome) := ⟨outcome, rfl⟩

end ImmutableLedger.Adapters
