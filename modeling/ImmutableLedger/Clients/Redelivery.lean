import Mathlib.Data.List.Basic

/-! Deliveries that are made over and over to a store that grows.

Every attempt finds the store as the attempts before it and everyone else have left it, and yields a
response and what it adds. Nothing here depends on what is stored.
-/

set_option autoImplicit false

namespace ImmutableLedger.Redelivery

variable {Attempt Response Entry : Type} (meanwhile : Attempt → List Entry)
  (deliver : Attempt → List Entry → Response × List Entry)

/-- The responses to some attempts, and all that they add. -/
def deliverAll : List Attempt → List Entry → List (Attempt × Response) × List Entry
  | [], _ => ([], [])
  | attempt :: rest, stored =>
    let found := stored ++ meanwhile attempt
    let (response, added) := deliver attempt found
    let (responses, more) := deliverAll rest (found ++ added)
    ((attempt, response) :: responses, added ++ more)

variable (succeeded : Response → Prop) (reached : Attempt → Prop)

/-- However often something is delivered, at most one entry is added, and once a delivery has
succeeded every one that reaches the store has the same response. -/
def RecordedOnce : Prop :=
  ∀ attempts stored, (deliverAll meanwhile deliver attempts stored).2.length ≤ 1 ∧
    (deliverAll meanwhile deliver attempts stored).1.Pairwise fun earlier later =>
      succeeded earlier.2 → reached later.1 → later.2 = earlier.2

/-- What a store with a response settled in it answers from then on. -/
structure Settles (Settled : Response → List Entry → Prop) : Prop where
  keep : ∀ {response stored} more, Settled response stored → Settled response (stored ++ more)
  added : ∀ {attempt stored}, (deliver attempt stored).2.length ≤ 1
  failed : ∀ {attempt stored}, ¬ succeeded (deliver attempt stored).1 →
    (deliver attempt stored).2 = []
  settle : ∀ {attempt stored}, succeeded (deliver attempt stored).1 →
    Settled (deliver attempt stored).1 (stored ++ (deliver attempt stored).2)
  quiet : ∀ {attempt response stored}, Settled response stored → (deliver attempt stored).2 = []
  same : ∀ {attempt response stored}, Settled response stored → reached attempt →
    (deliver attempt stored).1 = response

variable {meanwhile deliver succeeded reached} {Settled : Response → List Entry → Prop}

/-- After a response is settled nothing is added, and it is the answer to every attempt. -/
theorem Settles.deliverAll_settled (settles : Settles deliver succeeded reached Settled)
    {response : Response} {attempts : List Attempt} {stored : List Entry}
    (settled : Settled response stored) :
    (deliverAll meanwhile deliver attempts stored).2 = [] ∧
      ∀ answer ∈ (deliverAll meanwhile deliver attempts stored).1, reached answer.1 →
        answer.2 = response := by
  induction attempts generalizing stored with
  | nil => exact ⟨rfl, fun _ none => absurd none List.not_mem_nil⟩
  | cons attempt rest ih =>
    have found := settles.keep (meanwhile attempt) settled
    have quiet : (deliver attempt (stored ++ meanwhile attempt)).2 = [] := settles.quiet found
    obtain ⟨nothing, others⟩ := ih (settles.keep (deliver attempt (stored ++ meanwhile attempt)).2 found)
    constructor
    · exact List.append_eq_nil_iff.mpr ⟨quiet, nothing⟩
    · exact List.forall_mem_cons.mpr ⟨settles.same found, others⟩

theorem Settles.recordedOnce (settles : Settles deliver succeeded reached Settled) :
    RecordedOnce meanwhile deliver succeeded reached := by
  intro attempts stored
  induction attempts generalizing stored with
  | nil => exact ⟨Nat.zero_le _, List.Pairwise.nil⟩
  | cons attempt rest ih =>
    -- Until an attempt succeeds nothing is added, and from then on everything is settled.
    by_cases success : succeeded (deliver attempt (stored ++ meanwhile attempt)).1
    · obtain ⟨nothing, same⟩ :=
        @Settles.deliverAll_settled _ _ _ meanwhile _ _ _ _ settles _ rest _ (settles.settle success)
      constructor
      · show ((deliver attempt (stored ++ meanwhile attempt)).2 ++ _).length ≤ 1
        rw [nothing, List.append_nil]
        exact settles.added
      · exact List.pairwise_cons.mpr ⟨fun answer held _ reached => same answer held reached, (ih _).2⟩
    · obtain ⟨bound, pairs⟩ :=
        ih (stored ++ meanwhile attempt ++ (deliver attempt (stored ++ meanwhile attempt)).2)
      constructor
      · rw [deliverAll, List.length_append, settles.failed success]
        rw [settles.failed success] at bound
        simpa using bound
      · exact List.pairwise_cons.mpr ⟨fun answer held earlier => absurd earlier success, pairs⟩

end ImmutableLedger.Redelivery
