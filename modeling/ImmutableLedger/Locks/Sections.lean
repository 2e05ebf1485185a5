import ImmutableLedger.Service.Reasoning

/-! Chain locks.

A lock belongs to a thread from `acquire` to `release`, and the lock of a chain is the same for
as long as its instance runs. So at most one thread at a time is in the section of a chain, and
it is there until it leaves.
-/

set_option autoImplicit false

namespace ImmutableLedger

open Concurrency

variable {Store : Type}

/-- A thread is in the section of a chain of its instance. -/
def ServiceState.InSection (state : ServiceState Store) (thread client : Nat) (entryType : String) :
    Prop :=
  ∃ lock, (state.runtime client).chainLocks entryType = some lock ∧
    state.holder lock = some thread

theorem ServiceState.InSection.unique {state : ServiceState Store} {first second client : Nat}
    {entryType : String} (inSection : state.InSection first client entryType)
    (also : state.InSection second client entryType) : first = second := by
  obtain ⟨lock, located, held⟩ := inSection
  obtain ⟨other, alsoLocated, alsoHeld⟩ := also
  obtain rfl := Option.some.inj (located.symm.trans alsoLocated)
  exact Option.some.inj (held.symm.trans alsoHeld)

/-- What is kept of the locks of a thread. -/
structure KeepsLocks (thread : Nat) (before after : ServiceState Store) : Prop where
  located : ∀ client entryType lock,
    (before.runtime client).chainLocks entryType = some lock →
      (after.runtime client).chainLocks entryType = some lock
  held : ∀ lock, before.holder lock = some thread → after.holder lock = some thread

namespace KeepsLocks

variable {thread : Nat} {first second third : ServiceState Store}

theorem refl (thread : Nat) (state : ServiceState Store) : KeepsLocks thread state state :=
  ⟨fun _ _ _ => id, fun _ => id⟩

theorem trans (keeps : KeepsLocks thread first second) (again : KeepsLocks thread second third) :
    KeepsLocks thread first third :=
  ⟨fun client entryType lock => again.located client entryType lock ∘
    keeps.located client entryType lock, fun lock => again.held lock ∘ keeps.held lock⟩

theorem inSection (keeps : KeepsLocks thread first second) {client : Nat} {entryType : String}
    (inside : first.InSection thread client entryType) :
    second.InSection thread client entryType := by
  obtain ⟨lock, located, held⟩ := inside
  exact ⟨lock, keeps.located client entryType lock located, keeps.held lock held⟩

end KeepsLocks

theorem ServiceState.keepsLocks_releaseAll (state : ServiceState Store) {thread other : Nat}
    (another : other ≠ thread) : KeepsLocks other state (state.releaseAll thread) := by
  refine ⟨fun _ _ _ => id, fun lock held => ?_⟩
  simp only [releaseAll, held]
  exact if_neg fun same => another (Option.some.inj same)

theorem ServiceState.chainLocks_setHalted (state : ServiceState Store) (client other : Nat)
    (entryType : String) (halted : Option Nat) :
    ((state.setHalted client entryType halted).runtime other).chainLocks =
      (state.runtime other).chainLocks := by
  by_cases same : other = client
  · subst same
    simp [setHalted]
  · simp [setHalted, same]

theorem ServiceState.chainLocks_createLock (state : ServiceState Store) (client other : Nat)
    (entryType another : String) :
    ((state.createLock client entryType).runtime other).chainLocks another =
      if other = client ∧ another = entryType then some state.locksCreated
      else (state.runtime other).chainLocks another := by
  by_cases same : other = client
  · subst same
    by_cases typed : another = entryType
    · subst typed
      simp [createLock]
    · simp [createLock, typed]
  · simp [createLock, same]

/-- Only `release` takes a lock away, and only from the thread that holds it. -/
theorem Backend.answers_keepsLocks {backend : Backend} {thread client other : Nat}
    {request : ServiceRequest} {reply : request.Reply} {before after : ServiceState backend.Store}
    (answered : backend.answers thread client request before reply after)
    (spared : ∀ lock, request = .release lock → before.holder lock ≠ some other) :
    KeepsLocks other before after := by
  cases request with
  | repository request =>
    obtain ⟨store, -, rfl⟩ := answered
    exact ⟨fun _ _ _ => id, fun _ => id⟩
  | chainHaltedElapsed entryType =>
    obtain ⟨-, rfl⟩ := answered
    exact .refl other _
  | chainHaltedRemove entryType =>
    obtain rfl := answered
    refine ⟨fun another named lock located => ?_, fun _ => id⟩
    rwa [before.chainLocks_setHalted]
  | chainHaltedInsert entryType =>
    obtain rfl := answered
    refine ⟨fun another named lock located => ?_, fun _ => id⟩
    rwa [before.chainLocks_setHalted]
  | chainLock entryType =>
    simp only [answers] at answered
    split at answered
    · obtain ⟨-, rfl⟩ := answered
      exact .refl other _
    · next missing =>
      obtain ⟨-, rfl⟩ := answered
      refine ⟨fun another named lock located => ?_, fun _ => id⟩
      rw [before.chainLocks_createLock, if_neg]
      · exact located
      · rintro ⟨rfl, rfl⟩
        cases missing.symm.trans located
  | acquire lock =>
    obtain ⟨free, rfl⟩ := answered
    refine ⟨fun _ _ _ => id, fun another held => ?_⟩
    have different : another ≠ lock := fun same => by
      rw [same, free] at held
      cases held
    exact (Function.update_of_ne different _ _).trans held
  | release lock =>
    obtain rfl := answered
    refine ⟨fun _ _ _ => id, fun another held => ?_⟩
    have different : another ≠ lock := fun same => spared lock rfl (same ▸ held)
    exact (Function.update_of_ne different _ _).trans held
  | utcNow =>
    obtain rfl := answered
    exact .refl other _
  | sleep millis =>
    obtain rfl := answered
    exact .refl other _
  | publish record =>
    obtain rfl := answered
    exact .refl other _

/-- The reply to `chainLock` is the lock of the chain from then on. -/
theorem Backend.answers_chainLock {backend : Backend} {thread client : Nat} {entryType : String}
    {lock : Nat} {before after : ServiceState backend.Store}
    (answered : backend.answers thread client (.chainLock entryType) before lock after) :
    (after.runtime client).chainLocks entryType = some lock := by
  simp only [answers] at answered
  split at answered
  · next located =>
    obtain ⟨rfl, rfl⟩ := answered
    exact located
  · obtain ⟨rfl, rfl⟩ := answered
    rw [before.chainLocks_createLock, if_pos ⟨rfl, rfl⟩]

theorem Backend.answers_acquire {backend : Backend} {thread client lock : Nat}
    {reply : ServiceRequest.Reply (.acquire lock)} {before after : ServiceState backend.Store}
    (answered : backend.answers thread client (.acquire lock) before reply after) :
    after.holder lock = some thread := by
  obtain ⟨-, rfl⟩ := answered
  exact Function.update_self _ _ _

end ImmutableLedger
