import ImmutableLedger.Locks.Sections
import ImmutableLedger.Service.Conversations

/-! The discipline of locks.

A call takes one lock at a time and gives it back before it returns. So whoever waits for a lock
waits for a thread that does not wait for one itself, whatever instances run and whatever becomes
of their calls.
-/

set_option autoImplicit false

namespace ImmutableLedger

open Concurrency

variable {α β : Type} {held between left : Option Nat}

/-- A lock is asked for where none is held, and the lock that is held is given back. -/
def ServiceRequest.Takes (held : Option Nat) : ServiceRequest → Prop
  | .acquire _ => held = none
  | .release lock => held = some lock
  | _ => True

/-- What is held after the reply. -/
def ServiceRequest.heldAfter (held : Option Nat) : ServiceRequest → Option Nat
  | .acquire lock => some lock
  | .release _ => none
  | _ => held

/-- A program that starts with one lock or none, keeps to the discipline, and returns with one lock
or none. -/
def Orderly (left : Option Nat) : Option Nat → Program services α → Prop
  | held, .done _ => held = left
  | held, .call request resume =>
      request.Takes held ∧ ∀ reply, Orderly left (request.heldAfter held) (resume reply)
  | held, .unfinished => held = none

namespace Orderly

theorem bind {program : Program services α} {next : α → Program services β}
    (first : Orderly between held program) (second : ∀ value, Orderly left between (next value)) :
    Orderly left held (program >>= next) := by
  induction program generalizing held with
  | done value =>
    obtain rfl : held = between := first
    exact second value
  | call request resume ih => exact ⟨first.1, fun reply => ih reply (first.2 reply)⟩
  | unfinished => exact first

/-- An error ends a program that would have kept what it holds. -/
theorem exceptBind {call : Call α} {next : α → Call β} (first : Orderly held held call.run)
    (second : ∀ value, Orderly held held (next value).run) :
    Orderly held held (call >>= next).run := by
  rw [ExceptT.run_bind]
  refine first.bind fun result => ?_
  cases result with
  | ok value => exact second value
  | error err => exact rfl

/-- One request that is about no lock. -/
theorem call {request : ServiceRequest} {resume : request.Reply → Program services α}
    (takes : request.Takes held) (kept : request.heldAfter held = held)
    (continues : ∀ reply, Orderly left held (resume reply)) :
    Orderly left held (.call request resume) := by
  refine ⟨takes, fun reply => ?_⟩
  rw [kept]
  exact continues reply

end Orderly

/-! The calls of the service. -/

section

variable (service : Instance) (input : WriteEntryInput)

theorem checkHalt_orderly (config : AppConfig) :
    Orderly held held (checkHalt config input.entryType).run := by
  refine Orderly.exceptBind (Orderly.call trivial rfl fun _ => rfl) fun elapsed => ?_
  cases elapsed with
  | none => exact rfl
  | some elapsed =>
    dsimp only
    split
    · exact rfl
    · exact Orderly.call trivial rfl fun _ => rfl

theorem findReplay_orderly : Orderly held held (findReplay input).run := by
  unfold findReplay
  split
  · exact rfl
  · refine Orderly.exceptBind (Orderly.call trivial rfl fun _ => rfl) fun found => ?_
    cases found with
    | none => exact rfl
    | some existing => exact Orderly.exceptBind rfl fun _ => rfl

theorem replayConflict_orderly : Orderly held held (replayConflict input).run := by
  unfold replayConflict
  split
  · exact rfl
  · refine Orderly.exceptBind (Orderly.call trivial rfl fun _ => rfl) fun found => ?_
    cases found with
    | none => exact rfl
    | some existing => exact rfl

variable [Sha256]

theorem currentTipHash_orderly : Orderly held held (currentTipHash service input).run := by
  refine Orderly.exceptBind (Orderly.call trivial rfl fun _ => rfl) fun tip => ?_
  split <;> exact rfl

theorem appendAttempts_orderly (attempt remaining : Nat) :
    Orderly held held (appendAttempts service input attempt remaining).run := by
  induction remaining generalizing attempt with
  | zero => exact rfl
  | succ remaining ih =>
    refine Orderly.exceptBind (currentTipHash_orderly service input) fun previousHash => ?_
    refine Orderly.exceptBind (Orderly.call trivial rfl fun _ => rfl) fun writtenTs => ?_
    refine Orderly.exceptBind (Orderly.call trivial rfl fun _ => rfl) fun reply => ?_
    split
    · exact rfl
    · split
      · exact Orderly.exceptBind (Orderly.call trivial rfl fun _ => rfl) fun _ => ih (attempt + 1)
      · exact Orderly.exceptBind (Orderly.call trivial rfl fun _ => rfl) fun _ => rfl
    · exact replayConflict_orderly input
    · exact rfl

/-- The lock is taken where none is held and given back however the attempts end. -/
theorem appendUnderLock_orderly : Orderly none none (appendUnderLock service input).run := by
  rw [appendUnderLock, run_request_bind]
  refine Orderly.call trivial rfl fun lock => ?_
  rw [run_request_bind]
  refine ⟨rfl, fun _ => ?_⟩
  refine (appendAttempts_orderly service input 0 _).bind fun result => ?_
  exact ⟨rfl, fun _ => rfl⟩

theorem writeEntry_orderly : Orderly none none (writeEntry service input).run := by
  refine Orderly.exceptBind rfl fun _ => ?_
  refine Orderly.exceptBind (checkHalt_orderly input _) fun _ => ?_
  refine Orderly.exceptBind (findReplay_orderly input) fun found => ?_
  cases found with
  | some output => exact rfl
  | none => exact appendUnderLock_orderly service input

end

/-- A delivery is about no lock. -/
theorem orderly_of_delivery {program : Program services α}
    (all : program.All ServiceRequest.IsDelivery) : Orderly none none program := by
  induction program with
  | done value => exact rfl
  | unfinished => exact rfl
  | call request resume ih =>
    obtain ⟨delivery, rest⟩ := all
    refine Orderly.call ?_ ?_ fun reply => ih reply (rest reply)
    · cases request with
      | acquire lock => exact delivery.elim
      | release lock => exact delivery.elim
      | _ => trivial
    · cases request with
      | acquire lock => exact delivery.elim
      | release lock => exact delivery.elim
      | _ => rfl

theorem body_orderly [Sha256] (deployment : Deployment) (task : ServiceTask) :
    Orderly none none (task.body deployment) := by
  cases task with
  | writeEntry client input => exact writeEntry_orderly _ input
  | issueReceipt client input =>
    exact Orderly.exceptBind (writeEntry_orderly _ input) fun _ => rfl
  | outboxProcessor client rounds => exact orderly_of_delivery (startOutboxProcessor_all _ rounds)

/-! Whole runs. -/

/-- Who holds a lock after a request was answered. -/
def ServiceRequest.holderAfter (thread : Nat) (holder : Nat → Option Nat) :
    ServiceRequest → Nat → Option Nat
  | .acquire lock => Function.update holder lock (some thread)
  | .release lock => Function.update holder lock none
  | _ => holder

theorem Backend.answers_holder {backend : Backend} {thread client : Nat} {request : ServiceRequest}
    {reply : request.Reply} {before after : ServiceState backend.Store}
    (answered : backend.answers thread client request before reply after) :
    after.holder = request.holderAfter thread before.holder ∧
      ∀ lock, request = .acquire lock → before.holder lock = none := by
  cases request with
  | repository request =>
    obtain ⟨store, -, rfl⟩ := answered
    exact ⟨rfl, fun lock same => by cases same⟩
  | chainHaltedElapsed entryType =>
    obtain ⟨-, rfl⟩ := answered
    exact ⟨rfl, fun lock same => by cases same⟩
  | chainLock entryType =>
    simp only [answers] at answered
    split at answered
    · obtain ⟨-, rfl⟩ := answered
      exact ⟨rfl, fun lock same => by cases same⟩
    · obtain ⟨-, rfl⟩ := answered
      exact ⟨rfl, fun lock same => by cases same⟩
  | acquire lock =>
    obtain ⟨free, rfl⟩ := answered
    refine ⟨rfl, fun another same => ?_⟩
    cases same
    exact free
  | _ =>
    obtain rfl := answered
    exact ⟨rfl, fun lock same => by cases same⟩

/-- A thread holds exactly the lock its program has taken and not given back, if any, and it has
asked for it. -/
structure Disciplined {backend : Backend} (config : ServiceConfiguration backend) : Prop where
  programs : ∀ i thread, config.threads[i]? = some thread → ∃ held, Orderly none held thread.program ∧
    ∀ lock, ServiceState.holder config.state lock = some i ↔ held = some lock
  holders : ∀ lock i, ServiceState.holder config.state lock = some i → i < config.threads.length ∧
    ⟨.acquire lock, ()⟩ ∈ turnsOf (ServiceState.history config.state) i

variable {backend : Backend} {thread client i : Nat} {request : ServiceRequest}

/-- What a thread holds moves with its program, and what the others hold stays. -/
theorem holder_moves {holder : Nat → Option Nat} (takes : request.Takes held)
    (free : ∀ lock, request = .acquire lock → holder lock = none)
    (own : ∀ lock, holder lock = some thread ↔ held = some lock) (lock : Nat) :
    (request.holderAfter thread holder lock = some thread ↔ request.heldAfter held = some lock) ∧
      ∀ other, other ≠ thread →
        (request.holderAfter thread holder lock = some other ↔ holder lock = some other) := by
  cases request with
  | acquire taken =>
    have nothing : held = none := takes
    subst nothing
    simp only [ServiceRequest.holderAfter, ServiceRequest.heldAfter]
    by_cases same : lock = taken
    · subst same
      have unheld := free lock rfl
      simp [unheld, eq_comm]
    · have unheld : holder lock ≠ some thread := fun held => by cases (own lock).mp held
      simp [Function.update_of_ne same, unheld, Ne.symm same]
  | release given =>
    have taken : held = some given := takes
    subst taken
    simp only [ServiceRequest.holderAfter, ServiceRequest.heldAfter]
    by_cases same : lock = given
    · subst same
      have holds : holder lock = some thread := (own lock).mpr rfl
      simp [holds, eq_comm]
    · have unheld : holder lock ≠ some thread := fun held =>
        same (Option.some.inj ((own lock).mp held)).symm
      simp [Function.update_of_ne same, unheld]
  | _ => exact ⟨own lock, fun _ _ => Iff.rfl⟩

/-- What is held after a reply was held before it, or has just been asked for. -/
theorem ServiceRequest.of_heldAfter {lock : Nat} (holds : request.heldAfter held = some lock) :
    request = .acquire lock ∨ held = some lock := by
  cases request with
  | acquire taken => exact .inl (congrArg _ (Option.some.inj holds))
  | release given => cases holds
  | _ => exact .inr holds

theorem ServiceState.holder_releaseAll {Store : Type} (state : ServiceState Store) (lock other : Nat) :
    (state.releaseAll thread).holder lock = some other ↔
      other ≠ thread ∧ state.holder lock = some other := by
  simp only [releaseAll]
  split
  · next holds => simp [holds, eq_comm]
  · next spared =>
    refine ⟨fun holds => ⟨fun same => spared (same ▸ holds), holds⟩, And.right⟩

variable {deployment : Deployment}

/-- Thread `i` has moved on to another program. -/
theorem Disciplined.set {before : ServiceConfiguration backend} (disciplined : Disciplined before)
    {task : ServiceTask} {program : Program services task.Result}
    {after : ServiceState backend.Store} (bound : i < before.threads.length)
    (others : ∀ lock j, j ≠ i →
      (after.holder lock = some j ↔ ServiceState.holder before.state lock = some j))
    (own : Orderly none held program ∧ ∀ lock, after.holder lock = some i ↔ held = some lock)
    (asked : ∀ lock, after.holder lock = some i → ⟨.acquire lock, ()⟩ ∈ turnsOf after.history i)
    (earlier : ∀ j, j ≠ i → turnsOf after.history j =
      turnsOf (ServiceState.history before.state) j) :
    Disciplined (⟨after, before.threads.set i ⟨task, program⟩⟩ : ServiceConfiguration backend) := by
  constructor
  · intro j thread present
    by_cases same : i = j
    · subst same
      rw [List.getElem?_set_self bound] at present
      cases present
      exact ⟨held, own⟩
    · rw [List.getElem?_set_ne same] at present
      obtain ⟨kept, orderly, holds⟩ := disciplined.programs j thread present
      exact ⟨kept, orderly, fun lock => (others lock j (Ne.symm same)).trans (holds lock)⟩
  · intro lock j holds
    rw [List.length_set]
    by_cases same : j = i
    · subst same
      exact ⟨bound, asked lock holds⟩
    · obtain ⟨within, known⟩ := disciplined.holders lock j ((others lock j same).mp holds)
      exact ⟨within, (earlier j same).symm ▸ known⟩

theorem Disciplined.step [Sha256] {before after : ServiceConfiguration backend}
    (disciplined : Disciplined before)
    (step : Step (serviceWorld backend) (ServiceTask.body deployment) before after) :
    Disciplined after := by
  cases step with
  | spawn task =>
    constructor
    · intro i thread present
      by_cases bound : i < before.threads.length
      · rw [List.getElem?_append_left bound] at present
        exact disciplined.programs i thread present
      · obtain ⟨-, rfl⟩ : i - before.threads.length = 0 ∧ thread = ⟨task, task.body deployment⟩ := by
          rw [List.getElem?_append_right (Nat.le_of_not_lt bound)] at present
          simpa [List.getElem?_singleton, eq_comm] using present
        refine ⟨none, body_orderly deployment task, fun lock => ?_⟩
        refine iff_of_false (fun holds => ?_) fun nothing => by cases nothing
        exact bound (disciplined.holders lock i holds).1
    · intro lock i holds
      obtain ⟨within, known⟩ := disciplined.holders lock i holds
      exact ⟨by rw [List.length_append]; omega, known⟩
  | @perform i task request resume reply after running performed =>
    obtain ⟨reached, answered, rfl⟩ := performed
    obtain ⟨held, orderly, own⟩ := disciplined.programs i _ running
    have history : reached.history = ServiceState.history before.state :=
      (backend.answers_frame answered).1
    obtain ⟨holder, free⟩ := backend.answers_holder answered
    have moves := @holder_moves _ i _ _ orderly.1 free own
    refine disciplined.set (List.getElem?_eq_some_iff.mp running).1 (fun lock j other => ?_)
      ⟨orderly.2 reply, fun lock => ?_⟩ (fun lock holds => ?_) fun j other => ?_
    · exact holder ▸ (moves lock).2 j other
    · exact holder ▸ (moves lock).1
    · rw [ServiceState.log, turnsOf_append, if_pos rfl, history]
      rcases ServiceRequest.of_heldAfter ((moves lock).1.mp (holder ▸ holds)) with rfl | earlier
      · exact List.mem_append_right _ (List.mem_singleton_self _)
      · exact List.mem_append_left _ (disciplined.holders lock i ((own lock).mpr earlier)).2
    · rw [ServiceState.log, turnsOf_append, if_neg (Ne.symm other), history]
  | environment moved =>
    obtain ⟨store, -, rfl⟩ | ⟨later, -, rfl⟩ := moved
    · exact ⟨disciplined.programs, disciplined.holders⟩
    · exact ⟨disciplined.programs, disciplined.holders⟩
  | @drop i task request resume after running dropped =>
    -- A thread that is dropped gives back what it held.
    have given : after.history = ServiceState.history before.state ∧
        after.holder = (ServiceState.releaseAll before.state i).holder := by
      obtain rfl | ⟨pending, store, -, -, rfl⟩ := dropped <;> exact ⟨rfl, rfl⟩
    obtain ⟨history, holder⟩ := given
    have released (lock j : Nat) : after.holder lock = some j ↔
        j ≠ i ∧ ServiceState.holder before.state lock = some j :=
      holder ▸ ServiceState.holder_releaseAll before.state lock j
    have nothing (lock : Nat) : after.holder lock ≠ some i := fun holds =>
      ((released lock i).mp holds).1 rfl
    have own : Orderly none none (.unfinished : Program services task.Result) ∧
        ∀ lock, after.holder lock = some i ↔ none = some lock :=
      ⟨rfl, fun lock => iff_of_false (nothing lock) fun same => by cases same⟩
    exact disciplined.set (List.getElem?_eq_some_iff.mp running).1
      (fun lock j other => (released lock j).trans (and_iff_right other)) own
      (fun lock holds => (nothing lock holds).elim) fun j other => history ▸ rfl

/-- By induction on the run. -/
theorem ServiceRun.disciplined [Sha256] {store : backend.Store} {config : ServiceConfiguration backend}
    (run : ServiceRun backend deployment (.initial (.start store)) config) :
    Disciplined config := by
  induction run with
  | refl =>
    constructor
    · intro i thread present
      simp [Configuration.initial] at present
    · intro lock i holds
      cases holds
  | tail _ step ih => exact ih.step step

/-- Whoever holds a lock is in the middle of a call and does not wait for a lock. -/
theorem Disciplined.holder_runs {config : ServiceConfiguration backend}
    (disciplined : Disciplined config) {lock : Nat}
    (holds : ServiceState.holder config.state lock = some i) :
    ∃ (task : ServiceTask) (request : ServiceRequest)
      (resume : request.Reply → Program services task.Result),
        config.threads[i]? = some ⟨task, .call request resume⟩ ∧ ∀ other, request ≠ .acquire other := by
  obtain ⟨within, -⟩ := disciplined.holders lock i holds
  have present := List.getElem?_eq_getElem within
  obtain ⟨held, orderly, own⟩ := disciplined.programs i _ present
  obtain rfl : held = some lock := (own lock).mp holds
  rcases shape : config.threads[i] with ⟨task, program⟩
  rw [shape] at present orderly
  cases program with
  | done value => cases orderly
  | unfinished => cases orderly
  | call request resume =>
    refine ⟨task, request, resume, present, fun other same => ?_⟩
    subst same
    cases orderly.1

end ImmutableLedger
