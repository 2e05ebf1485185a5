import ImmutableLedger.Concurrency.Conversation
import ImmutableLedger.Service.Reasoning

/-! What the threads of a run have asked, as conversations of their tasks. -/

set_option autoImplicit false

namespace ImmutableLedger

open Concurrency

def Event.turn (event : Event) : Turn services := ⟨event.request, event.reply⟩

/-- The requests of one thread that were answered, in the order of their replies. -/
def turnsOf (history : List Event) (thread : Nat) : List (Turn services) :=
  (history.filter fun event => decide (event.thread = thread)).map Event.turn

@[simp] theorem turnsOf_append (history : List Event) (event : Event) (thread : Nat) :
    turnsOf (history ++ [event]) thread =
      if event.thread = thread then turnsOf history thread ++ [event.turn]
      else turnsOf history thread := by
  by_cases same : event.thread = thread <;> simp [turnsOf, same]

/-- What a thread has asked is a conversation of its task, in the middle of which it may have been
dropped. -/
def Converser [Sha256] (deployment : Deployment) (turns : List (Turn services))
    (thread : Thread services ServiceTask.Result) : Prop :=
  ∃ left, (thread.task.body deployment).Converses turns left ∧
    (thread.program = left ∨ thread.program = .unfinished)

variable [Sha256] {backend : Backend} {deployment : Deployment}

/-- What is known of the threads of a run that started with none. -/
structure Conversing (deployment : Deployment) (config : ServiceConfiguration backend) : Prop where
  silent : ∀ i, config.threads.length ≤ i → turnsOf (ServiceState.history config.state) i = []
  known : ∀ i thread, config.threads[i]? = some thread →
    Converser deployment (turnsOf (ServiceState.history config.state) i) thread

/-- Thread `i` has moved on to another program. -/
theorem Conversing.set {before : ServiceConfiguration backend}
    (conversing : Conversing deployment before) {i : Nat} {task : ServiceTask}
    {program : Program services task.Result} {after : ServiceState backend.Store}
    (bound : i < before.threads.length)
    (others : ∀ j, j ≠ i → turnsOf after.history j = turnsOf (ServiceState.history before.state) j)
    (own : Converser deployment (turnsOf after.history i) ⟨task, program⟩) :
    Conversing deployment (⟨after, before.threads.set i ⟨task, program⟩⟩ :
      ServiceConfiguration backend) := by
  constructor
  · intro j far
    rw [List.length_set] at far
    exact (others j (by omega)).trans (conversing.silent j far)
  · intro j thread present
    by_cases same : i = j
    · subst same
      rw [List.getElem?_set_self bound] at present
      cases present
      exact own
    · rw [List.getElem?_set_ne same] at present
      exact (others j (Ne.symm same)).symm ▸ conversing.known j thread present

theorem Conversing.step {before after : ServiceConfiguration backend}
    (conversing : Conversing deployment before)
    (step : Step (serviceWorld backend) (ServiceTask.body deployment) before after) :
    Conversing deployment after := by
  cases step with
  | spawn task =>
    constructor
    · intro i far
      rw [List.length_append] at far
      exact conversing.silent i (by omega)
    · intro i thread present
      by_cases bound : i < before.threads.length
      · rw [List.getElem?_append_left bound] at present
        exact conversing.known i thread present
      · obtain ⟨-, rfl⟩ : i - before.threads.length = 0 ∧ thread = ⟨task, task.body deployment⟩ := by
          rw [List.getElem?_append_right (Nat.le_of_not_lt bound)] at present
          simpa [List.getElem?_singleton, eq_comm] using present
        refine ⟨_, ?_, .inl rfl⟩
        rw [conversing.silent i (Nat.le_of_not_lt bound)]
        exact .pause _
  | @perform i task request resume reply after running performed =>
    obtain ⟨reached, answered, rfl⟩ := performed
    have history : reached.history = ServiceState.history before.state :=
      (backend.answers_frame answered).1
    refine conversing.set (List.getElem?_eq_some_iff.mp running).1 (fun j other => ?_) ?_
    · rw [ServiceState.log, turnsOf_append, if_neg (Ne.symm other), history]
    · obtain ⟨_, converses, rfl | dropped⟩ := conversing.known i _ running
      · refine ⟨resume reply, ?_, .inl rfl⟩
        rw [ServiceState.log, turnsOf_append, if_pos rfl, history]
        exact converses.snoc reply
      · cases dropped
  | environment moved =>
    obtain ⟨store, -, rfl⟩ | ⟨later, -, rfl⟩ := moved
    · exact ⟨conversing.silent, conversing.known⟩
    · exact ⟨conversing.silent, conversing.known⟩
  | @drop i task request resume after running dropped =>
    obtain ⟨left, converses, -⟩ := conversing.known i _ running
    have bound := (List.getElem?_eq_some_iff.mp running).1
    obtain rfl | ⟨pending, store, -, -, rfl⟩ := dropped
    · exact conversing.set bound (fun j _ => rfl) ⟨left, converses, .inr rfl⟩
    · exact conversing.set bound (fun j _ => rfl) ⟨left, converses, .inr rfl⟩

/-- By induction on the run. -/
theorem ServiceRun.conversing {store : backend.Store} {config : ServiceConfiguration backend}
    (run : ServiceRun backend deployment (.initial (.start store)) config) :
    Conversing deployment config := by
  induction run with
  | refl =>
    constructor
    · exact fun _ _ => rfl
    · intro i thread present
      simp [Configuration.initial] at present
  | tail _ step ih => exact ih.step step

end ImmutableLedger
