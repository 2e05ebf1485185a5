import ImmutableLedger.Concurrency.Program
import Mathlib.Logic.Relation

/-! Interleavings of programs over shared surroundings.

A world says how its state answers a request made by a thread, what it does of its own
accord, and what becomes of it when a thread is dropped while it waits for a reply. A
configuration pairs such a state with the threads started so far. Threads are started at
any moment and never removed, so a position in the list identifies a thread for good.
-/

set_option autoImplicit false

namespace ImmutableLedger.Concurrency

/-- A request that no transition of `performs` answers in a state is blocked there. -/
structure World (I : Interface) (Task : Type) where
  State : Type
  performs : Nat → Task → (request : I.Request) → State → I.Reply request → State → Prop
  environment : State → State → Prop
  dropped : Nat → Task → I.Request → State → State → Prop

/-- The same surroundings, in which a request is answered only where it is allowed. -/
def World.restrict {I : Interface} {Task : Type} (world : World I Task)
    (allowed : Task → I.Request → world.State → Prop) : World I Task :=
  { world with
    performs := fun i task request before reply after =>
      allowed task request before ∧ world.performs i task request before reply after }

structure Thread (I : Interface) {Task : Type} (Result : Task → Type) where
  task : Task
  program : Program I (Result task)

variable {I : Interface} {Task : Type} {Result : Task → Type}

structure Configuration (world : World I Task) (Result : Task → Type) where
  state : world.State
  threads : List (Thread I Result)

def Configuration.initial {world : World I Task} (state : world.State) :
    Configuration world Result :=
  ⟨state, []⟩

inductive Step (world : World I Task) (body : (task : Task) → Program I (Result task)) :
    Configuration world Result → Configuration world Result → Prop where
  | spawn (config : Configuration world Result) (task : Task) :
      Step world body config ⟨config.state, config.threads ++ [⟨task, body task⟩]⟩
  | perform {config : Configuration world Result} {i : Nat} {task : Task} {request : I.Request}
      {resume : I.Reply request → Program I (Result task)} {reply : I.Reply request}
      {after : world.State} (running : config.threads[i]? = some ⟨task, .call request resume⟩)
      (performed : world.performs i task request config.state reply after) :
      Step world body config ⟨after, config.threads.set i ⟨task, resume reply⟩⟩
  | environment {config : Configuration world Result} {after : world.State}
      (moved : world.environment config.state after) :
      Step world body config ⟨after, config.threads⟩
  | drop {config : Configuration world Result} {i : Nat} {task : Task} {request : I.Request}
      {resume : I.Reply request → Program I (Result task)} {after : world.State}
      (running : config.threads[i]? = some ⟨task, .call request resume⟩)
      (dropped : world.dropped i task request config.state after) :
      Step world body config ⟨after, config.threads.set i ⟨task, .unfinished⟩⟩

abbrev Run (world : World I Task) (body : (task : Task) → Program I (Result task)) :
    Configuration world Result → Configuration world Result → Prop :=
  Relation.ReflTransGen (Step world body)

variable {world : World I Task} {body : (task : Task) → Program I (Result task)}

theorem Step.threads_le {before after : Configuration world Result}
    (step : Step world body before after) : before.threads.length ≤ after.threads.length := by
  cases step <;> simp

theorem Run.threads_le {before after : Configuration world Result}
    (run : Run world body before after) : before.threads.length ≤ after.threads.length := by
  induction run with
  | refl => exact Nat.le_refl _
  | tail _ step ih => exact Nat.le_trans ih step.threads_le

/-! Building runs step by step. -/

theorem Run.spawn {start config : Configuration world Result} (run : Run world body start config)
    (task : Task) :
    Run world body start ⟨config.state, config.threads ++ [⟨task, body task⟩]⟩ :=
  run.tail (.spawn config task)

/-- Thread `i` makes its next request and is answered. -/
theorem Run.perform {start config : Configuration world Result} (run : Run world body start config)
    (i : Nat) {task : Task} {request : I.Request} {resume : I.Reply request → Program I (Result task)}
    (running : config.threads[i]? = some ⟨task, .call request resume⟩) (reply : I.Reply request)
    {after : world.State} (performed : world.performs i task request config.state reply after) :
    Run world body start ⟨after, config.threads.set i ⟨task, resume reply⟩⟩ :=
  run.tail (.perform running performed)

/-- Where a run has got to, before it goes on. -/
theorem Run.pause {start config : Configuration world Result} (run : Run world body start config) :
    ∃ reached, reached = config ∧ Run world body start reached ∧ Run world body reached config :=
  ⟨config, rfl, run, .refl⟩

end ImmutableLedger.Concurrency
