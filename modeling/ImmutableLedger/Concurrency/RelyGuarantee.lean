import ImmutableLedger.Concurrency.System

/-! Reasoning about one thread at a time.

A protocol fixes an invariant of the shared state and, for every thread, what that thread
may rely on while others move. `Safe` follows one program along its requests: each answer,
and each drop, keeps the invariant and what the other threads rely on, and between two
requests the state may move as far as the thread's own rely allows. When the body of every task is safe, the
invariant holds in every reachable state and every value returned meets its postcondition,
in the state in which it was returned and in all later ones.
-/

set_option autoImplicit false

namespace ImmutableLedger.Concurrency

variable {I : Interface} {Task : Type} {Result : Task → Type} {α β : Type}

structure Protocol (world : World I Task) where
  invariant : world.State → Prop
  rely : Nat → world.State → world.State → Prop
  rely_refl : ∀ i state, rely i state state
  rely_trans : ∀ {i first second third}, rely i first second → rely i second third →
    rely i first third
  environment : ∀ {before after}, invariant before → world.environment before after →
    invariant after ∧ ∀ i, rely i before after

variable {world : World I Task} (protocol : Protocol world)

namespace Protocol

def Safe (i : Nat) (task : Task) (post : α → world.State → Prop) :
    Program I α → world.State → Prop
  | .done value, state => post value state
  | .call request resume, state =>
      (∀ after, world.dropped i task request state after →
        protocol.invariant after ∧ ∀ j, j ≠ i → protocol.rely j state after) ∧
      ∀ reply after, world.performs i task request state reply after →
        protocol.invariant after ∧ (∀ j, j ≠ i → protocol.rely j state after) ∧
        ∀ later, protocol.invariant later → protocol.rely i after later →
          Safe i task post (resume reply) later
  | .unfinished, _ => True

variable {protocol} {i : Nat} {task : Task}

/-- A postcondition may be replaced by one it implies wherever the invariant holds. -/
theorem Safe.mono {post weaker : α → world.State → Prop}
    (implies : ∀ value state, protocol.invariant state → post value state → weaker value state)
    {program : Program I α} {state : world.State} (holds : protocol.invariant state)
    (safe : protocol.Safe i task post program state) :
    protocol.Safe i task weaker program state := by
  induction program generalizing state with
  | done value => exact implies value state holds safe
  | call request resume ih =>
    refine ⟨safe.1, fun reply after performed => ?_⟩
    obtain ⟨keeps, others, continues⟩ := safe.2 reply after performed
    exact ⟨keeps, others, fun later holds relied => ih reply holds (continues later holds relied)⟩
  | unfinished => trivial

theorem Safe.bind {post : β → world.State → Prop} {next : α → Program I β}
    {program : Program I α} {state : world.State}
    (safe : protocol.Safe i task
      (fun value reached => protocol.Safe i task post (next value) reached) program state) :
    protocol.Safe i task post (program >>= next) state := by
  induction program generalizing state with
  | done value => exact safe
  | call request resume ih =>
    refine ⟨safe.1, fun reply after performed => ?_⟩
    obtain ⟨keeps, others, continues⟩ := safe.2 reply after performed
    exact ⟨keeps, others, fun later holds relied => ih reply (continues later holds relied)⟩
  | unfinished => trivial

variable (protocol)

/-- What a protocol keeps of a whole configuration: the invariant, and that every thread is
safe from any state its rely may lead to before it moves. -/
structure Holds (post : (task : Task) → Result task → world.State → Prop)
    (config : Configuration world Result) : Prop where
  invariant : protocol.invariant config.state
  safe : ∀ i thread, config.threads[i]? = some thread → ∀ later, protocol.invariant later →
    protocol.rely i config.state later →
      protocol.Safe i thread.task (post thread.task) thread.program later

variable {protocol} {post : (task : Task) → Result task → world.State → Prop}
  {body : (task : Task) → Program I (Result task)}

theorem Holds.initial {state : world.State} (invariant : protocol.invariant state) :
    protocol.Holds post (Configuration.initial state : Configuration world Result) :=
  ⟨invariant, fun i thread present => by simp [Configuration.initial] at present⟩

/-- A thread that has returned meets its postcondition for as long as the run goes on. -/
theorem Holds.returned {config : Configuration world Result} (holds : protocol.Holds post config)
    {i : Nat} {task : Task} {value : Result task}
    (present : config.threads[i]? = some ⟨task, .done value⟩) : post task value config.state :=
  holds.safe i _ present _ holds.invariant (protocol.rely_refl _ _)

/-- After thread `i` has moved and left `program` behind, every other thread is still safe. -/
theorem Holds.set {before : Configuration world Result} (holds : protocol.Holds post before)
    {i : Nat} {task : Task} {program : Program I (Result task)} {after : world.State}
    (keeps : protocol.invariant after) (others : ∀ j, j ≠ i → protocol.rely j before.state after)
    (own : ∀ later, protocol.invariant later → protocol.rely i after later →
      protocol.Safe i task (post task) program later) :
    protocol.Holds post ⟨after, before.threads.set i ⟨task, program⟩⟩ := by
  refine ⟨keeps, fun j thread present later holdsLater relied => ?_⟩
  by_cases same : i = j
  · subst same
    have found : thread = ⟨task, program⟩ := by
      by_cases bound : i < before.threads.length
      · simpa [bound] using present.symm
      · simp [bound] at present
    subst found
    exact own later holdsLater relied
  · rw [List.getElem?_set_ne same] at present
    exact holds.safe j thread present later holdsLater
      (protocol.rely_trans (others j (Ne.symm same)) relied)

theorem Holds.step
    (bodies : ∀ i task state, protocol.invariant state →
      protocol.Safe i task (post task) (body task) state)
    {before after : Configuration world Result} (holds : protocol.Holds post before)
    (step : Step world body before after) :
    protocol.Holds post after ∧
      ∀ j, before.threads.length ≤ j → protocol.rely j before.state after.state := by
  cases step with
  | spawn task =>
    refine ⟨⟨holds.invariant, fun i thread present later holdsLater relied => ?_⟩,
      fun j _ => protocol.rely_refl j _⟩
    by_cases bound : i < before.threads.length
    · rw [List.getElem?_append_left bound] at present
      exact holds.safe i thread present later holdsLater relied
    · obtain ⟨_, found⟩ : i - before.threads.length = 0 ∧ thread = ⟨task, body task⟩ := by
        rw [List.getElem?_append_right (Nat.le_of_not_lt bound)] at present
        simpa [List.getElem?_singleton, eq_comm] using present
      subst found
      exact bodies i task later holdsLater
  | @perform i task request resume reply after running performed =>
    have bound := (List.getElem?_eq_some_iff.mp running).1
    obtain ⟨keeps, others, continues⟩ :=
      (holds.safe i _ running _ holds.invariant (protocol.rely_refl i _)).2 reply after performed
    exact ⟨holds.set keeps others continues, fun j far => others j (by omega)⟩
  | environment moved =>
    obtain ⟨keeps, relied⟩ := protocol.environment holds.invariant moved
    exact ⟨⟨keeps, fun i thread present later holdsLater after =>
      holds.safe i thread present later holdsLater (protocol.rely_trans (relied i) after)⟩,
      fun j _ => relied j⟩
  | @drop i task request resume after running dropped =>
    have bound := (List.getElem?_eq_some_iff.mp running).1
    obtain ⟨keeps, others⟩ :=
      (holds.safe i _ running _ holds.invariant (protocol.rely_refl i _)).1 after dropped
    exact ⟨holds.set keeps others fun _ _ _ => trivial, fun j far => others j (by omega)⟩

/-- Soundness over whole runs. The second part is what an onlooker, a thread position that no
thread of the run occupies, may rely on from the first state to the last. -/
theorem Holds.run
    (bodies : ∀ i task state, protocol.invariant state →
      protocol.Safe i task (post task) (body task) state)
    {before after : Configuration world Result} (holds : protocol.Holds post before)
    (run : Run world body before after) :
    protocol.Holds post after ∧
      ∀ j, after.threads.length ≤ j → protocol.rely j before.state after.state := by
  induction run with
  | refl => exact ⟨holds, fun j _ => protocol.rely_refl j _⟩
  | tail _ step ih =>
    obtain ⟨reached, relied⟩ := ih
    obtain ⟨kept, moved⟩ := reached.step bodies step
    have grown := step.threads_le
    exact ⟨kept, fun j far =>
      protocol.rely_trans (relied j (by omega)) (moved j (by omega))⟩

end Protocol

end ImmutableLedger.Concurrency
