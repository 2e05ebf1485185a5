import Mathlib.Logic.Basic

/-! Programs that talk to their surroundings through requests.

A program is a tree: it is done with a value, or it makes one request and continues with
whatever reply it is given. A loop is unrolled up to a bound chosen by the caller, and
`unfinished` marks the place where the bound cut it off, so that a loop that has not
returned is never mistaken for one that has.
-/

set_option autoImplicit false

namespace ImmutableLedger.Concurrency

/-- The requests of a vocabulary and the type of reply to each of them. -/
structure Interface where
  Request : Type
  Reply : Request → Type

inductive Program (I : Interface) (α : Type) : Type where
  | done : α → Program I α
  | call : (request : I.Request) → (I.Reply request → Program I α) → Program I α
  | unfinished : Program I α

variable {I : Interface} {α β γ σ : Type}

namespace Program

def bind : Program I α → (α → Program I β) → Program I β
  | .done value, next => next value
  | .call request resume, next => .call request fun reply => (resume reply).bind next
  | .unfinished, _ => .unfinished

instance : Monad (Program I) where
  pure := .done
  bind := Program.bind

/-- One request, answered with its reply. -/
def perform (request : I.Request) : Program I (I.Reply request) :=
  .call request .done

@[simp] theorem pure_eq (value : α) : (pure value : Program I α) = .done value := rfl

@[simp] theorem done_bind (value : α) (next : α → Program I β) :
    (Program.done value >>= next) = next value := rfl

@[simp] theorem call_bind (request : I.Request) (resume : I.Reply request → Program I α)
    (next : α → Program I β) :
    (Program.call request resume >>= next) = .call request fun reply => resume reply >>= next := rfl

@[simp] theorem unfinished_bind (next : α → Program I β) :
    ((.unfinished : Program I α) >>= next) = .unfinished := rfl

@[simp] theorem perform_bind (request : I.Request) (next : I.Reply request → Program I β) :
    (perform request >>= next) = .call request next := rfl

theorem bind_done (program : Program I α) : (program >>= .done) = program := by
  induction program with
  | done value => rfl
  | call request resume ih => exact congrArg (Program.call request) (funext ih)
  | unfinished => rfl

theorem bind_assoc (program : Program I α) (first : α → Program I β) (second : β → Program I γ) :
    (program >>= first >>= second) = program >>= fun value => first value >>= second := by
  induction program with
  | done value => rfl
  | call request resume ih => exact congrArg (Program.call request) (funext ih)
  | unfinished => rfl

/-- Every request a program can come to make satisfies a predicate. -/
def All (allowed : I.Request → Prop) : Program I α → Prop
  | .done _ => True
  | .call request resume => allowed request ∧ ∀ reply, (resume reply).All allowed
  | .unfinished => True

theorem All.unrestricted (program : Program I α) : program.All fun _ => True := by
  induction program with
  | done value => trivial
  | call request resume ih => exact ⟨trivial, ih⟩
  | unfinished => trivial

theorem All.imp {allowed weaker : I.Request → Prop} (implies : ∀ request, allowed request → weaker request)
    {program : Program I α} (all : program.All allowed) : program.All weaker := by
  induction program with
  | done value => trivial
  | call request resume ih => exact ⟨implies request all.1, fun reply => ih reply (all.2 reply)⟩
  | unfinished => trivial

theorem All.bind {allowed : I.Request → Prop} {program : Program I α} {next : α → Program I β}
    (first : program.All allowed) (second : ∀ value, (next value).All allowed) :
    (program >>= next).All allowed := by
  induction program with
  | done value => exact second value
  | call request resume ih => exact ⟨first.1, fun reply => ih reply (first.2 reply)⟩
  | unfinished => trivial

theorem All.exceptBind {ε : Type} {allowed : I.Request → Prop} {program : ExceptT ε (Program I) α}
    {next : α → ExceptT ε (Program I) β} (first : program.run.All allowed)
    (second : ∀ value, (next value).run.All allowed) : (program >>= next).run.All allowed := by
  rw [ExceptT.run_bind]
  refine first.bind fun result => ?_
  cases result with
  | ok value => exact second value
  | error stopped => trivial

end Program

/-- Surroundings that answer every request at once and remember a state. -/
abbrev Handler (I : Interface) (σ : Type) :=
  (request : I.Request) → σ → I.Reply request × σ

namespace Program

/-- The value of a program among deterministic surroundings, with the state it leaves behind.
A program cut off at its bound has none. -/
def run (handler : Handler I σ) : Program I α → σ → Option (α × σ)
  | .done value, state => some (value, state)
  | .call request resume, state =>
      (resume (handler request state).1).run handler (handler request state).2
  | .unfinished, _ => none

theorem run_bind (handler : Handler I σ) (program : Program I α) (next : α → Program I β)
    (state : σ) :
    (program >>= next).run handler state =
      (program.run handler state).bind fun result => (next result.1).run handler result.2 := by
  induction program generalizing state with
  | done value => rfl
  | call request resume ih => exact ih _ _
  | unfinished => rfl

/-- The value of a program whose surroundings never change. -/
def evaluate (answers : (request : I.Request) → I.Reply request) : Program I α → Option α
  | .done value => some value
  | .call request resume => (resume (answers request)).evaluate answers
  | .unfinished => none

@[simp] theorem evaluate_done (answers : (request : I.Request) → I.Reply request) (value : α) :
    (Program.done value).evaluate answers = some value := rfl

@[simp] theorem evaluate_call (answers : (request : I.Request) → I.Reply request)
    (request : I.Request) (resume : I.Reply request → Program I α) :
    (Program.call request resume).evaluate answers =
      (resume (answers request)).evaluate answers := rfl

theorem evaluate_bind (answers : (request : I.Request) → I.Reply request)
    (program : Program I α) (next : α → Program I β) :
    (program >>= next).evaluate answers =
      (program.evaluate answers).bind fun value => (next value).evaluate answers := by
  induction program with
  | done value => rfl
  | call request resume ih => exact ih _
  | unfinished => rfl

/-- Evaluation of a program that may stop with an error. -/
theorem evaluate_exceptBind {ε : Type} (answers : (request : I.Request) → I.Reply request)
    (program : ExceptT ε (Program I) α) (next : α → ExceptT ε (Program I) β) :
    (program >>= next).run.evaluate answers =
      (program.run.evaluate answers).bind fun
        | .ok value => (next value).run.evaluate answers
        | .error stopped => some (.error stopped) := by
  rw [ExceptT.run_bind, evaluate_bind]
  congr 1
  funext result
  cases result <;> rfl

/-- Whatever the surroundings reply of what they may, the program is done with a value of a kind. -/
def Always (allowed : (request : I.Request) → I.Reply request → Prop) (post : α → Prop) :
    Program I α → Prop
  | .done value => post value
  | .call request resume => ∀ reply, allowed request reply → (resume reply).Always allowed post
  | .unfinished => False

theorem always_bind {allowed : (request : I.Request) → I.Reply request → Prop} {post : β → Prop}
    (program : Program I α) (next : α → Program I β) :
    (program >>= next).Always allowed post ↔
      program.Always allowed fun value => (next value).Always allowed post := by
  induction program with
  | done value => exact Iff.rfl
  | call request resume ih => exact forall₂_congr fun reply _ => ih reply
  | unfinished => exact Iff.rfl

/-- What a program returns once the bound on its loops is large enough. -/
def Returns (answers : (request : I.Request) → I.Reply request) (program : Nat → Program I α)
    (value : α) : Prop :=
  ∃ bound, (program bound).evaluate answers = some value

end Program

end ImmutableLedger.Concurrency
