import ImmutableLedger.Concurrency.Program
import Mathlib.Logic.Relation

/-! A program that watches something move.

Nothing the watcher asks changes what it watches, and between two answers anything may happen
that the moves of the surroundings allow. A trace records what was asked, in which state, and
what the reply was.
-/

set_option autoImplicit false

namespace ImmutableLedger.Concurrency

open Relation

variable {I : Interface} {α β σ τ : Type}

/-- A request with the state it was answered in and the reply. -/
structure Exchange (I : Interface) (σ : Type) where
  request : I.Request
  state : σ
  reply : I.Reply request

def Exchange.map (f : σ → τ) (exchange : Exchange I σ) : Exchange I τ :=
  ⟨exchange.request, f exchange.state, exchange.reply⟩

/-- What a program can come to return, from the state in which it is started to the state in
which it returns, and what it learns on the way. -/
inductive Traces (moves : σ → σ → Prop)
    (answers : (request : I.Request) → σ → I.Reply request → Prop) :
    Program I α → σ → List (Exchange I σ) → α → σ → Prop where
  | done (value : α) (state : σ) : Traces moves answers (.done value) state [] value state
  | moved {program : Program I α} {before next after : σ} {trace : List (Exchange I σ)} {value : α}
      (move : moves before next) (rest : Traces moves answers program next trace value after) :
      Traces moves answers program before trace value after
  | answered {request : I.Request} {resume : I.Reply request → Program I α} {before after : σ}
      {reply : I.Reply request} {trace : List (Exchange I σ)} {value : α}
      (answer : answers request before reply)
      (rest : Traces moves answers (resume reply) before trace value after) :
      Traces moves answers (.call request resume) before (⟨request, before, reply⟩ :: trace) value
        after

/-- What a program can come to return, whatever it learns on the way. -/
def Observes (moves : σ → σ → Prop)
    (answers : (request : I.Request) → σ → I.Reply request → Prop) (program : Program I α)
    (before : σ) (value : α) (after : σ) : Prop :=
  ∃ trace, Traces moves answers program before trace value after

variable {moves : σ → σ → Prop} {answers : (request : I.Request) → σ → I.Reply request → Prop}
  {before after : σ} {value : α} {trace : List (Exchange I σ)}

namespace Traces

theorem reaches {program : Program I α}
    (traces : Traces moves answers program before trace value after) :
    ReflTransGen moves before after := by
  induction traces with
  | done value state => exact .refl
  | moved move rest ih => exact ih.head move
  | answered answer rest ih => exact ih

/-- The surroundings move on before the program does. -/
theorem later {program : Program I α} {next : σ} (moved : ReflTransGen moves before next)
    (rest : Traces moves answers program next trace value after) :
    Traces moves answers program before trace value after := by
  induction moved using ReflTransGen.head_induction_on with
  | refl => exact rest
  | head move _ ih => exact .moved move ih

/-! What a program does next can be read off its shape. -/

theorem of_done {result : α}
    (traces : Traces moves answers (.done result) before trace value after) :
    value = result ∧ trace = [] ∧ ReflTransGen moves before after := by
  generalize shape : Program.done result = program at traces
  induction traces with
  | done value state =>
    cases shape
    exact ⟨rfl, rfl, .refl⟩
  | moved move rest ih =>
    obtain ⟨same, nothing, reached⟩ := ih shape
    exact ⟨same, nothing, reached.head move⟩
  | answered answer rest ih => cases shape

theorem of_call {request : I.Request} {resume : I.Reply request → Program I α}
    (traces : Traces moves answers (.call request resume) before trace value after) :
    ∃ asked reply rest, trace = ⟨request, asked, reply⟩ :: rest ∧ ReflTransGen moves before asked ∧
      answers request asked reply ∧ Traces moves answers (resume reply) asked rest value after := by
  generalize shape : Program.call request resume = program at traces
  induction traces with
  | done value state => cases shape
  | moved move rest ih =>
    obtain ⟨asked, reply, further, split, reached, answer, continued⟩ := ih shape
    exact ⟨asked, reply, further, split, reached.head move, answer, continued⟩
  | answered answer rest ih =>
    cases shape
    exact ⟨_, _, _, rfl, .refl, answer, rest⟩

theorem of_unfinished {P : Prop}
    (traces : Traces moves answers (.unfinished : Program I α) before trace value after) : P := by
  generalize shape : (.unfinished : Program I α) = program at traces
  induction traces with
  | done value state => cases shape
  | moved move rest ih => exact ih shape
  | answered answer rest ih => cases shape

/-- A program followed by another stops in between. -/
theorem of_bind {program : Program I β} {next : β → Program I α}
    (traces : Traces moves answers (program >>= next) before trace value after) :
    ∃ result between first second, trace = first ++ second ∧
      Traces moves answers program before first result between ∧
        Traces moves answers (next result) between second value after := by
  induction program generalizing before trace with
  | done result => exact ⟨result, before, [], trace, rfl, .done result before, traces⟩
  | call request resume ih =>
    obtain ⟨asked, reply, further, rfl, reached, answer, continued⟩ := of_call traces
    obtain ⟨result, between, first, second, rfl, one, two⟩ := ih reply continued
    exact ⟨result, between, _, second, rfl, later reached (.answered answer one), two⟩
  | unfinished => exact of_unfinished traces

/-- A program that may stop with an error returns a value only if its first part does. -/
theorem of_exceptBind {ε : Type} {program : ExceptT ε (Program I) β}
    {next : β → ExceptT ε (Program I) α}
    (traces : Traces moves answers (program >>= next).run before trace (.ok value) after) :
    ∃ result between first second, trace = first ++ second ∧
      Traces moves answers program.run before first (.ok result) between ∧
        Traces moves answers (next result).run between second (.ok value) after := by
  rw [ExceptT.run_bind] at traces
  obtain ⟨result, between, first, second, split, one, two⟩ := of_bind traces
  cases result with
  | ok result => exact ⟨result, between, first, second, split, one, two⟩
  | error stopped => cases (of_done two).1

/-- What is seen of the states is traced as well, if it moves and answers as the states do. -/
theorem map {movesTo : τ → τ → Prop}
    {answersTo : (request : I.Request) → τ → I.Reply request → Prop} {f : σ → τ}
    (step : ∀ {first next}, moves first next → movesTo (f first) (f next))
    (reads : ∀ {request state reply}, answers request state reply → answersTo request (f state) reply)
    {program : Program I α} (traces : Traces moves answers program before trace value after) :
    Traces movesTo answersTo program (f before) (trace.map (Exchange.map f)) value (f after) := by
  induction traces with
  | done value state => exact .done value (f state)
  | moved move rest ih => exact .moved (step move) ih
  | answered answer rest ih => exact .answered (reads answer) ih

end Traces

namespace Observes

theorem reaches {program : Program I α} (observed : Observes moves answers program before value after) :
    ReflTransGen moves before after :=
  observed.elim fun _ traces => traces.reaches

theorem later {program : Program I α} {next : σ} (moved : ReflTransGen moves before next)
    (rest : Observes moves answers program next value after) :
    Observes moves answers program before value after :=
  rest.elim fun trace traces => ⟨trace, .later moved traces⟩

theorem of_done {result : α} (observed : Observes moves answers (.done result) before value after) :
    value = result ∧ ReflTransGen moves before after := by
  obtain ⟨trace, traces⟩ := observed
  obtain ⟨same, -, reached⟩ := traces.of_done
  exact ⟨same, reached⟩

theorem of_call {request : I.Request} {resume : I.Reply request → Program I α}
    (observed : Observes moves answers (.call request resume) before value after) :
    ∃ asked reply, ReflTransGen moves before asked ∧ answers request asked reply ∧
      Observes moves answers (resume reply) asked value after := by
  obtain ⟨trace, traces⟩ := observed
  obtain ⟨asked, reply, rest, -, reached, answer, continued⟩ := traces.of_call
  exact ⟨asked, reply, reached, answer, rest, continued⟩

theorem of_unfinished {P : Prop}
    (observed : Observes moves answers (.unfinished : Program I α) before value after) : P :=
  observed.elim fun _ traces => traces.of_unfinished

theorem of_exceptBind {ε : Type} {program : ExceptT ε (Program I) β}
    {next : β → ExceptT ε (Program I) α}
    (observed : Observes moves answers (program >>= next).run before (.ok value) after) :
    ∃ result between, Observes moves answers program.run before (.ok result) between ∧
      Observes moves answers (next result).run between (.ok value) after := by
  obtain ⟨trace, traces⟩ := observed
  obtain ⟨result, between, first, second, -, one, two⟩ := traces.of_exceptBind
  exact ⟨result, between, ⟨first, one⟩, second, two⟩

/-- A watcher of `σ` is a watcher of `τ` if every move and every answer of the one is matched
by the other. -/
theorem simulate {movesTo : τ → τ → Prop}
    {answersTo : (request : I.Request) → τ → I.Reply request → Prop} (shows : σ → τ → Prop)
    (step : ∀ first next seen, shows first seen → moves first next →
      ∃ shown, shows next shown ∧ ReflTransGen movesTo seen shown)
    (reads : ∀ request state seen reply, shows state seen → answers request state reply →
      answersTo request seen reply)
    {program : Program I α} (observed : Observes moves answers program before value after) {seen : τ}
    (start : shows before seen) :
    ∃ shown, shows after shown ∧ Observes movesTo answersTo program seen value shown := by
  obtain ⟨trace, traces⟩ := observed
  induction traces generalizing seen with
  | done value state => exact ⟨seen, start, [], .done value seen⟩
  | moved move rest ih =>
    obtain ⟨next, shown, reached⟩ := step _ _ _ start move
    obtain ⟨final, shownFinal, continued⟩ := ih shown
    exact ⟨final, shownFinal, later reached continued⟩
  | answered answer rest ih =>
    obtain ⟨final, shownFinal, trace, continued⟩ := ih start
    exact ⟨final, shownFinal, _, .answered (reads _ _ _ _ start answer) continued⟩

end Observes

end ImmutableLedger.Concurrency
