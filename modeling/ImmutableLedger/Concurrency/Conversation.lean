import ImmutableLedger.Concurrency.Program

/-! What a program has asked and been told so far.

A conversation says nothing about the surroundings: every reply is possible. What holds of all
conversations of a program, or of those whose replies are of a kind, therefore holds wherever the
program runs.
-/

set_option autoImplicit false

namespace ImmutableLedger.Concurrency

variable {I : Interface} {α β ε : Type}

/-- A request with its reply. -/
structure Turn (I : Interface) where
  request : I.Request
  reply : I.Reply request

namespace Program

/-- What is left of a program after some turns. -/
inductive Converses : Program I α → List (Turn I) → Program I α → Prop where
  | pause (program : Program I α) : Converses program [] program
  | turn {request : I.Request} {resume : I.Reply request → Program I α} {turns : List (Turn I)}
      {left : Program I α} (reply : I.Reply request) (rest : Converses (resume reply) turns left) :
      Converses (.call request resume) (⟨request, reply⟩ :: turns) left

theorem bind_ne_done {program : Program I α} {next : α → Program I β}
    (running : ∀ value, program ≠ .done value) (value : β) : (program >>= next) ≠ .done value := by
  cases program with
  | done result => exact absurd rfl (running result)
  | call request resume =>
    intro same
    cases same
  | unfinished =>
    intro same
    cases same

namespace Converses

variable {program left : Program I α} {turns : List (Turn I)}

/-- One more turn. -/
theorem snoc {request : I.Request} {resume : I.Reply request → Program I α}
    (converses : Converses program turns (.call request resume)) (reply : I.Reply request) :
    Converses program (turns ++ [⟨request, reply⟩]) (resume reply) := by
  generalize shape : Program.call request resume = between at converses
  induction converses with
  | pause program =>
    subst shape
    exact .turn reply (.pause _)
  | turn first rest ih => exact .turn first (ih shape)

/-- Only what a program may ask has been asked. -/
theorem asked {allowed : I.Request → Prop} (all : program.All allowed)
    (converses : Converses program turns left) : ∀ turn ∈ turns, allowed turn.request := by
  induction converses with
  | pause program => simp
  | turn reply rest ih => exact List.forall_mem_cons.mpr ⟨all.1, ih (all.2 reply)⟩

/-! Where a conversation can have got to, by the shape of the program. -/

theorem of_done {value : α} (converses : Converses (.done value) turns left) :
    turns = [] ∧ left = .done value := by
  cases converses with
  | pause => exact ⟨rfl, rfl⟩

theorem of_call {request : I.Request} {resume : I.Reply request → Program I α}
    (converses : Converses (.call request resume) turns left) :
    (turns = [] ∧ left = .call request resume) ∨
      ∃ reply rest, turns = ⟨request, reply⟩ :: rest ∧ Converses (resume reply) rest left := by
  cases converses with
  | pause => exact .inl ⟨rfl, rfl⟩
  | turn reply rest => exact .inr ⟨reply, _, rfl, rest⟩

/-- A program followed by another is still in the first one, or has come to the second. -/
theorem of_bind {program : Program I α} {next : α → Program I β} {left : Program I β}
    (converses : Converses (program >>= next) turns left) :
    (∃ between, left = (between >>= next) ∧ Converses program turns between ∧
      ∀ value, between ≠ .done value) ∨
    ∃ value first second, turns = first ++ second ∧ Converses program first (.done value) ∧
      Converses (next value) second left := by
  induction program generalizing turns with
  | done value => exact .inr ⟨value, [], turns, rfl, .pause _, converses⟩
  | call request resume ih =>
    rw [call_bind] at converses
    obtain ⟨rfl, rfl⟩ | ⟨reply, rest, rfl, continued⟩ := converses.of_call
    · exact .inl ⟨.call request resume, rfl, .pause _, fun value same => by cases same⟩
    · obtain ⟨between, same, inside, running⟩ | ⟨value, first, second, rfl, inside, behind⟩ :=
        ih reply continued
      · exact .inl ⟨between, same, .turn reply inside, running⟩
      · exact .inr ⟨value, _, second, rfl, .turn reply inside, behind⟩
  | unfinished =>
    cases converses with
    | pause => exact .inl ⟨.unfinished, rfl, .pause _, fun value same => by cases same⟩

/-- The same for programs that may stop with an error. -/
theorem of_exceptBind {call : ExceptT ε (Program I) α} {next : α → ExceptT ε (Program I) β}
    {left : Program I (Except ε β)} (converses : Converses (call >>= next).run turns left) :
    (∃ between, Converses call.run turns between ∧ (∀ result, between ≠ .done result) ∧
      ∀ result, left ≠ .done result) ∨
    (∃ err, Converses call.run turns (.done (.error err)) ∧ left = .done (.error err)) ∨
    ∃ value first second, turns = first ++ second ∧ Converses call.run first (.done (.ok value)) ∧
      Converses (next value).run second left := by
  rw [ExceptT.run_bind] at converses
  obtain ⟨between, rfl, inside, running⟩ | ⟨result, first, second, rfl, inside, behind⟩ :=
    converses.of_bind
  · exact .inl ⟨between, inside, running, bind_ne_done running⟩
  · cases result with
    | error err =>
      obtain ⟨rfl, rfl⟩ := of_done behind
      refine .inr (.inl ⟨err, ?_, rfl⟩)
      rwa [List.append_nil]
    | ok value => exact .inr (.inr ⟨value, first, second, rfl, inside, behind⟩)

/-- What a program comes to in all cases, what is left of it comes to. -/
theorem always {allowed : (request : I.Request) → I.Reply request → Prop} {post : α → Prop}
    (converses : Converses program turns left) (holds : program.Always allowed post)
    (replies : ∀ turn ∈ turns, allowed turn.request turn.reply) : left.Always allowed post := by
  induction converses with
  | pause program => exact holds
  | turn reply rest ih =>
    obtain ⟨first, others⟩ := List.forall_mem_cons.mp replies
    exact ih (holds reply first) others

end Converses

/-! What a program that may stop with an error comes to. -/

variable {allowed : (request : I.Request) → I.Reply request → Prop}

theorem Always.imp {post weaker : α → Prop} {program : Program I α}
    (always : program.Always allowed post) (implies : ∀ value, post value → weaker value) :
    program.Always allowed weaker := by
  induction program with
  | done value => exact implies value always
  | call request resume ih => exact fun reply permitted => ih reply (always reply permitted)
  | unfinished => exact always.elim

theorem Always.exceptBind {post : Except ε α → Prop} {target : Except ε β → Prop}
    {call : ExceptT ε (Program I) α} {next : α → ExceptT ε (Program I) β}
    (first : call.run.Always allowed post) (stops : ∀ err, post (.error err) → target (.error err))
    (second : ∀ value, post (.ok value) → (next value).run.Always allowed target) :
    (call >>= next).run.Always allowed target := by
  rw [ExceptT.run_bind, always_bind]
  refine first.imp fun result reached => ?_
  cases result with
  | error err => exact stops err reached
  | ok value => exact second value reached

/-! How many requests a program makes. -/

/-- Whatever the surroundings reply of what they may, the program returns after so many requests. -/
def Within (allowed : (request : I.Request) → I.Reply request → Prop) : Nat → Program I α → Prop
  | _, .done _ => True
  | 0, .call _ _ => False
  | bound + 1, .call request resume =>
      ∀ reply, allowed request reply → (resume reply).Within allowed bound
  | _, .unfinished => False

namespace Within

variable {bound more : Nat} {program left : Program I α}

theorem mono (within : program.Within allowed bound) (le : bound ≤ more) :
    program.Within allowed more := by
  induction program generalizing bound more with
  | done value => cases more <;> trivial
  | call request resume ih =>
    cases bound with
    | zero => exact within.elim
    | succ bound =>
      obtain ⟨more, rfl⟩ : ∃ room, more = room + 1 := ⟨more - 1, by omega⟩
      exact fun reply permitted => ih reply (within reply permitted) (by omega)
  | unfinished => cases bound <;> exact within.elim

theorem bind {next : α → Program I β} (first : program.Within allowed bound)
    (second : ∀ value, (next value).Within allowed more) :
    (program >>= next).Within allowed (more + bound) := by
  induction bound generalizing program with
  | zero =>
    cases program with
    | done value => exact second value
    | call request resume => exact first.elim
    | unfinished => exact first.elim
  | succ bound ih =>
    cases program with
    | done value => exact (second value).mono (Nat.le_add_right _ _)
    | call request resume => exact fun reply permitted => ih (first reply permitted)
    | unfinished => exact first.elim

theorem exceptBind {call : ExceptT ε (Program I) α} {next : α → ExceptT ε (Program I) β}
    (first : call.run.Within allowed bound) (second : ∀ value, (next value).run.Within allowed more) :
    (call >>= next).run.Within allowed (more + bound) := by
  rw [ExceptT.run_bind]
  refine first.bind fun result => ?_
  cases result with
  | ok value => exact second value
  | error err => cases more <;> trivial

/-- What has been asked is within the bound, and what is left within the rest of it. -/
theorem converses {turns : List (Turn I)} (within : program.Within allowed bound)
    (converses : Converses program turns left)
    (replies : ∀ turn ∈ turns, allowed turn.request turn.reply) :
    ∃ rest, bound = turns.length + rest ∧ left.Within allowed rest := by
  induction converses generalizing bound with
  | pause program => exact ⟨bound, (Nat.zero_add bound).symm, within⟩
  | turn reply _ ih =>
    obtain ⟨first, others⟩ := List.forall_mem_cons.mp replies
    cases bound with
    | zero => exact within.elim
    | succ bound =>
      obtain ⟨rest, rfl, continued⟩ := ih (within reply first) others
      exact ⟨rest, by rw [List.length_cons]; omega, continued⟩

end Within

end Program

end ImmutableLedger.Concurrency
