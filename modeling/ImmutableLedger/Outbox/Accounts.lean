import ImmutableLedger.Service.Conversations

/-! What the attempts of an outbox row have to do with the failures of its publisher.

Every increment of an attempt count was asked for after a failed attempt to publish the row, so
the count and the increments still to come never exceed the failures. A program is careful if it
asks for an increment only then, and gives a row up only after enough failures.
-/

set_option autoImplicit false

namespace ImmutableLedger

open Concurrency

/-- A failed attempt to publish a row. -/
def failedPublish (outboxId : Uuid) : Turn services → Bool
  | ⟨.publish record, .error _⟩ => decide (record.outboxId = outboxId)
  | _ => false

def failures (history : List Event) (outboxId : Uuid) : Nat :=
  history.countP fun event => failedPublish outboxId event.turn

@[simp] theorem failures_append (history : List Event) (event : Event) (outboxId : Uuid) :
    failures (history ++ [event]) outboxId =
      failures history outboxId + if failedPublish outboxId event.turn then 1 else 0 := by
  rw [failures, List.countP_append, List.countP_singleton, failures]

/-! Rows. -/

/-- The attempts of all rows are accounted for by failures, those that are still `outstanding`
included, and rows are given up after as many failures as the `limit` says. -/
structure Books (limit : Nat) (failed outstanding : Uuid → Nat) (outbox : LedgerWriteOutbox) :
    Prop where
  room : ∀ outboxId, outstanding outboxId ≤ failed outboxId
  counted : ∀ row ∈ outbox.rows, 0 ≤ row.record.attemptCount.toInt ∧
    row.record.attemptCount.toInt + outstanding row.outboxId ≤ failed row.outboxId
  givenUp : ∀ row ∈ outbox.rows, row.record.status = .failed → limit ≤ failed row.outboxId

/-- One request from one row to the row it becomes. -/
structure RowStep (request : RepositoryRequest) (before after : OutboxRow) : Prop where
  outboxId : after.outboxId = before.outboxId
  attempts : after.record.attemptCount = before.record.attemptCount ∨
    request = .incrementOutboxAttempt before.outboxId ∧
      after.record.attemptCount.toInt = before.record.attemptCount.toInt + 1
  status : after.record.status = .failed → before.record.status = .failed ∨
    request = .markOutboxFailed before.outboxId

theorem RowStep.refl (request : RepositoryRequest) (row : OutboxRow) : RowStep request row row :=
  ⟨rfl, .inl rfl, .inl⟩

/-- A count below the largest one is followed by the next. -/
theorem toInt_next {count : Int32} (room : count ≠ LedgerWriteOutbox.maxAttemptCount) :
    (count + 1).toInt = count.toInt + 1 := by
  have low := count.le_toInt
  have high := count.toInt_lt
  have below : count.toInt ≠ 2147483647 := fun same => room (Int32.toInt_inj.mp same)
  rw [Int32.toInt_add, show (1 : Int32).toInt = 1 from rfl, Int.bmod]
  omega

namespace LedgerWriteOutbox

variable {table : LedgerWriteOutbox}

theorem updateOne_steps {request : RepositoryRequest} {selects : OutboxRecord → Bool}
    {change : Change}
    (steps : ∀ row ∈ table.rows, selects row.record = true →
      RowStep request row { row with record := change.set row.record }) :
    ∀ after ∈ (table.updateOne selects change).2.rows, ∃ row ∈ table.rows,
      RowStep request row after := by
  rw [updateOne_rows]
  intro after member
  obtain ⟨row, before, rfl⟩ := List.mem_map.mp member
  refine ⟨row, before, ?_⟩
  unfold Change.apply Change.on
  split
  · next selected => exact steps row before selected
  · exact .refl request row

end LedgerWriteOutbox

/-- A request leaves a row that has not been tried, or takes one step from a row that was there. -/
theorem Tables.execute_outbox [Sha256] (draw : Draw) (request : RepositoryRequest) (tables : Tables) :
    ∀ after ∈ (tables.execute draw request).2.outbox.rows,
      (after.record.attemptCount = 0 ∧ after.record.status = .pending) ∨
        ∃ row ∈ tables.outbox.rows, RowStep request row after := by
  intro after member
  have kept (found : after ∈ tables.outbox.rows) :
      ∃ row ∈ tables.outbox.rows, RowStep request row after := ⟨after, found, .refl request after⟩
  cases request with
  | read request => exact .inr (kept member)
  | writeEntryWithOutbox input =>
    obtain ⟨err, rejected, -⟩ | ⟨result, reached, nextPosition, wrote, committed⟩ :=
      @writeEntryWithOutbox_cases _ tables draw input
    · rw [execute, rejected] at member
      exact .inr (kept member)
    · rw [execute, wrote] at member
      cases announced : result.outbox with
      | none =>
        rw [committed.silent announced] at member
        exact .inr (kept member)
      | some record =>
        rw [(LedgerWriteOutbox.insert_some (committed.announced record announced)).1] at member
        rcases List.mem_append.mp member with earlier | last
        · exact .inr (kept earlier)
        · -- The row that was added is the announcement of the entry.
          have outbox := committed.outbox
          rw [announced] at outbox
          split at outbox
          · cases outbox
            obtain rfl := List.mem_singleton.mp last
            exact .inl ⟨rfl, rfl⟩
          · cases outbox
  | markOutboxDelivered outboxId =>
    refine .inr (LedgerWriteOutbox.updateOne_steps (fun row _ _ => ?_) after member)
    exact ⟨rfl, .inl rfl, fun failed => by cases failed⟩
  | incrementOutboxAttempt outboxId =>
    simp only [execute, LedgerWriteOutbox.incrementOutboxAttempt] at member
    split at member
    · exact .inr (kept member)
    · next below =>
      refine .inr (LedgerWriteOutbox.updateOne_steps (fun row found selected => ?_) after member)
      refine ⟨rfl, .inr ⟨?_, toInt_next fun largest => below ?_⟩, .inl⟩
      · rw [← of_decide_eq_true selected]
        rfl
      · exact List.any_eq_true.mpr ⟨row, found, by rw [selected, largest]; rfl⟩
  | markOutboxFailed outboxId =>
    refine .inr (LedgerWriteOutbox.updateOne_steps (fun row _ selected => ?_) after member)
    refine ⟨rfl, .inl rfl, fun _ => .inr ?_⟩
    rw [← of_decide_eq_true selected]
    rfl

namespace Books

variable {limit : Nat} {failed outstanding later remaining : Uuid → Nat} {outbox : LedgerWriteOutbox}

/-- Whatever is outstanding in addition was asked for after a failure. -/
theorem mono (books : Books limit failed outstanding outbox)
    (grown : ∀ outboxId, failed outboxId ≤ later outboxId)
    (paid : ∀ outboxId, remaining outboxId + failed outboxId ≤ outstanding outboxId + later outboxId) :
    Books limit later remaining outbox where
  room := by
    intro outboxId
    have room := books.room outboxId
    have paid := paid outboxId
    omega
  counted := by
    intro row member
    obtain ⟨low, counted⟩ := books.counted row member
    have paid := paid row.outboxId
    exact ⟨low, by omega⟩
  givenUp := fun row member status => (books.givenUp row member status).trans (grown row.outboxId)

/-- An execution takes one increment off what is outstanding, and gives up no row too early. -/
theorem executed [Sha256] {tables : Tables} (books : Books limit failed outstanding tables.outbox)
    (draw : Draw) {request : RepositoryRequest}
    (fewer : ∀ outboxId, remaining outboxId +
      (if request = .incrementOutboxAttempt outboxId then 1 else 0) ≤ outstanding outboxId)
    (granted : ∀ outboxId, request = .markOutboxFailed outboxId → limit ≤ failed outboxId) :
    Books limit failed remaining (tables.execute draw request).2.outbox where
  room := by
    intro outboxId
    have room := books.room outboxId
    have fewer := fewer outboxId
    omega
  counted := by
    intro after member
    obtain ⟨untried, -⟩ | ⟨row, found, step⟩ := tables.execute_outbox draw request after member
    · have room := books.room after.outboxId
      have fewer := fewer after.outboxId
      rw [untried, show (0 : Int32).toInt = 0 from rfl]
      exact ⟨Int.le_refl 0, by omega⟩
    · obtain ⟨low, counted⟩ := books.counted row found
      have fewer := fewer row.outboxId
      rw [step.outboxId]
      obtain same | ⟨asked, next⟩ := step.attempts
      · rw [same]
        exact ⟨low, by omega⟩
      · rw [if_pos asked] at fewer
        rw [next]
        exact ⟨by omega, by omega⟩
  givenUp := by
    intro after member status
    obtain ⟨-, pending⟩ | ⟨row, found, step⟩ := tables.execute_outbox draw request after member
    · cases pending.symm.trans status
    · rw [step.outboxId]
      obtain earlier | asked := step.status status
      · exact books.givenUp row found earlier
      · exact granted row.outboxId asked

end Books

/-! Programs. -/

/-- The next request is an increment of a row. -/
def owesIncrement {α : Type} (outboxId : Uuid) : Program services α → Bool
  | .call (.repository (.incrementOutboxAttempt asked)) _ => decide (asked = outboxId)
  | _ => false

theorem owes_call {α : Type} {outboxId : Uuid} (request : RepositoryRequest)
    (resume : request.Reply → Program services α) :
    owesIncrement outboxId (.call (.repository request) resume) =
      decide (request = .incrementOutboxAttempt outboxId) := by
  cases request <;> simp [owesIncrement]

theorem owes_of_bind {α β : Type} {outboxId : Uuid} {program : Program services α}
    {next : α → Program services β}
    (owes : ∀ value outboxId, owesIncrement outboxId (next value) = false)
    (owed : owesIncrement outboxId (program >>= next) = true) :
    owesIncrement outboxId program = true := by
  cases program with
  | done value =>
    rw [Program.done_bind, owes] at owed
    cases owed
  | call request resume =>
    cases request with
    | repository request => cases request <;> exact owed
    | _ => exact owed
  | unfinished => exact owed

/-- A program that owes an increment may ask for one. -/
theorem allowed_of_owes {α : Type} {outboxId : Uuid} {allowed : ServiceRequest → Prop}
    {program : Program services α} (all : program.All allowed)
    (owed : owesIncrement outboxId program = true) :
    allowed (.repository (.incrementOutboxAttempt outboxId)) := by
  unfold owesIncrement at owed
  split at owed
  · obtain rfl := of_decide_eq_true owed
    exact all.1
  · cases owed

/-- The records a processor has just read. -/
def snapshot : Turn services → List OutboxRecord
  | ⟨.repository (.read .pendingOutbox), .ok records⟩ => records
  | _ => []

/-- A request that is in order after the failures so far. -/
def Granted (limit : Nat) (failed : Uuid → Nat) : ServiceRequest → Prop
  | .repository (.markOutboxFailed outboxId) => limit ≤ failed outboxId
  | .publish record => 0 ≤ record.attemptCount.toInt
  | _ => True

theorem Granted.mark {limit : Nat} {failed : Uuid → Nat} {request : RepositoryRequest}
    (granted : Granted limit failed (.repository request)) (outboxId : Uuid)
    (asked : request = .markOutboxFailed outboxId) : limit ≤ failed outboxId := by
  subst asked
  exact granted

/-- Every request is granted when it is made, and an increment follows a failure, as long as no
record that is read counts more attempts than there were failures. -/
def Careful {α : Type} (limit : Nat) : (Uuid → Nat) → Program services α → Prop
  | _, .done _ => True
  | failed, .call request resume => Granted limit failed request ∧
      ∀ (reply : services.Reply request) (later : Uuid → Nat),
        (∀ outboxId, failed outboxId +
          (if failedPublish outboxId ⟨request, reply⟩ then 1 else 0) ≤ later outboxId) →
        (∀ record ∈ snapshot ⟨request, reply⟩, 0 ≤ record.attemptCount.toInt ∧
          record.attemptCount.toInt ≤ later record.outboxId) →
        (∀ outboxId, owesIncrement outboxId (resume reply) = true →
          failedPublish outboxId ⟨request, reply⟩ = true) ∧ Careful limit later (resume reply)
  | _, .unfinished => True

namespace Careful

variable {α β : Type} {limit : Nat} {failed later : Uuid → Nat}

theorem mono {program : Program services α} (careful : Careful limit failed program)
    (grown : ∀ outboxId, failed outboxId ≤ later outboxId) : Careful limit later program := by
  cases program with
  | done value => trivial
  | call request resume =>
    obtain ⟨granted, continues⟩ := careful
    refine ⟨?_, fun reply last grows read => continues reply last (fun outboxId => ?_) read⟩
    · cases request with
      | repository request =>
        cases request with
        | markOutboxFailed outboxId => exact granted.trans (grown outboxId)
        | _ => trivial
      | publish record => exact granted
      | _ => trivial
    · have before := grown outboxId
      have after := grows outboxId
      omega
  | unfinished => trivial

/-- A careful program may be followed by one that does not begin with an increment. -/
theorem bind {program : Program services α} {next : α → Program services β}
    (first : Careful limit failed program)
    (second : ∀ value later, (∀ outboxId, failed outboxId ≤ later outboxId) →
      Careful limit later (next value))
    (owes : ∀ value outboxId, owesIncrement outboxId (next value) = false) :
    Careful limit failed (program >>= next) := by
  induction program generalizing failed with
  | done value => exact second value failed fun _ => Nat.le_refl _
  | call request resume ih =>
    obtain ⟨granted, continues⟩ := first
    refine ⟨granted, fun reply later grows read => ?_⟩
    obtain ⟨paid, careful⟩ := continues reply later grows read
    refine ⟨fun outboxId owed => paid outboxId (owes_of_bind owes owed),
      ih reply careful fun value last after => ?_⟩
    refine second value last fun outboxId => ?_
    have before := grows outboxId
    have behind := after outboxId
    omega
  | unfinished => trivial

/-- Programs that have nothing to do with attempts are careful. -/
theorem of_all {allowed : ServiceRequest → Prop} {program : Program services α}
    (all : program.All allowed) (granted : ∀ request failed, allowed request → Granted limit failed request)
    (owes : ∀ outboxId, ¬allowed (.repository (.incrementOutboxAttempt outboxId))) :
    Careful limit failed program := by
  induction program generalizing failed with
  | done value => trivial
  | call request resume ih =>
    obtain ⟨permitted, rest⟩ := all
    refine ⟨granted request failed permitted, fun reply later _ _ => ⟨?_, ih reply (rest reply)⟩⟩
    intro outboxId owed
    exact absurd (allowed_of_owes (rest reply) owed) (owes outboxId)
  | unfinished => trivial

end Careful

/-! The programs of a service. -/

section

variable {limit : Nat} {failed : Uuid → Nat} {maxRetries : UInt32}

/-- Whoever gives up by the arithmetic of `publish_one` has seen as many failures as the limit. -/
def Reaches (limit : Nat) (maxRetries : UInt32) : Prop :=
  ∀ count : Int32, 0 ≤ count.toInt → maxRetries.toInt32 ≤ count + 1 → (limit : Int) ≤ count.toInt + 1

theorem publishOne_careful (reaches : Reaches limit maxRetries) {record : OutboxRecord}
    (low : 0 ≤ record.attemptCount.toInt)
    (counted : record.attemptCount.toInt ≤ failed record.outboxId) :
    Careful limit failed (publishOne maxRetries record) := by
  refine ⟨low, fun published later grows _ => ?_⟩
  cases published with
  | ok _ =>
    exact ⟨fun outboxId owed => (Bool.false_ne_true owed).elim, trivial, fun _ _ _ _ =>
      ⟨fun outboxId owed => (Bool.false_ne_true owed).elim, trivial⟩⟩
  | error err =>
    -- The increment that follows is paid for by this failure.
    refine ⟨fun outboxId owed => owed, trivial, fun _ last further _ => ?_⟩
    have failedOnce := grows record.outboxId
    have kept := further record.outboxId
    rw [show failedPublish record.outboxId ⟨.publish record, .error err⟩ = true from
      decide_eq_true rfl, if_pos rfl] at failedOnce
    dsimp only
    split
    · next reached =>
      have enough := reaches record.attemptCount low reached
      have granted : limit ≤ last record.outboxId := by omega
      exact ⟨fun outboxId owed => (Bool.false_ne_true owed).elim, granted, fun _ _ _ _ =>
        ⟨fun outboxId owed => (Bool.false_ne_true owed).elim, trivial⟩⟩
    · exact ⟨fun outboxId owed => (Bool.false_ne_true owed).elim, trivial, fun _ _ _ _ =>
        ⟨fun outboxId owed => (Bool.false_ne_true owed).elim, trivial⟩⟩

/-- The records of a snapshot are still accounted for when their turn comes. -/
theorem publishAll_careful (reaches : Reaches limit maxRetries) (records : List OutboxRecord)
    (counted : ∀ record ∈ records, 0 ≤ record.attemptCount.toInt ∧
      record.attemptCount.toInt ≤ failed record.outboxId) :
    Careful limit failed (publishAll maxRetries records) := by
  induction records generalizing failed with
  | nil => trivial
  | cons record rest ih =>
    obtain ⟨low, first⟩ := counted record List.mem_cons_self
    refine (publishOne_careful reaches low first).bind (fun _ later grown => ih ?_) ?_
    · intro another member
      obtain ⟨alsoLow, alsoCounted⟩ := counted another (List.mem_cons_of_mem _ member)
      have kept := grown another.outboxId
      exact ⟨alsoLow, by omega⟩
    · intro _ outboxId
      cases rest <;> rfl

theorem processOutbox_careful (reaches : Reaches limit maxRetries) (rounds : Nat) :
    Careful limit failed (processOutbox maxRetries rounds) := by
  induction rounds generalizing failed with
  | zero => trivial
  | succ rounds ih =>
    have pending : Careful limit failed (processPending maxRetries) := by
      refine ⟨trivial, fun reply later grows read => ?_⟩
      cases reply with
      | error err => exact ⟨fun outboxId owed => (Bool.false_ne_true owed).elim, trivial⟩
      | ok records =>
        refine ⟨fun outboxId owed => ?_, publishAll_careful reaches records read⟩
        cases records <;> exact (Bool.false_ne_true owed).elim
    refine pending.bind (fun _ later _ => ⟨trivial, fun _ last _ _ => ⟨?_, ih⟩⟩) fun _ _ => rfl
    intro outboxId owed
    cases rounds <;> exact (Bool.false_ne_true owed).elim

variable [Sha256]

omit [Sha256] in
/-- Writes have nothing to do with attempts. -/
theorem careful_of_isWrite {α : Type} {service : Instance} {input : WriteEntryInput}
    {program : Program services α} (all : program.All (ServiceRequest.IsWrite service input)) :
    Careful limit failed program := by
  refine .of_all all (fun request failed permitted => ?_) fun outboxId permitted => permitted
  cases request with
  | repository request =>
    cases request with
    | markOutboxFailed outboxId => exact permitted.elim
    | _ => trivial
  | publish record => exact permitted.elim
  | _ => trivial

theorem body_owes_nothing (deployment : Deployment) (task : ServiceTask) (outboxId : Uuid) :
    owesIncrement outboxId (task.body deployment) = false := by
  cases task with
  | writeEntry client input =>
    refine Bool.eq_false_iff.mpr fun owed => ?_
    exact allowed_of_owes (writeEntry_all (deployment.instances client) input) owed
  | issueReceipt client input =>
    refine Bool.eq_false_iff.mpr fun owed => ?_
    exact allowed_of_owes (issueReceipt_all (deployment.instances client) input) owed
  | outboxProcessor client rounds =>
    rw [ServiceTask.body, startOutboxProcessor]
    split
    · cases rounds <;> rfl
    · rfl

theorem body_careful (deployment : Deployment)
    (reaches : ∀ i, Reaches limit (deployment.instances i).config.outboxMaxRetries)
    (task : ServiceTask) : Careful limit failed (task.body deployment) := by
  cases task with
  | writeEntry client input => exact careful_of_isWrite (writeEntry_all _ input)
  | issueReceipt client input => exact careful_of_isWrite (issueReceipt_all _ input)
  | outboxProcessor client rounds =>
    rw [ServiceTask.body, startOutboxProcessor]
    split
    · exact processOutbox_careful (reaches client) rounds
    · trivial

end

/-! Whole configurations. -/

/-- Increments of a row whose replies were lost and that may still take effect. -/
def lateIncrements (inflight : List Inflight) (outboxId : Uuid) : Nat :=
  inflight.countP fun late => decide (late.request = .incrementOutboxAttempt outboxId)

/-- Increments of a row that threads are about to ask for. -/
def owedIncrements (threads : List (Thread services ServiceTask.Result)) (outboxId : Uuid) : Nat :=
  threads.countP fun thread => owesIncrement outboxId thread.program

theorem lateIncrements_split (earlier others : List Inflight) (late : Inflight) (outboxId : Uuid) :
    lateIncrements (earlier ++ late :: others) outboxId =
      lateIncrements (earlier ++ others) outboxId +
        if late.request = .incrementOutboxAttempt outboxId then 1 else 0 := by
  simp [lateIncrements, List.countP_append, List.countP_cons, Nat.add_assoc]

theorem lateIncrements_append (inflight : List Inflight) (late : Inflight) (outboxId : Uuid) :
    lateIncrements (inflight ++ [late]) outboxId =
      lateIncrements inflight outboxId +
        if late.request = .incrementOutboxAttempt outboxId then 1 else 0 := by
  simp [lateIncrements, List.countP_append, List.countP_cons]

theorem mem_of_split {inflight earlier others : List Inflight} {late another : Inflight}
    (pending : inflight = earlier ++ late :: others) (found : another ∈ earlier ++ others) :
    another ∈ inflight := by
  rw [pending]
  exact (List.sublist_cons_self _ _).append_left _ |>.subset found

theorem owedIncrements_set {threads : List (Thread services ServiceTask.Result)} {i : Nat}
    {task : ServiceTask} {program : Program services task.Result}
    (running : threads[i]? = some ⟨task, program⟩) (next : Program services task.Result)
    (outboxId : Uuid) :
    owedIncrements (threads.set i ⟨task, next⟩) outboxId +
        (if owesIncrement outboxId program then 1 else 0) =
      owedIncrements threads outboxId + if owesIncrement outboxId next then 1 else 0 := by
  obtain ⟨bound, same⟩ := List.getElem?_eq_some_iff.mp running
  rw [owedIncrements, owedIncrements, List.countP_set bound, same]
  dsimp only
  split
  · next owes =>
    have counted : 0 < threads.countP fun thread => owesIncrement outboxId thread.program := by
      refine List.countP_pos_iff.mpr ⟨_, List.getElem_mem bound, ?_⟩
      rw [same]
      exact owes
    omega
  · omega

theorem owedIncrements_quiet {threads : List (Thread services ServiceTask.Result)} {i : Nat}
    {task : ServiceTask} {program : Program services task.Result}
    (running : threads[i]? = some ⟨task, program⟩) (next : Program services task.Result)
    (quiet : ∀ outboxId, owesIncrement outboxId next = false) (outboxId : Uuid) :
    owedIncrements (threads.set i ⟨task, next⟩) outboxId +
        (if owesIncrement outboxId program then 1 else 0) = owedIncrements threads outboxId := by
  rw [owedIncrements_set running next outboxId, quiet, if_neg Bool.false_ne_true, Nat.add_zero]

variable [Sha256] {limit : Nat} {deployment : Deployment}

/-- What is kept of a configuration and its history. -/
structure Accounted (limit : Nat) (config : ServiceConfiguration postgres) : Prop where
  books : Books limit (failures config.state.history)
    (fun outboxId => lateIncrements config.state.store.inflight outboxId +
      owedIncrements config.threads outboxId) config.state.store.tables.outbox
  lateMarks : ∀ late ∈ config.state.store.inflight, ∀ outboxId,
    late.request = .markOutboxFailed outboxId → limit ≤ failures config.state.history outboxId
  careful : ∀ thread ∈ config.threads, Careful limit (failures config.state.history) thread.program
  published : ∀ event ∈ config.state.history, ∀ record, event.request = .publish record →
    0 ≤ record.attemptCount.toInt

namespace Accounted

variable {before : ServiceConfiguration postgres}

/-- Thread `i` has moved on, and so may the state. -/
theorem moved (accounted : Accounted limit before) {i : Nat} {task : ServiceTask}
    {program : Program services task.Result} {after : ServiceState Database}
    (grown : ∀ outboxId, failures (ServiceState.history before.state) outboxId ≤
      failures after.history outboxId)
    (books : Books limit (failures after.history)
      (fun outboxId => lateIncrements after.store.inflight outboxId +
        owedIncrements (before.threads.set i ⟨task, program⟩) outboxId) after.store.tables.outbox)
    (lateMarks : ∀ late ∈ after.store.inflight, ∀ outboxId,
      late.request = .markOutboxFailed outboxId → limit ≤ failures after.history outboxId)
    (own : Careful limit (failures after.history) program)
    (published : ∀ event ∈ after.history, ∀ record, event.request = .publish record →
      0 ≤ record.attemptCount.toInt) :
    Accounted limit (⟨after, before.threads.set i ⟨task, program⟩⟩ : ServiceConfiguration postgres) := by
  refine ⟨books, lateMarks, ?_, published⟩
  intro thread member
  rcases List.mem_or_eq_of_mem_set member with earlier | rfl
  · exact (accounted.careful thread earlier).mono grown
  · exact own

/-- A request that is sent and not answered may take effect later. -/
theorem late_append (accounted : Accounted limit before) {client : Nat}
    {request : RepositoryRequest} (granted : ∀ outboxId, request = .markOutboxFailed outboxId →
      limit ≤ failures (ServiceState.history before.state) outboxId) :
    ∀ late ∈ (ServiceState.store before.state).inflight ++ [⟨client, request⟩], ∀ outboxId,
      late.request = .markOutboxFailed outboxId →
        limit ≤ failures (ServiceState.history before.state) outboxId := by
  intro late member
  rcases List.mem_append.mp member with earlier | last
  · exact accounted.lateMarks late earlier
  · obtain rfl := List.mem_singleton.mp last
    exact granted

/-- An increment that was owed and is now late counts once. -/
theorem owed_late {task : ServiceTask} {request : RepositoryRequest}
    {resume : request.Reply → Program services task.Result}
    {after : List (Thread services ServiceTask.Result)} {client : Nat}
    (owed : ∀ outboxId, owedIncrements after outboxId +
      (if owesIncrement outboxId (.call (.repository request) resume : Program services task.Result)
        then 1 else 0) = owedIncrements before.threads outboxId) (outboxId : Uuid) :
    lateIncrements ((ServiceState.store before.state).inflight ++ [⟨client, request⟩]) outboxId +
        owedIncrements after outboxId + failures (ServiceState.history before.state) outboxId ≤
      lateIncrements (ServiceState.store before.state).inflight outboxId +
        owedIncrements before.threads outboxId +
          failures (ServiceState.history before.state) outboxId := by
  have owed := owed outboxId
  have late := lateIncrements_append (ServiceState.store before.state).inflight
    ⟨client, request⟩ outboxId
  simp only [owes_call, decide_eq_true_eq] at owed
  dsimp only at late
  omega

theorem spawn (accounted : Accounted limit before) (task : ServiceTask)
    (reaches : ∀ i, Reaches limit (deployment.instances i).config.outboxMaxRetries) :
    Accounted limit (⟨before.state, before.threads ++ [⟨task, task.body deployment⟩]⟩ :
      ServiceConfiguration postgres) := by
  have owes (outboxId : Uuid) : owedIncrements (before.threads ++ [⟨task, task.body deployment⟩])
      outboxId = owedIncrements before.threads outboxId := by
    rw [owedIncrements, List.countP_append, List.countP_singleton, body_owes_nothing]
    rfl
  refine ⟨?_, accounted.lateMarks, ?_, accounted.published⟩
  · simpa only [owes] using accounted.books
  · intro thread member
    rcases List.mem_append.mp member with earlier | last
    · exact accounted.careful thread earlier
    · obtain rfl := List.mem_singleton.mp last
      exact body_careful deployment reaches task

theorem environment (accounted : Accounted limit before) {after : ServiceState Database}
    (moved : (serviceWorld postgres).environment before.state after) :
    Accounted limit (⟨after, before.threads⟩ : ServiceConfiguration postgres) := by
  obtain ⟨books, lateMarks, careful, published⟩ := accounted
  obtain ⟨store, moved, rfl⟩ | ⟨later, -, rfl⟩ := moved
  · cases moved with
    | landed earlier others late draw pending =>
      have member : late ∈ (ServiceState.store before.state).inflight := by simp [pending]
      refine ⟨books.executed draw (fun outboxId => ?_) (lateMarks late member), ?_, careful, published⟩
      · have split := lateIncrements_split earlier others late outboxId
        rw [← pending] at split
        dsimp only
        omega
      · exact fun another found => lateMarks another (mem_of_split pending found)
    | lost earlier others late pending =>
      refine ⟨books.mono (fun _ => Nat.le_refl _) fun outboxId => ?_, ?_, careful, published⟩
      · have split := lateIncrements_split earlier others late outboxId
        rw [← pending] at split
        dsimp only
        omega
      · exact fun another found => lateMarks another (mem_of_split pending found)
    | rearranged outbox perm =>
      refine ⟨⟨books.room, ?_, ?_⟩, lateMarks, careful, published⟩
      · exact fun row member => books.counted row (perm.subset member)
      · exact fun row member => books.givenUp row (perm.subset member)
  · exact ⟨books, lateMarks, careful, published⟩

/-- A dropped thread asks for nothing more, but its last request may still take effect. -/
theorem drop (accounted : Accounted limit before) {i : Nat} {task : ServiceTask}
    {request : ServiceRequest} {resume : request.Reply → Program services task.Result}
    {after : ServiceState Database}
    (running : before.threads[i]? = some ⟨task, .call request resume⟩)
    (dropped : (serviceWorld postgres).dropped i task request before.state after) :
    Accounted limit (⟨after, before.threads.set i ⟨task, .unfinished⟩⟩ :
      ServiceConfiguration postgres) := by
  obtain ⟨granted, -⟩ := accounted.careful _ (List.mem_of_getElem? running)
  have owed := owedIncrements_quiet running .unfinished fun _ => rfl
  obtain rfl | ⟨pending, store, rfl, rfl, rfl⟩ := dropped
  · refine accounted.moved (fun _ => Nat.le_refl _) ?_ accounted.lateMarks trivial accounted.published
    refine accounted.books.mono (fun _ => Nat.le_refl _) fun outboxId => ?_
    have owed := owed outboxId
    exact Nat.add_le_add_right (Nat.add_le_add_left (by omega) _) _
  · refine accounted.moved (fun _ => Nat.le_refl _) ?_ (accounted.late_append granted.mark) trivial
      accounted.published
    exact accounted.books.mono (fun _ => Nat.le_refl _) (owed_late owed)

/-- What was read is accounted for: the records are rows of the outbox. -/
theorem counted_snapshot (accounted : Accounted limit before) {thread client : Nat}
    {request : ServiceRequest} {reply : request.Reply} {reached : ServiceState Database}
    (answered : postgres.answers thread client request before.state reply reached) :
    ∀ record ∈ snapshot ⟨request, reply⟩, 0 ≤ record.attemptCount.toInt ∧
      record.attemptCount.toInt ≤ failures (ServiceState.history before.state) record.outboxId := by
  intro record member
  cases request with
  | repository request =>
    cases request with
    | read message =>
      cases message with
      | pendingOutbox =>
        obtain ⟨store, performed, -⟩ := answered
        obtain ⟨-, rfl | rfl⟩ := Database.Performs.read performed
        · obtain ⟨row, found, rfl⟩ := List.mem_map.mp member
          have listed := (List.mem_filter.mp ((Query.mem_orderBy _).mp found)).1
          obtain ⟨low, counted⟩ := accounted.books.counted row listed
          refine ⟨low, ?_⟩
          rw [show row.record.outboxId = row.outboxId from rfl]
          omega
        · exact (List.not_mem_nil member).elim
      | _ => exact (List.not_mem_nil member).elim
    | _ => exact (List.not_mem_nil member).elim
  | _ => exact (List.not_mem_nil member).elim

/-- What a request to the repository does to the books. -/
theorem repository_step (accounted : Accounted limit before) {i client : Nat} {task : ServiceTask}
    {message : RepositoryRequest} {resume : message.Reply → Program services task.Result}
    {reply : message.Reply} {store : Database}
    (running : before.threads[i]? = some ⟨task, .call (.repository message) resume⟩)
    (quiet : ∀ outboxId, owesIncrement outboxId (resume reply) = false)
    (performed : Database.Performs client message (ServiceState.store before.state) reply store) :
    Books limit (failures (ServiceState.history before.state))
      (fun outboxId => lateIncrements store.inflight outboxId +
        owedIncrements (before.threads.set i ⟨task, resume reply⟩) outboxId) store.tables.outbox ∧
      ∀ late ∈ store.inflight, ∀ outboxId, late.request = .markOutboxFailed outboxId →
        limit ≤ failures (ServiceState.history before.state) outboxId := by
  obtain ⟨granted, -⟩ := accounted.careful _ (List.mem_of_getElem? running)
  have owed := owedIncrements_quiet running (resume reply) quiet
  cases performed with
  | executed draw =>
    refine ⟨accounted.books.executed draw (fun outboxId => ?_) granted.mark, accounted.lateMarks⟩
    have owed := owed outboxId
    simp only [owes_call, decide_eq_true_eq] at owed
    rw [Nat.add_assoc]
    exact Nat.add_le_add_left owed.le _
  | refused =>
    refine ⟨accounted.books.mono (fun _ => Nat.le_refl _) fun outboxId => ?_, accounted.lateMarks⟩
    have owed := owed outboxId
    exact Nat.add_le_add_right (Nat.add_le_add_left (by omega) _) _
  | unanswered =>
    exact ⟨accounted.books.mono (fun _ => Nat.le_refl _) (owed_late owed),
      accounted.late_append granted.mark⟩

theorem perform (accounted : Accounted limit before) {i : Nat} {task : ServiceTask}
    {request : ServiceRequest} {resume : request.Reply → Program services task.Result}
    {reply : request.Reply} {after : ServiceState Database}
    (running : before.threads[i]? = some ⟨task, .call request resume⟩)
    (performed : (serviceWorld postgres).performs i task request before.state reply after) :
    Accounted limit (⟨after, before.threads.set i ⟨task, resume reply⟩⟩ :
      ServiceConfiguration postgres) := by
  obtain ⟨reached, answered, rfl⟩ := performed
  obtain ⟨granted, continues⟩ := accounted.careful _ (List.mem_of_getElem? running)
  obtain ⟨history, -, frame⟩ := postgres.answers_frame answered
  let event : Event := ⟨i, task.client, ServiceState.instant before.state, request, reply⟩
  have failed (outboxId : Uuid) : failures (reached.log event).history outboxId =
      failures (ServiceState.history before.state) outboxId +
        if failedPublish outboxId ⟨request, reply⟩ then 1 else 0 := by
    rw [ServiceState.log, failures_append, history]
    rfl
  have grown (outboxId : Uuid) : failures (ServiceState.history before.state) outboxId ≤
      failures (reached.log event).history outboxId := by
    rw [failed]
    exact Nat.le_add_right _ _
  obtain ⟨paid, own⟩ := continues reply (failures (reached.log event).history)
    (fun outboxId => (failed outboxId).ge) fun record member => by
      obtain ⟨low, counted⟩ := accounted.counted_snapshot answered record member
      have grown := grown record.outboxId
      exact ⟨low, by omega⟩
  have published : ∀ other ∈ (reached.log event).history, ∀ record,
      other.request = .publish record → 0 ≤ record.attemptCount.toInt := by
    intro other member record asked
    rw [ServiceState.log, history] at member
    rcases List.mem_append.mp member with earlier | last
    · exact accounted.published other earlier record asked
    · obtain rfl := List.mem_singleton.mp last
      obtain rfl : request = .publish record := asked
      exact granted
  -- Only the repository changes what is stored and what is late.
  by_cases isLocal : request.isLocal = true
  · have store : (reached.log event).store = ServiceState.store before.state := frame isLocal
    refine accounted.moved grown ?_ ?_ own published
    · rw [store]
      refine accounted.books.mono grown fun outboxId => ?_
      have owed := owedIncrements_set running (resume reply) outboxId
      have failed := failed outboxId
      have next : (if owesIncrement outboxId (resume reply) then 1 else 0) ≤
          if failedPublish outboxId ⟨request, reply⟩ then 1 else 0 := by
        split
        · next owes => rw [if_pos (paid outboxId owes)]
        · exact Nat.zero_le _
      have paidFor : owedIncrements (before.threads.set i ⟨task, resume reply⟩) outboxId +
          failures (ServiceState.history before.state) outboxId ≤
            owedIncrements before.threads outboxId +
              failures (reached.log event).history outboxId := by omega
      rw [Nat.add_assoc, Nat.add_assoc]
      exact Nat.add_le_add_left paidFor _
    · rw [store]
      exact fun late member outboxId asked =>
        (accounted.lateMarks late member outboxId asked).trans (grown outboxId)
  · cases request with
    | repository message =>
      have same : failures (reached.log event).history =
          failures (ServiceState.history before.state) :=
        funext fun outboxId => failed outboxId
      obtain ⟨store, performed, rfl⟩ := answered
      obtain ⟨books, lateMarks⟩ := accounted.repository_step running (fun outboxId =>
        Bool.eq_false_iff.mpr fun owed => Bool.false_ne_true (paid outboxId owed)) performed
      exact accounted.moved grown (same.symm ▸ books) (same.symm ▸ lateMarks) own published
    | _ => exact absurd rfl isLocal

theorem step (accounted : Accounted limit before) {after : ServiceConfiguration postgres}
    (reaches : ∀ i, Reaches limit (deployment.instances i).config.outboxMaxRetries)
    (step : Step (serviceWorld postgres) (ServiceTask.body deployment) before after) :
    Accounted limit after := by
  cases step with
  | spawn task => exact accounted.spawn task reaches
  | perform running performed => exact accounted.perform running performed
  | environment moved => exact accounted.environment moved
  | drop running dropped => exact accounted.drop running dropped

/-- By induction on the run. -/
theorem of_run {start after : ServiceConfiguration postgres} (accounted : Accounted limit start)
    (reaches : ∀ i, Reaches limit (deployment.instances i).config.outboxMaxRetries)
    (run : ServiceRun postgres deployment start after) : Accounted limit after := by
  induction run with
  | refl => exact accounted
  | tail _ step ih => exact ih.step reaches step

end Accounted

end ImmutableLedger
