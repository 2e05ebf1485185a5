import ImmutableLedger.Ledger.Interleavings
import ImmutableLedger.Locks.Sections

/-! Recorded halts.

A call looks for a halt before it queues for the lock of its chain, and not again once it has
the lock. So a halt is respected exactly as far as no call gets the lock while one is recorded,
and no call that found an expired halt removes the one that has replaced it.
-/

set_option autoImplicit false

namespace ImmutableLedger

open Concurrency

variable {Store : Type}

def Deployment.recovery (deployment : Deployment) (client : Nat) : Nat :=
  (deployment.instances client).config.chainHaltRecovery

/-- A halt is recorded and has not expired. -/
def ServiceState.Halted (state : ServiceState Store) (deployment : Deployment) (client : Nat)
    (entryType : String) : Prop :=
  ∃ since, (state.runtime client).chainHalted entryType = some since ∧
    state.instant < since + deployment.recovery client

/-- What a request and its reply may be while a chain is halted: no step of an append attempt,
and a call that looks for the halt is told about it. -/
def Yields (recovery : Nat) (entryType : String) : (request : ServiceRequest) →
    request.Reply → Prop
  | .repository (.read (.getChainTip named)), _ => named ≠ entryType
  | .repository (.writeEntryWithOutbox input), _ => input.entryType ≠ entryType
  | .chainHaltedElapsed named, reply =>
      named = entryType → ∃ elapsed, reply = some elapsed ∧ elapsed < recovery
  | _, _ => True

/-- What is done within the recovery time of a halt yields to it. -/
def Event.Respects (deployment : Deployment) (earlier later : Event) : Prop :=
  ∀ entryType, earlier.request = .chainHaltedInsert entryType → later.client = earlier.client →
    later.instant < earlier.instant + deployment.recovery earlier.client →
      Yields (deployment.recovery earlier.client) entryType later.request later.reply

/-- No lock is taken and no halt removed while a halt of the chain is in force. -/
def Attentive (deployment : Deployment) (client : Nat) (state : ServiceState Store) :
    ServiceRequest → Prop
  | .acquire lock => ∀ entryType, (state.runtime client).chainLocks entryType = some lock →
      ¬state.Halted deployment client entryType
  | .chainHaltedRemove entryType => ¬state.Halted deployment client entryType
  | _ => True

/-- Instances whose calls are attentive to halts. -/
def attentiveWorld (backend : Backend) (deployment : Deployment) : World services ServiceTask :=
  (serviceWorld backend).restrict fun task request (state : ServiceState backend.Store) =>
    Attentive deployment task.client state request

/-! The maps of halts. -/

theorem Backend.answers_chainHalted {backend : Backend} {thread client other : Nat}
    {request : ServiceRequest} {entryType : String} {reply : request.Reply}
    {before after : ServiceState backend.Store}
    (answered : backend.answers thread client request before reply after)
    (untouched : other = client → request ≠ .chainHaltedInsert entryType ∧
      request ≠ .chainHaltedRemove entryType) :
    (after.runtime other).chainHalted entryType =
      (before.runtime other).chainHalted entryType := by
  have set_other : ∀ named halted, (other = client → named ≠ entryType) →
      ((before.setHalted client named halted).runtime other).chainHalted entryType =
        (before.runtime other).chainHalted entryType := fun named halted another => by
    by_cases same : other = client
    · subst same
      simp [ServiceState.setHalted, Function.update_of_ne (another rfl).symm]
    · simp [ServiceState.setHalted, same]
  cases request with
  | repository request =>
    obtain ⟨store, -, rfl⟩ := answered
    rfl
  | chainHaltedElapsed named =>
    obtain ⟨-, rfl⟩ := answered
    rfl
  | chainHaltedRemove named =>
    obtain rfl := answered
    exact set_other named none fun same named_eq => (untouched same).2 (named_eq ▸ rfl)
  | chainHaltedInsert named =>
    obtain rfl := answered
    exact set_other named _ fun same named_eq => (untouched same).1 (named_eq ▸ rfl)
  | chainLock named =>
    simp only [answers] at answered
    split at answered
    · obtain ⟨-, rfl⟩ := answered
      rfl
    · obtain ⟨-, rfl⟩ := answered
      by_cases same : other = client
      · subst same
        simp [ServiceState.createLock]
      · simp [ServiceState.createLock, same]
  | acquire lock =>
    obtain ⟨-, rfl⟩ := answered
    rfl
  | release lock =>
    obtain rfl := answered
    rfl
  | utcNow =>
    obtain rfl := answered
    rfl
  | sleep millis =>
    obtain rfl := answered
    rfl
  | publish record =>
    obtain rfl := answered
    rfl

@[simp] theorem ServiceState.chainHalted_setHalted (state : ServiceState Store) (client : Nat)
    (entryType : String) (halted : Option Nat) :
    ((state.setHalted client entryType halted).runtime client).chainHalted entryType = halted := by
  simp [setHalted]

/-- What the clock and the maps say about the history. -/
structure Attended (deployment : Deployment) (state : ServiceState Store) : Prop where
  past : ∀ event ∈ state.history, event.instant ≤ state.instant
  since : ∀ client entryType since, (state.runtime client).chainHalted entryType = some since →
    since ≤ state.instant
  recorded : ∀ event ∈ state.history, ∀ entryType, event.request = .chainHaltedInsert entryType →
    event.instant + deployment.recovery event.client ≤ state.instant ∨
      ∃ since, (state.runtime event.client).chainHalted entryType = some since ∧
        event.instant ≤ since
  respected : state.history.Pairwise (Event.Respects deployment)

/-- What a request must find: the section that is to be halted, the lock that is to be given
back, or no halt. -/
def Entitled (deployment : Deployment) (state : ServiceState Store) (thread client : Nat) :
    ServiceRequest → Prop
  | .chainHaltedInsert entryType => state.InSection thread client entryType
  | .release lock => state.holder lock = some thread
  | .repository (.read (.getChainTip entryType)) => ¬state.Halted deployment client entryType
  | .repository (.writeEntryWithOutbox input) => ¬state.Halted deployment client input.entryType
  | _ => True

/-- A thread in a section keeps its locks, and only it may halt the chain. -/
structure Undisturbed (deployment : Deployment) (thread : Nat) (before after : ServiceState Store) :
    Prop extends KeepsLocks thread before after where
  clear : ∀ client entryType, before.InSection thread client entryType →
    ¬before.Halted deployment client entryType → ¬after.Halted deployment client entryType

variable {deployment : Deployment} {backend : Backend} {state reached : ServiceState backend.Store}
  {thread client : Nat} {entryType : String} {request : ServiceRequest} {reply : request.Reply}

theorem Undisturbed.refl (thread : Nat) (state : ServiceState Store) :
    Undisturbed deployment thread state state :=
  ⟨.refl thread state, fun _ _ _ => id⟩

theorem Undisturbed.trans {first second third : ServiceState Store}
    (undisturbed : Undisturbed deployment thread first second)
    (again : Undisturbed deployment thread second third) :
    Undisturbed deployment thread first third :=
  ⟨undisturbed.toKeepsLocks.trans again.toKeepsLocks, fun client entryType inside clear =>
    again.clear client entryType (undisturbed.toKeepsLocks.inSection inside)
      (undisturbed.clear client entryType inside clear)⟩

/-- A request that looks for a halt finds the one that is in force, and no other yields less. -/
theorem yields_of_halted (holds : Attended deployment state)
    (halted : state.Halted deployment client entryType)
    (entitled : Entitled deployment state thread client request)
    (answered : backend.answers thread client request state reply reached) :
    Yields (deployment.recovery client) entryType request reply := by
  cases request with
  | repository message =>
    cases message with
    | read message =>
      cases message with
      | getChainTip named =>
        rintro rfl
        exact entitled halted
      | _ => trivial
    | writeEntryWithOutbox input =>
      rintro rfl
      exact entitled halted
    | _ => trivial
  | chainHaltedElapsed named =>
    rintro rfl
    obtain ⟨rfl, -⟩ := answered
    obtain ⟨since, recorded, inForce⟩ := halted
    have past := holds.since client _ since recorded
    exact ⟨state.instant - since, by rw [recorded]; rfl, by omega⟩
  | _ => trivial

theorem Attended.since_kept (holds : Attended deployment state)
    (answered : backend.answers thread client request state reply reached) (other : Nat)
    (entryType : String) (since : Nat)
    (found : (reached.runtime other).chainHalted entryType = some since) :
    since ≤ state.instant := by
  by_cases inserted : other = client ∧ request = .chainHaltedInsert entryType
  · obtain ⟨rfl, rfl⟩ := inserted
    obtain rfl := answered
    rw [ServiceState.chainHalted_setHalted] at found
    exact (Option.some.inj found).symm.le
  by_cases removed : other = client ∧ request = .chainHaltedRemove entryType
  · obtain ⟨rfl, rfl⟩ := removed
    obtain rfl := answered
    rw [ServiceState.chainHalted_setHalted] at found
    cases found
  · rw [backend.answers_chainHalted answered fun same =>
      ⟨fun asked => inserted ⟨same, asked⟩, fun asked => removed ⟨same, asked⟩⟩] at found
    exact holds.since other entryType since found

/-- A recorded halt stays recorded until it has expired, if requests are attentive. -/
theorem Attended.recorded_kept (holds : Attended deployment state)
    (attentive : Attentive deployment client state request)
    (answered : backend.answers thread client request state reply reached) (event : Event)
    (member : event ∈ state.history) (entryType : String)
    (asked : event.request = .chainHaltedInsert entryType) :
    event.instant + deployment.recovery event.client ≤ state.instant ∨
      ∃ since, (reached.runtime event.client).chainHalted entryType = some since ∧
        event.instant ≤ since := by
  rcases holds.recorded event member entryType asked with expired | ⟨since, recorded, after⟩
  · exact .inl expired
  by_cases inserted : event.client = client ∧ request = .chainHaltedInsert entryType
  · obtain ⟨same, rfl⟩ := inserted
    obtain rfl := answered
    refine .inr ⟨state.instant, ?_, holds.past event member⟩
    rw [same, ServiceState.chainHalted_setHalted]
  by_cases removed : event.client = client ∧ request = .chainHaltedRemove entryType
  · obtain ⟨same, rfl⟩ := removed
    have unhalted : ¬state.Halted deployment client entryType := attentive
    rw [← same] at unhalted
    refine .inl (Nat.le_of_not_lt fun inForce => unhalted ⟨since, recorded, ?_⟩)
    omega
  · rw [backend.answers_chainHalted answered fun same =>
      ⟨fun another => inserted ⟨same, another⟩, fun another => removed ⟨same, another⟩⟩]
    exact .inr ⟨since, recorded, after⟩

theorem Attended.performs (holds : Attended deployment state)
    (entitled : Entitled deployment state thread client request)
    (attentive : Attentive deployment client state request)
    (answered : backend.answers thread client request state reply reached) :
    Attended deployment (reached.log ⟨thread, client, state.instant, request, reply⟩) := by
  obtain ⟨history, instant, -⟩ := backend.answers_frame answered
  have logged : (reached.log ⟨thread, client, state.instant, request, reply⟩).history =
      state.history ++ [⟨thread, client, state.instant, request, reply⟩] := by
    rw [ServiceState.log, history]
  constructor
  case past =>
    rw [logged, List.forall_mem_append]
    refine ⟨fun event member => ?_, List.forall_mem_singleton.mpr instant.ge⟩
    exact (holds.past event member).trans instant.ge
  case since =>
    intro other entryType since found
    exact (holds.since_kept answered other entryType since found).trans instant.ge
  case recorded =>
    rw [logged, List.forall_mem_append]
    refine ⟨fun event member entryType asked => ?_, ?_⟩
    · exact (holds.recorded_kept attentive answered event member entryType asked).imp_left
        fun expired => expired.trans instant.ge
    · rw [List.forall_mem_singleton]
      rintro entryType rfl
      obtain rfl := answered
      exact .inr ⟨state.instant, ServiceState.chainHalted_setHalted _ _ _ _, Nat.le_refl _⟩
  case respected =>
    rw [logged, List.pairwise_append]
    refine ⟨holds.respected, List.pairwise_singleton _ _, fun earlier member later last => ?_⟩
    obtain rfl := List.mem_singleton.mp last
    intro entryType asked same inWindow
    have inForce : state.Halted deployment earlier.client entryType := by
      rcases holds.recorded earlier member entryType asked with expired | ⟨since, recorded, after⟩
      · exact absurd inWindow (Nat.not_lt_of_le expired)
      · exact ⟨since, recorded, inWindow.trans_le (Nat.add_le_add_right after _)⟩
    obtain rfl : client = earlier.client := same
    exact yields_of_halted holds inForce entitled answered

theorem undisturbed_of_answers {other : Nat}
    (answered : backend.answers thread client request state reply reached)
    (spared : ∀ lock, request = .release lock → state.holder lock ≠ some other)
    (quiet : ∀ entryType, request = .chainHaltedInsert entryType →
      ¬state.InSection other client entryType) :
    Undisturbed deployment other state
      (reached.log ⟨thread, client, state.instant, request, reply⟩) := by
  obtain ⟨located, held⟩ := backend.answers_keepsLocks answered spared
  refine ⟨⟨located, held⟩, fun named entryType inside clear halted => ?_⟩
  obtain ⟨since, found, inForce⟩ := halted
  rw [show (reached.log _).instant = state.instant from (backend.answers_frame answered).2.1]
    at inForce
  by_cases inserted : named = client ∧ request = .chainHaltedInsert entryType
  · obtain ⟨rfl, rfl⟩ := inserted
    exact quiet entryType rfl inside
  by_cases removed : named = client ∧ request = .chainHaltedRemove entryType
  · obtain ⟨rfl, rfl⟩ := removed
    obtain rfl := answered
    rw [show ((state.setHalted _ _ _).log _).runtime = (state.setHalted _ _ _).runtime from rfl,
      ServiceState.chainHalted_setHalted] at found
    cases found
  · refine clear ⟨since, ?_, inForce⟩
    rw [← backend.answers_chainHalted answered fun same =>
      ⟨fun asked => inserted ⟨same, asked⟩, fun asked => removed ⟨same, asked⟩⟩]
    exact found

/-- An entitled request disturbs no other thread. -/
theorem Entitled.undisturbed (entitled : Entitled deployment state thread client request)
    (answered : backend.answers thread client request state reply reached) {other : Nat}
    (another : other ≠ thread) :
    Undisturbed deployment other state
      (reached.log ⟨thread, client, state.instant, request, reply⟩) := by
  refine undisturbed_of_answers answered ?_ ?_
  · rintro lock rfl held
    exact another (Option.some.inj (held.symm.trans entitled))
  · rintro entryType rfl inside
    exact another (inside.unique entitled)

theorem Attended.later (holds : Attended deployment state) {instant : Nat}
    (later : state.instant ≤ instant) :
    Attended deployment { state with instant := instant } where
  past := fun event member => (holds.past event member).trans later
  since := fun other entryType since found => (holds.since other entryType since found).trans later
  recorded := fun event member entryType asked =>
    (holds.recorded event member entryType asked).imp_left fun expired => expired.trans later
  respected := holds.respected

variable (deployment backend)

/-- Attention to halts as a protocol. -/
def halting : Protocol (attentiveWorld backend deployment) where
  invariant := @Attended backend.Store deployment
  rely := @Undisturbed backend.Store deployment
  rely_refl := Undisturbed.refl
  rely_trans := Undisturbed.trans
  environment := by
    rintro before after holds (⟨store, -, rfl⟩ | ⟨instant, later, rfl⟩)
    · exact ⟨⟨holds.past, holds.since, holds.recorded, holds.respected⟩,
        fun thread => ⟨⟨fun _ _ _ => id, fun _ => id⟩, fun _ _ _ => id⟩⟩
    · refine ⟨holds.later later, fun thread => ⟨⟨fun _ _ _ => id, fun _ => id⟩, ?_⟩⟩
      rintro client entryType - clear ⟨since, found, inForce⟩
      exact clear ⟨since, found, later.trans_lt inForce⟩

variable {deployment backend} {i : Nat} {task : ServiceTask} {α : Type}
  {post : α → ServiceState backend.Store → Prop}

/-- An entitled request may be made. -/
theorem safe_entitled {resume : request.Reply → Program services α}
    (holds : Attended deployment state)
    (entitled : Entitled deployment state i task.client request)
    (continues : ∀ reply reached, backend.answers i task.client request state reply reached →
      Attentive deployment task.client state request → ∀ later, Attended deployment later →
        Undisturbed deployment i
          (reached.log ⟨i, task.client, state.instant, request, reply⟩) later →
            (halting deployment backend).Safe i task post (resume reply) later) :
    (halting deployment backend).Safe i task post (.call request resume) state := by
  refine ⟨?_, ?_⟩
  · have kept : ∀ after : ServiceState backend.Store, after.history = state.history →
        after.instant = state.instant → after.runtime = state.runtime →
          (∀ other, other ≠ i → KeepsLocks other state after) →
            Attended deployment after ∧ ∀ other, other ≠ i →
              Undisturbed deployment other state after := by
      intro after history instant runtime locks
      refine ⟨⟨?_, ?_, ?_, ?_⟩, fun other another => ⟨locks other another, ?_⟩⟩
      · simpa only [history, instant] using holds.past
      · simpa only [runtime, instant] using holds.since
      · simpa only [history, runtime, instant] using holds.recorded
      · simpa only [history] using holds.respected
      · simp only [ServiceState.Halted, runtime, instant]
        exact fun _ _ _ => id
    rintro after (rfl | ⟨message, store, -, -, rfl⟩)
    · exact kept _ rfl rfl rfl fun other another => state.keepsLocks_releaseAll another
    · refine kept _ rfl rfl rfl fun other another => ?_
      exact ⟨(state.keepsLocks_releaseAll another).located, (state.keepsLocks_releaseAll another).held⟩
  · rintro reply after ⟨attentive, reached, answered, rfl⟩
    refine ⟨holds.performs entitled attentive answered, ?_, ?_⟩
    · exact fun other another => entitled.undisturbed answered another
    · exact fun later holdsLater undisturbed =>
        continues reply reached answered attentive later holdsLater undisturbed

/-- The requests that leave a thread's own section as it is. -/
def ServiceRequest.IsQuiet : ServiceRequest → Prop
  | .chainHaltedInsert _ => False
  | .release _ => False
  | _ => True

theorem safe_quiet {resume : request.Reply → Program services α}
    (holds : Attended deployment state) (quiet : request.IsQuiet)
    (entitled : Entitled deployment state i task.client request)
    (continues : ∀ reply later, Attended deployment later → Undisturbed deployment i state later →
      (halting deployment backend).Safe i task post (resume reply) later) :
    (halting deployment backend).Safe i task post (.call request resume) state := by
  refine safe_entitled holds entitled fun reply reached answered _ later holdsLater undisturbed => ?_
  have own : Undisturbed deployment i state
      (reached.log ⟨i, task.client, state.instant, request, reply⟩) := by
    refine undisturbed_of_answers answered ?_ ?_
    · rintro lock rfl
      exact quiet.elim
    · rintro entryType rfl
      exact quiet.elim
  exact continues reply later holdsLater (own.trans undisturbed)

/-- The requests that anyone may make at any time. -/
def ServiceRequest.IsFree : ServiceRequest → Prop
  | .chainHaltedInsert _ => False
  | .release _ => False
  | .repository (.read (.getChainTip _)) => False
  | .repository (.writeEntryWithOutbox _) => False
  | _ => True

theorem ServiceRequest.IsFree.quiet {request : ServiceRequest} (free : request.IsFree) :
    request.IsQuiet := by
  cases request <;> trivial

theorem ServiceRequest.IsFree.entitled (free : request.IsFree) :
    Entitled deployment state thread client request := by
  cases request with
  | repository message =>
    cases message with
    | read message => cases message <;> trivial
    | writeEntryWithOutbox input => exact free.elim
    | _ => trivial
  | chainHaltedInsert entryType => exact free.elim
  | release lock => exact free.elim
  | _ => trivial

theorem safe_of_free {program : Program services α} (free : program.All ServiceRequest.IsFree)
    (holds : Attended deployment state) :
    (halting deployment backend).Safe i task
      (fun _ reached => Undisturbed deployment i state reached) program state := by
  induction program generalizing state with
  | done value => exact .refl i state
  | unfinished => trivial
  | call request resume ih =>
    refine safe_quiet holds free.1.quiet free.1.entitled fun reply later holdsLater own => ?_
    exact (ih reply (free.2 reply) holdsLater).mono (fun _ _ _ more => own.trans more) holdsLater

theorem ServiceRequest.IsLookup.isFree {input : WriteEntryInput} (message : ServiceRequest)
    (lookup : message.IsLookup input) : message.IsFree := by
  cases message with
  | repository request =>
    cases request with
    | read request =>
      cases request with
      | findIdempotent entryType key => trivial
      | _ => exact lookup.elim
    | _ => exact lookup.elim
  | chainHaltedElapsed entryType => trivial
  | chainHaltedRemove entryType => trivial
  | _ => exact lookup.elim

theorem ServiceRequest.IsDelivery.isFree (message : ServiceRequest)
    (delivery : message.IsDelivery) : message.IsFree := by
  cases message with
  | repository request =>
    cases request with
    | read request =>
      cases request with
      | pendingOutbox => trivial
      | _ => exact delivery.elim
    | writeEntryWithOutbox input => exact delivery.elim
    | _ => trivial
  | publish record => trivial
  | sleep millis => trivial
  | _ => exact delivery.elim

/-! The section. -/

section

variable [Sha256] {service : Instance} {input : WriteEntryInput}

theorem safe_currentTipHash_halting (holds : Attended deployment state)
    (clear : ¬state.Halted deployment task.client input.entryType) :
    (halting deployment backend).Safe i task
      (fun _ reached => Undisturbed deployment i state reached)
      (currentTipHash service input).run state := by
  rw [currentTipHash, run_request_bind]
  refine safe_quiet holds trivial clear fun reply later _ own => ?_
  split <;> exact own

/-- The attempts keep the lock, and after a halt there is no further attempt. -/
theorem safe_appendAttempts_halting (attempt remaining : Nat) (holds : Attended deployment state)
    (inside : state.InSection i task.client input.entryType)
    (clear : ¬state.Halted deployment task.client input.entryType) :
    (halting deployment backend).Safe i task (fun _ reached => KeepsLocks i state reached)
      (appendAttempts service input attempt remaining).run state := by
  induction remaining generalizing attempt state with
  | zero => exact .refl i state
  | succ remaining ih =>
    rw [appendAttempts]
    refine safe_bind holds (safe_currentTipHash_halting holds clear) ?_
      fun _ _ own => own.toKeepsLocks
    intro previousHash atTip holdsTip own
    have insideTip := own.toKeepsLocks.inSection inside
    have clearTip := own.clear _ _ inside clear
    rw [run_request_bind]
    refine safe_quiet holdsTip trivial trivial fun writtenTs atClock holdsClock ownClock => ?_
    have ownClock := own.trans ownClock
    rw [run_request_bind]
    refine safe_quiet holdsClock trivial (ownClock.clear _ _ inside clear) ?_
    intro reply later holdsLater ownLater
    have ownLater := ownClock.trans ownLater
    have insideLater := ownLater.toKeepsLocks.inSection inside
    split
    · exact ownLater.toKeepsLocks
    · split
      · rw [run_request_bind]
        refine safe_quiet holdsLater trivial trivial fun _ slept holdsSlept ownSlept => ?_
        have ownSlept := ownLater.trans ownSlept
        refine (ih (attempt + 1) holdsSlept (ownSlept.toKeepsLocks.inSection inside)
          (ownSlept.clear _ _ inside clear)).mono ?_ holdsSlept
        exact fun _ _ _ keeps => ownSlept.toKeepsLocks.trans keeps
      · rw [run_request_bind]
        refine safe_entitled holdsLater insideLater fun _ reached answered _ halted _ ownHalted => ?_
        have keeps : KeepsLocks i later reached :=
          backend.answers_keepsLocks answered fun lock asked => by cases asked
        exact ownLater.toKeepsLocks.trans
          ⟨fun _ _ _ located => ownHalted.located _ _ _ (keeps.located _ _ _ located),
            fun _ held => ownHalted.held _ (keeps.held _ held)⟩
    · refine (safe_of_free ((replayConflict_all input).imp ServiceRequest.IsLookup.isFree)
        holdsLater).mono ?_ holdsLater
      exact fun _ _ _ more => (ownLater.trans more).toKeepsLocks
    · exact ownLater.toKeepsLocks

theorem safe_appendUnderLock_halting (holds : Attended deployment state) :
    (halting deployment backend).Safe i task (fun _ _ => True)
      (appendUnderLock service input).run state := by
  rw [appendUnderLock, run_request_bind]
  refine safe_entitled holds trivial fun lock reached created _ later holdsLater own => ?_
  have fixed := backend.answers_chainLock created
  have located := own.located _ _ _ fixed
  rw [run_request_bind]
  refine safe_entitled holdsLater trivial fun _ locked taken attentive atLock holdsLock ownLock => ?_
  have clear : ¬later.Halted deployment task.client input.entryType := attentive _ located
  obtain ⟨-, rfl⟩ := taken
  have held : (later.setHolder lock (some i)).holder lock = some i := Function.update_self _ _ _
  have inside : (later.setHolder lock (some i)).InSection i task.client input.entryType :=
    ⟨lock, located, held⟩
  have attempts : (halting deployment backend).Safe i task
      (fun _ reached => KeepsLocks i atLock reached)
        (appendAttempts service input 0 service.config.chainMaxRetries.toNat).run atLock :=
    safe_appendAttempts_halting 0 _ holdsLock (ownLock.toKeepsLocks.inSection inside)
      (ownLock.clear _ _ inside clear)
  refine Protocol.Safe.bind (attempts.mono (fun result ended holdsEnded keeps => ?_) holdsLock)
  exact safe_entitled holdsEnded (keeps.held _ (ownLock.held _ held)) fun _ _ _ _ _ _ _ => trivial

theorem safe_writeEntry_halting (holds : Attended deployment state) :
    (halting deployment backend).Safe i task (fun _ _ => True) (writeEntry service input).run
      state := by
  have free {β : Type} {call : Call β} (lookup : call.run.All (ServiceRequest.IsLookup input))
      {before : ServiceState backend.Store} (holdsBefore : Attended deployment before) :
      (halting deployment backend).Safe i task (fun _ _ => True) call.run before :=
    (safe_of_free (lookup.imp ServiceRequest.IsLookup.isFree) holdsBefore).mono
      (fun _ _ _ _ => trivial) holdsBefore
  have validated : (halting deployment backend).Safe i task (fun _ _ => True)
      (.done (validate service.config input)) state := trivial
  refine safe_bind holds validated (fun _ atCheck holdsCheck _ => ?_) fun _ _ _ => trivial
  refine safe_bind holdsCheck (free (checkHalt_all input _) holdsCheck)
    (fun _ atLookup holdsLookup _ => ?_) fun _ _ _ => trivial
  refine safe_bind holdsLookup (free (findReplay_all input) holdsLookup)
    (fun found atAppend holdsAppend _ => ?_) fun _ _ _ => trivial
  cases found with
  | none => exact safe_appendUnderLock_halting holdsAppend
  | some output => trivial

theorem halting_body (holds : Attended deployment state) :
    (halting deployment backend).Safe i task (fun _ _ => True) (task.body deployment) state := by
  cases task with
  | writeEntry client input => exact safe_writeEntry_halting holds
  | issueReceipt client input =>
    exact safe_bind holds (safe_writeEntry_halting holds) (fun _ _ _ _ => trivial)
      fun _ _ _ => trivial
  | outboxProcessor client rounds =>
    have free := (startOutboxProcessor_all (deployment.instances client) rounds).imp
      ServiceRequest.IsDelivery.isFree
    exact (safe_of_free free holds).mono (fun _ _ _ _ => trivial) holds

/-- A call that is told about a halt in force ends there. -/
theorem told_of_halt (service : Instance) (input : WriteEntryInput)
    (valid : validate service.config input = .ok ()) :
    ∃ resume, (writeEntry service input).run =
      .call (.chainHaltedElapsed input.entryType) resume ∧
        ∀ elapsed, elapsed < service.config.chainHaltRecovery →
          resume (some elapsed) = .done (.error .unavailable) := by
  obtain ⟨rest, opened⟩ : ∃ rest : Unit → Call WriteEntryOutput, (writeEntry service input).run =
      (checkHalt service.config input.entryType >>= rest).run := by
    unfold writeEntry
    rw [valid]
    exact ⟨_, rfl⟩
  rw [opened, ExceptT.run_bind, checkHalt, run_request_bind]
  refine ⟨_, rfl, fun elapsed inForce => ?_⟩
  dsimp only
  rw [if_pos inForce]
  rfl

/-- As long as no call takes the lock of a chain that is halted and none removes a halt in force,
no attempt to append starts within the recovery time of a halt, and the calls that come within
it are told and answer that the service is unavailable. -/
theorem serviceRun_respects_halts (backend : Backend) (deployment : Deployment)
    {store : backend.Store}
    {config : Configuration (attentiveWorld backend deployment) ServiceTask.Result}
    (run : Run (attentiveWorld backend deployment) (ServiceTask.body deployment)
      (.initial (ServiceState.start store)) config) :
    (ServiceState.history config.state).Pairwise (Event.Respects deployment) ∧
      ∀ client input, validate (deployment.instances client).config input = .ok () →
        ∃ resume, (writeEntry (deployment.instances client) input).run =
          .call (.chainHaltedElapsed input.entryType) resume ∧
            ∀ elapsed, elapsed < deployment.recovery client →
              resume (some elapsed) = .done (.error .unavailable) := by
  have start : Attended deployment (ServiceState.start store) := by
    refine ⟨?_, ?_, ?_, List.Pairwise.nil⟩
    · exact fun _ member => absurd member List.not_mem_nil
    · exact fun _ _ _ found => by cases found
    · exact fun _ member => absurd member List.not_mem_nil
  have holds : (halting deployment backend).Holds (fun _ _ _ => True) config :=
    (Protocol.Holds.run (fun _ _ _ => halting_body) (.initial start) run).1
  exact ⟨Attended.respected holds.invariant, fun client input valid => told_of_halt _ input valid⟩

/-! Two calls on one chain. -/

namespace Sample

/-- A repository that may answer anything at any time. -/
def capricious : Backend where
  Store := Unit
  performs _ _ _ _ _ := True
  abandoned _ _ _ _ := True
  environment _ _ := True

def fresh : ServiceState Unit := .start ()

def hasty : Deployment where
  instances := fun _ => ⟨{ config with chainMaxRetries := 1 }, false⟩
  genesisHashInput := config.genesisHashInput
  sameGenesis := fun _ => rfl

def append : WriteEntryInput := { write [123, 125] with idempotencyKey := none }

/-- Both calls look for a halt, one of them halts the chain, and the other goes on. -/
theorem queued_run : ∃ config, ServiceRun capricious hasty
    (.initial fresh) config ∧
      config.state.history[8]? =
        some ⟨0, 0, 0, .chainHaltedInsert "audit.event", ()⟩ ∧
      config.state.history[11]? =
        some ⟨1, 0, 0, .repository (.read (.getChainTip "audit.event")), .error .notFound⟩ := by
  have run : ServiceRun capricious hasty (.initial fresh)
    (.initial fresh) := .refl
  have run := (run.spawn (.writeEntry 0 append)).spawn (.writeEntry 0 append)
  have run := ServiceRun.answer run 0 rfl none ⟨rfl, rfl⟩
  have run := ServiceRun.answer run 1 rfl none ⟨rfl, rfl⟩
  have run := ServiceRun.answer run 0 rfl 0 ⟨rfl, rfl⟩
  have run := ServiceRun.answer run 0 rfl () ⟨rfl, rfl⟩
  have run := ServiceRun.answer run 1 rfl 0 ⟨rfl, rfl⟩
  have run := ServiceRun.answer run 0 rfl (.error .notFound) ⟨(), trivial, rfl⟩
  have run := ServiceRun.answer run 0 rfl instant rfl
  have run := ServiceRun.answer run 0 rfl (.error .chainIntegrityViolation) ⟨(), trivial, rfl⟩
  have run := ServiceRun.answer run 0 rfl () rfl
  have run := ServiceRun.answer run 0 rfl () rfl
  have run := ServiceRun.answer run 1 rfl () ⟨rfl, rfl⟩
  have run := ServiceRun.answer run 1 rfl (.error .notFound) ⟨(), trivial, rfl⟩
  exact ⟨_, run, rfl, rfl⟩

/-- One call halts the chain, and the next one is told. -/
theorem told_run : ∃ config, Run (attentiveWorld capricious hasty) (ServiceTask.body hasty)
    (.initial fresh) config ∧
      config.threads[1]? = some ⟨.writeEntry 0 append, .done (.error .unavailable)⟩ := by
  have run : Run (attentiveWorld capricious hasty) (ServiceTask.body hasty) (.initial fresh)
    (.initial fresh) := .refl
  have run := (run.spawn (.writeEntry 0 append)).spawn (.writeEntry 0 append)
  have run := run.perform 0 rfl none ⟨trivial, fresh, ⟨rfl, rfl⟩, rfl⟩
  have run := run.perform 0 rfl 0 ⟨trivial, _, ⟨rfl, rfl⟩, rfl⟩
  have run := run.perform 0 rfl ()
    ⟨(fun _ _ ⟨_, recorded, _⟩ => nomatch recorded), _, ⟨rfl, rfl⟩, rfl⟩
  have run := run.perform 0 rfl (.error .notFound) ⟨trivial, _, ⟨(), trivial, rfl⟩, rfl⟩
  have run := run.perform 0 rfl instant ⟨trivial, _, rfl, rfl⟩
  have run := run.perform 0 rfl (.error .chainIntegrityViolation)
    ⟨trivial, _, ⟨(), trivial, rfl⟩, rfl⟩
  have run := run.perform 0 rfl () ⟨trivial, _, rfl, rfl⟩
  have run := run.perform 0 rfl () ⟨trivial, _, rfl, rfl⟩
  have run := run.perform 1 rfl (some 0) ⟨trivial, _, ⟨rfl, rfl⟩, rfl⟩
  exact ⟨_, run, rfl⟩

end Sample

end

/-- A chain is halted, and a call that comes within the recovery time is told. -/
theorem serviceRun_respects_halts_told :
    letI := Fips180.sha256
    ∃ config, Run (attentiveWorld Sample.capricious Sample.hasty) (ServiceTask.body Sample.hasty)
      (.initial Sample.fresh) config ∧
        config.threads[1]? =
          some ⟨.writeEntry 0 Sample.append, .done (.error .unavailable)⟩ ∧
        (ServiceState.history config.state).Pairwise (Event.Respects Sample.hasty) := by
  let := Fips180.sha256
  obtain ⟨config, run, told⟩ := Sample.told_run
  exact ⟨config, run, told,
    (serviceRun_respects_halts Sample.capricious Sample.hasty run).1⟩

/-- A call that waits for the lock while the chain is halted appends all the same. -/
theorem halts_are_passed :
    letI := Fips180.sha256
    ¬ ∀ config, ServiceRun Sample.capricious Sample.hasty (.initial Sample.fresh) config →
      config.state.history.Pairwise (Event.Respects Sample.hasty) := by
  let := Fips180.sha256
  intro respects
  obtain ⟨config, run, halted, passed⟩ := Sample.queued_run
  obtain ⟨halts, halt⟩ := List.getElem?_eq_some_iff.mp halted
  obtain ⟨passes, pass⟩ := List.getElem?_eq_some_iff.mp passed
  have respected := List.pairwise_iff_getElem.mp (respects config run) 8 11 halts passes (by decide)
  rw [halt, pass] at respected
  exact respected "audit.event" rfl rfl (by decide) rfl

end ImmutableLedger
