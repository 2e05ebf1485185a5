import ImmutableLedger.Service.World

/-! Rules for calls whose guarantees are about the repository alone. -/

set_option autoImplicit false

namespace ImmutableLedger

open Concurrency

/-- The requests that leave the repository alone. -/
def ServiceRequest.isLocal : ServiceRequest → Bool
  | .repository _ => false
  | _ => true

/-- No request changes the history or the clock, nor the store unless it is addressed. -/
theorem Backend.answers_frame {backend : Backend} {thread client : Nat} {request : ServiceRequest}
    {reply : request.Reply} {before after : ServiceState backend.Store}
    (answered : backend.answers thread client request before reply after) :
    after.history = before.history ∧ after.instant = before.instant ∧
      (request.isLocal = true → after.store = before.store) := by
  cases request with
  | repository request =>
    obtain ⟨store, -, rfl⟩ := answered
    exact ⟨rfl, rfl, fun isLocal => by cases isLocal⟩
  | chainHaltedElapsed entryType =>
    obtain ⟨-, rfl⟩ := answered
    exact ⟨rfl, rfl, fun _ => rfl⟩
  | chainHaltedRemove entryType =>
    obtain rfl := answered
    exact ⟨rfl, rfl, fun _ => rfl⟩
  | chainHaltedInsert entryType =>
    obtain rfl := answered
    exact ⟨rfl, rfl, fun _ => rfl⟩
  | chainLock entryType =>
    simp only [answers] at answered
    split at answered <;> obtain ⟨-, rfl⟩ := answered <;> exact ⟨rfl, rfl, fun _ => rfl⟩
  | acquire lock =>
    obtain ⟨-, rfl⟩ := answered
    exact ⟨rfl, rfl, fun _ => rfl⟩
  | release lock =>
    obtain rfl := answered
    exact ⟨rfl, rfl, fun _ => rfl⟩
  | utcNow =>
    obtain rfl := answered
    exact ⟨rfl, rfl, fun _ => rfl⟩
  | sleep millis =>
    obtain rfl := answered
    exact ⟨rfl, rfl, fun _ => rfl⟩
  | publish record =>
    obtain rfl := answered
    exact ⟨rfl, rfl, fun _ => rfl⟩

/-- What every thread keeps of the store of a repository and may rely on. -/
structure StoreProtocol (backend : Backend) where
  invariant : backend.Store → Prop
  rely : backend.Store → backend.Store → Prop
  rely_refl : ∀ store, rely store store
  rely_trans : ∀ {first second third}, rely first second → rely second third → rely first third
  environment : ∀ {before after}, invariant before → backend.environment before after →
    invariant after ∧ rely before after

namespace StoreProtocol

variable {backend : Backend} (protocol : StoreProtocol backend)

def lift : Protocol (serviceWorld backend) where
  invariant state := protocol.invariant state.store
  rely _ before after := protocol.rely before.store after.store
  rely_refl _ state := protocol.rely_refl state.store
  rely_trans := protocol.rely_trans
  environment := by
    rintro before after holds (⟨store, moved, rfl⟩ | ⟨later, -, rfl⟩)
    · obtain ⟨keeps, relied⟩ := protocol.environment holds moved
      exact ⟨keeps, fun _ => relied⟩
    · exact ⟨holds, fun _ => protocol.rely_refl _⟩

/-- A request that keeps the protocol, whether it is answered or abandoned. -/
structure Allows (client : Nat) (request : RepositoryRequest) (store : backend.Store) : Prop where
  performs : ∀ reply after, backend.performs client request store reply after →
    protocol.invariant after ∧ protocol.rely store after
  abandoned : ∀ after, backend.abandoned client request store after →
    protocol.invariant after ∧ protocol.rely store after

variable {protocol} {i : Nat} {task : ServiceTask} {α β : Type}
  {post : α → ServiceState backend.Store → Prop} {state : ServiceState backend.Store}

theorem safe_repository {request : RepositoryRequest}
    {resume : request.Reply → Program services α} (holds : protocol.invariant state.store)
    (allowed : protocol.Allows task.client request state.store)
    (continues : ∀ reply after, backend.performs task.client request state.store reply after →
      ∀ later : ServiceState backend.Store, protocol.invariant later.store →
        protocol.rely after later.store → protocol.lift.Safe i task post (resume reply) later) :
    protocol.lift.Safe i task post (.call (.repository request) resume) state := by
  refine ⟨?_, ?_⟩
  · rintro after (rfl | ⟨pending, store, same, abandoned, rfl⟩)
    · exact ⟨holds, fun _ _ => protocol.rely_refl _⟩
    · cases same
      obtain ⟨keeps, relied⟩ := allowed.abandoned store abandoned
      exact ⟨keeps, fun _ _ => relied⟩
  · rintro reply after ⟨reached, ⟨store, performed, rfl⟩, rfl⟩
    obtain ⟨keeps, relied⟩ := allowed.performs reply store performed
    exact ⟨keeps, fun _ _ => relied, fun later holdsLater reliedLater =>
      continues reply store performed later holdsLater reliedLater⟩

theorem safe_local {request : ServiceRequest} {resume : request.Reply → Program services α}
    (isLocal : request.isLocal = true) (holds : protocol.invariant state.store)
    (continues : ∀ reply, ∀ later : ServiceState backend.Store, protocol.invariant later.store →
      protocol.rely state.store later.store → protocol.lift.Safe i task post (resume reply) later) :
    protocol.lift.Safe i task post (.call request resume) state := by
  refine ⟨?_, ?_⟩
  · rintro after (rfl | ⟨pending, store, rfl, -, -⟩)
    · exact ⟨holds, fun _ _ => protocol.rely_refl _⟩
    · cases isLocal
  · rintro reply after ⟨reached, answered, rfl⟩
    have same : reached.store = state.store := (backend.answers_frame answered).2.2 isLocal
    simp only [lift, ServiceState.store_log, same]
    exact ⟨holds, fun _ _ => protocol.rely_refl _, continues reply⟩

/-- A program is safe if every request it can send to the repository keeps the protocol. -/
theorem safe_of_all {allowed : ServiceRequest → Prop}
    (allows : ∀ request store, allowed (.repository request) → protocol.invariant store →
      protocol.Allows task.client request store)
    {program : Program services α} (all : program.All allowed)
    (holds : protocol.invariant state.store) :
    protocol.lift.Safe i task (fun _ _ => True) program state := by
  induction program generalizing state with
  | done value => trivial
  | unfinished => trivial
  | call request resume ih =>
    obtain ⟨permitted, rest⟩ := all
    by_cases isLocal : request.isLocal = true
    · exact safe_local isLocal holds fun reply later holdsLater _ => ih reply (rest reply) holdsLater
    · cases request with
      | repository request =>
        exact safe_repository holds (allows request state.store permitted holds)
          fun reply _ _ later holdsLater _ => ih reply (rest reply) holdsLater
      | _ => exact absurd rfl isLocal

/-- What every request keeps is kept by every run, whatever the programs are. -/
theorem run_of_allows [Sha256]
    (allows : ∀ client request store, protocol.invariant store →
      protocol.Allows client request store)
    {deployment : Deployment} {before after : ServiceConfiguration backend}
    (holds : protocol.invariant before.state.store)
    (run : ServiceRun backend deployment before after) :
    protocol.invariant after.state.store ∧
      protocol.rely before.state.store after.state.store := by
  have safe (i : Nat) (task : ServiceTask) {α : Type} (program : Program services α)
      (state : ServiceState backend.Store) (kept : protocol.invariant state.store) :
      protocol.lift.Safe i task (fun _ _ => True) program state :=
    safe_of_all (fun request store _ => allows task.client request store)
      (Program.All.unrestricted program) kept
  have start : protocol.lift.Holds (fun _ _ _ => True) before :=
    ⟨holds, fun i thread _ later kept _ => safe i thread.task thread.program later kept⟩
  obtain ⟨reached, relied⟩ := Protocol.Holds.run
    (fun i task state kept => safe i task (task.body deployment) state kept) start run
  exact ⟨reached.invariant, relied _ (Nat.le_refl _)⟩

end StoreProtocol

/-- A call followed by another: what stops the first stops both. -/
theorem safe_bind {world : World services ServiceTask} {protocol : Protocol world} {i : Nat}
    {task : ServiceTask} {α β : Type} {call : Call α} {next : α → Call β}
    {reached : Except ServiceError α → world.State → Prop}
    {post : Except ServiceError β → world.State → Prop} {state : world.State}
    (holds : protocol.invariant state) (first : protocol.Safe i task reached call.run state)
    (continues : ∀ value state, protocol.invariant state → reached (.ok value) state →
      protocol.Safe i task post (next value).run state)
    (stops : ∀ err state, reached (.error err) state → post (.error err) state) :
    protocol.Safe i task post (call >>= next).run state := by
  rw [ExceptT.run_bind]
  refine Protocol.Safe.bind (first.mono (fun result later holdsLater met => ?_) holds)
  cases result with
  | ok value => exact continues value later holdsLater met
  | error err => exact stops err later met

end ImmutableLedger
