import ImmutableLedger.Concurrency.RelyGuarantee
import ImmutableLedger.Repository.Backend
import ImmutableLedger.Service.Delivery
import ImmutableLedger.Service.Write

/-! Any number of service instances over one repository.

Every await is a request, and between two requests of a call other calls, the repository and
the clock may move. An instance that crashes drops its calls, and the one started in its place
counts as another instance.
-/

set_option autoImplicit false

namespace ImmutableLedger

open Concurrency

/-- The instances of a deployment, which agree on the genesis of their chains. -/
structure Deployment where
  instances : Nat → Instance
  genesisHashInput : String
  sameGenesis : ∀ i, (instances i).config.genesisHashInput = genesisHashInput

def Deployment.genesisHash [Sha256] (deployment : Deployment) : String :=
  sha256Hex (asBytes deployment.genesisHashInput)

theorem Deployment.config_genesisHash [Sha256] (deployment : Deployment) (client : Nat) :
    (deployment.instances client).config.genesisHash = deployment.genesisHash := by
  rw [AppConfig.genesisHash, deployment.sameGenesis, genesisHash]

inductive ServiceTask where
  | writeEntry (client : Nat) (input : WriteEntryInput)
  | issueReceipt (client : Nat) (input : WriteEntryInput)
  | outboxProcessor (client : Nat) (rounds : Nat)

namespace ServiceTask

/-- The instance a task runs in. -/
def client : ServiceTask → Nat
  | .writeEntry client _ => client
  | .issueReceipt client _ => client
  | .outboxProcessor client _ => client

def Result : ServiceTask → Type
  | .writeEntry _ _ => Except ServiceError WriteEntryOutput
  | .issueReceipt _ _ => Except ServiceError ProofReceiptOutput
  | .outboxProcessor _ _ => Empty

def body [Sha256] (deployment : Deployment) : (task : ServiceTask) → Program services task.Result
  | .writeEntry client input => (ImmutableLedger.writeEntry (deployment.instances client) input).run
  | .issueReceipt client input => (ImmutableLedger.issueReceipt (deployment.instances client) input).run
  | .outboxProcessor client rounds =>
      startOutboxProcessor (deployment.instances client) rounds

end ServiceTask

/-- The maps an instance keeps in memory. -/
structure Runtime where
  chainHalted : String → Option Nat
  chainLocks : String → Option Nat

/-- A request that was answered: by which thread, when, and how. -/
structure Event where
  thread : Nat
  client : Nat
  instant : Nat
  request : ServiceRequest
  reply : request.Reply

/-- The time a clock has shown. -/
def Event.reading (event : Event) : Option DateTime :=
  match event.request, event.reply with
  | .utcNow, instant => some instant
  | _, _ => none

/-- What the clocks of all instances have shown, in the order in which they were read. -/
def readings (history : List Event) : List DateTime := history.filterMap Event.reading

structure ServiceState (Store : Type) where
  store : Store
  runtime : Nat → Runtime
  locksCreated : Nat
  holder : Nat → Option Nat
  instant : Nat
  history : List Event

namespace ServiceState

variable {Store : Type}

/-- Instances that have just started. -/
def start (store : Store) : ServiceState Store where
  store := store
  runtime := fun _ => ⟨fun _ => none, fun _ => none⟩
  locksCreated := 0
  holder := fun _ => none
  instant := 0
  history := []

variable (state : ServiceState Store)

def setHalted (client : Nat) (entryType : String) (halted : Option Nat) : ServiceState Store :=
  let runtime := state.runtime client
  let chainHalted := Function.update runtime.chainHalted entryType halted
  { state with
    runtime := Function.update state.runtime client { runtime with chainHalted := chainHalted } }

def createLock (client : Nat) (entryType : String) : ServiceState Store :=
  let runtime := state.runtime client
  let chainLocks := Function.update runtime.chainLocks entryType (some state.locksCreated)
  { state with
    runtime := Function.update state.runtime client { runtime with chainLocks := chainLocks }
    locksCreated := state.locksCreated + 1 }

def setHolder (lock : Nat) (holder : Option Nat) : ServiceState Store :=
  { state with holder := Function.update state.holder lock holder }

/-- Guards are given back when a call is dropped. -/
def releaseAll (thread : Nat) : ServiceState Store :=
  { state with
    holder := fun lock => if state.holder lock = some thread then none else state.holder lock }

def log (event : Event) : ServiceState Store :=
  { state with history := state.history ++ [event] }

@[simp] theorem store_setHalted (client : Nat) (entryType : String) (halted : Option Nat) :
    (state.setHalted client entryType halted).store = state.store := rfl

@[simp] theorem store_createLock (client : Nat) (entryType : String) :
    (state.createLock client entryType).store = state.store := rfl

@[simp] theorem store_setHolder (lock : Nat) (holder : Option Nat) :
    (state.setHolder lock holder).store = state.store := rfl

@[simp] theorem store_releaseAll (thread : Nat) :
    (state.releaseAll thread).store = state.store := rfl

@[simp] theorem store_log (event : Event) : (state.log event).store = state.store := rfl

end ServiceState

/-- How the surroundings answer a request of an instance. -/
def Backend.answers (backend : Backend) (thread client : Nat) :
    (request : ServiceRequest) → ServiceState backend.Store → request.Reply →
      ServiceState backend.Store → Prop
  | .repository request, before, reply, after =>
      ∃ store, backend.performs client request before.store reply store ∧
        after = { before with store := store }
  | .chainHaltedElapsed entryType, before, reply, after =>
      reply = ((before.runtime client).chainHalted entryType).map (before.instant - ·) ∧
        after = before
  | .chainHaltedRemove entryType, before, _, after =>
      after = before.setHalted client entryType none
  | .chainHaltedInsert entryType, before, _, after =>
      after = before.setHalted client entryType (some before.instant)
  | .chainLock entryType, before, reply, after =>
      match (before.runtime client).chainLocks entryType with
      | some lock => reply = lock ∧ after = before
      | none => reply = before.locksCreated ∧ after = before.createLock client entryType
  | .acquire lock, before, _, after =>
      before.holder lock = none ∧ after = before.setHolder lock (some thread)
  | .release lock, before, _, after => after = before.setHolder lock none
  | .utcNow, before, _, after => after = before
  | .sleep _, before, _, after => after = before
  | .publish _, before, _, after => after = before

def serviceWorld (backend : Backend) : World services ServiceTask where
  State := ServiceState backend.Store
  performs thread task request before reply after :=
    ∃ reached, backend.answers thread task.client request before reply reached ∧
      after = reached.log ⟨thread, task.client, before.instant, request, reply⟩
  environment before after :=
    (∃ store, backend.environment before.store store ∧ after = { before with store := store }) ∨
      ∃ later, before.instant ≤ later ∧ after = { before with instant := later }
  dropped thread task request before after :=
    after = before.releaseAll thread ∨
      ∃ pending store, request = .repository pending ∧
        backend.abandoned task.client pending before.store store ∧
          after = { before.releaseAll thread with store := store }

abbrev ServiceConfiguration (backend : Backend) :=
  Configuration (serviceWorld backend) ServiceTask.Result

abbrev ServiceRun [Sha256] (backend : Backend) (deployment : Deployment) :
    ServiceConfiguration backend → ServiceConfiguration backend → Prop :=
  Run (serviceWorld backend) (ServiceTask.body deployment)

/-- The next request of thread `i` is answered. -/
theorem ServiceRun.answer [Sha256] {backend : Backend} {deployment : Deployment}
    {start config : ServiceConfiguration backend} (run : ServiceRun backend deployment start config)
    (i : Nat) {task : ServiceTask} {request : ServiceRequest}
    {resume : request.Reply → Program services task.Result}
    (running : config.threads[i]? = some ⟨task, .call request resume⟩) (reply : request.Reply)
    {reached : ServiceState backend.Store}
    (answered : backend.answers i task.client request config.state reply reached) :
    ServiceRun backend deployment start
      ⟨reached.log ⟨i, task.client, config.state.instant, request, reply⟩,
        config.threads.set i ⟨task, resume reply⟩⟩ :=
  run.perform i running reply ⟨reached, answered, rfl⟩

end ImmutableLedger
