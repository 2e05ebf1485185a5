import ImmutableLedger.Ledger.Dependable
import ImmutableLedger.Locks.Discipline
import ImmutableLedger.Locks.Halts

/-! One instance that is the only writer of its store.

An append names the tip that was read in the same section, and while a thread is in the section of
a chain no other thread appends to it. So no append of such an instance is ever out of place, no
chain is halted, and no call waits for one that waits itself.
-/

set_option autoImplicit false

namespace ImmutableLedger

open Concurrency

/-- The repository does not fail. -/
def Unfailing : (request : ServiceRequest) → request.Reply → Prop
  | .repository _, reply => reply ≠ .error .unavailable
  | _, _ => True

/-- A task of one instance. -/
structure OwnTask (client : Nat) where
  task : ServiceTask
  own : task.client = client

namespace OwnTask

variable {client : Nat}

def Result (own : OwnTask client) : Type := own.task.Result

def body [Sha256] (deployment : Deployment) (own : OwnTask client) : Program services own.Result :=
  own.task.body deployment

end OwnTask

/-- The calls of one instance over a repository that does not fail. No call is dropped. -/
def soleWorld (backend : Backend) (client : Nat) : World services (OwnTask client) where
  State := ServiceState backend.Store
  performs thread own request before reply after :=
    Unfailing request reply ∧ (serviceWorld backend).performs thread own.task request before reply after
  environment := (serviceWorld backend).environment
  dropped _ _ _ _ _ := False

abbrev SoleConfiguration (backend : Backend) (client : Nat) :=
  Configuration (soleWorld backend client) OwnTask.Result

abbrev SoleRun [Sha256] (backend : Backend) (deployment : Deployment) (client : Nat) :
    SoleConfiguration backend client → SoleConfiguration backend client → Prop :=
  Run (soleWorld backend client) (OwnTask.body deployment)

/-! It is a service like any other. -/

section

variable {backend : Backend} {client : Nat}

def SoleConfiguration.service (config : SoleConfiguration backend client) :
    ServiceConfiguration backend where
  state := config.state
  threads := config.threads.map fun thread => ⟨thread.task.task, thread.program⟩

theorem SoleConfiguration.service_thread {config : SoleConfiguration backend client} {i : Nat}
    {own : OwnTask client} {program : Program services own.Result}
    (present : config.threads[i]? = some ⟨own, program⟩) :
    (service config).threads[i]? = some ⟨own.task, program⟩ := by
  rw [service, List.getElem?_map, present]
  rfl

theorem SoleRun.service [Sha256] {deployment : Deployment}
    {start config : SoleConfiguration backend client} (run : SoleRun backend deployment client start config) :
    ServiceRun backend deployment (SoleConfiguration.service start)
      (SoleConfiguration.service config) := by
  induction run with
  | refl => exact .refl
  | tail _ step ih =>
    cases step with
    | spawn own =>
      have spawned := Run.spawn ih own.task
      simp only [SoleConfiguration.service, List.map_append, List.map_singleton]
      exact spawned
    | @perform i own request resume reply after running performed =>
      have answered := Run.perform ih i (SoleConfiguration.service_thread running) reply performed.2
      simp only [SoleConfiguration.service, List.map_set]
      exact answered
    | environment moved => exact ih.tail (.environment moved)
    | drop running dropped => exact dropped.elim

end

end ImmutableLedger
