import ImmutableLedger.Service.Types

/-! What a running service asks of its surroundings: the repository, the maps and locks of its
instance, the clock and the publisher.
-/

set_option autoImplicit false

namespace ImmutableLedger

open Concurrency

inductive ServiceRequest where
  | repository (request : RepositoryRequest)
  /-- `chain_halted.read()`: how long ago, in nanoseconds, a halt was recorded. -/
  | chainHaltedElapsed (entryType : String)
  | chainHaltedRemove (entryType : String)
  | chainHaltedInsert (entryType : String)
  /-- The lock of a chain, created at its first use. -/
  | chainLock (entryType : String)
  | acquire (lock : Nat)
  | release (lock : Nat)
  | utcNow
  | sleep (millis : Nat)
  | publish (record : OutboxRecord)

abbrev ServiceRequest.Reply : ServiceRequest → Type
  | .repository request => request.Reply
  | .chainHaltedElapsed _ => Option Nat
  | .chainLock _ => Nat
  | .utcNow => DateTime
  | .publish _ => Except String Unit
  | _ => Unit

abbrev services : Interface := ⟨ServiceRequest, ServiceRequest.Reply⟩

/-- A call into the service, which may stop with an error. -/
abbrev Call := ExceptT ServiceError (Program services)

/-- A request whose reply is passed on as it is. -/
def request (request : ServiceRequest) : Call request.Reply :=
  ExceptT.lift (Program.perform (I := services) request)

/-- A request to the repository that ends the call if it fails. -/
def askRepository (request : RepositoryRequest) : Call request.Value :=
  ExceptT.mk do
    return Except.mapError mapRepo (← Program.perform (I := services) (.repository request))

theorem run_request_bind {α : Type} (message : ServiceRequest) (next : message.Reply → Call α) :
    (request message >>= next).run = .call message fun reply => (next reply).run := rfl

theorem run_askRepository_bind {α : Type} (message : RepositoryRequest)
    (next : message.Value → Call α) :
    (askRepository message >>= next).run = .call (.repository message) fun (reply : message.Reply) =>
      match reply with
      | .ok value => (next value).run
      | .error err => .done (.error (mapRepo err)) := by
  change Program.call (I := services) (.repository message) _ = _
  congr 1
  funext reply
  cases reply <;> rfl

/-- One running copy of the service. -/
structure Instance where
  config : AppConfig
  publisherEnabled : Bool

end ImmutableLedger
