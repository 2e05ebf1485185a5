import ImmutableLedger.Service.Requests

/-! `publish_one` and the outbox processor. -/

set_option autoImplicit false

namespace ImmutableLedger

open Concurrency

/-- `500 * 2u64.pow(next_attempt.min(10) as u32)` -/
def publishBackoff (nextAttempt : Int32) : Nat :=
  500 * 2 ^ (min nextAttempt 10).toUInt32.toNat % 2 ^ 64

def publishOne (maxRetries : UInt32) (record : OutboxRecord) :
    Program services (Except ServiceError Unit) := do
  match ← Program.perform (I := services) (.publish record) with
  | .ok () =>
    return Except.mapError mapRepo
      (← Program.perform (I := services) (.repository (.markOutboxDelivered record.outboxId)))
  | .error (err : String) =>
    let _ ← Program.perform (I := services) (.repository (.incrementOutboxAttempt record.outboxId))
    let nextAttempt := record.attemptCount + 1
    if maxRetries.toInt32 ≤ nextAttempt then
      let _ ← Program.perform (I := services) (.repository (.markOutboxFailed record.outboxId))
      return .error (.internal err)
    else
      Program.perform (I := services) (.sleep (publishBackoff nextAttempt))
      return .error (.internal err)

/-- The records of one snapshot, one after the other. -/
def publishAll (maxRetries : UInt32) : List OutboxRecord → Program services Unit
  | [] => return ()
  | record :: rest => do
    let _ ← publishOne maxRetries record
    publishAll maxRetries rest

/-- One round: what is pending now, or nothing if it cannot be read. -/
def processPending (maxRetries : UInt32) : Program services Unit := do
  match ← Program.perform (I := services) (.repository (.read .pendingOutbox)) with
  | .error _ => return ()
  | .ok (pending : List OutboxRecord) => publishAll maxRetries pending

/-- The endless loop, followed for a number of rounds. -/
def processOutbox (maxRetries : UInt32) : Nat → Program services Empty
  | 0 => .unfinished
  | rounds + 1 => do
    processPending maxRetries
    Program.perform (I := services) (.sleep 500)
    processOutbox maxRetries rounds

/-- A processor is only started for a publisher that is enabled. -/
def startOutboxProcessor (service : Instance) (rounds : Nat) : Program services Empty :=
  if service.publisherEnabled then processOutbox service.config.outboxMaxRetries rounds
  else .unfinished

/-- The requests of a processor. -/
def ServiceRequest.IsDelivery : ServiceRequest → Prop
  | .repository (.read .pendingOutbox) => True
  | .repository (.markOutboxDelivered _) => True
  | .repository (.incrementOutboxAttempt _) => True
  | .repository (.markOutboxFailed _) => True
  | .publish _ => True
  | .sleep _ => True
  | _ => False

theorem publishOne_all (maxRetries : UInt32) (record : OutboxRecord) :
    (publishOne maxRetries record).All ServiceRequest.IsDelivery := by
  refine ⟨trivial, fun published => ?_⟩
  cases published with
  | ok _ => exact ⟨trivial, fun _ => trivial⟩
  | error err =>
    refine ⟨trivial, fun _ => ?_⟩
    dsimp only
    split
    · exact ⟨trivial, fun _ => trivial⟩
    · exact ⟨trivial, fun _ => trivial⟩

theorem publishAll_all (maxRetries : UInt32) (records : List OutboxRecord) :
    (publishAll maxRetries records).All ServiceRequest.IsDelivery := by
  induction records with
  | nil => trivial
  | cons record rest ih => exact (publishOne_all maxRetries record).bind fun _ => ih

theorem processOutbox_all (maxRetries : UInt32) (rounds : Nat) :
    (processOutbox maxRetries rounds).All ServiceRequest.IsDelivery := by
  induction rounds with
  | zero => trivial
  | succ rounds ih =>
    refine Program.All.bind ⟨trivial, fun pending => ?_⟩ fun _ => ⟨trivial, fun _ => ih⟩
    cases pending with
    | error err => trivial
    | ok records => exact publishAll_all maxRetries records

theorem startOutboxProcessor_all (service : Instance) (rounds : Nat) :
    (startOutboxProcessor service rounds).All ServiceRequest.IsDelivery := by
  unfold startOutboxProcessor
  split
  · exact processOutbox_all _ rounds
  · trivial

end ImmutableLedger
