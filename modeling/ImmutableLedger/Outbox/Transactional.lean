import ImmutableLedger.Ledger.Interleavings
import ImmutableLedger.Outbox.Effects
import ImmutableLedger.Service.Reasoning

/-! The outbox under any interleaving of calls and processors.

A processor works through snapshots that may be out of date. It keeps the promise all the same,
for it marks a row as delivered only after its publisher has accepted the announcement, and the
announcement of a row never changes.
-/

set_option autoImplicit false

namespace ImmutableLedger

open Concurrency Announcements

/-- A publisher has accepted a version of the row. -/
def Accepted (history : List Event) (row : OutboxRecord) : Prop :=
  ∃ thread client instant record, record.SameEvent row ∧
    (⟨thread, client, instant, .publish record, .ok ()⟩ : Event) ∈ history

theorem Accepted.spreads {history : List Event} (row other : OutboxRecord)
    (accepted : Accepted history row) (same : row.SameEvent other) : Accepted history other := by
  obtain ⟨thread, client, instant, record, version, logged⟩ := accepted
  exact ⟨thread, client, instant, record, version.trans same, logged⟩

theorem Accepted.mono {before after : List Event} (grown : before <+: after) (row : OutboxRecord)
    (accepted : Accepted before row) : Accepted after row := by
  obtain ⟨thread, client, instant, record, version, logged⟩ := accepted
  exact ⟨thread, client, instant, record, version, grown.subset logged⟩

def Deployment.publishes (deployment : Deployment) (client : Nat) : Bool :=
  (deployment.instances client).publisherEnabled

section

variable {backend : Backend} (ledger : Announcing backend) (deployment : Deployment)

/-- The promise, which requests that may still take effect will not break. -/
structure Promised (state : ServiceState backend.Store) : Prop where
  kept : (ledger.announcements state.store).Kept deployment.publishes (Accepted state.history)
  inflight : ∀ late ∈ ledger.inflight state.store,
    (ledger.announcements state.store).Permits deployment.publishes (Accepted state.history)
      late.client late.request

/-- Neither announcements nor what was published is forgotten. -/
structure Grown (before after : ServiceState backend.Store) : Prop where
  history : before.history <+: after.history
  keeps : (ledger.announcements before.store).Keeps (ledger.announcements after.store)

variable {ledger deployment} {state after : ServiceState backend.Store}

theorem Grown.refl (state : ServiceState backend.Store) : Grown ledger state state :=
  ⟨List.prefix_refl _, .refl _⟩

theorem Grown.trans {first second third : ServiceState backend.Store}
    (grown : Grown ledger first second) (more : Grown ledger second third) :
    Grown ledger first third :=
  ⟨grown.history.trans more.history, grown.keeps.trans more.keeps⟩

/-- A request that is permitted may take effect, and may take effect later. -/
theorem Promised.effect (holds : Promised ledger deployment state)
    (history : state.history <+: after.history) {client : Nat} {request : RepositoryRequest}
    (permits : (ledger.announcements state.store).Permits deployment.publishes
      (Accepted state.history) client request)
    (effect : (ledger.announcements state.store).Effect client request
      (ledger.announcements after.store))
    (inflight : ∀ late ∈ ledger.inflight after.store,
      late ∈ ledger.inflight state.store ∨ late = ⟨client, request⟩) :
    Promised ledger deployment after ∧ Grown ledger state after := by
  have kept := holds.kept.effect Accepted.spreads permits effect
  refine ⟨⟨kept.mono (Accepted.mono history), fun late member => ?_⟩, history, effect.keeps⟩
  have permitted : (ledger.announcements state.store).Permits deployment.publishes
      (Accepted state.history) late.client late.request := by
    rcases inflight late member with earlier | rfl
    · exact holds.inflight late earlier
    · exact permits
  exact permitted.mono (Accepted.mono history) Accepted.spreads effect.keeps

/-- What leaves the store alone breaks nothing. -/
theorem Promised.aside (holds : Promised ledger deployment state)
    (history : state.history <+: after.history) (same : after.store = state.store) :
    Promised ledger deployment after ∧ Grown ledger state after := by
  have permits : (ledger.announcements state.store).Permits deployment.publishes
      (Accepted state.history) 0 (.read .pendingOutbox) := trivial
  refine holds.effect history permits ?_ ?_
  · exact same ▸ .unchanged
  · exact same ▸ fun late => .inl

theorem Promised.environment (holds : Promised ledger deployment state)
    (moved : (serviceWorld backend).environment state after) :
    Promised ledger deployment after ∧ Grown ledger state after := by
  rcases moved with ⟨store, moved, rfl⟩ | ⟨later, -, rfl⟩
  · obtain ⟨effect, inflight⟩ := ledger.environment moved
    rcases effect with same | ⟨late, pending, effect⟩
    · have permits : (ledger.announcements state.store).Permits deployment.publishes
          (Accepted state.history) 0 (.read .pendingOutbox) := trivial
      exact holds.effect (List.prefix_refl _) permits (same ▸ .unchanged)
        fun late member => .inl (inflight late member)
    · exact holds.effect (List.prefix_refl _) (holds.inflight late pending) effect
        fun other member => .inl (inflight other member)
  · exact holds.aside (List.prefix_refl _) rfl

/-- The requests a client may make now. -/
def Permitted (ledger : Announcing backend) (deployment : Deployment)
    (state : ServiceState backend.Store) (client : Nat) (request : ServiceRequest) : Prop :=
  ∀ message, request = .repository message →
    (ledger.announcements state.store).Permits deployment.publishes (Accepted state.history) client
      message

variable {i : Nat} {task : ServiceTask} {request : ServiceRequest}

theorem Promised.dropped (holds : Promised ledger deployment state)
    (permitted : Permitted ledger deployment state task.client request)
    (dropped : (serviceWorld backend).dropped i task request state after) :
    Promised ledger deployment after ∧ Grown ledger state after := by
  rcases dropped with rfl | ⟨message, store, asked, abandoned, rfl⟩
  · exact holds.aside (List.prefix_refl _) (state.store_releaseAll i)
  · obtain ⟨same, inflight⟩ := ledger.abandoned abandoned
    exact holds.effect (List.prefix_refl _) (permitted message asked) (same ▸ .unchanged) inflight

theorem Promised.performs (holds : Promised ledger deployment state)
    (permitted : Permitted ledger deployment state task.client request) {reply : request.Reply}
    (performed : (serviceWorld backend).performs i task request state reply after) :
    Promised ledger deployment after ∧ Grown ledger state after := by
  obtain ⟨reached, answered, rfl⟩ := performed
  obtain ⟨same, -, aside⟩ := backend.answers_frame answered
  have history : state.history <+: (reached.log ⟨i, task.client, state.instant, request, reply⟩).history :=
    same ▸ List.prefix_append _ _
  by_cases isLocal : request.isLocal = true
  · exact holds.aside history (aside isLocal)
  · cases request with
    | repository message =>
      obtain ⟨store, performed, rfl⟩ := answered
      obtain ⟨effect, inflight⟩ := ledger.performs performed
      exact holds.effect history (permitted message rfl) effect inflight
    | _ => exact absurd rfl isLocal

variable (ledger deployment)

variable {ledger deployment} {α : Type} {post : α → ServiceState backend.Store → Prop}

/-- The requests that need no permission, except that an append says whether to announce it. -/
def InOrder (publishes : Bool) : ServiceRequest → Prop
  | .repository (.writeEntryWithOutbox input) => input.createOutbox = publishes
  | .repository (.markOutboxDelivered _) => False
  | _ => True

theorem InOrder.permitted (inOrder : InOrder (deployment.publishes task.client) request) :
    Permitted ledger deployment state task.client request := by
  rintro message rfl
  cases message with
  | writeEntryWithOutbox input => exact inOrder
  | markOutboxDelivered outboxId => exact inOrder.elim
  | _ => trivial

/-- A record that a snapshot may hold. -/
def Known (ledger : Announcing backend) (state : ServiceState backend.Store)
    (record : OutboxRecord) : Prop :=
  ∃ row ∈ (ledger.announcements state.store).outbox, record.SameEvent row

theorem Known.later {record : OutboxRecord} (known : Known ledger state record)
    (grown : Grown ledger state after) : Known ledger after record := by
  obtain ⟨row, member, same⟩ := known
  obtain ⟨kept, keptMember, version⟩ := grown.keeps row member
  exact ⟨kept, keptMember, same.trans version⟩

end

namespace Sample

variable [Sha256]

def announcedInput : EntryWriteInput :=
  (write [123, 125]).entryWriteInput config.genesisHash instant true

def announced : LedgerEntryRecord := announcedInput.entry (ids 1) 1

def announcement : OutboxRecord := announcedInput.outbox (ids 1) 1

end Sample

end ImmutableLedger
