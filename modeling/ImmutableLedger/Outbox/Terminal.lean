import ImmutableLedger.Ledger.Interleavings

/-! How final the status of an outbox row is.

Every statement but one leaves a status alone that is no longer PENDING. The exception is
`mark_outbox_failed`, which overwrites DELIVERED.
-/

set_option autoImplicit false

namespace ImmutableLedger

open Concurrency

/-- Statuses other than PENDING stay what they are. -/
def LedgerWriteOutbox.Settles (before after : LedgerWriteOutbox) : Prop :=
  ∀ row ∈ before.rows, row.record.status ≠ .pending →
    ∃ later ∈ after.rows, later.outboxId = row.outboxId ∧ later.record.status = row.record.status

/-- A processor gives up on a row that has been delivered meanwhile. -/
def Tables.Overtaken (tables : Tables) : RepositoryRequest → Prop
  | .markOutboxFailed outboxId =>
      ∃ row ∈ tables.outbox.rows, row.outboxId = outboxId ∧ row.record.status = .delivered
  | _ => False

namespace LedgerWriteOutbox

variable {table : LedgerWriteOutbox}

theorem Settles.refl (table : LedgerWriteOutbox) : table.Settles table :=
  fun row member _ => ⟨row, member, rfl, rfl⟩

theorem Settles.trans {first second third : LedgerWriteOutbox} (settles : first.Settles second)
    (again : second.Settles third) : first.Settles third := by
  intro row member final
  obtain ⟨later, laterMember, sameId, sameStatus⟩ := settles row member final
  obtain ⟨last, lastMember, lastId, lastStatus⟩ := again later laterMember (sameStatus ▸ final)
  exact ⟨last, lastMember, lastId.trans sameId, lastStatus.trans sameStatus⟩

theorem Settles.of_subset {after : LedgerWriteOutbox} (rows : table.rows ⊆ after.rows) :
    table.Settles after :=
  fun row member _ => ⟨row, rows member, rfl, rfl⟩

theorem updateOne_settles {selects : OutboxRecord → Bool} {change : Change}
    (leaves : ∀ row ∈ table.rows, selects row.record = true → row.record.status ≠ .pending →
      (change.set row.record).status = row.record.status) :
    table.Settles (table.updateOne selects change).2 := by
  intro row member final
  refine ⟨change.apply selects row, ?_, (change.keeps_on selects row.record).outboxId, ?_⟩
  · rw [updateOne_rows]
    exact List.mem_map_of_mem member
  · unfold Change.apply Change.on
    split
    · next selected => exact leaves row member selected final
    · rfl

end LedgerWriteOutbox

section

variable [Sha256]

theorem Tables.execute_settles {draw : Draw} {request : RepositoryRequest} {tables : Tables}
    (timely : ¬tables.Overtaken request) :
    tables.outbox.Settles (tables.execute draw request).2.outbox := by
  cases request with
  | read request => exact .refl _
  | writeEntryWithOutbox input =>
    obtain ⟨err, rejected, -⟩ | ⟨result, after, nextPosition, wrote, committed⟩ :=
      @writeEntryWithOutbox_cases _ tables draw input
    · exact (congrArg (fun ran => ran.2.outbox) rejected) ▸ .refl _
    · refine (congrArg (fun ran => ran.2.outbox) wrote) ▸ .of_subset ?_
      cases announced : result.outbox with
      | none => exact committed.silent announced ▸ List.Subset.refl _
      | some record =>
        rw [(LedgerWriteOutbox.insert_some (committed.announced record announced)).1]
        exact List.subset_append_left _ _
  | markOutboxDelivered outboxId =>
    refine LedgerWriteOutbox.updateOne_settles fun row _ selected final => ?_
    exact absurd (of_decide_eq_true selected).2 final
  | incrementOutboxAttempt outboxId =>
    simp only [execute, LedgerWriteOutbox.incrementOutboxAttempt]
    split
    · exact .refl _
    · exact LedgerWriteOutbox.updateOne_settles fun _ _ _ _ => rfl
  | markOutboxFailed outboxId =>
    refine LedgerWriteOutbox.updateOne_settles fun row member selected final => ?_
    cases status : row.record.status with
    | pending => exact absurd status final
    | delivered => exact absurd ⟨row, member, of_decide_eq_true selected, status⟩ timely
    | failed => rfl

/-- The one way in which an execution undoes a final status. -/
theorem Tables.execute_settles_iff (draw : Draw) (request : RepositoryRequest) (tables : Tables) :
    tables.outbox.Settles (tables.execute draw request).2.outbox ↔ ¬tables.Overtaken request := by
  refine ⟨fun settles overtaken => ?_, execute_settles⟩
  cases request with
  | markOutboxFailed outboxId =>
    obtain ⟨row, member, named, delivered⟩ := overtaken
    obtain ⟨later, laterMember, sameId, sameStatus⟩ :=
      settles row member (by rw [delivered]; decide)
    have rows := tables.outbox.updateOne_rows
      (fun record => decide (record.outboxId = outboxId)) (LedgerWriteOutbox.setStatus .failed)
    rw [show (tables.execute draw (.markOutboxFailed outboxId)).2.outbox.rows = _ from rows]
      at laterMember
    obtain ⟨earlier, -, rfl⟩ := List.mem_map.mp laterMember
    have own : earlier.record.outboxId = outboxId :=
      ((LedgerWriteOutbox.Change.keeps_on _ _ _).outboxId.symm.trans sameId).trans named
    rw [delivered, LedgerWriteOutbox.Change.apply, LedgerWriteOutbox.Change.on,
      if_pos (decide_eq_true own)] at sameStatus
    cases sameStatus
  | _ => exact overtaken

/-! Runs in which no processor is overtaken. -/

/-- A step of Postgres that executes no overtaken request. -/
inductive Database.TimelyPerforms (client : Nat) (request : RepositoryRequest) (db : Database) :
    request.Reply → Database → Prop where
  | executed (draw : Draw) (timely : ¬db.tables.Overtaken request) :
      TimelyPerforms client request db (db.tables.execute draw request).1
        (db.executed draw client request)
  | refused : TimelyPerforms client request db (.error .unavailable) db
  | unanswered :
      TimelyPerforms client request db (.error .unavailable) (db.unanswered client request)

inductive Database.TimelyMoves (db : Database) : Database → Prop where
  | landed (before after : List Inflight) (late : Inflight) (draw : Draw)
      (pending : db.inflight = before ++ late :: after)
      (timely : ¬db.tables.Overtaken late.request) :
      TimelyMoves db { db.executed draw late.client late.request with inflight := before ++ after }
  | lost (before after : List Inflight) (late : Inflight)
      (pending : db.inflight = before ++ late :: after) :
      TimelyMoves db { db with inflight := before ++ after }
  | rearranged (outbox : LedgerWriteOutbox) (perm : outbox.rows.Perm db.tables.outbox.rows) :
      TimelyMoves db { db with tables := { db.tables with outbox := outbox } }

/-- Every reply of Postgres is timely or to an overtaken request. -/
theorem Database.performs_cases {client : Nat} {request : RepositoryRequest} {db after : Database}
    {reply : request.Reply} (performed : Performs client request db reply after) :
    TimelyPerforms client request db reply after ∨ db.tables.Overtaken request := by
  by_cases overtaken : db.tables.Overtaken request
  · exact .inr overtaken
  · refine .inl ?_
    cases performed with
    | executed draw => exact .executed draw overtaken
    | refused => exact .refused
    | unanswered => exact .unanswered

theorem Database.moves_cases {db after : Database} (moved : db.Moves after) :
    db.TimelyMoves after ∨ ∃ late ∈ db.inflight, db.tables.Overtaken late.request := by
  cases moved with
  | landed earlier others late draw pending =>
    by_cases overtaken : db.tables.Overtaken late.request
    · exact .inr ⟨late, by simp [pending], overtaken⟩
    · exact .inl (.landed earlier others late draw pending overtaken)
  | lost earlier others late pending => exact .inl (.lost earlier others late pending)
  | rearranged outbox perm => exact .inl (.rearranged outbox perm)

def timelyPostgres : Backend where
  Store := Database
  performs := Database.TimelyPerforms
  abandoned client request before after := after = before.unanswered client request
  environment := Database.TimelyMoves

def settling : StoreProtocol timelyPostgres where
  invariant _ := True
  rely before after := before.tables.outbox.Settles after.tables.outbox
  rely_refl store := .refl store.tables.outbox
  rely_trans := .trans
  environment := by
    rintro before after - moved
    refine ⟨trivial, ?_⟩
    cases moved with
    | landed earlier others late draw pending timely => exact Tables.execute_settles timely
    | lost earlier others late pending => exact .refl _
    | rearranged outbox perm => exact .of_subset perm.symm.subset

theorem settling_allows (client : Nat) (request : RepositoryRequest) (db : Database) :
    settling.Allows client request db where
  performs := by
    rintro reply after (⟨draw, timely⟩ | _ | _)
    · exact ⟨trivial, Tables.execute_settles timely⟩
    · exact ⟨trivial, .refl _⟩
    · exact ⟨trivial, .refl _⟩
  abandoned := by
    rintro after rfl
    exact ⟨trivial, .refl _⟩

/-- As long as no processor gives up on a row that has been delivered, what is delivered stays
delivered and what has failed stays failed. -/
theorem serviceRun_settles (deployment : Deployment)
    {before after : ServiceConfiguration timelyPostgres}
    (run : ServiceRun timelyPostgres deployment before after) :
    before.state.store.tables.outbox.Settles after.state.store.tables.outbox :=
  (StoreProtocol.run_of_allows (fun client request store _ => settling_allows client request store)
    trivial run).2

/-! Two processors with the same snapshot. -/

namespace Sample

def contender (attempts : Int32) : OutboxRecord :=
  { (((write [123, 125]).entryWriteInput config.genesisHash instant true).outbox (ids 1) 1) with
    attemptCount := attempts }

/-- One row to deliver, after some attempts. -/
def contended (attempts : Int32) : Database :=
  database
    { firstTables with
      outbox := ⟨[⟨contender attempts, instant⟩], List.nodup_singleton _⟩ }

/-- Both processors read the row, one publishes it and marks it, the other fails to publish. -/
theorem overtaken_run : ∃ config later, ServiceRun postgres deployment
    (.initial (.start (contended 9))) config ∧ ServiceRun postgres deployment config later ∧
      config.state.store.tables.outbox.rows =
        [⟨{ contender 9 with status := .delivered }, instant⟩] ∧
      later.state.store.tables.outbox.rows =
        [⟨{ contender 10 with status := .failed }, instant⟩] := by
  have run : ServiceRun postgres deployment (.initial (.start (contended 9)))
    (.initial (.start (contended 9))) := .refl
  have run := (run.spawn (.outboxProcessor 0 1)).spawn (.outboxProcessor 2 1)
  have run := ServiceRun.answer run 0 rfl (.ok [contender 9])
    ⟨_, Database.Performs.executed ⟨ids 1, instant⟩, rfl⟩
  have run := ServiceRun.answer run 1 rfl (.ok [contender 9])
    ⟨_, Database.Performs.executed ⟨ids 1, instant⟩, rfl⟩
  have run := ServiceRun.answer run 0 rfl (.ok ()) rfl
  have run := ServiceRun.answer run 0 rfl (.ok ())
    ⟨_, Database.Performs.executed ⟨ids 1, instant⟩, rfl⟩
  have run := ServiceRun.answer run 1 rfl (.error "unreachable") rfl
  obtain ⟨delivered, reached, run, further⟩ := run.pause
  have further := ServiceRun.answer further 1 rfl (.ok ())
    ⟨_, Database.Performs.executed ⟨ids 1, instant⟩, rfl⟩
  have further := ServiceRun.answer further 1 rfl (.ok ())
    ⟨_, Database.Performs.executed ⟨ids 1, instant⟩, rfl⟩
  exact ⟨delivered, _, run, further, reached ▸ rfl, rfl⟩

/-- The same on time: the second processor has attempts left. -/
theorem timely_run : ∃ config later, ServiceRun timelyPostgres deployment
    (.initial (.start (contended 0))) config ∧ ServiceRun timelyPostgres deployment config later ∧
      config.state.store.tables.outbox.rows =
        [⟨{ contender 0 with status := .delivered }, instant⟩] ∧
      later.state.store.tables.outbox.rows =
        [⟨{ contender 1 with status := .delivered }, instant⟩] := by
  have run : ServiceRun timelyPostgres deployment (.initial (.start (contended 0)))
    (.initial (.start (contended 0))) := .refl
  have run := (run.spawn (.outboxProcessor 0 1)).spawn (.outboxProcessor 2 1)
  have run := ServiceRun.answer run 0 rfl (.ok [contender 0])
    ⟨_, Database.TimelyPerforms.executed ⟨ids 1, instant⟩ id, rfl⟩
  have run := ServiceRun.answer run 1 rfl (.ok [contender 0])
    ⟨_, Database.TimelyPerforms.executed ⟨ids 1, instant⟩ id, rfl⟩
  have run := ServiceRun.answer run 0 rfl (.ok ()) rfl
  have run := ServiceRun.answer run 0 rfl (.ok ())
    ⟨_, Database.TimelyPerforms.executed ⟨ids 1, instant⟩ id, rfl⟩
  have run := ServiceRun.answer run 1 rfl (.error "unreachable") rfl
  obtain ⟨delivered, reached, run, further⟩ := run.pause
  have further := ServiceRun.answer further 1 rfl (.ok ())
    ⟨_, Database.TimelyPerforms.executed ⟨ids 1, instant⟩ id, rfl⟩
  exact ⟨delivered, _, run, further, reached ▸ rfl, rfl⟩

end Sample

end

/-- A processor that fails while another has already delivered. -/
theorem serviceRun_settles_timely :
    letI := Fips180.sha256
    ∃ config later, ServiceRun timelyPostgres Sample.deployment config later ∧
      config.state.store.tables.outbox.Settles later.state.store.tables.outbox ∧
        ∃ row ∈ later.state.store.tables.outbox.rows, row.record.status = .delivered := by
  let := Fips180.sha256
  obtain ⟨config, later, -, further, -, rows⟩ := Sample.timely_run
  refine ⟨config, later, further, serviceRun_settles Sample.deployment further, ?_⟩
  exact ⟨_, rows ▸ List.mem_singleton_self _, rfl⟩

/-- Two processors and one row: what one has delivered, the other marks as failed. -/
theorem delivered_becomes_failed :
    letI := Fips180.sha256
    ¬ ∀ config later, ServiceRun postgres Sample.deployment
      (.initial (.start (Sample.contended 9))) config →
        ServiceRun postgres Sample.deployment config later →
          config.state.store.tables.outbox.Settles later.state.store.tables.outbox := by
  let := Fips180.sha256
  intro settles
  obtain ⟨config, later, run, further, delivered, failed⟩ := Sample.overtaken_run
  obtain ⟨row, member, -, status⟩ := settles config later run further _
    (delivered ▸ List.mem_singleton_self _) (by simp)
  rw [failed] at member
  obtain rfl := List.mem_singleton.mp member
  cases status

end ImmutableLedger
