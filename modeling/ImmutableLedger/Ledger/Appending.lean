import ImmutableLedger.Ledger.Growth
import ImmutableLedger.Service.Reasoning

/-! The append-only protocol of a Postgres ledger.

Entries are only ever added. Every append that was sent, and may still take effect, is ready
for its chain, so chains that were complete at the start stay complete.
-/

set_option autoImplicit false

namespace ImmutableLedger

open Concurrency

variable [Sha256] {genesis : String} {wereValid : Prop}

omit [Sha256] in
/-- Every row stays where it is. -/
def Grows (before after : Database) : Prop :=
  before.tables.entries.rows <+: after.tables.entries.rows

/-- What is kept of the database. `wereValid` says whether the chains were complete at first. -/
structure Appending (genesis : String) (wereValid : Prop) (db : Database) : Prop where
  inflight : ∀ late ∈ db.inflight, Ready genesis db.tables late.request
  chains : wereValid → ChainsValid genesis db.tables.entries

omit [Sha256] in
theorem Ready.of_rows {request : RepositoryRequest} {before after : Tables}
    (ready : Ready genesis before request)
    (rows : before.entries.rows <+: after.entries.rows) : Ready genesis after request := by
  cases request with
  | writeEntryWithOutbox input =>
    refine Or.imp_right (fun stored empty => stored ?_) ready
    refine List.eq_nil_iff_forall_not_mem.mpr fun row member => ?_
    obtain ⟨inRows, typed⟩ := LedgerEntries.mem_ofType.mp member
    exact List.eq_nil_iff_forall_not_mem.mp empty row
      (LedgerEntries.mem_ofType.mpr ⟨rows.subset inRows, typed⟩)
  | _ => trivial

theorem Tables.execute_rows (draw : Draw) (request : RepositoryRequest) (tables : Tables) :
    tables.entries.rows <+: (tables.execute draw request).2.entries.rows := by
  obtain same | ⟨input, result, after, nextPosition, -, ran, committed⟩ :=
    Tables.execute_entries draw request tables
  · exact same ▸ List.prefix_refl _
  · rw [ran, committed.rows]
    exact List.prefix_append _ _

theorem Tables.execute_chainsValid {draw : Draw} {request : RepositoryRequest} {tables : Tables}
    (ready : Ready genesis tables request) (valid : ChainsValid genesis tables.entries) :
    ChainsValid genesis (tables.execute draw request).2.entries := by
  obtain same | ⟨input, result, after, nextPosition, rfl, ran, committed⟩ :=
    Tables.execute_entries draw request tables
  · exact same ▸ valid
  · rw [ran]
    exact committed.chainsValid ready valid

theorem Appending.executed {db : Database} (holds : Appending genesis wereValid db) (draw : Draw)
    (client : Nat) {request : RepositoryRequest} (ready : Ready genesis db.tables request) :
    Appending genesis wereValid (db.executed draw client request) ∧
      Grows db (db.executed draw client request) := by
  have rows := db.tables.execute_rows draw request
  exact ⟨⟨fun late member => (holds.inflight late member).of_rows rows,
    fun valid => Tables.execute_chainsValid ready (holds.chains valid)⟩, rows⟩

theorem Appending.unanswered {db : Database} (holds : Appending genesis wereValid db) (client : Nat)
    {request : RepositoryRequest} (ready : Ready genesis db.tables request) :
    Appending genesis wereValid (db.unanswered client request) := by
  refine ⟨fun late member => ?_, holds.chains⟩
  rcases List.mem_append.mp member with earlier | last
  · exact holds.inflight late earlier
  · obtain rfl := List.mem_singleton.mp last
    exact ready

theorem Appending.moves {before after : Database} (holds : Appending genesis wereValid before)
    (moved : before.Moves after) : Appending genesis wereValid after ∧ Grows before after := by
  cases moved with
  | landed earlier others late draw pending =>
    obtain ⟨kept, grows⟩ := holds.executed draw late.client
      (holds.inflight late (by simp [pending]))
    refine ⟨⟨fun other member => kept.inflight other ?_, kept.chains⟩, grows⟩
    have listed : other ∈ before.inflight := by
      rw [pending]
      exact (List.sublist_cons_self _ _).append_left _ |>.subset member
    exact listed
  | lost earlier others late pending =>
    refine ⟨⟨fun other member => holds.inflight other ?_, holds.chains⟩, List.prefix_refl _⟩
    rw [pending]
    exact (List.sublist_cons_self _ _).append_left _ |>.subset member
  | rearranged outbox perm =>
    exact ⟨⟨fun late member => holds.inflight late member, holds.chains⟩, List.prefix_refl _⟩

def appending (genesis : String) (wereValid : Prop) : StoreProtocol postgres where
  invariant := Appending genesis wereValid
  rely := Grows
  rely_refl _ := List.prefix_refl _
  rely_trans := List.IsPrefix.trans
  environment := Appending.moves

/-- A ready request may be sent, answered or not. -/
theorem appending_allows {client : Nat} {request : RepositoryRequest} {db : Database}
    (holds : Appending genesis wereValid db) (ready : Ready genesis db.tables request) :
    (appending genesis wereValid).Allows client request db where
  performs := by
    rintro reply after (draw | _ | _)
    · exact holds.executed draw client ready
    · exact ⟨holds, List.prefix_refl _⟩
    · exact ⟨holds.unanswered client ready, List.prefix_refl _⟩
  abandoned := by
    rintro after rfl
    exact ⟨holds.unanswered client ready, List.prefix_refl _⟩

end ImmutableLedger
