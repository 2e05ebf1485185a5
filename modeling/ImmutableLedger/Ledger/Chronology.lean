import ImmutableLedger.Audit.Proofs
import ImmutableLedger.Ledger.Interleavings
import ImmutableLedger.Repository.Queries

/-! The order of a chain is the order of time.

A writer reads the tip first and the clock second, and its append is accepted only while that tip
is still the last row. So what is appended is never older than the row it follows, however long
the writer was held up, provided that a hash names one row.
-/

set_option autoImplicit false

namespace ImmutableLedger

open Concurrency

/-! Clocks. -/

/-- No clock is behind one that was read before. -/
def Steady (history : List Event) : Prop :=
  (readings history).Pairwise fun earlier later => earlier.nanos ≤ later.nanos

theorem readings_append (first second : List Event) :
    readings (first ++ second) = readings first ++ readings second :=
  List.filterMap_append

theorem Steady.of_prefix {before after : List Event} (steady : Steady after)
    (extended : before <+: after) : Steady before := by
  obtain ⟨more, rfl⟩ := extended
  rw [Steady, readings_append] at steady
  exact (List.pairwise_append.mp steady).1

theorem readings_subset {before after : List Event} (extended : before <+: after) :
    readings before ⊆ readings after := by
  obtain ⟨more, rfl⟩ := extended
  rw [readings_append]
  exact List.subset_append_left _ _

theorem DateTime.truncateMicros_mono {first second : DateTime} (le : first.nanos ≤ second.nanos) :
    first.truncateMicros.nanos ≤ second.truncateMicros.nanos := by
  simp only [truncateMicros]
  omega

/-! Time and position in a table. -/

/-- Within a chain a later position has no earlier time. -/
def TimeOrdered (table : LedgerEntries) : Prop :=
  ∀ row ∈ table.rows, ∀ other ∈ table.rows, row.entryType = other.entryType →
    row.position < other.position → row.writtenTs.nanos ≤ other.writtenTs.nanos

/-- A new row that is not older than the tip keeps the order. -/
theorem TimeOrdered.append {before after : LedgerEntries} {row : LedgerEntryRecord}
    (ordered : TimeOrdered before) (rows : after.rows = before.rows ++ [row])
    (position : row.position = (before.chain row.entryType).length + 1)
    (contiguous : Contiguous before row.entryType)
    (follows : ∀ tip, (before.chain row.entryType).getLast? = some tip →
      tip.writtenTs.nanos ≤ row.writtenTs.nanos) : TimeOrdered after := by
  -- Any row of the chain is the tip or lies below it.
  have older : ∀ other ∈ before.rows, other.entryType = row.entryType →
      other.writtenTs.nanos ≤ row.writtenTs.nanos := by
    intro other member typed
    have inChain : other ∈ before.chain row.entryType := LedgerEntries.mem_chain.mpr ⟨member, typed⟩
    cases last : (before.chain row.entryType).getLast? with
    | none =>
      rw [List.getLast?_eq_none_iff.mp last] at inChain
      cases inChain
    | some tip =>
      obtain ⟨tipMember, tipTyped⟩ := LedgerEntries.mem_chain.mp (List.mem_of_getLast? last)
      have bound := (contiguous.position_le inChain).2
      have top := contiguous.position_tip last
      rcases Int.lt_or_eq_of_le (top ▸ bound) with below | level
      · have reached := ordered other member tip tipMember (typed.trans tipTyped.symm) below
        exact reached.trans (follows tip last)
      · have same := LedgerEntries.eq_of_position member tipMember (typed.trans tipTyped.symm)
          (Int64.toInt_inj.mp level)
        exact same ▸ follows tip last
  intro first firstMember second secondMember typed below
  rw [rows] at firstMember secondMember
  rcases List.mem_append.mp firstMember with firstOld | firstNew
  · rcases List.mem_append.mp secondMember with secondOld | secondNew
    · exact ordered first firstOld second secondOld typed below
    · obtain rfl := List.mem_singleton.mp secondNew
      exact older first firstOld typed
  · obtain rfl := List.mem_singleton.mp firstNew
    rcases List.mem_append.mp secondMember with secondOld | secondNew
    · have inChain : second ∈ before.chain first.entryType :=
        LedgerEntries.mem_chain.mpr ⟨secondOld, typed.symm⟩
      have bound := (contiguous.position_le inChain).2
      omega
    · obtain rfl := List.mem_singleton.mp secondNew
      exact absurd below (lt_irrefl _)

section

variable [Sha256]

/-- A hash names one row, and none has that of the genesis: SHA-256 does not collide on the strings
hashed, of which the genesis is no envelope. -/
structure Apart (deployment : Deployment) (table : LedgerEntries) : Prop where
  collisionFree : Set.InjOn Sha256.digest
    (insert (asBytes deployment.genesisHashInput) table.hashedStrings)
  genesisFree : asBytes deployment.genesisHashInput ∉ table.hashedStrings

variable {deployment : Deployment} {table : LedgerEntries}

theorem Apart.of_rows {before after : LedgerEntries} (apart : Apart deployment after)
    (rows : before.rows <+: after.rows) : Apart deployment before := by
  have fewer : before.hashedStrings ⊆ after.hashedStrings := by
    rintro bytes ⟨row, member, hashed⟩
    exact ⟨row, rows.subset member, hashed⟩
  exact ⟨apart.collisionFree.mono (Set.insert_subset_insert fewer),
    fun member => apart.genesisFree (fewer member)⟩

theorem Apart.eq_of_entryHash {genesis : String} (apart : Apart deployment table)
    (valid : ChainsValid genesis table) {row other : LedgerEntryRecord} (member : row ∈ table.rows)
    (another : other ∈ table.rows) (shared : row.entryHash = other.entryHash) : row = other :=
  valid.eq_of_entryHash apart.collisionFree (Set.subset_insert _ _) member another shared

theorem Apart.ne_genesisHash {genesis : String} (apart : Apart deployment table)
    (valid : ChainsValid genesis table) {row : LedgerEntryRecord} (member : row ∈ table.rows) :
    row.entryHash ≠ deployment.genesisHash := by
  intro same
  obtain ⟨bytes, hashed, digest⟩ := (valid.hashValid member).exists_bytes
  have digests := sha256Hex_inj.mp (digest.symm.trans same)
  have stored : bytes ∈ table.hashedStrings := ⟨row, member, hashed⟩
  have genesis := apart.collisionFree (.inr stored) (.inl rfl) digests
  exact apart.genesisFree (genesis ▸ stored)

/-- A request whose time was read once the row it follows was there, if it follows one. -/
def Timely (genesis : String) (history : List Event) (tables : Tables) :
    RepositoryRequest → Prop
  | .writeEntryWithOutbox input =>
      input.writtenTs ∈ readings history ∧
        (Steady history → input.previousHash = genesis ∨
          ∃ row ∈ tables.entries.rows, row.entryHash = input.previousHash ∧
            row.writtenTs.nanos ≤ input.writtenTs.truncateMicros.nanos)
  | _ => True

omit [Sha256] in
theorem Timely.later {genesis : String} {before after : List Event} {tables grown : Tables}
    {request : RepositoryRequest} (timely : Timely genesis before tables request)
    (extended : before <+: after) (rows : tables.entries.rows <+: grown.entries.rows) :
    Timely genesis after grown request := by
  cases request with
  | writeEntryWithOutbox input =>
    obtain ⟨read, follows⟩ := timely
    refine ⟨readings_subset extended read, fun steady => ?_⟩
    rcases follows (steady.of_prefix extended) with first | ⟨row, member, rest⟩
    · exact .inl first
    · exact .inr ⟨row, rows.subset member, rest⟩
  | _ => trivial

/-- What is kept of the database and the clocks. -/
structure Chronicle (deployment : Deployment) (history : List Event) (db : Database) : Prop
    extends Appending deployment.genesisHash True db where
  dated : ∀ row ∈ db.tables.entries.rows, ∃ reading ∈ readings history,
    row.writtenTs = reading.truncateMicros
  pending : ∀ late ∈ db.inflight, Timely deployment.genesisHash history db.tables late.request
  ordered : Apart deployment db.tables.entries → Steady history → TimeOrdered db.tables.entries

namespace Chronicle

variable {history : List Event} {db : Database}

theorem later (chronicle : Chronicle deployment history db) {after : List Event}
    (extended : history <+: after) : Chronicle deployment after db where
  toAppending := chronicle.toAppending
  dated := by
    intro row member
    obtain ⟨reading, read, same⟩ := chronicle.dated row member
    exact ⟨reading, readings_subset extended read, same⟩
  pending := fun late member => (chronicle.pending late member).later extended List.prefix_rfl
  ordered := fun apart steady => chronicle.ordered apart (steady.of_prefix extended)

/-- An accepted append in time follows a row that is no younger. -/
theorem follows (chronicle : Chronicle deployment history db) {input : EntryWriteInput}
    {nextPosition : Int64} (apart : Apart deployment db.tables.entries) (steady : Steady history)
    (timely : Timely deployment.genesisHash history db.tables (.writeEntryWithOutbox input))
    (extension : db.tables.Extends input nextPosition) {tip : LedgerEntryRecord}
    (last : (db.tables.entries.chain input.entryType).getLast? = some tip) :
    tip.writtenTs.nanos ≤ input.writtenTs.truncateMicros.nanos := by
  have valid := chronicle.chains trivial
  have tipMember := (LedgerEntries.mem_chain.mp (List.mem_of_getLast? last)).1
  rw [Tables.Extends, last] at extension
  rcases timely.2 steady with first | ⟨row, member, named, older⟩
  · exact absurd (extension.1.symm.trans first) (apart.ne_genesisHash valid tipMember)
  · have same := apart.eq_of_entryHash valid member tipMember (named.trans extension.1)
    exact same ▸ older

theorem executed (chronicle : Chronicle deployment history db) (draw : Draw) (client : Nat)
    {request : RepositoryRequest} (ready : Ready deployment.genesisHash db.tables request)
    (timely : Timely deployment.genesisHash history db.tables request) :
    Chronicle deployment history (db.executed draw client request) ∧
      Grows db (db.executed draw client request) := by
  obtain ⟨appending, grows⟩ := chronicle.toAppending.executed draw client ready
  refine ⟨{ toAppending := appending, dated := ?_, pending := ?_, ordered := ?_ }, grows⟩
  · intro row member
    obtain same | ⟨input, result, after, nextPosition, rfl, ran, committed⟩ :=
      Tables.execute_entries draw request db.tables
    · exact chronicle.dated row (same ▸ member)
    · have rows : (db.executed draw client (.writeEntryWithOutbox input)).tables.entries.rows =
          db.tables.entries.rows ++ [result.entry.stored] :=
        (congrArg (fun tables => tables.entries.rows) ran).trans committed.rows
      rw [rows, committed.entry] at member
      rcases List.mem_append.mp member with old | new
      · exact chronicle.dated row old
      · obtain rfl := List.mem_singleton.mp new
        exact ⟨input.writtenTs, timely.1, rfl⟩
  · exact fun late member => (chronicle.pending late member).later List.prefix_rfl grows
  · intro apart steady
    have apartBefore := apart.of_rows grows
    have ordered := chronicle.ordered apartBefore steady
    obtain same | ⟨input, result, after, nextPosition, rfl, ran, committed⟩ :=
      Tables.execute_entries draw request db.tables
    · exact same ▸ ordered
    · have rows : (db.executed draw client (.writeEntryWithOutbox input)).tables.entries.rows =
          db.tables.entries.rows ++ [result.entry.stored] :=
        (congrArg (fun tables => tables.entries.rows) ran).trans committed.rows
      rw [committed.entry] at rows
      have contiguous := (chronicle.chains trivial input.entryType).contiguous_table
      exact ordered.append rows (committed.extends_tip.position contiguous) contiguous
        fun tip last => chronicle.follows apartBefore steady timely committed.extends_tip last

theorem unanswered (chronicle : Chronicle deployment history db) (client : Nat)
    {request : RepositoryRequest} (ready : Ready deployment.genesisHash db.tables request)
    (timely : Timely deployment.genesisHash history db.tables request) :
    Chronicle deployment history (db.unanswered client request) where
  toAppending := chronicle.toAppending.unanswered client ready
  dated := chronicle.dated
  pending := by
    intro late member
    rcases List.mem_append.mp member with earlier | last
    · exact chronicle.pending late earlier
    · obtain rfl := List.mem_singleton.mp last
      exact timely
  ordered := chronicle.ordered

theorem moves {after : Database} (chronicle : Chronicle deployment history db)
    (moved : db.Moves after) : Chronicle deployment history after ∧ Grows db after := by
  cases moved with
  | landed earlier others late draw pending =>
    have listed : late ∈ db.inflight := by simp [pending]
    obtain ⟨kept, grows⟩ := chronicle.executed draw late.client
      (chronicle.inflight late listed) (chronicle.pending late listed)
    have fewer : ∀ other ∈ earlier ++ others, other ∈ db.inflight := by
      intro other member
      rw [pending]
      exact (List.sublist_cons_self _ _).append_left _ |>.subset member
    exact ⟨
      { inflight := fun other member => kept.inflight other (fewer other member)
        chains := kept.chains
        dated := kept.dated
        pending := fun other member => kept.pending other (fewer other member)
        ordered := kept.ordered }, grows⟩
  | lost earlier others late pending =>
    have fewer : ∀ other ∈ earlier ++ others, other ∈ db.inflight := by
      intro other member
      rw [pending]
      exact (List.sublist_cons_self _ _).append_left _ |>.subset member
    exact ⟨
      { inflight := fun other member => chronicle.inflight other (fewer other member)
        chains := chronicle.chains
        dated := chronicle.dated
        pending := fun other member => chronicle.pending other (fewer other member)
        ordered := chronicle.ordered }, List.prefix_refl _⟩
  | rearranged outbox perm =>
    exact ⟨
      { inflight := chronicle.inflight
        chains := chronicle.chains
        dated := chronicle.dated
        pending := chronicle.pending
        ordered := chronicle.ordered }, List.prefix_refl _⟩

end Chronicle

/-! Calls. -/

/-- A request that may be sent: an append that is ready for its chain and in time. -/
def Punctual (deployment : Deployment) (state : ServiceState Database) : ServiceRequest → Prop
  | .repository message => Ready deployment.genesisHash state.store.tables message ∧
      Timely deployment.genesisHash state.history state.store.tables message
  | _ => True

variable {state : ServiceState Database} {i : Nat} {task : ServiceTask} {α : Type}
  {post : α → ServiceState Database → Prop}

theorem Chronicle.answers {thread client : Nat} {request : ServiceRequest} {reply : request.Reply}
    {reached : ServiceState Database} (holds : Chronicle deployment state.history state.store)
    (punctual : Punctual deployment state request)
    (answered : postgres.answers thread client request state reply reached) :
    Chronicle deployment state.history reached.store ∧ Grows state.store reached.store := by
  by_cases isLocal : request.isLocal = true
  · have same : reached.store = state.store := (postgres.answers_frame answered).2.2 isLocal
    rw [same]
    exact ⟨holds, List.prefix_refl _⟩
  · cases request with
    | repository message =>
      obtain ⟨store, performed, rfl⟩ := answered
      obtain ⟨ready, timely⟩ := punctual
      cases performed with
      | executed draw => exact holds.executed draw client ready timely
      | refused => exact ⟨holds, List.prefix_refl _⟩
      | unanswered => exact ⟨holds.unanswered client ready timely, List.prefix_refl _⟩
    | _ => exact absurd rfl isLocal

/-- The tip as a writer reads it: there is none, or it is a row whose time a clock has shown. -/
def SeenTip (deployment : Deployment) (entryType : String) (previousHash : String)
    (state : ServiceState Database) : Prop :=
  previousHash = deployment.genesisHash ∨
    ∃ row ∈ state.store.tables.entries.rows, row.entryType = entryType ∧
      row.entryHash = previousHash ∧
      ∃ reading ∈ readings state.history, row.writtenTs = reading.truncateMicros

theorem SeenTip.later {entryType previousHash : String} {before after : ServiceState Database}
    (seen : SeenTip deployment entryType previousHash before) (grows : Grows before.store after.store)
    (extended : before.history <+: after.history) :
    SeenTip deployment entryType previousHash after := by
  rcases seen with first | ⟨row, member, typed, named, reading, read, same⟩
  · exact .inl first
  · exact .inr ⟨row, grows.subset member, typed, named, reading, readings_subset extended read, same⟩

variable {service : Instance} {input : WriteEntryInput}

/-- A clock that is read after the tip makes an append ready and timely from then on. -/
theorem SeenTip.punctual {previousHash : String} {writtenTs : DateTime} {event : Event}
    (seen : SeenTip deployment input.entryType previousHash state)
    (shown : event.reading = some writtenTs) {later : ServiceState Database}
    (grows : Grows state.store later.store) (extended : state.history ++ [event] <+: later.history)
    (createOutbox : Bool) :
    Punctual deployment later (.repository (.writeEntryWithOutbox
      (input.entryWriteInput previousHash writtenTs createOutbox))) := by
  have ready : Ready deployment.genesisHash state.store.tables (.writeEntryWithOutbox
      (input.entryWriteInput previousHash writtenTs createOutbox)) := by
    rcases seen with first | ⟨row, member, typed, -⟩
    · exact .inl first
    · refine .inr fun empty => ?_
      exact List.eq_nil_iff_forall_not_mem.mp empty row (LedgerEntries.mem_ofType.mpr ⟨member, typed⟩)
  have shownLast : readings (state.history ++ [event]) = readings state.history ++ [writtenTs] := by
    rw [readings_append]
    exact congrArg _ (List.filterMap_cons_some shown)
  have timely : Timely deployment.genesisHash (state.history ++ [event]) state.store.tables
      (.writeEntryWithOutbox (input.entryWriteInput previousHash writtenTs createOutbox)) := by
    constructor
    · rw [shownLast]
      exact List.mem_append_right _ List.mem_cons_self
    · intro steady
      rcases seen with first | ⟨row, member, -, named, reading, read, same⟩
      · exact .inl first
      · refine .inr ⟨row, member, named, ?_⟩
        rw [Steady, shownLast] at steady
        rw [same]
        apply DateTime.truncateMicros_mono
        exact (List.pairwise_append.mp steady).2.2 reading read writtenTs List.mem_cons_self
  exact ⟨ready.of_rows grows, timely.later extended grows⟩

omit [Sha256] in
/-- The order of a page is the order of each chain. -/
theorem TimeOrdered.listing {table : LedgerEntries} (ordered : TimeOrdered table)
    {toTimestamp : Int64 → Int} {query : EntryQuery} {rows : List LedgerEntryRecord}
    (listing : table.Listing toTimestamp query rows) (entryType : String) :
    (rows.filter fun row => decide (row.entryType = entryType)).Pairwise
      fun first second => first.position < second.position := by
  have member : ∀ row ∈ rows, row ∈ table.rows := by
    intro row listed
    exact (List.mem_filter.mp (listing.perm.mem_iff.mp listed)).1
  have distinct : rows.Nodup := listing.perm.nodup_iff.mpr (table.nodup_rows.filter _)
  have apart : (rows.filter fun row => decide (row.entryType = entryType)).Pairwise
      fun first second => first.timePosition ≤ second.timePosition ∧ first ≠ second :=
    (listing.sorted.and distinct).filter _
  refine apart.imp_of_mem ?_
  rintro first second firstListed secondListed ⟨le, different⟩
  obtain ⟨firstIn, firstTyped⟩ := List.mem_filter.mp firstListed
  obtain ⟨secondIn, secondTyped⟩ := List.mem_filter.mp secondListed
  have typed : first.entryType = second.entryType :=
    (of_decide_eq_true firstTyped).trans (of_decide_eq_true secondTyped).symm
  rcases lt_trichotomy first.position second.position with below | level | above
  · exact below
  · exact absurd (LedgerEntries.eq_of_position (member first firstIn) (member second secondIn) typed
      (Int64.toInt_inj.mp level)) different
  · -- The later position has no earlier time, so the times are equal and the positions decide.
    have older := ordered second (member second secondIn) first (member first firstIn) typed.symm above
    rcases Prod.Lex.toLex_le_toLex.mp le with earlier | ⟨-, position⟩
    · exact absurd earlier (not_lt_of_ge older)
    · exact absurd above (not_lt_of_ge position)

end

/-! A ledger with one entry. -/

namespace Sample

end Sample

end ImmutableLedger
