import ImmutableLedger.Concurrency.Observation
import ImmutableLedger.Grpc.Queries
import ImmutableLedger.Ledger.Interleavings
import ImmutableLedger.Query.Paging

/-! Reading all pages of a query while entries are appended.

Rows of a selection keep their order, and what is committed in between can only push a row to a
later place. So a page never starts behind a row that was not received. But a page is taken for
the last one by a count that was made before it was read.
-/

set_option autoImplicit false

namespace ImmutableLedger

open Concurrency Query Relation

variable (toTimestamp : Int64 → Int)

/-- Appends are committed. -/
def Commits (before after : LedgerEntries) : Prop := before.rows <+: after.rows

/-- A call whose statements are answered from the tables as they are at that moment, or fail. -/
abbrev Queried {α : Type} (call : ExceptT Grpc.Status (Program statements) α)
    (before : LedgerEntries) (trace : List (Exchange statements LedgerEntries)) (value : α)
    (after : LedgerEntries) : Prop :=
  Traces Commits
    (fun (statement : QueryStatement) table (reply : statement.Reply) =>
      table.Answers toTimestamp statement reply ∨ reply = .error .unavailable)
    call.run before trace (.ok value) after

/-- No two rows have both their time and their position in common. -/
def DistinctTimes (table : LedgerEntries) : Prop :=
  (table.rows.map LedgerEntryRecord.timePosition).Nodup

/-- The number of selected rows that come before a row. -/
def LedgerEntries.ahead (table : LedgerEntries) (query : EntryQuery) (row : LedgerEntryRecord) : Nat :=
  rank LedgerEntryRecord.timePosition row (table.selected toTimestamp query)

/-- The rows of a page that was answered. -/
def pageRows : Exchange statements LedgerEntries → List LedgerEntryRecord
  | ⟨.page _, _, .ok rows⟩ => rows
  | _ => []

def received (trace : List (Exchange statements LedgerEntries)) : List LedgerEntryRecord :=
  trace.flatMap pageRows

/-- A row that matched at first and has not been received is pushed off the end of a page, after
so few rows had been counted that the page is the last one. -/
def CrowdsOut (start : LedgerEntries) (got : List LedgerEntryRecord)
    (trace : List (Exchange statements LedgerEntries)) : Prop :=
  ∃ earlier query counted total listed page later,
    trace = earlier ++ ⟨.count query, counted, total⟩ :: ⟨.page query, listed, page⟩ :: later ∧
      (counted.selected toTimestamp query).length ≤ query.offset + query.limit ∧
        ∃ row ∈ start.selected toTimestamp query, row ∉ got ++ received earlier ∧
          query.offset + query.limit ≤ listed.ahead toTimestamp query row

variable {toTimestamp}

theorem Commits.rows {before after : LedgerEntries} (moves : ReflTransGen Commits before after) :
    before.rows <+: after.rows := by
  induction moves with
  | refl => exact List.prefix_refl _
  | tail _ step ih => exact ih.trans step

/-- A run of the service over Postgres commits appends, whatever else it does. -/
theorem commits_of_run [Sha256] {deployment : Deployment}
    {before after : ServiceConfiguration postgres}
    (run : ServiceRun postgres deployment before after) :
    Commits (entriesOf before) (entriesOf after) := by
  let growing : StoreProtocol postgres :=
    { invariant := fun _ => True
      rely := Grows
      rely_refl := fun _ => List.prefix_refl _
      rely_trans := List.IsPrefix.trans
      environment := fun {before after} _ moved => by
        refine ⟨trivial, ?_⟩
        cases moved with
        | landed earlier others late draw pending => exact before.tables.execute_rows draw late.request
        | lost earlier others late pending => exact List.prefix_refl _
        | rearranged outbox perm => exact List.prefix_refl _ }
  have allows : ∀ client request store, growing.invariant store →
      growing.Allows client request store := by
    intro client request store _
    constructor
    · rintro reply after (draw | _ | _)
      · exact ⟨trivial, store.tables.execute_rows draw request⟩
      · exact ⟨trivial, List.prefix_refl _⟩
      · exact ⟨trivial, List.prefix_refl _⟩
    · rintro after rfl
      exact ⟨trivial, List.prefix_refl _⟩
  have start : growing.invariant before.state.store := trivial
  exact (StoreProtocol.run_of_allows allows start run).2

/-- A call beside a run of the service is answered from tables to which the run commits. -/
theorem queried_of_run [Sha256] {α : Type} {deployment : Deployment}
    {call : ExceptT Grpc.Status (Program statements) α} {before after : ServiceConfiguration postgres}
    {trace : List (Exchange statements (ServiceConfiguration postgres))} {value : α}
    (traces : Traces (Step (serviceWorld postgres) (ServiceTask.body deployment))
      (fun (statement : QueryStatement) config (reply : statement.Reply) =>
        (entriesOf config).Answers toTimestamp statement reply ∨ reply = .error .unavailable)
      call.run before trace (.ok value) after) :
    Queried toTimestamp call (entriesOf before) (trace.map (Exchange.map entriesOf)) value
      (entriesOf after) :=
  traces.map (f := entriesOf) (fun step => commits_of_run (.single step)) fun answered => answered

section

variable {before after : LedgerEntries} {query : EntryQuery} {row : LedgerEntryRecord}

theorem LedgerEntries.selected_sublist (rows : before.rows <+: after.rows) :
    (before.selected toTimestamp query).Sublist (after.selected toTimestamp query) :=
  rows.sublist.filter _

theorem LedgerEntries.ahead_mono (rows : before.rows <+: after.rows) :
    before.ahead toTimestamp query row ≤ after.ahead toTimestamp query row :=
  rank_le_of_sublist (selected_sublist rows)

theorem DistinctTimes.of_rows (distinct : DistinctTimes after)
    (rows : before.rows <+: after.rows) : DistinctTimes before :=
  distinct.sublist (rows.sublist.map _)

/-- With distinct times there is one listing, and a page of it is a window of ranks. -/
theorem LedgerEntries.Listing.mem_pageOf_iff {table : LedgerEntries} {rows : List LedgerEntryRecord}
    (listing : table.Listing toTimestamp query rows) (distinct : DistinctTimes table) :
    row ∈ LedgerEntries.pageOf query rows ↔ row ∈ table.selected toTimestamp query ∧
      query.offset ≤ table.ahead toTimestamp query row ∧
        table.ahead toTimestamp query row < query.offset + query.limit := by
  have unique : (rows.map LedgerEntryRecord.timePosition).Nodup :=
    (listing.perm.map _).nodup_iff.mpr (nodup_map_filter distinct _)
  have ascends : Ascending LedgerEntryRecord.timePosition rows := by
    rw [List.Nodup, List.pairwise_map] at unique
    exact listing.sorted.imp₂ (fun _ _ le ne => lt_of_le_of_ne le ne) unique
  rw [pageOf, ascends.mem_page_iff, listing.perm.mem_iff, rank_perm listing.perm]
  rfl

theorem LedgerEntries.Listing.length_pageOf {table : LedgerEntries} {rows : List LedgerEntryRecord}
    (listing : table.Listing toTimestamp query rows) :
    (LedgerEntries.pageOf query rows).length =
      min query.limit ((table.selected toTimestamp query).length - query.offset) := by
  rw [pageOf, List.length_take, List.length_drop, listing.perm.length_eq]

end

/-! What crowds out, request by request. -/

section

variable {start : LedgerEntries} {got rows : List LedgerEntryRecord}

theorem not_crowdsOut_nil : ¬CrowdsOut toTimestamp start got [] := by
  rintro ⟨earlier, query, counted, total, listed, page, later, split, -⟩
  simp at split

/-- A request adds the rows of its page. -/
theorem append_received {query : EntryQuery} {counted listed : LedgerEntries}
    {total : QueryStatement.Reply (.count query)} (trace : List (Exchange statements LedgerEntries)) :
    got ++ received (⟨.count query, counted, total⟩ :: ⟨.page query, listed, .ok rows⟩ :: trace) =
      got ++ rows ++ received trace := by
  have none : pageRows ⟨.count query, counted, total⟩ = [] := rfl
  have page : pageRows ⟨.page query, listed, .ok rows⟩ = rows := rfl
  rw [received, List.flatMap_cons, List.flatMap_cons, none, page, List.nil_append,
    List.append_assoc]
  rfl

theorem crowdsOut_cons {query : EntryQuery} {counted listed : LedgerEntries}
    {total : QueryStatement.Reply (.count query)}
    {rest : List (Exchange statements LedgerEntries)} :
    CrowdsOut toTimestamp start got
        (⟨.count query, counted, total⟩ :: ⟨.page query, listed, .ok rows⟩ :: rest) ↔
      ((counted.selected toTimestamp query).length ≤ query.offset + query.limit ∧
        ∃ row ∈ start.selected toTimestamp query, row ∉ got ∧
          query.offset + query.limit ≤ listed.ahead toTimestamp query row) ∨
        CrowdsOut toTimestamp start (got ++ rows) rest := by
  constructor
  · rintro ⟨earlier, other, countedOther, totalOther, listedOther, page, later, split, few, pushed⟩
    rcases earlier with _ | ⟨first, _ | ⟨second, earlier⟩⟩
    · cases split
      obtain ⟨row, selected, unseen, far⟩ := pushed
      rw [received, List.flatMap_nil, List.append_nil] at unseen
      exact .inl ⟨few, row, selected, unseen, far⟩
    · -- A count cannot stand where the page does.
      simp at split
    · cases split
      rw [append_received] at pushed
      exact .inr ⟨earlier, other, countedOther, totalOther, listedOther, page, later, rfl, few, pushed⟩
  · rintro (⟨few, row, selected, unseen, far⟩ |
      ⟨earlier, other, countedOther, totalOther, listedOther, page, later, rfl, few, pushed⟩)
    · refine ⟨[], query, counted, total, listed, .ok rows, rest, rfl, few, row, selected, ?_, far⟩
      rwa [received, List.flatMap_nil, List.append_nil]
    · refine ⟨⟨.count query, counted, total⟩ :: ⟨.page query, listed, .ok rows⟩ :: earlier, other,
        countedOther, totalOther, listedOther, page, later, rfl, few, ?_⟩
      rw [append_received]
      exact pushed

end

/-! A request, and a client that goes on as long as it is given a token. -/

open Grpc

theorem LedgerEntries.selected_length_le (toTimestamp : Int64 → Int) (table : LedgerEntries)
    (query : EntryQuery) : (table.selected toTimestamp query).length ≤ rowLimit :=
  (List.length_filter_le _ _).trans table.bounded

/-- A count is read back as it was. -/
theorem toNat_count (table : LedgerEntries) (query : EntryQuery) :
    (Int64.ofNat (table.selected toTimestamp query).length).toUInt64.toNat =
      (table.selected toTimestamp query).length := by
  have small := table.selected_length_le toTimestamp query
  have limit : rowLimit = 2 ^ 43 := rfl
  rw [Int64.toUInt64_ofNat', UInt64.toNat_ofNat', Nat.mod_eq_of_lt (by omega)]

/-- What a request that is answered has counted and listed. -/
structure Served (toTimestamp : Int64 → Int) (query : EntryQuery) (before : LedgerEntries)
    (trace : List (Exchange statements LedgerEntries)) (response : QueryEntriesResponse)
    (after counted listed : LedgerEntries) (rows : List LedgerEntryRecord) : Prop where
  grown : before.rows <+: listed.rows
  onward : listed.rows <+: after.rows
  trace : ∃ total, trace = [⟨.count query, counted, total⟩,
    ⟨.page query, listed, .ok (LedgerEntries.pageOf query rows)⟩]
  listing : listed.Listing toTimestamp query rows
  entries : response.entries = (LedgerEntries.pageOf query rows).map ledgerEntry
  nextPageToken : response.nextPageToken =
    if query.offset + (LedgerEntries.pageOf query rows).length <
      (counted.selected toTimestamp query).length
    then toString (query.offset + (LedgerEntries.pageOf query rows).length) else ""

theorem served_of_queried {request : QueryEntriesRequest} {response : QueryEntriesResponse}
    {before after : LedgerEntries} {trace : List (Exchange statements LedgerEntries)}
    (queried : Queried toTimestamp (Grpc.queryEntries request) before trace response after) :
    ∃ counted listed rows, Served toTimestamp (queryEntriesInput request).entryQuery before trace
      response after counted listed rows := by
  rw [Queried, run_queryEntries] at queried
  obtain ⟨counted, total, further, rfl, reached, answered, continued⟩ := queried.of_call
  cases total with
  | error err => cases (Traces.of_done continued).1
  | ok total =>
    obtain ⟨listed, page, rest, rfl, onward, listing, continued⟩ := continued.of_call
    cases page with
    | error err => cases (Traces.of_done continued).1
    | ok page =>
      obtain ⟨same, rfl, moved⟩ := continued.of_done
      obtain rfl := Except.ok.inj same
      have counts := answered.resolve_right nofun
      rw [LedgerEntries.Answers] at counts
      split_ifs at counts
      obtain rfl := Except.ok.inj counts
      have allowed := listing.resolve_right nofun
      rw [LedgerEntries.Answers] at allowed
      split_ifs at allowed
      · obtain ⟨rows, arranged, shown⟩ := allowed
        obtain rfl := Except.ok.inj shown
        refine ⟨counted, listed, rows, (Commits.rows reached).trans (Commits.rows onward),
          Commits.rows moved, ⟨_, rfl⟩, arranged, rfl, ?_⟩
        rw [queryEntriesResponse, toNat_count]
        exact apply_ite (fun token : Option String => token.getD "") _ _ _

/-- What has been received holds every row that matched at first and has fewer than `offset` rows
ahead of it. -/
def HasRead (toTimestamp : Int64 → Int) (start : LedgerEntries) (query : EntryQuery)
    (got : List LedgerEntryRecord) (table : LedgerEntries) (offset : Nat) : Prop :=
  ∀ row ∈ start.selected toTimestamp query, table.ahead toTimestamp query row < offset → row ∈ got

section

variable {start before after counted listed : LedgerEntries} {query : EntryQuery}
  {got rows : List LedgerEntryRecord} {trace : List (Exchange statements LedgerEntries)}
  {response : QueryEntriesResponse}

/-- A page takes up where the pages before it have got to. -/
theorem HasRead.page (hasRead : HasRead toTimestamp start query got before query.offset)
    (served : Served toTimestamp query before trace response after counted listed rows)
    (old : start.rows <+: before.rows) (distinct : DistinctTimes listed)
    {row : LedgerEntryRecord} (selected : row ∈ start.selected toTimestamp query)
    (within : listed.ahead toTimestamp query row < query.offset + query.limit) :
    row ∈ got ++ LedgerEntries.pageOf query rows := by
  by_cases early : before.ahead toTimestamp query row < query.offset
  · exact List.mem_append_left _ (hasRead row selected early)
  · refine List.mem_append_right _ ((served.listing.mem_pageOf_iff distinct).mpr ⟨?_, ?_, within⟩)
    · exact (LedgerEntries.selected_sublist (old.trans served.grown)).subset selected
    · exact (not_lt.mp early).trans (LedgerEntries.ahead_mono served.grown)

/-- Rows beyond the end of a page leave it full. -/
theorem Served.full
    (served : Served toTimestamp query before trace response after counted listed rows)
    {row : LedgerEntryRecord} (selected : row ∈ listed.selected toTimestamp query)
    (beyond : query.offset + query.limit ≤ listed.ahead toTimestamp query row) :
    (LedgerEntries.pageOf query rows).length = query.limit := by
  have more : listed.ahead toTimestamp query row < (listed.selected toTimestamp query).length :=
    rank_lt_length selected
  rw [served.listing.length_pageOf]
  omega

/-- The last page leaves out what was pushed off its end, and nothing else. -/
theorem Served.last_iff
    (served : Served toTimestamp query before trace response after counted listed rows)
    (hasRead : HasRead toTimestamp start query got before query.offset)
    (old : start.rows <+: before.rows) (distinct : DistinctTimes listed)
    (ended : (counted.selected toTimestamp query).length ≤
      query.offset + (LedgerEntries.pageOf query rows).length) :
    (∀ row ∈ start.selected toTimestamp query, row ∈ got ++ LedgerEntries.pageOf query rows) ↔
      ¬((counted.selected toTimestamp query).length ≤ query.offset + query.limit ∧
        ∃ row ∈ start.selected toTimestamp query, row ∉ got ∧
          query.offset + query.limit ≤ listed.ahead toTimestamp query row) := by
  constructor
  · rintro complete ⟨-, row, selected, unseen, beyond⟩
    have member := (List.mem_append.mp (complete row selected)).resolve_left unseen
    have window := ((served.listing.mem_pageOf_iff distinct).mp member).2.2
    omega
  · intro kept row selected
    by_cases within : listed.ahead toTimestamp query row < query.offset + query.limit
    · exact hasRead.page served old distinct selected within
    · by_cases seen : row ∈ got
      · exact List.mem_append_left _ seen
      · -- The page is full, so no more rows were counted than it can show.
        have inListed := (LedgerEntries.selected_sublist (old.trans served.grown)).subset selected
        have full := served.full inListed (not_lt.mp within)
        exact absurd ⟨by omega, row, selected, seen, not_lt.mp within⟩ kept

/-- A page that is not the last one leaves nothing behind it. -/
theorem Served.onward_hasRead
    (served : Served toTimestamp query before trace response after counted listed rows)
    (hasRead : HasRead toTimestamp start query got before query.offset)
    (old : start.rows <+: before.rows) (distinct : DistinctTimes listed) :
    HasRead toTimestamp start query (got ++ LedgerEntries.pageOf query rows) after
      (query.offset + (LedgerEntries.pageOf query rows).length) := by
  intro row selected ahead
  have size := served.listing.length_pageOf
  have earlier : listed.ahead toTimestamp query row ≤ after.ahead toTimestamp query row :=
    LedgerEntries.ahead_mono served.onward
  exact hasRead.page served old distinct selected (by omega)

theorem Served.onward_kept
    (served : Served toTimestamp query before trace response after counted listed rows)
    (old : start.rows <+: before.rows)
    (goesOn : query.offset + (LedgerEntries.pageOf query rows).length <
      (counted.selected toTimestamp query).length) :
    ¬((counted.selected toTimestamp query).length ≤ query.offset + query.limit ∧
      ∃ row ∈ start.selected toTimestamp query, row ∉ got ∧
        query.offset + query.limit ≤ listed.ahead toTimestamp query row) := by
  rintro ⟨few, row, selected, -, beyond⟩
  have inListed := (LedgerEntries.selected_sublist (old.trans served.grown)).subset selected
  have full := served.full inListed beyond
  omega

end

/-! The client. -/

/-- The filter of a request, read from an offset. -/
def EntryQuery.from (query : EntryQuery) (offset : Nat) : EntryQuery :=
  { query with offset := offset }

theorem entryQuery_token {request : QueryEntriesRequest} {query : EntryQuery} {offset : Nat}
    (filter : (queryEntriesInput request).entryQuery.from 0 = query) (small : offset < 2 ^ 64) :
    (queryEntriesInput { request with pageToken := toString offset }).entryQuery =
      query.from offset := by
  have token : (emptyToNone (toString offset)).bind parseUsize = some offset := by
    rw [emptyToNone, toString_offset_ne_empty]
    exact parseUsize_toString small
  rw [← filter]
  simp only [QueryEntriesInput.entryQuery, queryEntriesInput, QueryEntriesInput.offset, token,
    EntryQuery.from, Option.getD_some]

theorem follow_ended {request : QueryEntriesRequest} {bound : Nat} {entries result : List LedgerEntry}
    {response : QueryEntriesResponse} {before after : LedgerEntries}
    {trace : List (Exchange statements LedgerEntries)} (ended : response.nextPageToken = "")
    (queried : Queried toTimestamp (LedgerClient.follow request bound entries response) before trace
      result after) : result = entries ∧ trace = [] ∧ before.rows <+: after.rows := by
  unfold LedgerClient.follow at queried
  rw [ended] at queried
  obtain ⟨same, nothing, moved⟩ := Traces.of_done queried
  exact ⟨Except.ok.inj same, nothing, Commits.rows moved⟩

/-- The client follows a token to the offset it stands for, unless it is cut off. -/
theorem follow_token {request : QueryEntriesRequest} {bound : Nat} {entries result : List LedgerEntry}
    {response : QueryEntriesResponse} {before after : LedgerEntries}
    {trace : List (Exchange statements LedgerEntries)} {offset : Nat}
    (token : response.nextPageToken = toString offset)
    (queried : Queried toTimestamp (LedgerClient.follow request bound entries response) before trace
      result after) :
    ∃ remaining, bound = remaining + 1 ∧ Queried toTimestamp (do
      let next ← Grpc.queryEntries { request with pageToken := toString offset }
      LedgerClient.follow request remaining (entries ++ next.entries) next) before trace result after := by
  unfold LedgerClient.follow at queried
  rw [token, toString_offset_ne_empty] at queried
  cases bound with
  | zero => exact Traces.of_unfinished queried
  | succ bound => exact ⟨bound, rfl, queried⟩

/-- From a request at an offset on, the client receives every row that matched at first and is not
crowded out, provided it has the rows before that offset already. -/
theorem follow_iff {request next : QueryEntriesRequest} {query : EntryQuery}
    (filter : (queryEntriesInput request).entryQuery.from 0 = query) {offset : Nat}
    (asked : (queryEntriesInput next).entryQuery = query.from offset) {bound : Nat}
    {start before after : LedgerEntries} {got : List LedgerEntryRecord} {entries : List LedgerEntry}
    {trace : List (Exchange statements LedgerEntries)} {result : List LedgerEntry}
    (old : start.rows <+: before.rows) (distinct : DistinctTimes after)
    (hasRead : HasRead toTimestamp start query got before offset)
    (queried : Queried toTimestamp (do
      let response ← Grpc.queryEntries next
      LedgerClient.follow request bound (entries ++ response.entries) response) before trace result
        after) :
    ∃ more : List LedgerEntryRecord, result = entries ++ more.map ledgerEntry ∧
      (∀ row ∈ more, row ∈ after.rows) ∧
        ((∀ row ∈ start.selected toTimestamp query, row ∈ got ++ more) ↔
          ¬CrowdsOut toTimestamp start got trace) := by
  induction bound using Nat.strong_induction_on generalizing next offset before got entries trace with
  | _ bound ih =>
    obtain ⟨response, between, first, second, rfl, requested, followed⟩ := queried.of_exceptBind
    obtain ⟨counted, listed, rows, served⟩ := served_of_queried requested
    rw [asked] at served
    have moved := Commits.rows followed.reaches
    have distinctListed := distinct.of_rows (served.onward.trans moved)
    have shown : ∀ row ∈ LedgerEntries.pageOf (query.from offset) rows, row ∈ after.rows := by
      intro row member
      have selected := ((served.listing.mem_pageOf_iff distinctListed).mp member).1
      exact (served.onward.trans moved).subset (List.mem_of_mem_filter selected)
    obtain ⟨total, rfl⟩ := served.trace
    have token := served.nextPageToken
    split at token
    · next goesOn =>
      obtain ⟨remaining, rfl, continued⟩ := follow_token token followed
      have small : (query.from offset).offset +
          (LedgerEntries.pageOf (query.from offset) rows).length < 2 ^ 64 := by
        have counts := counted.selected_length_le toTimestamp (query.from offset)
        have limit : rowLimit = 2 ^ 43 := rfl
        exact lt_of_lt_of_le goesOn (by omega)
      obtain ⟨more, rfl, stored, complete⟩ := ih remaining (Nat.lt_succ_self _)
        (entryQuery_token filter small)
        (old.trans (served.grown.trans served.onward))
        (served.onward_hasRead hasRead old distinctListed) continued
      refine ⟨LedgerEntries.pageOf (query.from offset) rows ++ more, ?_, ?_, ?_⟩
      · rw [served.entries, List.map_append, List.append_assoc]
      · exact List.forall_mem_append.mpr ⟨shown, stored⟩
      · rw [List.cons_append, List.cons_append, List.nil_append, crowdsOut_cons,
          or_iff_right (served.onward_kept old goesOn), ← List.append_assoc]
        exact complete
    · next ended =>
      obtain ⟨rfl, rfl, -⟩ := follow_ended token followed
      refine ⟨LedgerEntries.pageOf (query.from offset) rows, ?_, shown, ?_⟩
      · rw [served.entries]
      · rw [List.append_nil, crowdsOut_cons, or_iff_left not_crowdsOut_nil]
        exact served.last_iff hasRead old distinctListed (not_lt.mp ended)

theorem ledgerEntry_inj {table : LedgerEntries} {row other : LedgerEntryRecord}
    (member : row ∈ table.rows) (another : other ∈ table.rows)
    (same : ledgerEntry row = ledgerEntry other) : row = other :=
  LedgerEntries.eq_of_entryId member another
    (Uuid.toText_injective (congrArg LedgerEntry.entryId same))

/-- A client that follows every token until there is none receives all that matched when it began,
exactly if no row of that is crowded out. -/
theorem ledgerClient_query_complete_iff (toTimestamp : Int64 → Int) (bound : Nat)
    (agentId entryType sourceId correlationId : String) (fromTs toTs : Int64) (pageSize : Int32)
    {before after : LedgerEntries} {trace : List (Exchange statements LedgerEntries)}
    {entries : List LedgerEntry} (distinct : DistinctTimes after)
    (queried : Queried toTimestamp
      (LedgerClient.query bound agentId entryType sourceId correlationId fromTs toTs pageSize) before
        trace entries after) :
    let request :=
      LedgerClient.request agentId entryType sourceId correlationId fromTs toTs pageSize
    (∀ row ∈ before.selected toTimestamp (queryEntriesInput request).entryQuery,
      ledgerEntry row ∈ entries) ↔ ¬CrowdsOut toTimestamp before [] trace := by
  intro request
  have nothing : HasRead toTimestamp before ((queryEntriesInput request).entryQuery.from 0) []
      before 0 := fun row _ few => absurd few (Nat.not_lt_zero _)
  have started : Queried toTimestamp (do
      let response ← Grpc.queryEntries request
      LedgerClient.follow request bound ([] ++ response.entries) response) before trace entries
        after := queried
  obtain ⟨more, rfl, stored, complete⟩ := follow_iff rfl rfl (List.prefix_refl _) distinct nothing
    started
  rw [← complete]
  refine forall₂_congr fun row selected => ?_
  have member : row ∈ after.rows :=
    (Commits.rows queried.reaches).subset (List.mem_of_mem_filter selected)
  rw [List.nil_append, List.nil_append, List.mem_map]
  constructor
  · rintro ⟨other, shown, same⟩
    exact ledgerEntry_inj (stored other shown) member same ▸ shown
  · exact fun shown => ⟨row, shown, rfl⟩

/-! A query of one page. -/

theorem queried_once {request : QueryEntriesRequest} {bound : Nat} {before after : LedgerEntries}
    {rows : List LedgerEntryRecord} (moved : Commits before after) {query : EntryQuery}
    (asked : (queryEntriesInput request).entryQuery = query) (sendable : query.sendable = true)
    (start : query.offset < 2 ^ 63)
    (listing : after.Listing toTimestamp query rows)
    (ended : (before.selected toTimestamp query).length ≤
      query.offset + (LedgerEntries.pageOf query rows).length) :
    Queried toTimestamp (do
        let response ← Grpc.queryEntries request
        LedgerClient.follow request bound response.entries response) before
      [⟨.count query, before, .ok (Int64.ofNat (before.selected toTimestamp query).length)⟩,
        ⟨.page query, after, .ok (LedgerEntries.pageOf query rows)⟩]
      ((LedgerEntries.pageOf query rows).map ledgerEntry) after := by
  subst asked
  rw [Queried, ExceptT.run_bind, run_queryEntries]
  refine .answered (.inl (if_pos sendable).symm) (.moved moved (.answered (.inl ?_) ?_))
  · rw [LedgerEntries.Answers, if_pos ⟨sendable, start⟩]
    exact ⟨rows, listing, rfl⟩
  · -- No token is sent, so the client is done.
    rw [← toNat_count, ← not_lt] at ended
    change ¬(queryEntriesInput request).offset + _ < _ at ended
    change Traces _ _ (ExceptT.run (LedgerClient.follow request bound _
      (queryEntriesResponse (queryEntriesInput request).offset _
        (LedgerEntries.pageOf (queryEntriesInput request).entryQuery rows)))) _ _ _ _
    unfold LedgerClient.follow
    rw [queryEntriesResponse, if_neg ended]
    exact .done _ _

namespace Sample

def millisToTimestamp (millis : Int64) : Int := millis.toInt * 10 ^ 6

/-- All entries, one at a time. -/
def oneByOne : EntryQuery :=
  (queryEntriesInput (LedgerClient.request "" "" "" "" 0 0 1)).entryQuery

variable [Sha256]

/-- An entry of another chain with an earlier time than `first`. -/
def early : LedgerEntryRecord :=
  { request config.genesisHash with
    entryType := "billing.event"
    writtenTs := ⟨1749999999000000000, by decide, by decide⟩ }.entry (ids 2) 1

omit [Sha256] in
theorem overtaken_entryIds : [(ids 1).entryId, (ids 2).entryId].Nodup := by decide

omit [Sha256] in
theorem overtaken_positions :
    [("audit.event", (1 : Int64)), ("billing.event", (1 : Int64))].Nodup := by decide

omit [Sha256] in
theorem overtaken_keys : [("audit.event", "first")].Nodup := List.nodup_singleton _

/-- `early` is committed after `first`. -/
def overtaken : LedgerEntries where
  rows := [first.stored, early.stored]
  uniqueEntryId := overtaken_entryIds
  uniqueTypePosition := overtaken_positions
  uniqueIdempotencyKey := overtaken_keys
  bounded := twoRows

theorem overtaken_distinct : DistinctTimes overtaken :=
  show [(toLex (1750000000000000000, 1) : Int ×ₗ Int), toLex (1749999999000000000, 1)].Nodup by
    decide

theorem overtaken_commits : Commits firstTables.entries overtaken := ⟨[early.stored], rfl⟩

theorem overtaken_listing :
    overtaken.Listing millisToTimestamp oneByOne [early.stored, first.stored] where
  perm := List.Perm.swap _ _ _
  sorted := List.pairwise_pair.mpr
    (show (toLex (1749999999000000000, 1) : Int ×ₗ Int) ≤ toLex (1750000000000000000, 1) by decide)

theorem first_listing :
    firstTables.entries.Listing millisToTimestamp oneByOne [first.stored] where
  perm := List.Perm.refl _
  sorted := List.pairwise_singleton _ _

end Sample

/-- One entry matches when the client counts, and another one takes its place on the page. -/
theorem ledgerClient_query_loses :
    letI := Fips180.sha256
    ¬ ∀ trace entries, DistinctTimes Sample.overtaken →
      Queried Sample.millisToTimestamp (LedgerClient.query 0 "" "" "" "" 0 0 1) Sample.firstTables.entries
        trace entries Sample.overtaken →
      ∀ row ∈ Sample.firstTables.entries.selected Sample.millisToTimestamp Sample.oneByOne,
        ledgerEntry row ∈ entries := by
  intro complete
  let := Fips180.sha256
  have lost := complete _ _ Sample.overtaken_distinct
    (queried_once Sample.overtaken_commits rfl rfl (by decide) Sample.overtaken_listing (Nat.le_refl 1))
    Sample.first.stored (List.mem_singleton_self _)
  obtain same := List.mem_singleton.mp lost
  exact absurd (congrArg LedgerEntry.entryType same) (by decide)

/-- A query of one entry that nothing overtakes. -/
theorem ledgerClient_query_complete_first :
    letI := Fips180.sha256
    ∃ trace entries, Queried Sample.millisToTimestamp (LedgerClient.query 0 "" "" "" "" 0 0 1)
        Sample.firstTables.entries trace entries Sample.firstTables.entries ∧
      ledgerEntry Sample.first.stored ∈ entries ∧
        ((∀ row ∈ Sample.firstTables.entries.selected Sample.millisToTimestamp Sample.oneByOne,
          ledgerEntry row ∈ entries) ↔
            ¬CrowdsOut Sample.millisToTimestamp Sample.firstTables.entries [] trace) := by
  let := Fips180.sha256
  have queried : Queried Sample.millisToTimestamp (LedgerClient.query 0 "" "" "" "" 0 0 1) _ _ _ _ :=
    queried_once (List.prefix_refl _) rfl rfl (by decide) Sample.first_listing (Nat.le_refl 1)
  have distinct : DistinctTimes Sample.firstTables.entries := List.nodup_singleton _
  exact ⟨_, _, queried, List.mem_singleton_self _,
    ledgerClient_query_complete_iff Sample.millisToTimestamp 0 "" "" "" "" 0 0 1 distinct queried⟩

end ImmutableLedger
