import ImmutableLedger.Audit.Completeness
import ImmutableLedger.Repository.Indexes

/-! `verify_chain` between two bounds, compared with one pass that knows nothing of pages. -/

set_option autoImplicit false

namespace ImmutableLedger

open Concurrency Query Chain

/-! One pass. -/

section

variable [Sha256]

/-- Why a row is rejected: its link is looked at before its hash. -/
def failureReason (prevHash : String) (row : LedgerEntryRecord) : String :=
  if row.previousHash ≠ prevHash then "chain_link_mismatch"
  else if row.recomputed.isNone then "unsupported_hash_version"
  else "entry_hash_mismatch"

/-- One pass over rows, with the hash carried so far and the number of rows passed. -/
def singlePass (prevHash : String) (passed : Nat) : List LedgerEntryRecord → VerifyChainOutput
  | [] =>
    { chainValid := true
      entriesChecked := passed
      firstInvalidEntryId := none
      failureReason := "" }
  | row :: rest =>
    if row.previousHash = prevHash ∧ row.HashValid then singlePass row.entryHash (passed + 1) rest
    else
      { chainValid := false
        entriesChecked := passed + 1
        firstInvalidEntryId := some row.entryId
        failureReason := failureReason prevHash row }

/-- What a pass reports: that all rows are in order, or the first that is not. -/
inductive Verdict (prevHash : String) (rows : List LedgerEntryRecord) : VerifyChainOutput → Prop where
  | valid (linked : LinkedEntries prevHash rows) (hashed : ∀ row ∈ rows, row.HashValid) :
      Verdict prevHash rows ⟨true, rows.length, none, ""⟩
  | invalid (before rest : List LedgerEntryRecord) (row : LedgerEntryRecord)
      (split : rows = before ++ row :: rest) (linked : LinkedEntries prevHash before)
      (hashed : ∀ earlier ∈ before, earlier.HashValid)
      (rejected : ¬(row.previousHash = lastHash LedgerEntryRecord.entryHash prevHash before ∧
        row.HashValid)) :
      Verdict prevHash rows ⟨false, before.length + 1, some row.entryId,
        failureReason (lastHash LedgerEntryRecord.entryHash prevHash before) row⟩

theorem singlePass_append {prevHash : String} {passed : Nat} {before rest : List LedgerEntryRecord}
    (linked : LinkedEntries prevHash before) (hashed : ∀ row ∈ before, row.HashValid) :
    singlePass prevHash passed (before ++ rest) =
      singlePass (lastHash LedgerEntryRecord.entryHash prevHash before) (passed + before.length)
        rest := by
  induction before generalizing prevHash passed with
  | nil => rfl
  | cons row others ih =>
    obtain ⟨here, onward⟩ := linked_cons.mp linked
    obtain ⟨valid, validOnward⟩ := List.forall_mem_cons.mp hashed
    rw [List.cons_append, singlePass, if_pos ⟨here, valid⟩, ih onward validOnward, lastHash_cons,
      List.length_cons]
    congr 1
    omega

theorem singlePass_verdict (prevHash : String) (rows : List LedgerEntryRecord) :
    Verdict prevHash rows (singlePass prevHash 0 rows) := by
  -- The rows in front of `rest` have passed, and the induction is on what is left.
  suffices passing : ∀ before rest : List LedgerEntryRecord, LinkedEntries prevHash before →
      (∀ row ∈ before, row.HashValid) →
        Verdict prevHash (before ++ rest) (singlePass prevHash 0 (before ++ rest)) from
    passing [] rows trivial fun _ member => absurd member List.not_mem_nil
  intro before rest
  induction rest generalizing before with
  | nil =>
    intro linked hashed
    rw [singlePass_append linked hashed, singlePass, List.append_nil, Nat.zero_add]
    exact .valid linked hashed
  | cons row rest ih =>
    intro linked hashed
    by_cases accepted :
        row.previousHash = lastHash LedgerEntryRecord.entryHash prevHash before ∧ row.HashValid
    · rw [← List.singleton_append, ← List.append_assoc]
      apply ih
      · exact linked_concat.mpr ⟨linked, accepted.1⟩
      · exact List.forall_mem_append.mpr ⟨hashed, List.forall_mem_singleton.mpr accepted.2⟩
    · rw [singlePass_append linked hashed, singlePass, if_neg accepted, Nat.zero_add]
      exact .invalid before rest row rfl linked hashed accepted

/-- The rows up to a bound decide a pass that stops beyond it. -/
theorem outcome_cons_error {endPosition : Int64} {cursor : Cursor} {row : LedgerEntryRecord}
    {rest : List LedgerEntryRecord} {output : VerifyChainOutput}
    (stopped : checkEntry endPosition cursor row = .error output) :
    outcome endPosition cursor (row :: rest) = output := by
  rw [outcome, checkBatch, List.foldlM_cons, stopped]
  rfl

theorem outcome_cons_ok {endPosition : Int64} {cursor moved : Cursor} {row : LedgerEntryRecord}
    {rest : List LedgerEntryRecord} (passed : checkEntry endPosition cursor row = .ok moved) :
    outcome endPosition cursor (row :: rest) = outcome endPosition moved rest := by
  rw [outcome, checkBatch, List.foldlM_cons, passed]
  rfl

theorem outcome_eq_singlePass {endPosition : Int64} {cursor : Cursor} {rows : List LedgerEntryRecord}
    (ascends : Ascending LedgerEntryRecord.position rows) :
    outcome endPosition cursor rows =
      singlePass cursor.prevHash cursor.entriesChecked
        (upTo LedgerEntryRecord.position endPosition.toInt rows) := by
  induction rows generalizing cursor with
  | nil => rfl
  | cons row rest ih =>
    obtain ⟨above, onward⟩ := List.pairwise_cons.mp ascends
    by_cases beyond : endPosition < row.chainPosition
    · -- Everything from here on lies beyond the bound.
      have outside : upTo LedgerEntryRecord.position endPosition.toInt (row :: rest) = [] := by
        have far := Int64.lt_iff_toInt_lt.mp beyond
        refine List.filter_eq_nil_iff.mpr fun other member => ?_
        rcases List.mem_cons.mp member with rfl | later
        · simpa using far
        · simpa using far.trans (above other later)
      rw [outside]
      exact outcome_cons_error (if_pos beyond)
    · have within : row.position ≤ endPosition.toInt := by
        rw [Int64.lt_iff_toInt_lt, not_lt] at beyond
        exact beyond
      have kept : upTo LedgerEntryRecord.position endPosition.toInt (row :: rest) =
          row :: upTo LedgerEntryRecord.position endPosition.toInt rest :=
        List.filter_cons_of_pos (by simpa using within)
      rw [kept, singlePass]
      by_cases linked : row.previousHash = cursor.prevHash
      · by_cases valid : row.recomputed = some row.entryHash
        · rw [outcome_cons_ok (checkEntry_ok_iff.mpr ⟨within, linked, valid, rfl⟩),
            if_pos ⟨linked, valid⟩]
          exact ih onward
        · have rejected : ¬(row.previousHash = cursor.prevHash ∧ row.HashValid) :=
            fun both => valid both.2
          have stopped : checkEntry endPosition cursor row = .error _ :=
            (if_neg beyond).trans ((if_neg (not_not_intro linked)).trans (if_pos valid))
          rw [outcome_cons_error stopped, if_neg rejected]
          simp only [Cursor.failed, failureReason, linked, ne_eq, not_true_eq_false, if_false]
      · have stopped : checkEntry endPosition cursor row = .error _ :=
          (if_neg beyond).trans (if_pos linked)
        rw [outcome_cons_error stopped, if_neg fun both => linked both.1]
        simp only [Cursor.failed, failureReason, ne_eq, linked, not_false_eq_true, if_true]

end

/-! The bounds of a verification. -/

section

variable [Sha256] {config : AppConfig} {answers : (request : ReadRequest) → request.Reply}
  {entryType : String} {rows : List LedgerEntryRecord}

/-- An accepted bound and its position: that of an entry of the type, or the default. -/
def BoundAt (answers : (request : ReadRequest) → request.Reply) (entryType : String)
    (absent position : Int64) : Option Uuid → Prop
  | none => position = absent
  | some id => ∃ entry : LedgerEntryRecord, answers (.getEntry id) = .ok entry ∧
      entry.entryType = entryType ∧ entry.chainPosition = position

/-- What a verification begins with: the genesis hash at position 1, else the hash of the row one
position below. -/
def BeginsWith (config : AppConfig) (rows : List LedgerEntryRecord) (startPosition : Int64)
    (prevHash : String) : Prop :=
  (startPosition = 1 ∧ prevHash = config.genesisHash) ∨
    (startPosition ≠ 1 ∧ ∃ below ∈ rows, below.position + 1 = startPosition.toInt ∧
      below.entryHash = prevHash)

/-- The rows from one position to another. -/
def between (rows : List LedgerEntryRecord) (startPosition endPosition : Int64) :
    List LedgerEntryRecord :=
  rows.filter fun row =>
    decide (startPosition.toInt ≤ row.position ∧ row.position ≤ endPosition.toInt)

def InRange (rows : List LedgerEntryRecord) : Prop :=
  ∀ row ∈ rows, -2 ^ 62 < row.position ∧ row.position < 2 ^ 62

/-- Between any bounds it accepts, `verify_chain` ends with what one pass over `rows` reports. -/
def Unbatched (config : AppConfig) (answers : (request : ReadRequest) → request.Reply)
    (entryType : String) (rows : List LedgerEntryRecord) : Prop :=
  ∀ (startEntryId endEntryId : Option Uuid) (startPosition endPosition : Int64) (prevHash : String),
    BoundAt answers entryType 1 startPosition startEntryId →
      BoundAt answers entryType Int64.maxValue endPosition endEntryId →
        startPosition ≤ endPosition → BeginsWith config rows startPosition prevHash →
          let output := singlePass prevHash 0 (between rows startPosition endPosition)
          Verdict prevHash (between rows startPosition endPosition) output ∧
            ∀ value, Program.Returns answers
              (fun bound => (verifyChain config bound entryType startEntryId endEntryId).run) value ↔
                value = .ok output

omit [Sha256] in
theorem boundPosition_evaluate {absent position : Int64} {foreign : String} {id : Option Uuid}
    (located : BoundAt answers entryType absent position id) :
    (boundPosition entryType absent foreign id).run.evaluate answers = some (.ok position) := by
  cases id with
  | none =>
    obtain rfl := located
    rfl
  | some id =>
    obtain ⟨entry, found, typed, rfl⟩ := located
    rw [boundPosition, Program.evaluate_exceptBind, evaluate_ask, found]
    simp [Except.mapError, typed]

omit [Sha256] in
/-- The position of an accepted start leaves room below it. -/
theorem BoundAt.inRange {position : Int64} {id : Option Uuid}
    (located : BoundAt answers entryType 1 position id) (pages : Pages answers entryType rows)
    (inRange : InRange rows) : -2 ^ 62 < position.toInt := by
  cases id with
  | none =>
    obtain rfl := located
    decide
  | some id =>
    obtain ⟨entry, found, typed, rfl⟩ := located
    exact (inRange entry (pages.found id entry found typed)).1

omit [Sha256] in
theorem toInt_sub {position step : Int64} (low : -2 ^ 62 < position.toInt)
    (small : 0 ≤ step.toInt ∧ step.toInt ≤ 2) :
    (position - step).toInt = position.toInt - step.toInt := by
  have high := position.toInt_lt
  rw [Int64.toInt_sub, Int.bmod_eq_of_le] <;> omega

/-- Away from position 1, a verification begins with the hash of the first row above the position
two below. -/
theorem startingHash_lookup {startPosition : Int64} (pages : Pages answers entryType rows)
    (room : -2 ^ 62 < startPosition.toInt) (other : startPosition ≠ 1) :
    (startingHash config entryType startPosition).run.evaluate answers =
      some (.ok ((above LedgerEntryRecord.position (startPosition.toInt - 2) rows).head?.map
        (·.entryHash))) := by
  have single : ∀ list : List LedgerEntryRecord, (list.take (1 : Int64).toInt.toNat).head? =
      list.head? := fun list => by cases list <;> rfl
  rw [startingHash, if_neg other, Program.evaluate_exceptBind, evaluate_ask,
    pages.page _ _ (by decide), toInt_sub room (by decide)]
  change some (Except.ok (Option.map _ (List.head? (List.take _ _)))) = _
  rw [single]
  rfl

theorem startingHash_evaluate {startPosition : Int64} {prevHash : String}
    (pages : Pages answers entryType rows) (room : -2 ^ 62 < startPosition.toInt)
    (begins : BeginsWith config rows startPosition prevHash) :
    (startingHash config entryType startPosition).run.evaluate answers =
      some (.ok (some prevHash)) := by
  rcases begins with ⟨rfl, rfl⟩ | ⟨other, below, member, adjacent, rfl⟩
  · rfl
  · -- The row one position below is the first above two positions below.
    have first : (above LedgerEntryRecord.position (startPosition.toInt - 2) rows).head? =
        some below := by
      apply pages.ascends.head?_above member
      · omega
      · intro row _ reached
        omega
    rw [startingHash_lookup pages room other, first]
    rfl

theorem verifyChain_evaluate {startEntryId endEntryId : Option Uuid}
    {startPosition endPosition : Int64} {prevHash : String}
    (starts : BoundAt answers entryType 1 startPosition startEntryId)
    (ends : BoundAt answers entryType Int64.maxValue endPosition endEntryId)
    (ordered : startPosition ≤ endPosition)
    (starting : (startingHash config entryType startPosition).run.evaluate answers =
      some (.ok (some prevHash))) (bound : Nat) :
    (verifyChain config bound entryType startEntryId endEntryId).run.evaluate answers =
      (walk entryType endPosition bound ⟨prevHash, startPosition - 1, 0⟩).run.evaluate answers := by
  rw [verifyChain, Program.evaluate_exceptBind, boundPosition_evaluate starts, Option.bind_some]
  dsimp only
  rw [Program.evaluate_exceptBind, boundPosition_evaluate ends, Option.bind_some]
  dsimp only
  rw [if_neg (Int64.not_lt.mpr ordered)]
  rw [Program.evaluate_exceptBind, starting]
  rfl

/-- Whatever hash it begins with, a verification ends with one pass over the rows between its
bounds. -/
theorem verifyChain_returns_iff {startEntryId endEntryId : Option Uuid}
    {startPosition endPosition : Int64} {prevHash : String} (pages : Pages answers entryType rows)
    (room : -2 ^ 62 < startPosition.toInt)
    (starts : BoundAt answers entryType 1 startPosition startEntryId)
    (ends : BoundAt answers entryType Int64.maxValue endPosition endEntryId)
    (ordered : startPosition ≤ endPosition)
    (starting : (startingHash config entryType startPosition).run.evaluate answers =
      some (.ok (some prevHash))) (value : Except ServiceError VerifyChainOutput) :
    Program.Returns answers
        (fun bound => (verifyChain config bound entryType startEntryId endEntryId).run) value ↔
      value = .ok (singlePass prevHash 0 (between rows startPosition endPosition)) := by
  simp only [Program.Returns, verifyChain_evaluate starts ends ordered starting]
  have ascends : Ascending LedgerEntryRecord.position
      (above LedgerEntryRecord.position (startPosition - 1).toInt rows) := pages.ascends.filter _
  rw [← Program.Returns, walk_returns_iff pages, outcome_eq_singlePass ascends]
  have selected : upTo LedgerEntryRecord.position endPosition.toInt
      (above LedgerEntryRecord.position (startPosition - 1).toInt rows) =
        between rows startPosition endPosition := by
    rw [toInt_sub room (by decide), upTo, above, List.filter_filter, between]
    refine List.filter_congr fun row _ => ?_
    have one : (1 : Int64).toInt = 1 := rfl
    rw [← Bool.decide_and]
    exact decide_eq_decide.mpr ⟨fun both => ⟨by omega, both.1⟩, fun both => ⟨both.2, by omega⟩⟩
  rw [selected]

theorem Pages.unbatched (pages : Pages answers entryType rows) (inRange : InRange rows) :
    Unbatched config answers entryType rows := by
  intro startEntryId endEntryId startPosition endPosition prevHash starts ends ordered begins
  have room := starts.inRange pages inRange
  have starting := startingHash_evaluate pages room begins
  exact ⟨singlePass_verdict _ _,
    verifyChain_returns_iff pages room starts ends ordered starting⟩

omit [Sha256] in
/-- The index of a chain lists its rows in order, so its pages are pieces of it. -/
theorem InMemory.pages {store : InMemory} (indexed : store.Indexed)
    (ascends : Ascending LedgerEntryRecord.position (store.chain entryType)) :
    Pages store.query entryType (store.chain entryType) := by
  constructor
  · exact ascends
  · intro afterPosition limit positive
    exact store.query_page entryType afterPosition positive
  · intro id entry found typed
    have looked : requireRow (store.entries.lookup id) = .ok entry := found
    refine indexed.mem_chain.mpr ⟨?_, typed⟩
    cases present : store.entries.lookup id with
    | none =>
      rw [present] at looked
      cases looked
    | some other =>
      rw [present] at looked
      obtain rfl := Except.ok.inj looked
      exact InMemory.stores_of_lookup present

/-- Appends keep the index of a chain in order. -/
theorem InMemory.Added.ascends {before after : InMemory} {ids : FreshIds} {input : EntryWriteInput}
    {result : WriteResult} {nextPosition : Int64}
    (added : before.Added ids input result after nextPosition) (unused : before.Unused ids)
    (consistent : before.Consistent) (inRange : InRange (before.chain input.entryType))
    (ascends : ∀ entryType, Ascending LedgerEntryRecord.position (before.chain entryType)) :
    ∀ entryType, Ascending LedgerEntryRecord.position (after.chain entryType) := by
  intro entryType
  have fresh : result.entry.entryId ∉ before.entries := by
    rw [added.entry]
    exact unused.entryId
  rw [added.after, consistent.chain_add fresh]
  split
  · next typed =>
    subst typed
    refine List.pairwise_append.mpr ⟨ascends _, List.pairwise_singleton _ _, ?_⟩
    intro row member last here
    obtain rfl := List.mem_singleton.mp here
    have sameType : result.entry.entryType = input.entryType := by rw [added.entry]; rfl
    have next : result.entry.chainPosition = nextPosition := by rw [added.entry]; rfl
    rw [sameType] at member
    -- The tip has the highest position, and the new row comes one above it.
    obtain ⟨front, tip, split⟩ := (List.eq_nil_or_concat (before.chain input.entryType)).resolve_left
      (List.ne_nil_of_mem member)
    rw [List.concat_eq_append] at split
    have recorded : before.chainTips.lookup input.entryType = some tip.tip := by
      rw [consistent.tips, split]
      simp
    have positioned := added.positioned
    have stepped : nextPosition = tip.chainPosition + 1 := by
      unfold InMemory.nextPosition at positioned
      rw [recorded] at positioned
      dsimp only [Option.map_some, Option.getD_some] at positioned
      split_ifs at positioned
      all_goals exact (Except.ok.inj positioned).symm
    have tipRange : -2 ^ 62 < tip.chainPosition.toInt ∧ tip.chainPosition.toInt < 2 ^ 62 :=
      inRange tip (by rw [split]; simp)
    have above : result.entry.position = tip.position + 1 := by
      have one : (1 : Int64).toInt = 1 := rfl
      rw [LedgerEntryRecord.position, next, stepped, Int64.toInt_add, one, Int.bmod_eq_of_le]
      · omega
      · omega
    have highest : row.position ≤ tip.position := by
      have ordered := ascends input.entryType
      rw [split] at member ordered
      rcases List.mem_append.mp member with early | here
      · exact le_of_lt ((List.pairwise_append.mp ordered).2.2 row early tip (by simp))
      · rw [List.mem_singleton.mp here]
    omega
  · exact ascends entryType

/-- Whatever is stored of a chain, and between whatever bounds it accepts, `verify_chain` ends with
the verdict of one pass over the rows between the bounds, however these fall into batches. -/
theorem verifyChain_unbatched (config : AppConfig) (entryType : String) :
    (∀ tables : Tables, InRange (tables.entries.chain entryType) →
      Unbatched config tables.query entryType (tables.entries.chain entryType)) ∧
    ∀ store : InMemory, store.Indexed →
      Ascending LedgerEntryRecord.position (store.chain entryType) →
        InRange (store.chain entryType) →
          Unbatched config store.query entryType (store.chain entryType) := by
  constructor
  · intro tables inRange
    exact (tables.pages entryType).unbatched inRange
  · intro store indexed ascends inRange
    exact (InMemory.pages indexed ascends).unbatched inRange

end

/-- A chain with a gap, from its first row to its last. -/
theorem verifyChain_unbatched_gapped :
    letI := Fips180.sha256
    Program.Returns Sample.gapped.query
      (fun bound => (verifyChain Sample.config bound "audit.event" none none).run)
      (.ok (singlePass Sample.config.genesisHash 0
        (between (Sample.gapped.entries.chain "audit.event") 1 Int64.maxValue))) := by
  let := Fips180.sha256
  have inRange : InRange (Sample.gapped.entries.chain "audit.event") := by
    rw [Sample.gapped_chain]
    intro row member
    rcases List.mem_cons.mp member with rfl | later
    · exact show -2 ^ 62 < (1 : Int64).toInt ∧ (1 : Int64).toInt < 2 ^ 62 by decide
    · rw [List.mem_singleton.mp later]
      exact show -2 ^ 62 < (3 : Int64).toInt ∧ (3 : Int64).toInt < 2 ^ 62 by decide
  have unbatched := (verifyChain_unbatched Sample.config "audit.event").1 Sample.gapped inRange
  exact ((unbatched none none 1 Int64.maxValue _ rfl rfl (by decide) (.inl ⟨rfl, rfl⟩)).2 _).mpr rfl

end ImmutableLedger
