import ImmutableLedger.Audit.Batches

/-! Chains verified piece by piece, and rows whose predecessor is gone.

A verification that starts behind an entry begins with the stored hash of that entry. Where the
entries up to there have passed, this is the hash one verification of everything carries.
-/

set_option autoImplicit false

namespace ImmutableLedger

open Concurrency Query Chain

section

variable [Sha256]

/-- `verify_chain` between two bounds ends with `output`. -/
def ChainVerdict (config : AppConfig) (answers : (request : ReadRequest) → request.Reply)
    (entryType : String) (startEntryId endEntryId : Option Uuid) (output : VerifyChainOutput) : Prop :=
  ∀ value, Program.Returns answers
    (fun bound => (verifyChain config bound entryType startEntryId endEntryId).run) value ↔
      value = .ok output

/-- A verdict on two segments, the first of which ends where the second starts. -/
structure Composes (whole first second : VerifyChainOutput) : Prop where
  chainValid : whole.chainValid = true ↔ first.chainValid = true ∧ second.chainValid = true
  entriesChecked : whole.chainValid = true →
    first.entriesChecked + second.entriesChecked = whole.entriesChecked
  firstInvalidEntryId : whole.chainValid = false →
    whole.firstInvalidEntryId =
      (if first.chainValid then second else first).firstInvalidEntryId

/-- An entry that is found by its identifier and belongs to the chain. -/
structure StoredIn (answers : (request : ReadRequest) → request.Reply) (entryType : String)
    (entry : LedgerEntryRecord) : Prop where
  found : answers (.getEntry entry.entryId) = .ok entry
  typed : entry.entryType = entryType

/-- Wherever a chain is cut in two between neighbours, the verdicts on the pieces make up that on
the whole. -/
def Segmented (config : AppConfig) (answers : (request : ReadRequest) → request.Reply)
    (entryType : String) : Prop :=
  ∀ (startEntryId endEntryId : Option Uuid) (startPosition endPosition : Int64)
    (last next : LedgerEntryRecord),
    BoundAt answers entryType 1 startPosition startEntryId →
      BoundAt answers entryType Int64.maxValue endPosition endEntryId →
        StoredIn answers entryType last → StoredIn answers entryType next →
          1 ≤ startPosition.toInt → startPosition.toInt ≤ last.position →
            next.position = last.position + 1 → next.position ≤ endPosition.toInt →
              ∃ whole first second,
                ChainVerdict config answers entryType startEntryId endEntryId whole ∧
                  ChainVerdict config answers entryType startEntryId (some last.entryId) first ∧
                    ChainVerdict config answers entryType (some next.entryId) endEntryId second ∧
                      Composes whole first second

/-! One pass in two parts. -/

/-- The verdict of a pass that goes on where another one ended. -/
def VerifyChainOutput.andThen (first second : VerifyChainOutput) : VerifyChainOutput :=
  if first.chainValid then
    { second with entriesChecked := first.entriesChecked + second.entriesChecked }
  else first

omit [Sha256] in
theorem composes_andThen (first second : VerifyChainOutput) :
    Composes (first.andThen second) first second := by
  unfold VerifyChainOutput.andThen
  cases valid : first.chainValid with
  | true =>
    constructor
    · simp [valid]
    · simp
    · simp [valid]
  | false =>
    constructor
    · simp [valid]
    · simp [valid]
    · simp [valid]

/-- A pass counts from where it is told to. -/
theorem singlePass_passed (prevHash : String) (passed : Nat) (rows : List LedgerEntryRecord) :
    singlePass prevHash passed rows =
      { singlePass prevHash 0 rows with
        entriesChecked := passed + (singlePass prevHash 0 rows).entriesChecked } := by
  induction rows generalizing prevHash passed with
  | nil => rfl
  | cons row rest ih =>
    unfold singlePass
    split
    · rw [ih _ (passed + 1), ih _ (0 + 1)]
      simp only [VerifyChainOutput.mk.injEq, true_and, and_true]
      omega
    · rfl

theorem singlePass_split (prevHash : String) (passed : Nat) (first second : List LedgerEntryRecord) :
    singlePass prevHash passed (first ++ second) =
      (singlePass prevHash passed first).andThen
        (singlePass (lastHash LedgerEntryRecord.entryHash prevHash first) 0 second) := by
  induction first generalizing prevHash passed with
  | nil => exact singlePass_passed prevHash passed second
  | cons row rest ih =>
    rw [List.cons_append, singlePass, singlePass]
    split
    · exact ih _ _
    · rfl

/-! The rows between two bounds. -/

omit [Sha256] in
/-- The rows up to a row, and those behind it. -/
theorem between_split {rows : List LedgerEntryRecord}
    (ascends : Ascending LedgerEntryRecord.position rows)
    {startPosition endPosition nextPosition : Int64} {last : LedgerEntryRecord}
    (starts : startPosition.toInt ≤ last.position)
    (adjacent : nextPosition.toInt = last.position + 1)
    (ends : nextPosition.toInt ≤ endPosition.toInt) :
    between rows startPosition endPosition =
      between rows startPosition last.chainPosition ++ between rows nextPosition endPosition := by
  have here : last.chainPosition.toInt = last.position := rfl
  conv_lhs => rw [← ascends.upTo_append_above last.position, between, List.filter_append]
  congr 1
  · rw [upTo, List.filter_filter]
    refine List.filter_congr fun row _ => ?_
    rw [← Bool.decide_and]
    apply decide_eq_decide.mpr
    omega
  · rw [above, List.filter_filter]
    refine List.filter_congr fun row _ => ?_
    rw [← Bool.decide_and]
    apply decide_eq_decide.mpr
    omega

omit [Sha256] in
theorem lastHash_between {rows : List LedgerEntryRecord}
    (ascends : Ascending LedgerEntryRecord.position rows) {startPosition : Int64}
    {last : LedgerEntryRecord} (member : last ∈ rows) (starts : startPosition.toInt ≤ last.position)
    (prevHash : String) :
    lastHash LedgerEntryRecord.entryHash prevHash (between rows startPosition last.chainPosition) =
      last.entryHash := by
  obtain ⟨before, rest, split⟩ := List.append_of_mem member
  have ending : between rows startPosition last.chainPosition =
      (before.filter fun row => decide (startPosition.toInt ≤ row.position)) ++ [last] := by
    have upTo_last := ascends.upTo_last split
    have selected : between rows startPosition last.chainPosition =
        (upTo LedgerEntryRecord.position last.position rows).filter
          fun row => decide (startPosition.toInt ≤ row.position) := by
      rw [upTo, List.filter_filter, between]
      simp only [Bool.decide_and]
    rw [selected, upTo_last, List.filter_append, List.filter_singleton, decide_eq_true starts]
    rfl
  rw [ending, lastHash_append]
  rfl

/-! Segments of a chain. -/

variable {config : AppConfig} {answers : (request : ReadRequest) → request.Reply}
  {entryType : String} {rows : List LedgerEntryRecord}

/-- A verification that starts at a stored entry, or at the first position, finds a hash to begin
with. -/
theorem startingHash_found (config : AppConfig) (pages : Pages answers entryType rows) {startPosition : Int64}
    {startEntryId : Option Uuid} (starts : BoundAt answers entryType 1 startPosition startEntryId)
    (positive : 1 ≤ startPosition.toInt) :
    ∃ prevHash, (startingHash config entryType startPosition).run.evaluate answers =
      some (.ok (some prevHash)) := by
  by_cases first : startPosition = 1
  · subst first
    exact ⟨config.genesisHash, rfl⟩
  · cases startEntryId with
    | none => exact absurd starts first
    | some id =>
      obtain ⟨entry, found, typed, rfl⟩ := starts
      have member : entry ∈ above LedgerEntryRecord.position (entry.chainPosition.toInt - 2) rows :=
        List.mem_filter.mpr ⟨pages.found id entry found typed,
          decide_eq_true (Int.sub_lt_self _ two_pos)⟩
      obtain ⟨row, lowest⟩ := Option.isSome_iff_exists.mp
        (List.isSome_head?.mpr (List.ne_nil_of_mem member))
      refine ⟨row.entryHash, ?_⟩
      rw [startingHash_lookup pages (by omega) first, lowest]
      rfl

theorem Pages.segmented (pages : Pages answers entryType rows) :
    Segmented config answers entryType := by
  intro startEntryId endEntryId startPosition endPosition last next starts ends lastStored nextStored
    positive ordered adjacent within
  have lastMember := pages.found _ last lastStored.found lastStored.typed
  have lastBound : BoundAt answers entryType Int64.maxValue last.chainPosition
      (some last.entryId) := ⟨last, lastStored.found, lastStored.typed, rfl⟩
  have nextBound : BoundAt answers entryType 1 next.chainPosition (some next.entryId) :=
    ⟨next, nextStored.found, nextStored.typed, rfl⟩
  have nextRoom : -2 ^ 62 < next.chainPosition.toInt := by
    change -2 ^ 62 < next.position
    omega
  obtain ⟨prevHash, starting⟩ := startingHash_found config pages starts positive
  -- The second segment begins with what is stored at the end of the first one.
  have resumed : (startingHash config entryType next.chainPosition).run.evaluate answers =
      some (.ok (some last.entryHash)) := by
    apply startingHash_evaluate pages nextRoom
    right
    refine ⟨?_, last, lastMember, adjacent.symm, rfl⟩
    intro first
    have one : next.position = 1 := congrArg Int64.toInt first
    omega
  refine ⟨_, _, _,
    verifyChain_returns_iff pages (by omega) starts ends ?_ starting,
    verifyChain_returns_iff pages (by omega) starts lastBound ?_ starting,
    verifyChain_returns_iff pages nextRoom nextBound ends ?_ resumed, ?_⟩
  · rw [Int64.le_iff_toInt_le]
    omega
  · exact Int64.le_iff_toInt_le.mpr ordered
  · exact Int64.le_iff_toInt_le.mpr within
  · have cut := between_split pages.ascends ordered adjacent within
    rw [cut, singlePass_split, lastHash_between pages.ascends lastMember ordered]
    exact composes_andThen _ _

/-- Cutting a verification in two changes neither its verdict, nor what it counts, nor the entry it
blames, whatever is stored. -/
theorem verifyChain_segments (config : AppConfig) (entryType : String) :
    (∀ tables : Tables, Segmented config tables.query entryType) ∧
      ∀ store : InMemory, store.Indexed →
        Ascending LedgerEntryRecord.position (store.chain entryType) →
          Segmented config store.query entryType := by
  constructor
  · intro tables
    exact (tables.pages entryType).segmented
  · intro store indexed ascends
    exact (InMemory.pages indexed ascends).segmented

end

namespace Sample

theorem pair_entryIds : [(ids 1).entryId, (ids 2).entryId].Nodup := by decide

theorem pair_positions :
    [("audit.event", (1 : Int64)), ("audit.event", (2 : Int64))].Nodup := by decide

variable [Sha256]

/-- Two entries that follow each other. -/
def pair : Tables where
  entries :=
    let first := entry 1 config.genesisHash 1
    { rows := [first, entry 2 first.entryHash 2]
      uniqueEntryId := pair_entryIds
      uniqueTypePosition := pair_positions
      uniqueIdempotencyKey := noKeys
      bounded := twoRows }
  outbox := .empty

theorem pair_stored {row : LedgerEntryRecord} (member : row ∈ pair.entries.rows) :
    StoredIn pair.query "audit.event" row where
  found := LedgerEntries.getEntry_of_mem member
  typed := by
    rcases List.mem_pair.mp member with rfl | rfl
    · rfl
    · rfl

end Sample

/-- Two entries, verified together and one by one. -/
theorem verifyChain_segments_pair :
    letI := Fips180.sha256
    ∃ whole first second,
      ChainVerdict Sample.config Sample.pair.query "audit.event" none none whole ∧
        ChainVerdict Sample.config Sample.pair.query "audit.event" none
          (some (Sample.ids 1).entryId) first ∧
          ChainVerdict Sample.config Sample.pair.query "audit.event" (some (Sample.ids 2).entryId)
            none second ∧ Composes whole first second := by
  let := Fips180.sha256
  have segments := (verifyChain_segments Sample.config "audit.event").1 Sample.pair
  have firstStored := Sample.pair_stored (List.mem_pair.mpr (.inl rfl))
  have secondStored := Sample.pair_stored (List.mem_pair.mpr (.inr rfl))
  exact segments none none 1 Int64.maxValue _ _ rfl rfl firstStored secondStored (by decide)
    (by decide) rfl (by decide)

end ImmutableLedger
