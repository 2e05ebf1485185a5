import ImmutableLedger.Audit.Segments

/-! `verify_recent_chain`: the tail of a chain without gaps.

The window goes from the position of the tip to a starting position, from there to the identifier
of a row, back to its position and on to the row below. In a chain whose rows have the positions
1, 2, ... all of these meet.
-/

set_option autoImplicit false

namespace ImmutableLedger

open Concurrency Query Chain

/-! Arithmetic of positions. -/

theorem toInt_sub_one_of_place {position : Int64} {count : Nat} (at_ : position.toInt = count + 1) :
    (position - 1).toInt = count := by
  have high := position.toInt_lt
  rw [Int64.toInt_sub, show (1 : Int64).toInt = 1 from rfl, Int.bmod]
  omega

theorem toInt_max (first second : Int64) :
    (max first second).toInt = max first.toInt second.toInt := by
  rw [show max first second = if first ≤ second then second else first from rfl]
  split
  · next below => exact (max_eq_right (Int64.le_iff_toInt_le.mp below)).symm
  · next above =>
    rw [Int64.le_iff_toInt_le, not_le] at above
    exact (max_eq_left (le_of_lt above)).symm

/-- Positions that are counted ascend. -/
theorem ascending_of_counted {rows : List LedgerEntryRecord}
    (counted : rows.map LedgerEntryRecord.position = positions rows.length) :
    Ascending LedgerEntryRecord.position rows := by
  apply List.pairwise_iff_getElem.mpr
  intro i j first second before
  rw [position_getElem counted first, position_getElem counted second]
  omega

/-- No sum or difference that `verify_recent_chain` forms leaves the range of an `i64`. -/
structure WindowInRange (tipPosition maxEntries : Int64) : Prop where
  below : (tipPosition - maxEntries).toInt = tipPosition.toInt - maxEntries.toInt
  start : (tipPosition - maxEntries + 1).toInt = tipPosition.toInt - maxEntries.toInt + 1
  lookup : (max (tipPosition - maxEntries + 1) 1 - 1).toInt =
    (max (tipPosition - maxEntries + 1) 1).toInt - 1
  predecessor : (max (tipPosition - maxEntries + 1) 1 - 2).toInt =
    (max (tipPosition - maxEntries + 1) 1).toInt - 2

theorem windowInRange {tipPosition maxEntries : Int64} (first : 1 ≤ tipPosition.toInt)
    (positive : 0 < maxEntries) : WindowInRange tipPosition maxEntries := by
  have high := tipPosition.toInt_lt
  have most := maxEntries.toInt_lt
  have least : 0 < maxEntries.toInt := Int64.lt_iff_toInt_lt.mp positive
  have one : (1 : Int64).toInt = 1 := rfl
  have startRange := toInt_max (tipPosition - maxEntries + 1) 1
  constructor
  · rw [Int64.toInt_sub, Int.bmod]
    omega
  · rw [Int64.toInt_add, Int64.toInt_sub, one, Int.bmod, Int.bmod]
    omega
  · exact toInt_sub (by omega) (by decide)
  · exact toInt_sub (by omega) (by decide)

/-- The first position of a window of the last `maxEntries` rows. -/
theorem windowStart_toInt {position maxEntries : Int64} (first : 1 ≤ position.toInt)
    (positive : 0 < maxEntries) : ∃ count : Nat,
      (max (position - maxEntries + 1) 1).toInt = count + 1 ∧
        count = position.toInt.toNat - maxEntries.toInt.toNat := by
  have least : 0 < maxEntries.toInt := Int64.lt_iff_toInt_lt.mp positive
  refine ⟨_, ?_, rfl⟩
  rw [toInt_max, (windowInRange first positive).start, show (1 : Int64).toInt = 1 from rfl]
  omega

section

variable [Sha256]

/-! What the window calls for. -/

/-- A row with a valid hash that carries the stored hash of the row one position below. -/
def SoundAt (genesis : String) (rows : List LedgerEntryRecord) (row : LedgerEntryRecord) : Prop :=
  row.HashValid ∧ ((row.position = 1 ∧ row.previousHash = genesis) ∨
    ∃ below ∈ rows, below.position + 1 = row.position ∧ row.previousHash = below.entryHash)

/-- The verdict on the last `count` rows: that all are sound, or the lowest that is not. -/
structure TailVerdict (genesis : String) (rows : List LedgerEntryRecord) (count : Nat)
    (output : VerifyChainOutput) : Prop where
  valid_iff : (output.chainValid = true ∧ output.entriesChecked = count) ↔
    ∀ row ∈ rows.drop (rows.length - count), SoundAt genesis rows row
  lowest : ¬(∀ row ∈ rows.drop (rows.length - count), SoundAt genesis rows row) →
    output.chainValid = false ∧ ∃ row ∈ rows.drop (rows.length - count),
      output.firstInvalidEntryId = some row.entryId ∧ ¬SoundAt genesis rows row ∧
        ∀ other ∈ rows.drop (rows.length - count), other.position < row.position →
          SoundAt genesis rows other

/-- What a repository shows of a type whose rows have the positions 1, 2, ... -/
structure Occupied (answers : (request : ReadRequest) → request.Reply) (entryType : String)
    (rows : List LedgerEntryRecord) : Prop where
  pages : Pages answers entryType rows
  counted : rows.map LedgerEntryRecord.position = positions rows.length
  stored : ∀ row ∈ rows, StoredIn answers entryType row
  tip : ∀ last, rows.getLast? = some last → answers (.getChainTip entryType) = .ok last.tip

/-- The window verifier checks the last `max_entries` rows, or all of them. -/
def ChecksTail (config : AppConfig) (answers : (request : ReadRequest) → request.Reply)
    (entryType : String) (rows : List LedgerEntryRecord) : Prop :=
  ∀ maxEntries : Int64, 1 ≤ maxEntries.toInt →
    ∃ output, (∀ value, Program.Returns answers
        (fun bound => (verifyRecentChain config bound entryType maxEntries).run) value ↔
          value = .ok output) ∧
      TailVerdict config.genesisHash rows (min maxEntries.toInt.toNat rows.length) output ∧
      ((rows.length : Int) ≤ maxEntries.toInt →
        ChainVerdict config answers entryType none none output) ∧
      (∀ last, rows.getLast? = some last → WindowInRange last.chainPosition maxEntries) ∧
      output.entriesChecked < 2 ^ 63

variable {config : AppConfig} {answers : (request : ReadRequest) → request.Reply}
  {entryType : String} {genesis : String} {rows : List LedgerEntryRecord}

/-- Where a chain is counted, the row one position below is the one before. -/
theorem soundAt_iff (counted : rows.map LedgerEntryRecord.position = positions rows.length)
    {front rest : List LedgerEntryRecord} {row : LedgerEntryRecord}
    (split : rows = front ++ row :: rest) :
    SoundAt genesis rows row ↔
      row.previousHash = lastHash LedgerEntryRecord.entryHash genesis front ∧ row.HashValid := by
  have place : row.position = front.length + 1 := by
    rw [split] at counted
    exact position_of_split counted
  unfold SoundAt
  rw [and_comm]
  apply and_congr_left'
  rcases List.eq_nil_or_concat front with rfl | ⟨start, last, rfl⟩
  · constructor
    · rintro (⟨-, link⟩ | ⟨below, member, adjacent, -⟩)
      · exact link
      · obtain ⟨i, -, belowPlace⟩ := getElem?_of_position counted member
        rw [List.length_nil] at place
        omega
    · intro link
      exact .inl ⟨place, link⟩
  · rw [List.concat_eq_append] at *
    rw [List.length_append, List.length_singleton] at place
    have lastPlace : last.position = start.length + 1 := by
      rw [split, List.append_assoc] at counted
      exact position_of_split counted
    have lastMember : last ∈ rows := by
      rw [split]
      simp
    have linked : lastHash LedgerEntryRecord.entryHash genesis (start ++ [last]) = last.entryHash := by
      rw [lastHash_append]
      rfl
    rw [linked]
    constructor
    · rintro (⟨first, -⟩ | ⟨below, member, adjacent, link⟩)
      · omega
      · obtain ⟨i, found, belowPlace⟩ := getElem?_of_position counted member
        obtain ⟨j, lastFound, alsoPlace⟩ := getElem?_of_position counted lastMember
        have same : i = j := by omega
        rw [same, lastFound] at found
        rw [link, Option.some.inj found]
    · intro link
      exact .inr ⟨last, lastMember, by omega, link⟩

/-- One pass over a tail gives the verdict the tail calls for. -/
theorem tailVerdict_singlePass (ascends : Ascending LedgerEntryRecord.position rows)
    (counted : rows.map LedgerEntryRecord.position = positions rows.length) {count : Nat}
    (within : count ≤ rows.length) :
    TailVerdict genesis rows count
      (singlePass (lastHash LedgerEntryRecord.entryHash genesis (rows.take (rows.length - count))) 0
        (rows.drop (rows.length - count))) := by
  have whole : rows.take (rows.length - count) ++ rows.drop (rows.length - count) = rows :=
    List.take_append_drop _ _
  have length : (rows.drop (rows.length - count)).length = count := by
    rw [List.length_drop]
    omega
  have ascendsTail : Ascending LedgerEntryRecord.position (rows.drop (rows.length - count)) :=
    ascends.sublist (List.drop_sublist _ _)
  generalize rows.take (rows.length - count) = before at whole
  generalize tailRows : rows.drop (rows.length - count) = tail at whole length ascendsTail
  -- Inside the tail, a row is sound if it fits what a walk carries up to it.
  have sound_iff : ∀ front row rest, tail = front ++ row :: rest → (SoundAt genesis rows row ↔
      row.previousHash = lastHash LedgerEntryRecord.entryHash
        (lastHash LedgerEntryRecord.entryHash genesis before) front ∧ row.HashValid) := by
    intro front row rest split
    have place : rows = (before ++ front) ++ row :: rest := by
      rw [← whole, split, List.append_assoc]
    rw [← lastHash_append]
    exact soundAt_iff counted place
  have sound_of_linked : ∀ front rest, tail = front ++ rest →
      LinkedEntries (lastHash LedgerEntryRecord.entryHash genesis before) front →
        (∀ row ∈ front, row.HashValid) → ∀ row ∈ front, SoundAt genesis rows row := by
    intro front rest split linked hashed row member
    obtain ⟨early, late, rfl⟩ := List.append_of_mem member
    rw [List.append_assoc, List.cons_append] at split
    exact (sound_iff early row _ split).mpr ⟨(linked_append.mp linked).2.1, hashed row member⟩
  have verdict := singlePass_verdict (lastHash LedgerEntryRecord.entryHash genesis before) tail
  generalize singlePass (lastHash LedgerEntryRecord.entryHash genesis before) 0 tail = output
    at verdict
  cases verdict with
  | valid linked hashed =>
    have sound := sound_of_linked tail [] (List.append_nil _).symm linked hashed
    constructor
    · rw [tailRows]
      exact iff_of_true ⟨rfl, length⟩ sound
    · rw [tailRows]
      exact fun unsound => absurd sound unsound
  | invalid front rest row split linked hashed rejected =>
    have unsound : ¬SoundAt genesis rows row := fun sound =>
      rejected ((sound_iff front row rest split).mp sound)
    have member : row ∈ tail := by
      rw [split]
      simp
    constructor
    · rw [tailRows]
      apply iff_of_false
      · rintro ⟨valid, -⟩
        cases valid
      · exact fun sound => unsound (sound row member)
    · rw [tailRows]
      intro _
      refine ⟨rfl, row, member, rfl, unsound, ?_⟩
      -- What is lower has passed.
      intro other another lower
      rw [split] at another ascendsTail
      exact sound_of_linked front (row :: rest) split linked hashed other
        (ascendsTail.mem_before another lower)

theorem singlePass_entriesChecked (prevHash : String) (passed : Nat)
    (rows : List LedgerEntryRecord) :
    (singlePass prevHash passed rows).entriesChecked ≤ passed + rows.length := by
  induction rows generalizing prevHash passed with
  | nil => exact Nat.le_refl _
  | cons row rest ih =>
    unfold singlePass
    rw [List.length_cons]
    split
    · have onward := ih row.entryHash (passed + 1)
      omega
    · dsimp only
      omega

/-! The window verifier. -/

omit [Sha256] in
theorem Occupied.getElem?_position (occupied : Occupied answers entryType rows) {i : Nat}
    {row : LedgerEntryRecord} (found : rows[i]? = some row) : row.chainPosition.toInt = i + 1 := by
  obtain ⟨within, rfl⟩ := List.getElem?_eq_some_iff.mp found
  exact position_getElem occupied.counted within

omit [Sha256] in
theorem Occupied.bound (occupied : Occupied answers entryType rows) {row : LedgerEntryRecord}
    (member : row ∈ rows) (absent : Int64) :
    BoundAt answers entryType absent row.chainPosition (some row.entryId) :=
  ⟨row, (occupied.stored row member).found, (occupied.stored row member).typed, rfl⟩

omit [Sha256] in
/-- The row a window starts from, unless it is the first one. -/
theorem Occupied.windowStart (occupied : Occupied answers entryType rows) {startPosition : Int64}
    {count : Nat} (at_ : startPosition.toInt = count + 1) :
    (windowStart entryType startPosition).run.evaluate answers =
      some (.ok (if startPosition = 1 then none else rows[count]?.map (·.entryId))) := by
  unfold ImmutableLedger.windowStart
  split
  · rfl
  · rw [Program.evaluate_exceptBind, evaluate_ask, occupied.pages.page _ _ (by decide),
      toInt_sub_one_of_place at_, above_counted occupied.counted]
    have first : ((rows.drop count).take (1 : Int64).toInt.toNat).head? = rows[count]? := by
      rw [List.head?_take, if_neg (by decide), List.head?_drop]
    change some (Except.ok (Option.map _ (List.head? _))) = _
    rw [first]

omit [Sha256] in
/-- Up to the tip, the rows from a position on are all but the ones before it. -/
theorem Occupied.between_eq (occupied : Occupied answers entryType rows)
    {startPosition endPosition : Int64} {count : Nat} (at_ : startPosition.toInt = count + 1)
    (ends : (rows.length : Int) ≤ endPosition.toInt) :
    between rows startPosition endPosition = rows.drop count := by
  rw [← above_counted occupied.counted, between, above]
  refine List.filter_congr fun row member => ?_
  obtain ⟨i, found, place⟩ := getElem?_of_position occupied.counted member
  obtain ⟨within, -⟩ := List.getElem?_eq_some_iff.mp found
  apply decide_eq_decide.mpr
  omega

/-- The hash carried up to a place is the one a verification from there begins with. -/
theorem Occupied.startingHash (occupied : Occupied answers entryType rows) {startPosition : Int64}
    {count : Nat} (at_ : startPosition.toInt = count + 1) (within : count ≤ rows.length) :
    (startingHash config entryType startPosition).run.evaluate answers =
      some (.ok (some (lastHash LedgerEntryRecord.entryHash config.genesisHash
        (rows.take count)))) := by
  apply startingHash_evaluate occupied.pages (by omega)
  cases count with
  | zero =>
    left
    exact ⟨Int64.toInt_inj.mp at_, rfl⟩
  | succ place =>
    right
    have found : rows[place]? = some rows[place] := List.getElem?_eq_getElem within
    refine ⟨?_, rows[place], List.getElem_mem within, ?_, (lastHash_take_succ _ found).symm⟩
    · rintro rfl
      have one : (1 : Int64).toInt = 1 := rfl
      omega
    · have position := occupied.getElem?_position found
      change rows[place].chainPosition.toInt + 1 = _
      rw [position, at_]
      push_cast
      ring

/-- A verification up to the tip passes over all rows from its start on. -/
theorem Occupied.verifyChain (occupied : Occupied answers entryType rows)
    {startEntryId endEntryId : Option Uuid} {startPosition endPosition : Int64} {count : Nat}
    (at_ : startPosition.toInt = count + 1) (within : count < rows.length)
    (starts : BoundAt answers entryType 1 startPosition startEntryId)
    (ends : BoundAt answers entryType Int64.maxValue endPosition endEntryId)
    (all : (rows.length : Int) ≤ endPosition.toInt) :
    ChainVerdict config answers entryType startEntryId endEntryId
      (singlePass (lastHash LedgerEntryRecord.entryHash config.genesisHash (rows.take count)) 0
        (rows.drop count)) := by
  rw [← occupied.between_eq at_ all]
  refine verifyChain_returns_iff occupied.pages (by omega) starts ends ?_
    (occupied.startingHash at_ (Nat.le_of_lt within))
  rw [Int64.le_iff_toInt_le]
  omega

/-- `verify_recent_chain` comes down to a verification from the start of its window to the tip. -/
theorem Occupied.verifyRecentChain_evaluate (occupied : Occupied answers entryType rows)
    {maxEntries : Int64} (positive : 0 < maxEntries) {last : LedgerEntryRecord}
    (ends : rows.getLast? = some last) {count : Nat}
    (at_ : (max (last.chainPosition - maxEntries + 1) 1).toInt = count + 1)
    (within : count < rows.length) (bound : Nat) :
    (verifyRecentChain config bound entryType maxEntries).run.evaluate answers =
      (ImmutableLedger.verifyChain config bound entryType
        (if max (last.chainPosition - maxEntries + 1) 1 = 1 then none
          else some rows[count].entryId) (some last.entryId)).run.evaluate answers := by
  have started := occupied.windowStart at_
  rw [List.getElem?_eq_getElem within, Option.map_some] at started
  unfold ImmutableLedger.verifyRecentChain
  rw [if_neg (Int64.not_le.mpr positive)]
  change Program.evaluate answers (Program.call (I := reads) (.getChainTip entryType) _) = _
  rw [Program.evaluate_call, occupied.tip last ends]
  change Program.evaluate answers (ExceptT.run (ImmutableLedger.windowStart entryType
    (max (last.chainPosition - maxEntries + 1) 1) >>= _)) = _
  rw [Program.evaluate_exceptBind, started, Option.bind_some]
  dsimp only
  -- A window that does not start with the chain has found its first row.
  rw [if_neg]
  · rfl
  · rintro ⟨beyond, missing⟩
    rw [if_neg] at missing
    · cases missing
    · intro first
      change 1 < max (last.chainPosition - maxEntries + 1) 1 at beyond
      rw [first] at beyond
      exact Int64.lt_irrefl beyond

theorem Occupied.checksTail (occupied : Occupied answers entryType rows) (nonempty : rows ≠ []) :
    ChecksTail config answers entryType rows := by
  intro maxEntries least
  have positive : 0 < maxEntries := Int64.lt_iff_toInt_lt.mpr least
  obtain ⟨front, last, split⟩ := (List.eq_nil_or_concat rows).resolve_left nonempty
  have ends : rows.getLast? = some last := by
    rw [split, List.concat_eq_append, List.getLast?_concat]
  have lastMember : last ∈ rows := List.mem_of_getLast? ends
  have length : rows.length = front.length + 1 := by
    rw [split, List.length_concat]
  have tipPosition : last.chainPosition.toInt = rows.length := by
    have place := occupied.counted
    rw [split, List.concat_eq_append] at place
    have position := position_of_split place
    change last.position = _
    rw [position, length]
    push_cast
    ring
  have first : 1 ≤ last.chainPosition.toInt := by omega
  obtain ⟨count, at_, counts⟩ := windowStart_toInt first positive
  have within : count < rows.length := by omega
  have tail : rows.length - min maxEntries.toInt.toNat rows.length = count := by omega
  -- Whether or not the window reaches the first row, it starts at an accepted bound.
  have starts : BoundAt answers entryType 1 (max (last.chainPosition - maxEntries + 1) 1)
      (if max (last.chainPosition - maxEntries + 1) 1 = 1 then none
        else some rows[count].entryId) := by
    split
    · next reaches => exact reaches
    · have position := occupied.getElem?_position (List.getElem?_eq_getElem within)
      have same : rows[count].chainPosition = max (last.chainPosition - maxEntries + 1) 1 := by
        apply Int64.toInt_inj.mp
        rw [position, at_]
      rw [← same]
      exact occupied.bound (List.getElem_mem within) 1
  have verdict : ChainVerdict config answers entryType _ _ _ :=
    occupied.verifyChain at_ within starts (occupied.bound lastMember Int64.maxValue)
      (le_of_eq tipPosition.symm)
  refine ⟨singlePass (lastHash LedgerEntryRecord.entryHash config.genesisHash (rows.take count)) 0
    (rows.drop count), ?_, ?_, ?_, ?_, ?_⟩
  · intro value
    rw [← verdict value]
    simp only [Program.Returns, occupied.verifyRecentChain_evaluate positive ends at_ within]
  · rw [← tail]
    exact tailVerdict_singlePass occupied.pages.ascends occupied.counted (min_le_right _ _)
  · intro whole
    obtain rfl : count = 0 := by omega
    have reaches : (rows.length : Int) ≤ Int64.maxValue.toInt := by
      rw [← tipPosition]
      exact last.position_le_maxValue
    have one : (1 : Int64).toInt = (0 : Nat) + 1 := rfl
    exact occupied.verifyChain one within rfl rfl reaches
  · intro other alsoEnds
    rw [ends] at alsoEnds
    obtain rfl := Option.some.inj alsoEnds
    exact windowInRange first positive
  · have checked := singlePass_entriesChecked (lastHash LedgerEntryRecord.entryHash
      config.genesisHash (rows.take count)) 0 (rows.drop count)
    have high := last.chainPosition.toInt_lt
    rw [List.length_drop] at checked
    omega

omit [Sha256] in
theorem Tables.occupied {tables : Tables} (contiguous : Contiguous tables.entries entryType) :
    Occupied tables.query entryType (tables.entries.chain entryType) where
  pages := tables.pages entryType
  counted := contiguous
  stored := by
    intro row member
    obtain ⟨stored, typed⟩ := LedgerEntries.mem_chain.mp member
    exact ⟨LedgerEntries.getEntry_of_mem stored, typed⟩
  tip := by
    intro last ends
    rw [Tables.query, LedgerEntries.tipRow_eq, ends]
    rfl

omit [Sha256] in
theorem InMemory.occupied {store : InMemory} (consistent : store.Consistent)
    (counted : (store.chain entryType).map LedgerEntryRecord.position =
      positions (store.chain entryType).length) :
    Occupied store.query entryType (store.chain entryType) where
  pages := InMemory.pages consistent.toIndexed (ascending_of_counted counted)
  counted := counted
  stored := by
    intro row member
    obtain ⟨stored, typed⟩ := consistent.toIndexed.mem_chain.mp member
    refine ⟨?_, typed⟩
    have found : store.entries.lookup row.entryId = some row := stored
    rw [InMemory.query, found]
    rfl
  tip := by
    intro last ends
    rw [InMemory.query, consistent.tips, ends]
    rfl

/-- The window verifier gives the verdict the last `max_entries` rows of a chain without gaps call
for, and never leaves the range of its integers. -/
theorem verifyRecentChain_checksTail (config : AppConfig) (entryType : String) :
    (∀ tables : Tables, Contiguous tables.entries entryType →
      tables.entries.chain entryType ≠ [] →
        ChecksTail config tables.query entryType (tables.entries.chain entryType)) ∧
    ∀ store : InMemory, store.Consistent →
      (store.chain entryType).map LedgerEntryRecord.position =
          positions (store.chain entryType).length →
        store.chain entryType ≠ [] →
          ChecksTail config store.query entryType (store.chain entryType) := by
  constructor
  · intro tables contiguous nonempty
    exact (Tables.occupied contiguous).checksTail nonempty
  · intro store consistent counted nonempty
    exact (InMemory.occupied consistent counted).checksTail nonempty

end

namespace Sample

variable [Sha256]

theorem pair_chain : pair.entries.chain "audit.event" = pair.entries.rows :=
  LedgerEntries.chain_of_ascending (by simp [pair]) (by simp [pair, Ascending])

theorem pair_contiguous : Contiguous pair.entries "audit.event" := by
  rw [Contiguous, pair_chain]
  exact show [(1 : Int64).toInt, (2 : Int64).toInt] = positions 2 by decide

end Sample

/-- A chain of two entries, whatever the window. -/
theorem verifyRecentChain_checksTail_pair :
    letI := Fips180.sha256
    ChecksTail Sample.config Sample.pair.query "audit.event"
      (Sample.pair.entries.chain "audit.event") := by
  let := Fips180.sha256
  have nonempty : Sample.pair.entries.chain "audit.event" ≠ [] := by
    rw [Sample.pair_chain]
    exact List.cons_ne_nil _ _
  exact (verifyRecentChain_checksTail Sample.config "audit.event").1 Sample.pair
    Sample.pair_contiguous nonempty

end ImmutableLedger
