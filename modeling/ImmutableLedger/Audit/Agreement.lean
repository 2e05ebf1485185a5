import ImmutableLedger.Audit.Completeness

/-! The verdicts of `verify_entry` beside the verdict of `verify_chain`.

`verify_entry` takes the first row above the position two below its own for the predecessor.
Where the row one below is missing, that is the entry itself.
-/

set_option autoImplicit false

namespace ImmutableLedger

open Concurrency Query Chain

section

variable [Sha256]

/-- `verify_entry` on a content returns `output`. -/
def EntryVerdict (config : AppConfig) (tables : Tables) (entryId : Uuid)
    (output : VerifyEntryOutput) : Prop :=
  (verifyEntry config entryId).run.evaluate tables.query = some (.ok output)

/-- Whether the row `verify_entry` takes for the predecessor has the hash a row links to. -/
def PredecessorLinked (config : AppConfig) (table : LedgerEntries) (row : LedgerEntryRecord) :
    Prop :=
  if row.chainPosition = 1 then row.previousHash = config.genesisHash
  else ∃ prev, (table.chainAbove row.entryType (row.chainPosition - 2)).head? = some prev ∧
    prev.entryHash = row.previousHash

omit [Sha256] in
theorem Tables.query_predecessor (tables : Tables) (entryType : String) (position : Int64) :
    tables.query (.getEntriesByTypePaged entryType position 1) =
      .ok ((tables.entries.chainAbove entryType position).take 1) := by
  rw [Tables.query, LedgerEntries.page_eq, if_neg (by decide)]
  rfl

theorem chainLinkValid_evaluate (config : AppConfig) (tables : Tables) (row : LedgerEntryRecord) :
    ∃ verdict : Bool, (chainLinkValid config row).run.evaluate tables.query = some (.ok verdict) ∧
      (verdict = true ↔ PredecessorLinked config tables.entries row) := by
  unfold chainLinkValid PredecessorLinked
  split
  · exact ⟨_, rfl, decide_eq_true_iff⟩
  · rw [Program.evaluate_exceptBind, evaluate_ask, Tables.query_predecessor]
    cases tables.entries.chainAbove row.entryType (row.chainPosition - 2) with
    | nil => exact ⟨false, rfl, by simp⟩
    | cons prev rest => exact ⟨_, rfl, by simp⟩

/-- An entry passes `verify_entry` exactly if its hash and its predecessor are right. -/
theorem entryVerdict_valid_iff (config : AppConfig) {tables : Tables} {row : LedgerEntryRecord}
    (member : row ∈ tables.entries.rows) :
    (∃ output, EntryVerdict config tables row.entryId output ∧
      output.hashValid = true ∧ output.chainLinkValid = true) ↔
      row.HashValid ∧ PredecessorLinked config tables.entries row := by
  have found : tables.query (.getEntry row.entryId) = .ok row :=
    LedgerEntries.getEntry_of_mem member
  obtain ⟨verdict, linkVerdict, linked⟩ := chainLinkValid_evaluate config tables row
  have evaluated : (verifyEntry config row.entryId).run.evaluate tables.query =
      some (.ok (if row.recomputed.isNone then
        { entryId := row.entryId
          hashValid := false
          chainLinkValid := false
          failureReason := "unsupported_hash_version" }
      else
        { entryId := row.entryId
          hashValid := decide (row.recomputed = some row.entryHash)
          chainLinkValid := verdict
          failureReason :=
            if decide (row.recomputed = some row.entryHash) && verdict then ""
            else if !decide (row.recomputed = some row.entryHash) then "entry_hash_mismatch"
            else "chain_link_mismatch" })) := by
    rw [verifyEntry, Program.evaluate_exceptBind, evaluate_ask, found]
    simp only [Except.mapError, Option.bind_some]
    split
    · rfl
    · rw [Program.evaluate_exceptBind, linkVerdict]
      rfl
  simp only [EntryVerdict, evaluated, Option.some.injEq, Except.ok.injEq, exists_eq_left']
  split
  · next unsupported =>
    have invalid : ¬row.HashValid := fun valid => by
      rw [LedgerEntryRecord.HashValid] at valid
      simp [valid] at unsupported
    simp [invalid]
  · simp only [decide_eq_true_eq, linked]
    rfl

/-- No row of the type names its own, correct hash as that of its predecessor. It would be a
fixed point of SHA-256. -/
def NoSelfLink (table : LedgerEntries) (entryType : String) : Prop :=
  ∀ row ∈ table.ofType entryType, row.HashValid → row.previousHash ≠ row.entryHash

/-- Every row of a type passes `verify_entry`. -/
def EntriesValid (config : AppConfig) (table : LedgerEntries) (entryType : String) : Prop :=
  ∀ row ∈ table.ofType entryType, row.HashValid ∧ PredecessorLinked config table row

variable {config : AppConfig} {table : LedgerEntries} {entryType : String}

omit [Sha256] in
/-- The lookup position of `verify_entry`, which wraps around at the bottom of the range. -/
theorem toInt_sub_two (position : Int64) :
    (position - 2).toInt = position.toInt - 2 ∨
      position.toInt < -2 ^ 63 + 2 ∧ (position - 2).toInt = position.toInt - 2 + 2 ^ 64 := by
  have low := position.le_toInt
  have high := position.toInt_lt
  rw [Int64.toInt_sub, show (2 : Int64).toInt = 2 from rfl, Int.bmod]
  omega

/-- The row taken for a predecessor, unless it is the entry itself. -/
theorem EntriesValid.predecessor (valid : EntriesValid config table entryType)
    (noSelfLink : NoSelfLink table entryType) {row : LedgerEntryRecord}
    (member : row ∈ table.chain entryType) (notFirst : row.position ≠ 1) :
    ∃ prev ∈ table.chain entryType, prev.entryHash = row.previousHash ∧
      (prev.position = row.position - 1 ∨
        row.position = -2 ^ 63 ∧ prev.position = 2 ^ 63 - 1) := by
  obtain ⟨inRows, typed⟩ := LedgerEntries.mem_chain.mp member
  have stored := LedgerEntries.mem_ofType.mpr ⟨inRows, typed⟩
  obtain ⟨hashed, linked⟩ := valid row stored
  rw [PredecessorLinked, if_neg fun first => notFirst (congrArg Int64.toInt first), typed] at linked
  obtain ⟨prev, found, link⟩ := linked
  have prevAbove := List.mem_of_mem_head? found
  obtain ⟨prevMember, higher⟩ := List.mem_filter.mp prevAbove
  have distinct : prev.position ≠ row.position := fun same => by
    obtain ⟨prevInRows, prevTyped⟩ := LedgerEntries.mem_chain.mp prevMember
    have itself := LedgerEntries.eq_of_position prevInRows inRows (prevTyped.trans typed.symm)
      (Int64.toInt_inj.mp same)
    exact noSelfLink row stored hashed (itself ▸ link.symm)
  refine ⟨prev, prevMember, link, ?_⟩
  have higher : (row.chainPosition - 2).toInt < prev.position := of_decide_eq_true higher
  have low : -2 ^ 63 ≤ row.position := row.chainPosition.le_toInt
  have high : prev.position < 2 ^ 63 := prev.chainPosition.toInt_lt
  rcases toInt_sub_two row.chainPosition with plain | ⟨bottom, wrapped⟩
  · -- The entry is above its own lookup position, so the first row there is no higher than it.
    have rowAbove : row ∈ table.chainAbove entryType (row.chainPosition - 2) :=
      List.mem_filter.mpr ⟨member, decide_eq_true (by rw [plain]; exact Int.sub_lt_self _ two_pos)⟩
    have ascends : Ascending LedgerEntryRecord.position
        (table.chainAbove entryType (row.chainPosition - 2)) :=
      (table.chain_ascending entryType).filter _
    have lowest : prev.position ≤ row.position := ascends.head?_le found rowAbove
    have bound : row.position - 2 < prev.position := plain ▸ higher
    omega
  · have bound : row.position - 2 + 2 ^ 64 < prev.position := wrapped ▸ higher
    have bottom : row.position < -2 ^ 63 + 2 := bottom
    omega

/-- A chain cannot reach down from the last position, for it would have too many rows. -/
theorem EntriesValid.lt_maxValue (valid : EntriesValid config table entryType)
    (noSelfLink : NoSelfLink table entryType) {row : LedgerEntryRecord}
    (member : row ∈ table.chain entryType) : row.position ≠ 2 ^ 63 - 1 := by
  intro last
  have reaches : ∀ depth : Nat, depth ≤ rowLimit →
      ∃ lower ∈ table.chain entryType, lower.position = 2 ^ 63 - 1 - depth := by
    intro depth
    induction depth with
    | zero => exact fun _ => ⟨row, member, by simpa using last⟩
    | succ depth ih =>
      intro within
      have limit : rowLimit = 2 ^ 43 := rfl
      obtain ⟨upper, upperMember, at_⟩ := ih (by omega)
      obtain ⟨prev, prevMember, -, below | ⟨bottom, -⟩⟩ :=
        valid.predecessor noSelfLink upperMember (by omega)
      · exact ⟨prev, prevMember, by omega⟩
      · omega
  have covered : Finset.Icc (2 ^ 63 - 1 - (rowLimit : Int)) (2 ^ 63 - 1) ⊆
      ((table.chain entryType).map LedgerEntryRecord.position).toFinset := by
    intro position within
    obtain ⟨low, high⟩ := Finset.mem_Icc.mp within
    obtain ⟨lower, lowerMember, at_⟩ := reaches (2 ^ 63 - 1 - position).toNat (by omega)
    exact List.mem_toFinset.mpr (List.mem_map.mpr ⟨lower, lowerMember, by omega⟩)
  have many := (Finset.card_le_card covered).trans (List.toFinset_card_le _)
  rw [Int.card_Icc, List.length_map] at many
  have few := table.length_chain_le entryType
  omega

/-- The row one below an entry is stored, unless the entry is the first of its chain. -/
theorem EntriesValid.below (valid : EntriesValid config table entryType)
    (noSelfLink : NoSelfLink table entryType) {row : LedgerEntryRecord}
    (member : row ∈ table.chain entryType) (notFirst : row.position ≠ 1) :
    ∃ prev ∈ table.chain entryType, prev.entryHash = row.previousHash ∧
      prev.position = row.position - 1 := by
  obtain ⟨prev, prevMember, link, below | ⟨-, last⟩⟩ :=
    valid.predecessor noSelfLink member notFirst
  · exact ⟨prev, prevMember, link, below⟩
  · exact absurd last (valid.lt_maxValue noSelfLink prevMember)

/-- Entries that pass one by one form a chain without gaps, linked from genesis. -/
theorem EntriesValid.of_prefix (valid : EntriesValid config table entryType)
    (noSelfLink : NoSelfLink table entryType) {front : List LedgerEntryRecord}
    (part : front <+: table.chain entryType) :
    front.map LedgerEntryRecord.position = positions front.length ∧
      LinkedEntries config.genesisHash front := by
  induction front using List.reverseRecOn with
  | nil => exact ⟨rfl, trivial⟩
  | append_singleton before row ih =>
    obtain ⟨contiguous, linked⟩ := ih ((List.prefix_append _ _).trans part)
    have member : row ∈ table.chain entryType := part.subset (by simp)
    obtain ⟨rest, split⟩ := part
    rw [List.append_assoc, List.singleton_append] at split
    have ascends := table.chain_ascending entryType
    rw [← split] at ascends
    have earlier : ∀ prev ∈ table.chain entryType, prev.position < row.position → prev ∈ before :=
      fun prev prevMember below => ascends.mem_before (split ▸ prevMember) below
    -- The entry takes the next position and links to the last row before it.
    suffices next : row.position = before.length + 1 ∧
        row.previousHash = lastHash LedgerEntryRecord.entryHash config.genesisHash before by
      refine ⟨?_, linked_concat.mpr ⟨linked, next.2⟩⟩
      rw [List.map_append, contiguous, List.length_append, List.length_singleton, positions_succ,
        List.map_singleton, next.1]
    rcases List.eq_nil_or_concat before with rfl | ⟨start, last, rfl⟩
    · by_cases first : row.position = 1
      · obtain ⟨inRows, typed⟩ := LedgerEntries.mem_chain.mp member
        obtain ⟨-, link⟩ := valid row (LedgerEntries.mem_ofType.mpr ⟨inRows, typed⟩)
        rw [PredecessorLinked, if_pos (Int64.toInt_inj.mp first)] at link
        exact ⟨by simpa using first, link⟩
      · obtain ⟨prev, prevMember, -, below⟩ := valid.below noSelfLink member first
        exact absurd (earlier prev prevMember (by omega)) (List.not_mem_nil)
    · rw [List.concat_eq_append] at *
      have ends : last.position = start.length + 1 := position_of_split contiguous
      obtain ⟨-, -, lower⟩ := List.pairwise_append.mp ascends
      have above : last.position < row.position := lower last (by simp) row (by simp)
      obtain ⟨prev, prevMember, link, below⟩ := valid.below noSelfLink member (by omega)
      have prevBefore := earlier prev prevMember (by omega)
      have listed : prev.position ∈ positions (start ++ [last]).length := by
        rw [← contiguous]
        exact List.mem_map_of_mem prevBefore
      have highest := (mem_positions.mp listed).2
      rw [List.length_append, List.length_singleton] at highest ⊢
      have same : prev = last := by
        obtain ⟨inRows, typed⟩ := LedgerEntries.mem_chain.mp prevMember
        obtain ⟨lastInRows, lastTyped⟩ := LedgerEntries.mem_chain.mp
          (show last ∈ table.chain entryType by rw [← split]; simp)
        refine LedgerEntries.eq_of_position inRows lastInRows (typed.trans lastTyped.symm)
          (Int64.toInt_inj.mp ?_)
        change prev.position = last.position
        omega
      refine ⟨by omega, ?_⟩
      rw [lastHash_append, lastHash_cons, lastHash_nil, ← same, link]

/-- In a chain without gaps, an entry's predecessor by position is its predecessor in order. -/
theorem Sound.entriesValid (sound : Sound config.genesisHash table entryType)
    (contiguous : Contiguous table entryType) : EntriesValid config table entryType := by
  intro row stored
  obtain ⟨linked, hashed⟩ := sound
  rw [contiguous.audited_eq] at linked hashed
  have member : row ∈ table.chain entryType :=
    LedgerEntries.mem_chain.mpr (LedgerEntries.mem_ofType.mp stored)
  refine ⟨hashed row member, ?_⟩
  obtain ⟨before, rest, split⟩ := List.append_of_mem member
  have counted : (before ++ row :: rest).map LedgerEntryRecord.position =
      positions (table.chain entryType).length := by
    rw [← split]
    exact contiguous
  have at_ := position_of_split counted
  have link : row.previousHash =
      lastHash LedgerEntryRecord.entryHash config.genesisHash before := by
    rw [split] at linked
    exact (linked_append.mp linked).2.1
  have typed := (LedgerEntries.mem_ofType.mp stored).2
  rcases List.eq_nil_or_concat before with rfl | ⟨start, last, rfl⟩
  · rw [PredecessorLinked, if_pos (Int64.toInt_inj.mp at_), link]
    rfl
  · rw [List.concat_eq_append] at *
    rw [List.append_assoc, List.singleton_append] at counted split
    have ends : last.position = start.length + 1 := position_of_split counted
    rw [List.length_append, List.length_singleton] at at_
    have notFirst : row.chainPosition ≠ 1 := fun first => by
      have one : row.position = 1 := congrArg Int64.toInt first
      omega
    have lookup : (row.chainPosition - 2).toInt = row.position - 2 :=
      (toInt_sub_two row.chainPosition).resolve_right fun ⟨bottom, _⟩ => by
        have bottom : row.position < -2 ^ 63 + 2 := bottom
        omega
    have ascends := table.chain_ascending entryType
    rw [split] at ascends
    obtain ⟨-, -, lower⟩ := List.pairwise_append.mp ascends
    have skipped : above LedgerEntryRecord.position (row.position - 2) start = [] :=
      List.filter_eq_nil_iff.mpr fun earlier early => by
        have below : earlier.position < last.position := lower earlier early last (by simp)
        simp only [decide_eq_true_eq]
        omega
    have kept : row.position - 2 < last.position := by omega
    have found : (above LedgerEntryRecord.position (row.position - 2)
        (start ++ last :: row :: rest)).head? = some last := by
      rw [above, List.filter_append, ← above, skipped]
      simp [kept]
    rw [PredecessorLinked, if_neg notFirst, typed, LedgerEntries.chainAbove, lookup, split]
    refine ⟨last, found, ?_⟩
    rw [link, lastHash_append, lastHash_cons, lastHash_nil]

theorem entriesValid_iff (noSelfLink : NoSelfLink table entryType) :
    EntriesValid config table entryType ↔
      Contiguous table entryType ∧ Sound config.genesisHash table entryType := by
  constructor
  · intro valid
    obtain ⟨contiguous, linked⟩ := valid.of_prefix noSelfLink (List.prefix_refl _)
    have contiguous : Contiguous table entryType := contiguous
    refine ⟨contiguous, ?_, fun row member => ?_⟩
    · rw [contiguous.audited_eq]
      exact linked
    · rw [contiguous.audited_eq, LedgerEntries.mem_chain, ← LedgerEntries.mem_ofType] at member
      exact (valid row member).1
  · rintro ⟨contiguous, sound⟩
    exact sound.entriesValid contiguous

theorem exists_fullAudit_valid_iff {tables : Tables} :
    (∃ output, FullAudit config tables entryType output ∧ output.chainValid = true) ↔
      Sound config.genesisHash tables.entries entryType := by
  constructor
  · rintro ⟨output, audit, valid⟩
    exact (fullAudit_valid_iff audit).mp valid
  · intro sound
    obtain ⟨output, audit⟩ := fullAudit_exists config tables entryType
    exact ⟨output, audit, (fullAudit_valid_iff audit).mpr sound⟩

theorem forall_entryVerdict_valid_iff {tables : Tables} :
    (∀ row ∈ tables.entries.ofType entryType, ∃ output,
      EntryVerdict config tables row.entryId output ∧
        output.hashValid = true ∧ output.chainLinkValid = true) ↔
      EntriesValid config tables.entries entryType :=
  forall₂_congr fun _ member => entryVerdict_valid_iff config (LedgerEntries.mem_ofType.mp member).1

/-- The two verifiers agree on a chain exactly where a full audit can be trusted to have seen
all of it. -/
theorem verifiers_agree_iff (config : AppConfig) (tables : Tables) (entryType : String)
    (noSelfLink : NoSelfLink tables.entries entryType) :
    ((∃ output, FullAudit config tables entryType output ∧ output.chainValid = true) ↔
      ∀ row ∈ tables.entries.ofType entryType, ∃ output,
        EntryVerdict config tables row.entryId output ∧
          output.hashValid = true ∧ output.chainLinkValid = true) ↔
      Contiguous tables.entries entryType ∨ ¬Sound config.genesisHash tables.entries entryType := by
  rw [exists_fullAudit_valid_iff, forall_entryVerdict_valid_iff, entriesValid_iff noSelfLink]
  tauto

end

namespace Sample

variable [Sha256]

/-- A correctly hashed entry at position zero that links to nothing. -/
def hidden : Tables where
  entries :=
    { rows := [entry 1 "" 0]
      uniqueEntryId := List.nodup_singleton _
      uniqueTypePosition := List.nodup_singleton _
      uniqueIdempotencyKey := noKeys
      bounded := oneRow }
  outbox := .empty

theorem hidden_chain : hidden.entries.chain "audit.event" = hidden.entries.rows :=
  LedgerEntries.chain_of_ascending (by simp [hidden]) (by simp [hidden, Ascending])

theorem hidden_sound : Sound config.genesisHash hidden.entries "audit.event" := by
  have nothing : hidden.entries.audited "audit.event" = [] := by
    rw [LedgerEntries.audited, LedgerEntries.chainAbove, hidden_chain]
    exact List.filter_eq_nil_iff.mpr (by simp [hidden])
  refine ⟨?_, ?_⟩
  · rw [nothing]
    trivial
  · rw [nothing]
    exact fun _ member => absurd member List.not_mem_nil

theorem hidden_noSelfLink : NoSelfLink hidden.entries "audit.event" := by
  intro row member _
  obtain rfl : row = entry 1 "" 0 := by
    simpa [hidden] using (LedgerEntries.mem_ofType.mp member).1
  exact (sha256Hex_ne_empty _).symm

theorem hidden_not_contiguous : ¬Contiguous hidden.entries "audit.event" := by
  rw [Contiguous, hidden_chain]
  exact show ¬[(0 : Int64).toInt] = positions 1 by decide

end Sample

/-- The hypothesis holds of a content on which the verifiers disagree. -/
theorem verifiers_agree_hidden :
    letI := Fips180.sha256
    ((∃ output, FullAudit Sample.config Sample.hidden "audit.event" output ∧
        output.chainValid = true) ↔
      ∀ row ∈ Sample.hidden.entries.ofType "audit.event", ∃ output,
        EntryVerdict Sample.config Sample.hidden row.entryId output ∧
          output.hashValid = true ∧ output.chainLinkValid = true) ↔
      Contiguous Sample.hidden.entries "audit.event" ∨
        ¬Sound Sample.config.genesisHash Sample.hidden.entries "audit.event" :=
  @verifiers_agree_iff Fips180.sha256 _ _ _ (@Sample.hidden_noSelfLink Fips180.sha256)

/-- A full audit passes over the entry at position zero, and `verify_entry` rejects it. -/
theorem verifiers_disagree_on_hidden :
    letI := Fips180.sha256
    ¬((∃ output, FullAudit Sample.config Sample.hidden "audit.event" output ∧
        output.chainValid = true) ↔
      ∀ row ∈ Sample.hidden.entries.ofType "audit.event", ∃ output,
        EntryVerdict Sample.config Sample.hidden row.entryId output ∧
          output.hashValid = true ∧ output.chainLinkValid = true) := by
  let := Fips180.sha256
  rw [exists_fullAudit_valid_iff, forall_entryVerdict_valid_iff,
    entriesValid_iff Sample.hidden_noSelfLink]
  exact fun agree => Sample.hidden_not_contiguous (agree.mp Sample.hidden_sound).1

end ImmutableLedger
