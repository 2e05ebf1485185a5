import ImmutableLedger.Audit.Segments

/-! Entries whose predecessor is gone.

Both verifiers look for a predecessor among the rows above the position two below an entry. The
entry is one of these rows, so there is always a first one, and without the row in between it is
the entry itself.
-/

set_option autoImplicit false

namespace ImmutableLedger

open Concurrency Query Chain

/-- The answer of `verify_chain` for a predecessor that is not there. -/
def predecessorNotFound : VerifyChainOutput where
  chainValid := false
  entriesChecked := 0
  firstInvalidEntryId := none
  failureReason := "predecessor_not_found"

/-- The row that both verifiers take for the predecessor of an entry. -/
def TakenForPredecessor (answers : (request : ReadRequest) → request.Reply)
    (entry row : LedgerEntryRecord) : Prop :=
  ∃ rest, answers (.getEntriesByTypePaged entry.entryType (entry.chainPosition - 2) 1) =
    .ok (row :: rest)

/-- No row has the position below that of a row which is not the first. -/
structure GapBelow (rows : List LedgerEntryRecord) (entry : LedgerEntryRecord) : Prop where
  notFirst : 2 ≤ entry.position
  missing : ∀ row ∈ rows, row.position + 1 ≠ entry.position

section

variable [Sha256]

/-- A missing predecessor is reported as such, and no other row takes its place. -/
structure ReportsMissing (config : AppConfig) (answers : (request : ReadRequest) → request.Reply)
    (entryType : String) (entry : LedgerEntryRecord) : Prop where
  verifyChain : ∀ (endEntryId : Option Uuid) (endPosition : Int64),
    BoundAt answers entryType Int64.maxValue endPosition endEntryId →
      entry.chainPosition ≤ endPosition →
        ChainVerdict config answers entryType (some entry.entryId) endEntryId predecessorNotFound
  predecessor : ∀ row, TakenForPredecessor answers entry row → row.position + 1 = entry.position

/-- What becomes of an entry that is taken for its own predecessor. -/
structure FollowsItself (config : AppConfig) (answers : (request : ReadRequest) → request.Reply)
    (entryType : String) (rows : List LedgerEntryRecord) (entry : LedgerEntryRecord) : Prop where
  predecessor : ∀ row, TakenForPredecessor answers entry row ↔ row = entry
  chainLinkValid : (chainLinkValid config entry).run.evaluate answers =
    some (.ok (decide (entry.entryHash = entry.previousHash)))
  verifyChain : ∀ (endEntryId : Option Uuid) (endPosition : Int64),
    BoundAt answers entryType Int64.maxValue endPosition endEntryId →
      entry.chainPosition ≤ endPosition →
        ChainVerdict config answers entryType (some entry.entryId) endEntryId
          (singlePass entry.entryHash 0 (between rows entry.chainPosition endPosition))

/-- A pass has its own reasons. -/
theorem singlePass_failureReason (prevHash : String) (passed : Nat) (rows : List LedgerEntryRecord) :
    (singlePass prevHash passed rows).failureReason ≠ "predecessor_not_found" := by
  induction rows generalizing prevHash passed with
  | nil => simp [singlePass]
  | cons row rest ih =>
    unfold singlePass
    split
    · exact ih _ _
    · unfold failureReason
      split
      · simp
      · split
        · simp
        · simp

variable {config : AppConfig} {answers : (request : ReadRequest) → request.Reply}
  {entryType : String} {rows : List LedgerEntryRecord} {entry : LedgerEntryRecord}

omit [Sha256] in
/-- Above the gap the entry is the first row. -/
theorem GapBelow.lowest (gap : GapBelow rows entry) (pages : Pages answers entryType rows)
    (member : entry ∈ rows) :
    (above LedgerEntryRecord.position (entry.position - 2) rows).head? = some entry := by
  apply pages.ascends.head?_above member
  · omega
  · intro other another reached
    have elsewhere := gap.missing other another
    omega

omit [Sha256] in
theorem GapBelow.page (gap : GapBelow rows entry) (pages : Pages answers entryType rows)
    (stored : StoredIn answers entryType entry) :
    answers (.getEntriesByTypePaged entry.entryType (entry.chainPosition - 2) 1) = .ok [entry] := by
  have member := pages.found _ entry stored.found stored.typed
  have room : -2 ^ 62 < entry.chainPosition.toInt := by
    have notFirst := gap.notFirst
    change -2 ^ 62 < entry.position
    omega
  obtain ⟨rest, listed⟩ := List.head?_eq_some_iff.mp (gap.lowest pages member)
  rw [stored.typed, pages.page _ _ (by decide), toInt_sub room (by decide)]
  change Except.ok (List.take 1 (above LedgerEntryRecord.position (entry.position - 2) rows)) = _
  rw [listed]
  rfl

omit [Sha256] in
theorem GapBelow.ne_one (gap : GapBelow rows entry) : entry.chainPosition ≠ 1 := by
  intro first
  have one : entry.position = 1 := congrArg Int64.toInt first
  have notFirst := gap.notFirst
  omega

theorem GapBelow.followsItself (gap : GapBelow rows entry) (pages : Pages answers entryType rows)
    (stored : StoredIn answers entryType entry) :
    FollowsItself config answers entryType rows entry := by
  have page := gap.page pages stored
  constructor
  · intro row
    unfold TakenForPredecessor
    rw [page]
    constructor
    · rintro ⟨rest, same⟩
      exact (List.cons.inj (Except.ok.inj same)).1.symm
    · rintro rfl
      exact ⟨[], rfl⟩
  · rw [ImmutableLedger.chainLinkValid, if_neg gap.ne_one, Program.evaluate_exceptBind, evaluate_ask,
      page]
    rfl
  · intro endEntryId endPosition ends ordered
    have room : -2 ^ 62 < entry.chainPosition.toInt := by
      have notFirst := gap.notFirst
      change -2 ^ 62 < entry.position
      omega
    have member := pages.found _ entry stored.found stored.typed
    have starting : (startingHash config entryType entry.chainPosition).run.evaluate answers =
        some (.ok (some entry.entryHash)) := by
      rw [startingHash_lookup pages room gap.ne_one, gap.lowest pages member]
      rfl
    exact verifyChain_returns_iff pages room ⟨entry, stored.found, stored.typed, rfl⟩ ends ordered
      starting

theorem FollowsItself.not_reportsMissing
    (follows : FollowsItself config answers entryType rows entry) :
    ¬ReportsMissing config answers entryType entry := by
  intro reports
  -- An entry is not one below itself.
  have itself := reports.predecessor entry ((follows.predecessor entry).mpr rfl)
  omega

theorem FollowsItself.not_predecessorNotFound
    (follows : FollowsItself config answers entryType rows entry) {endEntryId : Option Uuid}
    {endPosition : Int64} (ends : BoundAt answers entryType Int64.maxValue endPosition endEntryId)
    (ordered : entry.chainPosition ≤ endPosition) :
    ¬ChainVerdict config answers entryType (some entry.entryId) endEntryId predecessorNotFound := by
  intro missing
  have returned := (follows.verifyChain endEntryId endPosition ends ordered _).mp
    ((missing _).mpr rfl)
  have same := congrArg VerifyChainOutput.failureReason (Except.ok.inj returned)
  exact singlePass_failureReason _ _ _ same.symm

/-- Above no gap is the missing predecessor reported, wherever the verification may end. -/
def Unreported (config : AppConfig) (answers : (request : ReadRequest) → request.Reply)
    (entryType : String) (rows : List LedgerEntryRecord) : Prop :=
  ∀ entry, StoredIn answers entryType entry → GapBelow rows entry →
    ¬ReportsMissing config answers entryType entry ∧
      FollowsItself config answers entryType rows entry ∧
        ∀ (endEntryId : Option Uuid) (endPosition : Int64),
          BoundAt answers entryType Int64.maxValue endPosition endEntryId →
            entry.chainPosition ≤ endPosition →
              ¬ChainVerdict config answers entryType (some entry.entryId) endEntryId
                predecessorNotFound

theorem Pages.unreported (pages : Pages answers entryType rows) :
    Unreported config answers entryType rows := by
  intro entry stored gap
  have follows : FollowsItself config answers entryType rows entry :=
    gap.followsItself pages stored
  refine ⟨follows.not_reportsMissing, follows, ?_⟩
  intro endEntryId endPosition ends ordered
  exact follows.not_predecessorNotFound ends ordered

/-- Whatever else is stored, the missing predecessor of an entry is never reported, and both
verifiers take the entry for it. -/
theorem missingPredecessor_unreported (config : AppConfig) (entryType : String) :
    (∀ tables : Tables,
      Unreported config tables.query entryType (tables.entries.chain entryType)) ∧
    ∀ store : InMemory, store.Indexed →
      Ascending LedgerEntryRecord.position (store.chain entryType) →
        Unreported config store.query entryType (store.chain entryType) := by
  constructor
  · intro tables
    exact (tables.pages entryType).unreported
  · intro store indexed ascends
    exact (InMemory.pages indexed ascends).unreported

end

namespace Sample

variable [Sha256]

/-- The entry above the gap of `gapped`. -/
def orphan : LedgerEntryRecord := entry 3 (entry 1 config.genesisHash 1).entryHash 3

theorem orphan_stored : StoredIn gapped.query "audit.event" orphan where
  found := LedgerEntries.getEntry_of_mem (List.mem_pair.mpr (.inr rfl))
  typed := rfl

theorem orphan_gap : GapBelow (gapped.entries.chain "audit.event") orphan where
  notFirst := show 2 ≤ (3 : Int64).toInt by decide
  missing := by
    intro row member
    rw [gapped_chain] at member
    rcases List.mem_pair.mp member with rfl | rfl
    · exact show (1 : Int64).toInt + 1 ≠ (3 : Int64).toInt by decide
    · exact show (3 : Int64).toInt + 1 ≠ (3 : Int64).toInt by decide

end Sample

/-- The second of three entries is gone, and the third is taken for its own predecessor. -/
theorem missingPredecessor_orphan :
    letI := Fips180.sha256
    ¬(GapBelow (Sample.gapped.entries.chain "audit.event") Sample.orphan →
      ReportsMissing Sample.config Sample.gapped.query "audit.event" Sample.orphan) := by
  let := Fips180.sha256
  intro reported
  have follows : FollowsItself Sample.config Sample.gapped.query "audit.event" _ Sample.orphan :=
    Sample.orphan_gap.followsItself (Sample.gapped.pages "audit.event") Sample.orphan_stored
  exact follows.not_reportsMissing (reported Sample.orphan_gap)

/-- What is found below that entry, by the general result. -/
theorem missingPredecessor_unreported_orphan :
    letI := Fips180.sha256
    ¬ReportsMissing Sample.config Sample.gapped.query "audit.event" Sample.orphan ∧
      FollowsItself Sample.config Sample.gapped.query "audit.event"
        (Sample.gapped.entries.chain "audit.event") Sample.orphan := by
  let := Fips180.sha256
  have unreported := (missingPredecessor_unreported Sample.config "audit.event").1 Sample.gapped
    Sample.orphan Sample.orphan_stored Sample.orphan_gap
  exact ⟨unreported.1, unreported.2.1⟩

end ImmutableLedger
