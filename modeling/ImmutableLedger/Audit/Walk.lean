import ImmutableLedger.Chain.Linked
import ImmutableLedger.Repository.Postgres
import ImmutableLedger.Service.Verify

/-! `verify_chain` over a content that does not change.

The pages the walk reads are consecutive pieces of the chain, so the walk ends and returns
what a single pass over the rows above its starting position returns.
-/

set_option autoImplicit false

namespace ImmutableLedger

open Concurrency Query Chain

variable [Sha256]

abbrev LedgerEntryRecord.position (row : LedgerEntryRecord) : Int := row.chainPosition.toInt

/-- Rows that follow each other by their hashes. -/
abbrev LinkedEntries (genesis : String) (rows : List LedgerEntryRecord) : Prop :=
  Linked LedgerEntryRecord.previousHash LedgerEntryRecord.entryHash genesis rows

omit [Sha256] in
@[simp] theorem evaluate_ask (answers : (request : ReadRequest) → request.Reply)
    (request : ReadRequest) :
    (ask request).run.evaluate answers = some ((answers request).mapError mapRepo) := rfl

/-! A single pass. -/

def Cursor.after (cursor : Cursor) (rows : List LedgerEntryRecord) : Cursor :=
  rows.foldl Cursor.next cursor

def outcome (endPosition : Int64) (cursor : Cursor) (rows : List LedgerEntryRecord) :
    VerifyChainOutput :=
  match checkBatch endPosition cursor rows with
  | .error output => output
  | .ok cursor => cursor.passed

omit [Sha256] in
theorem Cursor.entriesChecked_after (cursor : Cursor) (rows : List LedgerEntryRecord) :
    (cursor.after rows).entriesChecked = cursor.entriesChecked + rows.length := by
  induction rows generalizing cursor with
  | nil => rfl
  | cons row rest ih =>
    have stepped : (cursor.after (row :: rest)).entriesChecked =
        cursor.entriesChecked + 1 + rest.length := ih (cursor.next row)
    rw [stepped, List.length_cons]
    omega

omit [Sha256] in
theorem Cursor.afterPosition_concat (cursor : Cursor) (rows : List LedgerEntryRecord)
    (last : LedgerEntryRecord) : (cursor.after (rows ++ [last])).afterPosition = last.chainPosition := by
  simp [after, next]

theorem checkEntry_ok_iff {endPosition : Int64} {cursor moved : Cursor} {entry : LedgerEntryRecord} :
    checkEntry endPosition cursor entry = .ok moved ↔
      entry.position ≤ endPosition.toInt ∧ entry.previousHash = cursor.prevHash ∧
        entry.HashValid ∧ moved = cursor.next entry := by
  unfold checkEntry
  split_ifs with beyond unlinked invalid
  · rw [Int64.lt_iff_toInt_lt] at beyond
    simp [not_le_of_gt beyond]
  · simp [unlinked]
  · simp [LedgerEntryRecord.HashValid, invalid]
  · rw [Int64.lt_iff_toInt_lt, not_lt] at beyond
    simp only [ne_eq, not_not] at unlinked invalid
    simp [beyond, unlinked, LedgerEntryRecord.HashValid, invalid, eq_comm]

/-- A batch is passed exactly if its rows are linked and correctly hashed. -/
theorem checkBatch_ok_iff {endPosition : Int64} {cursor moved : Cursor}
    {rows : List LedgerEntryRecord} :
    checkBatch endPosition cursor rows = .ok moved ↔
      (∀ row ∈ rows, row.position ≤ endPosition.toInt) ∧ LinkedEntries cursor.prevHash rows ∧
        (∀ row ∈ rows, row.HashValid) ∧ moved = cursor.after rows := by
  induction rows generalizing cursor with
  | nil => simp [checkBatch, Cursor.after, pure, Except.pure, eq_comm]
  | cons row rest ih =>
    have unfolded : checkBatch endPosition cursor (row :: rest) =
        checkEntry endPosition cursor row >>= fun moved => checkBatch endPosition moved rest :=
      List.foldlM_cons
    rw [unfolded]
    rcases checked : checkEntry endPosition cursor row with output | stepped
    · have stopped : ¬(row.position ≤ endPosition.toInt ∧ row.previousHash = cursor.prevHash ∧
          row.HashValid) := by
        rintro ⟨within, linked, valid⟩
        have passed := checkEntry_ok_iff.mpr ⟨within, linked, valid, rfl⟩
        rw [checked] at passed
        contradiction
      simp only [bind, Except.bind, reduceCtorEq, List.forall_mem_cons, linked_cons, false_iff]
      rintro ⟨⟨within, -⟩, ⟨linked, -⟩, ⟨valid, -⟩, -⟩
      exact stopped ⟨within, linked, valid⟩
    · obtain ⟨within, linked, valid, rfl⟩ := checkEntry_ok_iff.mp checked
      simp only [bind, Except.bind, List.forall_mem_cons, linked_cons, within, linked, valid,
        true_and]
      exact ih

/-- Within the end position, a walk stops only at a row it rejects. -/
theorem checkEntry_error {endPosition : Int64} {cursor : Cursor} {entry : LedgerEntryRecord}
    {output : VerifyChainOutput} (within : entry.position ≤ endPosition.toInt)
    (stopped : checkEntry endPosition cursor entry = .error output) : output.chainValid = false := by
  rw [← not_lt, ← Int64.lt_iff_toInt_lt] at within
  unfold checkEntry at stopped
  rw [if_neg within] at stopped
  split_ifs at stopped <;> cases stopped <;> rfl

theorem checkBatch_error {endPosition : Int64} {cursor : Cursor} {rows : List LedgerEntryRecord}
    {output : VerifyChainOutput} (within : ∀ row ∈ rows, row.position ≤ endPosition.toInt)
    (stopped : checkBatch endPosition cursor rows = .error output) : output.chainValid = false := by
  induction rows generalizing cursor with
  | nil => cases stopped
  | cons row rest ih =>
    obtain ⟨here, later⟩ := List.forall_mem_cons.mp within
    rw [checkBatch, List.foldlM_cons] at stopped
    rcases checked : checkEntry endPosition cursor row with rejected | moved
    · rw [checked] at stopped
      cases stopped
      exact checkEntry_error here checked
    · rw [checked] at stopped
      exact ih later stopped

theorem checkBatch_append (endPosition : Int64) (cursor : Cursor)
    (first second : List LedgerEntryRecord) :
    checkBatch endPosition cursor (first ++ second) =
      checkBatch endPosition cursor first >>= fun moved => checkBatch endPosition moved second :=
  List.foldlM_append

/-! The walk as a whole. -/

/-- The rows of a type above a position, in order. -/
def LedgerEntries.chainAbove (table : LedgerEntries) (entryType : String) (position : Int64) :
    List LedgerEntryRecord :=
  above LedgerEntryRecord.position position.toInt (table.chain entryType)

/-- The pages of a chain are consecutive pieces of its rows, and what is found by identifier and is
of the type is one of them. -/
structure Pages (answers : (request : ReadRequest) → request.Reply) (entryType : String)
    (rows : List LedgerEntryRecord) : Prop where
  ascends : Ascending LedgerEntryRecord.position rows
  page : ∀ afterPosition limit : Int64, 0 < limit →
    answers (.getEntriesByTypePaged entryType afterPosition limit) =
      .ok ((above LedgerEntryRecord.position afterPosition.toInt rows).take limit.toInt.toNat)
  found : ∀ id (entry : LedgerEntryRecord), answers (.getEntry id) = .ok entry →
    entry.entryType = entryType → entry ∈ rows

omit [Sha256] in
theorem Tables.pages (tables : Tables) (entryType : String) :
    Pages tables.query entryType (tables.entries.chain entryType) := by
  constructor
  · exact tables.entries.chain_ascending entryType
  · intro afterPosition limit positive
    have notNegative : ¬limit < 0 := by
      rw [Int64.lt_iff_toInt_lt] at positive ⊢
      exact not_lt_of_gt positive
    rw [Tables.query, LedgerEntries.page_eq, if_neg notNegative]
    rfl
  · intro id entry found typed
    have listed : requireRow (tables.entries.rows.find? fun row => decide (row.entryId = id)) =
        .ok entry := (tables.entries.getEntry_eq id).symm.trans found
    refine LedgerEntries.mem_chain.mpr ⟨?_, typed⟩
    cases selected : tables.entries.rows.find? fun row => decide (row.entryId = id) with
    | none =>
      rw [selected] at listed
      cases listed
    | some row =>
      rw [selected] at listed
      obtain rfl := Except.ok.inj listed
      exact List.mem_of_find?_eq_some selected

section

variable {answers : (request : ReadRequest) → request.Reply} {entryType : String}
  {rows : List LedgerEntryRecord}

omit [Sha256] in
/-- Past a page, the rows above its last row are those it left out. -/
theorem above_pageEnd (ascends : Ascending LedgerEntryRecord.position rows) (position : Int)
    (before rest : List LedgerEntryRecord) (last : LedgerEntryRecord)
    (split : above LedgerEntryRecord.position position rows = before ++ last :: rest) :
    above LedgerEntryRecord.position last.position rows = rest := by
  have member : last ∈ above LedgerEntryRecord.position position rows := by rw [split]; simp
  have higher : position ≤ last.position :=
    le_of_lt (of_decide_eq_true (List.mem_filter.mp member).2)
  rw [← above_above higher]
  exact (ascends.filter _).above_last before last rest split

theorem walk_succ_evaluate (pages : Pages answers entryType rows) (endPosition : Int64)
    (bound : Nat) (cursor : Cursor) :
    (walk entryType endPosition (bound + 1) cursor).run.evaluate answers =
      let batch := (above LedgerEntryRecord.position cursor.afterPosition.toInt rows).take 50
      if batch.isEmpty then some (.ok cursor.passed)
      else match checkBatch endPosition cursor batch with
        | .error output => some (.ok output)
        | .ok moved =>
          if batch.length < 50 then some (.ok moved.passed)
          else (walk entryType endPosition bound moved).run.evaluate answers := by
  rw [walk, Program.evaluate_exceptBind, evaluate_ask, pages.page _ _ (by decide),
    show batchSize.toInt.toNat = 50 from rfl]
  generalize (above LedgerEntryRecord.position cursor.afterPosition.toInt rows).take 50 = batch
  have full : (batch.length : Int) < batchSize.toInt ↔ batch.length < 50 := by
    rw [show batchSize.toInt = 50 from rfl]
    omega
  simp only [Except.mapError, Option.bind_some, full]
  split
  · rfl
  · cases checkBatch endPosition cursor batch with
    | error output => rfl
    | ok moved =>
      dsimp only
      split <;> rfl

/-- Whatever the bound, the walk returns the outcome of a single pass or is cut off, and it is
cut off only by a bound below the number of rows. -/
theorem walk_evaluate (pages : Pages answers entryType rows) (endPosition : Int64) (bound : Nat)
    (cursor : Cursor) {ahead : List LedgerEntryRecord}
    (remaining : above LedgerEntryRecord.position cursor.afterPosition.toInt rows = ahead) :
    (walk entryType endPosition bound cursor).run.evaluate answers =
        some (.ok (outcome endPosition cursor ahead)) ∨
      bound ≤ ahead.length ∧
        (walk entryType endPosition bound cursor).run.evaluate answers = none := by
  induction bound generalizing cursor ahead with
  | zero => exact .inr ⟨Nat.zero_le _, rfl⟩
  | succ bound ih =>
    simp only [walk_succ_evaluate pages, remaining]
    rcases List.eq_nil_or_concat (ahead.take 50) with none | ⟨front, last, page⟩
    · obtain rfl : ahead = [] := by simpa using none
      exact .inl rfl
    rw [List.concat_eq_append] at page
    have whole : ahead = (front ++ [last]) ++ ahead.drop 50 := by
      rw [← page, List.take_append_drop]
    rw [if_neg (by simp [page]), page]
    have passes : outcome endPosition cursor ahead =
        match checkBatch endPosition cursor (front ++ [last]) with
        | .error output => output
        | .ok moved => outcome endPosition moved (ahead.drop 50) := by
      rw [outcome, whole, checkBatch_append, ← whole]
      cases checkBatch endPosition cursor (front ++ [last]) <;> rfl
    rw [passes]
    rcases checked : checkBatch endPosition cursor (front ++ [last]) with output | moved
    · exact .inl rfl
    dsimp only
    split
    · next short =>
      -- A short page is the last one.
      have done : ahead.drop 50 = [] := by
        rw [← page, List.length_take] at short
        exact List.drop_eq_nil_of_le (by omega)
      rw [done]
      exact .inl rfl
    · next full =>
      obtain ⟨-, -, -, rfl⟩ := checkBatch_ok_iff.mp checked
      have onward : above LedgerEntryRecord.position
          (cursor.after (front ++ [last])).afterPosition.toInt rows = ahead.drop 50 := by
        rw [Cursor.afterPosition_concat]
        exact above_pageEnd pages.ascends _ front _ last
          (remaining.trans (whole.trans (List.append_assoc _ _ _)))
      have longer : 50 ≤ ahead.length := by
        rw [← page, List.length_take] at full
        omega
      refine (ih _ onward).imp_right fun ⟨cut, nothing⟩ => ⟨?_, nothing⟩
      rw [List.length_drop] at cut
      omega

/-- The walk ends, and with the outcome of a single pass over what is above its cursor. -/
theorem walk_returns_iff (pages : Pages answers entryType rows) (endPosition : Int64)
    (cursor : Cursor) (value : Except ServiceError VerifyChainOutput) :
    Program.Returns answers (fun bound => (walk entryType endPosition bound cursor).run) value ↔
      value = .ok (outcome endPosition cursor
        (above LedgerEntryRecord.position cursor.afterPosition.toInt rows)) := by
  generalize remaining : above LedgerEntryRecord.position cursor.afterPosition.toInt rows = ahead
  constructor
  · rintro ⟨bound, returned⟩
    rcases walk_evaluate pages endPosition bound cursor remaining with found | ⟨-, nothing⟩
    · rw [found] at returned
      exact (Option.some.inj returned).symm
    · rw [nothing] at returned
      contradiction
  · rintro rfl
    refine ⟨ahead.length + 1, ?_⟩
    refine (walk_evaluate pages endPosition _ cursor remaining).resolve_right fun ⟨cut, _⟩ => ?_
    omega

end

/-! A full audit. -/

/-- The rows a full audit looks at. -/
def LedgerEntries.audited (table : LedgerEntries) (entryType : String) : List LedgerEntryRecord :=
  table.chainAbove entryType 0

omit [Sha256] in
theorem LedgerEntries.mem_audited {table : LedgerEntries} {entryType : String}
    {row : LedgerEntryRecord} :
    row ∈ table.audited entryType ↔ row ∈ table.ofType entryType ∧ 1 ≤ row.position := by
  have positive : (0 : Int64).toInt < row.position ↔ 1 ≤ row.position := Iff.rfl
  rw [audited, chainAbove, above, List.mem_filter, decide_eq_true_eq, positive, mem_chain,
    mem_ofType]

omit [Sha256] in
theorem LedgerEntries.audited_ascending (table : LedgerEntries) (entryType : String) :
    Ascending LedgerEntryRecord.position (table.audited entryType) :=
  (table.chain_ascending entryType).filter _

def auditStart (config : AppConfig) : Cursor := ⟨config.genesisHash, 0, 0⟩

/-- `verify_chain(t, None, None)` on a content returns `output`. -/
def FullAudit (config : AppConfig) (tables : Tables) (entryType : String)
    (output : VerifyChainOutput) : Prop :=
  Program.Returns tables.query
    (fun bound => (verifyChain config bound entryType none none).run) (.ok output)

theorem verifyChain_full (config : AppConfig) (bound : Nat) (entryType : String) :
    verifyChain config bound entryType none none =
      walk entryType Int64.maxValue bound (auditStart config) := rfl

theorem fullAudit_iff {config : AppConfig} {tables : Tables} {entryType : String}
    {output : VerifyChainOutput} :
    FullAudit config tables entryType output ↔
      output = outcome Int64.maxValue (auditStart config) (tables.entries.audited entryType) := by
  simp only [FullAudit, verifyChain_full, walk_returns_iff (tables.pages entryType),
    Except.ok.injEq]
  rfl

/-- The rows of a type above position zero are linked from genesis and correctly hashed. -/
structure Sound (genesis : String) (table : LedgerEntries) (entryType : String) : Prop where
  linked : LinkedEntries genesis (table.audited entryType)
  hashed : ∀ row ∈ table.audited entryType, row.HashValid

omit [Sha256] in
theorem LedgerEntryRecord.position_le_maxValue (row : LedgerEntryRecord) :
    row.position ≤ Int64.maxValue.toInt := by
  have bound : row.position < 2 ^ 63 := row.chainPosition.toInt_lt
  have greatest : Int64.maxValue.toInt = 2 ^ 63 - 1 := rfl
  omega

/-- A full audit reports a valid chain exactly for a sound one. -/
theorem fullAudit_valid_iff {config : AppConfig} {tables : Tables} {entryType : String}
    {output : VerifyChainOutput} (audit : FullAudit config tables entryType output) :
    output.chainValid = true ↔ Sound config.genesisHash tables.entries entryType := by
  obtain rfl := fullAudit_iff.mp audit
  have within : ∀ row ∈ tables.entries.audited entryType,
      row.position ≤ Int64.maxValue.toInt := fun row _ => row.position_le_maxValue
  unfold outcome
  rcases checked : checkBatch Int64.maxValue (auditStart config)
      (tables.entries.audited entryType) with output | moved
  · have invalid := checkBatch_error within checked
    have unsound : ¬Sound config.genesisHash tables.entries entryType := fun sound => by
      have passed : checkBatch Int64.maxValue (auditStart config)
          (tables.entries.audited entryType) = .ok _ :=
        checkBatch_ok_iff.mpr ⟨within, sound.linked, sound.hashed, rfl⟩
      rw [checked] at passed
      contradiction
    simp [invalid, unsound]
  · obtain ⟨-, linked, hashed, rfl⟩ := checkBatch_ok_iff.mp checked
    exact ⟨fun _ => ⟨linked, hashed⟩, fun _ => rfl⟩

/-- A full audit that passes has counted every row above position zero. -/
theorem fullAudit_entriesChecked {config : AppConfig} {tables : Tables} {entryType : String}
    {output : VerifyChainOutput} (audit : FullAudit config tables entryType output)
    (valid : output.chainValid = true) :
    output.entriesChecked = (tables.entries.audited entryType).length := by
  have sound := (fullAudit_valid_iff audit).mp valid
  have within : ∀ row ∈ tables.entries.audited entryType,
      row.position ≤ Int64.maxValue.toInt := fun row _ => row.position_le_maxValue
  have passed : checkBatch Int64.maxValue (auditStart config)
      (tables.entries.audited entryType) = .ok _ :=
    checkBatch_ok_iff.mpr ⟨within, sound.linked, sound.hashed, rfl⟩
  have counted := (auditStart config).entriesChecked_after (tables.entries.audited entryType)
  rw [fullAudit_iff.mp audit, outcome, passed]
  simpa only [Cursor.passed, auditStart, Nat.zero_add] using counted

/-- Every content has exactly one full audit. -/
theorem fullAudit_exists (config : AppConfig) (tables : Tables) (entryType : String) :
    ∃ output, FullAudit config tables entryType output :=
  ⟨_, fullAudit_iff.mpr rfl⟩

end ImmutableLedger
