import ImmutableLedger.Ledger.Double
import ImmutableLedger.Ledger.Interleavings
import ImmutableLedger.Service.Conversations

/-! What is admitted and what can be stored.

Validation asks for some texts not to be empty and bounds the content. The columns bound every
other text as well, and the service learns of it from an insertion that fails.
-/

set_option autoImplicit false

namespace ImmutableLedger

open Concurrency

/-- The texts of a request within the widths of their columns and without NUL. -/
structure WriteEntryInput.FitsSchema (input : WriteEntryInput) : Prop where
  entryType : fitsVarchar 255 input.entryType = true
  agentId : fitsVarchar 255 input.agentId = true
  contentType : fitsVarchar 100 input.contentType = true
  sourceId : fitsVarchar 255 input.sourceId = true
  correlationId : input.correlationId.all (fitsVarchar 255) = true
  idempotencyKey : input.idempotencyKey.all (fitsVarchar 255) = true
  inputHash : input.inputHash.all (fitsVarchar 128) = true
  signerKeyReference : input.signerKeyReference.all (fitsVarchar 255) = true

section

variable [Sha256]

/-- No database accepts an append of the request. -/
def WriteEntryInput.Unstorable (input : WriteEntryInput) : Prop :=
  ∀ (tables : Tables) draw previousHash writtenTs createOutbox result after,
    tables.writeEntryWithOutbox draw (input.entryWriteInput previousHash writtenTs createOutbox) ≠
      (.ok result, after)

/-- What is promised about a request. Once admitted, it is never rejected for its data: its
insertions go through wherever there is room and the identifiers are new. And if it cannot be
stored, every call that ends is answered with `InvalidArgument`. -/
structure StoredIfAdmitted (config : AppConfig) (input : WriteEntryInput) : Prop where
  inserted : validate config input = .ok () →
    ∀ (tables : Tables) draw previousHash writtenTs createOutbox,
      fitsVarchar 64 previousHash = true → tables.entries.rows.length < rowLimit →
        tables.Unused draw.ids →
          (tables.writeEntryWithOutbox draw
            (input.entryWriteInput previousHash writtenTs createOutbox)).1 ≠ .error .unavailable
  answered : input.Unstorable →
    ∀ (backend : Backend) (deployment : Deployment) (store : backend.Store)
      (reached : ServiceConfiguration backend),
      ServiceRun backend deployment (.initial (.start store)) reached →
        ∀ (i client : Nat) (result : Except ServiceError WriteEntryOutput),
          (deployment.instances client).config = config →
          reached.threads[i]? = some ⟨.writeEntry client input, .done result⟩ →
            ∃ message, result = .error (.invalidArgument message)

end

/-! The columns. -/

section

variable {input : WriteEntryInput} {previousHash : String} {writtenTs : DateTime}
  {createOutbox : Bool}

theorem WriteEntryInput.FitsSchema.fitsColumns (fits : input.FitsSchema)
    (linked : fitsVarchar 64 previousHash = true) :
    (input.entryWriteInput previousHash writtenTs createOutbox).fitsColumns = true := by
  simp only [EntryWriteInput.fitsColumns, Bool.and_eq_true]
  exact ⟨⟨⟨⟨⟨⟨⟨⟨fits.entryType, fits.agentId⟩, fits.contentType⟩, fits.sourceId⟩,
    fits.correlationId⟩, fits.idempotencyKey⟩, fits.inputHash⟩, fits.signerKeyReference⟩, linked⟩

variable [Sha256] {ids : FreshIds} {nextPosition : Int64}

theorem WriteEntryInput.FitsSchema.of_entry
    (fits : ((input.entryWriteInput previousHash writtenTs createOutbox).entry
      ids nextPosition).stored.fitsColumns = true) : input.FitsSchema := by
  simp only [LedgerEntryRecord.fitsColumns, Bool.and_eq_true] at fits
  obtain ⟨⟨⟨⟨⟨⟨⟨⟨⟨⟨entryType, agentId⟩, contentType⟩, sourceId⟩, correlationId⟩, idempotencyKey⟩,
    inputHash⟩, signerKeyReference⟩, -⟩, -⟩, -⟩ := fits
  exact ⟨entryType, agentId, contentType, sourceId, correlationId, idempotencyKey, inputHash,
    signerKeyReference⟩

omit [Sha256] in
theorem LedgerEntries.fits_of_insert {table after : LedgerEntries} {row : LedgerEntryRecord}
    (inserted : table.insert row = .ok after) : row.fitsColumns = true := by
  by_contra misfit
  rw [insert, if_pos (Bool.eq_false_iff.mpr misfit)] at inserted
  cases inserted

omit [Sha256] in
/-- Only a column or a full table rejects a row for another reason than an index. -/
theorem LedgerEntries.insert_ne_other {table : LedgerEntries} {row : LedgerEntryRecord}
    (fits : row.fitsColumns = true) (room : table.rows.length < rowLimit) :
    table.insert row ≠ .error .other := by
  intro rejected
  unfold insert at rejected
  split_ifs at rejected with misfit freshId freshPosition freshKey
  · rw [fits] at misfit
    cases misfit
  · cases rejected
  · cases rejected
  · cases rejected

variable {tables : Tables} {draw : Draw} {entry : EntryWriteInput}

/-- An append that the columns hold is not refused as unavailable. -/
theorem Tables.writeEntryWithOutbox_ne_unavailable (fits : entry.fitsColumns = true)
    (room : tables.entries.rows.length < rowLimit) (unused : tables.Unused draw.ids) :
    (tables.writeEntryWithOutbox draw entry).1 ≠ .error .unavailable := by
  intro refused
  rw [writeEntryWithOutbox] at refused
  cases positioned : tables.nextPosition entry with
  | error err =>
    obtain rfl := nextPosition_error positioned
    rw [positioned] at refused
    cases refused
  | ok nextPosition =>
    have stores : (entry.entry draw.ids nextPosition).stored.fitsColumns = true :=
      fitsColumns_entry fits
    rw [positioned] at refused
    cases inserted : tables.entries.insert (entry.entry draw.ids nextPosition).stored with
    | error err =>
      dsimp only at refused
      rw [inserted] at refused
      cases err with
      | other => exact LedgerEntries.insert_ne_other stores room inserted
      | uniqueViolation constraint =>
        dsimp only [insertError] at refused
        split at refused
        · cases refused
        · cases refused
    | ok entries =>
      obtain ⟨outbox, queued, -⟩ := queue_fits (fitsColumns_outbox fits draw.now) unused.outboxId
      dsimp only at refused
      rw [inserted] at refused
      dsimp only at refused
      split at refused
      · rw [queued] at refused
        cases refused
      · cases refused

/-- A row that its columns do not hold is refused wherever it would go. -/
theorem Tables.writeEntryWithOutbox_misfit {nextPosition : Int64}
    (positioned : tables.nextPosition entry = .ok nextPosition)
    (misfit : ¬(entry.entry draw.ids nextPosition).stored.fitsColumns = true) :
    tables.writeEntryWithOutbox draw entry = (.error .unavailable, tables) := by
  have rejected : tables.entries.insert (entry.entry draw.ids nextPosition).stored =
      .error .other := by
    rw [LedgerEntries.insert, if_pos (Bool.eq_false_iff.mpr misfit)]
  rw [writeEntryWithOutbox, positioned]
  dsimp only
  rw [rejected]
  rfl

omit [Sha256] in
theorem Tables.nextPosition_empty (linked : entry.previousHash ≠ "") :
    Tables.empty.nextPosition entry = .ok 1 :=
  nextPosition_ok_iff.mpr ⟨linked, rfl⟩

/-- Without a row in its way, only a column refuses a request. -/
theorem StoredIfAdmitted.fitsSchema {config : AppConfig} (stored : StoredIfAdmitted config input)
    (valid : validate config input = .ok ()) : input.FitsSchema := by
  have linked : fitsVarchar 64 (sha256Hex []) = true := fitsVarchar_sha256Hex _
  have room : Tables.empty.entries.rows.length < rowLimit := show 0 < rowLimit by decide
  have answered := stored.inserted valid Tables.empty ⟨Sample.ids 1, Sample.instant⟩ (sha256Hex [])
    Sample.instant false linked room (Sample.noRow_empty 1)
  have positioned : Tables.empty.nextPosition
      (input.entryWriteInput (sha256Hex []) Sample.instant false) = .ok 1 :=
    Tables.nextPosition_empty (sha256Hex_ne_empty [])
  have columns : ((input.entryWriteInput (sha256Hex []) Sample.instant false).entry
      (Sample.ids 1) 1).stored.fitsColumns = true := by
    by_contra misfit
    have refused := @Tables.writeEntryWithOutbox_misfit _ _ ⟨Sample.ids 1, Sample.instant⟩ _ 1
      positioned misfit
    exact answered (congrArg Prod.fst refused)
  exact .of_entry columns

/-- What no database accepts is what the columns do not hold. -/
theorem WriteEntryInput.unstorable_iff : input.Unstorable ↔ ¬input.FitsSchema := by
  constructor
  · intro unstorable fits
    -- A database without rows accepts it behind any hash.
    have linked : fitsVarchar 64 (sha256Hex []) = true := fitsVarchar_sha256Hex _
    have columns : (input.entryWriteInput (sha256Hex []) Sample.instant false).fitsColumns = true :=
      fits.fitsColumns linked
    have contiguous : Contiguous Tables.empty.entries input.entryType :=
      Represents.empty.contiguous input.entryType
    have room : Tables.empty.entries.rows.length < rowLimit := show 0 < rowLimit by decide
    have unused : Tables.empty.Unused (⟨Sample.ids 1, Sample.instant⟩ : Draw).ids :=
      Sample.noRow_empty 1
    obtain ⟨err, rejected, -⟩ | ⟨nextPosition, -, ⟨⟨_, _, row, member, _⟩, _⟩ | stored⟩ :=
      Tables.writeEntryWithOutbox_fits contiguous columns room unused
    · rw [Tables.nextPosition_empty (sha256Hex_ne_empty [])] at rejected
      cases rejected
    · cases member
    · obtain ⟨-, after, -, wrote⟩ := stored
      exact unstorable _ _ _ _ _ _ _ wrote
  · intro misfit tables draw previousHash writtenTs createOutbox result after accepted
    obtain ⟨err, rejected, -⟩ | ⟨written, reached, nextPosition, wrote, committed⟩ :=
      @Tables.writeEntryWithOutbox_cases _ tables draw
        (input.entryWriteInput previousHash writtenTs createOutbox)
    · rw [rejected] at accepted
      cases accepted
    · have inserted := committed.inserted
      rw [committed.entry] at inserted
      exact misfit (.of_entry (LedgerEntries.fits_of_insert inserted))

end

/-! The answers. -/

/-- Whatever it is told, a call does not end with `InvalidArgument`. -/
def NeverInvalid {α : Type} (call : Call α) : Prop :=
  call.run.Always (fun _ _ => True) fun result =>
    ∀ message, result ≠ .error (.invalidArgument message)

namespace NeverInvalid

variable {α β : Type}

theorem done {result : Except ServiceError α}
    (other : ∀ message, result ≠ .error (.invalidArgument message)) :
    NeverInvalid (ExceptT.mk (.done result) : Call α) := other

theorem pure (value : α) : NeverInvalid (pure value : Call α) :=
  done fun message same => by cases same

theorem bind {call : Call α} {next : α → Call β} (first : NeverInvalid call)
    (second : ∀ value, NeverInvalid (next value)) : NeverInvalid (call >>= next) := by
  refine Program.Always.exceptBind first ?_ fun value _ => second value
  intro err other message same
  obtain rfl := Except.error.inj same
  exact other message rfl

theorem request (message : ServiceRequest) : NeverInvalid (request message) :=
  fun reply _ invalid same => by cases same

theorem mapRepo_ne (err : RepositoryError) (message : String) :
    mapRepo err ≠ .invalidArgument message := by
  intro same
  cases err <;> cases same

theorem askRepository (message : RepositoryRequest) : NeverInvalid (askRepository message) := by
  intro reply _ invalid same
  cases reply with
  | ok value => cases same
  | error err => exact mapRepo_ne err invalid (Except.error.inj same)

end NeverInvalid

theorem checkHalt_neverInvalid (config : AppConfig) (entryType : String) :
    NeverInvalid (checkHalt config entryType) := by
  refine .bind (.request _) fun elapsed => ?_
  cases elapsed with
  | none => exact .pure ()
  | some elapsed =>
    dsimp only
    split
    · exact .done fun message same => by cases same
    · exact .request _

section

variable (service : Instance) (input : WriteEntryInput)

theorem replay_ne_invalid (existing : LedgerEntryRecord) (message : String) :
    replay existing input ≠ .error (.invalidArgument message) := by
  intro same
  unfold replay at same
  split at same <;> cases same

theorem findReplay_neverInvalid : NeverInvalid (findReplay input) := by
  unfold findReplay
  split
  · exact .pure none
  · refine .bind (.askRepository _) fun found => ?_
    cases found with
    | none => exact .pure none
    | some existing => exact .bind (.done (replay_ne_invalid input existing)) fun _ => .pure _

theorem replayConflict_neverInvalid : NeverInvalid (replayConflict input) := by
  unfold replayConflict
  split
  · exact .done fun message same => by cases same
  · refine .bind (.askRepository _) fun found => ?_
    cases found with
    | none => exact .done fun message same => by cases same
    | some existing => exact .done (replay_ne_invalid input existing)

variable [Sha256]

theorem currentTipHash_neverInvalid : NeverInvalid (currentTipHash service input) := by
  refine .bind (.request _) fun tip => ?_
  split
  · exact .pure _
  · exact .pure _
  · next err _ =>
    exact .done fun message same => NeverInvalid.mapRepo_ne err message (Except.error.inj same)

/-- By induction on the attempts left. -/
theorem appendAttempts_neverInvalid (attempt remaining : Nat) :
    NeverInvalid (appendAttempts service input attempt remaining) := by
  induction remaining generalizing attempt with
  | zero => exact .done fun message same => by cases same
  | succ remaining ih =>
    refine .bind (currentTipHash_neverInvalid service input) fun previousHash => ?_
    refine .bind (.request _) fun writtenTs => ?_
    refine .bind (.request _) fun reply => ?_
    split
    · exact .pure _
    · split
      · exact .bind (.request _) fun _ => ih (attempt + 1)
      · exact .bind (.request _) fun _ => .done fun message same => by cases same
    · exact replayConflict_neverInvalid input
    · next err _ _ =>
      exact .done fun message same => NeverInvalid.mapRepo_ne err message (Except.error.inj same)

theorem appendUnderLock_neverInvalid : NeverInvalid (appendUnderLock service input) := by
  refine .bind (.request _) fun lock => ?_
  refine .bind (.request _) fun _ => ?_
  refine (Program.always_bind _ _).mpr ?_
  exact (appendAttempts_neverInvalid service input 0 _).imp fun result other _ _ => other

/-- Nothing but validation answers with `InvalidArgument`. -/
theorem writeEntry_neverInvalid (valid : validate service.config input = .ok ()) :
    NeverInvalid (writeEntry service input) := by
  rw [writeEntry, valid]
  refine .bind (.pure ()) fun _ => ?_
  refine .bind (checkHalt_neverInvalid _ _) fun _ => ?_
  refine .bind (findReplay_neverInvalid input) fun found => ?_
  cases found with
  | some output => exact .pure output
  | none => exact appendUnderLock_neverInvalid service input

end

section

variable [Sha256] {input : WriteEntryInput} {result : Except ServiceError WriteEntryOutput}

/-- A call that has ended is answered with `InvalidArgument` exactly if validation fails. -/
theorem ServiceRun.invalidArgument_iff {backend : Backend} {deployment : Deployment}
    {store : backend.Store} {reached : ServiceConfiguration backend}
    (run : ServiceRun backend deployment (.initial (.start store)) reached) {i client : Nat}
    (ended : reached.threads[i]? = some ⟨.writeEntry client input, .done result⟩) :
    (∃ message, result = .error (.invalidArgument message)) ↔
      validate (deployment.instances client).config input ≠ .ok () := by
  obtain ⟨left, converses, same | dropped⟩ := run.conversing.known i _ ended
  · obtain rfl : Program.done result = left := same
    change (writeEntry (deployment.instances client) input).run.Converses _ _ at converses
    by_cases valid : validate (deployment.instances client).config input = .ok ()
    · refine iff_of_false ?_ (not_not_intro valid)
      rintro ⟨message, rfl⟩
      exact converses.always (writeEntry_neverInvalid _ _ valid) (fun _ _ => trivial) message rfl
    · refine iff_of_true ?_ valid
      have message : ∃ message, validate (deployment.instances client).config input =
          .error (.invalidArgument message) := by
        unfold validate at valid ⊢
        split_ifs at valid ⊢ with missing large
        · exact ⟨_, rfl⟩
        · exact ⟨_, rfl⟩
        · exact absurd rfl valid
      obtain ⟨message, rejected⟩ := message
      rw [writeEntry, rejected] at converses
      obtain ⟨-, ended⟩ := Program.Converses.of_done converses
      exact ⟨message, Program.done.inj ended⟩
  · cases dropped

/-- The promise is kept to a request exactly if it is not admitted or the columns hold it. Nothing
but validation answers with `InvalidArgument`. -/
theorem storedIfAdmitted_iff (config : AppConfig) (input : WriteEntryInput) :
    (StoredIfAdmitted config input ↔ (validate config input = .ok () → input.FitsSchema)) ∧
      ∀ (backend : Backend) (deployment : Deployment) (store : backend.Store)
        (reached : ServiceConfiguration backend),
        ServiceRun backend deployment (.initial (.start store)) reached →
          ∀ (i client : Nat) (result : Except ServiceError WriteEntryOutput),
            reached.threads[i]? = some ⟨.writeEntry client input, .done result⟩ →
              ((∃ message, result = .error (.invalidArgument message)) ↔
                validate (deployment.instances client).config input ≠ .ok ()) := by
  constructor
  · constructor
    · intro stored valid
      by_contra misfit
      exact misfit (stored.fitsSchema valid)
    · intro fits
      constructor
      · intro valid tables draw previousHash writtenTs createOutbox linked room unused
        exact Tables.writeEntryWithOutbox_ne_unavailable ((fits valid).fitsColumns linked) room
          unused
      · intro unstorable backend deployment store reached run i client result same ended
        refine (run.invalidArgument_iff ended).mpr fun valid => ?_
        rw [same] at valid
        exact WriteEntryInput.unstorable_iff.mp unstorable (fits valid)
  · intro backend deployment store reached run i client result ended
    exact run.invalidArgument_iff ended

end

/-! A content type of 101 characters. -/

namespace Sample

def wide : WriteEntryInput :=
  { write [] with
    contentType := "application/vnd.openxmlformats-officedocument.wordprocessingml.document; " ++
      "charset=utf-8; version=1.0.0"
    idempotencyKey := none }

theorem wide_valid : validate config wide = .ok () := rfl

theorem wide_misfits : ¬wide.FitsSchema := by
  intro fits
  exact absurd fits.contentType (by decide)

variable [Sha256]

def wideInput : EntryWriteInput := wide.entryWriteInput config.genesisHash instant false

theorem wide_refused :
    Tables.empty.writeEntryWithOutbox ⟨ids 1, instant⟩ wideInput = (.error .unavailable, .empty) :=
  Tables.writeEntryWithOutbox_misfit (Tables.nextPosition_empty (sha256Hex_ne_empty _))
    fun columns => wide_misfits (.of_entry columns)

/-- The call finds an empty ledger and is turned away by the insertion. -/
theorem wide_run : ∃ reached, ServiceRun postgres deployment
    (.initial (.start (database .empty))) reached ∧
      reached.threads = [⟨.writeEntry 1 wide, .done (.error .unavailable)⟩] := by
  have run : ServiceRun postgres deployment (.initial (.start (database .empty)))
    (.initial (.start (database .empty))) := .refl
  have run := run.spawn (.writeEntry 1 wide)
  have run := ServiceRun.answer run 0 rfl none ⟨rfl, rfl⟩
  have run := ServiceRun.answer run 0 rfl 0 ⟨rfl, rfl⟩
  have run := ServiceRun.answer run 0 rfl () ⟨rfl, rfl⟩
  have run := ServiceRun.answer run 0 rfl (.error .notFound)
    ⟨_, Database.Performs.executed ⟨ids 1, instant⟩, rfl⟩
  have run := ServiceRun.answer run 0 rfl instant rfl
  have run := ServiceRun.answer run 0 rfl (.error .unavailable)
    ⟨_, Database.Performs.of_execute wide_refused, rfl⟩
  have run := ServiceRun.answer run 0 rfl () rfl
  exact ⟨_, run, rfl⟩

end Sample

/-- The first entry of the ledger is stored if it is admitted. -/
theorem storedIfAdmitted_first :
    letI := Fips180.sha256
    StoredIfAdmitted Sample.config (Sample.write [123, 125]) := by
  let := Fips180.sha256
  refine (storedIfAdmitted_iff Sample.config (Sample.write [123, 125])).1.mpr fun _ => ?_
  constructor <;> decide

/-- A valid request that no database can store, answered as if it could be sent again. -/
theorem wide_contentType_unavailable :
    letI := Fips180.sha256
    validate Sample.config Sample.wide = .ok () ∧ Sample.wide.Unstorable ∧
      ¬StoredIfAdmitted Sample.config Sample.wide ∧
      ∃ reached, ServiceRun postgres Sample.deployment
        (.initial (.start (Sample.database .empty))) reached ∧
          reached.threads = [⟨.writeEntry 1 Sample.wide, .done (.error .unavailable)⟩] := by
  let := Fips180.sha256
  refine ⟨Sample.wide_valid, ?_, ?_, Sample.wide_run⟩
  · exact WriteEntryInput.unstorable_iff.mpr Sample.wide_misfits
  · exact fun stored => Sample.wide_misfits (stored.fitsSchema Sample.wide_valid)

end ImmutableLedger
