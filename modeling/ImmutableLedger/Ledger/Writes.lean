import ImmutableLedger.Ledger.Appending

/-! What a write call may answer, whatever happens between its requests. -/

set_option autoImplicit false

namespace ImmutableLedger

open Concurrency StoreProtocol

/-- What a key stands for, apart from the key itself. -/
structure SameMaterial (row : LedgerEntryRecord) (input : WriteEntryInput) : Prop where
  agentId : row.agentId = input.agentId
  content : row.content = input.content
  contentType : row.contentType = input.contentType
  sourceId : row.sourceId = input.sourceId
  correlationId : row.correlationId = input.correlationId
  inputHash : row.inputHash = input.inputHash
  writerSignature : row.writerSignature = input.writerSignature
  signerKeyReference : row.signerKeyReference = input.signerKeyReference
  attestationReport : row.attestationReport = input.attestationReport

theorem idempotentRequestMatches_iff {row : LedgerEntryRecord} {input : WriteEntryInput} :
    idempotentRequestMatches row input = true ↔ SameMaterial row input := by
  simp only [idempotentRequestMatches, Bool.and_eq_true, beq_iff_eq]
  constructor
  · rintro ⟨⟨⟨⟨⟨⟨⟨⟨agent, content⟩, kind⟩, source⟩, correlation⟩, hash⟩, signature⟩, signer⟩, report⟩
    exact ⟨agent, content, kind, source, correlation, hash, signature, signer, report⟩
  · rintro ⟨agent, content, kind, source, correlation, hash, signature, signer, report⟩
    exact ⟨⟨⟨⟨⟨⟨⟨⟨agent, content⟩, kind⟩, source⟩, correlation⟩, hash⟩, signature⟩, signer⟩, report⟩

/-- A row that holds what a request asked to be written. -/
structure Stores (input : WriteEntryInput) (row : LedgerEntryRecord) : Prop where
  entryType : row.entryType = input.entryType
  idempotencyKey : row.idempotencyKey = input.idempotencyKey
  material : SameMaterial row input

/-- An answer that the stored entries bear out. -/
def Answered (input : WriteEntryInput) (result : Except ServiceError WriteEntryOutput)
    (tables : Tables) : Prop :=
  match result with
  | .ok output => ∃ row ∈ tables.entries.rows, Stores input row ∧ output = row.writeOutput
  | .error (.alreadyExists _) => ∃ key, input.idempotencyKey = some key ∧
      ∃ row ∈ tables.entries.rows, row.entryType = input.entryType ∧
        row.idempotencyKey = some key ∧ ¬SameMaterial row input
  | .error _ => True

theorem Answered.of_rows {input : WriteEntryInput} {result : Except ServiceError WriteEntryOutput}
    {before after : Tables} (answered : Answered input result before)
    (rows : before.entries.rows <+: after.entries.rows) : Answered input result after := by
  unfold Answered at *
  split
  · obtain ⟨row, member, rest⟩ := answered
    exact ⟨row, rows.subset member, rest⟩
  · obtain ⟨key, keyed, row, member, rest⟩ := answered
    exact ⟨key, keyed, row, rows.subset member, rest⟩
  · trivial

/-- A replay is borne out by the row that was found under the key. -/
theorem answered_replay {input : WriteEntryInput} {key : String}
    (keyed : input.idempotencyKey = some key) {tables : Tables} {row : LedgerEntryRecord}
    (member : row ∈ tables.entries.rows) (typed : row.entryType = input.entryType)
    (rowKeyed : row.idempotencyKey = some key) : Answered input (replay row input) tables := by
  unfold replay
  split
  · next same =>
    exact ⟨row, member, ⟨typed, rowKeyed.trans keyed.symm, idempotentRequestMatches_iff.mp same⟩,
      rfl⟩
  · next differs =>
    exact ⟨key, keyed, row, member, typed, rowKeyed, fun same =>
      differs (idempotentRequestMatches_iff.mpr same)⟩

/-- A repository error is no conflict unless it says so. -/
theorem answered_mapRepo {input : WriteEntryInput} {err : RepositoryError} {tables : Tables}
    (noConflict : err ≠ .idempotencyConflict) :
    Answered input (.error (mapRepo err)) tables := by
  cases err with
  | idempotencyConflict => exact absurd rfl noConflict
  | notFound => trivial
  | unavailable => trivial
  | chainIntegrityViolation => trivial

variable [Sha256]

omit [Sha256] in
theorem Tables.query_findIdempotent {tables : Tables} {entryType key : String}
    {reply : Except RepositoryError (Option LedgerEntryRecord)}
    (answer : reply = tables.query (.findIdempotent entryType key)) :
    ∃ found, reply = .ok found ∧ ∀ row, found = some row →
      row ∈ tables.entries.rows ∧ row.entryType = entryType ∧ row.idempotencyKey = some key := by
  have lookup := tables.entries.findIdempotent_eq entryType key
  refine ⟨_, answer.trans lookup, fun row selected => ?_⟩
  exact LedgerEntries.findIdempotent_found (lookup.trans (congrArg Except.ok selected))

omit [Sha256] in
theorem Tables.query_getChainTip (tables : Tables) (entryType : String) :
    tables.query (.getChainTip entryType) =
      match (tables.entries.chain entryType).getLast? with
      | none => .error .notFound
      | some tip => .ok tip.tip := by
  rw [Tables.query, LedgerEntries.tipRow_eq]
  cases (tables.entries.chain entryType).getLast? <;> rfl

/-- The answer to a committed append is the row it stored. -/
theorem answered_committed {input : WriteEntryInput} {previousHash : String} {writtenTs : DateTime}
    {createOutbox : Bool} {before after : Tables} {draw : Draw} {result : WriteResult}
    {nextPosition : Int64}
    (committed : Tables.Committed before draw
      (input.entryWriteInput previousHash writtenTs createOutbox) result after nextPosition) :
    Answered input (.ok result.entry.writeOutput) after := by
  have member : result.entry.stored ∈ after.entries.rows := by
    rw [committed.rows]
    exact List.mem_append_right _ (List.mem_singleton_self _)
  refine ⟨result.entry.stored, member, ?_, (LedgerEntryRecord.writeOutput_stored _).symm⟩
  rw [committed.entry]
  exact ⟨rfl, rfl, ⟨rfl, rfl, rfl, rfl, rfl, rfl, rfl, rfl, rfl⟩⟩

/-! The call, request by request. -/

variable {genesis : String} {wereValid : Prop} {i : Nat} {task : ServiceTask}
  {input : WriteEntryInput} {state : ServiceState Database}

theorem safe_read {α : Type} {post : α → ServiceState Database → Prop} {message : ReadRequest}
    {resume : message.Reply → Program services α}
    (holds : Appending genesis wereValid state.store)
    (continues : ∀ reply, (reply = state.store.tables.query message ∨ reply = .error .unavailable) →
      ∀ later : ServiceState Database, Appending genesis wereValid later.store →
        Grows state.store later.store →
          (appending genesis wereValid).lift.Safe i task post (resume reply) later) :
    (appending genesis wereValid).lift.Safe i task post
      (.call (.repository (.read message)) resume) state := by
  refine safe_repository holds (appending_allows holds trivial) ?_
  intro reply after performed later holdsLater grows
  obtain ⟨same, answer⟩ := performed.read
  exact continues reply answer later holdsLater (show _ <+: _ from same ▸ grows)

theorem safe_checkHalt (config : AppConfig) (entryType : String)
    (holds : Appending genesis wereValid state.store) :
    (appending genesis wereValid).lift.Safe i task
      (fun result _ => result = .ok () ∨ result = .error .unavailable)
      (checkHalt config entryType).run state := by
  rw [checkHalt, run_request_bind]
  refine safe_local rfl holds fun reply later holdsLater _ => ?_
  cases reply with
  | none => exact .inl rfl
  | some elapsed =>
    dsimp only
    split
    · exact .inr rfl
    · exact safe_local rfl holdsLater fun _ _ _ _ => .inl rfl

theorem safe_findReplay (holds : Appending genesis wereValid state.store) :
    (appending genesis wereValid).lift.Safe i task
      (fun result reached =>
        match result with
        | .ok none => True
        | .ok (some output) => Answered input (.ok output) reached.store.tables
        | .error err => Answered input (.error err) reached.store.tables)
      (findReplay input).run state := by
  unfold findReplay
  split
  · trivial
  · next key keyed =>
    rw [run_askRepository_bind]
    refine safe_read holds fun reply answer later holdsLater grows => ?_
    rcases answer with answer | rfl
    · obtain ⟨found, rfl, stored⟩ := Tables.query_findIdempotent answer
      cases found with
      | none => trivial
      | some row =>
        obtain ⟨member, typed, rowKeyed⟩ := stored row rfl
        have answered := (answered_replay keyed member typed rowKeyed).of_rows grows
        dsimp only
        rw [ExceptT.run_bind]
        cases replayed : replay row input with
        | ok output =>
          rw [replayed] at answered
          exact answered
        | error err =>
          rw [replayed] at answered
          exact answered
    · trivial

theorem safe_replayConflict (holds : Appending genesis wereValid state.store)
    (keyed : ∃ key, input.idempotencyKey = some key) :
    (appending genesis wereValid).lift.Safe i task
      (fun result reached => Answered input result reached.store.tables)
      (replayConflict input).run state := by
  obtain ⟨key, keyed⟩ := keyed
  rw [replayConflict, keyed]
  dsimp only
  rw [run_askRepository_bind]
  refine safe_read holds fun reply answer later holdsLater grows => ?_
  rcases answer with answer | rfl
  · obtain ⟨found, rfl, stored⟩ := Tables.query_findIdempotent answer
    cases found with
    | none => trivial
    | some row =>
      obtain ⟨member, typed, rowKeyed⟩ := stored row rfl
      exact (answered_replay keyed member typed rowKeyed).of_rows grows
  · trivial

/-- The tip as a caller reads it makes its append ready, or the read fails without a conflict. -/
theorem safe_currentTipHash (service : Instance) (sameGenesis : service.config.genesisHash = genesis)
    (holds : Appending genesis wereValid state.store) :
    (appending genesis wereValid).lift.Safe i task
      (fun result reached =>
        match result with
        | .ok previousHash => previousHash = genesis ∨
            reached.store.tables.entries.ofType input.entryType ≠ []
        | .error err => Answered input (.error err) reached.store.tables)
      (currentTipHash service input).run state := by
  rw [currentTipHash, run_request_bind]
  refine safe_read holds fun reply answer later holdsLater grows => ?_
  rcases answer with answer | rfl
  · rw [Tables.query_getChainTip] at answer
    split at answer
    · obtain rfl := answer
      exact .inl sameGenesis
    · next tip last =>
      obtain rfl := answer
      obtain ⟨inRows, typed⟩ := LedgerEntries.mem_chain.mp (List.mem_of_getLast? last)
      refine .inr fun empty => ?_
      exact List.eq_nil_iff_forall_not_mem.mp empty tip
        (LedgerEntries.mem_ofType.mpr ⟨grows.subset inRows, typed⟩)
  · trivial

theorem safe_appendAttempts (service : Instance)
    (sameGenesis : service.config.genesisHash = genesis) (attempt remaining : Nat)
    (holds : Appending genesis wereValid state.store) :
    (appending genesis wereValid).lift.Safe i task
      (fun result reached => Answered input result reached.store.tables)
      (appendAttempts service input attempt remaining).run state := by
  induction remaining generalizing attempt state with
  | zero => trivial
  | succ remaining ih =>
    rw [appendAttempts]
    refine safe_bind holds (safe_currentTipHash service sameGenesis holds) ?_ fun _ _ met => met
    intro previousHash atTip holdsTip linked
    rw [run_request_bind]
    refine safe_local rfl holdsTip fun writtenTs later holdsLater grows => ?_
    rw [run_request_bind]
    have ready : Ready genesis atTip.store.tables (.writeEntryWithOutbox
        (input.entryWriteInput previousHash writtenTs service.publisherEnabled)) := linked
    refine safe_repository holdsLater (appending_allows holdsLater (ready.of_rows grows)) ?_
    intro reply after performed reached holdsReached further
    obtain ⟨err, rfl, conflict⟩ | ⟨draw, result, nextPosition, rfl, committed⟩ := performed.write
    · cases err with
      | chainIntegrityViolation =>
        dsimp only
        split
        · rw [run_request_bind]
          exact safe_local rfl holdsReached fun _ _ holdsNext _ => ih (attempt + 1) holdsNext
        · rw [run_request_bind]
          exact safe_local rfl holdsReached fun _ _ _ _ => trivial
      | idempotencyConflict => exact safe_replayConflict holdsReached (conflict rfl)
      | notFound => trivial
      | unavailable => trivial
    · exact (answered_committed committed).of_rows further

theorem safe_appendUnderLock (service : Instance)
    (sameGenesis : service.config.genesisHash = genesis)
    (holds : Appending genesis wereValid state.store) :
    (appending genesis wereValid).lift.Safe i task
      (fun result reached => Answered input result reached.store.tables)
      (appendUnderLock service input).run state := by
  rw [appendUnderLock, run_request_bind]
  refine safe_local rfl holds fun lock located holdsLocated _ => ?_
  rw [run_request_bind]
  refine safe_local rfl holdsLocated fun _ locked holdsLocked _ => ?_
  refine Protocol.Safe.bind ((safe_appendAttempts service sameGenesis 0 _ holdsLocked).mono ?_
    holdsLocked)
  intro result ended holdsEnded answered
  exact safe_local rfl holdsEnded fun _ _ _ grows => answered.of_rows grows

theorem safe_writeEntry (service : Instance) (sameGenesis : service.config.genesisHash = genesis)
    (holds : Appending genesis wereValid state.store) :
    (appending genesis wereValid).lift.Safe i task
      (fun result reached => Answered input result reached.store.tables)
      (writeEntry service input).run state := by
  have validated : (appending genesis wereValid).lift.Safe i task
      (fun result reached => ∀ err, result = .error err →
        Answered input (.error err) reached.store.tables)
      (.done (validate service.config input)) state := fun err rejected => by
    unfold validate at rejected
    split_ifs at rejected <;> cases rejected <;> trivial
  refine safe_bind holds validated
    (fun _ atCheck holdsCheck _ => ?_) fun err reached met => met err rfl
  refine safe_bind holdsCheck (safe_checkHalt service.config input.entryType holdsCheck)
    (fun _ atLookup holdsLookup _ => ?_) fun err reached met => ?_
  · refine safe_bind holdsLookup (safe_findReplay holdsLookup)
      (fun found atAppend holdsAppend met => ?_) fun err reached met => met
    cases found with
    | none => exact safe_appendUnderLock service sameGenesis holdsAppend
    | some output => exact met
  · rcases met with met | met
    · cases met
    · cases met
      trivial

/-- A receipt that the stored entries bear out. -/
def Receipted (input : WriteEntryInput) (result : Except ServiceError ProofReceiptOutput)
    (tables : Tables) : Prop :=
  match result with
  | .ok receipt => ∃ output, Answered input (.ok output) tables ∧ receipt = input.receipt output
  | .error err => Answered input (.error err) tables

theorem safe_issueReceipt (service : Instance) (sameGenesis : service.config.genesisHash = genesis)
    (holds : Appending genesis wereValid state.store) :
    (appending genesis wereValid).lift.Safe i task
      (fun result reached => Receipted input result reached.store.tables)
      (issueReceipt service input).run state :=
  safe_bind holds (safe_writeEntry service sameGenesis holds)
    (fun output _ _ met => ⟨output, met, rfl⟩) fun _ _ met => met

/-- What a task leaves behind once it has returned. -/
def Returned : (task : ServiceTask) → task.Result → ServiceState Database → Prop
  | .writeEntry _ input, result, state => Answered input result state.store.tables
  | .issueReceipt _ input, result, state => Receipted input result state.store.tables
  | .outboxProcessor _ _, _, _ => True

theorem safe_body (deployment : Deployment)
    (holds : Appending deployment.genesisHash wereValid state.store) :
    (appending deployment.genesisHash wereValid).lift.Safe i task (Returned task)
      (task.body deployment) state := by
  cases task with
  | writeEntry client input =>
    exact safe_writeEntry _ (deployment.config_genesisHash client) holds
  | issueReceipt client input =>
    exact safe_issueReceipt _ (deployment.config_genesisHash client) holds
  | outboxProcessor client rounds =>
    refine safe_of_all (fun request db isDelivery holdsDb => ?_)
      (startOutboxProcessor_all (deployment.instances client) rounds) holds
    refine appending_allows holdsDb ?_
    cases request with
    | writeEntryWithOutbox input => exact isDelivery.elim
    | _ => trivial

end ImmutableLedger
