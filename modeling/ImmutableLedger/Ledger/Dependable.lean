import ImmutableLedger.Ledger.Double

/-! What the appends of a sole writer depend on.

An append names the hash of the tip it follows, and only another append to the same chain can make
that hash stale. `Dependable` says so of a repository, whatever it keeps: which link a chain asks
for, which keys are taken, and that an append with the right link is not refused for it.
-/

set_option autoImplicit false

namespace ImmutableLedger

open Query

/-- What a writer has to know of a store. -/
structure ChainView (Store : Type) where
  sound : Store → Prop
  tipHash : Store → String → Option String
  taken : Store → String → String → Prop

namespace ChainView

variable {Store : Type} (view : ChainView Store)

/-- The hash may be named by the next append to a chain. -/
def Links (store : Store) (entryType hash : String) : Prop :=
  match view.tipHash store entryType with
  | none => hash ≠ ""
  | some tip => hash = tip

/-- The tips of all chains stay, except those that may move. -/
structure Keeps (moves : String → Prop) (before after : Store) : Prop where
  sound : view.sound after
  tips : ∀ entryType, ¬moves entryType → view.tipHash after entryType = view.tipHash before entryType
  taken : ∀ entryType key, view.taken before entryType key → view.taken after entryType key

/-- An append names a hash it may name. -/
def Linked (store : Store) : RepositoryRequest → Prop
  | .writeEntryWithOutbox input => view.Links store input.entryType input.previousHash
  | _ => True

/-- What a reply says about the store, before the request and after it. -/
def Tells (before after : Store) : (request : RepositoryRequest) → request.Reply → Prop
  | .read (.getChainTip entryType), reply =>
      match view.tipHash before entryType with
      | none => reply = .error .notFound
      | some hash => ∃ tip : ChainTip, reply = .ok tip ∧ tip.hash = hash
  | .read (.findIdempotent entryType key), reply =>
      ∃ found : Option LedgerEntryRecord, reply = .ok found ∧
        (view.taken before entryType key → found ≠ none)
  | .writeEntryWithOutbox input, reply => ∀ err, reply = .error err →
      err = .idempotencyConflict ∧
        ∃ key, input.idempotencyKey = some key ∧ view.taken after input.entryType key
  | _, _ => True

end ChainView

/-- The chain a request may append to. -/
def RepositoryRequest.Appends : RepositoryRequest → String → Prop
  | .writeEntryWithOutbox input, entryType => input.entryType = entryType
  | _, _ => False

/-- What a request that was answered has done. -/
structure ChainView.Serves {Store : Type} (view : ChainView Store) (request : RepositoryRequest)
    (reply : request.Reply) (before after : Store) : Prop where
  keeps : view.Keeps request.Appends before after
  intact : reply ≠ .error .chainIntegrityViolation
  tells : view.Tells before after request reply

/-- A repository on which a sole writer can depend, as long as it is available. -/
structure Dependable (backend : Backend) extends ChainView backend.Store where
  environment : ∀ {before after}, sound before → backend.environment before after →
    toChainView.Keeps (fun _ => False) before after
  performs : ∀ {client request reply before after}, sound before →
    toChainView.Linked before request → backend.performs client request before reply after →
      reply ≠ .error .unavailable → toChainView.Serves request reply before after

/-! Postgres. -/

variable [Sha256]

omit [Sha256] in
/-- A repository that found what it looked for, or nothing, has not found a broken chain. -/
theorem requireRow_intact {α : Type} (found : Option α) :
    requireRow found ≠ .error .chainIntegrityViolation := by
  cases found <;> simp [requireRow]

omit [Sha256] in
theorem Tables.query_intact (tables : Tables) (message : ReadRequest) :
    tables.query message ≠ .error .chainIntegrityViolation := by
  have single {α : Type} (rows : List α) :
      (queryOpt rows >>= requireRow) ≠ .error .chainIntegrityViolation := by
    rcases rows with _ | ⟨first, _ | ⟨second, rest⟩⟩
    · exact requireRow_intact none
    · exact requireRow_intact (some first)
    · exact fun same => by cases same
  intro same
  cases message with
  | getEntry entryId => exact single _ same
  | getEntryByHash entryType entryHash => exact single _ same
  | getChainTip entryType =>
    rw [Tables.query_getChainTip] at same
    split at same <;> cases same
  | getEntriesByTypePaged entryType afterPosition limit =>
    change tables.entries.page entryType afterPosition limit = .error .chainIntegrityViolation at same
    unfold LedgerEntries.page at same
    split at same <;> cases same
  | findIdempotent entryType key =>
    cases (tables.entries.findIdempotent_eq entryType key).symm.trans same
  | pendingOutbox => cases same
  | getDistinctEntryTypes => cases same

/-- Only an append reports a broken chain. -/
theorem Tables.execute_intact {tables : Tables} {draw : Draw} {request : RepositoryRequest}
    (notAppend : ∀ entryType, ¬request.Appends entryType) :
    (tables.execute draw request).1 ≠ .error .chainIntegrityViolation := by
  have updated (rows : LedgerWriteOutbox) (selects : OutboxRecord → Bool)
      (change : LedgerWriteOutbox.Change) :
      (rows.updateOne selects change).1 ≠ .error .chainIntegrityViolation := by
    unfold LedgerWriteOutbox.updateOne
    split <;> simp
  cases request with
  | read message => exact tables.query_intact message
  | writeEntryWithOutbox input => exact (notAppend input.entryType rfl).elim
  | markOutboxDelivered outboxId => exact updated _ _ _
  | incrementOutboxAttempt outboxId =>
    intro same
    change (tables.outbox.incrementOutboxAttempt outboxId).1 = .error .chainIntegrityViolation at same
    unfold LedgerWriteOutbox.incrementOutboxAttempt at same
    dsimp only at same
    split at same
    · cases same
    · exact updated _ _ _ same
  | markOutboxFailed outboxId => exact updated _ _ _

namespace Tables

variable {tables after : Tables} {draw : Draw} {input : EntryWriteInput} {nextPosition : Int64}

omit [Sha256] in
/-- A row that is new by its identifier and its position is refused for its key or for its size. -/
theorem insert_error {table : LedgerEntries} {row : LedgerEntryRecord} {err : InsertError}
    (freshId : row.entryId ∉ table.rows.map (·.entryId))
    (freshPosition : row.typePosition ∉ table.rows.map (·.typePosition))
    (rejected : table.insert row = .error err) :
    err = .other ∨ err = .uniqueViolation "idx_ledger_idempotency" ∧
      ∃ index ∈ row.idempotencyIndex, index ∈ table.rows.filterMap (·.idempotencyIndex) := by
  unfold LedgerEntries.insert at rejected
  split_ifs at rejected with fits taken room
  · exact .inl (Except.error.inj rejected).symm
  · exact .inr ⟨(Except.error.inj rejected).symm, taken⟩
  · exact .inl (Except.error.inj rejected).symm

/-- An append with the right link is refused for its key, or the database cannot take it. -/
theorem writeEntryWithOutbox_linked (contiguous : Contiguous tables.entries input.entryType)
    (unused : tables.Unused draw.ids) (extension : tables.Extends input nextPosition)
    {err : RepositoryError}
    (refused : (tables.writeEntryWithOutbox draw input).1 = .error err) :
    err = .unavailable ∨ err = .idempotencyConflict ∧ tables.KeyUsed input := by
  have freshPosition : (input.entry draw.ids nextPosition).stored.typePosition ∉
      tables.entries.rows.map (·.typePosition) :=
    Contiguous.freshPosition contiguous (extension.position contiguous)
  rw [writeEntryWithOutbox, nextPosition_ok_iff.mpr extension] at refused
  dsimp only at refused
  cases stored : tables.entries.insert (input.entry draw.ids nextPosition).stored with
  | error rejected =>
    rw [stored] at refused
    cases Except.error.inj refused
    rcases insert_error unused.entryId freshPosition stored with rfl | ⟨rfl, taken⟩
    · exact .inl rfl
    · exact .inr ⟨rfl, (keyUsed_iff tables _ _).mp taken⟩
  | ok entries =>
    rw [stored] at refused
    dsimp only at refused
    -- The row is stored, so only its announcement can stand in the way.
    split at refused
    · split at refused
      · exact .inl (Except.error.inj refused).symm
      · cases refused
    · cases refused

/-- A commit puts one row at the end of its chain. -/
theorem Committed.chain {result : WriteResult}
    (committed : Committed tables draw input result after nextPosition)
    (contiguous : Contiguous tables.entries input.entryType) (entryType : String) :
    after.entries.chain entryType =
      if input.entryType = entryType then tables.entries.chain entryType ++ [result.entry.stored]
      else tables.entries.chain entryType := by
  have position := committed.extends_tip.position contiguous
  have rows := committed.rows
  rw [committed.entry] at rows ⊢
  refine LedgerEntries.chain_append rows (fun other member => ?_) entryType
  have bound := (contiguous.position_le member).2
  have same : (input.entry draw.ids nextPosition).stored.position = nextPosition.toInt := rfl
  omega

theorem Committed.contiguous {result : WriteResult}
    (committed : Committed tables draw input result after nextPosition)
    (contiguous : ∀ entryType, Contiguous tables.entries entryType) (entryType : String) :
    Contiguous after.entries entryType := by
  have chain := committed.chain (contiguous input.entryType) entryType
  split at chain
  · next typed =>
    subst typed
    refine (contiguous input.entryType).concat chain ?_
    rw [committed.entry]
    exact committed.extends_tip.position (contiguous input.entryType)
  · rw [Contiguous, chain]
    exact contiguous entryType

end Tables

/-- Postgres that answers what it is asked, with identifiers that no row has. -/
def servedPostgres : Backend :=
  { postgres with
    performs := fun client request (db : Database) reply after =>
      ∃ draw, db.tables.Unused draw.ids ∧ reply = (db.tables.execute draw request).1 ∧
        after = db.executed draw client request }

/-- It does nothing that Postgres does not do. -/
theorem servedPostgres_performs {client : Nat} {request : RepositoryRequest} {db after : Database}
    {reply : request.Reply} (performed : servedPostgres.performs client request db reply after) :
    postgres.performs client request db reply after := by
  obtain ⟨draw, -, rfl, rfl⟩ := performed
  exact .executed draw

/-- Chains without gaps, and no request that may still take effect. -/
def Database.view : ChainView Database where
  sound db := db.inflight = [] ∧ ∀ entryType, Contiguous db.tables.entries entryType
  tipHash db entryType :=
    (db.tables.entries.chain entryType).getLast?.map LedgerEntryRecord.entryHash
  taken db entryType key := ∃ row ∈ db.tables.entries.rows,
    row.entryType = entryType ∧ row.idempotencyKey = some key

omit [Sha256] in
/-- What leaves the entries alone keeps every tip. -/
theorem Database.keeps_of_entries {moves : String → Prop} {before after : Database}
    (sound : Database.view.sound before) (inflight : after.inflight = before.inflight)
    (entries : after.tables.entries = before.tables.entries) :
    Database.view.Keeps moves before after where
  sound := ⟨inflight.trans sound.1, fun entryType => entries ▸ sound.2 entryType⟩
  tips := fun entryType _ => by simp only [view, entries]
  taken := fun entryType key => by simp only [view, entries]; exact id

omit [Sha256] in
theorem Database.extends_of_links {db : Database} {input : EntryWriteInput}
    (links : Database.view.Links db input.entryType input.previousHash) :
    ∃ nextPosition, db.tables.Extends input nextPosition := by
  unfold ChainView.Links at links
  unfold Tables.Extends
  simp only [view] at links
  cases last : (db.tables.entries.chain input.entryType).getLast? with
  | none =>
    rw [last] at links
    exact ⟨1, links, rfl⟩
  | some tip =>
    rw [last] at links
    exact ⟨_, links, rfl⟩

theorem Database.serves_write {client : Nat} {input : EntryWriteInput} {db : Database} {draw : Draw}
    (sound : Database.view.sound db) (unused : db.tables.Unused draw.ids)
    (links : Database.view.Links db input.entryType input.previousHash)
    (available : (db.tables.writeEntryWithOutbox draw input).1 ≠ .error .unavailable) :
    Database.view.Serves (.writeEntryWithOutbox input)
      (db.tables.writeEntryWithOutbox draw input).1 db
        (db.executed draw client (.writeEntryWithOutbox input)) := by
  obtain ⟨nextPosition, extension⟩ := extends_of_links links
  have contiguous := sound.2 input.entryType
  have tables : (db.executed draw client (.writeEntryWithOutbox input)).tables =
    (db.tables.writeEntryWithOutbox draw input).2 := rfl
  rcases @Tables.writeEntryWithOutbox_cases _ db.tables draw input with
    ⟨err, rejected, -⟩ | ⟨result, after, position, wrote, committed⟩
  · rw [rejected] at available ⊢
    obtain rfl | ⟨rfl, key, keyed, used⟩ := Tables.writeEntryWithOutbox_linked contiguous unused
      extension (congrArg Prod.fst rejected)
    · exact absurd rfl available
    · have entries : (db.executed draw client (.writeEntryWithOutbox input)).tables.entries =
          db.tables.entries := by
        rw [tables, rejected]
      refine ⟨keeps_of_entries sound rfl entries, (fun same => by cases same), fun err same => ?_⟩
      cases Except.error.inj same
      refine ⟨rfl, key, keyed, ?_⟩
      simp only [view, entries]
      exact used
  · rw [wrote] at tables ⊢
    refine ⟨⟨⟨sound.1, ?_⟩, ?_, ?_⟩, (fun same => by cases same),
      fun err same => by cases same⟩
    · rw [tables]
      exact committed.contiguous sound.2
    · intro entryType another
      simp only [view, tables]
      have other : ¬input.entryType = entryType := another
      rw [committed.chain contiguous, if_neg other]
    · intro entryType key
      simp only [view, tables, committed.rows]
      exact fun ⟨row, member, found⟩ => ⟨row, List.mem_append_left _ member, found⟩

omit [Sha256] in
/-- A read of Postgres says what the chains and keys are. -/
theorem Database.tells_read {db after : Database} (message : ReadRequest) :
    Database.view.Tells db after (.read message) (db.tables.query message) := by
  cases message with
  | getChainTip entryType =>
    simp only [ChainView.Tells, view, Tables.query_getChainTip]
    cases (db.tables.entries.chain entryType).getLast? with
    | none => rfl
    | some tip => exact ⟨tip.tip, rfl, rfl⟩
  | findIdempotent entryType key =>
    refine ⟨_, db.tables.entries.findIdempotent_eq entryType key, ?_⟩
    rintro ⟨row, member, found⟩
    rw [ne_eq, List.find?_eq_none]
    exact fun nothing => nothing row member (decide_eq_true found)
  | _ => trivial

/-- Postgres can be depended on. -/
def Database.dependable : Dependable servedPostgres where
  toChainView := Database.view
  environment := by
    intro before after sound moved
    cases moved with
    | landed first rest late draw pending =>
      rw [sound.1] at pending
      cases first <;> cases pending
    | lost first rest late pending =>
      rw [sound.1] at pending
      cases first <;> cases pending
    | rearranged outbox perm => exact keeps_of_entries sound rfl rfl
  performs := by
    rintro client request reply db after sound linked ⟨draw, unused, rfl, rfl⟩ available
    cases request with
    | writeEntryWithOutbox input => exact serves_write sound unused linked available
    | read message =>
      exact ⟨keeps_of_entries sound rfl rfl, Tables.execute_intact fun _ => id,
        tells_read message⟩
    | markOutboxDelivered outboxId =>
      exact ⟨keeps_of_entries sound rfl rfl, Tables.execute_intact fun _ => id,
        trivial⟩
    | incrementOutboxAttempt outboxId =>
      exact ⟨keeps_of_entries sound rfl rfl, Tables.execute_intact fun _ => id,
        trivial⟩
    | markOutboxFailed outboxId =>
      exact ⟨keeps_of_entries sound rfl rfl, Tables.execute_intact fun _ => id,
        trivial⟩

/-! The in-memory repository. -/

namespace Memory

/-- Indexes that agree with the entries, and tips that have a hash. -/
def view : ChainView Memory where
  sound memory := memory.store.Consistent ∧
    ∀ entryType tip, memory.store.chainTips.lookup entryType = some tip → tip.hash ≠ ""
  tipHash memory entryType := (memory.store.chainTips.lookup entryType).map ChainTip.hash
  taken memory entryType key := memory.store.idempotencyIndex.lookup (entryType, key) ≠ none

omit [Sha256] in
theorem keeps_of_sameEntries {moves : String → Prop} {before after : Memory}
    (sound : view.sound before) (same : InMemory.SameEntries after.store before.store) :
    view.Keeps moves before after where
  sound := ⟨same.consistent sound.1, same.chainTips ▸ sound.2⟩
  tips := fun entryType _ => by simp only [view, same.chainTips]
  taken := fun entryType key => by simp only [view, same.idempotencyIndex]; exact id

omit [Sha256] in
/-- The right link is not refused, whatever the position of the tip. -/
theorem nextPosition_of_links {memory : Memory} {input : EntryWriteInput} {err : RepositoryError}
    (sound : view.sound memory) (links : view.Links memory input.entryType input.previousHash) :
    memory.store.nextPosition input ≠ .error err := by
  unfold ChainView.Links at links
  simp only [view] at links
  unfold InMemory.nextPosition
  cases found : memory.store.chainTips.lookup input.entryType with
  | none =>
    rw [found] at links
    have named : input.previousHash.isEmpty = false := by simpa using links
    simp [named]
  | some tip =>
    rw [found] at links
    have linked : tip.hash = input.previousHash := Eq.symm links
    have named : input.previousHash.isEmpty = false := by
      simpa [← linked] using sound.2 input.entryType tip found
    dsimp only
    rw [named, if_neg (by simp)]
    split
    · simp [linked]
    · simp

theorem serves_write {client : Nat} {input : EntryWriteInput} {memory : Memory} {ids : FreshIds}
    (sound : view.sound memory) (unused : memory.store.Unused ids)
    (links : view.Links memory input.entryType input.previousHash) :
    view.Serves (.writeEntryWithOutbox input) (memory.store.writeEntryWithOutbox ids input).1 memory
      (memory.executed ids client (.writeEntryWithOutbox input)) := by
  have store : (memory.executed ids client (.writeEntryWithOutbox input)).store =
    (memory.store.writeEntryWithOutbox ids input).2 := rfl
  rcases memory.store.writeEntryWithOutbox_cases ids input with
    ⟨taken, refused⟩ | ⟨-, err, rejected, -⟩ | ⟨result, after, nextPosition, wrote, added⟩
  · have unchanged : (memory.executed ids client (.writeEntryWithOutbox input)).store =
        memory.store := by
      rw [store, refused]
    rw [refused]
    refine ⟨keeps_of_sameEntries sound (unchanged ▸ .refl _), (fun same => by cases same),
      fun err same => ?_⟩
    cases Except.error.inj same
    refine ⟨rfl, ?_⟩
    unfold InMemory.keyTaken at taken
    obtain ⟨key, keyed, present⟩ := (Option.any_eq_true_iff_get _ _).mp taken |>.elim fun some_ get =>
      (⟨_, (Option.some_get some_).symm, get⟩ : ∃ key, input.idempotencyKey = some key ∧
        (memory.store.idempotencyIndex.lookup (input.entryType, key)).isSome = true)
    refine ⟨key, keyed, ?_⟩
    simp only [view, unchanged]
    exact Option.isSome_iff_ne_none.mp present
  · exact absurd rejected (nextPosition_of_links sound links)
  · have entry := added.entry
    have typed : result.entry.entryType = input.entryType := by rw [entry]; rfl
    have tips : after.chainTips =
        memory.store.chainTips.insert input.entryType result.entry.tip := by
      rw [added.after, InMemory.chainTips_add, typed]
    rw [wrote] at store ⊢
    refine ⟨⟨⟨?_, ?_⟩, ?_, ?_⟩, (fun same => by cases same),
      fun err same => by cases same⟩
    · rw [store]
      exact added.consistent unused sound.1
    · intro entryType tip
      rw [store, tips]
      by_cases own : entryType = input.entryType
      · subst own
        rw [AList.lookup_insert]
        rintro ⟨⟩
        rw [entry]
        exact sha256Hex_ne_empty _
      · rw [AList.lookup_insert_ne own]
        exact sound.2 entryType tip
    · intro entryType another
      simp only [view, store, tips]
      rw [AList.lookup_insert_ne (Ne.symm another)]
    · intro entryType key taken
      simp only [view, store, added.after]
      cases keyed : result.entry.idempotencyKey with
      | none => rwa [InMemory.idempotencyIndex_add_none keyed]
      | some own =>
        rw [InMemory.idempotencyIndex_add_some keyed]
        by_cases same : (entryType, key) = (result.entry.entryType, own)
        · rw [same, AList.lookup_insert]
          simp
        · rwa [AList.lookup_insert_ne same]

omit [Sha256] in
/-- A read of the maps says what the chains and keys are. -/
theorem tells_read {memory after : Memory} (sound : view.sound memory) (message : ReadRequest) :
    view.Tells memory after (.read message) (memory.store.query message) := by
  cases message with
  | getChainTip entryType =>
    simp only [ChainView.Tells, view, InMemory.query]
    cases memory.store.chainTips.lookup entryType with
    | none => rfl
    | some tip => exact ⟨tip, rfl, rfl⟩
  | findIdempotent entryType key =>
    refine ⟨_, rfl, fun taken => ?_⟩
    obtain ⟨id, indexed⟩ := Option.ne_none_iff_exists'.mp taken
    obtain ⟨entry, stored, -⟩ := (sound.1.keys entryType key id).mp indexed
    rw [indexed, Option.bind_some, stored]
    simp
  | _ => trivial

theorem execute_intact {store : InMemory} {ids : FreshIds} {request : RepositoryRequest}
    (notAppend : ∀ entryType, ¬request.Appends entryType) :
    (store.execute ids request).1 ≠ .error .chainIntegrityViolation := by
  have updated (outboxId : Uuid) (change : LedgerWriteOutbox.Change) :
      (store.updateOutbox outboxId change).1 ≠ .error .chainIntegrityViolation := by
    unfold InMemory.updateOutbox
    split <;> simp
  cases request with
  | read message =>
    cases message with
    | getEntry entryId => exact requireRow_intact _
    | getChainTip entryType => exact requireRow_intact _
    | getEntryByHash entryType entryHash => exact requireRow_intact _
    | _ => exact fun same => by cases same
  | writeEntryWithOutbox input => exact (notAppend input.entryType rfl).elim
  | markOutboxDelivered outboxId => exact updated _ _
  | incrementOutboxAttempt outboxId => exact updated _ _
  | markOutboxFailed outboxId => exact updated _ _

/-- The in-memory repository can be depended on. -/
def dependable : Dependable inMemory where
  toChainView := view
  environment := fun sound moved => keeps_of_sameEntries sound (Memory.Moves.sameEntries moved)
  performs := by
    intro client request reply memory after sound linked performed available
    cases performed with
    | executed ids unused =>
      cases request with
      | writeEntryWithOutbox input => exact serves_write sound unused linked
      | read message =>
        exact ⟨keeps_of_sameEntries sound (.refl _), execute_intact fun _ => id,
          tells_read sound message⟩
      | markOutboxDelivered outboxId =>
        exact ⟨keeps_of_sameEntries sound (InMemory.updateOutbox_sameEntries _ _),
          execute_intact fun _ => id, trivial⟩
      | incrementOutboxAttempt outboxId =>
        exact ⟨keeps_of_sameEntries sound (InMemory.updateOutbox_sameEntries _ _),
          execute_intact fun _ => id, trivial⟩
      | markOutboxFailed outboxId =>
        exact ⟨keeps_of_sameEntries sound (InMemory.updateOutbox_sameEntries _ _),
          execute_intact fun _ => id, trivial⟩

end Memory

end ImmutableLedger
