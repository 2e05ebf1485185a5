import ImmutableLedger.Repository.Postgres

/-! Repositories as seen by concurrent clients. -/

set_option autoImplicit false

namespace ImmutableLedger

/-- What answers the requests of a repository, client by client. `abandoned` is what may become of
a request whose caller no longer waits for the reply. -/
structure Backend where
  Store : Type
  performs : Nat → (request : RepositoryRequest) → Store → request.Reply → Store → Prop
  abandoned : Nat → RepositoryRequest → Store → Store → Prop
  environment : Store → Store → Prop

/-- The client an entry was written for. -/
structure Origin where
  entryId : Uuid
  client : Nat
  deriving DecidableEq

/-- A request whose reply was lost before its effect was known. -/
structure Inflight where
  client : Nat
  request : RepositoryRequest

/-- Postgres with the requests that may still take effect. `origins` records who wrote what and
answers no request. -/
structure Database where
  tables : Tables
  inflight : List Inflight
  origins : List Origin

namespace Database

def origin (client : Nat) : (request : RepositoryRequest) → request.Reply → List Origin
  | .writeEntryWithOutbox _, .ok result => [⟨WriteResult.entry result |>.entryId, client⟩]
  | _, _ => []

def executed [Sha256] (db : Database) (draw : Draw) (client : Nat) (request : RepositoryRequest) :
    Database where
  tables := (db.tables.execute draw request).2
  inflight := db.inflight
  origins := db.origins ++ origin client request (db.tables.execute draw request).1

def unanswered (db : Database) (client : Nat) (request : RepositoryRequest) : Database :=
  { db with inflight := db.inflight ++ [⟨client, request⟩] }

/-- A request is executed and answered, or refused without effect, or its reply is lost. -/
inductive Performs [Sha256] (client : Nat) (request : RepositoryRequest) (db : Database) :
    request.Reply → Database → Prop where
  | executed (draw : Draw) :
      Performs client request db (db.tables.execute draw request).1
        (db.executed draw client request)
  | refused : Performs client request db (.error .unavailable) db
  | unanswered :
      Performs client request db (.error .unavailable) (db.unanswered client request)

theorem Performs.of_execute [Sha256] {client : Nat} {request : RepositoryRequest} {db : Database}
    {draw : Draw} {reply : request.Reply} {tables : Tables}
    (ran : db.tables.execute draw request = (reply, tables)) :
    Performs client request db reply
      ⟨tables, db.inflight, db.origins ++ origin client request reply⟩ := by
  have performed := @Performs.executed _ client request db draw
  rw [Database.executed, ran] at performed
  exact performed

theorem Performs.read [Sha256] {client : Nat} {message : ReadRequest} {db after : Database}
    {reply : RepositoryRequest.Reply (.read message)}
    (performed : Performs client (.read message) db reply after) :
    after.tables = db.tables ∧
      (reply = db.tables.query message ∨ reply = .error .unavailable) := by
  cases performed with
  | executed draw => exact ⟨rfl, .inl rfl⟩
  | refused => exact ⟨rfl, .inr rfl⟩
  | unanswered => exact ⟨rfl, .inr rfl⟩

theorem Performs.write [Sha256] {client : Nat} {input : EntryWriteInput} {db after : Database}
    {reply : RepositoryRequest.Reply (.writeEntryWithOutbox input)}
    (performed : Performs client (.writeEntryWithOutbox input) db reply after) :
    (∃ err, reply = .error err ∧
      (err = .idempotencyConflict → ∃ key, input.idempotencyKey = some key)) ∨
    ∃ draw result nextPosition, reply = .ok result ∧
      Tables.Committed db.tables draw input result after.tables nextPosition := by
  cases performed with
  | executed draw =>
    obtain ⟨err, rejected, conflict⟩ | ⟨result, reached, nextPosition, wrote, committed⟩ :=
      db.tables.writeEntryWithOutbox_cases
    · exact .inl ⟨err, congrArg Prod.fst rejected, conflict⟩
    · refine .inr ⟨draw, result, nextPosition, congrArg Prod.fst wrote, ?_⟩
      exact (show (db.executed draw client (.writeEntryWithOutbox input)).tables = reached from
        congrArg Prod.snd wrote) ▸ committed
  | refused => exact .inl ⟨.unavailable, rfl, nofun⟩
  | unanswered => exact .inl ⟨.unavailable, rfl, nofun⟩

/-- A lost request takes effect or comes to nothing, and rows of the outbox move about. -/
inductive Moves [Sha256] (db : Database) : Database → Prop where
  | landed (before after : List Inflight) (late : Inflight) (draw : Draw)
      (pending : db.inflight = before ++ late :: after) :
      Moves db { db.executed draw late.client late.request with inflight := before ++ after }
  | lost (before after : List Inflight) (late : Inflight)
      (pending : db.inflight = before ++ late :: after) :
      Moves db { db with inflight := before ++ after }
  | rearranged (outbox : LedgerWriteOutbox) (perm : outbox.rows.Perm db.tables.outbox.rows) :
      Moves db { db with tables := { db.tables with outbox := outbox } }

end Database

def postgres [Sha256] : Backend where
  Store := Database
  performs := Database.Performs
  abandoned client request before after := after = before.unanswered client request
  environment := Database.Moves

end ImmutableLedger
