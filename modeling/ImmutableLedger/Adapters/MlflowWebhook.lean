import ImmutableLedger.Clients.Idempotency
import ImmutableLedger.Clients.LedgerClient
import ImmutableLedger.Clients.Redelivery
import ImmutableLedger.Crypto.Hmac
import ImmutableLedger.Json.Encodable
import ImmutableLedger.Json.Loads
import ImmutableLedger.Python.Operations
import ImmutableLedger.Python.Tenths

/-! The listener for MLflow webhooks.

A webhook may be delivered more than once, each time to another process. Without an identifier of
the delivery the key of the entry is made with the built-in `hash` of the process.
-/

set_option autoImplicit false

namespace ImmutableLedger.Mlflow

open Python Json

variable {F P : Type}

theorem decimal_injective : Function.Injective decimal := by
  have shown (number : Int) : decimal number = str number.repr := by
    cases number <;> simp [decimal, Int.repr, Nat.repr, str]
  intro first second same
  rw [shown, shown] at same
  exact Int.repr_injective (str_injective same)

structure Request where
  payload : Bytes
  /-- What `request.headers` has for a name. -/
  header : Str → Option Str
  /-- Whether the content type is one of JSON. -/
  isJson : Bool

/-- `request.headers.get(name, "")` -/
def Request.get (request : Request) (name : String) : Str := (request.header (str name)).getD []

/-- What the processes of a deployment share. -/
structure Listener (F : Type) where
  webhookHmacSecret : Str
  /-- `json.loads` of bytes. -/
  loads : Bytes → Loaded F

/-- `request.get_json(silent=True)` -/
def Listener.getJson (listener : Listener F) (request : Request) : Except Exn (Value F) :=
  if request.isJson then
    match listener.loads request.payload with
    | .value body => .ok body
    | .decodeError => .ok .none
    | .raises exception => .error exception
  else .ok .none

/-- `payload_bytes.decode('utf-8')` -/
def decoded (payload : Bytes) : Except Exn Str :=
  match Str.decode payload with
  | some text => .ok text
  | none => .error .other

/-- `hmac.compare_digest`, which compares texts only if they are ASCII. -/
def compareDigest (expected actual : Str) : Except Exn Bool :=
  if actual.all fun point => point.code < 128 then .ok (decide (expected = actual))
  else .error .typeError

def verifySignature [Sha256] (secret : Str) (request : Request) : Except Exn Bool :=
  if secret = [] then .ok true
  else
    let sigHeader := request.get "X-MLflow-Signature"
    if sigHeader.startsWith (str "v1,") then do
      let payload ← decoded request.payload
      let signingInput := request.get "X-MLflow-Delivery-Id" ++ str "." ++
        request.get "X-MLflow-Timestamp" ++ str "." ++ payload
      let key ← secret.encoded
      let message ← signingInput.encoded
      compareDigest ((base64Encode (hmacSha256 key message)).map .char) (sigHeader.drop 3)
    else .ok false

section

variable [Interpreter F]

def buildEntryType (entity action : Value F) : Str :=
  str "mlflow." ++ entity.text ++ str "." ++ action.text

/-- A correlation with a name and a version, which may be empty. -/
def correlationId (name version : Value F) : Str :=
  if version.truthy then str "mlflow:" ++ name.text ++ str ":v" ++ version.text
  else str "mlflow:" ++ name.text

def buildCorrelationId (data : Value F) : Except Exn Str := do
  let name ← data.get (str "name") (.str [])
  let version ← data.get (str "version") (.str [])
  .ok (correlationId name version)

/-- `json.dumps(value, sort_keys=True)` -/
def sorted : Layout F := { Json.default with order := some Str.codes }

def buildIdempotencyKey (hash : Str → Int) (request : Request) (body entity action : Value F) : Str :=
  let deliveryId := request.get "X-MLflow-Delivery-Id"
  if deliveryId = [] then
    entity.text ++ str "." ++ action.text ++ str "." ++ decimal (hash (sorted.write body))
  else deliveryId

/-- `json.dumps(value, sort_keys=True, separators=(",", ":"))` -/
def compact : Layout F := { canonical with escape := escapeAscii }

def computeInputHash [Sha256] (data : Value F) : Except Exn Str := do
  let bytes ← (compact.write data).encoded
  .ok (str (sha256Hex bytes))

/-- The content of an entry. -/
def contentOf (entity action timestamp data : Value F) : Str :=
  Json.default.write (.dict [(str "entity", entity), (str "action", action),
    (str "timestamp", timestamp), (str "data", data)])

def agentId (name : Value F) : Str := str "mlflow-registry:" ++ name.text

/-- The arguments of the call for a body. -/
def webhookArgs [Sha256] (hash : Str → Int) (request : Request) (body : Value F) :
    Except Exn LedgerClient.Args := do
  let entity ← body.get (str "entity") (.str (str "unknown"))
  let action ← body.get (str "action") (.str (str "unknown"))
  let data ← body.get (str "data") (.dict [])
  let timestamp ← body.get (str "timestamp") (.str [])
  let correlationId ← buildCorrelationId data
  let inputHash ← computeInputHash data
  let name ← data.get (str "name") (.str (str "unknown"))
  .ok
    { entryType := buildEntryType entity action
      agentId := agentId name
      content := contentOf entity action timestamp data
      contentType := str "application/mlflow-webhook+json"
      sourceId := str "mlflow-registry"
      correlationId
      idempotencyKey := buildIdempotencyKey hash request body entity action
      inputHash
      writerSignature := []
      signerKeyReference := []
      attestationReport := [] }

/-- The call that a request leads to, or the status that it is answered with. What is not caught is
answered with 500. -/
def received [Sha256] (listener : Listener F) (hash : Str → Int) (request : Request) :
    Except Nat LedgerClient.Args :=
  match verifySignature listener.webhookHmacSecret request with
  | .error _ => .error 500
  | .ok false => .error 401
  | .ok true =>
    match listener.getJson request with
    | .error _ => .error 500
    | .ok body =>
      if body.truthy then
        match webhookArgs hash request body with
        | .error _ => .error 500
        | .ok args => .ok args
      else .error 400

inductive Response where
  | recorded (entryType : Str) (entryHash entryId : String) (chainPosition : Int64)
  | refused (status : Nat)

def Response.Succeeded : Response → Prop
  | .recorded _ _ _ _ => True
  | .refused _ => False

/-- A delivery: the process that it is made to and the ledger as it is then. -/
structure Attempt (P : Type) where
  process : P
  uuid4 : Str
  /-- What others have written since the attempt before. -/
  meanwhile : List LedgerEntryRecord
  /-- What the ledger gives to a new entry, if it can be reached. -/
  ledger : Option Idempotency.Stamp

def Attempt.Reached (attempt : Attempt P) : Prop := attempt.ledger.isSome

/-- `client.issue_receipt`, and what it adds to the ledger. -/
def Attempt.issueReceipt (config : AppConfig) (attempt : Attempt P) (args : LedgerClient.Args)
    (stored : List LedgerEntryRecord) : Except Exn Grpc.ProofReceipt × List LedgerEntryRecord :=
  match LedgerClient.writeEntryRequest attempt.uuid4 args, attempt.ledger with
  | .ok message, some stamp =>
    match Idempotency.issueReceipt config stamp (Grpc.issueReceiptInput message) stored with
    | (.ok receipt, added) => (.ok (Grpc.proofReceipt receipt), added)
    | (.error _, added) => (.error .other, added)
  | _, _ => (.error .other, [])

def recordedAs (args : LedgerClient.Args) (receipt : Grpc.ProofReceipt) : Response :=
  .recorded args.entryType receipt.entryHash receipt.entryId receipt.chainPosition

def receiveWebhook [Sha256] (listener : Listener F) (config : AppConfig) (hash : P → Str → Int)
    (request : Request) (attempt : Attempt P) (stored : List LedgerEntryRecord) :
    Response × List LedgerEntryRecord :=
  match received listener (hash attempt.process) request with
  | .error status => (.refused status, [])
  | .ok args =>
    match attempt.issueReceipt config args stored with
    | (.ok receipt, added) => (recordedAs args receipt, added)
    | (.error _, added) => (.refused 502, added)

/-- However often a webhook is delivered, to whichever processes, it is recorded at most once and
has one receipt. -/
def RecordedOnce [Sha256] (listener : Listener F) (config : AppConfig) (hash : P → Str → Int)
    (request : Request) : Prop :=
  Redelivery.RecordedOnce Attempt.meanwhile (receiveWebhook listener config hash request)
    Response.Succeeded Attempt.Reached

/-! The webhooks that can be recorded. -/

/-- `body.get(key, otherwise)`, of a body that is an object. -/
def field (body : Dict (Value F)) (key : String) (otherwise : Value F) : Value F :=
  (body.lookup (str key)).getD otherwise

def entityOf (body : Dict (Value F)) : Value F := field body "entity" (.str (str "unknown"))

def actionOf (body : Dict (Value F)) : Value F := field body "action" (.str (str "unknown"))

/-- The texts that are made of a body and its data. -/
def textsOf (body data : Dict (Value F)) : List Str :=
  [compact.write (.dict data),
    contentOf (entityOf body) (actionOf body) (field body "timestamp" (.str [])) (.dict data),
    buildEntryType (entityOf body) (actionOf body),
    agentId (field data "name" (.str (str "unknown"))),
    correlationId (field data "name" (.str [])) (field data "version" (.str []))]

structure Recordable [Sha256] (listener : Listener F) (config : AppConfig) (request : Request)
    (body data : Dict (Value F)) : Prop where
  verified : verifySignature listener.webhookHmacSecret request = .ok true
  loaded : listener.getJson request = .ok (.dict body)
  nonempty : body ≠ []
  object : field body "data" (.dict []) = .dict data
  encodable : ∀ text ∈ textsOf body data, text.hasSurrogate = false
  small : ∀ bytes, (contentOf (entityOf body) (actionOf body) (field body "timestamp" (.str []))
    (.dict data)).encode = some bytes → bytes.length ≤ config.maxContentSizeBytes

/-- The arguments of the call for a body with its data. -/
def argsOf [Sha256] (hash : Str → Int) (request : Request) (body data : Dict (Value F))
    (bytes : Bytes) : LedgerClient.Args where
  entryType := buildEntryType (entityOf body) (actionOf body)
  agentId := agentId (field data "name" (.str (str "unknown")))
  content := contentOf (entityOf body) (actionOf body) (field body "timestamp" (.str [])) (.dict data)
  contentType := str "application/mlflow-webhook+json"
  sourceId := str "mlflow-registry"
  correlationId := correlationId (field data "name" (.str [])) (field data "version" (.str []))
  idempotencyKey := buildIdempotencyKey hash request (.dict body) (entityOf body) (actionOf body)
  inputHash := str (sha256Hex bytes)
  writerSignature := []
  signerKeyReference := []
  attestationReport := []

variable [Sha256] {listener : Listener F} {config : AppConfig} {request : Request}
  {body data : Dict (Value F)}

theorem webhookArgs_ok {hash : Str → Int} {args : LedgerClient.Args} :
    webhookArgs hash request (.dict body) = .ok args ↔
      ∃ data bytes, field body "data" (.dict []) = .dict data ∧
        (compact.write (.dict data)).encode = some bytes ∧ args = argsOf hash request body data bytes := by
  have whole : webhookArgs hash request (.dict body) = (do
      let correlationId ← buildCorrelationId (field body "data" (.dict []))
      let inputHash ← computeInputHash (field body "data" (.dict []))
      let name ← (field body "data" (.dict [])).get (str "name") (.str (str "unknown"))
      .ok
        { entryType := buildEntryType (entityOf body) (actionOf body)
          agentId := agentId name
          content := contentOf (entityOf body) (actionOf body) (field body "timestamp" (.str []))
            (field body "data" (.dict []))
          contentType := str "application/mlflow-webhook+json"
          sourceId := str "mlflow-registry"
          correlationId
          idempotencyKey :=
            buildIdempotencyKey hash request (.dict body) (entityOf body) (actionOf body)
          inputHash
          writerSignature := []
          signerKeyReference := []
          attestationReport := [] }) := rfl
  rw [whole]
  cases field body "data" (.dict []) with
  | dict data =>
    simp only [buildCorrelationId, computeInputHash, get_dict, bind_ok, Except.ok.injEq,
      Str.encoded_ok, Value.dict.injEq, exists_eq_left', argsOf, field, eq_comm (a := args)]
    constructor
    · rintro ⟨inputHash, ⟨bytes, encoded, rfl⟩, rfl⟩
      exact ⟨_, bytes, rfl, encoded, rfl⟩
    · rintro ⟨_, bytes, rfl, encoded, rfl⟩
      exact ⟨_, ⟨bytes, encoded, rfl⟩, rfl⟩
  | _ => simp [buildCorrelationId, Value.get, bind, Except.bind]

theorem received_ok {hash : Str → Int} {args : LedgerClient.Args} :
    received listener hash request = .ok args ↔
      verifySignature listener.webhookHmacSecret request = .ok true ∧
        ∃ body data bytes, listener.getJson request = .ok (.dict body) ∧ body ≠ [] ∧
          field body "data" (.dict []) = .dict data ∧
          (compact.write (.dict data)).encode = some bytes ∧
          args = argsOf hash request body data bytes := by
  rw [received]
  cases verifySignature listener.webhookHmacSecret request with
  | error exception => simp
  | ok verified =>
    cases verified with
    | false => simp
    | true =>
      simp only [true_and]
      cases listener.getJson request with
      | error exception => simp
      | ok body =>
        dsimp only
        cases body with
        | dict body =>
          have made := @webhookArgs_ok F _ _ request body hash args
          simp only [Except.ok.injEq, Value.dict.injEq]
          cases body with
          | nil =>
            have falsy : (Value.dict [] : Value F).truthy = false := rfl
            simp [falsy]
          | cons member rest =>
            have truthy : (Value.dict (member :: rest)).truthy = true := rfl
            rw [if_pos truthy]
            cases outcome : webhookArgs hash request (.dict (member :: rest)) with
            | error exception => simp_all
            | ok found =>
              rw [outcome] at made
              rw [Except.ok.injEq] at made
              show Except.ok found = Except.ok args ↔ _
              rw [Except.ok.injEq, made]
              constructor
              · rintro ⟨data, bytes, object, encoded, same⟩
                exact ⟨_, data, bytes, rfl, List.cons_ne_nil _ _, object, encoded, same⟩
              · rintro ⟨body, data, bytes, rfl, -, object, encoded, same⟩
                exact ⟨data, bytes, object, encoded, same⟩
        | _ =>
          simp only [Except.ok.injEq, reduceCtorEq, false_and, exists_false, iff_false]
          split <;> simp [webhookArgs, Value.get, bind, Except.bind]

omit [Sha256] in
theorem buildIdempotencyKey_ne {hash : Str → Int} (entity action : Value F) :
    buildIdempotencyKey hash request (.dict body) entity action ≠ [] := by
  rw [buildIdempotencyKey]
  split
  · simp [str]
  · assumption

/-- A webhook with an identifier of its delivery has the same call in every process. -/
theorem received_identified (identified : request.get "X-MLflow-Delivery-Id" ≠ [])
    (first second : Str → Int) :
    received listener first request = received listener second request := by
  have key (body entity action : Value F) : buildIdempotencyKey first request body entity action =
      buildIdempotencyKey second request body entity action := by
    simp only [buildIdempotencyKey, if_neg identified]
  simp only [received, webhookArgs, key]

/-! What a delivery answers and adds. -/

variable {hash : P → Str → Int} {attempt : Attempt P} {stored : List LedgerEntryRecord}

/-- A delivery is refused and adds nothing, or it is answered with a receipt of the ledger. -/
theorem receiveWebhook_cases :
    (∃ status, receiveWebhook listener config hash request attempt stored = (.refused status, [])) ∨
      ∃ args message stamp receipt added,
        received listener (hash attempt.process) request = .ok args ∧
        LedgerClient.writeEntryRequest attempt.uuid4 args = .ok message ∧
        attempt.ledger = some stamp ∧
        Idempotency.issueReceipt config stamp (Grpc.issueReceiptInput message) stored =
          (.ok receipt, added) ∧
        receiveWebhook listener config hash request attempt stored =
          (recordedAs args (Grpc.proofReceipt receipt), added) := by
  rw [receiveWebhook]
  cases call : received listener (hash attempt.process) request with
  | error status => exact .inl ⟨status, rfl⟩
  | ok args =>
    dsimp only
    rw [Attempt.issueReceipt]
    cases sent : LedgerClient.writeEntryRequest attempt.uuid4 args with
    | error exception => exact .inl ⟨502, rfl⟩
    | ok message =>
      cases reached : attempt.ledger with
      | none => exact .inl ⟨502, rfl⟩
      | some stamp =>
        dsimp only
        cases answer : Idempotency.issueReceipt config stamp (Grpc.issueReceiptInput message) stored with
        | mk outcome added =>
          cases outcome with
          | error err =>
            cases Idempotency.issueReceipt_error answer
            exact .inl ⟨502, rfl⟩
          | ok receipt => exact .inr ⟨args, message, stamp, receipt, added, rfl, sent, rfl, answer, rfl⟩

/-- Every process makes the same call, and the ledger has an entry for it. -/
def Settled (listener : Listener F) (config : AppConfig) (hash : P → Str → Int) (request : Request)
    (response : Response) (stored : List LedgerEntryRecord) : Prop :=
  ∃ args message receipt, (∀ process, received listener (hash process) request = .ok args) ∧
    (∀ uuid4, LedgerClient.writeEntryRequest uuid4 args = .ok message) ∧
    Idempotency.Settled config (Grpc.issueReceiptInput message) receipt stored ∧
    response = recordedAs args (Grpc.proofReceipt receipt)

theorem Settled.answer {response : Response}
    (settled : Settled listener config hash request response stored) :
    receiveWebhook listener config hash request attempt stored =
      (if attempt.ledger.isSome then response else .refused 502, []) := by
  obtain ⟨args, message, receipt, call, sent, held, rfl⟩ := settled
  simp only [receiveWebhook, call, Attempt.issueReceipt, sent]
  cases attempt.ledger with
  | none => rfl
  | some stamp =>
    simp only [held.issueReceipt]
    rfl

theorem received_keyed {hash : Str → Int} {args : LedgerClient.Args}
    (call : received listener hash request = .ok args) : args.idempotencyKey ≠ [] := by
  obtain ⟨-, body, data, bytes, -, -, -, -, rfl⟩ := received_ok.mp call
  exact buildIdempotencyKey_ne _ _

/-- When every process makes the same call, a success settles the response. -/
theorem settles_of_same
    (same : ∀ first second, received listener (hash first) request =
      received listener (hash second) request) :
    Redelivery.Settles (receiveWebhook listener config hash request) Response.Succeeded
      Attempt.Reached (Settled listener config hash request) where
  keep more settled := by
    obtain ⟨args, message, receipt, call, sent, held, response⟩ := settled
    exact ⟨args, message, receipt, call, sent, held.append more, response⟩
  added {attempt stored} := by
    rcases receiveWebhook_cases (F := F) with ⟨status, refused⟩ |
      ⟨args, message, stamp, receipt, added, -, -, -, issued, answered⟩
    · rw [refused]
      exact Nat.zero_le _
    · rw [answered]
      exact (Idempotency.issueReceipt_ok issued).1
  failed {attempt stored} failure := by
    rcases receiveWebhook_cases (F := F) with ⟨status, refused⟩ |
      ⟨args, message, stamp, receipt, added, -, -, -, -, answered⟩
    · rw [refused]
    · rw [answered] at failure
      exact absurd trivial failure
  settle {attempt stored} success := by
    rcases receiveWebhook_cases (F := F) with ⟨status, refused⟩ |
      ⟨args, message, stamp, receipt, added, call, sent, -, issued, answered⟩
    · rw [refused] at success
      exact success.elim
    · rw [answered]
      refine ⟨args, message, receipt, fun process => (same _ _).trans call, fun uuid4 => ?_,
        (Idempotency.issueReceipt_ok issued).2, rfl⟩
      exact (LedgerClient.writeEntryRequest_keyed (received_keyed call)).trans sent
  quiet settled := by rw [settled.answer]
  same settled reached := by
    rw [settled.answer]
    exact if_pos reached

theorem recordedOnce_of_same
    (same : ∀ first second, received listener (hash first) request =
      received listener (hash second) request) :
    RecordedOnce listener config hash request :=
  (settles_of_same same).recordedOnce

/-- A webhook that no delivery of which succeeds is never recorded. -/
theorem recordedOnce_of_refused
    (refused : ∀ attempt stored, ∃ status,
      receiveWebhook listener config hash request attempt stored = (.refused status, [])) :
    RecordedOnce listener config hash request := by
  apply @Redelivery.Settles.recordedOnce _ _ _ _ _ _ _ fun _ _ => False
  constructor
  case keep => exact fun _ settled => settled.elim
  case quiet | same => exact fun settled => settled.elim
  case added | failed | settle =>
    intro attempt stored
    obtain ⟨status, answer⟩ := refused attempt stored
    simp [answer, Response.Succeeded]

/-- A success is one of a webhook that can be recorded. -/
theorem recordable_of_issued {hash : Str → Int} {uuid4 : Str} {args : LedgerClient.Args}
    {message : Grpc.WriteEntryRequest} (call : received listener hash request = .ok args)
    (sent : LedgerClient.writeEntryRequest uuid4 args = .ok message)
    (valid : validate config (Grpc.issueReceiptInput message) = .ok ()) :
    ∃ body data, Recordable listener config request body data := by
  have keyed := received_keyed call
  obtain ⟨verified, body, data, bytes, loaded, nonempty, object, encoded, rfl⟩ := received_ok.mp call
  obtain ⟨-, plain⟩ := (LedgerClient.exists_writeEntryRequest keyed).mp ⟨message, sent⟩
  have whole := (LedgerClient.writeEntryRequest_ok keyed sent).content
  simp only [LedgerClient.Args.texts, argsOf, List.forall_mem_cons] at plain
  obtain ⟨content, entryType, agentId, -, -, correlationId, -, -, -⟩ := plain
  refine ⟨body, data, verified, loaded, nonempty, object, ?_, ?_⟩
  · have input : (compact.write (.dict data : Value F)).hasSurrogate = false := by
      have isSome := @Str.encode_isSome (compact.write (.dict data : Value F))
      rw [encoded] at isSome
      simpa using isSome.symm
    simp only [textsOf, List.forall_mem_cons]
    exact ⟨input, content, entryType, agentId, correlationId, fun _ none => absurd none List.not_mem_nil⟩
  · intro content found
    cases whole.symm.trans found
    exact Idempotency.small_of_valid valid

theorem Recordable.received (recordable : Recordable listener config request body data)
    (hash : Str → Int) :
    ∃ bytes, received listener hash request = .ok (argsOf hash request body data bytes) := by
  have plain := recordable.encodable (compact.write (.dict data)) (List.mem_cons_self ..)
  obtain ⟨bytes, encoded⟩ := Str.exists_encoded.mpr plain
  exact ⟨bytes, received_ok.mpr ⟨recordable.verified, body, data, bytes, recordable.loaded,
    recordable.nonempty, recordable.object, Str.encoded_ok.mp encoded, rfl⟩⟩

/-- Without an identifier of the delivery, what can be recorded is sent and is valid. -/
theorem Recordable.sent (recordable : Recordable listener config request body data)
    (unidentified : request.get "X-MLflow-Delivery-Id" = []) (hash : Str → Int) (uuid4 : Str)
    (bytes : Bytes) :
    ∃ message,
      LedgerClient.writeEntryRequest uuid4 (argsOf hash request body data bytes) = .ok message ∧
        validate config (Grpc.issueReceiptInput message) = .ok () := by
  have keyed : (argsOf hash request body data bytes).idempotencyKey ≠ [] := buildIdempotencyKey_ne _ _
  have plain := recordable.encodable
  simp only [textsOf, List.forall_mem_cons] at plain
  obtain ⟨-, content, entryType, agentId, correlationId, -⟩ := plain
  have named := entryType
  simp only [buildEntryType, Str.hasSurrogate_append, Str.hasSurrogate_str, Bool.false_or,
    Bool.or_false, Bool.or_eq_false_iff] at named
  have key : (argsOf hash request body data bytes).idempotencyKey.hasSurrogate = false := by
    simp only [argsOf, buildIdempotencyKey, if_pos unidentified, Str.hasSurrogate_append,
      Str.hasSurrogate_str, decimal_plain, named.1, named.2, Bool.or_false]
  obtain ⟨message, made⟩ := (@LedgerClient.exists_writeEntryRequest uuid4 _ keyed).mpr ⟨key, by
    simp only [LedgerClient.Args.texts, argsOf, List.forall_mem_cons]
    exact ⟨content, entryType, agentId, Str.hasSurrogate_str _, Str.hasSurrogate_str _, correlationId,
      Str.hasSurrogate_str _, rfl, fun _ none => absurd none List.not_mem_nil⟩⟩
  refine ⟨message, made, ?_⟩
  have carried := LedgerClient.writeEntryRequest_ok keyed made
  apply Idempotency.valid_of_small
  · exact LedgerClient.ne_empty carried.entryType (by simp [argsOf, buildEntryType, str])
  · exact LedgerClient.ne_empty carried.agentId (by simp [argsOf, Mlflow.agentId, str])
  · exact LedgerClient.ne_empty carried.contentType (by simp [argsOf, str])
  · exact LedgerClient.ne_empty carried.sourceId (by simp [argsOf, str])
  · exact recordable.small _ carried.content

/-- A delivery of what can be recorded adds an entry when its key is not taken. -/
theorem Recordable.adds (recordable : Recordable listener config request body data)
    (unidentified : request.get "X-MLflow-Delivery-Id" = []) (process : P) (stamp : Idempotency.Stamp) :
    ∃ message : Grpc.WriteEntryRequest,
      buildIdempotencyKey (hash process) request (.dict body) (entityOf body) (actionOf body) =
        str message.idempotencyKey ∧
      ∀ stored, Idempotency.find (Grpc.issueReceiptInput message) stored = none →
        (receiveWebhook listener config hash request ⟨process, [], [], some stamp⟩ stored).2 =
          [stamp.entry (Grpc.issueReceiptInput message)] := by
  obtain ⟨bytes, call⟩ := recordable.received (hash process)
  obtain ⟨message, sent, valid⟩ := recordable.sent unidentified (hash process) [] bytes
  refine ⟨message, (LedgerClient.writeEntryRequest_ok (received_keyed call) sent).idempotencyKey,
    fun stored unused => ?_⟩
  simp only [receiveWebhook, call, Attempt.issueReceipt, sent,
    Idempotency.issueReceipt_new valid unused]

def someStamp : Idempotency.Stamp where
  entryId := ⟨Vector.replicate 16 1⟩
  hashVersion := entryHashVersion
  entryHash := "a"
  previousHash := "b"
  chainPosition := 1
  writtenTs := ⟨0, by decide, by decide⟩

/-- Two processes whose hashes of a body differ record it twice. -/
theorem Recordable.recorded_twice (recordable : Recordable listener config request body data)
    (unidentified : request.get "X-MLflow-Delivery-Id" = []) {first second : P}
    (differ : hash first (sorted.write (.dict body)) ≠ hash second (sorted.write (.dict body))) :
    ¬ RecordedOnce listener config hash request := by
  obtain ⟨one, keyOne, addsOne⟩ := recordable.adds unidentified first someStamp
  obtain ⟨two, keyTwo, addsTwo⟩ := recordable.adds unidentified second someStamp
  have apart : one.idempotencyKey ≠ two.idempotencyKey := by
    intro same
    have keys := keyOne.trans ((congrArg str same).trans keyTwo.symm)
    simp only [buildIdempotencyKey, if_pos unidentified] at keys
    exact differ (decimal_injective (List.append_cancel_left keys))
  have unused : Idempotency.find (Grpc.issueReceiptInput two)
      [someStamp.entry (Grpc.issueReceiptInput one)] = none := by
    have keyed (message : Grpc.WriteEntryRequest) {key : Str} (same : key = str message.idempotencyKey)
        (nonempty : key ≠ []) : message.idempotencyKey.isEmpty = false := by
      simpa using LedgerClient.ne_empty same nonempty
    simp [Idempotency.find, Idempotency.Stamp.entry, Grpc.issueReceiptInput, apart,
      keyed one keyOne (buildIdempotencyKey_ne _ _), keyed two keyTwo (buildIdempotencyKey_ne _ _)]
  intro once
  have bound := (once [⟨first, [], [], some someStamp⟩, ⟨second, [], [], some someStamp⟩] []).1
  simp only [Redelivery.deliverAll, List.append_nil, List.nil_append, addsOne [] rfl,
    addsTwo _ unused, List.length_append, List.length_singleton] at bound
  omega

theorem recordedOnce_iff : RecordedOnce listener config hash request ↔
    request.get "X-MLflow-Delivery-Id" ≠ [] ∨
      ∀ body data, Recordable listener config request body data → ∀ first second : P,
        hash first (sorted.write (.dict body)) = hash second (sorted.write (.dict body)) := by
  constructor
  · intro once
    by_cases unidentified : request.get "X-MLflow-Delivery-Id" = []
    · right
      intro body data recordable first second
      apply Decidable.byContradiction
      intro differ
      exact recordable.recorded_twice unidentified differ once
    · exact .inl unidentified
  · rintro (identified | alike)
    · exact recordedOnce_of_same fun first second => received_identified identified _ _
    · by_cases recordable : ∃ body data, Recordable listener config request body data
      · obtain ⟨body, data, recordable⟩ := recordable
        apply recordedOnce_of_same
        intro first second
        have key := alike body data recordable first second
        have entity (entity action : Value F) :
            buildIdempotencyKey (hash first) request (.dict body) entity action =
              buildIdempotencyKey (hash second) request (.dict body) entity action := by
          simp only [buildIdempotencyKey, key]
        simp only [received, recordable.verified, recordable.loaded, webhookArgs, entity]
      · apply recordedOnce_of_refused
        intro attempt stored
        rcases receiveWebhook_cases (F := F) with refused |
          ⟨args, message, stamp, receipt, added, call, sent, -, issued, -⟩
        · exact refused
        · exact absurd (recordable_of_issued call sent (Idempotency.issueReceipt_ok issued).2.valid)
            recordable

end

/-! A webhook without an identifier of its delivery. -/

def registered : Dict (Value Tenths) :=
  [(str "action", .str (str "created")), (str "data", .dict [(str "name", .str (str "m"))]),
    (str "entity", .str (str "registered_model"))]

def plainListener : Listener Tenths where
  webhookHmacSecret := []
  loads bytes :=
    match Str.decode bytes with
    | some text => Tenths.dialect.loads.loads text
    | none => .decodeError

def registeredRequest : Request where
  payload := ((canonical.write (.dict registered)).encode).getD []
  header _ := none
  isJson := true

/-- The service with its defaults. -/
def defaults : AppConfig := ⟨1048576, "ARE_LEDGER_GENESIS", 10, 60, 10, 10000⟩

/-- Two processes whose hashes of every text differ. -/
def salted : Bool → Str → Int
  | true, _ => 1
  | false, _ => 0

theorem registered_recordable :
    letI := Fips180.sha256
    Recordable plainListener defaults registeredRequest registered [(str "name", .str (str "m"))] := by
  let := Fips180.sha256
  have floatless : (Value.dict registered).Floatless := fun number part => by
    simp [registered, Value.parts, Value.partsMembers] at part
  have parsed := Tenths.dialect.loads_canonical (by decide +kernel) floatless rfl
  have plain : (canonical.write (.dict registered)).hasSurrogate = false := by decide +kernel
  obtain ⟨bytes, encoded⟩ := Str.exists_encoded.mpr plain
  have encoded := Str.encoded_ok.mp encoded
  refine ⟨rfl, ?_, List.cons_ne_nil _ _, rfl, by decide +kernel, ?_⟩
  · simp only [Listener.getJson, registeredRequest, plainListener, encoded, Option.getD_some,
      Str.decode_encode encoded, parsed, if_true]
  · have small : ((contentOf (entityOf registered) (actionOf registered)
        (field registered "timestamp" (.str [])) (.dict [(str "name", .str (str "m"))])).encode.getD
          []).length ≤ defaults.maxContentSizeBytes := by
      decide +kernel
    intro bytes found
    rw [found] at small
    exact small

theorem registered_recorded_twice :
    letI := Fips180.sha256
    ¬ RecordedOnce plainListener defaults salted registeredRequest := by
  let := Fips180.sha256
  exact registered_recordable.recorded_twice rfl (show salted true _ ≠ salted false _ by decide)

end ImmutableLedger.Mlflow
