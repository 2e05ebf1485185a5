import ImmutableLedger.Clients.LedgerClient
import ImmutableLedger.Json.Encodable
import ImmutableLedger.Json.Loads
import ImmutableLedger.Python.Operations
import ImmutableLedger.Python.Tenths

/-! The two detectors of drift: the command of the explorer and the handler of the gateway.

Both look for denials with a correlation that no evaluation of a scope has. They tell denials by
different marks, and both use the content of entries as objects without a check that it is one.
-/

set_option autoImplicit false

namespace ImmutableLedger.Drift

open Python Json

variable {F : Type}

structure Entry where
  entryId : String
  entryType : String
  content : Bytes
  correlationId : String
  deriving DecidableEq

/-- What the detectors take from the standard library. -/
structure Library (F : Type) where
  /-- `json.loads` of a text. -/
  loads : Str → Loaded F
  /-- `json.loads` of bytes, which finds out their encoding. -/
  loadsBytes : Bytes → Loaded F
  /-- `decode("utf-8", errors="ignore")` -/
  decodeIgnore : Bytes → Str

def Entry.typed (entry : Entry) (part : String) : Bool := (str entry.entryType).contains (str part)

def Entry.isScopeEval (entry : Entry) : Bool := entry.typed "scope" && entry.typed "evaluated"

/-- An entry with a correlation that no evaluation of a scope has. -/
def Unmatched (entries : List Entry) (entry : Entry) : Bool :=
  !entry.correlationId.isEmpty &&
    !entries.any fun other => other.isScopeEval && other.correlationId == entry.correlationId

/-- What `json.loads` raises is passed on, but for what a decoder says. -/
def whenLoaded {α : Type} (loaded : Loaded F) (otherwise : α) (next : Value F → Except Exn α) :
    Except Exn α :=
  match loaded with
  | .value content => next content
  | .decodeError => .ok otherwise
  | .raises exception => .error exception

/-- A loop over a list, until something raises. -/
def forEach {α : Type} (action : α → Except Exn Unit) : List α → Except Exn Unit
  | [] => .ok ()
  | item :: rest => do
    action item
    forEach action rest

/-- The texts that a loop collects. -/
def collect {α : Type} (action : α → Except Exn Str) : List α → Except Exn (List Str)
  | [] => .ok []
  | item :: rest => do
    let text ← action item
    let more ← collect action rest
    .ok (text :: more)

/-- A text that is printed or sent is encoded. -/
def output (text : Str) : Except Exn Unit := do
  let _ ← text.encoded
  .ok ()

def deniedRequest : Str := str "denied request"

def Explorer.isDenial (library : Library F) (entry : Entry) : Bool :=
  entry.typed "deny" ||
    (entry.typed "network_activity" && (library.decodeIgnore entry.content).contains (str "Denied"))

def Gateway.holds (entry : Entry) (part : String) : Bool := decide (asBytes part <:+: entry.content)

def Gateway.isDenial (entry : Entry) : Bool :=
  Gateway.holds entry "Denied" || Gateway.holds entry "Blocked" || entry.typed "deny"

def gaps (isDenial : Entry → Bool) (entries : List Entry) : List Entry :=
  (entries.filter isDenial).filter (Unmatched entries)

section

variable [Interpreter F]

/-! `cmd_drift` -/

/-- The action of an evaluation goes into a set together with its resource. -/
def Explorer.scopeAction (content : Value F) : Except Exn Unit := do
  let action ← content.get (str "action_class") (.str [])
  let resource ← content.get (str "resource") (.str [])
  if action.truthy then do
    action.hash
    resource.hash
  else .ok ()

def Explorer.evaluate (library : Library F) (entry : Entry) : Except Exn Unit :=
  whenLoaded (library.loadsBytes entry.content) () scopeAction

/-- What is shown of a method, a destination and a message. -/
def Explorer.shown (method dst msg : Value F) : Str :=
  if method.truthy then method.text ++ str " " ++ dst.text
  else if msg.truthy then msg.text else deniedRequest

def Explorer.detailOf (content : Value F) : Except Exn Str := do
  let endpoint ← content.get (str "dst_endpoint") (.dict [])
  let dst ← endpoint.get (str "domain") (.str (str "unknown"))
  let unmapped ← content.get (str "unmapped") (.dict [])
  let method ← unmapped.get (str "http_method") (.str [])
  let msg ← content.get (str "message") (.str [])
  .ok (shown method dst msg)

def Explorer.detail (library : Library F) (entry : Entry) : Except Exn Str :=
  whenLoaded (library.loadsBytes entry.content) deniedRequest detailOf

/-- The entries that the command reports as gaps. -/
def Explorer.cmdDrift (library : Library F) (entries : List Entry) : Except Exn (List String) := do
  forEach (evaluate library) (entries.filter Entry.isScopeEval)
  let details ← collect (detail library) (gaps (isDenial library) entries)
  forEach output details
  .ok ((gaps (isDenial library) entries).map Entry.entryId)

/-! `get_drift` -/

def Gateway.detailOf (content : Value F) : Except Exn Str := do
  let dst ← content.get (str "dst") (.str deniedRequest)
  let message ← content.get (str "message") dst
  .ok message.text

def Gateway.detail (library : Library F) (entry : Entry) : Except Exn Str :=
  match Str.decode entry.content with
  | some text => whenLoaded (library.loads text) deniedRequest detailOf
  | none => .ok deniedRequest

/-- The gaps of the response, which is encoded as a whole. -/
def Gateway.getDrift (library : Library F) (entries : List Entry) : Except Exn (List String) := do
  let details ← collect (detail library) (gaps isDenial entries)
  forEach output details
  .ok ((gaps isDenial entries).map Entry.entryId)

/-- Neither detector raises, and they report the same entries. -/
def Agree (library : Library F) (entries : List Entry) : Prop :=
  ∃ first second, Explorer.cmdDrift library entries = .ok first ∧
    Gateway.getDrift library entries = .ok second ∧ ∀ entryId, entryId ∈ first ↔ entryId ∈ second

end

/-! Loops. -/

theorem forEach_ok {α : Type} {action : α → Except Exn Unit} {items : List α} :
    forEach action items = .ok () ↔ ∀ item ∈ items, action item = .ok () := by
  induction items with
  | nil => simp [forEach]
  | cons item rest ih => rw [forEach, unit_bind_ok, ih, List.forall_mem_cons]

theorem output_ok {text : Str} : output text = .ok () ↔ text.hasSurrogate = false := by
  rw [← Str.exists_encoded, output, bind_ok]
  simp

theorem collect_output {α : Type} {action : α → Except Exn Str} {items : List α} :
    (∃ found, collect action items = .ok found ∧ forEach output found = .ok ()) ↔
      ∀ item ∈ items, ∃ text, action item = .ok text ∧ text.hasSurrogate = false := by
  induction items with
  | nil => simp [collect, forEach]
  | cons item rest ih =>
    rw [List.forall_mem_cons, ← ih]
    simp only [collect, bind_ok, Except.ok.injEq]
    constructor
    · rintro ⟨_, ⟨text, head, more, tail, rfl⟩, sent⟩
      obtain ⟨first, others⟩ := unit_bind_ok.mp sent
      exact ⟨⟨text, head, output_ok.mp first⟩, more, tail, others⟩
    · rintro ⟨⟨text, head, plain⟩, more, tail, others⟩
      exact ⟨_, ⟨text, head, more, tail, rfl⟩, unit_bind_ok.mpr ⟨output_ok.mpr plain, others⟩⟩

/-- Details that are collected and then sent: every one of them has to be found and encoded. -/
theorem reported_ok {α β : Type} {action : α → Except Exn Str} {items : List α} {result found : β} :
    (do let details ← collect action items
        forEach output details
        .ok result) = Except.ok found ↔
      (∀ item ∈ items, ∃ text, action item = .ok text ∧ text.hasSurrogate = false) ∧
        found = result := by
  rw [← collect_output, bind_ok]
  constructor
  · rintro ⟨details, collected, rest⟩
    obtain ⟨sent, same⟩ := unit_bind_ok.mp rest
    exact ⟨⟨details, collected, sent⟩, (Except.ok.inj same).symm⟩
  · rintro ⟨⟨details, collected, sent⟩, rfl⟩
    exact ⟨details, collected, unit_bind_ok.mpr ⟨sent, rfl⟩⟩

theorem whenLoaded_ok {α : Type} {loaded : Loaded F} {otherwise : α} {next : Value F → Except Exn α}
    {Holds : α → Prop} (fallback : Holds otherwise) :
    (∃ result, whenLoaded loaded otherwise next = .ok result ∧ Holds result) ↔
      (∀ exception, loaded ≠ .raises exception) ∧
        ∀ content, loaded = .value content → ∃ result, next content = .ok result ∧ Holds result := by
  cases loaded with
  | value content => simp [whenLoaded]
  | decodeError => simpa [whenLoaded] using fallback
  | raises exception => simp [whenLoaded]

theorem mem_gaps {isDenial : Entry → Bool} {entries : List Entry} {entry : Entry} :
    entry ∈ gaps isDenial entries ↔
      entry ∈ entries ∧ Unmatched entries entry = true ∧ isDenial entry = true := by
  rw [gaps, List.mem_filter, List.mem_filter, and_assoc, and_comm (a := isDenial entry = true)]

section

variable [Interpreter F] {library : Library F} {entries : List Entry}

/-! The contents that the detectors can use. -/

def field (members : Dict (Value F)) (key : String) (otherwise : Value F) : Value F :=
  (members.lookup (str key)).getD otherwise

/-- The members of an object in a field that may be absent. -/
def under (members : Dict (Value F)) (key : String) : Dict (Value F) :=
  match field members key (.dict []) with
  | .dict inner => inner
  | _ => []

/-- An evaluation is no JSON, or an object whose action and resource can be in a set. -/
def Explorer.Evaluable (library : Library F) (entry : Entry) : Prop :=
  (∀ exception, library.loadsBytes entry.content ≠ .raises exception) ∧
    ∀ content, library.loadsBytes entry.content = .value content → ∃ members, content = .dict members ∧
      ((field members "action_class" (.str [])).truthy →
        (field members "action_class" (.str [])).hashable ∧
        (field members "resource" (.str [])).hashable)

/-- A denial is no JSON, or an object with objects in it, and what is shown of it can be printed. -/
def Explorer.Presentable (library : Library F) (entry : Entry) : Prop :=
  (∀ exception, library.loadsBytes entry.content ≠ .raises exception) ∧
    ∀ content, library.loadsBytes entry.content = .value content → ∃ members, content = .dict members ∧
      ObjectAt (str "dst_endpoint") members ∧ ObjectAt (str "unmapped") members ∧
      (shown (field (under members "unmapped") "http_method" (.str []))
        (field (under members "dst_endpoint") "domain" (.str (str "unknown")))
        (field members "message" (.str []))).hasSurrogate = false

/-- A denial is no JSON in UTF-8, or an object, and what is sent of it can be encoded. -/
def Gateway.Presentable (library : Library F) (entry : Entry) : Prop :=
  ∀ text, Str.decode entry.content = some text →
    (∀ exception, library.loads text ≠ .raises exception) ∧
      ∀ content, library.loads text = .value content → ∃ members, content = .dict members ∧
        (field members "message" (field members "dst" (.str deniedRequest))).text.hasSurrogate = false

theorem deniedRequest_plain : deniedRequest.hasSurrogate = false := Str.hasSurrogate_str _

theorem Explorer.evaluate_ok {entry : Entry} :
    evaluate library entry = .ok () ↔ Evaluable library entry := by
  have loaded := @whenLoaded_ok F _ (library.loadsBytes entry.content) () scopeAction
    (fun _ => True) trivial
  have whole : (∃ result, evaluate library entry = .ok result ∧ True) ↔
      evaluate library entry = .ok () :=
    ⟨fun ⟨_, evaluated, _⟩ => evaluated, fun evaluated => ⟨(), evaluated, trivial⟩⟩
  rw [← whole, evaluate, loaded, Evaluable]
  refine and_congr_right fun _ => forall₂_congr fun content _ => ?_
  cases content with
  | dict members =>
    simp only [scopeAction, get_dict, field, Value.dict.injEq, exists_eq_left', and_true]
    -- The set is reached only when the action is truthy.
    show (∃ result, (if ((members.lookup (str "action_class")).getD (.str [])).truthy then _ else _) =
      Except.ok result) ↔ _
    split
    · next truthy =>
      simp only [truthy, true_implies]
      constructor
      · rintro ⟨result, hashed⟩
        obtain ⟨⟨⟩, action, resource⟩ := bind_ok.mp hashed
        exact ⟨Value.hash_ok.mp action, Value.hash_ok.mp resource⟩
      · rintro ⟨action, resource⟩
        exact ⟨(), bind_ok.mpr ⟨_, Value.hash_ok.mpr action, Value.hash_ok.mpr resource⟩⟩
    · next falsy => simp [falsy]
  | _ => simp [scopeAction, Value.get, bind, Except.bind]

theorem Explorer.detail_ok {entry : Entry} :
    (∃ text, detail library entry = .ok text ∧ text.hasSurrogate = false) ↔
      Presentable library entry := by
  have loaded := @whenLoaded_ok F _ (library.loadsBytes entry.content) deniedRequest detailOf
    (fun text => text.hasSurrogate = false) deniedRequest_plain
  rw [detail, loaded, Presentable]
  refine and_congr_right fun _ => forall₂_congr fun content _ => ?_
  cases content with
  | dict members =>
    have endpoint : ObjectAt (str "dst_endpoint") members ↔
        ∃ inner, field members "dst_endpoint" (.dict []) = .dict inner := objectAt_iff
    have unmapped : ObjectAt (str "unmapped") members ↔
        ∃ inner, field members "unmapped" (.dict []) = .dict inner := objectAt_iff
    have whole : detailOf (.dict members) = (do
        let dst ← (field members "dst_endpoint" (.dict [])).get (str "domain") (.str (str "unknown"))
        let method ← (field members "unmapped" (.dict [])).get (str "http_method") (.str [])
        .ok (shown method dst (field members "message" (.str [])))) := rfl
    simp only [Value.dict.injEq, exists_eq_left', endpoint, unmapped, whole, under]
    cases field members "dst_endpoint" (.dict []) with
    | dict =>
      cases field members "unmapped" (.dict []) with
      | dict => simp [get_dict, field, bind, Except.bind]
      | _ => simp [Value.get, bind, Except.bind]
    | _ => simp [Value.get, bind, Except.bind]
  | _ => simp [detailOf, Value.get, bind, Except.bind]

theorem Gateway.detail_ok {entry : Entry} :
    (∃ text, detail library entry = .ok text ∧ text.hasSurrogate = false) ↔
      Presentable library entry := by
  rw [detail, Presentable]
  cases Str.decode entry.content with
  | none => simpa using deniedRequest_plain
  | some text =>
    have loaded := @whenLoaded_ok F _ (library.loads text) deniedRequest detailOf
      (fun text => text.hasSurrogate = false) deniedRequest_plain
    simp only [Option.some.injEq, forall_eq']
    rw [loaded]
    refine and_congr_right fun _ => forall₂_congr fun content _ => ?_
    cases content with
    | dict members => simp [detailOf, get_dict, field, bind, Except.bind]
    | _ => simp [detailOf, Value.get, bind, Except.bind]

/-! What the detectors report. -/

theorem Explorer.cmdDrift_ok {found : List String} :
    cmdDrift library entries = .ok found ↔
      (∀ entry ∈ entries, entry.isScopeEval → Evaluable library entry) ∧
      (∀ entry ∈ gaps (isDenial library) entries, Presentable library entry) ∧
      found = (gaps (isDenial library) entries).map Entry.entryId := by
  rw [cmdDrift, unit_bind_ok, forEach_ok, reported_ok]
  simp only [detail_ok, evaluate_ok, List.mem_filter, and_imp]

theorem Gateway.getDrift_ok {found : List String} :
    getDrift library entries = .ok found ↔
      (∀ entry ∈ gaps isDenial entries, Presentable library entry) ∧
      found = (gaps isDenial entries).map Entry.entryId := by
  rw [getDrift, reported_ok]
  simp only [detail_ok]

/-- An entry is reported when it is a gap. Its identifier is that of no other entry. -/
theorem mem_ids {isDenial : Entry → Bool} {entry : Entry}
    (identified : ∀ first ∈ entries, ∀ second ∈ entries, first.entryId = second.entryId → first = second)
    (held : entry ∈ entries) :
    entry.entryId ∈ (gaps isDenial entries).map Entry.entryId ↔ entry ∈ gaps isDenial entries := by
  constructor
  · intro listed
    obtain ⟨other, gap, same⟩ := List.mem_map.mp listed
    exact identified other (mem_gaps.mp gap).1 entry held same ▸ gap
  · exact fun gap => List.mem_map_of_mem gap

theorem agree_iff
    (identified : ∀ first ∈ entries, ∀ second ∈ entries, first.entryId = second.entryId → first = second) :
    Agree library entries ↔
      (∀ entry ∈ entries, entry.isScopeEval → Explorer.Evaluable library entry) ∧
      ∀ entry ∈ entries, Unmatched entries entry →
        Explorer.isDenial library entry = Gateway.isDenial entry ∧
        (Gateway.isDenial entry → Explorer.Presentable library entry ∧
          Gateway.Presentable library entry) := by
  constructor
  · rintro ⟨first, second, ran, sent, same⟩
    obtain ⟨evaluable, printed, rfl⟩ := Explorer.cmdDrift_ok.mp ran
    obtain ⟨encoded, rfl⟩ := Gateway.getDrift_ok.mp sent
    refine ⟨evaluable, fun entry held unmatched => ?_⟩
    -- The reports list identifiers, and the marks are compared entry by entry.
    have gap := (mem_ids identified held).symm.trans ((same entry.entryId).trans (mem_ids identified held))
    have marks : Explorer.isDenial library entry = Gateway.isDenial entry := by
      rw [mem_gaps, mem_gaps] at gap
      apply Bool.eq_iff_iff.mpr
      simpa [held, unmatched] using gap
    refine ⟨marks, fun denial => ?_⟩
    have found : entry ∈ gaps Gateway.isDenial entries := mem_gaps.mpr ⟨held, unmatched, denial⟩
    exact ⟨printed entry (gap.mpr found), encoded entry found⟩
  · rintro ⟨evaluable, each⟩
    have gap (entry : Entry) : entry ∈ gaps (Explorer.isDenial library) entries ↔
        entry ∈ gaps Gateway.isDenial entries := by
      rw [mem_gaps, mem_gaps]
      refine and_congr_right fun held => and_congr_right fun unmatched => ?_
      rw [(each entry held unmatched).1]
    have presentable (entry : Entry) (found : entry ∈ gaps Gateway.isDenial entries) :
        Explorer.Presentable library entry ∧ Gateway.Presentable library entry := by
      obtain ⟨held, unmatched, denial⟩ := mem_gaps.mp found
      exact (each entry held unmatched).2 denial
    refine ⟨_, _, Explorer.cmdDrift_ok.mpr ⟨evaluable, fun entry found => ?_, rfl⟩,
      Gateway.getDrift_ok.mpr ⟨fun entry found => (presentable entry found).2, rfl⟩, fun entryId => ?_⟩
    · exact (presentable entry ((gap entry).mp found)).1
    · simp only [List.mem_map, gap]

end

/-- A library that decodes UTF-8 and nothing else. -/
def utf8Library : Library Tenths where
  loads := Tenths.dialect.loads.loads
  loadsBytes bytes :=
    match Str.decode bytes with
    | some text => Tenths.dialect.loads.loads text
    | none => .decodeError
  decodeIgnore bytes := (Str.decode bytes).getD []

def denied : Entry := ⟨"1", "sandbox.deny", [], "c"⟩

theorem denied_agree : Agree utf8Library [denied] := by
  have empty : utf8Library.loadsBytes denied.content = .decodeError := rfl
  have text : Str.decode denied.content = some [] := rfl
  apply (agree_iff (fun first held second also _ => ?_)).mpr
  · simp only [List.forall_mem_singleton]
    refine ⟨fun scope => absurd scope (by decide), fun _ => ⟨by decide, fun _ => ⟨?_, ?_⟩⟩⟩
    · rw [Explorer.Presentable, empty]
      exact ⟨fun _ raised => (by cases raised), fun _ value => (by cases value)⟩
    · intro found same
      cases text.symm.trans same
      exact ⟨fun _ raised => (by cases raised), fun _ value => (by cases value)⟩
  · rw [List.mem_singleton.mp held, List.mem_singleton.mp also]

/-- A request that was blocked: its content is no JSON. -/
def blocked : Entry := ⟨"1", "openshell.network_activity", asBytes "Blocked", "c"⟩

theorem blocked_disagree : ¬ Agree utf8Library [blocked] := by
  rintro ⟨first, second, ran, sent, same⟩
  obtain ⟨-, -, rfl⟩ := Explorer.cmdDrift_ok.mp ran
  obtain ⟨-, rfl⟩ := Gateway.getDrift_ok.mp sent
  have unreported : gaps (Explorer.isDenial utf8Library) [blocked] = [] := by decide +kernel
  have reported : gaps Gateway.isDenial [blocked] = [blocked] := by decide +kernel
  rw [unreported, reported] at same
  exact absurd ((same "1").mpr (List.mem_singleton_self _)) List.not_mem_nil

end ImmutableLedger.Drift
