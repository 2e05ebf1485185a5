import ImmutableLedger.Crypto.Fips180
import ImmutableLedger.Json.RoundTrip
import ImmutableLedger.Python.Tenths

/-! `canonicalize_content` of the CPEX adapter.

What is hashed of an event is its compact text without the fields that its emitter derives from
that text: the fingerprint and the signatures of its first attestation, and the older signature
fields of `unmapped`.
-/

set_option autoImplicit false

namespace ImmutableLedger.Cpex

open Python Json

variable {F : Type}

def unmappedEnvelopeKeys : List Str := [str "signature_b64", str "signature_key_id"]

def derivedAttestationKeys : List Str := [str "fingerprint", str "signatures"]

/-- The pops of some keys. -/
def without {α : Type} (keys : List Str) (members : Dict α) : Dict α :=
  keys.foldl (fun members key => Dict.pop key members) members

/-- The event that is written. Its `unmapped` may be absent, but is a dictionary otherwise: a list
has a `pop` that takes no second argument, and no other value has one. -/
def coveredContent (event : Dict (Value F)) : Except Exn (Dict (Value F)) :=
  let content : Dict (Value F) :=
    match event.lookup (str "attestation_list") with
    | some (.list (.dict attestation :: rest)) =>
      Dict.assign (str "attestation_list")
        (.list (.dict (without derivedAttestationKeys attestation) :: rest)) event
    | _ => event
  match content.lookup (str "unmapped") with
  | none => .ok (Dict.pop (str "unmapped") content)
  | some (.dict unmapped) =>
    let unmapped := without unmappedEnvelopeKeys unmapped
    if unmapped.isEmpty then .ok (Dict.pop (str "unmapped") content)
    else .ok (Dict.assign (str "unmapped") (.dict unmapped) content)
  | some (.list _) => .error .typeError
  | some _ => .error .attributeError

section

variable [Interpreter F]

mutual

def rejectNonJcsScalars (path : Str) : Value F → Except Exn Unit
  | .float value => .error (.valueError
      (str "non-JCS float at " ++ path ++ str ": " ++ Interpreter.floatText value))
  | .list items => rejectItems path 0 items
  | .dict members => rejectMembers path members
  | _ => .ok ()
termination_by structural value => value

def rejectItems (path : Str) (index : Nat) : List (Value F) → Except Exn Unit
  | [] => .ok ()
  | item :: rest => do
    rejectNonJcsScalars (path ++ str "[" ++ decimal index ++ str "]") item
    rejectItems path (index + 1) rest
termination_by structural items => items

def rejectMembers (path : Str) : List (Str × Value F) → Except Exn Unit
  | [] => .ok ()
  | (key, value) :: rest => do
    rejectNonJcsScalars (path ++ str "." ++ key) value
    rejectMembers path rest
termination_by structural members => members

end

def canonicalizeContent [Sha256] (event : Value F) : Except Exn (Bytes × String) := do
  rejectNonJcsScalars (str "$") event
  match event with
  | .dict members =>
    let content ← coveredContent members
    match (canonical.write (.dict content)).encode with
    | some bytes => .ok (bytes, sha256Hex bytes)
    | none => .error .unicodeEncodeError
  | _ => .error .attributeError

end

/-! What AID-EMIT-1 covers. -/

def stripAttestations : Value F → Value F
  | .list (.dict attestation :: rest) =>
    .list (.dict (attestation.filter fun member => member.1 ∉ derivedAttestationKeys) :: rest)
  | value => value

def stripUnmapped : Value F → Option (Value F)
  | .dict unmapped =>
    let rest := unmapped.filter fun member => member.1 ∉ unmappedEnvelopeKeys
    if rest.isEmpty then none else some (.dict rest)
  | value => some value

def stripMember (member : Str × Value F) : Option (Str × Value F) :=
  if member.1 = str "attestation_list" then some (member.1, stripAttestations member.2)
  else if member.1 = str "unmapped" then (stripUnmapped member.2).map (Prod.mk member.1)
  else some member

/-- The event without what is derived from it, and without an `unmapped` that is empty then. -/
def strip (event : Dict (Value F)) : Dict (Value F) := event.filterMap stripMember

/-! The code covers what is to be covered. -/

theorem without_eq {α : Type} (keys : List Str) (members : Dict α) :
    without keys members = members.filter fun member => member.1 ∉ keys := by
  induction keys generalizing members with
  | nil => simp [without]
  | cons key rest ih =>
    rw [without, List.foldl_cons, ← without, ih, Dict.pop, List.filter_filter]
    apply List.filter_congr
    intro member found
    by_cases same : member.1 = key <;> simp [same]

/-- The two fields that are looked into are changed one after the other. -/
def attest (member : Str × Value F) : Str × Value F :=
  if member.1 = str "attestation_list" then (member.1, stripAttestations member.2) else member

theorem attestationList_ne_unmapped : str "attestation_list" ≠ str "unmapped" := by decide

theorem attest_key (member : Str × Value F) : (attest member).1 = member.1 := by
  rw [attest]
  split <;> rfl

def unmap (member : Str × Value F) : Option (Str × Value F) :=
  if member.1 = str "unmapped" then (stripUnmapped member.2).map (Prod.mk member.1) else some member

theorem strip_eq (event : Dict (Value F)) : strip event = (event.map attest).filterMap unmap := by
  rw [strip, List.filterMap_map]
  apply List.filterMap_congr
  intro member found
  by_cases attestation : member.1 = str "attestation_list"
  · have other : member.1 ≠ str "unmapped" := attestation ▸ attestationList_ne_unmapped
    rw [Function.comp_apply, stripMember, if_pos attestation, attest, if_pos attestation, unmap,
      if_neg other]
  · rw [Function.comp_apply, stripMember, if_neg attestation, attest, if_neg attestation, unmap]

theorem stripAttestations_list (attestation : Dict (Value F)) (rest : List (Value F)) :
    stripAttestations (.list (.dict attestation :: rest)) =
      .list (.dict (without derivedAttestationKeys attestation) :: rest) := by
  rw [stripAttestations, without_eq]

/-- Whichever value a key has, the members are changed by changing the member of the key. -/
theorem map_member {event : Dict (Value F)} (distinct : (Dict.keys event).Nodup) {key : Str}
    {value : Value F} (held : event.lookup key = some value) (change : Value F → Value F) :
    Dict.assign key (change value) event =
      event.map fun member => if member.1 = key then (member.1, change member.2) else member := by
  have place := (Dict.lookup_eq_some distinct).mp held
  rw [Dict.assign_present distinct (List.mem_map_of_mem (f := Prod.fst) place)]
  apply List.map_congr_left
  intro member found
  by_cases same : member.1 = key
  · have value : member.2 = value := Option.some.inj (((Dict.lookup_eq_some distinct).mpr
      (same ▸ found)).symm.trans held)
    rw [if_pos same, if_pos same, value]
  · rw [if_neg same, if_neg same]

theorem attested {event : Dict (Value F)} (distinct : (Dict.keys event).Nodup) :
    (match event.lookup (str "attestation_list") with
    | some (.list (.dict attestation :: rest)) =>
      Dict.assign (str "attestation_list")
        (.list (.dict (without derivedAttestationKeys attestation) :: rest)) event
    | _ => event) = event.map attest := by
  split
  · next attestation rest held =>
    rw [← stripAttestations_list]
    exact map_member distinct held stripAttestations
  · next other =>
    have fixed : ∀ member ∈ event, attest member = id member := by
      intro member found
      rw [attest]
      split
      · next same =>
        have held := same ▸ Dict.lookup_member distinct found
        have plain : stripAttestations member.2 = member.2 := by
          rw [stripAttestations.eq_def]
          split
          · next attestation rest shape => exact absurd (shape ▸ held) (other attestation rest)
          · rfl
        rw [plain, id]
      · rfl
    exact ((List.map_congr_left fixed).trans (List.map_id event)).symm

/-- What the code takes for an `unmapped` object. -/
def UnmappedObject (event : Dict (Value F)) : Prop :=
  ∀ value, event.lookup (str "unmapped") = some value → ∃ members, value = .dict members

theorem keys_attest (event : Dict (Value F)) : Dict.keys (event.map attest) = Dict.keys event := by
  rw [Dict.keys, List.map_map]
  exact List.map_congr_left fun member _ => attest_key member

theorem lookup_attest {event : Dict (Value F)} (distinct : (Dict.keys event).Nodup) {key : Str}
    (other : key ≠ str "attestation_list") : (event.map attest).lookup key = event.lookup key := by
  have attested : (Dict.keys (event.map attest)).Nodup := by rwa [keys_attest]
  apply Option.ext
  intro value
  rw [Dict.lookup_eq_some attested, Dict.lookup_eq_some distinct, List.mem_map]
  constructor
  · rintro ⟨member, found, same⟩
    have plain : attest member = member := by
      have keys : member.1 = key := (attest_key member).symm.trans (congrArg Prod.fst same)
      rw [attest, if_neg (keys ▸ other)]
    exact same ▸ plain.symm ▸ found
  · intro found
    exact ⟨(key, value), found, if_neg other⟩

theorem pop_unmap {content : Dict (Value F)} (distinct : (Dict.keys content).Nodup)
    (gone : ∀ value, content.lookup (str "unmapped") = some value → stripUnmapped value = none) :
    Dict.pop (str "unmapped") content = content.filterMap unmap := by
  rw [Dict.pop, ← List.filterMap_eq_filter]
  apply List.filterMap_congr
  intro member found
  by_cases same : member.1 = str "unmapped"
  · have none := gone member.2 (same ▸ Dict.lookup_member distinct found)
    simp [unmap, same, none]
  · simp [unmap, same]

theorem assign_unmap {content : Dict (Value F)} (distinct : (Dict.keys content).Nodup)
    {value left : Value F} (held : content.lookup (str "unmapped") = some value)
    (stripped : stripUnmapped value = some left) :
    Dict.assign (str "unmapped") left content = content.filterMap unmap := by
  have changed := map_member distinct held fun value => (stripUnmapped value).getD value
  rw [stripped, Option.getD_some] at changed
  rw [changed, ← List.filterMap_eq_map]
  apply List.filterMap_congr
  intro member found
  by_cases same : member.1 = str "unmapped"
  · have here : some value = some member.2 :=
      held.symm.trans (same ▸ Dict.lookup_member distinct found)
    simp [unmap, same, ← Option.some.inj here, stripped]
  · simp [unmap, same]

/-- The code writes what is covered, and refuses an `unmapped` that is no object. -/
theorem coveredContent_ok {event content : Dict (Value F)} (distinct : (Dict.keys event).Nodup) :
    coveredContent event = .ok content ↔ UnmappedObject event ∧ content = strip event := by
  have inner : (Dict.keys (event.map attest)).Nodup := by rwa [keys_attest]
  have lookup := lookup_attest distinct attestationList_ne_unmapped.symm
  rw [strip_eq, UnmappedObject, ← lookup, coveredContent]
  simp only [attested distinct]
  cases held : (event.map attest).lookup (str "unmapped") with
  | none =>
    have none : ∀ value, (event.map attest).lookup (str "unmapped") = some value →
        stripUnmapped value = none := fun value found => by rw [held] at found; cases found
    simp [pop_unmap inner none, eq_comm]
  | some value =>
    cases value with
    | dict unmapped =>
      by_cases empty : (without unmappedEnvelopeKeys unmapped).isEmpty
      · have none : ∀ value, (event.map attest).lookup (str "unmapped") = some value →
            stripUnmapped value = none := by
          intro value found
          rw [held] at found
          cases Option.some.inj found
          rw [stripUnmapped, ← without_eq]
          exact if_pos empty
        simp [empty, pop_unmap inner none, eq_comm]
      · have left : stripUnmapped (.dict unmapped) =
            some (.dict (without unmappedEnvelopeKeys unmapped)) := by
          rw [stripUnmapped, ← without_eq]
          exact if_neg empty
        simp [empty, assign_unmap inner held left, eq_comm]
    | _ => simp

/-! Acceptance. -/

section

variable [Interpreter F]

theorem rejectItems_ok {path : Str} {index : Nat} {items : List (Value F)}
    (each : ∀ item ∈ items, ∀ path, rejectNonJcsScalars path item = .ok () ↔ item.Floatless) :
    rejectItems path index items = .ok () ↔ ∀ item ∈ items, item.Floatless := by
  induction items generalizing index with
  | nil => simp [rejectItems]
  | cons item rest ih =>
    obtain ⟨head, tail⟩ := List.forall_mem_cons.mp each
    rw [rejectItems, List.forall_mem_cons, ← head, ← @ih (index + 1) tail]
    cases rejectNonJcsScalars (path ++ str "[" ++ decimal index ++ str "]") item <;>
      simp [bind, Except.bind]

theorem rejectMembers_ok {path : Str} {members : Dict (Value F)}
    (each : ∀ member ∈ members, ∀ path,
      rejectNonJcsScalars path member.2 = .ok () ↔ member.2.Floatless) :
    rejectMembers path members = .ok () ↔ ∀ member ∈ members, member.2.Floatless := by
  induction members with
  | nil => simp [rejectMembers]
  | cons member rest ih =>
    obtain ⟨head, tail⟩ := List.forall_mem_cons.mp each
    rw [rejectMembers, List.forall_mem_cons, ← head, ← ih tail]
    cases rejectNonJcsScalars (path ++ str "." ++ member.1) member.2 <;> simp [bind, Except.bind]

theorem rejectNonJcsScalars_ok {path : Str} {value : Value F} :
    rejectNonJcsScalars path value = .ok () ↔ value.Floatless := by
  induction value generalizing path with
  | float number =>
    simp only [rejectNonJcsScalars, reduceCtorEq, false_iff]
    exact fun floatless => floatless number (Value.self_mem_parts _)
  | list items ih =>
    rw [rejectNonJcsScalars, rejectItems_ok fun item found path => ih item found,
      Value.floatless_list]
  | dict members ih =>
    rw [rejectNonJcsScalars, rejectMembers_ok fun member found path => ih member found,
      Value.floatless_dict]
  | _ => simp [rejectNonJcsScalars, Value.Floatless, Value.parts]

theorem canonicalizeContent_ok [Sha256] {event : Dict (Value F)}
    (distinct : (Dict.keys event).Nodup) {found : Bytes × String} :
    canonicalizeContent (.dict event) = .ok found ↔
      (Value.dict event).Floatless ∧ UnmappedObject event ∧
        (canonical.write (.dict (strip event))).encode = some found.1 ∧
        found.2 = sha256Hex found.1 := by
  rw [← rejectNonJcsScalars_ok, canonicalizeContent]
  cases rejectNonJcsScalars (str "$") (.dict event) with
  | error exception => simp [bind, Except.bind]
  | ok =>
    have covered (content : Dict (Value F)) :
        coveredContent event = .ok content ↔ UnmappedObject event ∧ content = strip event :=
      coveredContent_ok distinct
    cases content : coveredContent event with
    | error exception =>
      have refused : ¬ UnmappedObject event := by
        intro accepted
        have held := (covered (strip event)).mpr ⟨accepted, rfl⟩
        rw [content] at held
        cases held
      simp [bind, Except.bind, refused]
    | ok members =>
      obtain ⟨accepted, rfl⟩ := (covered members).mp content
      simp only [bind, Except.bind, accepted, true_and]
      cases (canonical.write (.dict (strip event))).encode with
      | none => simp
      | some bytes =>
        obtain ⟨first, second⟩ := found
        simp only [Except.ok.injEq, Prod.mk.injEq, Option.some.injEq]
        constructor
        · rintro ⟨rfl, rfl⟩
          exact ⟨rfl, rfl⟩
        · rintro ⟨rfl, rfl⟩
          exact ⟨rfl, rfl⟩

end

/-! What is stripped stays a value of the same kind. -/

theorem stripMember_key {member left : Str × Value F} (kept : stripMember member = some left) :
    left.1 = member.1 := by
  rw [stripMember] at kept
  split at kept
  · cases kept
    rfl
  · split at kept
    · obtain ⟨value, -, rfl⟩ := Option.map_eq_some_iff.mp kept
      rfl
    · cases kept
      rfl

/-- A property of values that a dictionary keeps when it loses members is kept by stripping. -/
theorem stripMember_closed {Closed : Value F → Prop}
    (listed : ∀ items, Closed (.list items) ↔ ∀ item ∈ items, Closed item)
    (filtered : ∀ members keep, Closed (.dict members) → Closed (.dict (members.filter keep)))
    {member left : Str × Value F} (kept : stripMember member = some left)
    (closed : Closed member.2) : Closed left.2 := by
  rw [stripMember] at kept
  split at kept
  · cases kept
    show Closed (stripAttestations member.2)
    rw [stripAttestations.eq_def]
    split
    · next attestation rest held =>
      rw [held, listed, List.forall_mem_cons] at closed
      rw [listed, List.forall_mem_cons]
      exact ⟨filtered _ _ closed.1, closed.2⟩
    · exact closed
  · split at kept
    · obtain ⟨value, stripped, rfl⟩ := Option.map_eq_some_iff.mp kept
      rw [stripUnmapped.eq_def] at stripped
      split at stripped
      · next unmapped held =>
        rw [held] at closed
        obtain ⟨-, same⟩ := Option.ite_none_left_eq_some.mp stripped
        cases same
        exact filtered _ _ closed
      · cases stripped
        exact closed
    · cases kept
      exact closed

theorem filter_distinct (members : Dict (Value F)) (keep : Str × Value F → Bool)
    (distinct : (Value.dict members).Distinct) : (Value.dict (members.filter keep)).Distinct := by
  obtain ⟨keys, each⟩ := Value.distinct_dict.mp distinct
  apply Value.distinct_dict.mpr
  exact ⟨(List.filter_sublist.map _).nodup keys, fun member found =>
    each member (List.mem_of_mem_filter found)⟩

theorem filter_floatless (members : Dict (Value F)) (keep : Str × Value F → Bool)
    (floatless : (Value.dict members).Floatless) : (Value.dict (members.filter keep)).Floatless :=
  Value.floatless_dict.mpr fun member found =>
    Value.floatless_dict.mp floatless member (List.mem_of_mem_filter found)

theorem keys_strip {event : Dict (Value F)} (distinct : (Dict.keys event).Nodup) :
    (Dict.keys (strip event)).Nodup := by
  have kept : (Dict.keys (strip event)).Sublist (Dict.keys event) := by
    induction event with
    | nil => exact .slnil
    | cons member rest ih =>
      have tail := ih (List.nodup_cons.mp distinct).2
      cases kept : stripMember member with
      | none =>
        rw [strip, List.filterMap_cons_none kept]
        exact tail.cons member.1
      | some left =>
        rw [strip, List.filterMap_cons_some kept, Dict.keys, List.map_cons, stripMember_key kept]
        exact tail.cons_cons member.1
  exact kept.nodup distinct

theorem strip_distinct {event : Dict (Value F)} (distinct : (Value.dict event).Distinct) :
    (Value.dict (strip event)).Distinct := by
  obtain ⟨keys, each⟩ := Value.distinct_dict.mp distinct
  refine Value.distinct_dict.mpr ⟨keys_strip keys, fun left found => ?_⟩
  obtain ⟨member, held, kept⟩ := List.mem_filterMap.mp found
  exact stripMember_closed (fun _ => Value.distinct_list) filter_distinct kept (each member held)

theorem strip_floatless {event : Dict (Value F)} (floatless : (Value.dict event).Floatless) :
    (Value.dict (strip event)).Floatless := by
  refine Value.floatless_dict.mpr fun left found => ?_
  obtain ⟨member, held, kept⟩ := List.mem_filterMap.mp found
  exact stripMember_closed (fun _ => Value.floatless_list) filter_floatless kept
    (Value.floatless_dict.mp floatless member held)

/-! What is left is left again, also when its members are brought into an order. -/

theorem filter_arranged (order : Option (Str → List Nat)) (keys : List Str) (members : Dict (Value F)) :
    ((arrange order (members.filter fun member => member.1 ∉ keys)).map fun member =>
        (member.1, arranged order member.2)).filter (fun member => member.1 ∉ keys) =
      (arrange order (members.filter fun member => member.1 ∉ keys)).map fun member =>
        (member.1, arranged order member.2) := by
  apply List.filter_eq_self.mpr
  intro left found
  obtain ⟨member, held, rfl⟩ := List.mem_map.mp found
  exact (List.mem_filter.mp ((arrange_perm order _).mem_iff.mp held)).2

theorem stripAttestations_again (order : Option (Str → List Nat)) (value : Value F) :
    stripAttestations (arranged order (stripAttestations value)) =
      arranged order (stripAttestations value) := by
  cases value with
  | list items =>
    cases items with
    | nil => rfl
    | cons first rest =>
      cases first with
      | dict attestation =>
        simp only [stripAttestations, arranged_list, arranged_dict, List.map_cons, filter_arranged]
      | list items => simp only [stripAttestations, arranged_list, List.map_cons]
      | _ => rfl
  | dict members => simp only [stripAttestations, arranged_dict]
  | _ => rfl

theorem stripUnmapped_again (order : Option (Str → List Nat)) {value left : Value F}
    (kept : stripUnmapped value = some left) :
    stripUnmapped (arranged order left) = some (arranged order left) := by
  cases value with
  | dict unmapped =>
    obtain ⟨some, same⟩ := Option.ite_none_left_eq_some.mp kept
    cases same
    have left : ((arrange order (unmapped.filter fun member =>
        member.1 ∉ unmappedEnvelopeKeys)).map fun member =>
          (member.1, arranged order member.2)).isEmpty = false := by
      rw [List.isEmpty_map, (arrange_perm order _).isEmpty_eq]
      exact Bool.eq_false_iff.mpr some
    simp only [arranged_dict, stripUnmapped, filter_arranged, left]
    rfl
  | list items =>
    cases kept
    rw [arranged_list, stripUnmapped]
    simp
  | _ => cases kept; rfl

theorem stripMember_again (order : Option (Str → List Nat)) {member left : Str × Value F}
    (kept : stripMember member = some left) :
    stripMember (left.1, arranged order left.2) = some (left.1, arranged order left.2) := by
  have key := stripMember_key kept
  rw [stripMember] at kept
  split at kept
  · next attestation =>
    cases kept
    rw [stripMember, if_pos attestation, stripAttestations_again]
  · next other =>
    split at kept
    · next unmapped =>
      obtain ⟨value, stripped, rfl⟩ := Option.map_eq_some_iff.mp kept
      rw [stripMember, if_neg other, if_pos unmapped, stripUnmapped_again order stripped]
      rfl
    · next plain =>
      cases kept
      rw [stripMember, if_neg other, if_neg plain]

theorem strip_again (event : Dict (Value F)) (order : Option (Str → List Nat)) {members : Dict (Value F)}
    (inOrder : arranged order (.dict (strip event)) = .dict members) : strip members = members := by
  rw [arranged_dict] at inOrder
  cases inOrder
  have fixed : ∀ member ∈ (arrange order (strip event)).map fun member =>
      (member.1, arranged order member.2), stripMember member = some member := by
    intro left found
    obtain ⟨member, held, rfl⟩ := List.mem_map.mp found
    obtain ⟨original, -, kept⟩ := List.mem_filterMap.mp ((arrange_perm order _).mem_iff.mp held)
    exact stripMember_again order kept
  rw [strip, List.filterMap_congr fixed, List.filterMap_some]

theorem strip_unmappedObject {event : Dict (Value F)} (distinct : (Dict.keys event).Nodup)
    (object : UnmappedObject event) (order : Option (Str → List Nat)) :
    UnmappedObject ((arrange order (strip event)).map fun member =>
      (member.1, arranged order member.2)) := by
  intro value held
  have keys : (Dict.keys ((arrange order (strip event)).map fun member =>
      (member.1, arranged order member.2))).Nodup := by
    rw [Dict.keys, List.map_map]
    exact ((arrange_perm order (strip event)).map _).nodup_iff.mpr (keys_strip distinct)
  obtain ⟨left, found, same⟩ := List.mem_map.mp ((Dict.lookup_eq_some keys).mp held)
  obtain ⟨key, rfl⟩ := Prod.mk.inj same
  obtain ⟨member, origin, kept⟩ := List.mem_filterMap.mp ((arrange_perm order _).mem_iff.mp found)
  have name : member.1 = str "unmapped" := (stripMember_key kept).symm.trans key
  obtain ⟨unmapped, dict⟩ := object member.2 (name ▸ Dict.lookup_member distinct origin)
  rw [stripMember, if_neg (name ▸ attestationList_ne_unmapped.symm), if_pos name, dict] at kept
  obtain ⟨rest, stripped, rfl⟩ := Option.map_eq_some_iff.mp kept
  obtain ⟨-, same⟩ := Option.ite_none_left_eq_some.mp stripped
  cases same
  exact ⟨_, arranged_dict order _⟩

/-! The fingerprint. -/

section

variable [Interpreter F] [Sha256]

/-- An accepted event is read back from its bytes as the covered event with its members in order. -/
theorem canonicalizeContent_read (dialect : Dialect F) {event : Dict (Value F)}
    (distinct : (Value.dict event).Distinct) {found : Bytes × String}
    (accepted : canonicalizeContent (.dict event) = .ok found) :
    (Str.decode found.1).bind (read dialect) =
      some (arranged (some Str.codes) (.dict (strip event))) := by
  obtain ⟨floatless, -, encoded, -⟩ := (canonicalizeContent_ok distinct.keys).mp accepted
  rw [Str.decode_encode encoded, Option.bind_some,
    read_canonical dialect (strip_distinct distinct) (strip_floatless floatless)]

/-- What is read back is canonicalized to the same bytes. -/
theorem canonicalizeContent_again {event : Dict (Value F)}
    (distinct : (Value.dict event).Distinct) {found : Bytes × String}
    (accepted : canonicalizeContent (.dict event) = .ok found) :
    canonicalizeContent (arranged (some Str.codes) (.dict (strip event))) = .ok found := by
  obtain ⟨floatless, object, encoded, hash⟩ := (canonicalizeContent_ok distinct.keys).mp accepted
  have inOrder := arranged_dict (some Str.codes) (strip event)
  have fixed := strip_again event _ inOrder
  have keys : (Dict.keys ((arrange (some Str.codes) (strip event)).map fun member =>
      (member.1, arranged (some Str.codes) member.2))).Nodup := by
    rw [Dict.keys, List.map_map]
    exact ((arrange_perm _ (strip event)).map _).nodup_iff.mpr (keys_strip distinct.keys)
  rw [inOrder, canonicalizeContent_ok keys, fixed, ← inOrder]
  refine ⟨arranged_floatless _ (strip_floatless floatless),
    strip_unmappedObject distinct.keys object _, ?_, hash⟩
  · have same := (canonical (F := F)).write_arranged (.dict (strip event))
    exact (congrArg Str.encode same).trans encoded

theorem canonicalizeContent_covers (dialect : Dialect F) {a b : Dict (Value F)}
    (distinctA : (Value.dict a).Distinct) (distinctB : (Value.dict b).Distinct)
    {bytesA bytesB : Bytes} {inputHashA inputHashB : String}
    (acceptedA : canonicalizeContent (.dict a) = .ok (bytesA, inputHashA))
    (acceptedB : canonicalizeContent (.dict b) = .ok (bytesB, inputHashB)) :
    (bytesA = bytesB ↔ Same (.dict (strip a)) (.dict (strip b))) ∧
    (∃ parsed, (Str.decode bytesA).bind (read dialect) = some parsed ∧
      canonicalizeContent parsed = .ok (bytesA, inputHashA)) ∧
    (Same (.dict (strip a)) (.dict (strip b)) → inputHashA = inputHashB) ∧
    (Set.InjOn Sha256.digest {bytesA, bytesB} → inputHashA = inputHashB →
      Same (.dict (strip a)) (.dict (strip b))) := by
  obtain ⟨floatlessA, -, encodedA, hashA⟩ := (canonicalizeContent_ok distinctA.keys).mp acceptedA
  obtain ⟨floatlessB, -, encodedB, hashB⟩ := (canonicalizeContent_ok distinctB.keys).mp acceptedB
  have texts := canonical_write_eq dialect (strip_distinct distinctA) (strip_floatless floatlessA)
    (strip_distinct distinctB) (strip_floatless floatlessB)
  have covers : bytesA = bytesB ↔ Same (.dict (strip a)) (.dict (strip b)) := by
    rw [← texts]
    constructor
    · rintro rfl
      exact Str.encode_inj encodedA encodedB
    · intro same
      rw [same] at encodedA
      exact Option.some.inj (encodedA.symm.trans encodedB)
  refine ⟨covers, ⟨_, canonicalizeContent_read dialect distinctA acceptedA,
    canonicalizeContent_again distinctA acceptedA⟩, ?_, ?_⟩
  · intro same
    exact hashA.trans ((congrArg sha256Hex (covers.mpr same)).trans hashB.symm)
  · intro collisionFree same
    have digests := sha256Hex_inj.mp (hashA.symm.trans (same.trans hashB))
    exact covers.mp (collisionFree (.inl rfl) (.inr rfl) digests)

end

def signedEvent : Dict (Value Tenths) :=
  [(str "x", .int 1), (str "unmapped", .dict [(str "signature_b64", .str (str "c2ln"))])]

def unsignedEvent : Dict (Value Tenths) := [(str "x", .int 1)]

theorem signedEvent_covered :
    letI := Fips180.sha256
    canonicalizeContent (.dict signedEvent) = canonicalizeContent (.dict unsignedEvent) ∧
      Same (.dict (strip signedEvent)) (.dict (strip unsignedEvent)) := by
  let := Fips180.sha256
  have accepted : canonicalizeContent (.dict signedEvent) =
      .ok (asBytes "\x7b\"x\":1\x7d", sha256Hex (asBytes "\x7b\"x\":1\x7d")) := rfl
  have also : canonicalizeContent (.dict unsignedEvent) =
      .ok (asBytes "\x7b\"x\":1\x7d", sha256Hex (asBytes "\x7b\"x\":1\x7d")) := rfl
  have covers := canonicalizeContent_covers Tenths.dialect (by decide) (by decide) accepted also
  exact ⟨accepted.trans also.symm, covers.1.mp rfl⟩

end ImmutableLedger.Cpex
