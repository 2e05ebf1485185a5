import ImmutableLedger.Adapters.GapDetector
import ImmutableLedger.Python.Operations

/-! `GapDetector` on stamps of any type.

The stamps of a record are taken from its JSON as they are. `check` raises on those it cannot hash,
count or compare.
-/

set_option autoImplicit false

namespace ImmutableLedger.Cpex.Untyped

open Python

variable {F : Type}

/-- The stamps of a record as `extract_stream_stamps` returns them. -/
structure Stamps (F : Type) where
  epoch : Value F
  streamId : Value F
  streamSeq : Value F
  emissionSeq : Value F

/-- The dictionaries, each with the last value that was stored under a key. -/
structure GapDetector (F : Type) where
  lastSeq : List ((Value F × Value F) × Value F)
  newestEpoch : List (Value F × Value F)
  lastEmissionSeq : List (Value F × Value F)
  lastEpoch : List (Value F × Value F)
  notes : List Str

namespace GapDetector

def new : GapDetector F := ⟨[], [], [], [], []⟩

def popNotes (detector : GapDetector F) : List Str × GapDetector F :=
  (detector.notes, { detector with notes := [] })

section

variable [Interpreter F]

def sameStreamKey (first second : Value F × Value F) : Bool :=
  first.1.same second.1 && first.2.same second.2

/-- `table.get(key)` -/
def find {κ : Type} (same : κ → κ → Bool) (key : κ) (table : List (κ × Value F)) :
    Option (Value F) :=
  (table.find? fun entry => same entry.1 key).map (·.2)

/-- `table[key] = value`, the latest value first. -/
def store {κ : Type} (same : κ → κ → Bool) (key : κ) (value : Value F) (table : List (κ × Value F)) :
    List (κ × Value F) :=
  (key, value) :: table.filter fun entry => !same entry.1 key

variable (detector : GapDetector F) (stamps : Stamps F)

def epochNotes : List Str :=
  let previousEpoch := (find Value.same stamps.streamId detector.lastEpoch).getD stamps.epoch
  if previousEpoch.eq stamps.epoch then []
  else
    [str "EPOCH CHANGE in " ++ stamps.streamId.text ++ str ": " ++ previousEpoch.text ++ str " -> " ++
      stamps.epoch.text ++ str "; stream_seq resets to " ++ stamps.streamSeq.text ++
      str " (expected, not a gap)"]

def seqAlerts : Except Exn (List Str) :=
  match find sameStreamKey (stamps.epoch, stamps.streamId) detector.lastSeq with
  | some last => do
    let expected ← last.addInt 1
    if stamps.streamSeq.eq expected then .ok []
    else .ok [str "GAP in " ++ stamps.streamId.text ++ str ": expected stream_seq " ++ expected.text ++
      str ", got " ++ stamps.streamSeq.text]
  | none =>
    if !stamps.epoch.isNone && !stamps.streamSeq.eq (.int streamHeadSeq) then do
      let before ← stamps.streamSeq.addInt (-1)
      .ok [str "GAP at head of " ++ stamps.streamId.text ++ str " epoch " ++ stamps.epoch.text ++
        str ": expected stream_seq " ++ (Value.int streamHeadSeq : Value F).text ++ str ", got " ++
        stamps.streamSeq.text ++ str " (records " ++ (Value.int streamHeadSeq : Value F).text ++
        str ".." ++ before.text ++ str " not seen)"]
    else .ok []

/-- The alert of an epoch that goes back, or else the newest epochs. -/
def epochAlerts : List Str × List (Value F × Value F) :=
  match stamps.epoch.toInt with
  | none => ([], detector.newestEpoch)
  | some epoch =>
    let stored := store Value.same stamps.streamId stamps.epoch detector.newestEpoch
    match find Value.same stamps.streamId detector.newestEpoch with
    | none => ([], stored)
    | some newest =>
      match newest.toInt with
      | none => ([], detector.newestEpoch)
      | some last =>
        if epoch < last then
          ([str "EPOCH REGRESSION in " ++ stamps.streamId.text ++ str ": epoch " ++ stamps.epoch.text ++
            str " after " ++ newest.text], detector.newestEpoch)
        else if epoch > last then ([], stored)
        else ([], detector.newestEpoch)

/-- The alert of an emission that is not later than the one before it. -/
def emissionAlerts : Except Exn (List Str) :=
  let previous := (find Value.same stamps.epoch detector.lastEmissionSeq).getD (.int (-1))
  if stamps.emissionSeq.isNone then .ok []
  else do
    let late ← stamps.emissionSeq.le previous
    if late then
      .ok [str "ORDERING: emission_seq " ++ stamps.emissionSeq.text ++ str " <= previous " ++
        previous.text]
    else .ok []

/-- The alerts of a record and the detector after it. A stream or an epoch that is not hashable is no
key; what `check` has stored before it raises is not modelled. -/
def check : Except Exn (List Str × GapDetector F) := do
  stamps.streamId.hash
  stamps.epoch.hash
  let seqs ← detector.seqAlerts stamps
  let (epochs, newestEpoch) := detector.epochAlerts stamps
  let emissions ← detector.emissionAlerts stamps
  .ok (seqs ++ epochs ++ emissions,
    { lastSeq := store sameStreamKey (stamps.epoch, stamps.streamId) stamps.streamSeq detector.lastSeq
      newestEpoch
      lastEmissionSeq :=
        if stamps.emissionSeq.isNone then detector.lastEmissionSeq
        else store Value.same stamps.epoch stamps.emissionSeq detector.lastEmissionSeq
      lastEpoch := store Value.same stamps.streamId stamps.epoch detector.lastEpoch
      notes := detector.notes ++ detector.epochNotes stamps })

/-- The states of a detector that has not raised. -/
inductive Reachable : GapDetector F → Prop where
  | new : Reachable new
  | check {detector next : GapDetector F} {stamps : Stamps F} {alerts : List Str} :
    Reachable detector → detector.check stamps = .ok (alerts, next) → Reachable next
  | popNotes {detector : GapDetector F} : Reachable detector → Reachable detector.popNotes.2

/-- What `check` needs of the stamps of a record: keys that can be hashed, numbers to count from, and
an emission that is a number if there is one. The sequence number itself is only used where it opens
an epoch; elsewhere the one before it is. -/
structure Stampable : Prop where
  streamId : stamps.streamId.hashable
  epoch : stamps.epoch.hashable
  counted : ∀ last, find sameStreamKey (stamps.epoch, stamps.streamId) detector.lastSeq = some last →
    last.isNumber
  opened : find sameStreamKey (stamps.epoch, stamps.streamId) detector.lastSeq = none →
    stamps.epoch.isNone ∨ stamps.streamSeq.isNumber
  emission : stamps.emissionSeq.isNone ∨ stamps.emissionSeq.isNumber

variable {detector stamps}

/-- Every emission that is stored was compared with a number before. -/
def Numbers (detector : GapDetector F) : Prop := ∀ entry ∈ detector.lastEmissionSeq, entry.2.isNumber

omit [Interpreter F] in
theorem find_mem {κ : Type} {same : κ → κ → Bool} {key : κ} {table : List (κ × Value F)}
    {value : Value F} (found : find same key table = some value) : ∃ entry ∈ table, entry.2 = value := by
  obtain ⟨entry, held, rfl⟩ := Option.map_eq_some_iff.mp found
  exact ⟨entry, List.mem_of_find?_eq_some held, rfl⟩

theorem Numbers.previous (numbers : detector.Numbers) (epoch : Value F) :
    ((find Value.same epoch detector.lastEmissionSeq).getD (.int (-1))).isNumber := by
  cases found : find Value.same epoch detector.lastEmissionSeq with
  | none => rfl
  | some value =>
    obtain ⟨entry, held, rfl⟩ := find_mem found
    exact numbers entry held

theorem seqAlerts_ok : (∃ alerts, detector.seqAlerts stamps = .ok alerts) ↔
    (∀ last, find sameStreamKey (stamps.epoch, stamps.streamId) detector.lastSeq = some last →
      last.isNumber) ∧
    (find sameStreamKey (stamps.epoch, stamps.streamId) detector.lastSeq = none →
      stamps.epoch.isNone ∨ stamps.streamSeq.isNumber) := by
  rw [seqAlerts]
  cases find sameStreamKey (stamps.epoch, stamps.streamId) detector.lastSeq with
  | some last =>
    rw [exists_bind_ok]
    constructor
    · rintro ⟨expected, sum, -⟩
      have number := Value.addInt_isOk.mp ⟨expected, sum⟩
      exact ⟨fun _ same => Option.some.inj same ▸ number, fun none => by cases none⟩
    · rintro ⟨number, -⟩
      obtain ⟨expected, sum⟩ := Value.addInt_isOk.mpr (number last rfl)
      exact ⟨expected, sum, exists_ite_ok⟩
  | none =>
    have counted : ∀ last : Value F, none = some last → last.isNumber := fun _ none => by cases none
    by_cases plain : stamps.epoch.isNone ∨ stamps.streamSeq.eq (.int streamHeadSeq)
    · have skipped : ¬ (!stamps.epoch.isNone && !stamps.streamSeq.eq (.int streamHeadSeq)) := by
        rcases plain with none | zero
        · simp [none]
        · simp [zero]
      rw [if_neg skipped]
      exact ⟨fun _ => ⟨counted, fun _ => plain.imp_right Value.isNumber_of_eq⟩, fun _ => ⟨_, rfl⟩⟩
    · have opens : !stamps.epoch.isNone && !stamps.streamSeq.eq (.int streamHeadSeq) := by
        simpa [not_or] using plain
      rw [if_pos opens, exists_bind_ok]
      constructor
      · rintro ⟨before, sum, -⟩
        exact ⟨counted, fun _ => .inr (Value.addInt_isOk.mp ⟨before, sum⟩)⟩
      · rintro ⟨-, opened⟩
        have number := (opened rfl).resolve_left fun none => plain (.inl none)
        obtain ⟨before, sum⟩ := Value.addInt_isOk.mpr number
        exact ⟨before, sum, _, rfl⟩

theorem emissionAlerts_ok (numbers : detector.Numbers) :
    (∃ alerts, detector.emissionAlerts stamps = .ok alerts) ↔
      stamps.emissionSeq.isNone ∨ stamps.emissionSeq.isNumber := by
  have comparable : (∃ answer, stamps.emissionSeq.le _ = .ok answer) ↔ stamps.emissionSeq.isNumber :=
    Value.le_number (numbers.previous stamps.epoch)
  rw [emissionAlerts]
  by_cases none : stamps.emissionSeq.isNone
  · rw [if_pos none]
    exact ⟨fun _ => .inl none, fun _ => ⟨_, rfl⟩⟩
  · rw [if_neg none, exists_bind_ok]
    constructor
    · rintro ⟨answer, compared, -⟩
      exact .inr (comparable.mp ⟨answer, compared⟩)
    · intro number
      obtain ⟨answer, compared⟩ := comparable.mpr (number.resolve_left none)
      exact ⟨answer, compared, exists_ite_ok⟩

theorem check_ok (numbers : detector.Numbers) :
    (∃ result, detector.check stamps = .ok result) ↔ detector.Stampable stamps := by
  have seqs := @seqAlerts_ok F _ detector stamps
  have emissions := @emissionAlerts_ok F _ detector stamps numbers
  simp only [check, exists_bind_ok]
  constructor
  · rintro ⟨⟨⟩, streamId, ⟨⟩, epoch, alerts, counted, also, emission, -⟩
    obtain ⟨count, opened⟩ := seqs.mp ⟨alerts, counted⟩
    exact ⟨Value.hash_ok.mp streamId, Value.hash_ok.mp epoch, count, opened,
      emissions.mp ⟨also, emission⟩⟩
  · intro stampable
    obtain ⟨alerts, counted⟩ := seqs.mpr ⟨stampable.counted, stampable.opened⟩
    obtain ⟨also, emission⟩ := emissions.mpr stampable.emission
    exact ⟨.unit, Value.hash_ok.mpr stampable.streamId, .unit, Value.hash_ok.mpr stampable.epoch,
      alerts, counted, also, emission, _, rfl⟩

theorem Numbers.check {next : GapDetector F} {alerts : List Str} (numbers : detector.Numbers)
    (checked : detector.check stamps = .ok (alerts, next)) : next.Numbers := by
  have stampable := (check_ok numbers).mp ⟨_, checked⟩
  simp only [GapDetector.check, bind_ok] at checked
  obtain ⟨_, _, _, _, _, _, _, _, same⟩ := checked
  cases Except.ok.inj same
  show ∀ entry ∈ (if stamps.emissionSeq.isNone then detector.lastEmissionSeq
    else store Value.same stamps.epoch stamps.emissionSeq detector.lastEmissionSeq), entry.2.isNumber
  split
  · exact numbers
  · next some =>
    intro entry held
    obtain rfl | earlier := List.mem_cons.mp held
    · exact stampable.emission.resolve_left some
    · exact numbers entry (List.mem_of_mem_filter earlier)

theorem Reachable.numbers (reachable : detector.Reachable) : detector.Numbers := by
  induction reachable with
  | new => exact fun entry none => absurd none List.not_mem_nil
  | check _ checked ih => exact ih.check checked
  | popNotes _ ih => exact ih

end

end GapDetector

end ImmutableLedger.Cpex.Untyped
