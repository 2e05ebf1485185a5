import Mathlib.Algebra.GroupWithZero.Nat
import Mathlib.Algebra.Order.BigOperators.Group.List
import Mathlib.Data.List.Induction
import Mathlib.Logic.Function.Basic

/-! `GapDetector` of the CPEX adapter.

The dictionaries of the detector are maps with an entry for every key seen so far. An epoch is
optional, because records of the older shape carry none.
-/

set_option autoImplicit false

namespace ImmutableLedger.Cpex

/-- The stamps of a record, as they are passed to `check`. -/
structure Stamps where
  streamId : String
  streamSeq : Nat
  emissionSeq : Option Nat
  epoch : Option Int
  deriving DecidableEq

abbrev Stamps.streamKey (stamps : Stamps) : Option Int × String := (stamps.epoch, stamps.streamId)

structure GapDetector where
  lastSeq : Option Int × String → Option Nat
  newestEpoch : String → Option Int
  lastEmissionSeq : Option Int → Option Nat
  lastEpoch : String → Option (Option Int)
  notes : List String

def streamHeadSeq : Nat := 0

/-- An f-string shows a missing epoch as `None`. -/
def showEpoch : Option Int → String
  | none => "None"
  | some epoch => toString epoch

namespace GapDetector

def new : GapDetector where
  lastSeq := fun _ => none
  newestEpoch := fun _ => none
  lastEmissionSeq := fun _ => none
  lastEpoch := fun _ => none
  notes := []

variable (detector : GapDetector) (stamps : Stamps)

def popNotes : List String × GapDetector := (detector.notes, { detector with notes := [] })

def epochNotes : List String :=
  let previousEpoch := (detector.lastEpoch stamps.streamId).getD stamps.epoch
  if previousEpoch ≠ stamps.epoch then
    ["EPOCH CHANGE in " ++ stamps.streamId ++ ": " ++ showEpoch previousEpoch ++ " -> " ++
      showEpoch stamps.epoch ++ "; stream_seq resets to " ++ toString stamps.streamSeq ++
      " (expected, not a gap)"]
  else []

def gapAlerts : List String :=
  match detector.lastSeq stamps.streamKey with
  | some last =>
    let expected := last + 1
    if stamps.streamSeq ≠ expected then
      ["GAP in " ++ stamps.streamId ++ ": expected stream_seq " ++ toString expected ++ ", got " ++
        toString stamps.streamSeq]
    else []
  | none =>
    if stamps.epoch.isSome ∧ stamps.streamSeq ≠ streamHeadSeq then
      ["GAP at head of " ++ stamps.streamId ++ " epoch " ++ showEpoch stamps.epoch ++
        ": expected stream_seq " ++ toString streamHeadSeq ++ ", got " ++
        toString stamps.streamSeq ++ " (records " ++ toString streamHeadSeq ++ ".." ++
        toString (stamps.streamSeq - 1) ++ " not seen)"]
    else []

def regressionAlerts : List String :=
  match stamps.epoch, detector.newestEpoch stamps.streamId with
  | some epoch, some newest =>
    if epoch < newest then
      ["EPOCH REGRESSION in " ++ stamps.streamId ++ ": epoch " ++ toString epoch ++ " after " ++
        toString newest]
    else []
  | _, _ => []

def orderingAlerts : List String :=
  let previousEmissionSeq : Int := ((detector.lastEmissionSeq stamps.epoch).map Int.ofNat).getD (-1)
  match stamps.emissionSeq with
  | none => []
  | some emissionSeq =>
    if (emissionSeq : Int) ≤ previousEmissionSeq then
      ["ORDERING: emission_seq " ++ toString emissionSeq ++ " <= previous " ++
        toString previousEmissionSeq]
    else []

/-- The newest epoch only ever moves forward. -/
def newestEpochAfter : Option Int :=
  match stamps.epoch, detector.newestEpoch stamps.streamId with
  | some epoch, none => some epoch
  | some epoch, some newest => if newest < epoch then some epoch else some newest
  | none, newest => newest

/-- The dictionaries are brought up to date whether or not there was an alert. -/
def check : List String × GapDetector :=
  (detector.gapAlerts stamps ++ detector.regressionAlerts stamps ++ detector.orderingAlerts stamps,
    { lastSeq := Function.update detector.lastSeq stamps.streamKey (some stamps.streamSeq)
      newestEpoch :=
        Function.update detector.newestEpoch stamps.streamId (detector.newestEpochAfter stamps)
      lastEmissionSeq := match stamps.emissionSeq with
        | none => detector.lastEmissionSeq
        | some emissionSeq =>
          Function.update detector.lastEmissionSeq stamps.epoch (some emissionSeq)
      lastEpoch := Function.update detector.lastEpoch stamps.streamId (some stamps.epoch)
      notes := detector.notes ++ detector.epochNotes stamps })

/-- The alerts of a sequence of calls, call by call. -/
def checkAll : GapDetector → List Stamps → List (List String) × GapDetector
  | detector, [] => ([], detector)
  | detector, stamps :: rest =>
    let checked := detector.check stamps
    let later := checkAll checked.2 rest
    (checked.1 :: later.1, later.2)

end GapDetector

/-- `--strict-gaps`: every alert is counted, and any alert fails the run. -/
def exitCode (strictGaps : Bool) (alerts : List (List String)) : Nat :=
  let gapsDetected := (alerts.map List.length).sum
  if strictGaps && decide (0 < gapsDetected) then 1 else 0

/-! What a sequence of records has to be like. -/

section

variable (calls : List Stamps) (epoch : Option Int) (streamId : String)

def streamSeqs : List Nat :=
  (calls.filter fun stamps => stamps.streamKey = (epoch, streamId)).map (·.streamSeq)

def epochs : List Int :=
  (calls.filter fun stamps => stamps.streamId = streamId).filterMap (·.epoch)

def emissionSeqs : List Nat :=
  (calls.filter fun stamps => stamps.epoch = epoch).filterMap (·.emissionSeq)

end

/-- 0, 1, 2, ... without a gap. -/
def Dense (numbers : List Nat) : Prop := numbers = List.range numbers.length

/-- Streams are dense within an epoch, epochs arrive in order, and so do the emissions of each. -/
structure Ordered (calls : List Stamps) : Prop where
  dense : ∀ epoch streamId, Dense (streamSeqs calls epoch streamId)
  epochs : ∀ streamId, (epochs calls streamId).Pairwise (· ≤ ·)
  emissions : ∀ epoch, (emissionSeqs calls epoch).Pairwise (· < ·)

def Silent (alerts : List (List String)) : Prop := ∀ raised ∈ alerts, raised = []

theorem dense_concat {numbers : List Nat} {number : Nat} :
    Dense (numbers ++ [number]) ↔ Dense numbers ∧ number = numbers.length := by
  unfold Dense
  rw [List.length_append, List.length_singleton, List.range_succ]
  constructor
  · intro same
    obtain ⟨front, last⟩ := List.append_inj same (by simp)
    exact ⟨front, List.singleton_inj.mp last⟩
  · intro both
    rw [← both.1, both.2]

/-- The next number of a dense stream is one more than the last, or zero at its head. -/
theorem Dense.length_eq {numbers : List Nat} (dense : Dense numbers) :
    numbers.length = (numbers.getLast?.map (· + 1)).getD 0 := by
  induction numbers using List.reverseRecOn with
  | nil => rfl
  | append_singleton front last ih =>
    have counted := (dense_concat.mp dense).2
    simp [counted]

theorem pairwise_concat {α : Type} {order : α → α → Prop} {values : List α} {value : α} :
    (values ++ [value]).Pairwise order ↔
      values.Pairwise order ∧ ∀ earlier ∈ values, order earlier value := by
  simp [List.pairwise_append]

/-- In an ascending list the last value stands for all of them. -/
theorem forall_lt_iff_getLast? {values : List Nat} (ascends : values.Pairwise (· < ·)) (value : Nat) :
    (∀ earlier ∈ values, earlier < value) ↔ ∀ last, values.getLast? = some last → last < value := by
  constructor
  · intro below last found
    exact below last (List.mem_of_getLast? found)
  · intro below earlier member
    obtain ⟨front, last, rfl⟩ := (List.eq_nil_or_concat values).resolve_left
      (List.ne_nil_of_mem member)
    rw [List.concat_eq_append] at *
    have lastBelow := below last (by simp)
    rcases List.mem_append.mp member with early | here
    · exact Nat.lt_trans ((pairwise_concat.mp ascends).2 earlier early) lastBelow
    · exact List.mem_singleton.mp here ▸ lastBelow

/-! What the dictionaries hold. -/

/-- The dictionaries after a sequence of calls. -/
structure GapDetector.Tracks (detector : GapDetector) (calls : List Stamps) : Prop where
  lastSeq : ∀ epoch streamId,
    detector.lastSeq (epoch, streamId) = (streamSeqs calls epoch streamId).getLast?
  newestEpoch : ∀ streamId,
    match detector.newestEpoch streamId with
    | none => epochs calls streamId = []
    | some newest => newest ∈ epochs calls streamId ∧ ∀ epoch ∈ epochs calls streamId, epoch ≤ newest
  lastEmissionSeq : ∀ epoch,
    detector.lastEmissionSeq epoch = (emissionSeqs calls epoch).getLast?

theorem streamSeqs_concat (calls : List Stamps) (stamps : Stamps) (epoch : Option Int)
    (streamId : String) :
    streamSeqs (calls ++ [stamps]) epoch streamId =
      if stamps.streamKey = (epoch, streamId) then
        streamSeqs calls epoch streamId ++ [stamps.streamSeq]
      else streamSeqs calls epoch streamId := by
  unfold streamSeqs
  generalize stampedAt : (epoch, streamId) = key
  by_cases same : stamps.streamKey = key <;> simp [same]

theorem epochs_concat (calls : List Stamps) (stamps : Stamps) (streamId : String) :
    epochs (calls ++ [stamps]) streamId =
      if stamps.streamId = streamId then epochs calls streamId ++ stamps.epoch.toList
      else epochs calls streamId := by
  by_cases same : stamps.streamId = streamId
  · cases stamped : stamps.epoch <;> simp [epochs, same, stamped]
  · simp [epochs, same]

theorem emissionSeqs_concat (calls : List Stamps) (stamps : Stamps) (epoch : Option Int) :
    emissionSeqs (calls ++ [stamps]) epoch =
      if stamps.epoch = epoch then emissionSeqs calls epoch ++ stamps.emissionSeq.toList
      else emissionSeqs calls epoch := by
  by_cases same : stamps.epoch = epoch
  · cases stamped : stamps.emissionSeq <;> simp [emissionSeqs, same, stamped]
  · simp [emissionSeqs, same]

namespace GapDetector

theorem new_tracks : new.Tracks [] := by
  constructor
  · intro epoch streamId
    rfl
  · intro streamId
    rfl
  · intro epoch
    rfl

theorem check_tracks {detector : GapDetector} {calls : List Stamps} (tracks : detector.Tracks calls)
    (stamps : Stamps) : (detector.check stamps).2.Tracks (calls ++ [stamps]) := by
  constructor
  · intro epoch streamId
    rw [streamSeqs_concat]
    by_cases same : stamps.streamKey = (epoch, streamId)
    · simp [check, same]
    · rw [if_neg same, ← tracks.lastSeq]
      exact Function.update_of_ne (Ne.symm same) _ _
  · intro streamId
    rw [epochs_concat]
    by_cases same : stamps.streamId = streamId
    · subst same
      have newest := tracks.newestEpoch stamps.streamId
      simp only [check, Function.update_self, newestEpochAfter, if_true]
      -- The newest epoch moves only if the record carries a newer one.
      cases stamped : stamps.epoch with
      | none => simpa using newest
      | some epoch =>
        cases known : detector.newestEpoch stamps.streamId with
        | none =>
          rw [known] at newest
          simp [newest]
        | some latest =>
          rw [known] at newest
          obtain ⟨seen, highest⟩ := newest
          dsimp only
          by_cases newer : latest < epoch
          · rw [if_pos newer]
            simp only [Option.toList_some, List.mem_append, List.mem_singleton, or_true, true_and]
            rintro earlier (early | rfl)
            · exact Int.le_trans (highest earlier early) (Int.le_of_lt newer)
            · exact Int.le_refl _
          · rw [if_neg newer]
            simp only [Option.toList_some, List.mem_append, List.mem_singleton]
            refine ⟨.inl seen, ?_⟩
            rintro earlier (early | rfl)
            · exact highest earlier early
            · exact Int.not_lt.mp newer
    · rw [if_neg same]
      simpa [check, Function.update_of_ne (Ne.symm same)] using tracks.newestEpoch streamId
  · intro epoch
    rw [emissionSeqs_concat]
    by_cases same : stamps.epoch = epoch
    · subst same
      cases stamped : stamps.emissionSeq with
      | none => simpa [check, stamped] using tracks.lastEmissionSeq stamps.epoch
      | some emissionSeq => simp [check, stamped]
    · rw [if_neg same, ← tracks.lastEmissionSeq]
      cases stamped : stamps.emissionSeq with
      | none => simp [check, stamped]
      | some emissionSeq => simp [check, stamped, Function.update_of_ne (Ne.symm same)]

/-- Draining the notes changes no alert. -/
theorem alerts_popNotes (detector : GapDetector) (stamps : Stamps) :
    (detector.popNotes.2.check stamps).1 = (detector.check stamps).1 := rfl

/-! What one call says about the record it is given. -/

variable {detector : GapDetector} {calls : List Stamps} {stamps : Stamps}

theorem gapAlerts_eq_nil_iff (tracks : detector.Tracks calls) (ordered : Ordered calls)
    (stamped : stamps.epoch.isSome) :
    detector.gapAlerts stamps = [] ↔
      stamps.streamSeq = (streamSeqs calls stamps.epoch stamps.streamId).length := by
  have dense := ordered.dense stamps.epoch stamps.streamId
  unfold gapAlerts
  rw [tracks.lastSeq, dense.length_eq]
  cases (streamSeqs calls stamps.epoch stamps.streamId).getLast? with
  | none => simp [stamped, streamHeadSeq]
  | some last => simp

theorem regressionAlerts_eq_nil_iff (tracks : detector.Tracks calls) {epoch : Int}
    (stamped : stamps.epoch = some epoch) :
    detector.regressionAlerts stamps = [] ↔
      ∀ earlier ∈ epochs calls stamps.streamId, earlier ≤ epoch := by
  have newest := tracks.newestEpoch stamps.streamId
  unfold regressionAlerts
  rw [stamped]
  cases known : detector.newestEpoch stamps.streamId with
  | none =>
    rw [known] at newest
    simp [newest]
  | some latest =>
    rw [known] at newest
    obtain ⟨seen, highest⟩ := newest
    dsimp only
    constructor
    · intro quiet earlier member
      by_cases older : epoch < latest
      · simp [older] at quiet
      · exact Int.le_trans (highest earlier member) (Int.not_lt.mp older)
    · intro above
      rw [if_neg (Int.not_lt.mpr (above latest seen))]

theorem orderingAlerts_eq_nil_iff (tracks : detector.Tracks calls) (ordered : Ordered calls) :
    detector.orderingAlerts stamps = [] ↔
      ∀ number ∈ stamps.emissionSeq, ∀ earlier ∈ emissionSeqs calls stamps.epoch,
        earlier < number := by
  unfold orderingAlerts
  cases emitted : stamps.emissionSeq with
  | none => simp
  | some number =>
    have ascends := ordered.emissions stamps.epoch
    simp only [Option.mem_some_iff, forall_eq', forall_lt_iff_getLast? ascends,
      tracks.lastEmissionSeq]
    -- Before the first emission the detector compares with -1, which every number exceeds.
    cases (emissionSeqs calls stamps.epoch).getLast? with
    | none =>
      have above : ¬(number : Int) ≤ -1 := by omega
      simp [above]
    | some last => simp

end GapDetector

/-- One more record keeps a sequence ordered if it is next in its stream, of no older epoch, and
emitted after what its epoch has emitted. -/
theorem ordered_concat {calls : List Stamps} {stamps : Stamps} {epoch : Int}
    (stamped : stamps.epoch = some epoch) :
    Ordered (calls ++ [stamps]) ↔ Ordered calls ∧
      stamps.streamSeq = (streamSeqs calls stamps.epoch stamps.streamId).length ∧
      (∀ earlier ∈ epochs calls stamps.streamId, earlier ≤ epoch) ∧
      ∀ number ∈ stamps.emissionSeq, ∀ earlier ∈ emissionSeqs calls stamps.epoch,
        earlier < number := by
  constructor
  · intro ordered
    have dense := ordered.dense stamps.epoch stamps.streamId
    have ascends := ordered.epochs stamps.streamId
    have emits := ordered.emissions stamps.epoch
    rw [streamSeqs_concat, if_pos rfl, dense_concat] at dense
    rw [epochs_concat, if_pos rfl, stamped, Option.toList_some, pairwise_concat] at ascends
    rw [emissionSeqs_concat, if_pos rfl] at emits
    refine ⟨⟨?_, ?_, ?_⟩, dense.2, ascends.2, ?_⟩
    · intro other streamId
      have dense := ordered.dense other streamId
      rw [streamSeqs_concat] at dense
      split at dense
      · exact (dense_concat.mp dense).1
      · exact dense
    · intro streamId
      have ascends := ordered.epochs streamId
      rw [epochs_concat] at ascends
      split at ascends
      · exact (List.pairwise_append.mp ascends).1
      · exact ascends
    · intro other
      have emits := ordered.emissions other
      rw [emissionSeqs_concat] at emits
      split at emits
      · exact (List.pairwise_append.mp emits).1
      · exact emits
    · intro number emitted
      rw [Option.mem_def.mp emitted, Option.toList_some] at emits
      exact (pairwise_concat.mp emits).2
  · rintro ⟨ordered, next, notOlder, emittedAfter⟩
    constructor
    · intro other streamId
      rw [streamSeqs_concat]
      split
      · next same =>
        obtain ⟨rfl, rfl⟩ := Prod.mk.inj same
        exact dense_concat.mpr ⟨ordered.dense _ _, next⟩
      · exact ordered.dense other streamId
    · intro streamId
      rw [epochs_concat]
      split
      · next same =>
        subst same
        rw [stamped]
        exact pairwise_concat.mpr ⟨ordered.epochs _, notOlder⟩
      · exact ordered.epochs streamId
    · intro other
      rw [emissionSeqs_concat]
      split
      · next same =>
        subst same
        cases emitted : stamps.emissionSeq with
        | none => simpa using ordered.emissions stamps.epoch
        | some number =>
          exact pairwise_concat.mpr ⟨ordered.emissions _, emittedAfter number emitted⟩
      · exact ordered.emissions other

theorem GapDetector.check_silent_iff {detector : GapDetector} {calls : List Stamps}
    (tracks : detector.Tracks calls) (ordered : Ordered calls) {stamps : Stamps}
    (stamped : stamps.epoch.isSome) :
    (detector.check stamps).1 = [] ↔ Ordered (calls ++ [stamps]) := by
  obtain ⟨epoch, carried⟩ := Option.isSome_iff_exists.mp stamped
  rw [ordered_concat carried, ← gapAlerts_eq_nil_iff tracks ordered stamped,
    ← regressionAlerts_eq_nil_iff tracks carried, ← orderingAlerts_eq_nil_iff tracks ordered]
  simp [check, ordered]

namespace GapDetector

theorem checkAll_concat (detector : GapDetector) (calls : List Stamps) (stamps : Stamps) :
    detector.checkAll (calls ++ [stamps]) =
      ((detector.checkAll calls).1 ++ [((detector.checkAll calls).2.check stamps).1],
        ((detector.checkAll calls).2.check stamps).2) := by
  induction calls generalizing detector with
  | nil => rfl
  | cons first rest ih => simp [checkAll, ih]

theorem checkAll_tracks (calls : List Stamps) : (new.checkAll calls).2.Tracks calls := by
  induction calls using List.reverseRecOn with
  | nil => exact new_tracks
  | append_singleton front last ih =>
    rw [checkAll_concat]
    exact check_tracks ih last

end GapDetector

theorem silent_concat {alerts : List (List String)} {raised : List String} :
    Silent (alerts ++ [raised]) ↔ Silent alerts ∧ raised = [] := by
  simp [Silent, or_imp, forall_and]

theorem ordered_nil : Ordered [] := by
  constructor
  · intro epoch streamId
    rfl
  · intro streamId
    exact List.Pairwise.nil
  · intro epoch
    exact List.Pairwise.nil

theorem silent_iff_ordered {calls : List Stamps} (stamped : ∀ stamps ∈ calls, stamps.epoch.isSome) :
    Silent (GapDetector.new.checkAll calls).1 ↔ Ordered calls := by
  induction calls using List.reverseRecOn with
  | nil => exact ⟨fun _ => ordered_nil, fun _ raised member => absurd member List.not_mem_nil⟩
  | append_singleton front last ih =>
    have earlier := ih fun stamps member => stamped stamps (List.mem_append_left _ member)
    have carried := stamped last (List.mem_append_right _ (List.mem_singleton_self _))
    rw [GapDetector.checkAll_concat, silent_concat, earlier]
    constructor
    · intro both
      exact (GapDetector.check_silent_iff (GapDetector.checkAll_tracks front) both.1 carried).mp both.2
    · intro ordered
      obtain ⟨epoch, found⟩ := Option.isSome_iff_exists.mp carried
      have before := ((ordered_concat found).mp ordered).1
      exact ⟨before,
        (GapDetector.check_silent_iff (GapDetector.checkAll_tracks front) before carried).mpr ordered⟩

/-- Whatever comes before a record of a dense stream has arrived as well. -/
theorem Ordered.arrived {calls : List Stamps} (ordered : Ordered calls) {stamps : Stamps}
    (member : stamps ∈ calls) {number : Nat} (earlier : number < stamps.streamSeq) :
    ∃ other ∈ calls, other.streamKey = stamps.streamKey ∧ other.streamSeq = number := by
  have dense := ordered.dense stamps.epoch stamps.streamId
  have listed : stamps.streamSeq ∈ streamSeqs calls stamps.epoch stamps.streamId :=
    List.mem_map_of_mem (List.mem_filter.mpr ⟨member, decide_eq_true rfl⟩)
  rw [show streamSeqs calls stamps.epoch stamps.streamId = _ from dense, List.mem_range] at listed
  have found : number ∈ streamSeqs calls stamps.epoch stamps.streamId := by
    rw [show streamSeqs calls stamps.epoch stamps.streamId = _ from dense, List.mem_range]
    omega
  obtain ⟨other, selected, numbered⟩ := List.mem_map.mp found
  obtain ⟨inCalls, sameStream⟩ := List.mem_filter.mp selected
  exact ⟨other, inCalls, of_decide_eq_true sameStream, numbered⟩

theorem exitCode_eq_zero_iff (alerts : List (List String)) : exitCode true alerts = 0 ↔ Silent alerts := by
  simp [exitCode, Silent, List.sum_eq_zero_iff_forall_eq_nat]

/-- The detector is silent exactly on ordered sequences, so under `--strict-gaps` a run passes only
if no record that was followed by another one of its stream is missing. -/
theorem gapDetector_silent_iff (calls : List Stamps)
    (stamped : ∀ stamps ∈ calls, stamps.epoch.isSome) :
    (Silent (GapDetector.new.checkAll calls).1 ↔ Ordered calls) ∧
      (exitCode true (GapDetector.new.checkAll calls).1 = 0 ↔ Ordered calls) ∧
      (exitCode true (GapDetector.new.checkAll calls).1 = 0 → ∀ stamps ∈ calls,
        ∀ number < stamps.streamSeq, ∃ other ∈ calls,
          other.streamKey = stamps.streamKey ∧ other.streamSeq = number) := by
  have silent := silent_iff_ordered stamped
  have passes := (exitCode_eq_zero_iff (GapDetector.new.checkAll calls).1).trans silent
  refine ⟨silent, passes, ?_⟩
  intro passed stamps member number earlier
  exact (passes.mp passed).arrived member earlier

/-- A restart, and two streams that share the emissions of an epoch. -/
def restarted : List Stamps :=
  [⟨"gw-1", 0, some 4, some 100⟩, ⟨"gw-2", 0, none, some 100⟩, ⟨"gw-1", 1, some 7, some 100⟩,
    ⟨"gw-1", 0, some 0, some 101⟩]

theorem gapDetector_silent_restarted :
    Silent (GapDetector.new.checkAll restarted).1 ∧ Ordered restarted := by
  have silent : Silent (GapDetector.new.checkAll restarted).1 := by
    unfold Silent
    decide
  exact ⟨silent, (gapDetector_silent_iff restarted (by decide)).1.mp silent⟩

end ImmutableLedger.Cpex
