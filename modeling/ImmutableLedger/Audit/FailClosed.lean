import ImmutableLedger.Audit.Agreement
import ImmutableLedger.Service.Background

/-! What a published verification status vouches for when the repository may fail. -/

set_option autoImplicit false

namespace ImmutableLedger

open Concurrency

/-- A repository over contents that may change from call to call. Any call may fail, but what is
answered is what is stored. -/
structure FailingRepository (σ : Type) where
  content : σ → Tables
  handler : Handler reads σ
  honest : ∀ request state, (handler request state).1 = (content state).query request ∨
    ∃ err, (handler request state).1 = .error err

section

variable [Sha256] {σ : Type} (config : AppConfig) (bound : Nat) (maxEntriesPerChain : Int64)

/-- Every type of a list in turn is verified to the end and found valid. -/
def VerifiedAll (handler : Handler reads σ) : List String → σ → σ → Prop
  | [], before, after => before = after
  | entryType :: rest, before, after => ∃ output reached,
      (verifyRecentChain config bound entryType maxEntriesPerChain).run.run handler before =
        some (.ok output, reached) ∧
      output.chainValid = true ∧ VerifiedAll handler rest reached after

/-- The listing of entry types succeeds in a state. -/
def ListingSucceeds (repository : FailingRepository σ) (state : σ) : Prop :=
  (repository.handler .getDistinctEntryTypes state).1 =
    .ok (repository.content state).entries.distinctEntryTypes

/-- The listing succeeded, and so did the verification of every type that was stored then. -/
def Vouched (repository : FailingRepository σ) (before after : σ) : Prop :=
  ListingSucceeds repository before ∧
    VerifiedAll config bound maxEntriesPerChain repository.handler
      (repository.content before).entries.distinctEntryTypes
      (repository.handler .getDistinctEntryTypes before).2 after

/-- An iteration says somewhere that all chains are valid: in its status, in the gauge, or through
`/readyz`. -/
def Published.ReportsValid (published : Published) : Prop :=
  published.status.allValid = true ∨ published.chainIntegrityValid = 1 ∨
    readyz true (some published.status) = (200, "ready")

variable {config bound maxEntriesPerChain}

omit [Sha256] in
theorem chainResult_valid {entryType : String} {result : Except ServiceError VerifyChainOutput}
    (valid : (chainResult entryType result).valid = true) :
    ∃ output, result = .ok output ∧ output.chainValid = true := by
  cases result with
  | ok output => exact ⟨output, rfl, valid⟩
  | error err => cases valid

theorem verifyTypes_valid {handler : Handler reads σ} {entryTypes : List String} {before after : σ}
    {results : List ChainResult}
    (returned : (verifyTypes config bound maxEntriesPerChain entryTypes).run handler before =
      some (results, after)) (valid : results.all (·.valid) = true) :
    VerifiedAll config bound maxEntriesPerChain handler entryTypes before after := by
  induction entryTypes generalizing before results with
  | nil =>
    obtain ⟨-, rfl⟩ := Prod.mk.inj (Option.some.inj returned)
    rfl
  | cons entryType rest ih =>
    rw [verifyTypes, Program.run_bind] at returned
    obtain ⟨⟨result, reached⟩, verified, returned⟩ := Option.bind_eq_some_iff.mp returned
    rw [Program.run_bind] at returned
    obtain ⟨⟨others, last⟩, rested, returned⟩ := Option.bind_eq_some_iff.mp returned
    obtain ⟨rfl, rfl⟩ := Prod.mk.inj (Option.some.inj returned)
    obtain ⟨here, later⟩ := Bool.and_eq_true_iff.mp valid
    obtain ⟨output, rfl, chainValid⟩ := chainResult_valid here
    exact ⟨output, reached, verified, chainValid, ih rested later⟩

omit [Sha256] in
theorem publication_valid {lastRun : DateTime} {durationMs : UInt64} {results : List ChainResult} :
    (publication lastRun durationMs results).ReportsValid ↔ results.all (·.valid) = true := by
  cases valid : results.all (·.valid) <;>
    simp [Published.ReportsValid, publication, readyz, valid]

theorem backgroundIteration_run {handler : Handler reads σ} {before after : σ}
    {lastRun : DateTime} {durationMs : UInt64} {published : Published} :
    (backgroundIteration config bound maxEntriesPerChain lastRun durationMs).run handler before =
        some (published, after) ↔
      ∃ results, (runVerification config bound maxEntriesPerChain).run handler before =
        some (results, after) ∧ published = publication lastRun durationMs results := by
  rw [backgroundIteration, Program.run_bind]
  cases (runVerification config bound maxEntriesPerChain).run handler before with
  | none => simp
  | some result =>
    obtain ⟨results, reached⟩ := result
    simp [Program.run, and_comm, eq_comm]

theorem runVerification_run (handler : Handler reads σ) (before : σ) :
    (runVerification config bound maxEntriesPerChain).run handler before =
      match (handler .getDistinctEntryTypes before).1 with
      | .error _ => some ([], (handler .getDistinctEntryTypes before).2)
      | .ok entryTypes => (verifyTypes config bound maxEntriesPerChain entryTypes).run handler
          (handler .getDistinctEntryTypes before).2 := by
  have listing : (ask .getDistinctEntryTypes).run.run handler before =
      some ((handler .getDistinctEntryTypes before).1.mapError mapRepo,
        (handler .getDistinctEntryTypes before).2) := rfl
  rw [runVerification, Program.run_bind, listing, Option.bind_some]
  cases (handler .getDistinctEntryTypes before).1 <;> rfl

theorem runVerification_valid {repository : FailingRepository σ} {before after : σ}
    {results : List ChainResult} (listed : ListingSucceeds repository before)
    (returned : (runVerification config bound maxEntriesPerChain).run repository.handler before =
      some (results, after)) (valid : results.all (·.valid) = true) :
    Vouched config bound maxEntriesPerChain repository before after := by
  rw [runVerification_run, listed] at returned
  exact ⟨listed, verifyTypes_valid returned valid⟩

/-- A failed listing makes for an empty run, of which every result is valid. -/
theorem runVerification_unlisted {repository : FailingRepository σ} {before : σ}
    (failed : ¬ListingSucceeds repository before) :
    (runVerification config bound maxEntriesPerChain).run repository.handler before =
      some ([], (repository.handler .getDistinctEntryTypes before).2) := by
  obtain ⟨err, rejected⟩ := (repository.honest .getDistinctEntryTypes before).resolve_left failed
  rw [runVerification_run, rejected]

theorem backgroundIteration_unlisted {repository : FailingRepository σ} {before : σ}
    (failed : ¬ListingSucceeds repository before) (lastRun : DateTime) (durationMs : UInt64) :
    ∃ after, (backgroundIteration config bound maxEntriesPerChain lastRun durationMs).run
      repository.handler before = some (publication lastRun durationMs [], after) :=
  ⟨_, backgroundIteration_run.mpr ⟨[], runVerification_unlisted failed, rfl⟩⟩

/-- Whatever fails while an iteration runs, its report that all chains are valid vouches for every
stored chain exactly if the listing of the types has succeeded. -/
theorem background_fails_closed_iff (config : AppConfig) (maxEntriesPerChain : Int64)
    (repository : FailingRepository σ) (before : σ) :
    (∀ bound lastRun durationMs published after,
      (backgroundIteration config bound maxEntriesPerChain lastRun durationMs).run
          repository.handler before = some (published, after) →
        published.ReportsValid → Vouched config bound maxEntriesPerChain repository before after) ↔
      ListingSucceeds repository before := by
  constructor
  · intro closed
    by_contra failed
    obtain ⟨after, returned⟩ := backgroundIteration_unlisted failed Sample.instant 0
    exact failed (closed 0 _ _ _ after returned (.inl rfl)).1
  · rintro listed bound lastRun durationMs published after returned reported
    obtain ⟨results, ran, rfl⟩ := backgroundIteration_run.mp returned
    exact runVerification_valid listed ran (publication_valid.mp reported)

end

namespace Sample

/-- A database that cannot be reached. -/
def unreachable [Sha256] : FailingRepository Unit where
  content := fun _ => hidden
  handler := fun _ _ => (.error .unavailable, ())
  honest := fun _ _ => .inr ⟨.unavailable, rfl⟩

end Sample

/-- An iteration that could read nothing reports that all chains are valid. -/
theorem background_passes_unreachable :
    letI := Fips180.sha256
    ¬ ∀ bound lastRun durationMs published after,
      (backgroundIteration Sample.config bound 10000 lastRun durationMs).run
          Sample.unreachable.handler () = some (published, after) →
        published.ReportsValid → Vouched Sample.config bound 10000 Sample.unreachable () after := by
  let := Fips180.sha256
  intro closed
  have failed : ¬ListingSucceeds Sample.unreachable () := nofun
  obtain ⟨after, returned⟩ := backgroundIteration_unlisted failed Sample.instant 0
  exact failed (closed 0 _ _ _ after returned (.inl rfl)).1

end ImmutableLedger
