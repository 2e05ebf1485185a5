import ImmutableLedger.Service.Verify

/-! The background verifier and what `/readyz` makes of its status. -/

set_option autoImplicit false

namespace ImmutableLedger

open Concurrency

structure ChainResult where
  entryType : String
  valid : Bool
  entriesChecked : Nat
  failureReason : String

structure VerificationStatus where
  allValid : Bool
  chainsChecked : Nat
  lastRun : DateTime
  durationMs : UInt64
  chainResults : List ChainResult

def chainResult (entryType : String) : Except ServiceError VerifyChainOutput → ChainResult
  | .ok output => {
      entryType := entryType
      valid := output.chainValid
      entriesChecked := output.entriesChecked
      failureReason := output.failureReason }
  | .error err => {
      entryType := entryType
      valid := false
      entriesChecked := 0
      failureReason := err.display }

variable [Sha256] (config : AppConfig) (bound : Nat) (maxEntriesPerChain : Int64)

def verifyTypes : List String → Program reads (List ChainResult)
  | [] => return []
  | entryType :: rest => do
      let result ← (verifyRecentChain config bound entryType maxEntriesPerChain).run
      let results ← verifyTypes rest
      return chainResult entryType result :: results

/-- A failed listing yields no results at all. -/
def runVerification : Program reads (List ChainResult) := do
  match ← (ask .getDistinctEntryTypes).run with
  | .error _ => return []
  | .ok (entryTypes : List String) => verifyTypes config bound maxEntriesPerChain entryTypes

/-- What an iteration leaves behind: the shared status and the gauge. -/
structure Published where
  status : VerificationStatus
  chainIntegrityValid : Int64

def publication (lastRun : DateTime) (durationMs : UInt64) (chainResults : List ChainResult) :
    Published :=
  let allValid := chainResults.all (·.valid)
  { status :=
      { allValid := allValid
        chainsChecked := chainResults.length
        lastRun := lastRun
        durationMs := durationMs
        chainResults := chainResults }
    chainIntegrityValid := if allValid then 1 else 0 }

def backgroundIteration (lastRun : DateTime) (durationMs : UInt64) : Program reads Published := do
  let chainResults ← runVerification config bound maxEntriesPerChain
  return publication lastRun durationMs chainResults

/-- `/readyz`: the status code and the text of the answer. -/
def readyz (databaseAvailable : Bool) (status : Option VerificationStatus) : Nat × String :=
  if !databaseAvailable then (503, "database unavailable")
  else if status.any fun verification => !verification.allValid then
    (503, "chain verification failed")
  else (200, "ready")

end ImmutableLedger
