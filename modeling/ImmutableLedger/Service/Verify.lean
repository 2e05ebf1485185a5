import ImmutableLedger.Service.Types

/-! `verify_entry`, `verify_chain` and `verify_recent_chain`. -/

set_option autoImplicit false

namespace ImmutableLedger

open Concurrency

/-- Code that reads the repository and may stop with a service error. -/
abbrev Verification := ExceptT ServiceError (Program reads)

def ask (request : ReadRequest) : Verification request.Value :=
  ExceptT.mk do return (← Program.perform (I := reads) request).mapError mapRepo

def batchSize : Int64 := 50

variable [Sha256] (config : AppConfig)

/-- Whether `previous_hash` names the predecessor found by position. -/
def chainLinkValid (entry : LedgerEntryRecord) : Verification Bool := do
  if entry.chainPosition = 1 then
    return decide (entry.previousHash = config.genesisHash)
  else
    let predecessors ← ask (.getEntriesByTypePaged entry.entryType (entry.chainPosition - 2) 1)
    match predecessors with
    | prev :: _ => return decide (prev.entryHash = entry.previousHash)
    | [] => return false

def verifyEntry (entryId : Uuid) : Verification VerifyEntryOutput := do
  let entry ← ask (.getEntry entryId)
  let recomputed := entry.recomputed
  let hashValid := decide (recomputed = some entry.entryHash)
  if recomputed.isNone then
    return {
      entryId := entryId
      hashValid := false
      chainLinkValid := false
      failureReason := "unsupported_hash_version" }
  let linkValid ← chainLinkValid config entry
  let failureReason :=
    if hashValid && linkValid then ""
    else if !hashValid then "entry_hash_mismatch"
    else "chain_link_mismatch"
  return {
    entryId := entryId
    hashValid := hashValid
    chainLinkValid := linkValid
    failureReason := failureReason }

/-- The position of an optional bound, which must belong to the chain. -/
def boundPosition (entryType : String) (absent : Int64) (foreign : String) :
    Option Uuid → Verification Int64
  | none => return absent
  | some id => do
      let entry ← ask (.getEntry id)
      if entry.entryType ≠ entryType then throw (.invalidArgument foreign)
      return entry.chainPosition

/-- The hash the walk starts from, unless the predecessor is missing. -/
def startingHash (entryType : String) (startPosition : Int64) : Verification (Option String) := do
  if startPosition = 1 then return some config.genesisHash
  else
    let predecessors ← ask (.getEntriesByTypePaged entryType (startPosition - 2) 1)
    return predecessors.head?.map (·.entryHash)

/-- What the walk carries from row to row. -/
structure Cursor where
  prevHash : String
  afterPosition : Int64
  entriesChecked : Nat

def Cursor.passed (cursor : Cursor) : VerifyChainOutput where
  chainValid := true
  entriesChecked := cursor.entriesChecked
  firstInvalidEntryId := none
  failureReason := ""

def Cursor.failed (cursor : Cursor) (entry : LedgerEntryRecord) (reason : String) :
    VerifyChainOutput where
  chainValid := false
  entriesChecked := cursor.entriesChecked + 1
  firstInvalidEntryId := some entry.entryId
  failureReason := reason

def Cursor.next (cursor : Cursor) (entry : LedgerEntryRecord) : Cursor where
  prevHash := entry.entryHash
  afterPosition := entry.chainPosition
  entriesChecked := cursor.entriesChecked + 1

/-- One row of the walk: it ends the verification or moves the cursor. -/
def checkEntry (endPosition : Int64) (cursor : Cursor) (entry : LedgerEntryRecord) :
    Except VerifyChainOutput Cursor :=
  if endPosition < entry.chainPosition then .error cursor.passed
  else if entry.previousHash ≠ cursor.prevHash then
    .error (cursor.failed entry "chain_link_mismatch")
  else if entry.recomputed ≠ some entry.entryHash then
    .error (cursor.failed entry
      (if entry.recomputed.isNone then "unsupported_hash_version" else "entry_hash_mismatch"))
  else .ok (cursor.next entry)

def checkBatch (endPosition : Int64) (cursor : Cursor) (batch : List LedgerEntryRecord) :
    Except VerifyChainOutput Cursor :=
  batch.foldlM (checkEntry endPosition) cursor

/-- The page loop, cut off after `bound` pages. -/
def walk (entryType : String) (endPosition : Int64) : Nat → Cursor → Verification VerifyChainOutput
  | 0, _ => ExceptT.mk .unfinished
  | bound + 1, cursor => do
      let batch ← ask (.getEntriesByTypePaged entryType cursor.afterPosition batchSize)
      if batch.isEmpty then return cursor.passed
      match checkBatch endPosition cursor batch with
      | .error output => return output
      | .ok cursor =>
        if (batch.length : Int) < batchSize.toInt then return cursor.passed
        else walk entryType endPosition bound cursor

def verifyChain (bound : Nat) (entryType : String) (startEntryId endEntryId : Option Uuid) :
    Verification VerifyChainOutput := do
  let startPosition ←
    boundPosition entryType 1 "start_entry_id does not belong to entry_type" startEntryId
  let endPosition ←
    boundPosition entryType Int64.maxValue "end_entry_id does not belong to entry_type" endEntryId
  if endPosition < startPosition then
    throw (.invalidArgument "start_entry_id must not follow end_entry_id")
  match ← startingHash config entryType startPosition with
  | none =>
    return {
      chainValid := false
      entriesChecked := 0
      firstInvalidEntryId := none
      failureReason := "predecessor_not_found" }
  | some prevHash =>
    walk entryType endPosition bound
      { prevHash := prevHash, afterPosition := startPosition - 1, entriesChecked := 0 }

/-- The row a window starts from: none at all where the window is the whole chain. -/
def windowStart (entryType : String) (startPosition : Int64) : Verification (Option Uuid) := do
  if startPosition = 1 then return none
  else
    let rows ← ask (.getEntriesByTypePaged entryType (startPosition - 1) 1)
    return rows.head?.map (·.entryId)

def verifyRecentChain (bound : Nat) (entryType : String) (maxEntries : Int64) :
    Verification VerifyChainOutput := do
  if maxEntries ≤ 0 then throw (.invalidArgument "max_entries must be positive")
  match ← (Program.perform (I := reads) (.getChainTip entryType) : Program reads _) with
  | .error .notFound => verifyChain config bound entryType none none
  | .error err => throw (mapRepo err)
  | .ok (tip : ChainTip) =>
    let startPosition := max (tip.position - maxEntries + 1) 1
    let startEntryId ← windowStart entryType startPosition
    if 1 < startPosition ∧ startEntryId = none then
      return {
        chainValid := false
        entriesChecked := 0
        firstInvalidEntryId := none
        failureReason := "window_start_not_found" }
    verifyChain config bound entryType startEntryId (some tip.entryId)

end ImmutableLedger
