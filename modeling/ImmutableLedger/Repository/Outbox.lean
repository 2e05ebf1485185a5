import ImmutableLedger.Repository.Tables

/-! `ledger_write_outbox` and the updates of a delivery. -/

set_option autoImplicit false

namespace ImmutableLedger

open Query

structure OutboxRow where
  record : OutboxRecord
  createdTs : DateTime

def OutboxRow.outboxId (row : OutboxRow) : Uuid := row.record.outboxId

def JsonScalar.fitsJsonb : JsonScalar → Bool
  | .text value => !value.toList.contains (Char.ofNat 0)
  | _ => true

def OutboxRow.fitsColumns (row : OutboxRow) : Bool :=
  fitsVarchar 255 row.record.entryType && row.record.payload.all fun member => member.2.fitsJsonb

structure LedgerWriteOutbox where
  rows : List OutboxRow
  uniqueOutboxId : (rows.map (·.outboxId)).Nodup

namespace LedgerWriteOutbox

def empty : LedgerWriteOutbox := ⟨[], List.nodup_nil⟩

variable (table : LedgerWriteOutbox)

def insert (row : OutboxRow) : Option LedgerWriteOutbox :=
  if fresh : row.outboxId ∉ table.rows.map (·.outboxId) then
    if row.fitsColumns then
      some
        { rows := table.rows ++ [row]
          uniqueOutboxId := by
            rw [List.map_append, List.map_singleton, ← List.concat_eq_append, List.nodup_concat]
            exact ⟨fresh, table.uniqueOutboxId⟩ }
    else none
  else none

/-- WHERE status = 'PENDING' ORDER BY created_ts -/
def pending : List OutboxRecord :=
  (orderBy (fun row => row.createdTs.nanos)
    (table.rows.filter fun row => decide (row.record.status = .pending))).map (·.record)

/-- The columns an UPDATE of a delivery sets. -/
structure Change where
  set : OutboxRecord → OutboxRecord
  keeps : ∀ record, (set record).SameEvent record

def Change.on (change : Change) (selects : OutboxRecord → Bool) (record : OutboxRecord) :
    OutboxRecord :=
  if selects record then change.set record else record

theorem Change.keeps_on (change : Change) (selects : OutboxRecord → Bool) (record : OutboxRecord) :
    (change.on selects record).SameEvent record := by
  unfold on
  split
  · exact change.keeps record
  · exact .refl record

def Change.apply (change : Change) (selects : OutboxRecord → Bool) (row : OutboxRow) : OutboxRow :=
  { row with record := change.on selects row.record }

/-- UPDATE ... SET change WHERE selects -/
def update (selects : OutboxRecord → Bool) (change : Change) : LedgerWriteOutbox where
  rows := table.rows.map (change.apply selects)
  uniqueOutboxId := by
    have same : ∀ row, (change.apply selects row).outboxId = row.outboxId := fun row =>
      (change.keeps_on selects row.record).outboxId
    simpa [Function.comp_def, same] using table.uniqueOutboxId

def setStatus (status : OutboxStatus) : Change where
  set := fun record => { record with status := status }
  keeps := fun _ => ⟨rfl, rfl, rfl, rfl⟩

def addAttempt : Change where
  set := fun record => { record with attemptCount := record.attemptCount + 1 }
  keeps := fun _ => ⟨rfl, rfl, rfl, rfl⟩

/-- An UPDATE that touches no row is answered with `NotFound`. -/
def updateOne (selects : OutboxRecord → Bool) (change : Change) :
    Except RepositoryError Unit × LedgerWriteOutbox :=
  if table.rows.any fun row => selects row.record then (.ok (), table.update selects change)
  else (.error .notFound, table)

def markOutboxDelivered (outboxId : Uuid) : Except RepositoryError Unit × LedgerWriteOutbox :=
  table.updateOne
    (fun record => decide (record.outboxId = outboxId ∧ record.status = .pending))
    (setStatus .delivered)

/-- The largest value of an INT column. -/
def maxAttemptCount : Int32 := 2147483647

def incrementOutboxAttempt (outboxId : Uuid) : Except RepositoryError Unit × LedgerWriteOutbox :=
  let selects := fun record : OutboxRecord => decide (record.outboxId = outboxId)
  if table.rows.any fun row => selects row.record && row.record.attemptCount == maxAttemptCount then
    (.error .unavailable, table)
  else table.updateOne selects addAttempt

def markOutboxFailed (outboxId : Uuid) : Except RepositoryError Unit × LedgerWriteOutbox :=
  table.updateOne (fun record => decide (record.outboxId = outboxId)) (setStatus .failed)

variable {table}

theorem insert_some {row : OutboxRow} {after : LedgerWriteOutbox}
    (inserted : table.insert row = some after) :
    after.rows = table.rows ++ [row] ∧ row.outboxId ∉ table.rows.map (·.outboxId) := by
  unfold insert at inserted
  split_ifs at inserted with fresh fits
  obtain rfl := Option.some.inj inserted
  exact ⟨rfl, fresh⟩

/-- An update either rewrites the rows it selects or leaves the table as it was. -/
theorem updateOne_rows (selects : OutboxRecord → Bool) (change : Change) :
    (table.updateOne selects change).2.rows = table.rows.map (change.apply selects) := by
  unfold updateOne
  split
  · rfl
  · next nothing =>
    have untouched : ∀ row ∈ table.rows, change.apply selects row = row := fun row member => by
      have unselected : selects row.record = false := by
        by_contra selected
        exact nothing (List.any_eq_true.mpr ⟨row, member, by simpa using selected⟩)
      simp [Change.apply, Change.on, unselected]
    exact ((List.map_congr_left untouched).trans (List.map_id _)).symm

end LedgerWriteOutbox

end ImmutableLedger
