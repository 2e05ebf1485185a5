import ImmutableLedger.Audit.Window
import ImmutableLedger.Concurrency.Observation
import ImmutableLedger.Ledger.Interleavings

/-! Verification of a ledger that grows meanwhile.

A chain that is complete at every moment gains rows at its end only. So what a verifier has
checked stays the beginning of what it goes on to read, wherever the appends fall.
-/

set_option autoImplicit false

namespace ImmutableLedger

open Concurrency Query Chain Relation

variable [Sha256]

/-- What the reads of a ledger show of it while all of its chains are complete. -/
structure Intact (genesis : String) where
  answers : (request : ReadRequest) → request.Reply
  chain : String → List LedgerEntryRecord
  pages : ∀ entryType, Pages answers entryType (chain entryType)
  tip : ∀ entryType tip, answers (.getChainTip entryType) = .ok tip →
    ∃ last, (chain entryType).getLast? = some last ∧ tip = last.tip
  counted : ∀ entryType,
    (chain entryType).map LedgerEntryRecord.position = positions (chain entryType).length
  linked : ∀ entryType, LinkedEntries genesis (chain entryType)
  hashed : ∀ entryType, ∀ row ∈ chain entryType, row.HashValid

namespace Intact

variable {genesis : String}

/-- Every chain only gains rows at its end. -/
def Extends (before after : Intact genesis) : Prop :=
  ∀ entryType, before.chain entryType <+: after.chain entryType

theorem Extends.refl (view : Intact genesis) : view.Extends view := fun _ => List.prefix_refl _

theorem Extends.trans {first second third : Intact genesis} (one : first.Extends second)
    (two : second.Extends third) : first.Extends third :=
  fun entryType => (one entryType).trans (two entryType)

theorem Extends.of_moves {before after : Intact genesis}
    (moves : ReflTransGen Extends before after) : before.Extends after := by
  induction moves with
  | refl => exact .refl _
  | tail _ step ih => exact ih.trans step

theorem Extends.length_le {before after : Intact genesis} (extended : before.Extends after)
    (entryType : String) : (before.chain entryType).length ≤ (after.chain entryType).length :=
  (extended entryType).length_le

theorem Extends.take {before after : Intact genesis} (extended : before.Extends after)
    {entryType : String} {count : Nat} (within : count ≤ (before.chain entryType).length) :
    (after.chain entryType).take count = (before.chain entryType).take count := by
  obtain ⟨more, split⟩ := extended entryType
  rw [← split, List.take_append_of_le_length within]

/-- A row of a chain and where it stands. -/
theorem place (view : Intact genesis) {entryType : String} {row : LedgerEntryRecord}
    (member : row ∈ view.chain entryType) :
    ∃ i : Nat, (view.chain entryType)[i]? = some row ∧ row.position = i + 1 :=
  getElem?_of_position (view.counted entryType) member

theorem page (view : Intact genesis) (entryType : String) {afterPosition limit : Int64} {count : Nat}
    (at_ : afterPosition.toInt = count) (positive : 0 < limit) :
    view.answers (.getEntriesByTypePaged entryType afterPosition limit) =
      .ok (((view.chain entryType).drop count).take limit.toInt.toNat) := by
  rw [(view.pages entryType).page _ _ positive, at_, above_counted (view.counted entryType)]

/-- A read is answered with what is there, or it fails. -/
def Replies (request : ReadRequest) (view : Intact genesis) (reply : request.Reply) : Prop :=
  reply = view.answers request ∨ reply = .error .unavailable

end Intact

/-- What a verification reports of a ledger that grows while it is going on. -/
abbrev Reports {α : Type} {genesis : String} (verification : Verification α)
    (before : Intact genesis) (value : α) (after : Intact genesis) : Prop :=
  Observes Intact.Extends Intact.Replies verification.run before (.ok value) after

section

variable {α β : Type} {genesis : String} {before after : Intact genesis}

theorem Reports.of_bind {verification : Verification β} {next : β → Verification α} {value : α}
    (reports : Reports (verification >>= next) before value after) :
    ∃ result between, Reports verification before result between ∧
      Reports (next result) between value after :=
  Observes.of_exceptBind reports

theorem Reports.extends {verification : Verification α} {value : α}
    (reports : Reports verification before value after) : before.Extends after :=
  .of_moves (Observes.reaches reports)

end

/-! `verify_entry`. -/

variable {genesis : String} {config : AppConfig} {before after : Intact genesis}

/-- A cursor that has got past the first `count` rows of a chain. -/
structure Cursor.At (cursor : Cursor) (view : Intact genesis) (entryType : String) (count : Nat) :
    Prop where
  afterPosition : cursor.afterPosition.toInt = count
  within : count ≤ (view.chain entryType).length
  prevHash : cursor.prevHash =
    lastHash LedgerEntryRecord.entryHash genesis ((view.chain entryType).take count)

theorem Cursor.At.later {cursor : Cursor} {entryType : String} {count : Nat}
    (at_ : cursor.At before entryType count) (extended : before.Extends after) :
    cursor.At after entryType count where
  afterPosition := at_.afterPosition
  within := at_.within.trans (extended.length_le entryType)
  prevHash := by rw [extended.take at_.within, at_.prevHash]

def Tables.intact (tables : Tables) (valid : ChainsValid genesis tables.entries) : Intact genesis where
  answers := tables.query
  chain := tables.entries.chain
  pages := tables.pages
  tip := by
    intro entryType tip answered
    rw [Tables.query_getChainTip] at answered
    split at answered
    · cases answered
    · next last found => exact ⟨last, found, (Except.ok.inj answered).symm⟩
  counted := fun entryType => (valid entryType).contiguous_table
  linked := fun entryType => (valid entryType).linked
  hashed := by
    intro entryType row member
    exact (valid entryType).hashed row (LedgerEntries.mem_ofType.mpr (LedgerEntries.mem_chain.mp member))

theorem Tables.intact_extends {tables grown : Tables} (valid : ChainsValid genesis tables.entries)
    (validGrown : ChainsValid genesis grown.entries)
    (rows : tables.entries.rows <+: grown.entries.rows) :
    (tables.intact valid).Extends (grown.intact validGrown) := by
  intro entryType
  refine prefix_of_counted (valid entryType).contiguous_table
    (validGrown entryType).contiguous_table fun row member => ?_
  obtain ⟨stored, typed⟩ := LedgerEntries.mem_chain.mp member
  exact LedgerEntries.mem_chain.mpr ⟨rows.subset stored, typed⟩

/-- A verification beside a run: any steps fall between its reads, and each read is answered from
the tables as they are at that moment or fails. -/
abbrev Verifies {α : Type} (deployment : Deployment) (verification : Verification α)
    (before : ServiceConfiguration postgres) (value : α) (after : ServiceConfiguration postgres) :
    Prop :=
  Observes (Step (serviceWorld postgres) (ServiceTask.body deployment))
    (fun (request : ReadRequest) config (reply : request.Reply) =>
      reply = config.state.store.tables.query request ∨ reply = .error .unavailable)
    verification.run before (.ok value) after

/-- What a configuration whose chains are complete shows of them. -/
def ShownBy (deployment : Deployment) (config : ServiceConfiguration postgres)
    (view : Intact deployment.genesisHash) : Prop :=
  ∃ holds : (appending deployment.genesisHash True).lift.Holds Returned config,
    view = config.state.store.tables.intact (holds.invariant.chains trivial)

theorem Verifies.reports {α : Type} {deployment : Deployment} {verification : Verification α}
    {before after : ServiceConfiguration postgres} {value : α}
    (verifies : Verifies deployment verification before value after)
    (holds : (appending deployment.genesisHash True).lift.Holds Returned before) :
    ∃ kept : (appending deployment.genesisHash True).lift.Holds Returned after,
      Reports verification
        (before.state.store.tables.intact (holds.invariant.chains trivial)) value
        (after.state.store.tables.intact (kept.invariant.chains trivial)) := by
  have step : ∀ first next seen, ShownBy deployment first seen →
      Step (serviceWorld postgres) (ServiceTask.body deployment) first next →
        ∃ shown, ShownBy deployment next shown ∧ ReflTransGen Intact.Extends seen shown := by
    intro first next seen shows step
    obtain ⟨held, rfl⟩ := shows
    have onward := (held.step (fun _ _ _ => safe_body deployment) step).1
    have rows := rows_extend held (.single step)
    exact ⟨_, ⟨onward, rfl⟩, .single (Tables.intact_extends _ _ rows)⟩
  have replies : ∀ (request : ReadRequest) config seen (reply : request.Reply),
      ShownBy deployment config seen →
        (reply = config.state.store.tables.query request ∨ reply = .error .unavailable) →
          Intact.Replies request seen reply := by
    rintro request config seen reply ⟨-, rfl⟩ answered
    exact answered
  obtain ⟨shown, ⟨kept, rfl⟩, reports⟩ :=
    Observes.simulate (ShownBy deployment) step replies verifies ⟨holds, rfl⟩
  exact ⟨kept, reports⟩

end ImmutableLedger
