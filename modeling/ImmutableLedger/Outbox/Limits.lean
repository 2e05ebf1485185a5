import ImmutableLedger.Outbox.Accounts
import ImmutableLedger.Outbox.Terminal
import ImmutableLedger.Service.Config

/-! When an outbox row is given up, under every configuration.

The limit is parsed as a machine word, narrowed to 32 bits and compared as a signed number. Below
`2 ^ 31` it keeps its value, and a row is given up only after as many failures as it says.
-/

set_option autoImplicit false

namespace ImmutableLedger

open Concurrency

/-- No row has been tried, and nothing is on its way. -/
structure Untried (db : Database) : Prop where
  settled : db.inflight = []
  fresh : ∀ row ∈ db.tables.outbox.rows,
    row.record.attemptCount = 0 ∧ row.record.status ≠ .failed

/-- The arithmetic of `publish_one` about a record, none of which wraps or changes its sign. -/
structure ExactArithmetic (maxRetries : UInt32) (record : OutboxRecord) : Prop where
  next : (record.attemptCount + 1).toInt = record.attemptCount.toInt + 1
  positive : 0 < record.attemptCount.toInt + 1
  limit : maxRetries.toInt32.toInt = maxRetries.toNat
  backoff : publishBackoff (record.attemptCount + 1) =
    500 * 2 ^ (min (record.attemptCount.toInt + 1) 10).toNat

/-- What is promised of a configuration that names a number of attempts: in every run that starts
with rows that have not been tried, rows are given up after that many failures and no earlier, and
the arithmetic is exact up to the largest attempt count. -/
def GivesUpLate [Sha256] (config : AppConfig) (configured : Nat) : Prop :=
  ∀ deployment : Deployment,
    (∀ i, (deployment.instances i).config.outboxMaxRetries = config.outboxMaxRetries) →
      ∀ (store : Database) (reached : ServiceConfiguration postgres), Untried store →
        ServiceRun postgres deployment (.initial (.start store)) reached →
          (∀ row ∈ reached.state.store.tables.outbox.rows, row.record.status = .failed →
            max 1 configured ≤ failures reached.state.history row.outboxId) ∧
          ∀ event ∈ reached.state.history, ∀ record, event.request = .publish record →
            (ExactArithmetic config.outboxMaxRetries record ↔
              record.attemptCount ≠ LedgerWriteOutbox.maxAttemptCount)

/-! With a limit that 31 bits hold. -/

theorem toInt_limit {configured : Nat} (small : configured < 2 ^ 31) :
    (UInt32.ofNat configured).toInt32.toInt = configured :=
  Int32.toInt_ofNat_of_lt small

theorem reaches_of_small {configured : Nat} (small : configured < 2 ^ 31) :
    Reaches (max 1 configured) (UInt32.ofNat configured) := by
  intro count low reached
  rw [Int32.le_iff_toInt_le, toInt_limit small] at reached
  by_cases room : count = LedgerWriteOutbox.maxAttemptCount
  · -- The largest count wraps around, and no limit is that low.
    subst room
    have wrapped : (LedgerWriteOutbox.maxAttemptCount + 1).toInt = -2147483648 := by decide
    omega
  · rw [toInt_next room] at reached
    omega

theorem publishBackoff_exact {count : Int32} (low : 0 ≤ count.toInt) :
    publishBackoff count = 500 * 2 ^ (min count.toInt 10).toNat := by
  have exponent : (min count 10).toInt = min count.toInt 10 := by
    have ten : (10 : Int32).toInt = 10 := rfl
    by_cases small : count ≤ 10
    · rw [show min count 10 = count from if_pos small]
      rw [Int32.le_iff_toInt_le, ten] at small
      exact (min_eq_left small).symm
    · rw [show min count 10 = 10 from if_neg small, ten]
      rw [Int32.le_iff_toInt_le, ten] at small
      exact (min_eq_right (by omega)).symm
  have unsigned : (min count 10).toUInt32.toNat = (min count.toInt 10).toNat := by
    rw [Int32.toNat_toUInt32_of_le, Int32.toNatClampNeg, exponent]
    rw [Int32.le_iff_toInt_le, exponent]
    exact le_min low (by decide)
  have power : 2 ^ (min count.toInt 10).toNat ≤ 2 ^ 10 :=
    Nat.pow_le_pow_right (by decide) (by omega)
  rw [publishBackoff, unsigned, Nat.mod_eq_of_lt (by omega)]

theorem exactArithmetic_iff {configured : Nat} (small : configured < 2 ^ 31) {record : OutboxRecord}
    (low : 0 ≤ record.attemptCount.toInt) :
    ExactArithmetic (UInt32.ofNat configured) record ↔
      record.attemptCount ≠ LedgerWriteOutbox.maxAttemptCount := by
  constructor
  · intro exactly largest
    have next := exactly.next
    rw [largest] at next
    exact absurd next (by decide)
  · intro room
    have next := toInt_next room
    refine ⟨next, by omega, ?_, ?_⟩
    · rw [toInt_limit small, UInt32.toNat_ofNat', Nat.mod_eq_of_lt (by omega)]
    · rw [publishBackoff_exact (by omega), next]

/-- Nothing has happened, and there is nothing to account for. -/
theorem Untried.accounted [Sha256] {store : Database} (untried : Untried store) (limit : Nat) :
    Accounted limit (.initial (.start store) : ServiceConfiguration postgres) := by
  have nothing (outboxId : Uuid) : lateIncrements store.inflight outboxId +
      owedIncrements [] outboxId = 0 := by
    rw [untried.settled]
    rfl
  constructor
  · constructor
    · exact fun outboxId => (nothing outboxId).le
    · intro row member
      have counted : row.record.attemptCount.toInt = 0 := congrArg Int32.toInt (untried.fresh row member).1
      refine ⟨counted.ge, ?_⟩
      rw [counted, Int.zero_add]
      exact Int.ofNat_le.mpr (nothing row.outboxId).le
    · exact fun row member failed => absurd failed (untried.fresh row member).2
  · intro late member
    have listed : late ∈ store.inflight := member
    rw [untried.settled] at listed
    exact absurd listed List.not_mem_nil
  · exact fun thread member => absurd member List.not_mem_nil
  · exact fun event member => absurd member List.not_mem_nil

/-- Below `2 ^ 31` the promise is kept. -/
theorem givesUpLate_of_small [Sha256] {config : AppConfig} {configured : Nat}
    (narrowed : config.outboxMaxRetries = UInt32.ofNat configured) (small : configured < 2 ^ 31) :
    GivesUpLate config configured := by
  intro deployment same store reached untried run
  have reaches (i : Nat) : Reaches (max 1 configured)
      (deployment.instances i).config.outboxMaxRetries := by
    rw [same, narrowed]
    exact reaches_of_small small
  have accounted := (untried.accounted (max 1 configured)).of_run reaches run
  refine ⟨accounted.books.givenUp, fun event member record asked => ?_⟩
  rw [narrowed]
  exact exactArithmetic_iff small (accounted.published event member record asked)

/-! A row that every attempt fails to publish. -/

namespace Sample

variable [Sha256]

omit [Sha256] in
/-- One instance under a configuration, with a publisher. -/
def publishing (config : AppConfig) : Deployment where
  instances := fun _ => ⟨config, true⟩
  genesisHashInput := config.genesisHashInput
  sameGenesis := fun _ => rfl

/-- The row after a number of failures, with a number of rounds to go. -/
structure Failing (config : AppConfig) (count : Int32) (tried rounds total : Nat)
    (reached : ServiceConfiguration postgres) : Prop where
  run : ServiceRun postgres (publishing config) (.initial (.start (contended 0))) reached
  threads : reached.threads =
    [⟨.outboxProcessor 0 total, processOutbox config.outboxMaxRetries rounds⟩]
  rows : reached.state.store.tables.outbox.rows = [⟨contender count, instant⟩]
  tried : failures reached.state.history (ids 1).outboxId = tried

theorem failing_start (config : AppConfig) (total : Nat) :
    ∃ reached, Failing config 0 0 total total reached := by
  have run : ServiceRun postgres (publishing config) (.initial (.start (contended 0)))
    (.initial (.start (contended 0))) := .refl
  exact ⟨_, run.spawn (.outboxProcessor 0 total), rfl, rfl, rfl⟩

theorem contender_pending {table : LedgerWriteOutbox} {count : Int32}
    (rows : table.rows = [⟨contender count, instant⟩]) : table.pending = [contender count] := by
  rw [LedgerWriteOutbox.pending, rows]
  rfl

theorem contender_selected {table : LedgerWriteOutbox} {count : Int32}
    (rows : table.rows = [⟨contender count, instant⟩]) :
    (table.rows.any fun row => decide (row.record.outboxId = (ids 1).outboxId)) = true := by
  rw [rows]
  rfl

theorem contender_incremented {table : LedgerWriteOutbox} {count : Int32}
    (rows : table.rows = [⟨contender count, instant⟩])
    (room : count ≠ LedgerWriteOutbox.maxAttemptCount) :
    ∃ after, table.incrementOutboxAttempt (ids 1).outboxId = (.ok (), after) ∧
      after.rows = [⟨contender (count + 1), instant⟩] := by
  have below : ¬(table.rows.any fun row => decide (row.record.outboxId = (ids 1).outboxId) &&
      row.record.attemptCount == LedgerWriteOutbox.maxAttemptCount) = true := by
    rw [rows]
    intro largest
    simp [contender] at largest
    exact room largest.2
  rw [LedgerWriteOutbox.incrementOutboxAttempt]
  dsimp only
  rw [if_neg below, LedgerWriteOutbox.updateOne, if_pos (contender_selected rows)]
  exact ⟨_, rfl, congrArg (List.map _) rows⟩

theorem contender_given_up {table : LedgerWriteOutbox} {count : Int32}
    (rows : table.rows = [⟨contender count, instant⟩]) :
    ∃ after, table.markOutboxFailed (ids 1).outboxId = (.ok (), after) ∧
      after.rows = [⟨{ contender count with status := .failed }, instant⟩] := by
  rw [LedgerWriteOutbox.markOutboxFailed, LedgerWriteOutbox.updateOne,
    if_pos (contender_selected rows)]
  exact ⟨_, rfl, congrArg (List.map _) rows⟩

theorem read_contender {db : Database} {count : Int32}
    (rows : db.tables.outbox.rows = [⟨contender count, instant⟩]) :
    Database.Performs 0 (.read .pendingOutbox) db (.ok [contender count])
      ⟨db.tables, db.inflight, db.origins ++ []⟩ :=
  @Database.Performs.of_execute _ 0 _ db ⟨ids 1, instant⟩ _ _
    (congrArg₂ Prod.mk (congrArg Except.ok (contender_pending rows)) rfl)

theorem increment_contender {db : Database} {after : LedgerWriteOutbox}
    (incremented : db.tables.outbox.incrementOutboxAttempt (ids 1).outboxId = (.ok (), after)) :
    Database.Performs 0 (.incrementOutboxAttempt (ids 1).outboxId) db (.ok ())
      ⟨⟨db.tables.entries, after⟩, db.inflight, db.origins ++ []⟩ :=
  @Database.Performs.of_execute _ 0 (.incrementOutboxAttempt _) db ⟨ids 1, instant⟩ _ _
    (congrArg (fun updated => (updated.1, Tables.mk db.tables.entries updated.2)) incremented)

theorem give_up_contender {db : Database} {after : LedgerWriteOutbox}
    (givenUp : db.tables.outbox.markOutboxFailed (ids 1).outboxId = (.ok (), after)) :
    Database.Performs 0 (.markOutboxFailed (ids 1).outboxId) db (.ok ())
      ⟨⟨db.tables.entries, after⟩, db.inflight, db.origins ++ []⟩ :=
  @Database.Performs.of_execute _ 0 (.markOutboxFailed _) db ⟨ids 1, instant⟩ _ _
    (congrArg (fun updated => (updated.1, Tables.mk db.tables.entries updated.2)) givenUp)

/-- A round whose attempt fails and leaves others to go. -/
theorem Failing.round {config : AppConfig} {count : Int32} {tried rounds total : Nat}
    {reached : ServiceConfiguration postgres}
    (failing : Failing config count tried (rounds + 1) total reached)
    (room : count ≠ LedgerWriteOutbox.maxAttemptCount)
    (left : ¬config.outboxMaxRetries.toInt32 ≤ count + 1) :
    ∃ next, Failing config (count + 1) (tried + 1) rounds total next := by
  obtain ⟨run, threads, rows, triedSo⟩ := failing
  obtain ⟨state, _⟩ := reached
  obtain rfl : _ = _ := threads
  obtain ⟨after, incremented, rowsAfter⟩ := contender_incremented rows room
  have run := ServiceRun.answer run 0 rfl (.ok [contender count]) ⟨_, read_contender rows, rfl⟩
  have run := ServiceRun.answer run 0 rfl (.error "unreachable") rfl
  have run := ServiceRun.answer run 0 rfl (.ok ()) ⟨_, increment_contender incremented, rfl⟩
  dsimp only at run
  rw [if_neg (show ¬config.outboxMaxRetries.toInt32 ≤ (contender count).attemptCount + 1 from left)]
    at run
  have run := ServiceRun.answer run 0 rfl () rfl
  have run := ServiceRun.answer run 0 rfl () rfl
  refine ⟨_, run, rfl, rowsAfter, ?_⟩
  simp only [ServiceState.log, failures_append]
  rw [show failures (ServiceState.history state) (ids 1).outboxId = tried from triedSo]
  rfl

/-- A round whose attempt fails and is the last one. -/
theorem Failing.last {config : AppConfig} {count : Int32} {tried rounds total : Nat}
    {reached : ServiceConfiguration postgres}
    (failing : Failing config count tried (rounds + 1) total reached)
    (room : count ≠ LedgerWriteOutbox.maxAttemptCount)
    (enough : config.outboxMaxRetries.toInt32 ≤ count + 1) :
    ∃ next, ServiceRun postgres (publishing config) (.initial (.start (contended 0))) next ∧
      next.state.store.tables.outbox.rows =
        [⟨{ contender (count + 1) with status := .failed }, instant⟩] ∧
      failures next.state.history (ids 1).outboxId = tried + 1 := by
  obtain ⟨run, threads, rows, triedSo⟩ := failing
  obtain ⟨state, _⟩ := reached
  obtain rfl : _ = _ := threads
  obtain ⟨after, incremented, rowsAfter⟩ := contender_incremented rows room
  obtain ⟨final, givenUp, rowsFinal⟩ := contender_given_up rowsAfter
  have run := ServiceRun.answer run 0 rfl (.ok [contender count]) ⟨_, read_contender rows, rfl⟩
  have run := ServiceRun.answer run 0 rfl (.error "unreachable") rfl
  have run := ServiceRun.answer run 0 rfl (.ok ()) ⟨_, increment_contender incremented, rfl⟩
  dsimp only at run
  rw [if_pos (show config.outboxMaxRetries.toInt32 ≤ (contender count).attemptCount + 1 from enough)]
    at run
  have run := ServiceRun.answer run 0 rfl (.ok ()) ⟨_, give_up_contender givenUp, rfl⟩
  refine ⟨_, run, rowsFinal, ?_⟩
  simp only [ServiceState.log, failures_append]
  rw [show failures (ServiceState.history state) (ids 1).outboxId = tried from triedSo]
  rfl

/-- By induction on the failures, as long as there are attempts left. -/
theorem failing (config : AppConfig) (tried rounds : Nat)
    (left : tried = 0 ∨ (tried : Int) < config.outboxMaxRetries.toInt32.toInt) :
    ∃ reached, Failing config (Int32.ofNat tried) tried rounds (tried + rounds) reached := by
  induction tried generalizing rounds with
  | zero =>
    rw [Nat.zero_add]
    exact failing_start config rounds
  | succ tried ih =>
    have below := left.resolve_left (Nat.succ_ne_zero tried)
    have bounded := config.outboxMaxRetries.toInt32.toInt_lt
    obtain ⟨reached, earlier⟩ := ih (rounds + 1) (by omega)
    have count : (Int32.ofNat tried).toInt = tried := Int32.toInt_ofNat_of_lt (by omega)
    have room : Int32.ofNat tried ≠ LedgerWriteOutbox.maxAttemptCount := by
      intro largest
      have counted : (Int32.ofNat tried).toInt = 2147483647 := congrArg Int32.toInt largest
      omega
    have next : Int32.ofNat (tried + 1) = Int32.ofNat tried + 1 := Int32.ofNat_add tried 1
    rw [next, Nat.add_right_comm, Nat.add_assoc]
    refine earlier.round room ?_
    rw [Int32.le_iff_toInt_le, toInt_next room, count]
    omega

/-- What a limit means after both casts: the row is given up at the first failure that reaches it. -/
theorem given_up (config : AppConfig) :
    ∃ reached, ServiceRun postgres (publishing config) (.initial (.start (contended 0))) reached ∧
      ∃ row ∈ reached.state.store.tables.outbox.rows, row.record.status = .failed ∧
        failures reached.state.history row.outboxId =
          max 1 config.outboxMaxRetries.toInt32.toInt.toNat := by
  have bounded := config.outboxMaxRetries.toInt32.toInt_lt
  obtain ⟨tried, counted⟩ : ∃ tried, max 1 config.outboxMaxRetries.toInt32.toInt.toNat = tried + 1 :=
    ⟨max 1 config.outboxMaxRetries.toInt32.toInt.toNat - 1, by omega⟩
  obtain ⟨reached, earlier⟩ := failing config tried 1 (by omega)
  have count : (Int32.ofNat tried).toInt = tried := Int32.toInt_ofNat_of_lt (by omega)
  have room : Int32.ofNat tried ≠ LedgerWriteOutbox.maxAttemptCount := by
    intro largest
    have same : (Int32.ofNat tried).toInt = 2147483647 := congrArg Int32.toInt largest
    omega
  have enough : config.outboxMaxRetries.toInt32 ≤ Int32.ofNat tried + 1 := by
    rw [Int32.le_iff_toInt_le, toInt_next room, count]
    omega
  obtain ⟨next, run, rows, failed⟩ := earlier.last room enough
  refine ⟨next, run, _, rows ▸ List.mem_singleton_self _, rfl, ?_⟩
  rw [counted]
  exact failed

theorem contended_untried : Untried (contended 0) where
  settled := rfl
  fresh := by
    intro row member
    obtain rfl := List.mem_singleton.mp member
    exact ⟨rfl, fun failed => by cases failed⟩

end Sample

section

variable [Sha256]

/-- No 32-bit limit asks for as many failures as a setting of `2 ^ 31` or more. -/
theorem small_of_givesUpLate {config : AppConfig} {configured : Nat}
    (late : GivesUpLate config configured) : configured < 2 ^ 31 := by
  obtain ⟨reached, run, row, member, failed, counted⟩ := Sample.given_up config
  have enough := (late _ (fun _ => rfl) _ reached Sample.contended_untried run).1 row member failed
  have bounded := config.outboxMaxRetries.toInt32.toInt_lt
  omega

/-- Whatever number of attempts an environment configures, rows are given up as late as it says, and
the arithmetic about every record below the largest attempt count is exact, if and only if that
number is below `2 ^ 31`. -/
theorem givesUpLate_iff {env : Environment} {config : AppConfig}
    (loaded : AppConfig.fromEnv env = .ok config) :
    ∃ configured, env.parseUsize "ARE_LEDGER_OUTBOX_MAX_RETRIES" 10 = .ok configured ∧
      (GivesUpLate config configured ↔ configured < 2 ^ 31) := by
  obtain ⟨-, configured, read, narrowed⟩ := AppConfig.fromEnv_retries loaded
  exact ⟨configured, read, small_of_givesUpLate, givesUpLate_of_small narrowed⟩

end

namespace Sample

/-- What has to be set, and perhaps the number of attempts at publishing. -/
def publishesFrom (setting : Option String) : Environment := fun name =>
  if name = "ARE_LEDGER_DB_CONNECTION_STRING" then some "postgres://db"
  else if name = "ARE_LEDGER_OUTBOX_MAX_RETRIES" then setting
  else none

end Sample

/-- Without a setting a row is given up after ten failures. -/
theorem givesUpLate_default :
    letI := Fips180.sha256
    GivesUpLate Sample.config 10 := by
  let := Fips180.sha256
  obtain ⟨configured, read, late⟩ := givesUpLate_iff
    (show AppConfig.fromEnv (Sample.publishesFrom none) = .ok Sample.config from rfl)
  obtain rfl : 10 = configured := Except.ok.inj read
  exact late.mpr (by decide)

/-- The smallest limit that 31 bits do not hold is compared as a negative number: the first failure
gives the row up. -/
theorem wide_limit_gives_up_early :
    letI := Fips180.sha256
    let config : AppConfig := { Sample.config with outboxMaxRetries := 2147483648 }
    AppConfig.fromEnv (Sample.publishesFrom (some "2147483648")) = .ok config ∧
      (Sample.publishesFrom (some "2147483648")).parseUsize "ARE_LEDGER_OUTBOX_MAX_RETRIES" 10 =
        .ok 2147483648 ∧
      ¬GivesUpLate config 2147483648 ∧
      ∃ reached, ServiceRun postgres (Sample.publishing config)
          (.initial (.start (Sample.contended 0))) reached ∧
        ∃ row ∈ reached.state.store.tables.outbox.rows, row.record.status = .failed ∧
          failures reached.state.history row.outboxId = 1 := by
  let := Fips180.sha256
  refine ⟨rfl, rfl, ?_, Sample.given_up _⟩
  intro late
  exact absurd (small_of_givesUpLate late) (by decide)

end ImmutableLedger
