import ImmutableLedger.Ledger.Interleavings
import ImmutableLedger.Service.Config
import ImmutableLedger.Service.Conversations

/-! The retry loop of an append under every configuration.

The limit is parsed as a machine word and narrowed to 32 bits, and the pause before a further
attempt doubles each time. Both can go wrong: a limit that is a multiple of `2 ^ 32` allows no
attempt, and from a limit of 63 on the last pauses do not fit 64 bits.
-/

set_option autoImplicit false

namespace ImmutableLedger

open Concurrency

/-- The outcome of an append attempt. -/
def attempt : Turn services → Option (Except RepositoryError WriteResult)
  | ⟨.repository (.writeEntryWithOutbox _), reply⟩ => some reply
  | _ => none

/-- A pause before a further attempt, in milliseconds. -/
def backoff : Turn services → Option Nat
  | ⟨.sleep millis, _⟩ => some millis
  | _ => none

/-- What was found under the idempotency key. -/
def lookup : Turn services → Option (Except RepositoryError (Option LedgerEntryRecord))
  | ⟨.repository (.read (.findIdempotent _ _)), reply⟩ => some reply
  | _ => none

def attempts (turns : List (Turn services)) : List (Except RepositoryError WriteResult) :=
  turns.filterMap attempt

def backoffs (turns : List (Turn services)) : List Nat := turns.filterMap backoff

/-- Every read succeeds, a tip that does not exist yet included. -/
def ReadsSucceed (turns : List (Turn services)) : Prop :=
  ∀ message err, (⟨.repository (.read message), .error err⟩ : Turn services) ∈ turns →
    err = .notFound ∧ ∃ entryType, message = .getChainTip entryType

/-- The chain is not halted, the key is not stored when it is first looked up, and reads succeed. -/
structure Untroubled (config : AppConfig) (turns : List (Turn services)) : Prop where
  notHalted : ∀ entryType elapsed, (⟨.chainHaltedElapsed entryType, some elapsed⟩ : Turn services) ∈ turns →
    config.chainHaltRecovery ≤ elapsed
  unstored : ∀ row, (turns.filterMap lookup).head? ≠ some (.ok (some row))
  reads : ReadsSucceed turns

theorem Untroubled.nil (config : AppConfig) : Untroubled config [] where
  notHalted := by simp
  unstored := by simp
  reads := by simp [ReadsSucceed]

theorem Untroubled.snoc {config : AppConfig} {turns : List (Turn services)}
    (untroubled : Untroubled config turns) (turn : Turn services)
    (notHalted : ∀ entryType elapsed, turn ≠ ⟨.chainHaltedElapsed entryType, some elapsed⟩)
    (unlooked : lookup turn = none)
    (succeeds : ∀ message err, turn ≠ ⟨.repository (.read message), .error err⟩) :
    Untroubled config (turns ++ [turn]) where
  notHalted := by
    intro entryType elapsed member
    rcases List.mem_append.mp member with earlier | last
    · exact untroubled.notHalted entryType elapsed earlier
    · exact absurd (List.mem_singleton.mp last).symm (notHalted entryType elapsed)
  unstored := by
    rw [List.filterMap_append, List.filterMap_cons_none unlooked, List.filterMap_nil,
      List.append_nil]
    exact untroubled.unstored
  reads := by
    intro message err member
    rcases List.mem_append.mp member with earlier | last
    · exact untroubled.reads message err earlier
    · exact absurd (List.mem_singleton.mp last).symm (succeeds message err)

variable [Sha256] {service : Instance} {input : WriteEntryInput} {turns : List (Turn services)}
  {left : Program services (Except ServiceError WriteEntryOutput)}

/-- What the retries keep from an attempt on, with the number of attempts left. `returned` says that
nothing is left to do, and `ends` what is left after an entry was accepted. -/
structure RetriesKept (number remaining : Nat) (turns : List (Turn services)) (returned : Prop)
    (ends : WriteResult → Prop) : Prop where
  tried : returned → 0 < remaining → attempts turns ≠ []
  bounded : (attempts turns).length ≤ remaining
  accepted : ∀ result rest, attempts turns = .ok result :: rest → rest = [] ∧ ends result
  paced : ∀ count millis, (backoffs turns)[count]? = some millis →
    millis = 10 * 2 ^ (number + count) % 2 ^ 64 ∧ count + 2 ≤ remaining

/-- Neither an attempt nor a pause. -/
def Quiet (turns : List (Turn services)) : Prop := attempts turns = [] ∧ backoffs turns = []

omit [Sha256] in
theorem Quiet.append {earlier : List (Turn services)} (quiet : Quiet earlier)
    (turns : List (Turn services)) :
    attempts (earlier ++ turns) = attempts turns ∧ backoffs (earlier ++ turns) = backoffs turns := by
  constructor
  · rw [attempts, List.filterMap_append, show earlier.filterMap attempt = [] from quiet.1]
    rfl
  · rw [backoffs, List.filterMap_append, show earlier.filterMap backoff = [] from quiet.2]
    rfl

omit [Sha256] in
/-- Looking a key or a halt up is no attempt. -/
theorem Quiet.of_lookup (all : ∀ turn ∈ turns, ServiceRequest.IsLookup input turn.request) :
    Quiet turns := by
  constructor
  · refine List.filterMap_eq_nil_iff.mpr fun turn member => ?_
    have asked := all turn member
    unfold attempt
    split
    · exact asked.elim
    · rfl
  · refine List.filterMap_eq_nil_iff.mpr fun turn member => ?_
    have asked := all turn member
    unfold backoff
    split
    · exact asked.elim
    · rfl

omit [Sha256] in
/-- A call that asks has not been answered, or goes on with the reply. -/
theorem converses_request {α : Type} {message : ServiceRequest} {next : message.Reply → Call α}
    {left : Program services (Except ServiceError α)}
    (converses : (request message >>= next).run.Converses turns left) :
    (turns = [] ∧ ∀ result, left ≠ .done result) ∨
      ∃ reply rest, turns = ⟨message, reply⟩ :: rest ∧ (next reply).run.Converses rest left := by
  obtain ⟨rfl, rfl⟩ | continued := Program.Converses.of_call converses
  · exact .inl ⟨rfl, fun result same => by cases same⟩
  · exact .inr continued

namespace RetriesKept

variable {number remaining : Nat} {returned : Prop} {ends : WriteResult → Prop}

omit [Sha256] in
theorem imp (kept : RetriesKept number remaining turns returned ends) {later : Prop}
    {weaker : WriteResult → Prop} (before : later → returned)
    (implies : ∀ result, ends result → weaker result) :
    RetriesKept number remaining turns later weaker where
  tried := kept.tried ∘ before
  bounded := kept.bounded
  accepted := fun result rest same => (kept.accepted result rest same).imp_right (implies result)
  paced := kept.paced

omit [Sha256] in
/-- Before the first attempt has been answered there is nothing to keep. -/
theorem waiting (quiet : Quiet turns) (running : ¬returned) :
    RetriesKept number remaining turns returned ends where
  tried := fun done => absurd done running
  bounded := by simp [quiet.1]
  accepted := by simp [quiet.1]
  paced := by simp [quiet.2]

omit [Sha256] in
/-- What was asked before without an attempt makes no difference. -/
theorem behind {earlier : List (Turn services)} (quiet : Quiet earlier)
    (kept : RetriesKept number remaining turns returned ends) :
    RetriesKept number remaining (earlier ++ turns) returned ends := by
  obtain ⟨sameAttempts, sameBackoffs⟩ := quiet.append turns
  constructor
  · exact fun done positive => sameAttempts ▸ kept.tried done positive
  · exact sameAttempts ▸ kept.bounded
  · exact fun result rest same => kept.accepted result rest (sameAttempts ▸ same)
  · exact fun count millis same => kept.paced count millis (sameBackoffs ▸ same)

omit [Sha256] in
theorem before {later : List (Turn services)} (quiet : Quiet later)
    (kept : RetriesKept number remaining turns returned ends) :
    RetriesKept number remaining (turns ++ later) returned ends := by
  have sameAttempts : attempts (turns ++ later) = attempts turns := by
    rw [attempts, List.filterMap_append, show later.filterMap attempt = [] from quiet.1,
      List.append_nil]
    rfl
  have sameBackoffs : backoffs (turns ++ later) = backoffs turns := by
    rw [backoffs, List.filterMap_append, show later.filterMap backoff = [] from quiet.2,
      List.append_nil]
    rfl
  constructor
  · exact fun done positive => sameAttempts ▸ kept.tried done positive
  · exact sameAttempts ▸ kept.bounded
  · exact fun result rest same => kept.accepted result rest (sameAttempts ▸ same)
  · exact fun count millis same => kept.paced count millis (sameBackoffs ▸ same)

omit [Sha256] in
/-- An attempt that was accepted. -/
theorem appended (result : WriteResult) (answered : attempts turns = [.ok result])
    (unpaused : backoffs turns = []) (done : ends result) :
    RetriesKept number (remaining + 1) turns returned ends where
  tried := by simp [answered]
  bounded := by simp [answered]
  accepted := by
    intro other rest same
    obtain ⟨sameResult, nothing⟩ := List.cons.inj (answered.symm.trans same)
    cases sameResult
    exact ⟨nothing.symm, done⟩
  paced := by simp [unpaused]

omit [Sha256] in
/-- An attempt that failed, with no other behind it. -/
theorem failed {err : RepositoryError} (answered : attempts turns = [.error err])
    (unpaused : backoffs turns = []) :
    RetriesKept number (remaining + 1) turns returned ends where
  tried := by simp [answered]
  bounded := by simp [answered]
  accepted := by simp [answered]
  paced := by simp [unpaused]

omit [Sha256] in
/-- An attempt that failed, the pause after it, and the attempts behind it. -/
theorem again {entry : EntryWriteInput}
    {reply : ServiceRequest.Reply (.sleep (10 * 2 ^ number % 2 ^ 64))}
    (kept : RetriesKept (number + 1) remaining turns returned ends) (more : 0 < remaining) :
    RetriesKept number (remaining + 1)
      (⟨.repository (.writeEntryWithOutbox entry), .error .chainIntegrityViolation⟩ ::
        ⟨.sleep (10 * 2 ^ number % 2 ^ 64), reply⟩ :: turns) returned ends where
  tried := fun _ _ nothing => by cases nothing
  bounded := Nat.succ_le_succ kept.bounded
  accepted := fun result rest same => by cases same
  paced := by
    intro count millis paused
    -- The first pause is the one after this attempt, the others are those of the rest.
    cases count with
    | zero => exact ⟨(Option.some.inj paused).symm, Nat.succ_le_succ more⟩
    | succ count =>
      obtain ⟨exactly, room⟩ := kept.paced count millis paused
      exact ⟨by rw [exactly, Nat.add_assoc, Nat.add_comm 1], Nat.succ_le_succ room⟩

end RetriesKept

omit [Sha256] in
theorem ReadsSucceed.of_subset {later : List (Turn services)} (reads : ReadsSucceed later)
    (among : turns ⊆ later) : ReadsSucceed turns :=
  fun message err member => reads message err (among member)

/-- The tip is read without an attempt, and a chain without entries is no failure. -/
theorem currentTipHash_kept {left : Program services (Except ServiceError String)}
    (reads : ReadsSucceed turns)
    (converses : (currentTipHash service input).run.Converses turns left) :
    Quiet turns ∧ ∀ err, left ≠ .done (.error err) := by
  rw [currentTipHash] at converses
  obtain ⟨rfl, running⟩ | ⟨reply, rest, rfl, answered⟩ := converses_request converses
  · exact ⟨⟨rfl, rfl⟩, fun err => running _⟩
  · cases reply with
    | ok tip =>
      obtain ⟨rfl, rfl⟩ := Program.Converses.of_done answered
      exact ⟨⟨rfl, rfl⟩, fun err same => by cases same⟩
    | error err =>
      obtain ⟨rfl, -⟩ := reads _ err List.mem_cons_self
      obtain ⟨rfl, rfl⟩ := Program.Converses.of_done answered
      exact ⟨⟨rfl, rfl⟩, fun err same => by cases same⟩

/-- The loop, by induction on the attempts left. -/
theorem appendAttempts_kept (number remaining : Nat) (reads : ReadsSucceed turns)
    (converses : (appendAttempts service input number remaining).run.Converses turns left) :
    RetriesKept number remaining turns (∃ result, left = .done result)
      fun result => left = .done (.ok result.entry.writeOutput) := by
  induction remaining generalizing number turns with
  | zero =>
    obtain ⟨rfl, rfl⟩ := Program.Converses.of_done converses
    refine ⟨fun _ positive => absurd positive (Nat.lt_irrefl 0), Nat.le_refl _, ?_, ?_⟩
    · simp [attempts]
    · simp [backoffs]
  | succ remaining ih =>
    rw [appendAttempts] at converses
    obtain ⟨between, atTip, -, running⟩ | ⟨err, atTip, -⟩ |
        ⟨previousHash, first, second, rfl, atTip, atClock⟩ := converses.of_exceptBind
    · exact .waiting (currentTipHash_kept reads atTip).1 (not_exists.mpr running)
    · exact absurd rfl ((currentTipHash_kept reads atTip).2 err)
    refine .behind (currentTipHash_kept (reads.of_subset (List.subset_append_left _ _)) atTip).1 ?_
    replace reads := reads.of_subset (List.subset_append_right _ _)
    obtain ⟨rfl, running⟩ | ⟨writtenTs, rest, rfl, atAppend⟩ := converses_request atClock
    · exact .waiting ⟨rfl, rfl⟩ (not_exists.mpr running)
    refine .behind (show Quiet [⟨.utcNow, writtenTs⟩] from ⟨rfl, rfl⟩) ?_
    obtain ⟨rfl, running⟩ | ⟨reply, rest, rfl, replied⟩ := converses_request atAppend
    · exact .waiting ⟨rfl, rfl⟩ (not_exists.mpr running)
    -- The reply of the repository decides how the loop goes on.
    cases reply with
    | ok result =>
      obtain ⟨rfl, rfl⟩ := Program.Converses.of_done replied
      exact .appended result rfl rfl rfl
    | error err =>
      cases err with
      | chainIntegrityViolation =>
        by_cases more : 0 < remaining
        · rw [show _ = _ from if_pos more] at replied
          obtain ⟨rfl, running⟩ | ⟨_, rest, rfl, further⟩ := converses_request replied
          · exact .failed rfl rfl
          · exact (ih (number + 1) (reads.of_subset fun turn member => by simp [member])
              further).again more
        · rw [show _ = _ from if_neg more] at replied
          obtain ⟨rfl, running⟩ | ⟨_, rest, rfl, halted⟩ := converses_request replied
          · exact .failed rfl rfl
          · obtain ⟨rfl, rfl⟩ := Program.Converses.of_done halted
            exact .failed rfl rfl
      | idempotencyConflict =>
        have quiet := Quiet.of_lookup (replied.asked (replayConflict_all input))
        exact .failed (congrArg _ quiet.1) quiet.2
      | notFound =>
        obtain ⟨rfl, rfl⟩ := Program.Converses.of_done replied
        exact .failed rfl rfl
      | unavailable =>
        obtain ⟨rfl, rfl⟩ := Program.Converses.of_done replied
        exact .failed rfl rfl

/-- A call is done with a result, or has only its lock to give back. -/
def Settled (result : Except ServiceError WriteEntryOutput)
    (left : Program services (Except ServiceError WriteEntryOutput)) : Prop :=
  left = .done result ∨ ∃ lock, left = .call (.release lock) fun _ => .done result

theorem appendUnderLock_kept (reads : ReadsSucceed turns)
    (converses : (appendUnderLock service input).run.Converses turns left) :
    RetriesKept 0 service.config.chainMaxRetries.toNat turns (∃ result, left = .done result)
      fun result => Settled (.ok result.entry.writeOutput) left := by
  rw [appendUnderLock] at converses
  obtain ⟨rfl, running⟩ | ⟨lock, rest, rfl, located⟩ := converses_request converses
  · exact .waiting ⟨rfl, rfl⟩ (not_exists.mpr running)
  obtain ⟨rfl, running⟩ | ⟨_, rest, rfl, locked⟩ := converses_request located
  · exact .waiting ⟨rfl, rfl⟩ (not_exists.mpr running)
  refine .behind (show Quiet [⟨.chainLock _, lock⟩, ⟨.acquire lock, _⟩] from ⟨rfl, rfl⟩) ?_
  replace reads : ReadsSucceed rest := reads.of_subset fun turn member => by simp [member]
  obtain ⟨between, rfl, inside, running⟩ | ⟨result, first, second, rfl, inside, released⟩ :=
    Program.Converses.of_bind locked
  · -- Still in the loop: whatever it has been told, it has not been accepted.
    refine (appendAttempts_kept 0 _ reads inside).imp ?_ ?_
    · rintro ⟨result, returned⟩
      exact absurd returned (Program.bind_ne_done running result)
    · exact fun result returned => absurd returned (running _)
  · -- The loop is over, and the lock is given back.
    have kept := appendAttempts_kept 0 _ (reads.of_subset (List.subset_append_left _ _)) inside
    obtain ⟨rfl, rfl⟩ | ⟨_, rest, rfl, returned⟩ := Program.Converses.of_call released
    · refine (kept.before ⟨rfl, rfl⟩).imp ?_ ?_
      · exact fun _ => ⟨result, rfl⟩
      · intro accepted same
        obtain rfl := Program.done.inj same
        exact .inr ⟨lock, rfl⟩
    · obtain ⟨rfl, rfl⟩ := Program.Converses.of_done returned
      exact (kept.before ⟨rfl, rfl⟩).imp id fun accepted => .inl

omit [Sha256] in
theorem checkHalt_kept {config : AppConfig} {entryType : String}
    {left : Program services (Except ServiceError Unit)}
    (notHalted : ∀ named elapsed,
      (⟨.chainHaltedElapsed named, some elapsed⟩ : Turn services) ∈ turns →
        config.chainHaltRecovery ≤ elapsed)
    (converses : (checkHalt config entryType).run.Converses turns left) :
    turns.filterMap lookup = [] ∧ ∀ err, left ≠ .done (.error err) := by
  rw [checkHalt] at converses
  obtain ⟨rfl, running⟩ | ⟨reply, rest, rfl, answered⟩ := converses_request converses
  · exact ⟨rfl, fun err => running _⟩
  · cases reply with
    | none =>
      obtain ⟨rfl, rfl⟩ := Program.Converses.of_done answered
      exact ⟨rfl, fun err same => by cases same⟩
    | some elapsed =>
      have recovered := Nat.not_lt.mpr (notHalted _ elapsed List.mem_cons_self)
      dsimp only at answered
      rw [if_neg recovered] at answered
      obtain ⟨rfl, rfl⟩ | ⟨_, rest, rfl, removed⟩ := Program.Converses.of_call answered
      · exact ⟨rfl, fun err same => by cases same⟩
      · obtain ⟨rfl, rfl⟩ := Program.Converses.of_done removed
        exact ⟨rfl, fun err same => by cases same⟩

omit [Sha256] in
/-- A key that is not stored is not replayed. -/
theorem findReplay_kept {left : Program services (Except ServiceError (Option WriteEntryOutput))}
    (reads : ReadsSucceed turns)
    (unstored : ∀ row, (turns.filterMap lookup).head? ≠ some (.ok (some row)))
    (converses : (findReplay input).run.Converses turns left) :
    ∀ result, left = .done result → result = .ok none := by
  unfold findReplay at converses
  split at converses
  · obtain ⟨rfl, rfl⟩ := Program.Converses.of_done converses
    intro result same
    cases same
    rfl
  · rw [run_askRepository_bind] at converses
    obtain ⟨rfl, rfl⟩ | ⟨reply, rest, rfl, answered⟩ := Program.Converses.of_call converses
    · intro result same
      cases same
    · cases reply with
      | error err =>
        obtain ⟨-, entryType, other⟩ := reads _ err List.mem_cons_self
        cases other
      | ok found =>
        cases found with
        | some row => exact absurd rfl (unstored row)
        | none =>
          obtain ⟨rfl, rfl⟩ := Program.Converses.of_done answered
          intro result same
          cases same
          rfl

/-- A whole call, which asks for nothing but halts and keys before it takes its lock. -/
theorem writeEntry_kept (valid : validate service.config input = .ok ())
    (untroubled : Untroubled service.config turns)
    (converses : (writeEntry service input).run.Converses turns left) :
    RetriesKept 0 service.config.chainMaxRetries.toNat turns (∃ result, left = .done result)
      fun result => Settled (.ok result.entry.writeOutput) left := by
  rw [writeEntry, valid] at converses
  obtain ⟨between, validated, running, -⟩ | ⟨err, validated, -⟩ |
      ⟨_, _, turns, rfl, validated, atCheck⟩ := converses.of_exceptBind
  · exact absurd (Program.Converses.of_done validated).2 (running _)
  · cases (Program.Converses.of_done validated).2
  obtain ⟨rfl, -⟩ := Program.Converses.of_done validated
  rw [List.nil_append] at untroubled ⊢
  have quietCheck {earlier : List (Turn services)}
      {between : Program services (Except ServiceError Unit)}
      (checked : (checkHalt service.config input.entryType).run.Converses earlier between) :
      Quiet earlier := .of_lookup (checked.asked (checkHalt_all input service.config))
  have quietFind {earlier : List (Turn services)}
      {between : Program services (Except ServiceError (Option WriteEntryOutput))}
      (looked : (findReplay input).run.Converses earlier between) :
      Quiet earlier := .of_lookup (looked.asked (findReplay_all input))
  obtain ⟨between, checked, -, running⟩ | ⟨err, checked, -⟩ |
      ⟨_, earlier, later, rfl, checked, atFind⟩ := atCheck.of_exceptBind
  · exact .waiting (quietCheck checked) (not_exists.mpr running)
  · exact absurd rfl ((checkHalt_kept untroubled.notHalted checked).2 err)
  have notHalted := fun named elapsed member =>
    untroubled.notHalted named elapsed (List.mem_append_left later member)
  refine .behind (quietCheck checked) ?_
  have unstored := untroubled.unstored
  rw [List.filterMap_append, (checkHalt_kept notHalted checked).1,
    List.nil_append] at unstored
  have reads : ReadsSucceed later := untroubled.reads.of_subset (List.subset_append_right _ _)
  obtain ⟨between, looked, -, running⟩ | ⟨err, looked, -⟩ |
      ⟨found, looking, rest, rfl, looked, atLock⟩ := atFind.of_exceptBind
  · exact .waiting (quietFind looked) (not_exists.mpr running)
  · cases findReplay_kept reads unstored looked _ rfl
  have first : ∀ row, (looking.filterMap lookup).head? ≠ some (.ok (some row)) := by
    intro row same
    refine unstored row ?_
    rw [List.filterMap_append, List.head?_append, same]
    rfl
  cases findReplay_kept (reads.of_subset (List.subset_append_left _ _)) first looked _ rfl
  exact .behind (quietFind looked)
    (appendUnderLock_kept (reads.of_subset (List.subset_append_right _ _)) atLock)

/-- What is promised of a call whose configuration names a number of attempts. -/
structure HonoursRetries (configured : Nat) (turns : List (Turn services))
    (program : Program services (Except ServiceError WriteEntryOutput)) : Prop where
  tried : ∀ result, program = .done result → attempts turns ≠ []
  bounded : (attempts turns).length ≤ configured
  accepted : ∀ result rest, attempts turns = .ok result :: rest →
    rest = [] ∧ (program = .unfinished ∨ Settled (.ok result.entry.writeOutput) program)
  exactly : ∀ count millis, (backoffs turns)[count]? = some millis → millis = 10 * 2 ^ count

/-- The promise for every call of every run with a configuration. -/
def RetriesHonoured (backend : Backend) (config : AppConfig) (configured : Nat) : Prop :=
  ∀ (deployment : Deployment) (store : backend.Store) (reached : ServiceConfiguration backend),
    ServiceRun backend deployment (.initial (.start store)) reached →
      ∀ i client input program, (deployment.instances client).config = config →
        reached.threads[i]? = some ⟨.writeEntry client input, program⟩ →
          validate config input = .ok () →
            Untroubled config (turnsOf (ServiceState.history reached.state) i) →
              HonoursRetries configured (turnsOf (ServiceState.history reached.state) i) program

/-- With a limit that allows an attempt and leaves every pause within 64 bits. -/
theorem retriesHonoured_of_limit (backend : Backend) {config : AppConfig} {configured : Nat}
    (narrowed : config.chainMaxRetries = UInt32.ofNat configured)
    (positive : 0 < configured % 2 ^ 32) (small : configured % 2 ^ 32 ≤ 62) :
    RetriesHonoured backend config configured := by
  intro deployment store reached run i client input program configuredSo present valid untroubled
  obtain ⟨left, converses, same⟩ := run.conversing.known i _ present
  subst configuredSo
  have limit : (deployment.instances client).config.chainMaxRetries.toNat = configured % 2 ^ 32 := by
    rw [narrowed]
    exact UInt32.toNat_ofNat
  have kept := writeEntry_kept valid untroubled converses
  rw [limit] at kept
  constructor
  · intro result returned
    obtain rfl | dropped := same
    · exact kept.tried ⟨result, returned⟩ positive
    · cases returned.symm.trans dropped
  · exact kept.bounded.trans (Nat.mod_le _ _)
  · intro result rest answered
    obtain ⟨only, settled⟩ := kept.accepted result rest answered
    obtain rfl | dropped := same
    · exact ⟨only, .inr settled⟩
    · exact ⟨only, .inl dropped⟩
  · intro count millis paused
    obtain ⟨wrapped, room⟩ := kept.paced count millis paused
    have power : 2 ^ count ≤ 2 ^ 60 := Nat.pow_le_pow_right (by decide) (by omega)
    rw [wrapped, Nat.zero_add]
    exact Nat.mod_eq_of_lt (by omega)

/-! A call whose appends keep colliding with the entry that is stored. -/

namespace Sample

/-- A call that carries no key. -/
def keyless : WriteEntryInput := { write [] with idempotencyKey := none }

omit [Sha256] in
/-- One instance under a configuration, without a publisher. -/
def alone (config : AppConfig) : Deployment where
  instances := fun _ => ⟨config, false⟩
  genesisHashInput := config.genesisHashInput
  sameGenesis := fun _ => rfl

theorem firstTables_chain : firstTables.entries.chain "audit.event" = [first.stored] := by
  have typed : first.stored.entryType = "audit.event" := rfl
  exact LedgerEntries.chain_of_ascending (by simp [firstTables, typed]) (List.pairwise_singleton _ _)

theorem firstTables_tip : firstTables.query (.getChainTip "audit.event") = .ok first.stored.tip := by
  rw [Tables.query_getChainTip, firstTables_chain]
  rfl

def keylessInput : EntryWriteInput := keyless.entryWriteInput first.stored.tip.hash instant false

/-- What the call would append if its identifier were not drawn already. -/
def keylessEntry : LedgerEntryRecord :=
  (keylessInput.entry (ids 1) (first.stored.chainPosition + 1)).stored

theorem keylessEntry_fits : keylessEntry.fitsColumns = true := by
  have hash : fitsVarchar 64 keylessEntry.entryHash = true := fitsVarchar_sha256Hex _
  have previous : fitsVarchar 64 keylessEntry.previousHash = true := fitsVarchar_sha256Hex _
  rw [LedgerEntryRecord.fitsColumns, hash, previous]
  exact show (fitsVarchar 255 "audit.event" && fitsVarchar 255 "agent" &&
    fitsVarchar 100 "application/json" && fitsVarchar 255 "source" && true && true && true && true &&
      [entryHashVersionV2, entryHashVersionV3].contains entryHashVersion && true && true) =
        true by decide

theorem keyless_collides :
    firstTables.writeEntryWithOutbox ⟨ids 1, instant⟩ keylessInput =
      (.error .chainIntegrityViolation, firstTables) := by
  have positioned : firstTables.nextPosition keylessInput =
      .ok (first.stored.chainPosition + 1) := by
    refine Tables.nextPosition_ok_iff.mpr ?_
    rw [Tables.Extends, show firstTables.entries.chain keylessInput.entryType = _ from
      firstTables_chain]
    exact ⟨rfl, rfl⟩
  have taken : keylessEntry.entryId ∈ firstTables.entries.rows.map (·.entryId) :=
    List.mem_singleton_self _
  have refused : firstTables.entries.insert keylessEntry =
      .error (.uniqueViolation "ledger_entries_pkey") := by
    rw [LedgerEntries.insert, keylessEntry_fits, if_neg (by decide)]
    exact dif_pos taken
  rw [Tables.writeEntryWithOutbox, positioned]
  dsimp only
  rw [show firstTables.entries.insert (keylessInput.entry _ _).stored = _ from refused]
  rfl

/-- The pauses of a number of attempts. -/
def pauses (number : Nat) : List Nat := (List.range number).map fun count => 10 * 2 ^ count % 2 ^ 64

/-- The call has made a number of attempts and has a number of them left. -/
structure Retrying (config : AppConfig) (number remaining : Nat)
    (reached : ServiceConfiguration postgres) : Prop where
  run : ServiceRun postgres (alone config) (.initial (.start (database firstTables))) reached
  threads : reached.threads = [⟨.writeEntry 0 keyless,
    (appendAttempts ⟨config, false⟩ keyless number remaining).run >>= fun result =>
      .call (.release 0) fun _ => .done result⟩]
  tables : reached.state.store.tables = firstTables
  untroubled : Untroubled config (turnsOf (ServiceState.history reached.state) 0)
  tried : (attempts (turnsOf (ServiceState.history reached.state) 0)).length = number
  paused : backoffs (turnsOf (ServiceState.history reached.state) 0) = pauses number

theorem retrying_start (config : AppConfig) :
    ∃ reached, Retrying config 0 config.chainMaxRetries.toNat reached := by
  have run : ServiceRun postgres (alone config) (.initial (.start (database firstTables)))
    (.initial (.start (database firstTables))) := .refl
  have run := run.spawn (.writeEntry 0 keyless)
  have run := ServiceRun.answer run 0 rfl none ⟨rfl, rfl⟩
  have run := ServiceRun.answer run 0 rfl 0 ⟨rfl, rfl⟩
  have run := ServiceRun.answer run 0 rfl () ⟨rfl, rfl⟩
  refine ⟨_, run, rfl, rfl, ?_, rfl, rfl⟩
  have untroubled := (Untroubled.nil config).snoc ⟨.chainHaltedElapsed "audit.event", none⟩
    (fun _ _ same => by cases same) rfl fun _ _ same => by cases same
  have untroubled := untroubled.snoc ⟨.chainLock "audit.event", 0⟩
    (fun _ _ same => by cases same) rfl fun _ _ same => by cases same
  exact untroubled.snoc ⟨.acquire 0, ()⟩ (fun _ _ same => by cases same) rfl
    fun _ _ same => by cases same

/-- A collision leaves the tables as they are, and the call pauses before it tries again. -/
theorem Retrying.step {config : AppConfig} {number remaining : Nat}
    {reached : ServiceConfiguration postgres} (retrying : Retrying config number (remaining + 2) reached) :
    ∃ next, Retrying config (number + 1) (remaining + 1) next := by
  obtain ⟨run, threads, tables, untroubled, tried, paused⟩ := retrying
  obtain ⟨state, _⟩ := reached
  obtain rfl : _ = _ := threads
  have tip (db : Database) (same : db.tables = firstTables) :
      Database.Performs 0 (.read (.getChainTip "audit.event")) db (.ok first.stored.tip)
        ⟨firstTables, db.inflight, db.origins ++ []⟩ :=
    @Database.Performs.of_execute _ 0 _ db ⟨ids 1, instant⟩ _ _
      (congrArg₂ Prod.mk (same ▸ firstTables_tip) same)
  have run := ServiceRun.answer run 0 rfl (.ok first.stored.tip) ⟨_, tip _ tables, rfl⟩
  have run := ServiceRun.answer run 0 rfl instant rfl
  have run := ServiceRun.answer run 0 rfl (.error .chainIntegrityViolation)
    ⟨_, Database.Performs.of_execute keyless_collides, rfl⟩
  have run := ServiceRun.answer run 0 rfl () rfl
  refine ⟨_, run, rfl, rfl, ?_, ?_, ?_⟩
  · simp only [ServiceState.log, turnsOf_append, if_true]
    have untroubled := untroubled.snoc
      ⟨.repository (.read (.getChainTip "audit.event")), .ok first.stored.tip⟩
      (fun _ _ same => by cases same) rfl fun _ _ same => by cases same
    have untroubled := untroubled.snoc ⟨.utcNow, instant⟩
      (fun _ _ same => by cases same) rfl fun _ _ same => by cases same
    have untroubled := untroubled.snoc
      ⟨.repository (.writeEntryWithOutbox keylessInput), .error .chainIntegrityViolation⟩
      (fun _ _ same => by cases same) rfl fun _ _ same => by cases same
    exact untroubled.snoc ⟨.sleep (10 * 2 ^ number % 2 ^ 64), ()⟩
      (fun _ _ same => by cases same) rfl fun _ _ same => by cases same
  · simp only [ServiceState.log, turnsOf_append, if_true]
    simp only [List.append_assoc]
    rw [attempts, List.filterMap_append, List.length_append,
      show (List.filterMap attempt (turnsOf (ServiceState.history state) 0)).length = _ from tried]
    rfl
  · simp only [ServiceState.log, turnsOf_append, if_true]
    simp only [List.append_assoc]
    rw [backoffs, List.filterMap_append, show List.filterMap backoff _ = _ from paused, pauses,
      pauses, List.range_succ, List.map_append]
    rfl

/-- By induction on the number of attempts. -/
theorem retrying (config : AppConfig) (number remaining : Nat)
    (limit : config.chainMaxRetries.toNat = number + remaining + 1) :
    ∃ reached, Retrying config number (remaining + 1) reached := by
  induction number generalizing remaining with
  | zero =>
    obtain ⟨reached, start⟩ := retrying_start config
    rw [limit, Nat.zero_add] at start
    exact ⟨reached, start⟩
  | succ number ih =>
    obtain ⟨reached, earlier⟩ := ih (remaining + 1) (by omega)
    exact earlier.step

/-- Without an attempt the call ends at once. -/
theorem unattempted {config : AppConfig} (limit : config.chainMaxRetries.toNat = 0) :
    ∃ reached, ServiceRun postgres (alone config) (.initial (.start (database firstTables))) reached ∧
      Untroubled config (turnsOf (ServiceState.history reached.state) 0) ∧
      reached.threads[0]? = some ⟨.writeEntry 0 keyless,
        .done (.error (.internal "chain integrity violation"))⟩ ∧
      attempts (turnsOf (ServiceState.history reached.state) 0) = [] := by
  obtain ⟨⟨state, _⟩, run, threads, tables, untroubled, tried, paused⟩ := retrying_start config
  obtain rfl : _ = _ := threads
  rw [limit] at run
  have run := ServiceRun.answer run 0 rfl () rfl
  refine ⟨_, run, ?_, rfl, ?_⟩
  · simp only [ServiceState.log, turnsOf_append, if_true]
    exact untroubled.snoc ⟨.release 0, ()⟩ (fun _ _ same => by cases same) rfl
      fun _ _ same => by cases same
  · simp only [ServiceState.log, ServiceState.setHolder, turnsOf_append, if_true]
    rw [attempts, List.filterMap_append,
      show List.filterMap attempt (turnsOf (ServiceState.history state) 0) = [] from
        List.length_eq_zero_iff.mp tried]
    rfl

end Sample

/-- A limit that allows no attempt, or so many that a pause no longer fits. -/
theorem limit_of_retriesHonoured {config : AppConfig} {configured : Nat}
    (narrowed : config.chainMaxRetries = UInt32.ofNat configured)
    (honoured : RetriesHonoured postgres config configured) :
    0 < configured % 2 ^ 32 ∧ configured % 2 ^ 32 ≤ 62 := by
  have limit : config.chainMaxRetries.toNat = configured % 2 ^ 32 := by
    rw [narrowed]
    exact UInt32.toNat_ofNat
  constructor
  · by_contra none
    obtain ⟨reached, run, untroubled, threads, untried⟩ := Sample.unattempted
      (show config.chainMaxRetries.toNat = 0 by omega)
    exact (honoured _ _ _ run 0 0 Sample.keyless _ rfl threads rfl untroubled).tried _ rfl untried
  · by_contra many
    obtain ⟨reached, retrying⟩ := Sample.retrying config 62 (configured % 2 ^ 32 - 63)
      (by omega)
    have honours := honoured _ _ _ retrying.run 0 0 Sample.keyless _ rfl
      (congrArg (fun threads => threads[0]?) retrying.threads) rfl retrying.untroubled
    have last : (backoffs (turnsOf (ServiceState.history reached.state) 0))[61]? =
        some (10 * 2 ^ 61 % 2 ^ 64) := by
      rw [retrying.paused]
      rfl
    exact absurd (honours.exactly 61 _ last) (by decide)

/-- What an accepted append adds to a Postgres ledger. -/
theorem accepted_adds_one {client : Nat} {entry : EntryWriteInput} {before after : Database}
    {result : WriteResult}
    (performed : Database.Performs client (.writeEntryWithOutbox entry) before (.ok result) after) :
    after.tables.entries.rows = before.tables.entries.rows ++ [result.entry.stored] := by
  obtain ⟨err, rejected, -⟩ | ⟨draw, stored, nextPosition, accepted, committed⟩ := performed.write
  · cases rejected
  · cases accepted
    exact committed.rows

/-- Whatever number of attempts an environment configures, the calls keep to it exactly if that
number is between 1 and 62 up to a multiple of `2 ^ 32`. An attempt that is accepted adds one entry. -/
theorem retriesHonoured_iff {env : Environment} {config : AppConfig}
    (loaded : AppConfig.fromEnv env = .ok config) :
    ∃ configured, env.parseUsize "ARE_LEDGER_CHAIN_MAX_RETRIES" 10 = .ok configured ∧
      ((∀ backend, RetriesHonoured backend config configured) ↔
        0 < configured % 2 ^ 32 ∧ configured % 2 ^ 32 ≤ 62) ∧
      ∀ client entry before result after,
        Database.Performs client (.writeEntryWithOutbox entry) before (.ok result) after →
          after.tables.entries.rows = before.tables.entries.rows ++ [result.entry.stored] := by
  obtain ⟨⟨configured, read, narrowed⟩, -⟩ := AppConfig.fromEnv_retries loaded
  refine ⟨configured, read, ⟨?_, ?_⟩, ?_⟩
  · exact fun honoured => limit_of_retriesHonoured narrowed (honoured postgres)
  · rintro ⟨positive, small⟩ backend
    exact retriesHonoured_of_limit backend narrowed positive small
  · exact fun client entry before result after => accepted_adds_one

namespace Sample

omit [Sha256] in
/-- What has to be set, and perhaps the number of attempts. -/
def retriesFrom (setting : Option String) : Environment := fun name =>
  if name = "ARE_LEDGER_DB_CONNECTION_STRING" then some "postgres://db"
  else if name = "ARE_LEDGER_CHAIN_MAX_RETRIES" then setting
  else none

end Sample

omit [Sha256] in
/-- Without a setting there are ten attempts, and every call keeps to them. -/
theorem retriesHonoured_default :
    letI := Fips180.sha256
    RetriesHonoured postgres Sample.config 10 := by
  let := Fips180.sha256
  obtain ⟨configured, read, honoured, -⟩ := retriesHonoured_iff
    (show AppConfig.fromEnv (Sample.retriesFrom none) = .ok Sample.config from rfl)
  obtain rfl : 10 = configured := Except.ok.inj read
  exact honoured.mpr (by decide) postgres

omit [Sha256] in
/-- A setting of zero is accepted, and a call under it returns an error without any attempt. -/
theorem zero_retries_unattempted :
    letI := Fips180.sha256
    let config : AppConfig := { Sample.config with chainMaxRetries := 0 }
    AppConfig.fromEnv (Sample.retriesFrom (some "0")) = .ok config ∧
      (Sample.retriesFrom (some "0")).parseUsize "ARE_LEDGER_CHAIN_MAX_RETRIES" 10 = .ok 0 ∧
      ¬RetriesHonoured postgres config 0 ∧
      ∃ reached, ServiceRun postgres (Sample.alone config)
          (.initial (.start (Sample.database Sample.firstTables))) reached ∧
        Untroubled config (turnsOf (ServiceState.history reached.state) 0) ∧
        reached.threads[0]? = some ⟨.writeEntry 0 Sample.keyless,
          .done (.error (.internal "chain integrity violation"))⟩ ∧
        attempts (turnsOf (ServiceState.history reached.state) 0) = [] := by
  let := Fips180.sha256
  refine ⟨rfl, rfl, ?_, Sample.unattempted rfl⟩
  intro honoured
  have limited := limit_of_retriesHonoured
    (show ({ Sample.config with chainMaxRetries := 0 } : AppConfig).chainMaxRetries =
      UInt32.ofNat 0 from rfl) honoured
  exact absurd limited.1 (by decide)

end ImmutableLedger
