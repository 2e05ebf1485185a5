import ImmutableLedger.Service.Queries

/-! `AppConfig::from_env`.

Every setting that is read as a number is parsed in its own width first and narrowed afterwards.
The settings no modelled code uses are parsed for their errors.
-/

set_option autoImplicit false

namespace ImmutableLedger

inductive ConfigError where
  | missing (name : String)
  | invalidInteger (name : String)
  deriving DecidableEq

/-- `env::var`: what a name is set to, if it is set to a text. -/
abbrev Environment := String → Option String

/-- `parse::<i64>`, which takes a leading sign of either kind. -/
def parseI64 (raw : String) : Option Int64 :=
  match raw.toList with
  | '-' :: '+' :: _ => none
  | '-' :: digits =>
      ((parseUsize (String.ofList digits)).filter (· ≤ 2 ^ 63)).map fun value => Int64.ofInt (-value)
  | _ => ((parseUsize raw).filter (· < 2 ^ 63)).map fun value => Int64.ofInt value

namespace Environment

variable (env : Environment) (name : String)

def required : Except ConfigError String :=
  match env name with
  | none => .error (.missing name)
  | some value => .ok value

/-- A setting with a default, which a text that does not parse does not fall back to. -/
def parse {α : Type} (read : String → Option α) (default : α) : Except ConfigError α :=
  match env name with
  | none => .ok default
  | some raw =>
    match read raw with
    | none => .error (.invalidInteger name)
    | some value => .ok value

def parseU16 (default : Nat) : Except ConfigError Nat :=
  env.parse name (fun raw => (ImmutableLedger.parseUsize raw).filter (· < 2 ^ 16)) default

def parseUsize (default : Nat) : Except ConfigError Nat :=
  env.parse name ImmutableLedger.parseUsize default

/-- A `u64` and a `usize` have the same width. -/
def parseU64 (default : Nat) : Except ConfigError Nat :=
  env.parse name ImmutableLedger.parseUsize default

def parseNonzeroU64 (default : Nat) : Except ConfigError Nat := do
  let value ← env.parseU64 name default
  if value = 0 then throw (.invalidInteger name)
  return value

def parsePositiveI64 (default : Int64) : Except ConfigError Int64 := do
  let value ← env.parse name parseI64 default
  if value ≤ 0 then throw (.invalidInteger name)
  return value

end Environment

def AppConfig.fromEnv (env : Environment) : Except ConfigError AppConfig := do
  let _ ← env.parseU16 "ARE_LEDGER_GRPC_PORT" 9092
  let _ ← env.parseU16 "ARE_LEDGER_HEALTH_PORT" 8080
  let _ ← env.parseU16 "ARE_LEDGER_METRICS_PORT" 8083
  let maxContentSizeBytes ← env.parseUsize "ARE_LEDGER_MAX_CONTENT_SIZE_BYTES" 1048576
  let _ ← env.required "ARE_LEDGER_DB_CONNECTION_STRING"
  let _ ← env.parseNonzeroU64 "ARE_LEDGER_OUTBOX_HTTP_TIMEOUT_SECONDS" 10
  let genesisHashInput := (env "ARE_LEDGER_GENESIS_HASH_INPUT").getD "ARE_LEDGER_GENESIS"
  let _ ← env.parseUsize "ARE_LEDGER_POOL_MAX_SIZE" 16
  let chainMaxRetries ← env.parseUsize "ARE_LEDGER_CHAIN_MAX_RETRIES" 10
  let chainHaltRecoverySeconds ←
    env.parseNonzeroU64 "ARE_LEDGER_CHAIN_HALT_RECOVERY_SECONDS" 60
  let outboxMaxRetries ← env.parseUsize "ARE_LEDGER_OUTBOX_MAX_RETRIES" 10
  let _ ← env.parseU64 "ARE_LEDGER_VERIFY_INTERVAL_SECONDS" 300
  let verifyMaxEntriesPerChain ←
    env.parsePositiveI64 "ARE_LEDGER_VERIFY_MAX_ENTRIES_PER_CHAIN" 10000
  return {
    maxContentSizeBytes := maxContentSizeBytes
    genesisHashInput := genesisHashInput
    chainMaxRetries := UInt32.ofNat chainMaxRetries
    chainHaltRecoverySeconds := UInt64.ofNat chainHaltRecoverySeconds
    outboxMaxRetries := UInt32.ofNat outboxMaxRetries
    verifyMaxEntriesPerChain := verifyMaxEntriesPerChain }

/-- A sequence that ends well has passed through a value. -/
theorem except_bind_eq_ok {ε α β : Type} {first : Except ε α} {next : α → Except ε β} {result : β}
    (ended : (first >>= next) = .ok result) : ∃ value, first = .ok value ∧ next value = .ok result := by
  cases first with
  | error err => cases ended
  | ok value => exact ⟨value, rfl, ended⟩

/-- The limits on retries are what was read, as far as 32 bits hold it. -/
theorem AppConfig.fromEnv_retries {env : Environment} {config : AppConfig}
    (loaded : AppConfig.fromEnv env = .ok config) :
    (∃ configured, env.parseUsize "ARE_LEDGER_CHAIN_MAX_RETRIES" 10 = .ok configured ∧
      config.chainMaxRetries = UInt32.ofNat configured) ∧
    ∃ configured, env.parseUsize "ARE_LEDGER_OUTBOX_MAX_RETRIES" 10 = .ok configured ∧
      config.outboxMaxRetries = UInt32.ofNat configured := by
  unfold fromEnv at loaded
  obtain ⟨_, -, loaded⟩ := except_bind_eq_ok loaded
  obtain ⟨_, -, loaded⟩ := except_bind_eq_ok loaded
  obtain ⟨_, -, loaded⟩ := except_bind_eq_ok loaded
  obtain ⟨_, -, loaded⟩ := except_bind_eq_ok loaded
  obtain ⟨_, -, loaded⟩ := except_bind_eq_ok loaded
  obtain ⟨_, -, loaded⟩ := except_bind_eq_ok loaded
  obtain ⟨_, -, loaded⟩ := except_bind_eq_ok loaded
  obtain ⟨chain, chainRead, loaded⟩ := except_bind_eq_ok loaded
  obtain ⟨_, -, loaded⟩ := except_bind_eq_ok loaded
  obtain ⟨outbox, outboxRead, loaded⟩ := except_bind_eq_ok loaded
  obtain ⟨_, -, loaded⟩ := except_bind_eq_ok loaded
  obtain ⟨_, -, loaded⟩ := except_bind_eq_ok loaded
  cases loaded
  exact ⟨⟨chain, chainRead, rfl⟩, ⟨outbox, outboxRead, rfl⟩⟩

end ImmutableLedger
