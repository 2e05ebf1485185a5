import ImmutableLedger.Concurrency.System
import ImmutableLedger.Concurrency.RelyGuarantee
import ImmutableLedger.Data.Identity
import ImmutableLedger.Encoding.Fields
import ImmutableLedger.Crypto.Envelope
import ImmutableLedger.Chain.Linked
import ImmutableLedger.Query.Ordered
import ImmutableLedger.Repository.Records
import ImmutableLedger.Repository.Requests
import ImmutableLedger.Repository.Tables
import ImmutableLedger.Repository.Outbox
import ImmutableLedger.Repository.Postgres
import ImmutableLedger.Service.Types
import ImmutableLedger.Service.Verify
import ImmutableLedger.Audit.Walk
import ImmutableLedger.Audit.Tamper
import ImmutableLedger.Crypto.Fips180
import ImmutableLedger.Audit.Completeness
import ImmutableLedger.Audit.Agreement
import ImmutableLedger.Audit.FailClosed
import ImmutableLedger.Repository.Backend
import ImmutableLedger.Repository.InMemory
import ImmutableLedger.Service.Delivery
import ImmutableLedger.Service.Write
import ImmutableLedger.Service.World
import ImmutableLedger.Service.Reasoning
import ImmutableLedger.Ledger.Growth
import ImmutableLedger.Ledger.Appending
import ImmutableLedger.Ledger.Writes
import ImmutableLedger.Ledger.Interleavings
import ImmutableLedger.Outbox.Announcements
import ImmutableLedger.Outbox.Effects
import ImmutableLedger.Outbox.Transactional
import ImmutableLedger.Outbox.Terminal
import ImmutableLedger.Locks.Halts
import ImmutableLedger.Adapters.GapDetector
import ImmutableLedger.Repository.Indexes
import ImmutableLedger.Audit.Batches
import ImmutableLedger.Audit.Proofs
import ImmutableLedger.Grpc.Handlers
import ImmutableLedger.Grpc.Receipts
import ImmutableLedger.Ledger.Double
import ImmutableLedger.Repository.Queries
import ImmutableLedger.Ledger.Chronology
import ImmutableLedger.Concurrency.Observation
import ImmutableLedger.Audit.Growing
import ImmutableLedger.Query.Paging
import ImmutableLedger.Service.Queries
import ImmutableLedger.Grpc.Queries
import ImmutableLedger.Ledger.Paging
import ImmutableLedger.Audit.Segments
import ImmutableLedger.Audit.Gaps
import ImmutableLedger.Query.Ties
import ImmutableLedger.Ledger.Snapshot
import ImmutableLedger.Repository.Filters
import ImmutableLedger.Concurrency.Conversation
import ImmutableLedger.Ledger.Retries
import ImmutableLedger.Outbox.Accounts
import ImmutableLedger.Outbox.Limits
import ImmutableLedger.Audit.Evidence
import ImmutableLedger.Ledger.Admission
import ImmutableLedger.Ledger.Dependable
import ImmutableLedger.Locks.Discipline
import ImmutableLedger.Locks.Sole
import ImmutableLedger.Python.Text
import ImmutableLedger.Python.Values
import ImmutableLedger.Json.Write
import ImmutableLedger.Json.Read
import ImmutableLedger.Json.Equal
import ImmutableLedger.Json.RoundTrip
import ImmutableLedger.Adapters.CoveredContent
import ImmutableLedger.Python.Tenths
import ImmutableLedger.Json.Jcs
import ImmutableLedger.Json.Encodable
import ImmutableLedger.Adapters.CanonicalForm
import ImmutableLedger.Adapters.UntypedDetector
import ImmutableLedger.Json.Loads
import ImmutableLedger.Adapters.CpexLines
import ImmutableLedger.Json.Floats
import ImmutableLedger.Adapters.PpeContract
import ImmutableLedger.Adapters.PpeLines
import ImmutableLedger.Adapters.PpeEvidence
import ImmutableLedger.Adapters.OtelSpans
import ImmutableLedger.Adapters.OtelLines
import ImmutableLedger.Clients.LedgerClient
import ImmutableLedger.Crypto.Hmac
import ImmutableLedger.Clients.Redelivery
import ImmutableLedger.Adapters.MlflowWebhook
import ImmutableLedger.Clients.Drift
