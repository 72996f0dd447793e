import Bluesafe.ForStd.Aead
import Bluesafe.ForStd.Sealing
import Bluesafe.ForStd.Base64
import Bluesafe.ForStd.Count
import Bluesafe.ForStd.Csv
import Bluesafe.ForStd.Decimal
import Bluesafe.ForStd.DecimalText
import Bluesafe.ForStd.Dedup
import Bluesafe.ForStd.Der
import Bluesafe.ForStd.Double
import Bluesafe.ForStd.Except
import Bluesafe.ForStd.Keyset
import Bluesafe.ForStd.NumberText
import Bluesafe.ForStd.NumberLiteral
import Bluesafe.ForStd.JsonValue
import Bluesafe.ForStd.Page
import Bluesafe.ForStd.Poll
import Bluesafe.ForStd.Sha256
import Bluesafe.ForStd.Table
import Bluesafe.ForStd.Text
import Bluesafe.ForStd.TextCut
import Bluesafe.ForStd.Transition
import Bluesafe.ForStd.Utf8
import Bluesafe.ForStd.Utf16
import Bluesafe.ForStd.JsonParse
import Bluesafe.Async.Basic
import Bluesafe.Async.Exec
import Bluesafe.Async.Sum
import Bluesafe.Async.Only
import Bluesafe.Async.Keeps
import Bluesafe.Async.Fallible
import Bluesafe.Async.Pool
import Bluesafe.Async.Safe
import Bluesafe.Async.Monitored
import Bluesafe.Async.Recorded
import Bluesafe.Async.Traces
import Bluesafe.Async.Interp
import Bluesafe.Async.Carried
import Bluesafe.Async.Solo
import Bluesafe.Ops.Types
import Bluesafe.Ops.Utils
import Bluesafe.Ops.Repository
import Bluesafe.Ops.Reconcile
import Bluesafe.Ops.Http
import Bluesafe.Ops.Contracts
import Bluesafe.Ops.Disputes
import Bluesafe.Ops.Xrpl
import Bluesafe.Ops.Envelopes
import Bluesafe.Ops.System
import Bluesafe.Ops.Ledger
import Bluesafe.Ops.SubscribeRate
import Bluesafe.Settle.Types
import Bluesafe.Settle.Repository
import Bluesafe.Settle.Reconciler
import Bluesafe.Judge.Types
import Bluesafe.Judge.Service
import Bluesafe.Judge.Panel
import Bluesafe.Escrow.Conditions
import Bluesafe.Escrow.Builders
import Bluesafe.Settle.Memo
import Bluesafe.Lock.Types
import Bluesafe.Lock.Service
import Bluesafe.Lock.Encryption
import Bluesafe.Lock.Controller
import Bluesafe.Notify.Types
import Bluesafe.Notify.Fingerprint
import Bluesafe.Notify.Repository
import Bluesafe.Notify.Workers
import Bluesafe.Notify.Memory
import Bluesafe.Credential.Service
import Bluesafe.Reputation.Dlq
import Bluesafe.Reputation.Outbound
import Bluesafe.Api.AuditCsv
import Bluesafe.Api.Types
import Bluesafe.Api.Repository
import Bluesafe.Api.Query
import Bluesafe.Api.Reads
import Bluesafe.Api.Evidence
import Bluesafe.Api.Answered
import Bluesafe.Api.ExportJobs
import Bluesafe.Api.Vault
import Bluesafe.Api.Server
import Bluesafe.Api.SettlementUpsert
import Bluesafe.Api.Subscribe
import Bluesafe.Api.SyncSubscriptions
import Bluesafe.Api.Settlements
import Bluesafe.Api.SettlementNotices
import Bluesafe.Api.Votes
import Bluesafe.Spec.AuditCsv
import Bluesafe.Spec.Timestamps
import Bluesafe.Spec.AuditWalk
import Bluesafe.Spec.AuditorReads
import Bluesafe.Spec.Book
import Bluesafe.Spec.Writes
import Bluesafe.Spec.Justified
import Bluesafe.Spec.RowInvariant
import Bluesafe.Spec.BookRefinement
import Bluesafe.Spec.BookHandlers
import Bluesafe.Spec.ContentRoundTrip
import Bluesafe.Spec.ContractLifecycle
import Bluesafe.Spec.CredentialLife
import Bluesafe.Spec.DeadLetterAccounting
import Bluesafe.Spec.DeadLetterRecency
import Bluesafe.Spec.Delivery
import Bluesafe.Spec.TimeWindows
import Bluesafe.Spec.LegalHold
import Bluesafe.Spec.DisputeEvidence
import Bluesafe.Spec.DisputeLifecycle
import Bluesafe.Spec.EvidenceVersions
import Bluesafe.Spec.LedgerTruth
import Bluesafe.Spec.ExecutionMatch
import Bluesafe.Spec.ExecutionLinks
import Bluesafe.Spec.ExportLoops
import Bluesafe.Spec.ExportTokens
import Bluesafe.Spec.FinalResults
import Bluesafe.Spec.FullyLocked
import Bluesafe.Spec.HashSpelling
import Bluesafe.Spec.IdempotencyKey
import Bluesafe.Spec.Ingestion
import Bluesafe.Spec.IngestionPaths
import Bluesafe.Spec.JobAttempts
import Bluesafe.Spec.JobLeases
import Bluesafe.Spec.JudgmentExclusive
import Bluesafe.Spec.Judgment
import Bluesafe.Spec.LockDeposit
import Bluesafe.Spec.MonthlyPayment
import Bluesafe.Spec.MonthlyRun
import Bluesafe.Spec.EveryAttempt
import Bluesafe.Spec.RequestedMonth
import Bluesafe.Spec.OneVote
import Bluesafe.Spec.OutboxFanout
import Bluesafe.Spec.OutboxRefinement
import Bluesafe.Spec.OutboxStore
import Bluesafe.Spec.PartyIsolation
import Bluesafe.Spec.PolicyCoverage
import Bluesafe.Spec.ProbeBudget
import Bluesafe.Spec.RetryDiscipline
import Bluesafe.Spec.Retracking
import Bluesafe.Spec.ReviewCycle
import Bluesafe.Spec.SubscriptionMirror
import Bluesafe.Spec.TouchAgreement
import Bluesafe.Spec.SettlementLifecycle
import Bluesafe.Spec.SettlementCounters
import Bluesafe.Spec.SettlementNotices
import Bluesafe.Spec.SignerLists
import Bluesafe.Spec.SimulatedBackfill
import Bluesafe.Spec.TrackedRows
import Bluesafe.Spec.TruncatedExports
import Bluesafe.Spec.VerifierStats
import Bluesafe.Spec.VerifyByCid
import Bluesafe.Spec.SlaCoverage
import Bluesafe.Async.Faults
import Bluesafe.Spec.LocalChecks
import Bluesafe.Spec.AnsweredRuns
import Bluesafe.Spec.BadInput
import Bluesafe.Spec.TokenBuckets
import Bluesafe.Spec.EscrowWindows
import Bluesafe.Spec.ConditionCodec
import Bluesafe.Spec.RestoredConditions
import Bluesafe.Spec.PanelSelection
import Bluesafe.Spec.VotingDeadline
import Bluesafe.Spec.Majorities
import Bluesafe.Spec.IouFunding
import Bluesafe.Spec.MemoRoundTrip
import Bluesafe.Spec.AuthenticPackages
import Bluesafe.Async.Attributes
import Bluesafe.Backend.Repository
import Bluesafe.Backend.Console
import Bluesafe.Backend.Routes
import Bluesafe.Spec.Grants
import Bluesafe.Spec.ApiGrants
import Bluesafe.Spec.CarriedOut
import Bluesafe.Spec.AccessControl
import Bluesafe.Spec.FixedParties
import Bluesafe.Spec.PartyWrites
import Bluesafe.ForStd.LogReader
import Bluesafe.Spec.Journal
import Bluesafe.Spec.JournalHandlers
import Bluesafe.Wallet.Types
import Bluesafe.Wallet.Service
import Bluesafe.Spec.WalletSpending
import Bluesafe.Spec.WalletPaths
import Bluesafe.Spec.RoleWallets
import Bluesafe.ForStd.TableSum
import Bluesafe.Spec.DeliveryDrain
import Bluesafe.Async.Facts
import Bluesafe.Spec.References
