import Mathlib.Data.List.Basic

/-!
# Data model of the operations backend

The records of `services/be2-ops/src/types.ts` (with `DelayedJob` from
`repository/app-repository.ts` and `LiveTxStatus` from `services/xrpl.service.ts`), and
the deployment settings of `config.ts` that the modelled handlers read.

String enumerations of the source are inductive types with a `text` function for the
places where the source prints them. Timestamps are `Time`, milliseconds since the Unix
epoch: the source stores them as ISO strings produced by `nowIso()`, which order and
parse as that number. An optional field of the source is an `Option`.
-/

namespace Bluesafe.Ops

/-- Milliseconds since the Unix epoch. -/
abbrev Time : Type := Nat

/-- Values of `Record<string, unknown>` payloads; `time` is a timestamp string. -/
inductive Json
  | null
  | bool (b : Bool)
  | num (n : Int)
  | str (s : String)
  | time (t : Time)
  | obj (fields : List (String × Json))

/-- An object payload, fields in source order. -/
abbrev JsonObject : Type := List (String × Json)

/-- `x ?? null` in a payload. -/
def Json.orNull : Option Json → Json
  | some j => j
  | none => .null

/-- A field of a payload whose value may be `undefined`: such a field is not sent. -/
def JsonObject.opt (name : String) : Option Json → JsonObject
  | some j => [(name, j)]
  | none => []

inductive ContractStatus
  | draft
  | escrowPending
  | escrowValidated
  | active
  | closed
  | cancelled
  deriving DecidableEq, Repr

def ContractStatus.text : ContractStatus → String
  | draft => "draft"
  | escrowPending => "escrow_pending"
  | escrowValidated => "escrow_validated"
  | active => "active"
  | closed => "closed"
  | cancelled => "cancelled"

inductive DisputeStatus
  | filed
  | underReview
  | decided
  | executionPending
  | executed
  | closed
  | rejected
  deriving DecidableEq, Repr

def DisputeStatus.text : DisputeStatus → String
  | filed => "filed"
  | underReview => "under_review"
  | decided => "decided"
  | executionPending => "execution_pending"
  | executed => "executed"
  | closed => "closed"
  | rejected => "rejected"

inductive TxTrackingStatus
  | created
  | submitted
  | pendingValidation
  | validatedSuccess
  | validatedFail
  | retryScheduled
  deriving DecidableEq, Repr

def TxTrackingStatus.text : TxTrackingStatus → String
  | created => "created"
  | submitted => "submitted"
  | pendingValidation => "pending_validation"
  | validatedSuccess => "validated_success"
  | validatedFail => "validated_fail"
  | retryScheduled => "retry_scheduled"

inductive OutcomeClass
  | success
  | retryable
  | finalFail
  | manualReview
  deriving DecidableEq, Repr

def OutcomeClass.text : OutcomeClass → String
  | success => "success"
  | retryable => "retryable"
  | finalFail => "final_fail"
  | manualReview => "manual_review"

inductive Network
  | testnet
  | mainnet
  deriving DecidableEq, Repr

def Network.text : Network → String
  | testnet => "testnet"
  | mainnet => "mainnet"

/-- Who files a dispute. -/
inductive RaisedBy
  | tenant
  | landlord
  | operator
  deriving DecidableEq, Repr

def RaisedBy.text : RaisedBy → String
  | tenant => "tenant"
  | landlord => "landlord"
  | operator => "operator"

inductive DisputeDecisionChoice
  | finishToTenant
  | finishToLandlord
  | cancelToOwner
  | partialManual
  deriving DecidableEq, Repr

def DisputeDecisionChoice.text : DisputeDecisionChoice → String
  | finishToTenant => "finish_to_tenant"
  | finishToLandlord => "finish_to_landlord"
  | cancelToOwner => "cancel_to_owner"
  | partialManual => "partial_manual"

/-- The two escrow transactions an execution request may name. -/
inductive EscrowTxType
  | escrowFinish
  | escrowCancel
  deriving DecidableEq, Repr

def EscrowTxType.text : EscrowTxType → String
  | escrowFinish => "EscrowFinish"
  | escrowCancel => "EscrowCancel"

/-- `offerSequence` of an execution request: a JSON number or a string. -/
inductive OfferSequence
  | num (n : Nat)
  | str (s : String)
  deriving DecidableEq, Repr

structure Contract where
  id : String
  tenantId : String
  landlordId : String
  status : ContractStatus
  escrowCreateTxHash : Option String
  depositAmount : Option String
  stakeAmount : Option String
  startsAt : Option String
  endsAt : Option String
  createdAt : Time
  updatedAt : Time

/-- The fields of an evidence file that filing a dispute reads. -/
structure EvidenceFile where
  id : String
  contractId : String

structure DisputeCase where
  id : String
  contractId : String
  raisedBy : RaisedBy
  reasonCode : String
  status : DisputeStatus
  evidenceBundle : List String
  createdAt : Time
  updatedAt : Time
  reviewDeadlineAt : Option Time
  escalatedAt : Option Time

structure CaseDecision where
  id : String
  disputeId : String
  decision : DisputeDecisionChoice
  decidedBy : String
  memo : Option String
  createdAt : Time

structure XrplTransaction where
  id : String
  txHash : String
  txType : String
  account : Option String
  disputeId : Option String
  network : Network
  trackingStatus : TxTrackingStatus
  validated : Bool
  ledgerIndex : Option Int
  resultCode : Option String
  outcomeClass : Option OutcomeClass
  retries : Nat
  lastCheckedAt : Time
  escrowOwner : Option String
  escrowDestination : Option String
  escrowOfferSequence : Option Int
  escrowSubmitterAccount : Option String

/-- What the ledger says about a transaction, in the form all ingestion paths produce. -/
structure LiveTxStatus where
  txHash : String
  validated : Bool
  ledgerIndex : Option Int := none
  resultCode : Option String := none
  transactionType : Option String := none
  account : Option String := none
  escrowOwner : Option String := none
  escrowDestination : Option String := none
  escrowOfferSequence : Option Int := none
  escrowSubmitterAccount : Option String := none
  deriving DecidableEq

structure AuditLog where
  id : String
  entityType : String
  entityId : String
  action : String
  actorId : String
  before : Option JsonObject
  after : Option JsonObject
  metadata : Option JsonObject
  createdAt : Time

structure EventEnvelope where
  eventId : String
  eventType : String
  occurredAt : Time
  entityType : String
  entityId : String
  payload : JsonObject
  traceId : String

/-- One call of the domain notification service. -/
structure DomainNotification where
  eventType : String
  recipientIds : List String
  payload : JsonObject

/-- The unique key of `xrpl_ingestion_events`. -/
structure IngestionKey where
  ledgerIndex : Int
  txHash : String
  eventSource : String
  deriving DecidableEq

structure DelayedJob where
  id : String
  kind : String
  /-- `payload.txHash` when it is a string. -/
  payloadTxHash : Option String
  runAfter : Time
  attempts : Nat
  maxAttempts : Nat
  lockedUntil : Option Time
  lastError : Option String
  createdAt : Time
  updatedAt : Time

/-! ## Authentication and configuration -/

inductive BluesafeRole
  | tenant
  | landlord
  | operator
  | verifier
  | auditor
  deriving DecidableEq, Repr

def BluesafeRole.text : BluesafeRole → String
  | tenant => "tenant"
  | landlord => "landlord"
  | operator => "operator"
  | verifier => "verifier"
  | auditor => "auditor"

/-- `req.bluesafeAuth`. -/
structure BluesafeAuth where
  role : BluesafeRole
  tenantId : Option String
  landlordId : Option String

inductive DeploymentTier
  | dev
  | strict
  deriving DecidableEq, Repr

/-- `config.execution`, with the two library functions the execution path calls:
    the classic address `Wallet.fromSeed` derives (or its error) and SHA-256 in hex. -/
structure ExecutionConfig where
  syntheticExecutionHashEnabled : Bool
  deploymentTier : DeploymentTier
  submitEnabled : Bool
  submitSeed : String
  walletFromSeed : String → Except String String
  sha256 : String → String

/-- Options of the transaction policy worker (`config.xrplTxPolicy`, `lockTtlMs`). -/
structure PolicyConfig where
  intervalMs : Nat
  pendingTimeoutMs : Nat
  batchSize : Nat
  maxNotFoundProbes : Nat
  lockTtlMs : Nat
  maxBackoffMs : Nat
  accountBackfillPerTick : Nat

structure Config where
  authEnabled : Bool
  xrplEnabled : Bool
  execution : ExecutionConfig
  reviewDeadlineDays : Nat
  slaAutoEscalate : Bool
  policy : PolicyConfig

end Bluesafe.Ops
