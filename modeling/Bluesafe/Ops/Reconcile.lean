import Bluesafe.Ops.Repository

/-!
# Recording and reconciling

`writeAudit` and `emitEvent` of `utils.ts`, the notification of the two parties of a
contract, and the two writers of tracked transactions that every path shares:
`applyLiveTxStatus` (`services/xrpl-tx-reconcile.ts`) and `upsertTrackedTx`
(`index.ts`).
-/

namespace Bluesafe.Ops

/-- `writeAudit`. -/
def writeAudit (entityType entityId action actorId : String) (before after : Option JsonObject)
    (metadata : Option JsonObject) : OpsM Unit := do
  let id ← randomId "aud"
  let createdAt ← nowIso
  appendAudit ⟨id, entityType, entityId, action, actorId, before, after, metadata, createdAt⟩

/-- `emitEvent`. -/
def emitEvent (eventType entityType entityId : String) (payload : JsonObject) : OpsM Unit := do
  let eventId ← randomId "evt"
  let traceId ← randomId "trc"
  let occurredAt ← nowIso
  appendEvent ⟨eventId, eventType, occurredAt, entityType, entityId, payload, traceId⟩

/-- Read a contract and, when it exists, enqueue a notification to its two parties. -/
def notifyParties (contractId eventType : String) (payload : JsonObject) : OpsM Unit := do
  match ← getContract contractId with
  | some contract =>
    maybeEnqueueDomainNotifications ⟨eventType, contractPartyRecipientIds contract, payload⟩
  | none => pure ()

/-! ## `applyLiveTxStatus` -/

/-- The row after a ledger answer was applied to it. -/
def XrplTransaction.reconciled (tracked : XrplTransaction) (live : LiveTxStatus)
    (now : Time) : XrplTransaction :=
  { tracked with
    account := match truthy (live.account.map trim), truthy tracked.account with
      | some acct, none => some acct
      | _, _ => tracked.account
    txType := (truthy live.transactionType).getD tracked.txType
    escrowOwner := (truthy live.escrowOwner).or tracked.escrowOwner
    escrowDestination := (truthy live.escrowDestination).or tracked.escrowDestination
    escrowOfferSequence := live.escrowOfferSequence.or tracked.escrowOfferSequence
    escrowSubmitterAccount :=
      (truthy live.escrowSubmitterAccount).or tracked.escrowSubmitterAccount
    lastCheckedAt := now
    validated := live.validated
    ledgerIndex := live.ledgerIndex
    resultCode := live.resultCode
    outcomeClass := some (classifyXrplResultCode live.resultCode)
    trackingStatus :=
      if live.validated = true ∧ classifyXrplResultCode live.resultCode = .success then
        .validatedSuccess
      else if live.validated then .validatedFail
      else .pendingValidation }

/-- Where a validated transaction moves the dispute it executes. -/
def executionResult (outcomeClass : Option OutcomeClass) : DisputeStatus :=
  if outcomeClass = some .success then .executed else .rejected

/-- The audit and event fields of a resolved execution. -/
def executionFields (status : DisputeStatus) (tracked : XrplTransaction) : JsonObject :=
  [("status", Json.str status.text)]
    ++ JsonObject.opt "resultCode" (tracked.resultCode.map .str)
    ++ JsonObject.opt "outcomeClass" (tracked.outcomeClass.map fun o => .str o.text)

/-- The part of `applyLiveTxStatus` that moves a dispute in `execution_pending`. -/
def resolveExecution (dispute : DisputeCase) (tracked : XrplTransaction) : OpsM Unit := do
  let nextStatus := executionResult tracked.outcomeClass
  let updatedAt ← nowIso
  saveDispute { dispute with status := nextStatus, updatedAt := updatedAt }
  writeAudit "dispute" dispute.id "dispute.execution_status_updated" "system"
    (some [("status", .str dispute.status.text)]) (some (executionFields nextStatus tracked)) none
  emitEvent "dispute.execution_status_updated" "dispute" dispute.id
    (executionFields nextStatus tracked)
  let eventType :=
    if nextStatus = .executed then "dispute.execution_completed"
    else "refund.dispute_execution_failed"
  notifyParties dispute.contractId eventType
    ([("disputeId", .str dispute.id), ("contractId", .str dispute.contractId),
      ("txHash", .str tracked.txHash)]
      ++ JsonObject.opt "outcomeClass" (tracked.outcomeClass.map fun o => .str o.text))

/-- The dispute a saved row may resolve: its link, when the row is validated. -/
def XrplTransaction.resolves (tracked : XrplTransaction) : Option String :=
  if tracked.validated then truthy tracked.disputeId else none

/-- Resolve the dispute linked to a validated row when it waits for its execution. -/
def resolveLinkedDispute (tracked : XrplTransaction) : OpsM Unit := do
  match tracked.resolves with
  | none => pure ()
  | some disputeId =>
    match ← getDispute disputeId with
    | none => pure ()
    | some dispute =>
      if dispute.status = .executionPending then resolveExecution dispute tracked
      else pure ()

/-- `applyLiveTxStatus`: apply a ledger answer to a tracked hash; `false` when the hash is
    not tracked. -/
def applyLiveTxStatus (txHash : String) (liveStatus : LiveTxStatus) : OpsM Bool := do
  match ← getXrplTx txHash with
  | none => return false
  | some tracked =>
    let now ← nowIso
    saveXrplTx (tracked.reconciled liveStatus now)
    resolveLinkedDispute (tracked.reconciled liveStatus now)
    return true

/-! ## `upsertTrackedTx` -/

/-- The parameters of `upsertTrackedTx` besides the hash. -/
structure TrackParams where
  txType : String
  account : Option String
  disputeId : Option String
  network : Network
  deriving DecidableEq

/-- The row for a hash that was not tracked before. -/
def freshTrackedTx (id txHash : String) (p : TrackParams) (now : Time) : XrplTransaction where
  id := id
  txHash := txHash
  txType := p.txType
  account := p.account
  disputeId := p.disputeId
  network := p.network
  trackingStatus := .pendingValidation
  validated := false
  ledgerIndex := none
  resultCode := none
  outcomeClass := none
  retries := 0
  lastCheckedAt := now
  escrowOwner := none
  escrowDestination := none
  escrowOfferSequence := none
  escrowSubmitterAccount := none

/-- The row for a hash that is tracked already: the given parameters win, every other
    column is kept. -/
def XrplTransaction.retracked (existing : XrplTransaction) (txHash : String) (p : TrackParams)
    (now : Time) : XrplTransaction :=
  { existing with
    txHash := txHash
    txType := p.txType
    account := p.account.or existing.account
    disputeId := p.disputeId.or existing.disputeId
    network := p.network
    lastCheckedAt := now }

/-- `upsertTrackedTx`. -/
def upsertTrackedTx (txHash : String) (p : TrackParams) : OpsM Unit := do
  let now ← nowIso
  match ← getXrplTx txHash with
  | some existing => saveXrplTx (existing.retracked txHash p now)
  | none =>
    let id ← randomId "xrt"
    saveXrplTx (freshTrackedTx id txHash p now)

end Bluesafe.Ops
