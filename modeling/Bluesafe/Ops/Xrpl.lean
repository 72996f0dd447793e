import Bluesafe.Ops.Http

/-!
# Tracked transactions: handlers and workers

The handlers of `index.ts` under `/v1/xrpl`, the transaction part of
`services/xrpl-subscribe.worker.ts` and the tick of `services/xrpl-tx-policy.worker.ts`.
Together with the execution request these are all the writers of tracked transactions.
-/

namespace Bluesafe.Ops

/-! ## Tracking and refreshing -/

/-- `trackTxSchema`. -/
structure TrackBody where
  txHash : String
  txType : String
  account : Option String := none
  network : Network := .testnet
  txHash_min : 8 ≤ txHash.toList.length := by decide
  txType_min : 1 ≤ txType.toList.length := by decide
  account_min : ∀ a ∈ account, 20 ≤ a.toList.length := by decide

/-- Look a hash up and apply the answer, if there is one. -/
def lookupAndApply (txHash : String) : OpsM Unit := do
  match ← getTxStatus txHash with
  | some live =>
    let _ ← applyLiveTxStatus txHash live
  | none => pure ()

/-- The end of `POST /v1/xrpl/track`: audit, event and reply from the stored row. -/
def announceTracked (body : TrackBody) : OpsM Reply := do
  let tracked ← getXrplTx body.txHash
  writeAudit "xrpl_tx" body.txHash "escrow.tx_submitted" "system" none
    (some [("txType", .str body.txType), ("network", .str body.network.text)]) none
  emitEvent "escrow.tx_submitted" "xrpl_tx" body.txHash
    ([("txType", .str body.txType), ("network", .str body.network.text)]
      ++ JsonObject.opt "account"
        (((tracked.bind XrplTransaction.account).or body.account).map .str))
  return ⟨202, [("txHash", .str body.txHash),
    ("trackingStatus", .str ((tracked.map XrplTransaction.trackingStatus).getD
      .pendingValidation).text),
    ("validated", .bool ((tracked.map XrplTransaction.validated).getD false)),
    ("account", Json.orNull ((tracked.bind XrplTransaction.account).map .str))]⟩

/-- The parameters of `POST /v1/xrpl/track` for `upsertTrackedTx`. -/
def TrackBody.params (body : TrackBody) : TrackParams :=
  ⟨body.txType, body.account, none, body.network⟩

/-- `POST /v1/xrpl/track`. -/
def track (config : Config) (auth : Option BluesafeAuth) (body : TrackBody) : OpsM Reply :=
  writeRoute config allRoles auth do
    upsertTrackedTx body.txHash body.params
    if config.xrplEnabled then lookupAndApply body.txHash
    announceTracked body

/-- The ledger fields of a reply about a tracked transaction. -/
def XrplTransaction.ledgerFields (tx : XrplTransaction) : JsonObject :=
  let hint := xrplTxClientPolicyHint tx.trackingStatus tx.validated
    (tx.outcomeClass.getD (classifyXrplResultCode tx.resultCode)) tx.resultCode
  [("validated", .bool tx.validated)]
    ++ JsonObject.opt "resultCode" (tx.resultCode.map .str)
    ++ JsonObject.opt "outcomeClass" (tx.outcomeClass.map fun o => .str o.text)
    ++ JsonObject.opt "ledgerIndex" (tx.ledgerIndex.map .num)
    ++ [("trackingStatus", .str tx.trackingStatus.text),
      ("clientPolicyHint", .obj [("code", .str hint.1), ("message", .str hint.2)])]

/-- The message of the exception for a row that is gone (`latest.trackingStatus`). -/
def missingRow : String := "Cannot read properties of undefined (reading 'trackingStatus')"

/-- The reply of `GET /v1/xrpl/transactions/:txHash` from the stored row. -/
def replyTransaction (txHash : String) : OpsM Reply := do
  match ← getXrplTx txHash with
  | none => throw missingRow
  | some latest =>
    return ⟨200, [("txHash", .str latest.txHash), ("txType", .str latest.txType)]
      ++ JsonObject.opt "account" (latest.account.map .str)
      ++ JsonObject.opt "disputeId" (latest.disputeId.map .str)
      ++ latest.ledgerFields
      ++ [("retries", .num latest.retries),
        ("escrowOwner", Json.orNull (latest.escrowOwner.map .str)),
        ("escrowDestination", Json.orNull (latest.escrowDestination.map .str)),
        ("escrowOfferSequence", Json.orNull (latest.escrowOfferSequence.map .num)),
        ("escrowSubmitterAccount", Json.orNull (latest.escrowSubmitterAccount.map .str))]⟩

/-- `GET /v1/xrpl/transactions/:txHash`, with `?refresh=true` when `shouldRefresh`. -/
def getTransaction (config : Config) (auth : Option BluesafeAuth) (txHash : String)
    (shouldRefresh : Bool) : OpsM Reply :=
  readRoute config allRoles auth do
    match ← getXrplTx txHash with
    | none => return .error 404 "B2_NOT_FOUND" "Tracked tx not found"
    | some _ =>
      if shouldRefresh && config.xrplEnabled then lookupAndApply txHash
      replyTransaction txHash

/-- The reply of `refresh` from the stored row. -/
def replyRefreshed (txHash : String) : OpsM Reply := do
  match ← getXrplTx txHash with
  | none => throw missingRow
  | some latest => return ⟨200, ("txHash", .str latest.txHash) :: latest.ledgerFields⟩

/-- `POST /v1/xrpl/transactions/:txHash/refresh`. -/
def refresh (config : Config) (auth : Option BluesafeAuth) (txHash : String) : OpsM Reply :=
  writeRoute config reviewerRoles auth do
    match ← getXrplTx txHash with
    | none => return .error 404 "B2_NOT_FOUND" "Tracked tx not found"
    | some _ =>
      if config.xrplEnabled then
        match ← getTxStatus txHash with
        | none => return .error 404 "B2_NOT_FOUND" "Transaction not found from XRPL tx method"
        | some liveStatus =>
          let _ ← applyLiveTxStatus txHash liveStatus
          replyRefreshed txHash
      else
        return (.error 400 "B2_VALIDATION_ERROR"
          "Live XRPL mode is disabled. Set XRPL_WSS_URL to enable.")

/-! ## Backfill -/

/-- `backfillSchema`. -/
structure BackfillBody where
  account : String
  fromLedger : Option Nat := none
  resultCode : Option String := none
  account_min : 20 ≤ account.toList.length := by decide

/-- `liveStatuses[txHash]`. The map of the source is a plain object, so a hash that names a member
    of `Object.prototype` (`toString`) finds that member: a status whose `validated` is `undefined`
    and that has no result code, as an unvalidated entry of the list without a code gives it. -/
def liveStatusFor (liveStatuses : List (String × LiveTxStatus)) (txHash : String) :
    Option LiveTxStatus :=
  liveStatuses.lookup txHash

/-- One iteration of the live loop: the number of rows updated so far. -/
def backfillLiveRow (account : String) (liveStatuses : List (String × LiveTxStatus))
    (updated : Nat) (tracked : XrplTransaction) : OpsM Nat := do
  match truthy tracked.account with
  | some a => if a ≠ account then return updated else applyRow
  | none => applyRow
where
  /-- The row belongs to the account or to none. -/
  applyRow : OpsM Nat := do
    match liveStatusFor liveStatuses tracked.txHash with
    | none => return updated
    | some liveStatus =>
      if ← applyLiveTxStatus tracked.txHash liveStatus then return updated + 1
      else return updated

/-- Run a program and keep its rejection as a value. -/
def attempt {α : Type} (p : OpsM α) : OpsM (Except String α) :=
  tryCatch (do return .ok (← p)) fun e => pure (.error e)

/-- Where the live part stands: the rows updated so far, and the exception that ended it. -/
structure LiveProgress where
  updated : Nat
  failed : Option String

/-- One step of the live loop; after an exception nothing more happens. -/
def backfillLiveStep (account : String) (liveStatuses : List (String × LiveTxStatus))
    (p : LiveProgress) (tracked : XrplTransaction) : OpsM LiveProgress := do
  match p.failed with
  | some _ => return p
  | none =>
    match ← attempt (backfillLiveRow account liveStatuses p.updated tracked) with
    | .ok updated => return ⟨updated, none⟩
    | .error e => return ⟨p.updated, some e⟩

/-- The two reads and the loop inside the `try` of the live part. -/
def backfillLiveRows (account : String) : OpsM LiveProgress := do
  match ← attempt (getAccountTxResults account) with
  | .error e => return ⟨0, some e⟩
  | .ok liveStatuses =>
    match ← attempt listXrplTxs with
    | .error e => return ⟨0, some e⟩
    | .ok rows => rows.foldlM (backfillLiveStep account liveStatuses) ⟨0, none⟩

/-- The live part of the backfill: its progress, failed or with its audit written. -/
def backfillLive (account : String) : OpsM LiveProgress := do
  let p ← backfillLiveRows account
  match p.failed with
  | some _ => return p
  | none =>
    match ← attempt (writeAudit "xrpl_backfill" account "xrpl.backfill.live" "operator_local"
        none none (some [("updated", .num p.updated), ("liveMode", .bool true)])) with
    | .ok _ => return p
    | .error e => return ⟨p.updated, some e⟩

/-- The result code the simulated loop gives a row: a retry first, then the requested one. -/
def XrplTransaction.simulatedCode (tx : XrplTransaction) (body : BackfillBody) : String :=
  if tx.retries + 1 ≥ 2 then body.resultCode.getD "tesSUCCESS" else "terQUEUED"

/-- The branches of the simulated loop: `validated`, `trackingStatus` and `ledgerIndex`. -/
def XrplTransaction.simulatedStep (tx : XrplTransaction) (body : BackfillBody) :
    Bool × TxTrackingStatus × Option Int :=
  let retries := tx.retries + 1
  let outcomeClass := classifyXrplResultCode (some (tx.simulatedCode body))
  if outcomeClass = .success then
    (true, .validatedSuccess, some ((body.fromLedger.getD 1 : Nat) + retries : Int))
  else if outcomeClass = .retryable ∧ retries < 3 then
    (tx.validated, .retryScheduled, tx.ledgerIndex)
  else if outcomeClass = .retryable then
    (false, .validatedFail, tx.ledgerIndex)
  else
    (true, .validatedFail, tx.ledgerIndex)

/-- The row the simulated loop saves for `tx`. -/
def XrplTransaction.simulated (tx : XrplTransaction) (body : BackfillBody) (now : Time) :
    XrplTransaction :=
  { tx with
    retries := tx.retries + 1
    lastCheckedAt := now
    resultCode := some (tx.simulatedCode body)
    outcomeClass := some (classifyXrplResultCode (some (tx.simulatedCode body)))
    validated := (tx.simulatedStep body).1
    trackingStatus := (tx.simulatedStep body).2.1
    ledgerIndex := (tx.simulatedStep body).2.2 }

/-- The answer the simulated loop hands to `applyLiveTxStatus` for the row it saved. -/
def XrplTransaction.asAnswer (tx : XrplTransaction) : LiveTxStatus where
  txHash := tx.txHash
  validated := tx.validated
  ledgerIndex := tx.ledgerIndex
  resultCode := tx.resultCode

/-- One iteration of the simulated loop. -/
def backfillSimulatedRow (body : BackfillBody) (updated : Nat) (tx : XrplTransaction) :
    OpsM Nat := do
  if tx.validated then return updated
  else
    let now ← nowIso
    saveXrplTx (tx.simulated body now)
    let _ ← applyLiveTxStatus tx.txHash (tx.simulated body now).asAnswer
    return updated + 1

/-- The simulated part of the backfill, reached with live mode off and after a failure of
    the live part. -/
def backfillSimulated (body : BackfillBody) (updated : Nat) : OpsM Reply := do
  let rows ← listXrplTxs
  let updated ← rows.foldlM (backfillSimulatedRow body) updated
  writeAudit "xrpl_backfill" body.account "xrpl.backfill" "operator_local" none none
    (some [("updated", .num updated), ("resultCode", .str (body.resultCode.getD "tesSUCCESS"))])
  return ⟨200, [("account", .str body.account), ("updated", .num updated),
    ("defaultResultCode", .str (body.resultCode.getD "tesSUCCESS"))]⟩

/-- `POST /v1/xrpl/backfill/account-tx`. -/
def backfill (config : Config) (auth : Option BluesafeAuth) (body : BackfillBody) : OpsM Reply :=
  writeRoute config reviewerRoles auth do
    if config.xrplEnabled then
      let p ← backfillLive body.account
      match p.failed with
      | none =>
        return ⟨200, [("account", .str body.account), ("updated", .num p.updated),
          ("liveMode", .bool true)]⟩
      | some e =>
        writeAudit "xrpl_backfill" body.account "xrpl.backfill.live_failed" "operator_local"
          none none (some [("error", .str e)])
        -- No `return` here in the source: the simulated part runs after the failure.
        backfillSimulated body p.updated
    else backfillSimulated body 0

/-! ## Stream -/

/-- A message of the `transactions` stream, with the fields `txHashFromStream`,
    `accountFromStream` and `escrowProtocolFieldsFromTxJson` find in it. -/
structure TransactionStream where
  validated : Bool
  ledgerIndex : Option Int
  hash : Option String
  engineResult : Option String
  metaResult : Option String
  account : Option String
  transactionType : Option String
  escrowOwner : Option String
  escrowDestination : Option String
  escrowOfferSequence : Option Int
  escrowSubmitterAccount : Option String
  hash_min : ∀ h ∈ hash, 8 ≤ h.toList.length

/-- The answer a stream message carries for its hash. -/
def TransactionStream.asAnswer (stream : TransactionStream) (hash : String)
    (ledgerIndex : Int) : LiveTxStatus where
  txHash := hash
  validated := true
  ledgerIndex := some ledgerIndex
  resultCode := stream.engineResult.or stream.metaResult
  account := stream.account
  transactionType := stream.transactionType
  escrowOwner := stream.escrowOwner
  escrowDestination := stream.escrowDestination
  escrowOfferSequence := stream.escrowOfferSequence
  escrowSubmitterAccount := stream.escrowSubmitterAccount

/-- The hash and ledger index of a message that is processed. -/
def TransactionStream.accepted (stream : TransactionStream) : Option (String × Int) :=
  if stream.validated then
    match stream.hash, stream.ledgerIndex with
    | some hash, some i => if i < 0 then none else some (hash, i)
    | _, _ => none
  else none

/-- `handleTransaction`; `throttled` is the answer of the token bucket. -/
def handleTransaction (stream : TransactionStream) (throttled : Bool) : OpsM Unit := do
  if throttled then return
  match stream.accepted with
  | none => return
  | some (hash, ledgerIndex) =>
    match ← getXrplTx hash with
    | none => return
    | some _ =>
      let inserted ← tryRecordXrplIngestionEvent
        ⟨ledgerIndex, hash, "xrpl_subscribe_transaction"⟩
      if inserted then
        let _ ← applyLiveTxStatus hash (stream.asAnswer hash ledgerIndex)

/-! ## Policy worker -/

/-- `XRPL_TX_POLICY_JOB_KIND`. -/
def policyJobKind : String := "xrpl_tx_policy_probe"

/-- `xrplTxPolicyJobId`. -/
def xrplTxPolicyJobId (txHash : String) : String := "xrpl_policy:" ++ txHash

/-- The rows whose account the tick looks up. -/
def missingAccountRows (cap : Nat) (txs : List XrplTransaction) : List XrplTransaction :=
  (txs.filter fun t => (truthy t.account).isNone && !t.validated && isPolicyCandidate t).take cap

/-- The account column is filled from a ledger answer, everything else is kept. -/
def XrplTransaction.withAccount (tx : XrplTransaction) (account : String) (now : Time) :
    XrplTransaction :=
  { tx with account := some account, lastCheckedAt := now }

/-- The body of the account loop. -/
def backfillAccount (tx : XrplTransaction) : OpsM Unit := do
  let live ← getTxStatus tx.txHash
  match truthy ((live.bind LiveTxStatus.account).map trim) with
  | none => return
  | some account =>
    let stored ← getXrplTx tx.txHash
    let latest := stored.getD tx
    if (truthy latest.account).isSome then return
    let now ← nowIso
    saveXrplTx (latest.withAccount account now)
    writeAudit "xrpl_tx" tx.txHash "xrpl.tx_account_backfilled" "system" none none
      (some [("account", .str account), ("source", .str "tx")])

/-- The account loop; an exception ends only its own iteration. -/
def backfillAccounts (rows : List XrplTransaction) : OpsM Unit :=
  forM rows fun tx => tryCatch (backfillAccount tx) fun _ => pure ()

/-- The job the tick creates for a pending row. -/
def policyJob (txHash : String) (now : Time) : DelayedJob where
  id := xrplTxPolicyJobId txHash
  kind := policyJobKind
  payloadTxHash := some txHash
  runAfter := now
  attempts := 0
  maxAttempts := 64
  lockedUntil := none
  lastError := none
  createdAt := now
  updatedAt := now

/-- The loop that creates a job for every candidate that is old enough. -/
def createPolicyJobs (policy : PolicyConfig) (now : Time) (txs : List XrplTransaction) :
    OpsM Unit :=
  forM txs fun tx => do
    if isPolicyCandidate tx then
      let t ← dateNow
      -- `Date.now() - t < pendingTimeoutMs`, with both readings natural numbers.
      if t < tx.lastCheckedAt + policy.pendingTimeoutMs then return
      let _ ← createDelayedJobIfAbsent (policyJob tx.txHash now)

/-- The row after a probe that found nothing. -/
def XrplTransaction.probed (tx : XrplTransaction) (now : Time) : XrplTransaction :=
  { tx with retries := tx.retries + 1, lastCheckedAt := now }

/-- The row when its probe budget is exhausted. -/
def XrplTransaction.exhausted (tx : XrplTransaction) (now : Time) : XrplTransaction :=
  { tx.probed now with
    outcomeClass := some .manualReview
    resultCode := tx.resultCode.or (some "not_found_after_policy")
    trackingStatus := .validatedFail
    validated := false }

/-- Put a job back with the next delay. -/
def requeueJob (policy : PolicyConfig) (job : DelayedJob) (lastError : Option String) :
    OpsM Unit := do
  let nextAttempts := job.attempts + 1
  let backoff := policyJobBackoffMs policy.intervalMs policy.maxBackoffMs nextAttempts
  let t ← dateNow
  let updatedAt ← nowIso
  bumpDelayedJob ⟨job.id, t + backoff, nextAttempts, lastError, updatedAt⟩

/-- The ledger's answer for a row: `tx`, then `account_tx` when the account is known. -/
def probeLedger (txHash : String) (tx : XrplTransaction) : OpsM (Option LiveTxStatus) := do
  match ← getTxStatus txHash with
  | some live => return some live
  | none =>
    match truthy tx.account with
    | none => return none
    | some account =>
      let map ← getAccountTxResults account
      return liveStatusFor map txHash

/-- A probe that found nothing: count it, and give up when the budget is spent. -/
def recordNotFound (policy : PolicyConfig) (job : DelayedJob) (txHash : String)
    (tx : XrplTransaction) : OpsM Unit := do
  let stored ← getXrplTx txHash
  let latest := stored.getD tx
  let now ← nowIso
  let probes := latest.retries + 1
  if probes ≥ policy.maxNotFoundProbes then
    saveXrplTx (latest.exhausted now)
    deleteDelayedJob job.id
    writeAudit "xrpl_tx" txHash "xrpl.tx_policy_exhausted" "system" none none
      (some [("probes", .num probes), ("account", Json.orNull (tx.account.map .str))])
    emitEvent "xrpl.tx_policy_exhausted" "xrpl_tx" txHash
      ([("probes", .num probes), ("account", Json.orNull (tx.account.map .str))]
        ++ JsonObject.opt "resultCode" ((latest.exhausted now).resultCode.map .str))
  else
    saveXrplTx (latest.probed now)
    requeueJob policy job none

/-- The body of the job loop for a job that names a hash. -/
def runPolicyJob (policy : PolicyConfig) (job : DelayedJob) (txHash : String) : OpsM Unit := do
  match ← getXrplTx txHash with
  | none => deleteDelayedJob job.id
  | some tx =>
    if isPolicyCandidate tx then
      match ← probeLedger txHash tx with
      | some live =>
        let _ ← applyLiveTxStatus txHash live
        deleteDelayedJob job.id
      | none => recordNotFound policy job txHash tx
    else deleteDelayedJob job.id

/-- One iteration of the job loop; an exception puts the job back with its message. -/
def processJob (policy : PolicyConfig) (job : DelayedJob) : OpsM Unit := do
  match truthy job.payloadTxHash with
  | none => deleteDelayedJob job.id
  | some txHash =>
    tryCatch (runPolicyJob policy job txHash) fun e => requeueJob policy job (some e)

/-- The second half of the tick: create the jobs, claim the due ones, run them. -/
def runPolicyJobs (policy : PolicyConfig) (now : Time) (txs : List XrplTransaction) :
    OpsM Unit := do
  createPolicyJobs policy now txs
  let jobs ← claimDueDelayedJobs policyJobKind now policy.batchSize policy.lockTtlMs
  forM jobs (processJob policy)

/-- `tick` of the policy worker. The counters it logs are left out. -/
def policyTick (config : Config) : OpsM Unit := do
  if config.xrplEnabled then
    let now ← nowIso
    let txs ← listXrplTxs
    if config.policy.accountBackfillPerTick > 0 then
      backfillAccounts (missingAccountRows config.policy.accountBackfillPerTick txs)
    runPolicyJobs config.policy now txs

end Bluesafe.Ops
