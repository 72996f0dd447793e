import Bluesafe.Ops.Http

/-!
# Dispute handlers

The handlers of `index.ts` that write disputes: filing, the review status, escalation,
the decision, the execution request (with `services/execution-submit.ts` and
`services/execution-policy.ts`) and the SLA scan of the operator console.
-/

namespace Bluesafe.Ops

/-! ## Filing -/

/-- `createDisputeSchema`. -/
structure CreateDisputeBody where
  contractId : String
  raisedBy : RaisedBy
  reasonCode : String
  evidenceIds : List String
  contractId_min : 1 ≤ contractId.length
  reasonCode_min : 1 ≤ reasonCode.length
  evidenceIds_min : 1 ≤ evidenceIds.length

/-- The loop over `evidenceIds`: the first rejection, or `none`. -/
def checkEvidences (contractId : String) : List String → OpsM (Option Reply)
  | [] => pure none
  | id :: rest => do
    match ← getEvidence id with
    | none => return some (.error 404 "B2_NOT_FOUND" ("Evidence missing: " ++ id))
    | some ev =>
      if ev.contractId ≠ contractId then
        return some (.error 400 "B2_VALIDATION_ERROR"
          ("Evidence " ++ id ++ " does not belong to this contract"))
      else checkEvidences contractId rest

/-- Store a new dispute and announce it. -/
def storeFiledDispute (contract : Contract) (body : CreateDisputeBody) : OpsM Reply := do
  let disputeId ← randomId "dsp"
  let now ← nowIso
  saveDispute {
    id := disputeId
    contractId := body.contractId
    raisedBy := body.raisedBy
    reasonCode := body.reasonCode
    status := .filed
    evidenceBundle := body.evidenceIds
    createdAt := now
    updatedAt := now
    reviewDeadlineAt := none
    escalatedAt := none }
  writeAudit "dispute" disputeId "dispute.filed" body.raisedBy.text none
    (some [("contractId", .str body.contractId), ("evidenceCount", .num body.evidenceIds.length),
      ("reasonCode", .str body.reasonCode)]) none
  emitEvent "dispute.filed" "dispute" disputeId
    [("contractId", .str body.contractId), ("raisedBy", .str body.raisedBy.text),
      ("reasonCode", .str body.reasonCode)]
  maybeEnqueueDomainNotifications ⟨"dispute.filed", contractPartyRecipientIds contract,
    [("disputeId", .str disputeId), ("contractId", .str body.contractId),
      ("raisedBy", .str body.raisedBy.text), ("reasonCode", .str body.reasonCode)]⟩
  return ⟨201, [("disputeId", .str disputeId), ("status", .str "filed"), ("createdAt", .time now)]⟩

/-- `POST /v1/disputes`. -/
def fileDispute (config : Config) (auth : Option BluesafeAuth) (body : CreateDisputeBody) :
    OpsM Reply :=
  writeRoute config allRoles auth do
    match ← getContract body.contractId with
    | none => return .error 404 "B2_NOT_FOUND" "Contract not found"
    | some contract =>
      if canAccessContract config auth contract then
        match ← checkEvidences body.contractId body.evidenceIds with
        | some reply => return reply
        | none => storeFiledDispute contract body
      else return .error 403 "B2_FORBIDDEN" "Not allowed to create dispute for this contract"

/-! ## Review status -/

/-- `disputeStatusPatchSchema`. -/
inductive ReviewStatus
  | underReview
  | filed
  deriving DecidableEq, Repr

def ReviewStatus.toStatus : ReviewStatus → DisputeStatus
  | underReview => .underReview
  | filed => .filed

/-- `isDisputeReviewStatusAllowed`. -/
def isDisputeReviewStatusAllowed (source target : DisputeStatus) : Bool :=
  (source = .filed ∧ target = .underReview) ∨ (source = .underReview ∧ target = .filed)

/-- `config.dispute.reviewDeadlineDays` after `now`. -/
def reviewDeadline (config : Config) (now : Time) : Time :=
  now + config.reviewDeadlineDays * 86400000

/-- The dispute after `PATCH status` to `under_review`, read at `t`, deadline from `due`. -/
def DisputeCase.reviewStarted (dispute : DisputeCase) (t deadline : Time) : DisputeCase :=
  { dispute with status := .underReview, updatedAt := t, reviewDeadlineAt := some deadline }

/-- The dispute after `PATCH status` back to `filed`. -/
def DisputeCase.refiled (dispute : DisputeCase) (t : Time) : DisputeCase :=
  { dispute with
    status := .filed, updatedAt := t, reviewDeadlineAt := none, escalatedAt := none }

/-- The audit of `PATCH status`. -/
def auditStatusPatch (auth : Option BluesafeAuth) (disputeId : String)
    (before after : DisputeStatus) : OpsM Unit :=
  writeAudit "dispute" disputeId "dispute.status_patched" (actorId auth "system")
    (some [("status", .str before.text)]) (some [("status", .str after.text)]) none

/-- `PATCH /v1/disputes/:disputeId/status` after its checks. -/
def storeReviewStatus (config : Config) (auth : Option BluesafeAuth) (disputeId : String)
    (next : ReviewStatus) (dispute : DisputeCase) : OpsM Reply := do
  let t ← nowIso
  match next with
  | .underReview =>
    let due ← dateNow
    saveDispute (dispute.reviewStarted t (reviewDeadline config due))
    auditStatusPatch auth disputeId dispute.status .underReview
    emitEvent "dispute.review_started" "dispute" disputeId
      [("fromStatus", .str dispute.status.text)]
    notifyParties dispute.contractId "dispute.review_started"
      [("disputeId", .str disputeId), ("contractId", .str dispute.contractId)]
  | .filed =>
    saveDispute (dispute.refiled t)
    auditStatusPatch auth disputeId dispute.status .filed
  return ⟨200, [("disputeId", .str disputeId), ("status", .str next.toStatus.text),
    ("updatedAt", .time t)]⟩

/-- `PATCH /v1/disputes/:disputeId/status`. -/
def patchDisputeStatus (config : Config) (auth : Option BluesafeAuth) (disputeId : String)
    (next : ReviewStatus) : OpsM Reply :=
  writeRoute config allRoles auth <|
  withDispute config auth disputeId "Not allowed to update this dispute" fun dispute =>
    if isDisputeReviewStatusAllowed dispute.status next.toStatus then
      if next = .filed ∧ config.authEnabled = true ∧
          auth.map BluesafeAuth.role ≠ some .operator then
        pure (.error 403 "B2_FORBIDDEN"
          "Only operator may move a dispute from under_review back to filed")
      else storeReviewStatus config auth disputeId next dispute
    else
      pure (.error 409 "B2_VALIDATION_ERROR"
        ("Cannot transition dispute status " ++ dispute.status.text ++ " -> " ++
          next.toStatus.text))

/-! ## Escalation -/

/-- The dispute after an escalation at `t`. -/
def DisputeCase.escalated (dispute : DisputeCase) (t : Time) : DisputeCase :=
  { dispute with escalatedAt := some t, updatedAt := t }

/-- `POST /v1/disputes/:disputeId/escalate`. -/
def escalate (config : Config) (auth : Option BluesafeAuth) (disputeId : String) : OpsM Reply :=
  writeRoute config [.operator] auth <|
  withDispute config auth disputeId "Not allowed to escalate this dispute" fun dispute => do
    let t ← nowIso
    saveDispute (dispute.escalated t)
    writeAudit "dispute" disputeId "dispute.escalated" (actorId auth "operator") none
      (some [("escalatedAt", .time t)]) none
    emitEvent "dispute.escalated" "dispute" disputeId
      [("reviewDeadlineAt", Json.orNull (dispute.reviewDeadlineAt.map .time))]
    notifyParties dispute.contractId "dispute.escalated"
      [("disputeId", .str disputeId), ("contractId", .str dispute.contractId)]
    return ⟨200, [("disputeId", .str disputeId), ("escalatedAt", .time t)]⟩

/-! ## SLA scan -/

/-- The counters of `review-sla-scan`. -/
structure SlaCounters where
  deadlineExpired : Nat
  autoEscalated : Nat

/-- The automatic escalation of one overdue dispute. -/
def autoEscalate (d : DisputeCase) : OpsM Unit := do
  let t ← nowIso
  saveDispute (d.escalated t)
  writeAudit "dispute" d.id "dispute.escalated" "system" none (some [("escalatedAt", .time t)])
    (some [("source", .str "review_sla_auto")])
  emitEvent "dispute.escalated" "dispute" d.id
    ([("contractId", .str d.contractId)]
      ++ JsonObject.opt "reviewDeadlineAt" (d.reviewDeadlineAt.map .time)
      ++ [("source", .str "review_sla_auto")])
  notifyParties d.contractId "dispute.escalated"
    [("disputeId", .str d.id), ("contractId", .str d.contractId)]

/-- The announcement of an expired review deadline. -/
def announceDeadlineExpired (d : DisputeCase) : OpsM Unit := do
  emitEvent "dispute.review_deadline_expired" "dispute" d.id
    ([("contractId", .str d.contractId)]
      ++ JsonObject.opt "reviewDeadlineAt" (d.reviewDeadlineAt.map .time))
  notifyParties d.contractId "dispute.review_deadline_expired"
    ([("disputeId", .str d.id), ("contractId", .str d.contractId)]
      ++ JsonObject.opt "reviewDeadlineAt" (d.reviewDeadlineAt.map .time))

/-- One iteration of the scan. -/
def scanDispute (config : Config) (nowMs : Time) (n : SlaCounters) (d : DisputeCase) :
    OpsM SlaCounters := do
  match d.reviewDeadlineAt with
  | none => return n
  | some deadline =>
    if deadline > nowMs then return n
    else if config.slaAutoEscalate then
      if d.escalatedAt.isNone then
        autoEscalate d
        return { n with autoEscalated := n.autoEscalated + 1 }
      else return n
    else
      announceDeadlineExpired d
      return { n with deadlineExpired := n.deadlineExpired + 1 }

/-- `POST /v1/operator/disputes/review-sla-scan`. -/
def reviewSlaScan (config : Config) (auth : Option BluesafeAuth) : OpsM Reply :=
  writeRoute config [.operator] auth do
    let nowMs ← dateNow
    let items ← listDisputesPage .underReview 500 0
    let n ← items.foldlM (scanDispute config nowMs) ⟨0, 0⟩
    return ⟨200, [("scanned", .num items.length), ("deadlineExpired", .num n.deadlineExpired),
      ("autoEscalated", .num n.autoEscalated), ("flagged", .num n.deadlineExpired)]⟩

/-! ## Decision -/

/-- `decisionSchema`. -/
structure DecisionBody where
  decision : DisputeDecisionChoice
  memo : Option String
  memo_max : ∀ m ∈ memo, m.length ≤ 500

/-- The statuses in which a decision may be recorded. -/
def DisputeStatus.awaitsDecision (s : DisputeStatus) : Bool :=
  s ∈ [DisputeStatus.filed, .underReview]

/-- `POST /v1/disputes/:disputeId/decision`. -/
def decision (config : Config) (auth : Option BluesafeAuth) (disputeId : String)
    (body : DecisionBody) : OpsM Reply :=
  writeRoute config reviewerRoles auth <|
  withDispute config auth disputeId "Not allowed to record decision for this dispute"
    fun dispute => do
    if dispute.status.awaitsDecision then
      let decisionId ← randomId "dcs"
      let createdAt ← nowIso
      saveDecision ⟨decisionId, dispute.id, body.decision, "verifier_mock", body.memo, createdAt⟩
      let updatedAt ← nowIso
      saveDispute { dispute with status := .decided, updatedAt := updatedAt }
      writeAudit "dispute" dispute.id "dispute.decision_recorded" "verifier_mock"
        (some [("status", .str dispute.status.text)])
        (some [("status", .str "decided"), ("decisionId", .str decisionId),
          ("decision", .str body.decision.text)]) none
      emitEvent "dispute.decision_recorded" "dispute" dispute.id
        [("decisionId", .str decisionId), ("decision", .str body.decision.text)]
      notifyParties dispute.contractId "dispute.decision_recorded"
        [("disputeId", .str dispute.id), ("contractId", .str dispute.contractId),
          ("decisionId", .str decisionId), ("decision", .str body.decision.text)]
      return ⟨200, [("disputeId", .str dispute.id), ("status", .str "decided"),
        ("decisionId", .str decisionId)]⟩
    else return .error 409 "B2_VALIDATION_ERROR" "Invalid status for decision"

/-! ## Execution -/

/-- A hexadecimal digit of `executionSchema`'s pattern. -/
def isHexDigit (c : Char) : Bool :=
  ('0' ≤ c && c ≤ '9') || ('a' ≤ c && c ≤ 'f') || ('A' ≤ c && c ≤ 'F')

/-- `executionSchema`. -/
structure ExecutionBody where
  txType : EscrowTxType
  owner : String
  offerSequence : OfferSequence
  network : Network := .testnet
  txHash : Option String := none
  owner_min : 20 ≤ owner.toList.length := by decide
  offerSequence_min : offerSequence ≠ .str "" := by decide
  txHash_hex : ∀ h ∈ txHash, h.toList.length = 64 ∧ h.toList.all isHexDigit = true := by decide

/-- `syntheticExecutionPathEffective`. -/
def syntheticExecutionPathEffective (config : Config) : Bool :=
  config.execution.syntheticExecutionHashEnabled && config.execution.deploymentTier = .dev

/-- `buildExecutionTx`. The handler builds the same object once more
    (`buildEscrowExecutionTx`) and drops it. -/
def buildExecutionTx (body : ExecutionBody) : EscrowExecutionTx :=
  ⟨body.txType, body.owner, body.owner, body.offerSequence⟩

/-- `trySubmitDisputeExecution`. -/
def trySubmitDisputeExecution (config : Config) (body : ExecutionBody) :
    OpsM (Option String) := do
  let seed := trim config.execution.submitSeed
  if config.execution.submitEnabled = false ∨ seed = "" then return none
  else if config.xrplEnabled = false then return none
  else
    match config.execution.walletFromSeed seed with
    | .error e => throw e
    | .ok classicAddress =>
      if classicAddress ≠ body.owner then
        throw ("BLUESAFE_EXECUTION_SUBMIT_SEED derives address " ++ classicAddress ++
          " but execution owner is " ++ body.owner)
      else
        let txHash ← submitAndWaitFromWallet (buildExecutionTx body)
        return some txHash

/-- The hash an execution request will track. -/
structure ExecutionHash where
  txHash : String
  ledgerBacked : Bool
  synthetic : Bool

/-- The text of the reply when no hash can be found. -/
def ledgerBackedRequired : String :=
  "Ledger-backed execution is required: pass txHash (64 hex), or enable " ++
  "BLUESAFE_EXECUTION_SUBMIT_ENABLED with matching BLUESAFE_EXECUTION_SUBMIT_SEED and " ++
  "XRPL_WSS_URL. If BLUESAFE_EXECUTION_DEPLOYMENT_TIER=strict, synthetic placeholder hashes " ++
  "are never used. See docs/adr/0011-v8-execution-keys-synthetic-hash.md"

/-- `sha256(...).slice(0, 64).toUpperCase()`. -/
def syntheticHash (config : Config) (dispute : DisputeCase) (txType : EscrowTxType)
    (now : Time) : String :=
  toUpperCase (sliceTo 64 (config.execution.sha256
    (dispute.id ++ ":" ++ txType.text ++ ":" ++ toString now)))

/-- The submission of the escrow transaction, or the reply `502`. -/
def submitOrReply (config : Config) (body : ExecutionBody) :
    OpsM (Except Reply (Option String)) :=
  tryCatch (do return .ok (← trySubmitDisputeExecution config body))
    fun e => pure (.error (.error 502 "B2_EXECUTION_SUBMIT_FAILED" e))

/-- The choice of the hash: the caller's, a submitted one, or a synthetic one. -/
def chooseExecutionHash (config : Config) (dispute : DisputeCase) (body : ExecutionBody) :
    OpsM (Except Reply ExecutionHash) := do
  match truthy body.txHash with
  | some h => return .ok ⟨toUpperCase h, true, false⟩
  | none =>
    match ← submitOrReply config body with
    | .error reply => return .error reply
    | .ok (some txHash) => return .ok ⟨txHash, true, false⟩
    | .ok none =>
      if syntheticExecutionPathEffective config then
        let now ← dateNow
        return .ok ⟨syntheticHash config dispute body.txType now, false, true⟩
      else return .error (.error 400 "B2_VALIDATION_ERROR" ledgerBackedRequired)

/-- The row an execution request asks `upsertTrackedTx` for. -/
def executionParams (dispute : DisputeCase) (body : ExecutionBody) : TrackParams :=
  ⟨body.txType.text, some body.owner, some dispute.id, body.network⟩

/-- The type a ledger answer must not contradict when the hash is ledger-backed. -/
def typeMismatch (chosen : ExecutionHash) (body : ExecutionBody) (live : Option LiveTxStatus) :
    Option String :=
  if chosen.ledgerBacked then
    match truthy (live.bind LiveTxStatus.transactionType) with
    | some t => if t ≠ body.txType.text then some t else none
    | none => none
  else none

/-- Track the chosen hash for the dispute; in live mode look it up first and apply the
    answer afterwards. The reply is the rejection of a mismatching transaction type. -/
def trackExecution (config : Config) (dispute : DisputeCase) (body : ExecutionBody)
    (chosen : ExecutionHash) : OpsM (Option Reply) := do
  if config.xrplEnabled then
    let live ← getTxStatus chosen.txHash
    match typeMismatch chosen body live with
    | some t =>
      return some (.error 409 "B2_VALIDATION_ERROR"
        ("Transaction at txHash is " ++ t ++ ", expected " ++ body.txType.text))
    | none =>
      upsertTrackedTx chosen.txHash (executionParams dispute body)
      match live with
      | some live =>
        let _ ← applyLiveTxStatus chosen.txHash live
        return none
      | none => return none
  else
    upsertTrackedTx chosen.txHash (executionParams dispute body)
    return none

/-- Move the dispute to `execution_pending`, from the copy read at the start. -/
def acceptExecution (auth : Option BluesafeAuth) (dispute : DisputeCase) (body : ExecutionBody)
    (chosen : ExecutionHash) (now : Time) : OpsM Reply := do
  saveDispute { dispute with status := .executionPending, updatedAt := now }
  writeAudit "dispute" dispute.id "dispute.execution_requested" (actorId auth "operator")
    (some [("status", .str dispute.status.text)])
    (some [("status", .str "execution_pending"), ("txHash", .str chosen.txHash),
      ("txType", .str body.txType.text), ("synthetic", .bool chosen.synthetic)]) none
  emitEvent "dispute.execution_requested" "dispute" dispute.id
    [("txHash", .str chosen.txHash), ("txType", .str body.txType.text),
      ("network", .str body.network.text), ("synthetic", .bool chosen.synthetic)]
  notifyParties dispute.contractId "dispute.execution_requested"
    [("disputeId", .str dispute.id), ("contractId", .str dispute.contractId),
      ("txHash", .str chosen.txHash), ("txType", .str body.txType.text),
      ("synthetic", .bool chosen.synthetic)]
  let requestId ← randomId "exec"
  return ⟨202, [("requestId", .str requestId), ("status", .str "execution_pending"),
    ("txHash", .str chosen.txHash), ("synthetic", .bool chosen.synthetic)]⟩

/-- `POST /v1/disputes/:disputeId/execution`. -/
def execution (config : Config) (auth : Option BluesafeAuth) (disputeId : String)
    (body : ExecutionBody) : OpsM Reply :=
  writeRoute config reviewerRoles auth <|
  withDispute config auth disputeId "Not allowed to request execution for this dispute"
    fun dispute => do
    if dispute.status = .decided then
      match ← chooseExecutionHash config dispute body with
      | .error reply => return reply
      | .ok chosen =>
        let now ← nowIso
        match ← trackExecution config dispute body chosen with
        | some reply => return reply
        | none => acceptExecution auth dispute body chosen now
    else return .error 409 "B2_VALIDATION_ERROR" "Dispute must be decided first"

end Bluesafe.Ops
