import Bluesafe.Api.AuditCsv
import Bluesafe.Api.Query
import Bluesafe.Ops.Contracts
import Bluesafe.Ops.Xrpl
import Bluesafe.Notify.Workers

/-!
# The `GET` handlers of `/v1`

All handlers that `index.ts` registers with `app.get` under `/v1`. Each one is a role guard
followed by its body; a body that takes a query first turns it into a request to the
repository (`Bluesafe.Api.Query`). `GET /v1/xrpl/transactions/:txHash` is the handler of
`Bluesafe.Ops`.

The duration of the audit lists is recorded in process-local metrics, which are left out
together with the clock readings they take.
-/

namespace Bluesafe.Api

open Bluesafe.Ops (Time Json JsonObject Contract DisputeCase XrplTransaction AuditLog
  EventEnvelope BluesafeAuth BluesafeRole requireRoles allRoles reviewerRoles canAccessContract
  actorId writeAudit trim truthy sliceTo startsWith)
open Bluesafe.Notify (NotificationEvent NotificationOutboxRecord OutboxStatus isoString stringify
  utf16Units toLowerCase)

/-! ## JSON forms -/

def disputeJson (d : DisputeCase) : Value :=
  .obj ([("id", .str d.id), ("contractId", .str d.contractId), ("raisedBy", .str d.raisedBy.text),
      ("reasonCode", .str d.reasonCode), ("status", .str d.status.text),
      ("evidenceBundle", .arr (d.evidenceBundle.map .str)), ("createdAt", .time d.createdAt),
      ("updatedAt", .time d.updatedAt)]
    ++ Value.opt "reviewDeadlineAt" (d.reviewDeadlineAt.map .time)
    ++ Value.opt "escalatedAt" (d.escalatedAt.map .time))

def xrplTxJson (t : XrplTransaction) : Value :=
  .obj ([("id", .str t.id), ("txHash", .str t.txHash), ("txType", .str t.txType)]
    ++ Value.opt "account" (t.account.map .str) ++ Value.opt "disputeId" (t.disputeId.map .str)
    ++ [("network", .str t.network.text), ("trackingStatus", .str t.trackingStatus.text),
      ("validated", .bool t.validated)]
    ++ Value.opt "ledgerIndex" (t.ledgerIndex.map .num)
    ++ Value.opt "resultCode" (t.resultCode.map .str)
    ++ Value.opt "outcomeClass" (t.outcomeClass.map fun o => .str o.text)
    ++ [("retries", .num t.retries), ("lastCheckedAt", .time t.lastCheckedAt)]
    ++ Value.opt "escrowOwner" (t.escrowOwner.map .str)
    ++ Value.opt "escrowDestination" (t.escrowDestination.map .str)
    ++ Value.opt "escrowOfferSequence" (t.escrowOfferSequence.map .num)
    ++ Value.opt "escrowSubmitterAccount" (t.escrowSubmitterAccount.map .str))

def notificationJson (n : NotificationEvent) : Value :=
  .obj ([("id", .str n.id), ("eventType", .str n.eventType), ("recipientId", .str n.recipientId),
      ("channel", .str n.channel.text), ("status", .str (notificationStatusText n.status)),
      ("payload", .ofObject n.payload), ("createdAt", .time n.createdAt)]
    ++ Value.opt "updatedAt" (n.updatedAt.map .time)
    ++ Value.opt "attemptCount" (n.attemptCount.map fun k => .num k)
    ++ Value.opt "nextAttemptAt" (n.nextAttemptAt.map .time)
    ++ Value.opt "lastError" (n.lastError.map .str)
    ++ if n.deadLetter then [("deadLetter", .bool true)] else [])

def outboxStatusText : OutboxStatus → String
  | .pending => "pending"
  | .processing => "processing"
  | .dispatched => "dispatched"
  | .dead => "dead"

def outboxJson (r : NotificationOutboxRecord) : Value :=
  .obj ([("id", .str r.id), ("idempotencyKey", .str r.idempotencyKey),
      ("eventType", .str r.eventType), ("recipientId", .str r.recipientId),
      ("channel", .str r.channel.text), ("payload", .ofObject r.payload),
      ("status", .str (outboxStatusText r.status)), ("attempts", .num r.attempts)]
    ++ Value.opt "lastError" (r.lastError.map .str)
    ++ [("createdAt", .time r.createdAt), ("updatedAt", .time r.updatedAt)]
    ++ Value.opt "processingStartedAt" (r.processingStartedAt.map .time)
    ++ Value.opt "dispatchedNotificationId" (r.dispatchedNotificationId.map .str))

def eventJson (e : EventEnvelope) : Value :=
  .obj [("eventId", .str e.eventId), ("traceId", .str e.traceId),
    ("occurredAt", .time e.occurredAt), ("eventType", .str e.eventType),
    ("entityType", .str e.entityType), ("entityId", .str e.entityId),
    ("payload", .ofObject e.payload)]

/-- The fields of an audit entry, in the order in which `writeAudit` puts them. -/
def auditFields (log : AuditLog) : JsonObject :=
  [("id", .str log.id), ("createdAt", .time log.createdAt), ("entityType", .str log.entityType),
    ("entityId", .str log.entityId), ("action", .str log.action), ("actorId", .str log.actorId)]
    ++ JsonObject.opt "before" (log.before.map .obj)
    ++ JsonObject.opt "after" (log.after.map .obj)
    ++ JsonObject.opt "metadata" (log.metadata.map .obj)

def countsJson (counts : List (String × Nat)) : Value :=
  .obj (counts.map fun e => (e.1, .num e.2))

def OperatorStatsSummary.json (s : OperatorStatsSummary) : Value :=
  .obj [("contractsByStatus", countsJson s.contractsByStatus),
    ("disputesByStatus", countsJson s.disputesByStatus),
    ("xrplByTracking", countsJson s.xrplByTracking),
    ("notificationsByStatus", countsJson s.notificationsByStatus),
    ("evidencesTotal", .num s.evidencesTotal),
    ("settlementsByStatus", countsJson s.settlementsByStatus)]

def ReportSummary.json (r : ReportSummary) : Value :=
  .obj [("generatedAt", .time r.generatedAt),
    ("window", .obj (Value.opt "from" (r.window.fromIso.map .str)
      ++ Value.opt "to" (r.window.toIso.map .str)
      ++ Value.opt "tenantId" (r.window.tenantId.map .str)
      ++ Value.opt "landlordId" (r.window.landlordId.map .str))),
    ("global", r.global.json),
    ("scoped", .obj [("contractsByStatus", countsJson r.scopedBucket.contractsByStatus),
      ("disputesByStatus", countsJson r.scopedBucket.disputesByStatus),
      ("settlementsByStatus", countsJson r.scopedBucket.settlementsByStatus),
      ("xrplByTracking", countsJson r.scopedBucket.xrplByTracking),
      ("auditsCount", .num r.scopedBucket.auditsCount)])]

/-! ## Guards -/

/-- A route behind `requireRoles`. -/
def route (config : Config) (allowed : List BluesafeRole) (auth : Option BluesafeAuth)
    (handler : ApiM Response) : ApiM Response :=
  match requireRoles config.ops allowed auth with
  | some reply => return .ofReply reply
  | none => handler

/-- The rest of a handler whose query was accepted. -/
def withRequest {α : Type} (request : Except Response α) (handler : α → ApiM Response) :
    ApiM Response :=
  match request with
  | .error reply => return reply
  | .ok a => handler a

def notFound (message : String) : Response := .error 404 "B2_NOT_FOUND" message
def forbidden (message : String) : Response := .error 403 "B2_FORBIDDEN" message

/-- The contract exists and the caller may see it. -/
def contractAccessible (config : Config) (auth : Option BluesafeAuth) (contractId : String) :
    ApiM Bool := do
  match ← ofOps (Ops.getContract contractId) with
  | none => return false
  | some contract => return canAccessContract config.ops auth contract

/-- `canAccessSettlement`. -/
def canAccessSettlement (config : Config) (auth : Option BluesafeAuth) (s : SettlementRecord) :
    ApiM Bool :=
  contractAccessible config auth s.contractId

section Handlers

variable (config : Config) (auth : Option BluesafeAuth)

/-! ## Contracts -/

/-- A party sees its own contracts only, whatever its query asks for. -/
def narrowToCaller (f : ContractListFilter) : ContractListFilter :=
  if config.ops.authEnabled then
    match auth with
    | none => f
    | some a =>
      match a.role with
      | .tenant => { f with tenantId := a.tenantId }
      | .landlord => { f with landlordId := a.landlordId }
      | _ => f
  else f

/-- `GET /v1/contracts`. -/
def listContracts (q : Query) : ApiM Response :=
  route config allRoles auth <|
  withRequest (contractListRequest config.runtime q) fun (f, p) => do
    let page ← invoke (.listContractsPage (narrowToCaller config auth f) p)
    return page.json fun c => .ofObject c.json

/-- `GET /v1/contracts/:contractId`. -/
def readContract (contractId : String) : ApiM Response :=
  route config allRoles auth do
    match ← ofOps (Ops.getContract contractId) with
    | none => return notFound "Contract not found"
    | some contract =>
      if canAccessContract config.ops auth contract then
        return .json 200 (.ofObject contract.json)
      else return forbidden "Not allowed to view this contract"

/-! ## Evidence -/

/-- The opening of both evidence handlers: read the file, check the access. -/
def withEvidence (evidenceId message : String) (handler : EvidenceFile → ApiM Response) :
    ApiM Response := do
  match ← invoke (.getEvidence evidenceId) with
  | none => return notFound "Evidence not found"
  | some evidence =>
    if ← contractAccessible config auth evidence.contractId then handler evidence
    else return forbidden message

/-- `GET /v1/evidences/:evidenceId`. -/
def readEvidence (evidenceId : String) : ApiM Response :=
  route config allRoles auth <|
  withEvidence config auth evidenceId "Not allowed to read this evidence" fun evidence => do
    ofOps (writeAudit "evidence" evidence.id "evidence.read" "operator_local" none none none)
    return .json 200 evidence.json

/-- The stored bytes of a file, or the reply when the gateway fails. -/
def fetchEvidence (evidence : EvidenceFile) : ApiM (Except Response (List UInt8)) :=
  match evidence.storageProvider with
  | .mock => return .ok (config.runtime.utf8
      ("mock-evidence:" ++ evidence.id ++ ":" ++ sliceTo 48 evidence.sha256))
  | .pinata =>
    tryCatch (.ok <$> invoke (.fetchEvidenceBytesFromPublicGateway evidence.cid)) fun e =>
      return .error (.error 502 "B2_EVIDENCE_FETCH_FAILED" e)

/-- The data key, or the reply when the key service fails. -/
def resolveDataKey : ApiM (Except Response (Option (List UInt8))) :=
  tryCatch (.ok <$> invoke .resolveEvidenceDataKey) fun e =>
    return .error (.error 500 "B2_CONFIG_ERROR" e)

/-- The content of a file that was fetched: decrypted if it was stored encrypted. -/
def decryptEvidence (evidence : EvidenceFile) (body : List UInt8) :
    ApiM (Except Response (List UInt8)) := do
  if evidence.encrypted then
    match ← resolveDataKey with
    | .error reply => return .error reply
    | .ok none => return .error (.error 500 "B2_CONFIG_ERROR"
        "EVIDENCE_ENCRYPTION_KEY, KMS stub DEK, or KMS HTTP unwrap required to decrypt")
    | .ok (some key) =>
      match config.runtime.decryptEvidenceBuffer body key with
      | .ok plain => return .ok plain
      | .error e => return .error (.error 502 "B2_EVIDENCE_DECRYPT_FAILED" e)
  else return .ok body

/-- `GET /v1/evidences/:evidenceId/content`. -/
def readEvidenceContent (evidenceId : String) : ApiM Response :=
  route config allRoles auth <|
  withEvidence config auth evidenceId "Not allowed to download this evidence" fun evidence => do
    match ← fetchEvidence config evidence with
    | .error reply => return reply
    | .ok stored =>
      match ← decryptEvidence config evidence stored with
      | .error reply => return reply
      | .ok body =>
        if evidence.storageProvider ≠ .mock ∧ config.runtime.sha256 body ≠ evidence.sha256 then
          return .error 502 "B2_EVIDENCE_INTEGRITY"
            "Downloaded content sha256 does not match stored digest"
        else
          ofOps (writeAudit "evidence" evidence.id "evidence.content_downloaded"
            (actorId auth "operator_local") none none
            (some [("storageProvider", .str evidence.storageProvider.text)]))
          return ⟨200, .bytes ((truthy (some evidence.mimeType)).getD "application/octet-stream")
            (config.runtime.encodeURIComponent evidenceId) body⟩

/-- `GET /v1/operator/evidences/retention-due`. -/
def retentionDue : ApiM Response :=
  route config reviewerRoles auth do
    let now ← ofOps Ops.nowIso
    let past ← invoke (.listEvidencesPastRetention now)
    return .ok [("count", .num past.length), ("items", .arr (past.map fun e =>
      .obj ([("id", .str e.id), ("contractId", .str e.contractId)]
        ++ Value.opt "disputeId" (e.disputeId.map .str)
        ++ Value.opt "retainUntil" (e.retainUntil.map .str)
        ++ [("retentionClass", .str e.retentionClass.text)]
        ++ Value.opt "jurisdiction" (e.jurisdiction.map .str)
        ++ Value.opt "legalHoldUntil" (e.legalHoldUntil.map .str)
        ++ [("category", .str e.category.text), ("createdAt", .time e.createdAt)])))]

/-! ## Disputes -/

/-- The opening of the handlers of one dispute. -/
def withDispute (disputeId : String) (handler : DisputeCase → ApiM Response) : ApiM Response := do
  match ← ofOps (Ops.getDispute disputeId) with
  | none => return notFound "Dispute not found"
  | some dispute =>
    if ← contractAccessible config auth dispute.contractId then handler dispute
    else return forbidden "Not allowed to read this dispute"

/-- `GET /v1/disputes`. -/
def listDisputes (q : Query) : ApiM Response :=
  route config allRoles auth <|
  withRequest (disputeListRequest config.runtime q) fun (f, p) => do
    let page ← invoke (.listDisputesPage f p)
    return page.json disputeJson

/-- `GET /v1/disputes/:disputeId`. -/
def readDispute (disputeId : String) : ApiM Response :=
  route config allRoles auth <|
  withDispute config auth disputeId fun dispute => return .json 200 (disputeJson dispute)

/-- `GET /v1/disputes/:disputeId/review-state`. -/
def reviewState (disputeId : String) : ApiM Response :=
  route config allRoles auth <|
  withDispute config auth disputeId fun dispute => do
    let votes ← invoke (.listDisputeVerifierVotes disputeId)
    let tally := countBy (votes.map fun v => v.recommendation.text)
    let maxCount := tally.foldl (fun m e => max m e.2) 0
    return .ok ([("disputeId", .str disputeId), ("status", .str dispute.status.text)]
      ++ Value.opt "reviewDeadlineAt" (dispute.reviewDeadlineAt.map .time)
      ++ Value.opt "escalatedAt" (dispute.escalatedAt.map .time)
      ++ [("votes", .arr (votes.map fun v => .obj [("verifierId", .str v.verifierId),
          ("recommendation", .str v.recommendation.text), ("occurredAt", .time v.createdAt),
          ("eventId", .str v.id)])),
        ("tally", countsJson tally), ("quorumMet", .bool (config.verifierQuorumK ≤ maxCount)),
        ("quorumK", .num config.verifierQuorumK)])

/-- `GET /v1/operator/dispute-verifier-registry`. -/
def verifierRegistry : ApiM Response :=
  route config reviewerRoles auth do
    let items ← invoke .listDisputeVerifierRegistry
    return .ok [("count", .num items.length), ("items", .arr (items.map RegistryEntry.json))]

/-! ## Tracked transactions -/

/-- `GET /v1/xrpl/transactions`. -/
def listXrplTransactions (q : Query) : ApiM Response :=
  route config allRoles auth <|
  withRequest (xrplTxListRequest config.runtime q) fun (f, p) => do
    let page ← invoke (.listXrplTxsPage f p)
    return page.json xrplTxJson

/-- `String(value)` of a query parameter. -/
def QueryValue.toText : QueryValue → String
  | .text s => s
  | .list ss => String.intercalate "," ss

/-- `String(req.query.refresh || "false").toLowerCase() === "true"`. -/
def shouldRefresh (q : Query) : Bool :=
  match q "refresh" with
  | none => false
  | some v => toLowerCase v.toText = "true"

/-- `GET /v1/xrpl/transactions/:txHash`. -/
def readXrplTransaction (txHash : String) (q : Query) : ApiM Response := do
  let reply ← ofOps (Ops.getTransaction config.ops auth txHash (shouldRefresh q))
  return .ofReply reply

/-- The reply of `accountEscrows` when the ledger answers. -/
def escrowsReply (account : String) (page : AccountEscrowsPage) : Response :=
  .ok ([("account", .str account), ("ledgerIndex", .str "validated")]
    ++ Value.opt "resolvedLedgerIndex" (page.ledgerIndex.map .num)
    ++ Value.opt "ledgerHash" (page.ledgerHash.map .str)
    ++ [("count", .num page.escrows.length), ("escrows", .arr page.escrows)]
    ++ Value.opt "nextMarker" page.nextMarker)

/-- `GET /v1/xrpl/accounts/:account/escrows`. -/
def accountEscrows (accountParam : String) (q : Query) : ApiM Response :=
  route config allRoles auth do
    let account := trim accountParam
    let length := (utf16Units account).length
    if length < 25 ∨ length > 50 ∨ startsWith account "r" = false then
      return validationReply "Invalid XRPL classic address"
    else
      withRequest (accountEscrowsRequest config.runtime q) fun (limit, marker) => do
        if config.ops.xrplEnabled then
          tryCatch (do
            let page ← invoke (.getAccountEscrowsPage account limit
              (parseRippledMarker config.runtime marker))
            ofOps (writeAudit "xrpl_account" account "xrpl.account_objects_escrow"
              "operator_local" none none (some ([("count", .num page.escrows.length)]
                ++ JsonObject.opt "ledgerIndex" (page.ledgerIndex.map .num))))
            return escrowsReply account page) fun e =>
              return .error 502 "B2_XRPL_UPSTREAM_ERROR" e
        else
          return validationReply "Live XRPL mode is disabled. Set XRPL_WSS_URL to enable."

/-! ## Notifications and events -/

/-- `GET /v1/operator/notifications/outbox`. -/
def listOutbox (q : Query) : ApiM Response :=
  route config reviewerRoles auth <|
  withRequest (outboxListRequest config.runtime q) fun (status, p) => do
    let page ← invoke (.listNotificationOutboxPage status p)
    return .ok [("total", .num page.total), ("limit", .num page.limit),
      ("offset", .num page.offset), ("items", .arr (page.items.map outboxJson))]

/-- `GET /v1/notifications/:notificationId`. -/
def readNotification (notificationId : String) : ApiM Response :=
  route config allRoles auth do
    match ← invoke (.getNotification notificationId) with
    | none => return notFound "Notification not found"
    | some n => return .json 200 (notificationJson n)

/-- `GET /v1/events`. -/
def listEvents (q : Query) : ApiM Response :=
  route config allRoles auth <|
  withRequest (eventListRequest q) fun f => do
    let items ← invoke (.listEvents f)
    return .ok [("count", .num items.length), ("items", .arr (items.map eventJson))]

/-! ## Settlements -/

/-- The items of a page that the caller may see. -/
def accessibleSettlements : List SettlementRecord → ApiM (List SettlementRecord)
  | [] => return []
  | s :: rest => do
    let accessible ← canAccessSettlement config auth s
    let others ← accessibleSettlements rest
    return if accessible then s :: others else others

/-- `GET /v1/settlements`. -/
def listSettlements (q : Query) : ApiM Response :=
  route config allRoles auth <|
  withRequest (settlementListRequest config.runtime q) fun (f, p) => do
    let page ← invoke (.listSettlementsPage f p)
    let accessible ← accessibleSettlements config auth page.items
    return .ok [("count", .num accessible.length), ("total", .num page.total),
      ("limit", .num page.limit), ("offset", .num page.offset),
      ("items", .arr (accessible.map SettlementRecord.json))]

/-- `GET /v1/settlements/:settlementId`. -/
def readSettlement (settlementId : String) : ApiM Response :=
  route config allRoles auth do
    match ← invoke (.getSettlement settlementId) with
    | none => return notFound "Settlement not found"
    | some s =>
      if ← canAccessSettlement config auth s then return .json 200 s.json
      else return forbidden "Not allowed to read this settlement"

/-! ## Operator console -/

/-- `GET /v1/operator/stats/summary`. -/
def statsSummary : ApiM Response :=
  route config reviewerRoles auth do
    let summary ← invoke .getOperatorStatsSummary
    return .json 200 summary.json

/-- The warnings of `getExecutionPolicySnapshot`. -/
def executionPolicyWarnings : List String :=
  let e := config.ops.execution
  let effective := e.syntheticExecutionHashEnabled && decide (e.deploymentTier = .dev)
  let seed := (truthy (some (trim e.submitSeed))).isSome
  (if effective then
    ["Synthetic execution txHash placeholder path is on (dev tier). For staging/production use " ++
      "BLUESAFE_EXECUTION_DEPLOYMENT_TIER=strict and pass ledger txHash or enable execution " ++
      "submit — docs/adr/0011-v8-execution-keys-synthetic-hash.md"] else [])
    ++ (if e.deploymentTier = .strict ∧ e.syntheticExecutionHashEnabled = true ∧ effective = false
      then ["BLUESAFE_EXECUTION_DEPLOYMENT_TIER=strict disables the synthetic hash path " ++
        "regardless of BLUESAFE_SYNTHETIC_EXECUTION_HASH."] else [])
    ++ (if e.submitEnabled && !seed then
      ["BLUESAFE_EXECUTION_SUBMIT_ENABLED=1 but BLUESAFE_EXECUTION_SUBMIT_SEED is empty."] else [])
    ++ (if e.submitEnabled && seed && !config.ops.xrplEnabled then
      ["Execution submit is configured but XRPL_WSS_URL is not set (rippled not live)."] else [])

/-- `GET /v1/operator/runtime/execution-policy`. -/
def executionPolicy : ApiM Response :=
  route config reviewerRoles auth do
    let e := config.ops.execution
    return .ok [
      ("deploymentTier", .str (if e.deploymentTier = .dev then "dev" else "strict")),
      ("syntheticExecutionHashEnvEnabled", .bool e.syntheticExecutionHashEnabled),
      ("syntheticExecutionPathEffective",
        .bool (e.syntheticExecutionHashEnabled && decide (e.deploymentTier = .dev))),
      ("submitEnabled", .bool e.submitEnabled),
      ("submitSeedConfigured", .bool (truthy (some (trim e.submitSeed))).isSome),
      ("xrplLive", .bool config.ops.xrplEnabled),
      ("conditionalEscrowSupported", .bool false),
      ("conditionalEscrowAdr", .str "docs/adr/0013-v8-conditional-escrow-not-supported.md"),
      ("warnings", .arr ((executionPolicyWarnings config).map .str))]

/-- `GET /v1/operator/runtime/xrpl-operations`. -/
def xrplOperations : ApiM Response :=
  route config reviewerRoles auth do
    return .ok [("topologyProfile", .str config.topologyProfile.text),
      ("rippledWssConfigured", .bool (truthy (some (trim config.wssUrl))).isSome),
      ("drRunbookUrl", Value.orNull ((truthy (some config.drRunbookUrl)).map .str)),
      ("conditionalEscrowSupported", .bool false),
      ("conditionalEscrowNote", .str ("BlueSafe Backend2 MVP does not implement EscrowCreate " ++
        "Condition/Fulfillment paths; see docs/adr/0013-v8-conditional-escrow-not-supported.md."))]

/-- `GET /v1/operator/runtime/auth-providers`. -/
def authProviders : ApiM Response :=
  route config reviewerRoles auth do
    return .ok [("headerRbac", .bool true),
      ("operatorConsoleScopesEnabled",
        .bool (config.ops.authEnabled && config.operatorConsoleScopesEnabled)),
      ("operatorScopesHeader", .str "X-Bluesafe-Operator-Scopes"),
      ("operatorScopesHint", .str ("When BLUESAFE_OPERATOR_CONSOLE_SCOPES=1, operator-only " ++
        "routes may require scope tokens (export, purge, registry, sla, outbox, evidence, " ++
        "dispatch, settlements, disputes, or all). Omit header for full operator console access.")),
      ("oidcIssuerConfigured", .bool (truthy (some config.oidcIssuerUrl)).isSome),
      ("oidcIssuerUrl", Value.orNull ((truthy (some config.oidcIssuerUrl)).map .str))]

/-! ## Reports -/

/-- `GET /v1/reports/summary`. -/
def reportsSummary (q : Query) : ApiM Response :=
  route config reviewerRoles auth <|
  withRequest (reportSummaryRequest config.runtime q) fun p => do
    let summary ← invoke (.getReportsSummary p)
    return .json 200 summary.json

/-- The export loop: pages of at most `pageSize` rows until `remaining` rows are written, a
    page is empty, or the end of the list is reached. -/
def exportAudits (f : AuditFilter) (pageSize remaining offset : Nat) : ApiM (List AuditLog) := do
  if _h : remaining = 0 then return []
  else
    let page ← invoke (.listAuditsPage f ⟨min pageSize remaining, offset⟩)
    match page.items with
    | [] => return []
    | log :: logs =>
      let written := (log :: logs).take remaining
      let next := offset + (logs.length + 1)
      if next ≥ page.total then return written
      else
        let rest ← exportAudits f pageSize (remaining - (logs.length + 1)) next
        return written ++ rest
termination_by remaining
decreasing_by omega

/-- The fields of an audit entry as texts. -/
def auditRecord (log : AuditLog) : AuditRecord JsonObject where
  id := log.id
  entityType := log.entityType
  entityId := log.entityId
  action := log.action
  actorId := log.actorId
  createdAt := isoString log.createdAt
  before := log.before
  after := log.after
  metadata := log.metadata

/-- `JSON.stringify` of an object. -/
def stringifyObject (fields : JsonObject) : String := String.ofList (stringify (.obj fields))

/-- Both audit exports; `render` gives the texts that are written for the rows. -/
def exportReport (q : Query) (contentType fileName : String)
    (render : List AuditLog → List String) : ApiM Response :=
  route config reviewerRoles auth <|
  withRequest (reportAuditsRequest config.runtime q) fun (f, maxExport) => do
    let rows ← exportAudits f (min 500 maxExport) maxExport 0
    return ⟨200, .text contentType fileName (render rows)⟩

/-- `GET /v1/reports/audits.ndjson`. -/
def auditsNdjson (q : Query) : ApiM Response :=
  exportReport config auth q "application/x-ndjson; charset=utf-8" "audits-export.ndjson"
    fun rows => rows.map fun log => stringifyObject (auditFields log) ++ "\n"

/-- `GET /v1/reports/audits.csv`; the text starts with a byte order mark. -/
def auditsCsv (q : Query) : ApiM Response :=
  exportReport config auth q "text/csv; charset=utf-8" "audits-export.csv" fun rows =>
    String.singleton (Char.ofNat 0xFEFF) :: auditCsvChunks stringifyObject (rows.map auditRecord)

/-- `GET /v1/reports/export-jobs/:jobId`. -/
def readExportJob (jobId : String) : ApiM Response :=
  route config reviewerRoles auth do
    match ← invoke (.getExportJob jobId) with
    | none => return notFound "Export job not found"
    | some j =>
      let result := if j.status = .completed then j.resultNdjson else none
      return .ok ([("jobId", .str j.id), ("kind", .str "audits_ndjson"),
          ("status", .str j.status.text), ("createdAt", .time j.createdAt),
          ("updatedAt", .time j.updatedAt), ("maxExport", .num j.maxExport),
          ("filter", j.filter.json)]
        ++ Value.opt "error" (j.error.map .str) ++ Value.opt "resultNdjson" (result.map .str)
        ++ Value.opt "resultBytes" ((truthy result).map fun s =>
          .num (config.runtime.utf8 s).length))

/-- `signExportArtifactToken`. -/
def signExportArtifactToken (rt : Runtime) (secret jobId : String) (exp : Nat) : String :=
  let payload := rt.base64url
    (String.ofList (stringify (.obj [("jobId", .str jobId), ("exp", .num exp)])))
  payload ++ "." ++ rt.hmac secret payload

/-- `GET /v1/reports/export-jobs/:jobId/artifact-url`. -/
def artifactUrl (jobId : String) : ApiM Response :=
  route config reviewerRoles auth do
    match truthy (some config.artifactSigningSecret) with
    | none =>
      return .error 503 "B2_UNAVAILABLE"
        "Export artifact signing is not configured (set BLUESAFE_EXPORT_ARTIFACT_SECRET)"
    | some secret =>
      match ← invoke (.getExportJob jobId) with
      | none => return notFound "Export job not found"
      | some j =>
        if j.status = .completed then
          let now ← ofOps Ops.dateNow
          let exp := now / 1000 + config.artifactUrlTtlSec
          let token := signExportArtifactToken config.runtime secret jobId exp
          return .ok [("jobId", .str jobId),
            ("downloadPath",
              .str ("/export/artifacts?token=" ++ config.runtime.encodeURIComponent token)),
            ("expiresAt", .time (exp * 1000))]
        else return .error 409 "B2_VALIDATION_ERROR" "Export job is not completed yet"

/-- A list of audit entries. -/
def auditsJson (logs : List AuditLog) : List (String × Value) :=
  [("count", .num logs.length), ("items", .arr (logs.map fun log => .ofObject (auditFields log)))]

/-- The keyset page of `GET /v1/audits`. -/
def auditsKeyset (f : AuditFilter) (limit : Nat) (cursor : Option String) : ApiM Response := do
  if cursor.any fun raw => (decodeAuditCursor config.runtime raw).isNone then
    return validationReply "cursor is invalid"
  else
    match ← invoke (.listAuditsAfterCursor f limit cursor) with
    | none => return validationReply "cursor is invalid"
    | some (items, nextCursor) =>
      return .ok (auditsJson items ++ [("nextCursor", Value.orNull (nextCursor.map .str))])

/-- `GET /v1/audits`: a keyset page when `limit` or `cursor` is given, else the whole list. -/
def listAudits (q : Query) : ApiM Response :=
  route config reviewerRoles auth <|
  withRequest (auditsListRequest config.runtime q) fun (f, limit, cursor) => do
    if limit.isSome || cursor.isSome then
      auditsKeyset config f (min 2000 (max 1 (limit.getD 100))) cursor
    else
      let logs ← invoke (.listAudits f)
      return .ok (auditsJson logs)

end Handlers

end Bluesafe.Api
