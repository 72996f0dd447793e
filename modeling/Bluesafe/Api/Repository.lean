import Bluesafe.Api.Types
import Bluesafe.Async.Sum
import Bluesafe.ForStd.Table
import Mathlib.Data.List.Sort

/-!
# The calls of the `/v1` reads and of the ledger stream

The interface of this part of the backend is that of `Bluesafe.Ops` together with the list
calls, the reads and writes of the other tables, the touch of the settlements, the three
remote reads (the evidence gateway, the key service and `account_objects`) and the two calls
of the file storage. The list calls have the semantics of `MemoryRepository`: filter the
rows in the order of their insertion, sort, cut the page. A bound on a timestamp is compared
with its ISO text, by code units.

`Store` adds the other tables to the store of `Bluesafe.Ops`. A call of `Bluesafe.Ops` sees
and changes only its own part (`serve`).
-/

namespace Bluesafe.Api

open Bluesafe.Ops (Time Contract DisputeCase XrplTransaction AuditLog EventEnvelope truthy
  BluesafeAuth)
open Bluesafe.Notify (NotificationEvent NotificationOutboxRecord OutboxStatus NotificationStatus
  isoString utf16Units unitsLe stringify)

/-! ## The store -/

/-- What the repository keeps. `ops.evidences` holds the two columns of the evidence rows
    that filing a dispute reads; `votes` are in the order in which they were cast. -/
structure Store where
  ops : Ops.Store
  settlements : Table SettlementRecord.id
  evidenceFiles : Table EvidenceFile.id
  votes : List VerifierVote
  registry : Table RegistryEntry.verifierId
  notifications : Table NotificationEvent.id
  outbox : Table NotificationOutboxRecord.id
  exportJobs : Table ExportJob.id

def Store.empty : Store where
  ops := .empty
  settlements := .empty
  evidenceFiles := .empty
  votes := []
  registry := .empty
  notifications := .empty
  outbox := .empty
  exportJobs := .empty

/-! ## Filters -/

/-- `a < b` on strings. -/
def textLt (a b : String) : Bool := !unitsLe (utf16Units b) (utf16Units a)

/-- The timestamp is not before the first bound and not after the second. -/
def inWindow (fromIso toIso : Option String) (t : Time) : Bool :=
  (truthy fromIso).all (fun lo => !textLt (isoString t) lo) &&
    (truthy toIso).all (fun hi => !textLt hi (isoString t))

/-- A filter field that is absent or empty admits every value. -/
def matchesText (wanted : Option String) (value : String) : Bool :=
  (truthy wanted).all fun w => decide (value = w)

/-- A filter field that is absent admits every value. -/
def matchesOpt {α : Type} [DecidableEq α] (wanted : Option α) (value : α) : Bool :=
  wanted.all fun w => decide (value = w)

def ContractListFilter.admits (f : ContractListFilter) (c : Contract) : Bool :=
  matchesOpt f.status c.status && matchesText f.tenantId c.tenantId &&
    matchesText f.landlordId c.landlordId && inWindow f.updatedFrom f.updatedTo c.updatedAt

def DisputeListFilter.admits (f : DisputeListFilter) (d : DisputeCase) : Bool :=
  matchesText f.contractId d.contractId && matchesOpt f.status d.status &&
    inWindow f.updatedFrom f.updatedTo d.updatedAt

def XrplTxListFilter.admits (f : XrplTxListFilter) (tx : XrplTransaction) : Bool :=
  (truthy f.account).all (fun a => decide (tx.account = some a)) &&
    matchesText f.trackingStatus tx.trackingStatus.text &&
    matchesOpt f.validated tx.validated && matchesOpt f.network tx.network

def SettlementListFilter.admits (f : SettlementListFilter) (s : SettlementRecord) : Bool :=
  matchesText f.contractId s.contractId && matchesOpt f.status s.status &&
    matchesOpt f.periodYear s.periodYear && matchesOpt f.periodMonth s.periodMonth

def EventFilter.admits (f : EventFilter) (e : EventEnvelope) : Bool :=
  matchesText f.entityType e.entityType && matchesText f.entityId e.entityId &&
    matchesText f.eventType e.eventType

def AuditFilter.admits (f : AuditFilter) (log : AuditLog) : Bool :=
  matchesText f.entityType log.entityType && matchesText f.entityId log.entityId &&
    inWindow f.fromIso f.toIso log.createdAt

/-! ## List calls -/

/-- `listContractsPage`: newest update first. -/
def Store.contractsPage (s : Store) (f : ContractListFilter) (p : ListParams) : Page Contract :=
  .of ((s.ops.contracts.rows.filter f.admits).insertionSort
    fun a b => b.updatedAt ≤ a.updatedAt) p

/-- `listDisputesPage`: newest update first. -/
def Store.disputesPage (s : Store) (f : DisputeListFilter) (p : ListParams) : Page DisputeCase :=
  .of ((s.ops.disputes.rows.filter f.admits).insertionSort
    fun a b => b.updatedAt ≤ a.updatedAt) p

/-- `listXrplTxsPage`: last checked first. -/
def Store.xrplTxsPage (s : Store) (f : XrplTxListFilter) (p : ListParams) :
    Page XrplTransaction :=
  .of ((s.ops.xrplTxs.rows.filter f.admits).insertionSort
    fun a b => b.lastCheckedAt ≤ a.lastCheckedAt) p

/-- The order of `listSettlementsPage`: newest period first, then by contract. -/
def settlementLe (rt : Runtime) (a b : SettlementRecord) : Bool :=
  if a.periodYear ≠ b.periodYear then decide (b.periodYear < a.periodYear)
  else if a.periodMonth ≠ b.periodMonth then decide (b.periodMonth < a.periodMonth)
  else rt.localeLe a.contractId b.contractId

/-- `listSettlementsPage`. -/
def Store.settlementsPage (s : Store) (rt : Runtime) (f : SettlementListFilter) (p : ListParams) :
    Page SettlementRecord :=
  .of ((s.settlements.rows.filter f.admits).insertionSort fun a b => settlementLe rt a b = true) p

/-- `listNotificationOutboxPage`: newest first. -/
def Store.outboxPage (s : Store) (status : Option OutboxStatus) (p : ListParams) :
    Page NotificationOutboxRecord :=
  .of ((s.outbox.rows.filter fun r => matchesOpt status r.status).insertionSort
    fun a b => b.createdAt ≤ a.createdAt) p

/-- `listEvents`: oldest first. -/
def Store.listEvents (s : Store) (f : EventFilter) : List EventEnvelope :=
  s.ops.events.reverse.filter f.admits

/-- The order of the audit lists: by the text of the time, then by identifier. -/
def auditLe (rt : Runtime) (a b : AuditLog) : Bool :=
  let ta := isoString a.createdAt
  let tb := isoString b.createdAt
  if rt.localeLe ta tb && rt.localeLe tb ta then rt.localeLe a.id b.id else rt.localeLe ta tb

/-- `listAudits`: oldest first. -/
def Store.listAudits (s : Store) (rt : Runtime) (f : AuditFilter) : List AuditLog :=
  (s.ops.audits.reverse.filter f.admits).insertionSort fun a b => auditLe rt a b = true

/-- A string field of a parsed object that is not empty. -/
def stringField (fields : List (String × Value)) (name : String) : Option String :=
  match fields.lookup name with
  | some (.json (.str s)) => truthy (some s)
  | _ => none

/-- `decodeAuditCursor`. -/
def decodeAuditCursor (rt : Runtime) (raw : String) : Option (String × String) :=
  match rt.jsonParse (rt.fromBase64url raw) with
  | some (.obj fields) =>
    match stringField fields "c", stringField fields "i" with
    | some createdAt, some id => some (createdAt, id)
    | _, _ => none
  | _ => none

/-- `encodeAuditCursor`. -/
def encodeAuditCursor (rt : Runtime) (log : AuditLog) : String :=
  rt.base64url (String.ofList (stringify (.obj [("c", .time log.createdAt), ("i", .str log.id)])))

/-- An entry behind the cursor. -/
def isAfterCursor (cursor : String × String) (log : AuditLog) : Bool :=
  textLt cursor.1 (isoString log.createdAt) ||
    (decide (isoString log.createdAt = cursor.1) && textLt cursor.2 log.id)

/-- `listAuditsAfterCursor`; `none` when the cursor is invalid. -/
def Store.auditsAfterCursor (s : Store) (rt : Runtime) (f : AuditFilter) (limit : Nat)
    (cursor : Option String) : Option (List AuditLog × Option String) :=
  let filtered := s.listAudits rt f
  match truthy cursor with
  | none => some (cut filtered)
  | some raw =>
    match decodeAuditCursor rt raw with
    | none => none
    | some c => some (cut (filtered.dropWhile fun log => !isAfterCursor c log))
where
  /-- The first `limit` entries, and the cursor of the last one when more follow. -/
  cut (rest : List AuditLog) : List AuditLog × Option String :=
    let items := rest.take limit
    (items, if limit < rest.length then items.getLast?.map (encodeAuditCursor rt) else none)

/-- `evidenceBlockedFromRetentionPurge`. -/
def evidenceBlockedFromRetentionPurge (e : EvidenceFile) (now : Time) : Bool :=
  if e.retentionClass = .legalHold then
    match truthy e.legalHoldUntil with
    | none => true
    | some t => !textLt t (isoString now)
  else e.legalHoldUntil.any fun t => !textLt t (isoString now)

/-- `listEvidencesPastRetention`. -/
def Store.evidencesPastRetention (s : Store) (now : Time) : List EvidenceFile :=
  s.evidenceFiles.rows.filter fun e =>
    (truthy e.retainUntil).any (fun t => textLt t (isoString now)) &&
      !evidenceBlockedFromRetentionPurge e now

/-- `findEvidenceByCid`: the first row with the identifier, in the order of insertion. -/
def Store.findEvidenceByCid (s : Store) (cid : String) : Option EvidenceFile :=
  s.evidenceFiles.rows.find? fun e => decide (e.cid = cid)

/-- A job that a worker has claimed. -/
def ExportJob.claimed (now : Time) (j : ExportJob) : ExportJob :=
  { j with status := .running, updatedAt := now }

/-- `claimExportJobsPending`: the oldest jobs that wait, and the rows after their claim. -/
def Store.claimExportJobsPending (s : Store) (rt : Runtime) (limit : Nat) (now : Time) :
    List ExportJob × Table ExportJob.id :=
  let pending := (s.exportJobs.rows.filter fun j => decide (j.status = .pending)).insertionSort
    fun a b => rt.localeLe (isoString a.createdAt) (isoString b.createdAt) = true
  let out := (pending.take limit).map (ExportJob.claimed now)
  (out, out.foldl Table.set s.exportJobs)

/-- `listDisputeVerifierRegistry`: oldest first. -/
def Store.listRegistry (s : Store) : List RegistryEntry :=
  s.registry.rows.insertionSort fun a b => a.createdAt ≤ b.createdAt

/-- `saveEvidence`; the two columns of the row are kept beside it. -/
def Store.saveEvidence (s : Store) (e : EvidenceFile) : Store :=
  { s with
    evidenceFiles := s.evidenceFiles.set e
    ops := { s.ops with evidences := s.ops.evidences.set ⟨e.id, e.contractId⟩ } }

/-- `deleteEvidence`. -/
def Store.deleteEvidence (s : Store) (id : String) : Store :=
  { s with
    evidenceFiles := s.evidenceFiles.erase id
    ops := { s.ops with evidences := s.ops.evidences.erase id } }

/-! ## Summaries -/

/-- How often each key occurs, in the order of the first occurrences. -/
def countBy (keys : List String) : List (String × Nat) :=
  keys.foldl bump []
where
  bump (acc : List (String × Nat)) (key : String) : List (String × Nat) :=
    if acc.any fun e => e.1 = key then
      acc.map fun e => if e.1 = key then (e.1, e.2 + 1) else e
    else acc ++ [(key, 1)]

def notificationStatusText : NotificationStatus → String
  | .queued => "queued"
  | .sent => "sent"
  | .failed => "failed"
  | .retryScheduled => "retry_scheduled"

/-- `OperatorStatsSummary`. -/
structure OperatorStatsSummary where
  contractsByStatus : List (String × Nat)
  disputesByStatus : List (String × Nat)
  xrplByTracking : List (String × Nat)
  notificationsByStatus : List (String × Nat)
  evidencesTotal : Nat
  settlementsByStatus : List (String × Nat)

/-- `ReportScopedBucket`. -/
structure ReportScopedBucket where
  contractsByStatus : List (String × Nat)
  disputesByStatus : List (String × Nat)
  settlementsByStatus : List (String × Nat)
  xrplByTracking : List (String × Nat)
  auditsCount : Nat

/-- `ReportSummary`; its `window` repeats the parameters, and `scopedBucket` is its `scoped`. -/
structure ReportSummary where
  generatedAt : Time
  window : ReportSummaryParams
  global : OperatorStatsSummary
  scopedBucket : ReportScopedBucket

/-- `getOperatorStatsSummary`. -/
def Store.operatorStatsSummary (s : Store) : OperatorStatsSummary where
  contractsByStatus := countBy (s.ops.contracts.rows.map fun c => c.status.text)
  disputesByStatus := countBy (s.ops.disputes.rows.map fun d => d.status.text)
  xrplByTracking := countBy (s.ops.xrplTxs.rows.map fun t => t.trackingStatus.text)
  notificationsByStatus :=
    countBy (s.notifications.rows.map fun n => notificationStatusText n.status)
  evidencesTotal := s.evidenceFiles.rows.length
  settlementsByStatus := countBy (s.settlements.rows.map fun t => t.status.text)

/-- `contractScope`. -/
def ReportSummaryParams.scopes (p : ReportSummaryParams) (c : Contract) : Bool :=
  matchesText p.tenantId c.tenantId && matchesText p.landlordId c.landlordId

/-- The contract exists and is in scope. -/
def Store.contractInScope (s : Store) (p : ReportSummaryParams) (contractId : String) : Bool :=
  (s.ops.contracts.get? contractId).any p.scopes

/-- Whether a tracked transaction is counted: with a scope, only through its dispute. -/
def Store.txInScope (s : Store) (p : ReportSummaryParams) (tx : XrplTransaction) : Bool :=
  if (truthy p.tenantId).isSome || (truthy p.landlordId).isSome then
    (truthy tx.disputeId).any fun disputeId =>
      (s.ops.disputes.get? disputeId).any fun d => s.contractInScope p d.contractId
  else true

/-- `getReportsSummary`. -/
def Store.reportsSummary (s : Store) (p : ReportSummaryParams) (now : Time) : ReportSummary where
  generatedAt := now
  window := p
  global := s.operatorStatsSummary
  scopedBucket := {
    contractsByStatus := countBy
      ((s.ops.contracts.rows.filter fun c => p.scopes c && inWindow p.fromIso p.toIso c.updatedAt).map
        fun c => c.status.text)
    disputesByStatus := countBy
      ((s.ops.disputes.rows.filter fun d =>
        s.contractInScope p d.contractId && inWindow p.fromIso p.toIso d.updatedAt).map
        fun d => d.status.text)
    settlementsByStatus := countBy
      ((s.settlements.rows.filter fun t =>
        s.contractInScope p t.contractId && inWindow p.fromIso p.toIso t.updatedAt).map
        fun t => t.status.text)
    xrplByTracking := countBy
      ((s.ops.xrplTxs.rows.filter fun x =>
        inWindow p.fromIso p.toIso x.lastCheckedAt && s.txInScope p x).map
        fun x => x.trackingStatus.text)
    auditsCount := s.ops.audits.countP fun a => inWindow p.fromIso p.toIso a.createdAt }

/-! ## The touch of the settlements -/

/-- A contract whose settlements are touched. -/
def isEligible (c : Contract) : Bool :=
  decide (c.status = .active) || decide (c.status = .escrowValidated)

/-- A settlement at its first touch. -/
def freshSettlement (id contractId : String) (p : TouchParams) : SettlementRecord where
  id := id
  contractId := contractId
  periodYear := p.periodYear
  periodMonth := p.periodMonth
  status := .collecting
  lastLedgerIndex := some p.ledgerIndex
  ledgerCloseCount := 1
  createdAt := p.now
  updatedAt := p.now
  amountMinor := none
  currencyCode := "XRP"
  batchId := none
  confirmedAt := none

/-- A settlement at a later touch. -/
def SettlementRecord.touched (s : SettlementRecord) (p : TouchParams) : SettlementRecord :=
  { s with
    lastLedgerIndex := some p.ledgerIndex
    ledgerCloseCount := s.ledgerCloseCount + 1
    updatedAt := p.now }

/-- One iteration of `touchSettlementsOnLedgerClose`: the rows and the number of touches. -/
def touchOne (p : TouchParams) (acc : Table SettlementRecord.id × Nat) (c : Contract) :
    Table SettlementRecord.id × Nat :=
  let id := settlementDeterministicId c.id p.periodYear p.periodMonth
  match acc.1.get? id with
  | none => (acc.1.set (freshSettlement id c.id p), acc.2 + 1)
  | some existing =>
    if existing.status = .archived then acc
    else (acc.1.set (existing.touched p), acc.2 + 1)

/-- `touchSettlementsOnLedgerClose`. -/
def Store.touchSettlements (s : Store) (p : TouchParams) : Table SettlementRecord.id × Nat :=
  (s.ops.contracts.rows.filter isEligible).foldl (touchOne p) (s.settlements, 0)

/-! ## The calls -/

/-- The awaited calls besides those of `Bluesafe.Ops`. -/
inductive Call
  | listContractsPage (f : ContractListFilter) (p : ListParams)
  | listDisputesPage (f : DisputeListFilter) (p : ListParams)
  | listXrplTxsPage (f : XrplTxListFilter) (p : ListParams)
  | listSettlementsPage (f : SettlementListFilter) (p : ListParams)
  | listNotificationOutboxPage (status : Option OutboxStatus) (p : ListParams)
  | listEvents (f : EventFilter)
  | listAudits (f : AuditFilter)
  | listAuditsPage (f : AuditFilter) (p : ListParams)
  | listAuditsAfterCursor (f : AuditFilter) (limit : Nat) (cursor : Option String)
  | listEvidencesPastRetention (now : Time)
  | listDisputeVerifierVotes (disputeId : String)
  | listDisputeVerifierRegistry
  | getEvidence (id : String)
  | findEvidenceByCid (cid : String)
  | getSettlement (id : String)
  | getNotification (id : String)
  | getExportJob (id : String)
  | claimExportJobsPending (limit : Nat) (now : Time)
  | updateExportJob (job : ExportJob)
  | getOperatorStatsSummary
  | getReportsSummary (p : ReportSummaryParams)
  | fetchEvidenceBytesFromPublicGateway (cid : String)
  | resolveEvidenceDataKey
  | getAccountEscrowsPage (account : String) (limit : Nat) (marker : Option Value)
  | touchSettlementsOnLedgerClose (p : TouchParams)
  | saveSettlement (s : SettlementRecord)
  | saveEvidence (e : EvidenceFile)
  | deleteEvidence (id : String)
  | countEvidenceVersions (contractId : String) (disputeId : Option String)
      (category : EvidenceCategory)
  | appendDisputeVerifierVote (v : VerifierVote)
  | ipfsUpload (input : UploadToIpfsInput)
  | unpinIfPinata (cid : String) (storageProvider : StorageProvider)

/-- The answer type of each call. -/
@[reducible] def Call.Res : Call → Type
  | .listContractsPage _ _ => Page Contract
  | .listDisputesPage _ _ => Page DisputeCase
  | .listXrplTxsPage _ _ => Page XrplTransaction
  | .listSettlementsPage _ _ => Page SettlementRecord
  | .listNotificationOutboxPage _ _ => Page NotificationOutboxRecord
  | .listEvents _ => List EventEnvelope
  | .listAudits _ => List AuditLog
  | .listAuditsPage _ _ => Page AuditLog
  | .listAuditsAfterCursor _ _ _ => Option (List AuditLog × Option String)
  | .listEvidencesPastRetention _ => List EvidenceFile
  | .listDisputeVerifierVotes _ => List VerifierVote
  | .listDisputeVerifierRegistry => List RegistryEntry
  | .getEvidence _ => Option EvidenceFile
  | .findEvidenceByCid _ => Option EvidenceFile
  | .getSettlement _ => Option SettlementRecord
  | .getNotification _ => Option NotificationEvent
  | .getExportJob _ => Option ExportJob
  | .claimExportJobsPending _ _ => List ExportJob
  | .updateExportJob _ => Unit
  | .getOperatorStatsSummary => OperatorStatsSummary
  | .getReportsSummary _ => ReportSummary
  | .fetchEvidenceBytesFromPublicGateway _ => List UInt8
  | .resolveEvidenceDataKey => Option (List UInt8)
  | .getAccountEscrowsPage _ _ _ => AccountEscrowsPage
  | .touchSettlementsOnLedgerClose _ => Nat
  | .saveSettlement _ => Unit
  | .saveEvidence _ => Unit
  | .deleteEvidence _ => Unit
  | .countEvidenceVersions _ _ _ => Nat
  | .appendDisputeVerifierVote _ => Unit
  | .ipfsUpload _ => UploadToIpfsResult
  | .unpinIfPinata _ _ => Unit

/-- The interface of the reads and of the ledger stream. -/
@[reducible] def calls : Interface := Ops.calls.sum ⟨Call, Call.Res⟩

/-- An `async` function; a rejection carries the error message. -/
abbrev ApiM (α : Type) : Type := Async calls String α

/-- The calls one request has made, newest first. -/
abbrev ApiLog : Type := Log calls String

/-- Await one call. -/
abbrev invoke (op : Call) : ApiM op.Res := Async.call (I := calls) (.inr op)

/-- A program of `Bluesafe.Ops`. -/
abbrev ofOps {α : Type} (p : Ops.OpsM α) : ApiM α := Async.inl p

/-- A program of one call is that call. -/
theorem ofOps_invoke (op : Ops.Call) :
    (ofOps (Ops.invoke op) : ApiM op.Res) = Async.call (I := calls) (.inl op) := by
  show Async.inl (Async.call (I := Ops.calls) op) = _
  exact Async.inl_call (I := Ops.calls) op

/-- What the environment decides at a call. -/
structure Choice extends Ops.Choice where
  bytes : List UInt8 := []
  dataKey : Option (List UInt8) := none
  escrows : AccountEscrowsPage := {}
  uploaded : UploadToIpfsResult := {}

/-- The call takes effect: it is not rejected, or only after its effect. -/
def Choice.effective (c : Choice) : Bool := c.failure.isNone || c.applied

/-- The answer and the effect of a call that is not rejected. -/
def perform (rt : Runtime) : (op : Call) → Choice → Store → op.Res × Store
  | .listContractsPage f p, _, s => (s.contractsPage f p, s)
  | .listDisputesPage f p, _, s => (s.disputesPage f p, s)
  | .listXrplTxsPage f p, _, s => (s.xrplTxsPage f p, s)
  | .listSettlementsPage f p, _, s => (s.settlementsPage rt f p, s)
  | .listNotificationOutboxPage status p, _, s => (s.outboxPage status p, s)
  | .listEvents f, _, s => (s.listEvents f, s)
  | .listAudits f, _, s => (s.listAudits rt f, s)
  | .listAuditsPage f p, _, s => (.of (s.listAudits rt f) p, s)
  | .listAuditsAfterCursor f limit cursor, _, s => (s.auditsAfterCursor rt f limit cursor, s)
  | .listEvidencesPastRetention now, _, s => (s.evidencesPastRetention now, s)
  | .listDisputeVerifierVotes disputeId, _, s =>
    (s.votes.filter fun v => decide (v.disputeId = disputeId), s)
  | .listDisputeVerifierRegistry, _, s => (s.listRegistry, s)
  | .getEvidence id, _, s => (s.evidenceFiles.get? id, s)
  | .findEvidenceByCid cid, _, s => (s.findEvidenceByCid cid, s)
  | .getSettlement id, _, s => (s.settlements.get? id, s)
  | .getNotification id, _, s => (s.notifications.get? id, s)
  | .getExportJob id, _, s => (s.exportJobs.get? id, s)
  | .claimExportJobsPending limit now, _, s =>
    ((s.claimExportJobsPending rt limit now).1,
      { s with exportJobs := (s.claimExportJobsPending rt limit now).2 })
  | .updateExportJob job, _, s => ((), { s with exportJobs := s.exportJobs.set job })
  | .getOperatorStatsSummary, _, s => (s.operatorStatsSummary, s)
  | .getReportsSummary p, c, s => (s.reportsSummary p c.now, s)
  | .fetchEvidenceBytesFromPublicGateway _, c, s => (c.bytes, s)
  | .resolveEvidenceDataKey, c, s => (c.dataKey, s)
  | .getAccountEscrowsPage _ _ _, c, s => (c.escrows, s)
  | .touchSettlementsOnLedgerClose p, _, s =>
    ((s.touchSettlements p).2, { s with settlements := (s.touchSettlements p).1 })
  | .saveSettlement row, _, s => ((), { s with settlements := s.settlements.set row })
  | .saveEvidence e, _, s => ((), s.saveEvidence e)
  | .deleteEvidence id, _, s => ((), s.deleteEvidence id)
  | .countEvidenceVersions contractId disputeId category, _, s =>
    (s.evidenceFiles.rows.countP fun e => decide (e.contractId = contractId) &&
      decide (e.disputeId = disputeId) && decide (e.category = category), s)
  | .appendDisputeVerifierVote v, _, s => ((), { s with votes := s.votes ++ [v] })
  | .ipfsUpload _, c, s => (c.uploaded, s)
  | .unpinIfPinata _ _, _, s => ((), s)

/-- The answer to a call, rejected or not. -/
def serve (rt : Runtime) : (op : calls.Op) → Choice → Store → Except String (calls.Res op) × Store
  | .inl op, c, s =>
    let r := Ops.serve op c.toChoice s.ops
    (r.1, { s with ops := r.2 })
  | .inr op, c, s =>
    match c.failure with
    | none => (.ok (perform rt op c s).1, (perform rt op c s).2)
    | some e => (.error e, if c.applied then (perform rt op c s).2 else s)

/-- The effect of a call of the repository. -/
theorem serve_inr (rt : Runtime) (op : Call) (c : Choice) (s : Store) :
    (serve rt (.inr op) c s).2 = if c.effective then (perform rt op c s).2 else s := by
  unfold Choice.effective
  simp only [serve]
  cases c.failure with
  | none => rfl
  | some e => cases c.applied <;> rfl

/-- A call of the repository takes effect, or it is rejected before. -/
theorem serve_inr_state (rt : Runtime) (op : Call) (c : Choice) (s : Store) :
    (serve rt (.inr op) c s).2 = (perform rt op c s).2 ∨ (serve rt (.inr op) c s).2 = s := by
  rw [serve_inr]
  split
  · exact .inl rfl
  · exact .inr rfl

/-- A successful answer of the repository comes from its call, which took effect. -/
theorem answer_inr {rt : Runtime} {op : Call} {c : Choice} {s : Store} {a : op.Res}
    (h : (serve rt (.inr op) c s).1 = .ok a) :
    (perform rt op c s).1 = a ∧ (serve rt (.inr op) c s).2 = (perform rt op c s).2 := by
  simp only [serve] at h ⊢
  cases hfail : c.failure with
  | none =>
    rw [hfail] at h
    exact ⟨Except.ok.inj h, rfl⟩
  | some e =>
    rw [hfail] at h
    cases h

/-- Any call but the clock and the generator may be rejected. -/
def world (rt : Runtime) : World calls String Store Choice where
  allow := fun op c s =>
    match op with
    | .inl op => Ops.world.allow op c.toChoice s.ops
    | .inr _ => true
  serve := serve rt

/-- A runtime for concrete runs: it reads decimal numbers and dates that start with a year,
    and compares texts by code units. No run parses JSON or decrypts. -/
def sampleRuntime : Runtime where
  number
    | .text s => if s.toList.all Char.isDigit && s ≠ "" then
        some (s.toList.foldl (fun n c => 10 * n + (c.toNat - 48)) 0 : Nat) else none
    | .list _ => none
  dateParses s := (s.toList.take 4).all Char.isDigit
  localeLe a b := unitsLe (utf16Units a) (utf16Units b)
  jsonParse _ := none
  base64url s := s
  fromBase64url s := s
  hmac _ text := text
  encodeURIComponent s := s
  sha256 _ := ""
  decryptEvidenceBuffer content _ := .ok content
  utf8 _ := []

end Bluesafe.Api
