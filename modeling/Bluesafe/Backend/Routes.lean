import Bluesafe.Api.SettlementNotices
import Bluesafe.Backend.Console

/-!
# The backend as a system

All entries of `index.ts` under `/v1` with the guards in front of them, and the workers that it
starts: the handlers of the ledger stream, the policy worker, the two notification workers and
the export worker. `Entry` is the route that the router selects, with its parameters and a body
that its schema accepted; an entry is handled behind the transport guard and the role headers.

The handlers of `Bluesafe.Ops` and `Bluesafe.Api` make one call for the notifications of an
occurrence. `carryOut` puts the program of the notification services in its place, so the outbox and
the notifications of the backend are those of `Bluesafe.Notify`.

`backendStep` interleaves any number of requests at their calls, any of which may fail.
-/

namespace Bluesafe.Backend

open Bluesafe.Ops (BluesafeAuth allRoles reviewerRoles)
open Bluesafe.Api (Caller Response Headers Query Route)

/-- The settings of the deployment. -/
structure Settings where
  api : Api.Config
  notify : Notify.Config
  vault : Api.EvidenceVault
  settlementTouchEnabled : Bool
  autoNotifyOnConfirmed : Bool
  exportBatchSize : Nat

/-- A route of `/v1` with its parameters and its body. `read` stands for the `GET` routes. -/
inductive Entry
  | read (route : Route) (query : Query)
  | createContract (body : Ops.CreateContractBody)
  | patchContractStatus (contractId : String) (status : Ops.ContractStatus)
  | patchEscrowAnchor (contractId : String) (body : Ops.EscrowAnchorBody)
  | uploadEvidence (file : Option Api.UploadedFile) (form : Api.EvidenceUploadForm)
  | verifyEvidence (cid expectedSha256 : String)
  | patchEvidenceMetadata (evidenceId : String) (body : Api.MetadataPatch)
  | retentionRun
  | fileDispute (body : Ops.CreateDisputeBody)
  | patchDisputeStatus (disputeId : String) (next : Ops.ReviewStatus)
  | verifierVote (disputeId : String) (body : Api.DisputeVerifierVoteBody)
  | escalate (disputeId : String)
  | reviewSlaScan
  | decision (disputeId : String) (body : Ops.DecisionBody)
  | execution (disputeId : String) (body : Ops.ExecutionBody)
  | track (body : Ops.TrackBody)
  | refresh (txHash : String)
  | backfill (body : Ops.BackfillBody)
  | sendNotification (body : Notify.SendBody) (channel : Notify.NotificationChannel)
  | dispatchNotifications (body : Notify.SendBody)
      (channels : Option (List Notify.NotificationChannel))
  | retryOutbox (outboxId : String)
  | patchSettlementStatus (settlementId : String) (body : Api.SettlementPatch)
  | upsertRegistry (body : RegistryUpsertBody)
  | createExportJob (body : CreateExportJobBody)

/-- The reply of a handler of `Bluesafe.Ops`. -/
def replyOf (p : Ops.OpsM Ops.Reply) : BackendM Response := Response.ofReply <$> ofOps p

/-- The reply of a handler of the notification services. -/
def notifyReplyOf (p : Notify.NotifyM Ops.Reply) : BackendM Response :=
  Response.ofReply <$> ofNotify p

/-- The handler of an entry. Guards that a handler of another part makes itself are not made
    again here, except where a scope stands behind them. -/
def serveEntry (settings : Settings) (caller : Caller) : Entry → BackendM Response
  | .read route query => ofApi (Api.read settings.api caller.auth query route)
  | .createContract body => replyOf (Ops.createContract settings.api.ops caller.auth body)
  | .patchContractStatus contractId status =>
    replyOf (Ops.patchContractStatus settings.api.ops caller.auth contractId status)
  | .patchEscrowAnchor contractId body =>
    replyOf (Ops.patchEscrowAnchor settings.api.ops caller.auth contractId body)
  | .uploadEvidence file form =>
    ofApi (Api.postEvidence settings.api settings.vault caller file form)
  | .verifyEvidence cid expectedSha256 =>
    ofApi (Api.verifyEvidence settings.api caller cid expectedSha256)
  | .patchEvidenceMetadata evidenceId body =>
    ofApi (Api.patchEvidenceMetadata settings.api caller evidenceId body)
  | .retentionRun => ofApi (Api.retentionRun settings.api caller)
  | .fileDispute body => replyOf (Ops.fileDispute settings.api.ops caller.auth body)
  | .patchDisputeStatus disputeId next =>
    replyOf (Ops.patchDisputeStatus settings.api.ops caller.auth disputeId next)
  | .verifierVote disputeId body => ofApi (Api.postVerifierVote settings.api caller disputeId body)
  | .escalate disputeId =>
    guarded settings.api [.operator] (some .disputes) caller
      (replyOf (Ops.escalate settings.api.ops caller.auth disputeId))
  | .reviewSlaScan =>
    guarded settings.api [.operator] (some .sla) caller
      (replyOf (Ops.reviewSlaScan settings.api.ops caller.auth))
  | .decision disputeId body =>
    replyOf (Ops.decision settings.api.ops caller.auth disputeId body)
  | .execution disputeId body =>
    replyOf (Ops.execution settings.api.ops caller.auth disputeId body)
  | .track body => replyOf (Ops.track settings.api.ops caller.auth body)
  | .refresh txHash => replyOf (Ops.refresh settings.api.ops caller.auth txHash)
  | .backfill body => replyOf (Ops.backfill settings.api.ops caller.auth body)
  | .sendNotification body channel =>
    guarded settings.api allRoles none caller
      (notifyReplyOf (Notify.sendNotification body channel))
  | .dispatchNotifications body channels =>
    guarded settings.api reviewerRoles (some .dispatch) caller
      (notifyReplyOf (Notify.dispatchNotifications caller.auth body channels))
  | .retryOutbox outboxId =>
    guarded settings.api [.operator] (some .outbox) caller
      (notifyReplyOf (Notify.retryOutbox caller.auth outboxId))
  | .patchSettlementStatus settlementId body =>
    ofApi (Api.patchSettlementStatus settings.api settings.autoNotifyOnConfirmed caller settlementId
      body)
  | .upsertRegistry body => upsertRegistry settings.api caller body
  | .createExportJob body => createExportJob settings.api caller body

/-- The caller that the headers name. -/
def callerOf (headers : Headers) (auth : Option BluesafeAuth) : Caller :=
  ⟨auth, headers "x-bluesafe-operator-scopes"⟩

/-- A request to `/v1`: the transport guard, the role headers, then its route. -/
def serveHttp (settings : Settings) (headers : Headers) (entry : Entry) : BackendM Response :=
  match Api.authenticate settings.api headers with
  | .error reply => return reply
  | .ok auth => serveEntry settings (callerOf headers auth) entry

/-! ## The system -/

/-- What starts work in the backend: a request, a message of the ledger, or a timer. -/
inductive Request
  | http (headers : Headers) (entry : Entry)
  | message (msg : Api.Message)
  | policyTick
  | notificationTick
  | fanoutTick
  | exportJobTick

/-- The program of each entry, with one call for the notifications of an occurrence; a worker sends no
    reply. -/
def program (settings : Settings) : Request → BackendM (Option Response)
  | .http headers entry => some <$> serveHttp settings headers entry
  | .message msg =>
    (fun _ => none) <$> ofApi (Api.handleMessage settings.settlementTouchEnabled msg)
  | .policyTick => (fun _ => none) <$> ofOps (Ops.policyTick settings.api.ops)
  | .notificationTick => (fun _ => none) <$> ofNotify (Notify.notificationTick settings.notify)
  | .fanoutTick => (fun _ => none) <$> ofNotify (Notify.fanoutTick settings.notify)
  | .exportJobTick => (fun _ => none) <$> ofApi (Api.runExportJobTick settings.exportBatchSize)

/-- Each call as the backend makes it: what is notified is enqueued item by item. -/
def carryOut (settings : Settings) : (op : calls.Op) → BackendM (calls.Res op)
  | .inl (.inl (.inl (.enqueueDomainNotifications n))) => ofNotify (Api.enqueueNotices settings.notify n)
  | op => Async.call (I := calls) op

/-- The program of each entry. -/
def handle (settings : Settings) (req : Request) : BackendM (Option Response) :=
  Async.interp (carryOut settings) (program settings req)

/-- A request in progress. -/
abbrev BackendThread : Type := Async.Thread calls String Request (Option Response)

/-- The store and the requests in progress. -/
abbrev BackendPool : Type := Async.Pool calls String Store Request (Option Response)

/-- The backend with its requests interleaved at their calls, any of which may fail. -/
def backendStep (settings : Settings) :
    BackendPool → Async.Act Request Choice → Option BackendPool :=
  Async.poolStep (world settings.api.runtime) (handle settings)

/-! ## Concrete runs -/

/-- A deployment with authentication. -/
def sampleSettings : Settings where
  api := Api.sampleConfig
  notify := {
    autoDomainEnqueue := true
    domainOutbox := true
    sha256 := String.ofList
    maxAttempts := 5
    batchSize := 10
    retryInitialBackoffMs := 1000
    retryMaxBackoffMs := 60000
    outboxBatchSize := 10
    staleProcessingMs := 60000
    maxDispatchAttempts := 5 }
  vault := Api.sampleVault
  settlementTouchEnabled := true
  autoNotifyOnConfirmed := true
  exportBatchSize := 5

/-- The headers of a caller; a tenant and a landlord name themselves. -/
def sampleHeaders (role id : String) : Headers := fun name =>
  if name = "x-bluesafe-role" then some role
  else if name = "x-bluesafe-tenant-id" ∧ role = "tenant" then some id
  else if name = "x-bluesafe-landlord-id" ∧ role = "landlord" then some id
  else none

/-- No call fails; the identifiers end in `n`. -/
def sampleOracle (n : String) : calls.Op → Choice
  | .inl (.inl (.inl (.randomId tag))) => { id := tag ++ "_" ++ n }
  | .inl (.inr (.randomId tag)) => { id := tag ++ "_" ++ n }
  | _ => {}

/-- The actions of a schedule from an empty store. -/
def sampleActs (ts : List (Async.Turn calls Request Choice)) : List (Async.Act Request Choice) :=
  Async.scheduleActs (world sampleSettings.api.runtime) (handle sampleSettings) ts ⟨.empty, []⟩

/-- `tenant_1` creates a contract with `landlord_1`. -/
def sampleCreate : Request :=
  .http (sampleHeaders "tenant" "tenant_1")
    (.createContract { tenantId := "tenant_1", landlordId := "landlord_1" })

/-- A caller asks for the next status of the contract. -/
def samplePatch (role id : String) : Request :=
  .http (sampleHeaders role id) (.patchContractStatus "ctr_1" .escrowPending)

/-- The contract is created; a stranger and its landlord then work on it at the same time. -/
def sampleSchedule : List (Async.Turn calls Request Choice) :=
  [.start sampleCreate, .run 0 20 (sampleOracle "1"), .start (samplePatch "tenant" "tenant_2"),
    .start (samplePatch "landlord" "landlord_1"), .run 2 2 (sampleOracle "3"),
    .run 1 20 (sampleOracle "2"), .run 2 20 (sampleOracle "3")]

end Bluesafe.Backend
