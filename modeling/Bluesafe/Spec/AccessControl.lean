import Bluesafe.Spec.CarriedOut

/-!
# Access control of the backend

`allowed` is the monitor for everything that runs in the backend: a request to `/v1` has passed
the transport guard and the role headers, and each of its calls is granted to its caller; a
worker changes no contract, decision, evidence file or vote, and a dispute only when the ledger
has answered. Whoever delivers an answer of the ledger may resolve the dispute that waits for it, may
save the tracked transaction, and causes the notifications of what happens then; settlements are
touched by the message of a closed ledger.

The main result is that every call of every request, in every interleaving and with any
failures, is allowed (`calls_allowed`).
-/

namespace Bluesafe.Backend

open Async Transition
open Bluesafe.Ops (HasRole writerRoles judgeRoles allRoles)
open Bluesafe.Api (Config Caller Scoped OperatorGrant Response)

/-! ## The monitor -/

/-- What a caller may do with the notification services; their workers do the rest. What waits for its
    delivery may be enqueued for every role, since a request of any role can be the occasion. -/
def notifyGranted (config : Config) (caller : Caller) : Notify.Call → Prop
  | .saveNotification n => HasRole config.ops caller.auth allRoles ∧ n.status = .queued
  | .appendNotificationOutbox row =>
    HasRole config.ops caller.auth allRoles ∧ row.status = .pending ∧ row.attempts = 0
  | .updateNotificationOutbox _ => OperatorGrant config caller .outbox
  | .claimNotificationOutboxPending _ _ => False
  | .recoverStaleNotificationOutboxProcessing _ _ => False
  | .listDueNotifications _ _ => False
  | .deliver _ => False
  | _ => True

/-- What a caller may do with the two parts. -/
def partGranted (config : Config) (caller : Caller) (l : Log (Api.calls.sum Notify.calls) String) :
    (Api.calls.sum Notify.calls).Op → Prop
  | .inl op => Api.granted config caller (lefts l) op
  | .inr op => notifyGranted config caller op

/-- What a caller may do. -/
def granted (config : Config) (caller : Caller) (l : BackendLog) : calls.Op → Prop
  | .inl op => partGranted config caller (lefts l) op
  | .inr (.upsertDisputeVerifierRegistryEntry _) => OperatorGrant config caller .registry
  | .inr (.createExportJob _) =>
    HasRole config.ops caller.auth judgeRoles ∧ Scoped config caller .exports

/-- What a worker may save: a dispute whose execution the ledger has answered. -/
def resolvesOnly (l : Ops.OpsLog) : Ops.Call → Prop
  | .saveContract _ => False
  | .saveDispute d => ∃ copy, Ops.ReadDispute l copy ∧ d.SameCase copy ∧
      (d.status = .executed ∨ d.status = .rejected) ∧ d.escalatedAt = copy.escalatedAt
  | .saveDecision _ => False
  | .submitAndWaitFromWallet _ => False
  | _ => True

/-- The calls of `Bluesafe.Api` that a worker may make. -/
def workerCall : Api.Call → Bool
  | .saveEvidence _ => false
  | .deleteEvidence _ => false
  | .unpinIfPinata _ _ => false
  | .ipfsUpload _ => false
  | .saveSettlement _ => false
  | .appendDisputeVerifierVote _ => false
  | _ => true

/-- What a worker may do with `Bluesafe.Api`. -/
def apiWorked (l : Api.ApiLog) : Api.calls.Op → Prop
  | .inl op => resolvesOnly (lefts l) op
  | .inr op => workerCall op = true

/-- What a worker may do with the two parts. -/
def partWorked (l : Log (Api.calls.sum Notify.calls) String) :
    (Api.calls.sum Notify.calls).Op → Prop
  | .inl op => apiWorked (lefts l) op
  | .inr _ => True

/-- What a worker may do. -/
def worked (l : BackendLog) : calls.Op → Prop
  | .inl op => partWorked (lefts l) op
  | .inr _ => False

/-- What a request may do. -/
def allowed (settings : Settings) : Request → BackendLog → calls.Op → Prop
  | .http headers _, l, op => ∃ auth, Api.authenticate settings.api headers = .ok auth ∧
      granted settings.api (callerOf headers auth) l op
  | _, l, op => worked l op

/-! ## Requests -/

section Requests

variable {config : Config} {settings : Settings} {caller : Caller} {l : BackendLog} {α : Type}

/-- Every call of `p` after the log `l` is granted to the caller. -/
abbrev Granted (config : Config) (caller : Caller) (p : BackendM α) (l : BackendLog) : Prop :=
  Safe (granted config caller) p l

/-- The rule carries over to a handler of the API. -/
theorem granted_ofApi {p : Api.ApiM α} (hp : Api.Granted config caller p (lefts (lefts l))) :
    Granted config caller (ofApi p) l := by
  have hpart : Safe (partGranted config caller) (Async.inl p) (lefts l) :=
    wp_monitor_inl (fun _ _ h => h) hp
  exact wp_monitor_inl (fun _ _ h => h) hpart

/-- To a handler of the book. -/
theorem granted_ofOps {p : Ops.OpsM α}
    (hp : Ops.Granted config.ops caller.auth p (lefts (lefts (lefts l)))) :
    Granted config caller (ofOps p) l :=
  granted_ofApi (Api.granted_ofOps hp)

/-- And to a program of the notifications. -/
theorem granted_ofNotify {p : Notify.NotifyM α} (hp : Only (notifyGranted config caller) p) :
    Granted config caller (ofNotify p) l := by
  have hpart : Safe (partGranted config caller) (Async.inr p) (lefts l) :=
    safe_inr (fun _ _ h => h) hp _
  exact wp_monitor_inl (fun _ _ h => h) hpart

/-- A reply is made without a call. -/
theorem granted_replyOf {p : Ops.OpsM Ops.Reply}
    (hp : Ops.Granted config.ops caller.auth p (lefts (lefts (lefts l)))) :
    Granted config caller (replyOf p) l :=
  Gives.map (granted_ofOps hp)

/-- So is one to a request about notifications. -/
theorem granted_notifyReplyOf {p : Notify.NotifyM Ops.Reply}
    (hp : Only (notifyGranted config caller) p) : Granted config caller (notifyReplyOf p) l :=
  Gives.map (granted_ofNotify hp)

/-! ## Guards -/

/-- What a request that passes the guards of a writing route has shown. -/
theorem of_guards {roles : List Ops.BluesafeRole} {scope : Option Api.OperatorConsoleScope}
    (h : guards config roles scope caller = none) :
    (∀ writers, (∀ r ∈ roles, r ≠ .auditor → r ∈ writers) → HasRole config.ops caller.auth writers) ∧
      ∀ required, scope = some required → Scoped config caller required := by
  unfold guards at h
  split at h
  · exact nomatch h
  · rename_i hblock
    split at h
    · exact nomatch h
    · rename_i hroles
      refine ⟨fun writers hsub => Ops.hasRole_of_guards hblock hroles hsub, fun required hrequired => ?_⟩
      subst hrequired
      exact h

/-- A handler runs when its guards have let the caller through. -/
theorem guarded_granted {roles : List Ops.BluesafeRole} {scope : Option Api.OperatorConsoleScope}
    {handler : BackendM Response}
    (hp : guards config roles scope caller = none → Granted config caller handler l) :
    Granted config caller (guarded config roles scope caller handler) l := by
  unfold guarded
  split
  · exact Gives.pure trivial
  · rename_i h
    exact hp h

/-! ## The notification services -/

/-- An audit entry needs no role. -/
theorem writeAudit_only (entityType entityId action actor : String)
    (after metadata : Option Ops.JsonObject) :
    Only (notifyGranted config caller)
      (Notify.writeAudit entityType entityId action actor after metadata) :=
  .bind (.call trivial) fun _ => .bind (.call trivial) fun _ => .call trivial

/-- A message that is sent by hand needs one of the roles. -/
theorem sendOne_only (hrole : HasRole config.ops caller.auth allRoles) (body : Notify.SendBody)
    (now : Ops.Time) (action actor : String) (extra : Ops.JsonObject)
    (channel : Notify.NotificationChannel) (id : String) :
    Only (notifyGranted config caller)
      (Notify.sendOne body now action actor extra channel id) := by
  unfold Notify.sendOne
  refine .bind (.call ⟨hrole, rfl⟩) fun _ => .bind (writeAudit_only _ _ _ _ _ _) fun _ => ?_
  unfold Notify.emitEvent
  exact .bind (.call trivial) fun _ => .bind (.call trivial) fun _ => .bind (.call trivial) fun _ =>
    .call trivial

/-- So does a dispatch. -/
theorem dispatchAll_only (hrole : HasRole config.ops caller.auth allRoles)
    (body : Notify.SendBody) (now : Ops.Time) (channels : List Notify.NotificationChannel) :
    Only (notifyGranted config caller) (Notify.dispatchAll caller.auth body now channels) := by
  induction channels with
  | nil => exact .pure
  | cons channel rest ih =>
    refine .bind (.call trivial) fun id => .bind (sendOne_only hrole _ _ _ _ _ _ _) fun _ => ?_
    exact .bind ih fun _ => .pure

/-- A retry needs an operator. -/
theorem retryOutbox_only (hgrant : OperatorGrant config caller .outbox) (outboxId : String) :
    Only (notifyGranted config caller) (Notify.retryOutbox caller.auth outboxId) := by
  refine .bind (.call trivial) fun row => ?_
  cases row with
  | none => exact .pure
  | some row =>
    refine .ite .pure (.bind (.call trivial) fun t => .bind (.call hgrant) fun _ => ?_)
    exact .bind (writeAudit_only _ _ _ _ _ _) fun _ => .pure

/-! ## The operator console -/

/-- The registry is written by an operator. -/
theorem upsertRegistry_granted (body : RegistryUpsertBody) :
    Granted config caller (upsertRegistry config caller body) l := by
  unfold upsertRegistry
  refine guarded_granted fun hguards => ?_
  obtain ⟨hrole, hscope⟩ := of_guards hguards
  have hread : ∀ {α : Type} {p : Api.ApiM α} {l : BackendLog}, Api.ReadsOnly p →
      Granted config caller (ofApi p) l := fun hp => granted_ofApi (Api.granted_of_reads hp)
  -- the registry is read before it is written
  refine Gives.bind (hread (Api.invoke_reads rfl)) fun items _ _ _ => ?_
  refine Gives.bind (hread (Api.opsInvoke_reads rfl)) fun t _ _ _ => ?_
  refine Gives.bind (R := fun _ _ => True) ?_ fun id _ _ _ => ?_
  · unfold registryId
    split
    · exact Gives.pure trivial
    · exact hread (Api.opsInvoke_reads rfl)
  -- the write itself, behind role and scope
  refine Gives.call_then ⟨hrole _ (by decide), hscope _ rfl⟩ fun _ _ _ => ?_
  exact Gives.bind (granted_ofOps (Ops.writeAudit_granted _ _ _ _ _ _ _)) fun _ _ _ _ =>
    Gives.pure trivial

/-- An export job is created for a caller with a role. -/
theorem createExportJob_granted (body : CreateExportJobBody) :
    Granted config caller (createExportJob config caller body) l := by
  unfold createExportJob
  refine guarded_granted fun hguards => ?_
  obtain ⟨hrole, hscope⟩ := of_guards hguards
  have hread : ∀ {α : Type} {p : Api.ApiM α} {l : BackendLog}, Api.ReadsOnly p →
      Granted config caller (ofApi p) l := fun hp => granted_ofApi (Api.granted_of_reads hp)
  refine Gives.bind (hread (Api.opsInvoke_reads rfl)) fun t _ _ _ => ?_
  refine Gives.bind (hread (Api.opsInvoke_reads rfl)) fun id _ _ _ => ?_
  exact Gives.call_then ⟨hrole _ (by decide), hscope _ rfl⟩ fun _ _ _ => Gives.pure trivial

/-! ## Entries -/

/-- Every route calls only what it may. -/
theorem serveEntry_granted (entry : Entry) :
    Granted settings.api caller (serveEntry settings caller entry) [] := by
  cases entry with
  -- reads first, then one case for each route that writes
  | read route query => exact granted_ofApi (Api.read_granted query route)
  | createContract body => exact granted_replyOf (Ops.createContract_granted Ops.noSaves_nil body)
  | patchContractStatus contractId status =>
    exact granted_replyOf (Ops.patchContractStatus_granted contractId status)
  | patchEscrowAnchor contractId body =>
    exact granted_replyOf (Ops.patchEscrowAnchor_granted contractId body)
  | uploadEvidence file form =>
    exact granted_ofApi (Api.postEvidence_granted settings.vault file form fun _ _ h => nomatch h)
  | verifyEvidence cid expectedSha256 =>
    exact granted_ofApi (Api.verifyEvidence_granted cid expectedSha256)
  | patchEvidenceMetadata evidenceId body =>
    exact granted_ofApi (Api.patchEvidenceMetadata_granted evidenceId body)
  | retentionRun => exact granted_ofApi Api.retentionRun_granted
  | fileDispute body => exact granted_replyOf (Ops.fileDispute_granted Ops.noSaves_nil body)
  | patchDisputeStatus disputeId next =>
    exact granted_replyOf (Ops.patchDisputeStatus_granted disputeId next)
  | verifierVote disputeId body => exact granted_ofApi (Api.postVerifierVote_granted disputeId body)
  | escalate disputeId =>
    exact guarded_granted fun _ => granted_replyOf (Ops.escalate_granted disputeId)
  | reviewSlaScan => exact guarded_granted fun _ => granted_replyOf Ops.reviewSlaScan_granted
  | decision disputeId body => exact granted_replyOf (Ops.decision_granted disputeId body)
  | execution disputeId body => exact granted_replyOf (Ops.execution_granted disputeId body)
  | track body => exact granted_replyOf (Ops.track_granted body)
  | refresh txHash => exact granted_replyOf (Ops.refresh_granted txHash)
  | backfill body => exact granted_replyOf (Ops.backfill_granted body)
  -- the routes of the notifications check the role themselves
  | sendNotification body channel =>
    refine guarded_granted fun hguards => granted_notifyReplyOf ?_
    have hrole := (of_guards hguards).1 allRoles (by decide)
    refine .bind (.call trivial) fun _ => .bind (.call trivial) fun _ => ?_
    exact .bind (sendOne_only hrole _ _ _ _ _ _ _) fun _ => .pure
  | dispatchNotifications body channels =>
    refine guarded_granted fun hguards => granted_notifyReplyOf ?_
    have hrole := (of_guards hguards).1 allRoles (by decide)
    exact .bind (.call trivial) fun _ => .bind (dispatchAll_only hrole _ _ _) fun _ => .pure
  | retryOutbox outboxId =>
    refine guarded_granted fun hguards => granted_notifyReplyOf ?_
    obtain ⟨hrole, hscope⟩ := of_guards hguards
    exact retryOutbox_only ⟨hrole _ (by decide), hscope _ rfl⟩ outboxId
  | patchSettlementStatus settlementId body =>
    exact granted_ofApi (Api.patchSettlementStatus_granted _ settlementId body)
  | upsertRegistry body => exact upsertRegistry_granted body
  | createExportJob body => exact createExportJob_granted body

/-- A request is authenticated before it makes a call. -/
theorem serveHttp_allowed (headers : Api.Headers) (entry : Entry) :
    Safe (allowed settings (.http headers entry)) (serveHttp settings headers entry) [] := by
  unfold serveHttp
  split
  · exact Gives.pure trivial
  · rename_i auth hauth
    exact wp_monitor_weaken (fun _ _ h => ⟨auth, hauth, h⟩) (serveEntry_granted entry)

end Requests

/-! ## Workers -/

section Workers

variable {settings : Settings} {l : BackendLog} {α : Type}

/-- Every call of `p` after the log `l` is one that a worker may make. -/
abbrev Worked (p : BackendM α) (l : BackendLog) : Prop := Safe worked p l

/-- The rule of the workers carries over to the API. -/
theorem worked_ofApi {p : Api.ApiM α} (hp : Safe apiWorked p (lefts (lefts l))) :
    Worked (ofApi p) l := by
  have hpart : Safe partWorked (Async.inl p) (lefts l) := wp_monitor_inl (fun _ _ h => h) hp
  exact wp_monitor_inl (fun _ _ h => h) hpart

/-- And to the book. -/
theorem apiWorked_ofOps {l : Api.ApiLog} {p : Ops.OpsM α} (hp : Safe resolvesOnly p (lefts l)) :
    Safe apiWorked (Api.ofOps p) l :=
  wp_monitor_inl (fun _ _ h => h) hp

/-- The workers of the notifications call what they like. -/
theorem worked_ofNotify (p : Notify.NotifyM α) : Worked (ofNotify p) l := by
  have hpart : Safe partWorked (Async.inr p) (lefts l) :=
    safe_inr (fun _ _ _ => trivial) (.of_forall (fun _ => trivial) p) _
  exact wp_monitor_inl (fun _ _ h => h) hpart

/-- The requests of `Bluesafe.Ops` that workers make. -/
def isWork : Ops.Request → Bool
  | .streamTransaction _ _ => true
  | .policyTick => true
  | _ => false

/-- Work of the stream escalates no dispute. -/
theorem escalates_of_isWork {req : Ops.Request} (h : isWork req = true) : req.escalates = false := by
  cases req <;> first | rfl | exact nomatch h

/-- What the monitor of the writes says about a worker. -/
theorem resolvesOnly_of_justified {config : Ops.Config} {req : Ops.Request} (hreq : isWork req = true)
    {l : Ops.OpsLog} {op : Ops.Call} (h : Ops.justified config req l op) : resolvesOnly l op := by
  -- every write of the book is justified by a request, and work is none of those
  cases op with
  | saveContract c => cases h with
    | created auth body id now hr =>
      rw [hr] at hreq
      exact nomatch hreq
    | patched auth id status c now hr =>
      rw [hr] at hreq
      exact nomatch hreq
    | anchored auth id body c confirmed now hr =>
      rw [hr] at hreq
      exact nomatch hreq
  | saveDispute d => cases h with
    | filed _ auth body hr =>
      rw [hr] at hreq
      exact nomatch hreq
    | reviewStarted auth id next d t deadline hr =>
      rw [hr] at hreq
      exact nomatch hreq
    | refiled auth id next d t hr =>
      rw [hr] at hreq
      exact nomatch hreq
    | escalated d t hr =>
      rw [escalates_of_isWork hreq] at hr
      exact nomatch hr
    | decided auth id body d record t hr =>
      rw [hr] at hreq
      exact nomatch hreq
    | pending d body chosen row t hx =>
      obtain ⟨auth, id, hr, -⟩ := hx.isExecution
      rw [hr] at hreq
      exact nomatch hreq
    -- but one: the dispute of an answered row
    | resolved id d row t hget =>
      exact ⟨d, .byId id hget, ⟨rfl, rfl⟩, Ops.executionResult_resolves _, rfl⟩
  | saveDecision record => cases h with
    | mk auth id body d hr =>
      rw [hr] at hreq
      exact nomatch hreq
  | submitAndWaitFromWallet tx => cases h with
    | mk auth id body d hr =>
      rw [hr] at hreq
      exact nomatch hreq
  | _ => trivial

/-- A message of the stream resolves at most the dispute it is about. -/
theorem handleTransaction_worked (stream : Ops.TransactionStream) (throttled : Bool) {l : Ops.OpsLog} :
    Safe resolvesOnly (Ops.handleTransaction stream throttled) l :=
  -- The settings play no part in the handler.
  have hjustified : Ops.Justified Ops.sampleConfig (.streamTransaction stream throttled)
      (Ops.handleTransaction stream throttled) l := Ops.handleTransaction_justified stream throttled
  wp_monitor_weaken (fun _ _ h => resolvesOnly_of_justified rfl h) hjustified

/-- So does a tick of the policy worker. -/
theorem policyTick_worked (config : Ops.Config) {l : Ops.OpsLog} :
    Safe resolvesOnly (Ops.policyTick config) l :=
  have hjustified : Ops.Justified config .policyTick (Ops.policyTick config) l :=
    Ops.policyTick_justified
  wp_monitor_weaken (fun _ _ h => resolvesOnly_of_justified rfl h) hjustified

/-- Calls that every worker may make. -/
def plain : Api.calls.Op → Bool
  | .inl op => op.isQuiet || Api.isRead (.inl op)
  | .inr op => workerCall op

/-- A plain call is allowed to every worker. -/
theorem apiWorked_of_plain {l : Api.ApiLog} {op : Api.calls.Op} (h : plain op = true) :
    apiWorked l op := by
  cases op with
  | inl op => cases op <;> trivial
  | inr op => exact h

/-- A read is plain. -/
theorem plain_of_isRead {op : Api.calls.Op} (h : Api.isRead op = true) : plain op = true := by
  cases op with
  | inl op => exact Bool.or_eq_true_iff.mpr (.inr h)
  | inr op => cases op <;> first | rfl | exact nomatch h

/-- So are the quiet calls of the book. -/
theorem plain_ops {p : Ops.OpsM α} (hp : Only (fun op : Ops.Call => op.isQuiet = true) p) :
    Only (fun op => plain op = true) (Api.ofOps p) :=
  .inl (hp.mono fun _ h => Bool.or_eq_true_iff.mpr (.inl h))

/-- So is an event. -/
theorem plain_event (eventType entityType entityId : String) (payload : Ops.JsonObject) :
    Only (fun op => plain op = true) (Api.ofOps (Ops.emitEvent eventType entityType entityId payload)) :=
  plain_ops (.bind (.call rfl) fun _ => .bind (.call rfl) fun _ => .bind (.call rfl) fun _ => .call rfl)

/-- A message of the ledger stream. -/
theorem handleMessage_worked (touchEnabled : Bool) (msg : Api.Message) {l : Api.ApiLog} :
    Safe apiWorked (Api.handleMessage touchEnabled msg) l := by
  cases msg with
  | transaction stream throttled => exact apiWorked_ofOps (handleTransaction_worked stream throttled)
  | ledgerClosed stream =>
    have hplain : Only (fun op => plain op = true) (Api.handleLedgerClosed stream touchEnabled) := by
      refine .bind (plain_ops (.call rfl)) fun inserted => .ite (.bind (plain_event ..) fun _ => ?_) .pure
      unfold Api.afterSettlementLedgerClosedEvent
      refine .ite (.bind ?_ fun ym => ?_) .pure
      · unfold Api.calendarMonthFromLedgerStream
        split
        · exact .pure
        · exact .bind (plain_ops (.call rfl)) fun _ => .pure
      · exact .bind (plain_ops (.call rfl)) fun now => .bind (.call rfl) fun n => plain_event ..
    exact hplain.safe (fun _ _ h => apiWorked_of_plain h) l

/-- A tick of the export worker. -/
theorem runExportJobTick_worked (batchSize : Nat) {l : Api.ApiLog} :
    Safe apiWorked (Api.runExportJobTick batchSize) l := by
  have hjob : ∀ job, Only (fun op => plain op = true) (Api.runExportJob job) := by
    intro job
    refine .tryCatch (.bind ?_ fun rows => ?_) fun e => ?_
    · exact (Api.exportAudits_reads ..).mono fun op h => plain_of_isRead h
    · exact .bind (plain_ops (.call rfl)) fun now => .call rfl
    · exact .bind (plain_ops (.call rfl)) fun now => .call rfl
  refine Gives.bind (R := fun _ _ => True) ?_ fun now l₁ _ _ => ?_
  · exact apiWorked_ofOps (Gives.call trivial fun _ => trivial)
  refine Gives.call_then rfl fun claimed l₂ _ => ?_
  exact Gives.forM fun job l₃ _ _ => (hjob job).safe (fun _ _ h => apiWorked_of_plain h) l₃

/-- Before the notifications are carried out. -/
theorem program_allowed (req : Request) :
    Safe (allowed settings req) (program settings req) [] := by
  cases req with
  | http headers entry => exact Gives.map (serveHttp_allowed headers entry)
  | message msg => exact Gives.map (worked_ofApi (handleMessage_worked _ msg))
  | policyTick => exact Gives.map (worked_ofApi (apiWorked_ofOps (policyTick_worked _)))
  | notificationTick => exact Gives.map (worked_ofNotify _)
  | fanoutTick => exact Gives.map (worked_ofNotify _)
  | exportJobTick => exact Gives.map (worked_ofApi (runExportJobTick_worked _))

end Workers

/-! ## Notifications -/

section Notifications

variable {config : Config} {settings : Settings} {caller : Caller} {req : Request} {l l' : BackendLog}
  {op : calls.Op}

/-- What was granted stays granted when enqueues are carried out. -/
theorem granted_carried (hl : CarriedLog l l') (h : granted config caller l op) :
    granted config caller l' op := by
  match op with
  | .inl (.inl op) => exact hl.api.granted h
  | .inl (.inr op) => exact h
  | .inr (.upsertDisputeVerifierRegistryEntry e) => exact h
  | .inr (.createExportJob job) => exact h

/-- A worker that resolves a dispute has read it in both logs. -/
theorem worked_carried (hl : CarriedLog l l') (h : worked l op) : worked l' op := by
  match op with
  | .inl (.inl (.inl op)) =>
    cases op with
    | saveDispute d =>
      obtain ⟨copy, hread, hrest⟩ := h
      exact ⟨copy, hl.api.ops.readDispute hread, hrest⟩
    | _ => exact h
  | .inl (.inl (.inr op)) => exact h
  | .inl (.inr op) => exact h
  | .inr op => exact h

/-- So does what a request is allowed. -/
theorem allowed_carried (hl : CarriedLog l l') (h : allowed settings req l op) :
    allowed settings req l' op := by
  cases req with
  | http headers entry =>
    obtain ⟨auth, hauth, hgrant⟩ := h
    exact ⟨auth, hauth, granted_carried hl hgrant⟩
  | _ => exact worked_carried hl h

/-- Every role may have notifications enqueued. -/
theorem granted_added (hrole : HasRole config.ops caller.auth allRoles) (h : addedCall op) :
    granted config caller l op := by
  match op with
  | .inl (.inr op) =>
    cases op with
    | saveNotification n => exact ⟨hrole, h⟩
    | appendNotificationOutbox row => exact ⟨hrole, h⟩
    | clock => trivial
    | randomId tag => trivial
    | appendEvent event => trivial
    | _ => exact h.elim
  | .inl (.inl op) => exact h.elim
  | .inr op => exact h.elim

/-- The calls that carry out an enqueue are allowed to every worker. -/
theorem worked_added (h : addedCall op) : worked l op := by
  match op with
  | .inl (.inr op) => trivial
  | .inl (.inl op) => exact h.elim
  | .inr op => exact h.elim

/-- A request without valid headers makes no call. -/
theorem handle_refused {headers : Api.Headers} {entry : Entry} {reply : Response}
    (hauth : Api.authenticate settings.api headers = .error reply) :
    handle settings (.http headers entry) = pure (some reply) := by
  have hserve : serveHttp settings headers entry = pure reply := by
    unfold serveHttp
    rw [hauth]
  show interp _ (some <$> serveHttp settings headers entry) = _
  rw [hserve]
  rfl

/-- The backend as it is, with its notifications. -/
theorem handle_allowed (req : Request) :
    Safe (allowed settings req) (handle settings req) [] := by
  have hstays : ∀ l l' op, CarriedLog l l' → staysCall op → allowed settings req l op →
      allowed settings req l' op := fun _ _ _ hl _ => allowed_carried hl
  have hcarried (hadded : ∀ l op, addedCall op → allowed settings req l op) :
      Safe (allowed settings req) (handle settings req) [] :=
    Safe.carried (fun _ => carryOut_stays settings) (fun _ => carryOut_added settings) hstays hadded
      (program_allowed req) .nil
  cases req with
  | http headers entry =>
    cases hauth : Api.authenticate settings.api headers with
    | error reply =>
      rw [handle_refused hauth]
      exact Gives.pure trivial
    | ok auth =>
      exact hcarried fun _ _ h => ⟨auth, hauth, granted_added (hasRole_of_authenticate hauth) h⟩
  | _ => exact hcarried fun _ _ h => worked_added h

end Notifications

/-! ## Runs -/

/-- In every run, whatever else is in progress and whatever fails: each call of a request to
    `/v1` comes after its authentication and is granted to its caller, and each call of a worker
    is one that workers may make. -/
theorem calls_allowed (settings : Settings) {s : Store} {P : BackendPool}
    {ms : List (Move BackendPool (Act Request Choice))}
    (run : Run (backendStep settings) ⟨s, []⟩ ms P) :
    ∀ m ∈ ms, ∀ th op c, MakesCall m th op c → allowed settings th.req th.log op := by
  intro m hm th op c hcall
  have hsafe : ∀ u ∈ m.before.threads, u.Safe (allowed settings) :=
    run.invariant_before (P := fun P => ∀ u ∈ P.threads, u.Safe (allowed settings))
      (C := fun _ => True) (fun _ _ => trivial) (fun u hu => nomatch hu)
      (fun m hm _ h => poolStep_safe handle_allowed hm h) hm
  obtain ⟨i, k, -, hth, hprog⟩ := hcall
  exact (hsafe th (List.mem_of_getElem? hth)).ok_of_await hprog

/-- The status of the contract `ctr_1`. -/
def sampleStatus (P : BackendPool) : Option Ops.ContractStatus :=
  (P.store.api.ops.contracts.get? "ctr_1").map Ops.Contract.status

/-- A tenant creates a contract and its landlord moves it on, while a stranger tries the same. -/
theorem calls_allowed_sample :
    ∃ ms P, Run (backendStep sampleSettings) ⟨.empty, []⟩ ms P ∧
      sampleStatus P = some .escrowPending ∧
      ∀ m ∈ ms, ∀ th op c, MakesCall m th op c → allowed sampleSettings th.req th.log op := by
  obtain ⟨ms, P, run, hp⟩ := exists_run_of_replay (sampleActs sampleSchedule)
    (fun r => decide (sampleStatus r.2 = some .escrowPending))
    (by decide +kernel : (replay (backendStep sampleSettings) ⟨.empty, []⟩ _ []).any _ = true)
  exact ⟨ms, P, run, of_decide_eq_true hp, calls_allowed sampleSettings run⟩

end Bluesafe.Backend
