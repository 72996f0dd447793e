import Bluesafe.Ops.System
import Bluesafe.Async.Safe

/-!
# What the backend may write

One statement for each table: what a row that a request is about to save can be, in
terms of the request and of the answers it has received so far (`TxWrite`,
`DisputeWrite`, `ContractWrite`, `DecisionWrite`). `justified` collects them into a
monitor, and `Spec/Justified` proves that every handler and worker meets it.

Everything else about the backend as a whole is derived from these statements; no later
proof looks into a handler again.
-/

namespace Bluesafe.Ops

open Async

/-! ## Answers in a log -/

/-- The request has received the answer `a` to `op`. -/
def Answered (l : OpsLog) (op : Call) (a : op.Res) : Prop :=
  (⟨op, .ok a⟩ : Event calls String) ∈ l

/-- An answer stays in the log. -/
theorem Answered.mono {l l' : OpsLog} {op : Call} {a : op.Res} (h : Answered l op a)
    (hl : l <:+ l') : Answered l' op a :=
  hl.subset h

/-- The newest call is answered. -/
theorem Answered.head {l : OpsLog} {op : Call} {a : op.Res} :
    Answered (⟨op, .ok a⟩ :: l) op a :=
  List.mem_cons_self

/-- A stored row the request has read: by its hash or in a listing. -/
inductive ReadRow (l : OpsLog) (row : XrplTransaction) : Prop
  | byHash (h : String) (hget : Answered l (.getXrplTx h) (some row))
  | listed (rows : List XrplTransaction) (hlist : Answered l .listXrplTxs rows)
      (hmem : row ∈ rows)

/-- A row that was read stays so. -/
theorem ReadRow.mono {l l' : OpsLog} {row : XrplTransaction} (h : ReadRow l row)
    (hl : l <:+ l') : ReadRow l' row := by
  cases h with
  | byHash h hget => exact .byHash h (hget.mono hl)
  | listed rows hlist hmem => exact .listed rows (hlist.mono hl) hmem

/-- A stored dispute the request has read. -/
inductive ReadDispute (l : OpsLog) (d : DisputeCase) : Prop
  | byId (id : String) (hget : Answered l (.getDispute id) (some d))
  | listed (status : DisputeStatus) (limit offset : Nat) (items : List DisputeCase)
      (hlist : Answered l (.listDisputesPage status limit offset) items) (hmem : d ∈ items)

/-- So does a dispute. -/
theorem ReadDispute.mono {l l' : OpsLog} {d : DisputeCase} (h : ReadDispute l d)
    (hl : l <:+ l') : ReadDispute l' d := by
  cases h with
  | byId id hget => exact .byId id (hget.mono hl)
  | listed status limit offset items hlist hmem =>
    exact .listed status limit offset items (hlist.mono hl) hmem

/-- The ledger said `live` about `h`: by `tx`, by `account_tx` or on the stream. -/
inductive Reported (req : Request) (l : OpsLog) (h : String) (live : LiveTxStatus) : Prop
  | tx (hget : Answered l (.getTxStatus h) (some live))
  | accountTx (account : String) (map : List (String × LiveTxStatus))
      (hget : Answered l (.getAccountTxResults account) map) (hmap : map.lookup h = some live)
  | stream (msg : TransactionStream) (throttled : Bool) (i : Int)
      (hreq : req = .streamTransaction msg throttled) (hacc : msg.accepted = some (h, i))
      (hlive : live = msg.asAnswer h i)

/-- What the ledger has reported stays reported. -/
theorem Reported.mono {req : Request} {l l' : OpsLog} {h : String} {live : LiveTxStatus}
    (hr : Reported req l h live) (hl : l <:+ l') : Reported req l' h live := by
  cases hr with
  | tx hget => exact .tx (hget.mono hl)
  | accountTx account map hget hmap => exact .accountTx account map (hget.mono hl) hmap
  | stream msg throttled i hreq hacc hlive => exact .stream msg throttled i hreq hacc hlive

/-- The request has recorded that the live part of a backfill failed. -/
def LiveFailed (l : OpsLog) : Prop :=
  ∃ log : AuditLog, Answered l (.appendAudit log) () ∧ log.action = "xrpl.backfill.live_failed"

/-- A failure of the ledger stays in the log. -/
theorem LiveFailed.mono {l l' : OpsLog} (h : LiveFailed l) (hl : l <:+ l') : LiveFailed l' := by
  obtain ⟨log, hlog, hact⟩ := h
  exact ⟨log, hlog.mono hl, hact⟩

/-- The request is a backfill that simulates the unvalidated row `tx`; in live mode only
    after its live part failed. -/
structure Simulates (config : Config) (req : Request) (l : OpsLog) (body : BackfillBody)
    (tx : XrplTransaction) : Prop where
  isBackfill : ∃ auth, req = .backfill auth body
  read : ∃ rows, Answered l .listXrplTxs rows ∧ tx ∈ rows
  unvalidated : tx.validated = false
  failed : config.xrplEnabled = true → LiveFailed l

/-- The reason for a simulated answer stays. -/
theorem Simulates.mono {config : Config} {req : Request} {l l' : OpsLog} {body : BackfillBody}
    {tx : XrplTransaction} (h : Simulates config req l body tx) (hl : l <:+ l') :
    Simulates config req l' body tx := by
  obtain ⟨rows, hrows, hmem⟩ := h.read
  exact ⟨h.isBackfill, ⟨rows, hrows.mono hl, hmem⟩, h.unvalidated, fun he => (h.failed he).mono hl⟩

/-- An answer `applyLiveTxStatus` is called with: the ledger's, or a simulated one. -/
inductive Applied (config : Config) (req : Request) (l : OpsLog) (h : String)
    (live : LiveTxStatus) : Prop
  | ledger (hr : Reported req l h live)
  | simulated (body : BackfillBody) (tx : XrplTransaction) (now : Time)
      (hs : Simulates config req l body tx) (hh : h = tx.txHash)
      (hlive : live = (tx.simulated body now).asAnswer)

/-- So does the source of an answer that was applied. -/
theorem Applied.mono {config : Config} {req : Request} {l l' : OpsLog} {h : String}
    {live : LiveTxStatus} (ha : Applied config req l h live) (hl : l <:+ l') :
    Applied config req l' h live := by
  cases ha with
  | ledger hr => exact .ledger (hr.mono hl)
  | simulated body tx now hs hh hlive => exact .simulated body tx now (hs.mono hl) hh hlive

/-! ## Execution requests -/

/-- How an execution request comes to its hash. -/
inductive Chosen (config : Config) (l : OpsLog) (body : ExecutionBody) : ExecutionHash → Prop
  | named (h : String) (hbody : truthy body.txHash = some h) :
    Chosen config l body ⟨toUpperCase h, true, false⟩
  | submitted (h : String) (hbody : truthy body.txHash = none)
      (hsub : Answered l (.submitAndWaitFromWallet (buildExecutionTx body)) h) :
    Chosen config l body ⟨h, true, false⟩
  | synthetic (d : DisputeCase) (now : Time) (hbody : truthy body.txHash = none)
      (heff : syntheticExecutionPathEffective config = true) :
    Chosen config l body ⟨syntheticHash config d body.txType now, false, true⟩

/-- The hash of an execution stays chosen. -/
theorem Chosen.mono {config : Config} {l l' : OpsLog} {body : ExecutionBody}
    {chosen : ExecutionHash} (h : Chosen config l body chosen) (hl : l <:+ l') :
    Chosen config l' body chosen := by
  cases h with
  | named h hbody => exact .named h hbody
  | submitted h hbody hsub => exact .submitted h hbody (hsub.mono hl)
  | synthetic d now hbody heff => exact .synthetic d now hbody heff

/-- The request is an execution request for the decided dispute `d` that has settled on
    the hash `chosen` and, in live mode, found no answer contradicting its type. -/
structure Executes (config : Config) (req : Request) (l : OpsLog) (d : DisputeCase)
    (body : ExecutionBody) (chosen : ExecutionHash) : Prop where
  isExecution : ∃ auth id, req = .execution auth id body ∧ Answered l (.getDispute id) (some d)
  decided : d.status = .decided
  source : Chosen config l body chosen
  lookup : config.xrplEnabled = true →
    ∃ live, Answered l (.getTxStatus chosen.txHash) live ∧ typeMismatch chosen body live = none

/-- So do the facts about an execution. -/
theorem Executes.mono {config : Config} {req : Request} {l l' : OpsLog} {d : DisputeCase}
    {body : ExecutionBody} {chosen : ExecutionHash} (h : Executes config req l d body chosen)
    (hl : l <:+ l') : Executes config req l' d body chosen := by
  obtain ⟨auth, id, hreq, hget⟩ := h.isExecution
  refine ⟨⟨auth, id, hreq, hget.mono hl⟩, h.decided, h.source.mono hl, fun he => ?_⟩
  obtain ⟨live, hlive, htype⟩ := h.lookup he
  exact ⟨live, hlive.mono hl, htype⟩

/-- Who calls `upsertTrackedTx` with which parameters. -/
inductive TrackedBy (config : Config) (req : Request) (l : OpsLog) : String → TrackParams → Prop
  | track (auth : Option BluesafeAuth) (body : TrackBody) (hreq : req = .track auth body) :
    TrackedBy config req l body.txHash body.params
  | execution (d : DisputeCase) (body : ExecutionBody) (chosen : ExecutionHash)
      (hx : Executes config req l d body chosen) :
    TrackedBy config req l chosen.txHash (executionParams d body)

/-- And the reason for tracking a hash. -/
theorem TrackedBy.mono {config : Config} {req : Request} {l l' : OpsLog} {h : String}
    {p : TrackParams} (ht : TrackedBy config req l h p) (hl : l <:+ l') :
    TrackedBy config req l' h p := by
  cases ht with
  | track auth body hreq => exact .track auth body hreq
  | execution d body chosen hx => exact .execution d body chosen (hx.mono hl)

/-! ## Writes -/

/-- What a tracked transaction that is saved can be. -/
inductive TxWrite (config : Config) (req : Request) (l : OpsLog) : XrplTransaction → Prop
  | fresh (id h : String) (p : TrackParams) (now : Time) (ht : TrackedBy config req l h p)
      (hget : Answered l (.getXrplTx h) none) : TxWrite config req l (freshTrackedTx id h p now)
  | retracked (h : String) (row : XrplTransaction) (p : TrackParams) (now : Time)
      (ht : TrackedBy config req l h p) (hget : Answered l (.getXrplTx h) (some row)) :
    TxWrite config req l (row.retracked h p now)
  | reconciled (h : String) (row : XrplTransaction) (live : LiveTxStatus) (now : Time)
      (ha : Applied config req l h live) (hget : Answered l (.getXrplTx h) (some row)) :
    TxWrite config req l (row.reconciled live now)
  | simulated (body : BackfillBody) (tx : XrplTransaction) (now : Time)
      (hs : Simulates config req l body tx) : TxWrite config req l (tx.simulated body now)
  | account (row : XrplTransaction) (a : String) (now : Time) (hread : ReadRow l row) :
    TxWrite config req l (row.withAccount a now)
  | probed (row : XrplTransaction) (now : Time) (hread : ReadRow l row) :
    TxWrite config req l (row.probed now)
  | exhausted (row : XrplTransaction) (now : Time) (hread : ReadRow l row) :
    TxWrite config req l (row.exhausted now)

/-- The requests that escalate disputes. -/
def Request.escalates : Request → Bool
  | .escalate _ _ => true
  | .reviewSlaScan _ => true
  | _ => false

/-- What a dispute that is saved can be. Each case but the first names the copy it is
    computed from. -/
inductive DisputeWrite (config : Config) (req : Request) (l : OpsLog) : DisputeCase → Prop
  | filed (d : DisputeCase) (auth : Option BluesafeAuth) (body : CreateDisputeBody)
      (hreq : req = .fileDispute auth body) (hid : Answered l (.randomId "dsp") d.id)
      (hstatus : d.status = .filed) : DisputeWrite config req l d
  | reviewStarted (auth : Option BluesafeAuth) (id : String) (next : ReviewStatus)
      (d : DisputeCase) (t deadline : Time) (hreq : req = .patchDisputeStatus auth id next)
      (hget : Answered l (.getDispute id) (some d)) (hstatus : d.status = .filed) :
    DisputeWrite config req l (d.reviewStarted t deadline)
  | refiled (auth : Option BluesafeAuth) (id : String) (next : ReviewStatus)
      (d : DisputeCase) (t : Time) (hreq : req = .patchDisputeStatus auth id next)
      (hget : Answered l (.getDispute id) (some d)) (hstatus : d.status = .underReview) :
    DisputeWrite config req l (d.refiled t)
  | escalated (d : DisputeCase) (t : Time) (hreq : req.escalates = true)
      (hread : ReadDispute l d) : DisputeWrite config req l (d.escalated t)
  | decided (auth : Option BluesafeAuth) (id : String) (body : DecisionBody) (d : DisputeCase)
      (record : CaseDecision) (t : Time) (hreq : req = .decision auth id body)
      (hget : Answered l (.getDispute id) (some d)) (hstatus : d.status.awaitsDecision = true)
      (hrec : Answered l (.saveDecision record) ()) (hdispute : record.disputeId = d.id) :
    DisputeWrite config req l { d with status := .decided, updatedAt := t }
  | pending (d : DisputeCase) (body : ExecutionBody) (chosen : ExecutionHash)
      (row : XrplTransaction) (t : Time) (hx : Executes config req l d body chosen)
      (hrow : Answered l (.saveXrplTx row) ()) (hhash : row.txHash = chosen.txHash)
      (hlink : row.disputeId = some d.id) :
    DisputeWrite config req l { d with status := .executionPending, updatedAt := t }
  | resolved (id : String) (d : DisputeCase) (row : XrplTransaction) (t : Time)
      (hget : Answered l (.getDispute id) (some d)) (hstatus : d.status = .executionPending)
      (hrow : Answered l (.saveXrplTx row) ()) (hres : row.resolves = some id) :
    DisputeWrite config req l
      { d with status := executionResult row.outcomeClass, updatedAt := t }

/-- What a contract that is saved can be. -/
inductive ContractWrite (config : Config) (req : Request) (l : OpsLog) : Contract → Prop
  | created (auth : Option BluesafeAuth) (body : CreateContractBody) (id : String) (now : Time)
      (hreq : req = .createContract auth body) (hid : Answered l (.randomId "ctr") id) :
    ContractWrite config req l (body.toContract id now)
  | patched (auth : Option BluesafeAuth) (id : String) (status : ContractStatus) (c : Contract)
      (now : Time) (hreq : req = .patchContractStatus auth id status)
      (hget : Answered l (.getContract id) (some c))
      (hallowed : isContractStatusTransitionAllowed c.status status = true) :
    ContractWrite config req l (c.withStatus status now)
  | anchored (auth : Option BluesafeAuth) (id : String) (body : EscrowAnchorBody) (c : Contract)
      (confirmed : Bool) (now : Time) (hreq : req = .patchEscrowAnchor auth id body)
      (hget : Answered l (.getContract id) (some c))
      (hfree : anchorRejected c (trim body.txHash) = none)
      (hconf : confirmed = true →
        ∃ live, Reported req l (trim body.txHash) live ∧ live.anchors = true) :
    ContractWrite config req l (c.anchored (trim body.txHash) confirmed now)

/-- The calls that the exclusivity of a decision and of a submission are about. -/
def Call.isExclusive : Call → Bool
  | .saveDispute _ => true
  | .saveDecision _ => true
  | .submitAndWaitFromWallet _ => true
  | _ => false

/-- The request has made none of these calls yet. -/
def Untouched (l : OpsLog) : Prop :=
  ∀ ev ∈ l, ev.op.isExclusive = false

/-- What a decision that is saved can be. -/
inductive DecisionWrite (req : Request) (l : OpsLog) (record : CaseDecision) : Prop
  | mk (auth : Option BluesafeAuth) (id : String) (body : DecisionBody) (d : DisputeCase)
      (hreq : req = .decision auth id body) (hget : Answered l (.getDispute id) (some d))
      (hstatus : d.status.awaitsDecision = true) (hid : record.disputeId = d.id)
      (hdecision : record.decision = body.decision) (huntouched : Untouched l)

/-- When an escrow transaction may be submitted. -/
inductive SubmitWrite (req : Request) (l : OpsLog) (tx : EscrowExecutionTx) : Prop
  | mk (auth : Option BluesafeAuth) (id : String) (body : ExecutionBody) (d : DisputeCase)
      (hreq : req = .execution auth id body) (hget : Answered l (.getDispute id) (some d))
      (hstatus : d.status = .decided) (htx : tx = buildExecutionTx body)
      (huntouched : Untouched l)

/-- The monitor: every write is one of those above. -/
def justified (config : Config) (req : Request) (l : OpsLog) : Call → Prop
  | .saveXrplTx tx => TxWrite config req l tx
  | .saveDispute d => DisputeWrite config req l d
  | .saveContract c => ContractWrite config req l c
  | .saveDecision record => DecisionWrite req l record
  | .submitAndWaitFromWallet tx => SubmitWrite req l tx
  | _ => True

/-! ## Recording

Audits, events and notifications write no row a monitor is about; one proof serves all
monitors. -/

/-- Calls that save no row and do not ask the ledger. -/
def Call.isQuiet : Call → Bool
  | .saveXrplTx _ => false
  | .saveDispute _ => false
  | .saveContract _ => false
  | .saveDecision _ => false
  | .getTxStatus _ => false
  | .getAccountTxResults _ => false
  | .submitAndWaitFromWallet _ => false
  | _ => true

/-- The monitor accepts every quiet call. -/
def Quiet (ok : OpsLog → Call → Prop) : Prop :=
  ∀ l op, op.isQuiet = true → ok l op

/-- Quiet calls need no reason. -/
theorem quiet_justified (config : Config) (req : Request) : Quiet (justified config req) := by
  intro l op hop
  cases op <;> trivial

section Recording

variable {ok : OpsLog → Call → Prop} {l : OpsLog}

/-- An audit entry needs none. -/
theorem Quiet.writeAudit (hq : Quiet ok) (entityType entityId action actor : String)
    (before after metadata : Option JsonObject) :
    Gives (I := calls) ok (writeAudit entityType entityId action actor before after metadata)
      (fun _ l' => ∃ log : AuditLog, Answered l' (.appendAudit log) () ∧ log.action = action)
      l := by
  unfold Ops.writeAudit
  refine Gives.call_then (hq _ _ rfl) fun id l₁ _ => ?_
  refine Gives.call_then (hq _ _ rfl) fun now l₂ _ => ?_
  exact Gives.call (hq _ _ rfl) fun _ => ⟨_, Answered.head, rfl⟩

/-- Nor does an event. -/
theorem Quiet.emitEvent (hq : Quiet ok) (eventType entityType entityId : String)
    (payload : JsonObject) :
    Safe (I := calls) ok (emitEvent eventType entityType entityId payload) l := by
  unfold Ops.emitEvent
  refine Gives.call_then (hq _ _ rfl) fun _ l₁ _ => ?_
  refine Gives.call_then (hq _ _ rfl) fun _ l₂ _ => ?_
  refine Gives.call_then (hq _ _ rfl) fun _ l₃ _ => ?_
  exact Gives.call (hq _ _ rfl) fun _ => trivial

/-- Nor does a notice to the parties. -/
theorem Quiet.notifyParties (hq : Quiet ok) (contractId eventType : String)
    (payload : JsonObject) :
    Safe (I := calls) ok (notifyParties contractId eventType payload) l := by
  unfold Ops.notifyParties
  refine Gives.call_then (hq _ _ rfl) fun contract l₁ _ => ?_
  cases contract with
  | none => exact Gives.pure trivial
  | some c => exact Gives.call (hq _ _ rfl) fun _ => trivial

/-- Nor does a look at the evidence. -/
theorem Quiet.checkEvidences (hq : Quiet ok) (contractId : String) (ids : List String) :
    Safe (I := calls) ok (checkEvidences contractId ids) l := by
  induction ids generalizing l with
  | nil => exact Gives.pure trivial
  | cons id rest ih =>
    unfold Ops.checkEvidences
    refine Gives.call_then (hq _ _ rfl) fun ev l₁ _ => ?_
    cases ev with
    | none => exact Gives.pure trivial
    | some ev =>
      dsimp only
      split
      · exact Gives.pure trivial
      · exact ih

end Recording

end Bluesafe.Ops
