import Bluesafe.Async.Keeps
import Bluesafe.ForStd.LogReader
import Bluesafe.Spec.BookRefinement

/-!
# The audit log as a journal

What an auditor can know from the audit log alone. `journal` reads the entries of contracts,
disputes and decisions: from an entry it takes what the entry says about the object afterwards
(`after`), and it checks what the entry says about the object before (`before`). The tables of
the store have a view of the same type, with all columns of a contract but its timestamps, and
of a dispute and a decision the columns that the audit log records.

Handled one after the other by a repository that answers, requests leave the view of the tables
where the journal says it is (`journal_rebuilds`).
-/

namespace Bluesafe.Ops

open Async Transition

/-! ## Fields of an entry -/

def Json.text? : Json → Option String
  | .str s => some s
  | _ => none

def Json.time? : Json → Option Time
  | .time t => some t
  | _ => none

def Json.num? : Json → Option Int
  | .num n => some n
  | _ => none

/-- A field of `before` or `after`. -/
def fieldOf (o : Option JsonObject) (name : String) : Option Json :=
  o.bind (List.lookup name)

def textOf (o : Option JsonObject) (name : String) : Option String :=
  (fieldOf o name).bind Json.text?

/-- Looking a field up, with the first one apart. -/
theorem lookup_field (name other : String) (j : Json) (o : JsonObject) :
    List.lookup other ((name, j) :: o) = if other = name then some j else o.lookup other := by
  rw [List.lookup_cons]
  by_cases h : other = name
  · simp [h]
  · have hne : (other == name) = false := by simpa using h
    rw [hne, if_neg h]

/-- A field that is sent only when it has a value. -/
theorem lookup_opt (name other : String) (o : Option Json) :
    (JsonObject.opt name o).lookup other = if other = name then o else none := by
  cases o with
  | none => simp [JsonObject.opt]
  | some j => exact lookup_field name other j []

/-- An optional text is read back. -/
@[simp] theorem text_map (o : Option String) : (o.map Json.str).bind Json.text? = o := by
  cases o <;> rfl

/-! ## The views -/

/-- A contract without its key and its timestamps. -/
structure ContractView where
  tenantId : String
  landlordId : String
  status : String
  escrowCreateTxHash : Option String
  depositAmount : Option String
  stakeAmount : Option String
  startsAt : Option String
  endsAt : Option String
  deriving DecidableEq

/-- What the audit log says about a dispute. -/
structure DisputeView where
  contractId : String
  raisedBy : String
  reasonCode : String
  evidenceCount : Int
  status : String
  escalatedAt : Option Time
  deriving DecidableEq

/-- What the audit log says about a decision. -/
structure DecisionView where
  disputeId : String
  decision : String
  deriving DecidableEq

structure JournalView where
  contract : String → Option ContractView
  dispute : String → Option DisputeView
  decision : String → Option DecisionView

def Contract.view (c : Contract) : ContractView where
  tenantId := c.tenantId
  landlordId := c.landlordId
  status := c.status.text
  escrowCreateTxHash := c.escrowCreateTxHash
  depositAmount := c.depositAmount
  stakeAmount := c.stakeAmount
  startsAt := c.startsAt
  endsAt := c.endsAt

def DisputeCase.view (d : DisputeCase) : DisputeView where
  contractId := d.contractId
  raisedBy := d.raisedBy.text
  reasonCode := d.reasonCode
  evidenceCount := d.evidenceBundle.length
  status := d.status.text
  escalatedAt := d.escalatedAt

def CaseDecision.view (d : CaseDecision) : DecisionView where
  disputeId := d.disputeId
  decision := d.decision.text

def Store.view (s : Store) : JournalView where
  contract id := (s.contracts.get? id).map Contract.view
  dispute id := (s.disputes.get? id).map DisputeCase.view
  decision id := (s.decisions.get? id).map CaseDecision.view

namespace JournalView

def setContract (v : JournalView) (id : String) (c : ContractView) : JournalView :=
  { v with contract := Function.update v.contract id (some c) }

def setDispute (v : JournalView) (id : String) (d : DisputeView) : JournalView :=
  { v with dispute := Function.update v.dispute id (some d) }

def setDecision (v : JournalView) (id : String) (d : DecisionView) : JournalView :=
  { v with decision := Function.update v.decision id (some d) }

/-- Change the contract an entry is about. -/
def onContract (v : JournalView) (id : String) (f : ContractView → ContractView) : JournalView :=
  match v.contract id with
  | some c => v.setContract id (f c)
  | none => v

/-- Change the dispute an entry is about. -/
def onDispute (v : JournalView) (id : String) (f : DisputeView → DisputeView) : JournalView :=
  match v.dispute id with
  | some d => v.setDispute id (f d)
  | none => v

end JournalView

/-! ## The entries -/

/-- The contract of `contract.created`. -/
def AuditLog.createdContract (a : AuditLog) : ContractView where
  tenantId := (textOf a.after "tenantId").getD ""
  landlordId := (textOf a.after "landlordId").getD ""
  status := (textOf a.after "status").getD ""
  escrowCreateTxHash := none
  depositAmount := textOf a.after "depositAmount"
  stakeAmount := textOf a.after "stakeAmount"
  startsAt := textOf a.after "startsAt"
  endsAt := textOf a.after "endsAt"

/-- The dispute of `dispute.filed`; who filed it is the actor of the entry. -/
def AuditLog.filedDispute (a : AuditLog) : DisputeView where
  contractId := (textOf a.after "contractId").getD ""
  raisedBy := a.actorId
  reasonCode := (textOf a.after "reasonCode").getD ""
  evidenceCount := ((fieldOf a.after "evidenceCount").bind Json.num?).getD 0
  status := "filed"
  escalatedAt := none

/-- A dispute after a change of its status; back at `filed` it is no longer escalated. -/
def DisputeView.moved (d : DisputeView) (status : String) : DisputeView :=
  { d with status := status, escalatedAt := if status = "filed" then none else d.escalatedAt }

/-- The decision of `dispute.decision_recorded` and its identifier. -/
def AuditLog.recordedDecision (a : AuditLog) : String × DecisionView :=
  ((textOf a.after "decisionId").getD "", ⟨a.entityId, (textOf a.after "decision").getD ""⟩)

/-- The status after the entry. -/
def AuditLog.newStatus (a : AuditLog) : String :=
  (textOf a.after "status").getD ""

/-- What an entry does. -/
def JournalView.apply (v : JournalView) (a : AuditLog) : JournalView :=
  match a.action with
  | "contract.created" => v.setContract a.entityId a.createdContract
  | "contract.status_changed" => v.onContract a.entityId fun c => { c with status := a.newStatus }
  | "contract.escrow_anchor_updated" => v.onContract a.entityId fun c =>
    { c with status := a.newStatus, escrowCreateTxHash := textOf a.after "escrowCreateTxHash" }
  | "dispute.filed" => v.setDispute a.entityId a.filedDispute
  | "dispute.status_patched" => v.onDispute a.entityId fun d => d.moved a.newStatus
  | "dispute.escalated" => v.onDispute a.entityId fun d =>
    { d with escalatedAt := (fieldOf a.after "escalatedAt").bind Json.time? }
  | "dispute.decision_recorded" =>
    (v.setDecision a.recordedDecision.1 a.recordedDecision.2).onDispute a.entityId
      fun d => d.moved a.newStatus
  | "dispute.execution_requested" => v.onDispute a.entityId fun d => d.moved a.newStatus
  | "dispute.execution_status_updated" => v.onDispute a.entityId fun d => d.moved a.newStatus
  | _ => v

/-- What an entry claims about the object before it: the status, where it names one, and the
    escrow hash of a contract whose hash it replaces. -/
def JournalView.Agrees (v : JournalView) (a : AuditLog) : Prop :=
  (∀ status, textOf a.before "status" = some status →
    (a.entityType = "contract" → (v.contract a.entityId).map ContractView.status = some status) ∧
    (a.entityType = "dispute" → (v.dispute a.entityId).map DisputeView.status = some status)) ∧
  (a.action = "contract.escrow_anchor_updated" →
    (v.contract a.entityId).map ContractView.escrowCreateTxHash =
      some (textOf a.before "escrowCreateTxHash"))

/-- How contracts, disputes and decisions are read off the audit log. -/
def journal : LogReader AuditLog JournalView where
  apply := JournalView.apply
  Agrees := JournalView.Agrees

/-- The audit log accounts for everything that happened between two states. -/
def Chronicle (s t : Store) : Prop :=
  journal.Accounts Store.audits Store.view s t

/-! ## The views after a save -/

section Views

variable (s : Store)

/-- A contract that is stored is stored in the view. -/
theorem view_setContract (c : Contract) :
    { s with contracts := s.contracts.set c }.view = s.view.setContract c.id c.view := by
  simp only [Store.view, JournalView.setContract, JournalView.mk.injEq, and_true]
  funext id
  rw [Table.get?_set, Function.update_apply]
  split <;> rfl

/-- So is a dispute. -/
theorem view_setDispute (d : DisputeCase) :
    { s with disputes := s.disputes.set d }.view = s.view.setDispute d.id d.view := by
  simp only [Store.view, JournalView.setDispute, JournalView.mk.injEq, and_true, true_and]
  funext id
  rw [Table.get?_set, Function.update_apply]
  split <;> rfl

/-- And a decision. -/
theorem view_setDecision (d : CaseDecision) :
    { s with decisions := s.decisions.set d }.view = s.view.setDecision d.id d.view := by
  simp only [Store.view, JournalView.setDecision, JournalView.mk.injEq, true_and]
  funext id
  rw [Table.get?_set, Function.update_apply]
  split <;> rfl

/-- A dispute is stored together with its decision. -/
theorem view_decided (decision : CaseDecision) (d : DisputeCase) :
    { s with decisions := s.decisions.set decision, disputes := s.disputes.set d }.view =
      (s.view.setDecision decision.id decision.view).setDispute d.id d.view := by
  rw [← view_setDecision]
  exact view_setDispute { s with decisions := s.decisions.set decision } d

variable {s} {id : String}

/-- The view has the contract of the store. -/
theorem view_contract {c : Contract} (h : s.contracts.get? id = some c) :
    s.view.contract id = some c.view :=
  congrArg (Option.map Contract.view) h

/-- And its dispute. -/
theorem view_dispute {d : DisputeCase} (h : s.disputes.get? id = some d) :
    s.view.dispute id = some d.view :=
  congrArg (Option.map DisputeCase.view) h

/-- A change of a contract that is there. -/
theorem onContract_eq {v : JournalView} {c : ContractView} (h : v.contract id = some c)
    (f : ContractView → ContractView) : v.onContract id f = v.setContract id (f c) := by
  unfold JournalView.onContract
  rw [h]

/-- A change of a dispute that is there. -/
theorem onDispute_eq {v : JournalView} {d : DisputeView} (h : v.dispute id = some d)
    (f : DisputeView → DisputeView) : v.onDispute id f = v.setDispute id (f d) := by
  unfold JournalView.onDispute
  rw [h]

end Views

/-- A dispute that moves on is not filed anew. -/
theorem moved_view (d : DisputeCase) {status : DisputeStatus} (h : status ≠ .filed) (now : Time) :
    d.view.moved status.text = { d with status := status, updatedAt := now }.view := by
  have hne : status.text ≠ "filed" := by
    cases status <;> simp [DisputeStatus.text] at h ⊢
  simp only [DisputeView.moved, DisputeCase.view, if_neg hne]

/-! ## Programs -/

/-- A call that leaves contracts, disputes and decisions alone and writes no entry about them. -/
def Call.IsPlain : Call → Prop
  | .saveContract _ => False
  | .saveDispute _ => False
  | .saveDecision _ => False
  | .appendAudit a => journal.Unread a
  | _ => True

/-- A plain call writes nothing that the journal has to tell. -/
theorem chronicle_perform {op : Call} (hop : op.IsPlain) (c : Choice) (s : Store) :
    Chronicle s (perform op c s).2 := by
  cases op with
  | saveContract c => exact hop.elim
  | saveDispute d => exact hop.elim
  | saveDecision d => exact hop.elim
  | appendAudit a => exact .entry rfl (hop s.view).1.symm (hop s.view).2
  | tryRecordXrplIngestionEvent key =>
    simp only [perform]
    split <;> exact .same rfl rfl
  | createDelayedJobIfAbsent job =>
    simp only [perform]
    split <;> exact .same rfl rfl
  | bumpDelayedJob p =>
    simp only [perform]
    split <;> exact .same rfl rfl
  | _ => exact .same rfl rfl

/-- The same for a call that may fail. -/
theorem chronicle_serve {op : Call} (hop : op.IsPlain) (c : Choice) (s : Store) :
    Chronicle s (serve op c s).2 := by
  rcases serve_state op c s with h | h <;> rw [h]
  · exact chronicle_perform hop c s
  · exact .refl s

/-- `p`, run alone from `s`, ends in a state that the journal accounts for since `s₀`. -/
def Chronicles {α : Type} (s₀ : Store) (p : OpsM α) (s : Store) : Prop :=
  ∀ l, wp (seqSpec reliable) p (fun _ g => Chronicle s₀ g.2) (fun _ g => Chronicle s₀ g.2) (l, s)

namespace Chronicles

variable {α β : Type} {s₀ s : Store}

/-- A value leaves the chronicle. -/
theorem pure {a : α} (h : Chronicle s₀ s) : Chronicles s₀ (Pure.pure a) s := fun _ => h

/-- So does an error. -/
theorem throw {e : String} (h : Chronicle s₀ s) :
    Chronicles s₀ (MonadExcept.throw e : OpsM α) s := fun _ => h

/-- A program of plain calls. -/
theorem of_only {p : OpsM α} (hp : Only (I := calls) Call.IsPlain p) (h : Chronicle s₀ s) :
    Chronicles s₀ p s := by
  intro l
  have hkeeps : Async.Keeps reliable (fun g => Chronicle s₀ g.2) p fun _ => True :=
    Async.Keeps.of_only hp fun op c l s hop hs _ => hs.trans (chronicle_serve hop c s)
  exact wp_mono _ _ (seqSpec_mono reliable) (fun _ _ h => h.1) (fun _ _ h => h)
    (hkeeps.toWp (g := (l, s)) h)

/-- One program after the other. -/
theorem bind {p : OpsM β} {f : β → OpsM α} (hp : Chronicles s₀ p s)
    (hf : ∀ b t, Chronicle s₀ t → Chronicles s₀ (f b) t) : Chronicles s₀ (p >>= f) s := by
  intro l
  rw [wp_bind]
  exact wp_mono _ _ (seqSpec_mono reliable) (fun b g h => hf b g.2 h g.1) (fun _ _ h => h) (hp l)

/-- The result is of no account. -/
theorem map {p : OpsM β} {f : β → α} (hp : Chronicles s₀ p s) : Chronicles s₀ (f <$> p) s :=
  bind hp fun _ _ h => pure h

/-- The handler goes on with the chronicle. -/
theorem tryCatch {p : OpsM α} {f : String → OpsM α} (hp : Chronicles s₀ p s)
    (hf : ∀ e t, Chronicle s₀ t → Chronicles s₀ (f e) t) :
    Chronicles s₀ (MonadExcept.tryCatch p f) s := by
  intro l
  rw [wp_tryCatch]
  exact wp_mono _ _ (seqSpec_mono reliable) (fun _ _ h => h) (fun e g h => hf e g.2 h g.1) (hp l)

/-- A loop with an accumulator, one element after the other. -/
theorem foldlM {xs : List α} {f : β → α → OpsM β} {b : β} (h : Chronicle s₀ s)
    (hf : ∀ b x t, Chronicle s₀ t → Chronicles s₀ (f b x) t) :
    Chronicles s₀ (xs.foldlM f b) s := by
  induction xs generalizing b s with
  | nil => exact pure h
  | cons x xs ih =>
    rw [List.foldlM_cons]
    exact bind (hf b x s h) fun _ _ ht => ih ht

/-- A loop, one element after the other. -/
theorem forM {xs : List α} {f : α → OpsM PUnit} (h : Chronicle s₀ s)
    (hf : ∀ x t, Chronicle s₀ t → Chronicles s₀ (f x) t) : Chronicles s₀ (ForM.forM xs f) s := by
  induction xs generalizing s with
  | nil => exact pure h
  | cons x xs ih =>
    rw [List.forM_cons]
    exact bind (hf x s h) fun _ _ ht => ih ht

/-- A call of the repository and what follows it. -/
theorem call_bind {op : Call} {f : op.Res → OpsM α} (hop : op.isLedger = false)
    (hf : ∀ c, Chronicles s₀ (f (perform op c s).1) (perform op c s).2) :
    Chronicles s₀ (invoke op >>= f) s := by
  intro l
  rw [wp_bind]
  exact wp_invoke hop fun c => hf c _

/-- A call of the ledger and what follows it. -/
theorem ledger_bind {op : Call} {f : op.Res → OpsM α} (hop : op.isLedger = true)
    (h : Chronicle s₀ s) (hf : ∀ a, Chronicles s₀ (f a) s) :
    Chronicles s₀ (invoke op >>= f) s := by
  intro l
  rw [wp_bind]
  exact wp_ledger hop (fun a => hf a _) fun _ => h

/-- The entry that accounts for the difference between `s` and `t`, and what follows it. -/
theorem writeAudit_bind {t : Store} {entityType entityId action actorId : String}
    {before after metadata : Option JsonObject} {f : Unit → OpsM α} (h : Chronicle s₀ s)
    (haudits : t.audits = s.audits)
    (hentry : ∀ id now, journal.apply s.view
      ⟨id, entityType, entityId, action, actorId, before, after, metadata, now⟩ = t.view)
    (hagrees : ∀ id now, journal.Agrees s.view
      ⟨id, entityType, entityId, action, actorId, before, after, metadata, now⟩)
    (hf : ∀ u, Chronicle s₀ u → Chronicles s₀ (f ()) u) :
    Chronicles s₀ (writeAudit entityType entityId action actorId before after metadata >>= f)
      t := by
  refine bind ?_ fun _ u hu => hf u hu
  unfold Ops.writeAudit
  refine call_bind rfl fun c => call_bind rfl fun c' => ?_
  intro l
  refine wp_invoke rfl fun c'' => h.trans (.entry ?_ (hentry c.id c'.now).symm (hagrees c.id c'.now))
  exact congrArg (List.cons _) haudits

end Chronicles

end Bluesafe.Ops
