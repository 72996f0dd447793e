import Bluesafe.Async.Carried
import Bluesafe.Backend.Routes
import Bluesafe.Spec.ApiGrants

/-!
# Grants after the notifications are carried out

The grants of a caller look for answers in the log of the request. In a backend run the call for the
notifications of an occurrence is not in that log; the calls that enqueue them are. No grant looks at
either of them (`SameCalls.granted`), so what is granted to a handler is granted to the program that
`carryOut` makes of it.
-/

namespace Bluesafe.Ops

/-- The call for the notifications of an occurrence. -/
def Call.isNotice : Call → Bool
  | .enqueueDomainNotifications _ => true
  | _ => false

/-- The logs have the same calls, up to those for notifications. -/
def SameCalls (l l' : OpsLog) : Prop :=
  ∀ op r, op.isNotice = false → ((⟨op, r⟩ : Event calls String) ∈ l ↔ ⟨op, r⟩ ∈ l')

namespace SameCalls

variable {config : Config} {auth : Option BluesafeAuth} {l l' : OpsLog}

/-- Other calls are answered in both logs. -/
theorem answered (h : SameCalls l l') {op : Call} {a : op.Res} (hop : op.isNotice = false)
    (ha : Answered l op a) : Answered l' op a :=
  (h op (.ok a) hop).mp ha

/-- A dispute that was read in one was read in the other. -/
theorem readDispute (h : SameCalls l l') {d : DisputeCase} (hd : ReadDispute l d) :
    ReadDispute l' d := by
  cases hd with
  | byId id hget => exact .byId id (h.answered rfl hget)
  | listed status limit offset items hlist hmem =>
    exact .listed status limit offset items (h.answered rfl hlist) hmem

/-- An access in one is an access in the other. -/
theorem accessed (h : SameCalls l l') {id : String} (ha : Accessed config auth l id) :
    Accessed config auth l' id := by
  obtain ⟨c, hc, hacc⟩ := ha
  exact ⟨c, h.answered rfl hc, hacc⟩

/-- What was not saved before is not saved in the other log either. -/
theorem firstContract (h : SameCalls l l') (hl : FirstContract l) : FirstContract l' :=
  fun c r hmem => hl c r ((h (.saveContract c) r rfl).mpr hmem)

/-- The first dispute of one is the first of the other. -/
theorem firstDispute (h : SameCalls l l') (hl : FirstDispute l) : FirstDispute l' :=
  fun d r hmem => hl d r ((h (.saveDispute d) r rfl).mpr hmem)

/-- The grants of a contract depend on such calls only. -/
theorem contractGrant (h : SameCalls l l') {c : Contract} (hc : ContractGrant config auth l c) :
    ContractGrant config auth l' c := by
  cases hc with
  | created hid hfirst hacc => exact .created (h.answered rfl hid) (h.firstContract hfirst) hacc
  | updated id copy hread hsame hacc => exact .updated id copy (h.answered rfl hread) hsame hacc

/-- So do those of a dispute. -/
theorem disputeGrant (h : SameCalls l l') {d : DisputeCase} (hd : DisputeGrant config auth l d) :
    DisputeGrant config auth l' d := by
  cases hd with
  | filed hid hfirst hacc hrole hstatus hescalated =>
    exact .filed (h.answered rfl hid) (h.firstDispute hfirst) (h.accessed hacc) hrole hstatus hescalated
  | reviewed copy hread hsame hacc hrole hstatus hescalated =>
    exact .reviewed copy (h.readDispute hread) hsame (h.accessed hacc) hrole hstatus hescalated
  | judged copy hread hsame hacc hrole hstatus hescalated =>
    exact .judged copy (h.readDispute hread) hsame (h.accessed hacc) hrole hstatus hescalated
  | escalated copy t hread hrole hd => exact .escalated copy t (h.readDispute hread) hrole hd
  | resolved copy hread hsame hstatus hescalated =>
    exact .resolved copy (h.readDispute hread) hsame hstatus hescalated

/-- And those of a decision. -/
theorem decisionGrant (h : SameCalls l l') {record : CaseDecision}
    (hd : DecisionGrant config auth l record) : DecisionGrant config auth l' record := by
  obtain ⟨id, d, hget, hid, hacc⟩ := hd
  exact ⟨id, d, h.answered rfl hget, hid, h.accessed hacc⟩

/-- A call that is granted after one of the logs is granted after the other. -/
theorem granted (h : SameCalls l l') {op : Call} (hop : granted config auth l op) :
    granted config auth l' op := by
  cases op with
  | saveContract c => exact ⟨hop.1, h.contractGrant hop.2⟩
  | saveDispute d => exact h.disputeGrant hop
  | saveDecision record => exact ⟨hop.1, h.decisionGrant hop.2⟩
  | _ => exact hop

end SameCalls

end Bluesafe.Ops

namespace Bluesafe.Api

open Bluesafe.Ops (BluesafeAuth)

/-- The call for the notifications of an occurrence. -/
def isNotice : calls.Op → Bool
  | .inl op => op.isNotice
  | .inr _ => false

/-- The logs have the same calls, up to those for notifications. -/
def SameCalls (l l' : ApiLog) : Prop :=
  ∀ op r, isNotice op = false → ((⟨op, r⟩ : Event calls String) ∈ l ↔ ⟨op, r⟩ ∈ l')

namespace SameCalls

variable {config : Config} {caller : Caller} {auth : Option BluesafeAuth} {l l' : ApiLog}

/-- The logs of the book are alike when those of the API are. -/
theorem ops (h : SameCalls l l') : Ops.SameCalls (Async.lefts l) (Async.lefts l') := by
  intro op r hop
  rw [Async.mem_lefts, Async.mem_lefts]
  exact h (.inl op) r hop

/-- A caller may access the same contracts. -/
theorem mayAccess (h : SameCalls l l') {id : String} (ha : MayAccess config auth l id) :
    MayAccess config auth l' id := by
  obtain ⟨c, hc, hacc⟩ := ha
  exact ⟨c, (h (.inl (.getContract id)) (.ok (some c)) rfl).mp hc, hacc⟩

/-- The grants of evidence carry over. -/
theorem evidenceGrant (h : SameCalls l l') {e : EvidenceFile} (he : EvidenceGrant config caller l e) :
    EvidenceGrant config caller l' e := by
  cases he with
  | uploaded hid hfirst hacc hrole =>
    refine .uploaded ((h (.inl (.randomId "evd")) (.ok e.id) rfl).mp hid) (fun e' r hmem => ?_)
      (h.mayAccess hacc) hrole
    exact hfirst e' r ((h (.inr (.saveEvidence e')) r rfl).mpr hmem)
  | patched id copy hread hid hcontract hacc hrole hscope =>
    exact .patched id copy ((h (.inr (.getEvidence id)) (.ok (some copy)) rfl).mp hread) hid hcontract
      (h.mayAccess hacc) hrole hscope

/-- And those of a vote. -/
theorem voteGrant (h : SameCalls l l') {v : VerifierVote} (hv : VoteGrant config caller l v) :
    VoteGrant config caller l' v := by
  obtain ⟨hrole, d, hget, hacc⟩ := hv
  exact ⟨hrole, d, (h (.inl (.getDispute v.disputeId)) (.ok (some d)) rfl).mp hget, h.mayAccess hacc⟩

/-- A call that is granted after one of the logs is granted after the other. -/
theorem granted (h : SameCalls l l') {op : calls.Op} (hop : granted config caller l op) :
    granted config caller l' op := by
  cases op with
  | inl op => exact h.ops.granted hop
  | inr op =>
    cases op with
    | saveEvidence e => exact h.evidenceGrant hop
    | appendDisputeVerifierVote v => exact h.voteGrant hop
    | _ => exact hop

end SameCalls

end Bluesafe.Api

namespace Bluesafe.Backend

open Async
open Bluesafe.Ops (HasRole allRoles)

/-! ## The calls that enqueue -/

/-- What is enqueued: notifications that wait for their delivery, and outbox rows that wait for the
    worker. -/
def noticeCall : Notify.Call → Prop
  | .clock => True
  | .randomId _ => True
  | .saveNotification n => n.status = .queued
  | .appendNotificationOutbox row => row.status = .pending ∧ row.attempts = 0
  | .appendEvent _ => True
  | _ => False

/-- An event is one of the calls of a notice. -/
theorem emitEvent_notices (eventType entityType entityId : String) (payload : Ops.JsonObject) :
    Only noticeCall (Notify.emitEvent eventType entityType entityId payload) :=
  .bind (.call trivial) fun _ => .bind (.call trivial) fun _ => .bind (.call trivial) fun _ =>
    .call trivial

/-- So is a row of the outbox, with its event. -/
theorem enqueueToOutbox_notices (config : Notify.Config) (now : Ops.Time)
    (it : Notify.FanoutNotificationItem) : Only noticeCall (Notify.enqueueToOutbox config now it) :=
  .bind (.call trivial) fun _ => .bind (.call ⟨rfl, rfl⟩) fun _ =>
    .ite (emitEvent_notices _ _ _ _) .pure

/-- So is a notification that is stored at once. -/
theorem enqueueDirectly_notices (now : Ops.Time) (it : Notify.FanoutNotificationItem) :
    Only noticeCall (Notify.enqueueDirectly now it) :=
  .bind (.call trivial) fun _ => .bind (.call rfl) fun _ => emitEvent_notices _ _ _ _

/-- And so is everything an occurrence enqueues. -/
theorem enqueueItems_notices (config : Notify.Config) (items : List Notify.FanoutNotificationItem) :
    Only noticeCall (Notify.enqueueFanoutNotificationItems config items) := by
  refine .bind (.call trivial) fun now => .ite ?_ ?_
  · exact .forM fun it _ => enqueueToOutbox_notices config now it
  · exact .forM fun it _ => enqueueDirectly_notices now it

/-- The program in the place of the call. -/
theorem enqueueNotices_notices (config : Notify.Config) (n : Ops.DomainNotification) :
    Only noticeCall (Api.enqueueNotices config n) := by
  unfold Api.enqueueNotices
  refine .ite (enqueueItems_notices _ _) ?_
  rcases Notify.enqueueOccurrence_cases config (.domain n.eventType n.recipientIds n.payload) with
    heq | heq <;> rw [heq]
  · exact enqueueItems_notices _ _
  · exact .pure

/-! ## Programs of the backend -/

/-- The calls that `carryOut` leaves alone. -/
def staysCall : calls.Op → Prop
  | .inl (.inl op) => Api.isNotice op = false
  | _ => True

/-- The calls in the place of the others. -/
def addedCall : calls.Op → Prop
  | .inl (.inr op) => noticeCall op
  | _ => False

/-- The log of a program before and after its notifications are carried out. -/
abbrev CarriedLog (l l' : BackendLog) : Prop := Carried staysCall addedCall l l'

/-- A call that is no enqueue stays as it is. -/
theorem carryOut_stays (settings : Settings) {op : calls.Op} (h : staysCall op) :
    carryOut settings op = Async.call op := by
  match op with
  | .inl (.inl (.inl op)) => cases op <;> first | rfl | exact nomatch h
  | .inl (.inl (.inr op)) => rfl
  | .inl (.inr op) => rfl
  | .inr op => rfl

/-- A program of the notification services makes the added calls. -/
theorem ofNotify_added {α : Type} {p : Notify.NotifyM α} (hp : Only noticeCall p) :
    Only addedCall (ofNotify p) :=
  .inl (.inr hp)

/-- An enqueue is carried out by the calls of a notice. -/
theorem carryOut_added (settings : Settings) {op : calls.Op} (h : ¬ staysCall op) :
    Only addedCall (carryOut settings op) := by
  match op with
  | .inl (.inl (.inl op)) =>
    cases op with
    | enqueueDomainNotifications n => exact ofNotify_added (enqueueNotices_notices _ n)
    | _ => exact absurd rfl h
  | .inl (.inl (.inr op)) => exact absurd rfl h
  | .inl (.inr op) => exact absurd trivial h
  | .inr op => exact absurd trivial h

/-- The part of `Bluesafe.Api` in both logs. -/
theorem CarriedLog.api {l l' : BackendLog} (h : CarriedLog l l') :
    Api.SameCalls (lefts (lefts l)) (lefts (lefts l')) := by
  intro op r hop
  rw [mem_lefts, mem_lefts, mem_lefts, mem_lefts]
  refine ⟨fun hmem => h.kept _ hmem hop, fun hmem => ?_⟩
  rcases h.new _ hmem with hold | hadded
  · exact hold
  · exact hadded.elim

/-- With authentication on, an authenticated request has a role. -/
theorem hasRole_of_authenticate {config : Api.Config} {headers : Api.Headers}
    {auth : Option Ops.BluesafeAuth} (h : Api.authenticate config headers = .ok auth) :
    HasRole config.ops auth allRoles := by
  intro hon
  unfold Api.authenticate at h
  split at h
  · cases h
  · unfold Api.bluesafeAuthMiddleware at h
    split at h
    · rename_i hoff
      rw [hon] at hoff
      cases hoff
    · split at h
      · cases h
      · rename_i role hrole
        have hmem : role ∈ allRoles := by cases role <;> decide
        dsimp only at h
        split at h
        · cases h
        · split at h
          · cases h
          · cases h
            exact ⟨_, rfl, hmem⟩

end Bluesafe.Backend
