import Bluesafe.Api.SettlementNotices
import Bluesafe.Spec.OutboxRefinement
import Bluesafe.Spec.SettlementLifecycle

/-!
# Notifications and transitions of settlements

A settlement that becomes accrued or confirmed is announced to the parties of its contract.
The handler enqueues the notifications for the status the row has after the patch
(`patch_notices`), whether it had it before or not, so a patch that repeats the status or only
attaches an amount announces it once more.

## Key results

- `returns_enqueueNotices`: without the outbox every notice is stored as its items.
- `notices_follow_transitions_iff`: the notifications of a run are those of its transitions if
  and only if no patch leaves a settlement in an announced status (`Repeats`).
-/

namespace Bluesafe.Api

open Async Transition
open Bluesafe.Ops (Time JsonObject DomainNotification contractPartyRecipientIds notifyParties)
open Bluesafe.Notify (Content NotificationEvent FanoutNotificationItem routedChannelsForEventType)

/-! ## Enqueueing in a patch -/

section Enqueue

variable {rt : Runtime} {config : Notify.Config}

/-- Without the outbox an occurrence is stored at once, item by item. -/
theorem returns_enqueueNotices (hdirect : config.domainOutbox = false) (n : DomainNotification)
    (t : Notify.Store) :
    Returns Notify.reliable (enqueueNotices config n)
      (fun _ t' => t'.contents = t.contents ++ (noticeItems config n).map FanoutNotificationItem.content)
      t := by
  unfold enqueueNotices
  -- a confirmation has items whatever the settings say
  split
  · exact Notify.returns_enqueueFanout hdirect _ t
  · rename_i hconfirmed
    rw [noticeItems, if_neg hconfirmed]
    unfold Notify.enqueueOccurrence
    dsimp only
    -- another type has some when it is one of the automatic ones
    split
    · exact Notify.returns_enqueueFanout hdirect _ t
    · rename_i hauto
      rw [Notify.Occurrence.items, if_neg hauto, List.map_nil, List.append_nil]
      exact .pure rfl

/-- The calls of `Bluesafe.Ops` that a patch makes, the enqueueing apart. -/
def quietCall : Ops.Call → Bool
  | .clock => true
  | .randomId _ => true
  | .getContract _ => true
  | .appendAudit _ => true
  | .appendEvent _ => true
  | _ => false

/-- Nothing that a notification depends on has changed. -/
structure Unchanged (g g' : NoticeStore) : Prop where
  settlements : g'.1.settlements = g.1.settlements
  contracts : g'.1.ops.contracts = g.1.ops.contracts
  notices : g'.2 = g.2

theorem Unchanged.refl (g : NoticeStore) : Unchanged g g := ⟨rfl, rfl, rfl⟩

theorem Unchanged.trans {g g' g'' : NoticeStore} (h : Unchanged g g') (h' : Unchanged g' g'') :
    Unchanged g g'' :=
  ⟨h'.settlements.trans h.settlements, h'.contracts.trans h.contracts, h'.notices.trans h.notices⟩

/-- A call of `Bluesafe.Ops` is answered. -/
theorem ops_answered {op : Ops.Call} {c : Choice × Notify.Choice}
    {g : NoticeStore} (hc : (noticeWorld rt).allow (.inl (.inl op)) c g = true) :
    (noticeWorld rt).serve (.inl (.inl op)) c g =
      (.ok (Ops.perform op c.1.toChoice g.1.ops).1,
        ({ g.1 with ops := (Ops.perform op c.1.toChoice g.1.ops).2 }, g.2)) := by
  have hfail : c.1.failure = none := Option.isNone_iff_eq_none.mp (Bool.and_eq_true_iff.mp hc).2
  have hserve : Ops.serve op c.1.toChoice g.1.ops =
      (.ok (Ops.perform op c.1.toChoice g.1.ops).1, (Ops.perform op c.1.toChoice g.1.ops).2) := by
    unfold Ops.serve
    rw [hfail]
  show ((Ops.serve op c.1.toChoice g.1.ops).1,
    ({ g.1 with ops := (Ops.serve op c.1.toChoice g.1.ops).2 }, g.2)) = _
  rw [hserve]

/-- A quiet call leaves contracts, settlements and notifications. -/
theorem quiet_unchanged {op : Ops.Call} (hop : quietCall op = true) (c : Choice × Notify.Choice)
    (g : NoticeStore) :
    Unchanged g ({ g.1 with ops := (Ops.perform op c.1.toChoice g.1.ops).2 }, g.2) := by
  refine ⟨rfl, ?_, rfl⟩
  cases op <;> first | rfl | cases hop

/-- A program of quiet calls. -/
theorem returns_quiet {α : Type} {p : Ops.OpsM α}
    (hp : Clean (fun op : Ops.calls.Op => quietCall op = true) p) (g : NoticeStore) :
    Returns (noticeWorld rt) (interp (carryOut config) (ofOps p)) (fun _ g' => Unchanged g g') g := by
  let quiet : noticeCalls.Op → Prop := fun op => ∃ o, op = .inl (.inl o) ∧ quietCall o = true
  -- each quiet call of the handler is one call of the carried-out program
  have hclean : Clean quiet (interp (carryOut config) (ofOps p)) := by
    refine hp.inl.interp fun op hop => ?_
    cases op with
    | inl op =>
      have hquiet : quietCall op = true := hop
      cases op <;> first | exact Clean.call ⟨_, rfl, rfl⟩ | cases hquiet
    | inr op => exact hop.elim
  -- and each of these leaves the notices
  refine hclean.returns (fun op c g' hop hg' hc => ?_) (Unchanged.refl g)
  obtain ⟨o, rfl, hquiet⟩ := hop
  rw [ops_answered hc]
  exact ⟨⟨_, rfl⟩, hg'.trans (quiet_unchanged hquiet c g')⟩

/-- An audit entry is quiet. -/
theorem writeAudit_quiet (entityType entityId action actor : String)
    (before after metadata : Option JsonObject) :
    Clean (fun op : Ops.calls.Op => quietCall op = true)
      (Ops.writeAudit entityType entityId action actor before after metadata) :=
  .bind (.call rfl) fun _ => .bind (.call rfl) fun _ => .call rfl

/-- So is an event. -/
theorem emitEvent_quiet (eventType entityType entityId : String) (payload : JsonObject) :
    Clean (fun op : Ops.calls.Op => quietCall op = true)
      (Ops.emitEvent eventType entityType entityId payload) :=
  .bind (.call rfl) fun _ => .bind (.call rfl) fun _ => .bind (.call rfl) fun _ => .call rfl

/-- The stored contracts. -/
abbrev Contracts : Type := Table Ops.Contract.id

/-- What is enqueued for the parties of a stored contract. -/
def partyContents (config : Notify.Config) (contracts : Contracts) (contractId eventType : String)
    (payload : JsonObject) : List Content :=
  match contracts.get? contractId with
  | none => []
  | some c => (noticeItems config ⟨eventType, contractPartyRecipientIds c, payload⟩).map
      FanoutNotificationItem.content

/-- The notifications grow by `new`, and nothing else that matters changes. -/
structure Notified (g : NoticeStore) (new : List Content) (g' : NoticeStore) : Prop where
  settlements : g'.1.settlements = g.1.settlements
  contracts : g'.1.ops.contracts = g.1.ops.contracts
  contents : g'.2.contents = g.2.contents ++ new

/-- A step that changes nothing stores no notice. -/
theorem Unchanged.notified {g g' : NoticeStore} (h : Unchanged g g') : Notified g [] g' :=
  ⟨h.settlements, h.contracts, by rw [h.notices, List.append_nil]⟩

/-- The notices of two steps are those of both. -/
theorem Notified.trans {g g' g'' : NoticeStore} {new new' : List Content} (h : Notified g new g')
    (h' : Notified g' new' g'') : Notified g (new ++ new') g'' :=
  ⟨h'.settlements.trans h.settlements, h'.contracts.trans h.contracts,
    by rw [h'.contents, h.contents, List.append_assoc]⟩

/-- The program enqueues `new`, which depends on the stored contracts. -/
def Enqueues {α : Type} (settings : NoticeSettings) (p : ApiM α) (new : Contracts → List Content) : Prop :=
  ∀ g, Returns (noticeWorld settings.api.runtime) (interp (carryOut settings.notify) p)
    (fun _ g' => Notified g (new g.1.ops.contracts) g') g

namespace Enqueues

variable {settings : NoticeSettings} {α β : Type}

/-- A value enqueues nothing. -/
theorem pure (a : α) : Enqueues settings (Pure.pure a) fun _ => [] :=
  fun g => .pure (Unchanged.refl g).notified

/-- Nor does a quiet program. -/
theorem quiet {p : Ops.OpsM α} (hp : Clean (fun op : Ops.calls.Op => quietCall op = true) p) :
    Enqueues settings (ofOps p) fun _ => [] :=
  fun g => (returns_quiet hp g).mono fun _ _ h => h.notified

/-- Two programs enqueue one after the other. -/
theorem bind {p : ApiM β} {f : β → ApiM α} {new new' : Contracts → List Content}
    (hp : Enqueues settings p new) (hf : ∀ b, Enqueues settings (f b) new') :
    Enqueues settings (p >>= f) fun contracts => new contracts ++ new' contracts := by
  intro g
  rw [interp_bind]
  refine Returns.bind (hp g) fun b g₁ hg₁ => (hf b g₁).mono fun _ g' hg' => ?_
  rw [hg₁.contracts] at hg'
  exact hg₁.trans hg'

/-- The notices may be written in another way. -/
theorem congr {p : ApiM α} {new new' : Contracts → List Content} (hp : Enqueues settings p new)
    (h : ∀ contracts, new contracts = new' contracts) : Enqueues settings p new' := by
  rwa [funext h] at hp

/-- A branch enqueues what its case enqueues. -/
theorem ite {c : Prop} [Decidable c] {p q : ApiM α} {new new' : Contracts → List Content}
    (hp : Enqueues settings p new) (hq : Enqueues settings q new') :
    Enqueues settings (if c then p else q) fun contracts => if c then new contracts else new' contracts := by
  split
  · exact hp
  · exact hq

end Enqueues

/-- Enqueueing for the parties of a contract. -/
theorem enqueues_notifyParties (settings : NoticeSettings) (contractId eventType : String)
    (payload : JsonObject) :
    Enqueues settings (ofOps (notifyParties contractId eventType payload)) fun contracts =>
      partyContents settings.notify contracts contractId eventType payload := by
  intro g
  unfold notifyParties
  rw [ofOps, inl_bind, interp_bind]
  -- the contract is the stored one
  have hget : Returns (noticeWorld settings.api.runtime)
      (interp (carryOut settings.notify) (ofOps (Ops.getContract contractId)))
      (fun found g' => found = g.1.ops.contracts.get? contractId ∧ Unchanged g g') g := by
    rw [ofOps_invoke, interp_call]
    refine Returns.call fun c hc => ?_
    rw [ops_answered hc]
    exact ⟨_, rfl, rfl, Unchanged.refl g⟩
  refine Returns.bind hget fun found g₁ hg₁ => ?_
  show Returns _ _ (fun _ g' => Notified g (partyContents _ g.1.ops.contracts _ _ _) g') g₁
  unfold partyContents
  rw [← hg₁.1]
  cases found with
  | none => exact .pure hg₁.2.notified
  | some c =>
    show Returns _ (interp _ (ofOps (Ops.invoke (.enqueueDomainNotifications _)))) _ _
    rw [ofOps_invoke, interp_call]
    refine (returns_inr (returns_enqueueNotices settings.direct _ g₁.2)).mono fun _ g₂ hg₂ => ?_
    refine ⟨?_, ?_, ?_⟩
    · rw [hg₂.1, hg₁.2.settlements]
    · rw [hg₂.1, hg₁.2.contracts]
    · rw [hg₂.2, hg₁.2.notices]

end Enqueue

/-! ## What is to be announced -/

/-- The notifications of a settlement to the parties of its contract: each of them is told on
    every channel of the event type. -/
def partyNotices (contracts : Contracts) (r : SettlementRecord) (eventType : String) : List Content :=
  match contracts.get? r.contractId with
  | none => []
  | some c => [c.tenantId, c.landlordId].flatMap fun recipientId =>
      (routedChannelsForEventType eventType).map fun channel =>
        ⟨eventType, recipientId, channel, ("settlementId", .str r.id) :: r.period⟩

/-- The announcement of a status, as far as it is switched on. -/
def announcement (settings : NoticeSettings) (contracts : Contracts) (r : SettlementRecord) :
    SettlementStatus → List Content
  | .accrued =>
    if settings.notify.autoDomainEnqueue then partyNotices contracts r "settlement.accrued" else []
  | .confirmed =>
    if settings.autoNotifyOnConfirmed then partyNotices contracts r "settlement.confirmed" else []
  | _ => []

/-- A notification that announces a status. -/
def isStatusNotice (c : Content) : Bool :=
  decide (c.eventType = "settlement.accrued") || decide (c.eventType = "settlement.confirmed")

/-- The announcements in a store, oldest first. -/
def statusNotices (t : Notify.Store) : List Content := t.contents.filter isStatusNotice

/-- The patch is accepted: this is the row it changes. -/
def Accepted (settings : NoticeSettings) (req : PatchRequest) (s : Store) (r : SettlementRecord) : Prop :=
  patchAdmitted settings.api req.caller = true ∧ s.settlements.get? req.settlementId = some r ∧
    req.body.rejected r = none

/-- What a patch does to the settlements and to the announcements. -/
def PatchNoticed (settings : NoticeSettings) (req : PatchRequest) (g g' : NoticeStore) : Prop :=
  (∀ r, ¬ Accepted settings req g.1 r) ∧ g'.1.settlements = g.1.settlements ∧
      statusNotices g'.2 = statusNotices g.2 ∨
  ∃ r t, Accepted settings req g.1 r ∧
    g'.1.settlements = g.1.settlements.set (r.patched req.body t) ∧
    statusNotices g'.2 = statusNotices g.2 ++ announcement settings g.1.ops.contracts r (req.body.nextStatus r)

section Patch

variable {settings : NoticeSettings} {contracts : Contracts} {r updated : SettlementRecord}

/-- An item of an occurrence has its type, and goes to one of its recipients. -/
theorem contents_noticeItems {config : Notify.Config} {n : DomainNotification} {c : Content}
    (hc : c ∈ (noticeItems config n).map FanoutNotificationItem.content) : c.eventType = n.eventType := by
  obtain ⟨it, hit, rfl⟩ := List.mem_map.mp hc
  -- an item carries the type of its notice
  have hexpand : ∀ extra, it ∈ Notify.expandRecipientChannels n.eventType n.recipientIds n.payload extra →
      it.content.eventType = n.eventType := by
    intro extra hmem
    obtain ⟨recipientId, -, hchannel⟩ := List.mem_flatMap.mp hmem
    obtain ⟨channel, -, rfl⟩ := List.mem_map.mp hchannel
    rfl
  unfold noticeItems Notify.Occurrence.items at hit
  dsimp only at hit
  -- the items of a confirmation, or those of an automatic type
  split at hit
  · exact hexpand _ hit
  · split at hit
    · exact hexpand _ hit
    · cases hit

/-- The other notifications are no announcements. -/
theorem filter_partyContents {config : Notify.Config} {contractId eventType : String} {payload : JsonObject}
    (h₁ : eventType ≠ "settlement.accrued") (h₂ : eventType ≠ "settlement.confirmed") :
    (partyContents config contracts contractId eventType payload).filter isStatusNotice = [] := by
  rw [List.filter_eq_nil_iff]
  intro c hc
  unfold partyContents at hc
  split at hc
  · cases hc
  · have htype := contents_noticeItems hc
    simp [isStatusNotice, htype, h₁, h₂]

/-- The announcements themselves. -/
theorem filter_partyContents_status {config : Notify.Config} {contractId eventType : String}
    {payload : JsonObject} (h : eventType = "settlement.accrued" ∨ eventType = "settlement.confirmed") :
    (partyContents config contracts contractId eventType payload).filter isStatusNotice =
      partyContents config contracts contractId eventType payload := by
  rw [List.filter_eq_self]
  intro c hc
  unfold partyContents at hc
  split at hc
  · cases hc
  · have htype := contents_noticeItems hc
    simpa [isStatusNotice, htype] using h

/-- The items are the recipients, with the channels of the type. -/
theorem contents_expand (eventType : String) (recipientIds : List String) (payload extra : JsonObject) :
    (Notify.expandRecipientChannels eventType recipientIds payload extra).map
        FanoutNotificationItem.content =
      recipientIds.flatMap fun recipientId => (routedChannelsForEventType eventType).map fun channel =>
        ⟨eventType, recipientId, channel, payload⟩ := by
  rw [Notify.expandRecipientChannels, List.map_flatMap]
  simp only [List.map_map]
  rfl

/-- What an accrual sends to the parties. -/
theorem partyContents_accrued (config : Notify.Config) :
    partyContents config contracts r.contractId "settlement.accrued" (("settlementId", .str r.id) :: r.period) =
      if config.autoDomainEnqueue then partyNotices contracts r "settlement.accrued" else [] := by
  unfold partyContents partyNotices
  -- without a contract nobody is told
  cases contracts.get? r.contractId with
  | none => simp
  | some c =>
    -- the notice of an accrual is a domain event
    have hitems : noticeItems config ⟨"settlement.accrued", contractPartyRecipientIds c,
        ("settlementId", .str r.id) :: r.period⟩ = (Notify.Occurrence.domain "settlement.accrued"
          (contractPartyRecipientIds c) (("settlementId", .str r.id) :: r.period)).items config :=
      if_neg (by decide : ¬ "settlement.accrued" = "settlement.confirmed")
    dsimp only
    -- it has items when accruals are announced automatically
    rw [hitems, Notify.Occurrence.items]
    split
    · exact contents_expand _ _ _ _
    · rfl

/-- What a confirmation sends to them. -/
theorem partyContents_confirmed (config : Notify.Config) :
    partyContents config contracts r.contractId "settlement.confirmed" (("settlementId", .str r.id) :: r.period) =
      partyNotices contracts r "settlement.confirmed" := by
  unfold partyContents partyNotices
  cases contracts.get? r.contractId with
  | none => rfl
  | some c => exact contents_expand _ _ _ _

/-! ## One patch -/

/-- What a patch enqueues when financial columns change. -/
def financialContents (settings : NoticeSettings) (settlementId : String) (body : SettlementPatch)
    (r : SettlementRecord) (contracts : Contracts) : List Content :=
  if body.financialChanged r = true then
    partyContents settings.notify contracts r.contractId "settlement.financials_attached"
      (("settlementId", .str settlementId) :: r.period)
  else []

/-- What it enqueues for the status it leaves. -/
def statusContents (settings : NoticeSettings) (settlementId : String) (r updated : SettlementRecord)
    (contracts : Contracts) : List Content :=
  (if updated.status = .accrued then
    partyContents settings.notify contracts r.contractId "settlement.accrued"
      (("settlementId", .str settlementId) :: r.period)
  else []) ++
  if updated.status = .confirmed ∧ settings.autoNotifyOnConfirmed = true then
    partyContents settings.notify contracts r.contractId "settlement.confirmed"
      (("settlementId", .str updated.id) :: r.period)
  else []

/-- The notices of a patch, in the order they are stored. -/
theorem enqueues_announcePatch (caller : Caller) (settlementId : String) (body : SettlementPatch)
    (r updated : SettlementRecord) :
    Enqueues settings (announcePatch settings.autoNotifyOnConfirmed caller settlementId body r updated)
      fun contracts => financialContents settings settlementId body r contracts ++
        statusContents settings settlementId r updated contracts := by
  -- a changed status is one event, and no notice
  have hstatus : Enqueues settings (emitStatusUpdated settlementId body r updated) fun _ => [] := by
    unfold emitStatusUpdated
    split
    · exact .quiet (emitEvent_quiet _ _ _ _)
    · exact .pure ()
  -- the financial fields are an event with a notice
  have hfinancial : Enqueues settings (emitFinancialsAttached settlementId body r updated)
      (financialContents settings settlementId body r) := by
    unfold emitFinancialsAttached
    exact .ite (.bind (.quiet (emitEvent_quiet _ _ _ _)) fun _ => enqueues_notifyParties settings _ _ _)
      (.pure ())
  unfold announcePatch notifyAccrued notifyConfirmed
  -- the four parts, in the order of the handler
  refine Enqueues.congr (.bind (.quiet (writeAudit_quiet _ _ _ _ _ _ _)) fun _ => .bind hstatus fun _ =>
    .bind hfinancial fun _ => .bind (.ite (enqueues_notifyParties settings _ _ _) (.pure ())) fun _ =>
    .bind (.ite (enqueues_notifyParties settings _ _ _) (.pure ())) fun _ => .pure _) fun contracts => ?_
  simp only [List.nil_append, List.append_nil, statusContents]

/-- A patch of the money gives no notice of the status. -/
theorem filter_financialContents (settlementId : String) (body : SettlementPatch) :
    (financialContents settings settlementId body r contracts).filter isStatusNotice = [] := by
  unfold financialContents
  split
  · exact filter_partyContents (by decide) (by decide)
  · rfl

/-- Of what a patch enqueues, the announcement of the status it leaves. -/
theorem filter_statusContents (hid : updated.id = r.id) :
    (statusContents settings r.id r updated contracts).filter isStatusNotice =
      announcement settings contracts r updated.status := by
  -- the notices of a patch, one for each of the two announced statuses
  unfold statusContents
  rw [hid, List.filter_append]
  cases updated.status with
  | accrued =>
    rw [if_pos rfl, if_neg (fun h => SettlementStatus.noConfusion h.1), filter_partyContents_status (.inl rfl),
      partyContents_accrued, List.filter_nil, List.append_nil]
    rfl
  -- a confirmation is announced, an accrual is not
  | confirmed =>
    rw [if_neg SettlementStatus.noConfusion, List.filter_nil, List.nil_append]
    simp only [announcement, true_and]
    split
    · rw [filter_partyContents_status (.inr rfl), partyContents_confirmed]
    · rfl
  | collecting => simp [announcement]
  | archived => simp [announcement]

variable {req : PatchRequest} {g : NoticeStore}

/-- A call of the routes is answered. -/
theorem api_answered {rt : Runtime} {op : Call} {c : Choice × Notify.Choice} {g : NoticeStore}
    (hc : (noticeWorld rt).allow (.inl (.inr op)) c g = true) :
    (noticeWorld rt).serve (.inl (.inr op)) c g =
      (.ok (perform rt op c.1 g.1).1, ((perform rt op c.1 g.1).2, g.2)) := by
  have hallow : ((world rt).restrict fun c => c.failure.isNone).allow (.inr op) c.1 g.1 = true := hc
  have hfail : c.1.failure = none := Option.isNone_iff_eq_none.mp (allow_restrict.mp hallow).2
  have hserve : serve rt (.inr op) c.1 g.1 = (.ok (perform rt op c.1 g.1).1, (perform rt op c.1 g.1).2) := by
    simp only [serve, hfail]
  show ((serve rt (.inr op) c.1 g.1).1, ((serve rt (.inr op) c.1 g.1).2, g.2)) = _
  rw [hserve]

/-- A patch that is accepted stores its notices. -/
theorem returns_storePatch (hacc : Accepted settings req g.1 r) :
    Returns (noticeWorld settings.api.runtime)
      (interp (carryOut settings.notify) (storePatch settings.autoNotifyOnConfirmed req.caller
        req.settlementId req.body r))
      (fun _ g' => PatchNoticed settings req g g') g := by
  unfold storePatch
  rw [interp_bind]
  refine Returns.bind (returns_quiet (Clean.call rfl) g) fun t g₁ hg₁ => ?_
  rw [interp_bind]
  have hsave : Returns (noticeWorld settings.api.runtime)
      (interp (carryOut settings.notify) (invoke (.saveSettlement (r.patched req.body t))))
      (fun _ g' => g'.1.settlements = g.1.settlements.set (r.patched req.body t) ∧
        g'.1.ops.contracts = g.1.ops.contracts ∧ g'.2 = g.2) g₁ := by
    rw [interp_call]
    refine Returns.call fun c hc => ?_
    rw [api_answered hc]
    refine ⟨(), rfl, ?_, hg₁.contracts, hg₁.notices⟩
    show g₁.1.settlements.set _ = _
    rw [hg₁.settlements]
  refine Returns.bind hsave fun _ g₂ hg₂ => ?_
  refine (enqueues_announcePatch req.caller req.settlementId req.body r _ g₂).mono fun _ g₃ hg₃ => ?_
  obtain ⟨hset, hcontracts, hnotices⟩ := hg₂
  have hkey : req.settlementId = r.id := (Table.key_of_get? hacc.2.1).symm
  -- the row is saved before anything is announced, and the announcements see its new status
  have hfilter : (statusContents settings r.id r (r.patched req.body t) g.1.ops.contracts).filter
      isStatusNotice = announcement settings g.1.ops.contracts r (req.body.nextStatus r) :=
    filter_statusContents rfl
  refine .inr ⟨r, t, hacc, hg₃.settlements.trans hset, ?_⟩
  rw [statusNotices, hg₃.contents, hcontracts, hnotices, List.filter_append, List.filter_append,
    filter_financialContents, hkey, hfilter, List.nil_append]
  rfl

/-- And one that is refused stores none. -/
theorem returns_handlePatch (settings : NoticeSettings) (req : PatchRequest) (g : NoticeStore) :
    Returns (noticeWorld settings.api.runtime) (handlePatch settings req)
      (fun _ g' => PatchNoticed settings req g g') g := by
  unfold handlePatch patchSettlementStatus operatorRoute writeRoute route
  -- a caller that one of the guards stops changes nothing
  have hstopped : ∀ reply : Response, patchAdmitted settings.api req.caller = false →
      Returns (noticeWorld settings.api.runtime) (interp (carryOut settings.notify) (pure reply))
        (fun _ g' => PatchNoticed settings req g g') g := by
    intro reply hstop
    refine .pure (.inl ⟨fun r hacc => ?_, rfl, rfl⟩)
    obtain ⟨hadmitted, -⟩ := hacc
    rw [hstop] at hadmitted
    cases hadmitted
  split
  · rename_i reply hauditor
    exact hstopped _ (by simp [patchAdmitted, hauditor])
  · rename_i hauditor
    split
    · rename_i reply hroles
      exact hstopped _ (by simp [patchAdmitted, hroles])
    · rename_i hroles
      split
      · rename_i reply hscopes
        exact hstopped _ (by simp [patchAdmitted, hscopes])
      · -- all three guards let the request through
        rename_i hscopes
        have hadmitted : patchAdmitted settings.api req.caller = true := by
          simp [patchAdmitted, hauditor, hroles, hscopes]
        rw [interp_bind]
        have hget : Returns (noticeWorld settings.api.runtime)
            (interp (carryOut settings.notify) (invoke (.getSettlement req.settlementId)))
            (fun found g' => found = g.1.settlements.get? req.settlementId ∧ g' = g) g := by
          rw [interp_call]
          refine Returns.call fun c hc => ?_
          rw [api_answered hc]
          exact ⟨_, rfl, rfl, rfl⟩
        refine Returns.bind hget fun found g₁ hg₁ => ?_
        obtain ⟨hfound, rfl⟩ := hg₁
        cases found with
        | none =>
          refine .pure (.inl ⟨fun r hacc => ?_, rfl, rfl⟩)
          obtain ⟨-, hrow, -⟩ := hacc
          rw [← hfound] at hrow
          cases hrow
        | some r =>
          dsimp only
          split
          · rename_i next hnext
            refine .pure (.inl ⟨fun r' hacc => ?_, rfl, rfl⟩)
            obtain ⟨-, hrow, haccepted⟩ := hacc
            rw [← hfound] at hrow
            cases hrow
            rw [hnext] at haccepted
            cases haccepted
          · rename_i hnext
            exact returns_storePatch ⟨hadmitted, hfound.symm, hnext⟩

end Patch

/-! ## Runs -/

section Runs

variable {settings : NoticeSettings}

/-- A patch in a run. -/
abbrev NoticeMove : Type := Move NoticeStore (PatchRequest × List (Choice × Notify.Choice))

/-- The announcement of the transition a patch makes, if it makes one. -/
def dueNotices (settings : NoticeSettings) (m : NoticeMove) : List Content :=
  match m.before.1.settlements.get? m.label.1.settlementId,
    m.after.1.settlements.get? m.label.1.settlementId with
  | some r, some r' =>
    if r'.status = r.status then []
    else announcement settings m.before.1.ops.contracts r r'.status
  | _, _ => []

/-- The status of the row is one that is announced, and there is somebody to tell. -/
def Announced (settings : NoticeSettings) (contracts : Contracts) (r : SettlementRecord) : Prop :=
  (r.status = .accrued ∧ settings.notify.autoDomainEnqueue = true ∨
    r.status = .confirmed ∧ settings.autoNotifyOnConfirmed = true) ∧
  (contracts.get? r.contractId).isSome = true

/-- An accepted patch leaves the row in a status that is announced. -/
def Repeats (settings : NoticeSettings) (m : NoticeMove) : Prop :=
  ∃ r, Accepted settings m.label.1 m.before.1 r ∧ m.label.1.body.nextStatus r = r.status ∧
    Announced settings m.before.1.ops.contracts r

/-- The parties hear nothing where neither is named. -/
theorem partyNotices_eq_nil_iff {contracts : Contracts} {r : SettlementRecord} {eventType : String}
    (h : routedChannelsForEventType eventType ≠ []) :
    partyNotices contracts r eventType = [] ↔ (contracts.get? r.contractId).isSome = false := by
  unfold partyNotices
  cases contracts.get? r.contractId with
  | none => simp
  | some c => simp [h]

/-- An announcement is empty if the status is not announced. -/
theorem announcement_eq_nil_iff {contracts : Contracts} {r : SettlementRecord} :
    announcement settings contracts r r.status = [] ↔ ¬ Announced settings contracts r := by
  -- both event types have channels, so an announcement is empty for want of a contract only
  have haccrued : routedChannelsForEventType "settlement.accrued" ≠ [] := by decide
  have hconfirmed : routedChannelsForEventType "settlement.confirmed" ≠ [] := by decide
  unfold Announced announcement
  cases r.status with
  | accrued =>
    by_cases hauto : settings.notify.autoDomainEnqueue = true
    · simp [hauto, partyNotices_eq_nil_iff haccrued]
    · simp [hauto]
  | confirmed =>
    by_cases hauto : settings.autoNotifyOnConfirmed = true
    · simp [hauto, partyNotices_eq_nil_iff hconfirmed]
    · simp [hauto]
  | collecting => simp
  | archived => simp

/-- A patch announces its transition, and in addition a status that it repeats. -/
theorem statusNotices_move {m : NoticeMove} (hstep : noticesStep settings m.before m.label = some m.after) :
    ∃ extra, statusNotices m.after.2 = statusNotices m.before.2 ++ (dueNotices settings m ++ extra) ∧
      (extra = [] ↔ ¬ Repeats settings m) := by
  have hpatch : PatchNoticed settings m.label.1 m.before m.after :=
    (returns_handlePatch settings m.label.1 m.before).seqStep hstep
  rcases hpatch with ⟨hnone, hsame, hnotices⟩ | ⟨r, t, hacc, hset, hnotices⟩
  · -- no row changes
    have hdue : dueNotices settings m = [] := by
      unfold dueNotices
      rw [hsame]
      cases m.before.1.settlements.get? m.label.1.settlementId with
      | none => rfl
      | some r => exact if_pos rfl
    refine ⟨[], by rw [hnotices, hdue, List.append_nil, List.append_nil], iff_of_true rfl ?_⟩
    rintro ⟨r, hacc, -⟩
    exact hnone r hacc
  · obtain ⟨-, hget, -⟩ := id hacc
    have hafter : m.after.1.settlements.get? m.label.1.settlementId = some (r.patched m.label.1.body t) := by
      rw [hset, ← Table.key_of_get? hget]
      exact Table.get?_set_self _ _
    -- the accepted patch has changed this one row
    have honly : ∀ r', Accepted settings m.label.1 m.before.1 r' → r' = r := by
      rintro r' ⟨-, hget', -⟩
      rw [hget] at hget'
      exact (Option.some.inj hget').symm
    have hdue : dueNotices settings m = if m.label.1.body.nextStatus r = r.status then []
        else announcement settings m.before.1.ops.contracts r (m.label.1.body.nextStatus r) := by
      unfold dueNotices
      rw [hget, hafter]
      rfl
    -- a patch that repeats the status announces it again, though there is no transition
    by_cases hstatus : m.label.1.body.nextStatus r = r.status
    · rw [if_pos hstatus] at hdue
      rw [hstatus] at hnotices
      refine ⟨_, by rw [hdue, hnotices, List.nil_append], announcement_eq_nil_iff.trans (not_congr ?_)⟩
      constructor
      · intro hann
        exact ⟨r, hacc, hstatus, hann⟩
      · rintro ⟨r', hacc', -, hann⟩
        rwa [honly r' hacc'] at hann
    · rw [if_neg hstatus] at hdue
      refine ⟨[], by rw [hdue, hnotices, List.append_nil], iff_of_true rfl ?_⟩
      rintro ⟨r', hacc', hrepeat, -⟩
      rw [honly r' hacc'] at hrepeat
      exact hstatus hrepeat

/-- The announcements of the transitions of a run, oldest first. -/
def transitionNotices (settings : NoticeSettings) (ms : List NoticeMove) : List Content :=
  ms.reverse.flatMap (dueNotices settings)

/-- The notices of a run, with its last step apart. -/
theorem transitionNotices_cons (m : NoticeMove) (ms : List NoticeMove) :
    transitionNotices settings (m :: ms) = transitionNotices settings ms ++ dueNotices settings m := by
  simp [transitionNotices]

variable {s₀ s : NoticeStore} {ms : List NoticeMove}

/-- A transition is never forgotten. -/
theorem length_statusNotices (run : Run (noticesStep settings) s₀ ms s) :
    (statusNotices s₀.2).length + (transitionNotices settings ms).length ≤ (statusNotices s.2).length := by
  induction run with
  | nil => exact Nat.le_refl _
  | @cons ms t u a run hstep ih =>
    obtain ⟨extra, hnotices, -⟩ := statusNotices_move (m := ⟨t, a, u⟩) hstep
    dsimp only at hnotices
    rw [transitionNotices_cons, hnotices]
    simp only [List.length_append]
    omega

/-- The announcements that a run enqueues are those of its transitions, each of them once and in
    their order, if and only if no patch leaves a settlement in a status that is announced. -/
theorem notices_follow_transitions_iff (run : Run (noticesStep settings) s₀ ms s) :
    statusNotices s.2 = statusNotices s₀.2 ++ transitionNotices settings ms ↔
      ∀ m ∈ ms, ¬ Repeats settings m := by
  induction run with
  | nil => simp [transitionNotices]
  | @cons ms t u a run hstep ih =>
    obtain ⟨extra, hnotices, hextra⟩ := statusNotices_move (m := ⟨t, a, u⟩) hstep
    have hlength := length_statusNotices run
    dsimp only at hnotices
    rw [List.forall_mem_cons, ← ih, ← hextra, transitionNotices_cons, hnotices]
    constructor
    · intro heq
      -- nothing was missing before, so the lengths leave no room for the rest
      have hcount := congrArg List.length heq
      simp only [List.length_append] at hcount
      have hnil : extra = [] := List.eq_nil_of_length_eq_zero (by omega)
      rw [hnil, List.append_nil, ← List.append_assoc] at heq
      exact ⟨hnil, List.append_cancel_right heq⟩
    · rintro ⟨hnil, heq⟩
      rw [hnil, heq, List.append_nil, List.append_assoc]

end Runs

/-! ## Concrete runs -/

/-- Everything is switched on. -/
def openNotices : NoticeSettings where
  api := openConfig sampleRuntime
  notify :=
    { autoDomainEnqueue := true
      domainOutbox := false
      sha256 := String.ofList
      maxAttempts := 5
      batchSize := 20
      retryInitialBackoffMs := 1000
      retryMaxBackoffMs := 60000
      outboxBatchSize := 20
      staleProcessingMs := 60000
      maxDispatchAttempts := 5 }
  autoNotifyOnConfirmed := true
  direct := rfl

/-- The environment at the `n`-th call: identifiers are numbered. -/
def noticeOracle (n : Nat) : noticeCalls.Op → Choice × Notify.Choice
  | .inl op => (sampleEvidenceOracle "1" 0 op, {})
  | .inr (.randomId tag) => ({}, { id := tag ++ "_" ++ toString n })
  | .inr _ => ({}, {})

/-- The choices of this environment while a program runs. -/
def noticeChoices {α : Type} : Nat → Async noticeCalls String α → NoticeStore → List (Choice × Notify.Choice)
  | _, .done _, _ => []
  | _, .fail _, _ => []
  | n, .await op k, g =>
    let r := (noticeWorld sampleRuntime).serve op (noticeOracle n op) g
    noticeOracle n op :: noticeChoices (n + 1) (k r.1) r.2

/-- The contract `ctr_1` with its settlement for January 2026. -/
def januaryStore (status : SettlementStatus) : NoticeStore :=
  (settledStore [januaryRow status], Notify.Store.empty)

theorem currencyCode_absent (t : String) (h : t ∈ (none : Option String)) :
    1 ≤ (Notify.utf16Units t).length ∧ (Notify.utf16Units t).length ≤ 32 := by cases h

theorem batchId_absent (t : String) (h : t ∈ (none : Option String)) :
    1 ≤ (Notify.utf16Units t).length ∧ (Notify.utf16Units t).length ≤ 128 := by cases h

/-- A patch of this settlement. -/
def januaryPatch (status : Option PatchedStatus) (amountMinor : Nat) : PatchRequest where
  caller := openCaller
  settlementId := "stl_ctr_1_2026_1"
  body :=
    { status := status
      amountMinor := some amountMinor
      currencyCode_length := currencyCode_absent
      batchId_length := batchId_absent
      any_given := by simp }

def januaryLabels (g : NoticeStore) (req : PatchRequest) :
    List (PatchRequest × List (Choice × Notify.Choice)) :=
  [(req, noticeChoices 0 (handlePatch openNotices req) g)]

/-- The patch changes the status of the row it finds. -/
def changesStatus (m : NoticeMove) : Bool :=
  (m.before.1.settlements.get? m.label.1.settlementId).all fun r =>
    decide (m.label.1.body.nextStatus r ≠ r.status)

/-- A patch that changes the status repeats nothing. -/
theorem not_repeats_of_changesStatus {settings : NoticeSettings} {m : NoticeMove}
    (h : changesStatus m = true) : ¬ Repeats settings m := by
  rintro ⟨r, ⟨-, hget, -⟩, hstatus, -⟩
  rw [changesStatus, hget, Option.all_some, decide_eq_true_eq] at h
  exact h hstatus

/-- A settlement becomes accrued: its two parties are told on two channels each. -/
theorem notices_follow_transitions_accrued :
    ∃ ms s, Run (noticesStep openNotices) (januaryStore .collecting) ms s ∧
      (statusNotices s.2).length = 4 ∧
      statusNotices s.2 = statusNotices (januaryStore .collecting).2 ++ transitionNotices openNotices ms := by
  obtain ⟨ms, s, run, hp⟩ := exists_run_of_replay
    (januaryLabels (januaryStore .collecting) (januaryPatch (some .accrued) 500))
    (fun (r : List NoticeMove × NoticeStore) =>
      decide ((statusNotices r.2.2).length = 4) && r.1.all changesStatus)
    (by decide +kernel : (replay (noticesStep openNotices) (januaryStore .collecting) _ []).any _ = true)
  rw [Bool.and_eq_true, List.all_eq_true] at hp
  have hclean : ∀ m ∈ ms, ¬ Repeats openNotices m := fun m hm => not_repeats_of_changesStatus (hp.2 m hm)
  exact ⟨ms, s, run, of_decide_eq_true hp.1, (notices_follow_transitions_iff run).mpr hclean⟩

/-- The settlement has been accrued before; the patch gives it an amount. -/
theorem amount_is_announced :
    ¬ ∀ (settings : NoticeSettings) (s₀ s : NoticeStore) (ms : List NoticeMove),
      Run (noticesStep settings) s₀ ms s →
        statusNotices s.2 = statusNotices s₀.2 ++ transitionNotices settings ms := by
  intro h
  obtain ⟨ms, s, run, hp⟩ := exists_run_of_replay
    (januaryLabels (januaryStore .accrued) (januaryPatch none 500))
    (fun (r : List NoticeMove × NoticeStore) => decide ((statusNotices r.2.2).length ≠
      (statusNotices (januaryStore .accrued).2).length + (transitionNotices openNotices r.1).length))
    (by decide +kernel : (replay (noticesStep openNotices) (januaryStore .accrued) _ []).any _ = true)
  have hlength := congrArg List.length (h openNotices _ s ms run)
  rw [List.length_append] at hlength
  exact of_decide_eq_true hp hlength

end Bluesafe.Api
