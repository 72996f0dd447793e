import Bluesafe.Notify.Workers
import Bluesafe.Async.Safe

/-!
# Notifications are delivered once

A tick of the delivery worker reads the notifications that are due, hands each one to the
provider and then overwrites its row. Nothing marks a row that is being delivered, so two
ticks may deliver it both, and the later save may take a final status back.

`HandlesAlone` is what the missing claim would ensure: a delivery starts only while the
stored row is not final and no other tick is between its delivery and its save, and the
save that records a success takes effect. The invariant `DeliveryInv` follows both
through every interleaving of ticks with all the other writers of notifications.
-/

namespace Bluesafe.Notify

open Async Transition
open Bluesafe.Ops (Time JsonObject BluesafeAuth Reply)

/-! ## What a tick is doing -/

/-- The delivery that was answered and is not yet saved. -/
def unsaved : NotifyLog → Option (NotificationEvent × DeliveryResult)
  | ⟨.deliver e, .ok r⟩ :: _ => some (e, r)
  | ⟨.clock, _⟩ :: l => unsaved l
  | _ => none

/-- The request is between the delivery of the notification and its save. -/
def Handles (l : NotifyLog) (id : String) : Prop :=
  ∃ e r, unsaved l = some (e, r) ∧ e.id = id

/-- The same, and the delivery succeeded. -/
def HandlesSuccess (l : NotifyLog) (id : String) : Prop :=
  ∃ e r, unsaved l = some (e, r) ∧ e.id = id ∧ r.ok = true

/-- The identifier that was generated and is not yet saved. -/
def reserved : NotifyLog → Option String
  | ⟨.randomId _, .ok id⟩ :: _ => some id
  | ⟨.clock, _⟩ :: l => reserved l
  | _ => none

/-- The request has generated the identifier and has not used it. -/
def Reserves (l : NotifyLog) (id : String) : Prop :=
  reserved l = some id

/-- A row is saved under a new identifier, or it is the row of the notification that was
    delivered last, with status `sent` if that succeeded. Between a delivery and its save
    only the clock is read. -/
def deliveryOk (l : NotifyLog) : Call → Prop
  | .clock => True
  | .saveNotification n => Reserves l n.id ∨
      ∃ e r, unsaved l = some (e, r) ∧ n.id = e.id ∧ (r.ok = true → n.status = .sent)
  | _ => unsaved l = none

/-- After any call but a delivery nothing waits to be saved, unless it did before. -/
theorem unsaved_cons {op : Call} {r : Except String op.Res} {l : NotifyLog}
    (hop : ∀ e, op ≠ .deliver e) (hl : unsaved l = none) : unsaved (⟨op, r⟩ :: l) = none := by
  cases op with
  | deliver e => exact absurd rfl (hop e)
  | clock => exact hl
  | _ => rfl

/-- A request that has an identifier to use has no delivery to save. -/
theorem unsaved_of_reserves {l : NotifyLog} {id : String} (h : Reserves l id) :
    unsaved l = none := by
  induction l with
  | nil => exact nomatch h
  | cons ev l ih =>
    obtain ⟨op, r⟩ := ev
    cases op with
    | clock => exact ih h
    | deliver e => exact nomatch h
    | _ => rfl

/-! ## The programs -/

/-- The calls of the program are accepted, and nothing waits to be saved at its end, whether
    it returns or throws. -/
def Calm {α : Type} (p : NotifyM α) (l : NotifyLog) : Prop :=
  wp (monitor deliveryOk) p (fun _ l' => unsaved l' = none) (fun _ l' => unsaved l' = none) l

namespace Calm

variable {α β : Type} {l : NotifyLog}

theorem pure {a : α} (hl : unsaved l = none) : Calm (Pure.pure a) l := hl

/-- A call other than a delivery and a save. -/
theorem call {op : Call} (hop : ∀ e, op ≠ .deliver e) (hsave : ∀ n, op ≠ .saveNotification n)
    (hl : unsaved l = none) : Calm (invoke op) l := by
  refine wp_monitor_call ?_ (fun _ => unsaved_cons hop hl) fun _ => unsaved_cons hop hl
  cases op with
  | deliver e => exact absurd rfl (hop e)
  | saveNotification n => exact absurd rfl (hsave n)
  | clock => trivial
  | _ => exact hl

/-- The save of a new notification. -/
theorem save {n : NotificationEvent} (h : Reserves l n.id) : Calm (saveNotification n) l :=
  wp_monitor_call (.inl h) (fun _ => rfl) fun _ => rfl

theorem bind {p : NotifyM β} {f : β → NotifyM α} (hp : Calm p l)
    (hf : ∀ b l', unsaved l' = none → Calm (f b) l') : Calm (p >>= f) l :=
  wp_monitor_bind hp fun b l' _ hl' => hf b l' hl'

/-- A new identifier and what is done with it. -/
theorem randomId_bind {tag : String} {f : String → NotifyM α} (hl : unsaved l = none)
    (hf : ∀ id l', Reserves l' id → Calm (f id) l') : Calm (randomId tag >>= f) l := by
  have hid : wp (monitor deliveryOk) (randomId tag) (fun id l' => Reserves l' id)
      (fun _ l' => unsaved l' = none) l :=
    wp_monitor_call hl (fun _ => rfl) fun _ => rfl
  exact wp_monitor_bind hid fun id l' _ h => hf id l' h

/-- The clock is read while an identifier is reserved. -/
theorem clock_bind {id : String} {f : Time → NotifyM α} (h : Reserves l id)
    (hf : ∀ t l', Reserves l' id → Calm (f t) l') : Calm (nowIso >>= f) l := by
  have hclock : wp (monitor deliveryOk) nowIso (fun _ l' => Reserves l' id)
      (fun _ l' => unsaved l' = none) l :=
    wp_monitor_call trivial (fun _ => h) fun _ => unsaved_of_reserves h
  exact wp_monitor_bind hclock fun t l' _ h' => hf t l' h'

theorem map {p : NotifyM β} {f : β → α} (hp : Calm p l) : Calm (f <$> p) l := by
  unfold Calm
  rw [wp_map]
  exact hp

theorem tryCatch {p : NotifyM α} {h : String → NotifyM α} (hp : Calm p l)
    (hh : ∀ e l', unsaved l' = none → Calm (h e) l') : Calm (MonadExcept.tryCatch p h) l :=
  wp_monitor_tryCatch hp fun e l' _ hl' => hh e l' hl'

theorem forM {xs : List β} {f : β → NotifyM PUnit} (hl : unsaved l = none)
    (hf : ∀ x l', unsaved l' = none → Calm (f x) l') : Calm (ForM.forM xs f) l :=
  wp_forM_inv _ (monitor_mono deliveryOk) xs f (fun x _ l' hl' => hf x l' hl') l hl

end Calm

/-- An audit entry leaves no identifier unsaved. -/
theorem writeAudit_calm {entityType entityId action actorId : String}
    {after metadata : Option JsonObject} {l : NotifyLog} (hl : unsaved l = none) :
    Calm (writeAudit entityType entityId action actorId after metadata) l := by
  refine Calm.bind (Calm.call (by simp) (by simp) hl) fun _ l₁ hl₁ => ?_
  refine Calm.bind (Calm.call (by simp) (by simp) hl₁) fun _ l₂ hl₂ => ?_
  exact Calm.call (by simp) (by simp) hl₂

/-- Nor does an event. -/
theorem emitEvent_calm {eventType entityType entityId : String} {payload : JsonObject}
    {l : NotifyLog} (hl : unsaved l = none) :
    Calm (emitEvent eventType entityType entityId payload) l := by
  refine Calm.bind (Calm.call (by simp) (by simp) hl) fun _ l₁ hl₁ => ?_
  refine Calm.bind (Calm.call (by simp) (by simp) hl₁) fun _ l₂ hl₂ => ?_
  refine Calm.bind (Calm.call (by simp) (by simp) hl₂) fun _ l₃ hl₃ => ?_
  exact Calm.call (by simp) (by simp) hl₃

/-- A new row is stored, and its event emitted. -/
theorem sendOne_calm {body : SendBody} {now : Time} {action actor : String}
    {extra : JsonObject} {channel : NotificationChannel} {id : String}
    {l : NotifyLog} (h : Reserves l id) :
    Calm (sendOne body now action actor extra channel id) l := by
  refine Calm.bind (Calm.save h) fun _ l₁ hl₁ => ?_
  exact Calm.bind (writeAudit_calm hl₁) fun _ l₂ hl₂ => emitEvent_calm hl₂

/-- The fan-out saves the notification it has reserved. -/
theorem fanOut_calm {row : NotificationOutboxRecord} {id : String} {t : Time}
    {l : NotifyLog} (h : Reserves l id) : Calm (fanOut row id t) l := by
  refine Calm.bind (Calm.save h) fun _ l₁ hl₁ => ?_
  refine Calm.bind (emitEvent_calm hl₁) fun _ l₂ hl₂ => ?_
  exact Calm.call (by simp) (by simp) hl₂

/-- A failure reserves nothing. -/
theorem recordDispatchFailure_calm {row : NotificationOutboxRecord} {m : Nat}
    {t : Time} {message : String} {l : NotifyLog} (hl : unsaved l = none) :
    Calm (recordDispatchFailure row m t message) l := by
  refine Calm.bind (Calm.call (by simp) (by simp) hl) fun _ l₁ hl₁ => ?_
  split
  · exact emitEvent_calm hl₁
  · exact Calm.pure hl₁

/-- A row of the outbox saves its notification, or reserves none. -/
theorem dispatchOneOutboxRow_calm {m : Nat} {t : Time}
    {row : NotificationOutboxRecord} {l : NotifyLog} (hl : unsaved l = none) :
    Calm (dispatchOneOutboxRow m t row) l :=
  Calm.randomId_bind hl fun _ _ h =>
    Calm.tryCatch (fanOut_calm h) fun _ _ hl' => recordDispatchFailure_calm hl'

/-- A tick of the fan-out worker delivers nothing. -/
theorem fanoutTick_calm (config : Config) {l : NotifyLog} (hl : unsaved l = none) :
    Calm (fanoutTick config) l := by
  refine Calm.tryCatch ?_ fun _ _ hl' => Calm.pure hl'
  refine Calm.bind (Calm.call (by simp) (by simp) hl) fun _ l₁ hl₁ => ?_
  refine Calm.bind (Calm.call (by simp) (by simp) hl₁) fun _ l₂ hl₂ => ?_
  refine Calm.bind (Calm.call (by simp) (by simp) hl₂) fun _ l₃ hl₃ => ?_
  refine Calm.bind (Calm.call (by simp) (by simp) hl₃) fun _ l₄ hl₄ => ?_
  exact Calm.forM hl₄ fun _ _ hl' => dispatchOneOutboxRow_calm hl'

/-- An item that goes to the outbox is not delivered. -/
theorem enqueueToOutbox_calm {config : Config} {now : Time}
    {it : FanoutNotificationItem} {l : NotifyLog} (hl : unsaved l = none) :
    Calm (enqueueToOutbox config now it) l := by
  refine Calm.randomId_bind hl fun id l₁ hid => ?_
  refine Calm.bind (Calm.call (by simp) (by simp) (unsaved_of_reserves hid)) fun _ l₂ hl₂ => ?_
  split
  · exact emitEvent_calm hl₂
  · exact Calm.pure hl₂

/-- Nor is one that goes the direct way. -/
theorem enqueueDirectly_calm {now : Time} {it : FanoutNotificationItem}
    {l : NotifyLog} (hl : unsaved l = none) : Calm (enqueueDirectly now it) l := by
  refine Calm.randomId_bind hl fun id l₁ hid => ?_
  exact Calm.bind (Calm.save hid) fun _ l₂ hl₂ => emitEvent_calm hl₂

/-- All items of an occurrence. -/
theorem enqueueFanoutNotificationItems_calm {config : Config}
    {items : List FanoutNotificationItem} {l : NotifyLog} (hl : unsaved l = none) :
    Calm (enqueueFanoutNotificationItems config items) l := by
  refine Calm.bind (Calm.call (by simp) (by simp) hl) fun now l₁ hl₁ => ?_
  split
  · exact Calm.forM hl₁ fun _ _ hl' => enqueueToOutbox_calm hl'
  · exact Calm.forM hl₁ fun _ _ hl' => enqueueDirectly_calm hl'

/-- An occurrence delivers nothing. -/
theorem enqueueOccurrence_calm {config : Config} {o : Occurrence} {l : NotifyLog}
    (hl : unsaved l = none) : Calm (enqueueOccurrence config o) l := by
  rcases enqueueOccurrence_cases config o with heq | heq <;> rw [heq]
  · exact enqueueFanoutNotificationItems_calm hl
  · exact Calm.pure hl

/-- A request queues its notification. -/
theorem sendNotification_calm {body : SendBody} {channel : NotificationChannel} {l : NotifyLog}
    (hl : unsaved l = none) : Calm (sendNotification body channel) l := by
  refine Calm.randomId_bind hl fun id l₁ hid => ?_
  refine Calm.clock_bind hid fun t l₂ hid₂ => ?_
  exact Calm.bind (sendOne_calm hid₂) fun _ l₃ hl₃ => Calm.pure hl₃

/-- One for each channel. -/
theorem dispatchAll_calm {auth : Option BluesafeAuth} {body : SendBody}
    {now : Time} {channels : List NotificationChannel} {l : NotifyLog}
    (hl : unsaved l = none) : Calm (dispatchAll auth body now channels) l := by
  induction channels generalizing l with
  | nil => exact Calm.pure hl
  | cons channel rest ih =>
    refine Calm.randomId_bind hl fun id l₁ hid => ?_
    refine Calm.bind (sendOne_calm hid) fun _ l₂ hl₂ => ?_
    exact Calm.bind (ih hl₂) fun _ l₃ hl₃ => Calm.pure hl₃

/-- The same with the default channels. -/
theorem dispatchNotifications_calm {auth : Option BluesafeAuth} {body : SendBody}
    {channels : Option (List NotificationChannel)} {l : NotifyLog} (hl : unsaved l = none) :
    Calm (dispatchNotifications auth body channels) l := by
  refine Calm.bind (Calm.call (by simp) (by simp) hl) fun now l₁ hl₁ => ?_
  exact Calm.bind (dispatchAll_calm hl₁) fun _ l₂ hl₂ => Calm.pure hl₂

/-- A row that is put back is not delivered. -/
theorem retryOutbox_calm {auth : Option BluesafeAuth} {outboxId : String}
    {l : NotifyLog} (hl : unsaved l = none) : Calm (retryOutbox auth outboxId) l := by
  refine Calm.bind (Calm.call (by simp) (by simp) hl) fun row l₁ hl₁ => ?_
  split
  · exact Calm.pure hl₁
  · split
    · exact Calm.pure hl₁
    · refine Calm.bind (Calm.call (by simp) (by simp) hl₁) fun t l₂ hl₂ => ?_
      refine Calm.bind (Calm.call (by simp) (by simp) hl₂) fun _ l₃ hl₃ => ?_
      exact Calm.bind (writeAudit_calm hl₃) fun _ l₄ hl₄ => Calm.pure hl₄

/-- A calm program leaves no delivery unsaved. -/
theorem Calm.gives {α : Type} {p : NotifyM α} {l : NotifyLog} (h : Calm p l) :
    Gives deliveryOk p (fun _ l' => unsaved l' = none) l :=
  wp_mono _ _ (monitor_mono deliveryOk) (fun _ _ h => h) (fun _ _ _ => trivial) h

/-- The save after a delivery. -/
theorem save_calm {n e : NotificationEvent} {r : DeliveryResult} {l : NotifyLog}
    (h : unsaved l = some (e, r)) (hid : n.id = e.id) (hsent : r.ok = true → n.status = .sent) :
    Calm (saveNotification n) l :=
  wp_monitor_call (.inr ⟨e, r, h, hid, hsent⟩) (fun _ => rfl) fun _ => rfl

/-- A delivery is followed by its save. -/
theorem processOne_gives {config : Config} {n : NotificationEvent} {l : NotifyLog}
    (hl : unsaved l = none) :
    Gives deliveryOk (processOne config n) (fun _ l' => unsaved l' = none) l := by
  refine Gives.call_bind hl fun result => Gives.call_bind trivial fun t => ?_
  -- The delivery is the newest call but for the clock.
  have hun : unsaved (⟨.clock, .ok t⟩ :: ⟨.deliver n.rendered, .ok result⟩ :: l) =
      some (n.rendered, result) := rfl
  split
  · refine Calm.gives (Calm.bind (save_calm hun rfl fun _ => rfl) fun _ l₁ hl₁ => ?_)
    exact Calm.bind (writeAudit_calm hl₁) fun _ l₂ hl₂ => emitEvent_calm hl₂
  · rename_i hfail
    have hno : ∀ n' : NotificationEvent, result.ok = true → n'.status = .sent :=
      fun _ hok => absurd hok hfail
    split
    · refine Calm.gives (Calm.bind (save_calm hun rfl (hno _)) fun _ l₁ hl₁ => ?_)
      exact Calm.bind (writeAudit_calm hl₁) fun _ l₂ hl₂ => emitEvent_calm hl₂
    · refine Gives.call_bind trivial fun now => Calm.gives (save_calm (e := n.rendered) ?_ rfl (hno _))
      exact hun

/-- A tick saves every delivery before the next one. -/
theorem notificationTick_safe (config : Config) : Safe deliveryOk (notificationTick config) [] := by
  refine Gives.tryCatch ?_ fun _ _ _ => Gives.pure trivial
  refine Gives.call_bind trivial fun now => Gives.call_bind rfl fun due => ?_
  have hloop : Gives deliveryOk (due.forM (processOne config)) (fun _ l' => unsaved l' = none)
      [⟨.listDueNotifications now config.batchSize, .ok due⟩, ⟨.clock, .ok now⟩] :=
    wp_forM_inv _ (monitor_mono deliveryOk) due _ (fun _ _ _ hl => processOne_gives hl) _ rfl
  exact hloop.mono fun _ _ _ _ => trivial

/-- Every request and worker does. -/
theorem handle_delivery_safe (config : Config) (req : Request) :
    Safe deliveryOk (handle config req) [] := by
  -- All requests but the tick of the delivery worker are calm.
  have hcalm : ∀ {α : Type} {p : NotifyM α} {f : α → Option Reply}, Calm p [] →
      Safe deliveryOk (f <$> p) [] :=
    fun h => Gives.mono (Calm.map h).gives fun _ _ _ _ => trivial
  cases req with
  | notificationTick => exact Gives.map (notificationTick_safe config)
  | fanoutTick => exact hcalm (fanoutTick_calm config rfl)
  | occurrence o => exact hcalm (enqueueOccurrence_calm rfl)
  | send body channel => exact hcalm (sendNotification_calm rfl)
  | dispatch auth body channels => exact hcalm (dispatchNotifications_calm rfl)
  | retryOutbox auth outboxId => exact hcalm (retryOutbox_calm rfl)

/-! ## What a call does to the rows -/

/-- Only a save changes the notifications, and only if it takes effect. -/
theorem serve_notifications (op : Call) (c : Choice) (s : Store) :
    (serve op c s).2.notifications = s.notifications ∨
    ∃ n, op = .saveNotification n ∧ (serve op c s).2.notifications = s.notifications.set n := by
  -- only a save of the notification writes that table
  have hperform : (perform op c s).2.notifications = s.notifications ∨
      ∃ n, op = .saveNotification n ∧
        (perform op c s).2.notifications = s.notifications.set n := by
    cases op with
    | saveNotification n => exact .inr ⟨n, rfl, rfl⟩
    | appendNotificationOutbox row =>
      left
      simp only [perform]
      split <;> rfl
    | _ => exact .inl rfl
  -- a call that is rejected leaves the store, or has its effect all the same
  rcases serve_state op c s with ⟨-, heq⟩ | heq
  · rw [heq]
    exact hperform
  · exact .inl (congrArg Store.notifications heq)

/-- Only a save changes a notification. -/
theorem serve_notifications_of_ne {op : Call} {c : Choice} {s : Store}
    (hop : ∀ n, op ≠ .saveNotification n) :
    (serve op c s).2.notifications = s.notifications := by
  rcases serve_notifications op c s with h | ⟨n, hn, -⟩
  · exact h
  · exact absurd hn (hop n)

/-- No identifier is ever forgotten. -/
theorem mem_issued_serve {op : Call} {c : Choice} {s : Store} {id : String} (h : id ∈ s.issued) :
    id ∈ (serve op c s).2.issued := by
  have hperform : id ∈ (perform op c s).2.issued := by
    cases op with
    | randomId tag => exact List.mem_cons_of_mem _ h
    | appendNotificationOutbox row =>
      simp only [perform]
      split <;> exact h
    | _ => exact h
  rcases serve_state op c s with ⟨-, heq⟩ | heq
  · rw [heq]
    exact hperform
  · rw [heq]
    exact h

/-- A fresh identifier was never generated, and no row has it. -/
theorem isFresh_iff {s : Store} {id : String} :
    s.isFresh id = true ↔
      id ∉ s.issued ∧ s.notifications.get? id = none ∧ s.outbox.get? id = none := by
  simp only [Store.isFresh, List.contains_eq_mem, Bool.and_eq_true, Bool.not_eq_true',
    decide_eq_false_iff_not, Option.isNone_iff_eq_none, and_assoc]

/-- The generator returns an identifier that is in no row and was not issued before. -/
theorem randomId_fresh {tag id : String} {c : Choice} {s : Store}
    (hallow : world.allow (.randomId tag) c s = true)
    (hres : (serve (.randomId tag) c s).1 = .ok id) :
    s.isFresh id = true ∧ id ∈ (serve (.randomId tag) c s).2.issued := by
  simp only [world, Call.isLocal, Bool.not_true, Bool.or_false, Bool.and_eq_true,
    Option.isNone_iff_eq_none] at hallow
  obtain ⟨hfail, -, hfresh⟩ := hallow
  simp only [serve, hfail, perform, Except.ok.injEq] at hres ⊢
  subst hres
  exact ⟨hfresh, List.mem_cons_self⟩

/-- A request comes to own an identifier by generating it. -/
theorem reserves_resume {op : Call} {c : Choice} {s : Store} {l : NotifyLog} {id : String}
    (hallow : world.allow op c s = true) (h : Reserves (⟨op, (serve op c s).1⟩ :: l) id) :
    (op = .clock ∧ Reserves l id) ∨ ((∃ tag, op = .randomId tag) ∧
      s.isFresh id = true ∧ id ∈ (serve op c s).2.issued) := by
  cases op with
  | clock => exact .inl ⟨rfl, h⟩
  | randomId tag =>
    right
    cases hr : (serve (.randomId tag) c s).1 with
    | ok id' =>
      rw [hr] at h
      cases h
      exact ⟨⟨tag, rfl⟩, randomId_fresh hallow hr⟩
    | error e =>
      rw [hr] at h
      exact nomatch h
  | _ => exact nomatch h

/-- No two requests own the same identifier. -/
theorem atMostOne_reserves_resume {P : NotifyPool} {i : Nat} {th : NotifyThread} {op : Call}
    {c : Choice} {k : Except String op.Res → NotifyM (Option Reply)} {id : String}
    (hown : AtMostOne (fun th => Reserves th.log id) P.threads)
    (hissued : ∀ u ∈ P.threads, Reserves u.log id → id ∈ P.store.issued)
    (hth : P.threads[i]? = some th) (hallow : world.allow op c P.store = true) :
    AtMostOne (fun th => Reserves th.log id)
      (P.threads.set i (th.resume op (serve op c P.store).1 k)) := by
  refine hown.set hth fun hid => ?_
  rcases reserves_resume hallow hid with ⟨-, hid⟩ | ⟨-, hfresh, -⟩
  · exact .inl hid
  · exact .inr fun u hu hid' => (isFresh_iff.mp hfresh).1 (hissued u hu hid')

/-- A request comes to handle a notification by delivering it. -/
theorem handles_cons {op : Call} {r : Except String op.Res} {l : NotifyLog} {id : String}
    (h : Handles (⟨op, r⟩ :: l) id) :
    (op = .clock ∧ Handles l id) ∨ ∃ e, op = .deliver e ∧ e.id = id := by
  obtain ⟨e, r', hun, hid⟩ := h
  cases op with
  | clock => exact .inl ⟨rfl, e, r', hun, hid⟩
  | deliver e' =>
    cases r with
    | ok a =>
      cases hun
      exact .inr ⟨_, rfl, hid⟩
    | error m => exact nomatch hun
  | _ => exact nomatch hun

/-- A request that has delivered a notification is handling it. -/
theorem HandlesSuccess.handles {l : NotifyLog} {id : String} (h : HandlesSuccess l id) :
    Handles l id := by
  obtain ⟨e, r, hun, hid, -⟩ := h
  exact ⟨e, r, hun, hid⟩

/-! ## The condition and the invariant -/

/-- The row is stored, and the worker may still take it up. -/
def Store.Waiting (s : Store) (id : String) : Prop :=
  ∃ n, s.notifications.get? id = some n ∧ n.status.isFinal = false

/-- A delivery starts only for a row that still waits and that no tick is handling, and the
    save after a successful delivery takes effect. -/
def HandlesAlone (m : Move NotifyPool (Act Request Choice)) : Prop :=
  ∀ th op c, MakesCall m th op c →
    (∀ e, op = .deliver e →
      m.before.store.Waiting e.id ∧ ∀ u ∈ m.before.threads, ¬ Handles u.log e.id) ∧
    (∀ n, op = .saveNotification n → HandlesSuccess th.log n.id →
      c.failure = none ∨ c.applied = true)

/-- The call delivered the notification successfully. -/
def isDelivery (id : String) : Event calls String → Bool
  | ⟨.deliver e, .ok r⟩ => decide (e.id = id) && r.ok
  | _ => false

/-- A delivery is the call with the notification of this identifier. -/
theorem deliver_of_isDelivery {op : Call} {r : Except String op.Res} {id : String}
    (h : isDelivery id ⟨op, r⟩ = true) : ∃ e, op = .deliver e ∧ e.id = id := by
  cases op with
  | deliver e =>
    cases r with
    | ok a =>
      simp only [isDelivery, Bool.and_eq_true, decide_eq_true_eq] at h
      exact ⟨e, rfl, h.1⟩
    | error m => exact nomatch h
  | _ => exact nomatch h

/-- After it the request has delivered the notification. -/
theorem handlesSuccess_of_isDelivery {op : Call} {r : Except String op.Res} {id : String}
    {l : NotifyLog} (h : isDelivery id ⟨op, r⟩ = true) : HandlesSuccess (⟨op, r⟩ :: l) id := by
  cases op with
  | deliver e =>
    cases r with
    | ok a =>
      simp only [isDelivery, Bool.and_eq_true, decide_eq_true_eq] at h
      exact ⟨e, a, rfl, h.1, h.2⟩
    | error m => exact nomatch h
  | _ => exact nomatch h

/-- The stored row has the status. -/
def Store.HasStatus (s : Store) (id : String) (status : NotificationStatus) : Prop :=
  ∃ n, s.notifications.get? id = some n ∧ n.status = status

/-- What holds in every state of a run that meets `HandlesAlone`. -/
structure DeliveryInv (P : NotifyPool) : Prop where
  safe : ∀ th ∈ P.threads, th.Safe fun _ => deliveryOk
  reserved : ∀ th ∈ P.threads, ∀ id, Reserves th.log id →
    P.store.notifications.get? id = none ∧ id ∈ P.store.issued
  own : ∀ id, AtMostOne (fun th => Reserves th.log id) P.threads
  handled : ∀ th ∈ P.threads, ∀ id, Handles th.log id → P.store.Waiting id
  alone : ∀ id, AtMostOne (fun th => Handles th.log id) P.threads
  once : ∀ id, P.calls.countP (isDelivery id) ≤ 1
  recorded : ∀ id, P.calls.countP (isDelivery id) ≠ 0 →
    (∃ th ∈ P.threads, HandlesSuccess th.log id) ∨ P.store.HasStatus id .sent

namespace DeliveryInv

variable {P : NotifyPool} {i : Nat} {th : NotifyThread} {op : Call} {c : Choice}
  {k : Except String op.Res → NotifyM (Option Reply)}

/-- A thread saves a row that it alone owns or handles. -/
theorem save_cases (h : DeliveryInv P) (hth : P.threads[i]? = some th) {n : NotificationEvent}
    {k : Except String Unit → NotifyM (Option Reply)}
    (hprog : th.prog = .await (.saveNotification n) k) :
    Reserves th.log n.id ∨
    ∃ e r, unsaved th.log = some (e, r) ∧ n.id = e.id ∧ (r.ok = true → n.status = .sent) :=
  (h.safe th (List.mem_of_getElem? hth)).ok_of_await hprog

/-- No other thread owns or handles the row that is saved. -/
theorem save_exclusive (h : DeliveryInv P) (hth : P.threads[i]? = some th)
    {n : NotificationEvent} {k : Except String Unit → NotifyM (Option Reply)}
    (hprog : th.prog = .await (.saveNotification n) k) {j : Nat} {u : NotifyThread}
    (hij : i ≠ j) (hu : P.threads[j]? = some u) :
    ¬ Reserves u.log n.id ∧ ¬ Handles u.log n.id := by
  -- the save is of a row of the request itself, or of one that is being handled
  have hmem := List.mem_of_getElem? hth
  have humem := List.mem_of_getElem? hu
  rcases h.save_cases hth hprog with hown | ⟨e, r, hun, hid, -⟩
  · -- the identifier is the request's own: the row is not stored, so nobody handles it
    have hnone := (h.reserved th hmem n.id hown).1
    constructor
    · intro hr
      exact hij (h.own n.id i j th u hth hu hown hr)
    · intro hh
      obtain ⟨n', hn', -⟩ := h.handled u humem n.id hh
      rw [hnone] at hn'
      exact nomatch hn'
  · -- the row is being handled: it is stored, so its identifier is reserved by nobody
    have hhandles : Handles th.log n.id := ⟨e, r, hun, hid.symm⟩
    constructor
    · intro hr
      obtain ⟨n', hn', -⟩ := h.handled th hmem n.id hhandles
      rw [(h.reserved u humem n.id hr).1] at hn'
      exact nomatch hn'
    · intro hh
      exact hij (h.alone n.id i j th u hth hu hhandles hh)

/-- The row of another thread is not touched by a call. -/
theorem get?_other (h : DeliveryInv P) (hth : P.threads[i]? = some th)
    (hprog : th.prog = .await op k) {j : Nat} {u : NotifyThread} (hij : i ≠ j)
    (hu : P.threads[j]? = some u) {id : String} (hid : Reserves u.log id ∨ Handles u.log id) :
    (serve op c P.store).2.notifications.get? id = P.store.notifications.get? id := by
  rcases serve_notifications op c P.store with heq | ⟨n, rfl, heq⟩
  · rw [heq]
  · obtain ⟨hreserves, hhandles⟩ := h.save_exclusive hth hprog hij hu
    have hne : id ≠ n.id := by
      rintro rfl
      rcases hid with hid | hid
      · exact hreserves hid
      · exact hhandles hid
    rw [heq, Table.get?_set, if_neg hne]

/-- A final row is not touched by a call. -/
theorem get?_final (h : DeliveryInv P) (hth : P.threads[i]? = some th)
    (hprog : th.prog = .await op k) {id : String} {n : NotificationEvent}
    (hn : P.store.notifications.get? id = some n) (hfinal : n.status.isFinal = true) :
    (serve op c P.store).2.notifications.get? id = some n := by
  -- another call than a save leaves the row
  rcases serve_notifications op c P.store with heq | ⟨n', rfl, heq⟩
  · rw [heq, hn]
  · have hmem := List.mem_of_getElem? hth
    -- a save of this row would be by its handler, whose row still waits
    have hne : id ≠ n'.id := by
      rintro rfl
      rcases h.save_cases hth hprog with hown | ⟨e, r, hun, hid, -⟩
      · rw [(h.reserved th hmem n'.id hown).1] at hn
        exact nomatch hn
      · obtain ⟨n'', hn'', hwait⟩ := h.handled th hmem n'.id ⟨e, r, hun, hid.symm⟩
        rw [hn, Option.some.injEq] at hn''
        subst hn''
        rw [hfinal] at hwait
        exact nomatch hwait
    rw [heq, Table.get?_set, if_neg hne, hn]

/-- A notification that waits and that no tick is handling was not delivered. -/
theorem undelivered (h : DeliveryInv P) {id : String} (hwaiting : P.store.Waiting id)
    (hnone : ∀ u ∈ P.threads, ¬ Handles u.log id) : P.calls.countP (isDelivery id) = 0 := by
  obtain ⟨n, hn, hwait⟩ := hwaiting
  by_contra hcount
  rcases h.recorded id hcount with ⟨u, hu, hsuccess⟩ | ⟨n', hn', hsent⟩
  · exact hnone u hu hsuccess.handles
  · rw [hn, Option.some.injEq] at hn'
    subst hn'
    simp [hsent, NotificationStatus.isFinal] at hwait

section Step

variable (h : DeliveryInv P) (hth : P.threads[i]? = some th) (hprog : th.prog = .await op k)
include h hth hprog

/-- An identifier that a request reserves stays free for it. -/
theorem reserved_step (hallow : world.allow op c P.store = true) {u : NotifyThread}
    (hu : u ∈ P.threads.set i (th.resume op (serve op c P.store).1 k)) {id : String}
    (hid : Reserves u.log id) :
    (serve op c P.store).2.notifications.get? id = none ∧
      id ∈ (serve op c P.store).2.issued := by
  rcases mem_set_cases hu with rfl | ⟨j, hij, hj⟩
  · rcases reserves_resume hallow hid with ⟨rfl, hid⟩ | ⟨⟨tag, rfl⟩, hfresh, hissued⟩
    · obtain ⟨hnone, hissued⟩ := h.reserved th (List.mem_of_getElem? hth) id hid
      exact ⟨by rw [serve_notifications_of_ne (by simp), hnone], mem_issued_serve hissued⟩
    · obtain ⟨-, hnone, -⟩ := isFresh_iff.mp hfresh
      exact ⟨by rw [serve_notifications_of_ne (by simp), hnone], hissued⟩
  · obtain ⟨hnone, hissued⟩ := h.reserved u (List.mem_of_getElem? hj) id hid
    exact ⟨by rw [h.get?_other hth hprog hij hj (.inl hid), hnone], mem_issued_serve hissued⟩

variable (hdeliver : ∀ e, op = .deliver e →
  P.store.Waiting e.id ∧ ∀ u ∈ P.threads, ¬ Handles u.log e.id)
include hdeliver

/-- A notification that is being handled waits in the store. -/
theorem handled_step {u : NotifyThread}
    (hu : u ∈ P.threads.set i (th.resume op (serve op c P.store).1 k)) {id : String}
    (hid : Handles u.log id) : (serve op c P.store).2.Waiting id := by
  have hget : ∀ n, (op = .clock ∨ ∃ e, op = .deliver e) →
      P.store.notifications.get? id = some n →
      (serve op c P.store).2.notifications.get? id = some n := by
    intro n hop hn
    rw [serve_notifications_of_ne (by rintro n rfl; simp at hop), hn]
  rcases mem_set_cases hu with rfl | ⟨j, hij, hj⟩
  · rcases handles_cons hid with ⟨hop, hid⟩ | ⟨e, hop, rfl⟩
    · obtain ⟨n, hn, hwait⟩ := h.handled th (List.mem_of_getElem? hth) id hid
      exact ⟨n, hget n (.inl hop) hn, hwait⟩
    · obtain ⟨n, hn, hwait⟩ := (hdeliver e hop).1
      exact ⟨n, hget n (.inr ⟨e, hop⟩) hn, hwait⟩
  · obtain ⟨n, hn, hwait⟩ := h.handled u (List.mem_of_getElem? hj) id hid
    exact ⟨n, by rw [h.get?_other hth hprog hij hj (.inr hid), hn], hwait⟩

omit hprog in
/-- One request at a time handles a notification. -/
theorem alone_step (id : String) :
    AtMostOne (fun th => Handles th.log id)
      (P.threads.set i (th.resume op (serve op c P.store).1 k)) := by
  refine (h.alone id).set hth fun hid => ?_
  rcases handles_cons hid with ⟨-, hid⟩ | ⟨e, hop, rfl⟩
  · exact .inl hid
  · exact .inr (hdeliver e hop).2

omit hprog in
/-- It is delivered once. -/
theorem once_step (id : String) :
    ((P.threads.set i (th.resume op (serve op c P.store).1 k)).flatMap Thread.log).countP
      (isDelivery id) ≤ 1 := by
  rw [countP_calls_set hth rfl (isDelivery id)]
  have hold : P.calls.countP (isDelivery id) ≤ 1 := h.once id
  unfold Pool.calls at hold
  split
  · rename_i hnew
    obtain ⟨e, hop, rfl⟩ := deliver_of_isDelivery hnew
    have hzero := h.undelivered (hdeliver e hop).1 (hdeliver e hop).2
    unfold Pool.calls at hzero
    omega
  · omega

end Step

/-- The tick that has delivered the notification keeps handling it, or its save records the
    success. -/
theorem recorded_handler (h : DeliveryInv P) (hth : P.threads[i]? = some th)
    (hprog : th.prog = .await op k)
    (hsave : ∀ n, op = .saveNotification n → HandlesSuccess th.log n.id →
      c.failure = none ∨ c.applied = true)
    {id : String} (hid : HandlesSuccess th.log id) :
    HandlesSuccess (th.resume op (serve op c P.store).1 k).log id ∨
      (serve op c P.store).2.HasStatus id .sent := by
  obtain ⟨e, r, hun, hid, hok⟩ := hid
  have haccepted : deliveryOk th.log op :=
    (h.safe th (List.mem_of_getElem? hth)).ok_of_await hprog
  cases op with
  | clock => exact .inl ⟨e, r, hun, hid, hok⟩
  | saveNotification n =>
    right
    rcases haccepted with hown | ⟨e', r', hun', hid', hsent⟩
    · rw [unsaved_of_reserves hown] at hun
      exact nomatch hun
    · rw [hun] at hun'
      cases hun'
      have hnid : n.id = id := hid'.trans hid
      -- The save takes effect, whether or not it is answered.
      have heffect : (serve (.saveNotification n) c P.store).2.notifications =
          P.store.notifications.set n := by
        have heff := hsave n rfl ⟨e, r, hun, hid'.symm, hok⟩
        unfold serve
        split
        · rfl
        · rename_i m hfail
          have happlied : c.applied = true := by simpa [hfail] using heff
          simp [happlied, perform]
      refine ⟨n, ?_, hsent hok⟩
      rw [heffect, ← hnid, Table.get?_set_self]
  | _ =>
    -- Any other call waits until the delivery is saved.
    rw [show unsaved th.log = none from haccepted] at hun
    exact nomatch hun

/-- A delivery is recorded in the store, or its request is about to record it. -/
theorem recorded_step (h : DeliveryInv P) (hth : P.threads[i]? = some th)
    (hprog : th.prog = .await op k)
    (hsave : ∀ n, op = .saveNotification n → HandlesSuccess th.log n.id →
      c.failure = none ∨ c.applied = true)
    {id : String} (hcount : ((P.threads.set i
      (th.resume op (serve op c P.store).1 k)).flatMap Thread.log).countP (isDelivery id) ≠ 0) :
    (∃ u ∈ P.threads.set i (th.resume op (serve op c P.store).1 k), HandlesSuccess u.log id) ∨
      (serve op c P.store).2.HasStatus id .sent := by
  -- the step may be the delivery itself, the save after it, or another call
  have hi : i < P.threads.length := (List.getElem?_eq_some_iff.mp hth).1
  rw [countP_calls_set hth rfl (isDelivery id)] at hcount
  by_cases hnew : isDelivery id ⟨op, (serve op c P.store).1⟩ = true
  · -- The delivery of this step is the one that waits for its save.
    exact .inl ⟨_, List.mem_set hi _, handlesSuccess_of_isDelivery hnew⟩
  · have hold : P.calls.countP (isDelivery id) ≠ 0 := by
      simp only [hnew] at hcount
      exact hcount
    rcases h.recorded id hold with ⟨u, hu, hid⟩ | ⟨n, hn, hsent⟩
    -- the handler that waits is the thread that moves, or another
    · rcases mem_set_of_mem hth hu (th.resume op (serve op c P.store).1 k) with rfl | hu
      · rcases h.recorded_handler hth hprog hsave hid with hid | hsent
        · exact .inl ⟨_, List.mem_set hi _, hid⟩
        · exact .inr hsent
      · exact .inl ⟨u, hu, hid⟩
    · have hfinal : n.status.isFinal = true := by rw [hsent]; rfl
      exact .inr ⟨n, h.get?_final hth hprog hn hfinal, hsent⟩

end DeliveryInv

variable {config : Config}

/-- The invariant holds before the first request. -/
theorem deliveryInv_init (s₀ : Store) : DeliveryInv ⟨s₀, []⟩ where
  safe := by simp
  reserved := by simp
  own := fun _ => atMostOne_nil _
  handled := by simp
  alone := fun _ => atMostOne_nil _
  once := fun _ => Nat.zero_le _
  recorded := fun _ h => absurd rfl h

/-- A request that starts handles nothing yet. -/
theorem DeliveryInv.spawn {P : NotifyPool} (h : DeliveryInv P) (req : Request) :
    DeliveryInv ⟨P.store, P.threads ++ [⟨req, [], handle config req⟩]⟩ := by
  -- the new thread has made no call
  have hcalls : (P.threads ++ [⟨req, [], handle config req⟩] : List NotifyThread).flatMap
      Thread.log = P.calls := by
    simp [Pool.calls]
  constructor
  case safe =>
    intro th hth
    rcases List.mem_append.mp hth with hth | hth
    · exact h.safe th hth
    · rw [List.mem_singleton.mp hth]
      exact handle_delivery_safe config req
  case reserved =>
    intro th hth id hid
    rcases mem_started hth with hth | hnil
    · exact h.reserved th hth id hid
    · rw [hnil] at hid
      exact nomatch hid
  case own => exact fun id => (h.own id).append fun hid => nomatch hid
  case handled =>
    intro th hth id hid
    rcases mem_started hth with hth | hnil
    · exact h.handled th hth id hid
    · obtain ⟨e, r, hun, -⟩ := hid
      rw [hnil] at hun
      cases hun
  case alone =>
    refine fun id => (h.alone id).append fun hid => ?_
    obtain ⟨e, r, hun, -⟩ := hid
    exact nomatch hun
  case once =>
    intro id
    show (List.flatMap _ _).countP _ ≤ 1
    rw [hcalls]
    exact h.once id
  case recorded =>
    intro id hcount
    have hcount : (List.flatMap _ _).countP (isDelivery id) ≠ 0 := hcount
    rw [hcalls] at hcount
    rcases h.recorded id hcount with ⟨th, hth, hid⟩ | hsent
    · exact .inl ⟨th, List.mem_append_left _ hth, hid⟩
    · exact .inr hsent

/-- A move that meets the condition keeps the invariant. -/
theorem DeliveryInv.step {m : Move NotifyPool (Act Request Choice)}
    (hstep : notifyStep config m.before m.label = some m.after) (hC : HandlesAlone m)
    (h : DeliveryInv m.before) : DeliveryInv m.after := by
  obtain ⟨P, a, P'⟩ := m
  dsimp only at hstep h ⊢
  -- a new request, or one call of a thread
  obtain ⟨req, rfl, rfl⟩ | ⟨i, c, th, op, k, rfl, hth, hprog, hallow, rfl⟩ := poolStep_cases hstep
  · exact h.spawn req
  -- each field from the lemma about its own part of the step
  · obtain ⟨hdeliver, hsave⟩ := hC th op c ⟨i, k, rfl, hth, hprog⟩
    constructor
    case safe => exact poolStep_safe (handle_delivery_safe config) hstep h.safe
    case reserved => exact fun u hu id hid => h.reserved_step hth hprog hallow hu hid
    case own =>
      exact fun id => atMostOne_reserves_resume (h.own id)
        (fun u hu hid => (h.reserved u hu id hid).2) hth hallow
    case handled => exact fun u hu id hid => h.handled_step hth hprog hdeliver hu hid
    case alone => exact fun id => h.alone_step hth hdeliver id
    case once => exact fun id => h.once_step hth hdeliver id
    case recorded => exact fun id hcount => h.recorded_step hth hprog hsave hcount

/-- A row that is final before a step is the same after it. -/
theorem final_kept {P P' : NotifyPool} {a : Act Request Choice} (h : DeliveryInv P)
    (hstep : notifyStep config P a = some P') {id : String} {n : NotificationEvent}
    (hn : P.store.notifications.get? id = some n) (hfinal : n.status.isFinal = true) :
    P'.store.notifications.get? id = some n := by
  obtain ⟨req, -, rfl⟩ | ⟨i, c, th, op, k, -, hth, hprog, -, rfl⟩ := poolStep_cases hstep
  · exact hn
  · exact h.get?_final hth hprog hn hfinal

/-- In every run whose deliveries are handled alone, a notification is delivered successfully
    at most once, and a status `sent` or `failed` is kept to the end. -/
theorem delivered_at_most_once {s₀ : Store} {ms : List (Move NotifyPool (Act Request Choice))}
    {P : NotifyPool} (run : Run (notifyStep config) ⟨s₀, []⟩ ms P)
    (hC : ∀ m ∈ ms, HandlesAlone m) :
    (∀ id, P.calls.countP (isDelivery id) ≤ 1) ∧
    ∀ m ∈ ms, ∀ id status, status.isFinal = true → m.before.store.HasStatus id status →
      P.store.HasStatus id status := by
  have hinv : ∀ m ∈ ms, DeliveryInv m.before := fun m hm =>
    run.invariant_before hC (deliveryInv_init s₀) (fun _ hs hc h => h.step hs hc) hm
  constructor
  · exact (run.invariant hC (deliveryInv_init s₀) fun _ hs hc h => h.step hs hc).once
  · intro m hm id status hfinal hstatus
    refine run.kept (Q := fun P => P.store.HasStatus id status) ?_ hm hstatus
    rintro m hm ⟨n, hn, rfl⟩
    exact ⟨n, final_kept (hinv m hm) (run.step_of_mem hm) hn hfinal, rfl⟩

/-! ## Concrete runs -/

def sampleConfig : Config where
  autoDomainEnqueue := true
  domainOutbox := true
  sha256 := String.ofList
  maxAttempts := 8
  batchSize := 10
  retryInitialBackoffMs := 1000
  retryMaxBackoffMs := 60000
  outboxBatchSize := 10
  staleProcessingMs := 60000
  maxDispatchAttempts := 3

/-- One notification waits for its delivery. -/
def sampleQueued : Store :=
  { Store.empty with
    notifications := Table.empty.set
      (queuedNotification "ntf_1" "dispute.review_started" "u1" .inapp [] 0) }

/-- The status of the stored row. -/
def Store.status? (s : Store) (id : String) : Option NotificationStatus :=
  (s.notifications.get? id).map NotificationEvent.status

/-- The status of a stored notification. -/
theorem hasStatus_iff {s : Store} {id : String} {status : NotificationStatus} :
    s.HasStatus id status ↔ s.status? id = some status := by
  unfold Store.HasStatus Store.status?
  rw [Option.map_eq_some_iff]

/-- The move is a call that `HandlesAlone` accepts when no tick is handling anything and no
    save fails. -/
def handlesAloneCheck (m : Move NotifyPool (Act Request Choice)) : Bool :=
  match m.label with
  | .spawn _ => true
  | .advance i c =>
    match m.before.threads[i]? with
    | none => true
    | some th =>
      match th.prog with
      | .await (.deliver e) _ =>
        (m.before.store.notifications.get? e.id).any (fun n => !n.status.isFinal) &&
          m.before.threads.all fun u => (unsaved u.log).isNone
      | .await (.saveNotification _) _ => c.failure.isNone
      | _ => true

/-- The check of a move can be computed. -/
theorem handlesAlone_of_check {m : Move NotifyPool (Act Request Choice)}
    (h : handlesAloneCheck m = true) : HandlesAlone m := by
  rintro th op c ⟨i, k, hlabel, hth, hprog⟩
  constructor
  · rintro e rfl
    simp only [handlesAloneCheck, hlabel, hth, hprog, Bool.and_eq_true, Option.any_eq_true,
      Bool.not_eq_true', List.all_eq_true, Option.isNone_iff_eq_none] at h
    obtain ⟨hwaiting, hnone⟩ := h
    refine ⟨hwaiting, fun u hu hhandles => ?_⟩
    obtain ⟨e', r, hun, -⟩ := hhandles
    rw [hnone u hu] at hun
    exact nomatch hun
  · rintro n rfl _
    simp only [handlesAloneCheck, hlabel, hth, hprog, Option.isNone_iff_eq_none] at h
    exact .inl h

/-- The calls of a tick up to and including the first delivery, with its result. -/
def sampleDelivery (i : Nat) (ok : Bool) : List (Act Request Choice) :=
  [.spawn .notificationTick, .advance i {}, .advance i {},
    .advance i { delivery := ⟨ok, none⟩ }, .advance i {}]

/-- The calls after a successful delivery: the save, the audit entry and the event. -/
def sampleSent (i : Nat) (tag : String) : List (Act Request Choice) :=
  [.advance i {}, .advance i { id := "aud_" ++ tag }, .advance i {}, .advance i {},
    .advance i { id := "evt_" ++ tag }, .advance i { id := "trc_" ++ tag }, .advance i {},
    .advance i {}]

/-- The notification was delivered `n` times with success. -/
def sampleDelivered (n : Nat) (P : NotifyPool) : Bool :=
  decide (P.calls.countP (isDelivery "ntf_1") = n)

/-- The notification has the status. -/
def sampleStatus (status : NotificationStatus) (P : NotifyPool) : Bool :=
  decide (P.store.status? "ntf_1" = some status)

/-- Two ticks one after the other: the first one delivers, the second one finds no row. -/
theorem delivered_at_most_once_sequential :
    ∃ ms P, Run (notifyStep sampleConfig) ⟨sampleQueued, []⟩ ms P ∧ (∀ m ∈ ms, HandlesAlone m) ∧
      P.threads.length = 2 ∧ P.calls.countP (isDelivery "ntf_1") = 1 ∧
      P.store.HasStatus "ntf_1" .sent ∧ (∀ id, P.calls.countP (isDelivery id) ≤ 1) := by
  obtain ⟨ms, P, run, hp⟩ := exists_run_of_replay
    (sampleDelivery 0 true ++ sampleSent 0 "1" ++
      [.spawn .notificationTick, .advance 1 {}, .advance 1 {}])
    (fun r => (r.1.all handlesAloneCheck) && (decide (r.2.threads.length = 2) &&
      (sampleDelivered 1 r.2 && sampleStatus .sent r.2)))
    (by decide +kernel : (replay (notifyStep sampleConfig) ⟨sampleQueued, []⟩ _ []).any _ = true)
  simp only [Bool.and_eq_true, List.all_eq_true, decide_eq_true_eq, sampleDelivered,
    sampleStatus] at hp
  obtain ⟨hcheck, hthreads, hcount, hstatus⟩ := hp
  have halone : ∀ m ∈ ms, HandlesAlone m := fun m hm => handlesAlone_of_check (hcheck m hm)
  exact ⟨ms, P, run, halone, hthreads, hcount, hasStatus_iff.mpr hstatus,
    (delivered_at_most_once run halone).1⟩

/-- Two runs of two overlapping ticks in which no call fails. Both deliver the notification
    with success. In the other run the first delivery fails, the second one succeeds and is
    saved, and then the save of the first tick takes the status `sent` back. -/
theorem delivered_twice :
    (∃ ms P, Run (notifyStep sampleConfig) ⟨sampleQueued, []⟩ ms P ∧
      P.calls.countP (isDelivery "ntf_1") = 2) ∧
    ∃ ms P, Run (notifyStep sampleConfig) ⟨sampleQueued, []⟩ ms P ∧
      (∃ m ∈ ms, m.before.store.HasStatus "ntf_1" .sent) ∧
      P.store.HasStatus "ntf_1" .retryScheduled := by
  -- two workers deliver one row, and the slower one then overwrites `sent`
  constructor
  · obtain ⟨ms, P, run, hp⟩ := exists_run_of_replay
      (sampleDelivery 0 true ++ sampleDelivery 1 true ++ sampleSent 0 "1" ++ sampleSent 1 "2")
      (fun r => sampleDelivered 2 r.2)
      (by decide +kernel :
        (replay (notifyStep sampleConfig) ⟨sampleQueued, []⟩ _ []).any _ = true)
    exact ⟨ms, P, run, of_decide_eq_true hp⟩
  · obtain ⟨ms, P, run, hp⟩ := exists_run_of_replay
      (sampleDelivery 0 false ++ sampleDelivery 1 true ++ sampleSent 1 "1" ++
        [.advance 0 {}, .advance 0 {}])
      (fun r => (r.1.any fun m => sampleStatus .sent m.before) && sampleStatus .retryScheduled r.2)
      (by decide +kernel :
        (replay (notifyStep sampleConfig) ⟨sampleQueued, []⟩ _ []).any _ = true)
    simp only [Bool.and_eq_true, List.any_eq_true, decide_eq_true_eq, sampleStatus] at hp
    obtain ⟨⟨m, hm, hsent⟩, hretry⟩ := hp
    exact ⟨ms, P, run, ⟨m, hm, hasStatus_iff.mpr hsent⟩, hasStatus_iff.mpr hretry⟩

end Bluesafe.Notify
