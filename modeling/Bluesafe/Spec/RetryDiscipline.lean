import Bluesafe.ForStd.Page
import Bluesafe.Spec.Delivery
import Bluesafe.Async.Recorded

/-!
# The retries of a notification

Requests and ticks are handled one after the other, so ticks do not overlap, and no call is
rejected; the provider answers each delivery as it likes. The counter of a stored notification
is then the number of its failed deliveries, and the three exits of `processOne` keep the
number of deliveries within `maxAttempts` (`notification_retry_discipline`).

What is counted is in the trace of the run: every call with the choice of the environment, so
a delivery with its result (`Counted` relates a row to the trace).

## Key results

- `processOne_sound`: one delivery and the save after it
- `handle_sound`: what a request does to the rows and the trace
-/

namespace Bluesafe.Notify

open Async Transition
open Bluesafe.Ops (Time JsonObject BluesafeAuth Reply)

/-! ## Deliveries in a trace -/

/-- The calls of a run with their choices, newest first. -/
abbrev Trace : Type := List (Call × Choice)

/-- The call delivers the notification `id`. -/
def delivers (id : String) : Call × Choice → Bool
  | (.deliver e, _) => decide (e.id = id)
  | _ => false

/-- The call delivers the notification `id`, and the provider answers with an error. -/
def failsDelivery (id : String) : Call × Choice → Bool
  | (.deliver e, c) => decide (e.id = id) && !c.delivery.ok
  | _ => false

/-- How often the notification was handed to the provider. -/
def deliveries (tr : Trace) (id : String) : Nat := tr.countP (delivers id)

/-- How often that failed. -/
def failures (tr : Trace) (id : String) : Nat := tr.countP (failsDelivery id)

/-- A failed attempt of the notification and the save that schedules the next one: the provider
    is asked, the clock is read twice (at `t` and at `now`), the row is saved. -/
def NotificationEvent.FailedAt (n : NotificationEvent) (tr : Trace) (t now : Time) : Prop :=
  ∃ e c ct cn cs, [(Call.saveNotification n, cs), (.clock, cn), (.clock, ct), (.deliver e, c)] <:+: tr ∧
    e.id = n.id ∧ c.delivery.ok = false ∧ ct.now = t ∧ cn.now = now

section Counting

variable {tr new : Trace} {x : Call × Choice} {id : String}

/-- A failed delivery is a delivery. -/
theorem failures_le : failures tr id ≤ deliveries tr id := by
  refine List.countP_mono_left fun x _ h => ?_
  obtain ⟨op, c⟩ := x
  cases op with
  | deliver e =>
    simp only [failsDelivery, Bool.and_eq_true] at h
    exact h.1
  | _ => cases h

/-- Calls that are no deliveries of the notification count for nothing. -/
theorem deliveries_append (h : deliveries new id = 0) : deliveries (new ++ tr) id = deliveries tr id := by
  have happ : deliveries (new ++ tr) id = deliveries new id + deliveries tr id := List.countP_append
  omega

/-- Calls that deliver nothing to a notification do not count. -/
theorem failures_append (h : deliveries new id = 0) : failures (new ++ tr) id = failures tr id := by
  have happ : failures (new ++ tr) id = failures new id + failures tr id := List.countP_append
  have hle : failures new id ≤ deliveries new id := failures_le
  omega

/-- Nor does a call for another notification. -/
theorem deliveries_cons_of_ne (h : delivers id x = false) :
    deliveries (x :: tr) id = deliveries tr id := by
  simp [deliveries, h]

/-- A delivery of the notification. -/
theorem deliveries_cons_deliver {e : NotificationEvent} {c : Choice} (h : e.id = id) :
    deliveries ((.deliver e, c) :: tr) id = deliveries tr id + 1 := by
  simp [deliveries, delivers, h]

/-- A delivery counts if it fails. -/
theorem failures_cons_deliver {e : NotificationEvent} {c : Choice} (h : e.id = id) :
    failures ((.deliver e, c) :: tr) id = failures tr id + if c.delivery.ok then 0 else 1 := by
  cases hok : c.delivery.ok <;> simp [failures, failsDelivery, h, hok]

/-- A failure of the past stays one. -/
theorem NotificationEvent.FailedAt.append {n : NotificationEvent} {t now : Time}
    (h : n.FailedAt tr t now) (new : Trace) : n.FailedAt (new ++ tr) t now := by
  obtain ⟨e, c, ct, cn, cs, hin, hrest⟩ := h
  exact ⟨e, c, ct, cn, cs, hin.trans (List.suffix_append new tr).isInfix, hrest⟩

end Counting

/-! ## Rows and their traces -/

/-- A row that fits the calls of the run: its counter is the number of its failed deliveries, a
    row that is tried again is scheduled after its last failed attempt, and only the last status
    is reached with all attempts used. -/
structure NotificationEvent.Counted (config : Config) (tr : Trace) (n : NotificationEvent) : Prop where
  attempts : n.attemptCount.getD 0 = failures tr n.id
  deadLetter : n.deadLetter = true ↔ n.status = .failed
  scheduled : n.nextAttemptAt.isSome = true ↔ n.status = .retryScheduled
  later : ∀ next, n.nextAttemptAt = some next → ∃ t now, n.FailedAt tr t now ∧ now < next
  delivered : deliveries tr n.id = failures tr n.id + if n.status = .sent then 1 else 0
  within : if n.status = .failed then failures tr n.id = max 1 config.maxAttempts
    else failures tr n.id < max 1 config.maxAttempts

/-- Every row fits the trace, and what is not stored was not delivered. -/
structure Disciplined (config : Config) (tr : Trace) (s : Store) : Prop where
  row : ∀ id n, s.notifications.get? id = some n → n.Counted config tr
  unknown : ∀ id, s.notifications.get? id = none → deliveries tr id = 0

/-- A notification that was not tried yet. -/
structure NotificationEvent.Untried (n : NotificationEvent) : Prop where
  status : n.status = .queued
  attempts : n.attemptCount.getD 0 = 0
  deadLetter : n.deadLetter = false
  unscheduled : n.nextAttemptAt = none

variable {config : Config}

/-- Calls that are no deliveries change nothing. -/
theorem NotificationEvent.Counted.append {tr new : Trace} {n : NotificationEvent}
    (h : n.Counted config tr) (hnew : deliveries new n.id = 0) : n.Counted config (new ++ tr) := by
  have hfail : failures (new ++ tr) n.id = failures tr n.id := failures_append hnew
  have hdel : deliveries (new ++ tr) n.id = deliveries tr n.id := deliveries_append hnew
  constructor
  case attempts => rw [hfail]; exact h.attempts
  case deadLetter => exact h.deadLetter
  case scheduled => exact h.scheduled
  case later =>
    intro next hnext
    obtain ⟨t, now, hat, hlt⟩ := h.later next hnext
    exact ⟨t, now, hat.append new, hlt⟩
  case delivered => rw [hfail, hdel]; exact h.delivered
  case within => rw [hfail]; exact h.within

/-- A new notification is counted: it has no deliveries and no attempts. -/
theorem NotificationEvent.Untried.counted {n : NotificationEvent} (h : n.Untried) {tr : Trace}
    (hnone : deliveries tr n.id = 0) : n.Counted config tr := by
  have hfail : failures tr n.id = 0 := Nat.le_zero.mp (hnone ▸ failures_le)
  constructor
  case attempts => rw [hfail]; exact h.attempts
  case deadLetter => simp [h.deadLetter, h.status]
  case scheduled => simp [h.unscheduled, h.status]
  case later => simp [h.unscheduled]
  case delivered => simp [hnone, hfail, h.status]
  case within =>
    rw [hfail, h.status, if_neg (by decide)]
    omega

/-! ## What a program does -/

/-- The state of the recorded system. -/
abbrev Recorded : Type := Store × Trace

/-- The rows fit the calls of this request and the older ones. -/
def Sound (config : Config) (older : Trace) (g : Recorded) : Prop :=
  Disciplined config (g.2 ++ older) g.1

/-- Sent and failed notifications are not delivered, and their rows stay. -/
def Spares (g g' : Recorded) : Prop :=
  ∀ id n, g.1.notifications.get? id = some n → n.status.isFinal = true →
    g'.1.notifications.get? id = some n ∧ deliveries g'.2 id = deliveries g.2 id

/-- The rows stay, and nothing is delivered. -/
structure Idle (g g' : Recorded) : Prop where
  notifications : g'.1.notifications = g.1.notifications
  trace : ∃ new, g'.2 = new ++ g.2 ∧ ∀ id, deliveries new id = 0

theorem Spares.refl (g : Recorded) : Spares g g := fun _ _ h _ => ⟨h, rfl⟩

/-- Notifications that are spared twice are spared. -/
theorem Spares.trans {g g' g'' : Recorded} (h : Spares g g') (h' : Spares g' g'') : Spares g g'' := by
  intro id n hn hfinal
  obtain ⟨hkept, hcount⟩ := h id n hn hfinal
  obtain ⟨hkept', hcount'⟩ := h' id n hkept hfinal
  exact ⟨hkept', hcount'.trans hcount⟩

theorem Idle.refl (g : Recorded) : Idle g g := ⟨rfl, [], rfl, fun _ => rfl⟩

/-- Two idle parts, one after the other. -/
theorem Idle.trans {g g' g'' : Recorded} (h : Idle g g') (h' : Idle g' g'') : Idle g g'' := by
  obtain ⟨new, hnew, hzero⟩ := h.trace
  obtain ⟨new', hnew', hzero'⟩ := h'.trace
  refine ⟨h'.notifications.trans h.notifications, new' ++ new, ?_, fun id => ?_⟩
  · rw [hnew', hnew, List.append_assoc]
  · rw [deliveries_append (hzero' id)]
    exact hzero id

/-- What writes no notification spares them all. -/
theorem Idle.spares {g g' : Recorded} (h : Idle g g') : Spares g g' := by
  obtain ⟨new, hnew, hzero⟩ := h.trace
  intro id n hn _
  rw [h.notifications, hnew]
  exact ⟨hn, deliveries_append (hzero id)⟩

/-- The counts stay sound as well. -/
theorem Idle.sound {older : Trace} {g g' : Recorded} (h : Idle g g') (hg : Sound config older g) :
    Sound config older g' := by
  obtain ⟨new, hnew, hzero⟩ := h.trace
  unfold Sound at hg ⊢
  rw [hnew, List.append_assoc]
  refine ⟨fun id n hn => ?_, fun id hid => ?_⟩
  · rw [h.notifications] at hn
    exact (hg.row id n hn).append (hzero n.id)
  · rw [h.notifications] at hid
    rw [deliveries_append (hzero id)]
    exact hg.unknown id hid

/-- A call that is answered, with its choice. -/
theorem returns_recorded {op : Call} {s : Store} {tr : Trace} {Q : op.Res → Recorded → Prop}
    (h : ∀ c, reliable.allow op c s = true →
      Q (perform op c s).1 ((perform op c s).2, (op, c) :: tr)) :
    Returns reliable.recorded (invoke op) Q (s, tr) := by
  refine Returns.call fun c hc => ?_
  -- on a reliable run the call has no failure, so it is carried out
  have hfail : c.failure = none := by
    have hallow : reliable.allow op c s = true := hc
    simp only [reliable, Bool.and_eq_true, Option.isNone_iff_eq_none] at hallow
    exact hallow.1
  have hserve : serve op c s = (.ok (perform op c s).1, (perform op c s).2) := by
    unfold serve
    rw [hfail]
  refine ⟨(perform op c s).1, ?_, ?_⟩
  · show (serve op c s).1 = _
    rw [hserve]
  · show Q _ ((serve op c s).2, (op, c) :: tr)
    rw [hserve]
    exact h c hc

/-- Calls that neither save a notification nor deliver one. -/
def Call.isIdle : Call → Bool
  | .saveNotification _ => false
  | .deliver _ => false
  | _ => true

/-- A call that is idle neither delivers nor changes a notification. -/
theorem idle_perform {op : Call} (hop : op.isIdle = true) (c : Choice) (s : Store) (tr : Trace) :
    Idle (s, tr) ((perform op c s).2, (op, c) :: tr) := by
  refine ⟨?_, [(op, c)], rfl, fun id => ?_⟩
  · cases op with
    | saveNotification n => cases hop
    | appendNotificationOutbox row =>
      simp only [perform]
      split <;> rfl
    | _ => rfl
  · cases op with
    | deliver e => cases hop
    | _ => rfl

/-- An idle call; its answer is not looked at. -/
theorem returns_idle {op : Call} (hop : op.isIdle = true) (g : Recorded) :
    Returns reliable.recorded (invoke op) (fun _ g' => Idle g g') g :=
  returns_recorded fun c _ => idle_perform hop c g.1 g.2

/-- A generated identifier is not in use. -/
theorem returns_randomId_recorded (tag : String) (g : Recorded) :
    Returns reliable.recorded (randomId tag)
      (fun id g' => Idle g g' ∧ g'.1.notifications.get? id = none) g := by
  refine returns_recorded fun c hc => ⟨idle_perform rfl c g.1 g.2, ?_⟩
  simp only [reliable, world, Bool.and_eq_true] at hc
  exact (isFresh_iff.mp hc.2.2.2).2.1

/-- An audit entry is no delivery. -/
theorem writeAudit_idle (entityType entityId action actorId : String)
    (after metadata : Option JsonObject) (g : Recorded) :
    Returns reliable.recorded (writeAudit entityType entityId action actorId after metadata)
      (fun _ g' => Idle g g') g := by
  refine Returns.bind (returns_idle rfl g) fun _ g₁ h₁ => ?_
  refine Returns.bind (returns_idle rfl g₁) fun _ g₂ h₂ => ?_
  exact (returns_idle rfl g₂).mono fun _ _ h₃ => (h₁.trans h₂).trans h₃

/-- Nor is an event. -/
theorem emitEvent_idle (eventType entityType entityId : String) (payload : JsonObject)
    (g : Recorded) :
    Returns reliable.recorded (emitEvent eventType entityType entityId payload)
      (fun _ g' => Idle g g') g := by
  refine Returns.bind (returns_idle rfl g) fun _ g₁ h₁ => ?_
  refine Returns.bind (returns_idle rfl g₁) fun _ g₂ h₂ => ?_
  refine Returns.bind (returns_idle rfl g₂) fun _ g₃ h₃ => ?_
  exact (returns_idle rfl g₃).mono fun _ _ h₄ => ((h₁.trans h₂).trans h₃).trans h₄

/-! ## Requests that enqueue notifications -/

/-- What a part of a request leaves: rows that fit, and the final ones untouched. -/
structure Kept (config : Config) (older : Trace) (g g' : Recorded) : Prop where
  sound : Sound config older g'
  spares : Spares g g'

/-- An idle part keeps the discipline. -/
theorem Kept.of_idle {older : Trace} {g g' : Recorded} (h : Idle g g') (hg : Sound config older g) :
    Kept config older g g' := ⟨h.sound hg, h.spares⟩

/-- The program returns, and keeps the rows fitting the calls. -/
def Tame {α : Type} (config : Config) (p : NotifyM α) : Prop :=
  ∀ older g, Sound config older g →
    Returns reliable.recorded p (fun _ g' => Kept config older g g') g

/-- The same for a program that has an unused identifier. -/
def TameNew {α : Type} (config : Config) (id : String) (p : NotifyM α) : Prop :=
  ∀ older g, Sound config older g → g.1.notifications.get? id = none →
    Returns reliable.recorded p (fun _ g' => Kept config older g g') g

namespace Tame

variable {α β : Type}

theorem pure (a : α) : Tame config (Pure.pure a) :=
  fun _ g hg => Returns.pure ⟨hg, .refl g⟩

/-- So is a call that touches no notification. -/
theorem idle {op : Call} (hop : op.isIdle = true) : Tame config (invoke op) :=
  fun _ g hg => (returns_idle hop g).mono fun _ _ h => .of_idle h hg

/-- Two tame programs are tame. -/
theorem bind {p : NotifyM β} {f : β → NotifyM α} (hp : Tame config p) (hf : ∀ b, Tame config (f b)) :
    Tame config (p >>= f) := by
  intro older g hg
  refine Returns.bind (hp older g hg) fun b g₁ h₁ => ?_
  exact (hf b older g₁ h₁.sound).mono fun _ g₂ h₂ => ⟨h₂.sound, h₁.spares.trans h₂.spares⟩

theorem map {p : NotifyM β} {f : β → α} (hp : Tame config p) : Tame config (f <$> p) :=
  fun older g hg => Returns.map (hp older g hg)

theorem tryCatch {p : NotifyM α} {h : String → NotifyM α} (hp : Tame config p) :
    Tame config (MonadExcept.tryCatch p h) :=
  fun older g hg => Returns.tryCatch (hp older g hg)

/-- And so is a loop of them. -/
theorem forM {xs : List β} {f : β → NotifyM PUnit} (hf : ∀ x, Tame config (f x)) :
    Tame config (ForM.forM xs f) := by
  induction xs with
  | nil => exact pure _
  | cons x xs ih =>
    rw [List.forM_cons]
    exact bind (hf x) fun _ => ih

/-- A new identifier and what is done with it. -/
theorem randomId_bind {tag : String} {f : String → NotifyM α} (hf : ∀ id, TameNew config id (f id)) :
    Tame config (randomId tag >>= f) := by
  intro older g hg
  refine Returns.bind (returns_randomId_recorded tag g) fun id g₁ h₁ => ?_
  obtain ⟨hidle, hnone⟩ := h₁
  refine (hf id older g₁ (hidle.sound hg) hnone).mono fun _ g₂ h₂ => ?_
  exact ⟨h₂.sound, hidle.spares.trans h₂.spares⟩

/-- The identifier is not used. -/
theorem toNew {id : String} {p : NotifyM α} (hp : Tame config p) : TameNew config id p :=
  fun older g hg _ => hp older g hg

end Tame

namespace TameNew

variable {α : Type} {id : String}

/-- The notification is stored, and the rest follows. -/
theorem save_bind {n : NotificationEvent} {f : Unit → NotifyM α} (hn : n.Untried) (hid : n.id = id)
    (hf : ∀ u, Tame config (f u)) : TameNew config id (saveNotification n >>= f) := by
  rintro older ⟨s, tr⟩ hg hnone
  subst hid
  have hsave : Returns reliable.recorded (saveNotification n)
      (fun _ g' => Kept config older (s, tr) g') (s, tr) := by
    refine returns_recorded fun c _ => ⟨⟨fun id k hk => ?_, fun id hid => ?_⟩, fun id k hk _ => ?_⟩
    · have hget : (s.notifications.set n).get? id = some k := hk
      rw [Table.get?_set] at hget
      by_cases heq : id = n.id
      · -- the new row: it was never delivered
        rw [if_pos heq, Option.some.injEq] at hget
        subst hget
        exact hn.counted (hg.unknown n.id hnone)
      -- another row keeps its count, as a save delivers nothing
      · rw [if_neg heq] at hget
        have hzero : deliveries [(.saveNotification n, c)] k.id = 0 := rfl
        exact (hg.row id k hget).append hzero
    · have hget : (s.notifications.set n).get? id = none := hid
      rw [Table.get?_set] at hget
      by_cases heq : id = n.id
      · rw [if_pos heq] at hget
        cases hget
      · rw [if_neg heq] at hget
        exact hg.unknown id hget
    · -- a final row is not the new one
      have hne : id ≠ n.id := by
        rintro rfl
        rw [hnone] at hk
        cases hk
      refine ⟨?_, rfl⟩
      show (s.notifications.set n).get? id = some k
      rw [Table.get?_set, if_neg hne]
      exact hk
  -- what follows runs on the new row, and is tame by assumption
  refine Returns.bind hsave fun u g₁ h₁ => ?_
  exact (hf u older g₁ h₁.sound).mono fun _ g₂ h₂ => ⟨h₂.sound, h₁.spares.trans h₂.spares⟩

/-- The clock is read before the identifier is used. -/
theorem clock_bind {f : Time → NotifyM α} (hf : ∀ t, TameNew config id (f t)) :
    TameNew config id (nowIso >>= f) := by
  intro older g hg hnone
  have hclock : Returns reliable.recorded nowIso (fun _ g' => Idle g g') g := returns_idle rfl g
  refine Returns.bind hclock fun t g₁ hidle => ?_
  have hnone₁ : g₁.1.notifications.get? id = none := by
    rw [hidle.notifications]
    exact hnone
  refine (hf t older g₁ (hidle.sound hg) hnone₁).mono fun _ g₂ h₂ => ?_
  exact ⟨h₂.sound, hidle.spares.trans h₂.spares⟩

end TameNew

/-- A notification that is queued has not been tried. -/
theorem queuedNotification_untried (id eventType recipientId : String) (channel : NotificationChannel)
    (payload : JsonObject) (now : Time) :
    (queuedNotification id eventType recipientId channel payload now).Untried :=
  ⟨rfl, rfl, rfl, rfl⟩

/-- An audit entry keeps the discipline. -/
theorem writeAudit_tame (entityType entityId action actorId : String)
    (after metadata : Option JsonObject) :
    Tame config (writeAudit entityType entityId action actorId after metadata) :=
  fun _ g hg => (writeAudit_idle _ _ _ _ _ _ g).mono fun _ _ h => .of_idle h hg

/-- So does an event. -/
theorem emitEvent_tame (eventType entityType entityId : String) (payload : JsonObject) :
    Tame config (emitEvent eventType entityType entityId payload) :=
  fun _ g hg => (emitEvent_idle _ _ _ _ g).mono fun _ _ h => .of_idle h hg

/-- A notification that is sent is stored under its own new identifier. -/
theorem sendOne_tame (body : SendBody) (now : Time) (action actor : String) (extra : JsonObject)
    (channel : NotificationChannel) (id : String) :
    TameNew config id (sendOne body now action actor extra channel id) :=
  .save_bind (queuedNotification_untried _ _ _ _ _ _) rfl fun _ =>
    .bind (writeAudit_tame _ _ _ _ _ _) fun _ => emitEvent_tame _ _ _ _

/-- So is one that comes from the outbox. -/
theorem fanOut_tame (row : NotificationOutboxRecord) (id : String) (t : Time) :
    TameNew config id (fanOut row id t) :=
  .save_bind ⟨rfl, rfl, rfl, rfl⟩ rfl fun _ => .bind (emitEvent_tame _ _ _ _) fun _ => .idle rfl

/-- A row of the outbox is stored as a new notification. -/
theorem dispatchOneOutboxRow_tame (m : Nat) (t : Time) (row : NotificationOutboxRecord) :
    Tame config (dispatchOneOutboxRow m t row) :=
  .randomId_bind fun id older g hg hnone => Returns.tryCatch (fanOut_tame row id t older g hg hnone)

/-- A tick of the fan-out worker stores new notifications only. -/
theorem fanoutTick_tame (config' : Config) : Tame config (fanoutTick config') := by
  refine .tryCatch (.bind (.idle rfl) fun _ => .bind (.idle rfl) fun _ => ?_)
  refine .bind (.idle rfl) fun _ => .bind (.idle rfl) fun rows => ?_
  exact .forM fun row => dispatchOneOutboxRow_tame _ _ row

/-- An item that goes to the outbox is no notification yet. -/
theorem enqueueToOutbox_tame (config' : Config) (now : Time) (it : FanoutNotificationItem) :
    Tame config (enqueueToOutbox config' now it) := by
  refine .randomId_bind fun id => Tame.toNew (.bind (.idle rfl) fun inserted => ?_)
  split
  · exact emitEvent_tame _ _ _ _
  · exact .pure _

/-- An item that goes the direct way is a new notification. -/
theorem enqueueDirectly_tame (now : Time) (it : FanoutNotificationItem) :
    Tame config (enqueueDirectly now it) :=
  .randomId_bind fun _ =>
    .save_bind (queuedNotification_untried _ _ _ _ _ _) rfl fun _ => emitEvent_tame _ _ _ _

/-- An occurrence stores new notifications only. -/
theorem enqueueOccurrence_tame (config' : Config) (o : Occurrence) :
    Tame config (enqueueOccurrence config' o) := by
  rcases enqueueOccurrence_cases config' o with heq | heq <;> rw [heq]
  · refine .bind (.idle rfl) fun now => ?_
    split
    · exact .forM fun it => enqueueToOutbox_tame _ _ it
    · exact .forM fun it => enqueueDirectly_tame _ it
  · exact .pure _

/-- A request stores one new notification. -/
theorem sendNotification_tame (body : SendBody) (channel : NotificationChannel) :
    Tame config (sendNotification body channel) := by
  refine .randomId_bind fun id => .clock_bind fun now => ?_
  intro older g hg hnone
  refine Returns.bind (sendOne_tame _ _ _ _ _ _ _ older g hg hnone) fun _ g₁ h₁ => ?_
  exact Returns.pure h₁

/-- One for each channel. -/
theorem dispatchAll_tame (auth : Option BluesafeAuth) (body : SendBody) (now : Time)
    (channels : List NotificationChannel) : Tame config (dispatchAll auth body now channels) := by
  induction channels with
  | nil => exact .pure _
  | cons channel rest ih =>
    refine .randomId_bind fun id older g hg hnone => ?_
    refine Returns.bind (sendOne_tame _ _ _ _ _ _ _ older g hg hnone) fun _ g₁ h₁ => ?_
    have hrest : Tame config (dispatchAll auth body now rest >>= fun ids => Pure.pure (id :: ids)) :=
      .bind ih fun ids => .pure _
    exact (hrest older g₁ h₁.sound).mono fun _ g₂ h₂ => ⟨h₂.sound, h₁.spares.trans h₂.spares⟩

/-- The same with the default channels. -/
theorem dispatchNotifications_tame (auth : Option BluesafeAuth) (body : SendBody)
    (channels : Option (List NotificationChannel)) :
    Tame config (dispatchNotifications auth body channels) :=
  .bind (.idle rfl) fun _ => .bind (dispatchAll_tame _ _ _ _) fun _ => .pure _

/-- A row of the outbox that is put back is no notification. -/
theorem retryOutbox_tame (auth : Option BluesafeAuth) (outboxId : String) :
    Tame config (retryOutbox auth outboxId) := by
  refine .bind (.idle rfl) fun row => ?_
  split
  · exact .pure _
  · split
    · exact .pure _
    · refine .bind (.idle rfl) fun t => .bind (.idle rfl) fun _ => ?_
      exact .bind (writeAudit_tame _ _ _ _ _ _) fun _ => .pure _

/-! ## The delivery worker -/

/-- The worker may take the notification up. -/
theorem status_of_isDue {now : Time} {n : NotificationEvent} (h : n.isDue now = true) :
    n.deadLetter = false ∧ (n.status = .queued ∨ n.status = .retryScheduled) := by
  unfold NotificationEvent.isDue at h
  rw [Bool.and_eq_true, Bool.not_eq_true'] at h
  obtain ⟨hdead, hstatus⟩ := h
  cases hs : n.status with
  | queued => exact ⟨hdead, .inl rfl⟩
  | retryScheduled => exact ⟨hdead, .inr rfl⟩
  | sent =>
    rw [hs] at hstatus
    cases hstatus
  | failed =>
    rw [hs] at hstatus
    cases hstatus

/-- What one delivery leaves: the rows fit, the final ones and all but one other are untouched. -/
structure Handled (config : Config) (older : Trace) (id : String) (g g' : Recorded) : Prop where
  kept : Kept config older g g'
  others : ∀ k, k ≠ id → g'.1.notifications.get? k = g.1.notifications.get? k

/-- What follows the handling of a notification may be idle. -/
theorem Handled.idle {older : Trace} {id : String} {g g' g'' : Recorded}
    (h : Handled config older id g g') (hidle : Idle g' g'') : Handled config older id g g'' where
  kept := ⟨hidle.sound h.kept.sound, h.kept.spares.trans hidle.spares⟩
  others k hk := by rw [hidle.notifications, h.others k hk]

/-- The delivery of a row that waits, and the save of a row that fits it. -/
theorem handled_of_counted {older : Trace} {s s' : Store} {tr : Trace} {n : NotificationEvent}
    {c : Choice} (new : Trace) (n' : NotificationEvent) (hg : Sound config older (s, tr)) (hn : s.notifications.get? n.id = some n)
    (hwait : n.status.isFinal = false) (hid : n'.id = n.id)
    (hs' : s'.notifications = s.notifications.set n') (hnew : ∀ id, deliveries new id = 0)
    (hcounted : n'.Counted config (new ++ (.deliver n.rendered, c) :: tr ++ older)) :
    Handled config older n.id (s, tr) (s', new ++ (.deliver n.rendered, c) :: tr) := by
  have hget : ∀ id, s'.notifications.get? id =
      if id = n.id then some n' else s.notifications.get? id := by
    intro id
    rw [hs', Table.get?_set, hid]
  -- a delivery of this notification is not one of another
  have hother : ∀ id, id ≠ n.id → delivers id (.deliver n.rendered, c) = false := fun id hne =>
    decide_eq_false fun heq : n.rendered.id = id => hne heq.symm
  have hcount : ∀ id, id ≠ n.id → ∀ tr', deliveries (new ++ (.deliver n.rendered, c) :: tr') id =
      deliveries tr' id := by
    intro id hne tr'
    rw [deliveries_append (hnew id), deliveries_cons_of_ne (hother id hne)]
  refine ⟨⟨⟨fun id k hk => ?_, fun id hnone => ?_⟩, fun id k hk hfinal => ?_⟩, fun id hne => ?_⟩
  · dsimp only at hk ⊢
    rw [hget] at hk
    by_cases heq : id = n.id
    · rw [if_pos heq, Option.some.injEq] at hk
      subst hk
      exact hcounted
    · rw [if_neg heq] at hk
      have hkey : k.id = id := Table.key_of_get? hk
      have hzero : deliveries (new ++ [(.deliver n.rendered, c)]) k.id = 0 := by
        rw [hcount k.id (hkey ▸ heq)]
        rfl
      have happ := (hg.row id k hk).append hzero
      rw [List.append_assoc] at happ ⊢
      exact happ
  · dsimp only at hnone ⊢
    rw [hget] at hnone
    by_cases heq : id = n.id
    · rw [if_pos heq] at hnone
      cases hnone
    · rw [if_neg heq] at hnone
      rw [List.append_assoc, List.cons_append, hcount id heq]
      exact hg.unknown id hnone
  · -- the row of the delivery waits, so it is not a final one
    have hne : id ≠ n.id := by
      rintro rfl
      rw [hn, Option.some.injEq] at hk
      rw [← hk, hwait] at hfinal
      cases hfinal
    rw [hget, if_neg hne]
    exact ⟨hk, hcount id hne tr⟩
  · rw [hget, if_neg hne]

/-- There is always some time between two attempts. -/
theorem backoffMs_pos (attempts : Nat) {initialMs maxMs : Nat} (h : 0 < initialMs ∧ 0 < maxMs) :
    0 < backoffMs attempts initialMs maxMs := by
  unfold backoffMs
  have hpow : 0 < Nat.pow 2 attempts := Nat.pow_pos (by decide)
  have hprod : 0 < initialMs * Nat.pow 2 attempts := Nat.mul_pos h.1 hpow
  omega

/-! ## One attempt

A notification that is tried waits: all its deliveries failed, and it has attempts left. The
delivery makes one attempt more, and in each of its three cases the row that is saved fits. -/

/-- A notification that waits and fits the calls `tr`. -/
structure Waits (config : Config) (tr : Trace) (n : NotificationEvent) : Prop where
  attempts : n.attemptCount.getD 0 = failures tr n.id
  alive : n.deadLetter = false
  unfinished : n.status.isFinal = false
  delivered : deliveries tr n.id = failures tr n.id
  within : failures tr n.id < max 1 config.maxAttempts

section Attempt

variable {tr new : Trace} {n : NotificationEvent} {c ct cn cs : Choice} {now₀ t next : Time}

/-- A notification that is due waits for a delivery. -/
theorem waits_of_isDue (h : n.Counted config tr) (hdue : n.isDue now₀ = true) : Waits config tr n := by
  obtain ⟨hdead, hstatus⟩ := status_of_isDue hdue
  have hsent : n.status ≠ .sent := by
    rcases hstatus with hs | hs <;> rw [hs] <;> decide
  have hfailed : n.status ≠ .failed := by
    rcases hstatus with hs | hs <;> rw [hs] <;> decide
  refine ⟨h.attempts, hdead, ?_, ?_, ?_⟩
  · rcases hstatus with hs | hs <;> rw [hs] <;> rfl
  · have hcount := h.delivered
    rwa [if_neg hsent] at hcount
  · have hbound := h.within
    rwa [if_neg hfailed] at hbound

/-- What the attempt adds to the two counts. -/
theorem counts_of_attempt (tr : Trace) (c : Choice) (hnew : deliveries new n.id = 0) :
    deliveries (new ++ (.deliver n.rendered, c) :: tr) n.id = deliveries tr n.id + 1 ∧
      failures (new ++ (.deliver n.rendered, c) :: tr) n.id =
        failures tr n.id + if c.delivery.ok then 0 else 1 := by
  rw [deliveries_append hnew, failures_append hnew]
  exact ⟨deliveries_cons_deliver rfl, failures_cons_deliver rfl⟩

/-- A delivery that succeeds is counted. -/
theorem Waits.counted_delivered (h : Waits config tr n) (hok : c.delivery.ok = true)
    (hnew : deliveries new n.id = 0) :
    (n.delivered t).Counted config (new ++ (.deliver n.rendered, c) :: tr) := by
  obtain ⟨hdel, hfail⟩ := counts_of_attempt tr c hnew
  rw [hok, if_pos rfl] at hfail
  have hdelivered := h.delivered
  have hwithin := h.within
  constructor
  -- one more delivery than failures, and no failure more
  case attempts => exact h.attempts.trans hfail.symm
  case deadLetter => simp [NotificationEvent.delivered, h.alive]
  case scheduled => simp [NotificationEvent.delivered]
  case later => simp [NotificationEvent.delivered]
  case delivered =>
    show deliveries _ n.id = failures _ n.id + 1
    omega
  case within =>
    show failures _ n.id < _
    omega

/-- The last attempt failed. -/
theorem Waits.counted_abandoned (h : Waits config tr n) (hok : c.delivery.ok = false)
    (hlast : n.attemptCount.getD 0 + 1 ≥ config.maxAttempts) (hnew : deliveries new n.id = 0) :
    (n.abandoned c.delivery t).Counted config (new ++ (.deliver n.rendered, c) :: tr) := by
  obtain ⟨hdel, hfail⟩ := counts_of_attempt tr c hnew
  simp only [hok, Bool.false_eq_true, if_false] at hfail
  have hattempts := h.attempts
  have hdelivered := h.delivered
  have hwithin := h.within
  -- one more failure, which is the last that is allowed
  constructor
  case attempts =>
    show n.attemptCount.getD 0 + 1 = failures _ n.id
    omega
  case deadLetter => simp [NotificationEvent.abandoned]
  case scheduled => simp [NotificationEvent.abandoned]
  case later => simp [NotificationEvent.abandoned]
  case delivered =>
    show deliveries _ n.id = failures _ n.id + 0
    omega
  case within =>
    show failures _ n.id = _
    omega

/-- Another attempt is scheduled, after the second reading of the clock. -/
theorem Waits.counted_rescheduled (h : Waits config tr n) (hok : c.delivery.ok = false)
    (hmore : ¬n.attemptCount.getD 0 + 1 ≥ config.maxAttempts) (hnext : cn.now < next) :
    (n.rescheduled c.delivery ct.now next).Counted config
      ([(.saveNotification (n.rescheduled c.delivery ct.now next), cs), (.clock, cn), (.clock, ct)] ++
        (.deliver n.rendered, c) :: tr) := by
  have hnew : deliveries [(.saveNotification (n.rescheduled c.delivery ct.now next), cs),
    (.clock, cn), (.clock, ct)] n.id = 0 := rfl
  obtain ⟨hdel, hfail⟩ := counts_of_attempt tr c hnew
  simp only [hok, Bool.false_eq_true, if_false] at hfail
  have hattempts := h.attempts
  have hdelivered := h.delivered
  have hwithin := h.within
  -- one more failure, and a time for the next attempt
  constructor
  case attempts =>
    show n.attemptCount.getD 0 + 1 = failures _ n.id
    omega
  case deadLetter => simp [NotificationEvent.rescheduled, h.alive]
  case scheduled => simp [NotificationEvent.rescheduled]
  -- the time lies behind the attempt, by the backoff of its failures
  case later =>
    intro next' hnext'
    rw [← Option.some.inj hnext']
    refine ⟨ct.now, cn.now, ⟨n.rendered, c, ct, cn, cs, ?_, rfl, hok, rfl, rfl⟩, hnext⟩
    exact (List.prefix_append _ tr).isInfix
  case delivered =>
    show deliveries _ n.id = failures _ n.id + 0
    omega
  case within =>
    show failures _ n.id < _
    omega

end Attempt

section ProcessOne

variable {older : Trace} {s : Store} {tr : Trace} {n : NotificationEvent} {now₀ : Time}

/-- The audit and the event after the save do nothing to the rows. -/
theorem Handled.announced {id : String} {g g' : Recorded} (h : Handled config older id g g')
    (action : String) (after payload : JsonObject) :
    Returns reliable.recorded (do
      writeAudit "notification" id action "system" none (some after)
      emitEvent action "notification" id payload) (fun _ => Handled config older id g) g' := by
  refine Returns.bind ((writeAudit_idle _ _ _ _ _ _ g').mono fun _ _ hidle => h.idle hidle)
    fun _ g'' h' => ?_
  exact (emitEvent_idle _ _ _ _ g'').mono fun _ _ hidle => h'.idle hidle

/-- One delivery of a due notification. -/
theorem processOne_sound (hpos : 0 < config.retryInitialBackoffMs ∧ 0 < config.retryMaxBackoffMs)
    (hg : Sound config older (s, tr)) (hn : s.notifications.get? n.id = some n)
    (hdue : n.isDue now₀ = true) :
    Returns reliable.recorded (processOne config n)
      (fun _ g' => Handled config older n.id (s, tr) g') (s, tr) := by
  have hwaits : Waits config (tr ++ older) n := waits_of_isDue (hg.row n.id n hn) hdue
  -- the save of a row that fits, after the calls `new` and the delivery
  have hsave : ∀ {c : Choice} (new : Trace) (n' : NotificationEvent), n'.id = n.id →
      (∀ id, deliveries new id = 0) →
      (∀ cs, n'.Counted config ((.saveNotification n', cs) :: new ++
        (.deliver n.rendered, c) :: (tr ++ older))) →
      Returns reliable.recorded (saveNotification n') (fun _ => Handled config older n.id (s, tr))
        (s, new ++ (.deliver n.rendered, c) :: tr) := by
    intro c new n' hid hnew hcounted
    refine returns_recorded fun cs _ => ?_
    refine handled_of_counted ((.saveNotification n', cs) :: new) n' hg hn hwaits.unfinished hid rfl
      (fun id => hnew id) ?_
    rw [List.append_assoc]
    exact hcounted cs
  unfold processOne
  refine Returns.bind (R := fun result g₁ => ∃ c, result = c.delivery ∧
    g₁ = (s, (.deliver n.rendered, c) :: tr)) (returns_recorded fun c _ => ⟨c, rfl, rfl⟩)
    fun result g₁ h₁ => ?_
  obtain ⟨c, rfl, rfl⟩ := h₁
  refine Returns.bind (R := fun t g₂ => ∃ ct, t = ct.now ∧
    g₂ = (s, (.clock, ct) :: (.deliver n.rendered, c) :: tr)) (returns_recorded fun ct _ => ⟨ct, rfl, rfl⟩)
    fun t g₂ h₂ => ?_
  obtain ⟨ct, rfl, rfl⟩ := h₂
  cases hok : c.delivery.ok with
  | true =>
    rw [if_pos rfl]
    refine Returns.bind (hsave [(.clock, ct)] (n.delivered ct.now) rfl (fun _ => rfl)
      fun cs => hwaits.counted_delivered hok rfl) fun _ g' h => ?_
    exact h.announced _ _ _
  | false =>
    rw [if_neg Bool.false_ne_true]
    by_cases hlast : n.attemptCount.getD 0 + 1 ≥ config.maxAttempts
    · rw [if_pos hlast]
      refine Returns.bind (hsave [(.clock, ct)] (n.abandoned c.delivery ct.now) rfl (fun _ => rfl)
        fun cs => hwaits.counted_abandoned hok hlast rfl) fun _ g' h => ?_
      exact h.announced _ _ _
    · rw [if_neg hlast]
      refine Returns.bind (R := fun now g₃ => ∃ cn, now = cn.now ∧
        g₃ = (s, (.clock, cn) :: (.clock, ct) :: (.deliver n.rendered, c) :: tr))
        (returns_recorded fun cn _ => ⟨cn, rfl, rfl⟩) fun now g₃ h₃ => ?_
      obtain ⟨cn, rfl, rfl⟩ := h₃
      -- the backoff is positive
      have hlater : cn.now < cn.now + backoffMs (n.attemptCount.getD 0 + 1) config.retryInitialBackoffMs
          config.retryMaxBackoffMs := Nat.lt_add_of_pos_right (backoffMs_pos _ hpos)
      exact hsave [(.clock, cn), (.clock, ct)] _ rfl (fun _ => rfl)
        fun cs => hwaits.counted_rescheduled hok hlast hlater

end ProcessOne

/-- The notifications of a batch that are left: they are stored as the batch has read them. -/
structure BatchLeft (config : Config) (older : Trace) (now : Time) (g₀ : Recorded)
    (ns : List NotificationEvent) (g : Recorded) : Prop where
  kept : Kept config older g₀ g
  stored : ∀ n ∈ ns, g.1.notifications.get? n.id = some n ∧ n.isDue now = true
  distinct : (ns.map NotificationEvent.id).Nodup

/-- The notifications that are due are stored, and different ones. -/
theorem mem_dueNotifications {s : Store} {now : Time} {limit : Nat} {n : NotificationEvent}
    (h : n ∈ s.dueNotifications now limit) :
    s.notifications.get? n.id = some n ∧ n.isDue now = true := by
  have hmem : n ∈ s.notifications.rows ∧ n.isDue now = true := List.mem_of_mem_firstBy h
  exact ⟨Table.get?_of_mem hmem.1, hmem.2⟩

/-- A page names every notification once. -/
theorem nodup_dueNotifications (s : Store) (now : Time) (limit : Nat) :
    ((s.dueNotifications now limit).map NotificationEvent.id).Nodup := by
  have hfilter : ((s.notifications.rows.filter (NotificationEvent.isDue now)).map
      NotificationEvent.id).Nodup := s.notifications.nodup.sublist (List.filter_sublist.map _)
  have hsorted := ((List.perm_insertionSort (fun a b : NotificationEvent =>
    a.createdAt ≤ b.createdAt) _).map NotificationEvent.id).nodup_iff.mpr hfilter
  exact hsorted.sublist ((List.take_sublist _ _).map _)

/-- A tick of the delivery worker keeps the discipline of every notification. -/
theorem notificationTick_tame
    (hpos : 0 < config.retryInitialBackoffMs ∧ 0 < config.retryMaxBackoffMs) :
    Tame config (notificationTick config) := by
  intro older g hg
  refine Returns.tryCatch ?_
  refine Returns.bind (returns_idle rfl g) fun now g₁ hidle => ?_
  have h₁ : Kept config older g g₁ := .of_idle hidle hg
  refine Returns.bind (R := BatchLeft config older now g) ?_ fun due g₂ hleft => ?_
  · obtain ⟨s, tr⟩ := g₁
    refine returns_recorded fun c _ => ?_
    have hop : (Call.listDueNotifications now config.batchSize).isIdle = true := rfl
    have hread := idle_perform hop c s tr
    exact ⟨⟨hread.sound h₁.sound, h₁.spares.trans hread.spares⟩, fun n hn => mem_dueNotifications hn,
      nodup_dueNotifications s now config.batchSize⟩
  -- each delivery leaves the rows of the others as they were read
  have hstep : ∀ n ns g', BatchLeft config older now g (n :: ns) g' →
      Returns reliable.recorded (processOne config n) (fun _ => BatchLeft config older now g ns) g' := by
    rintro n ns ⟨s, tr⟩ h
    obtain ⟨hn, hdue⟩ := h.stored n List.mem_cons_self
    have hdistinct := h.distinct
    rw [List.map_cons, List.nodup_cons] at hdistinct
    refine (processOne_sound hpos h.kept.sound hn hdue).mono fun _ g'' hhandled => ?_
    refine ⟨⟨hhandled.kept.sound, h.kept.spares.trans hhandled.kept.spares⟩, fun k hk => ?_,
      hdistinct.2⟩
    have hne : k.id ≠ n.id := fun heq => hdistinct.1 (heq ▸ List.mem_map_of_mem hk)
    rw [hhandled.others k.id hne]
    exact h.stored k (List.mem_cons_of_mem _ hk)
  exact (Returns.forM hstep hleft).mono fun _ _ h => h.kept

/-- Every request keeps the rows fitting the calls. -/
theorem handle_sound (hpos : 0 < config.retryInitialBackoffMs ∧ 0 < config.retryMaxBackoffMs)
    (req : Request) : Tame config (handle config req) := by
  cases req with
  | notificationTick => exact .map (notificationTick_tame hpos)
  | fanoutTick => exact .map (fanoutTick_tame config)
  | occurrence o => exact .map (enqueueOccurrence_tame config o)
  | send body channel => exact .map (sendNotification_tame body channel)
  | dispatch auth body channels => exact .map (dispatchNotifications_tame auth body channels)
  | retryOutbox auth outboxId => exact .map (retryOutbox_tame auth outboxId)

/-! ## Runs -/

/-- The services without overlapping requests and without rejected calls. -/
def notifySeqStep (config : Config) : Store → Request × List Choice → Option Store :=
  seqStep reliable (handle config)

/-- A completed request. -/
abbrev NotifyMove : Type := Move Store (Request × List Choice)

/-- The calls of one request. -/
def moveTrace (config : Config) (m : NotifyMove) : Trace :=
  seqTrace reliable (handle config) m.before m.label

/-- The calls of a run. -/
def runTrace (config : Config) (ms : List NotifyMove) : Trace :=
  ms.flatMap (moveTrace config)

/-- A step of the system keeps the discipline. -/
theorem disciplined_step (hpos : 0 < config.retryInitialBackoffMs ∧ 0 < config.retryMaxBackoffMs)
    {older : Trace} {m : NotifyMove} (hstep : notifySeqStep config m.before m.label = some m.after)
    (h : Disciplined config older m.before) :
    Disciplined config (moveTrace config m ++ older) m.after ∧
    ∀ id n, m.before.notifications.get? id = some n → n.status.isFinal = true →
      m.after.notifications.get? id = some n ∧ deliveries (moveTrace config m) id = 0 := by
  have hreturns := handle_sound hpos m.label.1 older (m.before, []) h
  have hkept := seqStep_recorded (Ends.of_returns hreturns) hstep
  exact ⟨hkept.sound, hkept.spares⟩

/-- It holds after every run from untried notifications. -/
theorem disciplined_run (hpos : 0 < config.retryInitialBackoffMs ∧ 0 < config.retryMaxBackoffMs)
    {s₀ s : Store} {ms : List NotifyMove} (run : Run (notifySeqStep config) s₀ ms s)
    (h₀ : ∀ n ∈ s₀.notifications.rows, n.Untried) :
    Disciplined config (runTrace config ms) s ∧
    ∀ m ∈ ms, ∀ id n, m.before.notifications.get? id = some n → n.status.isFinal = true →
      m.after.notifications.get? id = some n ∧ deliveries (moveTrace config m) id = 0 := by
  induction run with
  | nil =>
    refine ⟨⟨fun id n hn => ?_, fun id _ => rfl⟩, by simp⟩
    exact (h₀ n (Table.mem_of_get? hn)).counted rfl
  | @cons ms t u a run hstep ih =>
    obtain ⟨hdisc, hfinal⟩ := ih
    obtain ⟨hdisc', hlast⟩ := disciplined_step (m := ⟨t, a, u⟩) hpos hstep hdisc
    refine ⟨hdisc', fun m hm => ?_⟩
    rcases List.mem_cons.mp hm with rfl | hm
    · exact hlast
    · exact hfinal m hm

/-- Ticks that do not overlap, any number of notifications, enqueued before the run or during
    it, and any answers of the provider: a notification is delivered at most `maxAttempts` times,
    its counter is the number of its failed deliveries, it is dead exactly when it failed, it has
    a time for another attempt exactly when one is scheduled, and that time is later than the
    failed attempt; a sent or failed notification is never delivered and never changed again. -/
theorem notification_retry_discipline
    (hpos : 0 < config.retryInitialBackoffMs ∧ 0 < config.retryMaxBackoffMs) {s₀ s : Store}
    {ms : List NotifyMove} (run : Run (notifySeqStep config) s₀ ms s)
    (h₀ : ∀ n ∈ s₀.notifications.rows, n.Untried) :
    (∀ id, deliveries (runTrace config ms) id ≤ max 1 config.maxAttempts) ∧
    (∀ n ∈ s.notifications.rows,
      n.attemptCount.getD 0 = failures (runTrace config ms) n.id ∧
      (n.deadLetter = true ↔ n.status = .failed) ∧
      (n.nextAttemptAt.isSome = true ↔ n.status = .retryScheduled) ∧
      ∀ next, n.nextAttemptAt = some next → ∃ t now, n.FailedAt (runTrace config ms) t now ∧
        now < next ∧ (t ≤ now → t < next)) ∧
    ∀ m ∈ ms, ∀ n ∈ m.before.notifications.rows, n.status.isFinal = true →
      deliveries (moveTrace config m) n.id = 0 ∧ m.after.notifications.get? n.id = some n := by
  obtain ⟨hdisc, hfinal⟩ := disciplined_run hpos run h₀
  refine ⟨fun id => ?_, fun n hn => ?_, fun m hm n hn hn' => ?_⟩
  -- an identifier without a row was never delivered
  · cases hget : s.notifications.get? id with
    | none =>
      rw [hdisc.unknown id hget]
      omega
    | some n =>
      have hrow := hdisc.row id n hget
      have hid : n.id = id := Table.key_of_get? hget
      have hdelivered := hrow.delivered
      have hwithin := hrow.within
      rw [hid] at hdelivered hwithin
      by_cases hsent : n.status = .sent
      · -- one delivery succeeded, and the attempts were not used up
        rw [if_pos hsent] at hdelivered
        rw [hsent, if_neg (by decide)] at hwithin
        omega
      · rw [if_neg hsent] at hdelivered
        split at hwithin <;> omega
  -- the fields of the row are those the discipline promises
  · have hrow := hdisc.row n.id n (Table.get?_of_mem hn)
    refine ⟨hrow.attempts, hrow.deadLetter, hrow.scheduled, fun next hnext => ?_⟩
    obtain ⟨t, now, hat, hlt⟩ := hrow.later next hnext
    exact ⟨t, now, hat, hlt, fun hle => Nat.lt_of_le_of_lt hle hlt⟩
  -- what has ended is not touched again
  · obtain ⟨hsame, hzero⟩ := hfinal m hm n.id n (Table.get?_of_mem hn) hn'
    exact ⟨hzero, hsame⟩

/-! ## A concrete run -/

/-- Two attempts for each notification. -/
def twoAttempts : Config := { sampleConfig with maxAttempts := 2 }

/-- The clock stands at `now`, and deliveries end as `ok` says. -/
def deliveryOracle (tag : String) (now : Time) (ok : Bool) : Call → Choice
  | .clock => { now := now }
  | .randomId kind => { id := kind ++ "_" ++ tag }
  | .deliver _ => { delivery := ⟨ok, some "timeout"⟩ }
  | _ => {}

/-- Two ticks fail to deliver the notification, a third one finds nothing to do. -/
def failedTwice : List (Request × List Choice) :=
  oracleLabels reliable (handle twoAttempts)
    [(.notificationTick, deliveryOracle "1" 0 false), (.notificationTick, deliveryOracle "2" 5000 false),
      (.notificationTick, deliveryOracle "3" 9000 true)] sampleQueued

/-- Two failed attempts end in `failed` where two are the maximum. -/
theorem notification_retry_discipline_failed :
    ∃ ms s, Run (notifySeqStep twoAttempts) sampleQueued ms s ∧ ms.length = 3 ∧
      s.HasStatus "ntf_1" .failed ∧ deliveries (runTrace twoAttempts ms) "ntf_1" = 2 ∧
      (∀ id, deliveries (runTrace twoAttempts ms) id ≤ 2) ∧
      ∀ n ∈ s.notifications.rows, n.attemptCount.getD 0 = failures (runTrace twoAttempts ms) n.id := by
  obtain ⟨ms, s, run, hp⟩ := exists_run_of_replay failedTwice
    (fun (r : List NotifyMove × Store) =>
      decide (r.1.length = 3 ∧ r.2.status? "ntf_1" = some .failed ∧
        deliveries (runTrace twoAttempts r.1) "ntf_1" = 2))
    (by decide +kernel : (replay (notifySeqStep twoAttempts) sampleQueued _ []).any _ = true)
  obtain ⟨hlen, hstatus, hcount⟩ := of_decide_eq_true hp
  have huntried : ∀ n ∈ sampleQueued.notifications.rows, n.Untried := by
    intro n hn
    rw [List.mem_singleton.mp hn]
    exact queuedNotification_untried _ _ _ _ _ _
  obtain ⟨hbound, hrows, -⟩ := notification_retry_discipline (by decide) run huntried
  exact ⟨ms, s, run, hlen, hasStatus_iff.mpr hstatus, hcount, hbound, fun n hn => (hrows n hn).1⟩

end Bluesafe.Notify
