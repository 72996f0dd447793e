import Bluesafe.Async.Monitored
import Bluesafe.Notify.Memory
import Bluesafe.Spec.OutboxRefinement

/-!
# The outbox of the in-memory repository is well formed

The outbox consists of two maps that every operation has to keep in step, and its rows
point into the table of notifications. `StoreInv` says, over the model without the second
map, what holds of the rows in every interleaving of the operations, wherever a call is
rejected: it is built from the copies that requests hold, because a worker writes back
copies that may be out of date. `performMemory_db` then shows that the programs cannot
tell the two models apart while the maps are in step, and `memoryInv_step` that they stay
so.
-/

namespace Bluesafe.Notify

open Async Transition
open Bluesafe.Ops (Time JsonObject BluesafeAuth Reply)

/-! ## What a request writes -/

/-- The request has claimed this copy of a row. -/
def Claimed (l : NotifyLog) (copy : NotificationOutboxRecord) : Prop :=
  ∃ limit now rows, (⟨.claimNotificationOutboxPending limit now, .ok rows⟩ :
    Event calls String) ∈ l ∧ copy ∈ rows

/-- The request has read this copy of a notification. -/
def Listed (l : NotifyLog) (e : NotificationEvent) : Prop :=
  ∃ now limit rows, (⟨.listDueNotifications now limit, .ok rows⟩ : Event calls String) ∈ l ∧
    e ∈ rows

/-- The request has stored the notification. -/
def Saved (l : NotifyLog) (n : NotificationEvent) : Prop :=
  (⟨.saveNotification n, .ok ()⟩ : Event calls String) ∈ l

/-- A row that was claimed stays claimed in the log. -/
theorem Claimed.mono {l l' : NotifyLog} {copy : NotificationOutboxRecord} (h : Claimed l copy)
    (hl : l <:+ l') : Claimed l' copy := by
  obtain ⟨limit, now, rows, hev, hcopy⟩ := h
  exact ⟨limit, now, rows, hl.mem hev, hcopy⟩

/-- A notification that was listed stays listed. -/
theorem Listed.mono {l l' : NotifyLog} {e : NotificationEvent} (h : Listed l e) (hl : l <:+ l') :
    Listed l' e := by
  obtain ⟨now, limit, rows, hev, he⟩ := h
  exact ⟨now, limit, rows, hl.mem hev, he⟩

/-- The rows that may be written back: a claimed copy that was dispatched, one whose dispatch
    failed, or a row that an operator retries. -/
inductive Written (config : Config) (l : NotifyLog) : NotificationOutboxRecord → Prop
  | fannedOut {copy : NotificationOutboxRecord} {n : NotificationEvent} (t : Time)
      (hcopy : Claimed l copy) (hsaved : Saved l n) (hcontent : n.content = copy.content) :
      Written config l (copy.fannedOut n.id t)
  | dispatchFailed {copy : NotificationOutboxRecord} (message : String) (t : Time)
      (hcopy : Claimed l copy) :
      Written config l (copy.dispatchFailed config.maxDispatchAttempts message t)
  | retried (copy : NotificationOutboxRecord) (t : Time) : Written config l (copy.retried t)

/-- A notification is stored under a new identifier or in place of a copy with its content,
    and a row of the outbox is new or one of the above. -/
def storeOk (config : Config) (l : NotifyLog) : Call → Prop
  | .saveNotification n =>
    Reserves l n.id ∨ ∃ e, Listed l e ∧ e.id = n.id ∧ e.content = n.content
  | .appendNotificationOutbox row =>
    row.status = .pending ∧ row.attempts = 0 ∧ row.processingStartedAt = none
  | .updateNotificationOutbox row => Written config l row
  | _ => True

/-- The calls about which `storeOk` says nothing. -/
def Call.isQuiet : Call → Bool
  | .saveNotification _ => false
  | .appendNotificationOutbox _ => false
  | .updateNotificationOutbox _ => false
  | _ => true

/-- A quiet call is accepted by the store. -/
theorem storeOk_of_quiet {config : Config} {l : NotifyLog} {op : Call} (h : op.isQuiet = true) :
    storeOk config l op := by
  cases op with
  | saveNotification n => cases h
  | appendNotificationOutbox row => cases h
  | updateNotificationOutbox row => cases h
  | _ => trivial

/-- The program writes neither notifications nor rows of the outbox. -/
abbrev Quiet {α : Type} (p : NotifyM α) : Prop :=
  Only (fun op : calls.Op => Call.isQuiet op = true) p

/-- So is a quiet program. -/
theorem Quiet.safe {α : Type} {p : NotifyM α} (h : Quiet p) (config : Config) (l : NotifyLog) :
    Safe (storeOk config) p l :=
  Only.safe h (fun _ _ hop => storeOk_of_quiet hop) l

/-- An audit entry writes neither row nor notification. -/
theorem writeAudit_quiet {entityType entityId action actorId : String}
    {after metadata : Option JsonObject} :
    Quiet (writeAudit entityType entityId action actorId after metadata) :=
  Only.bind (Only.call rfl) fun _ => Only.bind (Only.call rfl) fun _ => Only.call rfl

/-- Nor does an event. -/
theorem emitEvent_quiet {eventType entityType entityId : String} {payload : JsonObject} :
    Quiet (emitEvent eventType entityType entityId payload) :=
  Only.bind (Only.call rfl) fun _ => Only.bind (Only.call rfl) fun _ =>
    Only.bind (Only.call rfl) fun _ => Only.call rfl

/-! ## The programs -/

/-- A notification that is processed was listed. -/
theorem processOne_store {config : Config} {n : NotificationEvent} {l : NotifyLog}
    (hn : Listed l n) : Safe (storeOk config) (processOne config n) l := by
  -- Every outcome saves the copy with its identifier and its content.
  have hsave : ∀ (n' : NotificationEvent) l', l <:+ l' → n.id = n'.id → n.content = n'.content →
      storeOk config l' (.saveNotification n') :=
    fun n' l' hl hid hcontent => .inr ⟨n, hn.mono hl, hid, hcontent⟩
  refine Gives.call_then trivial fun result l₁ hl₁ => Gives.call_then trivial fun t l₂ hl₂ => ?_
  split
  · refine Gives.call_then (hsave _ l₂ (hl₁.trans hl₂) rfl rfl) fun _ l₃ _ => ?_
    exact Quiet.safe (Only.bind writeAudit_quiet fun _ => emitEvent_quiet) config l₃
  · split
    · refine Gives.call_then (hsave _ l₂ (hl₁.trans hl₂) rfl rfl) fun _ l₃ _ => ?_
      exact Quiet.safe (Only.bind writeAudit_quiet fun _ => emitEvent_quiet) config l₃
    · refine Gives.call_then trivial fun now l₃ hl₃ => ?_
      exact Gives.call (hsave _ l₃ (hl₁.trans (hl₂.trans hl₃)) rfl rfl) fun _ => trivial

/-- A tick processes what it has listed. -/
theorem notificationTick_store (config : Config) :
    Safe (storeOk config) (notificationTick config) [] := by
  refine Gives.tryCatch ?_ fun _ _ _ => Gives.pure trivial
  refine Gives.call_then trivial fun now l₁ _ => Gives.call_read trivial fun due l₂ _ hev => ?_
  exact Gives.forM fun n l₃ hn hl₃ => processOne_store ⟨_, _, _, hl₃.mem hev, hn⟩

/-- The fan-out closes the row that it has claimed. -/
theorem fanOut_store {config : Config} {row : NotificationOutboxRecord} {id : String} {t : Time}
    {l : NotifyLog} (hrow : Claimed l row) (hid : Reserves l id) :
    Safe (storeOk config) (fanOut row id t) l := by
  refine Gives.call_read (.inl hid) fun _ l₁ hl₁ hsaved => ?_
  refine Gives.bind (Quiet.safe emitEvent_quiet config l₁) fun _ l₂ hl₂ _ => ?_
  refine Gives.call ?_ fun _ => trivial
  exact Written.fannedOut t (hrow.mono (hl₁.trans hl₂)) (hl₂.mem hsaved) rfl

/-- A failure puts back the row that was claimed. -/
theorem recordDispatchFailure_store {config : Config} {row : NotificationOutboxRecord} {t : Time}
    {message : String} {l : NotifyLog} (hrow : Claimed l row) :
    Safe (storeOk config)
      (recordDispatchFailure row config.maxDispatchAttempts t message) l := by
  refine Gives.call_then (.dispatchFailed message t hrow) fun _ l₁ _ => ?_
  split
  · exact Quiet.safe emitEvent_quiet config l₁
  · exact Gives.pure trivial

/-- A claimed row is dispatched, or its failure is recorded. -/
theorem dispatchOneOutboxRow_store {config : Config} {row : NotificationOutboxRecord} {t : Time}
    {l : NotifyLog} (hrow : Claimed l row) :
    Safe (storeOk config) (dispatchOneOutboxRow config.maxDispatchAttempts t row) l := by
  refine Gives.call_bind trivial fun id => ?_
  have hgrow := List.suffix_cons (⟨.randomId "ntf", .ok id⟩ : Event calls String) l
  refine Gives.tryCatch (fanOut_store (hrow.mono hgrow) rfl) fun message l₂ hl₂ => ?_
  exact recordDispatchFailure_store (hrow.mono (hgrow.trans hl₂))

/-- A tick dispatches the rows it has claimed. -/
theorem fanoutTick_store (config : Config) : Safe (storeOk config) (fanoutTick config) [] := by
  refine Gives.tryCatch ?_ fun _ _ _ => Gives.pure trivial
  refine Gives.call_then trivial fun now l₁ _ => Gives.call_then trivial fun today l₂ _ => ?_
  refine Gives.call_then trivial fun _ l₃ _ => Gives.call_read trivial fun claimed l₄ _ hev => ?_
  exact Gives.forM fun row l₅ hrow hl₅ =>
    dispatchOneOutboxRow_store ⟨_, _, _, hl₅.mem hev, hrow⟩

/-- A new row is pending. -/
theorem enqueueToOutbox_store {config : Config} {now : Time} {it : FanoutNotificationItem}
    {l : NotifyLog} : Safe (storeOk config) (enqueueToOutbox config now it) l := by
  refine Gives.call_then trivial fun id l₁ _ => ?_
  refine Gives.call_then ⟨rfl, rfl, rfl⟩ fun inserted l₂ _ => ?_
  split
  · exact Quiet.safe emitEvent_quiet config l₂
  · exact Gives.pure trivial

/-- A direct notification is queued. -/
theorem enqueueDirectly_store {config : Config} {now : Time} {it : FanoutNotificationItem}
    {l : NotifyLog} : Safe (storeOk config) (enqueueDirectly now it) l := by
  refine Gives.call_bind trivial fun id => Gives.call_then (.inl rfl) fun _ l₂ _ => ?_
  exact Quiet.safe emitEvent_quiet config l₂

/-- An occurrence enqueues all of its items. -/
theorem enqueueOccurrence_store {config : Config} {o : Occurrence} {l : NotifyLog} :
    Safe (storeOk config) (enqueueOccurrence config o) l := by
  rcases enqueueOccurrence_cases config o with heq | heq <;> rw [heq]
  · refine Gives.call_then trivial fun now l₁ _ => ?_
    split
    · exact Gives.forM fun _ _ _ _ => enqueueToOutbox_store
    · exact Gives.forM fun _ _ _ _ => enqueueDirectly_store
  · exact Gives.pure trivial

/-- One channel of a message that is sent by hand. -/
theorem sendOne_store {config : Config} {body : SendBody} {now : Time} {action actor : String}
    {extra : JsonObject} {channel : NotificationChannel} {id : String} {l : NotifyLog}
    (hid : Reserves l id) :
    Safe (storeOk config) (sendOne body now action actor extra channel id) l := by
  refine Gives.call_then (.inl hid) fun _ l₁ _ => ?_
  exact Quiet.safe (Only.bind writeAudit_quiet fun _ => emitEvent_quiet) config l₁

/-- The whole message. -/
theorem sendNotification_store {config : Config} {body : SendBody} {channel : NotificationChannel}
    {l : NotifyLog} : Safe (storeOk config) (sendNotification body channel) l := by
  refine Gives.call_bind trivial fun id => Gives.call_bind trivial fun now => ?_
  exact Gives.bind (sendOne_store rfl) fun _ _ _ _ => Gives.pure trivial

/-- A dispatch, channel by channel. -/
theorem dispatchAll_store {config : Config} {auth : Option BluesafeAuth} {body : SendBody}
    {now : Time} {channels : List NotificationChannel} {l : NotifyLog} :
    Safe (storeOk config) (dispatchAll auth body now channels) l := by
  induction channels generalizing l with
  | nil => exact Gives.pure trivial
  | cons channel rest ih =>
    refine Gives.call_bind trivial fun id => Gives.bind (sendOne_store rfl) fun _ l₁ _ _ => ?_
    exact Gives.bind ih fun _ _ _ _ => Gives.pure trivial

/-- A retry puts back a row that has failed. -/
theorem retryOutbox_store {config : Config} {auth : Option BluesafeAuth} {outboxId : String}
    {l : NotifyLog} : Safe (storeOk config) (retryOutbox auth outboxId) l := by
  refine Gives.call_then trivial fun read l₁ _ => ?_
  split
  · exact Gives.pure trivial
  · rename_i row
    split
    · exact Gives.pure trivial
    · refine Gives.call_then trivial fun t l₂ _ => ?_
      refine Gives.call_then (.retried row t) fun _ l₃ _ => ?_
      exact Gives.bind (Quiet.safe writeAudit_quiet config l₃) fun _ _ _ _ => Gives.pure trivial

/-- Every request keeps the discipline of the store. -/
theorem handle_store (config : Config) (req : Request) :
    Safe (storeOk config) (handle config req) [] := by
  cases req with
  | notificationTick => exact Gives.map (notificationTick_store config)
  | fanoutTick => exact Gives.map (fanoutTick_store config)
  | occurrence o => exact Gives.map enqueueOccurrence_store
  | send body channel => exact Gives.map sendNotification_store
  | dispatch auth body channels =>
    refine Gives.map (Gives.call_then trivial fun now l₁ _ => ?_)
    exact Gives.bind dispatchAll_store fun _ _ _ _ => Gives.pure trivial
  | retryOutbox auth outboxId => exact Gives.map retryOutbox_store

/-! ## The rows in every state -/

/-- A row is processing exactly when it has `processingStartedAt`, and it has failed at most
    as often as is allowed; a row that may be dispatched has failed less often. -/
structure RowOk (config : Config) (r : NotificationOutboxRecord) : Prop where
  processing : r.status = .processing ↔ r.processingStartedAt.isSome
  bounded : r.attempts ≤ config.maxDispatchAttempts
  open_lt : r.status = .pending ∨ r.status = .processing → r.attempts < config.maxDispatchAttempts

/-- The row names a notification of the store with its content. -/
def Store.Names (s : Store) (r : NotificationOutboxRecord) : Prop :=
  ∃ nid n, r.dispatchedNotificationId = some nid ∧ s.notifications.get? nid = some n ∧
    n.content = r.content

/-- The notification is stored, possibly in a later version with the same content. -/
def Store.HasContent (s : Store) (n : NotificationEvent) : Prop :=
  ∃ n', s.notifications.get? n.id = some n' ∧ n'.content = n.content

/-- What holds of the rows and of the copies that requests hold, in every run. -/
structure StoreInv (config : Config) (P : NotifyPool) : Prop where
  outbox : OutboxInv config P
  safe : ∀ th ∈ P.threads, th.Safe fun _ => storeOk config
  rows : ∀ id r, P.store.outbox.get? id = some r → RowOk config r
  claimed : ∀ th ∈ P.threads, ∀ copy, Claimed th.log copy →
    copy.attempts < config.maxDispatchAttempts
  reserved : ∀ th ∈ P.threads, ∀ id, Reserves th.log id → P.store.notifications.get? id = none
  listed : ∀ th ∈ P.threads, ∀ e, Listed th.log e → P.store.HasContent e
  saved : ∀ th ∈ P.threads, ∀ n, Saved th.log n → P.store.HasContent n
  named : ∀ id r, P.store.outbox.get? id = some r → r.status = .dispatched → P.store.Names r

/-- A claim or a recovery leaves a row well formed. -/
theorem RowOk.marked {config : Config} {r r' : NotificationOutboxRecord} (h : RowOk config r)
    (hmarked : Marked r r') : RowOk config r' := by
  rcases hmarked with ⟨hpending, now, rfl⟩ | ⟨hprocessing, now, rfl⟩
  · have hlt := h.open_lt (.inl hpending)
    exact ⟨by simp [NotificationOutboxRecord.claimed], h.bounded, fun _ => hlt⟩
  · have hlt := h.open_lt (.inr hprocessing)
    exact ⟨by simp [NotificationOutboxRecord.recovered], h.bounded, fun _ => hlt⟩

/-- A row that is written back is well formed when the claimed copies are. -/
theorem Written.rowOk {config : Config} (hmax : 1 ≤ config.maxDispatchAttempts) {l : NotifyLog}
    {row : NotificationOutboxRecord} (h : Written config l row)
    (hclaimed : ∀ copy, Claimed l copy → copy.attempts < config.maxDispatchAttempts) :
    RowOk config row := by
  -- which write of the outbox it is
  cases h with
  | @fannedOut copy n t hcopy hsaved hcontent =>
    have hlt := hclaimed copy hcopy
    exact ⟨by simp [NotificationOutboxRecord.fannedOut], Nat.le_of_lt hlt, fun _ => hlt⟩
  | @dispatchFailed copy message t hcopy =>
    have hlt := hclaimed copy hcopy
    -- the last attempt makes the row dead; before it the row is pending again
    by_cases hdead : copy.attempts + 1 ≥ config.maxDispatchAttempts
    · refine ⟨?_, hlt, ?_⟩ <;> simp [NotificationOutboxRecord.dispatchFailed, hdead]
    · refine ⟨?_, hlt, fun _ => Nat.lt_of_not_le hdead⟩
      simp [NotificationOutboxRecord.dispatchFailed, hdead]
  | retried copy t =>
    exact ⟨by simp [NotificationOutboxRecord.retried], Nat.zero_le _, fun _ => hmax⟩

/-- A row that is written back as dispatched names a notification that was saved. -/
theorem Written.names {config : Config} {l : NotifyLog} {row : NotificationOutboxRecord} {s : Store}
    (h : Written config l row) (hstatus : row.status = .dispatched)
    (hsaved : ∀ n, Saved l n → s.HasContent n) : s.Names row := by
  cases h with
  | @fannedOut copy n t hcopy hn hcontent =>
    obtain ⟨n', hn', hsame⟩ := hsaved n hn
    exact ⟨n.id, n', rfl, hn', hsame.trans hcontent⟩
  | @dispatchFailed copy message t hcopy =>
    simp only [NotificationOutboxRecord.dispatchFailed] at hstatus
    split at hstatus <;> cases hstatus
  | retried copy t => cases hstatus

/-! ## One step -/

namespace StoreInv

variable {config : Config} {P : NotifyPool} {i : Nat} {th : NotifyThread} {op : Call} {c : Choice}
  {k : Except String op.Res → NotifyM (Option Reply)}

section Step

variable (h : StoreInv config P) (hth : P.threads[i]? = some th) (hprog : th.prog = .await op k)
include h hth hprog

/-- The call of the step is one that the discipline accepts. -/
theorem accepted : storeOk config th.log op :=
  (h.safe th (List.mem_of_getElem? hth)).ok_of_await hprog

/-- The content of a stored notification never changes. -/
theorem content_step {n : NotificationEvent} (hn : P.store.HasContent n) :
    (serve op c P.store).2.HasContent n := by
  obtain ⟨n₀, hn₀, hcontent⟩ := hn
  -- the call writes no notification, or this one
  rcases serve_notifications op c P.store with heq | ⟨m, rfl, heq⟩
  · exact ⟨n₀, by rw [heq]; exact hn₀, hcontent⟩
  · unfold Store.HasContent
    rw [heq, Table.get?_set]
    by_cases hid : n.id = m.id
    · rw [if_pos hid]
      refine ⟨m, rfl, ?_⟩
      have haccepted : storeOk config th.log (.saveNotification m) := h.accepted hth hprog
      rcases haccepted with hnew | ⟨e, he, heid, hsame⟩
      · have hnone := h.reserved th (List.mem_of_getElem? hth) m.id hnew
        rw [← hid, hn₀] at hnone
        cases hnone
      · -- The copy that is written has the content of the row it replaces.
        obtain ⟨e', he', hcontent'⟩ := h.listed th (List.mem_of_getElem? hth) e he
        rw [heid, ← hid, hn₀, Option.some.injEq] at he'
        subst he'
        exact hsame.symm.trans (hcontent'.symm.trans hcontent)
    -- another row is written
    · rw [if_neg hid]
      exact ⟨n₀, hn₀, hcontent⟩

/-- What a request has reserved was issued. -/
theorem reserved_step (hallow : world.allow op c P.store = true) {u : NotifyThread}
    (hu : u ∈ P.threads.set i (th.resume op (serve op c P.store).1 k)) {id : String}
    (hid : Reserves u.log id) : (serve op c P.store).2.notifications.get? id = none := by
  have hmem := List.mem_of_getElem? hth
  -- the thread that moved, or another one
  rcases mem_set_cases hu with rfl | ⟨j, hij, hj⟩
  · -- Neither the clock nor the generator stores a notification.
    rcases reserves_resume hallow hid with ⟨rfl, hid⟩ | ⟨⟨tag, rfl⟩, hfresh, -⟩
    · rw [serve_notifications_of_ne (by simp)]
      exact h.reserved th hmem id hid
    · rw [serve_notifications_of_ne (by simp)]
      exact (isFresh_iff.mp hfresh).2.1
  · have hnone := h.reserved u (List.mem_of_getElem? hj) id hid
    rcases serve_notifications op c P.store with heq | ⟨m, rfl, heq⟩
    · rw [heq]
      exact hnone
    · rw [heq, Table.get?_set]
      -- the saved row may be this one
      by_cases heqid : id = m.id
      · subst heqid
        have haccepted : storeOk config th.log (.saveNotification m) := h.accepted hth hprog
        rcases haccepted with hnew | ⟨e, he, heid, -⟩
        · exact absurd (h.outbox.own m.id i j th u hth hj hnew hid) hij
        -- a listed row is stored, so its identifier is not free
        · obtain ⟨e', he', -⟩ := h.listed th hmem e he
          rw [heid, hnone] at he'
          cases he'
      · rw [if_neg heqid]
        exact hnone

/-- Every row keeps its own conditions. -/
theorem rows_step (hmax : 1 ≤ config.maxDispatchAttempts) {id : String}
    {r : NotificationOutboxRecord} (hr : (serve op c P.store).2.outbox.get? id = some r) :
    RowOk config r := by
  have haccepted := h.accepted hth hprog
  -- the row is the same, a new one, a written one, or one that was claimed
  rcases serve_outbox op c P.store id with hsame | ⟨row, rfl, -, hnew⟩ | ⟨row, rfl, -, -, hnew⟩ |
    ⟨r₀, r', hold, hnew, hmarked⟩
  · exact h.rows id r (hsame.symm.trans hr)
  · cases hnew.symm.trans hr
    obtain ⟨hstatus, hattempts, hstarted⟩ := haccepted
    refine ⟨by simp [hstatus, hstarted], ?_, fun _ => ?_⟩ <;> omega
  · cases hnew.symm.trans hr
    exact Written.rowOk hmax haccepted (h.claimed th (List.mem_of_getElem? hth))
  · cases hnew.symm.trans hr
    exact (h.rows id r₀ hold).marked hmarked

/-- A dispatched row names its notification. -/
theorem named_step {id : String} {r : NotificationOutboxRecord}
    (hr : (serve op c P.store).2.outbox.get? id = some r) (hstatus : r.status = .dispatched) :
    (serve op c P.store).2.Names r := by
  have haccepted := h.accepted hth hprog
  -- the row is as before, new, written by a request, or marked by a worker
  rcases serve_outbox op c P.store id with hsame | ⟨row, rfl, -, hnew⟩ | ⟨row, rfl, -, -, hnew⟩ |
    ⟨r₀, r', -, hnew, hmarked⟩
  · obtain ⟨nid, n, hnid, hn, hcontent⟩ := h.named id r (hsame.symm.trans hr) hstatus
    obtain rfl := Table.key_of_get? hn
    obtain ⟨n', hn', hsame'⟩ := h.content_step hth hprog ⟨n, hn, rfl⟩
    exact ⟨n.id, n', hnid, hn', hsame'.trans hcontent⟩
  -- a new row is pending
  · cases hnew.symm.trans hr
    rw [haccepted.1] at hstatus
    cases hstatus
  -- what the request has written names a notification it has saved
  · cases hnew.symm.trans hr
    refine Written.names haccepted hstatus fun n hn => ?_
    exact h.content_step hth hprog (h.saved th (List.mem_of_getElem? hth) n hn)
  -- no mark sets a row to dispatched
  · cases hnew.symm.trans hr
    exact absurd hstatus hmarked.status.2.1

/-- A copy that is claimed now is that of a pending row. -/
theorem claimed_step {u : NotifyThread}
    (hu : u ∈ P.threads.set i (th.resume op (serve op c P.store).1 k))
    {copy : NotificationOutboxRecord} (hcopy : Claimed u.log copy) :
    copy.attempts < config.maxDispatchAttempts := by
  -- the copy was claimed by this call, or before it
  rcases mem_set_resume hu with rfl | hu
  · obtain ⟨limit, now, rows, hev, hmem⟩ := hcopy
    rcases List.mem_cons.mp hev with hev | hev
    · obtain rfl : .claimNotificationOutboxPending limit now = op := congrArg Event.op hev
      simp only [Event.mk.injEq, heq_eq_eq, true_and] at hev
      obtain rfl := answer_of_serve hev.symm
      obtain ⟨r, hr, rfl⟩ := List.mem_map.mp hmem
      -- a claimed row was pending, so it has an attempt left
      obtain ⟨hget, hpending⟩ := mem_pendingOutbox hr
      exact (h.rows r.id r hget).open_lt (.inl hpending)
    · exact h.claimed th (List.mem_of_getElem? hth) copy ⟨limit, now, rows, hev, hmem⟩
  · exact h.claimed u hu copy hcopy

/-- A notification that is read now is stored. -/
theorem listed_step {u : NotifyThread}
    (hu : u ∈ P.threads.set i (th.resume op (serve op c P.store).1 k)) {e : NotificationEvent}
    (he : Listed u.log e) : (serve op c P.store).2.HasContent e := by
  -- the row was listed by this call, or before it
  rcases mem_set_resume hu with rfl | hu
  · obtain ⟨now, limit, rows, hev, hmem⟩ := he
    rcases List.mem_cons.mp hev with hev | hev
    · obtain rfl : .listDueNotifications now limit = op := congrArg Event.op hev
      simp only [Event.mk.injEq, heq_eq_eq, true_and] at hev
      obtain rfl := answer_of_serve hev.symm
      have hrow := List.mem_of_mem_take hmem
      rw [List.mem_insertionSort, List.mem_filter] at hrow
      -- what was listed is a row of the table
      exact h.content_step hth hprog ⟨e, Table.get?_of_mem hrow.1, rfl⟩
    · have hold := h.listed th (List.mem_of_getElem? hth) e ⟨now, limit, rows, hev, hmem⟩
      exact h.content_step hth hprog hold
  · exact h.content_step hth hprog (h.listed u hu e he)

/-- What a request has saved is stored. -/
theorem saved_step {u : NotifyThread}
    (hu : u ∈ P.threads.set i (th.resume op (serve op c P.store).1 k)) {n : NotificationEvent}
    (hn : Saved u.log n) : (serve op c P.store).2.HasContent n := by
  -- the save is this call, or one before it
  rcases mem_set_resume hu with rfl | hu
  · rcases List.mem_cons.mp hn with hev | hev
    · obtain rfl : .saveNotification n = op := congrArg Event.op hev
      simp only [Event.mk.injEq, heq_eq_eq, true_and] at hev
      unfold serve at hev ⊢
      -- a save that was rejected is not in the log as one
      split at hev
      · exact ⟨n, Table.get?_set_self _ _, rfl⟩
      · cases hev
    · exact h.content_step hth hprog (h.saved th (List.mem_of_getElem? hth) n hev)
  · exact h.content_step hth hprog (h.saved u hu n hn)

end Step

end StoreInv

/-- The empty store keeps the invariant. -/
theorem storeInv_empty (config : Config) : StoreInv config ⟨Store.empty, []⟩ where
  outbox := outboxInv_init (by simp [Store.Enqueued, Store.empty, Table.empty])
  safe := by simp
  rows := by simp [Store.empty]
  claimed := by simp
  reserved := by simp
  listed := by simp
  saved := by simp
  named := by simp [Store.empty]

/-- Every step of the backend keeps it. -/
theorem StoreInv.step {config : Config} (hmax : 1 ≤ config.maxDispatchAttempts) {P P' : NotifyPool}
    {a : Act Request Choice} (hstep : notifyStep config P a = some P') (h : StoreInv config P) :
    StoreInv config P' := by
  have houtbox := h.outbox.step hstep
  have hsafe := poolStep_safe (handle_store config) hstep h.safe
  -- a request starts, or answers one of its calls
  obtain ⟨req, -, rfl⟩ | ⟨i, c, th, op, k, -, hth, hprog, hallow, rfl⟩ := poolStep_cases hstep
  · -- A request that starts has made no call.
    have hlog : ∀ {u : NotifyThread}, u ∈ P.threads ++ [⟨req, [], handle config req⟩] →
        u ∈ P.threads ∨ u.log = [] := fun hu => mem_started hu
    constructor
    case outbox => exact houtbox
    case safe => exact hsafe
    case rows => exact h.rows
    case claimed =>
      intro u hu copy hcopy
      rcases hlog hu with hu | hnil
      · exact h.claimed u hu copy hcopy
      · simp [Claimed, hnil] at hcopy
    case reserved =>
      intro u hu id hid
      rcases hlog hu with hu | hnil
      · exact h.reserved u hu id hid
      · simp [Reserves, hnil, Notify.reserved] at hid
    case listed =>
      intro u hu e he
      rcases hlog hu with hu | hnil
      · exact h.listed u hu e he
      · simp [Listed, hnil] at he
    case saved =>
      intro u hu n hn
      rcases hlog hu with hu | hnil
      · exact h.saved u hu n hn
      · simp [Saved, hnil] at hn
    case named => exact h.named
  · constructor
    case outbox => exact houtbox
    case safe => exact hsafe
    case rows => exact fun id r hr => h.rows_step hth hprog hmax hr
    case claimed => exact fun u hu copy hcopy => h.claimed_step hth hprog hu hcopy
    case reserved => exact fun u hu id hid => h.reserved_step hth hprog hallow hu hid
    case listed => exact fun u hu e he => h.listed_step hth hprog hu he
    case saved => exact fun u hu n hn => h.saved_step hth hprog hu hn
    case named => exact fun id r hr hstatus => h.named_step hth hprog hr hstatus

/-! ## The index -/

/-- The index and the rows are in bijection: a key leads to the row that carries it, and
    every row is found under its key. -/
def MemoryStore.Indexed (s : MemoryStore) : Prop :=
  ∀ key id, s.idOfKey key = some id ↔
    ∃ r, s.db.outbox.get? id = some r ∧ r.idempotencyKey = key

/-- The empty index is exact. -/
theorem indexed_empty : MemoryStore.empty.Indexed := by
  simp [MemoryStore.Indexed, MemoryStore.empty, MemoryStore.idOfKey, Store.empty]

/-- The index knows a key exactly when a row carries it. -/
theorem MemoryStore.Indexed.isSome_iff {s : MemoryStore} (h : s.Indexed) (key : String) :
    (s.idOfKey key).isSome = s.db.outbox.rows.any fun r => decide (r.idempotencyKey = key) := by
  rw [Bool.eq_iff_iff, Option.isSome_iff_exists, List.any_eq_true]
  constructor
  · rintro ⟨id, hid⟩
    obtain ⟨r, hr, hkey⟩ := (h key id).mp hid
    exact ⟨r, Table.mem_of_get? hr, by simpa using hkey⟩
  · rintro ⟨r, hr, hkey⟩
    exact ⟨r.id, (h key r.id).mpr ⟨r, Table.get?_of_mem hr, by simpa using hkey⟩⟩

/-- While the maps are in step a call has the same answer and the same effect on the rows
    with and without the index. -/
theorem performMemory_db {s : MemoryStore} (h : s.Indexed) (op : Call) (c : Choice) :
    perform op c s.db = ((performMemory op c s).1, (performMemory op c s).2.db) := by
  -- only the two calls that write a row ask for its key
  cases op with
  | appendNotificationOutbox row =>
    simp only [perform, performMemory, MemoryStore.appendNotificationOutbox, h.isSome_iff]
    split
    · rfl
    · rfl
  | updateNotificationOutbox row =>
    simp only [perform, performMemory, MemoryStore.updateNotificationOutbox]
    split
    · rfl
    · split
      · rfl
      · rfl
  | _ => rfl

/-- The index aside, both stores serve a call alike. -/
theorem serveMemory_db {s : MemoryStore} (h : s.Indexed) (op : Call) (c : Choice) :
    serve op c s.db = ((serveMemory op c s).1, (serveMemory op c s).2.db) := by
  simp only [serve, serveMemory, performMemory_db h]
  cases c.failure with
  | none => rfl
  | some e =>
    by_cases happlied : c.applied = true
    · simp only [happlied, if_true]
    · simp only [happlied]
      rfl

/-- The identifier that the index has for a key, after one was entered. -/
theorem idOfKey_set {s : MemoryStore} {db : Store} (key id key' : String) :
    (MemoryStore.mk db (s.notificationOutboxIdempotency.set (key, id))).idOfKey key' =
      if key' = key then some id else s.idOfKey key' := by
  unfold MemoryStore.idOfKey
  rw [Table.get?_set]
  split
  · rfl
  · rfl

/-- The index is not touched, and every row keeps its key. -/
theorem MemoryStore.Indexed.of_keys {s s' : MemoryStore} (h : s.Indexed)
    (hindex : s'.notificationOutboxIdempotency = s.notificationOutboxIdempotency)
    (hkeys : ∀ id, (s'.db.outbox.get? id).map NotificationOutboxRecord.idempotencyKey =
      (s.db.outbox.get? id).map NotificationOutboxRecord.idempotencyKey) : s'.Indexed := by
  intro key id
  have hid : s'.idOfKey key = s.idOfKey key := by
    unfold MemoryStore.idOfKey
    rw [hindex]
  rw [hid, h key id, ← Option.map_eq_some_iff, ← Option.map_eq_some_iff, hkeys]

/-- A row that is new under its identifier is appended. -/
theorem MemoryStore.Indexed.append {s : MemoryStore} (h : s.Indexed)
    {row : NotificationOutboxRecord} (hnew : s.db.outbox.get? row.id = none) :
    (s.appendNotificationOutbox row).2.Indexed := by
  unfold MemoryStore.appendNotificationOutbox
  split
  · exact h
  · rename_i habsent
    rw [Bool.not_eq_true, Option.isSome_eq_false_iff, Option.isNone_iff_eq_none] at habsent
    intro key id
    rw [idOfKey_set]
    show _ ↔ ∃ r, (s.db.outbox.set row).get? id = some r ∧ _
    rw [Table.get?_set]
    by_cases hid : id = row.id
    · -- Under the new identifier there is the new key only.
      subst hid
      rw [if_pos rfl]
      by_cases hkey : key = row.idempotencyKey
      · simp [hkey]
      · rw [if_neg hkey, h key row.id]
        simp [hnew, Ne.symm hkey]
    -- another identifier keeps its row, and has another key, too
    · rw [if_neg hid]
      by_cases hkey : key = row.idempotencyKey
      · rw [if_pos hkey]
        constructor
        · intro heq
          cases heq
          exact absurd rfl hid
        · intro hrow
          have hfound := (h key id).mpr hrow
          rw [hkey, habsent] at hfound
          cases hfound
      · rw [if_neg hkey]
        exact h key id

/-- A row is overwritten by one with the same key. -/
theorem MemoryStore.Indexed.update {s : MemoryStore} (h : s.Indexed)
    {row prev : NotificationOutboxRecord} (hprev : s.db.outbox.get? row.id = some prev)
    (hkey : row.idempotencyKey = prev.idempotencyKey) :
    (s.updateNotificationOutbox row).Indexed := by
  unfold MemoryStore.updateNotificationOutbox
  rw [hprev]
  -- the row is stored under its own key, so the index stays
  dsimp only
  rw [if_neg (by simp [hkey])]
  refine h.of_keys rfl fun id => ?_
  show ((s.db.outbox.set row).get? id).map _ = _
  rw [Table.get?_set]
  -- under its own identifier, and under any other
  by_cases hid : id = row.id
  · subst hid
    rw [if_pos rfl, hprev, Option.map_some, Option.map_some, hkey]
  · rw [if_neg hid]

/-- A call that takes effect keeps the maps in step, when it appends new rows only and
    overwrites a row by one with the same key. -/
theorem MemoryStore.Indexed.perform {s : MemoryStore} (h : s.Indexed) {op : Call} {c : Choice}
    (hc : c.Effective)
    (happend : ∀ row, op = .appendNotificationOutbox row → s.db.outbox.get? row.id = none)
    (hupdate : ∀ row, op = .updateNotificationOutbox row → ∃ prev,
      s.db.outbox.get? row.id = some prev ∧ row.idempotencyKey = prev.idempotencyKey) :
    (performMemory op c s).2.Indexed := by
  -- the two writes of a row keep the index by lemmas of their own
  by_cases hwrites : op.writesOutbox = true
  · cases op with
    | appendNotificationOutbox row => exact h.append (happend row rfl)
    | updateNotificationOutbox row =>
      obtain ⟨prev, hprev, hkey⟩ := hupdate row rfl
      exact h.update hprev hkey
    | _ => cases hwrites
  · -- a call that writes no row by itself may mark rows, and marked rows keep their keys
    have hindex : (performMemory op c s).2.notificationOutboxIdempotency =
        s.notificationOutboxIdempotency := by
      cases op with
      | appendNotificationOutbox row => exact absurd rfl hwrites
      | updateNotificationOutbox row => exact absurd rfl hwrites
      | _ => rfl
    refine h.of_keys hindex fun id => ?_
    have hdb : (performMemory op c s).2.db = (Notify.perform op c s.db).2 := by
      rw [performMemory_db h]
    rw [hdb]
    rcases perform_outbox op hc s.db id with hsame | ⟨row, rfl, -⟩ | ⟨row, rfl, -⟩ |
      ⟨r, r', hold, hnew, hmarked⟩
    · rw [hsame]
    · exact absurd rfl hwrites
    · exact absurd rfl hwrites
    · rw [hold, hnew, Option.map_some, Option.map_some, hmarked.sameContent.2.1]

/-- What holds over the in-memory repository in every run. -/
structure MemoryInv (config : Config) (P : MemoryPool) : Prop where
  indexed : P.store.Indexed
  inv : StoreInv config (P.mapStore MemoryStore.db)

/-- The empty store in memory keeps the invariant. -/
theorem memoryInv_empty (config : Config) : MemoryInv config ⟨MemoryStore.empty, []⟩ :=
  ⟨indexed_empty, storeInv_empty config⟩

/-- Every step keeps it, with its index. -/
theorem memoryInv_step {config : Config} (hmax : 1 ≤ config.maxDispatchAttempts)
    {P P' : MemoryPool} {a : Act Request Choice} (hstep : memoryStep config P a = some P')
    (h : MemoryInv config P) : MemoryInv config P' := by
  -- without the index, the store in memory takes the step of the store
  have hdb : notifyStep config (P.mapStore MemoryStore.db) a = some (P'.mapStore MemoryStore.db) :=
    poolStep_mapStore (W := memoryWorld) (fun _ _ hallow => hallow)
      (fun op c => serveMemory_db h.indexed op c) hstep
  refine ⟨?_, h.inv.step hmax hdb⟩
  obtain ⟨req, -, rfl⟩ | ⟨i, c, th, op, k, -, hth, hprog, -, rfl⟩ := poolStep_cases hstep
  · exact h.indexed
  · -- What the monitors say about the call is about the rows without the index.
    have happend : ∀ row, op = .appendNotificationOutbox row →
        P.store.db.outbox.get? row.id = none :=
      fun row hop => (h.inv.outbox.append_new hth hprog hop).2
    have hupdate : ∀ row, op = .updateNotificationOutbox row → ∃ prev,
        P.store.db.outbox.get? row.id = some prev ∧ row.idempotencyKey = prev.idempotencyKey := by
      intro row hop
      obtain ⟨prev, hprev, hsame⟩ := h.inv.outbox.update_old hth hprog hop
      exact ⟨prev, hprev, hsame.2.1⟩
    -- a call that fails may have been carried out, or not
    show (serveMemory op c P.store).2.Indexed
    unfold serveMemory
    split
    · rename_i hfail
      exact h.indexed.perform (.inl hfail) happend hupdate
    · by_cases happlied : c.applied = true
      · simp only [happlied, if_true]
        exact h.indexed.perform (.inr happlied) happend hupdate
      · simp only [happlied]
        exact h.indexed

/-- In every state that the services reach over the in-memory repository, whatever requests
    are in progress and wherever a call was rejected: the index and the rows are in bijection,
    a row is processing exactly when it has `processingStartedAt`, no row has failed more often
    than is allowed, and a dispatched row names a stored notification with its content. -/
theorem outbox_representation (config : Config) (hmax : 1 ≤ config.maxDispatchAttempts)
    (ms : List (Move MemoryPool (Act Request Choice))) (P : MemoryPool)
    (run : Run (memoryStep config) ⟨MemoryStore.empty, []⟩ ms P) :
    (∀ key id, P.store.idOfKey key = some id ↔
      ∃ r, P.store.db.outbox.get? id = some r ∧ r.idempotencyKey = key) ∧
    ∀ id r, P.store.db.outbox.get? id = some r →
      (r.status = .processing ↔ r.processingStartedAt.isSome) ∧
      r.attempts ≤ config.maxDispatchAttempts ∧
      (r.status = .dispatched → ∃ nid n, r.dispatchedNotificationId = some nid ∧
        P.store.db.notifications.get? nid = some n ∧ n.eventType = r.eventType ∧
        n.recipientId = r.recipientId ∧ n.channel = r.channel ∧ n.payload = r.payload) := by
  have hinv : MemoryInv config P := run.invariant (C := fun _ => True) (fun _ _ => trivial)
    (memoryInv_empty config) fun _ hstep _ hP => memoryInv_step hmax hstep hP
  refine ⟨hinv.indexed, fun id r hr => ?_⟩
  have hrow := hinv.inv.rows id r hr
  refine ⟨hrow.processing, hrow.bounded, fun hstatus => ?_⟩
  obtain ⟨nid, n, hnid, hn, hcontent⟩ := hinv.inv.named id r hr hstatus
  simp only [NotificationEvent.content, NotificationOutboxRecord.content, Content.mk.injEq]
    at hcontent
  exact ⟨nid, n, hnid, hn, hcontent⟩

/-- A dispute is put under review, and a tick dispatches the rows of its notifications. -/
def sampleDispatched : List (Act Request Choice) :=
  .spawn (.occurrence sampleReview) :: (sampleEnqueue "nox_" 0).map (.advance 0) ++
    .spawn .fanoutTick :: (sampleFanout 8).map (.advance 1)

/-- Some row is dispatched. -/
def hasDispatched (P : MemoryPool) : Bool :=
  P.store.db.outbox.rows.any fun r => decide (r.status = .dispatched)

theorem outbox_representation_dispatched :
    ∃ ms P, Run (memoryStep sampleConfig) ⟨MemoryStore.empty, []⟩ ms P ∧
      ∃ id r, P.store.db.outbox.get? id = some r ∧ r.status = .dispatched ∧
        P.store.idOfKey r.idempotencyKey = some id ∧ r.processingStartedAt = none ∧
        ∃ nid n, r.dispatchedNotificationId = some nid ∧
          P.store.db.notifications.get? nid = some n ∧ n.payload = r.payload := by
  obtain ⟨ms, P, run, hp⟩ := exists_run_of_replay sampleDispatched
    (fun r => hasDispatched r.2)
    (by decide +kernel :
      (replay (memoryStep sampleConfig) ⟨MemoryStore.empty, []⟩ _ []).any _ = true)
  simp only [hasDispatched, List.any_eq_true, decide_eq_true_eq] at hp
  obtain ⟨r, hmem, hstatus⟩ := hp
  -- the dispatched row of the replay
  have hr := Table.get?_of_mem hmem
  obtain ⟨hindex, hrows⟩ := outbox_representation sampleConfig (by decide) ms P run
  obtain ⟨hprocessing, -, hnamed⟩ := hrows r.id r hr
  obtain ⟨nid, n, hnid, hn, -, -, -, hpayload⟩ := hnamed hstatus
  refine ⟨ms, P, run, r.id, r, hr, hstatus, (hindex _ _).mpr ⟨r, hr, rfl⟩, ?_, nid, n, hnid, hn,
    hpayload⟩
  -- a row that is dispatched is not being processed
  cases hstarted : r.processingStartedAt with
  | none => rfl
  | some t =>
    rw [hstarted, hstatus] at hprocessing
    cases hprocessing.mpr rfl

end Bluesafe.Notify
