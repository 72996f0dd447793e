import Bluesafe.Spec.Delivery

/-!
# The outbox never regresses

The fan-out worker claims pending rows, stores the notification of each one and writes the
row back from the copy it claimed. A worker whose processing has become stale loses its
rows to another one and does not know it: what it writes back may be out of date.

`serve_outbox` says what one call may do to a row. That no row is lost, and that a
dispatched row names a stored notification, holds in every run (`OutboxInv`).
`WritesBackCurrent` is what the missing check would ensure: a failed dispatch or a retry is
not written over a dispatched row, nor with more attempts than the stored row accounts for.
-/

namespace Bluesafe.Notify

open Async Transition
open Bluesafe.Ops (Time JsonObject BluesafeAuth Reply)

/-! ## Rows and copies -/

/-- The fields that no operation changes. -/
def SameContent (r r' : NotificationOutboxRecord) : Prop :=
  r'.id = r.id ∧ r'.idempotencyKey = r.idempotencyKey ∧ r'.eventType = r.eventType ∧
    r'.recipientId = r.recipientId ∧ r'.channel = r.channel ∧ r'.payload = r.payload ∧
    r'.createdAt = r.createdAt

theorem SameContent.refl (r : NotificationOutboxRecord) : SameContent r r :=
  ⟨rfl, rfl, rfl, rfl, rfl, rfl, rfl⟩

/-- Content is compared in both directions. -/
theorem SameContent.symm {r r' : NotificationOutboxRecord} (h : SameContent r r') :
    SameContent r' r := by
  obtain ⟨h₁, h₂, h₃, h₄, h₅, h₆, h₇⟩ := h
  exact ⟨h₁.symm, h₂.symm, h₃.symm, h₄.symm, h₅.symm, h₆.symm, h₇.symm⟩

/-- And over a third row. -/
theorem SameContent.trans {r r' r'' : NotificationOutboxRecord} (h : SameContent r r')
    (h' : SameContent r' r'') : SameContent r r'' := by
  obtain ⟨h₁, h₂, h₃, h₄, h₅, h₆, h₇⟩ := h
  obtain ⟨k₁, k₂, k₃, k₄, k₅, k₆, k₇⟩ := h'
  exact ⟨k₁.trans h₁, k₂.trans h₂, k₃.trans h₃, k₄.trans h₄, k₅.trans h₅, k₆.trans h₆,
    k₇.trans h₇⟩

/-- The request has claimed or read this copy of a row. -/
def Holds (l : NotifyLog) (copy : NotificationOutboxRecord) : Prop :=
  (∃ limit now rows, (⟨.claimNotificationOutboxPending limit now, .ok rows⟩ :
    Event calls String) ∈ l ∧ copy ∈ rows) ∨
  ∃ id, (⟨.getNotificationOutbox id, .ok (some copy)⟩ : Event calls String) ∈ l

/-- A request keeps the copy that it holds. -/
theorem Holds.mono {l l' : NotifyLog} {copy : NotificationOutboxRecord} (h : Holds l copy)
    (hl : l <:+ l') : Holds l' copy := by
  rcases h with ⟨limit, now, rows, hev, hcopy⟩ | ⟨id, hev⟩
  · exact .inl ⟨limit, now, rows, hl.mem hev, hcopy⟩
  · exact .inr ⟨id, hl.mem hev⟩

/-- The newest call was rejected. -/
def newestRejected : NotifyLog → Bool
  | ⟨_, .error _⟩ :: _ => true
  | _ => false

/-- The calls that write a row of the outbox as a whole. -/
def Call.writesOutbox : Call → Bool
  | .appendNotificationOutbox _ => true
  | .updateNotificationOutbox _ => true
  | _ => false

/-- What a row that is written back may be: dispatched, with a notification that was stored;
    the failure of a dispatch; or the retry of an operator. -/
def WriteBack (config : Config) (req : Request) (l : NotifyLog)
    (row : NotificationOutboxRecord) : Prop :=
  (req = .fanoutTick ∧ row.status = .dispatched ∧ ∃ n : NotificationEvent,
    (⟨.saveNotification n, .ok ()⟩ : Event calls String) ∈ l ∧
      row.dispatchedNotificationId = some n.id) ∨
  (req = .fanoutTick ∧ newestRejected l = true ∧
    (row.status = .dead ∧ config.maxDispatchAttempts ≤ row.attempts ∨ row.status = .pending)) ∨
  ((∃ auth id, req = .retryOutbox auth id) ∧ row.status = .pending ∧ row.attempts = 0)

/-- A row is appended under a new identifier, and only the copy of a row is written back. -/
def fanoutOk (config : Config) (req : Request) (l : NotifyLog) : Call → Prop
  | .appendNotificationOutbox row => Reserves l row.id ∧ row.status = .pending ∧ row.attempts = 0
  | .updateNotificationOutbox row =>
    (∃ copy, Holds l copy ∧ SameContent copy row) ∧ WriteBack config req l row
  | _ => True

/-! ## Programs that do not write the outbox -/

/-- The monitor that accepts every call but these. -/
def noOutboxWrite (_ : NotifyLog) (op : Call) : Prop :=
  op.writesOutbox = false

/-- The program writes no row of the outbox, and when it throws its newest call was
    rejected. -/
def Tidy {α : Type} (p : NotifyM α) : Prop :=
  ∀ l, wp (monitor noOutboxWrite) p (fun _ _ => True) (fun _ l' => newestRejected l' = true) l

namespace Tidy

variable {α β : Type}

theorem pure {a : α} : Tidy (Pure.pure a) := fun _ => trivial

theorem call {op : Call} (hop : op.writesOutbox = false) : Tidy (invoke op) :=
  fun _ => wp_monitor_call hop (fun _ => trivial) fun _ => rfl

theorem bind {p : NotifyM β} {f : β → NotifyM α} (hp : Tidy p) (hf : ∀ b, Tidy (f b)) :
    Tidy (p >>= f) :=
  fun l => wp_monitor_bind (hp l) fun b l' _ _ => hf b l'

theorem forM {xs : List β} {f : β → NotifyM PUnit} (hf : ∀ x, Tidy (f x)) :
    Tidy (ForM.forM xs f) := by
  intro l
  have hstep : ∀ x ∈ xs, ∀ l' : NotifyLog, True → wp (monitor noOutboxWrite) (f x)
      (fun _ _ => True) (fun _ l'' => newestRejected l'' = true) l' :=
    fun x _ l' _ => hf x l'
  exact wp_forM_inv _ (monitor_mono _) xs f hstep l trivial

/-- In the monitor of the outbox. -/
theorem weaken {p : NotifyM α} (hp : Tidy p) (config : Config) (req : Request) (l : NotifyLog) :
    wp (monitor (fanoutOk config req)) p (fun _ _ => True) (fun _ l' => newestRejected l' = true)
      l := by
  refine wp_monitor_weaken (fun l' op hop => ?_) (hp l)
  cases op with
  | appendNotificationOutbox row => exact nomatch hop
  | updateNotificationOutbox row => exact nomatch hop
  | _ => trivial

/-- A program that leaves the outbox alone meets the monitor. -/
theorem safe {p : NotifyM α} (hp : Tidy p) (config : Config) (req : Request) (l : NotifyLog) :
    Safe (fanoutOk config req) p l :=
  wp_mono _ _ (monitor_mono _) (fun _ _ _ => trivial) (fun _ _ _ => trivial)
    (hp.weaken config req l)

end Tidy

/-- Audit entries are no rows of the outbox. -/
theorem writeAudit_tidy {entityType entityId action actorId : String}
    {after metadata : Option JsonObject} :
    Tidy (writeAudit entityType entityId action actorId after metadata) := by
  refine Tidy.bind (Tidy.call rfl) fun _ => Tidy.bind (Tidy.call rfl) fun _ => ?_
  exact Tidy.call rfl

/-- Nor are events. -/
theorem emitEvent_tidy {eventType entityType entityId : String} {payload : JsonObject} :
    Tidy (emitEvent eventType entityType entityId payload) := by
  refine Tidy.bind (Tidy.call rfl) fun _ => Tidy.bind (Tidy.call rfl) fun _ => ?_
  exact Tidy.bind (Tidy.call rfl) fun _ => Tidy.call rfl

/-- The delivery of a notification leaves the outbox alone. -/
theorem processOne_tidy {config : Config} {n : NotificationEvent} :
    Tidy (processOne config n) := by
  refine Tidy.bind (Tidy.call rfl) fun result => Tidy.bind (Tidy.call rfl) fun t => ?_
  -- Every branch saves the notification; the final ones also write the two logs.
  have hlogs : ∀ {n' : NotificationEvent} {action eventType : String}
      {metadata : Option JsonObject} {payload : JsonObject},
      Tidy (do
        saveNotification n'
        writeAudit "notification" n.id action "system" none metadata
        emitEvent eventType "notification" n.id payload) :=
    Tidy.bind (Tidy.call rfl) fun _ => Tidy.bind writeAudit_tidy fun _ => emitEvent_tidy
  split
  · exact hlogs
  · split
    · exact hlogs
    · exact Tidy.bind (Tidy.call rfl) fun _ => Tidy.call rfl

/-- So does a batch of deliveries. -/
theorem processBatch_tidy {config : Config} : Tidy (processBatch config) := by
  refine Tidy.bind (Tidy.call rfl) fun _ => Tidy.bind (Tidy.call rfl) fun _ => ?_
  exact Tidy.forM fun _ => processOne_tidy

/-- So does the direct way. -/
theorem enqueueDirectly_tidy {now : Time} {it : FanoutNotificationItem} :
    Tidy (enqueueDirectly now it) :=
  Tidy.bind (Tidy.call rfl) fun _ => Tidy.bind (Tidy.call rfl) fun _ => emitEvent_tidy

/-- So does a notification that is sent by a request. -/
theorem sendOne_tidy {body : SendBody} {now : Time} {action actor : String} {extra : JsonObject}
    {channel : NotificationChannel} {id : String} :
    Tidy (sendOne body now action actor extra channel id) :=
  Tidy.bind (Tidy.call rfl) fun _ => Tidy.bind writeAudit_tidy fun _ => emitEvent_tidy

/-- The route of one channel. -/
theorem sendNotification_tidy {body : SendBody} {channel : NotificationChannel} :
    Tidy (sendNotification body channel) := by
  refine Tidy.bind (Tidy.call rfl) fun _ => Tidy.bind (Tidy.call rfl) fun _ => ?_
  exact Tidy.bind sendOne_tidy fun _ => Tidy.pure

/-- The route of many channels. -/
theorem dispatchAll_tidy {auth : Option BluesafeAuth} {body : SendBody} {now : Time}
    {channels : List NotificationChannel} : Tidy (dispatchAll auth body now channels) := by
  induction channels with
  | nil => exact Tidy.pure
  | cons channel rest ih =>
    refine Tidy.bind (Tidy.call rfl) fun _ => Tidy.bind sendOne_tidy fun _ => ?_
    exact Tidy.bind ih fun _ => Tidy.pure

/-- The same with the default channels. -/
theorem dispatchNotifications_tidy {auth : Option BluesafeAuth} {body : SendBody}
    {channels : Option (List NotificationChannel)} :
    Tidy (dispatchNotifications auth body channels) :=
  Tidy.bind (Tidy.call rfl) fun _ => Tidy.bind dispatchAll_tidy fun _ => Tidy.pure

/-! ## Programs that write the outbox -/

/-- The body of the dispatch: when it throws, its newest call was rejected. -/
theorem fanOut_wp {config : Config} {row : NotificationOutboxRecord} {id : String} {t : Time}
    {l : NotifyLog} (hrow : Holds l row) :
    wp (monitor (fanoutOk config .fanoutTick)) (fanOut row id t) (fun _ _ => True)
      (fun _ l' => newestRejected l' = true) l := by
  have hsave : wp (monitor (fanoutOk config .fanoutTick))
      (saveNotification (row.toNotification id t))
      (fun _ l' => (⟨.saveNotification (row.toNotification id t), .ok ()⟩ :
        Event calls String) ∈ l')
      (fun _ l' => newestRejected l' = true) l :=
    wp_monitor_call trivial (fun _ => List.mem_cons_self) fun _ => rfl
  refine wp_monitor_bind hsave fun _ l₁ hl₁ hsaved => ?_
  refine wp_monitor_bind (emitEvent_tidy.weaken config .fanoutTick l₁) fun _ l₂ hl₂ _ => ?_
  -- The row is marked with the notification that was stored two steps before.
  refine wp_monitor_call ⟨⟨row, hrow.mono (hl₁.trans hl₂), ?_⟩, .inl ⟨rfl, rfl, _, hl₂.mem hsaved, rfl⟩⟩
    (fun _ => trivial) fun _ => rfl
  exact SameContent.refl row

/-- A failed row is written back by the worker that holds it, after a rejection. -/
theorem recordDispatchFailure_safe {config : Config} {row : NotificationOutboxRecord} {t : Time}
    {message : String} {l : NotifyLog} (hrow : Holds l row) (hrejected : newestRejected l = true) :
    Safe (fanoutOk config .fanoutTick)
      (recordDispatchFailure row config.maxDispatchAttempts t message) l := by
  have hback : WriteBack config .fanoutTick l
      (row.dispatchFailed config.maxDispatchAttempts message t) := by
    refine .inr (.inl ⟨rfl, hrejected, ?_⟩)
    by_cases hdead : row.attempts + 1 ≥ config.maxDispatchAttempts
    · exact .inl ⟨if_pos hdead, hdead⟩
    · exact .inr (if_neg hdead)
  refine Gives.call_then ⟨⟨row, hrow, SameContent.refl row⟩, hback⟩ fun _ l₁ _ => ?_
  split
  · exact emitEvent_tidy.safe config .fanoutTick l₁
  · exact Gives.pure trivial

/-- A claimed row is written back as fanned out or as failed. -/
theorem dispatchOneOutboxRow_safe {config : Config} {row : NotificationOutboxRecord} {t : Time}
    {l : NotifyLog} (hrow : Holds l row) :
    Safe (fanoutOk config .fanoutTick)
      (dispatchOneOutboxRow config.maxDispatchAttempts t row) l := by
  refine Gives.call_then trivial fun id l₁ hl₁ => ?_
  refine wp_monitor_tryCatch (fanOut_wp (hrow.mono hl₁)) fun message l₂ hl₂ hrejected => ?_
  exact recordDispatchFailure_safe (hrow.mono (hl₁.trans hl₂)) hrejected

/-- A tick writes back only the rows that it has claimed. -/
theorem fanoutTick_safe (config : Config) :
    Safe (fanoutOk config .fanoutTick) (fanoutTick config) [] := by
  refine Gives.tryCatch ?_ fun _ _ _ => Gives.pure trivial
  refine Gives.call_then trivial fun now l₁ _ => Gives.call_then trivial fun today l₂ _ => ?_
  refine Gives.call_then trivial fun _ l₃ _ => Gives.call_read trivial fun claimed l₄ _ hev => ?_
  refine Gives.forM fun row l₅ hrow hl₅ => dispatchOneOutboxRow_safe ?_
  exact .inl ⟨_, _, _, hl₅.mem hev, hrow⟩

/-- A row of the outbox is appended as a new one. -/
theorem enqueueToOutbox_safe {config : Config} {req : Request} {now : Time}
    {it : FanoutNotificationItem} {l : NotifyLog} :
    Safe (fanoutOk config req) (enqueueToOutbox config now it) l := by
  refine Gives.call_bind trivial fun id => Gives.call_then ⟨rfl, rfl, rfl⟩ fun inserted l₁ _ => ?_
  split
  · exact emitEvent_tidy.safe config req l₁
  · exact Gives.pure trivial

/-- So are all rows of an occurrence. -/
theorem enqueueOccurrence_safe {config : Config} {o : Occurrence} {l : NotifyLog} :
    Safe (fanoutOk config (.occurrence o)) (enqueueOccurrence config o) l := by
  rcases enqueueOccurrence_cases config o with heq | heq <;> rw [heq]
  · refine Gives.call_then trivial fun now l₁ _ => ?_
    split
    · exact Gives.forM fun _ _ _ _ => enqueueToOutbox_safe
    · exact Gives.forM fun _ l₂ _ _ => enqueueDirectly_tidy.safe config (.occurrence o) l₂
  · exact Gives.pure trivial

/-- An operator puts back a row that was read. -/
theorem retryOutbox_safe {config : Config} {auth : Option BluesafeAuth} {outboxId : String}
    {l : NotifyLog} :
    Safe (fanoutOk config (.retryOutbox auth outboxId)) (retryOutbox auth outboxId) l := by
  refine Gives.call_read trivial fun read l₁ _ hev => ?_
  split
  · exact Gives.pure trivial
  · rename_i row
    split
    · exact Gives.pure trivial
    · refine Gives.call_then trivial fun t l₂ hl₂ => ?_
      have hcopy : Holds l₂ row := .inr ⟨outboxId, hl₂.mem hev⟩
      refine Gives.call_then ⟨⟨row, hcopy, SameContent.refl row⟩,
        .inr (.inr ⟨⟨auth, outboxId, rfl⟩, rfl, rfl⟩)⟩ fun _ l₃ _ => ?_
      exact Gives.bind (writeAudit_tidy.safe config _ l₃) fun _ _ _ _ => Gives.pure trivial

/-- Every request and worker meets the monitor. -/
theorem handle_fanout_safe (config : Config) (req : Request) :
    Safe (fanoutOk config req) (handle config req) [] := by
  cases req with
  | notificationTick =>
    refine Gives.map (Gives.tryCatch ?_ fun _ _ _ => Gives.pure trivial)
    exact processBatch_tidy.safe config .notificationTick []
  | fanoutTick => exact Gives.map (fanoutTick_safe config)
  | occurrence o => exact Gives.map enqueueOccurrence_safe
  | send body channel => exact Gives.map (sendNotification_tidy.safe config _ [])
  | dispatch auth body channels => exact Gives.map (dispatchNotifications_tidy.safe config _ [])
  | retryOutbox auth outboxId => exact Gives.map retryOutbox_safe

/-! ## What a call does to a row -/

/-- The call took effect. -/
def Choice.Effective (c : Choice) : Prop :=
  c.failure = none ∨ c.applied = true

instance (c : Choice) : Decidable c.Effective :=
  inferInstanceAs (Decidable (c.failure = none ∨ c.applied = true))

/-- A claim marks a pending row; a recovery marks one that is processing. -/
def Marked (r r' : NotificationOutboxRecord) : Prop :=
  (r.status = .pending ∧ ∃ now, r' = r.claimed now) ∨
    (r.status = .processing ∧ ∃ now, r' = r.recovered now)

/-- A claim changes the status only. -/
theorem Marked.sameContent {r r' : NotificationOutboxRecord} (h : Marked r r') :
    SameContent r r' := by
  rcases h with ⟨-, now, rfl⟩ | ⟨-, now, rfl⟩ <;> exact SameContent.refl r

/-- It counts no attempt. -/
theorem Marked.attempts {r r' : NotificationOutboxRecord} (h : Marked r r') :
    r'.attempts = r.attempts := by
  rcases h with ⟨-, now, rfl⟩ | ⟨-, now, rfl⟩ <;> rfl

/-- A marked row was not final and is not final. -/
theorem Marked.status {r r' : NotificationOutboxRecord} (h : Marked r r') :
    r.status ≠ .dispatched ∧ r'.status ≠ .dispatched ∧ r'.status ≠ .dead := by
  rcases h with ⟨hr, now, rfl⟩ | ⟨hr, now, rfl⟩ <;>
    simp [hr, NotificationOutboxRecord.claimed, NotificationOutboxRecord.recovered]

/-- A claimed row is stored and was pending. -/
theorem mem_pendingOutbox {s : Store} {limit : Nat} {r : NotificationOutboxRecord}
    (h : r ∈ s.pendingOutbox limit) : s.outbox.get? r.id = some r ∧ r.status = .pending := by
  have hmem := List.mem_of_mem_take h
  rw [List.mem_insertionSort, List.mem_filter, decide_eq_true_eq] at hmem
  exact ⟨Table.get?_of_mem hmem.1, hmem.2⟩

/-- What the effect of a call may be on the row under an identifier: it is appended, written
    back as a whole, or marked. -/
def RowEffect (op : Call) (c : Choice) (id : String)
    (old new : Option NotificationOutboxRecord) : Prop :=
  new = old ∨
  (∃ row, op = .appendNotificationOutbox row ∧ row.id = id ∧ new = some row) ∨
  (∃ row, op = .updateNotificationOutbox row ∧ row.id = id ∧ c.Effective ∧ new = some row) ∨
  ∃ r r', old = some r ∧ new = some r' ∧ Marked r r'

/-- The rows that a claim or a recovery writes are marked versions of stored rows. -/
theorem rowEffect_marks {op : Call} {c : Choice} {s : Store} {rows : List NotificationOutboxRecord}
    (hrows : ∀ r' ∈ rows, ∃ r, s.outbox.get? r'.id = some r ∧ Marked r r') (id : String) :
    RowEffect op c id (s.outbox.get? id) ((s.setOutbox rows).outbox.get? id) := by
  rcases Table.get?_foldl_set s.outbox rows id with h | ⟨r', hr', rfl, h⟩
  · exact .inl h
  · obtain ⟨r, hr, hmarked⟩ := hrows r' hr'
    exact .inr (.inr (.inr ⟨r, r', hr, h, hmarked⟩))

/-- What a call does to one row of the outbox. -/
theorem perform_outbox (op : Call) {c : Choice} (hc : c.Effective) (s : Store) (id : String) :
    RowEffect op c id (s.outbox.get? id) ((perform op c s).2.outbox.get? id) := by
  -- one case for each call that writes rows; two of them mark many
  cases op with
  | appendNotificationOutbox row =>
    simp only [perform]
    split
    · exact .inl rfl
    · show RowEffect _ c id _ ((s.outbox.set row).get? id)
      rw [Table.get?_set]
      split
      · rename_i hid
        exact .inr (.inl ⟨row, rfl, hid.symm, rfl⟩)
      · exact .inl rfl
  | updateNotificationOutbox row =>
    show RowEffect _ c id _ ((s.outbox.set row).get? id)
    rw [Table.get?_set]
    split
    · rename_i hid
      exact .inr (.inr (.inl ⟨row, rfl, hid.symm, hc, rfl⟩))
    · exact .inl rfl
  -- a claim marks pending rows
  | claimNotificationOutboxPending limit now =>
    refine rowEffect_marks (fun r' hr' => ?_) id
    obtain ⟨r, hr, rfl⟩ := List.mem_map.mp hr'
    obtain ⟨hget, hpending⟩ := mem_pendingOutbox hr
    exact ⟨r, hget, .inl ⟨hpending, now, rfl⟩⟩
  -- a recovery marks rows that were being processed
  | recoverStaleNotificationOutboxProcessing staleBefore now =>
    refine rowEffect_marks (fun r' hr' => ?_) id
    obtain ⟨r, hr, rfl⟩ := List.mem_map.mp hr'
    obtain ⟨hmem, hstale⟩ := List.mem_filter.mp hr
    simp only [NotificationOutboxRecord.isStale, Bool.and_eq_true, decide_eq_true_eq] at hstale
    exact ⟨r, Table.get?_of_mem hmem, .inr ⟨hstale.1, now, rfl⟩⟩
  | _ => exact .inl rfl

/-- What a call, rejected or not, does to the row under an identifier. -/
theorem serve_outbox (op : Call) (c : Choice) (s : Store) (id : String) :
    RowEffect op c id (s.outbox.get? id) ((serve op c s).2.outbox.get? id) := by
  rcases serve_state op c s with ⟨heff, heq⟩ | heq
  · rw [heq]
    exact perform_outbox op heff s id
  · rw [heq]
    exact .inl rfl

/-- A row that is written back with effect is the row that is stored. -/
theorem get?_update {c : Choice} (hc : c.Effective) (s : Store) (row : NotificationOutboxRecord) :
    (serve (.updateNotificationOutbox row) c s).2.outbox.get? row.id = some row := by
  have hset : (s.outbox.set row).get? row.id = some row := Table.get?_set_self _ _
  unfold serve
  split
  · exact hset
  · rename_i e hfail
    have happlied : c.applied = true := by simpa [Choice.Effective, hfail] using hc
    simp only [happlied, if_true]
    exact hset

/-- No notification is ever removed. -/
theorem isSome_notifications_serve {op : Call} {c : Choice} {s : Store} {id : String}
    (h : (s.notifications.get? id).isSome) :
    ((serve op c s).2.notifications.get? id).isSome := by
  rcases serve_notifications op c s with heq | ⟨n, -, heq⟩
  · rw [heq]
    exact h
  · rw [heq, Table.get?_set]
    split
    · rfl
    · exact h

/-- A successful answer is the one of the call. -/
theorem answer_of_serve {op : Call} {c : Choice} {s : Store} {a : op.Res}
    (h : (serve op c s).1 = .ok a) : (perform op c s).1 = a := by
  unfold serve at h
  split at h
  · exact Except.ok.inj h
  · exact nomatch h

/-- A copy that a call returns is the copy of a stored row. -/
theorem holds_resume {op : Call} {c : Choice} {s : Store} {l : NotifyLog}
    {copy : NotificationOutboxRecord} (h : Holds (⟨op, (serve op c s).1⟩ :: l) copy) :
    Holds l copy ∨ ∃ r, s.outbox.get? copy.id = some r ∧ SameContent r copy := by
  rcases h with ⟨limit, now, rows, hev, hcopy⟩ | ⟨id, hev⟩
  -- the copy was claimed, now or before
  · rcases List.mem_cons.mp hev with hev | hev
    · obtain rfl : .claimNotificationOutboxPending limit now = op := congrArg Event.op hev
      simp only [Event.mk.injEq, heq_eq_eq, true_and] at hev
      obtain rfl := answer_of_serve hev.symm
      obtain ⟨r, hr, rfl⟩ := List.mem_map.mp hcopy
      exact .inr ⟨r, (mem_pendingOutbox hr).1, SameContent.refl r⟩
    · exact .inl (.inl ⟨limit, now, rows, hev, hcopy⟩)
  -- or it was looked up, now or before
  · rcases List.mem_cons.mp hev with hev | hev
    · obtain rfl : .getNotificationOutbox id = op := congrArg Event.op hev
      simp only [Event.mk.injEq, heq_eq_eq, true_and] at hev
      have hget : s.outbox.get? id = some copy := answer_of_serve hev.symm
      obtain rfl := Table.key_of_get? hget
      exact .inr ⟨copy, hget, SameContent.refl copy⟩
    · exact .inl (.inr ⟨id, hev⟩)

/-- A notification whose save was answered is stored. -/
theorem isSome_of_saved {op : Call} {c : Choice} {s : Store} {n : NotificationEvent}
    (h : (⟨.saveNotification n, .ok ()⟩ : Event calls String) = ⟨op, (serve op c s).1⟩) :
    ((serve op c s).2.notifications.get? n.id).isSome := by
  obtain rfl : .saveNotification n = op := congrArg Event.op h
  simp only [Event.mk.injEq, heq_eq_eq, true_and] at h
  unfold serve at h ⊢
  split at h
  · show ((s.notifications.set n).get? n.id).isSome
    rw [Table.get?_set_self]
    rfl
  · exact nomatch h

/-! ## What holds in every run -/

/-- The invariant of every run: requests own the identifiers they append, hold copies of
    stored rows, and have stored the notifications they have saved; a dispatched row names a
    stored notification, and a dead row counts enough attempts. -/
structure OutboxInv (config : Config) (P : NotifyPool) : Prop where
  safe : ∀ th ∈ P.threads, th.Safe (fanoutOk config)
  reserved : ∀ th ∈ P.threads, ∀ id, Reserves th.log id →
    P.store.outbox.get? id = none ∧ id ∈ P.store.issued
  own : ∀ id, AtMostOne (fun th => Reserves th.log id) P.threads
  held : ∀ th ∈ P.threads, ∀ copy, Holds th.log copy →
    ∃ r, P.store.outbox.get? copy.id = some r ∧ SameContent copy r
  saved : ∀ th ∈ P.threads, ∀ n : NotificationEvent,
    (⟨.saveNotification n, .ok ()⟩ : Event calls String) ∈ th.log →
      (P.store.notifications.get? n.id).isSome
  named : ∀ id r, P.store.outbox.get? id = some r → r.status = .dispatched →
    ∃ nid, r.dispatchedNotificationId = some nid ∧ (P.store.notifications.get? nid).isSome
  dead : ∀ id r, P.store.outbox.get? id = some r → r.status = .dead →
    config.maxDispatchAttempts ≤ r.attempts

namespace OutboxInv

variable {config : Config} {P : NotifyPool} {i : Nat} {th : NotifyThread} {op : Call} {c : Choice}
  {k : Except String op.Res → NotifyM (Option Reply)}

section Step

variable (h : OutboxInv config P) (hth : P.threads[i]? = some th) (hprog : th.prog = .await op k)
include h hth hprog

/-- The call of a thread is accepted by the monitor. -/
theorem accepted : fanoutOk config th.req th.log op :=
  (h.safe th (List.mem_of_getElem? hth)).ok_of_await hprog

/-- A row that is appended was not there. -/
theorem append_new {row : NotificationOutboxRecord} (hop : op = .appendNotificationOutbox row) :
    Reserves th.log row.id ∧ P.store.outbox.get? row.id = none := by
  have haccepted := h.accepted hth hprog
  rw [hop] at haccepted
  exact ⟨haccepted.1, (h.reserved th (List.mem_of_getElem? hth) row.id haccepted.1).1⟩

/-- A row that is written back is there, with the same content. -/
theorem update_old {row : NotificationOutboxRecord} (hop : op = .updateNotificationOutbox row) :
    ∃ r, P.store.outbox.get? row.id = some r ∧ SameContent r row := by
  have haccepted := h.accepted hth hprog
  rw [hop] at haccepted
  obtain ⟨⟨copy, hcopy, hsame⟩, -⟩ := haccepted
  obtain ⟨r, hr, hcontent⟩ := h.held th (List.mem_of_getElem? hth) copy hcopy
  rw [hsame.1]
  exact ⟨r, hr, hcontent.symm.trans hsame⟩

/-- No call removes a row or changes its content. -/
theorem content_step {id : String} {r : NotificationOutboxRecord}
    (hr : P.store.outbox.get? id = some r) :
    ∃ r', (serve op c P.store).2.outbox.get? id = some r' ∧ SameContent r r' := by
  rcases serve_outbox op c P.store id with hsame | ⟨row, hop, rfl, hnew⟩ | ⟨row, hop, rfl, -, hnew⟩ |
    ⟨r₀, r', hold, hnew, hmarked⟩
  · exact ⟨r, hsame.trans hr, .refl r⟩
  · rw [(h.append_new hth hprog hop).2] at hr
    exact nomatch hr
  · obtain ⟨r₀, hr₀, hcontent⟩ := h.update_old hth hprog hop
    rw [hr, Option.some.injEq] at hr₀
    subst hr₀
    exact ⟨row, hnew, hcontent⟩
  · rw [hr, Option.some.injEq] at hold
    subst hold
    exact ⟨r', hnew, hmarked.sameContent⟩

/-- A row that is not there appears only when the thread that owns the identifier appends
    it. -/
theorem absent_step {id : String} (hnone : P.store.outbox.get? id = none)
    (hown : ∀ row, op = .appendNotificationOutbox row → row.id ≠ id) :
    (serve op c P.store).2.outbox.get? id = none := by
  rcases serve_outbox op c P.store id with hsame | ⟨row, hop, hid, -⟩ | ⟨row, hop, rfl, -, -⟩ |
    ⟨r, r', hold, -, -⟩
  · exact hsame.trans hnone
  · exact absurd hid (hown row hop)
  · obtain ⟨r, hr, -⟩ := h.update_old hth hprog hop
    rw [hnone] at hr
    exact nomatch hr
  · rw [hnone] at hold
    exact nomatch hold

/-- An identifier that a request reserves stays free for it. -/
theorem reserved_step (hallow : world.allow op c P.store = true) {u : NotifyThread}
    (hu : u ∈ P.threads.set i (th.resume op (serve op c P.store).1 k)) {id : String}
    (hid : Reserves u.log id) :
    (serve op c P.store).2.outbox.get? id = none ∧ id ∈ (serve op c P.store).2.issued := by
  rcases mem_set_cases hu with rfl | ⟨j, hij, hj⟩
  · rcases reserves_resume hallow hid with ⟨hop, hid⟩ | ⟨⟨tag, hop⟩, hfresh, hissued⟩
    · obtain ⟨hnone, hissued⟩ := h.reserved th (List.mem_of_getElem? hth) id hid
      exact ⟨h.absent_step hth hprog hnone (by simp [hop]), mem_issued_serve hissued⟩
    · obtain ⟨-, -, hnone⟩ := isFresh_iff.mp hfresh
      exact ⟨h.absent_step hth hprog hnone (by simp [hop]), hissued⟩
  · obtain ⟨hnone, hissued⟩ := h.reserved u (List.mem_of_getElem? hj) id hid
    refine ⟨h.absent_step hth hprog hnone fun row hop heq => ?_, mem_issued_serve hissued⟩
    -- Two threads would own the identifier.
    have hown := (h.append_new hth hprog hop).1
    rw [heq] at hown
    exact hij (h.own id i j th u hth hj hown hid)

/-- The row that a request holds stays stored, with its content. -/
theorem held_step {u : NotifyThread}
    (hu : u ∈ P.threads.set i (th.resume op (serve op c P.store).1 k))
    {copy : NotificationOutboxRecord} (hcopy : Holds u.log copy) :
    ∃ r, (serve op c P.store).2.outbox.get? copy.id = some r ∧ SameContent copy r := by
  -- The row of a copy is kept, whichever thread has the copy.
  have hkept : ∀ r, P.store.outbox.get? copy.id = some r → SameContent copy r →
      ∃ r', (serve op c P.store).2.outbox.get? copy.id = some r' ∧ SameContent copy r' := by
    intro r hr hsame
    obtain ⟨r', hr', hsame'⟩ := h.content_step hth hprog hr
    exact ⟨r', hr', hsame.trans hsame'⟩
  have hold : ∀ v ∈ P.threads, Holds v.log copy →
      ∃ r', (serve op c P.store).2.outbox.get? copy.id = some r' ∧ SameContent copy r' := by
    intro v hv hcopy
    obtain ⟨r, hr, hsame⟩ := h.held v hv copy hcopy
    exact hkept r hr hsame
  rcases mem_set_resume hu with rfl | hu
  · rcases holds_resume hcopy with hcopy | ⟨r, hr, hsame⟩
    · exact hold th (List.mem_of_getElem? hth) hcopy
    · exact hkept r hr hsame.symm
  · exact hold u hu hcopy

omit hprog in
/-- A notification that was saved stays stored. -/
theorem saved_step {u : NotifyThread}
    (hu : u ∈ P.threads.set i (th.resume op (serve op c P.store).1 k)) {n : NotificationEvent}
    (hsaved : (⟨.saveNotification n, .ok ()⟩ : Event calls String) ∈ u.log) :
    ((serve op c P.store).2.notifications.get? n.id).isSome := by
  rcases mem_set_resume hu with rfl | hu
  · rcases List.mem_cons.mp hsaved with hev | hev
    · exact isSome_of_saved hev
    · exact isSome_notifications_serve (h.saved th (List.mem_of_getElem? hth) n hev)
  · exact isSome_notifications_serve (h.saved u hu n hsaved)

/-- A dispatched row names a notification that is stored. -/
theorem named_step {id : String} {r : NotificationOutboxRecord}
    (hr : (serve op c P.store).2.outbox.get? id = some r) (hstatus : r.status = .dispatched) :
    ∃ nid, r.dispatchedNotificationId = some nid ∧
      ((serve op c P.store).2.notifications.get? nid).isSome := by
  have haccepted := h.accepted hth hprog
  -- the row is as before, new, written by a request, or marked by a worker
  rcases serve_outbox op c P.store id with hsame | ⟨row, rfl, -, hnew⟩ | ⟨row, rfl, -, -, hnew⟩ |
    ⟨r₀, r', -, hnew, hmarked⟩
  · obtain ⟨nid, hnid, hsome⟩ := h.named id r (hsame.symm.trans hr) hstatus
    exact ⟨nid, hnid, isSome_notifications_serve hsome⟩
  · cases hnew.symm.trans hr
    rw [haccepted.2.1] at hstatus
    exact nomatch hstatus
  · cases hnew.symm.trans hr
    -- whoever sets a row to dispatched names a notification it has saved
    rcases haccepted.2 with ⟨-, -, n, hsaved, hnid⟩ | ⟨-, -, hdead | hpending⟩ | ⟨-, hpending, -⟩
    · have hsome := h.saved th (List.mem_of_getElem? hth) n hsaved
      exact ⟨n.id, hnid, isSome_notifications_serve hsome⟩
    · rw [hdead.1] at hstatus
      exact nomatch hstatus
    · rw [hpending] at hstatus
      exact nomatch hstatus
    · rw [hpending] at hstatus
      exact nomatch hstatus
  · cases hnew.symm.trans hr
    exact absurd hstatus hmarked.status.2.1

/-- A dead row has used up its attempts. -/
theorem dead_step {id : String} {r : NotificationOutboxRecord}
    (hr : (serve op c P.store).2.outbox.get? id = some r) (hstatus : r.status = .dead) :
    config.maxDispatchAttempts ≤ r.attempts := by
  have haccepted := h.accepted hth hprog
  -- the same four cases, for a row that is dead
  rcases serve_outbox op c P.store id with hsame | ⟨row, rfl, -, hnew⟩ | ⟨row, rfl, -, -, hnew⟩ |
    ⟨r₀, r', -, hnew, hmarked⟩
  · exact h.dead id r (hsame.symm.trans hr) hstatus
  · cases hnew.symm.trans hr
    rw [haccepted.2.1] at hstatus
    exact nomatch hstatus
  · cases hnew.symm.trans hr
    rcases haccepted.2 with ⟨-, hdispatched, -⟩ | ⟨-, -, hdead | hpending⟩ | ⟨-, hpending, -⟩
    · rw [hdispatched] at hstatus
      exact nomatch hstatus
    -- only a row whose attempts are used up is set to dead
    · exact hdead.2
    · rw [hpending] at hstatus
      exact nomatch hstatus
    · rw [hpending] at hstatus
      exact nomatch hstatus
  · cases hnew.symm.trans hr
    exact absurd hstatus hmarked.status.2.2

end Step

end OutboxInv

/-- Every row waits for its first dispatch. -/
def Store.Enqueued (s : Store) : Prop :=
  ∀ r ∈ s.outbox.rows, r.status = .pending ∧ r.attempts = 0

/-- A row of a fresh outbox is pending and untried. -/
theorem Store.Enqueued.get? {s : Store} (h : s.Enqueued) {id : String}
    {r : NotificationOutboxRecord} (hr : s.outbox.get? id = some r) :
    r.status = .pending ∧ r.attempts = 0 :=
  h r (Table.mem_of_get? hr)

variable {config : Config}

/-- The invariant holds before the first request. -/
theorem outboxInv_init {s₀ : Store} (hs₀ : s₀.Enqueued) : OutboxInv config ⟨s₀, []⟩ where
  safe := by simp
  reserved := by simp
  own := fun _ => atMostOne_nil _
  held := by simp
  saved := by simp
  named := fun id r hr hstatus => by simp [(hs₀.get? hr).1] at hstatus
  dead := fun id r hr hstatus => by simp [(hs₀.get? hr).1] at hstatus

/-- Every step keeps the invariant. -/
theorem OutboxInv.step {P P' : NotifyPool} {a : Act Request Choice}
    (hstep : notifyStep config P a = some P') (h : OutboxInv config P) : OutboxInv config P' := by
  have hsafe := poolStep_safe (handle_fanout_safe config) hstep h.safe
  obtain ⟨req, -, rfl⟩ | ⟨i, c, th, op, k, -, hth, hprog, hallow, rfl⟩ := poolStep_cases hstep
  · -- A request that starts has made no call.
    have hlog : ∀ {u : NotifyThread}, u ∈ P.threads ++ [⟨req, [], handle config req⟩] →
        u ∈ P.threads ∨ u.log = [] := fun hu => mem_started hu
    constructor
    case safe => exact hsafe
    case reserved =>
      intro u hu id hid
      rcases hlog hu with hu | hnil
      · exact h.reserved u hu id hid
      · rw [hnil] at hid
        exact nomatch hid
    case own => exact fun id => (h.own id).append fun hid => nomatch hid
    case held =>
      intro u hu copy hcopy
      rcases hlog hu with hu | hnil
      · exact h.held u hu copy hcopy
      · rw [hnil] at hcopy
        simp [Holds] at hcopy
    case saved =>
      intro u hu n hsaved
      rcases hlog hu with hu | hnil
      · exact h.saved u hu n hsaved
      · rw [hnil] at hsaved
        exact nomatch hsaved
    case named => exact h.named
    case dead => exact h.dead
  -- one lemma for each field of the invariant
  · constructor
    case safe => exact hsafe
    case reserved => exact fun u hu id hid => h.reserved_step hth hprog hallow hu hid
    case own =>
      exact fun id => atMostOne_reserves_resume (h.own id)
        (fun u hu hid => (h.reserved u hu id hid).2) hth hallow
    case held => exact fun u hu copy hcopy => h.held_step hth hprog hu hcopy
    case saved => exact fun u hu n hsaved => h.saved_step hth hu hsaved
    case named => exact fun id r hr hstatus => h.named_step hth hprog hr hstatus
    case dead => exact fun id r hr hstatus => h.dead_step hth hprog hr hstatus

/-- The invariant at the end of a run. -/
theorem outboxInv_of_run {s₀ : Store} (hs₀ : s₀.Enqueued)
    {ms : List (Move NotifyPool (Act Request Choice))} {P : NotifyPool}
    (run : Run (notifyStep config) ⟨s₀, []⟩ ms P) : OutboxInv config P :=
  run.invariant (C := fun _ => True) (fun _ _ => trivial) (outboxInv_init hs₀)
    fun _ hs _ h => h.step hs

/-- The invariant before each move of a run. -/
theorem outboxInv_before {s₀ : Store} (hs₀ : s₀.Enqueued)
    {ms : List (Move NotifyPool (Act Request Choice))} {P : NotifyPool}
    (run : Run (notifyStep config) ⟨s₀, []⟩ ms P) {m : Move NotifyPool (Act Request Choice)}
    (hm : m ∈ ms) : OutboxInv config m.before :=
  run.invariant_before (C := fun _ => True) (fun _ _ => trivial) (outboxInv_init hs₀)
    (fun _ hs _ h => h.step hs) hm

/-- A row that is there before a step is there after it. -/
theorem OutboxInv.row_kept {P P' : NotifyPool} {a : Act Request Choice} (h : OutboxInv config P)
    (hstep : notifyStep config P a = some P') {id : String} {r : NotificationOutboxRecord}
    (hr : P.store.outbox.get? id = some r) :
    ∃ r', P'.store.outbox.get? id = some r' ∧ SameContent r r' := by
  obtain ⟨req, -, rfl⟩ | ⟨i, c, th, op, k, -, hth, hprog, -, rfl⟩ := poolStep_cases hstep
  · exact ⟨r, hr, .refl r⟩
  · exact h.content_step hth hprog hr

/-! ## What holds while copies are current -/

/-- The row that a move writes back, with the thread that does it. -/
def writeBack? (m : Move NotifyPool (Act Request Choice)) :
    Option (NotifyThread × NotificationOutboxRecord × Choice) :=
  match m.label with
  | .spawn _ => none
  | .advance i c =>
    match m.before.threads[i]? with
    | none => none
    | some th =>
      match th.prog with
      | .await (.updateNotificationOutbox row) _ => some (th, row, c)
      | _ => none

/-- A failed dispatch or a retry that is written back with effect does not meet a dispatched
    row, and it counts at most one attempt more than the stored row. -/
def WritesBackCurrent (m : Move NotifyPool (Act Request Choice)) : Prop :=
  ∀ th row c, writeBack? m = some (th, row, c) → c.Effective → row.status ≠ .dispatched →
    ∀ r, m.before.store.outbox.get? row.id = some r →
      r.status ≠ .dispatched ∧ row.attempts ≤ r.attempts + 1

def Request.isFanout : Request → Bool
  | .fanoutTick => true
  | _ => false

def Request.isRetry : Request → Bool
  | .retryOutbox _ _ => true
  | _ => false

/-- The fan-out worker, after a rejected call, writes a failed dispatch of the row back. -/
def failedDispatch (id : String) (m : Move NotifyPool (Act Request Choice)) : Bool :=
  (writeBack? m).any fun w =>
    w.1.req.isFanout && newestRejected w.1.log && decide (w.2.1.id = id)

/-- The retry of an operator takes effect on the row. -/
def retriedRow (id : String) (m : Move NotifyPool (Act Request Choice)) : Bool :=
  (writeBack? m).any fun w =>
    w.1.req.isRetry && decide (w.2.1.id = id) && decide w.2.2.Effective

/-- The failed dispatches of the row since it was enqueued or last retried; newest moves
    first. -/
def failuresSince (id : String) : List (Move NotifyPool (Act Request Choice)) → Nat
  | [] => 0
  | m :: ms =>
    if retriedRow id m then 0
    else if failedDispatch id m then failuresSince id ms + 1
    else failuresSince id ms

/-- A move that puts nothing back forgets no failure. -/
theorem failuresSince_le_cons {id : String} {m : Move NotifyPool (Act Request Choice)}
    (ms : List (Move NotifyPool (Act Request Choice))) (hretry : retriedRow id m = false) :
    failuresSince id ms ≤ failuresSince id (m :: ms) := by
  simp only [failuresSince, hretry, Bool.false_eq_true, if_false]
  split <;> omega

/-- What a move writes back is the row of the thread's next call. -/
theorem writeBack?_cases {m : Move NotifyPool (Act Request Choice)} {th : NotifyThread} {c : Choice}
    {row : NotificationOutboxRecord} (h : writeBack? m = some (th, row, c)) :
    ∃ i k, m.label = .advance i c ∧ m.before.threads[i]? = some th ∧
      th.prog = .await (.updateNotificationOutbox row) k := by
  unfold writeBack? at h
  split at h
  · exact nomatch h
  · rename_i i c' hlabel
    split at h
    · exact nomatch h
    · rename_i th' hth
      split at h
      · rename_i row' k hprog
        cases h
        exact ⟨i, k, hlabel, hth, hprog⟩
      · exact nomatch h

section Counting

variable {P P' : NotifyPool} {i : Nat} {th : NotifyThread} {op : Call} {c : Choice}
  {k : Except String op.Res → NotifyM (Option Reply)} {id : String}
variable (hth : P.threads[i]? = some th) (hprog : th.prog = .await op k)
include hth hprog

/-- The move of a write is recognised. -/
theorem writeBack?_eq {row : NotificationOutboxRecord} (hop : op = .updateNotificationOutbox row) :
    writeBack? ⟨P, .advance i c, P'⟩ = some (th, row, c) := by
  subst hop
  simp only [writeBack?, hth, hprog]

/-- An effective retry is a call of the retry handler. -/
theorem retriedRow_cases (h : retriedRow id ⟨P, .advance i c, P'⟩ = true) :
    ∃ row, op = .updateNotificationOutbox row ∧ row.id = id ∧ th.req.isRetry = true ∧
      c.Effective := by
  simp only [retriedRow, Option.any_eq_true, Bool.and_eq_true, decide_eq_true_eq] at h
  obtain ⟨⟨th', row, c'⟩, hwrite, ⟨hreq, hid⟩, heff⟩ := h
  obtain ⟨i', k', hlabel, hth', hprog'⟩ := writeBack?_cases hwrite
  cases hlabel
  rw [hth, Option.some.injEq] at hth'
  subst hth'
  rw [hprog] at hprog'
  cases hprog'
  exact ⟨row, rfl, hid, hreq, heff⟩

/-- A dispatched row stays dispatched. -/
theorem dispatched_step (h : OutboxInv config P) (hC : WritesBackCurrent ⟨P, .advance i c, P'⟩)
    {r r' : NotificationOutboxRecord} (hr : P.store.outbox.get? id = some r)
    (hstatus : r.status = .dispatched)
    (hr' : (serve op c P.store).2.outbox.get? id = some r') : r'.status = .dispatched := by
  rcases serve_outbox op c P.store id with hsame | ⟨row, hop, rfl, -⟩ | ⟨row, hop, rfl, heff, hnew⟩ |
    ⟨r₀, r₁, hold, -, hmarked⟩
  · rw [hsame, hr] at hr'
    cases hr'
    exact hstatus
  · rw [(h.append_new hth hprog hop).2] at hr
    exact nomatch hr
  · cases hnew.symm.trans hr'
    by_contra hne
    exact (hC th r' c (writeBack?_eq hth hprog hop) heff hne r hr).1 hstatus
  · rw [hr] at hold
    cases hold
    exact absurd hstatus hmarked.status.1

/-- A row that is not dispatched counts no more attempts than failed dispatches. -/
theorem attempts_step (h : OutboxInv config P) (hC : WritesBackCurrent ⟨P, .advance i c, P'⟩)
    {ms : List (Move NotifyPool (Act Request Choice))}
    (hcount : ∀ id r, P.store.outbox.get? id = some r → r.status ≠ .dispatched →
      r.attempts ≤ failuresSince id ms)
    {r : NotificationOutboxRecord} (hr : (serve op c P.store).2.outbox.get? id = some r)
    (hstatus : r.status ≠ .dispatched) :
    r.attempts ≤ failuresSince id (⟨P, .advance i c, P'⟩ :: ms) := by
  have haccepted := h.accepted hth hprog
  by_cases hretry : retriedRow id ⟨P, .advance i c, P'⟩ = true
  · -- The row that an effective retry leaves counts no attempt.
    obtain ⟨row, rfl, rfl, hreq, heff⟩ := retriedRow_cases hth hprog hretry
    rw [get?_update heff] at hr
    cases hr
    rcases haccepted.2 with ⟨hfanout, -⟩ | ⟨hfanout, -⟩ | ⟨-, -, hzero⟩
    · rw [hfanout] at hreq
      exact nomatch hreq
    · rw [hfanout] at hreq
      exact nomatch hreq
    · omega
  · have hmore := failuresSince_le_cons ms (Bool.eq_false_iff.mpr hretry)
    rcases serve_outbox op c P.store id with hsame | ⟨row, rfl, -, hnew⟩ |
      ⟨row, hop, rfl, heff, hnew⟩ | ⟨r₀, r₁, hold, hnew, hmarked⟩
    · have hbefore := hcount id r (hsame.symm.trans hr) hstatus
      omega
    · cases hnew.symm.trans hr
      have hzero : r.attempts = 0 := haccepted.2.2
      omega
    · cases hnew.symm.trans hr
      obtain ⟨r₀, hr₀, -⟩ := h.update_old hth hprog hop
      obtain ⟨hopen, hattempts⟩ := hC th r c (writeBack?_eq hth hprog hop) heff hstatus r₀ hr₀
      have hbefore := hcount r.id r₀ hr₀ hopen
      -- What is written back over an open row is a failed dispatch, and it is counted.
      rw [hop] at haccepted
      have hwrite : writeBack? ⟨P, .advance i c, P'⟩ = some (th, r, c) :=
        writeBack?_eq hth hprog hop
      rcases haccepted.2 with ⟨-, hdispatched, -⟩ | ⟨hreq, hrejected, -⟩ | ⟨⟨auth, oid, hreq⟩, -, -⟩
      · exact absurd hdispatched hstatus
      · have hfailed : failedDispatch r.id ⟨P, .advance i c, P'⟩ = true := by
          simp [failedDispatch, hwrite, hreq, Request.isFanout, hrejected]
        have hnext : failuresSince r.id (⟨P, .advance i c, P'⟩ :: ms) =
            failuresSince r.id ms + 1 := by
          simp [failuresSince, hretry, hfailed]
        omega
      · refine absurd ?_ hretry
        simp [retriedRow, hwrite, hreq, Request.isRetry, heff]
    · cases hnew.symm.trans hr
      have hbefore := hcount id r₀ hold hmarked.status.1
      have hsame := hmarked.attempts
      omega

end Counting

/-- In a run whose copies are current a row counts no more attempts than failed dispatches. -/
theorem attempts_of_run {s₀ : Store} (hs₀ : s₀.Enqueued)
    {ms : List (Move NotifyPool (Act Request Choice))} {P : NotifyPool}
    (run : Run (notifyStep config) ⟨s₀, []⟩ ms P) (hC : ∀ m ∈ ms, WritesBackCurrent m)
    {id : String} {r : NotificationOutboxRecord} (hr : P.store.outbox.get? id = some r)
    (hstatus : r.status ≠ .dispatched) : r.attempts ≤ failuresSince id ms := by
  induction run generalizing id r with
  | nil =>
    have hzero := (hs₀.get? hr).2
    omega
  | @cons ms P P' a run hstep ih =>
    have hinv := outboxInv_of_run hs₀ run
    have hlast := hC _ List.mem_cons_self
    have hrest : ∀ id r, P.store.outbox.get? id = some r → r.status ≠ .dispatched →
        r.attempts ≤ failuresSince id ms :=
      fun id r => ih fun m hm => hC m (List.mem_cons_of_mem _ hm)
    obtain ⟨req, rfl, rfl⟩ | ⟨i, c, th, op, k, rfl, hth, hprog, -, rfl⟩ := poolStep_cases hstep
    · exact hrest id r hr hstatus
    · exact attempts_step hth hprog hinv hlast hrest hr hstatus

/-- No row of the outbox is ever lost and a dispatched row names a stored notification, in
    every run. While copies are written back only over rows that are current, a dispatched row
    stays dispatched, and a dead row has failed often enough since it was enqueued or
    retried. -/
theorem outbox_never_regresses {s₀ : Store} (hs₀ : s₀.Enqueued)
    {ms : List (Move NotifyPool (Act Request Choice))} {P : NotifyPool}
    (run : Run (notifyStep config) ⟨s₀, []⟩ ms P) :
    (∀ m ∈ ms, ∀ id r, m.before.store.outbox.get? id = some r →
      ∃ r', P.store.outbox.get? id = some r' ∧ SameContent r r') ∧
    (∀ id r, P.store.outbox.get? id = some r → r.status = .dispatched →
      ∃ nid, r.dispatchedNotificationId = some nid ∧
        (P.store.notifications.get? nid).isSome) ∧
    ((∀ m ∈ ms, WritesBackCurrent m) →
      (∀ m ∈ ms, ∀ id r, m.before.store.outbox.get? id = some r → r.status = .dispatched →
        ∃ r', P.store.outbox.get? id = some r' ∧ r'.status = .dispatched) ∧
      ∀ id r, P.store.outbox.get? id = some r → r.status = .dead →
        config.maxDispatchAttempts ≤ failuresSince id ms) := by
  have hinv := outboxInv_of_run hs₀ run
  refine ⟨?_, hinv.named, fun hC => ⟨?_, ?_⟩⟩
  -- a row keeps its content from its first appearance on
  · intro m hm id r hr
    refine run.kept (Q := fun P => ∃ r', P.store.outbox.get? id = some r' ∧ SameContent r r') ?_
      hm ⟨r, hr, .refl r⟩
    rintro m hm ⟨r₁, hr₁, hsame⟩
    obtain ⟨r₂, hr₂, hsame'⟩ := (outboxInv_before hs₀ run hm).row_kept (run.step_of_mem hm) hr₁
    exact ⟨r₂, hr₂, hsame.trans hsame'⟩
  -- once dispatched it stays so, as no slow worker writes it
  · intro m hm id r hr hstatus
    refine run.kept
      (Q := fun P => ∃ r', P.store.outbox.get? id = some r' ∧ r'.status = .dispatched) ?_
      hm ⟨r, hr, hstatus⟩
    rintro ⟨P₁, a, P₂⟩ hm ⟨r₁, hr₁, hstatus₁⟩
    have hbefore : OutboxInv config P₁ := outboxInv_before hs₀ run hm
    have hstep : notifyStep config P₁ a = some P₂ := run.step_of_mem hm
    obtain ⟨r₂, hr₂, -⟩ := hbefore.row_kept hstep hr₁
    refine ⟨r₂, hr₂, ?_⟩
    -- a new request writes nothing, and a step of another keeps the status
    obtain ⟨req, rfl, rfl⟩ | ⟨i, c, th, op, k, rfl, hth, hprog, -, rfl⟩ := poolStep_cases hstep
    · rw [hr₁] at hr₂
      cases hr₂
      exact hstatus₁
    · exact dispatched_step hth hprog hbefore (hC _ hm) hr₁ hstatus₁ hr₂
  -- a dead row has had its attempts, and no failure is counted twice
  · intro id r hr hdead
    have hmax := hinv.dead id r hr hdead
    have hattempts := attempts_of_run hs₀ run hC hr (by simp [hdead])
    omega

/-! ## Concrete runs -/

/-- One row waits for its dispatch. -/
def sampleEnqueued : Store :=
  { Store.empty with
    outbox := Table.empty.set
      (FanoutNotificationItem.toOutbox sampleConfig
        { eventType := "dispute.review_started", recipientId := "u1", channel := .inapp,
          payload := [] } "nox_1" 0) }

/-- The outbox of the concrete run is fresh. -/
theorem sampleEnqueued_enqueued : sampleEnqueued.Enqueued := by
  unfold Store.Enqueued
  decide +kernel

/-- The status of the stored row of the outbox. -/
def Store.outboxStatus? (s : Store) (id : String) : Option OutboxStatus :=
  (s.outbox.get? id).map NotificationOutboxRecord.status

/-- The calls of a fan-out tick at time `t` up to the identifier of its notification. -/
def sampleClaim (i : Nat) (t : Time) (id : String) : List (Act Request Choice) :=
  [.spawn .fanoutTick, .advance i { now := t }, .advance i { now := t }, .advance i {},
    .advance i {}, .advance i { id := id }]

/-- The calls that store the notification and emit its event. -/
def sampleStored (i : Nat) : List (Act Request Choice) :=
  [.advance i {}, .advance i { id := "evt_1" }, .advance i { id := "trc_1" }, .advance i {},
    .advance i {}]

/-- The row of the concrete runs has the status. -/
def sampleOutboxStatus (status : OutboxStatus) (P : NotifyPool) : Bool :=
  decide (P.store.outboxStatus? "nox_1" = some status)

/-- The move writes back a dispatched row, or over a row that is processing and counts as
    many attempts. -/
def writesBackCurrentCheck (m : Move NotifyPool (Act Request Choice)) : Bool :=
  (writeBack? m).all fun w =>
    decide (w.2.1.status = .dispatched) ||
      (m.before.store.outbox.get? w.2.1.id).all fun r =>
        decide (r.status = .processing) && decide (w.2.1.attempts ≤ r.attempts + 1)

/-- The check of a move can be computed. -/
theorem writesBackCurrent_of_check {m : Move NotifyPool (Act Request Choice)}
    (h : writesBackCurrentCheck m = true) : WritesBackCurrent m := by
  intro th row c hwrite _ hstatus r hr
  simp only [writesBackCurrentCheck, hwrite, Option.all_some, hstatus, decide_false, Bool.false_or,
    hr, Bool.and_eq_true, decide_eq_true_eq] at h
  exact ⟨by simp [h.1], h.2⟩

/-- A dispatch fails and is recorded, and the next tick dispatches the row. -/
theorem outbox_never_regresses_retried :
    ∃ ms P, Run (notifyStep sampleConfig) ⟨sampleEnqueued, []⟩ ms P ∧
      (∀ m ∈ ms, WritesBackCurrent m) ∧ failuresSince "nox_1" ms = 1 ∧
      P.store.outboxStatus? "nox_1" = some .dispatched ∧
      ∀ id r, P.store.outbox.get? id = some r → r.status = .dispatched →
        ∃ nid, r.dispatchedNotificationId = some nid ∧
          (P.store.notifications.get? nid).isSome := by
  obtain ⟨ms, P, run, hp⟩ := exists_run_of_replay
    (sampleClaim 0 0 "ntf_1" ++ [.advance 0 { failure := some "timeout" }, .advance 0 {}] ++
      sampleClaim 1 5000 "ntf_2" ++ sampleStored 1 ++ [.advance 1 {}])
    (fun r => (r.1.all writesBackCurrentCheck) && (decide (failuresSince "nox_1" r.1 = 1) &&
      sampleOutboxStatus .dispatched r.2))
    (by decide +kernel : (replay (notifyStep sampleConfig) ⟨sampleEnqueued, []⟩ _ []).any _ = true)
  simp only [Bool.and_eq_true, List.all_eq_true, decide_eq_true_eq, sampleOutboxStatus] at hp
  obtain ⟨hcheck, hfailures, hstatus⟩ := hp
  exact ⟨ms, P, run, fun m hm => writesBackCurrent_of_check (hcheck m hm), hfailures, hstatus,
    (outbox_never_regresses sampleEnqueued_enqueued run).2.1⟩

/-- A schedule of `n` workers after which a row has left `dispatched`. -/
theorem regresses_of_replay (acts : List (Act Request Choice)) (n : Nat)
    (h : (replay (notifyStep sampleConfig) ⟨sampleEnqueued, []⟩ acts []).any
      (fun r => decide (r.2.threads.length = n) &&
        (r.1.any fun m => sampleOutboxStatus .dispatched m.before) &&
        sampleOutboxStatus .pending r.2) = true) :
    ∃ ms P, Run (notifyStep sampleConfig) ⟨sampleEnqueued, []⟩ ms P ∧ P.threads.length = n ∧
      (∃ m ∈ ms, m.before.store.outboxStatus? "nox_1" = some .dispatched) ∧
      P.store.outboxStatus? "nox_1" = some .pending := by
  obtain ⟨ms, P, run, hp⟩ := exists_run_of_replay acts _ h
  simp only [Bool.and_eq_true, List.any_eq_true, decide_eq_true_eq, sampleOutboxStatus] at hp
  exact ⟨ms, P, run, hp.1.1, hp.1.2, hp.2⟩

/-- Two runs in which a row leaves `dispatched`. A worker is slow, its row is recovered and
    dispatched by another one, and then its own save fails: it writes the row back as pending.
    In the other run a single worker marks the row; the update takes effect but its answer is
    lost, and the worker writes the row back as pending. -/
theorem dispatched_row_regresses :
    (∃ ms P, Run (notifyStep sampleConfig) ⟨sampleEnqueued, []⟩ ms P ∧ P.threads.length = 2 ∧
      (∃ m ∈ ms, m.before.store.outboxStatus? "nox_1" = some .dispatched) ∧
      P.store.outboxStatus? "nox_1" = some .pending) ∧
    ∃ ms P, Run (notifyStep sampleConfig) ⟨sampleEnqueued, []⟩ ms P ∧ P.threads.length = 1 ∧
      (∃ m ∈ ms, m.before.store.outboxStatus? "nox_1" = some .dispatched) ∧
      P.store.outboxStatus? "nox_1" = some .pending := by
  constructor
  · refine regresses_of_replay (sampleClaim 0 0 "ntf_1" ++ sampleClaim 1 100000 "ntf_2" ++
      sampleStored 1 ++ [.advance 1 {}, .advance 0 { failure := some "timeout" }, .advance 0 {}])
      2 ?_
    decide +kernel
  · refine regresses_of_replay (sampleClaim 0 0 "ntf_1" ++ sampleStored 0 ++
      [.advance 0 { failure := some "timeout", applied := true }, .advance 0 {}]) 1 ?_
    decide +kernel

end Bluesafe.Notify
