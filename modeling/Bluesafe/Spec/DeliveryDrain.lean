import Bluesafe.ForStd.TableSum
import Bluesafe.Spec.RetryDiscipline
import Bluesafe.Spec.OutboxRefinement

/-!
# The delivery pipeline runs empty

Rows of the outbox are fanned out into notifications, and notifications are delivered, retried
and in the end sent or given up. Both workers take a bounded batch at each tick. When the
repository answers and the ticks do not overlap, each tick that finds something to do brings the
work that is left down (`work`), whatever the provider answers: after enough ticks of both
workers nothing waits any more (`pipeline_drains`), also rows that a worker had left
unfinished before the run.

A notification that failed is due again after its backoff, so the ticks must read the clock the
longest backoff apart (`Spaced`).
-/

namespace Bluesafe.Notify

open Async Transition
open Bluesafe.Ops (Time JsonObject)

/-! ## The work that is left -/

/-- The worker will take the notification up, now or later. -/
def NotificationEvent.isWaiting (n : NotificationEvent) : Bool :=
  !n.deadLetter && !n.status.isFinal

/-- How many more attempts the notification may take. -/
def NotificationEvent.toGo (config : Config) (n : NotificationEvent) : Nat :=
  if n.isWaiting then max 1 (config.maxAttempts - n.attemptCount.getD 0) else 0

/-- The row is to be fanned out. -/
def NotificationOutboxRecord.isOpen (r : NotificationOutboxRecord) : Bool :=
  match r.status with
  | .pending => true
  | .processing => true
  | _ => false

def NotificationOutboxRecord.weight (r : NotificationOutboxRecord) : Nat := if r.isOpen then 1 else 0

/-- The attempts that the stored notifications may take. -/
def Store.attemptsLeft (config : Config) (s : Store) : Nat :=
  s.notifications.total (NotificationEvent.toGo config)

/-- The rows that are to be fanned out. -/
def Store.openOutbox (s : Store) : Nat := s.outbox.total NotificationOutboxRecord.weight

/-- The attempts that are left, also for the notifications that are still to be stored. -/
def Store.work (config : Config) (s : Store) : Nat :=
  s.attemptsLeft config + s.openOutbox * max 1 config.maxAttempts

section Weights

variable {config : Config} {n : NotificationEvent} {now t next : Time} {result : DeliveryResult}

/-- What is due waits, and its time has come. -/
theorem isDue_iff : n.isDue now = true ↔ n.isWaiting = true ∧
    (n.status = .retryScheduled → ∀ next, n.nextAttemptAt = some next → next ≤ now) := by
  unfold NotificationEvent.isDue NotificationEvent.isWaiting
  cases hdead : n.deadLetter <;> cases hstatus : n.status <;>
    simp [NotificationStatus.isFinal, Option.all_eq_true]

/-- A notification that waits has something to go. -/
theorem toGo_pos (h : n.isWaiting = true) : 1 ≤ n.toGo config := by
  unfold NotificationEvent.toGo
  rw [if_pos h]
  omega

/-- One that was delivered has nothing. -/
theorem toGo_delivered : (n.delivered t).toGo config = 0 := by
  simp [NotificationEvent.toGo, NotificationEvent.isWaiting, NotificationEvent.delivered,
    NotificationStatus.isFinal]

/-- Nor has one that was given up. -/
theorem toGo_abandoned : (n.abandoned result t).toGo config = 0 := by
  simp [NotificationEvent.toGo, NotificationEvent.isWaiting, NotificationEvent.abandoned]

/-- An attempt that failed leaves one less. -/
theorem toGo_rescheduled (h : n.isWaiting = true)
    (hmore : ¬n.attemptCount.getD 0 + 1 ≥ config.maxAttempts) :
    (n.rescheduled result t next).toGo config + 1 ≤ n.toGo config := by
  have hwaiting : (n.rescheduled result t next).isWaiting = true := by
    simp only [NotificationEvent.isWaiting, Bool.and_eq_true] at h
    simp [NotificationEvent.isWaiting, NotificationEvent.rescheduled, NotificationStatus.isFinal,
      h.1]
  unfold NotificationEvent.toGo
  rw [if_pos h, if_pos hwaiting]
  show max 1 (config.maxAttempts - (n.attemptCount.getD 0 + 1)) + 1 ≤ _
  omega

/-- A new notification may take all attempts. -/
theorem toGo_toNotification (row : NotificationOutboxRecord) (id : String) (t : Time) :
    (row.toNotification id t).toGo config = max 1 config.maxAttempts := rfl

end Weights

/-! ## Calls -/

/-- Calls that change no notification and no row of the outbox. -/
def Call.isAside : Call → Bool
  | .saveNotification _ => false
  | .appendNotificationOutbox _ => false
  | .claimNotificationOutboxPending _ _ => false
  | .updateNotificationOutbox _ => false
  | .recoverStaleNotificationOutboxProcessing _ _ => false
  | _ => true

/-- The rows stay, and the trace grows. -/
structure Aside (g g' : Recorded) : Prop where
  rows : g.1.SameRows g'.1
  trace : g.2 <:+ g'.2

theorem Aside.trans {g g' g'' : Recorded} (h : Aside g g') (h' : Aside g' g'') : Aside g g'' :=
  ⟨⟨h'.rows.1.trans h.rows.1, h'.rows.2.trans h.rows.2⟩, h.trace.trans h'.trace⟩

/-- A call aside leaves rows and notifications. -/
theorem aside_perform {op : Call} (hop : op.isAside = true) (c : Choice) (s : Store) (tr : Trace) :
    Aside (s, tr) ((perform op c s).2, (op, c) :: tr) := by
  refine ⟨?_, List.suffix_cons _ _⟩
  cases op with
  | saveNotification n => cases hop
  | appendNotificationOutbox row => cases hop
  | claimNotificationOutboxPending limit now => cases hop
  | updateNotificationOutbox row => cases hop
  | recoverStaleNotificationOutboxProcessing staleBefore now => cases hop
  | _ => exact ⟨rfl, rfl⟩

/-- And it returns. -/
theorem returns_aside {op : Call} (hop : op.isAside = true) (g : Recorded) :
    Returns reliable.recorded (invoke op) (fun _ g' => Aside g g') g :=
  returns_recorded fun c _ => aside_perform hop c g.1 g.2

/-- The clock was read at `t`. -/
def ReadsAt (tr : Trace) (t : Time) : Prop := ∃ c, (Call.clock, c) ∈ tr ∧ c.now = t

/-- A clock that was read stays in the trace. -/
theorem ReadsAt.later {tr tr' : Trace} {t : Time} (h : ReadsAt tr t) (htr : tr <:+ tr') :
    ReadsAt tr' t := by
  obtain ⟨c, hc, hnow⟩ := h
  exact ⟨c, htr.subset hc, hnow⟩

/-- A reading of the clock. -/
theorem returns_clock (g : Recorded) :
    Returns reliable.recorded nowIso (fun t g' => Aside g g' ∧ ReadsAt g'.2 t) g :=
  returns_recorded fun c _ => ⟨aside_perform rfl c g.1 g.2, c, List.mem_cons_self, rfl⟩

/-- An audit entry is aside. -/
theorem writeAudit_aside (entityType entityId action actorId : String)
    (after metadata : Option JsonObject) (g : Recorded) :
    Returns reliable.recorded (writeAudit entityType entityId action actorId after metadata)
      (fun _ g' => Aside g g') g := by
  refine Returns.bind (returns_aside rfl g) fun _ g₁ h₁ => ?_
  refine Returns.bind (returns_aside rfl g₁) fun _ g₂ h₂ => ?_
  exact (returns_aside rfl g₂).mono fun _ _ h₃ => (h₁.trans h₂).trans h₃

/-- So is an event. -/
theorem emitEvent_aside (eventType entityType entityId : String) (payload : JsonObject)
    (g : Recorded) :
    Returns reliable.recorded (emitEvent eventType entityType entityId payload)
      (fun _ g' => Aside g g') g := by
  refine Returns.bind (returns_aside rfl g) fun _ g₁ h₁ => ?_
  refine Returns.bind (returns_aside rfl g₁) fun _ g₂ h₂ => ?_
  refine Returns.bind (returns_aside rfl g₂) fun _ g₃ h₃ => ?_
  exact (returns_aside rfl g₃).mono fun _ _ h₄ => ((h₁.trans h₂).trans h₃).trans h₄

/-! ## The delivery worker -/

/-- The row is replaced by one with less to go, which is due again after a backoff. -/
structure Attempted (config : Config) (n : NotificationEvent) (g g' : Recorded) : Prop where
  row : ∃ n', n'.id = n.id ∧ g'.1.notifications = g.1.notifications.set n' ∧
    n'.toGo config + 1 ≤ n.toGo config ∧
    ∀ next, n'.nextAttemptAt = some next →
      ∃ t, ReadsAt g'.2 t ∧ next ≤ t + config.retryMaxBackoffMs
  outbox : g'.1.outbox = g.1.outbox
  trace : g.2 <:+ g'.2

variable {config : Config}

/-- An attempt is not undone by calls aside. -/
theorem Attempted.aside {n : NotificationEvent} {g g' g'' : Recorded} (h : Attempted config n g g')
    (h' : Aside g' g'') : Attempted config n g g'' := by
  obtain ⟨n', hid, hset, hless, hnext⟩ := h.row
  refine ⟨⟨n', hid, h'.rows.1.trans hset, hless, fun next heq => ?_⟩, h'.rows.2.trans h.outbox,
    h.trace.trans h'.trace⟩
  obtain ⟨t, hread, hle⟩ := hnext next heq
  exact ⟨t, hread.later h'.trace, hle⟩

/-- The save at the end of an attempt. -/
theorem returns_attempted {n n' : NotificationEvent} {g g₀ : Recorded} (h : Aside g₀ g)
    (hid : n'.id = n.id) (hless : n'.toGo config + 1 ≤ n.toGo config)
    (hnext : ∀ next, n'.nextAttemptAt = some next →
      ∃ t, ReadsAt g.2 t ∧ next ≤ t + config.retryMaxBackoffMs) :
    Returns reliable.recorded (saveNotification n') (fun _ g' => Attempted config n g₀ g') g := by
  refine returns_recorded fun c _ => ⟨⟨n', hid, ?_, hless, fun next heq => ?_⟩, h.rows.2, ?_⟩
  · show g.1.notifications.set n' = g₀.1.notifications.set n'
    rw [h.rows.1]
  · obtain ⟨t, hread, hle⟩ := hnext next heq
    exact ⟨t, hread.later (List.suffix_cons _ _), hle⟩
  · exact h.trace.trans (List.suffix_cons _ _)

/-- What is said about an attempt changes no row. -/
theorem Attempted.announced {n : NotificationEvent} {g g' : Recorded} (h : Attempted config n g g')
    (id action : String) (after payload : JsonObject) :
    Returns reliable.recorded (do
      writeAudit "notification" id action "system" none (some after)
      emitEvent action "notification" id payload) (fun _ => Attempted config n g) g' := by
  refine Returns.bind ((writeAudit_aside _ _ _ _ _ _ g').mono fun _ _ ha => h.aside ha)
    fun _ g'' h' => ?_
  exact (emitEvent_aside _ _ _ _ g'').mono fun _ _ ha => h'.aside ha

/-- One attempt, whatever the provider answers. -/
theorem processOne_attempts {n : NotificationEvent} (hwaiting : n.isWaiting = true) (g : Recorded) :
    Returns reliable.recorded (processOne config n) (fun _ g' => Attempted config n g g') g := by
  have hone : 1 ≤ n.toGo config := toGo_pos hwaiting
  unfold processOne
  refine Returns.bind (returns_aside rfl g) fun result g₁ h₁ => ?_
  refine Returns.bind (returns_clock g₁) fun t g₂ h₂ => ?_
  obtain ⟨h₂, hread⟩ := h₂
  have h₁₂ := h₁.trans h₂
  split
  · refine Returns.bind (R := fun _ => Attempted config n g)
      (returns_attempted h₁₂ rfl ?_ fun _ heq => nomatch heq) fun _ g₃ h₃ => ?_
    · rw [toGo_delivered]
      exact hone
    · exact h₃.announced _ _ _ _
  · split
    · refine Returns.bind (R := fun _ => Attempted config n g)
        (returns_attempted h₁₂ rfl ?_ fun _ heq => nomatch heq) fun _ g₃ h₃ => ?_
      · rw [toGo_abandoned]
        exact hone
      · exact h₃.announced _ _ _ _
    · rename_i hmore
      refine Returns.bind (returns_clock g₂) fun now g₃ h₃ => ?_
      obtain ⟨h₃, hread₃⟩ := h₃
      refine returns_attempted (h₁₂.trans h₃) rfl (toGo_rescheduled hwaiting hmore) fun next heq => ?_
      -- the backoff is at most the longest one
      refine ⟨now, hread₃, ?_⟩
      rw [← Option.some.inj heq]
      exact Nat.add_le_add_left (Nat.min_le_left _ _) now

/-- A scheduled attempt was scheduled in `s`, or at most the longest backoff after a reading of
    the clock. -/
def Planned (config : Config) (s : Store) (g : Recorded) : Prop :=
  ∀ n ∈ g.1.notifications.rows, ∀ next, n.nextAttemptAt = some next →
    (∃ n₀ ∈ s.notifications.rows, n₀.nextAttemptAt = some next) ∨
      ∃ t, ReadsAt g.2 t ∧ next ≤ t + config.retryMaxBackoffMs

/-- A batch of the delivery worker with the notifications `ns` left of `count` many. -/
structure Delivering (config : Config) (s : Store) (now : Time) (count : Nat)
    (ns : List NotificationEvent) (g : Recorded) : Prop where
  stored : ∀ n ∈ ns, g.1.notifications.get? n.id = some n ∧ n.isDue now = true
  distinct : (ns.map NotificationEvent.id).Nodup
  outbox : g.1.outbox = s.outbox
  attempts : g.1.attemptsLeft config + count ≤ s.attemptsLeft config + ns.length
  planned : Planned config s g
  read : ReadsAt g.2 now

/-- The loop goes on behind an attempt. -/
theorem Delivering.attempted {s : Store} {now : Time} {count : Nat} {n : NotificationEvent}
    {ns : List NotificationEvent} {g g' : Recorded} (h : Delivering config s now count (n :: ns) g)
    (h' : Attempted config n g g') : Delivering config s now count ns g' := by
  obtain ⟨n', hid, hset, hless, hnext⟩ := h'.row
  have hn := (h.stored n List.mem_cons_self).1
  have hdistinct := h.distinct
  rw [List.map_cons, List.nodup_cons] at hdistinct
  refine ⟨fun k hk => ?_, hdistinct.2, h'.outbox.trans h.outbox, ?_, fun k hk next heq => ?_,
    h.read.later h'.trace⟩
  -- the notifications to come are others, so they are stored as they were
  · have hne : k.id ≠ n'.id := fun heq =>
      hdistinct.1 (hid ▸ heq ▸ List.mem_map_of_mem hk)
    rw [hset, Table.get?_set, if_neg hne]
    exact h.stored k (List.mem_cons_of_mem _ hk)
  -- the one that was attempted has less to go, which pays for the next
  · have hold : g.1.notifications.get? n'.id = some n := by
      rw [hid]
      exact hn
    have hsum := Table.total_set_of_some (f := NotificationEvent.toGo config) hold
    have hcount := h.attempts
    simp only [Store.attemptsLeft, hset, List.length_cons] at hcount hsum ⊢
    omega
  -- a time that is planned now was planned before, or read off this clock
  · rw [hset] at hk
    rcases Table.mem_rows_set.mp hk with rfl | ⟨hk, -⟩
    · exact .inr (hnext next heq)
    · rcases h.planned k hk next heq with hold | ⟨t, hread, hle⟩
      · exact .inl hold
      · exact .inr ⟨t, hread.later h'.trace, hle⟩

/-- What a tick of the delivery worker does: it reads the clock and takes an attempt for every
    notification that is due, up to the size of a batch. -/
structure Delivered (config : Config) (s : Store) (g : Recorded) : Prop where
  outbox : g.1.outbox = s.outbox
  attempts : ∃ now, ReadsAt g.2 now ∧
    g.1.attemptsLeft config + (s.dueNotifications now config.batchSize).length ≤
      s.attemptsLeft config
  planned : Planned config s g

/-- A tick attempts every notification of its batch. -/
theorem notificationTick_delivers (s : Store) :
    Returns reliable.recorded (notificationTick config) (fun _ => Delivered config s) (s, []) := by
  refine Returns.tryCatch (Returns.bind (returns_clock (s, [])) fun now g₁ h₁ => ?_)
  obtain ⟨h₁, hread⟩ := h₁
  -- the clock has changed no row, so the batch is that of the store at the start
  have hsame : s.dueNotifications now config.batchSize = g₁.1.dueNotifications now config.batchSize := by
    unfold Store.dueNotifications
    rw [h₁.rows.1]
  refine Returns.bind (R := fun due g => due = s.dueNotifications now config.batchSize ∧
      Delivering config s now due.length due g) ?_ fun due g₂ h₂ => ?_
  · refine returns_recorded fun c _ => ⟨hsame.symm, ?_⟩
    have hnotifications : g₁.1.notifications = s.notifications := h₁.rows.1
    refine ⟨fun n hn => mem_dueNotifications hn, nodup_dueNotifications _ _ _, h₁.rows.2, ?_,
      fun n hn next heq => .inl ⟨n, hnotifications ▸ hn, heq⟩, hread.later (List.suffix_cons _ _)⟩
    show g₁.1.attemptsLeft config + _ ≤ _
    unfold Store.attemptsLeft
    rw [hnotifications]
  -- one attempt for each notification of the batch
  · obtain ⟨rfl, h₂⟩ := h₂
    have hstep : ∀ n ns g, Delivering config s now
        (s.dueNotifications now config.batchSize).length (n :: ns) g →
        Returns reliable.recorded (processOne config n) (fun _ => Delivering config s now
          (s.dueNotifications now config.batchSize).length ns) g := by
      intro n ns g h
      have hwaiting := (isDue_iff.mp (h.stored n List.mem_cons_self).2).1
      exact (processOne_attempts hwaiting g).mono fun _ g' h' => h.attempted h'
    refine (Returns.forM hstep h₂).mono fun _ g h => ⟨h.outbox, ⟨now, h.read, h.attempts⟩, h.planned⟩

/-! ## The fan-out worker -/

/-- A claim by a worker that has ended may be taken back when the clock stands at `t`. -/
def NotificationOutboxRecord.Abandoned (config : Config) (r : NotificationOutboxRecord) (t : Time) :
    Prop :=
  ∃ p, r.processingStartedAt = some p ∧ p + config.staleProcessingMs < t

/-- A row whose worker has gone away is stale. -/
theorem isStale_of_abandoned {r : NotificationOutboxRecord} {t : Time}
    (hstatus : r.status = .processing) (h : r.Abandoned config t) :
    r.isStale (t - config.staleProcessingMs) = true := by
  obtain ⟨p, hp, hlt⟩ := h
  simp only [NotificationOutboxRecord.isStale, hstatus, hp, Option.any_some, decide_true,
    Bool.true_and, decide_eq_true_eq]
  exact Nat.lt_sub_of_add_lt hlt

/-- A claim that is not abandoned when the clock stands at `today`. -/
def Store.Busy (config : Config) (s : Store) (today : Time) (r : NotificationOutboxRecord) : Prop :=
  r ∈ s.outbox.rows ∧ r.status = .processing ∧ ¬r.Abandoned config today

/-- Recovery changes no weight, and leaves only the claims that are not abandoned. -/
theorem recover_outbox (config : Config) {s : Store} {today : Time} (now : Time)
    {rows : List NotificationOutboxRecord}
    (hrows : rows = (s.outbox.rows.filter (NotificationOutboxRecord.isStale
      (today - config.staleProcessingMs))).map (NotificationOutboxRecord.recovered now)) :
    (s.setOutbox rows).openOutbox = s.openOutbox ∧
      ∀ r ∈ (s.setOutbox rows).outbox.rows, r.status = .processing → s.Busy config today r := by
  -- recovery writes the rows it lists, under their own identifiers
  have hids : rows.map NotificationOutboxRecord.id = (s.outbox.rows.filter
      (NotificationOutboxRecord.isStale (today - config.staleProcessingMs))).map
      NotificationOutboxRecord.id := by
    rw [hrows, List.map_map]
    rfl
  have hnodup : (rows.map NotificationOutboxRecord.id).Nodup := by
    rw [hids]
    exact s.outbox.nodup.sublist (List.filter_sublist.map _)
  refine ⟨Table.total_foldl_set hnodup fun v hv => ?_, fun r hr hstatus => ?_⟩
  -- a row that is taken back was claimed, and is as open as before
  · rw [hrows] at hv
    obtain ⟨w, hw, rfl⟩ := List.mem_map.mp hv
    obtain ⟨hw, hstale⟩ := List.mem_filter.mp hw
    simp only [NotificationOutboxRecord.isStale, Bool.and_eq_true, decide_eq_true_eq] at hstale
    refine ⟨w, Table.get?_of_mem hw, ?_⟩
    simp [NotificationOutboxRecord.weight, NotificationOutboxRecord.isOpen,
      NotificationOutboxRecord.recovered, hstale.1]
  · rcases Table.mem_rows_foldl_set hr with hnew | ⟨hold, hout⟩
    · rw [hrows] at hnew
      obtain ⟨w, -, rfl⟩ := List.mem_map.mp hnew
      cases hstatus
    · -- an abandoned claim would have been taken back
      refine ⟨hold, hstatus, fun habandoned => hout ?_⟩
      rw [hids]
      exact List.mem_map_of_mem (List.mem_filter.mpr
        ⟨hold, isStale_of_abandoned hstatus habandoned⟩)

/-- A batch of the fan-out worker with the claimed rows `vs` left of `count` many. -/
structure FanningOut (config : Config) (s : Store) (today : Time) (count : Nat)
    (vs : List NotificationOutboxRecord) (g : Recorded) : Prop where
  claimed : ∀ v ∈ vs, g.1.outbox.get? v.id = some v ∧ v.status = .processing
  distinct : (vs.map NotificationOutboxRecord.id).Nodup
  others : ∀ r ∈ g.1.outbox.rows, r.status = .processing → r ∈ vs ∨ s.Busy config today r
  rows : g.1.openOutbox + count = s.openOutbox + vs.length
  work : g.1.work config ≤ s.work config
  planned : Planned config s g
  read : ReadsAt g.2 today

/-- A claim changes no weight. -/
theorem claim_outbox (s : Store) (now : Time) (limit : Nat) {rows : List NotificationOutboxRecord}
    (hrows : rows = (s.pendingOutbox limit).map (NotificationOutboxRecord.claimed now)) :
    (s.setOutbox rows).openOutbox = s.openOutbox ∧
      (∀ v ∈ rows, (s.setOutbox rows).outbox.get? v.id = some v ∧ v.status = .processing) ∧
      (rows.map NotificationOutboxRecord.id).Nodup ∧
      ∀ r ∈ (s.setOutbox rows).outbox.rows, r ∈ rows ∨ r ∈ s.outbox.rows := by
  -- a claim writes the rows it lists, under their own identifiers
  have hids : rows.map NotificationOutboxRecord.id =
      (s.pendingOutbox limit).map NotificationOutboxRecord.id := by
    rw [hrows, List.map_map]
    rfl
  have hnodup : (rows.map NotificationOutboxRecord.id).Nodup := by
    rw [hids]
    exact nodup_pendingOutbox s limit
  refine ⟨Table.total_foldl_set hnodup fun v hv => ?_, fun v hv => ⟨?_, ?_⟩, hnodup,
    fun r hr => ?_⟩
  -- a row that is claimed was pending, and stays open
  · rw [hrows] at hv
    obtain ⟨w, hw, rfl⟩ := List.mem_map.mp hv
    obtain ⟨hget, hpending⟩ := mem_pendingOutbox hw
    refine ⟨w, hget, ?_⟩
    simp [NotificationOutboxRecord.weight, NotificationOutboxRecord.isOpen,
      NotificationOutboxRecord.claimed, hpending]
  · exact Table.get?_foldl_set_of_nodup hnodup hv
  · rw [hrows] at hv
    obtain ⟨w, -, rfl⟩ := List.mem_map.mp hv
    rfl
  · rcases Table.mem_rows_foldl_set hr with hnew | ⟨hold, -⟩
    · exact .inl hnew
    · exact .inr hold

/-- The dispatch of a row takes it out of the open ones; its attempts are now those of the
    notification. -/
theorem FanningOut.dispatched {s : Store} {today : Time} {count : Nat} {v : NotificationOutboxRecord}
    {vs : List NotificationOutboxRecord} {g g' : Recorded} (id : String) (t : Time)
    (h : FanningOut config s today count (v :: vs) g) (hfresh : g.1.notifications.get? id = none)
    (hnotifications : g'.1.notifications = g.1.notifications.set (v.toNotification id t))
    (houtbox : g'.1.outbox = g.1.outbox.set (v.fannedOut id t)) (htrace : g.2 <:+ g'.2) :
    FanningOut config s today count vs g' := by
  obtain ⟨hv, hprocessing⟩ := h.claimed v List.mem_cons_self
  have hdistinct := h.distinct
  rw [List.map_cons, List.nodup_cons] at hdistinct
  have hold : g.1.outbox.get? (v.fannedOut id t).id = some v := hv
  -- one row less is open
  have hopen : g'.1.openOutbox + 1 = g.1.openOutbox := by
    have hsum := Table.total_set_of_some (f := NotificationOutboxRecord.weight) hold
    have hone : v.weight = 1 := by
      simp [NotificationOutboxRecord.weight, NotificationOutboxRecord.isOpen, hprocessing]
    have hzero : (v.fannedOut id t).weight = 0 := rfl
    unfold Store.openOutbox
    rw [houtbox]
    omega
  -- and one notification more has all of its attempts to go
  have hleft : g'.1.attemptsLeft config = g.1.attemptsLeft config + max 1 config.maxAttempts := by
    unfold Store.attemptsLeft
    rw [hnotifications, Table.total_set_of_none hfresh, toGo_toNotification]
  refine ⟨fun u hu => ?_, hdistinct.2, fun r hr hstatus => ?_, ?_, ?_, fun n hn next heq => ?_,
    h.read.later htrace⟩
  · have hne : u.id ≠ (v.fannedOut id t).id := fun heq => hdistinct.1 (heq ▸ List.mem_map_of_mem hu)
    rw [houtbox, Table.get?_set, if_neg hne]
    exact h.claimed u (List.mem_cons_of_mem _ hu)
  -- claims of this tick are still to come; other claims were there before
  · rw [houtbox] at hr
    rcases Table.mem_rows_set.mp hr with rfl | ⟨hr, hne⟩
    · cases hstatus
    · rcases h.others r hr hstatus with hmem | hbusy
      · rcases List.mem_cons.mp hmem with rfl | hmem
        · exact absurd rfl hne
        · exact .inl hmem
      · exact .inr hbusy
  · have hrows := h.rows
    rw [List.length_cons] at hrows
    omega
  -- the row was worth at least as much as the attempts it turns into
  · have hwork := h.work
    unfold Store.work at hwork ⊢
    rw [← hopen, Nat.add_mul, Nat.one_mul] at hwork
    omega
  -- the new notification has no time planned
  · rw [hnotifications] at hn
    rcases Table.mem_rows_set.mp hn with rfl | ⟨hn, -⟩
    · cases heq
    · rcases h.planned n hn next heq with hin | ⟨t, hread, hle⟩
      · exact .inl hin
      · exact .inr ⟨t, hread.later htrace, hle⟩

/-- One row of the batch is fanned out. -/
theorem dispatchOneOutboxRow_fansOut {s : Store} {today : Time} {count m : Nat} {t : Time}
    {v : NotificationOutboxRecord} {vs : List NotificationOutboxRecord} {g : Recorded}
    (h : FanningOut config s today count (v :: vs) g) :
    Returns reliable.recorded (dispatchOneOutboxRow m t v) (fun _ => FanningOut config s today count vs) g := by
  refine Returns.bind (R := fun id g₁ => Aside g g₁ ∧ g.1.notifications.get? id = none) ?_
    fun id g₁ h₁ => Returns.tryCatch ?_
  -- the identifier is fresh, so the notification is a new row
  · refine returns_recorded fun c hc => ⟨aside_perform rfl c g.1 g.2, ?_⟩
    simp only [reliable, world, Bool.and_eq_true] at hc
    exact (isFresh_iff.mp hc.2.2.2).2.1
  · obtain ⟨h₁, hfresh⟩ := h₁
    refine Returns.bind (R := fun _ g₂ => g₂.1.notifications =
        g.1.notifications.set (v.toNotification id t) ∧ g₂.1.outbox = g.1.outbox ∧ g.2 <:+ g₂.2) ?_
      fun _ g₂ h₂ => ?_
    · refine returns_recorded fun c _ => ⟨?_, h₁.rows.2, h₁.trace.trans (List.suffix_cons _ _)⟩
      show g₁.1.notifications.set _ = _
      rw [h₁.rows.1]
    -- the row is closed behind its notification, with an event between them
    · obtain ⟨hnotifications, houtbox, htrace⟩ := h₂
      refine Returns.bind (emitEvent_aside _ _ _ _ g₂) fun _ g₃ h₃ => returns_recorded fun c _ => ?_
      refine h.dispatched id t hfresh (h₃.rows.1.trans hnotifications) ?_
        (htrace.trans (h₃.trace.trans (List.suffix_cons _ _)))
      show g₃.1.outbox.set _ = _
      rw [h₃.rows.2, houtbox]

/-- What a tick of the fan-out worker does: it takes back the claims that are abandoned, and
    where nothing else is claimed, at least one of the open rows is fanned out. -/
structure FannedOut (config : Config) (s : Store) (g : Recorded) : Prop where
  rows : g.1.openOutbox ≤ s.openOutbox
  tick : ∃ today, ReadsAt g.2 today ∧
    (∀ r ∈ g.1.outbox.rows, r.status = .processing → s.Busy config today r) ∧
    ((∀ r, ¬s.Busy config today r) → g.1.openOutbox ≤ s.openOutbox - 1)
  work : g.1.work config ≤ s.work config
  planned : Planned config s g

/-- Where a row is open and nothing is claimed, there is something to claim. -/
theorem length_pendingOutbox {s : Store} {limit : Nat} (hlimit : 1 ≤ limit) (hopen : 1 ≤ s.openOutbox)
    (h : ∀ r ∈ s.outbox.rows, r.status ≠ .processing) : 1 ≤ (s.pendingOutbox limit).length := by
  -- with no pending row nothing would be open
  obtain ⟨r, hr, hpending⟩ : ∃ r ∈ s.outbox.rows, decide (r.status = .pending) = true := by
    by_contra hnone
    have hzero : s.openOutbox = 0 := by
      refine Table.total_eq_zero_iff.mpr fun r hr => ?_
      have hnot : r.status ≠ .pending := fun heq => hnone ⟨r, hr, decide_eq_true heq⟩
      have hclosed : r.isOpen = false := by
        unfold NotificationOutboxRecord.isOpen
        split
        · exact absurd ‹_› hnot
        · exact absurd ‹_› (h r hr)
        · rfl
      rw [NotificationOutboxRecord.weight, hclosed, if_neg Bool.false_ne_true]
    omega
  have hlength : (s.pendingOutbox limit).length = min limit (s.outbox.rows.countP
      fun r => decide (r.status = .pending)) := List.length_firstBy
  have hcount : 0 < s.outbox.rows.countP fun r => decide (r.status = .pending) :=
    List.countP_pos_iff.mpr ⟨r, hr, hpending⟩
  omega

/-- A tick fans out every row of its batch. -/
theorem fanoutTick_fansOut (hlimit : 1 ≤ config.outboxBatchSize) (s : Store) :
    Returns reliable.recorded (fanoutTick config) (fun _ => FannedOut config s) (s, []) := by
  refine Returns.tryCatch (Returns.bind (returns_clock (s, [])) fun now g₁ h₁ => ?_)
  refine Returns.bind (returns_clock g₁) fun today g₂ h₂ => ?_
  obtain ⟨h₂, hread⟩ := h₂
  have h₂ := h₁.1.trans h₂
  -- the stale claims are taken back
  refine Returns.bind (R := fun _ g => g.1.notifications = s.notifications ∧ ReadsAt g.2 today ∧
      g.1.openOutbox = s.openOutbox ∧
      ∀ r ∈ g.1.outbox.rows, r.status = .processing → s.Busy config today r) ?_ fun _ g₃ h₃ => ?_
  · refine returns_recorded fun c _ => ⟨h₂.rows.1, hread.later (List.suffix_cons _ _), ?_⟩
    obtain ⟨s₂, tr⟩ := g₂
    obtain ⟨hopen, hbusy⟩ := recover_outbox config (s := s₂) now rfl
    have hsame : s₂.outbox = s.outbox := h₂.rows.2
    refine ⟨hopen.trans (congrArg (Table.total _) hsame), fun r hr hstatus => ?_⟩
    obtain ⟨hmem, hrest⟩ := hbusy r hr hstatus
    exact ⟨hsame ▸ hmem, hrest⟩
  obtain ⟨hnotifications, hread₃, hopen₃, hbusy₃⟩ := h₃
  -- some of the pending rows are claimed
  refine Returns.bind (R := fun rows g => FanningOut config s today rows.length rows g ∧
      ((∀ r, ¬s.Busy config today r) → 1 ≤ s.openOutbox → 1 ≤ rows.length)) ?_ fun rows g₄ h₄ => ?_
  · refine returns_recorded fun c _ => ?_
    obtain ⟨hopen, hclaimed, hnodup, hrows⟩ := claim_outbox g₃.1 now config.outboxBatchSize rfl
    refine ⟨⟨hclaimed, hnodup, fun r hr hstatus => ?_, ?_, ?_, fun n hn next heq => ?_,
      hread₃.later (List.suffix_cons _ _)⟩, fun hfree hpositive => ?_⟩
    · exact (hrows r hr).imp_right fun hold => hbusy₃ r hold hstatus
    · exact congrArg (· + _) (hopen.trans hopen₃)
    · show Store.attemptsLeft config (g₃.1.setOutbox _) + (g₃.1.setOutbox _).openOutbox * _ ≤ _
      rw [hopen, hopen₃]
      unfold Store.work Store.attemptsLeft
      rw [show (g₃.1.setOutbox _).notifications = s.notifications from hnotifications]
    · exact .inl ⟨n, hnotifications ▸ hn, heq⟩
    · show 1 ≤ ((g₃.1.pendingOutbox config.outboxBatchSize).map _).length
      rw [List.length_map]
      exact length_pendingOutbox hlimit (hopen₃ ▸ hpositive) fun r hr hstatus =>
        hfree r (hbusy₃ r hr hstatus)
  · obtain ⟨h₄, hsome⟩ := h₄
    have hloop : ∀ v vs g, FanningOut config s today rows.length (v :: vs) g →
        Returns reliable.recorded (dispatchOneOutboxRow config.maxDispatchAttempts now v)
          (fun _ => FanningOut config s today rows.length vs) g :=
      fun v vs g h => dispatchOneOutboxRow_fansOut h
    refine (Returns.forM hloop h₄).mono fun _ g h => ?_
    have hrows : g.1.openOutbox + rows.length = s.openOutbox := h.rows
    refine ⟨by omega, ⟨today, h.read, fun r hr hstatus => ?_, fun hfree => ?_⟩, h.work, h.planned⟩
    · exact (h.others r hr hstatus).resolve_left List.not_mem_nil
    · have hone := hsome hfree
      omega

/-! ## Runs -/

/-- The request read the clock at `t`. -/
def Reads (config : Config) (m : NotifyMove) (t : Time) : Prop := ReadsAt (moveTrace config m) t

/-- A later tick reads the clock at least the longest backoff after an earlier one. -/
def Spaced (config : Config) (ms : List NotifyMove) : Prop :=
  ms.Pairwise fun later earlier => ∀ t t', Reads config earlier t → Reads config later t' →
    t + config.retryMaxBackoffMs ≤ t'

/-- The ticks read the clock when all that is scheduled is due and all that is claimed is
    abandoned. -/
structure Rested (config : Config) (s : Store) (ms : List NotifyMove) : Prop where
  due : ∀ n ∈ s.notifications.rows, ∀ next, n.nextAttemptAt = some next →
    ∀ m ∈ ms, ∀ t, Reads config m t → next ≤ t
  abandoned : ∀ r ∈ s.outbox.rows, r.status = .processing →
    ∀ m ∈ ms, ∀ t, Reads config m t → r.Abandoned config t

def isFanoutTick : Request → Bool
  | .fanoutTick => true
  | _ => false

def isDeliveryTick : Request → Bool
  | .notificationTick => true
  | _ => false

def fanoutTicks (ms : List NotifyMove) : Nat := ms.countP fun m => isFanoutTick m.label.1

def deliveryTicks (ms : List NotifyMove) : Nat := ms.countP fun m => isDeliveryTick m.label.1

/-- The request is a tick of one of the workers. -/
def IsTick (m : NotifyMove) : Prop := isFanoutTick m.label.1 = true ∨ isDeliveryTick m.label.1 = true

section Steps

variable {m : NotifyMove} {rest : List NotifyMove}

/-- A tick of the fan-out worker. -/
theorem fanout_step (hlimit : 1 ≤ config.outboxBatchSize) (hlabel : isFanoutTick m.label.1 = true)
    (hstep : notifySeqStep config m.before m.label = some m.after) :
    FannedOut config m.before (m.after, moveTrace config m) := by
  refine seqStep_recorded (Q := FannedOut config m.before) ?_ hstep
  have htick : m.label.1 = .fanoutTick := by
    cases hreq : m.label.1 with
    | fanoutTick => rfl
    | _ =>
      rw [hreq] at hlabel
      exact nomatch hlabel
  rw [htick]
  exact .of_returns (.map (fanoutTick_fansOut hlimit m.before))

/-- A tick of the delivery worker. -/
theorem delivery_step (hlabel : isDeliveryTick m.label.1 = true)
    (hstep : notifySeqStep config m.before m.label = some m.after) :
    Delivered config m.before (m.after, moveTrace config m) := by
  refine seqStep_recorded (Q := Delivered config m.before) ?_ hstep
  have htick : m.label.1 = .notificationTick := by
    cases hreq : m.label.1 with
    | notificationTick => rfl
    | _ =>
      rw [hreq] at hlabel
      exact nomatch hlabel
  rw [htick]
  exact .of_returns (.map (notificationTick_delivers m.before))

/-- What a tick schedules is due for all the ticks after it. -/
theorem due_of_planned (hplanned : Planned config m.before (m.after, moveTrace config m))
    (hspaced : Spaced config (rest ++ [m])) (h : Rested config m.before (rest ++ [m])) :
    ∀ n ∈ m.after.notifications.rows, ∀ next, n.nextAttemptAt = some next →
      ∀ l ∈ rest, ∀ t, Reads config l t → next ≤ t := by
  intro n hn next heq l hl t' hread'
  rcases hplanned n hn next heq with ⟨n₀, hn₀, heq₀⟩ | ⟨t, hread, hle⟩
  · exact h.due n₀ hn₀ next heq₀ l (List.mem_append_left _ hl) t' hread'
  · have hgap := (List.pairwise_append.mp hspaced).2.2 l hl m (List.mem_singleton.mpr rfl)
    exact Nat.le_trans hle (hgap t t' hread hread')

/-- Where attempts are left and everything is due, the batch is not empty. -/
theorem length_dueNotifications {s : Store} {now : Time} (hbatch : 1 ≤ config.batchSize)
    (hleft : 1 ≤ s.attemptsLeft config)
    (hdue : ∀ n ∈ s.notifications.rows, ∀ next, n.nextAttemptAt = some next → next ≤ now) :
    1 ≤ (s.dueNotifications now config.batchSize).length := by
  obtain ⟨n, hn, hwaiting⟩ : ∃ n ∈ s.notifications.rows, n.isWaiting = true := by
    by_contra hnone
    have hzero : s.attemptsLeft config = 0 := by
      refine Table.total_eq_zero_iff.mpr fun n hn => if_neg fun hwaiting => hnone ⟨n, hn, hwaiting⟩
    omega
  have hlength : (s.dueNotifications now config.batchSize).length = min config.batchSize
      (s.notifications.rows.countP (NotificationEvent.isDue now)) := List.length_firstBy
  have hcount : 0 < s.notifications.rows.countP (NotificationEvent.isDue now) :=
    List.countP_pos_iff.mpr ⟨n, hn, isDue_iff.mpr ⟨hwaiting, fun _ next heq => hdue n hn next heq⟩⟩
  omega

end Steps

/-- What a run of ticks leaves: no more rows than it has ticks of the fan-out worker too few, no
    more work, and where all rows were fanned out, no more attempts than it has ticks of the
    delivery worker too few. -/
structure Drained (config : Config) (s : Store) (ms rest : List NotifyMove) (t : Store) : Prop where
  rested : Rested config t rest
  rows : t.openOutbox ≤ s.openOutbox - fanoutTicks ms
  work : t.work config ≤ s.work config
  attempts : s.openOutbox = 0 → t.attemptsLeft config ≤ s.attemptsLeft config - deliveryTicks ms

section Run

variable {s : Store} {m : NotifyMove} {ms rest : List NotifyMove}

/-- A tick of the fan-out brings the drain forward. -/
theorem Drained.fanout (h : Drained config s ms (rest ++ [m]) m.before)
    (hspaced : Spaced config (rest ++ [m])) (hlabel : isFanoutTick m.label.1 = true)
    (hm : FannedOut config m.before (m.after, moveTrace config m)) :
    Drained config s (m :: ms) rest m.after := by
  -- no claim is abandoned in what follows, so nothing keeps the tick from its rows
  obtain ⟨today, hread, hbusy, hprogress⟩ := hm.tick
  have hfree : ∀ r, ¬m.before.Busy config today r := fun r ⟨hr, hstatus, hnot⟩ =>
    hnot (h.rested.abandoned r hr hstatus m (by simp) today hread)
  have hticks : fanoutTicks (m :: ms) = fanoutTicks ms + 1 := List.countP_cons_of_pos hlabel
  have hother : deliveryTicks (m :: ms) = deliveryTicks ms := by
    refine List.countP_cons_of_neg fun hdelivery => ?_
    revert hlabel hdelivery
    cases m.label.1 <;> simp [isFanoutTick, isDeliveryTick]
  -- every tick takes one open row at least, while there is one
  have hrows := h.rows
  have hless : m.after.openOutbox ≤ m.before.openOutbox - 1 := hprogress hfree
  refine ⟨⟨due_of_planned hm.planned hspaced h.rested, fun r hr hstatus => ?_⟩, ?_,
    hm.work.trans h.work, fun hempty => ?_⟩
  · exact absurd (hbusy r hr hstatus) (hfree r)
  · rw [hticks]
    omega
  · -- no row is open, so nothing was fanned out
    have hzero : m.before.openOutbox = 0 := by omega
    have hwork : m.after.work config ≤ m.before.work config := hm.work
    unfold Store.work at hwork
    rw [hzero] at hwork
    have hattempts := h.attempts hempty
    rw [hother]
    omega

/-- So does a tick of the delivery. -/
theorem Drained.delivery (hbatch : 1 ≤ config.batchSize)
    (h : Drained config s ms (rest ++ [m]) m.before) (hspaced : Spaced config (rest ++ [m]))
    (hlabel : isDeliveryTick m.label.1 = true)
    (hm : Delivered config m.before (m.after, moveTrace config m)) :
    Drained config s (m :: ms) rest m.after := by
  -- a tick of the delivery leaves the outbox
  obtain ⟨now, hread, hattempts⟩ := hm.attempts
  have houtbox : m.after.outbox = m.before.outbox := hm.outbox
  have hopen : m.after.openOutbox = m.before.openOutbox := congrArg (Table.total _) houtbox
  have hticks : deliveryTicks (m :: ms) = deliveryTicks ms + 1 := List.countP_cons_of_pos hlabel
  have hother : fanoutTicks (m :: ms) = fanoutTicks ms := by
    refine List.countP_cons_of_neg fun hfanout => ?_
    revert hlabel hfanout
    cases m.label.1 <;> simp [isFanoutTick, isDeliveryTick]
  dsimp only at hattempts
  refine ⟨⟨due_of_planned hm.planned hspaced h.rested, fun r hr hstatus l hl => ?_⟩, ?_, ?_,
    fun hempty => ?_⟩
  · exact h.rested.abandoned r (houtbox ▸ hr) hstatus l (List.mem_append_left _ hl)
  · rw [hopen, hother]
    exact h.rows
  · have hwork := h.work
    unfold Store.work at hwork ⊢
    rw [hopen]
    omega
  · have hdone := h.attempts hempty
    rw [hticks]
    -- with attempts left there is a notification, and it is due
    by_cases hleft : 1 ≤ m.before.attemptsLeft config
    · have hdue : ∀ n ∈ m.before.notifications.rows, ∀ next, n.nextAttemptAt = some next →
          next ≤ now := fun n hn next heq => h.rested.due n hn next heq m (by simp) now hread
      have hlength := length_dueNotifications hbatch hleft hdue
      omega
    · omega

/-- Every run of ticks drains. The induction is on the run; `rest` are the ticks still to come. -/
theorem drained_of_run (hbatch : 1 ≤ config.batchSize) (hlimit : 1 ≤ config.outboxBatchSize)
    {t : Store} (run : Run (notifySeqStep config) s ms t) (hticks : ∀ m ∈ ms, IsTick m)
    (hspaced : Spaced config (rest ++ ms)) (hrested : Rested config s (rest ++ ms)) :
    Drained config s ms rest t := by
  induction run generalizing rest with
  | nil =>
    rw [List.append_nil] at hrested
    exact ⟨hrested, Nat.le_refl _, Nat.le_refl _, fun _ => Nat.le_refl _⟩
  | @cons ms t u a run hstep ih =>
    rw [List.append_cons] at hspaced hrested
    have hdrained := ih (fun m hm => hticks m (List.mem_cons_of_mem _ hm)) hspaced hrested
    have hlast := (List.pairwise_append.mp hspaced).1
    rcases hticks ⟨t, a, u⟩ List.mem_cons_self with hlabel | hlabel
    · exact hdrained.fanout (m := ⟨t, a, u⟩) hlast hlabel (fanout_step hlimit hlabel hstep)
    · exact hdrained.delivery (m := ⟨t, a, u⟩) hbatch hlast hlabel (delivery_step hlabel hstep)

end Run

/-- Ticks of both workers that do not overlap, on a repository that answers, the longest backoff
    apart, and whatever the provider answers: after as many ticks of the fan-out worker as rows
    are open, and then as many of the delivery worker as attempts may be left, every row of the
    outbox is dispatched or dead, and every notification is sent or given up. -/
theorem pipeline_drains (hbatch : 1 ≤ config.batchSize) (hlimit : 1 ≤ config.outboxBatchSize)
    {s₀ s₁ s : Store} {early late : List NotifyMove}
    (run : Run (notifySeqStep config) s₀ early s₁) (run' : Run (notifySeqStep config) s₁ late s)
    (hticks : ∀ m ∈ late ++ early, IsTick m) (hspaced : Spaced config (late ++ early))
    (hrested : Rested config s₀ (late ++ early)) (hfan : s₀.openOutbox ≤ fanoutTicks early)
    (hdeliver : s₀.work config ≤ deliveryTicks late) :
    (∀ r ∈ s.outbox.rows, r.status = .dispatched ∨ r.status = .dead) ∧
      ∀ n ∈ s.notifications.rows, n.deadLetter = true ∨ n.status.isFinal = true := by
  -- the early run closes the outbox, the late one delivers what came out of it
  have hearly := drained_of_run hbatch hlimit run
    (fun m hm => hticks m (List.mem_append_right _ hm)) hspaced hrested
  have hlate : Drained config s₁ late [] s := drained_of_run hbatch hlimit run'
    (fun m hm => hticks m (List.mem_append_left _ hm)) (List.pairwise_append.mp hspaced).1
    hearly.rested
  have hopen₁ : s₁.openOutbox = 0 := by
    have := hearly.rows
    omega
  have hopen : s.openOutbox = 0 := by
    have := hlate.rows
    omega
  -- without open rows all work is in the attempts, and there are ticks enough for them
  have hattempts : s.attemptsLeft config = 0 := by
    have hleft := hlate.attempts hopen₁
    have hwork := hearly.work
    unfold Store.work at hwork hdeliver
    omega
  -- nothing open, nothing to go: every row is closed, and every notification ended
  refine ⟨fun r hr => ?_, fun n hn => ?_⟩
  · have hweight := Table.total_eq_zero_iff.mp hopen r hr
    revert hweight
    unfold NotificationOutboxRecord.weight NotificationOutboxRecord.isOpen
    cases r.status <;> simp
  · have hzero := Table.total_eq_zero_iff.mp hattempts n hn
    by_contra hwaiting
    rw [not_or, Bool.not_eq_true, Bool.not_eq_true] at hwaiting
    have hone : 1 ≤ n.toGo config := toGo_pos (by simp [NotificationEvent.isWaiting, hwaiting])
    omega

/-! ## A concrete run -/

/-- The times that the request read. -/
def readings (config : Config) (m : NotifyMove) : List Time :=
  (moveTrace config m).filterMap fun x => match x.1 with
    | .clock => some x.2.now
    | _ => none

/-- The clock that a tick has read is among its readings. -/
theorem mem_readings {m : NotifyMove} {t : Time} (h : Reads config m t) : t ∈ readings config m := by
  obtain ⟨c, hc, rfl⟩ := h
  exact List.mem_filterMap.mpr ⟨_, hc, rfl⟩

/-- A worker stopped while it fanned this row out. -/
def abandonedRow : NotificationOutboxRecord where
  id := "nox_1"
  idempotencyKey := "k"
  eventType := "dispute.review_started"
  recipientId := "u1"
  channel := .inapp
  payload := []
  status := .processing
  attempts := 0
  createdAt := 0
  updatedAt := 0
  processingStartedAt := some 0

def sampleAbandoned : Store := { Store.empty with outbox := Table.empty.set abandonedRow }

/-- One tick fans the row out; one delivery fails, the next one succeeds. -/
def recoveredRun : List (Request × List Choice) :=
  oracleLabels reliable (handle twoAttempts)
    [(.fanoutTick, deliveryOracle "1" 100000 false),
      (.notificationTick, deliveryOracle "2" 200000 false),
      (.notificationTick, deliveryOracle "3" 300000 true)] sampleAbandoned

/-- The moves meet what `pipeline_drains` asks for. -/
def drainCheck (early late : List NotifyMove) : Bool :=
  decide (((late ++ early).Pairwise fun m' m => ∀ t ∈ readings twoAttempts m,
      ∀ t' ∈ readings twoAttempts m', t + twoAttempts.retryMaxBackoffMs ≤ t') ∧
    (∀ m ∈ late ++ early, isFanoutTick m.label.1 = true ∨ isDeliveryTick m.label.1 = true) ∧
    (∀ m ∈ late ++ early, ∀ t ∈ readings twoAttempts m, twoAttempts.staleProcessingMs < t) ∧
    fanoutTicks early = 1 ∧ deliveryTicks late = 2)

theorem pipeline_drains_recovered :
    ∃ early late s₁ s, Run (notifySeqStep twoAttempts) sampleAbandoned early s₁ ∧
      Run (notifySeqStep twoAttempts) s₁ late s ∧ s₁.HasStatus "ntf_1" .queued ∧
      s.HasStatus "ntf_1" .sent ∧
      (∀ r ∈ s.outbox.rows, r.status = .dispatched ∨ r.status = .dead) ∧
      ∀ n ∈ s.notifications.rows, n.deadLetter = true ∨ n.status.isFinal = true := by
  -- the run in two parts: the recovery first, then the delivery
  obtain ⟨early, s₁, run, hp⟩ := exists_run_of_replay (recoveredRun.take 1)
    (fun (r : List NotifyMove × Store) => r.2.status? "ntf_1" == some .queued &&
      (replay (notifySeqStep twoAttempts) r.2 (recoveredRun.drop 1) []).any fun r' =>
        drainCheck r.1 r'.1 && r'.2.status? "ntf_1" == some .sent)
    (by decide +kernel : (replay (notifySeqStep twoAttempts) sampleAbandoned _ []).any _ = true)
  rw [Bool.and_eq_true, beq_iff_eq] at hp
  obtain ⟨late, s, run', hp'⟩ := exists_run_of_replay (recoveredRun.drop 1) _ hp.2
  rw [Bool.and_eq_true, beq_iff_eq] at hp'
  obtain ⟨hspaced, hticks, hlate, hfan, hdeliver⟩ := of_decide_eq_true hp'.1
  -- the claim of the crashed worker is old enough at every clock of the run
  have hrested : Rested twoAttempts sampleAbandoned (late ++ early) := by
    refine ⟨fun n hn => (nomatch hn), fun r hr _ m hm t ht => ?_⟩
    rw [List.mem_singleton.mp hr]
    exact ⟨0, rfl, by rw [Nat.zero_add]; exact hlate m hm t (mem_readings ht)⟩
  refine ⟨early, late, s₁, s, run, run', hasStatus_iff.mpr hp.1, hasStatus_iff.mpr hp'.2, ?_⟩
  refine pipeline_drains (by decide) (by decide) run run' hticks ?_ hrested ?_ ?_
  · exact hspaced.imp fun hgap t t' ht ht' => hgap t (mem_readings ht) t' (mem_readings ht')
  · rw [hfan]
    decide
  · rw [hdeliver]
    decide

end Bluesafe.Notify
