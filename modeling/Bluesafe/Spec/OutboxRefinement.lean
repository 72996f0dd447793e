import Bluesafe.Spec.OutboxFanout
import Bluesafe.ForStd.Dedup

/-!
# The outbox against the direct path

With the outbox off, an occurrence stores one notification for every recipient and channel.
With the outbox on, it appends rows whose key is computed from their content, and the
fan-out worker stores the notifications later.

Both paths are followed through every sequence of occurrences and fan-out ticks in which no
call fails. The direct path stores every item (`DirectState`); the outbox holds the first
item of every key, and what is stored is what was dispatched (`FanoutState`). Two
occurrences with the same content are therefore notified once.
-/

namespace Bluesafe.Notify

open Async Transition
open scoped List
open Bluesafe.Ops (Time JsonObject)

/-! ## Contents -/

/-- What a notification says, to whom and how. -/
structure Content where
  eventType : String
  recipientId : String
  channel : NotificationChannel
  payload : JsonObject

def NotificationEvent.content (n : NotificationEvent) : Content :=
  ⟨n.eventType, n.recipientId, n.channel, n.payload⟩

def NotificationOutboxRecord.content (r : NotificationOutboxRecord) : Content :=
  ⟨r.eventType, r.recipientId, r.channel, r.payload⟩

def FanoutNotificationItem.content (it : FanoutNotificationItem) : Content :=
  ⟨it.eventType, it.recipientId, it.channel, it.payload⟩

/-- The idempotency key of a content. -/
def Content.key (config : Config) (x : Content) : String :=
  domainNotificationIdempotencyKey config.sha256 x.eventType x.recipientId x.channel x.payload

/-- The contents of the stored notifications, in the order in which they were created. -/
def Store.contents (s : Store) : List Content :=
  s.notifications.rows.map NotificationEvent.content

/-- The contents of an occurrence. -/
def Occurrence.contents (config : Config) (o : Occurrence) : List Content :=
  (o.items config).map FanoutNotificationItem.content

/-! ## Calls that are answered -/

/-- The rule for a call that cannot fail. -/
theorem returns_call {op : Call} {Q : op.Res → Store → Prop} {s : Store}
    (h : ∀ c, reliable.allow op c s = true → Q (perform op c s).1 (perform op c s).2) :
    Returns reliable (invoke op) Q s := by
  refine Returns.call fun c hc => ?_
  have hfail : c.failure = none := by
    simp only [reliable, Bool.and_eq_true, Option.isNone_iff_eq_none] at hc
    exact hc.1
  have hserve : reliable.serve op c s = (.ok (perform op c s).1, (perform op c s).2) := by
    simp only [reliable, serve, hfail]
  rw [hserve]
  exact ⟨_, rfl, h c hc⟩

/-- A new identifier. -/
theorem returns_randomId {tag : String} {Q : String → Store → Prop} {s : Store}
    (h : ∀ id, s.isFresh id = true → Q id { s with issued := id :: s.issued }) :
    Returns reliable (randomId tag) Q s := by
  refine returns_call fun c hc => h c.id ?_
  simp only [reliable, world, Bool.and_eq_true] at hc
  exact hc.2.2.2

/-- The two stores have the same rows. -/
def Store.SameRows (s s' : Store) : Prop :=
  s'.notifications = s.notifications ∧ s'.outbox = s.outbox

/-- An event leaves the rows as they are. -/
theorem returns_emitEvent {eventType entityType entityId : String} {payload : JsonObject}
    (s : Store) :
    Returns reliable (emitEvent eventType entityType entityId payload)
      (fun _ s' => s.SameRows s') s := by
  have hid : ∀ tag (s₁ : Store), s.SameRows s₁ →
      Returns reliable (randomId tag) (fun _ s' => s.SameRows s') s₁ :=
    fun tag s₁ h => returns_randomId fun _ _ => h
  have hclock : ∀ s₁ : Store, s.SameRows s₁ →
      Returns reliable nowIso (fun _ s' => s.SameRows s') s₁ :=
    fun s₁ h => returns_call fun _ _ => h
  refine Returns.bind (hid "evt" s ⟨rfl, rfl⟩) fun eventId s₁ hs₁ => ?_
  refine Returns.bind (hid "trc" s₁ hs₁) fun traceId s₂ hs₂ => ?_
  exact Returns.bind (hclock s₂ hs₂) fun t s₃ hs₃ => returns_call fun _ _ => hs₃

/-- A loop over items that adds their contents one after the other. -/
theorem returns_forM_items {St : List Content → Store → Prop} {f : FanoutNotificationItem → NotifyM Unit}
    (hstep : ∀ base it s, St base s → Returns reliable (f it) (fun _ => St (base ++ [it.content])) s)
    {items : List FanoutNotificationItem} {base : List Content} {s : Store} (h : St base s) :
    Returns reliable (items.forM f)
      (fun _ => St (base ++ items.map FanoutNotificationItem.content)) s := by
  induction items generalizing base s with
  | nil =>
    refine Returns.pure ?_
    simpa using h
  | cons it items ih =>
    refine Returns.bind (hstep base it s h) fun _ s' h' => ?_
    have hrest := ih h'
    rwa [List.append_assoc] at hrest

/-- An occurrence enqueues its items. -/
theorem returns_enqueueOccurrence (St : List Content → Store → Prop) (config : Config)
    (hstep : ∀ base it now s, St base s →
      Returns reliable (if config.domainOutbox then enqueueToOutbox config now it
        else enqueueDirectly now it) (fun _ => St (base ++ [it.content])) s)
    {o : Occurrence} {base : List Content} {s : Store} (h : St base s) :
    Returns reliable (enqueueOccurrence config o) (fun _ => St (base ++ o.contents config)) s := by
  -- the items are put into the list under the clock that was read
  have hitems : Returns reliable (enqueueFanoutNotificationItems config (o.items config))
      (fun _ => St (base ++ o.contents config)) s := by
    have htime : Returns reliable nowIso (fun _ s' => St base s') s := returns_call fun _ _ => h
    refine Returns.bind htime fun now s' h' => ?_
    -- the list is the outbox table, or the notifications themselves
    by_cases hon : config.domainOutbox = true
    · simp only [hon, if_true] at hstep ⊢
      exact returns_forM_items (fun base it s => hstep base it now s) h'
    · simp only [hon] at hstep ⊢
      exact returns_forM_items (fun base it s => hstep base it now s) h'
  -- a domain event has items only when its type is one of the automatic ones
  cases o with
  | domain eventType recipientIds payload =>
    simp only [enqueueOccurrence]
    split
    · exact hitems
    · rename_i hauto
      refine Returns.pure ?_
      simpa [Occurrence.contents, Occurrence.items, hauto] using h
  | settlementConfirmed c => exact hitems

/-! ## The direct path -/

/-- Every item is stored, and the outbox is not used. -/
structure DirectState (items : List Content) (s : Store) : Prop where
  stored : s.contents = items
  unused : s.outbox.rows = []

/-- The direct state depends on the rows only. -/
theorem DirectState.congr {items : List Content} {s s' : Store} (h : DirectState items s)
    (hsame : s.SameRows s') : DirectState items s' where
  stored := by
    unfold Store.contents
    rw [hsame.1]
    exact h.stored
  unused := by rw [hsame.2]; exact h.unused

/-- An item is stored as one notification. -/
theorem returns_enqueueDirectly (now : Time) (it : FanoutNotificationItem) (s : Store) :
    Returns reliable (enqueueDirectly now it)
      (fun _ s' => s'.contents = s.contents ++ [it.content] ∧ s'.outbox = s.outbox) s := by
  -- the new identifier is of no stored row
  have hid : Returns reliable (randomId "ntf")
      (fun id s' => s'.notifications.get? id = none ∧ s.SameRows s') s :=
    returns_randomId fun id hfresh => ⟨(isFresh_iff.mp hfresh).2.1, rfl, rfl⟩
  refine Returns.bind hid fun id s₁ hs₁ => ?_
  obtain ⟨hnone, hnotifications, houtbox⟩ := hs₁
  -- so the saved row is appended, and the content is at the end
  have hsave : Returns reliable (saveNotification (queuedNotification id it.eventType
      it.recipientId it.channel it.payload now))
      (fun _ s' => s'.contents = s.contents ++ [it.content] ∧ s'.outbox = s.outbox) s₁ := by
    refine returns_call fun c _ => ⟨?_, houtbox⟩
    have hrows := Table.rows_set_of_none (t := s₁.notifications)
      (v := queuedNotification id it.eventType it.recipientId it.channel it.payload now) hnone
    show List.map _ (Table.set _ _).rows = _
    rw [hrows, List.map_append, hnotifications]
    rfl
  refine Returns.bind hsave fun _ s₂ hs₂ => ?_
  -- the event written after it touches neither table
  refine (returns_emitEvent s₂).mono fun _ s₃ hsame => ⟨?_, hsame.2.trans hs₂.2⟩
  unfold Store.contents
  rw [hsame.1]
  exact hs₂.1

/-- A direct notification is appended. -/
theorem enqueueDirectly_returns {now : Time} {it : FanoutNotificationItem} {items : List Content}
    {s : Store} (h : DirectState items s) :
    Returns reliable (enqueueDirectly now it) (fun _ => DirectState (items ++ [it.content])) s := by
  refine (returns_enqueueDirectly now it s).mono fun _ s' hs' => ⟨?_, ?_⟩
  · rw [hs'.1, h.stored]
  · rw [hs'.2]
    exact h.unused

/-- The direct way stores one notification for each item, in their order. -/
theorem returns_enqueueFanout {config : Config} (hdirect : config.domainOutbox = false)
    (items : List FanoutNotificationItem) (s : Store) :
    Returns reliable (enqueueFanoutNotificationItems config items)
      (fun _ s' => s'.contents = s.contents ++ items.map FanoutNotificationItem.content) s := by
  have hclock : Returns reliable nowIso (fun _ s' => s' = s) s := returns_call fun _ _ => rfl
  refine Returns.bind hclock fun now s₁ hs₁ => ?_
  rw [hs₁, hdirect]
  have hstep : ∀ base it s', s'.contents = s.contents ++ base →
      Returns reliable (enqueueDirectly now it)
        (fun _ s'' => s''.contents = s.contents ++ (base ++ [it.content])) s' := by
    intro base it s' hs'
    refine (returns_enqueueDirectly now it s').mono fun _ s'' hs'' => ?_
    rw [hs''.1, hs', List.append_assoc]
  exact @returns_forM_items (fun base s' => s'.contents = s.contents ++ base) _ hstep items [] s
    (List.append_nil _).symm

/-- A fan-out tick finds no row. -/
theorem fanoutTick_returns_direct {config : Config} {items : List Content} {s : Store}
    (h : DirectState items s) :
    Returns reliable (fanoutTick config) (fun _ => DirectState items) s := by
  refine Returns.tryCatch ?_
  -- the clock and the call both leave the tables
  have hclock : ∀ s', DirectState items s' →
      Returns reliable nowIso (fun _ => DirectState items) s' :=
    fun s' h' => returns_call fun _ _ => h'
  refine Returns.bind (hclock s h) fun now s₁ h₁ => Returns.bind (hclock s₁ h₁) fun today s₂ h₂ => ?_
  -- the outbox is unused here: nothing is recovered
  have hrecover : Returns reliable (invoke (.recoverStaleNotificationOutboxProcessing
      (today - config.staleProcessingMs) now)) (fun _ => DirectState items) s₂ := by
    refine returns_call fun c _ => ?_
    simp only [perform, h₂.unused, List.filter_nil, List.map_nil]
    exact h₂
  refine Returns.bind hrecover fun _ s₃ h₃ => ?_
  -- and nothing is claimed
  have hclaim : Returns reliable (invoke (.claimNotificationOutboxPending config.outboxBatchSize now))
      (fun rows s' => rows = [] ∧ DirectState items s') s₃ := by
    refine returns_call fun c _ => ?_
    have hpending : s₃.pendingOutbox config.outboxBatchSize = [] := by
      simp [Store.pendingOutbox, h₃.unused]
    simp only [perform, hpending, List.map_nil]
    exact ⟨trivial, h₃⟩
  -- so the tick has no row to dispatch
  refine Returns.bind hclaim fun rows s₄ hs₄ => ?_
  obtain ⟨rfl, h₄⟩ := hs₄
  exact Returns.pure h₄

/-! ## The outbox path -/

/-- The row has been fanned out. -/
def NotificationOutboxRecord.isDispatched (r : NotificationOutboxRecord) : Bool :=
  decide (r.status = .dispatched)

/-- The outbox holds the first item of every key, and the stored notifications are those of
    its dispatched rows; `todo` are the claimed rows that are not yet dispatched. -/
structure FanoutState (config : Config) (items : List Content)
    (todo : List NotificationOutboxRecord) (s : Store) : Prop where
  rows : s.outbox.rows.map NotificationOutboxRecord.content = items.firstPerKey (Content.key config)
  keys : ∀ r ∈ s.outbox.rows, r.idempotencyKey = r.content.key config
  stored : s.contents ~
    ((s.outbox.rows.filter NotificationOutboxRecord.isDispatched).map
      NotificationOutboxRecord.content)
  status : ∀ r ∈ s.outbox.rows, r.status = .pending ∨ r.status = .dispatched ∨
    (r.status = .processing ∧ ∃ v ∈ todo, v.id = r.id)
  claimed : ∀ v ∈ todo, ∃ w, s.outbox.get? v.id = some w ∧ w.content = v.content ∧
    w.idempotencyKey = v.idempotencyKey ∧ w.isDispatched = false
  nodup : (todo.map NotificationOutboxRecord.id).Nodup

namespace FanoutState

variable {config : Config} {items : List Content} {todo : List NotificationOutboxRecord}
  {s s' : Store}

/-- The state of the fan-out depends on the rows only. -/
theorem congr (h : FanoutState config items todo s) (hsame : s.SameRows s') :
    FanoutState config items todo s' := by
  obtain ⟨hn, ho⟩ := hsame
  have hcontents : s'.contents = s.contents := by
    unfold Store.contents
    rw [hn]
  constructor
  case rows => rw [ho]; exact h.rows
  case keys => rw [ho]; exact h.keys
  case stored => rw [hcontents, ho]; exact h.stored
  case status => rw [ho]; exact h.status
  case claimed => rw [ho]; exact h.claimed
  case nodup => exact h.nodup

/-- The order of the claimed rows plays no part. -/
theorem perm (h : FanoutState config items todo s) {todo' : List NotificationOutboxRecord}
    (hperm : todo.Perm todo') : FanoutState config items todo' s where
  rows := h.rows
  keys := h.keys
  stored := h.stored
  status := by
    intro r hr
    rcases h.status r hr with hp | hd | ⟨hproc, v, hv, hid⟩
    · exact .inl hp
    · exact .inr (.inl hd)
    · exact .inr (.inr ⟨hproc, v, hperm.mem_iff.mp hv, hid⟩)
  claimed := fun v hv => h.claimed v (hperm.mem_iff.mpr hv)
  nodup := (hperm.map _).nodup_iff.mp h.nodup

/-- The empty store has nothing to fan out. -/
theorem empty : FanoutState config [] [] Store.empty where
  rows := rfl
  keys := by simp [Store.empty, Table.empty]
  stored := List.Perm.refl _
  status := by simp [Store.empty, Table.empty]
  claimed := by simp
  nodup := List.nodup_nil

/-- A row is appended unless its key is in use. -/
theorem append (h : FanoutState config items [] s) {it : FanoutNotificationItem} {id : String}
    {now : Time} (hfresh : s.outbox.get? id = none) (c : Choice) :
    FanoutState config (items ++ [it.content]) []
      (perform (.appendNotificationOutbox (it.toOutbox config id now)) c s).2 := by
  have hrow : (it.toOutbox config id now).idempotencyKey = it.content.key config := rfl
  -- The keys in use are those of the contents that are kept.
  have hkeys : (s.outbox.rows.any fun r =>
      decide (r.idempotencyKey = (it.toOutbox config id now).idempotencyKey)) = true ↔
      it.content.key config ∈ (items.firstPerKey (Content.key config)).map (Content.key config) := by
    rw [hrow, ← h.rows, List.map_map]
    simp only [List.any_eq_true, decide_eq_true_eq, List.mem_map, Function.comp]
    constructor
    · rintro ⟨r, hr, hk⟩
      exact ⟨r, hr, (h.keys r hr).symm.trans hk⟩
    · rintro ⟨r, hr, hk⟩
      exact ⟨r, hr, (h.keys r hr).trans hk⟩
  simp only [perform]
  split
  · rename_i hused
    refine { h with rows := ?_ }
    rw [h.rows, List.firstPerKey_concat, List.insertNew, if_pos (hkeys.mp hused)]
  · rename_i hnew
    have hset : (s.outbox.set (it.toOutbox config id now)).rows =
        s.outbox.rows ++ [it.toOutbox config id now] := Table.rows_set_of_none hfresh
    have hrows : (s.setOutbox [it.toOutbox config id now]).outbox.rows =
        s.outbox.rows ++ [it.toOutbox config id now] := hset
    constructor
    case rows =>
      rw [hrows, List.map_append, h.rows, List.firstPerKey_concat, List.insertNew,
        if_neg fun hmem => hnew (hkeys.mpr hmem)]
      rfl
    case keys =>
      intro r hr
      rw [hrows, List.mem_append, List.mem_singleton] at hr
      rcases hr with hr | rfl
      · exact h.keys r hr
      · rfl
    case stored =>
      have hpending : (it.toOutbox config id now).isDispatched = false := rfl
      show s.contents.Perm _
      rw [hrows, List.filter_append, List.filter_cons_of_neg (by simp [hpending]), List.filter_nil,
        List.append_nil]
      exact h.stored
    case status =>
      intro r hr
      rw [hrows, List.mem_append, List.mem_singleton] at hr
      rcases hr with hr | rfl
      · exact h.status r hr
      · exact .inl rfl
    case claimed => simp
    case nodup => exact List.nodup_nil

/-- A pending row is claimed. -/
theorem claim (h : FanoutState config items todo s) {w : NotificationOutboxRecord} (now : Time)
    (hw : s.outbox.get? w.id = some w) (hpending : w.status = .pending)
    (hnew : w.id ∉ todo.map NotificationOutboxRecord.id) :
    FanoutState config items (w.claimed now :: todo) (s.setOutbox [w.claimed now]) := by
  have hget : s.outbox.get? (w.claimed now).id = some w := hw
  have hw' : w.isDispatched = false := by simp [NotificationOutboxRecord.isDispatched, hpending]
  constructor
  case rows =>
    -- a claim changes the marks of a row, not its content
    show List.map _ (s.outbox.set (w.claimed now)).rows = _
    rw [Table.map_rows_set hget rfl]
    exact h.rows
  case keys =>
    intro r hr
    rcases Table.mem_rows_set.mp hr with rfl | ⟨hr, -⟩
    · exact h.keys w (Table.mem_of_get? hw)
    · exact h.keys r hr
  case stored =>
    show s.contents.Perm (List.map _ (List.filter _ (s.outbox.set (w.claimed now)).rows))
    rw [Table.filter_rows_set_eq hget hw' rfl]
    exact h.stored
  case status =>
    intro r hr
    rcases Table.mem_rows_set.mp hr with rfl | ⟨hr, -⟩
    · exact .inr (.inr ⟨rfl, _, List.mem_cons_self, rfl⟩)
    · rcases h.status r hr with hp | hd | ⟨hproc, v, hv, hid⟩
      · exact .inl hp
      · exact .inr (.inl hd)
      · exact .inr (.inr ⟨hproc, v, List.mem_cons_of_mem _ hv, hid⟩)
  case claimed =>
    intro v hv
    show ∃ w', (s.outbox.set (w.claimed now)).get? v.id = some w' ∧ _
    rcases List.mem_cons.mp hv with rfl | hv
    · exact ⟨_, Table.get?_set_self _ _, rfl, rfl, rfl⟩
    · -- the rows that were claimed before are others
      have hne : v.id ≠ (w.claimed now).id := fun heq =>
        hnew (heq ▸ List.mem_map_of_mem hv)
      rw [Table.get?_set, if_neg hne]
      exact h.claimed v hv
  case nodup =>
    rw [List.map_cons, List.nodup_cons]
    exact ⟨hnew, h.nodup⟩

/-- Several pending rows are claimed. -/
theorem claim_all {ws : List NotificationOutboxRecord} (h : FanoutState config items todo s)
    (now : Time)
    (hws : ∀ w ∈ ws, s.outbox.get? w.id = some w ∧ w.status = .pending)
    (hnodup : ((ws.reverse ++ todo).map NotificationOutboxRecord.id).Nodup) :
    FanoutState config items
      ((ws.map (NotificationOutboxRecord.claimed now)).reverse ++ todo)
      (s.setOutbox (ws.map (NotificationOutboxRecord.claimed now))) := by
  induction ws generalizing s todo with
  | nil => exact h
  | cons w ws ih =>
    obtain ⟨hw, hpending⟩ := hws w List.mem_cons_self
    simp only [List.reverse_cons, List.append_assoc, List.singleton_append, List.map_append,
      List.map_cons] at hnodup
    have hparts := List.nodup_append.mp hnodup
    -- claimed one after the other: the first row is not among the others
    have hnew : w.id ∉ todo.map NotificationOutboxRecord.id := (List.nodup_cons.mp hparts.2.1).1
    have hrest := ih (h.claim now hw hpending hnew) ?_ ?_
    · simp only [List.map_cons, List.reverse_cons, List.append_assoc, List.singleton_append]
      exact hrest
    · intro u hu
      have hne : u.id ≠ (w.claimed now).id := by
        refine hparts.2.2 u.id ?_ w.id (by simp)
        simpa using ⟨u, hu, rfl⟩
      show (s.outbox.set (w.claimed now)).get? u.id = some u ∧ _
      rw [Table.get?_set, if_neg hne]
      exact hws u (List.mem_cons_of_mem _ hu)
    · rw [List.map_append, List.map_cons]
      exact hnodup

/-- A claimed row is dispatched: its notification is stored and the row is marked. -/
theorem dispatch {v : NotificationOutboxRecord} (h : FanoutState config items (v :: todo) s)
    {id : String} {t : Time} (hfresh : s.notifications.get? id = none) :
    FanoutState config items todo
      { s with
        notifications := s.notifications.set (v.toNotification id t)
        outbox := s.outbox.set (v.fannedOut id t) } := by
  obtain ⟨w, hw, hcontent, hkey, hopen⟩ := h.claimed v List.mem_cons_self
  have hget : s.outbox.get? (v.fannedOut id t).id = some w := hw
  have hnodup := h.nodup
  rw [List.map_cons, List.nodup_cons] at hnodup
  constructor
  case rows =>
    show List.map _ (s.outbox.set (v.fannedOut id t)).rows = _
    rw [Table.map_rows_set hget hcontent.symm]
    exact h.rows
  case keys =>
    intro r hr
    rcases Table.mem_rows_set.mp hr with rfl | ⟨hr, -⟩
    · have hwkey := h.keys w (Table.mem_of_get? hw)
      rw [hkey, hcontent] at hwkey
      exact hwkey
    · exact h.keys r hr
  case stored =>
    -- the new notification has the content of the row, which counts as dispatched from now on
    have hrows : (s.notifications.set (v.toNotification id t)).rows =
        s.notifications.rows ++ [v.toNotification id t] := Table.rows_set_of_none hfresh
    have hdispatched := Table.filter_rows_set_perm (p := NotificationOutboxRecord.isDispatched)
      hget hopen rfl
    calc (s.notifications.set (v.toNotification id t)).rows.map NotificationEvent.content
        = s.contents ++ [v.content] := by rw [hrows, List.map_append]; rfl
      _ ~ v.content :: s.contents := List.perm_append_singleton _ _
      _ ~ v.content :: (s.outbox.rows.filter NotificationOutboxRecord.isDispatched).map
            NotificationOutboxRecord.content := h.stored.cons _
      _ ~ _ := (hdispatched.map NotificationOutboxRecord.content).symm
  case status =>
    intro r hr
    rcases Table.mem_rows_set.mp hr with rfl | ⟨hr, hne⟩
    · exact .inr (.inl rfl)
    · rcases h.status r hr with hp | hd | ⟨hproc, u, hu, hid⟩
      · exact .inl hp
      · exact .inr (.inl hd)
      · rcases List.mem_cons.mp hu with rfl | hu
        · exact absurd hid.symm hne
        · exact .inr (.inr ⟨hproc, u, hu, hid⟩)
  case claimed =>
    intro u hu
    have hne : u.id ≠ (v.fannedOut id t).id := fun heq =>
      hnodup.1 (heq ▸ List.mem_map_of_mem hu)
    show ∃ w', (s.outbox.set (v.fannedOut id t)).get? u.id = some w' ∧ _
    rw [Table.get?_set, if_neg hne]
    exact h.claimed u (List.mem_cons_of_mem _ hu)
  case nodup => exact hnodup.2

/-- Between two ticks no row is stale. -/
theorem no_stale (h : FanoutState config items [] s) (staleBefore : Time) :
    s.outbox.rows.filter (NotificationOutboxRecord.isStale staleBefore) = [] := by
  rw [List.filter_eq_nil_iff]
  intro r hr
  rcases h.status r hr with hp | hd | ⟨-, v, hv, -⟩
  · simp [NotificationOutboxRecord.isStale, hp]
  · simp [NotificationOutboxRecord.isStale, hd]
  · simp at hv

end FanoutState

/-- The pending rows that are claimed have different identifiers. -/
theorem nodup_pendingOutbox (s : Store) (limit : Nat) :
    ((s.pendingOutbox limit).map NotificationOutboxRecord.id).Nodup := by
  have hfilter : ((s.outbox.rows.filter fun r => decide (r.status = .pending)).map
      NotificationOutboxRecord.id).Nodup :=
    s.outbox.nodup.sublist (List.filter_sublist.map _)
  have hsorted := ((List.perm_insertionSort (fun a b : NotificationOutboxRecord =>
    a.createdAt ≤ b.createdAt) _).map NotificationOutboxRecord.id).nodup_iff.mpr hfilter
  exact hsorted.sublist ((List.take_sublist _ _).map _)

/-- A row of the outbox is appended, unless its key is there. -/
theorem enqueueToOutbox_returns {config : Config} {now : Time} {it : FanoutNotificationItem}
    {items : List Content} {s : Store} (h : FanoutState config items [] s) :
    Returns reliable (enqueueToOutbox config now it)
      (fun _ => FanoutState config (items ++ [it.content]) []) s := by
  have hid : Returns reliable (randomId "nox")
      (fun id s' => s'.outbox.get? id = none ∧ FanoutState config items [] s') s :=
    returns_randomId fun id hfresh => ⟨(isFresh_iff.mp hfresh).2.2, h.congr ⟨rfl, rfl⟩⟩
  refine Returns.bind hid fun id s₁ hs₁ => ?_
  have happend : Returns reliable (invoke (.appendNotificationOutbox (it.toOutbox config id now)))
      (fun _ => FanoutState config (items ++ [it.content]) []) s₁ :=
    returns_call fun c _ => hs₁.2.append hs₁.1 c
  refine Returns.bind happend fun inserted s₂ h₂ => ?_
  split
  · exact (returns_emitEvent s₂).mono fun _ s₃ hsame => h₂.congr hsame
  · exact Returns.pure h₂

/-- One row is fanned out, and its notification stored. -/
theorem dispatchOneOutboxRow_returns {config : Config} {m : Nat} {t : Time}
    {v : NotificationOutboxRecord} {todo : List NotificationOutboxRecord} {items : List Content}
    {s : Store} (h : FanoutState config items (v :: todo) s) :
    Returns reliable (dispatchOneOutboxRow m t v) (fun _ => FanoutState config items todo) s := by
  have hid : Returns reliable (randomId "ntf")
      (fun id s' => s'.notifications.get? id = none ∧ FanoutState config items (v :: todo) s') s :=
    returns_randomId fun id hfresh => ⟨(isFresh_iff.mp hfresh).2.1, h.congr ⟨rfl, rfl⟩⟩
  refine Returns.bind hid fun id s₁ hs₁ => Returns.tryCatch ?_
  -- The notification is stored first; the row is marked after the event.
  have hsave : Returns reliable (saveNotification (v.toNotification id t))
      (fun _ s' => s'.notifications = s₁.notifications.set (v.toNotification id t) ∧
        s'.outbox = s₁.outbox) s₁ :=
    returns_call fun _ _ => ⟨rfl, rfl⟩
  refine Returns.bind hsave fun _ s₂ hs₂ => ?_
  refine Returns.bind (returns_emitEvent s₂) fun _ s₃ hs₃ => returns_call fun _ _ => ?_
  refine (hs₁.2.dispatch (t := t) hs₁.1).congr ⟨?_, ?_⟩
  · exact hs₃.1.trans hs₂.1
  · show s₃.outbox.set _ = s₁.outbox.set _
    rw [hs₃.2, hs₂.2]

/-- A tick fans out every row that is pending. -/
theorem fanoutTick_returns {config : Config} {items : List Content} {s : Store}
    (h : FanoutState config items [] s) :
    Returns reliable (fanoutTick config) (fun _ => FanoutState config items []) s := by
  refine Returns.tryCatch ?_
  -- the same walk as above, now over a table that is in use
  have hclock : ∀ s', FanoutState config items [] s' →
      Returns reliable nowIso (fun _ => FanoutState config items []) s' :=
    fun s' h' => returns_call fun _ _ => h'
  refine Returns.bind (hclock s h) fun now s₁ h₁ => Returns.bind (hclock s₁ h₁) fun today s₂ h₂ => ?_
  -- no row is stale, because every claim was followed by its dispatch
  have hrecover : Returns reliable (invoke (.recoverStaleNotificationOutboxProcessing
      (today - config.staleProcessingMs) now)) (fun _ => FanoutState config items []) s₂ := by
    refine returns_call fun c _ => ?_
    simp only [perform, h₂.no_stale, List.map_nil]
    exact h₂
  refine Returns.bind hrecover fun _ s₃ h₃ => ?_
  -- every waiting row is claimed by this tick
  have hclaim : Returns reliable (invoke (.claimNotificationOutboxPending config.outboxBatchSize now))
      (fun rows => FanoutState config items rows) s₃ := by
    refine returns_call fun c _ => ?_
    -- a batch names no row twice
    have hnodup : (((s₃.pendingOutbox config.outboxBatchSize).reverse ++ []).map
        NotificationOutboxRecord.id).Nodup := by
      rw [List.append_nil, List.map_reverse, List.nodup_reverse]
      exact nodup_pendingOutbox s₃ config.outboxBatchSize
    have hall := h₃.claim_all now (fun w hw => mem_pendingOutbox hw) hnodup
    rw [List.append_nil] at hall
    exact hall.perm (List.reverse_perm _)
  refine Returns.bind hclaim fun rows s₄ h₄ => ?_
  -- one step of the loop: the row that is dispatched leaves the list
  have hloop : ∀ v todo s', FanoutState config items (v :: todo) s' →
      Returns reliable (dispatchOneOutboxRow config.maxDispatchAttempts now v)
        (fun _ => FanoutState config items todo) s' :=
    fun v todo s' h' => dispatchOneOutboxRow_returns h'
  -- induction on the claimed rows, by the rule for loops
  exact Returns.forM hloop h₄

/-! ## Sequences of occurrences and ticks -/

/-- A step of the sequential system: a request with the choices made for its calls. -/
abbrev FlowMove : Type := Move Store (Request × List Choice)

/-- An occurrence, or a tick of the fan-out worker. -/
def Request.isFlow : Request → Bool
  | .occurrence _ => true
  | .fanoutTick => true
  | _ => false

/-- The occurrence of a request. -/
def Request.occurrences : Request → List Occurrence
  | .occurrence o => [o]
  | _ => []

/-- The occurrences of a run, oldest first. -/
def occurrencesOf : List FlowMove → List Occurrence
  | [] => []
  | m :: ms => occurrencesOf ms ++ m.label.1.occurrences

/-- The occurrences of a run, in the order they came. -/
theorem occurrencesOf_eq (ms : List FlowMove) :
    occurrencesOf ms = (ms.map Move.label).reverse.flatMap fun a => a.1.occurrences := by
  induction ms with
  | nil => rfl
  | cons m ms ih => simp [occurrencesOf, ih]

/-- What every occurrence and every tick keeps holds along a run. -/
theorem state_of_run (St : List Content → Store → Prop) (config : Config)
    (hempty : St [] Store.empty)
    (hoccurrence : ∀ base o s, St base s →
      Returns reliable (enqueueOccurrence config o) (fun _ => St (base ++ o.contents config)) s)
    (htick : ∀ base s, St base s → Returns reliable (fanoutTick config) (fun _ => St base) s)
    {ms : List FlowMove} {s : Store}
    (run : Run (seqStep reliable (handle config)) Store.empty ms s)
    (hflow : ∀ m ∈ ms, m.label.1.isFlow = true) :
    St ((occurrencesOf ms).flatMap (Occurrence.contents config)) s := by
  induction run with
  | nil => exact hempty
  | @cons ms s s' a run hstep ih =>
    have hbefore := ih fun m hm => hflow m (List.mem_cons_of_mem _ hm)
    have hthis := hflow _ List.mem_cons_self
    obtain ⟨req, cs⟩ := a
    simp only [occurrencesOf, List.flatMap_append]
    cases req with
    | occurrence o =>
      have hhandle : Returns reliable (handle config (.occurrence o))
          (fun _ => St ((occurrencesOf ms).flatMap (Occurrence.contents config) ++
            o.contents config)) s :=
        Returns.map (hoccurrence _ o s hbefore)
      -- an occurrence adds its contents, a tick adds nothing
      have hnext := Returns.seqStep (a := (Request.occurrence o, cs)) hhandle hstep
      simpa [Request.occurrences] using hnext
    | fanoutTick =>
      have hhandle : Returns reliable (handle config .fanoutTick)
          (fun _ => St ((occurrencesOf ms).flatMap (Occurrence.contents config))) s :=
        Returns.map (htick _ s hbefore)
      have hnext := Returns.seqStep (a := (Request.fanoutTick, cs)) hhandle hstep
      simpa [Request.occurrences] using hnext
    | _ => exact nomatch hthis

/-- The two settings of `NOTIFICATION_DOMAIN_OUTBOX`. -/
def Config.withOutbox (config : Config) (on : Bool) : Config :=
  { config with domainOutbox := on }

/-- What a run without the outbox has stored. -/
theorem directState_of_run {config : Config} {ms : List FlowMove} {s : Store}
    (run : Run (seqStep reliable (handle (config.withOutbox false))) Store.empty ms s)
    (hflow : ∀ m ∈ ms, m.label.1.isFlow = true) :
    DirectState ((occurrencesOf ms).flatMap (Occurrence.contents config)) s := by
  refine state_of_run DirectState (config.withOutbox false) ⟨rfl, rfl⟩ ?_ ?_ run hflow
  · intro base o s h
    exact returns_enqueueOccurrence DirectState (config.withOutbox false)
      (fun base it now s h => enqueueDirectly_returns h) h
  · intro base s h
    exact fanoutTick_returns_direct h

/-- And one with it. -/
theorem fanoutState_of_run {config : Config} {ms : List FlowMove} {s : Store}
    (run : Run (seqStep reliable (handle (config.withOutbox true))) Store.empty ms s)
    (hflow : ∀ m ∈ ms, m.label.1.isFlow = true) :
    FanoutState (config.withOutbox true)
      ((occurrencesOf ms).flatMap (Occurrence.contents config)) [] s := by
  refine state_of_run (fun items => FanoutState (config.withOutbox true) items [])
    (config.withOutbox true) FanoutState.empty ?_ ?_ run hflow
  · intro base o s h
    exact returns_enqueueOccurrence (fun items => FanoutState (config.withOutbox true) items [])
      (config.withOutbox true) (fun base it now s h => enqueueToOutbox_returns h) h
  · intro base s h
    exact fanoutTick_returns h

/-- When the outbox is drained, its notifications are those of the direct path with only the
    first of every idempotency key; they are the same exactly when the direct path has no two
    notifications with the same key. -/
theorem outbox_refines_direct (config : Config) {ms₁ ms₂ : List FlowMove} {s₁ s₂ : Store}
    (direct : Run (seqStep reliable (handle (config.withOutbox false))) Store.empty ms₁ s₁)
    (outbox : Run (seqStep reliable (handle (config.withOutbox true))) Store.empty ms₂ s₂)
    (hflow₁ : ∀ m ∈ ms₁, m.label.1.isFlow = true) (hflow₂ : ∀ m ∈ ms₂, m.label.1.isFlow = true)
    (hsame : occurrencesOf ms₂ = occurrencesOf ms₁)
    (hdrained : ∀ r ∈ s₂.outbox.rows, r.status ≠ .pending) :
    s₁.contents = (occurrencesOf ms₁).flatMap (Occurrence.contents config) ∧
    s₂.contents ~ s₁.contents.firstPerKey (Content.key config) ∧
    (s₂.contents ~ s₁.contents ↔ (s₁.contents.map (Content.key config)).Nodup) := by
  have hdirect := directState_of_run direct hflow₁
  have hfanout := fanoutState_of_run outbox hflow₂
  rw [hsame, ← hdirect.stored] at hfanout
  -- No row is pending and none is claimed: all of them are dispatched.
  have hall : s₂.outbox.rows.filter NotificationOutboxRecord.isDispatched = s₂.outbox.rows := by
    rw [List.filter_eq_self]
    intro r hr
    rcases hfanout.status r hr with hp | hd | ⟨-, v, hv, -⟩
    · exact absurd hp (hdrained r hr)
    · simp [NotificationOutboxRecord.isDispatched, hd]
    · simp at hv
  have hperm : s₂.contents ~ s₁.contents.firstPerKey (Content.key config) := by
    have hstored := hfanout.stored
    rw [hall, hfanout.rows] at hstored
    exact hstored
  refine ⟨hdirect.stored, hperm, ?_⟩
  rw [← List.firstPerKey_perm_iff]
  exact ⟨fun h => hperm.symm.trans h, fun h => hperm.trans h⟩

/-! ## Concrete runs -/

/-- A dispute is put under review. -/
def sampleReview : Occurrence :=
  .domain "dispute.review_started" ["u1", "u2"]
    [("disputeId", .str "dsp_1"), ("contractId", .str "ctr_1")]

/-- The choice of a call that needs none. -/
def sampleAnswer : Choice := {}

/-- The choice of the `n`-th identifier of a kind. -/
def sampleId (tag : String) (n : Nat) : Choice :=
  { id := tag ++ toString n }

/-- An item that is stored, or a row that is appended, with its event. -/
def sampleItem (tag : String) (n : Nat) : List Choice :=
  [sampleId tag n, sampleAnswer, sampleId "evt_" n, sampleId "trc_" n, sampleAnswer, sampleAnswer]

/-- The four items of an occurrence, with identifiers from `n` on. -/
def sampleEnqueue (tag : String) (n : Nat) : List Choice :=
  sampleAnswer :: (List.range 4).flatMap fun i => sampleItem tag (n + i)

/-- The four items of an occurrence whose keys are in use. -/
def sampleRefused (n : Nat) : List Choice :=
  sampleAnswer :: (List.range 4).flatMap fun i => [sampleId "nox_" (n + i), sampleAnswer]

/-- A fan-out tick that dispatches four rows. -/
def sampleFanout (n : Nat) : List Choice :=
  List.replicate 4 sampleAnswer ++
    (List.range 4).flatMap fun i => sampleItem "ntf_" (n + i) ++ [sampleAnswer]

/-- The occurrence happens twice, without the outbox. -/
def sampleDirectRun : List (Request × List Choice) :=
  [(.occurrence sampleReview, sampleEnqueue "ntf_" 0),
    (.occurrence sampleReview, sampleEnqueue "ntf_" 4)]

/-- The same with the outbox, which is then drained. -/
def sampleOutboxRun : List (Request × List Choice) :=
  [(.occurrence sampleReview, sampleEnqueue "nox_" 0),
    (.occurrence sampleReview, sampleRefused 4), (.fanoutTick, sampleFanout 8)]

/-- The run has only occurrences and ticks, and ends with `n` notifications and no pending
    row. -/
def sampleFlow (n : Nat) (r : List FlowMove × Store) : Bool :=
  (r.1.all fun m => m.label.1.isFlow) && decide (r.2.contents.length = n) &&
    r.2.outbox.rows.all fun row => decide (row.status ≠ .pending)

/-- A concrete run and what is known about it. -/
theorem sampleFlow_run (on : Bool) (labels : List (Request × List Choice)) (n : Nat)
    (h : (replay (seqStep reliable (handle (sampleConfig.withOutbox on))) Store.empty labels
      []).any (sampleFlow n) = true) :
    ∃ ms s, Run (seqStep reliable (handle (sampleConfig.withOutbox on))) Store.empty ms s ∧
      (∀ m ∈ ms, m.label.1.isFlow = true) ∧
      occurrencesOf ms = labels.flatMap (fun a => a.1.occurrences) ∧
      s.contents.length = n ∧ ∀ r ∈ s.outbox.rows, r.status ≠ .pending := by
  obtain ⟨ms, s, run, hlabels, hp⟩ := exists_run_of_replay_labels labels (sampleFlow n) h
  simp only [sampleFlow, Bool.and_eq_true, List.all_eq_true, decide_eq_true_eq] at hp
  refine ⟨ms, s, run, hp.1.1, ?_, hp.1.2, hp.2⟩
  rw [occurrencesOf_eq, hlabels, List.reverse_reverse]

/-- The dispute is put under review twice. -/
theorem outbox_refines_direct_reviewed :
    ∃ ms₁ s₁ ms₂ s₂,
      Run (seqStep reliable (handle (sampleConfig.withOutbox false))) Store.empty ms₁ s₁ ∧
      Run (seqStep reliable (handle (sampleConfig.withOutbox true))) Store.empty ms₂ s₂ ∧
      occurrencesOf ms₁ = [sampleReview, sampleReview] ∧
      occurrencesOf ms₂ = [sampleReview, sampleReview] ∧
      s₂.contents ~ s₁.contents.firstPerKey (Content.key sampleConfig) := by
  obtain ⟨ms₁, s₁, run₁, hflow₁, hocc₁, -, -⟩ := sampleFlow_run false sampleDirectRun 8
    (by decide +kernel)
  obtain ⟨ms₂, s₂, run₂, hflow₂, hocc₂, -, hdrained⟩ := sampleFlow_run true sampleOutboxRun 4
    (by decide +kernel)
  exact ⟨ms₁, s₁, ms₂, s₂, run₁, run₂, hocc₁, hocc₂,
    (outbox_refines_direct sampleConfig run₁ run₂ hflow₁ hflow₂ (hocc₂.trans hocc₁.symm)
      hdrained).2.1⟩

/-- The same two occurrences leave eight notifications without the outbox and four with it. -/
theorem review_notified_once :
    ∃ ms₁ s₁ ms₂ s₂,
      Run (seqStep reliable (handle (sampleConfig.withOutbox false))) Store.empty ms₁ s₁ ∧
      Run (seqStep reliable (handle (sampleConfig.withOutbox true))) Store.empty ms₂ s₂ ∧
      occurrencesOf ms₁ = [sampleReview, sampleReview] ∧
      occurrencesOf ms₂ = [sampleReview, sampleReview] ∧
      (∀ r ∈ s₂.outbox.rows, r.status ≠ .pending) ∧ ¬ s₂.contents ~ s₁.contents := by
  obtain ⟨ms₁, s₁, run₁, -, hocc₁, hlen₁, -⟩ := sampleFlow_run false sampleDirectRun 8
    (by decide +kernel)
  obtain ⟨ms₂, s₂, run₂, -, hocc₂, hlen₂, hdrained⟩ := sampleFlow_run true sampleOutboxRun 4
    (by decide +kernel)
  refine ⟨ms₁, s₁, ms₂, s₂, run₁, run₂, hocc₁, hocc₂, hdrained, fun hperm => ?_⟩
  have hlen := hperm.length_eq
  omega

end Bluesafe.Notify
