import Bluesafe.Notify.Types
import Bluesafe.ForStd.Table
import Bluesafe.Async.Pool
import Bluesafe.Ops.Http

/-!
# The calls of the notification services

What the notification workers and handlers of `be2-ops` read or change outside their own
memory: the notification part of the repository (`repository/memory-repository.ts`), the
audit and event logs, the delivery provider, the clock and the identifier generator.

A save overwrites the whole row. A rejected call may have taken effect. The generator
never returns an identifier twice, nor one that is in use; `issued` remembers what it has
returned.
-/

namespace Bluesafe.Notify

open Bluesafe.Ops (Time AuditLog EventEnvelope idAllowed)

/-- The answer of `NotificationProvider.deliver`. -/
structure DeliveryResult where
  ok : Bool
  error : Option String := none
  deriving DecidableEq, Repr

/-- The awaited calls. -/
inductive Call
  | clock
  | randomId (tag : String)
  | saveNotification (n : NotificationEvent)
  | listDueNotifications (now : Time) (limit : Nat)
  | appendNotificationOutbox (row : NotificationOutboxRecord)
  | claimNotificationOutboxPending (limit : Nat) (now : Time)
  | updateNotificationOutbox (row : NotificationOutboxRecord)
  | getNotificationOutbox (id : String)
  | recoverStaleNotificationOutboxProcessing (staleBefore now : Time)
  | appendAudit (log : AuditLog)
  | appendEvent (event : EventEnvelope)
  | deliver (event : NotificationEvent)

/-- The answer type of each call. -/
@[reducible] def Call.Res : Call → Type
  | .clock => Time
  | .randomId _ => String
  | .saveNotification _ => Unit
  | .listDueNotifications _ _ => List NotificationEvent
  | .appendNotificationOutbox _ => Bool
  | .claimNotificationOutboxPending _ _ => List NotificationOutboxRecord
  | .updateNotificationOutbox _ => Unit
  | .getNotificationOutbox _ => Option NotificationOutboxRecord
  | .recoverStaleNotificationOutboxProcessing _ _ => Nat
  | .appendAudit _ => Unit
  | .appendEvent _ => Unit
  | .deliver _ => DeliveryResult

/-- The interface of the notification programs. -/
@[reducible] def calls : Interface := ⟨Call, Call.Res⟩

/-- An `async` function; a rejection carries the error message. -/
abbrev NotifyM (α : Type) : Type := Async calls String α

/-- The calls one request has made, newest first. -/
abbrev NotifyLog : Type := Log calls String

/-- Await one call. -/
abbrev invoke (op : Call) : NotifyM op.Res := Async.call (I := calls) op

abbrev nowIso : NotifyM Time := invoke .clock
abbrev dateNow : NotifyM Time := invoke .clock
abbrev randomId (tag : String) : NotifyM String := invoke (.randomId tag)
abbrev saveNotification (n : NotificationEvent) : NotifyM Unit := invoke (.saveNotification n)
abbrev updateNotificationOutbox (row : NotificationOutboxRecord) : NotifyM Unit :=
  invoke (.updateNotificationOutbox row)

/-! ## The store -/

/-- The rows, the two logs (newest first) and the identifiers that were generated. -/
structure Store where
  notifications : Table NotificationEvent.id
  outbox : Table NotificationOutboxRecord.id
  audits : List AuditLog
  events : List EventEnvelope
  issued : List String

def Store.empty : Store := ⟨.empty, .empty, [], [], []⟩

/-- What the environment decides at a call. -/
structure Choice where
  failure : Option String := none
  /-- Whether a rejected call took effect. -/
  applied : Bool := false
  now : Time := 0
  id : String := ""
  delivery : DeliveryResult := ⟨true, none⟩

/-- The condition of `listDueNotifications`. -/
def NotificationEvent.isDue (now : Time) (n : NotificationEvent) : Bool :=
  !n.deadLetter && match n.status with
    | .queued => true
    | .retryScheduled => n.nextAttemptAt.all fun t => decide (t ≤ now)
    | _ => false

/-- `listDueNotifications`: oldest first. -/
def Store.dueNotifications (s : Store) (now : Time) (limit : Nat) : List NotificationEvent :=
  ((s.notifications.rows.filter (NotificationEvent.isDue now)).insertionSort
    fun a b => a.createdAt ≤ b.createdAt).take limit

/-- The pending rows `claimNotificationOutboxPending` takes: oldest first. -/
def Store.pendingOutbox (s : Store) (limit : Nat) : List NotificationOutboxRecord :=
  ((s.outbox.rows.filter fun r => decide (r.status = .pending)).insertionSort
    fun a b => a.createdAt ≤ b.createdAt).take limit

/-- A claimed row. -/
def NotificationOutboxRecord.claimed (now : Time) (r : NotificationOutboxRecord) :
    NotificationOutboxRecord :=
  { r with status := .processing, processingStartedAt := some now, updatedAt := now }

/-- A row whose processing is stale. -/
def NotificationOutboxRecord.isStale (staleBefore : Time) (r : NotificationOutboxRecord) : Bool :=
  decide (r.status = .processing) &&
    r.processingStartedAt.any fun t => decide (t < staleBefore)

/-- A row that was taken back. -/
def NotificationOutboxRecord.recovered (now : Time) (r : NotificationOutboxRecord) :
    NotificationOutboxRecord :=
  { r with status := .pending, processingStartedAt := none, updatedAt := now }

/-- Overwrite several rows of the outbox. -/
def Store.setOutbox (s : Store) (rows : List NotificationOutboxRecord) : Store :=
  { s with outbox := rows.foldl Table.set s.outbox }

/-- The answer and the effect of a call that is not rejected. -/
def perform : (op : Call) → Choice → Store → op.Res × Store
  | .clock, c, s => (c.now, s)
  | .randomId _, c, s => (c.id, { s with issued := c.id :: s.issued })
  | .saveNotification n, _, s => ((), { s with notifications := s.notifications.set n })
  | .listDueNotifications now limit, _, s => (s.dueNotifications now limit, s)
  | .appendNotificationOutbox row, _, s =>
    if s.outbox.rows.any fun r => decide (r.idempotencyKey = row.idempotencyKey) then (false, s)
    else (true, s.setOutbox [row])
  | .claimNotificationOutboxPending limit now, _, s =>
    let rows := (s.pendingOutbox limit).map (NotificationOutboxRecord.claimed now)
    (rows, s.setOutbox rows)
  | .updateNotificationOutbox row, _, s => ((), s.setOutbox [row])
  | .getNotificationOutbox id, _, s => (s.outbox.get? id, s)
  | .recoverStaleNotificationOutboxProcessing staleBefore now, _, s =>
    let rows := (s.outbox.rows.filter (NotificationOutboxRecord.isStale staleBefore)).map
      (NotificationOutboxRecord.recovered now)
    (rows.length, s.setOutbox rows)
  | .appendAudit log, _, s => ((), { s with audits := log :: s.audits })
  | .appendEvent event, _, s => ((), { s with events := event :: s.events })
  | .deliver _, c, s => (c.delivery, s)

/-- The answer to a call, rejected or not. -/
def serve (op : Call) (c : Choice) (s : Store) : Except String op.Res × Store :=
  match c.failure with
  | none => (.ok (perform op c s).1, (perform op c s).2)
  | some e => (.error e, if c.applied then (perform op c s).2 else s)

/-- A call takes effect, or it is rejected before. -/
theorem serve_state (op : Call) (c : Choice) (s : Store) :
    (c.failure = none ∨ c.applied = true) ∧ (serve op c s).2 = (perform op c s).2 ∨
      (serve op c s).2 = s := by
  unfold serve
  cases hfail : c.failure with
  | none => exact .inl ⟨.inl rfl, rfl⟩
  | some e =>
    by_cases happlied : c.applied = true
    · exact .inl ⟨.inr happlied, if_pos happlied⟩
    · exact .inr (if_neg happlied)

/-- Calls without an upstream that could fail. -/
def Call.isLocal : Call → Bool
  | .clock => true
  | .randomId _ => true
  | _ => false

/-- An identifier that was never generated and is not in use. -/
def Store.isFresh (s : Store) (id : String) : Bool :=
  !s.issued.contains id && (s.notifications.get? id).isNone && (s.outbox.get? id).isNone

/-- Any call but the clock and the generator may be rejected. -/
def world : World calls String Store Choice where
  allow := fun op c s =>
    (c.failure.isNone || !op.isLocal) &&
      match op with
      | .randomId tag => idAllowed tag c.id && s.isFresh c.id
      | _ => true
  serve := serve

/-- The same without rejected calls. -/
def reliable : World calls String Store Choice where
  allow := fun op c s => c.failure.isNone && world.allow op c s
  serve := serve

end Bluesafe.Notify
