import Bluesafe.Notify.Workers

/-!
# The outbox of the in-memory repository

`memory-repository.ts` keeps the outbox in two maps: `notificationOutboxById` holds the
rows, and `notificationOutboxIdempotency` maps the idempotency key of each row to its
identifier. `Notify.Store` has the rows only and looks the keys up in them; here the second
map is kept as the code keeps it, and the same programs run against both.
-/

namespace Bluesafe.Notify

/-- The store with the map `notificationOutboxIdempotency`: pairs of a key and an
    identifier. -/
structure MemoryStore where
  db : Store
  notificationOutboxIdempotency : Table (Prod.fst : String × String → String)

def MemoryStore.empty : MemoryStore := ⟨Store.empty, .empty⟩

/-- `notificationOutboxIdempotency.get(key)`. -/
def MemoryStore.idOfKey (s : MemoryStore) (key : String) : Option String :=
  (s.notificationOutboxIdempotency.get? key).map Prod.snd

/-- `appendNotificationOutbox`. -/
def MemoryStore.appendNotificationOutbox (s : MemoryStore) (row : NotificationOutboxRecord) :
    Bool × MemoryStore :=
  if (s.idOfKey row.idempotencyKey).isSome then (false, s)
  else (true, ⟨s.db.setOutbox [row],
    s.notificationOutboxIdempotency.set (row.idempotencyKey, row.id)⟩)

/-- `updateNotificationOutbox`: a row whose key has changed is indexed again. -/
def MemoryStore.updateNotificationOutbox (s : MemoryStore) (row : NotificationOutboxRecord) :
    MemoryStore :=
  match s.db.outbox.get? row.id with
  | none => ⟨s.db.setOutbox [row], s.notificationOutboxIdempotency⟩
  | some prev =>
    if prev.idempotencyKey ≠ row.idempotencyKey then
      ⟨s.db.setOutbox [row], (s.notificationOutboxIdempotency.erase prev.idempotencyKey).set
        (row.idempotencyKey, row.id)⟩
    else ⟨s.db.setOutbox [row], s.notificationOutboxIdempotency⟩

/-- The answer and the effect of a call that is not rejected. No other call looks at the
    index or changes it. -/
def performMemory : (op : Call) → Choice → MemoryStore → op.Res × MemoryStore
  | .appendNotificationOutbox row, _, s => s.appendNotificationOutbox row
  | .updateNotificationOutbox row, _, s => ((), s.updateNotificationOutbox row)
  | op, c, s => ((perform op c s.db).1, { s with db := (perform op c s.db).2 })

/-- The answer to a call, rejected or not. -/
def serveMemory (op : Call) (c : Choice) (s : MemoryStore) : Except String op.Res × MemoryStore :=
  match c.failure with
  | none => (.ok (performMemory op c s).1, (performMemory op c s).2)
  | some e => (.error e, if c.applied then (performMemory op c s).2 else s)

/-- The in-memory repository with the other upstreams. -/
def memoryWorld : World calls String MemoryStore Choice where
  allow := fun op c s => world.allow op c s.db
  serve := serveMemory

/-- The services over the in-memory repository. -/
abbrev MemoryPool : Type := Async.Pool calls String MemoryStore Request (Option Ops.Reply)

def memoryStep (config : Config) : MemoryPool → Async.Act Request Choice → Option MemoryPool :=
  Async.poolStep memoryWorld (handle config)

end Bluesafe.Notify
