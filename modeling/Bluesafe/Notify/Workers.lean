import Bluesafe.Notify.Repository

/-!
# Enqueueing and delivering notifications

The delivery worker (`notification.worker.ts`), the outbox fan-out worker
(`notification-outbox.worker.ts`), the two ways a domain occurrence is enqueued
(`notification-fanout-enqueue.ts`, `domain-notifications.ts`,
`settlement-notifications.ts`), and the handlers that send a notification or retry a dead
outbox row (`index.ts`). A request is one that has passed its guards and its body schema.

A tick is started by a timer that does not wait for the tick before, and several
processes may share the store: `notifyStep` interleaves any number of them.
-/

namespace Bluesafe.Notify

open Bluesafe.Ops (Time Json JsonObject AuditLog EventEnvelope BluesafeAuth Reply actorId)

/-- The settings of the two workers and of the enqueueing. -/
structure Config where
  autoDomainEnqueue : Bool
  domainOutbox : Bool
  sha256 : List Char → String
  maxAttempts : Nat
  batchSize : Nat
  retryInitialBackoffMs : Nat
  retryMaxBackoffMs : Nat
  outboxBatchSize : Nat
  staleProcessingMs : Nat
  maxDispatchAttempts : Nat

/-! ## Logs -/

/-- `writeAudit`. -/
def writeAudit (entityType entityId action actorId : String) (after metadata : Option JsonObject) :
    NotifyM Unit := do
  let id ← randomId "aud"
  let createdAt ← nowIso
  invoke (.appendAudit
    ⟨id, entityType, entityId, action, actorId, none, after, metadata, createdAt⟩)

/-- `emitEvent`. -/
def emitEvent (eventType entityType entityId : String) (payload : JsonObject) : NotifyM Unit := do
  let eventId ← randomId "evt"
  let traceId ← randomId "trc"
  let occurredAt ← nowIso
  invoke (.appendEvent ⟨eventId, eventType, occurredAt, entityType, entityId, payload, traceId⟩)

/-- The channel and event type in the payload of an event. -/
def channelFields (channel : NotificationChannel) (eventType : String) : JsonObject :=
  [("channel", .str channel.text), ("eventType", .str eventType)]

/-! ## The delivery worker -/

/-- `backoffMs`. -/
def backoffMs (attemptsAfterFailure initialMs maxMs : Nat) : Nat :=
  min maxMs (initialMs * Nat.pow 2 attemptsAfterFailure)

/-- The row after a successful delivery. -/
def NotificationEvent.delivered (n : NotificationEvent) (t : Time) : NotificationEvent :=
  { n with status := .sent, updatedAt := some t, lastError := none, nextAttemptAt := none }

/-- The row after the last failed delivery. -/
def NotificationEvent.abandoned (n : NotificationEvent) (result : DeliveryResult) (t : Time) :
    NotificationEvent :=
  { n with
    status := .failed
    deadLetter := true
    attemptCount := some (n.attemptCount.getD 0 + 1)
    lastError := some (result.error.getD "delivery_failed")
    nextAttemptAt := none
    updatedAt := some t }

/-- The row after a failed delivery that is tried again. -/
def NotificationEvent.rescheduled (n : NotificationEvent) (result : DeliveryResult)
    (t nextAt : Time) : NotificationEvent :=
  { n with
    status := .retryScheduled
    attemptCount := some (n.attemptCount.getD 0 + 1)
    lastError := some (result.error.getD "delivery_failed")
    nextAttemptAt := some nextAt
    updatedAt := some t }

/-- `processOne`. -/
def processOne (config : Config) (n : NotificationEvent) : NotifyM Unit := do
  let result ← invoke (.deliver n.rendered)
  let t ← nowIso
  if result.ok then
    saveNotification (n.delivered t)
    writeAudit "notification" n.id "notification.sent" "system" none
      (some (channelFields n.channel n.eventType))
    emitEvent "notification.sent" "notification" n.id (channelFields n.channel n.eventType)
  else if n.attemptCount.getD 0 + 1 ≥ config.maxAttempts then
    saveNotification (n.abandoned result t)
    writeAudit "notification" n.id "notification.failed" "system" none
      (some (channelFields n.channel n.eventType ++ [("deadLetter", .bool true)] ++
        JsonObject.opt "lastError" (result.error.map .str)))
    emitEvent "notification.failed" "notification" n.id
      (channelFields n.channel n.eventType ++ [("deadLetter", .bool true)])
  else
    let now ← dateNow
    saveNotification (n.rescheduled result t (now + backoffMs (n.attemptCount.getD 0 + 1)
      config.retryInitialBackoffMs config.retryMaxBackoffMs))

/-- `processBatch`. -/
def processBatch (config : Config) : NotifyM Unit := do
  let now ← nowIso
  let due ← invoke (.listDueNotifications now config.batchSize)
  due.forM (processOne config)

/-- A tick of `startNotificationWorker`: a failure is logged. -/
def notificationTick (config : Config) : NotifyM Unit :=
  tryCatch (processBatch config) fun _ => pure ()

/-! ## The fan-out worker -/

/-- The notification a row of the outbox asks for. -/
def NotificationOutboxRecord.toNotification (row : NotificationOutboxRecord) (id : String)
    (t : Time) : NotificationEvent where
  id := id
  eventType := row.eventType
  recipientId := row.recipientId
  channel := row.channel
  status := .queued
  payload := row.payload
  createdAt := t
  updatedAt := some t
  attemptCount := some 0

/-- The row after its notification was stored. -/
def NotificationOutboxRecord.fannedOut (row : NotificationOutboxRecord) (id : String) (t : Time) :
    NotificationOutboxRecord :=
  { row with
    status := .dispatched
    updatedAt := t
    dispatchedNotificationId := some id
    processingStartedAt := none
    lastError := none }

/-- The row after a failed dispatch. -/
def NotificationOutboxRecord.dispatchFailed (row : NotificationOutboxRecord)
    (maxDispatchAttempts : Nat) (message : String) (t : Time) : NotificationOutboxRecord :=
  { row with
    status := if row.attempts + 1 ≥ maxDispatchAttempts then .dead else .pending
    attempts := row.attempts + 1
    lastError := some message
    updatedAt := t
    processingStartedAt := none }

/-- The body of the `try` of `dispatchOneOutboxRow`. -/
def fanOut (row : NotificationOutboxRecord) (safeId : String) (t : Time) : NotifyM Unit := do
  saveNotification (row.toNotification safeId t)
  emitEvent "notification.requested" "notification" safeId
    (channelFields row.channel row.eventType ++
      [("fromOutbox", .bool true), ("outboxId", .str row.id)])
  updateNotificationOutbox (row.fannedOut safeId t)

/-- Its `catch`. -/
def recordDispatchFailure (row : NotificationOutboxRecord) (maxDispatchAttempts : Nat) (t : Time)
    (message : String) : NotifyM Unit := do
  updateNotificationOutbox (row.dispatchFailed maxDispatchAttempts message t)
  if row.attempts + 1 ≥ maxDispatchAttempts then
    emitEvent "notification.outbox_dead" "notification_outbox" row.id
      [("eventType", .str row.eventType), ("attempts", .num (row.attempts + 1)),
        ("error", .str message)]

/-- `dispatchOneOutboxRow`. -/
def dispatchOneOutboxRow (maxDispatchAttempts : Nat) (t : Time) (row : NotificationOutboxRecord) :
    NotifyM Unit := do
  let safeId ← randomId "ntf"
  tryCatch (fanOut row safeId t) (recordDispatchFailure row maxDispatchAttempts t)

/-- `runOutboxFanoutTick`. -/
def runOutboxFanoutTick (config : Config) : NotifyM Unit := do
  let now ← nowIso
  let today ← dateNow
  let _ ← invoke (.recoverStaleNotificationOutboxProcessing (today - config.staleProcessingMs) now)
  let claimed ← invoke (.claimNotificationOutboxPending config.outboxBatchSize now)
  claimed.forM (dispatchOneOutboxRow config.maxDispatchAttempts now)

/-- A tick of `startNotificationOutboxFanoutWorker`: a failure is logged. -/
def fanoutTick (config : Config) : NotifyM Unit :=
  tryCatch (runOutboxFanoutTick config) fun _ => pure ()

/-! ## Enqueueing -/

/-- The row `enqueueFanoutNotificationItems` appends to the outbox. -/
def FanoutNotificationItem.toOutbox (config : Config) (it : FanoutNotificationItem) (id : String)
    (now : Time) : NotificationOutboxRecord where
  id := id
  idempotencyKey := domainNotificationIdempotencyKey config.sha256 it.eventType it.recipientId
    it.channel it.payload
  eventType := it.eventType
  recipientId := it.recipientId
  channel := it.channel
  payload := it.payload
  status := .pending
  attempts := 0
  createdAt := now
  updatedAt := now

/-- A notification that waits for its delivery. -/
def queuedNotification (id eventType recipientId : String) (channel : NotificationChannel)
    (payload : JsonObject) (now : Time) : NotificationEvent where
  id := id
  eventType := eventType
  recipientId := recipientId
  channel := channel
  status := .queued
  payload := payload
  createdAt := now
  updatedAt := some now
  attemptCount := some 0

/-- One item with the outbox on. -/
def enqueueToOutbox (config : Config) (now : Time) (it : FanoutNotificationItem) :
    NotifyM Unit := do
  let id ← randomId "nox"
  let row := it.toOutbox config id now
  let inserted ← invoke (.appendNotificationOutbox row)
  if inserted then
    emitEvent "notification.outbox_enqueued" "notification_outbox" id
      (channelFields it.channel it.eventType ++ [("idempotencyKey", .str row.idempotencyKey)] ++
        it.requestedEmitExtra)

/-- One item with the outbox off. -/
def enqueueDirectly (now : Time) (it : FanoutNotificationItem) : NotifyM Unit := do
  let id ← randomId "ntf"
  saveNotification (queuedNotification id it.eventType it.recipientId it.channel it.payload now)
  emitEvent "notification.requested" "notification" id
    (channelFields it.channel it.eventType ++ it.requestedEmitExtra)

/-- `enqueueFanoutNotificationItems`. -/
def enqueueFanoutNotificationItems (config : Config) (items : List FanoutNotificationItem) :
    NotifyM Unit := do
  let now ← nowIso
  if config.domainOutbox then items.forM (enqueueToOutbox config now)
  else items.forM (enqueueDirectly now)

/-- `expandRecipientChannels`. -/
def expandRecipientChannels (eventType : String) (recipientIds : List String)
    (payload requestedEmitExtra : JsonObject) : List FanoutNotificationItem :=
  recipientIds.flatMap fun recipientId =>
    (routedChannelsForEventType eventType).map fun channel =>
      ⟨eventType, recipientId, channel, payload, requestedEmitExtra⟩

/-- A domain occurrence that notifies somebody. -/
inductive Occurrence
  | domain (eventType : String) (recipientIds : List String) (payload : JsonObject)
  | settlementConfirmed (c : SettlementConfirmation)

/-- The items of an occurrence; a domain occurrence has none when the automatic enqueueing is
    off. -/
def Occurrence.items (config : Config) : Occurrence → List FanoutNotificationItem
  | .domain eventType recipientIds payload =>
    if config.autoDomainEnqueue then
      expandRecipientChannels eventType recipientIds payload [("domainAuto", .bool true)]
    else []
  | .settlementConfirmed c =>
    expandRecipientChannels "settlement.confirmed" [c.tenantId, c.landlordId]
      [("settlementId", .str c.settlementId), ("contractId", .str c.contractId),
        ("periodYear", .num c.periodYear), ("periodMonth", .num c.periodMonth)]
      [("settlementAuto", .bool true)]

/-- `maybeEnqueueDomainNotifications` and `enqueueSettlementConfirmedNotifications`. -/
def enqueueOccurrence (config : Config) (o : Occurrence) : NotifyM Unit :=
  match o with
  | .domain _ _ _ =>
    if config.autoDomainEnqueue then enqueueFanoutNotificationItems config (o.items config)
    else pure ()
  | .settlementConfirmed _ => enqueueFanoutNotificationItems config (o.items config)

/-- An occurrence enqueues its items, or nothing. -/
theorem enqueueOccurrence_cases (config : Config) (o : Occurrence) :
    enqueueOccurrence config o = enqueueFanoutNotificationItems config (o.items config) ∨
      enqueueOccurrence config o = pure () := by
  cases o with
  | domain eventType recipientIds payload =>
    by_cases hauto : config.autoDomainEnqueue = true
    · exact .inl (if_pos hauto)
    · exact .inr (if_neg hauto)
  | settlementConfirmed c => exact .inl rfl

/-! ## Handlers -/

/-- A body of `POST /v1/notifications`, or of `/v1/notifications/dispatch` with its channels. -/
structure SendBody where
  eventType : String
  recipientId : String
  payload : JsonObject

/-- Store one notification, with its audit entry and its event. -/
def sendOne (body : SendBody) (now : Time) (action actor : String) (extra : JsonObject)
    (channel : NotificationChannel) (id : String) : NotifyM Unit := do
  saveNotification (queuedNotification id body.eventType body.recipientId channel body.payload now)
  writeAudit "notification" id action actor none (some (channelFields channel body.eventType))
  emitEvent "notification.requested" "notification" id
    (channelFields channel body.eventType ++ extra)

/-- `POST /v1/notifications`. The reply is the stored event. -/
def sendNotification (body : SendBody) (channel : NotificationChannel) : NotifyM Reply := do
  let id ← randomId "ntf"
  let now ← nowIso
  sendOne body now "notification.requested" "system" [] channel id
  return ⟨202, [("id", .str id), ("eventType", .str body.eventType),
    ("recipientId", .str body.recipientId), ("channel", .str channel.text),
    ("status", .str "queued"), ("payload", .obj body.payload), ("createdAt", .time now),
    ("updatedAt", .time now), ("attemptCount", .num 0), ("deadLetter", .bool false)]⟩

/-- An array in a reply: an object with its indices as keys. -/
def jsonArray (values : List Json) : Json :=
  .obj (values.zipIdx.map fun v => (toString v.2, v.1))

/-- The loop of `POST /v1/notifications/dispatch`: the identifiers of its notifications. -/
def dispatchAll (auth : Option BluesafeAuth) (body : SendBody) (now : Time) :
    List NotificationChannel → NotifyM (List String)
  | [] => pure []
  | channel :: rest => do
    let id ← randomId "ntf"
    sendOne body now "notification.dispatch_queued" (actorId auth "operator")
      [("dispatch", .bool true)] channel id
    let ids ← dispatchAll auth body now rest
    return id :: ids

/-- `POST /v1/notifications/dispatch`. -/
def dispatchNotifications (auth : Option BluesafeAuth) (body : SendBody)
    (channels : Option (List NotificationChannel)) : NotifyM Reply := do
  let channels := match channels with
    | some (channel :: rest) => channel :: rest
    | _ => routedChannelsForEventType body.eventType
  let now ← nowIso
  let ids ← dispatchAll auth body now channels
  return ⟨202, [("notificationIds", jsonArray (ids.map .str)),
    ("channels", jsonArray (channels.map fun channel => .str channel.text))]⟩

/-- The row an operator's retry writes. -/
def NotificationOutboxRecord.retried (row : NotificationOutboxRecord) (t : Time) :
    NotificationOutboxRecord :=
  { row with
    status := .pending
    attempts := 0
    lastError := none
    updatedAt := t
    processingStartedAt := none
    dispatchedNotificationId := none }

/-- `POST /v1/operator/notifications/outbox/:outboxId/retry`. -/
def retryOutbox (auth : Option BluesafeAuth) (outboxId : String) : NotifyM Reply := do
  match ← invoke (.getNotificationOutbox outboxId) with
  | none => return .error 404 "B2_NOT_FOUND" "Outbox row not found"
  | some row =>
    if row.status ≠ .dead then
      return .error 409 "B2_VALIDATION_ERROR" "Only dead outbox rows can be retried"
    else
      let t ← nowIso
      updateNotificationOutbox (row.retried t)
      writeAudit "notification_outbox" outboxId "notification_outbox.retry_queued"
        (actorId auth "operator") (some [("status", .str "pending")]) none
      return ⟨200, [("outboxId", .str outboxId), ("status", .str "pending")]⟩

/-! ## The system -/

/-- The entries into the notification services. -/
inductive Request
  | notificationTick
  | fanoutTick
  | occurrence (o : Occurrence)
  | send (body : SendBody) (channel : NotificationChannel)
  | dispatch (auth : Option BluesafeAuth) (body : SendBody)
      (channels : Option (List NotificationChannel))
  | retryOutbox (auth : Option BluesafeAuth) (outboxId : String)

/-- The program of each entry; a worker sends no reply. -/
def handle (config : Config) : Request → NotifyM (Option Reply)
  | .notificationTick => (fun _ => none) <$> notificationTick config
  | .fanoutTick => (fun _ => none) <$> fanoutTick config
  | .occurrence o => (fun _ => none) <$> enqueueOccurrence config o
  | .send body channel => some <$> sendNotification body channel
  | .dispatch auth body channels => some <$> dispatchNotifications auth body channels
  | .retryOutbox auth outboxId => some <$> retryOutbox auth outboxId

/-- A request in progress. -/
abbrev NotifyThread : Type := Async.Thread calls String Request (Option Reply)

/-- The services with their requests in progress. -/
abbrev NotifyPool : Type := Async.Pool calls String Store Request (Option Reply)

/-- The services: requests are interleaved at their calls, any of which may fail. -/
def notifyStep (config : Config) : NotifyPool → Async.Act Request Choice → Option NotifyPool :=
  Async.poolStep world (handle config)

end Bluesafe.Notify
