import Bluesafe.Ops.Utils
import Bluesafe.ForStd.Text
import Mathlib.Data.List.Sort

/-!
# Data model of the notifications

The rows of `notifications` and `notification_outbox` (`types.ts`), the routing of an event
type to channels (`notification-routing.ts`), the texts of a notification
(`notification-templates.ts`), and the content-based idempotency key of the outbox
(`notification-idempotency.ts`).

The values of a payload are those of `Ops.Json`; the keys of the payloads the program
builds are field names, which `Object.keys` lists in the order of insertion.
-/

namespace Bluesafe.Notify

open Bluesafe.Ops (Time Json JsonObject startsWith trim)

/-! ## JSON texts -/

/-- A number with at least `width` digits. -/
def padded (width n : Nat) : String :=
  let digits := (toString n).toList
  String.ofList (List.replicate (width - digits.length) '0' ++ digits)

/-- `toISOString` of a timestamp: the date of the day in the Gregorian calendar, counted in
    eras of 400 years that begin in March. -/
def isoString (t : Time) : String :=
  let z := t / 86400000 + 719468
  let era := z / 146097
  let doe := z % 146097
  let yoe := (doe - doe / 1460 + doe / 36524 - doe / 146096) / 365
  let doy := doe - (365 * yoe + yoe / 4 - yoe / 100)
  let mp := (5 * doy + 2) / 153
  let day := doy - (153 * mp + 2) / 5 + 1
  let month := if mp < 10 then mp + 3 else mp - 9
  let year := yoe + era * 400 + if month ≤ 2 then 1 else 0
  let ms := t % 86400000
  (if year ≤ 9999 then padded 4 year else "+" ++ padded 6 year) ++ "-" ++ padded 2 month ++ "-" ++
    padded 2 day ++ "T" ++ padded 2 (ms / 3600000) ++ ":" ++ padded 2 (ms / 60000 % 60) ++ ":" ++
    padded 2 (ms / 1000 % 60) ++ "." ++ padded 3 (ms % 1000) ++ "Z"

mutual

/-- `JSON.stringify` of a value. -/
def stringify : Json → List Char
  | .null => "null".toList
  | .bool b => (if b then "true" else "false").toList
  | .num n => (toString n).toList
  | .str s => Text.quote s
  | .time t => Text.quote (isoString t)
  | .obj fields => Text.object (stringifyFields fields)

/-- The fields of an object with their texts. -/
def stringifyFields : List (String × Json) → List (String × List Char)
  | [] => []
  | (key, value) :: rest => (key, stringify value) :: stringifyFields rest

end

/-! ## Records -/

/-- `NotificationChannel`. -/
inductive NotificationChannel
  | push
  | email
  | inapp
  deriving DecidableEq, Repr

def NotificationChannel.text : NotificationChannel → String
  | push => "push"
  | email => "email"
  | inapp => "inapp"

/-- `NotificationEvent["status"]`. -/
inductive NotificationStatus
  | queued
  | sent
  | failed
  | retryScheduled
  deriving DecidableEq, Repr

/-- The worker never takes up the notification again. -/
def NotificationStatus.isFinal : NotificationStatus → Bool
  | sent => true
  | failed => true
  | queued => false
  | retryScheduled => false

/-- `NotificationEvent`; an absent `deadLetter` is false. -/
structure NotificationEvent where
  id : String
  eventType : String
  recipientId : String
  channel : NotificationChannel
  status : NotificationStatus
  payload : JsonObject
  createdAt : Time
  updatedAt : Option Time := none
  attemptCount : Option Nat := none
  nextAttemptAt : Option Time := none
  lastError : Option String := none
  deadLetter : Bool := false

/-- `NotificationOutboxStatus`. -/
inductive OutboxStatus
  | pending
  | processing
  | dispatched
  | dead
  deriving DecidableEq, Repr

/-- `NotificationOutboxRecord`. -/
structure NotificationOutboxRecord where
  id : String
  idempotencyKey : String
  eventType : String
  recipientId : String
  channel : NotificationChannel
  payload : JsonObject
  status : OutboxStatus
  attempts : Nat
  lastError : Option String := none
  createdAt : Time
  updatedAt : Time
  processingStartedAt : Option Time := none
  dispatchedNotificationId : Option String := none

/-- `FanoutNotificationItem`. -/
structure FanoutNotificationItem where
  eventType : String
  recipientId : String
  channel : NotificationChannel
  payload : JsonObject
  requestedEmitExtra : JsonObject := []

/-! ## Routing and texts -/

/-- `s.toLowerCase()`, as far as a search for ASCII texts can see it. -/
def toLowerCase (s : String) : String :=
  String.ofList (s.toList.map Char.toLower)

/-- `s.includes(part)`. -/
def includes (s part : String) : Bool :=
  s.toList.tails.any part.toList.isPrefixOf

/-- `routedChannelsForEventType`. -/
def routedChannelsForEventType (eventType : String) : List NotificationChannel :=
  let et := toLowerCase eventType
  if startsWith et "notification." then [.inapp]
  else if startsWith et "refund." || includes et ".refund" || includes et "refund_" then
    [.inapp, .email, .push]
  else if startsWith et "settlement." then [.inapp, .email]
  else if startsWith et "contract." then [.inapp, .email]
  else if startsWith et "dispute." then [.inapp, .push]
  else if includes et "expir" || (et.toList.reverse.take 8 = ".expired".toList.reverse) ||
      includes et "expiry" then [.inapp, .email, .push]
  else if startsWith et "xrpl." then [.inapp]
  else [.inapp]

/-- `notificationSubjectForEventType`. -/
def notificationSubjectForEventType (eventType : String) : String :=
  let et := trim eventType
  let lower := toLowerCase et
  if startsWith lower "refund." || includes lower ".refund" || includes lower "refund_" then
    "[환급] " ++ et
  else if startsWith lower "settlement." then "[정산] " ++ et
  else if startsWith lower "dispute." then "[분쟁] " ++ et
  else if includes lower "expir" || (lower.toList.reverse.take 8 = ".expired".toList.reverse) then
    "[만료] " ++ et
  else if startsWith lower "xrpl." then "[XRPL] " ++ et
  else "[알림] " ++ et

/-- `k=v` of the body: a string is printed as it is. -/
def renderField : String × Json → String
  | (key, .str s) => key ++ "=" ++ s
  | (key, .time t) => key ++ "=" ++ isoString t
  | (key, value) => key ++ "=" ++ String.ofList (stringify value)

/-- `renderNotificationBody`. -/
def renderNotificationBody (eventType : String) (payload : JsonObject) : String :=
  let parts := ((payload.filter fun f => !startsWith f.1 "_").take 12).map renderField
  notificationSubjectForEventType eventType ++ "\n" ++
    if parts = [] then "(empty payload)" else String.intercalate "; " parts

/-- `{ ...fields, key: value }`. -/
def setField (fields : JsonObject) (key : String) (value : Json) : JsonObject :=
  if fields.any fun f => f.1 = key then
    fields.map fun f => if f.1 = key then (key, value) else f
  else fields ++ [(key, value)]

/-- The event that is handed to the provider. -/
def NotificationEvent.rendered (n : NotificationEvent) : NotificationEvent :=
  let subject := notificationSubjectForEventType n.eventType
  let body := renderNotificationBody n.eventType n.payload
  { n with payload := setField (setField n.payload "_subject" (.str subject)) "_rendered"
                        (.str body) }

/-! ## Idempotency keys -/

/-- The UTF-16 code units of a text. -/
def utf16Units (s : String) : List Nat :=
  s.toList.flatMap fun c =>
    if c.toNat < 0x10000 then [c.toNat]
    else [0xD800 + (c.toNat - 0x10000) / 0x400, 0xDC00 + (c.toNat - 0x10000) % 0x400]

/-- The order of `Array.prototype.sort` on strings: by code units. -/
def unitsLe : List Nat → List Nat → Bool
  | [], _ => true
  | _ :: _, [] => false
  | a :: as, b :: bs => if a < b then true else if b < a then false else unitsLe as bs

/-- `stablePayloadFingerprint`. -/
def stablePayloadFingerprint (payload : JsonObject) : List Char :=
  Text.object (stringifyFields
    (payload.insertionSort fun f g => unitsLe (utf16Units f.1) (utf16Units g.1) = true))

/-- `domainNotificationIdempotencyKey`; `sha256` is the digest in hexadecimal. -/
def domainNotificationIdempotencyKey (sha256 : List Char → String) (eventType recipientId : String)
    (channel : NotificationChannel) (payload : JsonObject) : String :=
  sha256 (eventType.toList ++ '\n' :: recipientId.toList ++ '\n' :: channel.text.toList ++
    '\n' :: stablePayloadFingerprint payload)

/-! ## Settlements -/

/-- The fields of a settlement and its contract that its notifications name. -/
structure SettlementConfirmation where
  settlementId : String
  contractId : String
  tenantId : String
  landlordId : String
  periodYear : Int
  periodMonth : Int

end Bluesafe.Notify
