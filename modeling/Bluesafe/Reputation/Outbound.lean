import Bluesafe.Async.Fallible
import Bluesafe.Ops.Utils
import Bluesafe.Reputation.Dlq

/-!
# The reputation webhook

`services/reputation-outbound.ts`: one delivery posts an envelope to the configured webhook and
keeps the books, which are the counters, the dead-letter store, an audit log and an event. The
HTTP call and the books of its outcome are in one `try`; the handler keeps the books of a call
that threw.

The store and the counters are in memory and change at once. The HTTP call, the reading of its
body, the audit log and the event are awaited and may be rejected.
-/

namespace Bluesafe.Reputation

open Bluesafe.Ops (Time Json JsonObject sliceTo)

/-- What a rejected call throws. -/
inductive Thrown
  | error (message : String)
  | other
  deriving DecidableEq, Repr

/-- `e instanceof Error ? e.message : "fetch_failed"`. -/
def Thrown.text : Thrown → String
  | error message => message
  | other => "fetch_failed"

/-! ## The request -/

/-- The envelope that is posted. -/
structure Envelope where
  schemaVersion : String := "bluesafe.reputation.v2"
  idempotencyKey : String
  eventType : String
  subjectType : String
  subjectId : String
  emittedAt : Time
  payload : List (String × JsonValue)

/-- `{ ...members, [key]: value }`. -/
def spread (members : List (String × JsonValue)) (key : String) (value : JsonValue) :
    List (String × JsonValue) :=
  if key ∈ members.map Prod.fst then members.map fun m => if m.1 = key then (key, value) else m
  else members ++ [(key, value)]

/-- The payload of the envelope. -/
def ReputationOutboundBody.envelopePayload (body : ReputationOutboundBody) :
    List (String × JsonValue) :=
  match body.tokenStandardRefs with
  | some (ref :: refs) =>
    spread (body.payload.getD []) "tokenStandardRefs" (.arr ((ref :: refs).map .str))
  | _ => body.payload.getD []

def ReputationOutboundBody.envelope (body : ReputationOutboundBody) (emittedAt : Time) : Envelope where
  idempotencyKey := body.idempotencyKey
  eventType := body.eventType
  subjectType := body.subjectType
  subjectId := body.subjectId
  emittedAt := emittedAt
  payload := body.envelopePayload

/-- `config.reputation`; `hmacHex` is the signature of the text of an envelope under a secret. -/
structure Config where
  outboundWebhookSecret : String
  hmacHex : String → Envelope → String

/-- The headers of the request. -/
def headers (config : Config) (envelope : Envelope) : List (String × String) :=
  let secret := Ops.trim config.outboundWebhookSecret
  [("Content-Type", "application/json"), ("X-Bluesafe-Idempotency-Key", envelope.idempotencyKey)] ++
    if secret = "" then []
    else [("X-Bluesafe-Signature", "sha256=" ++ config.hmacHex secret envelope)]

/-! ## Calls -/

structure HttpResponse where
  status : Nat

/-- `res.ok`. -/
def HttpResponse.ok (res : HttpResponse) : Bool := 200 ≤ res.status && res.status ≤ 299

structure AuditParams where
  entityType : String
  entityId : String
  action : String
  actorId : String
  metadata : JsonObject

structure EventParams where
  eventType : String
  entityType : String
  entityId : String
  payload : JsonObject

inductive Call
  | nowIso
  | fetch (url : String) (headers : List (String × String)) (envelope : Envelope)
  | resText
  | recordReputationOutboundDelivery (ok : Bool)
  | recordReputationOutboundDlq (body : ReputationOutboundBody) (detail : FailureDetail)
  | removeReputationDlq (idempotencyKey : String)
  | writeAudit (params : AuditParams)
  | emitEvent (params : EventParams)

@[reducible] def Call.Res : Call → Type
  | nowIso => Time
  | fetch _ _ _ => HttpResponse
  | resText => String
  | _ => Unit

def calls : Interface := ⟨Call, Call.Res⟩

abbrev OutboundM : Type → Type := Async calls Thrown

def invoke (op : Call) : OutboundM op.Res := Async.call (I := calls) op

/-! ## The delivery -/

/-- The audit log of a failed delivery. -/
def failureAudit (body : ReputationOutboundBody) (metadata : JsonObject) : AuditParams where
  entityType := "reputation"
  entityId := body.idempotencyKey
  action := "reputation.outbound_delivery_failed"
  actorId := "reputation_webhook"
  metadata := metadata

/-- The event of a failed delivery. -/
def failureEvent (body : ReputationOutboundBody) (reason : String × Json) : EventParams where
  eventType := "reputation.outbound_delivery_failed"
  entityType := body.subjectType
  entityId := body.subjectId
  payload := [("idempotencyKey", .str body.idempotencyKey), reason]

/-- The books of an answer that is not ok. -/
def bookStatus (body : ReputationOutboundBody) (res : HttpResponse) : OutboundM Unit := do
  let t ← tryCatch (invoke .resText) fun _ => pure ""
  invoke (.recordReputationOutboundDelivery false)
  invoke (.recordReputationOutboundDlq body
    { httpStatus := some res.status, error := some (sliceTo 500 t) })
  invoke (.writeAudit (failureAudit body
    [("httpStatus", .num res.status), ("detail", .str (sliceTo 500 t))]))
  invoke (.emitEvent (failureEvent body ("httpStatus", .num res.status)))

/-- The books of an answer that is ok. -/
def bookDelivered (body : ReputationOutboundBody) (res : HttpResponse) : OutboundM Unit := do
  invoke (.removeReputationDlq body.idempotencyKey)
  invoke (.recordReputationOutboundDelivery true)
  invoke (.writeAudit {
    entityType := "reputation"
    entityId := body.idempotencyKey
    action := "reputation.outbound_delivered"
    actorId := "reputation_webhook"
    metadata := [("httpStatus", .num res.status)] })
  let at_ ← invoke .nowIso
  invoke (.emitEvent {
    eventType := "reputation.outbound_delivered"
    entityType := body.subjectType
    entityId := body.subjectId
    payload := [("idempotencyKey", .str body.idempotencyKey), ("at", .time at_)] })

/-- The handler of the `try`. -/
def bookThrown (body : ReputationOutboundBody) (e : Thrown) : OutboundM Unit := do
  invoke (.recordReputationOutboundDelivery false)
  invoke (.recordReputationOutboundDlq body { error := some e.text })
  invoke (.writeAudit (failureAudit body [("error", .str e.text)]))
  invoke (.emitEvent (failureEvent body ("error", .str e.text)))

/-- `deliverReputationOutboundWebhook`. -/
def deliverReputationOutboundWebhook (config : Config) (body : ReputationOutboundBody)
    (url : String) : OutboundM Unit := do
  let emittedAt ← invoke .nowIso
  let envelope := body.envelope emittedAt
  tryCatch
    (do
      let res ← invoke (.fetch url (headers config envelope) envelope)
      if res.ok then bookDelivered body res else bookStatus body res)
    (bookThrown body)

/-! ## The world -/

/-- The store and the counters of `reputation-outbound-metrics.ts`. -/
structure State where
  dlq : Dlq
  deliveredOk : Nat
  deliveredFail : Nat

def State.empty : State := ⟨.empty, 0, 0⟩

/-- What the environment chooses at a call: the clock, the answer, or a rejection. -/
structure Choice where
  now : Time := 0
  res : HttpResponse := ⟨200⟩
  body : String := ""
  failure : Option Thrown := none

/-- The calls that are awaited. -/
def Call.isAwaited : Call → Bool
  | fetch _ _ _ => true
  | resText => true
  | writeAudit _ => true
  | emitEvent _ => true
  | _ => false

/-- The answer and the effect of a call that is not rejected. -/
def perform : (op : Call) → Choice → State → op.Res × State
  | .nowIso, c, s => (c.now, s)
  | .fetch _ _ _, c, s => (c.res, s)
  | .resText, c, s => (c.body, s)
  | .recordReputationOutboundDelivery true, _, s => ((), { s with deliveredOk := s.deliveredOk + 1 })
  | .recordReputationOutboundDelivery false, _, s =>
    ((), { s with deliveredFail := s.deliveredFail + 1 })
  | .recordReputationOutboundDlq body detail, c, s =>
    ((), { s with dlq := Reputation.recordReputationOutboundDlq c.now body detail s.dlq })
  | .removeReputationDlq key, _, s => ((), { s with dlq := Reputation.removeReputationDlq key s.dlq })
  | .writeAudit _, _, s => ((), s)
  | .emitEvent _, _, s => ((), s)

def world : World calls Thrown State Choice :=
  .fallible Call.isAwaited Choice.failure perform fun _ s => s

/-- Deliveries one after the other: the body and the url of each, and the choices made. -/
def deliverStep (config : Config) :
    State → (ReputationOutboundBody × String) × List Choice → Option State :=
  Async.seqStep world fun req => deliverReputationOutboundWebhook config req.1 req.2

end Bluesafe.Reputation
