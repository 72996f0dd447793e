import Bluesafe.Api.Settlements
import Bluesafe.Async.Interp
import Bluesafe.Async.Keeps
import Bluesafe.Notify.Workers

/-!
# Settlement patches with their notifications

In `Bluesafe.Api.Settlements` the notifications of a patch are one call. Here this call is the
program that enqueues them: `maybeEnqueueDomainNotifications`, or for a confirmed settlement
`enqueueSettlementConfirmedNotifications` (`settlement-notifications.ts`), item by item against
the store of `Bluesafe.Notify`. `noticesStep` handles any number of patches, one after the
other, with every call answered.
-/

namespace Bluesafe.Api

open Bluesafe.Ops (DomainNotification)
open Bluesafe.Notify (NotifyM enqueueFanoutNotificationItems expandRecipientChannels)

/-- The calls of the routes and those of the notification services. -/
@[reducible] def noticeCalls : Interface := calls.sum Notify.calls

/-- The items of a notification. Those of a confirmed settlement have a mark of their own, and
    `autoDomainEnqueue` does not concern them. -/
def noticeItems (config : Notify.Config) (n : DomainNotification) :
    List Notify.FanoutNotificationItem :=
  if n.eventType = "settlement.confirmed" then
    expandRecipientChannels n.eventType n.recipientIds n.payload [("settlementAuto", .bool true)]
  else (Notify.Occurrence.domain n.eventType n.recipientIds n.payload).items config

/-- The program behind the call. -/
def enqueueNotices (config : Notify.Config) (n : DomainNotification) : NotifyM Unit :=
  if n.eventType = "settlement.confirmed" then
    enqueueFanoutNotificationItems config (noticeItems config n)
  else Notify.enqueueOccurrence config (.domain n.eventType n.recipientIds n.payload)

-- What a confirmed settlement enqueues is what `Bluesafe.Notify` says.
example (config : Notify.Config) (c : Notify.SettlementConfirmation) :
    enqueueNotices config ⟨"settlement.confirmed", [c.tenantId, c.landlordId],
      [("settlementId", .str c.settlementId), ("contractId", .str c.contractId),
        ("periodYear", .num c.periodYear), ("periodMonth", .num c.periodMonth)]⟩ =
      Notify.enqueueOccurrence config (.settlementConfirmed c) := rfl

/-- Each call as a program of both services. -/
def carryOut (config : Notify.Config) : (op : calls.Op) → Async noticeCalls String (calls.Res op)
  | .inl (.enqueueDomainNotifications n) => Async.inr (enqueueNotices config n)
  | op => Async.call (I := noticeCalls) (.inl op)

/-- The settings; the notifications go the direct way. -/
structure NoticeSettings where
  api : Config
  notify : Notify.Config
  autoNotifyOnConfirmed : Bool
  direct : notify.domainOutbox = false

/-- A request of the route. -/
structure PatchRequest where
  caller : Caller
  settlementId : String
  body : SettlementPatch

/-- The program of a request. -/
def handlePatch (settings : NoticeSettings) (req : PatchRequest) :
    Async noticeCalls String Response :=
  Async.interp (carryOut settings.notify)
    (patchSettlementStatus settings.api settings.autoNotifyOnConfirmed req.caller req.settlementId
      req.body)

/-- The two stores. -/
abbrev NoticeStore : Type := Store × Notify.Store

/-- Every call is answered. -/
def noticeWorld (rt : Runtime) :
    World noticeCalls String NoticeStore (Choice × Notify.Choice) :=
  ((world rt).restrict fun c => c.failure.isNone).sum Notify.reliable

/-- One patch after the other. -/
def noticesStep (settings : NoticeSettings) :
    NoticeStore → PatchRequest × List (Choice × Notify.Choice) → Option NoticeStore :=
  Async.seqStep (noticeWorld settings.api.runtime) (handlePatch settings)

end Bluesafe.Api
