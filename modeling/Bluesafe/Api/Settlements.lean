import Bluesafe.Api.Evidence
import Bluesafe.Api.Subscribe

/-!
# Settlements

`PATCH /v1/settlements/:settlementId/status` of `index.ts`. The handler reads the row, computes
all its columns from what it has read, and writes them back in a later call; the touches of
the ledger stream write the same rows. A request whose body its schema rejects makes no call
and is left out.

`settlementsStep` interleaves any number of these requests and of the messages of the ledger
stream at their calls, `settlementsSeqStep` handles them one after the other.
-/

namespace Bluesafe.Api

open Bluesafe.Ops (Time Json JsonObject Contract writeAudit emitEvent notifyParties)
open Bluesafe.Notify (utf16Units)

/-- The statuses of `settlementStatusPatchSchema`. -/
inductive PatchedStatus
  | accrued
  | confirmed
  | archived
  deriving DecidableEq, Repr

def PatchedStatus.toStatus : PatchedStatus → SettlementStatus
  | accrued => .accrued
  | confirmed => .confirmed
  | archived => .archived

/-- `settlementStatusPatchSchema`. -/
structure SettlementPatch where
  status : Option PatchedStatus := none
  amountMinor : Option Nat := none
  currencyCode : Option String := none
  batchId : Option String := none
  currencyCode_length : ∀ s ∈ currencyCode, 1 ≤ (utf16Units s).length ∧ (utf16Units s).length ≤ 32
  batchId_length : ∀ s ∈ batchId, 1 ≤ (utf16Units s).length ∧ (utf16Units s).length ≤ 128
  any_given : status.isSome || amountMinor.isSome || currencyCode.isSome || batchId.isSome

/-- `settlementTransitionAllowed`. -/
def settlementTransitionAllowed (old new : SettlementStatus) : Bool :=
  if old = new then true
  else if old = .archived then false
  else if new = .archived then true
  else if old = .collecting ∧ (new = .accrued ∨ new = .confirmed) then true
  else if old = .accrued ∧ new = .confirmed then true
  else false

/-- `body.status ?? s.status`. -/
def SettlementPatch.nextStatus (body : SettlementPatch) (s : SettlementRecord) : SettlementStatus :=
  (body.status.map PatchedStatus.toStatus).getD s.status

/-- The transition that the guard rejects. -/
def SettlementPatch.rejected (body : SettlementPatch) (s : SettlementRecord) : Option SettlementStatus :=
  (body.status.map PatchedStatus.toStatus).filter fun next => !settlementTransitionAllowed s.status next

/-- `updated`: every column is the one that was read, unless the body gives another one. -/
def SettlementRecord.patched (s : SettlementRecord) (body : SettlementPatch) (t : Time) :
    SettlementRecord :=
  { s with
    status := body.nextStatus s
    updatedAt := t
    currencyCode := body.currencyCode.getD s.currencyCode
    amountMinor := body.amountMinor.or s.amountMinor
    batchId := body.batchId.or s.batchId
    confirmedAt :=
      if body.nextStatus s = .confirmed ∧ s.confirmedAt = none then some t else s.confirmedAt }

/-- `statusChanged`. -/
def SettlementPatch.statusChanged (body : SettlementPatch) (s : SettlementRecord) : Bool :=
  body.status.any fun next => decide (next.toStatus ≠ s.status)

/-- `financialChanged`. -/
def SettlementPatch.financialChanged (body : SettlementPatch) (s : SettlementRecord) : Bool :=
  body.amountMinor.any (fun n => decide (some n ≠ s.amountMinor)) ||
    body.currencyCode.any (fun code => decide (code ≠ s.currencyCode)) ||
    body.batchId.any fun id => decide (some id ≠ s.batchId)

/-- The financial columns in an audit entry or an event. -/
def SettlementRecord.financials (s : SettlementRecord) : JsonObject :=
  JsonObject.opt "amountMinor" (s.amountMinor.map fun n => .num n)
    ++ [("currencyCode", .str s.currencyCode)]
    ++ JsonObject.opt "batchId" (s.batchId.map .str)

/-- The payload that names the period of a row. -/
def SettlementRecord.period (s : SettlementRecord) : JsonObject :=
  [("contractId", .str s.contractId), ("periodYear", .num s.periodYear),
    ("periodMonth", .num s.periodMonth)]

/-- The event of a changed status. -/
def emitStatusUpdated (settlementId : String) (body : SettlementPatch) (s updated : SettlementRecord) :
    ApiM Unit :=
  if body.statusChanged s then
    ofOps (emitEvent "settlement.status_updated" "settlement" settlementId
      (s.period ++ [("status", .str updated.status.text)]))
  else pure ()

/-- The event of changed financial columns, and its notification. -/
def emitFinancialsAttached (settlementId : String) (body : SettlementPatch)
    (s updated : SettlementRecord) : ApiM Unit :=
  if body.financialChanged s then do
    ofOps (emitEvent "settlement.financials_attached" "settlement" settlementId
      (s.period ++ updated.financials))
    ofOps (notifyParties s.contractId "settlement.financials_attached"
      (("settlementId", .str settlementId) :: s.period))
  else pure ()

def notifyAccrued (settlementId : String) (s updated : SettlementRecord) : ApiM Unit :=
  if updated.status = .accrued then
    ofOps (notifyParties s.contractId "settlement.accrued"
      (("settlementId", .str settlementId) :: s.period))
  else pure ()

/-- `enqueueSettlementConfirmedNotifications`, which addresses the two parties of the contract as
    the other notifications do. -/
def notifyConfirmed (autoNotifyOnConfirmed : Bool) (s updated : SettlementRecord) : ApiM Unit :=
  if updated.status = .confirmed ∧ autoNotifyOnConfirmed = true then
    ofOps (notifyParties s.contractId "settlement.confirmed"
      (("settlementId", .str updated.id) :: s.period))
  else pure ()

/-- What follows the save: audit, events, notifications and the reply. -/
def announcePatch (autoNotifyOnConfirmed : Bool) (caller : Caller) (settlementId : String)
    (body : SettlementPatch) (s updated : SettlementRecord) : ApiM Response := do
  ofOps (writeAudit "settlement" settlementId "settlement.status_patched"
    (Ops.actorId caller.auth "operator")
    (some (("status", .str s.status.text) :: s.financials))
    (some (("status", .str updated.status.text) :: updated.financials
      ++ JsonObject.opt "confirmedAt" (updated.confirmedAt.map .time))) none)
  emitStatusUpdated settlementId body s updated
  emitFinancialsAttached settlementId body s updated
  notifyAccrued settlementId s updated
  notifyConfirmed autoNotifyOnConfirmed s updated
  return .json 200 updated.json

/-- Write the row back and announce the change. -/
def storePatch (autoNotifyOnConfirmed : Bool) (caller : Caller) (settlementId : String)
    (body : SettlementPatch) (s : SettlementRecord) : ApiM Response := do
  let t ← ofOps Ops.nowIso
  invoke (.saveSettlement (s.patched body t))
  announcePatch autoNotifyOnConfirmed caller settlementId body s (s.patched body t)

/-- `PATCH /v1/settlements/:settlementId/status`. -/
def patchSettlementStatus (config : Config) (autoNotifyOnConfirmed : Bool) (caller : Caller)
    (settlementId : String) (body : SettlementPatch) : ApiM Response :=
  operatorRoute config .settlements caller do
    match ← invoke (.getSettlement settlementId) with
    | none => return notFound "Settlement not found"
    | some s =>
      match body.rejected s with
      | some next =>
        return .error 409 "B2_VALIDATION_ERROR"
          ("Cannot transition settlement status " ++ s.status.text ++ " -> " ++ next.text)
      | none => storePatch autoNotifyOnConfirmed caller settlementId body s

/-! ## The system -/

/-- The settings of the two writers: `settlementTouchEnabled` and `autoNotifyOnConfirmed`. -/
structure SettlementSettings where
  touchEnabled : Bool
  autoNotifyOnConfirmed : Bool

/-- The entries that write settlements: a message of the ledger stream, or a patch. -/
inductive SettlementRequest
  | message (msg : Message)
  | patch (caller : Caller) (settlementId : String) (body : SettlementPatch)

/-- The program of each entry; the stream gets no reply. -/
def handleSettlement (config : Config) (settings : SettlementSettings) :
    SettlementRequest → ApiM (Option Response)
  | .message msg => (fun _ => none) <$> handleMessage settings.touchEnabled msg
  | .patch caller settlementId body =>
    some <$> patchSettlementStatus config settings.autoNotifyOnConfirmed caller settlementId body

/-- A request in progress. -/
abbrev SettlementThread : Type := Async.Thread calls String SettlementRequest (Option Response)

/-- The requests in progress. -/
abbrev SettlementsPool : Type := Async.Pool calls String Store SettlementRequest (Option Response)

/-- Any number of messages and patches at the same time; any repository call may be rejected. -/
def settlementsStep (config : Config) (settings : SettlementSettings) :
    SettlementsPool → Async.Act SettlementRequest Choice → Option SettlementsPool :=
  Async.poolStep (world config.runtime) (handleSettlement config settings)

/-- One message or patch after the other. -/
def settlementsSeqStep (config : Config) (settings : SettlementSettings) :
    Store → SettlementRequest × List Choice → Option Store :=
  Async.seqStep (world config.runtime) (handleSettlement config settings)

end Bluesafe.Api
