import Bluesafe.Api.Repository
import Bluesafe.Ops.Xrpl

/-!
# The ledger stream

`handleLedgerClosed` of `services/xrpl-subscribe.worker.ts` and
`afterSettlementLedgerClosedEvent` of `services/settlement-ledger.ts`. The worker starts a
handler for every message of its two streams and does not wait for it, so the handlers of
different messages, and of the same message when it is delivered again, are interleaved at
their calls. `handleTransaction` is the one of `Bluesafe.Ops`.

The process-local counters that the handlers update are left out.
-/

namespace Bluesafe.Api

open Bluesafe.Ops (Time Json IngestionKey TransactionStream tryRecordXrplIngestionEvent emitEvent
  nowIso handleTransaction)

/-- A `ledgerClosed` message; `ledgerTime` is in seconds of the Ripple epoch. -/
structure LedgerStream where
  ledgerIndex : Int
  ledgerHash : Option String := none
  ledgerTime : Option Nat := none
  txnCount : Option Nat := none

/-- `RIPPLE_EPOCH_UNIX_SEC`. -/
def rippleEpochUnixSec : Nat := 946684800

/-- `getUTCFullYear()` and `getUTCMonth() + 1` of a timestamp. -/
def calendarMonth (t : Time) : Nat × Nat :=
  -- Days are counted from 1 March of year 0, in eras of 400 years.
  let z := t / 86400000 + 719468
  let doe := z % 146097
  let yoe := (doe - doe / 1460 + doe / 36524 - doe / 146096) / 365
  let mp := (5 * (doe - (365 * yoe + yoe / 4 - yoe / 100)) + 2) / 153
  let month := if mp < 10 then mp + 3 else mp - 9
  (yoe + z / 146097 * 400 + if month ≤ 2 then 1 else 0, month)

/-- `calendarMonthFromLedgerStream`: without a ledger time the clock decides. -/
def calendarMonthFromLedgerStream (stream : LedgerStream) : ApiM (Nat × Nat) :=
  match stream.ledgerTime with
  | some ledgerTime => return calendarMonth ((rippleEpochUnixSec + ledgerTime) * 1000)
  | none => do
    let now ← ofOps nowIso
    return calendarMonth now

/-- The text that stands for a transaction hash in the record of a ledger. -/
def syntheticHash (ledgerIndex : Int) : String := "ledger:" ++ toString ledgerIndex

/-- The record of a closed ledger. -/
def ledgerKey (ledgerIndex : Int) : IngestionKey :=
  ⟨ledgerIndex, syntheticHash ledgerIndex, "xrpl_subscribe_ledger_closed"⟩

/-- The record of a transaction of a ledger. -/
def transactionKey (ledgerIndex : Int) (hash : String) : IngestionKey :=
  ⟨ledgerIndex, hash, "xrpl_subscribe_transaction"⟩

/-- `afterSettlementLedgerClosedEvent`. -/
def afterSettlementLedgerClosedEvent (stream : LedgerStream) (touchEnabled : Bool) : ApiM Unit := do
  if touchEnabled then
    let (year, month) ← calendarMonthFromLedgerStream stream
    let now ← ofOps nowIso
    let n ← invoke (.touchSettlementsOnLedgerClose ⟨year, month, stream.ledgerIndex, now⟩)
    ofOps (emitEvent "settlement.period_touched" "xrpl_ledger" (syntheticHash stream.ledgerIndex)
      [("periodYear", .num year), ("periodMonth", .num month), ("contractsTouched", .num n),
        ("ledgerIndex", .num stream.ledgerIndex),
        ("ledgerHash", Json.orNull (stream.ledgerHash.map .str))])

/-- `handleLedgerClosed`. -/
def handleLedgerClosed (stream : LedgerStream) (settlementTouchEnabled : Bool) : ApiM Unit := do
  let inserted ← ofOps (tryRecordXrplIngestionEvent (ledgerKey stream.ledgerIndex))
  if inserted then
    ofOps (emitEvent "settlement.ledger_closed" "xrpl_ledger" (syntheticHash stream.ledgerIndex)
      ([("ledgerIndex", .num stream.ledgerIndex)]
        ++ Ops.JsonObject.opt "ledgerHash" (stream.ledgerHash.map .str)
        ++ Ops.JsonObject.opt "ledgerTime" (stream.ledgerTime.map fun n => .num n)
        ++ Ops.JsonObject.opt "txnCount" (stream.txnCount.map fun n => .num n)))
    afterSettlementLedgerClosedEvent stream settlementTouchEnabled

/-- A message of the stream; `throttled` is the answer of the token bucket. -/
inductive Message
  | ledgerClosed (stream : LedgerStream)
  | transaction (stream : TransactionStream) (throttled : Bool)

/-- The handler of a message. -/
def handleMessage (touchEnabled : Bool) : Message → ApiM Unit
  | .ledgerClosed stream => handleLedgerClosed stream touchEnabled
  | .transaction stream throttled => ofOps (handleTransaction stream throttled)

/-- A handler of the worker. -/
abbrev SubscribeThread : Type := Async.Thread calls String Message Unit

/-- The worker with its handlers in progress. -/
abbrev SubscribePool : Type := Async.Pool calls String Store Message Unit

/-- The worker: any message may arrive at any time and any number of times, and any
    repository call of a handler may be rejected. -/
def subscribeStep (rt : Runtime) (touchEnabled : Bool) :
    SubscribePool → Async.Act Message Choice → Option SubscribePool :=
  Async.poolStep (world rt) (handleMessage touchEnabled)

end Bluesafe.Api
