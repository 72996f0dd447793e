import Bluesafe.Escrow.Conditions
import Bluesafe.ForStd.Double
import Bluesafe.Lock.Service
import Mathlib

/-!
# The escrows of a lease

`buildDepositEscrow` and `buildStakeEscrow` of `packages/xrpl-core/src/escrow/EscrowService.ts`, with
the times of `lib/time.ts`, computed in doubles as there. `numberText` is `String(x)`, which only the
message of an error uses. An offset is a whole number of days.
-/

namespace Bluesafe.Escrow

open Bluesafe.Ops (truthy)
open Bluesafe.Lock (Amount)
open Bluesafe.Judge (Memo)
open Double (Number)

/-! ## Times -/

/-- `RIPPLE_EPOCH_OFFSET`. -/
def rippleEpochOffset : ℤ := 946684800

/-- `unixToRippleEpoch`. -/
def unixToRippleEpoch (numberText : Number → String) (unixSeconds : Number) : Except String Number :=
  let outOfRange := "unix seconds out of range for Ripple Epoch: " ++ numberText unixSeconds
  match unixSeconds with
  | .finite seconds =>
    if seconds.val < rippleEpochOffset then .error outOfRange
    else .ok (unixSeconds.floor.subInt rippleEpochOffset)
  | _ => .error outOfRange

/-- `addDaysUnix`. -/
def addDaysUnix (unixSeconds : Number) (days : ℤ) : Number :=
  unixSeconds.add ((Number.ofInt days).mul (.ofInt 86400))

/-! ## Builders -/

/-- `DepositEscrowInput`. -/
structure DepositEscrowInput where
  tenant : String
  landlord : String
  amount : Amount
  leaseEndUnix : Number
  finishOffsetDays : Option ℤ := none
  cancelOffsetDays : Option ℤ := none
  condition : Option PreimageCondition := none
  destinationTag : Option Nat := none
  memos : Option (List Memo) := none

/-- `StakeEscrowInput`. -/
structure StakeEscrowInput where
  landlord : String
  stakeHolder : String
  amount : Amount
  leaseEndUnix : Number
  finishOffsetDays : Option ℤ := none
  cancelOffsetDays : Option ℤ := none
  destinationTag : Option Nat := none
  memos : Option (List Memo) := none

/-- `EscrowCreate`, as the builders fill it. -/
structure EscrowCreate where
  account : String
  destination : String
  amount : Amount
  finishAfter : Number
  cancelAfter : Number
  condition : Option String
  destinationTag : Option Nat
  memos : Option (List Memo)
  deriving DecidableEq

/-- `FinishAfter` and `CancelAfter` of both builders. -/
def escrowWindow (numberText : Number → String) (leaseEndUnix : Number)
    (finishOffsetDays cancelOffsetDays : Option ℤ) : Except String (Number × Number) := do
  let finishUnix := addDaysUnix leaseEndUnix (finishOffsetDays.getD 7)
  let cancelUnix := addDaysUnix leaseEndUnix (cancelOffsetDays.getD 30)
  let finishAfter ← unixToRippleEpoch numberText finishUnix
  let cancelAfter ← unixToRippleEpoch numberText cancelUnix
  return (finishAfter, cancelAfter)

/-- `buildDepositEscrow`. -/
def buildDepositEscrow (numberText : Number → String) (p : DepositEscrowInput) :
    Except String EscrowCreate := do
  let window ← escrowWindow numberText p.leaseEndUnix p.finishOffsetDays p.cancelOffsetDays
  return {
    account := p.tenant
    destination := p.landlord
    amount := p.amount
    finishAfter := window.1
    cancelAfter := window.2
    condition := p.condition.map PreimageCondition.condition
    destinationTag := p.destinationTag
    memos := p.memos }

/-- `buildStakeEscrow`. -/
def buildStakeEscrow (numberText : Number → String) (p : StakeEscrowInput) :
    Except String EscrowCreate := do
  let window ← escrowWindow numberText p.leaseEndUnix p.finishOffsetDays p.cancelOffsetDays
  return {
    account := p.landlord
    destination := p.stakeHolder
    amount := p.amount
    finishAfter := window.1
    cancelAfter := window.2
    condition := none
    destinationTag := p.destinationTag
    memos := p.memos }

end Bluesafe.Escrow
