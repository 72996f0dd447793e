import Bluesafe.Ops.Utils
import Bluesafe.ForStd.Text

/-!
# Data model of the monthly settlement

The records that `services/be1-xrpl/src/reconciler` works on: the contract row and its
decrypted form (`contracts/contract.entity.ts`, `contracts.service.ts`), the usage report
of the power company, the reconciliation row, the payment with its memo
(`payment-memo.builder.ts`) and the monthly report e-mail.

A number of the source that only travels from the usage report to a text is a `JsNumber`:
what matters about it is the text `String(n)` gives it.
-/

namespace Bluesafe.Settle

open Bluesafe.Ops (Time truthy)

/-! ## Contracts -/

/-- `ContractStatus` of `contract-status.enum.ts`. -/
inductive ContractStatus
  | pending
  | locked
  | settled
  | cancelled
  | disputed
  deriving DecidableEq, Repr

def ContractStatus.text : ContractStatus → String
  | pending => "pending"
  | locked => "locked"
  | settled => "settled"
  | cancelled => "cancelled"
  | disputed => "disputed"

/-- A row of `contracts`, with the columns the settlement reads. -/
structure ContractRow where
  id : String
  landlordAddress : String
  contractAccountAddress : Option String
  contractAccountSeedCipher : Option String
  status : ContractStatus
  tenantPiiCipher : String
  landlordPiiCipher : String
  tenantEmail : Option String

/-- `ContractDto`: the row with its ciphertexts decrypted. -/
structure ContractDto where
  id : String
  landlordAddress : String
  contractAccountAddress : Option String
  contractAccountSeed : Option String
  status : ContractStatus
  tenantPii : String
  landlordPii : String
  tenantEmail : Option String

/-- `toDto`; `decrypt` is `EncryptionService.decrypt`, which throws for a package it does
    not accept. -/
def ContractRow.toDto (decrypt : String → Except String String) (c : ContractRow) :
    Except String ContractDto := do
  let tenantPii ← decrypt c.tenantPiiCipher
  let landlordPii ← decrypt c.landlordPiiCipher
  let contractAccountSeed ← match truthy c.contractAccountSeedCipher with
    | some cipher => some <$> decrypt cipher
    | none => pure none
  return {
    id := c.id
    landlordAddress := c.landlordAddress
    contractAccountAddress := c.contractAccountAddress
    contractAccountSeed := contractAccountSeed
    status := c.status
    tenantPii := tenantPii
    landlordPii := landlordPii
    tenantEmail := c.tenantEmail }

/-! ## Usage -/

/-- A number of the source, by the text `String(n)` gives it. -/
structure JsNumber where
  text : String
  deriving DecidableEq, Repr

/-- `JSON.stringify(n)`: a number that is not finite becomes `null`. -/
def JsNumber.json (n : JsNumber) : List Char :=
  if n.text ∈ ["NaN", "Infinity", "-Infinity"] then "null".toList else n.text.toList

/-- `MonthlyUsage`. The meter reading date is its ISO text, `none` for an invalid date. -/
structure MonthlyUsage where
  contractId : String
  yearMonth : String
  usageKwh : JsNumber
  chargeKrw : JsNumber
  meterReadingDate : Option String
  deriving DecidableEq, Repr

/-- `JSON.stringify(usage)`. -/
def MonthlyUsage.json (usage : MonthlyUsage) : List Char :=
  Text.object [("contractId", Text.quote usage.contractId),
    ("yearMonth", Text.quote usage.yearMonth),
    ("usageKwh", usage.usageKwh.json),
    ("chargeKrw", usage.chargeKrw.json),
    ("meterReadingDate", match usage.meterReadingDate with
      | some iso => Text.quote iso
      | none => "null".toList)]

/-! ## Reconciliations -/

/-- `ReconciliationStatus`. -/
inductive ReconciliationStatus
  | matched
  | mismatch
  | failed
  deriving DecidableEq, Repr

/-- What `recordRepo.create` is given. -/
structure ReconciliationDraft where
  contractId : String
  yearMonth : String
  kepcoUsageKwh : JsNumber
  kepcoChargeKrw : JsNumber
  kepcoUsageHash : String
  status : ReconciliationStatus
  paymentTxHash : Option String
  errorMessage : Option String
  deriving DecidableEq, Repr

/-- A row of `reconciliations`. -/
structure Reconciliation extends ReconciliationDraft where
  id : String
  reportSentAt : Option Time
  createdAt : Time
  deriving DecidableEq, Repr

/-- `ReconcilePaymentRetryJob`, the only kind of `XrplTxRetryJob`. -/
structure XrplTxRetryJob where
  contractId : String
  yearMonth : String
  deriving DecidableEq, Repr

/-! ## Payments -/

/-- `ReconcileMemoPayload`. -/
structure ReconcileMemoPayload where
  contractId : String
  yearMonth : String
  kepcoUsageHash : String
  landlordClaimHash : String
  calculatedAmountDrops : String
  deriving DecidableEq, Repr

/-- `ReconcileMemo`. -/
structure ReconcileMemo where
  memoType : String
  memoFormat : String
  memoData : String
  deriving DecidableEq, Repr

/-- `JSON.stringify(payload)`. -/
def ReconcileMemoPayload.json (payload : ReconcileMemoPayload) : List Char :=
  Text.object [("contractId", Text.quote payload.contractId),
    ("yearMonth", Text.quote payload.yearMonth),
    ("kepcoUsageHash", Text.quote payload.kepcoUsageHash),
    ("landlordClaimHash", Text.quote payload.landlordClaimHash),
    ("calculatedAmountDrops", Text.quote payload.calculatedAmountDrops)]

/-- `buildReconcileMemo`. `convertStringToHex` is the hexadecimal of the UTF-8 bytes.
    Irreducible, so that the elaborator does not encode a text to see what a program does. -/
@[irreducible] def buildReconcileMemo (payload : ReconcileMemoPayload) :
    Except String ReconcileMemo :=
  let json := payload.json
  let bytes := Text.byteLength json
  if bytes > 1024 then
    .error ("Memo data too large: " ++ toString bytes ++ " bytes > 1024 (XRPL Memo 한계)")
  else
    .ok {
      memoType := Text.hexOf "reconcile/v1".toList
      memoFormat := Text.hexOf "application/json".toList
      memoData := Text.hexOf json }

/-- The `Payment` transaction `submitXrpPayment` builds. -/
structure Payment where
  account : String
  destination : String
  amount : String
  memos : List ReconcileMemo
  deriving DecidableEq, Repr

/-- `TxResponse<Payment>`: the hash, and `meta.TransactionResult` when `meta` is an object. -/
structure PaymentResponse where
  hash : String
  transactionResult : Option String
  deriving DecidableEq, Repr

/-- `EmailMessage`; `toAddress` is its field `to`. -/
structure EmailMessage where
  toAddress : String
  subject : String
  text : String

/-! ## Settings -/

/-- The environment of the service and the library functions it calls: `Wallet.fromSeed`
    (its classic address), the SHA-256 digest in hexadecimal, the decryption of a column, and
    `toLocaleString('ko-KR')`. -/
structure Config where
  production : Bool
  explorerUrl : Option String
  decrypt : String → Except String String
  walletFromSeed : String → Except String String
  sha256Hex : String → String
  toLocaleString : JsNumber → String

end Bluesafe.Settle
