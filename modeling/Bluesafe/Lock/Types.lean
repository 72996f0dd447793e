import Bluesafe.Settle.Types

/-!
# Data model of the deposit lock

The records of `services/be1-xrpl/src/contracts/contracts.service.ts` and the two
transactions its `lockTenantDeposit` submits, with the checks of
`xrpl/escrow.service.ts` and `xrpl/signer-list.service.ts` before and after a submission.

A `Date` is its time value in milliseconds, `none` for an invalid date. A wallet is its
classic address and its seed.
-/

namespace Bluesafe.Lock

open Bluesafe.Ops (truthy trim)
open Bluesafe.Settle (ContractStatus)

/-! ## Inputs and rows -/

/-- A JavaScript `Date`. -/
structure Date where
  ms : Option Int
  deriving DecidableEq, Repr

structure Wallet where
  classicAddress : String
  seed : Option String
  deriving DecidableEq, Repr

/-- `ContractAssetMode`. -/
inductive AssetMode
  | xrp
  | iou
  deriving DecidableEq, Repr

/-- `CreateContractInput`. -/
structure CreateContractInput where
  tenantAddress : String
  landlordAddress : String
  depositAmount : String
  stakeAmount : String
  startsAt : Date
  endsAt : Date
  finishAfter : Date
  cancelAfter : Date
  tenantPii : String
  landlordPii : String
  tenantEmail : Option String
  assetMode : Option AssetMode
  iouIssuer : Option String
  iouCurrency : Option String

/-- `LockTenantDepositInput`. -/
structure LockTenantDepositInput extends CreateContractInput where
  contractWallet : Wallet
  operatorAddress : String

/-- What `repo.create` is given. -/
structure ContractDraft where
  tenantAddress : String
  landlordAddress : String
  depositAmount : String
  stakeAmount : String
  startsAt : Date
  endsAt : Date
  finishAfter : Date
  cancelAfter : Date
  tenantPiiCipher : String
  landlordPiiCipher : String
  tenantEmail : Option String
  status : ContractStatus
  assetMode : AssetMode
  iouIssuer : Option String
  iouCurrency : Option String
  deriving DecidableEq, Repr

/-- The columns `lockTenantDeposit` fills in. -/
structure LockColumns where
  contractAccountAddress : Option String
  contractAccountSeedCipher : Option String
  depositEscrowSequence : Option Nat
  depositEscrowTxHash : Option String
  stakeEscrowSequence : Option Nat
  stakeEscrowTxHash : Option String
  signerListTxHash : Option String
  deriving DecidableEq, Repr

/-- A row of `contracts`. -/
structure ContractRow extends ContractDraft, LockColumns where
  id : String
  deriving DecidableEq, Repr

/-- The columns of a row that has not been locked. -/
def LockColumns.empty : LockColumns := ⟨none, none, none, none, none, none, none⟩

/-- The row `repo.save` inserts. -/
def ContractDraft.toRow (draft : ContractDraft) (id : String) : ContractRow :=
  { draft, LockColumns.empty with id := id }

/-- The argument of `repo.update`: the columns of the lock and the status. -/
structure ContractPatch extends LockColumns where
  status : ContractStatus
  deriving DecidableEq, Repr

/-- `UPDATE contracts SET ...`. -/
def ContractPatch.apply (patch : ContractPatch) (row : ContractRow) : ContractRow :=
  { patch.toLockColumns, row with status := patch.status }

/-- `ContractDto`: the row with its ciphertexts decrypted. -/
structure ContractDto where
  row : ContractRow
  contractAccountSeed : Option String
  tenantPii : String
  landlordPii : String

/-- `toDto`; `decrypt` is `EncryptionService.decrypt`. -/
def ContractRow.toDto (decrypt : String → Except String String) (c : ContractRow) :
    Except String ContractDto := do
  let tenantPii ← decrypt c.tenantPiiCipher
  let landlordPii ← decrypt c.landlordPiiCipher
  let contractAccountSeed ← match truthy c.contractAccountSeedCipher with
    | some cipher => some <$> decrypt cipher
    | none => pure none
  return ⟨c, contractAccountSeed, tenantPii, landlordPii⟩

/-! ## Amounts -/

/-- `Amount`: drops, or an issued currency. -/
inductive Amount
  | drops (value : String)
  | issued (issuer currency value : String)
  deriving DecidableEq, Repr

/-- `c.toUpperCase()` of one character. Besides the ASCII letters these are the characters
    whose upper case is ASCII; every other character stays outside ASCII. -/
def upperCase (c : Char) : List Char :=
  match c.toNat with
  | 0xDF => ['S', 'S']
  | 0x131 => ['I']
  | 0x17F => ['S']
  | 0xFB00 => ['F', 'F']
  | 0xFB01 => ['F', 'I']
  | 0xFB02 => ['F', 'L']
  | 0xFB03 => ['F', 'F', 'I']
  | 0xFB04 => ['F', 'F', 'L']
  | 0xFB05 => ['S', 'T']
  | 0xFB06 => ['S', 'T']
  | _ => [c.toUpper]

/-- `[A-Z0-9]`. -/
def isCodeChar (c : Char) : Bool := ('A' ≤ c && c ≤ 'Z') || ('0' ≤ c && c ≤ '9')

/-- `[0-9A-F]`. -/
def isHexChar (c : Char) : Bool := ('0' ≤ c && c ≤ '9') || ('A' ≤ c && c ≤ 'F')

/-- `normalizeIouCurrencyCode`. -/
def normalizeIouCurrencyCode (raw : String) : Except String String :=
  let c := (trim raw).toList.flatMap upperCase
  if (c.length = 3 ∧ c.all isCodeChar) ∨ (c.length = 40 ∧ c.all isHexChar) then
    .ok (String.ofList c)
  else .error ("Invalid IOU currency code (use 3-letter code or 40-char hex): " ++ raw)

/-- `buildIouAmount`. -/
def buildIouAmount (issuer currency value : String) : Except String Amount := do
  let code ← normalizeIouCurrencyCode currency
  return .issued (trim issuer) code (trim value)

/-- `escrowAmounts`: the amounts of the deposit and of the stake. -/
def escrowAmounts (input : LockTenantDepositInput) : Except String (Amount × Amount) :=
  match input.assetMode.getD .xrp with
  | .xrp => .ok (.drops input.depositAmount, .drops input.stakeAmount)
  | .iou =>
    match truthy input.iouIssuer, truthy input.iouCurrency with
    | some issuer, some currency => do
      let cur ← normalizeIouCurrencyCode currency
      let deposit ← buildIouAmount issuer cur input.depositAmount
      let stake ← buildIouAmount issuer cur input.stakeAmount
      return (deposit, stake)
    | _, _ => .error "IOU escrow requires iouIssuer and iouCurrency"

/-! ## Transactions -/

/-- `SignerSpec`. -/
structure SignerSpec where
  account : String
  weight : Int
  walletLocator : Option String := none
  deriving DecidableEq, Repr

/-- The transactions of the lock. The times are in seconds of the ledger. -/
inductive Tx
  | escrowCreate (account destination : String) (amount : Amount)
      (finishAfter cancelAfter : Option Int) (condition : Option String)
      (destinationTag : Option Nat)
  | signerListSet (account : String) (quorum : Int) (entries : List SignerSpec)
  deriving DecidableEq, Repr

/-- The transaction creates an escrow. -/
def Tx.isEscrowCreate : Tx → Bool
  | .escrowCreate _ _ _ _ _ _ _ => true
  | .signerListSet _ _ _ => false

/-- `TxResponse`. `transactionResult` is `none` when `meta` is missing or a string. `txJson` is
    the `tx_json` of newer servers, given by its `Sequence`; older servers have the `Sequence`
    beside the other fields. A number that is missing is `none`. -/
structure TxResponse where
  hash : String
  transactionResult : Option String
  txJson : Option (Option Nat)
  sequence : Option Nat
  ledgerIndex : Option Nat
  validated : Option Bool
  deriving DecidableEq, Repr

/-- `txJson?.Sequence ?? result.Sequence`. -/
def TxResponse.seq (response : TxResponse) : Option Nat := response.txJson.join.or response.sequence

/-- `isoTimeToRippleTime(date.toISOString())`. -/
def isoTimeToRippleTime (date : Date) : Except String Int :=
  match date.ms with
  | none => .error "Invalid time value"
  | some ms => .ok ((ms + 500) / 1000 - 946684800)

/-- `CreateEscrowParams`. -/
structure CreateEscrowParams where
  account : Wallet
  destination : String
  amount : Amount
  finishAfter : Option Date := none
  cancelAfter : Option Date := none
  condition : Option String := none
  destinationTag : Option Nat := none

/-- `cancelAfter.getTime() <= finishAfter.getTime()`; an invalid date compares as false. -/
def Date.notAfter (d d' : Date) : Bool :=
  match d.ms, d'.ms with
  | some ms, some ms' => ms ≤ ms'
  | _, _ => false

/-- `validateParams` of `EscrowService`. -/
def CreateEscrowParams.validate (params : CreateEscrowParams) : Except String Unit :=
  if params.finishAfter.isNone ∧ params.cancelAfter.isNone ∧ (truthy params.condition).isNone then
    .error "EscrowCreate requires at least one of: finishAfter, cancelAfter, condition"
  else match params.finishAfter, params.cancelAfter with
    | some finishAfter, some cancelAfter =>
      if cancelAfter.notAfter finishAfter then
        .error "cancelAfter must be later than finishAfter"
      else .ok ()
    | _, _ => .ok ()

/-- The transaction `createEscrow` builds. -/
def CreateEscrowParams.toTx (params : CreateEscrowParams) : Except String Tx := do
  let finishAfter ← params.finishAfter.mapM isoTimeToRippleTime
  let cancelAfter ← params.cancelAfter.mapM isoTimeToRippleTime
  return .escrowCreate params.account.classicAddress params.destination params.amount finishAfter
    cancelAfter (truthy params.condition) params.destinationTag

/-- `EscrowCreatedResult`. -/
structure EscrowCreatedResult where
  txHash : String
  escrowSequence : Nat
  ledgerIndex : Nat
  validated : Bool
  deriving DecidableEq, Repr

/-- `assertCreateSuccess`. -/
def assertCreateSuccess (response : TxResponse) : Except String EscrowCreatedResult :=
  match response.transactionResult with
  | none => .error "EscrowCreate not validated: meta missing or string"
  | some result =>
    if result ≠ "tesSUCCESS" then .error ("EscrowCreate failed: " ++ result)
    else match response.seq, response.ledgerIndex with
      | none, _ => .error "EscrowCreate response missing Sequence"
      | some _, none => .error "EscrowCreate response missing ledger_index"
      | some seq, some ledger => .ok ⟨response.hash, seq, ledger, response.validated.getD false⟩

/-- `SetSignerListParams`. -/
structure SetSignerListParams where
  account : Wallet
  signers : List SignerSpec
  quorum : Int

/-- The loop of `validateParams`: the total weight, given the accounts seen before. -/
def checkSigners (owner : String) : List SignerSpec → List String → Int → Except String Int
  | [], _, total => .ok total
  | s :: rest, seen, total =>
    if s.weight < 1 ∨ s.weight > 65535 then
      .error ("signer weight out of range: " ++ toString s.weight ++ " (must be 1-65535)")
    else if s.account = owner then .error "owner account cannot be in its own SignerList"
    else if seen.contains s.account then .error ("duplicate signer account: " ++ s.account)
    else checkSigners owner rest (s.account :: seen) (total + s.weight)

/-- `validateParams` of `SignerListService`. -/
def SetSignerListParams.validate (params : SetSignerListParams) : Except String Unit :=
  if params.signers.length = 0 then .error "SignerListSet requires at least one signer"
  else if params.signers.length > 32 then
    .error ("SignerListSet supports up to 32 signers (got " ++ toString params.signers.length ++
      ")")
  else if params.quorum ≤ 0 then .error "quorum must be greater than 0"
  else do
    let totalWeight ← checkSigners params.account.classicAddress params.signers [] 0
    if params.quorum > totalWeight then
      .error ("quorum (" ++ toString params.quorum ++ ") exceeds sum of signer weights (" ++
        toString totalWeight ++ ")")
    else .ok ()

/-- `SignerListSetResult`. -/
structure SignerListSetResult where
  txHash : String
  ledgerIndex : Nat
  validated : Bool
  deriving DecidableEq, Repr

/-- `assertSuccess` of `SignerListService`. -/
def assertSignerListSuccess (response : TxResponse) : Except String SignerListSetResult :=
  match response.transactionResult with
  | none => .error "SignerListSet not validated: meta missing or string"
  | some result =>
    if result ≠ "tesSUCCESS" then .error ("SignerListSet failed: " ++ result)
    else match response.ledgerIndex with
      | none => .error "SignerListSet response missing ledger_index"
      | some ledger => .ok ⟨response.hash, ledger, response.validated.getD false⟩

end Bluesafe.Lock
