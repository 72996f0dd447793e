import Bluesafe.Lock.Types
import Bluesafe.ForStd.Table
import Bluesafe.Async.Exec

/-!
# Locking a deposit

`ContractsService.lockTenantDeposit` inserts the row of the contract, submits the two
`EscrowCreate` transactions and the `SignerListSet` of the contract account, and writes
what it knows about them into the row. Any of these calls may be rejected, and a rejected
call may have taken effect all the same.
-/

namespace Bluesafe.Lock

open Bluesafe.Settle (ContractStatus)

/-! ## Calls -/

/-- The awaited calls, and the random bytes of an encryption. -/
inductive Call
  | randomBytes
  | saveContract (draft : ContractDraft)
  | updateContract (id : String) (patch : ContractPatch)
  | findContract (id : String)
  | submitAndWait (tx : Tx)

/-- The answer type of each call. -/
@[reducible] def Call.Res : Call → Type
  | .randomBytes => String
  | .saveContract _ => ContractRow
  | .updateContract _ _ => Unit
  | .findContract _ => Option ContractRow
  | .submitAndWait _ => TxResponse

/-- The interface of the service's programs. -/
@[reducible] def calls : Interface := ⟨Call, Call.Res⟩

/-- An `async` function of the service; a rejection carries the error message. -/
abbrev LockM (α : Type) : Type := Async calls String α

/-- Await one call. -/
abbrev invoke (op : Call) : LockM op.Res := Async.call (I := calls) op

/-- A transaction on the ledger, with its hash and the sequence number it used. -/
structure LedgerTx where
  tx : Tx
  hash : String
  sequence : Nat
  deriving DecidableEq, Repr

/-- The contract rows, and the transactions the ledger has applied, newest first. -/
structure Store where
  contracts : Table ContractRow.id
  ledger : List LedgerTx

/-- What the environment decides at a call. The ledger reports the hash of a transaction,
    and its sequence number if it reports one, in either form of a response. -/
structure Choice where
  failure : Option String := none
  /-- Whether a call without a conclusive answer took effect. -/
  applied : Bool := false
  id : String := ""
  iv : String := ""
  hash : String := ""
  sequence : Nat := 0
  transactionResult : Option String := none
  reportsSequence : Bool := true
  flat : Bool := false
  ledgerIndex : Option Nat := some 0
  validated : Option Bool := some true

/-- The sequence number that is reported. -/
def Choice.reported (c : Choice) : Option Nat := if c.reportsSequence then some c.sequence else none

/-- The answer of the ledger. -/
def Choice.response (c : Choice) : TxResponse where
  hash := c.hash
  transactionResult := c.transactionResult
  txJson := if c.flat then none else some c.reported
  sequence := if c.flat then c.reported else none
  ledgerIndex := c.ledgerIndex
  validated := c.validated

/-- Whether the ledger applies the transaction of a submission. -/
def Choice.accepted (c : Choice) : Bool :=
  match c.failure, c.transactionResult with
  | none, some result => result = "tesSUCCESS"
  | _, _ => c.applied

/-- The contracts after `repo.update(id, patch)`. -/
def updateRow (contracts : Table ContractRow.id) (id : String) (patch : ContractPatch) :
    Table ContractRow.id :=
  match contracts.get? id with
  | none => contracts
  | some row => contracts.set (patch.apply row)

/-- The answer and the effect of a call that is not rejected. -/
def perform : (op : Call) → Choice → Store → op.Res × Store
  | .randomBytes, c, s => (c.iv, s)
  | .saveContract draft, c, s =>
    (draft.toRow c.id, { s with contracts := s.contracts.set (draft.toRow c.id) })
  | .updateContract id patch, _, s =>
    ((), { s with contracts := updateRow s.contracts id patch })
  | .findContract id, _, s => (s.contracts.get? id, s)
  | .submitAndWait tx, c, s =>
    (c.response, if c.accepted then { s with ledger := ⟨tx, c.hash, c.sequence⟩ :: s.ledger } else s)

/-- The reason for which a call cannot be answered: the generated identifier of an inserted
    row must be new. -/
def Choice.rejection (c : Choice) (s : Store) : Call → Option String
  | .randomBytes => none
  | .saveContract _ =>
    if (s.contracts.get? c.id).isSome then
      some "duplicate key value violates unique constraint"
    else c.failure
  | _ => c.failure

/-- Whether a rejected call takes effect. -/
def Choice.takesEffect (c : Choice) (s : Store) : Call → Bool
  | .saveContract _ => c.applied && (s.contracts.get? c.id).isNone
  | _ => c.applied

/-- The answer to a call, rejected or not. -/
def serve (op : Call) (c : Choice) (s : Store) : Except String op.Res × Store :=
  match c.rejection s op with
  | none => (.ok (perform op c s).1, (perform op c s).2)
  | some e => (.error e, if c.takesEffect s op then (perform op c s).2 else s)

/-- The database and the ledger. -/
def world : World calls String Store Choice where
  allow := fun _ _ _ => true
  serve := serve

/-! ## The service -/

/-- Continue with the value of a synchronous function, or throw its error. -/
def orThrow {α : Type} : Except String α → LockM α
  | .ok a => pure a
  | .error e => throw e

/-- `EncryptionService`. Encryption takes its initialisation vector as an argument; without
    a key both functions throw. -/
structure Encryption where
  encrypt : String → String → Except String String
  decrypt : String → Except String String

/-- `this.encryption.encrypt(plaintext)`. -/
def encryptFresh (encryption : Encryption) (plaintext : String) : LockM String := do
  let iv ← invoke .randomBytes
  orThrow (encryption.encrypt iv plaintext)

/-- The currency `create` stores. -/
def storedCurrency (input : CreateContractInput) : Except String (Option String) :=
  match input.assetMode.getD .xrp, Bluesafe.Ops.truthy input.iouCurrency with
  | .iou, some currency => some <$> normalizeIouCurrencyCode currency
  | _, _ => .ok none

/-- `create`. -/
def create (encryption : Encryption) (input : CreateContractInput) : LockM ContractDto := do
  let assetMode := input.assetMode.getD .xrp
  let tenantPiiCipher ← encryptFresh encryption input.tenantPii
  let landlordPiiCipher ← encryptFresh encryption input.landlordPii
  let iouCurrency ← orThrow (storedCurrency input)
  let saved ← invoke (.saveContract {
    tenantAddress := input.tenantAddress
    landlordAddress := input.landlordAddress
    depositAmount := input.depositAmount
    stakeAmount := input.stakeAmount
    startsAt := input.startsAt
    endsAt := input.endsAt
    finishAfter := input.finishAfter
    cancelAfter := input.cancelAfter
    tenantPiiCipher := tenantPiiCipher
    landlordPiiCipher := landlordPiiCipher
    tenantEmail := input.tenantEmail
    status := .pending
    assetMode := assetMode
    iouIssuer := if assetMode = .iou then input.iouIssuer else none
    iouCurrency := iouCurrency })
  orThrow (saved.toDto encryption.decrypt)

/-- `findById`. -/
def findById (encryption : Encryption) (id : String) : LockM (Option ContractDto) := do
  match ← invoke (.findContract id) with
  | none => return none
  | some found => some <$> orThrow (found.toDto encryption.decrypt)

/-- `EscrowService.createEscrow`. A client that is not connected rejects as the submission
    does. -/
def createEscrow (params : CreateEscrowParams) : LockM EscrowCreatedResult := do
  orThrow params.validate
  let tx ← orThrow params.toTx
  let response ← invoke (.submitAndWait tx)
  orThrow (assertCreateSuccess response)

/-- `SignerListService.setSignerList`. -/
def setSignerList (params : SetSignerListParams) : LockM SignerListSetResult := do
  orThrow params.validate
  let response ← invoke (.submitAndWait
    (.signerListSet params.account.classicAddress params.quorum params.signers))
  orThrow (assertSignerListSuccess response)

/-- The escrow of the deposit or of the stake. -/
def escrowParams (input : LockTenantDepositInput) (destination : String) (amount : Amount) :
    CreateEscrowParams where
  account := input.contractWallet
  destination := destination
  amount := amount
  finishAfter := some input.finishAfter
  cancelAfter := some input.cancelAfter

/-- The signer list of the contract account. -/
def signerListParams (input : LockTenantDepositInput) : SetSignerListParams where
  account := input.contractWallet
  signers := [{ account := input.tenantAddress, weight := 1 },
    { account := input.landlordAddress, weight := 1 },
    { account := input.operatorAddress, weight := 1 }]
  quorum := 2

/-- The columns `lockTenantDeposit` writes at its end. -/
def lockPatch (input : LockTenantDepositInput) (seedCipher : String)
    (deposit stake : EscrowCreatedResult) (signerList : SignerListSetResult) : ContractPatch where
  contractAccountAddress := some input.contractWallet.classicAddress
  contractAccountSeedCipher := some seedCipher
  depositEscrowSequence := some deposit.escrowSequence
  depositEscrowTxHash := some deposit.txHash
  stakeEscrowSequence := some stake.escrowSequence
  stakeEscrowTxHash := some stake.txHash
  signerListTxHash := some signerList.txHash
  status := .locked

/-- The last steps of `lockTenantDeposit`: the row is updated and read back. -/
def storeLock (encryption : Encryption) (input : LockTenantDepositInput) (id : String)
    (deposit stake : EscrowCreatedResult) (signerList : SignerListSetResult) :
    LockM ContractDto := do
  match Bluesafe.Ops.truthy input.contractWallet.seed with
  | none => throw "contractWallet must have a seed for persistence"
  | some seed =>
    let cipher ← encryptFresh encryption seed
    invoke (.updateContract id (lockPatch input cipher deposit stake signerList))
    match ← findById encryption id with
    | none => throw ("Contract " ++ id ++ " disappeared after lock update")
    | some updated => return updated

/-- `lockTenantDeposit`. -/
def lockTenantDeposit (encryption : Encryption) (input : LockTenantDepositInput) :
    LockM ContractDto := do
  let (depositAmount, stakeAmount) ← orThrow (escrowAmounts input)
  let contract ← create encryption input.toCreateContractInput
  let deposit ← createEscrow (escrowParams input input.tenantAddress depositAmount)
  let stake ← createEscrow (escrowParams input input.landlordAddress stakeAmount)
  let signerList ← setSignerList (signerListParams input)
  storeLock encryption input contract.row.id deposit stake signerList

end Bluesafe.Lock
