import Bluesafe.ForStd.Base64
import Bluesafe.ForStd.Text
import Bluesafe.Ops.Utils

/-!
# Data model of the dispute service

The records of `packages/xrpl-core/src/dispute/DisputeService.ts`, and the pure builders
of the transactions a judgment consists of: `EscrowService.buildFinish`, `buildCancel`,
`PaymentService.buildPayment` and `NFTService.buildDisputeNFT`. A builder that throws
returns its error.

A wallet is its classic address: nothing else of it is read outside `wallet.sign`.
-/

namespace Bluesafe.Judge

open Bluesafe.Ops (truthy isTrimmed)

/-! ## Disputes -/

/-- `DisputeRuling`. -/
inductive DisputeRuling
  | tenantWins
  | landlordWins
  | systemFault
  deriving DecidableEq, Repr

def DisputeRuling.text : DisputeRuling → String
  | tenantWins => "TENANT_WINS"
  | landlordWins => "LANDLORD_WINS"
  | systemFault => "SYSTEM_FAULT"

structure LeaseParties where
  tenant : String
  landlord : String
  bluesafe : String
  deriving DecidableEq, Repr

structure DepositEscrow where
  owner : String
  sequence : Nat
  fulfillment : Option String := none
  deriving DecidableEq, Repr

structure StakeEscrow where
  owner : String
  sequence : Nat
  deriving DecidableEq, Repr

structure DisputeMeta where
  leaseId : String
  parties : LeaseParties
  depositEscrow : DepositEscrow
  stakeEscrow : StakeEscrow
  stakeAmountDrops : Option String
  evidenceUris : List String
  deriving DecidableEq, Repr

/-- `DisputeSubmission`. The votes are in the order in which they were cast; `disputeMeta`
    is its field `meta`. -/
structure DisputeSubmission where
  disputeId : String
  claimant : String
  evidenceHashHex : String
  openedAtUnix : Nat
  votingDeadlineUnix : Nat
  panel : List String
  votes : List (String × DisputeRuling)
  withdrawn : Bool
  ruling : Option DisputeRuling
  executedTxs : Option (List String)
  disputeMeta : DisputeMeta
  deriving DecidableEq, Repr

structure VerifierEntry where
  address : String
  active : Bool
  region : Option String
  brokerages : Option (List String)
  casesHandled : Nat
  votesWithMajority : Nat
  deriving DecidableEq, Repr

structure PanelSelectionParams where
  panelSize : Option Nat := none
  excludeAddresses : Option (List String) := none
  excludeRegion : Option String := none
  excludeBrokerages : Option (List String) := none

/-! ## Votes -/

/-- The result of `countVotes`. -/
structure Tally where
  tenant : Nat
  landlord : Nat
  system : Nat
  deriving DecidableEq, Repr

/-- `countVotes`. -/
def countVotes (d : DisputeSubmission) : Tally where
  tenant := d.votes.countP fun v => v.2 = .tenantWins
  landlord := d.votes.countP fun v => v.2 = .landlordWins
  system := d.votes.countP fun v => v.2 = .systemFault

/-- `computeRuling`, at the time `nowUnix`. -/
def computeRuling (d : DisputeSubmission) (nowUnix : Nat) : Except String DisputeRuling :=
  let tally := countVotes d
  let majority := d.panel.length / 2 + 1
  if tally.tenant ≥ majority then .ok .tenantWins
  else if tally.landlord ≥ majority then .ok .landlordWins
  else if tally.system ≥ majority then .ok .systemFault
  else if nowUnix < d.votingDeadlineUnix then .error "no majority yet and voting still open"
  else if tally.tenant > tally.landlord ∧ tally.tenant > tally.system then .ok .tenantWins
  else if tally.landlord > tally.tenant ∧ tally.landlord > tally.system then .ok .landlordWins
  else .ok .systemFault

/-! ## Transactions -/

/-- A memo: its type, format and data in hexadecimal. -/
structure Memo where
  memoType : String
  memoFormat : String
  memoData : String
  deriving DecidableEq, Repr

/-- The transactions of a judgment. `release` is the pair of `Fulfillment` and
    `Condition`. -/
inductive Tx
  | escrowFinish (account owner : String) (offerSequence : Nat)
      (release : Option (String × String))
  | escrowCancel (account owner : String) (offerSequence : Nat)
  | payment (account destination amount : String)
  | nftokenMint (account : String) (taxon : Nat) (uri : String) (flags : Nat)
      (memos : List Memo)
  deriving DecidableEq, Repr

/-- The transaction releases an escrow. -/
def Tx.isEscrow : Tx → Bool
  | .escrowFinish _ _ _ _ => true
  | .escrowCancel _ _ _ => true
  | _ => false

/-- `TxResponse`: the hash, and `meta.TransactionResult` when `meta` is an object. -/
structure TxResponse where
  hash : Option String
  transactionResult : Option String
  deriving DecidableEq, Repr

/-- The ledger applied the transaction. -/
def TxResponse.succeeded (r : TxResponse) : Bool :=
  r.transactionResult = some "tesSUCCESS"

/-! ## Conditions -/

/-- The value of a hexadecimal digit. -/
def hexDigitValue (c : Char) : Option Nat :=
  if '0' ≤ c ∧ c ≤ '9' then some (c.toNat - 48)
  else if 'a' ≤ c ∧ c ≤ 'f' then some (c.toNat - 87)
  else if 'A' ≤ c ∧ c ≤ 'F' then some (c.toNat - 55)
  else none

/-- The bytes of pairs of hexadecimal digits, up to the first pair that is not one. -/
def bytesOfDigits : List Char → List UInt8
  | a :: b :: rest =>
    match hexDigitValue a, hexDigitValue b with
    | some hi, some lo => UInt8.ofNat (16 * hi + lo) :: bytesOfDigits rest
    | _, _ => []
  | _ => []

/-- `Buffer.from(s, 'hex')`. Of every UTF-16 code unit only the low byte is looked at, so `Ł`
    (U+0141) is read as `A`. -/
def bytesOfHex (cs : List Char) : List UInt8 :=
  bytesOfDigits ((cs.flatMap Base64.lowBytes).map Char.ofNat)

/-- `bytesToHex`, in upper case. -/
def bytesToHex (bytes : List UInt8) : String :=
  String.ofList (bytes.flatMap Text.hexByte)

/-- The `condition` of `buildPreimageCondition`; `sha256` is the digest. -/
def buildPreimageCondition (sha256 : List UInt8 → List UInt8) (preimage : List UInt8) :
    Except String String :=
  if preimage.length = 0 ∨ preimage.length > 127 then .error "preimage must be 1..127 bytes"
  else .ok (bytesToHex ([0xa0, 0x25, 0x80, 0x20] ++ sha256 preimage ++
    [0x81, 0x01, UInt8.ofNat preimage.length]))

/-- `restoreConditionFromFulfillment`. Without a length byte the preimage is empty. -/
def restoreConditionFromFulfillment (sha256 : List UInt8 → List UInt8) (fulfillmentHex : String) :
    Except String String :=
  let fulfillment := bytesOfHex fulfillmentHex.toList
  if fulfillment[0]? ≠ some 0xa0 ∨ fulfillment[2]? ≠ some 0x80 then
    .error "not a PREIMAGE-SHA-256 fulfillment"
  else
    let preimageLen := (fulfillment[3]?.map UInt8.toNat).getD 0
    buildPreimageCondition sha256 ((fulfillment.drop 4).take preimageLen)

/-! ## Builders -/

/-- `EscrowService.buildFinish`. -/
def buildFinish (sha256 : List UInt8 → List UInt8) (account owner : String) (offerSequence : Nat)
    (fulfillment : Option String) : Except String Tx :=
  match truthy fulfillment with
  | none => .ok (.escrowFinish account owner offerSequence none)
  | some f => do
    let condition ← restoreConditionFromFulfillment sha256 f
    return .escrowFinish account owner offerSequence (some (f, condition))

/-- `EscrowService.buildCancel`. -/
def buildCancel (account owner : String) (offerSequence : Nat) : Tx :=
  .escrowCancel account owner offerSequence

/-- `PaymentService.buildPayment`. -/
def buildPayment (fromAccount toAccount amount : String) : Tx :=
  .payment fromAccount toAccount amount

/-- `uriToHex`. -/
def uriToHex (uri : String) : Except String String :=
  if uri.toList.length = 0 then .error "URI must be non-empty"
  else
    let hex := Text.hexOf uri.toList
    if hex.toList.length > 512 then
      .error "URI exceeds 256-byte XRPL limit after hex encoding"
    else .ok hex

/-- `NFT_TAXON.DISPUTE`. -/
def disputeTaxon : Nat := 3

/-- The memo payload of the judgment NFT, `JSON.stringify` of its five fields. -/
def disputeMemoJson (disputeId : String) (ruling : DisputeRuling) (votes : Tally)
    (panelAnonymizedHashes evidenceUris : List String) : List Char :=
  Text.object [("disputeId", Text.quote disputeId),
    ("ruling", Text.quote ruling.text),
    ("votes", Text.object [("tenant", (toString votes.tenant).toList),
      ("landlord", (toString votes.landlord).toList),
      ("system", (toString votes.system).toList)]),
    ("panel", Text.array (panelAnonymizedHashes.map Text.quote)),
    ("evidence", Text.array (evidenceUris.map Text.quote))]

/-- `NFTService.buildDisputeNFT`. -/
def buildDisputeNFT (issuer disputeId : String) (ruling : DisputeRuling) (votes : Tally)
    (panelAnonymizedHashes evidenceUris : List String) (uri : String) : Except String Tx := do
  let json := disputeMemoJson disputeId ruling votes panelAnonymizedHashes evidenceUris
  let uriHex ← uriToHex uri
  return .nftokenMint issuer disputeTaxon uriHex 0
    [⟨Text.hexOf "BLUESAFE_DISPUTE".toList, Text.hexOf "application/json".toList,
      Text.hexOf json⟩]

/-! ## Slashing -/

/-- The value of a text of digits in the given base. -/
def digitsValue (base : Nat) (cs : List Char) : Option Nat :=
  if cs = [] then none
  else cs.foldlM (fun n c => do
    let d ← hexDigitValue c
    if d < base then some (base * n + d) else none) 0

/-- `BigInt(s)`: white space around it is ignored, the empty text is zero, a sign stands
    before decimal digits only; `none` for the texts on which it throws. -/
def bigInt (s : String) : Option Int :=
  match ((s.toList.dropWhile isTrimmed).reverse.dropWhile isTrimmed).reverse with
  | [] => some 0
  | '0' :: 'x' :: cs => (digitsValue 16 cs).map Int.ofNat
  | '0' :: 'X' :: cs => (digitsValue 16 cs).map Int.ofNat
  | '0' :: 'o' :: cs => (digitsValue 8 cs).map Int.ofNat
  | '0' :: 'O' :: cs => (digitsValue 8 cs).map Int.ofNat
  | '0' :: 'b' :: cs => (digitsValue 2 cs).map Int.ofNat
  | '0' :: 'B' :: cs => (digitsValue 2 cs).map Int.ofNat
  | '-' :: cs => (digitsValue 10 cs).map fun n => -Int.ofNat n
  | '+' :: cs => (digitsValue 10 cs).map Int.ofNat
  | cs => (digitsValue 10 cs).map Int.ofNat

/-- `SLASH_TENANT_BPS` and `BPS_DENOM`. -/
def slashTenantBps : Int := 7000
def bpsDenom : Int := 10000

/-- The share of the tenant; the division of `BigInt` truncates. -/
def slashToTenant (total : Int) : Int :=
  (total * slashTenantBps).tdiv bpsDenom

/-- The share of the insurance pool. -/
def slashToInsurance (total : Int) : Int :=
  total - slashToTenant total

/-- Both shares of a stake are non-negative exactly when the stake is. -/
theorem slash_nonneg {total : Int} :
    0 ≤ slashToTenant total ∧ 0 ≤ slashToInsurance total ↔ 0 ≤ total := by
  unfold slashToInsurance slashToTenant slashTenantBps bpsDenom
  constructor
  · intro h
    omega
  · intro h
    rw [Int.tdiv_eq_ediv_of_nonneg (by omega)]
    omega

end Bluesafe.Judge
