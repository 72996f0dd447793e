import Bluesafe.Lock.Controller
import Mathlib.Data.List.Infix

/-!
# Data model of the internal wallets

The wallet application of `services/be1-xrpl` (`wallet-app.module.ts`): the process keeps one
wallet for each role (`wallet/wallet.service.ts`) and submits transactions to the ledger for
them. Here are its settings, its requests and replies, the exceptions of the framework, and the
calls that its functions make.
-/

namespace Bluesafe.Wallets

open Bluesafe.Ops (truthy trim)
open Bluesafe.Lock (Amount AccountLine TxResponse)

/-! ## Settings and values -/

/-- `WalletRole`. -/
inductive WalletRole
  | tenant
  | landlord
  deriving DecidableEq, Repr

def WalletRole.text : WalletRole → String
  | tenant => "tenant"
  | landlord => "landlord"

/-- A wallet of the library: the address, the key and the seed. -/
structure Wallet extends Lock.Wallet where
  publicKey : String
  deriving DecidableEq, Repr

/-- The settings that the wallet services read. -/
structure Config where
  xrplOperatorSeed : Option String := none
  xrplIouIssuerSeed : Option String := none
  xrplIouIssuer : Option String := none
  xrplIouCurrency : Option String := none
  xrplWalletIouFundAmount : Option String := none
  xrplNetworkUrl : Option String := none
  xrplExplorerUrl : Option String := none

/-- The exceptions: `BadRequestException`, `ForbiddenException` and any other error. -/
inductive Exception
  | badRequest (message : String)
  | forbidden (message : String)
  | error (message : String)
  deriving DecidableEq, Repr

/-- The numbers of the language, as far as the amounts need them. -/
structure Numbers where
  Number : Type
  parseFloat : String → Number
  isFinite : Number → Bool
  sub : Number → Number → Number
  /-- `x < y`. -/
  lt : Number → Number → Bool
  /-- `x <= y`. -/
  le : Number → Number → Bool
  zero : Number
  /-- `x.toFixed(10)`. -/
  toFixed : Number → String
  /-- `String(x)`. -/
  text : Number → String

/-- What the services use of libraries: `Wallet.fromSeed` and numbers. -/
structure Libraries where
  fromSeed : String → Option Wallet
  numbers : Numbers

/-- `s.includes(sub)`. -/
def includes (s sub : String) : Bool := decide (sub.toList <:+: s.toList)

/-- `s.toLowerCase()`, for a search of ASCII letters. -/
def toLowerCase (s : String) : String := String.ofList (s.toList.map Char.toLower)

/-- `s.replace(/\/$/, '')`. -/
def dropSlash (s : String) : String :=
  if s.toList.getLast? = some '/' then String.ofList s.toList.dropLast else s

/-- The value of a digit below the radix. -/
def digitOf? (radix : Nat) (c : Char) : Option Nat :=
  let value? :=
    if '0' ≤ c ∧ c ≤ '9' then some (c.toNat - '0'.toNat)
    else if 'a' ≤ c ∧ c ≤ 'f' then some (c.toNat - 'a'.toNat + 10)
    else if 'A' ≤ c ∧ c ≤ 'F' then some (c.toNat - 'A'.toNat + 10)
    else none
  value?.filter (· < radix)

/-- A number without sign; there is at least one digit. -/
def digits? (radix : Nat) : List Char → Option Nat
  | [] => none
  | cs => cs.foldlM (fun n c => (digitOf? radix c).map (radix * n + ·)) 0

/-- `BigInt(s)`; `none` is the exception. -/
def bigInt (s : String) : Option Int :=
  match (trim s).toList with
  | [] => some 0
  | '0' :: 'x' :: cs => (digits? 16 cs).map Int.ofNat
  | '0' :: 'X' :: cs => (digits? 16 cs).map Int.ofNat
  | '0' :: 'o' :: cs => (digits? 8 cs).map Int.ofNat
  | '0' :: 'O' :: cs => (digits? 8 cs).map Int.ofNat
  | '0' :: 'b' :: cs => (digits? 2 cs).map Int.ofNat
  | '0' :: 'B' :: cs => (digits? 2 cs).map Int.ofNat
  | '-' :: cs => (digits? 10 cs).map fun n => -(n : Int)
  | '+' :: cs => (digits? 10 cs).map Int.ofNat
  | cs => (digits? 10 cs).map Int.ofNat

/-! ## Requests and replies -/

/-- `FundIouWalletDto`. -/
structure FundIouWalletDto where
  role : Option WalletRole := none
  issuer : Option String := none
  currency : Option String := none
  amount : Option String := none

/-- The routes of `WalletController`. -/
inductive Request
  | connect (role : Option WalletRole) (approve : Option Bool)
  | disconnect (role : Option WalletRole)
  | fundIou (dto : FundIouWalletDto)
  | peerXrpRoundtrip (amountDrops : Option String)

/-- `WalletNetwork`. -/
structure WalletNetwork where
  id : String
  label : String
  rpcEndpoint : String
  deriving DecidableEq, Repr

/-- The result of `fundInternalWallet`. -/
structure FundReply where
  message : String
  role : WalletRole
  address : String
  issuer : String
  currency : String
  amount : String
  trustSetTxHash : String
  paymentTxHash : String
  explorerPaymentUrl : String
  network : String
  deriving DecidableEq, Repr

/-- The result of `roundtrip`. -/
structure RoundtripReply where
  tenantAddress : String
  landlordAddress : String
  amountDrops : String
  tenantToLandlordTxHash : String
  landlordToTenantTxHash : String
  explorerBase : String
  tenantToLandlord : String
  landlordToTenant : String
  tenantAccount : String
  landlordAccount : String
  deriving DecidableEq, Repr

/-- The bodies of the replies. -/
inductive Reply
  | declined (message : String)
  | connected (message : String) (role : WalletRole) (address publicKey : String)
      (network : WalletNetwork)
  | disconnected (message : String) (role : WalletRole)
  | funded (reply : FundReply)
  | roundtrip (reply : RoundtripReply)
  deriving DecidableEq, Repr

/-! ## Calls -/

/-- The transactions of the wallet services. -/
inductive Tx
  | trustSet (account : String) (limitAmount : Amount)
  | payment (account destination : String) (amount : Amount) (sendMax : Option String)
  deriving DecidableEq, Repr

/-- `source_amount` of a path: drops, or an object for an issued currency. -/
inductive SourceAmount
  | drops (text : String)
  | issued
  deriving DecidableEq, Repr

/-- The calls to the client of the ledger, and the functions of `WalletService`, which run
    without an `await` and keep their state in the process. -/
inductive Call
  | getWalletForRole (role : WalletRole)
  | connect (role : WalletRole) (approve : Bool)
  | disconnect (role : WalletRole)
  | getClient
  | accountInfo (account : String)
  | fundWallet (address : String)
  | accountLines (account peer : String)
  | pathFindCreate (source destination : String) (amount : Amount)
  | pathFindClose
  | submitAndWait (tx : Tx) (wallet : Wallet)

/-- The answer type of each call. `connect` answers the wallet and whether it was connected
    before, `accountInfo` the balance in drops, `pathFindCreate` the `source_amount` of the first
    alternative. -/
@[reducible] def Call.Res : Call → Type
  | .getWalletForRole _ => Wallet
  | .connect _ _ => Wallet × Bool
  | .disconnect _ => Unit
  | .getClient => Unit
  | .accountInfo _ => Nat
  | .fundWallet _ => Unit
  | .accountLines _ _ => List AccountLine
  | .pathFindCreate _ _ _ => Option SourceAmount
  | .pathFindClose => Unit
  | .submitAndWait _ _ => TxResponse

/-- The interface of the wallet services. -/
@[reducible] def calls : Interface := ⟨Call, Call.Res⟩

/-- An `async` function of the wallet services. -/
abbrev WalletM (α : Type) : Type := Async calls Exception α

/-- Await one call. -/
abbrev request (op : Call) : WalletM op.Res := Async.call (I := calls) op

/-- The calls of one request, newest first. -/
abbrev WalletLog : Type := Log calls Exception

/-- The wallets that the process keeps, and whether they are connected. -/
structure Store where
  wallets : WalletRole → Option Wallet
  connected : WalletRole → Option Bool

def Store.empty : Store := ⟨fun _ => none, fun _ => none⟩

/-- What the environment decides at a call. -/
structure Choice where
  failure : Option String := none
  /-- `Wallet.generate()`. -/
  generated : Wallet := ⟨⟨"", none⟩, ""⟩
  drops : Nat := 0
  lines : List AccountLine := []
  source : Option SourceAmount := none
  response : TxResponse := ⟨"", none, none, none, none, none⟩

/-- `getOrCreateWallet`. -/
def Store.getOrCreateWallet (s : Store) (role : WalletRole) (generated : Wallet) : Wallet × Store :=
  match s.wallets role with
  | some existing => (existing, s)
  | none =>
    (generated, { s with wallets := fun r => if r = role then some generated else s.wallets r })

/-- `this.connected.set(role, b)`. -/
def Store.setConnected (s : Store) (role : WalletRole) (b : Bool) : Store :=
  { s with connected := fun r => if r = role then some b else s.connected r }

/-- The answer and the effect of a call that is not rejected. -/
def perform : (op : Call) → Choice → Store → op.Res × Store
  | .getWalletForRole role, c, s => s.getOrCreateWallet role c.generated
  | .connect role approve, c, s =>
    let (wallet, s) := s.getOrCreateWallet role c.generated
    ((wallet, s.connected role = some true), s.setConnected role approve)
  | .disconnect role, _, s => ((), s.setConnected role false)
  | .getClient, _, s => ((), s)
  | .accountInfo _, c, s => (c.drops, s)
  | .fundWallet _, _, s => ((), s)
  | .accountLines _ _, c, s => (c.lines, s)
  | .pathFindCreate _ _ _, c, s => (c.source, s)
  | .pathFindClose, _, s => ((), s)
  | .submitAndWait _ _, c, s => (c.response, s)

/-- The calls of `WalletService`. -/
def Call.isLocal : Call → Bool
  | .getWalletForRole _ => true
  | .connect _ _ => true
  | .disconnect _ => true
  | _ => false

/-- The answer to a call, rejected or not. -/
def serve (op : Call) (c : Choice) (s : Store) : Except Exception op.Res × Store :=
  match c.failure with
  | none => (.ok (perform op c s).1, (perform op c s).2)
  | some e => (.error (.error e), s)

/-- The process and the ledger. A call to the ledger may be rejected, the functions of
    `WalletService` return; a generated wallet is new. -/
def world : World calls Exception Store Choice where
  allow := fun op c s => (c.failure.isNone || !op.isLocal) &&
    [WalletRole.tenant, .landlord].all fun r =>
      (s.wallets r).all fun w => decide (w.classicAddress ≠ c.generated.classicAddress)
  serve := serve

end Bluesafe.Wallets
