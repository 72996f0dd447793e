import Bluesafe.Async.Interp
import Bluesafe.Lock.Encryption

/-!
# Creating a contract

`POST /contracts`: `ContractsController.create` funds a new account, opens and funds a trust line
in IOU mode, and locks the deposit. The checks of the request are those of `CreateContractDto` and
of the services on the way (`contracts.controller.ts`, `iou-contract-setup.service.ts`,
`xrpl/trust-set.service.ts`, `xrpl/xrpl-client.service.ts`, `xrpl/iou-lines.util.ts`).
-/

namespace Bluesafe.Lock

open Bluesafe.Ops (truthy trim)

/-! ## The request -/

/-- `CreateContractDto`. -/
structure CreateContractDto where
  assetMode : Option AssetMode
  iouIssuer : Option String
  iouCurrency : Option String
  tenantAddress : String
  landlordAddress : String
  depositAmount : String
  stakeAmount : String
  startsAt : Date
  endsAt : Date
  finishAfter : Date
  cancelAfter : Date
  tenantPii : String
  landlordPii : String
  tenantEmail : Option String

/-- `dto.assetMode ?? 'XRP'`. -/
def CreateContractDto.mode (dto : CreateContractDto) : AssetMode := dto.assetMode.getD .xrp

/-- `/^r[a-zA-Z0-9]{24,34}$/`. -/
def isAddress (s : String) : Bool :=
  s.toList.head? = some 'r' && 25 ≤ s.toList.length && s.toList.length ≤ 35 &&
    s.toList.all Char.isAlphanum

/-- `/^[A-Za-z0-9]{3}$|^[A-Fa-f0-9]{40}$/`. -/
def isCurrency (s : String) : Bool :=
  (s.toList.length = 3 && s.toList.all Char.isAlphanum) ||
    (s.toList.length = 40 && s.toList.all fun c => isHexChar c || ('a' ≤ c && c ≤ 'f'))

/-- `/^[0-9]+$/`. -/
def isDrops (s : String) : Bool := !s.toList.isEmpty && s.toList.all Char.isDigit

/-- `/^\d+(\.\d{1,16})?$/`. -/
def isIouValue (s : String) : Bool :=
  !(s.toList.takeWhile Char.isDigit).isEmpty &&
    match s.toList.dropWhile Char.isDigit with
    | [] => true
    | c :: cs => c = '.' && !cs.isEmpty && cs.length ≤ 16 && cs.all Char.isDigit

/-- `ContractDepositStakeShapeConstraint`. -/
def CreateContractDto.depositStakeShape (dto : CreateContractDto) : Bool :=
  match dto.mode with
  | .xrp => isDrops dto.depositAmount && isDrops dto.stakeAmount
  | .iou => isIouValue dto.depositAmount && isIouValue dto.stakeAmount

/-- The validation of a request body; `isEmail` is the one of the library. -/
def CreateContractDto.accepted (isEmail : String → Bool) (dto : CreateContractDto) : Bool :=
  dto.iouIssuer.all isAddress && dto.iouCurrency.all isCurrency &&
  isAddress dto.tenantAddress && isAddress dto.landlordAddress && dto.depositStakeShape &&
  dto.depositAmount ≠ "" && dto.stakeAmount ≠ "" &&
  [dto.startsAt, dto.endsAt, dto.finishAfter, dto.cancelAfter].all (fun d => d.ms.isSome) &&
  dto.tenantPii ≠ "" && dto.landlordPii ≠ "" && dto.tenantEmail.all isEmail

/-! ## Amounts -/

/-- The numbers of the language, as far as the amounts need them. The text of an IOU value is a
    number that is as large as itself, and no number is less than itself. -/
structure Floats where
  Number : Type
  parseFloat : String → Number
  add : Number → Number → Number
  isFinite : Number → Bool
  /-- `x < y`. -/
  lt : Number → Number → Bool
  /-- `x >= y`. -/
  ge : Number → Number → Bool
  zero : Number
  /-- `x.toFixed(15)`. -/
  toFixed : Number → String
  ge_self : ∀ s, isIouValue s = true → ge (parseFloat s) (parseFloat s) = true
  lt_irrefl : ∀ x, lt x x = false

/-- `s.replace(/\.?0+$/, '')`. -/
def dropZeros (s : String) : String :=
  let front := (s.toList.reverse.dropWhile (· == '0')).reverse
  if front = s.toList then s
  else if front.getLast? = some '.' then String.ofList front.dropLast
  else String.ofList front

/-- `sumIouValueStrings`. -/
def sumIouValueStrings (floats : Floats) (a b : String) : Except String String :=
  let x := floats.add (floats.parseFloat a) (floats.parseFloat b)
  if !floats.isFinite x || floats.lt x floats.zero then .error "Invalid IOU amount sum"
  else .ok ((truthy (some (dropZeros (floats.toFixed x)))).getD "0")

/-- `iouValueGte`. -/
def iouValueGte (floats : Floats) (limit need : String) : Bool :=
  floats.ge (floats.parseFloat limit) (floats.parseFloat need)

/-! ## Calls -/

/-- A line of `account_lines`, as it is answered. -/
structure AccountLine where
  currency : Option String
  limit : Option String
  balance : Option String

/-- What `findTrustLine` returns. -/
structure TrustLine where
  limit : String
  balance : String
  currency : String

/-- The calls to the client of the ledger, and the key pair that is generated. -/
inductive LedgerCall
  | getClient
  | generateWallet
  | fundWallet (address : String)
  | accountInfo (account : String)
  | accountLines (account peer : String)
  | submitTrustSet (account : String) (limitAmount : Amount)
  | submitPayment (account destination : String) (amount : Amount)

/-- The answer type of each call; `accountInfo` answers the balance in drops. -/
@[reducible] def LedgerCall.Res : LedgerCall → Type
  | .getClient => Unit
  | .generateWallet => Wallet
  | .fundWallet _ => Unit
  | .accountInfo _ => Nat
  | .accountLines _ _ => List AccountLine
  | .submitTrustSet _ _ => TxResponse
  | .submitPayment _ _ _ => TxResponse

/-- The interface of the calls outside `lockTenantDeposit`. -/
@[reducible] def ledgerCalls : Interface := ⟨LedgerCall, LedgerCall.Res⟩

/-- An `async` function of the controller or of a service it uses. -/
abbrev CreateM (α : Type) : Type := Async (calls.sum ledgerCalls) String α

/-- Await one call to the client. -/
abbrev request (op : LedgerCall) : CreateM op.Res := Async.call (I := calls.sum ledgerCalls) (.inr op)

/-- Continue with the value of a synchronous function, or throw its error. -/
def orRaise {α : Type} : Except String α → CreateM α
  | .ok a => pure a
  | .error e => throw e

/-- The calls that submit a transaction; the faucet pays with one. -/
def Submits : (calls.sum ledgerCalls).Op → Prop
  | .inl (.submitAndWait _) => True
  | .inr (.fundWallet _) => True
  | .inr (.submitTrustSet _ _) => True
  | .inr (.submitPayment _ _ _) => True
  | _ => False

/-! ## The services -/

/-- The settings of the services. -/
structure Config where
  xrplOperatorSeed : Option String
  xrplIouIssuer : Option String
  xrplIouCurrency : Option String
  xrplIouIssuerSeed : Option String
  encryptionMasterKey : Option String

/-- What the services use of libraries: `Wallet.fromSeed`, numbers and AES-256-GCM. -/
structure Libraries where
  fromSeed : String → Option Wallet
  floats : Floats
  cipher : GcmCipher

/-- `Wallet.fromSeed(seed)`. -/
def Libraries.walletFromSeed (lib : Libraries) (seed : String) : Except String Wallet :=
  match lib.fromSeed seed with
  | some wallet => .ok wallet
  | none => .error "invalid seed"

/-- `findTrustLine`. -/
def findTrustLine (account issuer currency : String) : CreateM (Option TrustLine) := do
  let want ← orRaise (normalizeIouCurrencyCode currency)
  let lines ← request (.accountLines account issuer)
  return (lines.find? fun line =>
      decide (String.ofList ((line.currency.getD "").toList.flatMap upperCase) = want)).map
    fun line => ⟨line.limit.getD "0", line.balance.getD "0", line.currency.getD ""⟩

/-- The parameters of both functions of `IouContractSetupService`. -/
structure IouSetup where
  issuer : String
  currency : String
  depositValue : String
  stakeValue : String

/-- `assertCounterpartyTrustLines`. -/
def assertCounterpartyTrustLines (lib : Libraries) (tenantAddress landlordAddress : String)
    (params : IouSetup) : CreateM Unit := do
  request .getClient
  let cur ← orRaise (normalizeIouCurrencyCode params.currency)
  let tenantLine ← findTrustLine tenantAddress params.issuer cur
  if !(tenantLine.any fun line => iouValueGte lib.floats line.limit params.depositValue) then
    throw ("임차인(" ++ tenantAddress ++ ") 계정에 issuer " ++ params.issuer ++ " 통화 " ++ cur ++
      " trust line이 없거나 limit이 depositAmount(" ++ params.depositValue ++
      ")보다 작습니다. 지갑에서 TrustSet을 먼저 설정하세요.")
  else
    let landlordLine ← findTrustLine landlordAddress params.issuer cur
    if !(landlordLine.any fun line => iouValueGte lib.floats line.limit params.stakeValue) then
      throw ("임대인(" ++ landlordAddress ++ ") 계정에 issuer " ++ params.issuer ++ " 통화 " ++ cur ++
        " trust line이 없거나 limit이 stakeAmount(" ++ params.stakeValue ++ ")보다 작습니다.")
    else pure ()

/-- `generateAndFundWallet`. -/
def generateAndFundWallet : CreateM Wallet := do
  request .getClient
  let wallet ← request .generateWallet
  request (.fundWallet wallet.classicAddress)
  return wallet

/-- `ensureTestnetXrpForFees`. -/
def ensureTestnetXrpForFees (wallet : Wallet) : CreateM Unit := do
  request .getClient
  let funded ← tryCatch (do
      let drops ← request (.accountInfo wallet.classicAddress)
      return decide (10000000 ≤ drops))
    fun _ => return false
  if funded then pure () else request (.fundWallet wallet.classicAddress)

/-- `submitTrustSet`; its hash is not used. -/
def submitTrustSet (owner : Wallet) (limitAmount : Amount) : CreateM Unit := do
  request .getClient
  let response ← request (.submitTrustSet owner.classicAddress limitAmount)
  match response.transactionResult with
  | none => throw "TrustSet response meta missing or string"
  | some result => if result ≠ "tesSUCCESS" then throw ("TrustSet failed: " ++ result) else pure ()

/-- `TrustSetService.assertTxSuccess`. -/
def assertTxSuccess (response : TxResponse) : Except String Unit :=
  match response.transactionResult with
  | none => .error "XRPL tx meta missing"
  | some result => if result ≠ "tesSUCCESS" then .error ("XRPL tx failed: " ++ result) else .ok ()

/-- The wallet that pays the deposit and the stake: the issuer's if its seed is configured, else
    the operator's, which must have the balance. -/
def fundingWallet (lib : Libraries) (config : Config) (operatorWallet : Wallet) (params : IouSetup)
    (cur total : String) : CreateM Wallet :=
  match truthy (config.xrplIouIssuerSeed.map trim) with
  | some issuerSeed => do
    let wallet ← orRaise (lib.walletFromSeed issuerSeed)
    if wallet.classicAddress ≠ params.issuer then
      throw "XRPL_IOU_ISSUER_SEED 주소가 XRPL_IOU_ISSUER 와 일치하지 않습니다."
    else
      ensureTestnetXrpForFees wallet
      return wallet
  | none => do
    let opLine ← findTrustLine operatorWallet.classicAddress params.issuer cur
    if opLine.all fun line =>
        lib.floats.lt (lib.floats.parseFloat line.balance) (lib.floats.parseFloat total) then
      throw ("XRPL_OPERATOR_SEED 지갑의 " ++ cur ++ "(issuer " ++ params.issuer ++
        ") 잔액이 부족합니다. 필요: " ++ total ++ ", 보유: " ++
        (opLine.map TrustLine.balance).getD "0" ++ ". (발행 직접 시 XRPL_IOU_ISSUER_SEED 설정)")
    else return operatorWallet

/-- `ensureTrustLineAndFundFromOperator`. -/
def ensureTrustLineAndFundFromOperator (lib : Libraries) (config : Config)
    (contractWallet operatorWallet : Wallet) (params : IouSetup) : CreateM Unit := do
  request .getClient
  let cur ← orRaise (normalizeIouCurrencyCode params.currency)
  let total ← orRaise (sumIouValueStrings lib.floats params.depositValue params.stakeValue)
  let funding ← fundingWallet lib config operatorWallet params cur total
  let limitAmount ← orRaise (buildIouAmount params.issuer cur "1000000000")
  submitTrustSet contractWallet limitAmount
  let amount ← orRaise (buildIouAmount params.issuer cur total)
  let payRes ← request (.submitPayment funding.classicAddress contractWallet.classicAddress amount)
  orRaise (assertTxSuccess payRes)

/-! ## The controller -/

/-- The wallet of the operator. -/
def operatorWallet (lib : Libraries) (config : Config) : Except String Wallet :=
  match truthy config.xrplOperatorSeed with
  | none => .error "XRPL_OPERATOR_SEED 미설정 — 계약 생성 불가"
  | some operatorSeed => lib.walletFromSeed operatorSeed

/-- `s ||= other`. -/
def orElse (s other : String) : String := if s = "" then other else s

/-- The issuer and the currency of a request in IOU mode. -/
def iouSettings (config : Config) (dto : CreateContractDto) : Except String (String × String) := do
  let iouIssuer := orElse ((dto.iouIssuer.map trim).getD "") ((config.xrplIouIssuer.map trim).getD "")
  let iouCurrency :=
    orElse ((dto.iouCurrency.map trim).getD "") ((config.xrplIouCurrency.map trim).getD "")
  if iouIssuer = "" ∨ iouCurrency = "" then
    .error ("IOU 모드: 요청에 iouIssuer/iouCurrency를 넣거나, 환경변수 XRPL_IOU_ISSUER / " ++
      "XRPL_IOU_CURRENCY를 설정하세요.")
  else
    let iouCurrency ← normalizeIouCurrencyCode iouCurrency
    return (iouIssuer, iouCurrency)

/-- The setup of a request in IOU mode. -/
def CreateContractDto.iouSetup (dto : CreateContractDto) (settings : String × String) : IouSetup where
  issuer := settings.1
  currency := settings.2
  depositValue := dto.depositAmount
  stakeValue := dto.stakeAmount

/-- What `lockTenantDeposit` is given; issuer and currency only in IOU mode. -/
def CreateContractDto.lockInput (dto : CreateContractDto) (settings : Option (String × String))
    (contractWallet operatorWallet : Wallet) : LockTenantDepositInput where
  tenantAddress := dto.tenantAddress
  landlordAddress := dto.landlordAddress
  depositAmount := dto.depositAmount
  stakeAmount := dto.stakeAmount
  startsAt := dto.startsAt
  endsAt := dto.endsAt
  finishAfter := dto.finishAfter
  cancelAfter := dto.cancelAfter
  tenantPii := dto.tenantPii
  landlordPii := dto.landlordPii
  tenantEmail := dto.tenantEmail
  assetMode := some dto.mode
  iouIssuer := settings.map Prod.fst
  iouCurrency := settings.map Prod.snd
  contractWallet := contractWallet
  operatorAddress := operatorWallet.classicAddress

/-- `ContractResponseDto`: the row without what is encrypted. -/
structure ContractResponseDto where
  id : String
  tenantAddress : String
  landlordAddress : String
  contractAccountAddress : Option String
  assetMode : AssetMode
  iouIssuer : Option String
  iouCurrency : Option String
  depositAmount : String
  stakeAmount : String
  depositEscrowSequence : Option Nat
  depositEscrowTxHash : Option String
  stakeEscrowSequence : Option Nat
  stakeEscrowTxHash : Option String
  signerListTxHash : Option String
  status : Bluesafe.Settle.ContractStatus
  startsAt : Date
  endsAt : Date
  finishAfter : Date
  cancelAfter : Date
  tenantEmail : Option String

/-- `toContractResponse`. -/
def toContractResponse (dto : ContractDto) : ContractResponseDto where
  id := dto.row.id
  tenantAddress := dto.row.tenantAddress
  landlordAddress := dto.row.landlordAddress
  contractAccountAddress := dto.row.contractAccountAddress
  assetMode := dto.row.assetMode
  iouIssuer := dto.row.iouIssuer
  iouCurrency := dto.row.iouCurrency
  depositAmount := dto.row.depositAmount
  stakeAmount := dto.row.stakeAmount
  depositEscrowSequence := dto.row.depositEscrowSequence
  depositEscrowTxHash := dto.row.depositEscrowTxHash
  stakeEscrowSequence := dto.row.stakeEscrowSequence
  stakeEscrowTxHash := dto.row.stakeEscrowTxHash
  signerListTxHash := dto.row.signerListTxHash
  status := dto.row.status
  startsAt := dto.row.startsAt
  endsAt := dto.row.endsAt
  finishAfter := dto.row.finishAfter
  cancelAfter := dto.row.cancelAfter
  tenantEmail := dto.row.tenantEmail

/-- The part of `create` in front of the funding: the settings in IOU mode, with the trust lines of
    the parties. -/
def checkIou (lib : Libraries) (config : Config) (dto : CreateContractDto) :
    CreateM (Option (String × String)) :=
  match dto.mode with
  | .xrp => pure none
  | .iou => do
    let settings ← orRaise (iouSettings config dto)
    assertCounterpartyTrustLines lib dto.tenantAddress dto.landlordAddress (dto.iouSetup settings)
    return some settings

/-- The trust line of the new account, in IOU mode. -/
def fundIou (lib : Libraries) (config : Config) (dto : CreateContractDto)
    (contractWallet operatorWallet : Wallet) : Option (String × String) → CreateM Unit
  | none => pure ()
  | some settings =>
    ensureTrustLineAndFundFromOperator lib config contractWallet operatorWallet (dto.iouSetup settings)

/-- The part from the funding on. -/
def fundAndLock (lib : Libraries) (config : Config) (dto : CreateContractDto)
    (operatorWallet : Wallet) (settings : Option (String × String)) : CreateM ContractResponseDto := do
  let contractWallet ← generateAndFundWallet
  fundIou lib config dto contractWallet operatorWallet settings
  let locked ← Async.inl (lockTenantDeposit
    (aesGcmEncryptionService lib.cipher config.encryptionMasterKey)
    (dto.lockInput settings contractWallet operatorWallet))
  return toContractResponse locked

/-- `ContractsController.create`. -/
def createContract (lib : Libraries) (config : Config) (dto : CreateContractDto) :
    CreateM ContractResponseDto := do
  let wallet ← orRaise (operatorWallet lib config)
  let settings ← checkIou lib config dto
  fundAndLock lib config dto wallet settings

end Bluesafe.Lock
