import Bluesafe.Async.Pool
import Bluesafe.Wallet.Types

/-!
# The wallet services

`WalletController` with `wallet/wallet.service.ts`, `wallet/wallet-iou-fund.service.ts` and
`wallet/wallet-peer-xrp.service.ts`, and what they use of `xrpl/`.
-/

namespace Bluesafe.Wallets

open Async
open Bluesafe.Ops (truthy trim)
open Bluesafe.Lock (Amount TrustLine buildIouAmount dropZeros isDrops isIouValue
  normalizeIouCurrencyCode upperCase)

/-- Continue with the value of a synchronous function, or throw its exception. -/
def orThrow {α : Type} : Except Exception α → WalletM α
  | .ok a => pure a
  | .error e => throw e

/-- The errors of the functions of `xrpl/`. -/
def asError {α : Type} : Except String α → Except Exception α
  | .ok a => .ok a
  | .error e => .error (.error e)

/-! ## What the services share -/

/-- `getWalletNetwork`. -/
def getWalletNetwork (config : Config) : WalletNetwork :=
  let endpoint := config.xrplNetworkUrl.getD ""
  if includes endpoint "xrplcluster" ∨ includes endpoint "mainnet" then
    ⟨"mainnet", "XRPL Mainnet", endpoint⟩
  else if includes endpoint "devnet" then ⟨"devnet", "XRPL Devnet", endpoint⟩
  else ⟨"testnet", "XRPL Testnet",
    if endpoint = "" then "wss://s.altnet.rippletest.net:51233" else endpoint⟩

/-- The base of the links to the explorer. -/
def explorerBase (config : Config) : String :=
  dropSlash (config.xrplExplorerUrl.getD "https://testnet.xrpl.org")

/-- `TrustSetService.assertTxSuccess`. -/
def assertTxSuccess (response : Lock.TxResponse) : Except Exception Unit :=
  asError (Lock.assertTxSuccess response)

/-- `ensureTestnetXrpForFees`. -/
def ensureTestnetXrpForFees (wallet : Wallet) : WalletM Unit := do
  request .getClient
  let funded ← tryCatch (do
      let drops ← request (.accountInfo wallet.classicAddress)
      return decide (10000000 ≤ drops))
    fun _ => return false
  if funded then pure () else request (.fundWallet wallet.classicAddress)

/-- The line of `account_lines` that `findTrustLine` returns. -/
def pickLine (want : String) (lines : List Lock.AccountLine) : Option TrustLine :=
  (lines.find? fun line =>
      decide (String.ofList ((line.currency.getD "").toList.flatMap upperCase) = want)).map
    fun line => ⟨line.limit.getD "0", line.balance.getD "0", line.currency.getD ""⟩

/-- `findTrustLine`. -/
def findTrustLine (account issuer currency : String) : WalletM (Option TrustLine) := do
  let want ← orThrow (asError (normalizeIouCurrencyCode currency))
  let lines ← request (.accountLines account issuer)
  return pickLine want lines

/-- `submitTrustSet`. -/
def submitTrustSet (owner : Wallet) (limitAmount : Amount) : WalletM String := do
  request .getClient
  let response ← request (.submitAndWait (.trustSet owner.classicAddress limitAmount) owner)
  match response.transactionResult with
  | none => throw (.error "TrustSet response meta missing or string")
  | some result =>
    if result ≠ "tesSUCCESS" then throw (.error ("TrustSet failed: " ++ result))
    else return response.hash

/-! ## Connecting -/

/-- `connect`. -/
def connect (config : Config) (role : WalletRole) (approve : Bool) : WalletM Reply := do
  let (wallet, wasConnected) ← request (.connect role approve)
  if approve = false then return .declined "Connection declined."
  else
    return .connected
      (if wasConnected then "Wallet already connected." else "Connection approved.")
      role wallet.classicAddress wallet.publicKey (getWalletNetwork config)

/-- `disconnect`. -/
def disconnect (role : WalletRole) : WalletM Reply := do
  request (.disconnect role)
  return .disconnected "Wallet disconnected." role

/-! ## Funding with an issued currency -/

/-- `a || b`, for texts that may be missing. -/
def orText (a b : Option String) : Option String := (truthy a).or (truthy b)

/-- The wallet that will pay: the issuer's or the operator's, by its seed. -/
inductive FundingSeed
  | issuer (seed : String)
  | operator (seed : String)

/-- What the synchronous opening of `fundInternalWallet` finds out. -/
structure FundPlan where
  role : WalletRole
  seed : FundingSeed
  issuer : String
  currency : String
  amount : String

/-- The opening of `fundInternalWallet`, up to the first wallet. -/
def fundPlan (config : Config) (dto : FundIouWalletDto) : Except Exception FundPlan := do
  let seed ← match truthy (config.xrplIouIssuerSeed.map trim),
      truthy (config.xrplOperatorSeed.map trim) with
    | some issuerSeed, _ => .ok (.issuer issuerSeed)
    | none, some operatorSeed => .ok (.operator operatorSeed)
    | none, none => .error (.badRequest
        "XRPL_IOU_ISSUER_SEED(발행 직접) 또는 XRPL_OPERATOR_SEED(보유분 전송) 중 하나는 필요합니다.")
  match orText (dto.issuer.map trim) (config.xrplIouIssuer.map trim),
      orText (dto.currency.map trim) (config.xrplIouCurrency.map trim) with
  | some issuer, some currency =>
    let currency ← asError (normalizeIouCurrencyCode currency)
    let amountRaw :=
      (orText (dto.amount.map trim) (config.xrplWalletIouFundAmount.map trim)).getD "1"
    if isIouValue amountRaw then .ok ⟨dto.role.getD .tenant, seed, issuer, currency, amountRaw⟩
    else .error (.badRequest "amount 형식이 올바르지 않습니다.")
  | _, _ => .error (.badRequest
      "issuer/currency 를 요청에 넣거나 XRPL_IOU_ISSUER / XRPL_IOU_CURRENCY 를 설정하세요.")

/-- `isRippleAltnetTestnet`. -/
def isRippleAltnetTestnet (config : Config) : Bool :=
  includes (toLowerCase (config.xrplNetworkUrl.getD "")) "altnet.rippletest.net"

/-- `((BigInt(src) * 110n) / 100n).toString()`, with the checks before it. -/
def sendMaxFor : Option SourceAmount → Except Exception String
  | none => .error (.badRequest
      "DEX 경로를 찾지 못했습니다. IOU issuer/통화를 확인하거나 수동으로 운영자 지갑에 입금하세요.")
  | some .issued => .error (.error "Cannot convert [object Object] to a BigInt")
  | some (.drops src) =>
    if src = "" then
      .error (.badRequest
        "DEX 경로를 찾지 못했습니다. IOU issuer/통화를 확인하거나 수동으로 운영자 지갑에 입금하세요.")
    else
      match bigInt src with
      | none => .error (.error ("Cannot convert " ++ src ++ " to a BigInt"))
      | some n => .ok (toString ((n * 110).tdiv 100))

/-- The body of the `try` after the path was found: the payment along it. -/
def payAlongPath (buyer : Wallet) (dest : Amount) (source : Option SourceAmount) : WalletM Unit := do
  let sendMax ← orThrow (sendMaxFor source)
  let payRes ← request (.submitAndWait
    (.payment buyer.classicAddress buyer.classicAddress dest (some sendMax)) buyer)
  orThrow (assertTxSuccess payRes)

/-- The `finally`: close the path and ignore what that throws. -/
def closePath : WalletM Unit :=
  tryCatch (request .pathFindClose) fun _ => pure ()

/-- `buyIouWithXrpViaPathFind`. The path is closed when it was created, however the payment
    ends. -/
def buyIouWithXrpViaPathFind (buyer : Wallet) (issuer currency iouValue : String) :
    WalletM Unit := do
  let dest ← orThrow (asError (buildIouAmount issuer currency iouValue))
  let source ← request (.pathFindCreate buyer.classicAddress buyer.classicAddress dest)
  let paid ← tryCatch (do payAlongPath buyer dest source; return .ok ())
    fun e => return (.error e : Except Exception Unit)
  closePath
  orThrow paid

/-- `(need - balance).toFixed(10).replace(/\.?0+$/, '') || '0'`. -/
def shortfall (numbers : Numbers) (need balance : numbers.Number) : String :=
  (truthy (some (dropZeros (numbers.toFixed (numbers.sub need balance))))).getD "0"

/-- The loop that buys what is missing; it runs at most `n` times. -/
def topUp (numbers : Numbers) (operator : Wallet) (issuer currency : String)
    (need : numbers.Number) : Nat → numbers.Number → WalletM numbers.Number
  | 0, balance => return balance
  | n + 1, balance => do
    if numbers.lt balance need then
      buyIouWithXrpViaPathFind operator issuer currency (shortfall numbers need balance)
      let again ← findTrustLine operator.classicAddress issuer currency
      topUp numbers operator issuer currency need n
        (numbers.parseFloat ((again.map TrustLine.balance).getD "0"))
    else return balance

/-- The trust line of the operator, opened when there is none. -/
def operatorLine (operator : Wallet) (issuer currency : String) : WalletM (Option TrustLine) := do
  let limitAmount ← orThrow (asError (buildIouAmount issuer currency "1000000000"))
  match ← findTrustLine operator.classicAddress issuer currency with
  | some line => return some line
  | none =>
    let _ ← submitTrustSet operator limitAmount
    findTrustLine operator.classicAddress issuer currency

/-- `ensureOperatorIouForPayment`. -/
def ensureOperatorIouForPayment (lib : Libraries) (config : Config) (operator : Wallet)
    (issuer currency needValue : String) : WalletM Unit := do
  let line ← operatorLine operator issuer currency
  let need := lib.numbers.parseFloat needValue
  if !lib.numbers.isFinite need || lib.numbers.le need lib.numbers.zero then
    throw (.badRequest "amount 가 올바르지 않습니다.")
  else
    let held := (line.map TrustLine.balance).getD "0"
    let balance := lib.numbers.parseFloat held
    -- `balance >= need`
    if lib.numbers.le need balance then return
    else if !isRippleAltnetTestnet config then
      throw (.badRequest ("운영자 지갑(" ++ operator.classicAddress ++
        ")의 IOU 잔액이 부족합니다. 필요 " ++ needValue ++ ", 보유 " ++ held ++
        ". 메인넷은 자동 매입하지 않습니다. XRPL_IOU_ISSUER_SEED 또는 수동 입금을 사용하세요."))
    else
      let balance ← topUp lib.numbers operator issuer currency need 8 balance
      if lib.numbers.lt balance need then
        throw (.badRequest ("테스트넷 DEX로 IOU를 채우지 못했습니다. 필요 " ++ needValue ++
          ", 보유 " ++ lib.numbers.text balance ++ ". tryrlusd.com 등으로 운영자 지갑(" ++
          operator.classicAddress ++ ")에 입금하거나 XRPL_IOU_ISSUER_SEED를 설정하세요."))
      else return

/-- `Wallet.fromSeed(seed)`. -/
def Libraries.walletFromSeed (lib : Libraries) (seed : String) : Except Exception Wallet :=
  match lib.fromSeed seed with
  | some wallet => .ok wallet
  | none => .error (.error "invalid seed")

/-- The wallet of the issuer, whose address must be the issuer of the request. -/
def issuerWallet (lib : Libraries) (issuer seed : String) : Except Exception Wallet := do
  let wallet ← lib.walletFromSeed seed
  if wallet.classicAddress ≠ issuer then
    .error (.badRequest ("XRPL_IOU_ISSUER_SEED 주소(" ++ wallet.classicAddress ++
      ")가 XRPL_IOU_ISSUER(" ++ issuer ++ ")와 일치하지 않습니다."))
  else .ok wallet

/-- The wallet that pays, with what it needs for the payment. -/
def prepareFunding (lib : Libraries) (config : Config) (plan : FundPlan) : WalletM Wallet :=
  match plan.seed with
  | .issuer seed => do
    let fundingWallet ← orThrow (issuerWallet lib plan.issuer seed)
    ensureTestnetXrpForFees fundingWallet
    return fundingWallet
  | .operator seed => do
    let fundingWallet ← orThrow (lib.walletFromSeed seed)
    ensureTestnetXrpForFees fundingWallet
    ensureOperatorIouForPayment lib config fundingWallet plan.issuer plan.currency plan.amount
    return fundingWallet

/-- `fundInternalWallet`. -/
def fundInternalWallet (lib : Libraries) (config : Config) (dto : FundIouWalletDto) :
    WalletM FundReply := do
  let plan ← orThrow (fundPlan config dto)
  let recipient ← request (.getWalletForRole plan.role)
  request .getClient
  ensureTestnetXrpForFees recipient
  let fundingWallet ← prepareFunding lib config plan
  let limitAmount ← orThrow (asError (buildIouAmount plan.issuer plan.currency "1000000000"))
  let trustSetTxHash ← submitTrustSet recipient limitAmount
  let payAmount ← orThrow (asError (buildIouAmount plan.issuer plan.currency plan.amount))
  let payRes ← request (.submitAndWait
    (.payment fundingWallet.classicAddress recipient.classicAddress payAmount none) fundingWallet)
  orThrow (assertTxSuccess payRes)
  return {
    message := "IOU funded to internal wallet."
    role := plan.role
    address := recipient.classicAddress
    issuer := plan.issuer
    currency := plan.currency
    amount := plan.amount
    trustSetTxHash := trustSetTxHash
    paymentTxHash := payRes.hash
    explorerPaymentUrl := explorerBase config ++ "/transactions/" ++ payRes.hash
    network := (getWalletNetwork config).label }

/-! ## The round trip -/

/-- `assertTestnet`. -/
def assertTestnet (config : Config) : Except Exception Unit :=
  if includes (toLowerCase (config.xrplNetworkUrl.getD "wss://s.altnet.rippletest.net:51233"))
      "altnet.rippletest" then .ok ()
  else .error (.forbidden ("peer-xrp-roundtrip is only allowed when XRPL_NETWORK_URL points at " ++
    "XRPL Testnet (altnet.rippletest)."))

/-- `submitPay`. -/
def submitPay (amountDrops : String) (source target : Wallet) : WalletM String := do
  let res ← request (.submitAndWait
    (.payment source.classicAddress target.classicAddress (.drops amountDrops) none) source)
  orThrow (assertTxSuccess res)
  return res.hash

/-- `roundtrip`. -/
def roundtrip (config : Config) (amountDrops : String) : WalletM RoundtripReply := do
  orThrow (assertTestnet config)
  if isDrops amountDrops = false then
    throw (.badRequest "amountDrops must be a non-negative integer drops string")
  else
    let tenant ← request (.getWalletForRole .tenant)
    let landlord ← request (.getWalletForRole .landlord)
    request .getClient
    let tenantToLandlordTxHash ← submitPay amountDrops tenant landlord
    let landlordToTenantTxHash ← submitPay amountDrops landlord tenant
    let base := explorerBase config
    return {
      tenantAddress := tenant.classicAddress
      landlordAddress := landlord.classicAddress
      amountDrops := amountDrops
      tenantToLandlordTxHash := tenantToLandlordTxHash
      landlordToTenantTxHash := landlordToTenantTxHash
      explorerBase := base
      tenantToLandlord := base ++ "/transactions/" ++ tenantToLandlordTxHash
      landlordToTenant := base ++ "/transactions/" ++ landlordToTenantTxHash
      tenantAccount := base ++ "/accounts/" ++ tenant.classicAddress
      landlordAccount := base ++ "/accounts/" ++ landlord.classicAddress }

/-! ## The controller -/

/-- The routes of `WalletController`. -/
def handle (lib : Libraries) (config : Config) : Request → WalletM Reply
  | .connect role approve => connect config (role.getD .tenant) (approve.getD true)
  | .disconnect role => disconnect (role.getD .tenant)
  | .fundIou dto => .funded <$> fundInternalWallet lib config dto
  | .peerXrpRoundtrip amountDrops =>
    .roundtrip <$> roundtrip config ((truthy (amountDrops.map trim)).getD "1000000")

/-- A request in progress. -/
abbrev WalletThread : Type := Thread calls Exception Request Reply

/-- The wallet application with its requests in progress. -/
abbrev WalletPool : Type := Pool calls Exception Store Request Reply

/-- The application: requests interleave at their calls, and the calls may fail. -/
def walletStep (lib : Libraries) (config : Config) : WalletPool → Act Request Choice → Option WalletPool :=
  poolStep world (handle lib config)

end Bluesafe.Wallets
