import Bluesafe.Settle.Repository

/-!
# The reconciler

`submitXrpPayment` (`xrpl/settlement-payment.service.ts`), `ReconcilerService`
(`reconciler/reconciler.service.ts`) and its three triggers: the monthly cron, the manual
run of `reconciliations.controller.ts` and the retry processor
(`reconciler/xrpl-tx-retry.processor.ts`). Log lines are left out.
-/

namespace Bluesafe.Settle

open Bluesafe.Ops (Time truthy)

/-- Continue with the value of a synchronous function, or throw its error. -/
def orThrow {α : Type} : Except String α → SettleM α
  | .ok a => pure a
  | .error e => throw e

/-! ## Payments -/

/-- `SubmitXrpPaymentParams`. -/
structure SubmitXrpPaymentParams where
  sourceAddress : String
  destinationAddress : String
  sourceSeed : String
  amountDrops : String
  memos : List ReconcileMemo

/-- The pattern of `amountDrops`: one or more digits. -/
def isDropsString (s : String) : Bool :=
  !s.toList.isEmpty && s.toList.all fun c => '0' ≤ c && c ≤ '9'

/-- `assertPaymentSuccess`. -/
def assertPaymentSuccess (response : PaymentResponse) : Except String String :=
  match response.transactionResult with
  | none => .error "Payment response meta missing or string"
  | some result =>
    if result ≠ "tesSUCCESS" then .error ("Payment failed: " ++ result)
    else .ok response.hash

/-- `submitXrpPayment`. The client that is not connected throws before anything is sent: a
    rejection of `submitAndWait` without effect. -/
def submitXrpPayment (config : Config) (params : SubmitXrpPaymentParams) : SettleM String := do
  let classicAddress ← orThrow (config.walletFromSeed params.sourceSeed)
  if classicAddress ≠ params.sourceAddress then
    throw ("sourceSeed 주소(" ++ classicAddress ++ ")가 sourceAddress(" ++ params.sourceAddress ++
      ")와 일치하지 않습니다.")
  else if isDropsString params.amountDrops = false then
    throw "amountDrops must be a non-negative integer drops string"
  else
    let response ← invoke (.submitAndWait
      ⟨params.sourceAddress, params.destinationAddress, params.amountDrops, params.memos⟩)
    orThrow (assertPaymentSuccess response)

/-! ## The monthly report -/

/-- `explorerBaseUrl.replace(/\/$/, '')`. -/
def dropTrailingSlash (s : String) : String :=
  match s.toList.reverse with
  | '/' :: rest => String.ofList rest.reverse
  | _ => s

/-- `buildMonthlyReportEmail`. -/
def buildMonthlyReportEmail (config : Config) (toAddress contractId yearMonth : String)
    (usage : MonthlyUsage) (paymentTxHash explorerBaseUrl : String) : EmailMessage where
  toAddress := toAddress
  subject := "[BlueSafe] " ++ yearMonth ++ " 월 정산 리포트"
  text := "\n".intercalate [
    "BlueSafe 월간 정산 리포트 — " ++ yearMonth,
    "",
    "계약 ID: " ++ contractId,
    "전력 사용량(KEPCO): " ++ usage.usageKwh.text ++ " kWh",
    "청구 금액(KEPCO): ₩" ++ config.toLocaleString usage.chargeKrw,
    "XRPL Payment 트랜잭션: " ++ paymentTxHash,
    "",
    "블록체인에서 직접 확인: " ++ dropTrailingSlash explorerBaseUrl ++ "/transactions/" ++
      paymentTxHash,
    "",
    "이 이메일은 매월 정산 cron이 자동 발송합니다.",
    "XRPL Memo에는 KEPCO 응답의 SHA-256 해시가 기록되어 사후 위변조가 불가능합니다."]

/-- `sendMonthlyReportSafely`: an exception of the mailer or of the update is swallowed. -/
def sendMonthlyReportSafely (config : Config) (recordId : String) (contract : ContractDto)
    (yearMonth : String) (usage : MonthlyUsage) (paymentTxHash : String) : SettleM Unit := do
  match truthy contract.tenantEmail with
  | none => return
  | some toAddress =>
    tryCatch (do
      let message := buildMonthlyReportEmail config toAddress contract.id yearMonth usage
        paymentTxHash (config.explorerUrl.getD "https://testnet.xrpl.org")
      invoke (.sendEmail message)
      let now ← invoke .clock
      invoke (.updateReportSentAt recordId now)) fun _ => pure ()

/-! ## One contract -/

/-- The contract that can be settled: it exists, is locked and has an account. -/
def settleableContract (config : Config) (contractId : String) :
    SettleM (ContractDto × String × String) := do
  match ← invoke (.findContract contractId) with
  | none => throw ("Contract " ++ contractId ++ " not found")
  | some row =>
    let contract ← orThrow (row.toDto config.decrypt)
    if contract.status ≠ .locked then
      throw ("Contract " ++ contractId ++ " is not Locked (status=" ++ contract.status.text ++ ")")
    else
      match truthy contract.contractAccountSeed, truthy contract.contractAccountAddress with
      | some seed, some address => return (contract, seed, address)
      | _, _ =>
        throw ("Contract " ++ contractId ++ " missing contractAccount info (seed/address)")

/-- The memo payload of a settlement. -/
def settlementPayload (contractId yearMonth usageHash : String) (usage : MonthlyUsage) :
    ReconcileMemoPayload :=
  ⟨contractId, yearMonth, usageHash, usageHash, usage.chargeKrw.text⟩

/-- The body of the `try`: build the memo and pay. -/
def paySettlement (config : Config) (contract : ContractDto) (seed address contractId yearMonth
    usageHash : String) (usage : MonthlyUsage) : SettleM String := do
  let memo ← orThrow (buildReconcileMemo (settlementPayload contractId yearMonth usageHash usage))
  submitXrpPayment config
    ⟨address, contract.landlordAddress, seed, usage.chargeKrw.text, [memo]⟩

/-- The record of an attempt: matched with the hash of its payment, or failed with the
    message of the exception. -/
def attemptRecord (contractId yearMonth usageHash : String) (usage : MonthlyUsage)
    (outcome : Except String String) : ReconciliationDraft where
  contractId := contractId
  yearMonth := yearMonth
  kepcoUsageKwh := usage.usageKwh
  kepcoChargeKrw := usage.chargeKrw
  kepcoUsageHash := usageHash
  status := match outcome with
    | .ok _ => .matched
    | .error _ => .failed
  paymentTxHash := match outcome with
    | .ok txHash => some txHash
    | .error _ => none
  errorMessage := match outcome with
    | .ok _ => none
    | .error e => some e

/-- What follows the `try`: save the record, pass the exception on, or send the report. -/
def recordAttempt (config : Config) (contract : ContractDto) (contractId yearMonth usageHash : String)
    (usage : MonthlyUsage) (outcome : Except String String) : SettleM Reconciliation := do
  let record ← invoke (.saveRecord (attemptRecord contractId yearMonth usageHash usage outcome))
  match outcome with
  | .error e => throw e
  | .ok txHash =>
    if txHash ≠ "" then
      sendMonthlyReportSafely config record.id contract yearMonth usage txHash
    return record

/-- `reconcileContract`. -/
def reconcileContract (config : Config) (contractId yearMonth : String) :
    SettleM Reconciliation := do
  match ← invoke (.findMatched contractId yearMonth) with
  | some alreadyMatched => return alreadyMatched
  | none =>
    let (contract, seed, address) ← settleableContract config contractId
    let usage ← invoke (.getMonthlyUsage contractId yearMonth)
    let usageHash := config.sha256Hex (String.ofList usage.json)
    -- The result of the `try`, with the exception as a value.
    let outcome ← tryCatch
      (Except.ok <$> paySettlement config contract seed address contractId yearMonth usageHash usage)
      fun e => pure (.error e)
    recordAttempt config contract contractId yearMonth usageHash usage outcome

/-! ## Triggers -/

/-- `findAllLocked`: one row that cannot be decrypted rejects the whole list. -/
def findAllLocked (config : Config) : SettleM (List ContractDto) := do
  let rows ← invoke .findLockedContracts
  orThrow (rows.mapM (ContractRow.toDto config.decrypt))

/-- One iteration of the monthly loop. -/
def reconcileOrEnqueue (config : Config) (yearMonth : String) (contract : ContractDto) :
    SettleM Unit :=
  tryCatch (do let _ ← reconcileContract config contract.id yearMonth)
    fun _ => invoke (.addRetryJob ⟨contract.id, yearMonth⟩)

/-- `runMonthlyReconcile`. -/
def runMonthlyReconcile (config : Config) (yearMonth : String) : SettleM Unit := do
  let contracts ← findAllLocked config
  forM contracts (reconcileOrEnqueue config yearMonth)

/-- Year and month of a day, counted from 1970-01-01 (Gregorian calendar). -/
def yearMonthOfDay (day : Nat) : Nat × Nat :=
  let z := day + 719468
  let era := z / 146097
  let doe := z % 146097
  let yoe := (doe - doe / 1460 + doe / 36524 - doe / 146096) / 365
  let doy := doe - (365 * yoe + yoe / 4 - yoe / 100)
  let mp := (5 * doy + 2) / 153
  let month := if mp < 10 then mp + 3 else mp - 9
  (yoe + era * 400 + (if month ≤ 2 then 1 else 0), month)

/-- `previousMonthInKst`: the month before the one of `now` at UTC+9. -/
def previousMonthInKst (now : Time) : String :=
  let (year, month) := yearMonthOfDay ((now + 9 * 3600000) / 86400000)
  let (prevYear, prevMonth) := if month = 1 then (year - 1, 12) else (year, month - 1)
  toString prevYear ++ "-" ++ (if prevMonth < 10 then "0" else "") ++ toString prevMonth

-- 2026-04-30T15:00:00Z is midnight of the first of May in Seoul.
example : previousMonthInKst 1777561200000 = "2026-04" := by decide +kernel

example : previousMonthInKst 1767193199000 = "2025-11" := by decide +kernel

/-- `monthlyCron`. -/
def monthlyCron (config : Config) : SettleM Unit := do
  let now ← invoke .clock
  runMonthlyReconcile config (previousMonthInKst now)

/-- The pattern of `RunReconciliationDto.yearMonth`: four digits, a hyphen, two digits. -/
def isYearMonth (s : String) : Bool :=
  match s.toList with
  | [a, b, c, d, '-', e, f] => [a, b, c, d, e, f].all fun x => '0' ≤ x && x ≤ '9'
  | _ => false

/-- `RunReconciliationDto`. -/
structure RunReconciliationDto where
  yearMonth : Option String
  contractId : Option String
  yearMonth_format : ∀ ym ∈ yearMonth, isYearMonth ym = true

/-- The reply of a manual run. -/
structure ManualResult where
  yearMonth : String
  processed : Int

/-- `opts.yearMonth ?? this.previousMonthInKst()`. -/
def requestedMonth (opts : RunReconciliationDto) : SettleM String :=
  match opts.yearMonth with
  | some ym => pure ym
  | none => previousMonthInKst <$> invoke .clock

/-- `runManualReconcile`. -/
def runManualReconcile (config : Config) (opts : RunReconciliationDto) :
    SettleM ManualResult := do
  let yearMonth ← requestedMonth opts
  match truthy opts.contractId with
  | some contractId =>
    let _ ← reconcileContract config contractId yearMonth
    return ⟨yearMonth, 1⟩
  | none =>
    let before ← invoke (.countRecords yearMonth)
    runMonthlyReconcile config yearMonth
    let after ← invoke (.countRecords yearMonth)
    return ⟨yearMonth, (after : Int) - before⟩

/-- `POST /reconciliations/run` behind `NotProductionGuard`. -/
def runManual (config : Config) (dto : RunReconciliationDto) : SettleM ManualResult :=
  if config.production then throw "Not Found" else runManualReconcile config dto

/-- `XrplTxRetryProcessor.process`. -/
def process (config : Config) (job : XrplTxRetryJob) : SettleM Unit := do
  let _ ← reconcileContract config job.contractId job.yearMonth

/-- The ways into the reconciler. A job may be processed at any time and any number of times:
    the queue retries and the workers run in parallel. -/
inductive Trigger
  | cron
  | manual (dto : RunReconciliationDto)
  | retry (job : XrplTxRetryJob)

/-- The program of each trigger. -/
def handle (config : Config) : Trigger → SettleM (Option ManualResult)
  | .cron => (fun _ => none) <$> monthlyCron config
  | .manual dto => some <$> runManual config dto
  | .retry job => (fun _ => none) <$> process config job

/-- A trigger in progress. -/
abbrev SettleThread : Type := Async.Thread calls String Trigger (Option ManualResult)

/-- The settlement with its triggers in progress. -/
abbrev SettlePool : Type := Async.Pool calls String Store Trigger (Option ManualResult)

/-- The settlement: triggers are interleaved at their calls, any of which may fail. -/
def settleStep (config : Config) : SettlePool → Async.Act Trigger Choice → Option SettlePool :=
  Async.poolStep world (handle config)

end Bluesafe.Settle
