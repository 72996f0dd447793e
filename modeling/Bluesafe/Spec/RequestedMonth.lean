import Bluesafe.ForStd.NumberLiteral
import Bluesafe.Settle.Kepco
import Bluesafe.Spec.MonthlyPayment
import Bluesafe.Spec.MonthlyRun

/-!
# The month of a payment

`reconcileContract` asks the power company for the usage of a month and pays what the answer
charges. The payment, its memo and the record are all made from that one answer, but the month
of the answer is never compared with the month that was asked for, and a charge that is no amount
is refused only by the payment, after which a record is stored all the same. So payments and
records belong to the requested month if and only if the answer does (`month_bound`).
-/

namespace Bluesafe.Kepco

open Async
open Bluesafe.Ops (truthy)
open Bluesafe.Settle hiding JsNumber reconcileContract

/-- `Number.isInteger(x) && x >= 0`: the last digit stands before the point. -/
def isNonNegativeInteger (x : JsNumber) : Bool :=
  !x.negative && decide ((x.digits.length : Int) ≤ x.point)

/-- The bill is of the month and charges an amount. -/
def OpmBillData.Fits (bill : OpmBillData) (yearMonth : String) : Prop :=
  bill.yearMonth = yearMonth ∧ isNonNegativeInteger bill.billAmt = true

/-- The payment and its memo are made from the usage. -/
structure PaysFor (config : Config) (contractId yearMonth : String) (usage : MonthlyUsage)
    (tx : Payment) : Prop where
  amount : tx.amount = usage.chargeKrw.text
  memo : ∃ memo, tx.memos = [memo] ∧ buildReconcileMemo {
    contractId := contractId
    yearMonth := yearMonth
    kepcoUsageHash := config.sha256Hex (String.ofList usage.json)
    landlordClaimHash := config.sha256Hex (String.ofList usage.json)
    calculatedAmountDrops := usage.chargeKrw.text } = .ok memo

/-- The record is made from the usage. -/
structure RecordsUsage (config : Config) (contractId yearMonth : String) (usage : MonthlyUsage)
    (draft : ReconciliationDraft) : Prop where
  contractId_eq : draft.contractId = contractId
  yearMonth_eq : draft.yearMonth = yearMonth
  usageKwh : draft.kepcoUsageKwh = usage.usageKwh
  chargeKrw : draft.kepcoChargeKrw = usage.chargeKrw
  usageHash : draft.kepcoUsageHash = config.sha256Hex (String.ofList usage.json)

/-- Every submitted payment and every record that is saved is made from the bill of the response,
    which is of the requested month and charges an amount. -/
structure MonthBound (config : Config) (kepco : KepcoConfig) (contractId yearMonth : String)
    (body : OpmBillResponse) (evs : List (Event kepcoCalls String)) : Prop where
  paid : ∀ tx res, (⟨.inl (.submitAndWait tx), res⟩ : Event kepcoCalls String) ∈ evs →
    ∃ bill ∈ body.data, bill.Fits yearMonth ∧ PaysFor config contractId yearMonth
      (mapOpmBillToMonthlyUsage kepco contractId bill) tx
  stored : ∀ draft res, (⟨.inl (.saveRecord draft), res⟩ : Event kepcoCalls String) ∈ evs →
    ∃ bill ∈ body.data, bill.Fits yearMonth ∧ RecordsUsage config contractId yearMonth
      (mapOpmBillToMonthlyUsage kepco contractId bill) draft

/-! ## The calls of an attempt -/

/-- The calls before the usage is known. -/
def BeforeUsage : Call → Prop
  | .findMatched _ _ => True
  | .findContract _ => True
  | _ => False

/-- The calls after it. -/
def AfterUsage (config : Config) (contractId yearMonth : String) (usage : MonthlyUsage) :
    Call → Prop
  | .submitAndWait tx => PaysFor config contractId yearMonth usage tx
  | .saveRecord draft => RecordsUsage config contractId yearMonth usage draft
  | .sendEmail _ => True
  | .clock => True
  | .updateReportSentAt _ _ => True
  | _ => False

variable {config : Config} {kepco : KepcoConfig} {contractId yearMonth : String}
  {usage : MonthlyUsage} {evs : List (Event calls String)}

/-- The look-up of a contract comes before the usage. -/
theorem only_settleableContract (contractId : String) :
    Only (I := calls) BeforeUsage (settleableContract config contractId) := by
  unfold settleableContract
  apply Only.bind (Only.call trivial)
  intro found
  -- contract, status, seed and address are looked at before the usage
  cases found with
  | none => exact Only.throw
  | some row =>
    apply Only.bind (only_orThrow _)
    intro contract
    apply Only.ite Only.throw
    cases truthy contract.contractAccountSeed with
    | none => exact Only.throw
    | some seed =>
      cases truthy contract.contractAccountAddress with
      | none => exact Only.throw
      | some address => exact Only.pure

/-- The payment comes after it. -/
theorem only_submitXrpPayment {params : SubmitXrpPaymentParams}
    (h : ∀ tx : Payment, tx.amount = params.amountDrops → tx.memos = params.memos →
      AfterUsage config contractId yearMonth usage (.submitAndWait tx)) :
    Only (I := calls) (AfterUsage config contractId yearMonth usage)
      (submitXrpPayment config params) := by
  unfold submitXrpPayment
  apply Only.bind (only_orThrow _)
  intro classicAddress
  apply Only.ite Only.throw
  apply Only.ite Only.throw
  exact Only.bind (Only.call (h _ rfl rfl)) fun _ => only_orThrow _

/-- The payment is made from the usage, whatever became of the memo. -/
theorem only_paySettlement {contract : ContractDto} {seed address : String} :
    Only (I := calls) (AfterUsage config contractId yearMonth usage)
      (paySettlement config contract seed address contractId yearMonth
        (config.sha256Hex (String.ofList usage.json)) usage) := by
  unfold paySettlement
  cases hmemo : buildReconcileMemo (settlementPayload contractId yearMonth
      (config.sha256Hex (String.ofList usage.json)) usage) with
  | error e => exact Only.throw
  | ok memo => exact only_submitXrpPayment fun tx hamount hmemos => ⟨hamount, memo, hmemos, hmemo⟩

/-- So does the report. -/
theorem only_sendMonthlyReportSafely {recordId : String} {contract : ContractDto}
    {txHash : String} : Only (I := calls) (AfterUsage config contractId yearMonth usage)
      (sendMonthlyReportSafely config recordId contract yearMonth usage txHash) := by
  unfold sendMonthlyReportSafely
  cases truthy contract.tenantEmail with
  | none => exact Only.pure
  | some toAddress =>
    apply Only.tryCatch _ fun _ => Only.pure
    apply Only.bind (Only.call trivial)
    intro _
    apply Only.bind (Only.call trivial)
    intro now
    exact Only.call trivial

/-- The row of an attempt has the usage that was read. -/
theorem recordsUsage_attemptRecord (outcome : Except String String) :
    RecordsUsage config contractId yearMonth usage (attemptRecord contractId yearMonth
      (config.sha256Hex (String.ofList usage.json)) usage outcome) :=
  ⟨rfl, rfl, rfl, rfl, rfl⟩

/-- And it is written after the usage. -/
theorem only_recordAttempt {contract : ContractDto} {outcome : Except String String} :
    Only (I := calls) (AfterUsage config contractId yearMonth usage)
      (recordAttempt config contract contractId yearMonth
        (config.sha256Hex (String.ofList usage.json)) usage outcome) := by
  unfold recordAttempt
  apply Only.bind (Only.call (recordsUsage_attemptRecord outcome))
  intro record
  cases outcome with
  | error e => exact Only.throw
  | ok txHash =>
    exact Only.ite (Only.bind only_sendMonthlyReportSafely fun _ => Only.pure) Only.pure

/-- The first call after the `try` saves a record. -/
theorem saved_of_recordAttempt {contract : ContractDto} {usageHash : String}
    {outcome : Except String String} {x : Except String Reconciliation}
    (h : Traces (recordAttempt config contract contractId yearMonth usageHash usage outcome) evs x) :
    ∃ draft res, (⟨.saveRecord draft, res⟩ : Event calls String) ∈ evs := by
  unfold recordAttempt at h
  rw [traces_call_bind] at h
  obtain ⟨e, -, rfl⟩ | ⟨record, rest, rfl, -⟩ := h
  · exact ⟨_, _, List.mem_cons_self⟩
  · exact ⟨_, _, List.mem_cons_self⟩

/-- The trace of an attempt: without an answer of the power company it pays and stores nothing;
    after the answer, payments and records are made from it, and a record is saved. -/
inductive Attempt (config : Config) (contractId yearMonth : String) :
    List (Event calls String) → Prop
  | unanswered {evs : List (Event calls String)}
      (h : ∀ ev ∈ evs, BeforeUsage ev.op ∨ ∃ contractId yearMonth e,
        ev = ⟨.getMonthlyUsage contractId yearMonth, .error e⟩) :
      Attempt config contractId yearMonth evs
  | answered {first rest : List (Event calls String)} {usage : MonthlyUsage}
      (hfirst : ∀ ev ∈ first, BeforeUsage ev.op)
      (hrest : ∀ ev ∈ rest, AfterUsage config contractId yearMonth usage ev.op)
      (hsaved : ∃ draft res, (⟨.saveRecord draft, res⟩ : Event calls String) ∈ rest) :
      Attempt config contractId yearMonth
        (first ++ ⟨.getMonthlyUsage contractId yearMonth, .ok usage⟩ :: rest)

/-- The trace of an attempt: its usage is asked for once. -/
theorem traces_reconcileContract {x : Except String Reconciliation}
    (h : Traces (Settle.reconcileContract config contractId yearMonth) evs x) :
    Attempt config contractId yearMonth evs := by
  unfold Settle.reconcileContract at h
  rw [traces_call_bind] at h
  obtain ⟨e, -, rfl⟩ | ⟨found, rest, rfl, h⟩ := h
  -- the look-up has failed: nothing was asked for
  · exact .unanswered (List.forall_mem_singleton.mpr (.inl trivial))
  cases found with
  -- settled already: nothing was asked for, either
  | some alreadyMatched =>
    obtain ⟨rfl, -⟩ := traces_pure.mp h
    exact .unanswered (List.forall_mem_singleton.mpr (.inl trivial))
  | none =>
    rw [traces_bind] at h
    obtain ⟨e, -, h⟩ | ⟨settleable, first, rest, rfl, hfirst, h⟩ := h
    -- the contract cannot be settled, so its usage is not asked for
    · have hbefore := Traces.forall_of_only (only_settleableContract contractId) h
      exact .unanswered (List.forall_mem_cons.mpr ⟨.inl trivial, fun ev hev => .inl (hbefore ev hev)⟩)
    · have hbefore : ∀ ev ∈ ⟨.findMatched contractId yearMonth, .ok none⟩ :: first,
          BeforeUsage ev.op := List.forall_mem_cons.mpr
        ⟨trivial, Traces.forall_of_only (only_settleableContract contractId) hfirst⟩
      rw [← List.cons_append]
      dsimp only at h
      rw [traces_call_bind] at h
      obtain ⟨e, -, rfl⟩ | ⟨usage, rest, rfl, h⟩ := h
      -- KEPCO has not answered
      · refine .unanswered fun ev hev => ?_
        rcases List.mem_append.mp hev with hev | hev
        · exact .inl (hbefore ev hev)
        · exact .inr ⟨_, _, e, List.mem_singleton.mp hev⟩
      · -- the payment with its result as a value, then the record
        refine .answered hbefore (Traces.forall_of_only ?_ h) ?_
        · apply Only.bind (Only.tryCatch (Only.map only_paySettlement) fun _ => Only.pure)
          intro outcome
          exact only_recordAttempt
        · rw [traces_bind] at h
          obtain ⟨e, -, h⟩ | ⟨outcome, paid, recorded, rfl, -, h⟩ := h
          · -- the exception of a payment is a value here
            rw [traces_tryCatch] at h
            obtain ⟨a, ha, -⟩ | ⟨e', first, rest, -, -, h⟩ := h
            · cases ha
            · cases (traces_pure.mp h).2
          · obtain ⟨draft, res, hmem⟩ := saved_of_recordAttempt h
            exact ⟨draft, res, List.mem_append_right _ hmem⟩

/-! ## The client -/

/-- A call of the reconciler is made as it is, unless it is left to the client. -/
theorem withClient_eq {op : Call} (h : ∀ contractId yearMonth, op ≠ .getMonthlyUsage contractId yearMonth) :
    withClient kepco op = call (I := kepcoCalls) (.inl op) := by
  cases op with
  | getMonthlyUsage contractId yearMonth => exact absurd rfl (h contractId yearMonth)
  | _ =>
    unfold withClient
    exact inl_call _

variable {evs' : List (Event kepcoCalls String)}

/-- The events of the reconciler in the trace with the client. -/
theorem mem_of_mem_inl (hexp : Expands (withClient kepco) evs evs') {op : Call}
    {r : Except String op.Res} (h : (⟨.inl op, r⟩ : Event kepcoCalls String) ∈ evs') :
    (⟨op, r⟩ : Event calls String) ∈ evs := by
  obtain ⟨op', r', seg, hmem, htraces, hin⟩ := hexp.of_mem h
  by_cases hclient : ∃ contractId yearMonth, op' = .getMonthlyUsage contractId yearMonth
  · obtain ⟨contractId, yearMonth, rfl⟩ := hclient
    obtain ⟨evs₀, rfl, -⟩ := traces_inr.mp htraces
    obtain ⟨ev, -, hev⟩ := List.mem_map.mp hin
    cases hev
  · rw [withClient_eq fun contractId yearMonth heq => hclient ⟨contractId, yearMonth, heq⟩,
      traces_call] at htraces
    rw [htraces, List.mem_singleton] at hin
    cases hin
    exact hmem

/-- Other calls are there in the expanded log, too. -/
theorem mem_inl_of_mem (hexp : Expands (withClient kepco) evs evs') {op : Call}
    {r : Except String op.Res}
    (hop : ∀ contractId yearMonth, op ≠ .getMonthlyUsage contractId yearMonth)
    (h : (⟨op, r⟩ : Event calls String) ∈ evs) :
    (⟨.inl op, r⟩ : Event kepcoCalls String) ∈ evs' := by
  obtain ⟨seg, htraces, hin⟩ := hexp.exists_of_mem h
  rw [withClient_eq hop, traces_call] at htraces
  exact hin _ (by rw [htraces]; exact List.mem_singleton_self _)

/-- What the client makes of a response that says it succeeded. -/
def resultOf (kepco : KepcoConfig) (contractId : String) (body : OpmBillResponse) :
    Except String MonthlyUsage :=
  match body.data with
  | some bill => .ok (mapOpmBillToMonthlyUsage kepco contractId bill)
  | none => .error "Cannot read properties of undefined (reading 'billYm')"

/-- The usage is read off one answer of KEPCO. -/
theorem traces_getMonthlyUsage {req : HttpCall} {body : OpmBillResponse}
    (hsuccess : body.result = "SUCCESS") {evs₀ : List (Event httpCalls String)}
    {r : Except String MonthlyUsage} (h : Traces (getMonthlyUsage kepco contractId yearMonth) evs₀ r)
    (hmem : (⟨req, .ok body⟩ : Event httpCalls String) ∈ evs₀) :
    r = resultOf kepco contractId body := by
  unfold getMonthlyUsage at h
  -- an error before the call is none of an answer
  have hnone : ∀ {e : String}, Traces (throw e : Async httpCalls String MonthlyUsage) evs₀ r →
      r = resultOf kepco contractId body := by
    intro e hthrow
    obtain ⟨rfl, -⟩ := traces_throw.mp hthrow
    cases hmem
  generalize truthy kepco.kepcoApiBaseUrl = baseUrl at h
  generalize truthy kepco.kepcoApiKey = serviceKey at h
  -- without the address or the key of KEPCO nothing is called
  cases baseUrl with
  | none => exact hnone h
  | some baseUrl =>
    cases serviceKey with
    | none => exact hnone h
    | some serviceKey =>
      dsimp only at h
      rw [traces_call_bind] at h
      obtain ⟨e, -, rfl⟩ | ⟨body', rest, rfl, h⟩ := h
      · cases List.mem_singleton.mp hmem
      · -- nothing is called after the response
        have hrest : rest = [] := by
          split at h
          · exact (traces_throw.mp h).1
          · cases hdata : body'.data with
            | some bill =>
              rw [hdata] at h
              exact (traces_pure.mp h).1
            | none =>
              rw [hdata] at h
              exact (traces_throw.mp h).1
        subst hrest
        cases List.mem_singleton.mp hmem
        -- the answer is a success, so its bill is what is returned
        rw [if_neg (by simp [hsuccess])] at h
        unfold resultOf
        cases hdata : body.data with
        | some bill =>
          rw [hdata] at h
          exact (traces_pure.mp h).2
        | none =>
          rw [hdata] at h
          exact (traces_throw.mp h).2

/-! ## The payment and the month -/

/-- The answer that the client has made of the response. -/
theorem answer_of_mem {req : HttpCall} {body : OpmBillResponse} (hsuccess : body.result = "SUCCESS")
    (hexp : Expands (withClient kepco) evs evs')
    (hbody : (⟨.inr req, .ok body⟩ : Event kepcoCalls String) ∈ evs') :
    ∃ contractId yearMonth, (⟨.getMonthlyUsage contractId yearMonth,
      resultOf kepco contractId body⟩ : Event calls String) ∈ evs := by
  obtain ⟨op, r, seg, hmem, hseg, hin⟩ := hexp.of_mem hbody
  by_cases hclient : ∃ contractId yearMonth, op = .getMonthlyUsage contractId yearMonth
  · obtain ⟨contractId, yearMonth, rfl⟩ := hclient
    obtain ⟨evs₀, rfl, hget⟩ := traces_inr.mp hseg
    obtain ⟨ev, hev, heq⟩ := List.mem_map.mp hin
    have hsame : ev = ⟨req, .ok body⟩ := Event.inr_injective heq
    subst hsame
    rw [traces_getMonthlyUsage hsuccess hget hev] at hmem
    exact ⟨contractId, yearMonth, hmem⟩
  · rw [withClient_eq fun contractId yearMonth heq => hclient ⟨contractId, yearMonth, heq⟩,
      traces_call] at hseg
    rw [hseg, List.mem_singleton] at hin
    cases hin

/-- What an attempt pays and stores is made from the answered usage. -/
theorem afterUsage_of_mem {first rest : List (Event calls String)}
    (hexp : Expands (withClient kepco)
      (first ++ ⟨.getMonthlyUsage contractId yearMonth, .ok usage⟩ :: rest) evs')
    (hfirst : ∀ ev ∈ first, BeforeUsage ev.op)
    (hrest : ∀ ev ∈ rest, AfterUsage config contractId yearMonth usage ev.op) {op : Call}
    {r : Except String op.Res} (hmem : (⟨.inl op, r⟩ : Event kepcoCalls String) ∈ evs')
    (hop : ¬ BeforeUsage op) (hget : ∀ contractId yearMonth, op ≠ .getMonthlyUsage contractId yearMonth) :
    AfterUsage config contractId yearMonth usage op := by
  rcases List.mem_append.mp (mem_of_mem_inl hexp hmem) with hmem | hmem
  · exact absurd (hfirst _ hmem) hop
  · rcases List.mem_cons.mp hmem with heq | hmem
    · cases heq
      exact absurd rfl (hget _ _)
    · exact hrest _ hmem

/-- The rows of an attempt are for the month it has asked for. -/
theorem monthBound_iff {body : OpmBillResponse} (h : Attempt config contractId yearMonth evs)
    (hexp : Expands (withClient kepco) evs evs') {contractId' yearMonth' : String}
    (hanswer : (⟨.getMonthlyUsage contractId' yearMonth', resultOf kepco contractId' body⟩ :
      Event calls String) ∈ evs) :
    MonthBound config kepco contractId yearMonth body evs' ↔
      ∀ bill ∈ body.data, bill.Fits yearMonth := by
  cases h with
  | unanswered hbefore =>
    -- the response had no data
    have hdata : body.data = none := by
      obtain hfalse | ⟨_, _, e, heq⟩ := hbefore _ hanswer
      · exact hfalse.elim
      · cases hdata : body.data with
        | none => rfl
        | some bill =>
          unfold resultOf at heq
          rw [hdata] at heq
          cases heq
    have hsilent : ∀ (op : Call) (r : Except String op.Res), ¬ BeforeUsage op →
        (∀ contractId yearMonth, op ≠ .getMonthlyUsage contractId yearMonth) →
        (⟨.inl op, r⟩ : Event kepcoCalls String) ∉ evs' := by
      intro op r hop hget hmem
      obtain hfalse | ⟨_, _, e, heq⟩ := hbefore _ (mem_of_mem_inl hexp hmem)
      · exact hop hfalse
      · cases heq
        exact hget _ _ rfl
    constructor
    · intro _ bill hbill
      rw [hdata] at hbill
      cases hbill
    · intro _
      exact ⟨fun tx res hmem => absurd hmem (hsilent _ _ id nofun),
        fun draft res hmem => absurd hmem (hsilent _ _ id nofun)⟩
  | @answered first rest usage hfirst hrest hsaved =>
    have hbill : ∃ bill, body.data = some bill ∧
        usage = mapOpmBillToMonthlyUsage kepco contractId bill := by
      rcases List.mem_append.mp hanswer with hmem | hmem
      · exact (hfirst _ hmem).elim
      rcases List.mem_cons.mp hmem with heq | hmem
      · cases hdata : body.data with
        | none =>
          unfold resultOf at heq
          rw [hdata] at heq
          cases heq
        | some bill =>
          unfold resultOf at heq
          rw [hdata] at heq
          cases heq
          exact ⟨bill, rfl, rfl⟩
      · exact (hrest _ hmem).elim
    obtain ⟨bill, hdata, rfl⟩ := hbill
    constructor
    · intro hbound bill' hbill'
      -- the record that is saved is of a bill that fits
      obtain ⟨draft, res, hmem⟩ := hsaved
      obtain ⟨bill'', hbill'', hfits, -⟩ := hbound.stored draft res
        (mem_inl_of_mem hexp nofun (List.mem_append_right _ (List.mem_cons_of_mem _ hmem)))
      rwa [Option.mem_unique hbill' hbill'']
    · intro hfits
      exact ⟨fun tx res hmem => ⟨bill, hdata, hfits bill hdata,
          afterUsage_of_mem hexp hfirst hrest hmem id nofun⟩,
        fun draft res hmem => ⟨bill, hdata, hfits bill hdata,
          afterUsage_of_mem hexp hfirst hrest hmem id nofun⟩⟩

/-- Whatever the power company answers, with any bill, and whatever the other calls answer:
    payments and records are those of the bill, and of the month that was asked for with an amount
    to pay, if and only if the bill of the response is. -/
theorem month_bound {x : Except String Reconciliation} {req : HttpCall} {body : OpmBillResponse}
    (h : Traces (reconcileContract config kepco contractId yearMonth) evs' x)
    (hbody : (⟨.inr req, .ok body⟩ : Event kepcoCalls String) ∈ evs')
    (hsuccess : body.result = "SUCCESS") :
    MonthBound config kepco contractId yearMonth body evs' ↔
      ∀ bill ∈ body.data, bill.Fits yearMonth := by
  unfold reconcileContract at h
  obtain ⟨evs, htraces, hexp⟩ := traces_interp.mp h
  obtain ⟨contractId', yearMonth', hanswer⟩ := answer_of_mem hsuccess hexp hbody
  exact monthBound_iff (traces_reconcileContract htraces) hexp hanswer

/-! ## Two responses -/

/-- The power company answers as the environment chooses. -/
def httpWorld : World httpCalls String Unit (Except String OpmBillResponse) where
  allow := fun _ _ _ => true
  serve := fun _ c s => (c, s)

def sampleKepco : KepcoConfig where
  kepcoApiBaseUrl := some "https://opm-mock.test"
  kepcoApiKey := some "test-service-key"
  number := fun _ => none

/-- A bill of 24000 won. -/
def sampleBody (billYm : String) : OpmBillResponse where
  result := "SUCCESS"
  resultMsg := none
  data := some {
    billYm := billYm
    kwh := JsNumber.ofInt 200
    billAmt := JsNumber.ofInt 24000
    measureToDt := "20260420" }

/-- The response succeeds, with an amount for the month. -/
def answersMonth (billYm : String) : Event kepcoCalls String → Bool
  | ⟨.inr _, .ok body⟩ => body.result = "SUCCESS" && body.data.any fun bill =>
      bill.billYm = billYm && isNonNegativeInteger bill.billAmt
  | _ => false

def isSubmission : Event kepcoCalls String → Bool
  | ⟨.inl (.submitAndWait _), _⟩ => true
  | _ => false

/-- The contract is settled for 2026-04; the bill is of the month `billYm`, and it is paid. -/
theorem paid_sampleBody (billYm : String) (h : (exec (world.sum httpWorld)
      (reconcileContract sampleConfig sampleKepco "c1" "2026-04")
      [({}, .error ""), ({}, .error ""), ({}, .ok (sampleBody billYm)),
        (sampleSuccess, .error ""), ({}, .error "")] [] (sampleStore, ())).any
      (fun r => r.1.any (answersMonth billYm) && r.1.any isSubmission) = true) :
    ∃ evs x req body bill tx res,
      Traces (reconcileContract sampleConfig sampleKepco "c1" "2026-04") evs x ∧
      (⟨.inr req, .ok body⟩ : Event kepcoCalls String) ∈ evs ∧ body.result = "SUCCESS" ∧
      body.data = some bill ∧ bill.billYm = billYm ∧ isNonNegativeInteger bill.billAmt = true ∧
      (⟨.inl (.submitAndWait tx), res⟩ : Event kepcoCalls String) ∈ evs := by
  rw [Option.any_eq_true] at h
  obtain ⟨⟨l, x, s⟩, hexec, hany⟩ := h
  obtain ⟨evs, hlog, htraces⟩ := Traces.of_exec hexec
  simp only [Bool.and_eq_true, List.any_eq_true] at hany
  obtain ⟨⟨ev, hev, hanswers⟩, ev', hev', hpaid⟩ := hany
  rw [hlog, List.append_nil, List.mem_reverse] at hev hev'
  unfold answersMonth at hanswers
  unfold isSubmission at hpaid
  -- the sample is read off the checks: an answer for another month, and a payment
  split at hanswers
  · rename_i req body
    split at hpaid
    · rename_i tx res
      simp only [Bool.and_eq_true, decide_eq_true_eq, Option.any_eq_true] at hanswers
      obtain ⟨hsuccess, bill, hbill, hmonth, hamount⟩ := hanswers
      exact ⟨evs, x, req, body, bill, tx, res, htraces, hev, hsuccess, hbill, hmonth, hamount, hev'⟩
    · cases hpaid
  · cases hanswers

/-- The bill is of the requested month. -/
theorem month_bound_april :
    ∃ evs x body tx res, Traces (reconcileContract sampleConfig sampleKepco "c1" "2026-04") evs x ∧
      (⟨.inl (.submitAndWait tx), res⟩ : Event kepcoCalls String) ∈ evs ∧
      MonthBound sampleConfig sampleKepco "c1" "2026-04" body evs := by
  obtain ⟨evs, x, req, body, bill, tx, res, htraces, hbody, hsuccess, hbill, hmonth, hamount, htx⟩ :=
    paid_sampleBody "202604" (by decide +kernel)
  refine ⟨evs, x, body, tx, res, htraces, htx, (month_bound htraces hbody hsuccess).mpr ?_⟩
  intro bill' hbill'
  rw [Option.mem_unique hbill' hbill]
  refine ⟨?_, hamount⟩
  unfold OpmBillData.yearMonth
  rw [hmonth]
  decide

/-- The bill is of the month before, and it is paid as the bill of the requested month. -/
theorem bill_of_other_month_paid :
    ¬ ∀ (config : Config) (kepco : KepcoConfig) (contractId yearMonth : String)
      (evs : List (Event kepcoCalls String)) (x : Except String Reconciliation) (req : HttpCall)
      (body : OpmBillResponse), Traces (reconcileContract config kepco contractId yearMonth) evs x →
      (⟨.inr req, .ok body⟩ : Event kepcoCalls String) ∈ evs → body.result = "SUCCESS" →
      MonthBound config kepco contractId yearMonth body evs := by
  intro h
  obtain ⟨evs, x, req, body, bill, tx, res, htraces, hbody, hsuccess, hbill, hmonth, -, htx⟩ :=
    paid_sampleBody "202603" (by decide +kernel)
  have hbound := h _ _ _ _ _ _ _ _ htraces hbody hsuccess
  obtain ⟨bill', hbill', ⟨hfits, -⟩, -⟩ := hbound.paid tx res htx
  rw [Option.mem_unique hbill' hbill] at hfits
  unfold OpmBillData.yearMonth at hfits
  rw [hmonth] at hfits
  revert hfits
  decide

end Bluesafe.Kepco
