import Bluesafe.Async.Expands
import Bluesafe.ForStd.NumberText
import Bluesafe.Settle.Reconciler

/-!
# The client of the power company

`KepcoApiClient` (`reconciler/kepco/kepco-api-client.ts`) and its mapper
(`opm-response.mapper.ts`), and the reconciler that is given this client. The numbers of a
response body are finite, as in every JSON text. Log lines are left out, and so are the fields of
a response that nothing reads.
-/

namespace Bluesafe.Kepco

open Async
open Bluesafe.Ops (truthy trim slice)
open Bluesafe.Settle hiding JsNumber

/-! ## Responses -/

/-- `OpmBillData`: the fields that the mapper reads. -/
structure OpmBillData where
  billYm : String
  kwh : JsNumber
  billAmt : JsNumber
  measureToDt : String

/-- `OpmBillResponse`. A response that failed need not have data. -/
structure OpmBillResponse where
  result : String
  resultMsg : Option String
  data : Option OpmBillData

/-- The settings of the client, and `Number(s)` with its fraction dropped (`none` for `NaN`). -/
structure KepcoConfig where
  kepcoApiBaseUrl : Option String
  kepcoApiKey : Option String
  number : String → Option Int

/-! ## Dates -/

/-- The day of a date in the Gregorian calendar, counted from 1970-01-01. Months count from 0, and
    a month or a day outside its range moves the date. -/
def makeDay (year month day : Int) : Int :=
  let m := month % 12
  -- years begin in March, eras of 400 years with them
  let y := year + month / 12 - (if m < 2 then 1 else 0)
  let doy := (153 * ((m + 10) % 12) + 2) / 5 + day - 1
  y / 400 * 146097 + (y % 400 * 365 + y % 400 / 4 - y % 400 / 100) + doy - 719468

/-- `Date.UTC(year, month, day)` as a day; `none` outside the range of a `Date`. -/
def dateUtc (year month day : Int) : Option Int :=
  let d := makeDay (if 0 ≤ year ∧ year ≤ 99 then 1900 + year else year) month day
  if d.natAbs ≤ 100000000 then some d else none

/-- A number with at least `width` digits. -/
def padded (width n : Nat) : String :=
  let digits := (toString n).toList
  String.ofList (List.replicate (width - digits.length) '0' ++ digits)

/-- `toISOString` of the first instant of a day. -/
def isoOfDay (d : Int) : String :=
  let z := d + 719468
  let doe := z % 146097
  let yoe := (doe - doe / 1460 + doe / 36524 - doe / 146096) / 365
  let doy := doe - (365 * yoe + yoe / 4 - yoe / 100)
  let mp := (5 * doy + 2) / 153
  let day := doy - (153 * mp + 2) / 5 + 1
  let month := if mp < 10 then mp + 3 else mp - 9
  let year := yoe + z / 146097 * 400 + if month ≤ 2 then 1 else 0
  (if year < 0 then "-" ++ padded 6 year.natAbs
    else if year ≤ 9999 then padded 4 year.natAbs
    else "+" ++ padded 6 year.natAbs) ++
    "-" ++ padded 2 month.natAbs ++ "-" ++ padded 2 day.natAbs ++ "T00:00:00.000Z"

/-- `parseYyyymmdd`, as the text of the date; `none` for an invalid one. -/
def parseYyyymmdd (number : String → Option Int) (yyyymmdd : String) : Option String := do
  let year ← number (slice 0 4 yyyymmdd)
  let month ← number (slice 4 6 yyyymmdd)
  let day ← number (slice 6 8 yyyymmdd)
  isoOfDay <$> dateUtc year (month - 1) day

example : (dateUtc 2026 3 20).map isoOfDay = some "2026-04-20T00:00:00.000Z" := by decide +kernel

-- A month that the calendar does not have, and a year of two digits.
example : (dateUtc 26 12 31).map isoOfDay = some "1927-01-31T00:00:00.000Z" := by decide +kernel

/-! ## The mapper -/

/-- The month of a bill, `YYYYMM`, as `YYYY-MM`. -/
def OpmBillData.yearMonth (bill : OpmBillData) : String :=
  slice 0 4 bill.billYm ++ "-" ++ slice 4 6 bill.billYm

/-- `mapOpmBillToMonthlyUsage`. -/
def mapOpmBillToMonthlyUsage (config : KepcoConfig) (contractId : String) (bill : OpmBillData) :
    MonthlyUsage where
  contractId := contractId
  yearMonth := bill.yearMonth
  usageKwh := ⟨String.ofList bill.kwh.text⟩
  chargeKrw := ⟨String.ofList bill.billAmt.text⟩
  meterReadingDate := parseYyyymmdd config.number bill.measureToDt

/-! ## The client -/

/-- `http.get`, with the query of the bill; an answer is the body of a response. -/
inductive HttpCall
  | get (url serviceKey custNo billYm : String) (timeout : Nat)

/-- The interface of the HTTP service. -/
@[reducible] def httpCalls : Interface := ⟨HttpCall, fun _ => OpmBillResponse⟩

/-- `s.replace('-', '')`: the first hyphen goes. -/
def removeHyphen (s : String) : String := String.ofList (s.toList.erase '-')

/-- `getMonthlyUsage`. -/
def getMonthlyUsage (config : KepcoConfig) (contractId yearMonth : String) :
    Async httpCalls String MonthlyUsage := do
  match truthy config.kepcoApiBaseUrl, truthy config.kepcoApiKey with
  | some baseUrl, some serviceKey =>
    let body ← call (I := httpCalls)
      (.get (baseUrl ++ "/bill") serviceKey contractId (removeHyphen yearMonth) 10000)
    if body.result ≠ "SUCCESS" then
      throw (trim ("OPM bill API 실패: " ++ body.result ++ " " ++ body.resultMsg.getD ""))
    else
      match body.data with
      | some bill => return mapOpmBillToMonthlyUsage config contractId bill
      | none => throw "Cannot read properties of undefined (reading 'billYm')"
  | _, _ =>
    throw ("KEPCO_API_BASE_URL/KEPCO_API_KEY 미설정 — KepcoApiClient 호출 불가. " ++
      "KEPCO_USE_MOCK=true로 mock 전환 가능.")

/-! ## The reconciler with its client -/

/-- The calls of the settlement with those of the client. -/
abbrev kepcoCalls : Interface := calls.sum httpCalls

/-- The client in place of the power company; the other calls are as they are. -/
def withClient (config : KepcoConfig) : (op : Call) → Async kepcoCalls String op.Res
  | .getMonthlyUsage contractId yearMonth => inr (getMonthlyUsage config contractId yearMonth)
  | op => inl (invoke op)

/-- `reconcileContract` with `KepcoApiClient` as its client. -/
def reconcileContract (config : Config) (kepco : KepcoConfig) (contractId yearMonth : String) :
    Async kepcoCalls String Reconciliation :=
  interp (withClient kepco) (Settle.reconcileContract config contractId yearMonth)

end Bluesafe.Kepco
