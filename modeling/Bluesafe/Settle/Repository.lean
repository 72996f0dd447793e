import Bluesafe.Settle.Types
import Bluesafe.ForStd.Table
import Bluesafe.Async.Pool

/-!
# The calls of the settlement

What the reconciler reads or changes outside its own memory: the two repositories, the
power company, the XRP ledger, the retry queue, the mailer and the clock. `Store` keeps
the rows, the queued jobs and the payments the ledger has applied; a `Choice` is what the
environment decides at a call.

A rejected call may have taken effect. For `submitAndWait` this is the timeout after which
the ledger applies the payment all the same; an answer with a transaction result, on the
other hand, tells whether the payment was applied (`Choice.paid`).
-/

namespace Bluesafe.Settle

open Bluesafe.Ops (Time)

/-- The awaited calls. -/
inductive Call
  | clock
  | findMatched (contractId yearMonth : String)
  | countRecords (yearMonth : String)
  | saveRecord (draft : ReconciliationDraft)
  | updateReportSentAt (id : String) (reportSentAt : Time)
  | findContract (id : String)
  | findLockedContracts
  | getMonthlyUsage (contractId yearMonth : String)
  | submitAndWait (tx : Payment)
  | addRetryJob (job : XrplTxRetryJob)
  | sendEmail (message : EmailMessage)

/-- The answer type of each call. -/
@[reducible] def Call.Res : Call → Type
  | .clock => Time
  | .findMatched _ _ => Option Reconciliation
  | .countRecords _ => Nat
  | .saveRecord _ => Reconciliation
  | .updateReportSentAt _ _ => Unit
  | .findContract _ => Option ContractRow
  | .findLockedContracts => List ContractRow
  | .getMonthlyUsage _ _ => MonthlyUsage
  | .submitAndWait _ => PaymentResponse
  | .addRetryJob _ => Unit
  | .sendEmail _ => Unit

/-- The interface of the settlement's programs. -/
@[reducible] def calls : Interface := ⟨Call, Call.Res⟩

/-- An `async` function of the settlement; a rejection carries the error message. -/
abbrev SettleM (α : Type) : Type := Async calls String α

/-- The calls one trigger has made, newest first. -/
abbrev SettleLog : Type := Log calls String

/-- Await one call. -/
abbrev invoke (op : Call) : SettleM op.Res := Async.call (I := calls) op

/-! ## The store -/

/-- The rows, the queue, the sent mails and the applied payments. `records` has no unique key
    besides the generated id, so a save always adds a row. Lists are newest first. -/
structure Store where
  contracts : Table ContractRow.id
  records : List Reconciliation
  jobs : List XrplTxRetryJob
  emails : List EmailMessage
  ledger : List Payment

/-- What the environment decides at a call. -/
structure Choice where
  failure : Option String := none
  /-- Whether a call without a conclusive answer took effect. -/
  applied : Bool := false
  now : Time := 0
  id : String := ""
  usage : MonthlyUsage := ⟨"", "", ⟨"0"⟩, ⟨"0"⟩, none⟩
  response : PaymentResponse := ⟨"", none⟩

/-- Whether the ledger applies the payment of a submission. -/
def Choice.paid (c : Choice) : Bool :=
  match c.failure, c.response.transactionResult with
  | none, some result => result = "tesSUCCESS"
  | _, _ => c.applied

/-- The row `recordRepo.save` inserts. -/
def ReconciliationDraft.toRow (draft : ReconciliationDraft) (id : String) (createdAt : Time) :
    Reconciliation where
  toReconciliationDraft := draft
  id := id
  reportSentAt := none
  createdAt := createdAt

/-- The row is the `Matched` record of the contract and month. -/
def Reconciliation.isMatched (contractId yearMonth : String) (r : Reconciliation) : Bool :=
  r.contractId = contractId && r.yearMonth = yearMonth && r.status = .matched

/-- `UPDATE ... SET reportSentAt` of the row with the given id. -/
def Reconciliation.withReportSentAt (id : String) (t : Time) (r : Reconciliation) :
    Reconciliation :=
  if r.id = id then { r with reportSentAt := some t } else r

/-- The answer and the effect of a call that is not rejected. -/
def perform : (op : Call) → Choice → Store → op.Res × Store
  | .clock, c, s => (c.now, s)
  | .findMatched contractId yearMonth, _, s =>
    (s.records.find? (Reconciliation.isMatched contractId yearMonth), s)
  | .countRecords yearMonth, _, s =>
    (s.records.countP fun r => decide (r.yearMonth = yearMonth), s)
  | .saveRecord draft, c, s =>
    (draft.toRow c.id c.now, { s with records := draft.toRow c.id c.now :: s.records })
  | .updateReportSentAt id t, _, s =>
    ((), { s with records := s.records.map (Reconciliation.withReportSentAt id t) })
  | .findContract id, _, s => (s.contracts.get? id, s)
  | .findLockedContracts, _, s =>
    (s.contracts.rows.filter fun c => decide (c.status = .locked), s)
  | .getMonthlyUsage _ _, c, s => (c.usage, s)
  | .submitAndWait tx, c, s =>
    (c.response, if c.paid then { s with ledger := tx :: s.ledger } else s)
  | .addRetryJob job, _, s => ((), { s with jobs := job :: s.jobs })
  | .sendEmail message, _, s => ((), { s with emails := message :: s.emails })

/-- The answer to a call, rejected or not. -/
def serve (op : Call) (c : Choice) (s : Store) : Except String op.Res × Store :=
  match c.failure with
  | none => (.ok (perform op c s).1, (perform op c s).2)
  | some e => (.error e, if c.applied then (perform op c s).2 else s)

/-- A call takes effect, or it is rejected before. -/
theorem serve_state (op : Call) (c : Choice) (s : Store) :
    (c.failure = none ∨ c.applied = true) ∧ (serve op c s).2 = (perform op c s).2 ∨
      (c.failure ≠ none ∧ c.applied = false) ∧ (serve op c s).2 = s := by
  unfold serve
  cases hfail : c.failure with
  | none => exact .inl ⟨.inl rfl, rfl⟩
  | some e =>
    cases happlied : c.applied with
    | true => exact .inl ⟨.inr rfl, rfl⟩
    | false => exact .inr ⟨⟨nofun, rfl⟩, rfl⟩

/-- Any call but the clock may be rejected. -/
def world : World calls String Store Choice where
  allow := fun op c _ =>
    match op with
    | .clock => c.failure.isNone
    | _ => true
  serve := serve

end Bluesafe.Settle
