import Bluesafe.Settle.Reconciler
import Bluesafe.Async.Safe

/-!
# At most one payment for a contract and month

A payment belongs to a contract and a month through its memo (`Payment.settles`), which
names both. The reconciler looks for a `Matched` record, pays, and writes the record:
three calls, with nothing that keeps another trigger out in between. The ledger gets a
second payment for the same month when the month is paid between the look-up and the
payment of a trigger, when a trigger pays between the payment and the record of another
one, when the record of a payment is not stored, and when a payment is applied whose
submission failed. `PaysCleanly` excludes exactly these steps, and `one_payment_per_month`
shows that nothing else goes wrong.

The proof follows one payment: its trigger has looked for the record and has not found it
(`Missed`); as long as the record is not stored, the payment is the newest call of that
trigger (`Unrecorded`), and the next call is the save.
-/

namespace Bluesafe.Settle

open Async Transition

/-! ## Payments and their month -/

/-- The memo of the payment names the contract and the month. -/
def Payment.settles (tx : Payment) (contractId yearMonth : String) : Prop :=
  ∃ payload memo, buildReconcileMemo payload = .ok memo ∧ payload.contractId = contractId ∧
    payload.yearMonth = yearMonth ∧ tx.memos = [memo]

/-- Payloads of different contracts or months have different texts. -/
theorem json_inj {p p' : ReconcileMemoPayload} (h : p.json = p'.json) :
    p.contractId = p'.contractId ∧ p.yearMonth = p'.yearMonth := by
  have hmembers := Text.object_inj h
  obtain ⟨hcontract, hrest⟩ := Text.members_cons_inj hmembers
  obtain ⟨hmonth, -⟩ := Text.members_cons_inj hrest
  exact ⟨hcontract, hmonth⟩

/-- The memo holds its payload in hexadecimal. -/
theorem memoData_of_build {payload : ReconcileMemoPayload} {memo : ReconcileMemo}
    (h : buildReconcileMemo payload = .ok memo) : memo.memoData = Text.hexOf payload.json := by
  simp only [buildReconcileMemo] at h
  split at h
  · exact nomatch h
  · simp only [Except.ok.injEq] at h
    rw [← h]

/-- A payment settles one contract and month only. -/
theorem settles_unique {tx : Payment} {contractId yearMonth contractId' yearMonth' : String}
    (h : tx.settles contractId yearMonth) (h' : tx.settles contractId' yearMonth') :
    contractId = contractId' ∧ yearMonth = yearMonth' := by
  obtain ⟨p, memo, hbuild, hcontract, hmonth, hmemos⟩ := h
  obtain ⟨p', memo', hbuild', hcontract', hmonth', hmemos'⟩ := h'
  have hmemo : memo = memo' := by
    rw [hmemos, List.cons.injEq] at hmemos'
    exact hmemos'.1
  have hdata : Text.hexOf p.json = Text.hexOf p'.json := by
    rw [← memoData_of_build hbuild, ← memoData_of_build hbuild', hmemo]
  obtain ⟨hc, hm⟩ := json_inj (Text.hexOf_inj hdata)
  exact ⟨by rw [← hcontract, hc, hcontract'], by rw [← hmonth, hm, hmonth']⟩

/-! ## The order of the calls -/

/-- The trigger has looked for the `Matched` record of the contract and month in vain. -/
def Missed (l : SettleLog) (contractId yearMonth : String) : Prop :=
  (⟨.findMatched contractId yearMonth, .ok none⟩ : Event calls String) ∈ l

/-- The newest call of the log is a submission of `tx` that was answered with success. -/
def Unrecorded (l : SettleLog) (tx : Payment) : Prop :=
  ∃ response rest, l = ⟨.submitAndWait tx, .ok response⟩ :: rest ∧
    response.transactionResult = some "tesSUCCESS"

/-- No payment of the log waits for its record. -/
def Recorded (l : SettleLog) : Prop :=
  ∀ tx, ¬ Unrecorded l tx

/-- The monitor: a payment is submitted after its record was looked for in vain, and a
    payment that waits for its record gets it with the next call. -/
structure InOrder (l : SettleLog) (op : Call) : Prop where
  looked : ∀ tx, op = .submitAndWait tx → ∃ contractId yearMonth,
    tx.settles contractId yearMonth ∧ Missed l contractId yearMonth
  records : ∀ tx, Unrecorded l tx → ∃ draft, op = .saveRecord draft ∧
    draft.status = .matched ∧ tx.settles draft.contractId draft.yearMonth

/-- Without calls everything paid is recorded. -/
theorem recorded_nil : Recorded [] := by
  rintro tx ⟨response, rest, hl, -⟩
  exact nomatch hl

/-- After any call but a submission nothing waits. -/
theorem recorded_cons {l : SettleLog} {op : Call} (r : Except String op.Res)
    (hop : ∀ tx, op ≠ .submitAndWait tx) : Recorded (⟨op, r⟩ :: l) := by
  rintro tx ⟨response, rest, hl, -⟩
  rw [List.cons.injEq] at hl
  exact hop tx (congrArg Event.op hl.1)

/-- After a submission that failed nothing waits. -/
theorem recorded_of_rejected {l : SettleLog} {tx : Payment} (e : String) :
    Recorded (⟨.submitAndWait tx, .error e⟩ :: l) := by
  rintro tx' ⟨response, rest, hl, -⟩
  rw [List.cons.injEq] at hl
  cases hl.1

/-- A payment that fails need not be recorded. -/
theorem recorded_of_unsuccessful {l : SettleLog} {tx : Payment} {response : PaymentResponse}
    (h : response.transactionResult ≠ some "tesSUCCESS") :
    Recorded (⟨.submitAndWait tx, .ok response⟩ :: l) := by
  rintro tx' ⟨response', rest, hl, hsuccess⟩
  rw [List.cons.injEq] at hl
  cases hl.1
  exact h hsuccess

/-- The rule for a result that may be an error. -/
theorem wp_orThrow {α γ : Type} {Φ : CallSpec calls String γ} {Q : α → γ → Prop}
    {E : String → γ → Prop} (r : Except String α) : wp Φ (orThrow r) Q E = post Q E r := by
  cases r with
  | ok a => rfl
  | error e => rfl

/-- The program leaves no payment without its record, whether it returns or throws. -/
def Tidy {α : Type} (p : SettleM α) (l : SettleLog) : Prop :=
  wp (monitor InOrder) p (fun _ l' => Recorded l') (fun _ l' => Recorded l') l

namespace Tidy

variable {α β : Type} {l : SettleLog}

/-- A value pays nothing. -/
theorem pure {a : α} (hl : Recorded l) : Tidy (Pure.pure a) l := hl

/-- Nor does an error. -/
theorem throw {e : String} (hl : Recorded l) : Tidy (MonadExcept.throw e : SettleM α) l := hl

/-- Any call but a submission, with a record for the payment that waits. -/
theorem call_next {op : Call} (hop : ∀ tx, op ≠ .submitAndWait tx)
    (hrecords : ∀ tx, Unrecorded l tx → ∃ draft, op = .saveRecord draft ∧
      draft.status = .matched ∧ tx.settles draft.contractId draft.yearMonth) :
    Tidy (invoke op) l := by
  refine ⟨⟨fun tx htx => absurd htx (hop tx), hrecords⟩, fun r => ?_⟩
  cases r with
  | ok a => exact recorded_cons (.ok a) hop
  | error e => exact recorded_cons (.error e) hop

/-- Any call but a submission, when nothing waits. -/
theorem call {op : Call} (hop : ∀ tx, op ≠ .submitAndWait tx) (hl : Recorded l) :
    Tidy (invoke op) l :=
  call_next hop fun tx htx => absurd htx (hl tx)

/-- Sequencing: the rest runs from a longer log. -/
theorem bind_grows {p : SettleM α} {f : α → SettleM β} (hp : Tidy p l)
    (hf : ∀ a l', l <:+ l' → Recorded l' → Tidy (f a) l') : Tidy (p >>= f) l := by
  have hgrow := wp_monitor_grows (List.suffix_refl l) hp
  unfold Tidy
  rw [wp_bind]
  exact wp_mono _ _ (monitor_mono InOrder) (fun a l' hq => hf a l' hq.2 hq.1)
    (fun _ _ hq => hq.1) hgrow

/-- One program after the other. -/
theorem bind {p : SettleM α} {f : α → SettleM β} (hp : Tidy p l)
    (hf : ∀ a l', Recorded l' → Tidy (f a) l') : Tidy (p >>= f) l :=
  bind_grows hp fun a l' _ => hf a l'

/-- A call but a submission, when nothing waits: the rest finds its answer in the log. -/
theorem call_read {op : Call} {f : op.Res → SettleM β} (hop : ∀ tx, op ≠ .submitAndWait tx)
    (hl : Recorded l)
    (hf : ∀ a l', (⟨op, .ok a⟩ : Event calls String) ∈ l' → Recorded l' → Tidy (f a) l') :
    Tidy (invoke op >>= f) l := by
  unfold Tidy
  rw [wp_bind]
  refine ⟨⟨fun tx htx => absurd htx (hop tx), fun tx htx => absurd htx (hl tx)⟩, fun r => ?_⟩
  cases r with
  | ok a => exact hf a _ List.mem_cons_self (recorded_cons (.ok a) hop)
  | error e => exact recorded_cons (.error e) hop

/-- The result is of no account. -/
theorem map {p : SettleM α} {f : α → β} (hp : Tidy p l) : Tidy (f <$> p) l := by
  unfold Tidy
  rw [wp_map]
  exact hp

/-- A handler begins where everything paid is recorded. -/
theorem tryCatch {p : SettleM α} {h : String → SettleM α} (hp : Tidy p l)
    (hh : ∀ e l', Recorded l' → Tidy (h e) l') : Tidy (MonadExcept.tryCatch p h) l := by
  unfold Tidy
  rw [wp_tryCatch]
  exact wp_mono _ _ (monitor_mono InOrder) (fun _ _ h => h) (fun e l' hl' => hh e l' hl') hp

/-- A result that may be an error pays nothing. -/
theorem orThrow {r : Except String α} (hl : Recorded l) : Tidy (orThrow r) l := by
  cases r with
  | ok a => exact hl
  | error e => exact hl

/-- A loop, one element after the other. -/
theorem forM {xs : List α} {f : α → SettleM PUnit} (hl : Recorded l)
    (hf : ∀ x l', Recorded l' → Tidy (f x) l') : Tidy (ForM.forM xs f) l :=
  wp_forM_inv _ (monitor_mono InOrder) xs f (fun x _ l' hl' => hf x l' hl') l hl

end Tidy

/-! ## The reconciler records its payments -/

section Programs

variable {config : Config} {l : SettleLog}

/-- A submission that succeeded is the newest call, with the memos of its parameters; after
    anything else nothing waits. -/
theorem submitXrpPayment_wp {params : SubmitXrpPaymentParams} (hl : Recorded l)
    (hlooked : ∀ tx : Payment, tx.memos = params.memos → ∃ contractId yearMonth,
      tx.settles contractId yearMonth ∧ Missed l contractId yearMonth) :
    wp (monitor InOrder) (submitXrpPayment config params)
      (fun _ l' => ∀ tx, Unrecorded l' tx → tx.memos = params.memos)
      (fun _ l' => Recorded l') l := by
  unfold submitXrpPayment
  rw [wp_bind, wp_orThrow]
  -- no wallet, an amount that is refused, no memo: nothing is paid
  cases config.walletFromSeed params.sourceSeed with
  | error e => exact hl
  | ok classicAddress =>
    rw [post_ok]
    split
    · exact hl
    · split
      · exact hl
      · rw [wp_bind]
        refine ⟨⟨fun tx htx => ?_, fun tx htx => absurd htx (hl tx)⟩, fun r => ?_⟩
        · cases htx
          exact hlooked _ rfl
        -- rejected, or answered without a success: nothing has to be recorded
        cases r with
        | error e => exact recorded_of_rejected e
        | ok response =>
          rw [post_ok, wp_done, wp_orThrow]
          unfold assertPaymentSuccess
          split
          · rename_i hnone
            exact recorded_of_unsuccessful (by rw [hnone]; exact nofun)
          · rename_i result hresult
            split
            · rename_i hfailed
              refine recorded_of_unsuccessful ?_
              rw [hresult, ne_eq, Option.some.injEq]
              exact hfailed
            · -- applied: the payment is unrecorded until the row is saved
              rintro tx ⟨response', rest, heq, -⟩
              rw [List.cons.injEq] at heq
              cases heq.1
              rfl

/-- A payment that succeeded settles the contract and month its memo was built for. -/
theorem paySettlement_wp {contract : ContractDto}
    {seed address contractId yearMonth usageHash : String} {usage : MonthlyUsage}
    (hl : Recorded l) (hmissed : Missed l contractId yearMonth) :
    wp (monitor InOrder)
      (paySettlement config contract seed address contractId yearMonth usageHash usage)
      (fun _ l' => ∀ tx, Unrecorded l' tx → tx.settles contractId yearMonth)
      (fun _ l' => Recorded l') l := by
  unfold paySettlement
  -- the memo is built first, and its size decides
  rw [wp_bind, wp_orThrow]
  cases hbuild : buildReconcileMemo (settlementPayload contractId yearMonth usageHash usage) with
  | error e => exact hl
  | ok memo =>
    rw [post_ok]
    -- the payment carries that memo alone
    have hsettles : ∀ tx : Payment, tx.memos = [memo] → tx.settles contractId yearMonth :=
      fun tx hmemos => ⟨_, memo, hbuild, rfl, rfl, hmemos⟩
    refine wp_mono _ _ (monitor_mono InOrder) ?_ (fun _ _ h => h) (submitXrpPayment_wp hl ?_)
    · intro txHash l' hmemos tx htx
      exact hsettles tx (hmemos tx htx)
    · intro tx hmemos
      exact ⟨contractId, yearMonth, hsettles tx hmemos, hmissed⟩

/-- The look-up of a contract pays nothing. -/
theorem settleableContract_tidy (contractId : String) (hl : Recorded l) :
    Tidy (settleableContract config contractId) l := by
  unfold settleableContract
  -- the contract is read, and must be one of those to settle
  refine Tidy.bind (Tidy.call (fun _ => nofun) hl) fun found l₁ hl₁ => ?_
  cases found with
  | none => exact Tidy.throw hl₁
  | some row =>
    refine Tidy.bind (Tidy.orThrow hl₁) fun contract l₂ hl₂ => ?_
    split
    · exact Tidy.throw hl₂
    · split
      · exact Tidy.pure hl₂
      · exact Tidy.throw hl₂

/-- Nor does its report. -/
theorem sendMonthlyReportSafely_tidy {recordId : String} {contract : ContractDto}
    {yearMonth : String} {usage : MonthlyUsage} {paymentTxHash : String} (hl : Recorded l) :
    Tidy (sendMonthlyReportSafely config recordId contract yearMonth usage paymentTxHash) l := by
  unfold sendMonthlyReportSafely
  split
  · exact Tidy.pure hl
  · refine Tidy.tryCatch ?_ fun _ l₁ hl₁ => Tidy.pure hl₁
    refine Tidy.bind (Tidy.call (fun _ => nofun) hl) fun _ l₁ hl₁ => ?_
    refine Tidy.bind (Tidy.call (fun _ => nofun) hl₁) fun now l₂ hl₂ => ?_
    exact Tidy.call (fun _ => nofun) hl₂

/-- The record is saved first; it is matched when a payment waits for it. -/
theorem recordAttempt_tidy {contract : ContractDto} {contractId yearMonth usageHash : String}
    {usage : MonthlyUsage} {outcome : Except String String}
    (hwait : ∀ tx, Unrecorded l tx → (∃ h, outcome = .ok h) ∧ tx.settles contractId yearMonth) :
    Tidy (recordAttempt config contract contractId yearMonth usageHash usage outcome) l := by
  -- the record is written whatever the payment has done
  unfold recordAttempt
  refine Tidy.bind (Tidy.call_next (fun _ => nofun) fun tx htx => ?_) fun record l₁ hl₁ => ?_
  · obtain ⟨⟨h, rfl⟩, hsettles⟩ := hwait tx htx
    exact ⟨_, rfl, rfl, hsettles⟩
  · cases outcome with
    | error e => exact Tidy.throw hl₁
    | ok txHash =>
      -- only a payment that was made is reported
      dsimp only
      split
      · refine Tidy.bind (sendMonthlyReportSafely_tidy hl₁) fun _ l₂ hl₂ => ?_
        exact Tidy.pure hl₂
      · exact Tidy.pure hl₁

/-- `reconcileContract` pays after it has looked for the record, and saves the record right
    after the payment. -/
theorem reconcileContract_tidy (contractId yearMonth : String) (hl : Recorded l) :
    Tidy (reconcileContract config contractId yearMonth) l := by
  unfold reconcileContract
  refine Tidy.call_read (fun _ => nofun) hl fun found l₁ hfound hl₁ => ?_
  cases found with
  | some record => exact Tidy.pure hl₁
  | none =>
    refine Tidy.bind_grows (settleableContract_tidy contractId hl₁) fun c l₂ hgrow₂ hl₂ => ?_
    obtain ⟨contract, seed, address⟩ := c
    refine Tidy.bind_grows (Tidy.call (fun _ => nofun) hl₂) fun usage l₃ hgrow₃ hl₃ => ?_
    -- The answer to the look-up is still in the log when the payment is made.
    have hmissed : Missed l₃ contractId yearMonth := (hgrow₂.trans hgrow₃).mem hfound
    unfold Tidy
    dsimp only
    rw [wp_bind, wp_tryCatch, wp_map]
    refine wp_mono _ _ (monitor_mono InOrder) ?_ ?_ (paySettlement_wp hl₃ hmissed)
    · intro txHash l₄ hwait
      exact recordAttempt_tidy fun tx htx => ⟨⟨txHash, rfl⟩, hwait tx htx⟩
    · intro e l₄ hl₄
      rw [wp_pure]
      exact recordAttempt_tidy fun tx htx => absurd htx (hl₄ tx)

/-- A monthly run records each payment before the next. -/
theorem runMonthlyReconcile_tidy (yearMonth : String) (hl : Recorded l) :
    Tidy (runMonthlyReconcile config yearMonth) l := by
  unfold runMonthlyReconcile findAllLocked reconcileOrEnqueue
  refine Tidy.bind ?_ fun contracts l₁ hl₁ => ?_
  · refine Tidy.bind (Tidy.call (fun _ => nofun) hl) fun rows l₁ hl₁ => ?_
    exact Tidy.orThrow hl₁
  · refine Tidy.forM hl₁ fun contract l₂ hl₂ => ?_
    refine Tidy.tryCatch ?_ fun _ l₃ hl₃ => Tidy.call (fun _ => nofun) hl₃
    refine Tidy.bind (reconcileContract_tidy _ _ hl₂) fun _ l₃ hl₃ => ?_
    exact Tidy.pure hl₃

/-- So does a run by hand. -/
theorem runManual_tidy (dto : RunReconciliationDto) (hl : Recorded l) :
    Tidy (runManual config dto) l := by
  unfold runManual runManualReconcile
  -- the month of the request, or that of the clock
  split
  · exact Tidy.throw hl
  · refine Tidy.bind ?_ fun yearMonth l₁ hl₁ => ?_
    · unfold requestedMonth
      split
      · exact Tidy.pure hl
      · exact Tidy.map (Tidy.call (fun _ => nofun) hl)
    -- one contract, or all of them between two counts
    · split
      · refine Tidy.bind (reconcileContract_tidy _ _ hl₁) fun _ l₂ hl₂ => ?_
        exact Tidy.pure hl₂
      · refine Tidy.bind (Tidy.call (fun _ => nofun) hl₁) fun before l₂ hl₂ => ?_
        refine Tidy.bind (runMonthlyReconcile_tidy _ hl₂) fun _ l₃ hl₃ => ?_
        refine Tidy.bind (Tidy.call (fun _ => nofun) hl₃) fun after l₄ hl₄ => ?_
        exact Tidy.pure hl₄

/-- Every trigger makes its calls in order. -/
theorem handle_tidy (req : Trigger) : Tidy (handle config req) [] := by
  -- the three ways of starting it
  cases req with
  | cron =>
    refine Tidy.map ?_
    unfold monthlyCron
    refine Tidy.bind (Tidy.call (fun _ => nofun) recorded_nil) fun now l₁ hl₁ => ?_
    exact runMonthlyReconcile_tidy _ hl₁
  | manual dto => exact Tidy.map (runManual_tidy dto recorded_nil)
  | retry job =>
    refine Tidy.map ?_
    unfold process
    refine Tidy.bind (reconcileContract_tidy _ _ recorded_nil) fun _ l₁ hl₁ => ?_
    exact Tidy.pure hl₁

/-- Every trigger pays in order. -/
theorem handle_safe (config : Config) (req : Trigger) :
    Safe (I := calls) InOrder (handle config req) [] :=
  wp_mono _ _ (monitor_mono InOrder) (fun _ _ _ => trivial) (fun _ _ _ => trivial)
    (handle_tidy req)

end Programs

/-! ## The store -/

/-- A `Matched` record of the contract and month is stored. -/
def Store.HasMatched (s : Store) (contractId yearMonth : String) : Prop :=
  ∃ r ∈ s.records, r.isMatched contractId yearMonth = true

/-- Only a submission that the ledger applies adds a payment. -/
theorem ledger_serve (op : Call) (c : Choice) (s : Store) :
    (serve op c s).2.ledger = s.ledger ∨
      ∃ tx, op = .submitAndWait tx ∧ c.paid = true ∧ (serve op c s).2.ledger = tx :: s.ledger := by
  have hperform : (perform op c s).2.ledger = s.ledger ∨
      ∃ tx, op = .submitAndWait tx ∧ c.paid = true ∧
        (perform op c s).2.ledger = tx :: s.ledger := by
    -- the ledger grows by a payment that is applied, and by nothing else
    cases op with
    | submitAndWait tx =>
      simp only [perform]
      split
      · rename_i hpaid
        exact .inr ⟨tx, rfl, hpaid, rfl⟩
      · exact .inl rfl
    | _ => exact .inl rfl
  rcases serve_state op c s with ⟨-, heq⟩ | ⟨-, heq⟩ <;> rw [heq]
  · exact hperform
  · exact .inl rfl

/-- A stored `Matched` record stays: rows are only added, and an update keeps what makes a
    row matched. -/
theorem hasMatched_serve {s : Store} {contractId yearMonth : String}
    (h : s.HasMatched contractId yearMonth) (op : Call) (c : Choice) :
    (serve op c s).2.HasMatched contractId yearMonth := by
  have hperform : (perform op c s).2.HasMatched contractId yearMonth := by
    obtain ⟨r, hr, hmatched⟩ := h
    -- rows are added, or get the time of their report, which leaves them matched
    cases op with
    | saveRecord draft => exact ⟨r, List.mem_cons_of_mem _ hr, hmatched⟩
    | updateReportSentAt id t =>
      refine ⟨r.withReportSentAt id t, List.mem_map_of_mem hr, ?_⟩
      unfold Reconciliation.withReportSentAt
      split
      · exact hmatched
      · exact hmatched
    | submitAndWait tx =>
      simp only [perform]
      split
      · exact ⟨r, hr, hmatched⟩
      · exact ⟨r, hr, hmatched⟩
    | _ => exact ⟨r, hr, hmatched⟩
  rcases serve_state op c s with ⟨-, heq⟩ | ⟨-, heq⟩ <;> rw [heq]
  · exact hperform
  · exact h

/-- A save that takes effect stores the record. -/
theorem hasMatched_saveRecord {draft : ReconciliationDraft} (hstatus : draft.status = .matched)
    {c : Choice} (hstored : c.failure = none ∨ c.applied = true) (s : Store) :
    (serve (.saveRecord draft) c s).2.HasMatched draft.contractId draft.yearMonth := by
  -- the row that is saved is the match itself
  have hperform : (perform (.saveRecord draft) c s).2.HasMatched draft.contractId
      draft.yearMonth := by
    refine ⟨draft.toRow c.id c.now, List.mem_cons_self, ?_⟩
    simp [Reconciliation.isMatched, ReconciliationDraft.toRow, hstatus]
  -- a save that fails leaves nothing behind
  rcases serve_state (.saveRecord draft) c s with ⟨-, heq⟩ | ⟨⟨hfail, happlied⟩, -⟩
  · rw [heq]
    exact hperform
  · -- such a save is not stored
    rcases hstored with hnone | hdone
    · exact absurd hnone hfail
    · rw [happlied] at hdone
      cases hdone

/-! ## The steps that go wrong -/

/-- The move lets the trigger `th` make the call `op`, with the choice `c` of the
    environment. -/
def Makes (m : Move SettlePool (Act Trigger Choice)) (th : SettleThread) (op : Call)
    (c : Choice) : Prop :=
  ∃ (i : Nat) (k : Except String op.Res → SettleM (Option ManualResult)),
    m.label = .advance i c ∧ m.before.threads[i]? = some th ∧
    th.prog = await (I := calls) op k

/-- A step that pays cleanly. When the ledger applies a payment, the record that the trigger
    has looked for in vain is still missing (`unchanged`), no trigger waits to save it
    (`alone`), and the submission is answered with success; and the save of a `Matched`
    record takes effect. -/
structure PaysCleanly (m : Move SettlePool (Act Trigger Choice)) : Prop where
  unchanged : ∀ th tx c, Makes m th (.submitAndWait tx) c → c.paid = true →
    ∀ contractId yearMonth, tx.settles contractId yearMonth →
      Missed th.log contractId yearMonth → ¬ m.before.store.HasMatched contractId yearMonth
  alone : ∀ th tx c, Makes m th (.submitAndWait tx) c → c.paid = true →
    ∀ contractId yearMonth, tx.settles contractId yearMonth →
      ∀ u ∈ m.before.threads, ∀ tx', Unrecorded u.log tx' → ¬ tx'.settles contractId yearMonth
  answered : ∀ th tx c, Makes m th (.submitAndWait tx) c → c.paid = true →
    c.failure = none ∧ c.response.transactionResult = some "tesSUCCESS"
  stored : ∀ th draft c, Makes m th (.saveRecord draft) c → draft.status = .matched →
    c.failure = none ∨ c.applied = true

/-! ## Runs -/

/-- No two payments of the ledger settle the same contract and month. -/
def PaidOnce (ledger : List Payment) : Prop :=
  ledger.Pairwise fun tx tx' => ∀ contractId yearMonth,
    tx.settles contractId yearMonth → ¬ tx'.settles contractId yearMonth

/-- The month is accounted for: its `Matched` record is stored, or a trigger is about to save
    it. -/
def Accounted (P : SettlePool) (contractId yearMonth : String) : Prop :=
  P.store.HasMatched contractId yearMonth ∨
    ∃ u ∈ P.threads, ∃ tx, Unrecorded u.log tx ∧ tx.settles contractId yearMonth

/-- What a clean run keeps: the months of the payments on the ledger are accounted for, and
    none has two. -/
structure PaymentInv (P : SettlePool) : Prop where
  safe : ∀ th ∈ P.threads, th.Safe fun _ => InOrder
  accounted : ∀ tx ∈ P.store.ledger, ∀ contractId yearMonth, tx.settles contractId yearMonth →
    Accounted P contractId yearMonth
  once : PaidOnce P.store.ledger

section Step

variable {config : Config} {P : SettlePool} {i : Nat} {c : Choice} {th : SettleThread} {op : Call}
  {k : Except String op.Res → SettleM (Option ManualResult)}

/-- The pool after the call `op` of the thread `i`. -/
def afterCall (P : SettlePool) (i : Nat) (th : SettleThread) (op : Call) (c : Choice)
    (k : Except String op.Res → SettleM (Option ManualResult)) : SettlePool :=
  ⟨(serve op c P.store).2, P.threads.set i (th.resume op (serve op c P.store).1 k)⟩

/-- A month that is accounted for stays so: a trigger that is about to save the record saves
    it with its next call. -/
theorem accounted_afterCall (hth : P.threads[i]? = some th)
    (hprog : th.prog = await (I := calls) op k) (hP : PaymentInv P)
    (hclean : PaysCleanly ⟨P, .advance i c, afterCall P i th op c k⟩)
    {contractId yearMonth : String} (h : Accounted P contractId yearMonth) :
    Accounted (afterCall P i th op c k) contractId yearMonth := by
  -- a row was there before, or a thread still owes it
  rcases h with hmatched | ⟨u, hu, tx, hwait, hsettles⟩
  · exact .inl (hasMatched_serve hmatched op c)
  · rcases mem_set_of_mem hth hu (th.resume op (serve op c P.store).1 k) with rfl | hu'
    -- the thread that moves saves the row it owes, and the store takes it
    · have hnext := ((hP.safe u hu).ok_of_await hprog).records tx hwait
      obtain ⟨draft, rfl, hstatus, hdraft⟩ := hnext
      have hstored := hclean.stored u draft c ⟨i, k, rfl, hth, hprog⟩ hstatus
      obtain ⟨hc, hm⟩ := settles_unique hdraft hsettles
      left
      rw [← hc, ← hm]
      exact hasMatched_saveRecord hstatus hstored P.store
    · exact .inr ⟨u, hu', tx, hwait, hsettles⟩

/-- A payment that was just answered with success waits for its record. -/
theorem accounted_submit {tx : Payment}
    {k : Except String PaymentResponse → SettleM (Option ManualResult)}
    (hth : P.threads[i]? = some th) (hfailure : c.failure = none)
    (hsuccess : c.response.transactionResult = some "tesSUCCESS") {contractId yearMonth : String}
    (hsettles : tx.settles contractId yearMonth) :
    Accounted (afterCall P i th (.submitAndWait tx) c k) contractId yearMonth := by
  have hi : i < P.threads.length := (List.getElem?_eq_some_iff.mp hth).1
  have hanswer : (serve (.submitAndWait tx) c P.store).1 = .ok c.response := by
    unfold serve
    rw [hfailure]
    rfl
  refine .inr ⟨_, List.mem_set hi _, tx, ⟨c.response, th.log, ?_, hsuccess⟩, hsettles⟩
  rw [hanswer]
  rfl

/-- A clean step keeps the invariant. -/
theorem paymentInv_step (m : Move SettlePool (Act Trigger Choice))
    (hstep : settleStep config m.before m.label = some m.after) (hclean : PaysCleanly m)
    (hP : PaymentInv m.before) : PaymentInv m.after := by
  have hsafe := poolStep_safe (fun req => handle_safe config req) hstep hP.safe
  obtain ⟨P, a, P'⟩ := m
  dsimp only at hstep hP hsafe ⊢
  obtain ⟨req, rfl, rfl⟩ | ⟨i, c, th, op, k, rfl, hth, hprog, -, rfl⟩ := poolStep_cases hstep
  · -- A new trigger has paid nothing yet.
    refine ⟨hsafe, fun tx htx contractId yearMonth hsettles => ?_, hP.once⟩
    rcases hP.accounted tx htx contractId yearMonth hsettles with hmatched | ⟨u, hu, hwait⟩
    · exact .inl hmatched
    · exact .inr ⟨u, List.mem_append_left _ hu, hwait⟩
  · have hkeep : ∀ tx ∈ P.store.ledger, ∀ contractId yearMonth, tx.settles contractId yearMonth →
        Accounted (afterCall P i th op c k) contractId yearMonth := by
      intro tx htx contractId yearMonth hsettles
      have hold := hP.accounted tx htx contractId yearMonth hsettles
      exact accounted_afterCall hth hprog hP hclean hold
    -- a call that pays nothing leaves what was accounted for
    rcases ledger_serve op c P.store with hsame | ⟨tx, rfl, hpaid, hledger⟩
    · refine ⟨hsafe, ?_, ?_⟩
      · intro tx htx
        have hmem : tx ∈ P.store.ledger := hsame ▸ htx
        exact hkeep tx hmem
      · show PaidOnce (serve op c P.store).2.ledger
        rw [hsame]
        exact hP.once
    · -- A new payment: its month is not accounted for, so no payment settles it yet.
      have hmakes : Makes ⟨P, .advance i c, afterCall P i th (.submitAndWait tx) c k⟩ th
          (.submitAndWait tx) c := ⟨i, k, rfl, hth, hprog⟩
      have horder := (hP.safe th (List.mem_of_getElem? hth)).ok_of_await hprog
      obtain ⟨contractId₀, yearMonth₀, hsettles₀, hmissed⟩ := horder.looked tx rfl
      have hfirst : ∀ tx' ∈ P.store.ledger, ∀ contractId yearMonth,
          tx.settles contractId yearMonth → ¬ tx'.settles contractId yearMonth := by
        intro tx' htx' contractId yearMonth hsettles hsettles'
        obtain ⟨rfl, rfl⟩ := settles_unique hsettles₀ hsettles
        -- an earlier payment of the month has its row, or a thread that owes it; neither is
        -- possible
        rcases hP.accounted tx' htx' _ _ hsettles' with h | ⟨u, hu, tx'', hw, hs⟩
        · exact hclean.unchanged th tx c hmakes hpaid _ _ hsettles hmissed h
        · exact hclean.alone th tx c hmakes hpaid _ _ hsettles u hu tx'' hw hs
      obtain ⟨hfailure, hsuccess⟩ := hclean.answered th tx c hmakes hpaid
      refine ⟨hsafe, ?_, ?_⟩
      -- what is new is owed by the thread that has paid
      · intro tx' htx' contractId yearMonth hsettles
        have hmem : tx' ∈ tx :: P.store.ledger := hledger ▸ htx'
        rcases List.mem_cons.mp hmem with rfl | hold
        · exact accounted_submit hth hfailure hsuccess hsettles
        · exact hkeep tx' hold contractId yearMonth hsettles
      · show PaidOnce (serve (.submitAndWait tx) c P.store).2.ledger
        rw [hledger]
        exact List.Pairwise.cons hfirst hP.once

end Step

/-- In every run whose steps pay cleanly, whatever triggers it starts, however they are
    interleaved and whichever other calls fail, no contract is paid twice for a month. -/
theorem one_payment_per_month {config : Config} {s₀ : Store} {P : SettlePool}
    {ms : List (Move SettlePool (Act Trigger Choice))} (h₀ : s₀.ledger = [])
    (run : Run (settleStep config) ⟨s₀, []⟩ ms P) (hclean : ∀ m ∈ ms, PaysCleanly m) :
    PaidOnce P.store.ledger := by
  -- at the start there is no thread and no payment
  have hstart : PaymentInv ⟨s₀, []⟩ := by
    refine ⟨?_, ?_, ?_⟩
    · intro th hth
      exact nomatch hth
    · intro tx htx
      rw [h₀] at htx
      exact nomatch htx
    · show PaidOnce s₀.ledger
      rw [h₀]
      exact List.Pairwise.nil
  exact (run.invariant hclean hstart paymentInv_step).once

/-! ## Every payment was looked up -/

/-- The payment settles a contract and month whose record a trigger has looked for in vain. -/
def LookedUp (P : SettlePool) (tx : Payment) : Prop :=
  ∃ u ∈ P.threads, ∃ contractId yearMonth, tx.settles contractId yearMonth ∧
    Missed u.log contractId yearMonth

/-- A month that was looked up stays so. -/
theorem LookedUp.step {config : Config} {P P' : SettlePool} {a : Act Trigger Choice}
    (hstep : settleStep config P a = some P') {tx : Payment} (h : LookedUp P tx) :
    LookedUp P' tx := by
  obtain ⟨u, hu, contractId, yearMonth, hsettles, hmissed⟩ := h
  obtain ⟨u', hu', -, hgrow⟩ := poolStep_extends hstep u hu
  exact ⟨u', hu', contractId, yearMonth, hsettles, hgrow.mem hmissed⟩

/-- What every run keeps: the triggers make their calls in order, and every payment was looked
    up. -/
structure LookUpInv (P : SettlePool) : Prop where
  safe : ∀ th ∈ P.threads, th.Safe fun _ => InOrder
  lookedUp : ∀ tx ∈ P.store.ledger, LookedUp P tx

/-- A payment comes behind a look-up that has found nothing. -/
theorem lookUpInv_step {config : Config} (m : Move SettlePool (Act Trigger Choice))
    (hstep : settleStep config m.before m.label = some m.after) (hP : LookUpInv m.before) :
    LookUpInv m.after := by
  obtain ⟨P, a, P'⟩ := m
  dsimp only at hstep hP ⊢
  refine ⟨poolStep_safe (fun req => handle_safe config req) hstep hP.safe, fun tx htx => ?_⟩
  have hkeep : tx ∈ P.store.ledger → LookedUp P' tx :=
    fun hold => LookedUp.step hstep (hP.lookedUp tx hold)
  obtain ⟨req, rfl, rfl⟩ | ⟨i, c, th, op, k, rfl, hth, hprog, -, rfl⟩ := poolStep_cases hstep
  · exact hkeep htx
  -- what was looked up stays so when nothing is paid
  · rcases ledger_serve op c P.store with hsame | ⟨tx', rfl, -, hledger⟩
    · exact hkeep (hsame ▸ htx)
    · have hmem : tx ∈ tx' :: P.store.ledger := hledger ▸ htx
      rcases List.mem_cons.mp hmem with rfl | hold
      · -- The new payment: its trigger has looked for the record.
        have hthread := List.mem_of_getElem? hth
        have horder := (hP.safe th hthread).ok_of_await hprog
        exact LookedUp.step hstep ⟨th, hthread, horder.looked tx rfl⟩
      · exact hkeep hold

/-- In every run, clean or not, a payment on the ledger was submitted after its record was
    looked for in vain. -/
theorem lookedUp_of_run {config : Config} {s₀ : Store} {P : SettlePool}
    {ms : List (Move SettlePool (Act Trigger Choice))} (h₀ : s₀.ledger = [])
    (run : Run (settleStep config) ⟨s₀, []⟩ ms P) : ∀ tx ∈ P.store.ledger, LookedUp P tx := by
  -- the same invariant at the start, for the look-ups
  have hstart : LookUpInv ⟨s₀, []⟩ := by
    refine ⟨?_, ?_⟩
    · intro th hth
      exact nomatch hth
    · intro tx htx
      rw [h₀] at htx
      exact nomatch htx
  have hinv : LookUpInv P :=
    run.invariant (fun _ _ => trivial) hstart fun m hstep _ => lookUpInv_step m hstep
  exact hinv.lookedUp

/-! ## Concrete runs -/

/-- The usage report of the concrete runs. -/
def sampleUsage : MonthlyUsage :=
  ⟨"c1", "2026-04", ⟨"200"⟩, ⟨"24000"⟩, some "2026-04-28T00:00:00.000Z"⟩

/-- The SHA-256 digest of `sampleUsage.json`. -/
def sampleDigest : String := "82720fe70bf7730de76cecb73309369829f0bfe0fc20b2062027210c9f720ab2"

/-- A deployment with one contract account, whose seed and digest are known. -/
def sampleConfig : Config where
  production := false
  explorerUrl := none
  decrypt := fun cipher => .ok cipher
  walletFromSeed := fun _ => .ok "rContractContractContract"
  sha256Hex := fun _ => sampleDigest
  toLocaleString := JsNumber.text

/-- One locked contract, nothing settled. -/
def sampleStore : Store where
  contracts := Table.empty.set {
    id := "c1"
    landlordAddress := "rLandlordLandlordLandlord"
    contractAccountAddress := some "rContractContractContract"
    contractAccountSeedCipher := some "sEdContractSeed"
    status := .locked
    tenantPiiCipher := ""
    landlordPiiCipher := ""
    tenantEmail := none }
  records := []
  jobs := []
  emails := []
  ledger := []

/-- The retry job of the contract and month. -/
def sampleRetry : Trigger := .retry ⟨"c1", "2026-04"⟩

/-- The ledger applies the payment and says so. -/
def sampleSuccess : Choice :=
  { response := ⟨"A1", some "tesSUCCESS"⟩ }

/-- The call is rejected; `applied` says whether it took effect. -/
def sampleTimeout (applied : Bool) : Choice :=
  { failure := some "timeout", applied := applied }

/-- The newest call is a submission that was answered with success. -/
def newestPaid : SettleLog → Bool
  | ⟨.submitAndWait _, .ok response⟩ :: _ => response.transactionResult = some "tesSUCCESS"
  | _ => false

/-- What is not recorded yet is the newest payment. -/
theorem newestPaid_of_unrecorded {l : SettleLog} {tx : Payment} (h : Unrecorded l tx) :
    newestPaid l = true := by
  obtain ⟨response, rest, rfl, hsuccess⟩ := h
  exact decide_eq_true hsuccess

/-- The move is a call that `PaysCleanly` accepts at a time when nothing is recorded and
    nobody waits. -/
def paysCleanlyCheck (m : Move SettlePool (Act Trigger Choice)) : Bool :=
  match m.label with
  | .spawn _ => true
  | .advance i c =>
    match m.before.threads[i]? with
    | none => true
    | some th =>
      match th.prog with
      | .await (.submitAndWait _) _ =>
        m.before.store.records.isEmpty && (m.before.threads.all fun u => !newestPaid u.log) &&
          c.failure.isNone && decide (c.response.transactionResult = some "tesSUCCESS")
      | .await (.saveRecord _) _ => c.failure.isNone
      | _ => true

/-- Whether a move pays cleanly can be computed. -/
theorem paysCleanly_of_check {m : Move SettlePool (Act Trigger Choice)}
    (h : paysCleanlyCheck m = true) : PaysCleanly m := by
  -- the move pays into an empty store, alone, and with success
  have hsubmit : ∀ th tx c, Makes m th (.submitAndWait tx) c → m.before.store.records = [] ∧
      (∀ u ∈ m.before.threads, newestPaid u.log = false) ∧ c.failure = none ∧
      c.response.transactionResult = some "tesSUCCESS" := by
    rintro th tx c ⟨i, k, hlabel, hth, hprog⟩
    simp only [paysCleanlyCheck, hlabel, hth, hprog, Bool.and_eq_true, List.isEmpty_iff,
      List.all_eq_true, Bool.not_eq_true', Option.isNone_iff_eq_none, decide_eq_true_eq] at h
    exact ⟨h.1.1.1, h.1.1.2, h.1.2, h.2⟩
  -- so there is neither a row nor a debt for the month
  refine ⟨?_, ?_, ?_, ?_⟩
  · rintro th tx c hmakes _ contractId yearMonth _ _ ⟨r, hr, -⟩
    rw [(hsubmit th tx c hmakes).1] at hr
    exact nomatch hr
  · intro th tx c hmakes _ contractId yearMonth _ u hu tx' hwait _
    have hpaid := newestPaid_of_unrecorded hwait
    rw [(hsubmit th tx c hmakes).2.1 u hu] at hpaid
    exact nomatch hpaid
  · intro th tx c hmakes _
    exact (hsubmit th tx c hmakes).2.2
  · rintro th draft c ⟨i, k, hlabel, hth, hprog⟩ _
    simp only [paysCleanlyCheck, hlabel, hth, hprog, Option.isNone_iff_eq_none] at h
    exact .inl h

/-- The calls of one retry job, when the given choices answer the submission and the save. -/
def sampleCalls (i : Nat) (submit save : Choice) : List (Act Trigger Choice) :=
  [.advance i {}, .advance i {}, .advance i { usage := sampleUsage }, .advance i submit,
    .advance i save]

/-- The log looks for no record but the one of the concrete runs. -/
def looksUpSample (l : SettleLog) : Bool :=
  l.all fun ev => match ev.op with
    | .findMatched contractId yearMonth => contractId = "c1" && yearMonth = "2026-04"
    | _ => true

/-- The ledger of the concrete runs has `n` payments, all for the same contract and month. -/
def samplePaid (n : Nat) (P : SettlePool) : Bool :=
  P.store.ledger.length = n && P.threads.all fun th => looksUpSample th.log

/-- The sample run settles its month. -/
theorem settles_of_samplePaid {n : Nat} {P : SettlePool}
    {ms : List (Move SettlePool (Act Trigger Choice))}
    (run : Run (settleStep sampleConfig) ⟨sampleStore, []⟩ ms P) (h : samplePaid n P = true) :
    P.store.ledger.length = n ∧ ∀ tx ∈ P.store.ledger, tx.settles "c1" "2026-04" := by
  simp only [samplePaid, looksUpSample, Bool.and_eq_true, List.all_eq_true, decide_eq_true_eq] at h
  refine ⟨h.1, fun tx htx => ?_⟩
  obtain ⟨u, hu, contractId, yearMonth, hsettles, hmissed⟩ := lookedUp_of_run rfl run tx htx
  have hsample := h.2 u hu _ hmissed
  simp only [Bool.and_eq_true, decide_eq_true_eq] at hsample
  rw [hsample.1, hsample.2] at hsettles
  exact hsettles

/-- And when it pays twice, the month is not paid once. -/
theorem not_paidOnce_of_samplePaid {P : SettlePool}
    {ms : List (Move SettlePool (Act Trigger Choice))}
    (run : Run (settleStep sampleConfig) ⟨sampleStore, []⟩ ms P) (h : samplePaid 2 P = true) :
    ¬ PaidOnce P.store.ledger := by
  obtain ⟨hlength, hsettles⟩ := settles_of_samplePaid run h
  obtain ⟨tx, tx', hledger⟩ := List.length_eq_two.mp hlength
  rw [hledger] at hsettles ⊢
  intro honce
  have hpair := List.rel_of_pairwise_cons honce List.mem_cons_self "c1" "2026-04"
  exact hpair (hsettles tx (by simp)) (hsettles tx' (by simp))

/-- Two triggers, one after the other: the first one pays, the second one finds the record. -/
theorem one_payment_per_month_retried :
    ∃ ms P, Run (settleStep sampleConfig) ⟨sampleStore, []⟩ ms P ∧
      (∃ tx, P.store.ledger = [tx] ∧ tx.settles "c1" "2026-04") ∧ P.threads.length = 2 ∧
      (∀ m ∈ ms, PaysCleanly m) ∧ PaidOnce P.store.ledger := by
  obtain ⟨ms, P, run, hp⟩ := exists_run_of_replay
    (.spawn sampleRetry :: sampleCalls 0 sampleSuccess {} ++ [.spawn sampleRetry, .advance 1 {}])
    (fun r => (r.1.all paysCleanlyCheck) && (samplePaid 1 r.2 && decide (r.2.threads.length = 2)))
    (by decide +kernel : (replay (settleStep sampleConfig) ⟨sampleStore, []⟩ _ []).any _ = true)
  simp only [Bool.and_eq_true, List.all_eq_true, decide_eq_true_eq] at hp
  -- every step of the run pays cleanly
  have hclean : ∀ m ∈ ms, PaysCleanly m := fun m hm => paysCleanly_of_check (hp.1 m hm)
  obtain ⟨hlength, hsettles⟩ := settles_of_samplePaid run hp.2.1
  obtain ⟨tx, hledger⟩ := List.length_eq_one_iff.mp hlength
  refine ⟨ms, P, run, ⟨tx, hledger, ?_⟩, hp.2.2, hclean, one_payment_per_month rfl run hclean⟩
  exact hsettles tx (by rw [hledger]; exact List.mem_singleton.mpr rfl)

/-- Which calls of a run failed. -/
inductive FailedCall
  | save
  | submit
  | other
  deriving DecidableEq

/-- The failed calls of a run, newest first. -/
def failedCalls (ms : List (Move SettlePool (Act Trigger Choice))) : List FailedCall :=
  ms.filterMap fun m =>
    match stepEvent world m.before m.label with
    | some (_, _, ⟨.saveRecord _, .error _⟩) => some .save
    | some (_, _, ⟨.submitAndWait _, .error _⟩) => some .submit
    | some (_, _, ⟨_, .error _⟩) => some .other
    | _ => none

/-- A schedule that pays twice, with the calls that fail. -/
theorem paid_twice_of_replay (acts : List (Act Trigger Choice)) (failed : List FailedCall)
    (h : (replay (settleStep sampleConfig) ⟨sampleStore, []⟩ acts []).any
      (fun r => decide (failedCalls r.1 = failed) && samplePaid 2 r.2) = true) :
    ∃ ms P, Run (settleStep sampleConfig) ⟨sampleStore, []⟩ ms P ∧ failedCalls ms = failed ∧
      ¬ PaidOnce P.store.ledger := by
  obtain ⟨ms, P, run, hp⟩ := exists_run_of_replay acts _ h
  simp only [Bool.and_eq_true, decide_eq_true_eq] at hp
  exact ⟨ms, P, run, hp.1, not_paidOnce_of_samplePaid run hp.2⟩

/-- Three runs that pay twice. No call fails, and the second trigger looks and pays between
    the payment and the record of the first one. The save of the record fails after the
    payment, and the retry pays again. The submission times out although the ledger applies
    the payment, and the retry pays again. -/
theorem contract_paid_twice :
    (∃ ms P, Run (settleStep sampleConfig) ⟨sampleStore, []⟩ ms P ∧ failedCalls ms = [] ∧
      ¬ PaidOnce P.store.ledger) ∧
    (∃ ms P, Run (settleStep sampleConfig) ⟨sampleStore, []⟩ ms P ∧ failedCalls ms = [.save] ∧
      ¬ PaidOnce P.store.ledger) ∧
    ∃ ms P, Run (settleStep sampleConfig) ⟨sampleStore, []⟩ ms P ∧ failedCalls ms = [.submit] ∧
      ¬ PaidOnce P.store.ledger := by
  -- two at once, a look-up that fails, and a payment whose answer is lost
  refine ⟨?_, ?_, ?_⟩
  · refine paid_twice_of_replay ([.spawn sampleRetry, .spawn sampleRetry] ++
      (sampleCalls 0 sampleSuccess {}).take 4 ++ sampleCalls 1 sampleSuccess {} ++
      [.advance 0 {}]) [] ?_
    decide +kernel
  · refine paid_twice_of_replay (.spawn sampleRetry ::
      sampleCalls 0 sampleSuccess (sampleTimeout false) ++ .spawn sampleRetry ::
      sampleCalls 1 sampleSuccess {}) [.save] ?_
    decide +kernel
  · refine paid_twice_of_replay (.spawn sampleRetry :: sampleCalls 0 (sampleTimeout true) {} ++
      .spawn sampleRetry :: sampleCalls 1 sampleSuccess {}) [.submit] ?_
    decide +kernel

end Bluesafe.Settle
