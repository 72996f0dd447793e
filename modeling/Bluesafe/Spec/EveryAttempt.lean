import Bluesafe.Async.Keeps
import Bluesafe.Spec.MonthlyPayment
import Bluesafe.Spec.MonthlyRun

/-!
# The records of a monthly run

A monthly run is meant to leave one record for each contract that it settles: a matched one with
the hash of the payment, or a failed one with the reason. The payment is made in a `try`, and
whatever happens there is recorded; the power company is asked before it, and its failure
leaves no record. So a run adds a record for every contract that has none yet if and only if
the power company answers for each of them (`every_attempt_recorded`).

The database, the queue and the clock answer in this module; the power company, the ledger and
the calls of the report may fail.
-/

namespace Bluesafe.Settle

open Async
open Bluesafe.Ops (truthy)

/-- The calls that may fail. -/
def mayFail : Call → Bool
  | .getMonthlyUsage _ _ => true
  | .submitAndWait _ => true
  | .sendEmail _ => true
  | .updateReportSentAt _ _ => true
  | _ => false

/-- The world in which the other calls are answered. -/
def attemptWorld : World calls String Store Choice where
  allow op c s := world.allow op c s && (mayFail op || c.failure.isNone)
  serve := serve

/-! ## The records of a run -/

/-- The contents of the records, newest first. -/
def Store.drafts (s : Store) : List ReconciliationDraft := s.records.map (·.toReconciliationDraft)

/-- The contract has a matched record for the month. -/
def Store.settled (s : Store) (contractId yearMonth : String) : Bool :=
  s.records.any (Reconciliation.isMatched contractId yearMonth)

/-- The locked contracts without a matched record for the month. -/
def Store.unsettled (s : Store) (yearMonth : String) : List ContractRow :=
  (s.contracts.rows.filter fun c => decide (c.status = .locked)).filter fun c =>
    !s.settled c.id yearMonth

/-- A look-up of a matched record, which begins an attempt. -/
def isLookUp : Event calls String → Bool
  | ⟨.findMatched _ _, _⟩ => true
  | _ => false

/-- The power company has not answered. -/
def isKepcoFailure : Event calls String → Bool
  | ⟨.getMonthlyUsage _ _, .error _⟩ => true
  | _ => false

/-- The ledger has applied a payment and answered with its hash. -/
def PaidWith (evs : List (Event calls String)) (hash : String) : Prop :=
  ∃ tx, (⟨.submitAndWait tx, .ok ⟨hash, some "tesSUCCESS"⟩⟩ : Event calls String) ∈ evs

/-- The calls of the contract's attempt, oldest first: from its look-up to the next one. -/
def callsFor (yearMonth contractId : String) (evs : List (Event calls String)) :
    List (Event calls String) :=
  ((evs.dropWhile fun ev => !isFindMatched contractId yearMonth ev).drop 1).takeWhile fun ev =>
    !isLookUp ev

/-- The record says what became of the payment. -/
structure RecordsAttempt (yearMonth : String) (evs : List (Event calls String))
    (d : ReconciliationDraft) : Prop where
  yearMonth_eq : d.yearMonth = yearMonth
  matched : ∀ hash, PaidWith evs hash → d.status = .matched ∧ d.paymentTxHash = some hash
  failed : (∀ hash, ¬ PaidWith evs hash) → d.status = .failed ∧ ∃ e, d.errorMessage = some e

/-- The run has added one record for every locked contract without a matched one. -/
def EveryAttemptRecorded (yearMonth : String) (s : Store) (evs : List (Event calls String))
    (s' : Store) : Prop :=
  ∃ drafts : List ReconciliationDraft, s'.drafts = drafts.reverse ++ s.drafts ∧
    drafts.map (·.contractId) = (s.unsettled yearMonth).map (·.id) ∧
      ∀ d ∈ drafts, RecordsAttempt yearMonth (callsFor yearMonth d.contractId evs) d

/-- The locked contracts can be read and have an account. -/
def Ready (config : Config) (s : Store) : Prop :=
  ∀ c ∈ s.contracts.rows, c.status = .locked → ∃ dto seed address,
    c.toDto config.decrypt = .ok dto ∧ truthy dto.contractAccountSeed = some seed ∧
      truthy dto.contractAccountAddress = some address

/-! ## One call -/

section Calls

variable {op : Call} {Q : op.Res → SettleLog × Store → Prop} {E : String → SettleLog × Store → Prop}
  {l : SettleLog} {s : Store}

/-- The rule for a call that cannot fail. -/
theorem wp_answered (hop : mayFail op = false)
    (h : ∀ c, Q (perform op c s).1 (⟨op, .ok (perform op c s).1⟩ :: l, (perform op c s).2)) :
    wp (seqSpec attemptWorld) (invoke op) Q E (l, s) := by
  apply wp_call
  · intro c a hallow hans
    -- such a call does not fail in this world
    have hnone : c.failure = none := by
      have hboth := (Bool.and_eq_true _ _ ▸ hallow : _ ∧ _).2
      simpa [hop] using hboth
    simp only [attemptWorld, serve, hnone, Except.ok.injEq] at hans ⊢
    -- it answers what it performs
    rw [← hans]
    exact h c
  · intro c e hallow herr
    have hnone : c.failure = none := by
      have hboth := (Bool.and_eq_true _ _ ▸ hallow : _ ∧ _).2
      simpa [hop] using hboth
    simp [attemptWorld, serve, hnone] at herr

/-- The rule for a call that may fail, before or after its effect. -/
theorem wp_attempted
    (h : ∀ c, Q (perform op c s).1 (⟨op, .ok (perform op c s).1⟩ :: l, (perform op c s).2))
    (herr : ∀ c e, E e (⟨op, .error e⟩ :: l, if c.applied then (perform op c s).2 else s)) :
    wp (seqSpec attemptWorld) (invoke op) Q E (l, s) := by
  apply wp_call
  -- an answer comes from a choice without a failure, an error from one with
  · intro c a hallow hans
    cases hf : c.failure with
    | none =>
      simp only [attemptWorld, serve, hf, Except.ok.injEq] at hans ⊢
      rw [← hans]
      exact h c
    | some e => simp [attemptWorld, serve, hf] at hans
  · intro c e hallow he
    cases hf : c.failure with
    | none => simp [attemptWorld, serve, hf] at he
    | some e' =>
      simp only [attemptWorld, serve, hf]
      exact herr c e

end Calls

/-! ## The parts of an attempt -/

/-- The rows that the attempts read are the same. -/
def SameRows (s s' : Store) : Prop := s'.contracts = s.contracts ∧ s'.drafts = s.drafts

/-- Calls other than look-ups and failures of the power company. -/
def Plain (evs : List (Event calls String)) : Prop :=
  ∀ ev ∈ evs, isLookUp ev = false ∧ isKepcoFailure ev = false

variable {config : Config} {contractId yearMonth : String} {l : SettleLog} {s : Store}

/-- The time of a report changes no row of an attempt. -/
theorem sameRows_withReportSentAt (id : String) (t : Ops.Time) (s : Store) :
    SameRows s { s with records := s.records.map (Reconciliation.withReportSentAt id t) } := by
  refine ⟨rfl, ?_⟩
  unfold Store.drafts
  rw [List.map_map]
  apply List.map_congr_left
  intro r _
  show (Reconciliation.withReportSentAt id t r).toReconciliationDraft = _
  unfold Reconciliation.withReportSentAt
  split <;> rfl

/-- A payment counts when the ledger has answered with a success. -/
theorem assertPaymentSuccess_eq_ok {response : PaymentResponse} {hash : String} :
    assertPaymentSuccess response = .ok hash ↔ response = ⟨hash, some "tesSUCCESS"⟩ := by
  cases response with
  | mk hash' result =>
    cases result with
    | none => simp [assertPaymentSuccess]
    | some result =>
      by_cases hresult : result = "tesSUCCESS" <;> simp [assertPaymentSuccess, hresult]

/-- The payments of a trace with one submission. -/
theorem paidWith_singleton {tx : Payment} {response : PaymentResponse} {hash : String} :
    PaidWith [⟨.submitAndWait tx, .ok response⟩] hash ↔ assertPaymentSuccess response = .ok hash := by
  rw [assertPaymentSuccess_eq_ok]
  constructor
  · rintro ⟨tx', htx⟩
    rw [List.mem_singleton] at htx
    cases htx
    rfl
  · rintro rfl
    exact ⟨tx, List.mem_singleton_self _⟩

/-- What `submitXrpPayment` and the memo leave: the payment has succeeded when it returns. -/
theorem paySettlement_spec {contract : ContractDto} {seed address usageHash : String}
    {usage : MonthlyUsage} :
    wp (seqSpec attemptWorld)
      (paySettlement config contract seed address contractId yearMonth usageHash usage)
      (fun hash g => ∃ seg, g.1 = seg ++ l ∧ Plain seg ∧ SameRows s g.2 ∧
        ∀ hash', PaidWith seg hash' ↔ hash' = hash)
      (fun _ g => ∃ seg, g.1 = seg ++ l ∧ Plain seg ∧ SameRows s g.2 ∧ ∀ hash', ¬ PaidWith seg hash')
      (l, s) := by
  -- three ways to end without a submission: no memo, no wallet, no amount
  have hnothing : ∃ seg, l = seg ++ l ∧ Plain seg ∧ SameRows s s ∧ ∀ hash', ¬ PaidWith seg hash' :=
    ⟨[], rfl, by simp [Plain], ⟨rfl, rfl⟩, by simp [PaidWith]⟩
  unfold paySettlement submitXrpPayment
  rw [wp_bind, wp_orThrow]
  cases buildReconcileMemo (settlementPayload contractId yearMonth usageHash usage) with
  | error e => exact hnothing
  | ok memo =>
    dsimp only [post_ok]
    rw [wp_bind, wp_orThrow]
    cases config.walletFromSeed seed with
    | error e => exact hnothing
    | ok classicAddress =>
      dsimp only [post_ok]
      split
      · exact hnothing
      · split
        · exact hnothing
        · -- the submission, with its answer or its rejection
          rw [wp_bind]
          apply wp_attempted
          · intro c
            have hrows : SameRows s (perform (.submitAndWait ⟨address, contract.landlordAddress,
                usage.chargeKrw.text, [memo]⟩) c s).2 := by
              dsimp only [perform]
              split <;> exact ⟨rfl, rfl⟩
            show wp _ (orThrow (assertPaymentSuccess c.response)) _ _ _
            rw [wp_orThrow]
            -- an answer without a success is an error, and pays nothing
            cases hresult : assertPaymentSuccess c.response with
            | error e =>
              refine ⟨[_], rfl, by simp [Plain, isLookUp, isKepcoFailure], hrows, fun hash' hpaid => ?_⟩
              exact absurd (hresult.symm.trans (paidWith_singleton.mp hpaid)) (by simp)
            | ok hash =>
              refine ⟨[_], rfl, by simp [Plain, isLookUp, isKepcoFailure], hrows, fun hash' => ?_⟩
              rw [paidWith_singleton]
              show assertPaymentSuccess c.response = _ ↔ _
              rw [hresult, Except.ok.injEq, eq_comm]
          -- a submission that is rejected may have happened, but no row is touched
          · intro c e
            refine ⟨[_], rfl, by simp [Plain, isLookUp, isKepcoFailure], ?_, by simp [PaidWith]⟩
            dsimp only [perform]
            split
            · split <;> exact ⟨rfl, rfl⟩
            · exact ⟨rfl, rfl⟩

/-- Calls of the report and of the record, which pay nothing. -/
def Unpaid (evs : List (Event calls String)) : Prop :=
  Plain evs ∧ ∀ hash, ¬ PaidWith evs hash

/-- A log without submissions has paid nothing. -/
theorem unpaid_of_forall {evs : List (Event calls String)}
    (h : ∀ ev ∈ evs, isLookUp ev = false ∧ isKepcoFailure ev = false ∧
      ∀ tx, ev.op ≠ .submitAndWait tx) : Unpaid evs := by
  refine ⟨fun ev hev => ⟨(h ev hev).1, (h ev hev).2.1⟩, ?_⟩
  rintro hash ⟨tx, htx⟩
  exact (h _ htx).2.2 tx rfl

/-- A payment is in one of two parts of a log. -/
theorem paidWith_append {evs evs' : List (Event calls String)} {hash : String} :
    PaidWith (evs ++ evs') hash ↔ PaidWith evs hash ∨ PaidWith evs' hash := by
  simp only [PaidWith, List.mem_append, exists_or]

/-- A log is plain when both of its parts are. -/
theorem plain_append {evs evs' : List (Event calls String)} :
    Plain (evs ++ evs') ↔ Plain evs ∧ Plain evs' := by
  simp only [Plain, List.mem_append, or_imp, forall_and]
  tauto

/-- It is unpaid when both are. -/
theorem unpaid_append {evs evs' : List (Event calls String)} (h : Unpaid evs) (h' : Unpaid evs') :
    Unpaid (evs ++ evs') :=
  ⟨plain_append.mpr ⟨h.1, h'.1⟩, fun hash hpaid =>
    (paidWith_append.mp hpaid).elim (h.2 hash) (h'.2 hash)⟩

/-- The report changes no row but the time of a report, and it does not throw. -/
theorem sendMonthlyReportSafely_spec {recordId : String} {contract : ContractDto}
    {usage : MonthlyUsage} {txHash : String} :
    wp (seqSpec attemptWorld)
      (sendMonthlyReportSafely config recordId contract yearMonth usage txHash)
      (fun _ g => ∃ seg, g.1 = seg ++ l ∧ Unpaid seg ∧ SameRows s g.2) (fun _ _ => False) (l, s) := by
  -- the report goes out before its time is stored; both may fail, and neither counts
  have hunpaid : ∀ {evs : List (Event calls String)}, (∀ ev ∈ evs, isLookUp ev = false ∧
      isKepcoFailure ev = false ∧ ∀ tx, ev.op ≠ .submitAndWait tx) → Unpaid evs := unpaid_of_forall
  unfold sendMonthlyReportSafely
  cases truthy contract.tenantEmail with
  | none => exact ⟨[], rfl, hunpaid (by simp), rfl, rfl⟩
  | some toAddress =>
    show wp _ (tryCatch _ _) _ _ _
    rw [wp_tryCatch]
    simp only [wp_bind, wp_pure]
    apply wp_attempted
    · intro _
      apply wp_answered rfl
      intro c
      apply wp_attempted
      · intro _
        exact ⟨[_, _, _], rfl, hunpaid (by simp [isLookUp, isKepcoFailure]),
          sameRows_withReportSentAt recordId c.now _⟩
      · intro c' e
        refine ⟨[_, _, _], rfl, hunpaid (by simp [isLookUp, isKepcoFailure]), ?_⟩
        split
        · exact sameRows_withReportSentAt recordId c.now _
        · exact ⟨rfl, rfl⟩
    · intro c e
      refine ⟨[_], rfl, hunpaid (by simp [isLookUp, isKepcoFailure]), ?_⟩
      split <;> exact ⟨rfl, rfl⟩

/-- The record is added, whether the exception is passed on or the report is sent. -/
theorem recordAttempt_spec {contract : ContractDto} {usageHash : String} {usage : MonthlyUsage}
    {outcome : Except String String} {Q : SettleLog × Store → Prop}
    (h : ∀ seg s', Unpaid seg → s'.contracts = s.contracts →
      s'.drafts = attemptRecord contractId yearMonth usageHash usage outcome :: s.drafts →
      Q (seg ++ l, s')) :
    wp (seqSpec attemptWorld)
      (recordAttempt config contract contractId yearMonth usageHash usage outcome)
      (fun _ => Q) (fun _ => Q) (l, s) := by
  unfold recordAttempt
  rw [wp_bind]
  apply wp_answered rfl
  intro c
  -- a failure is stored as a row, and that is all
  cases outcome with
  | error e => exact h [_] _ (unpaid_of_forall (by simp [isLookUp, isKepcoFailure])) rfl rfl
  -- a payment is stored, and the tenant is told of it
  | ok txHash =>
    show wp _ (if txHash ≠ "" then _ else _) _ _ _
    split
    · rw [wp_bind]
      apply wp_mono _ _ (seqSpec_mono _) _ _ sendMonthlyReportSafely_spec
      · rintro _ ⟨l', s'⟩ ⟨seg, hl, hseg, hcontracts, hdrafts⟩
        change l' = seg ++ _ at hl
        rw [hl, List.append_cons]
        exact h (seg ++ [_]) s'
          (unpaid_append hseg (unpaid_of_forall (by simp [isLookUp, isKepcoFailure]))) hcontracts
          hdrafts
      · exact fun _ _ hfalse => hfalse.elim
    · exact h [_] _ (unpaid_of_forall (by simp [isLookUp, isKepcoFailure])) rfl rfl

/-! ## One attempt -/

/-- What an attempt leaves: nothing for a contract that is settled, nothing when the power
    company has not answered, and the record of the payment otherwise. -/
inductive Leaves (contractId yearMonth : String) (evs : List (Event calls String)) (s s' : Store) :
    Prop
  | settled (h : s.settled contractId yearMonth = true) (hfailures : evs.countP isKepcoFailure = 0)
      (hdrafts : s'.drafts = s.drafts)
  | unanswered (h : s.settled contractId yearMonth = false)
      (hfailures : evs.countP isKepcoFailure = 1) (hdrafts : s'.drafts = s.drafts)
  | recorded (d : ReconciliationDraft) (h : s.settled contractId yearMonth = false)
      (hfailures : evs.countP isKepcoFailure = 0) (hdrafts : s'.drafts = d :: s.drafts)
      (hid : d.contractId = contractId) (hrecords : RecordsAttempt yearMonth evs d)

/-- The calls and the effect of one attempt, after the calls `l`. -/
def Attempts (contractId yearMonth : String) (l : SettleLog) (s : Store) (g : SettleLog × Store) :
    Prop :=
  ∃ seg lookUp, g.1 = seg ++ lookUp :: l ∧ isFindMatched contractId yearMonth lookUp = true ∧
    (∀ ev ∈ seg, isLookUp ev = false) ∧ g.2.contracts = s.contracts ∧
      Leaves contractId yearMonth seg s g.2

/-- A month is settled when a matched row is found. -/
theorem settled_eq_isSome (contractId yearMonth : String) (s : Store) :
    s.settled contractId yearMonth =
      (s.records.find? (Reconciliation.isMatched contractId yearMonth)).isSome := by
  rw [Bool.eq_iff_iff, List.find?_isSome]
  simp [Store.settled]

/-- A plain log has no failure of KEPCO. -/
theorem countP_plain {evs : List (Event calls String)} (h : Plain evs) :
    evs.countP isKepcoFailure = 0 := by
  rw [List.countP_eq_zero]
  intro ev hev
  simp [(h ev hev).2]

/-- A locked contract is read as it is listed. -/
theorem settleableContract_spec {c : ContractRow} {dto : ContractDto} {seed address : String}
    (hmem : c ∈ s.contracts.rows) (hlocked : c.status = .locked)
    (hdto : c.toDto config.decrypt = .ok dto) (hseed : truthy dto.contractAccountSeed = some seed)
    (haddress : truthy dto.contractAccountAddress = some address)
    {Q : ContractDto × String × String → SettleLog × Store → Prop}
    {E : String → SettleLog × Store → Prop}
    (h : ∀ ev, isLookUp ev = false ∧ isKepcoFailure ev = false ∧ (∀ tx, ev.op ≠ .submitAndWait tx) →
      Q (dto, seed, address) (ev :: l, s)) :
    wp (seqSpec attemptWorld) (settleableContract config c.id) Q E (l, s) := by
  -- a locked contract with seed and address is the one the loop has listed
  have hstatus : ¬ dto.status ≠ .locked := by
    rw [(fields_toDto hdto).2, hlocked]
    simp
  unfold settleableContract
  rw [wp_bind]
  apply wp_answered rfl
  intro choice
  have hfound : (perform (.findContract c.id) choice s).1 = some c := Table.get?_of_mem hmem
  generalize (perform (.findContract c.id) choice s).1 = found at hfound ⊢
  subst hfound
  dsimp only
  rw [wp_bind, wp_orThrow, hdto]
  dsimp only [post_ok]
  rw [if_neg hstatus, hseed, haddress]
  exact h _ ⟨rfl, rfl, nofun⟩

/-- The record of an attempt tells what its payment has come to. -/
theorem leaves_attemptRecord {s' : Store} {usageHash : String} {usage : MonthlyUsage}
    {outcome : Except String String} {evs : List (Event calls String)}
    (hunsettled : s.settled contractId yearMonth = false) (hplain : Plain evs)
    (hpaid : ∀ hash, PaidWith evs hash ↔ outcome = .ok hash)
    (hdrafts : s'.drafts = attemptRecord contractId yearMonth usageHash usage outcome :: s.drafts) :
    Leaves contractId yearMonth evs s s' := by
  -- the status of the row follows the outcome, and its hash the payment
  apply Leaves.recorded _ hunsettled (countP_plain hplain) hdrafts rfl
  cases outcome with
  | ok txHash =>
    constructor
    · rfl
    · intro hash h
      have heq := (hpaid hash).mp h
      simp only [Except.ok.injEq] at heq
      subst heq
      exact ⟨rfl, rfl⟩
    · intro h
      exact absurd ((hpaid txHash).mpr rfl) (h txHash)
  | error e =>
    constructor
    · rfl
    · intro hash h
      simp [hpaid] at h
    · intro _
      exact ⟨rfl, e, rfl⟩

/-- The payment and its record, after the look-up and the two answered calls. -/
theorem payAndRecord_spec {dto : ContractDto} {seed address usageHash : String}
    {usage : MonthlyUsage} {lookUp : Event calls String} {asked : List (Event calls String)}
    (hunsettled : s.settled contractId yearMonth = false)
    (hlook : isFindMatched contractId yearMonth lookUp = true) (hasked : Unpaid asked) :
    wp (seqSpec attemptWorld)
      (tryCatch (Except.ok <$> paySettlement config dto seed address contractId yearMonth usageHash
          usage) (fun e => pure (.error e)) >>= fun outcome =>
        recordAttempt config dto contractId yearMonth usageHash usage outcome)
      (fun _ => Attempts contractId yearMonth l s) (fun _ => Attempts contractId yearMonth l s)
      (asked ++ lookUp :: l, s) := by
  -- the record is the last part of the attempt, whichever way the payment ends
  have hrecord : ∀ {outcome : Except String String} {paid : List (Event calls String)}
      {g : SettleLog × Store}, g.1 = paid ++ (asked ++ lookUp :: l) → Plain paid → SameRows s g.2 →
      (∀ hash, PaidWith paid hash ↔ outcome = .ok hash) →
      wp (seqSpec attemptWorld)
        (recordAttempt config dto contractId yearMonth usageHash usage outcome)
        (fun _ => Attempts contractId yearMonth l s) (fun _ => Attempts contractId yearMonth l s)
        g := by
    intro outcome paid g hlog hplain hrows hpaid
    obtain ⟨lg, s'⟩ := g
    change lg = _ at hlog
    subst hlog
    apply recordAttempt_spec
    intro seg s'' hseg hcontracts hdrafts
    -- between the look-up and the end there is no other look-up
    have hall : Plain (seg ++ (paid ++ asked)) :=
      plain_append.mpr ⟨hseg.1, plain_append.mpr ⟨hplain, hasked.1⟩⟩
    refine ⟨seg ++ (paid ++ asked), lookUp, ?_, hlook, fun ev hev => (hall ev hev).1,
      hcontracts.trans hrows.1, ?_⟩
    · simp only [List.append_assoc]
    · have hdrafts' : s''.drafts =
          attemptRecord contractId yearMonth usageHash usage outcome :: s.drafts := by
        rw [hdrafts, hrows.2]
      apply leaves_attemptRecord hunsettled hall _ hdrafts'
      intro hash
      simp [paidWith_append, hseg.2 hash, hasked.2 hash, hpaid hash]
  rw [wp_bind, wp_tryCatch, wp_map]
  apply wp_mono _ _ (seqSpec_mono _) _ _ paySettlement_spec
  · rintro hash g ⟨paid, hlog, hplain, hrows, hpaid⟩
    apply hrecord hlog hplain hrows
    intro hash'
    rw [hpaid hash', Except.ok.injEq, eq_comm]
  · rintro e g ⟨paid, hlog, hplain, hrows, hpaid⟩
    apply hrecord hlog hplain hrows
    intro hash'
    simp [hpaid hash']

/-- One attempt, whether it returns or throws. -/
theorem reconcileContract_spec (hready : Ready config s) {c : ContractRow}
    (hmem : c ∈ s.contracts.rows) (hlocked : c.status = .locked) :
    wp (seqSpec attemptWorld) (reconcileContract config c.id yearMonth)
      (fun _ => Attempts c.id yearMonth l s) (fun _ => Attempts c.id yearMonth l s) (l, s) := by
  obtain ⟨dto, seed, address, hdto, hseed, haddress⟩ := hready c hmem hlocked
  unfold reconcileContract
  rw [wp_bind]
  apply wp_answered rfl
  intro choice
  have hfind : (perform (.findMatched c.id yearMonth) choice s).1 =
      s.records.find? (Reconciliation.isMatched c.id yearMonth) := rfl
  have hsettled := settled_eq_isSome c.id yearMonth s
  rw [← hfind] at hsettled
  -- the look-up is answered by the rows that are there
  generalize (perform (.findMatched c.id yearMonth) choice s).1 = found at hsettled
  have hlook : ∀ res, isFindMatched c.id yearMonth ⟨.findMatched c.id yearMonth, res⟩ = true :=
    fun _ => by simp [isFindMatched]
  cases found with
  -- settled before: nothing is called, and nothing is stored
  | some alreadyMatched => exact ⟨[], _, rfl, hlook _, by simp, rfl, .settled hsettled rfl rfl⟩
  | none =>
    dsimp only
    rw [wp_bind]
    apply settleableContract_spec hmem hlocked hdto hseed haddress
    intro found hfound
    rw [wp_bind]
    -- the usage is the one call that may end the attempt without a row
    apply wp_attempted
    · intro choice'
      have hasked : Unpaid [⟨.getMonthlyUsage c.id yearMonth,
          .ok (perform (.getMonthlyUsage c.id yearMonth) choice' s).1⟩, found] := by
        apply unpaid_of_forall
        rw [List.forall_mem_cons, List.forall_mem_singleton]
        exact ⟨⟨rfl, rfl, fun _ => by simp⟩, hfound⟩
      exact payAndRecord_spec hsettled (hlook _) hasked
    · -- the power company has not answered
      intro choice' e
      have hrows : SameRows s (if choice'.applied then
          (perform (.getMonthlyUsage c.id yearMonth) choice' s).2 else s) := by
        split <;> exact ⟨rfl, rfl⟩
      refine ⟨[_, found], _, rfl, hlook _, ?_, hrows.1, .unanswered hsettled ?_ hrows.2⟩
      · rw [List.forall_mem_cons, List.forall_mem_singleton]
        exact ⟨rfl, hfound.1⟩
      · rw [List.countP_cons, List.countP_singleton, hfound.2.1]
        rfl

/-! ## The loop -/

/-- What a draft records depends on the payments of the log only. -/
theorem recordsAttempt_congr {evs evs' : List (Event calls String)} {d : ReconciliationDraft}
    (h : ∀ hash, PaidWith evs' hash ↔ PaidWith evs hash) (hd : RecordsAttempt yearMonth evs d) :
    RecordsAttempt yearMonth evs' d where
  yearMonth_eq := hd.yearMonth_eq
  matched hash hpaid := hd.matched hash ((h hash).mp hpaid)
  failed hnot := hd.failed fun hash hpaid => hnot hash ((h hash).mpr hpaid)

/-- The job of a failed attempt adds no record. -/
theorem attempts_addRetryJob {job : XrplTxRetryJob} {res : Except String Unit}
    {g : SettleLog × Store} (h : Attempts contractId yearMonth l s g) :
    Attempts contractId yearMonth l s
      (⟨.addRetryJob job, res⟩ :: g.1, { g.2 with jobs := job :: g.2.jobs }) := by
  -- the job comes after the attempt, which has left its books
  obtain ⟨seg, lookUp, hlog, hlook, hseg, hcontracts, hleaves⟩ := h
  refine ⟨⟨.addRetryJob job, res⟩ :: seg, lookUp, by rw [hlog]; rfl, hlook, ?_, hcontracts, ?_⟩
  · exact List.forall_mem_cons.mpr ⟨rfl, hseg⟩
  -- it is no failure of the meter request
  · have hcount : (⟨.addRetryJob job, res⟩ :: seg : List (Event calls String)).countP
        isKepcoFailure = seg.countP isKepcoFailure := List.countP_cons_of_neg nofun
    cases hleaves with
    | settled h hfailures hdrafts => exact .settled h (hcount.trans hfailures) hdrafts
    | unanswered h hfailures hdrafts => exact .unanswered h (hcount.trans hfailures) hdrafts
    -- nor a payment
    | recorded d h hfailures hdrafts hid hrecords =>
      refine .recorded d h (hcount.trans hfailures) hdrafts hid (recordsAttempt_congr ?_ hrecords)
      intro hash
      simp [PaidWith]

/-- One contract: its attempt ends with one row, unless KEPCO has failed. -/
theorem reconcileOrEnqueue_spec (hready : Ready config s) {c : ContractRow}
    (hmem : c ∈ s.contracts.rows) (hlocked : c.status = .locked) {contract : ContractDto}
    (hid : contract.id = c.id) :
    wp (seqSpec attemptWorld) (reconcileOrEnqueue config yearMonth contract)
      (fun _ => Attempts c.id yearMonth l s) (fun _ _ => False) (l, s) := by
  unfold reconcileOrEnqueue
  rw [wp_tryCatch, wp_bind, hid]
  apply wp_mono _ _ (seqSpec_mono _) _ _ (reconcileContract_spec hready hmem hlocked)
  · exact fun _ _ h => h
  · intro e g h
    apply wp_answered rfl
    intro _
    exact attempts_addRetryJob h

/-- The attempts for a list of contracts, one after the other; the events are oldest first. -/
inductive AttemptsAll (yearMonth : String) :
    List String → List (Event calls String) → Store → Store → Prop
  | nil {s : Store} : AttemptsAll yearMonth [] [] s s
  | cons {id : String} {ids : List String} {lookUp : Event calls String}
      {seg evs : List (Event calls String)} {s t u : Store}
      (hlook : isFindMatched id yearMonth lookUp = true) (hseg : ∀ ev ∈ seg, isLookUp ev = false)
      (hleaves : Leaves id yearMonth seg s t) (hrest : AttemptsAll yearMonth ids evs t u) :
      AttemptsAll yearMonth (id :: ids) (lookUp :: (seg.reverse ++ evs)) s u

/-- All contracts of the loop, one after the other. -/
theorem forM_reconcileOrEnqueue_spec {contracts : List ContractDto} (hready : Ready config s)
    (hrows : ∀ contract ∈ contracts, ∃ c ∈ s.contracts.rows, c.status = .locked ∧
      contract.id = c.id) :
    wp (seqSpec attemptWorld) (forM contracts (reconcileOrEnqueue config yearMonth))
      (fun _ g => ∃ evs, g.1 = evs.reverse ++ l ∧
        AttemptsAll yearMonth (contracts.map (·.id)) evs s g.2)
      (fun _ _ => False) (l, s) := by
  -- induction on the contracts; each leaves the rows of the contracts after it alone
  induction contracts generalizing l s with
  | nil => exact ⟨[], rfl, .nil⟩
  | cons contract contracts ih =>
    obtain ⟨⟨c, hmem, hlocked, hid⟩, hothers⟩ := List.forall_mem_cons.mp hrows
    rw [List.forM_cons, wp_bind]
    apply wp_mono _ _ (seqSpec_mono _) _ _ (reconcileOrEnqueue_spec hready hmem hlocked hid)
    · rintro _ ⟨l', t⟩ ⟨seg, lookUp, hlog, hlook, hseg, hcontracts, hleaves⟩
      change l' = _ at hlog
      change t.contracts = _ at hcontracts
      subst hlog
      -- the contracts are kept, so the rest of them is still ready
      have hready' : Ready config t := by
        unfold Ready
        rwa [hcontracts]
      rw [← hcontracts] at hothers
      apply wp_mono _ _ (seqSpec_mono _) _ _ (ih hready' hothers)
      · rintro _ g ⟨evs, hlog, hall⟩
        refine ⟨lookUp :: (seg.reverse ++ evs), by simp [hlog], ?_⟩
        rw [List.map_cons, hid]
        exact .cons hlook hseg hleaves hall
      · exact fun _ _ h => h
    · exact fun _ _ h => h

/-! ## The records of the loop -/

/-- The same look-up, over the drafts of the rows. -/
theorem settled_eq_any (s : Store) :
    s.settled contractId yearMonth = s.drafts.any fun d =>
      d.contractId = contractId && d.yearMonth = yearMonth && d.status = .matched := by
  unfold Store.settled Store.drafts
  rw [List.any_map]
  rfl

/-- An attempt does not settle the other contracts. -/
theorem settled_of_leaves {id : String} {evs : List (Event calls String)} {s' : Store}
    (h : Leaves id yearMonth evs s s') (hne : id ≠ contractId) :
    s'.settled contractId yearMonth = s.settled contractId yearMonth := by
  rw [settled_eq_any, settled_eq_any]
  cases h with
  | settled _ _ hdrafts => rw [hdrafts]
  | unanswered _ _ hdrafts => rw [hdrafts]
  | recorded d _ _ hdrafts hid _ =>
    have hother : decide (d.contractId = contractId) = false := by simp [hid, hne]
    rw [hdrafts, List.any_cons, hother]
    rfl

/-- Which call looks a settled month up. -/
theorem isFindMatched_iff {ev : Event calls String} :
    isFindMatched contractId yearMonth ev = true ↔
      ∃ res, ev = ⟨.findMatched contractId yearMonth, res⟩ := by
  constructor
  -- the look-up names the contract and the month
  · intro h
    unfold isFindMatched at h
    split at h
    · simp only [Bool.and_eq_true, decide_eq_true_eq] at h
      obtain ⟨rfl, rfl⟩ := h
      exact ⟨_, rfl⟩
    · cases h
  · rintro ⟨res, rfl⟩
    simp [isFindMatched]

/-- Other calls do not. -/
theorem isFindMatched_of_not_isLookUp {ev : Event calls String} (h : isLookUp ev = false) :
    isFindMatched contractId yearMonth ev = false := by
  rw [← Bool.not_eq_true]
  intro hfind
  obtain ⟨res, rfl⟩ := isFindMatched_iff.mp hfind
  cases h

/-- A look-up for one contract is none for another. -/
theorem isFindMatched_of_ne {id : String} {ev : Event calls String}
    (h : isFindMatched id yearMonth ev = true) (hne : id ≠ contractId) :
    isFindMatched contractId yearMonth ev = false := by
  obtain ⟨res, rfl⟩ := isFindMatched_iff.mp h
  simp [isFindMatched, hne]

/-- The calls for a contract begin with its own look-up. -/
theorem callsFor_skip {first rest : List (Event calls String)}
    (h : ∀ ev ∈ first, isFindMatched contractId yearMonth ev = false) :
    callsFor yearMonth contractId (first ++ rest) = callsFor yearMonth contractId rest := by
  unfold callsFor
  rw [List.dropWhile_append_of_pos]
  intro ev hev
  simp [h ev hev]

/-- And they end before the next look-up. -/
theorem callsFor_first {lookUp : Event calls String} {seg rest : List (Event calls String)}
    (hlook : isFindMatched contractId yearMonth lookUp = true)
    (hseg : ∀ ev ∈ seg, isLookUp ev = false) :
    callsFor yearMonth contractId (lookUp :: (seg ++ rest)) =
      seg ++ rest.takeWhile fun ev => !isLookUp ev := by
  unfold callsFor
  rw [List.dropWhile_cons_of_neg (by simp [hlook]), List.drop_one, List.tail_cons,
    List.takeWhile_append_of_pos]
  intro ev hev
  simp [hseg ev hev]

/-- What follows an attempt up to the next one is the end of the run, or nothing. -/
theorem unpaid_takeWhile {ids : List String} {evs tail : List (Event calls String)} {s' : Store}
    (h : AttemptsAll yearMonth ids evs s s') (htail : Unpaid tail) :
    Unpaid ((evs ++ tail).takeWhile fun ev => !isLookUp ev) := by
  -- the run is over, or the next contract is looked up
  cases h with
  | nil =>
    have hsub := (List.takeWhile_sublist (l := tail) fun ev => !isLookUp ev).subset
    constructor
    · exact fun ev hev => htail.1 ev (hsub hev)
    · rintro hash ⟨tx, htx⟩
      exact htail.2 hash ⟨tx, hsub htx⟩
  | cons hlook hseg hleaves hrest =>
    -- the segment of the next contract starts with its look-up
    obtain ⟨res, rfl⟩ := isFindMatched_iff.mp hlook
    rw [List.cons_append, List.takeWhile_cons_of_neg (by simp [isLookUp])]
    exact unpaid_of_forall (by simp)

/-- The records that the loop adds, oldest first: each is of another contract without a matched
    one, and there are as many as contracts for which the power company has answered. -/
theorem drafts_attemptsAll {ids : List String} {evs tail : List (Event calls String)} {s' : Store}
    (h : AttemptsAll yearMonth ids evs s s') (hids : ids.Nodup) (htail : Unpaid tail) :
    ∃ drafts : List ReconciliationDraft, s'.drafts = drafts.reverse ++ s.drafts ∧
      (drafts.map (·.contractId)).Sublist (ids.filter fun id => !s.settled id yearMonth) ∧
      drafts.length + evs.countP isKepcoFailure =
        (ids.filter fun id => !s.settled id yearMonth).length ∧
      ∀ d ∈ drafts, RecordsAttempt yearMonth (callsFor yearMonth d.contractId (evs ++ tail)) d := by
  induction h with
  | nil => exact ⟨[], rfl, by simp, rfl, by simp⟩
  | @cons id ids lookUp seg evs s t u hlook hseg hleaves hrest ih =>
    rw [List.nodup_cons] at hids
    obtain ⟨drafts, hdrafts, hsub, hcount, hrecords⟩ := ih hids.2
    have hne : ∀ id' ∈ ids, id ≠ id' := fun id' hmem heq => hids.1 (heq ▸ hmem)
    -- the first attempt has not changed which of the other contracts are settled
    have hfilter : (ids.filter fun id => !t.settled id yearMonth) =
        ids.filter fun id => !s.settled id yearMonth :=
      List.filter_congr fun id' hmem => by rw [settled_of_leaves hleaves (hne id' hmem)]
    rw [hfilter] at hsub hcount
    have hlook' : isKepcoFailure lookUp = false := by
      obtain ⟨res, rfl⟩ := isFindMatched_iff.mp hlook
      rfl
    have hfailures : (lookUp :: (seg.reverse ++ evs)).countP isKepcoFailure =
        seg.countP isKepcoFailure + evs.countP isKepcoFailure := by
      rw [List.countP_cons_of_neg (by simp [hlook']), List.countP_append, List.countP_reverse]
    have hseg' : ∀ ev ∈ seg.reverse, isLookUp ev = false :=
      fun ev hev => hseg ev (List.mem_reverse.mp hev)
    have hrest' : ∀ d ∈ drafts, RecordsAttempt yearMonth
        (callsFor yearMonth d.contractId (lookUp :: (seg.reverse ++ evs) ++ tail)) d := by
      intro d hd
      have hmem := (List.mem_filter.mp (hsub.subset (List.mem_map_of_mem hd))).1
      have hskip : ∀ ev ∈ lookUp :: seg.reverse,
          isFindMatched d.contractId yearMonth ev = false :=
        List.forall_mem_cons.mpr ⟨isFindMatched_of_ne hlook (hne _ hmem),
          fun ev hev => isFindMatched_of_not_isLookUp (hseg' ev hev)⟩
      rw [List.cons_append, List.append_assoc, ← List.cons_append, callsFor_skip hskip]
      exact hrecords d hd
    rw [hfailures]
    cases hleaves with
    | settled hsettled hnone hsame =>
      refine ⟨drafts, by rw [hdrafts, hsame], ?_, ?_, hrest'⟩
      · rwa [List.filter_cons_of_neg (by simp [hsettled])]
      · rw [List.filter_cons_of_neg (by simp [hsettled])]
        omega
    | unanswered hunsettled hone hsame =>
      refine ⟨drafts, by rw [hdrafts, hsame], ?_, ?_, hrest'⟩
      · rw [List.filter_cons_of_pos (by simp [hunsettled])]
        exact hsub.cons _
      · rw [List.filter_cons_of_pos (by simp [hunsettled]), List.length_cons]
        omega
    | recorded d hunsettled hnone hadded hid hrecorded =>
      refine ⟨d :: drafts, by rw [hdrafts, hadded]; simp, ?_, ?_, ?_⟩
      · rw [List.filter_cons_of_pos (by simp [hunsettled]), List.map_cons, hid]
        exact hsub.cons_cons _
      · rw [List.filter_cons_of_pos (by simp [hunsettled]), List.length_cons, List.length_cons]
        omega
      · refine List.forall_mem_cons.mpr ⟨?_, hrest'⟩
        rw [List.cons_append, List.append_assoc, hid, callsFor_first hlook hseg']
        refine recordsAttempt_congr (fun hash => ?_) hrecorded
        rw [paidWith_append, or_iff_left ((unpaid_takeWhile hrest htail).2 hash)]
        simp [PaidWith]

/-! ## The run -/

/-- The power company has rejected no call. -/
def KepcoAnswers (evs : List (Event calls String)) : Prop :=
  ∀ contractId yearMonth e,
    (⟨.getMonthlyUsage contractId yearMonth, .error e⟩ : Event calls String) ∉ evs

/-- KEPCO answers when no failure is in the log. -/
theorem kepcoAnswers_iff {evs : List (Event calls String)} :
    KepcoAnswers evs ↔ evs.countP isKepcoFailure = 0 := by
  rw [List.countP_eq_zero]
  constructor
  · intro h ev hev hfailure
    unfold isKepcoFailure at hfailure
    split at hfailure
    · exact h _ _ _ hev
    · cases hfailure
  · intro h contractId yearMonth e hmem
    exact h _ hmem rfl

/-- The locked contracts, in the order of the run. -/
def Store.lockedIds (s : Store) : List String :=
  (s.contracts.rows.filter fun c => decide (c.status = .locked)).map (·.id)

/-- The contracts that are left to do, by their identifiers. -/
theorem unsettled_ids (s : Store) : (s.unsettled yearMonth).map (·.id) =
    s.lockedIds.filter fun id => !s.settled id yearMonth := by
  unfold Store.unsettled Store.lockedIds
  rw [List.filter_map]
  rfl

/-- No contract is locked twice. -/
theorem nodup_lockedIds (s : Store) : s.lockedIds.Nodup :=
  s.contracts.nodup.sublist (List.filter_sublist.map _)

/-- The log and the state after a run: its attempts, and other calls before and after them. -/
def RunOf (yearMonth : String) (s : Store) (g : SettleLog × Store) : Prop :=
  ∃ first evs last, g.1.reverse = first ++ (evs ++ last) ∧ Unpaid first ∧ Unpaid last ∧
    AttemptsAll yearMonth s.lockedIds evs s g.2

/-- The records of a run. -/
theorem drafts_runOf {g : SettleLog × Store} (h : RunOf yearMonth s g) :
    ∃ drafts : List ReconciliationDraft, g.2.drafts = drafts.reverse ++ s.drafts ∧
      (drafts.map (·.contractId)).Sublist ((s.unsettled yearMonth).map (·.id)) ∧
      drafts.length + g.1.countP isKepcoFailure = (s.unsettled yearMonth).length ∧
      ∀ d ∈ drafts, RecordsAttempt yearMonth (callsFor yearMonth d.contractId g.1.reverse) d := by
  obtain ⟨first, evs, last, hlog, hfirst, hlast, hall⟩ := h
  obtain ⟨drafts, hdrafts, hsub, hcount, hrecords⟩ :=
    drafts_attemptsAll hall (nodup_lockedIds s) hlast
  -- the calls before and after the attempts are no failures
  have hfailures : g.1.countP isKepcoFailure = evs.countP isKepcoFailure := by
    rw [← List.countP_reverse, hlog, List.countP_append, List.countP_append,
      countP_plain hfirst.1, countP_plain hlast.1]
    omega
  rw [← unsettled_ids] at hsub hcount
  rw [List.length_map] at hcount
  -- the rows of the attempts are those of the unsettled contracts
  refine ⟨drafts, hdrafts, hsub, hfailures ▸ hcount, ?_⟩
  intro d hd
  rw [hlog, callsFor_skip fun ev hev => isFindMatched_of_not_isLookUp (hfirst.1 ev hev).1]
  exact hrecords d hd

/-- A run records every attempt if and only if the power company has answered. -/
theorem everyAttemptRecorded_iff {g : SettleLog × Store} (h : RunOf yearMonth s g) :
    EveryAttemptRecorded yearMonth s g.1.reverse g.2 ↔ KepcoAnswers g.1 := by
  -- every attempt without a failure leaves one draft, so the counts decide
  obtain ⟨drafts, hdrafts, hsub, hcount, hrecords⟩ := drafts_runOf h
  rw [kepcoAnswers_iff]
  constructor
  -- as many drafts as contracts leave no room for a failure
  · rintro ⟨drafts', hdrafts', hids, -⟩
    have hlength : drafts'.length = drafts.length := by
      have hboth := congrArg List.length (hdrafts'.symm.trans hdrafts)
      simpa using hboth
    have hids' := congrArg List.length hids
    simp only [List.length_map] at hids'
    omega
  -- and without a failure none of the contracts is missing
  · intro hnone
    refine ⟨drafts, hdrafts, hsub.eq_of_length ?_, hrecords⟩
    rw [List.length_map, List.length_map]
    omega

/-- A whole run: the calls, contract by contract, and the rows they have left. -/
theorem runMonthlyReconcile_spec (hready : Ready config s) :
    wp (seqSpec attemptWorld) (runMonthlyReconcile config yearMonth)
      (fun _ g => ∃ evs listed, g.1 = evs.reverse ++ listed :: l ∧ Unpaid [listed] ∧
        AttemptsAll yearMonth s.lockedIds evs s g.2) (fun _ _ => False) (l, s) := by
  unfold runMonthlyReconcile findAllLocked
  rw [wp_bind, wp_bind]
  apply wp_answered rfl
  intro choice
  have hrows : (perform .findLockedContracts choice s).1 =
      s.contracts.rows.filter fun c => decide (c.status = .locked) := rfl
  generalize (perform .findLockedContracts choice s).1 = rows at hrows ⊢
  subst hrows
  have hlocked : ∀ c ∈ s.contracts.rows.filter (fun c => decide (c.status = .locked)),
      c ∈ s.contracts.rows ∧ c.status = .locked := fun c hc => by simpa using hc
  -- the list is read, because every locked row can be decrypted
  have hdecrypts : Decrypts config
      (s.contracts.rows.filter fun c => decide (c.status = .locked)) := by
    intro c hc
    obtain ⟨dto, -, -, hdto, -, -⟩ := hready c (hlocked c hc).1 (hlocked c hc).2
    exact ⟨dto, hdto⟩
  rw [wp_orThrow]
  rcases mapM_toDto config (s.contracts.rows.filter fun c => decide (c.status = .locked))
    with ⟨-, contracts, hcontracts, hids⟩ | ⟨hnot, -⟩
  · rw [hcontracts]
    dsimp only [post_ok]
    -- the contracts of the list are the locked rows
    have hlisted : ∀ contract ∈ contracts, ∃ c ∈ s.contracts.rows, c.status = .locked ∧
        contract.id = c.id := by
      intro contract hmem
      have hid := List.mem_map_of_mem (f := ContractDto.id) hmem
      rw [hids, List.mem_map] at hid
      obtain ⟨c, hc, hid⟩ := hid
      exact ⟨c, (hlocked c hc).1, (hlocked c hc).2, hid.symm⟩
    apply wp_mono _ _ (seqSpec_mono _) _ _ (forM_reconcileOrEnqueue_spec hready hlisted)
    · rintro _ g ⟨evs, hlog, hall⟩
      rw [hids] at hall
      exact ⟨evs, _, hlog, unpaid_of_forall (by simp [isLookUp, isKepcoFailure]), hall⟩
    · exact fun _ _ h => h
  · exact absurd hdecrypts hnot

/-- The rows of a month are counted by their drafts. -/
theorem countP_records (s : Store) : (s.records.countP fun r => decide (r.yearMonth = yearMonth)) =
    s.drafts.countP fun d => decide (d.yearMonth = yearMonth) := by
  unfold Store.drafts
  rw [List.countP_map]
  rfl

/-- A run adds as many records of its month as contracts the power company has answered for. -/
theorem countP_runOf {g : SettleLog × Store} (h : RunOf yearMonth s g) :
    (g.2.records.countP fun r => decide (r.yearMonth = yearMonth)) + g.1.countP isKepcoFailure =
      (s.records.countP fun r => decide (r.yearMonth = yearMonth)) +
        (s.unsettled yearMonth).length := by
  obtain ⟨drafts, hdrafts, -, hcount, hrecords⟩ := drafts_runOf h
  have hmonth : (drafts.countP fun d => decide (d.yearMonth = yearMonth)) = drafts.length := by
    rw [List.countP_eq_length]
    intro d hd
    simp [(hrecords d hd).yearMonth_eq]
  rw [countP_records, countP_records, hdrafts, List.countP_append, List.countP_reverse, hmonth]
  omega

/-- The order of the log does not matter. -/
theorem unpaid_reverse {evs : List (Event calls String)} (h : Unpaid evs) : Unpaid evs.reverse := by
  constructor
  · exact fun ev hev => h.1 ev (List.mem_reverse.mp hev)
  · rintro hash ⟨tx, htx⟩
    exact h.2 hash ⟨tx, List.mem_reverse.mp htx⟩

/-- A run between two counts. -/
theorem runOf_counted {evs : List (Event calls String)} {listed : Event calls String}
    {s' : Store} {n m : Except String Nat} (hl : Unpaid l) (hlisted : Unpaid [listed])
    (hall : AttemptsAll yearMonth s.lockedIds evs s s') :
    RunOf yearMonth s (⟨.countRecords yearMonth, n⟩ ::
      (evs.reverse ++ listed :: ⟨.countRecords yearMonth, m⟩ :: l), s') := by
  have hcounted : ∀ res, Unpaid [⟨.countRecords yearMonth, res⟩] := fun _ =>
    unpaid_of_forall (by simp [isLookUp, isKepcoFailure])
  refine ⟨l.reverse ++ ([⟨.countRecords yearMonth, m⟩] ++ [listed]), evs,
    [⟨.countRecords yearMonth, n⟩], by simp, ?_, hcounted n, hall⟩
  exact unpaid_append (unpaid_reverse hl) (unpaid_append (hcounted m) hlisted)

/-- What a manual run of a whole month leaves. -/
def ManualRunOf (yearMonth : String) (s : Store) (result : ManualResult) (g : SettleLog × Store) :
    Prop :=
  result.yearMonth = yearMonth ∧ RunOf yearMonth s g ∧
    result.processed + g.1.countP isKepcoFailure = (s.unsettled yearMonth).length

/-- The manual run, once the month is known. -/
theorem countedRun_spec (hready : Ready config s) {l : SettleLog} (hl : Unpaid l) :
    wp (seqSpec attemptWorld)
      (do
        let before ← invoke (.countRecords yearMonth)
        runMonthlyReconcile config yearMonth
        let after ← invoke (.countRecords yearMonth)
        return (⟨yearMonth, (after : Int) - before⟩ : ManualResult))
      (ManualRunOf yearMonth s) (fun _ _ => False) (l, s) := by
  rw [wp_bind]
  apply wp_answered rfl
  intro _
  rw [wp_bind]
  apply wp_mono _ _ (seqSpec_mono _) _ _ (runMonthlyReconcile_spec hready)
  -- the run between two counts of the rows of the month
  · rintro _ ⟨l', s'⟩ ⟨evs, listed, hlog, hlisted, hall⟩
    change l' = _ at hlog
    subst hlog
    rw [wp_bind]
    apply wp_answered rfl
    intro _
    refine ⟨rfl, runOf_counted hl hlisted hall, ?_⟩
    have hcount := countP_runOf (runOf_counted (n := .ok (s'.records.countP fun r =>
      decide (r.yearMonth = yearMonth))) (m := .ok (s.records.countP fun r =>
      decide (r.yearMonth = yearMonth))) hl hlisted hall)
    dsimp only [perform] at hcount ⊢
    omega
  · exact fun _ _ h => h

/-- The log of a trigger and the state it leaves, for the runs of a whole month. -/
theorem runManualReconcile_spec (hready : Ready config s) {opts : RunReconciliationDto}
    (hall : truthy opts.contractId = none) :
    wp (seqSpec attemptWorld) (runManualReconcile config opts)
      (fun result g => (∀ ym ∈ opts.yearMonth, result.yearMonth = ym) ∧
        ManualRunOf result.yearMonth s result g) (fun _ _ => False) ([], s) := by
  unfold runManualReconcile requestedMonth
  rw [wp_bind]
  -- the month is named, or read off the clock
  cases hmonth : opts.yearMonth with
  | some ym =>
    rw [wp_pure, hall]
    apply wp_mono _ _ (seqSpec_mono _) _ _ (countedRun_spec hready (unpaid_of_forall (by simp)))
    · rintro result g ⟨heq, hrun⟩
      refine ⟨by simp [heq], rfl, ?_⟩
      rwa [heq]
    · exact fun _ _ h => h
  | none =>
    rw [wp_map]
    apply wp_answered rfl
    intro choice
    rw [hall]
    have hclock : Unpaid [⟨.clock, .ok choice.now⟩] :=
      unpaid_of_forall (by simp [isLookUp, isKepcoFailure])
    apply wp_mono _ _ (seqSpec_mono _) _ _ (countedRun_spec hready hclock)
    · rintro result g ⟨heq, hrun⟩
      refine ⟨by simp, rfl, ?_⟩
      rwa [heq]
    · exact fun _ _ h => h

/-- However the power company, the ledger and the report answer, a run for a month returns, and it
    adds one record for every locked contract without a matched one, matched with the hash of its
    payment or failed, if and only if the power company has rejected no call; and then a manual
    run has processed as many. -/
theorem every_attempt_recorded (hready : Ready config s) :
    (∀ choices l x s', exec attemptWorld (runMonthlyReconcile config yearMonth) choices [] s =
        some (l, x, s') →
      x = .ok () ∧ (EveryAttemptRecorded yearMonth s l.reverse s' ↔ KepcoAnswers l)) ∧
    ∀ opts : RunReconciliationDto, truthy opts.contractId = none → ∀ choices l x s',
      exec attemptWorld (runManualReconcile config opts) choices [] s = some (l, x, s') →
      ∃ result, x = .ok result ∧ (∀ ym ∈ opts.yearMonth, result.yearMonth = ym) ∧
        (EveryAttemptRecorded result.yearMonth s l.reverse s' ↔ KepcoAnswers l) ∧
          (result.processed = (s.unsettled result.yearMonth).length ↔ KepcoAnswers l) := by
  -- the scheduled run, and the run by hand over all contracts
  constructor
  · intro choices l x s' h
    have hrun := exec_sound (runMonthlyReconcile_spec hready) h
    cases x with
    | error e => exact hrun.elim
    | ok u =>
      obtain ⟨evs, listed, hlog, hlisted, hall⟩ := hrun
      refine ⟨rfl, everyAttemptRecorded_iff (g := (l, s')) ⟨[listed], evs, [], ?_, hlisted,
        unpaid_of_forall (by simp), hall⟩⟩
      show l.reverse = _
      rw [show l = _ from hlog]
      simp
  · intro opts hall choices l x s' h
    have hrun := exec_sound (runManualReconcile_spec hready hall) h
    cases x with
    | error e => exact hrun.elim
    | ok result =>
      obtain ⟨hmonth, -, hrun, hprocessed⟩ := hrun
      refine ⟨result, rfl, hmonth, everyAttemptRecorded_iff hrun, ?_⟩
      rw [kepcoAnswers_iff]
      dsimp only at hprocessed
      omega

/-! ## Concrete runs -/

/-- A contract with the account of `sampleStore`. -/
def sampleRow (id : String) (status : ContractStatus) : ContractRow where
  id := id
  landlordAddress := "rLandlordLandlordLandlord"
  contractAccountAddress := some "rContractContractContract"
  contractAccountSeedCipher := some "sEdContractSeed"
  status := status
  tenantPiiCipher := ""
  landlordPiiCipher := ""
  tenantEmail := none

/-- Locked rows of the sample are ready. -/
theorem ready_sampleRows {s : Store} (h : ∀ c ∈ s.contracts.rows, ∃ id, c = sampleRow id c.status) :
    Ready sampleConfig s := by
  intro c hc _
  obtain ⟨id, hrow⟩ := h c hc
  rw [hrow]
  exact ⟨_, "sEdContractSeed", "rContractContractContract", rfl, rfl, rfl⟩

/-- So is the sample store. -/
theorem ready_sampleStore : Ready sampleConfig sampleStore :=
  ready_sampleRows fun c hc => ⟨"c1", by rw [List.mem_singleton.mp hc]; rfl⟩

/-- Three locked contracts, the first of which has its record for the month, and a disputed one. -/
def mixedStore : Store where
  contracts := (((Table.empty.set (sampleRow "c0" .locked)).set (sampleRow "c1" .locked)).set
    (sampleRow "c2" .disputed)).set (sampleRow "c3" .locked)
  records := [⟨attemptRecord "c0" "2026-04" sampleDigest sampleUsage (.ok "A0"), "r0", none, 0⟩]
  jobs := []
  emails := []
  ledger := []

/-- And the one with mixed outcomes. -/
theorem ready_mixedStore : Ready sampleConfig mixedStore := by
  refine ready_sampleRows fun c hc => ?_
  -- the four contracts of the sample, each with its seed
  have hrows : mixedStore.contracts.rows = [sampleRow "c0" .locked, sampleRow "c1" .locked,
      sampleRow "c2" .disputed, sampleRow "c3" .locked] := rfl
  rw [hrows] at hc
  simp only [List.mem_cons, List.not_mem_nil, or_false] at hc
  rcases hc with rfl | rfl | rfl | rfl
  · exact ⟨"c0", rfl⟩
  · exact ⟨"c1", rfl⟩
  · exact ⟨"c2", rfl⟩
  · exact ⟨"c3", rfl⟩

/-- The calls of an attempt: the look-up, the contract, the power company, the ledger, the record. -/
def attemptChoices (payment : Choice) : List Choice :=
  [{}, {}, { usage := sampleUsage }, payment, {}]

/-- The first unsettled contract is paid, the payment of the second one times out. -/
def mixedChoices : List Choice :=
  {} :: {} :: (attemptChoices sampleSuccess ++ attemptChoices (sampleTimeout false)).concat {}

/-- The power company does not answer for the first unsettled contract, the second one is paid. -/
def unansweredChoices : List Choice :=
  {} :: {} :: {} :: {} :: sampleTimeout false :: {} :: attemptChoices sampleSuccess

/-- A run with a payment that succeeds and one that fails records both; a run in which the power
    company answers for one contract only does not record every attempt. -/
theorem every_attempt_recorded_mixed :
    (∃ l s', exec attemptWorld (runMonthlyReconcile sampleConfig "2026-04") mixedChoices []
        mixedStore = some (l, .ok (), s') ∧
      EveryAttemptRecorded "2026-04" mixedStore l.reverse s' ∧
      s'.drafts.map (fun d => (d.contractId, d.status)) =
        [("c3", .failed), ("c1", .matched), ("c0", .matched)]) ∧
    ∃ l s', exec attemptWorld (runMonthlyReconcile sampleConfig "2026-04") unansweredChoices []
        mixedStore = some (l, .ok (), s') ∧
      ¬ EveryAttemptRecorded "2026-04" mixedStore l.reverse s' ∧
      s'.drafts.map (fun d => (d.contractId, d.status)) = [("c3", .matched), ("c0", .matched)] := by
  -- mixed outcomes, all recorded; then one contract without an answer
  constructor
  · have hany : (exec attemptWorld (runMonthlyReconcile sampleConfig "2026-04") mixedChoices []
        mixedStore).any (fun r => r.1.countP isKepcoFailure = 0 ∧
          r.2.2.drafts.map (fun d => (d.contractId, d.status)) =
            [("c3", .failed), ("c1", .matched), ("c0", .matched)]) = true := by decide +kernel
    rw [Option.any_eq_true] at hany
    obtain ⟨⟨l, x, s'⟩, hexec, hboth⟩ := hany
    obtain ⟨hcount, hdrafts⟩ := of_decide_eq_true hboth
    obtain ⟨rfl, hrun⟩ := (every_attempt_recorded ready_mixedStore).1 _ _ _ _ hexec
    exact ⟨l, s', hexec, hrun.mpr (kepcoAnswers_iff.mpr hcount), hdrafts⟩
  · have hany : (exec attemptWorld (runMonthlyReconcile sampleConfig "2026-04") unansweredChoices []
        mixedStore).any (fun r => r.1.countP isKepcoFailure = 1 ∧
          r.2.2.drafts.map (fun d => (d.contractId, d.status)) =
            [("c3", .matched), ("c0", .matched)]) = true := by decide +kernel
    rw [Option.any_eq_true] at hany
    obtain ⟨⟨l, x, s'⟩, hexec, hboth⟩ := hany
    obtain ⟨hcount, hdrafts⟩ := of_decide_eq_true hboth
    obtain ⟨rfl, hrun⟩ := (every_attempt_recorded ready_mixedStore).1 _ _ _ _ hexec
    refine ⟨l, s', hexec, fun hall => ?_, hdrafts⟩
    have hzero : l.countP isKepcoFailure = 0 := kepcoAnswers_iff.mp (hrun.mp hall)
    have hone : l.countP isKepcoFailure = 1 := hcount
    omega

/-- The power company does not answer: there is no record of the attempt. -/
theorem unanswered_attempt_not_recorded :
    ¬ ∀ (config : Config) (yearMonth : String) (s : Store), Ready config s →
      ∀ choices l x s', exec attemptWorld (runMonthlyReconcile config yearMonth) choices [] s =
        some (l, x, s') → EveryAttemptRecorded yearMonth s l.reverse s' := by
  intro h
  have hany : (exec attemptWorld (runMonthlyReconcile sampleConfig "2026-04")
      [{}, {}, {}, { failure := some "timeout of 10000ms exceeded" }, {}] [] sampleStore).any
      (fun r => r.2.2.records.isEmpty) = true := by decide +kernel
  rw [Option.any_eq_true] at hany
  obtain ⟨⟨l, x, s'⟩, hexec, hempty⟩ := hany
  -- the claim would leave a row, and the run has left none
  obtain ⟨drafts, hdrafts, hids, -⟩ := h _ _ _ ready_sampleStore _ _ _ _ hexec
  have hnone : s'.drafts = [] := by
    unfold Store.drafts
    rw [List.isEmpty_iff.mp hempty]
    rfl
  rw [hnone, eq_comm, List.append_eq_nil_iff, List.reverse_eq_nil_iff] at hdrafts
  rw [hdrafts.1] at hids
  cases hids

end Bluesafe.Settle
