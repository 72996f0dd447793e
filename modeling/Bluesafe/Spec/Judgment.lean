import Bluesafe.Spec.JudgmentExclusive

/-!
# The consequences of a judgment

A judgment has consequences: the transactions its ruling asks for, in order. A builder
may fail, and then the list ends there with an error. This is a `Plan`, a pure function of
the dispute, the ruling and the arguments.

`executeJudgment_eq` says that `executeJudgment` opens the judgment, submits its plan one
transaction after the other, and throws the plan's error at its end. `run_submitAll` says
what a run of the plan submits and what the ledger applies, for every sequence of answers
of the ledger. The two properties of a judgment, that a failure can be made good and that
each step waits for the success of the escrows before it, are then read off the plan.
-/

namespace Bluesafe.Judge

open Async Transition
open Bluesafe.Ops (truthy truthy_eq_some)

/-! ## Plans -/

/-- Transactions to submit in order, and the error that ends the list early. -/
structure Plan where
  txs : List Tx
  failure : Option String
  deriving DecidableEq, Repr

/-- One plan after the other; an error ends it. -/
def Plan.append (p q : Plan) : Plan :=
  match p.failure with
  | some e => ⟨p.txs, some e⟩
  | none => ⟨p.txs ++ q.txs, q.failure⟩

/-- The plan of one transaction that has to be built. -/
def Plan.build : Except String Tx → Plan
  | .ok tx => ⟨[tx], none⟩
  | .error e => ⟨[], some e⟩

/-- The settlement of the deposit: refunded, or released to the landlord. -/
def cancelDepositTx (o : Opened) (signer : String) : Tx :=
  buildCancel signer o.dispute.disputeMeta.depositEscrow.owner
    o.dispute.disputeMeta.depositEscrow.sequence

def finishDepositTx (config : Config) (o : Opened) (signer : String) : Except String Tx :=
  buildFinish config.sha256 signer o.dispute.disputeMeta.depositEscrow.owner
    o.dispute.disputeMeta.depositEscrow.sequence o.dispute.disputeMeta.depositEscrow.fulfillment

/-- The release of the stake. -/
def finishStakeTx (o : Opened) (signer : String) : Tx :=
  .escrowFinish signer o.dispute.disputeMeta.stakeEscrow.owner
    o.dispute.disputeMeta.stakeEscrow.sequence none

/-- The two payments of a slashed stake. -/
def slashTxs (config : Config) (o : Opened) (funder : String) (total : Int) : List Tx :=
  [buildPayment funder o.dispute.disputeMeta.parties.tenant (toString (slashToTenant total)),
    buildPayment funder config.insurancePoolAccount (toString (slashToInsurance total))]

/-- The consequences of slashing. -/
def slashPlan (config : Config) (o : Opened) (funder : String) : Plan :=
  match truthy o.dispute.disputeMeta.stakeAmountDrops with
  | none => ⟨[], some "slashStake requires meta.stakeAmountDrops (XRP drops as string)"⟩
  | some drops =>
    match bigInt drops with
    | none => ⟨[finishStakeTx o funder], some ("Cannot convert " ++ drops ++ " to a BigInt")⟩
    | some total => ⟨finishStakeTx o funder :: slashTxs config o funder total, none⟩

/-- The consequences for the two escrows. -/
def escrowPlan (config : Config) (args : ExecuteArgs) (o : Opened) : Plan :=
  match o.ruling with
  | .tenantWins =>
    Plan.append ⟨[cancelDepositTx o args.bluesafeWallet], none⟩
      (slashPlan config o args.poolFunderWallet)
  | .landlordWins =>
    (Plan.build (finishDepositTx config o args.bluesafeWallet)).append
      ⟨[finishStakeTx o args.bluesafeWallet], none⟩
  | .systemFault =>
    ⟨[cancelDepositTx o args.bluesafeWallet, finishStakeTx o args.bluesafeWallet], none⟩

/-- The judgment NFT. -/
def judgmentNft (args : ExecuteArgs) (o : Opened) : Except String Tx :=
  buildDisputeNFT args.issuerWallet o.dispute.disputeId o.ruling o.tally
    args.panelAnonymizedHashes o.dispute.disputeMeta.evidenceUris args.judgmentUri

/-- The consequences of a judgment. -/
def judgmentPlan (config : Config) (args : ExecuteArgs) (o : Opened) : Plan :=
  (escrowPlan config args o).append (Plan.build (judgmentNft args o))

/-! ## `executeJudgment` carries out its plan -/

/-- Submit transactions in order. -/
def submitAll (ref : Nat) : List Tx → JudgeM Unit
  | [] => pure ()
  | tx :: txs => do
    submitAndPush ref tx
    submitAll ref txs

/-- Throw the error of a plan. -/
def raise : Option String → JudgeM Unit
  | none => pure ()
  | some e => throw e

/-- Submit the transactions of a plan, then throw its error. -/
def Plan.submit (ref : Nat) (p : Plan) : JudgeM Unit := do
  submitAll ref p.txs
  raise p.failure

theorem throw_bind {α β : Type} (e : String) (f : α → JudgeM β) :
    (throw e : JudgeM α) >>= f = throw e := rfl

/-- A list of transactions is submitted in two parts. -/
theorem submitAll_append (ref : Nat) (txs txs' : List Tx) :
    submitAll ref (txs ++ txs') = submitAll ref txs >>= fun _ => submitAll ref txs' := by
  induction txs with
  | nil => rfl
  | cons tx txs ih => simp only [List.cons_append, submitAll, ih, bind_assoc]

/-- One transaction is submitted by itself. -/
theorem submitAll_singleton (ref : Nat) (tx : Tx) : submitAll ref [tx] = submitAndPush ref tx := by
  simp only [submitAll, bind_pure_unit]

/-- A plan is submitted in two parts. -/
theorem submit_append (ref : Nat) (p q : Plan) :
    (p.append q).submit ref = p.submit ref >>= fun _ => q.submit ref := by
  cases hp : p.failure with
  | none => simp only [Plan.submit, Plan.append, hp, submitAll_append, bind_assoc, raise, pure_bind]
  | some e => simp only [Plan.submit, Plan.append, hp, bind_assoc, raise, throw_bind]

/-- A transaction that may fail to be built is a plan of one. -/
theorem submit_build (ref : Nat) (r : Except String Tx) :
    (Plan.build r).submit ref = orThrow r >>= submitAndPush ref := by
  cases r with
  | error e => rfl
  | ok tx => simp only [Plan.build, Plan.submit, submitAll_singleton, raise, orThrow, pure_bind,
      bind_pure_unit]

/-- Finishing the stake is a plan. -/
theorem finishStake_eq (config : Config) (o : Opened) (signer : String) :
    finishStake config o signer = submitAll o.ref [finishStakeTx o signer] := by
  rw [submitAll_singleton]
  rfl

/-- Slashing it is a plan. -/
theorem slashStake_eq (config : Config) (o : Opened) (funder : String) :
    slashStake config o funder = (slashPlan config o funder).submit o.ref := by
  unfold slashStake slashPlan
  -- without an amount no stake is slashed
  cases truthy o.dispute.disputeMeta.stakeAmountDrops with
  | none => rfl
  | some drops =>
    dsimp only
    rw [finishStake_eq]
    -- an amount that is no number ends the judgment
    cases bigInt drops with
    | none => rfl
    | some total =>
      simp only [Plan.submit, raise, slashTxs, submitAll, bind_assoc, bind_pure_unit]

/-- And the two escrows are settled by a plan. -/
theorem settleEscrows_eq (config : Config) (args : ExecuteArgs) (o : Opened) :
    settleEscrows config args o = (escrowPlan config args o).submit o.ref := by
  unfold settleEscrows escrowPlan
  -- the two steps of each ruling, one behind the other
  cases o.ruling with
  | tenantWins =>
    dsimp only
    rw [submit_append, slashStake_eq]
    simp only [Plan.submit, submitAll_singleton, raise, bind_pure_unit, cancelDeposit,
      cancelDepositTx]
  | landlordWins =>
    dsimp only
    rw [submit_append, submit_build, finishStake_eq]
    simp only [Plan.submit, raise, bind_pure_unit, finishDeposit, finishDepositTx, bind_assoc]
  | systemFault =>
    dsimp only
    rw [finishStake_eq]
    simp only [Plan.submit, raise, submitAll, bind_pure_unit, cancelDeposit, cancelDepositTx]

/-- `executeJudgment` opens the judgment and carries out its plan. -/
theorem executeJudgment_eq (config : Config) (args : ExecuteArgs) :
    executeJudgment config args = do
      let o ← orThrow (← invoke (.openJudgment args.disputeId))
      (judgmentPlan config args o).submit o.ref
      invoke (.trackAccuracy o.ref o.ruling)
      return o.ref := by
  unfold executeJudgment
  congr 1
  funext r
  congr 1
  funext o
  have hmint : mintJudgment args o = (Plan.build (judgmentNft args o)).submit o.ref := by
    rw [submit_build]
    rfl
  rw [judgmentPlan, submit_append, settleEscrows_eq, hmint, bind_assoc]

/-! ## Runs of a plan

The choice for the preparation of a transaction is followed by the choice for its
submission and by the one for `pushHash`, which is not used: the `j`-th transaction of a
plan that starts at the choice `n` has the choices from `n + 3 * j` on. -/

section Runs

variable (oracle : Nat → Choice)

/-- The transaction with the choices at `n` is prepared and its submission is answered. -/
def Answered (n : Nat) : Prop :=
  (oracle n).failure = none ∧ (oracle (n + 1)).failure = none

/-- It is answered, and the ledger applied it. -/
def Succeeded (n : Nat) : Prop :=
  Answered oracle n ∧ (oracle (n + 1)).response.succeeded = true

/-- Its submission is rejected although the ledger applied it. -/
def LostAnswer (n : Nat) : Prop :=
  (oracle n).failure = none ∧ (oracle (n + 1)).failure ≠ none ∧ (oracle (n + 1)).applied = true

instance (n : Nat) : Decidable (Answered oracle n) := inferInstanceAs (Decidable (_ ∧ _))

instance (n : Nat) : Decidable (Succeeded oracle n) := inferInstanceAs (Decidable (_ ∧ _))

instance (n : Nat) : Decidable (LostAnswer oracle n) := inferInstanceAs (Decidable (_ ∧ _))

/-- The answer to a submission. -/
def answerAt (n : Nat) : Except String TxResponse :=
  match (oracle n).failure with
  | none => .ok (oracle n).response
  | some e => .error e

/-- The transactions that are submitted, with their answers. -/
def submissions : Nat → List Tx → List (Tx × Except String TxResponse)
  | _, [] => []
  | n, tx :: txs =>
    if (oracle n).failure = none then
      (tx, answerAt oracle (n + 1)) ::
        if (oracle (n + 1)).failure = none then submissions (n + 3) txs else []
    else []

/-- The transactions the ledger applies. -/
def appliedTxs : Nat → List Tx → List Tx
  | _, [] => []
  | n, tx :: txs =>
    if Answered oracle n then
      if Succeeded oracle n then tx :: appliedTxs (n + 3) txs else appliedTxs (n + 3) txs
    else if LostAnswer oracle n then [tx] else []

/-- The submission an event of the log is. -/
def submissionOf : Event calls String → Option (Tx × Except String TxResponse)
  | ⟨.submitAndWait tx, r⟩ => some (tx, r)
  | _ => none

/-- The submissions of a log, oldest first. -/
def submitted (l : JudgeLog) : List (Tx × Except String TxResponse) :=
  l.reverse.filterMap submissionOf

@[simp] theorem submitted_nil : submitted [] = [] := rfl

@[simp] theorem submitted_cons (ev : Event calls String) (l : JudgeLog) :
    submitted (ev :: l) = submitted l ++ (submissionOf ev).toList := by
  unfold submitted
  rw [List.reverse_cons, List.filterMap_append]
  cases h : submissionOf ev with
  | none => simp [h]
  | some x => simp [h]

/-- What a part of a judgment leaves unchanged: the map of the disputes, and their verdicts. -/
def Memory.Frames (s s' : Memory) : Prop :=
  s'.disputes = s.disputes ∧ s.Keeps s'

theorem Memory.Frames.trans {s s' s'' : Memory} (h : s.Frames s') (h' : s'.Frames s'') :
    s.Frames s'' :=
  ⟨h'.1.trans h.1, h.2.trans h'.2⟩

theorem Memory.Frames.refl (s : Memory) : s.Frames s := ⟨rfl, .refl s⟩

theorem Memory.frames_applyTx (s : Memory) (tx : Tx) : s.Frames (s.applyTx tx) :=
  ⟨rfl, .of_objects rfl⟩

/-- A hash that is noted changes neither ledger nor disputes. -/
theorem pushHash_ledger (s : Memory) (ref : Nat) (res : TxResponse) :
    (pushHash s ref res).ledger = s.ledger ∧ (pushHash s ref res).disputes = s.disputes := by
  unfold pushHash
  split
  · exact ⟨rfl, rfl⟩
  · exact ⟨rfl, rfl⟩

/-- The memory after an answered submission. -/
def Memory.afterAnswer (s : Memory) (ref : Nat) (tx : Tx) (res : TxResponse) : Memory :=
  pushHash (if res.succeeded then s.applyTx tx else s) ref res

/-- The answer of the ledger touches only the dispute it belongs to. -/
theorem frames_afterAnswer (s : Memory) (ref : Nat) (tx : Tx) (res : TxResponse) :
    s.Frames (s.afterAnswer ref tx res) := by
  have hpush : ∀ s' : Memory, s'.Frames (pushHash s' ref res) := fun s' =>
    ⟨(pushHash_ledger s' ref res).2, pushHash_keeps s' ref res⟩
  unfold Memory.afterAnswer
  split
  · exact (s.frames_applyTx tx).trans (hpush _)
  · exact hpush _

/-- A transaction reaches the ledger when its answer is a success. -/
theorem ledger_afterAnswer (s : Memory) (ref : Nat) (tx : Tx) (res : TxResponse) :
    (s.afterAnswer ref tx res).ledger = if res.succeeded then tx :: s.ledger else s.ledger := by
  unfold Memory.afterAnswer
  rw [(pushHash_ledger _ ref res).1]
  split
  · rfl
  · rfl

/-- One transaction that is not prepared. -/
theorem run_submitAndPush_unprepared {ref : Nat} {tx : Tx} {l : JudgeLog} {s : Memory} {e : String}
    (h : (oracle l.length).failure = some e) :
    runWith world oracle (submitAndPush ref tx) l s =
      ⟨⟨.autofill tx, .error e⟩ :: l, .error e, s⟩ := by
  simp only [submitAndPush, signAndSubmit, runWith_bind, invoke, call, runWith, world, serve, h,
    Outcome.andThen]

/-- One transaction whose submission is rejected. -/
theorem run_submitAndPush_rejected {ref : Nat} {tx : Tx} {l : JudgeLog} {s : Memory} {e : String}
    (hprepared : (oracle l.length).failure = none)
    (h : (oracle (l.length + 1)).failure = some e) :
    runWith world oracle (submitAndPush ref tx) l s =
      ⟨⟨.submitAndWait tx, .error e⟩ :: ⟨.autofill tx, .ok ()⟩ :: l, .error e,
        if (oracle (l.length + 1)).applied then s.applyTx tx else s⟩ := by
  simp only [submitAndPush, signAndSubmit, runWith_bind, invoke, call, runWith, world, serve,
    hprepared, List.length_cons, h, Outcome.andThen]

/-- One transaction whose submission is answered. -/
theorem run_submitAndPush_answered {ref : Nat} {tx : Tx} {l : JudgeLog} {s : Memory}
    (h : Answered oracle l.length) :
    runWith world oracle (submitAndPush ref tx) l s =
      ⟨⟨.pushHash ref (oracle (l.length + 1)).response, .ok ()⟩ ::
        ⟨.submitAndWait tx, .ok (oracle (l.length + 1)).response⟩ :: ⟨.autofill tx, .ok ()⟩ :: l,
        .ok (), s.afterAnswer ref tx (oracle (l.length + 1)).response⟩ := by
  simp only [submitAndPush, signAndSubmit, runWith_bind, invoke, call, runWith, world, serve,
    h.1, List.length_cons, h.2, Outcome.andThen, Memory.afterAnswer]

/-- What a run of the transactions of a plan does. -/
structure SubmitsAll (l : JudgeLog) (s : Memory) (txs : List Tx)
    (r : Outcome calls String Memory Unit) : Prop where
  submitted : submitted r.log = submitted l ++ submissions oracle l.length txs
  ledger : r.state.ledger = (appliedTxs oracle l.length txs).reverse ++ s.ledger
  frames : s.Frames r.state
  returns : r.result.isOk = true ↔ ∀ j < txs.length, Answered oracle (l.length + 3 * j)

/-- A bounded claim about every third place, with the first place apart. -/
theorem forall_lt_succ_shift {P : Nat → Prop} {n k : Nat} :
    (∀ j < k + 1, P (n + 3 * j)) ↔ P n ∧ ∀ j < k, P (n + 3 + 3 * j) := by
  -- the first of the calls, and the ones after it
  constructor
  · intro h
    refine ⟨h 0 (by omega), fun j hj => ?_⟩
    have hnext := h (j + 1) (by omega)
    rwa [show n + 3 * (j + 1) = n + 3 + 3 * j by omega] at hnext
  · rintro ⟨h₀, h⟩ j hj
    cases j with
    | zero => exact h₀
    | succ j =>
      rw [show n + 3 * (j + 1) = n + 3 + 3 * j by omega]
      exact h j (by omega)

/-- How far a list of submissions gets, and what the ledger has then. -/
theorem run_submitAll (ref : Nat) (txs : List Tx) (l : JudgeLog) (s : Memory) :
    SubmitsAll oracle l s txs (runWith world oracle (submitAll ref txs) l s) := by
  induction txs generalizing l s with
  | nil => exact ⟨by simp [submitAll, submissions], by simp [submitAll, appliedTxs], .refl s,
      by simp [submitAll, Except.isOk, Except.toBool]⟩
  | cons tx txs ih =>
    simp only [submitAll, runWith_bind]
    cases hprepare : (oracle l.length).failure with
    | some e =>
      -- The run ends before the submission.
      rw [run_submitAndPush_unprepared oracle hprepare]
      have hnot : ¬ Answered oracle l.length := fun h => by simp [h.1] at hprepare
      have hlost : ¬ LostAnswer oracle l.length := fun h => by simp [h.1] at hprepare
      refine ⟨?_, ?_, .refl s, ?_⟩
      · simp [Outcome.andThen, submissionOf, submissions, hprepare]
      · simp [Outcome.andThen, appliedTxs, hnot, hlost]
      · simp only [Outcome.andThen, List.length_cons, forall_lt_succ_shift, hnot, false_and,
          Except.isOk, Except.toBool, Bool.false_eq_true]
    | none =>
      cases hsubmit : (oracle (l.length + 1)).failure with
      | some e =>
        -- The run ends with the rejection; the ledger may have applied the transaction.
        rw [run_submitAndPush_rejected oracle hprepare hsubmit]
        have hnot : ¬ Answered oracle l.length := fun h => by simp [h.2] at hsubmit
        have hlost : LostAnswer oracle l.length ↔ (oracle (l.length + 1)).applied = true := by
          simp [LostAnswer, hprepare, hsubmit]
        refine ⟨?_, ?_, ?_, ?_⟩
        · simp [Outcome.andThen, submissionOf, submissions, hprepare, hsubmit, answerAt]
        · simp only [Outcome.andThen, appliedTxs, hnot, hlost, if_false]
          split
          · rfl
          · rfl
        · simp only [Outcome.andThen]
          split
          · exact s.frames_applyTx tx
          · exact .refl s
        · simp only [Outcome.andThen, List.length_cons, forall_lt_succ_shift, hnot, false_and,
            Except.isOk, Except.toBool, Bool.false_eq_true]
      | none =>
        have hans : Answered oracle l.length := ⟨hprepare, hsubmit⟩
        rw [run_submitAndPush_answered oracle hans]
        simp only [Outcome.andThen]
        obtain ⟨hsubmitted, hledger, hframes, hreturns⟩ := ih
          (⟨.pushHash ref (oracle (l.length + 1)).response, .ok ()⟩ ::
            ⟨.submitAndWait tx, .ok (oracle (l.length + 1)).response⟩ ::
            ⟨.autofill tx, .ok ()⟩ :: l) (s.afterAnswer ref tx (oracle (l.length + 1)).response)
        simp only [List.length_cons] at hsubmitted hledger hreturns
        refine ⟨?_, ?_, (frames_afterAnswer s ref tx _).trans hframes, ?_⟩
        · rw [hsubmitted]
          simp [submissionOf, submissions, hprepare, hsubmit, answerAt]
        · rw [hledger, ledger_afterAnswer]
          by_cases hsucceeded : (oracle (l.length + 1)).response.succeeded = true
          · simp [appliedTxs, hans, Succeeded, hsucceeded]
          · simp [appliedTxs, hans, Succeeded, hsucceeded]
        · rw [hreturns, List.length_cons, forall_lt_succ_shift]
          simp [hans]

/-- What a run of `executeJudgment` that has opened its judgment does. -/
structure CarriesOut (s s₁ : Memory) (p : Plan) (r : Outcome calls String Memory Nat) : Prop where
  submitted : submitted r.log = submissions oracle 1 p.txs
  ledger : r.state.ledger = (appliedTxs oracle 1 p.txs).reverse ++ s.ledger
  frames : s₁.Frames r.state
  returns : r.result.isOk = true ↔ p.failure = none ∧ ∀ j < p.txs.length, Answered oracle (1 + 3 * j)

/-- A judgment that is refused changes nothing. -/
theorem run_refused (config : Config) (oracle : Nat → Choice) {args : ExecuteArgs} {s : Memory} {e : String}
    (h : openJudgment s args.disputeId (oracle 0).nowUnix = .error e) :
    runWith world oracle (executeJudgment config args) [] s =
      ⟨[⟨.openJudgment args.disputeId, .ok (.error e)⟩], .error e, s⟩ := by
  simp only [executeJudgment_eq, runWith_bind, invoke, call, runWith, world, serve,
    List.length_nil, h, settledWith, Outcome.andThen, orThrow, runWith_throw]

/-- A run that has opened its judgment goes on with the plan. -/
theorem run_opened_eq {config : Config} {args : ExecuteArgs} {s s₁ : Memory} {o : Opened}
    (h : openJudgment s args.disputeId (oracle 0).nowUnix = .ok (o, s₁)) :
    runWith world oracle (executeJudgment config args) [] s =
      (runWith world oracle (submitAll o.ref (judgmentPlan config args o).txs)
        [⟨.openJudgment args.disputeId, .ok (.ok o)⟩] s₁).andThen fun _ =>
          runWith world oracle (do
            raise (judgmentPlan config args o).failure
            invoke (.trackAccuracy o.ref o.ruling)
            return o.ref) := by
  have hserve : serve (.openJudgment args.disputeId) (oracle 0) s = (.ok (.ok o), s₁) := by
    simp only [serve, h, settledWith]
  have hopen : runWith world oracle (invoke (.openJudgment args.disputeId)) [] s =
      ⟨[⟨.openJudgment args.disputeId, .ok (.ok o)⟩], .ok (.ok o), s₁⟩ := by
    simp only [invoke, call, runWith, world, List.length_nil, hserve]
  rw [executeJudgment_eq, runWith_bind, hopen]
  simp only [Outcome.andThen, orThrow, Plan.submit, bind_assoc, pure_bind]
  exact runWith_bind _ _ _ _ _ _

/-- A judgment that opens runs its plan. -/
theorem run_opened (config : Config) (oracle : Nat → Choice) {args : ExecuteArgs} {s s₁ : Memory} {o : Opened}
    (h : openJudgment s args.disputeId (oracle 0).nowUnix = .ok (o, s₁)) :
    CarriesOut oracle s s₁ (judgmentPlan config args o)
      (runWith world oracle (executeJudgment config args) [] s) := by
  have hledger₁ : s₁.ledger = s.ledger := by
    obtain ⟨-, -, -, rfl⟩ := openJudgment_ok h
    rfl
  rw [run_opened_eq oracle h]
  obtain ⟨hsubmitted, hledger, hframes, hreturns⟩ := run_submitAll oracle o.ref
    (judgmentPlan config args o).txs [⟨.openJudgment args.disputeId, .ok (.ok o)⟩] s₁
  generalize runWith world oracle (submitAll _ _) _ s₁ = r at *
  obtain ⟨l, res, s₂⟩ := r
  simp only [List.length_singleton, submitted_cons, submitted_nil, submissionOf,
    Option.toList_none, List.append_nil, List.nil_append] at hsubmitted hledger hreturns
  rw [hledger₁] at hledger
  cases res with
  | error e =>
    -- A transaction was not answered.
    refine ⟨hsubmitted, hledger, hframes, ?_⟩
    have hnot : ¬ ∀ j < (judgmentPlan config args o).txs.length, Answered oracle (1 + 3 * j) := by
      intro hall
      exact nomatch hreturns.mpr hall
    simp only [Outcome.andThen, hnot, and_false, Except.isOk, Except.toBool, Bool.false_eq_true]
  | ok u =>
    have hall := hreturns.mp rfl
    cases hfailure : (judgmentPlan config args o).failure with
    | some e =>
      refine ⟨hsubmitted, hledger, hframes, ?_⟩
      simp [Outcome.andThen, hfailure, raise, throw_bind, Except.isOk, Except.toBool]
    | none =>
      obtain ⟨hobjects, hdisputes, htracked⟩ := trackAccuracy_frame s₂ o.ref o.ruling
      simp only [Outcome.andThen, raise, pure_bind, runWith_bind, invoke, call, runWith, world,
        serve, runWith_pure]
      refine ⟨?_, htracked.trans hledger,
        ⟨hdisputes.trans hframes.1, hframes.2.trans (.of_objects hobjects)⟩, ?_⟩
      · rw [submitted_cons]
        simpa [submissionOf] using hsubmitted
      · simpa [Except.isOk, Except.toBool] using ⟨hfailure, hall⟩

end Runs

/-! ## A judgment that throws -/

section Resumable

variable (config : Config) (args : ExecuteArgs) (oracle : Nat → Choice) (s : Memory)

/-- A call of `executeJudgment`. -/
def judgmentRun : Outcome calls String Memory Nat :=
  runWith world oracle (executeJudgment config args) [] s

/-- A later call can judge the dispute. -/
def Resumable (disputeId : String) : Prop :=
  ∃ args oracle, args.disputeId = disputeId ∧ (judgmentRun config args oracle s).result.isOk = true

/-- The ledger has applied all the consequences of the judgment that was opened in `s`: the deposit
    and the stake are settled, and the judgment NFT is minted. -/
def Settled (s' : Memory) : Prop :=
  ∃ o s₁, openJudgment s args.disputeId (oracle 0).nowUnix = .ok (o, s₁) ∧
    (judgmentPlan config args o).failure = none ∧
    s'.ledger = (judgmentPlan config args o).txs.reverse ++ s.ledger

/-- The call has marked the dispute with a ruling. -/
def Marked (s' : Memory) : Prop :=
  (∃ ref d, s.getDispute args.disputeId = some (ref, d) ∧ d.ruling = none) ∧
    ∃ ref d, s'.getDispute args.disputeId = some (ref, d) ∧ d.ruling.isSome

/-- A call that throws has submitted nothing and left the dispute as it was, or a later call
    can complete the judgment, or nothing is left to do; and whether it throws or not, a call
    that leaves the dispute marked with a ruling has settled everything. -/
structure AllOrResumable : Prop where
  thrown : (judgmentRun config args oracle s).result.isOk = false →
    (submitted (judgmentRun config args oracle s).log = [] ∧
      (judgmentRun config args oracle s).state.getDispute args.disputeId =
        s.getDispute args.disputeId) ∨
    Resumable config (judgmentRun config args oracle s).state args.disputeId ∨
    Settled config args oracle s (judgmentRun config args oracle s).state
  marked : Marked args s (judgmentRun config args oracle s).state →
    Settled config args oracle s (judgmentRun config args oracle s).state

/-- Every transaction of the plan is prepared, and its submission is answered with `tesSUCCESS`. -/
def AllSucceeded (p : Plan) : Prop :=
  ∀ j < p.txs.length, Succeeded oracle (1 + 3 * j)

/-- The ledger applies every transaction of the plan, and only the last answer is lost. -/
def LastAnswerLost (p : Plan) : Prop :=
  ∃ k, k + 1 = p.txs.length ∧ (∀ j < k, Succeeded oracle (1 + 3 * j)) ∧
    LostAnswer oracle (1 + 3 * k)

/-- The judgment is refused before the ruling is set, or all its transactions can be built and the
    ledger applies each of them, where at most the last answer is lost. -/
def RunsThrough : Prop :=
  match openJudgment s args.disputeId (oracle 0).nowUnix with
  | .error _ => True
  | .ok (o, _) => (judgmentPlan config args o).failure = none ∧
      (AllSucceeded oracle (judgmentPlan config args o) ∨
        LastAnswerLost oracle (judgmentPlan config args o))

end Resumable

/-- No transaction is applied twice. -/
theorem length_appliedTxs_le (oracle : Nat → Choice) (n : Nat) (txs : List Tx) :
    (appliedTxs oracle n txs).length ≤ txs.length := by
  -- induction on the transactions; each takes three choices
  induction txs generalizing n with
  | nil => simp [appliedTxs]
  | cons tx txs ih =>
    have hrest := ih (n + 3)
    simp only [appliedTxs]
    split
    · split
      · simp only [List.length_cons]
        omega
      · simp only [List.length_cons]
        omega
    · split
      · simp
      · simp

/-- The last answer is lost: it is the first one, or the rest loses it. -/
theorem exists_lost_succ {oracle : Nat → Choice} {n m : Nat} :
    (∃ k, k + 1 = m + 1 ∧ (∀ j < k, Succeeded oracle (n + 3 * j)) ∧
      LostAnswer oracle (n + 3 * k)) ↔
    (m = 0 ∧ LostAnswer oracle n) ∨
    (Succeeded oracle n ∧ ∃ k, k + 1 = m ∧ (∀ j < k, Succeeded oracle (n + 3 + 3 * j)) ∧
      LostAnswer oracle (n + 3 + 3 * k)) := by
  -- the loss is at the first call, or later
  constructor
  · intro ⟨k, hk, hsucceeded, hlost⟩
    cases k with
    | zero => exact .inl ⟨by omega, hlost⟩
    | succ k =>
      rw [forall_lt_succ_shift] at hsucceeded
      rw [show n + 3 * (k + 1) = n + 3 + 3 * k by omega] at hlost
      exact .inr ⟨hsucceeded.1, k, by omega, hsucceeded.2, hlost⟩
  · intro h
    -- the calls before it have all succeeded
    rcases h with ⟨rfl, hlost⟩ | ⟨hfirst, k, rfl, hsucceeded, hlost⟩
    · exact ⟨0, rfl, fun j hj => by omega, hlost⟩
    · refine ⟨k + 1, rfl, forall_lt_succ_shift.mpr ⟨hfirst, hsucceeded⟩, ?_⟩
      rwa [show n + 3 * (k + 1) = n + 3 + 3 * k by omega]

/-- The ledger applies all of the transactions exactly when each succeeds, or each but the
    last one, whose answer is lost. -/
theorem appliedTxs_eq_iff {oracle : Nat → Choice} {n : Nat} {txs : List Tx} :
    appliedTxs oracle n txs = txs ↔
      (∀ j < txs.length, Succeeded oracle (n + 3 * j)) ∨
      ∃ k, k + 1 = txs.length ∧ (∀ j < k, Succeeded oracle (n + 3 * j)) ∧
        LostAnswer oracle (n + 3 * k) := by
  -- the first transaction is answered, or the run ends with it
  induction txs generalizing n with
  | nil => simp [appliedTxs]
  | cons tx txs ih =>
    rw [List.length_cons, forall_lt_succ_shift, exists_lost_succ]
    by_cases hanswered : Answered oracle n
    · have hlost : ¬ LostAnswer oracle n := fun h => h.2.1 hanswered.2
      by_cases hsucceeded : Succeeded oracle n
      · simp only [appliedTxs, hanswered, hsucceeded, hlost, if_true, List.cons.injEq, true_and,
          and_false, false_or]
        exact ih
      · -- A transaction that fails on the ledger is missing.
        have hshort : appliedTxs oracle (n + 3) txs ≠ tx :: txs := by
          intro heq
          have hle := length_appliedTxs_le oracle (n + 3) txs
          rw [heq, List.length_cons] at hle
          omega
        simp only [appliedTxs, hanswered, hsucceeded, hlost, if_true, if_false, hshort, false_and,
          and_false, or_self]
    -- unanswered, it may still have been applied, which is the answer that was lost
    · have hsucceeded : ¬ Succeeded oracle n := fun h => hanswered h.1
      by_cases hlost : LostAnswer oracle n
      · simp [appliedTxs, hanswered, hsucceeded, hlost, eq_comm]
      · simp [appliedTxs, hanswered, hsucceeded, hlost]

/-- A dispute with a ruling cannot be judged again. -/
theorem not_resumable {config : Config} {s : Memory} {id : String} {ref : Nat}
    (hlookup : s.disputes.lookup id = some ref) (h : s.Judged ref) : ¬ Resumable config s id := by
  rintro ⟨args, oracle, rfl, hok⟩
  obtain ⟨d, hd, hwithdrawn, hruling⟩ := h
  have hget : s.getDispute args.disputeId = some (ref, d) := by
    simp [Memory.getDispute, hlookup, hd]
  have hrefused : openJudgment s args.disputeId (oracle 0).nowUnix =
      .error "dispute already executed" := by
    simp [openJudgment, requireOpen, hget, hwithdrawn, hruling, bind, Except.bind]
  rw [judgmentRun, run_refused config oracle hrefused] at hok
  simp [Except.isOk, Except.toBool] at hok

/-- What opening a judgment leaves: the dispute is judged, and the map still leads to it. -/
theorem judged_of_opened {s s₁ : Memory} {id : String} {nowUnix : Nat} {o : Opened}
    (h : openJudgment s id nowUnix = .ok (o, s₁)) :
    s.getDispute id = some (o.ref, o.dispute) ∧ o.dispute.ruling = none ∧
    s₁.disputes.lookup id = some o.ref ∧ s₁.Judged o.ref := by
  obtain ⟨hopen, -, -, rfl⟩ := openJudgment_ok h
  obtain ⟨hd, hwithdrawn, hruling⟩ := requireOpen_ok hopen
  have hget : s.getDispute id = some (o.ref, o.dispute) := by
    unfold requireOpen at hopen
    split at hopen
    · exact nomatch hopen
    · rename_i ref d hget
      split at hopen
      · exact nomatch hopen
      · split at hopen
        · exact nomatch hopen
        · cases hopen
          exact hget
  -- the map still holds the reference: only the object changes
  have hlookup : s.disputes.lookup id = some o.ref := by
    simp only [Memory.getDispute, Option.bind_eq_bind, Option.bind_eq_some_iff, Option.pure_def,
      Option.some.injEq, Prod.mk.injEq] at hget
    obtain ⟨ref, hlookup, d, -, rfl, -⟩ := hget
    exact hlookup
  refine ⟨hget, hruling, hlookup,
    ⟨{ o.dispute with ruling := some o.ruling, executedTxs := some [] }, ?_, hwithdrawn, rfl⟩⟩
  simp [Memory.update, hd]

/-- A judgment that was opened is settled iff its plan has no error and is applied as a whole. -/
theorem settled_opened {config : Config} {args : ExecuteArgs} {oracle : Nat → Choice}
    {s s₁ : Memory} {o : Opened}
    (h : openJudgment s args.disputeId (oracle 0).nowUnix = .ok (o, s₁)) :
    Settled config args oracle s (judgmentRun config args oracle s).state ↔
      (judgmentPlan config args o).failure = none ∧
        appliedTxs oracle 1 (judgmentPlan config args o).txs = (judgmentPlan config args o).txs := by
  rw [Settled, judgmentRun, (run_opened config oracle h).ledger]
  simp only [h, Except.ok.injEq, Prod.mk.injEq, List.append_cancel_right_eq, List.reverse_inj]
  constructor
  · rintro ⟨o', s', hopened, hplan⟩
    rwa [← hopened.1] at hplan
  · intro hplan
    exact ⟨o, s₁, ⟨rfl, rfl⟩, hplan⟩

/-- The map still leads to the dispute after the call, and no transaction takes the ruling back. -/
theorem judged_run {config : Config} {args : ExecuteArgs} {oracle : Nat → Choice}
    {s s₁ : Memory} {o : Opened}
    (h : openJudgment s args.disputeId (oracle 0).nowUnix = .ok (o, s₁)) :
    (judgmentRun config args oracle s).state.disputes.lookup args.disputeId = some o.ref ∧
      (judgmentRun config args oracle s).state.Judged o.ref := by
  obtain ⟨-, -, hlookup, hjudged⟩ := judged_of_opened h
  obtain ⟨hdisputes, hkeeps⟩ := (run_opened config oracle h).frames
  refine ⟨?_, hjudged.keeps hkeeps⟩
  rw [judgmentRun, hdisputes]
  exact hlookup

/-- A judgment that was opened leaves its dispute marked, whatever happens to the transactions. -/
theorem marked_opened {config : Config} {args : ExecuteArgs} {oracle : Nat → Choice}
    {s s₁ : Memory} {o : Opened}
    (h : openJudgment s args.disputeId (oracle 0).nowUnix = .ok (o, s₁)) :
    Marked args s (judgmentRun config args oracle s).state := by
  obtain ⟨hget, hopen, -, -⟩ := judged_of_opened h
  obtain ⟨hlookup, d, hd, -, hruling⟩ := @judged_run config _ _ _ _ _ h
  exact ⟨⟨o.ref, o.dispute, hget, hopen⟩, o.ref, d, by simp [Memory.getDispute, hlookup, hd], hruling⟩

/-- A judgment that was opened is all or resumable iff it is settled: the mark stays. -/
theorem allOrResumable_opened {config : Config} {args : ExecuteArgs} {oracle : Nat → Choice}
    {s s₁ : Memory} {o : Opened}
    (h : openJudgment s args.disputeId (oracle 0).nowUnix = .ok (o, s₁)) :
    AllOrResumable config args oracle s ↔
      (judgmentPlan config args o).failure = none ∧
        appliedTxs oracle 1 (judgmentPlan config args o).txs = (judgmentPlan config args o).txs := by
  rw [← settled_opened h]
  constructor
  · intro hall
    exact hall.marked (marked_opened h)
  · intro hsettled
    exact ⟨fun _ => .inr (.inr hsettled), fun _ => hsettled⟩

/-- A call of `executeJudgment` that throws leaves nothing behind, can be repeated, or has
    settled everything, and no call leaves a ruling behind that is not settled, exactly when the
    judgment is refused before its ruling is set, or all its transactions can be built and the
    ledger applies each of them, where at most the last answer is lost. -/
theorem judgment_all_or_resumable (config : Config) (args : ExecuteArgs) (oracle : Nat → Choice)
    (s : Memory) :
    AllOrResumable config args oracle s ↔ RunsThrough config args oracle s := by
  cases h : openJudgment s args.disputeId (oracle 0).nowUnix with
  | error e =>
    -- refused before the first call: nothing is applied and nothing is judged
    have hrun : judgmentRun config args oracle s =
        ⟨[⟨.openJudgment args.disputeId, .ok (.error e)⟩], .error e, s⟩ := run_refused config oracle h
    simp only [RunsThrough, h, iff_true]
    refine ⟨fun _ => .inl ⟨?_, ?_⟩, ?_⟩
    · rw [hrun]
      rfl
    · rw [hrun]
    · rw [hrun]
      rintro ⟨⟨ref, d, hget, hopen⟩, ref', d', hget', hruling⟩
      rw [hget] at hget'
      cases hget'
      rw [hopen] at hruling
      cases hruling
  | ok x =>
    obtain ⟨o, s₁⟩ := x
    rw [allOrResumable_opened h, appliedTxs_eq_iff]
    simp only [RunsThrough, h, AllSucceeded, LastAnswerLost]

/-- A dispute of one verifier who has voted. -/
def sampleDispute (vote : DisputeRuling) (stakeAmountDrops : Option String) :
    DisputeSubmission where
  disputeId := "d1"
  claimant := "rTenant"
  evidenceHashHex := ""
  openedAtUnix := 0
  votingDeadlineUnix := votingPeriodSeconds
  panel := ["rVerifier"]
  votes := [("rVerifier", vote)]
  withdrawn := false
  ruling := none
  executedTxs := none
  disputeMeta := sampleMeta stakeAmountDrops

def sampleMemory (d : DisputeSubmission) : Memory :=
  ⟨[d], [("d1", 0)], [⟨"rVerifier", true, none, none, 1, 0⟩], []⟩

/-- Every call is answered, a submission with the given result. -/
def sampleOracle (transactionResult : Nat → String) (n : Nat) : Choice :=
  { response := ⟨some "H", some (transactionResult n)⟩ }

/-- The judgment `executeJudgment` opens in `sampleMemory d`. -/
def sampleOpened (d : DisputeSubmission) (ruling : DisputeRuling) : Opened :=
  ⟨0, d, ruling, countVotes d⟩

/-- The tenant wins and the amount of the stake is not known: the deposit is refunded, then
    the judgment throws, and the dispute stays marked with its ruling for ever. -/
theorem judgment_stuck_without_stakeAmountDrops :
    ¬ AllOrResumable sampleConfig sampleArgs (sampleOracle fun _ => "tesSUCCESS")
        (sampleMemory (sampleDispute .tenantWins none)) ∧
      ¬ Resumable sampleConfig (judgmentRun sampleConfig sampleArgs
        (sampleOracle fun _ => "tesSUCCESS") (sampleMemory (sampleDispute .tenantWins none))).state
        sampleArgs.disputeId := by
  -- the judgment is opened, and the ruling is in the memory
  have hopened : openJudgment (sampleMemory (sampleDispute .tenantWins none))
      sampleArgs.disputeId (sampleOracle (fun _ => "tesSUCCESS") 0).nowUnix =
      .ok (sampleOpened (sampleDispute .tenantWins none) .tenantWins,
        sampleMemory { sampleDispute .tenantWins none with
          ruling := some .tenantWins, executedTxs := some [] }) := rfl
  constructor
  -- it is not resumed, because the plan is not the whole one
  · rw [allOrResumable_opened hopened]
    rintro ⟨hplan, -⟩
    exact absurd hplan (by decide +kernel)
  · obtain ⟨hlookup, hjudged⟩ := judged_run hopened
    exact not_resumable hlookup hjudged

/-! ## Submissions wait for the escrows before them -/

section Gated

variable (config : Config) (args : ExecuteArgs) (oracle : Nat → Choice) (s : Memory)

/-- A transaction is submitted only after every earlier escrow transaction has returned
    `tesSUCCESS`. -/
def EscrowsFirst (subs : List (Tx × Except String TxResponse)) : Prop :=
  subs.Pairwise fun x _ => x.1.isEscrow = true →
    ∃ res, x.2 = .ok res ∧ res.succeeded = true

/-- Two payments have non-negative amounts that add up to the stake. -/
def SplitsStake (stakeAmountDrops : Option String)
    (subs : List (Tx × Except String TxResponse)) : Prop :=
  subs.Pairwise fun x y => ∀ account destination amount account' destination' amount',
    x.1 = .payment account destination amount → y.1 = .payment account' destination' amount' →
    ∃ v w : Int, amount = toString v ∧ amount' = toString w ∧ 0 ≤ v ∧ 0 ≤ w ∧
      stakeAmountDrops.bind bigInt = some (v + w)

/-- The submissions of a call of `executeJudgment` are gated on the success of the escrows. -/
def Gated : Prop :=
  EscrowsFirst (submitted (judgmentRun config args oracle s).log) ∧
  ∀ ref d, s.getDispute args.disputeId = some (ref, d) →
    SplitsStake d.disputeMeta.stakeAmountDrops (submitted (judgmentRun config args oracle s).log)

/-- The `k`-th transaction from the choice `n` on is submitted if there is one: those before
    it are answered, and it is prepared. -/
def Reached (n k : Nat) : Prop :=
  (∀ j < k, Answered oracle (n + 3 * j)) ∧ (oracle (n + 3 * k)).failure = none

/-- The ledger applies each escrow transaction of the judgment whose successor is submitted,
    and the stake is not negative when the second payment of a slashing is submitted. -/
def EscrowsSucceed : Prop :=
  match openJudgment s args.disputeId (oracle 0).nowUnix with
  | .error _ => True
  | .ok (o, _) =>
    (∀ k tx, (judgmentPlan config args o).txs[k]? = some tx → tx.isEscrow = true →
      k + 1 < (judgmentPlan config args o).txs.length → Reached oracle 1 (k + 1) →
      (oracle (1 + 3 * k + 1)).response.succeeded = true) ∧
    (o.ruling = .tenantWins → Reached oracle 1 3 →
      ∀ total, (truthy o.dispute.disputeMeta.stakeAmountDrops).bind bigInt = some total → 0 ≤ total)

end Gated

/-- A run that reaches a submission has reached those before. -/
theorem Reached.of_lt {oracle : Nat → Choice} {n i j : Nat} (h : Reached oracle n j) (hij : i < j) :
    Reached oracle n i :=
  ⟨fun k hk => h.1 k (by omega), (h.1 i hij).1⟩

/-- The first submission is reached when nothing has failed. -/
theorem reached_zero {oracle : Nat → Choice} {n : Nat} :
    Reached oracle n 0 ↔ (oracle n).failure = none := by
  simp [Reached]

/-- The next one is reached behind an answer. -/
theorem reached_succ {oracle : Nat → Choice} {n k : Nat} :
    Reached oracle n (k + 1) ↔ Answered oracle n ∧ Reached oracle (n + 3) k := by
  unfold Reached
  rw [forall_lt_succ_shift, show n + 3 * (k + 1) = n + 3 + 3 * k by omega, and_assoc]

/-- The `k`-th submission is the `k`-th transaction of the plan, with its answer. -/
theorem getElem?_submissions {oracle : Nat → Choice} {n k : Nat} {txs : List Tx}
    {x : Tx × Except String TxResponse} :
    (submissions oracle n txs)[k]? = some x ↔
      Reached oracle n k ∧
        ∃ tx, txs[k]? = some tx ∧ x = (tx, answerAt oracle (n + 3 * k + 1)) := by
  -- the submission at a place is reached when all before it were answered
  induction txs generalizing n k with
  | nil => simp [submissions]
  | cons tx txs ih =>
    simp only [submissions]
    by_cases hprepared : (oracle n).failure = none
    · rw [if_pos hprepared]
      cases k with
      | zero => simp [reached_zero, hprepared, eq_comm]
      | succ k =>
        rw [List.getElem?_cons_succ, List.getElem?_cons_succ, reached_succ,
          show n + 3 * (k + 1) + 1 = n + 3 + 3 * k + 1 by omega]
        by_cases hanswered : (oracle (n + 1)).failure = none
        · rw [if_pos hanswered, ih]
          simp [Answered, hprepared, hanswered]
        · rw [if_neg hanswered]
          simp [Answered, hanswered]
    -- nothing is reached once the preparation has failed
    · have hnot : ¬ Reached oracle n k := by
        cases k with
        | zero => rwa [reached_zero]
        | succ k =>
          rw [reached_succ]
          exact fun h => hprepared h.1.1
      simp [hprepared, hnot]

/-- A call without a failure is answered by the ledger. -/
theorem answerAt_ok {oracle : Nat → Choice} {n : Nat} (h : (oracle n).failure = none) :
    answerAt oracle n = .ok (oracle n).response := by
  simp only [answerAt, h]

/-- Pairs of a list, by their places. -/
theorem pairwise_iff_getElem? {α : Type} {R : α → α → Prop} {l : List α} :
    l.Pairwise R ↔ ∀ (i j : Nat) x y, i < j → l[i]? = some x → l[j]? = some y → R x y := by
  rw [List.pairwise_iff_getElem]
  constructor
  · intro h i j x y hij hx hy
    obtain ⟨hi, rfl⟩ := List.getElem?_eq_some_iff.mp hx
    obtain ⟨hj, rfl⟩ := List.getElem?_eq_some_iff.mp hy
    exact h i j hi hj hij
  · intro h i j hi hj hij
    exact h i j _ _ hij (List.getElem?_eq_getElem hi) (List.getElem?_eq_getElem hj)

/-- The gate holds exactly when each escrow transaction with a submitted successor succeeds. -/
theorem escrowsFirst_iff {oracle : Nat → Choice} {n : Nat} {txs : List Tx} :
    EscrowsFirst (submissions oracle n txs) ↔
      ∀ k tx, txs[k]? = some tx → tx.isEscrow = true → k + 1 < txs.length →
        Reached oracle n (k + 1) → (oracle (n + 3 * k + 1)).response.succeeded = true := by
  unfold EscrowsFirst
  rw [pairwise_iff_getElem?]
  constructor
  · intro h k tx htx hescrow hlast hreached
    have hx := getElem?_submissions.mpr ⟨hreached.of_lt (Nat.lt_succ_self k), tx, htx, rfl⟩
    have hy := getElem?_submissions.mpr
      ⟨hreached, txs[k + 1], List.getElem?_eq_getElem hlast, rfl⟩
    obtain ⟨res, hres, hsucceeded⟩ := h k (k + 1) _ _ (Nat.lt_succ_self k) hx hy hescrow
    have hanswer := answerAt_ok (hreached.1 k (Nat.lt_succ_self k)).2
    rw [hanswer, Except.ok.injEq] at hres
    rw [hres]
    exact hsucceeded
  · intro h i j x y hij hx hy hescrow
    obtain ⟨-, tx, htx, rfl⟩ := getElem?_submissions.mp hx
    obtain ⟨hreached, tx', htx', -⟩ := getElem?_submissions.mp hy
    have hj : j < txs.length := (List.getElem?_eq_some_iff.mp htx').1
    refine ⟨(oracle (n + 3 * i + 1)).response, answerAt_ok (hreached.1 i hij).2, ?_⟩
    -- The transaction right after the escrow is reached as well.
    have hnext : Reached oracle n (i + 1) := by
      by_cases heq : i + 1 = j
      · rwa [heq]
      · exact hreached.of_lt (by omega)
    exact h i tx htx hescrow (by omega) hnext

/-! ### The payments of a plan -/

/-- The transaction is a payment. -/
def Tx.isPayment : Tx → Bool
  | .payment _ _ _ => true
  | _ => false

/-- The mark of a judgment pays nothing. -/
theorem judgmentNft_no_payment (args : ExecuteArgs) (o : Opened) :
    ∀ tx ∈ (Plan.build (judgmentNft args o)).txs, tx.isPayment = false := by
  intro tx htx
  -- a mark that cannot be built is no transaction
  cases hnft : judgmentNft args o with
  | error e =>
    rw [hnft] at htx
    cases htx
  | ok nft =>
    rw [hnft] at htx
    rw [List.mem_singleton.mp htx]
    unfold judgmentNft buildDisputeNFT at hnft
    cases huri : uriToHex args.judgmentUri with
    | error e =>
      simp only [huri] at hnft
      cases hnft
    | ok uriHex =>
      simp only [huri] at hnft
      cases hnft
      rfl

/-- Nor does finishing the deposit. -/
theorem finishDepositTx_no_payment {config : Config} {o : Opened} {signer : String} {tx : Tx}
    (h : finishDepositTx config o signer = .ok tx) : tx.isPayment = false := by
  unfold finishDepositTx buildFinish at h
  split at h
  · cases h
    rfl
  · obtain ⟨condition, -, h⟩ := Except.exists_of_bind_eq_ok h
    cases h
    rfl

/-- The transactions of a plan in two parts, up to the first that cannot be built. -/
theorem Plan.txs_append (p q : Plan) :
    (p.append q).txs = if p.failure = none then p.txs ++ q.txs else p.txs := by
  unfold Plan.append
  cases p.failure with
  | none => rfl
  | some e => rfl

/-- The transactions of a slashing that splits the stake. -/
theorem judgmentPlan_slash {config : Config} {args : ExecuteArgs} {o : Opened} {total : Int}
    (hruling : o.ruling = .tenantWins)
    (htotal : (truthy o.dispute.disputeMeta.stakeAmountDrops).bind bigInt = some total) :
    (judgmentPlan config args o).txs =
      cancelDepositTx o args.bluesafeWallet :: finishStakeTx o args.poolFunderWallet ::
        slashTxs config o args.poolFunderWallet total ++ (Plan.build (judgmentNft args o)).txs := by
  obtain ⟨drops, hdrops, hbig⟩ := Option.bind_eq_some_iff.mp htotal
  simp [judgmentPlan, escrowPlan, hruling, slashPlan, hdrops, hbig, Plan.append]

/-- A judgment pays only where it splits a stake. -/
theorem judgmentPlan_payments (config : Config) (args : ExecuteArgs) (o : Opened) :
    (∀ tx ∈ (judgmentPlan config args o).txs, tx.isPayment = false) ∨
    (o.ruling = .tenantWins ∧
      ∃ total, (truthy o.dispute.disputeMeta.stakeAmountDrops).bind bigInt = some total) := by
  have hnft := judgmentNft_no_payment args o
  -- A plan whose escrow part does not pay does not pay.
  have hplan : (∀ tx ∈ (escrowPlan config args o).txs, tx.isPayment = false) →
      ∀ tx ∈ (judgmentPlan config args o).txs, tx.isPayment = false := by
    intro hescrow tx htx
    rw [judgmentPlan, Plan.txs_append] at htx
    split at htx
    · rcases List.mem_append.mp htx with htx | htx
      · exact hescrow tx htx
      · exact hnft tx htx
    · exact hescrow tx htx
  cases hruling : o.ruling with
  | systemFault =>
    refine .inl (hplan ?_)
    simp [escrowPlan, hruling, cancelDepositTx, finishStakeTx, buildCancel, Tx.isPayment]
  | landlordWins =>
    refine .inl (hplan ?_)
    simp only [escrowPlan, hruling]
    cases hdeposit : finishDepositTx config o args.bluesafeWallet with
    | error e => simp [Plan.build, Plan.append]
    | ok tx =>
      have hfinish := finishDepositTx_no_payment hdeposit
      have hstake : (finishStakeTx o args.bluesafeWallet).isPayment = false := rfl
      simp [Plan.build, Plan.append, hfinish, hstake]
  | tenantWins =>
    cases htotal : (truthy o.dispute.disputeMeta.stakeAmountDrops).bind bigInt with
    | some total => exact .inr ⟨rfl, total, rfl⟩
    | none =>
      refine .inl (hplan ?_)
      cases hdrops : truthy o.dispute.disputeMeta.stakeAmountDrops with
      | none => simp [escrowPlan, hruling, slashPlan, hdrops, Plan.append, cancelDepositTx,
          buildCancel, Tx.isPayment]
      | some drops =>
        have hbig : bigInt drops = none := by simpa [hdrops] using htotal
        simp [escrowPlan, hruling, slashPlan, hdrops, hbig, Plan.append, cancelDepositTx,
          finishStakeTx, buildCancel, Tx.isPayment]

/-- The payments of a slashing are its third and fourth transaction. -/
theorem slash_payment {config : Config} {args : ExecuteArgs} {o : Opened} {total : Int} {i : Nat}
    {account destination amount : String} (hruling : o.ruling = .tenantWins)
    (htotal : (truthy o.dispute.disputeMeta.stakeAmountDrops).bind bigInt = some total)
    (h : (judgmentPlan config args o).txs[i]? = some (.payment account destination amount)) :
    (i = 2 ∧ amount = toString (slashToTenant total)) ∨
    (i = 3 ∧ amount = toString (slashToInsurance total)) := by
  rw [judgmentPlan_slash hruling htotal] at h
  -- the five places of the plan, two of which are payments
  rcases i with _ | _ | _ | _ | i
  · simp [cancelDepositTx, buildCancel] at h
  · simp [finishStakeTx] at h
  · simp only [slashTxs, buildPayment, List.cons_append, List.getElem?_cons_succ,
      List.getElem?_cons_zero, Option.some.injEq, Tx.payment.injEq] at h
    exact .inl ⟨rfl, h.2.2.symm⟩
  · simp only [slashTxs, buildPayment, List.cons_append, List.getElem?_cons_succ,
      List.getElem?_cons_zero, Option.some.injEq, Tx.payment.injEq] at h
    exact .inr ⟨rfl, h.2.2.symm⟩
  · -- Behind them is only the judgment NFT.
    have hmem : Tx.payment account destination amount ∈ (Plan.build (judgmentNft args o)).txs := by
      refine List.mem_of_getElem? (i := i) ?_
      simpa [slashTxs] using h
    have hno := judgmentNft_no_payment args o _ hmem
    simp [Tx.isPayment] at hno

/-- The two shares of a slashed stake are the stake. -/
theorem slash_shares (total : Int) : slashToTenant total + slashToInsurance total = total := by
  unfold slashToInsurance
  omega

/-- The amount that is slashed is the amount of the stake. -/
theorem bind_of_truthy {drops : Option String} {total : Int}
    (h : (truthy drops).bind bigInt = some total) : drops.bind bigInt = some total := by
  obtain ⟨text, htext, hbig⟩ := Option.bind_eq_some_iff.mp h
  rw [(truthy_eq_some.mp htext).1]
  exact hbig

/-- The payments split the stake exactly when it is not negative, or the second one is not
    submitted. -/
theorem splitsStake_iff {config : Config} {args : ExecuteArgs} {oracle : Nat → Choice}
    {o : Opened} :
    SplitsStake o.dispute.disputeMeta.stakeAmountDrops
        (submissions oracle 1 (judgmentPlan config args o).txs) ↔
      (o.ruling = .tenantWins → Reached oracle 1 3 → ∀ total,
        (truthy o.dispute.disputeMeta.stakeAmountDrops).bind bigInt = some total → 0 ≤ total) := by
  unfold SplitsStake
  rw [pairwise_iff_getElem?]
  constructor
  · intro h hruling hreached total htotal
    have htxs : (judgmentPlan config args o).txs = _ := judgmentPlan_slash hruling htotal
    have htenant : (judgmentPlan config args o).txs[2]? = some (.payment args.poolFunderWallet
        o.dispute.disputeMeta.parties.tenant (toString (slashToTenant total))) := by
      rw [htxs]
      rfl
    have hpool : (judgmentPlan config args o).txs[3]? = some (.payment args.poolFunderWallet
        config.insurancePoolAccount (toString (slashToInsurance total))) := by
      rw [htxs]
      rfl
    have hx := getElem?_submissions.mpr ⟨hreached.of_lt (by omega), _, htenant, rfl⟩
    have hy := getElem?_submissions.mpr ⟨hreached, _, hpool, rfl⟩
    obtain ⟨v, w, -, -, hv, hw, hsum⟩ := h 2 3 _ _ (by omega) hx hy _ _ _ _ _ _ rfl rfl
    rw [bind_of_truthy htotal, Option.some.injEq] at hsum
    omega
  · intro h i j x y hij hx hy account destination amount account' destination' amount' hpay hpay'
    obtain ⟨-, tx, htx, rfl⟩ := getElem?_submissions.mp hx
    obtain ⟨hreached, tx', htx', rfl⟩ := getElem?_submissions.mp hy
    dsimp only at hpay hpay'
    subst hpay hpay'
    rcases judgmentPlan_payments config args o with hnone | ⟨hruling, total, htotal⟩
    · have hno := hnone _ (List.mem_of_getElem? htx)
      simp [Tx.isPayment] at hno
    · -- Of two payments the first is the tenant's and the second the pool's.
      have hfirst := slash_payment hruling htotal htx
      have hsecond := slash_payment hruling htotal htx'
      have hi : i = 2 ∧ amount = toString (slashToTenant total) := by
        rcases hfirst with hi | hi
        · exact hi
        · omega
      have hj : j = 3 ∧ amount' = toString (slashToInsurance total) := by
        rcases hsecond with hj | hj
        · omega
        · exact hj
      have htotal₀ : 0 ≤ total := h hruling (hj.1 ▸ hreached) total htotal
      obtain ⟨hv, hw⟩ := slash_nonneg.mpr htotal₀
      refine ⟨slashToTenant total, slashToInsurance total, hi.2, hj.2, hv, hw, ?_⟩
      rw [slash_shares]
      exact bind_of_truthy htotal

/-- A call of `executeJudgment` submits a transaction only after the success of the escrow
    transactions before it, and splits the stake into non-negative amounts, exactly when the
    ledger applies each escrow transaction whose successor is submitted and a stake that is
    split is not negative. -/
theorem judgment_gated (config : Config) (args : ExecuteArgs) (oracle : Nat → Choice)
    (s : Memory) :
    Gated config args oracle s ↔ EscrowsSucceed config args oracle s := by
  cases h : openJudgment s args.disputeId (oracle 0).nowUnix with
  | error e =>
    have hrun : judgmentRun config args oracle s = _ := run_refused config oracle h
    simp only [EscrowsSucceed, h, iff_true]
    rw [Gated, hrun]
    exact ⟨.nil, fun _ _ _ => .nil⟩
  | ok x =>
    obtain ⟨o, s₁⟩ := x
    have hsubmitted : submitted (judgmentRun config args oracle s).log = _ :=
      (run_opened config oracle h).submitted
    obtain ⟨hget, -⟩ := judged_of_opened h
    simp only [Gated, EscrowsSucceed, h, hsubmitted, escrowsFirst_iff, hget, Option.some.injEq,
      Prod.mk.injEq]
    refine and_congr_right fun _ => ?_
    constructor
    · intro hsplits
      exact splitsStake_iff.mp (hsplits o.ref o.dispute ⟨rfl, rfl⟩)
    · intro hstake ref d hd
      rw [← hd.2]
      exact splitsStake_iff.mpr hstake

/-- The ledger applies every transaction but the release of the stake. -/
def sampleStakeFails (n : Nat) : String :=
  if n = 5 then "tecNO_PERMISSION" else "tesSUCCESS"

/-- The release of the stake fails on the ledger, and the payments are sent all the same. -/
theorem payments_after_failed_stake :
    ¬ Gated sampleConfig sampleArgs (sampleOracle sampleStakeFails)
      (sampleMemory (sampleDispute .tenantWins (some "1000"))) := by
  intro h
  have hopened : openJudgment (sampleMemory (sampleDispute .tenantWins (some "1000")))
      sampleArgs.disputeId (sampleOracle sampleStakeFails 0).nowUnix =
      .ok (sampleOpened (sampleDispute .tenantWins (some "1000")) .tenantWins,
        sampleMemory { sampleDispute .tenantWins (some "1000") with
          ruling := some .tenantWins, executedTxs := some [] }) := rfl
  have hgate := h.1
  rw [judgmentRun, (run_opened sampleConfig _ hopened).submitted, escrowsFirst_iff] at hgate
  have hstake := hgate 1 (finishStakeTx (sampleOpened (sampleDispute .tenantWins (some "1000"))
    .tenantWins) "rFunder") (by decide +kernel) rfl (by decide +kernel)
    ⟨fun _ _ => ⟨rfl, rfl⟩, rfl⟩
  exact absurd hstake (by decide)

end Bluesafe.Judge
