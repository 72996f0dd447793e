import Bluesafe.Spec.RowInvariant

/-!
# What validated rows and executed disputes rest on

In every run, a tracked transaction is validated only because an answer said so: an
answer of the ledger for that hash, or one that a backfill request made up after its
live part had failed. A dispute is executed only because such an answer with a `tes`
code arrived for a hash that an execution request of that dispute tracks.

The same provenance bounds what is known about the type of the transaction that
executed a dispute: the only check is the one the execution request makes on the answer
to its own lookup.
-/

namespace Bluesafe.Ops

open Async Transition

variable {config : Config}

/-- Some request has received the validated answer `live` for `h`, from the ledger or from
    its own simulation. -/
def Confirmed (config : Config) (P : OpsPool) (h : String) (live : LiveTxStatus) : Prop :=
  live.validated = true ∧ ∃ th ∈ P.threads, Applied config th.req th.log h live

/-- An execution request for the dispute `d` has tracked the hash `h`. -/
def LinkedBy (config : Config) (P : OpsPool) (h d : String) : Prop :=
  ∃ th ∈ P.threads, ∃ dc body chosen,
    Executes config th.req th.log dc body chosen ∧ chosen.txHash = h ∧ dc.id = d

/-- What was confirmed stays so as the pool goes on. -/
theorem Confirmed.extend {P P' : OpsPool} {h : String} {live : LiveTxStatus}
    (hc : Confirmed config P h live) (hext : P.Extends P') : Confirmed config P' h live := by
  obtain ⟨hv, th, hth, ha⟩ := hc
  obtain ⟨th', hth', hreq, hlog⟩ := hext th hth
  refine ⟨hv, th', hth', ?_⟩
  rw [hreq]
  exact ha.mono hlog

/-- So does the link between a hash and a dispute. -/
theorem LinkedBy.extend {P P' : OpsPool} {h d : String} (hl : LinkedBy config P h d)
    (hext : P.Extends P') : LinkedBy config P' h d := by
  obtain ⟨th, hth, dc, body, chosen, hx, hhash, hid⟩ := hl
  obtain ⟨th', hth', hreq, hlog⟩ := hext th hth
  refine ⟨th', hth', dc, body, chosen, ?_, hhash, hid⟩
  rw [hreq]
  exact hx.mono hlog

/-! ## The invariant -/

/-- What a tracked transaction rests on. -/
structure TxTrue (config : Config) (P : OpsPool) (row : XrplTransaction) : Prop where
  validated : row.validated = true → ∃ live, Confirmed config P row.txHash live ∧
    row.outcomeClass = some (classifyXrplResultCode live.resultCode) ∧
    (row.trackingStatus = .validatedSuccess → classifyXrplResultCode live.resultCode = .success)
  linked : ∀ d, row.disputeId = some d → LinkedBy config P row.txHash d

/-- What an executed dispute rests on. -/
def DisputeTrue (config : Config) (P : OpsPool) (d : DisputeCase) : Prop :=
  d.status = .executed → ∃ h live, LinkedBy config P h d.id ∧ Confirmed config P h live ∧
    classifyXrplResultCode live.resultCode = .success

/-- The invariant in the form of `rows_good`. -/
def TrueRow (config : Config) (P : OpsPool) : Row → Prop
  | .tx row => TxTrue config P row
  | .dispute d => DisputeTrue config P d
  | .contract _ => True

/-- And what was true of a row. -/
theorem trueRow_extend (P P' : OpsPool) (r : Row) (hext : P.Extends P')
    (h : TrueRow config P r) : TrueRow config P' r := by
  cases r with
  | tx row =>
    refine ⟨fun hv => ?_, fun d hd => (h.linked d hd).extend hext⟩
    obtain ⟨live, hc, hrest⟩ := h.validated hv
    exact ⟨live, hc.extend hext, hrest⟩
  | dispute d =>
    intro hd
    obtain ⟨hash, live, hl, hc, hs⟩ := h hd
    exact ⟨hash, live, hl.extend hext, hc.extend hext, hs⟩
  | contract c => trivial

/-- A row whose ledger columns and link are those of a true row is true. -/
theorem TxTrue.copy {P : OpsPool} {row row' : XrplTransaction} (h : TxTrue config P row)
    (hhash : row'.txHash = row.txHash) (hv : row'.validated = row.validated)
    (hclass : row'.outcomeClass = row.outcomeClass)
    (hstatus : row'.trackingStatus = row.trackingStatus)
    (hlink : ∀ d, row'.disputeId = some d →
      row.disputeId = some d ∨ LinkedBy config P row.txHash d) : TxTrue config P row' := by
  refine ⟨?_, ?_⟩
  · rw [hv, hhash, hclass, hstatus]
    exact h.validated
  · intro d hd
    rw [hhash]
    rcases hlink d hd with hd | hd
    · exact h.linked d hd
    · exact hd

/-- A link that `upsertTrackedTx` sets comes from an execution request. -/
theorem TrackedBy.linkedBy {P : OpsPool} {th : OpsThread} {h : String} {p : TrackParams}
    (ht : TrackedBy config th.req th.log h p) (hth : th ∈ P.threads) {d : String}
    (hd : p.disputeId = some d) : LinkedBy config P h d := by
  cases ht with
  | track auth body hreq => exact nomatch hd
  | execution dc body chosen hx =>
    exact ⟨th, hth, dc, body, chosen, hx, rfl, Option.some.inj hd⟩

/-- A simulated success has a code of success. -/
theorem simulatedStep_success {tx : XrplTransaction} {body : BackfillBody}
    (h : (tx.simulatedStep body).2.1 = .validatedSuccess) :
    classifyXrplResultCode (some (tx.simulatedCode body)) = .success := by
  by_contra hne
  unfold XrplTransaction.simulatedStep at h
  dsimp only at h
  rw [if_neg hne] at h
  split at h
  · exact nomatch h
  · split at h <;> exact nomatch h

section Writes

variable {P : OpsPool} {th : OpsThread} {ReqOk : Request → Prop}
  {EvOk : Request → Event calls String → Prop}

/-- A transaction that is written says what the ledger has said. -/
theorem TxWrite.isTrue (w : Writer (TrueRow config) ReqOk EvOk P th) {row : XrplTransaction}
    (hw : TxWrite config th.req th.log row) : TxTrue config P row := by
  cases hw with
  | fresh id h p now ht hget =>
    exact ⟨(fun hv => nomatch hv), fun d hd => ht.linkedBy w.mem hd⟩
  | retracked h row p now ht hget =>
    obtain ⟨hrow, rfl⟩ := w.getXrplTx hget
    refine TxTrue.copy hrow rfl rfl rfl rfl fun d hd => ?_
    have hor : p.disputeId.or row.disputeId = some d := hd
    cases hp : p.disputeId with
    | none => rw [hp] at hor; exact .inl hor
    | some d' =>
      rw [hp] at hor
      cases hor
      exact .inr (ht.linkedBy w.mem hp)
  | reconciled h row live now ha hget =>
    obtain ⟨hrow, rfl⟩ := w.getXrplTx hget
    refine ⟨fun hv => ⟨live, ⟨hv, th, w.mem, ha⟩, rfl, fun hstatus => ?_⟩, hrow.linked⟩
    -- `trackingStatus` is computed from the answer that was applied.
    by_contra hne
    have hf : ¬ (live.validated = true ∧ classifyXrplResultCode live.resultCode = .success) :=
      fun h => hne h.2
    have hs : (if live.validated = true ∧ classifyXrplResultCode live.resultCode = .success then
        TxTrackingStatus.validatedSuccess
      else if live.validated then .validatedFail else .pendingValidation) =
        .validatedSuccess := hstatus
    rw [if_neg hf] at hs
    split at hs <;> exact nomatch hs
  | simulated body tx now hs =>
    obtain ⟨rows, hrows, hmem⟩ := hs.read
    have htx : TxTrue config P tx := w.readRow (.listed rows hrows hmem)
    refine ⟨fun hv => ?_, htx.linked⟩
    exact ⟨(tx.simulated body now).asAnswer, ⟨hv, th, w.mem, .simulated body tx now hs rfl rfl⟩,
      rfl, simulatedStep_success⟩
  | account row a now hread =>
    exact TxTrue.copy (w.readRow hread) rfl rfl rfl rfl fun _ => .inl
  | probed row now hread =>
    exact TxTrue.copy (w.readRow hread) rfl rfl rfl rfl fun _ => .inl
  | exhausted row now hread =>
    have hrow : TxTrue config P row := w.readRow hread
    exact ⟨(fun hv => nomatch hv), hrow.linked⟩

/-- A dispute is executed by a success only. -/
theorem executionResult_eq_executed {o : Option OutcomeClass}
    (h : executionResult o = .executed) : o = some .success := by
  unfold executionResult at h
  split at h
  · assumption
  · exact nomatch h

/-- A dispute that is written rests on a transaction that says so. -/
theorem DisputeWrite.isTrue (w : Writer (TrueRow config) ReqOk EvOk P th) {d : DisputeCase}
    (hw : DisputeWrite config th.req th.log d) : DisputeTrue config P d := by
  cases hw with
  | filed d auth body hreq hid hstatus =>
    intro hx
    rw [hstatus] at hx
    exact nomatch hx
  | reviewStarted auth id next d t deadline hreq hget hstatus => exact fun hx => nomatch hx
  | refiled auth id next d t hreq hget hstatus => exact fun hx => nomatch hx
  | escalated d t hreq hread =>
    have hd : DisputeTrue config P d := w.readDispute hread
    exact hd
  | decided auth id body d record t hreq hget hstatus hrec hdispute => exact fun hx => nomatch hx
  | pending d body chosen row t hx hrow hhash hlink => exact fun hx => nomatch hx
  | resolved id d row t hget hstatus hrow hres =>
    intro hx
    have hclass := executionResult_eq_executed hx
    have htrue : TxTrue config P row := w.savedRow hrow
    obtain ⟨-, rfl⟩ := w.getDispute hget
    unfold XrplTransaction.resolves at hres
    split at hres
    · rename_i hv
      obtain ⟨live, hc, hout, -⟩ := htrue.validated hv
      rw [hclass] at hout
      exact ⟨row.txHash, live, htrue.linked _ (truthy_eq_some.mp hres).1, hc,
        (Option.some.inj hout).symm⟩
    · exact nomatch hres

/-- Every write keeps the rows true. -/
theorem writesGood_true : WritesGood config (TrueRow config) ReqOk EvOk := by
  intro P th op res r w _ _ hw
  cases r with
  | tx row => exact TxWrite.isTrue w hw
  | dispute d => exact DisputeWrite.isTrue w hw
  | contract c => trivial

end Writes

/-- Every reachable row is true. -/
theorem rows_true {s₀ : Store} {P : OpsPool} {ms : List (Move OpsPool (Act Request Choice))}
    (h₀ : s₀.Initial) (run : Run (opsPoolStep config) ⟨s₀, []⟩ ms P) :
    RowsGood config (TrueRow config) (fun _ => True) (fun _ _ => True) P := by
  refine rows_good trueRow_extend writesGood_true ?_ run fun _ _ =>
    ⟨fun _ _ => trivial, fun _ _ _ _ => trivial⟩
  intro r hr
  cases r with
  | tx row =>
    have hmem : row ∈ s₀.xrplTxs.rows := hr
    rw [h₀.untracked] at hmem
    exact nomatch hmem
  | dispute d =>
    intro hx
    rcases h₀.unexecuted d hr with h | h | h <;> rw [h] at hx <;> exact nomatch hx
  | contract c => trivial

/-! ## Live mode -/

/-- A validated answer for `h`: of the ledger, or made up by a backfill request that had
    recorded the failure of its live part. -/
def AnsweredOrSimulated (P : OpsPool) (h : String) (live : LiveTxStatus) : Prop :=
  live.validated = true ∧ ∃ th ∈ P.threads, Reported th.req th.log h live ∨
    (LiveFailed th.log ∧ ∃ auth body, ∃ tx : XrplTransaction, ∃ now,
      th.req = .backfill auth body ∧ tx.txHash = h ∧ live = (tx.simulated body now).asAnswer)

/-- The result code of the answer begins with `tes`. -/
def LiveTxStatus.succeeded (live : LiveTxStatus) : Prop :=
  ∃ code, live.resultCode = some code ∧ startsWith code "tes" = true

/-- A confirmation is an answer, or a simulation after a failure. -/
theorem Confirmed.answeredOrSimulated {P : OpsPool} {h : String} {live : LiveTxStatus}
    (hc : Confirmed config P h live) (hlive : config.xrplEnabled = true) :
    AnsweredOrSimulated P h live := by
  obtain ⟨hv, th, hth, ha⟩ := hc
  refine ⟨hv, th, hth, ?_⟩
  cases ha with
  | ledger hr => exact .inl hr
  | simulated body tx now hs hh hl =>
    obtain ⟨auth, hreq⟩ := hs.isBackfill
    exact .inr ⟨hs.failed hlive, auth, body, tx, now, hreq, hh.symm, hl⟩

/-- In live mode, in every interleaving and under every failure: a tracked transaction is
    validated only on a validated answer for its hash, with `validated_success` only on a
    `tes` code, and a dispute is executed only on such an answer for a hash that one of
    its execution requests tracks. The answer is the ledger's, or the fallback of a
    backfill whose live part failed. -/
theorem validated_only_on_answer {s₀ : Store} {P : OpsPool}
    {ms : List (Move OpsPool (Act Request Choice))} (hlive : config.xrplEnabled = true)
    (h₀ : s₀.Initial) (run : Run (opsPoolStep config) ⟨s₀, []⟩ ms P) :
    (∀ row ∈ P.store.xrplTxs.rows, row.validated = true →
      ∃ live, AnsweredOrSimulated P row.txHash live ∧
        (row.trackingStatus = .validatedSuccess → live.succeeded)) ∧
    ∀ d ∈ P.store.disputes.rows, d.status = .executed →
      ∃ h live, LinkedBy config P h d.id ∧ AnsweredOrSimulated P h live ∧ live.succeeded := by
  have hgood := rows_true h₀ run
  constructor
  · intro row hrow hv
    obtain ⟨live, hc, -, hs⟩ := (hgood.stored (.tx row) hrow : TxTrue config P row).validated hv
    exact ⟨live, hc.answeredOrSimulated hlive, fun h => classify_eq_success.mp (hs h)⟩
  · intro d hd hx
    obtain ⟨h, live, hl, hc, hs⟩ := (hgood.stored (.dispute d) hd : DisputeTrue config P d) hx
    exact ⟨h, live, hl, hc.answeredOrSimulated hlive, classify_eq_success.mp hs⟩

/-- The empty store is a start. -/
theorem empty_initial : Store.empty.Initial :=
  ⟨rfl, fun _ h => nomatch h⟩

/-- The track request of a row that the ledger does not know yet. -/
def trackUnknown : Turn calls Request Choice :=
  .start (.track none sampleTrack)

/-- A backfill of the account the row may belong to. -/
def backfillAccountTx : Turn calls Request Choice :=
  .start (.backfill none sampleBackfill)

/-- A tracked transaction that the ledger reports as a validated success. -/
theorem validated_only_on_answer_tracked :
    ∃ ms P, Run (opsPoolStep sampleConfig) ⟨Store.empty, []⟩ ms P ∧
      ∃ row ∈ P.store.xrplTxs.rows, row.validated = true ∧
        ∃ live, AnsweredOrSimulated P row.txHash live ∧ live.succeeded := by
  obtain ⟨ms, P, run, hp⟩ := exists_run_of_replay
    (scheduleActs world (handle sampleConfig)
      [trackUnknown, .run 0 20 (sampleOracle "1" 0 (some
        { txHash := "AB12CD34", validated := true, resultCode := some "tesSUCCESS" }))]
      ⟨Store.empty, []⟩)
    (fun r => r.2.store.xrplTxs.rows.any fun row =>
      row.validated && decide (row.trackingStatus = .validatedSuccess))
    (by decide +kernel : (replay (opsPoolStep sampleConfig) ⟨Store.empty, []⟩ _ []).any _ = true)
  simp only [List.any_eq_true, Bool.and_eq_true, decide_eq_true_eq] at hp
  obtain ⟨row, hrow, hv, hstatus⟩ := hp
  obtain ⟨live, ha, hs⟩ := (validated_only_on_answer rfl empty_initial run).1 row hrow hv
  exact ⟨ms, P, run, row, hrow, hv, live, ha, hs hstatus⟩

/-- `account_tx` times out, everything else answers. -/
def accountTxTimesOut : Call → Choice
  | .getAccountTxResults _ => { failure := some "timeout" }
  | op => sampleOracle "1" 0 none op

/-- The ledger said nothing about any transaction in this call. -/
def silentEvent : Event calls String → Bool
  | ⟨.getTxStatus _, .ok (some _)⟩ => false
  | ⟨.getAccountTxResults _, .ok (_ :: _)⟩ => false
  | _ => true

/-- The ledger said nothing about any transaction to this thread. -/
def silentThread (th : OpsThread) : Bool :=
  (match th.req with
    | .streamTransaction _ _ => false
    | _ => true) && th.log.all silentEvent

/-- Without streams and answers to `account_tx`, the report is an answer to `tx`. -/
theorem Reported.answered {req : Request} {l : OpsLog} {h : String} {live : LiveTxStatus}
    (hr : Reported req l h live) (hreq : ∀ msg throttled, req ≠ .streamTransaction msg throttled)
    (hmap : ∀ account p rest, ¬ Answered l (.getAccountTxResults account) (p :: rest)) :
    Answered l (.getTxStatus h) (some live) := by
  cases hr with
  | tx hget => exact hget
  | accountTx account map hget hlook =>
    cases map with
    | nil => cases hlook
    | cons p rest => exact absurd hget (hmap account p rest)
  | stream msg throttled i heq hacc hlive => exact absurd heq (hreq msg throttled)

/-- A request that was told nothing has nothing reported. -/
theorem not_reported_of_silent {th : OpsThread} (hs : silentThread th = true) {h : String}
    {live : LiveTxStatus} : ¬ Reported th.req th.log h live := by
  simp only [silentThread, Bool.and_eq_true, List.all_eq_true] at hs
  intro hr
  have hget := hr.answered (fun msg throttled hreq => by rw [hreq] at hs; cases hs.1)
    fun account p rest hmap => by cases hs.2 _ hmap
  cases hs.2 _ hget

/-- The ledger never says a word, and after two backfills whose `account_tx` call timed
    out the transaction is a validated success. -/
theorem validated_without_ledger_answer :
    ∃ ms P, Run (opsPoolStep sampleConfig) ⟨Store.empty, []⟩ ms P ∧
      ∃ row ∈ P.store.xrplTxs.rows, row.validated = true ∧
        row.trackingStatus = .validatedSuccess ∧
        ¬ ∃ th ∈ P.threads, ∃ live, Reported th.req th.log row.txHash live := by
  obtain ⟨ms, P, run, hp⟩ := exists_run_of_replay
    (scheduleActs world (handle sampleConfig)
      [trackUnknown, .run 0 20 (sampleOracle "1" 0 none), backfillAccountTx,
        .run 1 20 accountTxTimesOut, backfillAccountTx, .run 2 20 accountTxTimesOut]
      ⟨Store.empty, []⟩)
    (fun r => (r.2.threads.all silentThread) && r.2.store.xrplTxs.rows.any fun row =>
      row.validated && decide (row.trackingStatus = .validatedSuccess))
    (by decide +kernel : (replay (opsPoolStep sampleConfig) ⟨Store.empty, []⟩ _ []).any _ = true)
  simp only [Bool.and_eq_true, List.all_eq_true, List.any_eq_true, decide_eq_true_eq] at hp
  obtain ⟨hsilent, row, hrow, hv, hstatus⟩ := hp
  refine ⟨ms, P, run, row, hrow, hv, hstatus, ?_⟩
  rintro ⟨th, hth, live, hr⟩
  exact not_reported_of_silent (hsilent th hth) hr

end Bluesafe.Ops
