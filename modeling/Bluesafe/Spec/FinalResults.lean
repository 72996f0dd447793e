import Bluesafe.Spec.RowInvariant

/-!
# Runs of `applyLiveTxStatus` and `upsertTrackedTx` on one hash

Both functions read the row, compute a new one and overwrite the stored row. Neither
compares the stored row with what it is about to write, so an answer that is older than
the stored one, or a row that was read before the stored one was validated, takes a
validated row back.

The runs in which this does not happen are exactly those whose saves are `Guarded`. In
such runs the final result of a transaction is the one of its validated answers, in
whatever order the answers and the requests arrive (`validated_results_final`).
-/

namespace Bluesafe.Ops

open Async Transition

/-- One run on the hash: an answer that is applied, or a request that is tracked. -/
inductive TxRun
  | apply (live : LiveTxStatus)
  | upsert (p : TrackParams)
  deriving DecidableEq

/-- The program of a run. -/
def TxRun.prog (h : String) : TxRun → OpsM Unit
  | .apply live => (fun _ => ()) <$> applyLiveTxStatus h live
  | .upsert p => upsertTrackedTx h p

/-- Any number of runs on the hash, with a repository that answers. -/
abbrev TxPool : Type := Pool calls String Store TxRun Unit

def txPoolStep (h : String) : TxPool → Act TxRun Choice → Option TxPool :=
  poolStep reliable (TxRun.prog h)

/-! ## What the runs write -/

/-- What a run on the hash saves. -/
inductive TxRunWrite (h : String) (req : TxRun) (l : OpsLog) : XrplTransaction → Prop
  | reconciled (live : LiveTxStatus) (copy : XrplTransaction) (now : Time)
      (hreq : req = .apply live) (hget : Answered l (.getXrplTx h) (some copy)) :
    TxRunWrite h req l (copy.reconciled live now)
  | retracked (p : TrackParams) (copy : XrplTransaction) (now : Time) (hreq : req = .upsert p)
      (hget : Answered l (.getXrplTx h) (some copy))
      (honly : ∀ found, Answered l (.getXrplTx h) found → found = some copy) :
    TxRunWrite h req l (copy.retracked h p now)
  | fresh (p : TrackParams) (id : String) (now : Time) (hreq : req = .upsert p)
      (honly : ∀ found, Answered l (.getXrplTx h) found → found = none) :
    TxRunWrite h req l (freshTrackedTx id h p now)

/-- The monitor of the runs. -/
def txRunOk (h : String) (req : TxRun) (l : OpsLog) : Call → Prop
  | .saveXrplTx row => TxRunWrite h req l row
  | _ => True

/-- A run that has ended found no row or has saved one. -/
def Concluded (h : String) (_ : TxRun) (_ : Unit) (l : OpsLog) : Prop :=
  Answered l (.getXrplTx h) none ∨ ∃ row, Answered l (.saveXrplTx row) ()

section Programs

variable {h : String} {req : TxRun} {l : OpsLog}

/-- Quiet calls write no row. -/
theorem quiet_txRun (h : String) (req : TxRun) : Quiet (txRunOk h req) := by
  intro l op hop
  cases op <;> trivial

/-- The dispute part of a run saves no tracked transaction. -/
theorem resolveLinkedDispute_txRun (row : XrplTransaction) :
    Safe (txRunOk h req) (resolveLinkedDispute row) l := by
  unfold resolveLinkedDispute resolveExecution
  -- the dispute behind the row is none of this hash's business
  cases row.resolves with
  | none => exact Gives.pure trivial
  | some id =>
    refine Gives.call_then trivial fun found l₁ _ => ?_
    cases found with
    | none => exact Gives.pure trivial
    | some d =>
      dsimp only
      split
      · refine Gives.call_then trivial fun t l₂ _ => ?_
        refine Gives.call_then trivial fun _ l₃ _ => ?_
        refine Gives.bind ((quiet_txRun h req).writeAudit _ _ _ _ _ _ _) fun _ l₄ _ _ => ?_
        refine Gives.bind ((quiet_txRun h req).emitEvent _ _ _ _) fun _ l₅ _ _ => ?_
        exact (quiet_txRun h req).notifyParties _ _ _
      · exact Gives.pure trivial

/-- An answer is applied to the row that was read. -/
theorem applyLiveTxStatus_txRun {live : LiveTxStatus} (hreq : req = .apply live) :
    Gives (txRunOk h req) (applyLiveTxStatus h live) (fun _ l' => Concluded h req () l') l := by
  unfold applyLiveTxStatus
  refine Gives.call_read trivial fun found l₁ _ hget => ?_
  cases found with
  | none => exact Gives.pure (.inl hget)
  | some copy =>
    refine Gives.call_then trivial fun now l₂ hl₂ => ?_
    refine Gives.call_read (TxRunWrite.reconciled live copy now hreq (Answered.mono hget hl₂))
      fun _ l₃ _ hsave => ?_
    refine Gives.bind (resolveLinkedDispute_txRun _) fun _ l₄ hl₄ _ => ?_
    exact Gives.pure (.inr ⟨_, Answered.mono hsave hl₄⟩)

/-- The row was read once, after the clock and before a possible identifier. -/
theorem found_eq (id : String) {now : Time} {found found' : Option XrplTransaction}
    (h' : Answered [⟨.randomId "xrt", .ok id⟩, ⟨.getXrplTx h, .ok found⟩, ⟨.clock, .ok now⟩]
      (.getXrplTx h) found') : found' = found := by
  rcases List.mem_cons.mp h' with heq | hrest
  · exact nomatch heq
  · rcases List.mem_cons.mp hrest with heq | hlast
    · cases heq
      rfl
    · exact nomatch List.mem_singleton.mp hlast

/-- Tracking writes the row that was read, or a new one. -/
theorem upsertTrackedTx_txRun {p : TrackParams} (hreq : req = .upsert p) :
    Gives (txRunOk h req) (upsertTrackedTx h p) (fun _ l' => Concluded h req () l') [] := by
  unfold upsertTrackedTx
  -- The logs stay exact here: what is saved is computed from the only row that was read.
  refine Gives.call_bind trivial fun now => ?_
  refine Gives.call_bind trivial fun found => ?_
  cases found with
  | some copy =>
    have honly : ∀ found, Answered [⟨.getXrplTx h, .ok (some copy)⟩, ⟨.clock, .ok now⟩]
        (.getXrplTx h) found → found = some copy :=
      fun found hfound => found_eq "" (List.mem_cons_of_mem _ hfound)
    exact Gives.call (TxRunWrite.retracked p copy now hreq Answered.head honly)
      fun _ => .inr ⟨_, Answered.head⟩
  | none =>
    refine Gives.call_bind trivial fun id => ?_
    exact Gives.call (TxRunWrite.fresh p id now hreq fun _ => found_eq id)
      fun _ => .inr ⟨_, Answered.head⟩

end Programs

/-- Every run meets the monitor and concludes. -/
theorem prog_gives (h : String) (req : TxRun) :
    Gives (txRunOk h req) (TxRun.prog h req) (Concluded h req) [] := by
  cases req with
  | apply live => exact Gives.map (applyLiveTxStatus_txRun rfl)
  | upsert p => exact upsertTrackedTx_txRun rfl

/-! ## One step -/

/-- What every pool keeps: the runs are as above and the hash stays tracked, so that a run
    never reads `none`. -/
structure TxPoolBase (h : String) (P : TxPool) : Prop where
  gives : ∀ th ∈ P.threads, th.Gives (txRunOk h) (Concluded h)
  tracked : ∃ row, P.store.xrplTxs.get? h = some row
  found : ∀ th ∈ P.threads, ∀ found, Answered th.log (.getXrplTx h) found →
    ∃ copy, found = some copy ∧ copy.txHash = h

/-- The run writes a validated row: its answer is validated, or it has read a validated
    row and keeps its result. -/
def Confirms (h : String) (req : TxRun) (l : OpsLog) : Prop :=
  (∃ live, req = .apply live ∧ live.validated = true) ∨
  ∃ p copy, req = .upsert p ∧ Answered l (.getXrplTx h) (some copy) ∧ copy.validated = true

/-- A run that saves over a validated row writes a validated one. -/
def Guarded (h : String) (m : Move TxPool (Act TxRun Choice)) : Prop :=
  ∀ req l ev x, stepEvent reliable m.before m.label = some (req, l, ev) → ev.op = .saveXrplTx x →
    ∀ row, m.before.store.xrplTxs.get? h = some row → row.validated = true → Confirms h req l

/-- A validated row is validated after the move. -/
def Keeps (h : String) (m : Move TxPool (Act TxRun Choice)) : Prop :=
  ∀ row, m.before.store.xrplTxs.get? h = some row → row.validated = true →
    ∃ row', m.after.store.xrplTxs.get? h = some row' ∧ row'.validated = true

section Step

variable {h : String}

/-- The row that is written has the hash of the run. -/
theorem TxRunWrite.hash {req : TxRun} {l : OpsLog} {x : XrplTransaction}
    (hw : TxRunWrite h req l x)
    (hfound : ∀ found, Answered l (.getXrplTx h) found → ∃ copy, found = some copy ∧ copy.txHash = h) :
    x.txHash = h := by
  cases hw with
  | reconciled live copy now hreq hget =>
    obtain ⟨copy', heq, hhash⟩ := hfound _ hget
    cases heq
    exact hhash
  | retracked p copy now hreq hget honly => rfl
  | fresh p id now hreq honly => rfl

/-- A saved row is validated exactly when its run confirms it. -/
theorem TxRunWrite.validated_iff {req : TxRun} {l : OpsLog} {x : XrplTransaction}
    (hw : TxRunWrite h req l x) : x.validated = true ↔ Confirms h req l := by
  cases hw with
  -- the answer of the ledger decides
  | reconciled live copy now hreq hget =>
    constructor
    · intro hv
      exact .inl ⟨live, hreq, hv⟩
    · rintro (⟨live', hreq', hv⟩ | ⟨p, copy', hreq', -, -⟩)
      · rw [hreq, TxRun.apply.injEq] at hreq'
        rw [← hreq'] at hv
        exact hv
      · rw [hreq] at hreq'
        exact nomatch hreq'
  -- tracking again keeps what was read
  | retracked p copy now hreq hget honly =>
    constructor
    · intro hv
      exact .inr ⟨p, copy, hreq, hget, hv⟩
    · rintro (⟨live, hreq', -⟩ | ⟨p', copy', -, hget', hv⟩)
      · rw [hreq] at hreq'
        exact nomatch hreq'
      · cases honly _ hget'
        exact hv
  -- a new row is pending
  | fresh p id now hreq honly =>
    constructor
    · intro hv
      exact nomatch hv
    · rintro (⟨live, hreq', -⟩ | ⟨p', copy', -, hget', hv⟩)
      · rw [hreq] at hreq'
        exact nomatch hreq'
      · exact nomatch honly _ hget'

/-- What a move does to the tracked row: nothing, without a save, or a justified save that
    is stored. -/
theorem row_move {m : Move TxPool (Act TxRun Choice)}
    (hstep : txPoolStep h m.before m.label = some m.after) (hP : TxPoolBase h m.before) :
    (m.after.store.xrplTxs.get? h = m.before.store.xrplTxs.get? h ∧
      ∀ req l ev x, stepEvent reliable m.before m.label = some (req, l, ev) →
        ev.op ≠ .saveXrplTx x) ∨
    ∃ th ∈ m.before.threads, ∃ x,
      stepEvent reliable m.before m.label = some (th.req, th.log, ⟨.saveXrplTx x, .ok ()⟩) ∧
      TxRunWrite h th.req th.log x ∧ m.after.store.xrplTxs.get? h = some x := by
  obtain ⟨P, a, P'⟩ := m
  dsimp only at hstep hP ⊢
  obtain ⟨req, rfl, rfl⟩ | ⟨i, c, th, op, k, rfl, hth, hprog, hallow, rfl⟩ := poolStep_cases hstep
  · exact .inl ⟨rfl, fun _ _ _ _ hev => nomatch hev⟩
  · have hmem : th ∈ P.threads := List.mem_of_getElem? hth
    have hev := stepEvent_advance (W := reliable) (c := c) hth hprog
    -- every call but a save keeps the row
    have hother : (∀ x, op ≠ .saveXrplTx x) →
        (serve op c P.store).2.xrplTxs.get? h = P.store.xrplTxs.get? h ∧
        ∀ req l ev x, stepEvent reliable P (.advance i c) = some (req, l, ev) →
          ev.op ≠ .saveXrplTx x := by
      intro hop
      constructor
      · rcases (framed_serve op c P.store).xrplTxs with hsame | ⟨x, hx, -⟩
        · rw [hsame]
        · exact absurd hx (hop x)
      · intro req l ev x hev'
        rw [hev] at hev'
        cases hev'
        exact hop x
    cases op with
    | saveXrplTx x =>
      right
      have hok : c.failure = none := by
        simpa [reliable, Call.isLedger] using hallow
      have hserve : reliable.serve (.saveXrplTx x) c P.store =
          (.ok (), { P.store with xrplTxs := P.store.xrplTxs.set x }) := serve_performed hok
      have hw : TxRunWrite h th.req th.log x := (hP.gives th hmem).ok_of_await hprog
      have hhash : x.txHash = h := hw.hash (hP.found th hmem)
      refine ⟨th, hmem, x, ?_, hw, ?_⟩
      · rw [hev, hserve]
      · rw [hserve]
        show (P.store.xrplTxs.set x).get? h = some x
        rw [← hhash]
        exact Table.get?_set_self P.store.xrplTxs x
    | _ => exact .inl (hother fun x hx => nomatch hx)

/-- A move keeps validated rows exactly when it is guarded. -/
theorem keeps_iff_guarded {m : Move TxPool (Act TxRun Choice)}
    (hstep : txPoolStep h m.before m.label = some m.after) (hP : TxPoolBase h m.before) :
    Keeps h m ↔ Guarded h m := by
  -- the row is as before, or was written by this move
  obtain ⟨hsame, hnone⟩ | ⟨th, hth, x, hev, hw, hx⟩ := row_move hstep hP
  · constructor
    · intro _ req l ev x hev hop
      exact absurd hop (hnone req l ev x hev)
    · intro _ row hrow hv
      exact ⟨row, hsame.trans hrow, hv⟩
  -- the write keeps a final result exactly when its guard holds
  · constructor
    · intro hkeeps req l ev x' hev' hop row hrow hv
      rw [hev] at hev'
      cases hev'
      obtain ⟨row', hrow', hv'⟩ := hkeeps row hrow hv
      rw [hx, Option.some.injEq] at hrow'
      subst hrow'
      exact hw.validated_iff.mp hv'
    · intro hguard row hrow hv
      exact ⟨x, hx, hw.validated_iff.mpr (hguard _ _ _ x hev rfl row hrow hv)⟩

/-- A row that was just read is the stored one. -/
theorem stored_of_getXrplTx {found : Option XrplTransaction} {op : Call} {c : Choice} {s : Store}
    (heq : (⟨.getXrplTx h, .ok found⟩ : Event calls String) = ⟨op, (serve op c s).1⟩) :
    s.xrplTxs.get? h = found :=
  (performed_of_event heq).2.1

/-- Every step keeps the rows and the logs together. -/
theorem txPoolBase_step (m : Move TxPool (Act TxRun Choice))
    (hstep : txPoolStep h m.before m.label = some m.after) (hP : TxPoolBase h m.before) :
    TxPoolBase h m.after where
  gives := poolStep_gives (prog_gives h) hstep hP.gives
  tracked := by
    obtain ⟨hsame, -⟩ | ⟨th, hth, x, hev, hw, hx⟩ := row_move hstep hP
    · rw [hsame]
      exact hP.tracked
    · exact ⟨x, hx⟩
  -- what a request has found is the row that was stored
  found := by
    intro th hth found hfound
    obtain ⟨u, hu, -, hold⟩ | ⟨i, c, u, op, k, -, -, -, -, hev, -⟩ :=
      mem_log_step hstep hth hfound
    · exact hP.found u hu found hold
    · obtain ⟨row, hrow⟩ := hP.tracked
      have hstored := stored_of_getXrplTx hev
      -- the row of this hash is there from the start
      rw [hrow] at hstored
      exact ⟨row, hstored.symm, Table.key_of_get? hrow⟩

end Step

/-! ## Guarded runs -/

/-- The tracking status a validated answer with this code leads to. -/
def finalTrackingStatus (code : Option String) : TxTrackingStatus :=
  if classifyXrplResultCode code = .success then .validatedSuccess else .validatedFail

/-- A validated row has the result of the code. -/
def SettledAs (code : Option String) (row : XrplTransaction) : Prop :=
  row.validated = true → row.resultCode = code ∧
    row.outcomeClass = some (classifyXrplResultCode code) ∧
    row.trackingStatus = finalTrackingStatus code

/-- A row that has taken up a validated answer is settled by it. -/
theorem reconciled_settledAs (copy : XrplTransaction) {live : LiveTxStatus} (now : Time)
    {code : Option String} (hcode : live.validated = true → live.resultCode = code) :
    SettledAs code (copy.reconciled live now) := by
  intro hv
  have hlive : live.validated = true := hv
  have hc := hcode hlive
  refine ⟨hc, congrArg (fun c => some (classifyXrplResultCode c)) hc, ?_⟩
  show (if live.validated = true ∧ classifyXrplResultCode live.resultCode = .success then
      TxTrackingStatus.validatedSuccess
    else if live.validated then .validatedFail else .pendingValidation) = finalTrackingStatus code
  unfold finalTrackingStatus
  rw [hc]
  simp only [hlive, true_and, if_true]

/-- What guarded runs keep, for answers whose validated ones carry `code`. -/
structure TxPoolFinal (h : String) (code : Option String) (P : TxPool) : Prop where
  base : TxPoolBase h P
  answers : ∀ th ∈ P.threads, ∀ live, th.req = .apply live → live.validated = true →
    live.resultCode = code
  stored : ∀ row, P.store.xrplTxs.get? h = some row → SettledAs code row
  copies : ∀ th ∈ P.threads, ∀ copy, Answered th.log (.getXrplTx h) (some copy) →
    SettledAs code copy
  /-- Once a validated answer was saved, the row is validated. -/
  applied : ∀ th ∈ P.threads, ∀ live row, th.req = .apply live → live.validated = true →
    Answered th.log (.saveXrplTx row) () →
    ∃ stored, P.store.xrplTxs.get? h = some stored ∧ stored.validated = true

/-- What such a run assumes about its steps. -/
structure FinalStep (h : String) (code : Option String) (m : Move TxPool (Act TxRun Choice)) :
    Prop where
  final : ∀ live, m.label = .spawn (.apply live) → live.validated = true → live.resultCode = code
  guarded : Guarded h m

section Final

variable {h : String} {code : Option String}

/-- A save in a guarded run leaves a settled row. -/
theorem TxRunWrite.settledAs {P : TxPool} (hP : TxPoolFinal h code P)
    {th : Thread calls String TxRun Unit} (hth : th ∈ P.threads) {x : XrplTransaction}
    (hw : TxRunWrite h th.req th.log x) : SettledAs code x := by
  cases hw with
  | reconciled live copy now hreq hget =>
    exact reconciled_settledAs copy now (hP.answers th hth live hreq)
  | retracked p copy now hreq hget honly => exact hP.copies th hth copy hget
  | fresh p id now hreq honly => exact fun hv => nomatch hv

/-- Validated answers agree on their code. -/
theorem answers_after {m : Move TxPool (Act TxRun Choice)}
    (hstep : txPoolStep h m.before m.label = some m.after) (hok : FinalStep h code m)
    (hP : TxPoolFinal h code m.before) : ∀ th ∈ m.after.threads, ∀ live,
      th.req = .apply live → live.validated = true → live.resultCode = code := by
  obtain ⟨P, a, P'⟩ := m
  dsimp only at hstep hP ⊢
  intro u hu live hreq hv
  obtain ⟨req, rfl, rfl⟩ | ⟨i, c, th, op, k, rfl, hth, hprog, -, rfl⟩ := poolStep_cases hstep
  · rcases List.mem_append.mp hu with hu | hu
    · exact hP.answers u hu live hreq hv
    · rw [List.mem_singleton.mp hu] at hreq
      exact hok.final live (congrArg Act.spawn hreq) hv
  · rcases mem_set_resume hu with rfl | hu
    · exact hP.answers th (List.mem_of_getElem? hth) live hreq hv
    · exact hP.answers u hu live hreq hv

/-- An answer that was applied is in the row, or a later one is. -/
theorem applied_after {m : Move TxPool (Act TxRun Choice)}
    (hstep : txPoolStep h m.before m.label = some m.after) (hok : FinalStep h code m)
    (hP : TxPoolFinal h code m.before) : ∀ th ∈ m.after.threads, ∀ live row,
      th.req = .apply live → live.validated = true → Answered th.log (.saveXrplTx row) () →
      ∃ stored, m.after.store.xrplTxs.get? h = some stored ∧ stored.validated = true := by
  intro th hth live row hreq hv hsave
  have hkeeps : Keeps h m := (keeps_iff_guarded hstep hP.base).mpr hok.guarded
  obtain ⟨u, hu, hureq, hold⟩ | ⟨i, c, u, op, k, hlabel, hui, hprog, hureq, hev, -⟩ :=
    mem_log_step hstep hth hsave
  -- the answer was applied before, and what it has settled is kept
  · obtain ⟨stored, hstored, hsv⟩ := hP.applied u hu live row (hureq.trans hreq) hv hold
    exact hkeeps stored hstored hsv
  · -- The answer is saved by this move.
    have hstepEv : stepEvent reliable m.before m.label =
        some (u.req, u.log, ⟨.saveXrplTx row, .ok ()⟩) := by
      rw [hlabel, stepEvent_advance hui hprog, hev]
    obtain ⟨-, hnone⟩ | ⟨v, hv', x, hev', hw, hx⟩ := row_move hstep hP.base
    · exact absurd rfl (hnone _ _ _ row hstepEv)
    · rw [hstepEv, Option.some.injEq, Prod.mk.injEq] at hev'
      refine ⟨x, hx, hw.validated_iff.mpr (.inl ⟨live, ?_, hv⟩)⟩
      rw [← hev'.1, ← hureq, hreq]

/-- Every step that meets the condition keeps final results. -/
theorem txPoolFinal_step (m : Move TxPool (Act TxRun Choice))
    (hstep : txPoolStep h m.before m.label = some m.after) (hok : FinalStep h code m)
    (hP : TxPoolFinal h code m.before) : TxPoolFinal h code m.after where
  base := txPoolBase_step m hstep hP.base
  answers := answers_after hstep hok hP
  -- the row is as before, or settled by the answers so far
  stored := by
    intro row hrow
    obtain ⟨hsame, -⟩ | ⟨th, hth, x, hev, hw, hx⟩ := row_move hstep hP.base
    · rw [hsame] at hrow
      exact hP.stored row hrow
    · rw [hx, Option.some.injEq] at hrow
      rw [← hrow]
      exact hw.settledAs hP hth
  -- a copy was read before, or is the row of now
  copies := by
    intro th hth copy hcopy
    obtain ⟨u, hu, -, hold⟩ | ⟨i, c, u, op, k, -, -, -, -, hev, -⟩ :=
      mem_log_step hstep hth hcopy
    · exact hP.copies u hu copy hold
    · exact hP.stored copy (stored_of_getXrplTx hev)
  applied := applied_after hstep hok hP

/-- A run that has ended, and whose answer was validated, has made the row final. -/
theorem final_of_done {P : TxPool} (hP : TxPoolFinal h code P)
    {th : Thread calls String TxRun Unit} (hth : th ∈ P.threads) {live : LiveTxStatus}
    (hreq : th.req = .apply live) (hv : live.validated = true) {u : Unit}
    (hdone : th.prog = .done u) :
    ∃ row, P.store.xrplTxs.get? h = some row ∧ row.validated = true ∧ row.resultCode = code ∧
      row.outcomeClass = some (classifyXrplResultCode code) ∧
      row.trackingStatus = finalTrackingStatus code := by
  obtain ⟨stored, hstored, hsv⟩ :
      ∃ stored, P.store.xrplTxs.get? h = some stored ∧ stored.validated = true := by
    rcases (hP.base.gives th hth).of_done hdone with hnone | ⟨row, hsave⟩
    · obtain ⟨copy, heq, -⟩ := hP.base.found th hth none hnone
      exact nomatch heq
    · exact hP.applied th hth live row hreq hv hsave
  exact ⟨stored, hstored, hsv, hP.stored stored hstored hsv⟩

end Final

/-- Every run of the pool has ended. -/
def Complete (P : TxPool) : Prop :=
  ∀ th ∈ P.threads, ∃ u, th.prog = .done u

/-- The columns that tell the result of the transaction. -/
def resultOf (h : String) (P : TxPool) :
    Option (Bool × Option String × Option OutcomeClass × TxTrackingStatus) :=
  (P.store.xrplTxs.get? h).map fun row =>
    (row.validated, row.resultCode, row.outcomeClass, row.trackingStatus)

/-- The start of the runs: the hash is tracked, and if its row is validated it has the
    result of the validated answers to come. -/
def TrackedAt (s : Store) (h : String) (reqs : List TxRun) : Prop :=
  ∃ row, s.xrplTxs.get? h = some row ∧
    ∀ live, .apply live ∈ reqs → live.validated = true → SettledAs live.resultCode row

/-- A tracked row is a start. -/
theorem txPoolBase_start {s₀ : Store} {h : String} {reqs : List TxRun}
    (h₀ : TrackedAt s₀ h reqs) : TxPoolBase h ⟨s₀, []⟩ := by
  obtain ⟨row, hrow, -⟩ := h₀
  exact ⟨(fun _ hth => nomatch hth), ⟨row, hrow⟩, (fun _ hth => nomatch hth)⟩

/-- A complete guarded run ends with the result of its validated answers. -/
theorem result_of_guarded {s₀ : Store} {h : String} {P : TxPool}
    {ms : List (Move TxPool (Act TxRun Choice))} {reqs : List TxRun} {live : LiveTxStatus}
    (h₀ : TrackedAt s₀ h reqs) (run : Run (txPoolStep h) ⟨s₀, []⟩ ms P)
    (hreqs : ∀ req, req ∈ spawned ms ↔ req ∈ reqs)
    (hfinal : ∀ live live', .apply live ∈ reqs → .apply live' ∈ reqs → live.validated = true →
      live'.validated = true → live.resultCode = live'.resultCode)
    (hguard : ∀ m ∈ ms, Guarded h m) (hdone : Complete P) (hlive : .apply live ∈ reqs)
    (hv : live.validated = true) :
    resultOf h P = some (true, live.resultCode,
      some (classifyXrplResultCode live.resultCode), finalTrackingStatus live.resultCode) := by
  -- all final answers carry the code of `live`, so a validated row keeps it
  have hok : ∀ m ∈ ms, FinalStep h live.resultCode m := by
    intro m hm
    refine ⟨fun live' hspawn hv' => ?_, hguard m hm⟩
    exact hfinal live' live ((hreqs _).mp (mem_spawned hm hspawn)) hlive hv' hv
  have hstart : TxPoolFinal h live.resultCode ⟨s₀, []⟩ := by
    refine ⟨txPoolBase_start h₀, (fun _ hth => nomatch hth), ?_, (fun _ hth => nomatch hth),
      (fun _ hth => nomatch hth)⟩
    intro row hrow
    obtain ⟨row₀, hrow₀, hsettled⟩ := h₀
    rw [show s₀.xrplTxs.get? h = some row from hrow, Option.some.injEq] at hrow₀
    rw [hrow₀]
    exact hsettled live hlive hv
  have hend : TxPoolFinal h live.resultCode P := run.invariant hok hstart txPoolFinal_step
  -- the request with the final answer has ended, and has written it
  obtain ⟨th, hth, hreq⟩ := exists_thread_of_spawned run ((hreqs _).mpr hlive)
  obtain ⟨u, hu⟩ := hdone th hth
  obtain ⟨row, hrow, hrv, hcode, hclass, hstatus⟩ := final_of_done hend hth hreq hv hu
  unfold resultOf
  rw [hrow, Option.map_some, hrv, hcode, hclass, hstatus]

/-- For every two runs over the same multiset of answers and requests, under finality of
    the ledger: a run keeps validated rows exactly when its saves are guarded; and when
    both runs are guarded and complete and one answer was validated, they end with the
    same result. -/
theorem validated_results_final {s₀ : Store} {h : String} {P₁ P₂ : TxPool}
    {ms₁ ms₂ : List (Move TxPool (Act TxRun Choice))} (h₀ : TrackedAt s₀ h (spawned ms₁))
    (run₁ : Run (txPoolStep h) ⟨s₀, []⟩ ms₁ P₁) (run₂ : Run (txPoolStep h) ⟨s₀, []⟩ ms₂ P₂)
    (hperm : (spawned ms₁).Perm (spawned ms₂))
    (hfinal : ∀ live live', .apply live ∈ spawned ms₁ → .apply live' ∈ spawned ms₁ →
      live.validated = true → live'.validated = true →
      live.resultCode = live'.resultCode ∧ live.ledgerIndex = live'.ledgerIndex) :
    ((∀ m ∈ ms₁, Keeps h m) ↔ ∀ m ∈ ms₁, Guarded h m) ∧
    ((∀ m ∈ ms₁, Guarded h m) → (∀ m ∈ ms₂, Guarded h m) → Complete P₁ → Complete P₂ →
      (∃ live, .apply live ∈ spawned ms₁ ∧ live.validated = true) →
      resultOf h P₁ = resultOf h P₂) := by
  have hstart : TxPoolBase h ⟨s₀, []⟩ := txPoolBase_start h₀
  -- step by step the condition is exact
  have hiff : ∀ m ∈ ms₁, (Keeps h m ↔ Guarded h m) := by
    intro m hm
    have hP : TxPoolBase h m.before := run₁.invariant_before (C := fun _ => True)
      (fun _ _ => trivial) hstart (fun m hstep _ => txPoolBase_step m hstep) hm
    exact keeps_iff_guarded (run₁.step_of_mem hm) hP
  constructor
  · constructor
    · intro hkeeps m hm
      exact (hiff m hm).mp (hkeeps m hm)
    · intro hguard m hm
      exact (hiff m hm).mpr (hguard m hm)
  · rintro hguard₁ hguard₂ hdone₁ hdone₂ ⟨live, hlive, hv⟩
    have hcode := fun live live' hl hl' hv hv' => (hfinal live live' hl hl' hv hv').1
    rw [result_of_guarded h₀ run₁ (fun _ => Iff.rfl) hcode hguard₁ hdone₁ hlive hv,
      result_of_guarded h₀ run₂ (fun _ => hperm.symm.mem_iff) hcode hguard₂ hdone₂ hlive hv]

/-! ## Concrete runs -/

/-- A decidable form of `Confirms`. -/
def confirmsCheck (h : String) (req : TxRun) (l : OpsLog) : Bool :=
  match req with
  | .apply live => live.validated
  | .upsert _ => l.any fun
    | ⟨.getXrplTx h', .ok (some copy)⟩ => decide (h' = h) && copy.validated
    | _ => false

/-- Whether a request confirms the row can be computed. -/
theorem confirms_of_check {h : String} {req : TxRun} {l : OpsLog}
    (hc : confirmsCheck h req l = true) : Confirms h req l := by
  cases req with
  | apply live => exact .inl ⟨live, rfl, hc⟩
  | upsert p =>
    obtain ⟨ev, hev, hcheck⟩ := List.any_eq_true.mp hc
    split at hcheck
    · rename_i h' copy
      rw [Bool.and_eq_true, decide_eq_true_eq] at hcheck
      obtain ⟨rfl, hv⟩ := hcheck
      exact .inr ⟨p, copy, rfl, hev, hv⟩
    · exact nomatch hcheck

/-- A decidable form of `Guarded`. -/
def guardedCheck (h : String) (m : Move TxPool (Act TxRun Choice)) : Bool :=
  match stepEvent reliable m.before m.label with
  | some (req, l, ⟨.saveXrplTx _, _⟩) =>
    !(m.before.store.xrplTxs.get? h).any XrplTransaction.validated || confirmsCheck h req l
  | _ => true

/-- So can the condition on a step. -/
theorem guarded_of_check {h : String} {m : Move TxPool (Act TxRun Choice)}
    (hc : guardedCheck h m = true) : Guarded h m := by
  rintro req l ⟨op, res⟩ x hev rfl row hrow hv
  unfold guardedCheck at hc
  rw [hev] at hc
  simp only [hrow, Option.any_some, hv, Bool.not_true, Bool.false_or] at hc
  exact confirms_of_check hc

/-- The thread has ended. -/
def endedCheck (th : Thread calls String TxRun Unit) : Bool :=
  match th.prog with
  | .done _ => true
  | _ => false

/-- And whether all requests have ended. -/
theorem complete_of_check {P : TxPool} (hc : P.threads.all endedCheck = true) : Complete P := by
  intro th hth
  have hend := List.all_eq_true.mp hc th hth
  unfold endedCheck at hend
  split at hend
  · rename_i u hu
    exact ⟨u, hu⟩
  · exact nomatch hend

/-- The tracked row of the concrete runs. -/
def trackedRow : XrplTransaction :=
  freshTrackedTx "xrt_1" "AB12CD34" ⟨"EscrowFinish", none, none, .testnet⟩ 0

/-- A store that tracks one hash. -/
def trackedStore : Store :=
  { Store.empty with xrplTxs := Table.empty.set trackedRow }

/-- The ledger's final answer for the hash. -/
def finalAnswer : LiveTxStatus where
  txHash := "AB12CD34"
  validated := true
  ledgerIndex := some 90
  resultCode := some "tesSUCCESS"

/-- An answer from before the validation. -/
def staleAnswer : LiveTxStatus where
  txHash := "AB12CD34"
  validated := false
  resultCode := some "terQUEUED"

/-- Let thread `i` make `n` calls. -/
def letRun (i n : Nat) : Turn calls TxRun Choice := .run i n (sampleOracle "1" 0 none)

/-- A stale and a final answer arrive; `turns` says how their two runs are interleaved. -/
def twoAnswers (turns : List (Turn calls TxRun Choice)) : List (Act TxRun Choice) :=
  scheduleActs reliable (TxRun.prog "AB12CD34")
    ([.start (.apply staleAnswer), .start (.apply finalAnswer)] ++ turns) ⟨trackedStore, []⟩

/-- The sample store tracks its row. -/
theorem trackedStore_tracked (reqs : List TxRun) : TrackedAt trackedStore "AB12CD34" reqs := by
  refine ⟨trackedRow, Table.get?_set_self Table.empty trackedRow, ?_⟩
  intro live _ _ hv
  exact nomatch hv

/-- The validated answers of the two runs agree. -/
theorem finalAnswer_final : ∀ live live' : LiveTxStatus,
    TxRun.apply live ∈ [TxRun.apply finalAnswer, .apply staleAnswer] →
    TxRun.apply live' ∈ [TxRun.apply finalAnswer, .apply staleAnswer] →
    live.validated = true → live'.validated = true →
    live.resultCode = live'.resultCode ∧ live.ledgerIndex = live'.ledgerIndex := by
  have hone : ∀ live : LiveTxStatus,
      TxRun.apply live ∈ [TxRun.apply finalAnswer, .apply staleAnswer] →
      live.validated = true → live = finalAnswer := by
    intro live hmem hv
    rcases List.mem_cons.mp hmem with heq | hmem
    · exact TxRun.apply.inj heq
    · rw [TxRun.apply.inj (List.mem_singleton.mp hmem)] at hv
      exact nomatch hv
  intro live live' hmem hmem' hv hv'
  rw [hone live hmem hv, hone live' hmem' hv']
  exact ⟨rfl, rfl⟩

/-- What the concrete runs are checked for: their requests, and that they are complete. -/
def twoAnswersCheck (r : List (Move TxPool (Act TxRun Choice)) × TxPool) : Bool :=
  decide (spawned r.1 = [.apply finalAnswer, .apply staleAnswer]) && r.2.threads.all endedCheck

/-- The stale answer is saved before the final one, once after it was read and once while
    the final one waits: both runs end with the same result. -/
theorem validated_results_final_stale_first :
    ∃ ms₁ P₁ ms₂ P₂, Run (txPoolStep "AB12CD34") ⟨trackedStore, []⟩ ms₁ P₁ ∧
      Run (txPoolStep "AB12CD34") ⟨trackedStore, []⟩ ms₂ P₂ ∧ Complete P₁ ∧ Complete P₂ ∧
      resultOf "AB12CD34" P₁ = resultOf "AB12CD34" P₂ := by
  obtain ⟨ms₁, P₁, run₁, hp₁⟩ := exists_run_of_replay (twoAnswers [letRun 0 20, letRun 1 20])
    (fun r => r.1.all (guardedCheck "AB12CD34") && twoAnswersCheck r)
    (by decide +kernel : (replay (txPoolStep "AB12CD34") ⟨trackedStore, []⟩ _ []).any _ = true)
  obtain ⟨ms₂, P₂, run₂, hp₂⟩ := exists_run_of_replay
    (twoAnswers [letRun 1 2, letRun 0 20, letRun 1 20])
    (fun r => r.1.all (guardedCheck "AB12CD34") && twoAnswersCheck r)
    (by decide +kernel : (replay (txPoolStep "AB12CD34") ⟨trackedStore, []⟩ _ []).any _ = true)
  simp only [twoAnswersCheck, Bool.and_eq_true, List.all_eq_true (l := ms₁),
    List.all_eq_true (l := ms₂), decide_eq_true_eq] at hp₁ hp₂
  obtain ⟨hguard₁, hreqs₁, hdone₁⟩ := hp₁
  obtain ⟨hguard₂, hreqs₂, hdone₂⟩ := hp₂
  have hperm : (spawned ms₁).Perm (spawned ms₂) := by rw [hreqs₁, hreqs₂]
  -- the final answer is among those that are applied
  have hfinal := finalAnswer_final
  rw [← hreqs₁] at hfinal
  have hsome : ∃ live, TxRun.apply live ∈ spawned ms₁ ∧ live.validated = true := by
    rw [hreqs₁]
    exact ⟨finalAnswer, List.mem_cons_self, rfl⟩
  refine ⟨ms₁, P₁, ms₂, P₂, run₁, run₂, complete_of_check hdone₁, complete_of_check hdone₂, ?_⟩
  exact (validated_results_final (trackedStore_tracked _) run₁ run₂ hperm hfinal).2
    (fun m hm => guarded_of_check (hguard₁ m hm)) (fun m hm => guarded_of_check (hguard₂ m hm))
    (complete_of_check hdone₁) (complete_of_check hdone₂) hsome

/-- The same two answers in two orders: when the stale one comes last, the row that was
    validated is pending again, and the results differ. -/
theorem validated_row_taken_back :
    ∃ ms₁ P₁ ms₂ P₂, Run (txPoolStep "AB12CD34") ⟨trackedStore, []⟩ ms₁ P₁ ∧
      Run (txPoolStep "AB12CD34") ⟨trackedStore, []⟩ ms₂ P₂ ∧ Complete P₁ ∧ Complete P₂ ∧
      (spawned ms₁).Perm (spawned ms₂) ∧
      spawned ms₁ = [.apply finalAnswer, .apply staleAnswer] ∧
      resultOf "AB12CD34" P₁ ≠ resultOf "AB12CD34" P₂ ∧
      ∃ m ∈ ms₂, ¬ Keeps "AB12CD34" m := by
  obtain ⟨ms₁, P₁, run₁, hp₁⟩ := exists_run_of_replay (twoAnswers [letRun 0 20, letRun 1 20])
    (fun r => twoAnswersCheck r && decide (resultOf "AB12CD34" r.2 =
      some (true, some "tesSUCCESS", some .success, .validatedSuccess)))
    (by decide +kernel : (replay (txPoolStep "AB12CD34") ⟨trackedStore, []⟩ _ []).any _ = true)
  obtain ⟨ms₂, P₂, run₂, hp₂⟩ := exists_run_of_replay (twoAnswers [letRun 1 20, letRun 0 20])
    (fun r => twoAnswersCheck r && decide (resultOf "AB12CD34" r.2 =
        some (false, some "terQUEUED", some .retryable, .pendingValidation)) &&
      r.1.any fun m => (m.before.store.xrplTxs.get? "AB12CD34").any XrplTransaction.validated &&
        !(m.after.store.xrplTxs.get? "AB12CD34").any XrplTransaction.validated)
    (by decide +kernel : (replay (txPoolStep "AB12CD34") ⟨trackedStore, []⟩ _ []).any _ = true)
  simp only [twoAnswersCheck, Bool.and_eq_true, decide_eq_true_eq, List.any_eq_true (l := ms₂)]
    at hp₁ hp₂
  obtain ⟨⟨hreqs₁, hdone₁⟩, hres₁⟩ := hp₁
  obtain ⟨⟨⟨hreqs₂, hdone₂⟩, hres₂⟩, m, hm, hbefore, hafter⟩ := hp₂
  refine ⟨ms₁, P₁, ms₂, P₂, run₁, run₂, complete_of_check hdone₁, complete_of_check hdone₂, ?_,
    hreqs₁, ?_, m, hm, ?_⟩
  · rw [hreqs₁, hreqs₂]
  · rw [hres₁, hres₂]
    decide
  -- the row was validated before the move, and is not behind it
  · intro hkeeps
    obtain ⟨row, hrow, hv⟩ := (Option.any_eq_true _ _).mp hbefore
    obtain ⟨row', hrow', hv'⟩ := hkeeps row hrow hv
    rw [hrow', Option.any_some, hv'] at hafter
    exact nomatch hafter

end Bluesafe.Ops
