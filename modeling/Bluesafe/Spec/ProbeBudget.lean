import Bluesafe.Ops.Ledger
import Bluesafe.Spec.BookRefinement
import Bluesafe.Spec.JobAttempts

/-!
# The probe budget of the policy worker

The worker counts in `retries` the probes that found nothing, and gives a transaction up when
`maxNotFoundProbes` of them are counted. `getTxStatus` answers `null` to a request that failed
as well, so such a request is counted too. Where no `tx` request fails, the counter is the
number of genuine not-found answers since the row was created; the row is given up with the
last of them, its job is deleted in the same tick, and no job is created for it again.

The proof follows one tick. The account loop and the creation of jobs leave the counter
(`AccountsLooked`, `JobsCreated`), and `JobDone` says what a job does to the row under its hash.

## Key results

- `probeLedger_ends`: what a probe sees, and whether it counts
- `processJob_done`: one job
- `policyTick_budget`: one tick
- `budget_step`: one move
- `probe_budget`: runs
-/

namespace Bluesafe.Ops

open Async Transition

/-! ## Rows and jobs -/

/-- The worker has given the transaction up: `manual_review` and `validated_fail`, though no
    answer was ever validated. -/
def XrplTransaction.givenUp (row : XrplTransaction) : Bool :=
  decide (row.outcomeClass = some .manualReview) && decide (row.trackingStatus = .validatedFail) &&
    !row.validated

/-- A row that is given up is no candidate any more. -/
theorem not_candidate_of_givenUp {row : XrplTransaction} (h : row.givenUp = true) :
    isPolicyCandidate row = false := by
  unfold XrplTransaction.givenUp at h
  simp only [Bool.and_eq_true, decide_eq_true_eq] at h
  unfold isPolicyCandidate
  simp [h.1.2]

/-- So a candidate is not given up. -/
theorem not_givenUp_of_candidate {row : XrplTransaction} (h : isPolicyCandidate row = true) :
    row.givenUp = false := by
  cases hup : row.givenUp with
  | false => rfl
  | true =>
    rw [not_candidate_of_givenUp hup] at h
    cases h

/-- An answer ends the giving up. -/
theorem givenUp_reconciled (row : XrplTransaction) (live : LiveTxStatus) (t : Time) :
    (row.reconciled live t).givenUp = false := by
  unfold XrplTransaction.givenUp XrplTransaction.reconciled
  cases live.validated <;> simp

/-- The last failure gives a row up. -/
theorem givenUp_exhausted (row : XrplTransaction) (t : Time) : (row.exhausted t).givenUp = true := by
  simp [XrplTransaction.givenUp, XrplTransaction.exhausted]

/-- Every job of `s'` has the identifier and the hash of a job of `s`. -/
def JobsFrom (s s' : Store) : Prop :=
  ∀ j ∈ s'.delayedJobs.rows, ∃ j₀ ∈ s.delayedJobs.rows,
    j₀.id = j.id ∧ j₀.payloadTxHash = j.payloadTxHash

/-- A step that keeps the jobs adds none. -/
theorem JobsFrom.of_eq {s s' : Store} (h : s'.delayedJobs = s.delayedJobs) : JobsFrom s s' := by
  intro j hj
  rw [h] at hj
  exact ⟨j, hj, rfl, rfl⟩

/-- Two steps keep or rename jobs as one does. -/
theorem JobsFrom.trans {s s' s'' : Store} (h : JobsFrom s s') (h' : JobsFrom s' s'') :
    JobsFrom s s'' := by
  intro j hj
  obtain ⟨j₁, hj₁, hid₁, hhash₁⟩ := h' j hj
  obtain ⟨j₀, hj₀, hid₀, hhash₀⟩ := h j₁ hj₁
  exact ⟨j₀, hj₀, hid₀.trans hid₁, hhash₀.trans hhash₁⟩

/-- Only a creation brings a new job. -/
theorem jobsFrom_perform {op : Call} (hop : ∀ job, op ≠ .createDelayedJobIfAbsent job) (c : Choice)
    (s : Store) : JobsFrom s (perform op c s).2 := by
  intro j hj
  cases jobAfter_perform hj with
  | kept hold => exact ⟨j, hold, rfl, rfl⟩
  | leased now lockTtlMs hold => exact ⟨_, hold, rfl, rfl⟩
  | created => exact absurd rfl (hop j)
  | bumped p hget => exact ⟨_, Table.mem_of_get? hget, rfl, rfl⟩

/-- The jobs of the hash have the identifier that the worker gives them. -/
def JobsNamed (h : String) (s : Store) : Prop :=
  ∀ j ∈ s.delayedJobs.rows, j.payloadTxHash = some h → j.id = xrplTxPolicyJobId h

/-- There is no job of the hash. -/
def NoJob (h : String) (s : Store) : Prop := ∀ j ∈ s.delayedJobs.rows, j.payloadTxHash ≠ some h

/-- Jobs keep the names they were created under. -/
theorem JobsNamed.mono {h : String} {s s' : Store} (hs : JobsNamed h s) (hfrom : JobsFrom s s') :
    JobsNamed h s' := by
  intro j hj hhash
  obtain ⟨j₀, hj₀, hid, hhash₀⟩ := hfrom j hj
  rw [← hid]
  exact hs j₀ hj₀ (hhash₀.trans hhash)

/-- A row without a job stays without one. -/
theorem NoJob.mono {h : String} {s s' : Store} (hs : NoJob h s) (hfrom : JobsFrom s s') :
    NoJob h s' := by
  intro j hj hhash
  obtain ⟨j₀, hj₀, -, hhash₀⟩ := hfrom j hj
  exact hs j₀ hj₀ (hhash₀.trans hhash)

/-! ## Calls that leave the rows and the probes -/

/-- Calls that write no tracked transaction, create no job and start no probe. -/
def Call.isMild : Call → Bool
  | .saveXrplTx _ => false
  | .createDelayedJobIfAbsent _ => false
  | .claimDueDelayedJobs _ _ _ _ => false
  | op => !op.isLedger

/-- The rows are the same, no job is new, and no probe was made. -/
structure Kept (g g' : Store × Trace) : Prop where
  xrplTxs : g'.1.xrplTxs = g.1.xrplTxs
  jobs : JobsFrom g.1 g'.1
  probes : probesOf g'.2 = probesOf g.2
  created : createdIn g'.2 = createdIn g.2

theorem Kept.refl (g : Store × Trace) : Kept g g := ⟨rfl, .of_eq rfl, rfl, rfl⟩

theorem Kept.trans {g g' g'' : Store × Trace} (h : Kept g g') (h' : Kept g' g'') : Kept g g'' :=
  ⟨h'.xrplTxs.trans h.xrplTxs, h.jobs.trans h'.jobs, h'.probes.trans h.probes,
    h'.created.trans h.created⟩

/-- A mild call keeps the rows and their jobs. -/
theorem kept_mild {op : Call} (hop : op.isMild = true) (c : LedgerChoice) (s : Store) (tr : Trace) :
    Kept (s, tr) ((perform op c.seen s).2, (op, c) :: tr) := by
  have hjobs : JobsFrom s (perform op c.seen s).2 := by
    apply jobsFrom_perform
    rintro job rfl
    cases hop
  -- the calls that touch rows or jobs, or ask the ledger, are not mild
  cases op with
  | saveXrplTx tx => cases hop
  | createDelayedJobIfAbsent job => cases hop
  | claimDueDelayedJobs kind now limit lockTtlMs => cases hop
  | getTxStatus h => cases hop
  | getAccountTxResults account => cases hop
  | submitAndWaitFromWallet tx => cases hop
  | tryRecordXrplIngestionEvent key =>
    refine ⟨?_, hjobs, rfl, rfl⟩
    simp only [perform]
    split <;> rfl
  -- putting a job back keeps its name
  | bumpDelayedJob p =>
    refine ⟨?_, hjobs, rfl, rfl⟩
    simp only [perform]
    split <;> rfl
  | _ => exact ⟨rfl, hjobs, rfl, rfl⟩

/-- A mild call does not go to the ledger. -/
theorem not_ledger_of_mild {op : Call} (hop : op.isMild = true) : op.isLedger = false := by
  cases op <;> first | rfl | cases hop

/-! ## Calls of the worker -/

section Calls

variable {s : Store} {tr : Trace} {op : Call}

/-- A repository call is answered. -/
theorem returns_recorded (hop : op.isLedger = false) {Q : op.Res → Store × Trace → Prop}
    (h : ∀ c : LedgerChoice, Q (perform op c.seen s).1 ((perform op c.seen s).2, (op, c) :: tr)) :
    Returns ledgerWorld.recorded (invoke op) Q (s, tr) := by
  refine Returns.call fun c hc => ?_
  have hserve : serve op c.seen s = (.ok (perform op c.seen s).1, (perform op c.seen s).2) :=
    serve_performed (failure_none hop hc)
  refine ⟨(perform op c.seen s).1, ?_, ?_⟩
  · show (serve op c.seen s).1 = _
    rw [hserve]
  · show Q _ ((serve op c.seen s).2, (op, c) :: tr)
    rw [hserve]
    exact h c

/-- A ledger call is answered or rejected, and leaves the store. -/
theorem ends_recorded (hop : op.isLedger = true) {Q : op.Res → Store × Trace → Prop}
    {E : String → Store × Trace → Prop}
    (hok : ∀ c : LedgerChoice, c.failure = none → Q (perform op c.seen s).1 (s, (op, c) :: tr))
    (herr : ∀ (c : LedgerChoice) e, c.failure = some e → E e (s, (op, c) :: tr)) :
    Ends ledgerWorld.recorded (invoke op) Q E (s, tr) := by
  intro l c hc
  -- asking the ledger changes nothing
  have hsame : (perform op c.seen s).2 = s := by
    cases op <;> first | rfl | cases hop
  show post _ _ (serve op c.seen s).1 (_, (serve op c.seen s).2, (op, c) :: tr)
  unfold serve
  -- with its failure known, the choice gives one answer or one error
  cases hfail : c.failure with
  | none =>
    have hseen : c.seen.failure = none := hfail
    rw [hseen]
    dsimp only
    rw [hsame]
    exact hok c hfail
  | some e =>
    have hseen : c.seen.failure = some e := hfail
    rw [hseen]
    dsimp only
    rw [hsame, ite_self]
    exact herr c e hfail

/-- A program of mild calls. -/
theorem clean_kept {α : Type} {p : OpsM α} (hp : Clean (fun op : calls.Op => Call.isMild op = true) p)
    (g : Store × Trace) : Returns ledgerWorld.recorded p (fun _ g' => Kept g g') g := by
  refine hp.returns (fun op c g₁ hop hg₁ hc => ?_) (Kept.refl g)
  -- the store and the trace of the move
  obtain ⟨s₁, tr₁⟩ := g₁
  -- such a call answers what it performs, since its oracle does not fail
  have hserve : serve op c.seen s₁ = (.ok (perform op c.seen s₁).1, (perform op c.seen s₁).2) := by
    unfold serve
    rw [failure_none (not_ledger_of_mild hop) hc]
  refine ⟨⟨(perform op c.seen s₁).1, ?_⟩, hg₁.trans ?_⟩
  · show (serve op c.seen s₁).1 = _
    rw [hserve]
  · show Kept _ ((serve op c.seen s₁).2, (op, c) :: tr₁)
    rw [hserve]
    -- the trace grows by the call, and nothing else changes
    exact kept_mild hop c s₁ tr₁

end Calls

/-! ## Programs of mild calls -/

/-- The program makes mild calls only and returns. -/
abbrev Mild {α : Type} (p : OpsM α) : Prop := Clean (fun op : calls.Op => Call.isMild op = true) p

/-- An audit entry is mild. -/
theorem writeAudit_mild (entityType entityId action actor : String)
    (before after metadata : Option JsonObject) :
    Mild (writeAudit entityType entityId action actor before after metadata) :=
  .bind (.call rfl) fun _ => .bind (.call rfl) fun _ => .call rfl

/-- So is an event. -/
theorem emitEvent_mild (eventType entityType entityId : String) (payload : JsonObject) :
    Mild (emitEvent eventType entityType entityId payload) :=
  .bind (.call rfl) fun _ => .bind (.call rfl) fun _ => .bind (.call rfl) fun _ => .call rfl

/-- So is a job that is put back. -/
theorem requeueJob_mild (policy : PolicyConfig) (job : DelayedJob) (lastError : Option String) :
    Mild (requeueJob policy job lastError) :=
  .bind (.call rfl) fun _ => .bind (.call rfl) fun _ => .call rfl

/-- The dispute of an answered row is resolved by mild calls. -/
theorem resolveLinkedDispute_mild (row : XrplTransaction) : Mild (resolveLinkedDispute row) := by
  unfold resolveLinkedDispute
  -- no link, no dispute, or one that waits for nothing: nothing to resolve
  cases row.resolves with
  | none => exact .pure ()
  | some id =>
    refine .bind (.call rfl) fun found => ?_
    cases found with
    | none => exact .pure ()
    | some d =>
      dsimp only
      split
      · refine .bind (.call rfl) fun t => .bind (.call rfl) fun _ => ?_
        refine .bind (writeAudit_mild _ _ _ _ _ _ _) fun _ => .bind (emitEvent_mild _ _ _ _) fun _ => ?_
        refine .bind (.call rfl) fun contract => ?_
        cases contract with
        | none => exact .pure ()
        | some contract => exact .call rfl
      · exact .pure ()

/-! ## One probe -/

/-- The worker counts the probe as not found. -/
def Probe.counts (p : Probe) : Bool := p.notFound || p.misread

/-- The probe `p` was made, and nothing else. -/
structure Probing (p : Probe) (g g' : Store × Trace) : Prop where
  store : g'.1 = g.1
  probes : probesOf g'.2 = p :: probesOf g.2
  created : createdIn g'.2 = createdIn g.2

/-- A probe that is answered counts when it found nothing; one that is rejected does not
    count. -/
theorem probeLedger_ends (h : String) (tx : XrplTransaction) (g : Store × Trace) :
    Ends ledgerWorld.recorded (probeLedger h tx)
      (fun found g' => ∃ p, Probing p g g' ∧ p.txHash = h ∧ p.counts = found.isNone)
      (fun _ g' => ∃ p, Probing p g g' ∧ p.txHash = h ∧ p.counts = false) g := by
  obtain ⟨s, tr⟩ := g
  unfold probeLedger
  refine Ends.bind (R := fun found g₁ => ∃ c : LedgerChoice, c.failure = none ∧ found = c.tx.status ∧
    g₁ = (s, (.getTxStatus h, c) :: tr)) ?_ fun found g₁ hg₁ => ?_
  · refine ends_recorded rfl (fun c hc => ⟨c, hc, rfl, rfl⟩) fun c e hc => ?_
    refine ⟨⟨h, c.txAnswer, none⟩, ⟨rfl, rfl, rfl⟩, rfl, ?_⟩
    simp [Probe.counts, Probe.notFound, Probe.misread, LedgerChoice.txAnswer, hc]
  · obtain ⟨c, hc, rfl, rfl⟩ := hg₁
    have htx : c.txAnswer = .ok c.tx := by simp [LedgerChoice.txAnswer, hc]
    cases hstatus : c.tx.status with
    | some live =>
      refine Ends.pure ⟨⟨h, c.txAnswer, none⟩, ⟨rfl, rfl, rfl⟩, rfl, ?_⟩
      cases hres : c.tx with
      | found l => simp [Probe.counts, Probe.notFound, Probe.misread, htx, hres]
      | txnNotFound => simp [hres, TxResponse.status] at hstatus
      | failed message => simp [hres, TxResponse.status] at hstatus
    | none =>
      -- nothing was found by `tx`, so the probe counts unless `account_tx` fails or lists it
      have hcounts : ∀ p : Probe, p.tx = .ok c.tx → p.counts = p.unlisted := by
        intro p hp
        cases hres : c.tx with
        | found l => simp [hres, TxResponse.status] at hstatus
        | txnNotFound => simp [Probe.counts, Probe.notFound, Probe.misread, hp, hres]
        | failed message => simp [Probe.counts, Probe.notFound, Probe.misread, hp, hres]
      dsimp only
      split
      · exact Ends.pure ⟨⟨h, c.txAnswer, none⟩, ⟨rfl, rfl, rfl⟩, rfl, hcounts _ htx⟩
      · refine Ends.bind (R := fun map g₂ => ∃ c' : LedgerChoice, c'.failure = none ∧
          map = c'.accountTx ∧ ∃ account, g₂ = (s, (.getAccountTxResults account, c') ::
            (.getTxStatus h, c) :: tr)) ?_ fun map g₂ hg₂ => ?_
        · refine ends_recorded rfl (fun c' hc' => ⟨c', hc', rfl, _, rfl⟩) fun c' e hc' => ?_
          refine ⟨⟨h, c.txAnswer, some c'.accountAnswer⟩, ⟨rfl, rfl, rfl⟩, rfl, ?_⟩
          rw [hcounts _ htx]
          simp [Probe.unlisted, LedgerChoice.accountAnswer, hc']
        · obtain ⟨c', hc', rfl, account, rfl⟩ := hg₂
          refine Ends.pure ⟨⟨h, c.txAnswer, some c'.accountAnswer⟩, ⟨rfl, rfl, rfl⟩, rfl, ?_⟩
          rw [hcounts _ htx]
          simp [Probe.unlisted, LedgerChoice.accountAnswer, hc']

/-! ## One job -/

/-- What a job does to the row under its hash: nothing, or it is reconciled with an answer, or a
    probe is counted, with or without the budget being spent. -/
inductive RowDone (policy : PolicyConfig) (h : String) (job : DelayedJob) (g g' : Store × Trace) : Prop
  | spared (ps : List Probe) (hps : ∀ p ∈ ps, p.txHash = h ∧ p.counts = false)
      (hprobes : probesOf g'.2 = ps ++ probesOf g.2) (hrows : g'.1.xrplTxs = g.1.xrplTxs)
  | resolved (p : Probe) (hp : p.txHash = h ∧ p.counts = false)
      (hprobes : probesOf g'.2 = p :: probesOf g.2) (row : XrplTransaction) (live : LiveTxStatus)
      (t : Time) (hrow : g.1.xrplTxs.get? h = some row) (hcand : isPolicyCandidate row = true)
      (hrows : g'.1.xrplTxs = g.1.xrplTxs.set (row.reconciled live t))
  | counted (p : Probe) (hp : p.txHash = h ∧ p.counts = true)
      (hprobes : probesOf g'.2 = p :: probesOf g.2) (row : XrplTransaction) (t : Time)
      (hrow : g.1.xrplTxs.get? h = some row) (hcand : isPolicyCandidate row = true)
      (hleft : row.retries + 1 < policy.maxNotFoundProbes)
      (hrows : g'.1.xrplTxs = g.1.xrplTxs.set (row.probed t))
  | exhausted (p : Probe) (hp : p.txHash = h ∧ p.counts = true)
      (hprobes : probesOf g'.2 = p :: probesOf g.2) (row : XrplTransaction) (t : Time)
      (hrow : g.1.xrplTxs.get? h = some row) (hcand : isPolicyCandidate row = true)
      (hspent : policy.maxNotFoundProbes ≤ row.retries + 1)
      (hrows : g'.1.xrplTxs = g.1.xrplTxs.set (row.exhausted t))
      (hjob : ∀ j ∈ g'.1.delayedJobs.rows, j.id ≠ job.id)

/-- What a job does. -/
structure JobDone (policy : PolicyConfig) (h : String) (job : DelayedJob) (g g' : Store × Trace) :
    Prop where
  jobs : JobsFrom g.1 g'.1
  created : createdIn g'.2 = createdIn g.2
  row : RowDone policy h job g g'

section Job

variable {policy : PolicyConfig} {h : String} {job : DelayedJob} {g g₁ g' : Store × Trace}

/-- A job that changes no row is done. -/
theorem Kept.done (hk : Kept g g') : JobDone policy h job g g' where
  jobs := hk.jobs
  created := hk.created
  row := .spared [] (fun _ hp => absurd hp List.not_mem_nil) hk.probes hk.xrplTxs

/-- A probe that does not count. -/
theorem Probing.done {p : Probe} (hp : Probing p g g') (hhash : p.txHash = h ∧ p.counts = false) :
    JobDone policy h job g g' where
  jobs := .of_eq (by rw [hp.store])
  created := hp.created
  row := .spared [p] (fun q hq => by rw [List.mem_singleton.mp hq]; exact hhash) hp.probes
    (by rw [hp.store])

/-- Mild calls after the job. -/
theorem JobDone.after (hd : JobDone policy h job g g₁) (hk : Kept g₁ g') : JobDone policy h job g g' := by
  refine ⟨hd.jobs.trans hk.jobs, hk.created.trans hd.created, ?_⟩
  -- a mild ending changes neither the rows nor what was probed
  cases hd.row with
  | spared ps hps hprobes hrows =>
    exact .spared ps hps (hk.probes.trans hprobes) (hk.xrplTxs.trans hrows)
  | resolved p hp hprobes row live t hrow hcand hrows =>
    exact .resolved p hp (hk.probes.trans hprobes) row live t hrow hcand (hk.xrplTxs.trans hrows)
  | counted p hp hprobes row t hrow hcand hleft hrows =>
    exact .counted p hp (hk.probes.trans hprobes) row t hrow hcand hleft (hk.xrplTxs.trans hrows)
  | exhausted p hp hprobes row t hrow hcand hspent hrows hjob =>
    refine .exhausted p hp (hk.probes.trans hprobes) row t hrow hcand hspent (hk.xrplTxs.trans hrows) ?_
    intro j hj
    obtain ⟨j₀, hj₀, hid, -⟩ := hk.jobs j hj
    rw [← hid]
    exact hjob j₀ hj₀

/-- Mild calls before the job. -/
theorem Kept.before (hk : Kept g g₁) (hd : JobDone policy h job g₁ g') : JobDone policy h job g g' := by
  refine ⟨hk.jobs.trans hd.jobs, hd.created.trans hk.created, ?_⟩
  -- what the job did to its row
  cases hd.row with
  | spared ps hps hprobes hrows =>
    exact .spared ps hps (by rw [hprobes, hk.probes]) (hrows.trans hk.xrplTxs)
  | resolved p hp hprobes row live t hrow hcand hrows =>
    rw [hk.xrplTxs] at hrow hrows
    exact .resolved p hp (by rw [hprobes, hk.probes]) row live t hrow hcand hrows
  | counted p hp hprobes row t hrow hcand hleft hrows =>
    rw [hk.xrplTxs] at hrow hrows
    exact .counted p hp (by rw [hprobes, hk.probes]) row t hrow hcand hleft hrows
  | exhausted p hp hprobes row t hrow hcand hspent hrows hjob =>
    rw [hk.xrplTxs] at hrow hrows
    exact .exhausted p hp (by rw [hprobes, hk.probes]) row t hrow hcand hspent hrows hjob

/-- A read of the row. -/
theorem getXrplTx_returns (h : String) (g : Store × Trace) :
    Returns ledgerWorld.recorded (getXrplTx h)
      (fun found g' => found = g.1.xrplTxs.get? h ∧ g'.1 = g.1 ∧ Kept g g') g := by
  obtain ⟨s, tr⟩ := g
  exact returns_recorded rfl fun c => ⟨rfl, rfl, kept_mild rfl c s tr⟩

/-- A reading of the clock. -/
theorem nowIso_returns (g : Store × Trace) :
    Returns ledgerWorld.recorded nowIso (fun _ g' => g'.1 = g.1 ∧ Kept g g') g := by
  obtain ⟨s, tr⟩ := g
  exact returns_recorded rfl fun c => ⟨rfl, kept_mild rfl c s tr⟩

/-- The row is saved, and nothing else. -/
structure Saved (row : XrplTransaction) (g g' : Store × Trace) : Prop where
  xrplTxs : g'.1.xrplTxs = g.1.xrplTxs.set row
  delayedJobs : g'.1.delayedJobs = g.1.delayedJobs
  probes : probesOf g'.2 = probesOf g.2
  created : createdIn g'.2 = createdIn g.2

/-- Saving a row returns, with the row in place. -/
theorem saveXrplTx_returns (row : XrplTransaction) (g : Store × Trace) :
    Returns ledgerWorld.recorded (saveXrplTx row) (fun _ g' => Saved row g g') g := by
  obtain ⟨s, tr⟩ := g
  exact returns_recorded rfl fun c => ⟨rfl, rfl, rfl, rfl⟩

/-- A probe that found the transaction. -/
theorem JobDone.of_resolved {p : Probe} {row : XrplTransaction} {live : LiveTxStatus} {t : Time}
    {g₂ : Store × Trace} (hp : Probing p g g₁) (hhash : p.txHash = h ∧ p.counts = false)
    (hrow : g.1.xrplTxs.get? h = some row) (hcand : isPolicyCandidate row = true)
    (hk : Kept g₁ g₂) (hsaved : Saved (row.reconciled live t) g₂ g') :
    JobDone policy h job g g' := by
  have hstore := hp.store
  refine ⟨?_, ?_, .resolved p hhash ?_ row live t hrow hcand ?_⟩
  · rw [← hstore]
    exact hk.jobs.trans (.of_eq hsaved.delayedJobs)
  · rw [hsaved.created, hk.created, hp.created]
  · rw [hsaved.probes, hk.probes, hp.probes]
  · rw [hsaved.xrplTxs, hk.xrplTxs, hstore]

/-- An answer is applied to the row, after a probe that found it. -/
theorem applyLive_done {p : Probe} {row : XrplTransaction} (live : LiveTxStatus) (hp : Probing p g g₁)
    (hhash : p.txHash = h ∧ p.counts = false) (hrow : g.1.xrplTxs.get? h = some row)
    (hcand : isPolicyCandidate row = true) :
    Returns ledgerWorld.recorded (applyLiveTxStatus h live) (fun _ g' => JobDone policy h job g g') g₁ := by
  unfold applyLiveTxStatus
  -- the row is read under its hash
  refine Returns.bind (getXrplTx_returns h g₁) fun found g₂ hread => ?_
  obtain ⟨rfl, hsame₂, hk₂⟩ := hread
  rw [hp.store, hrow]
  dsimp only
  refine Returns.bind (nowIso_returns g₂) fun now g₃ hclock => ?_
  refine Returns.bind (saveXrplTx_returns _ g₃) fun _ g₄ hsaved => ?_
  -- it is saved with the answer of the ledger
  have hdone : JobDone policy h job g g₄ :=
    .of_resolved hp hhash hrow hcand (hk₂.trans hclock.2) hsaved
  -- what follows writes no row of a transaction
  refine Returns.bind (clean_kept (resolveLinkedDispute_mild _) g₄) fun _ g₅ hk₅ => ?_
  exact Returns.pure (hdone.after hk₅)

/-- A deleted job is gone, and everything else is kept. -/
theorem deleteDelayedJob_returns (id : String) (g : Store × Trace) :
    Returns ledgerWorld.recorded (deleteDelayedJob id)
      (fun _ g' => Kept g g' ∧ ∀ j ∈ g'.1.delayedJobs.rows, j.id ≠ id) g := by
  obtain ⟨s, tr⟩ := g
  refine returns_recorded rfl fun c => ⟨kept_mild rfl c s tr, fun j hj => ?_⟩
  exact (Table.mem_rows_erase.mp hj).2

/-- A probe that counts: the counter goes up, and with the budget spent the row is given up and
    the job deleted. -/
theorem recordNotFound_done {p : Probe} {row : XrplTransaction} (hp : Probing p g g₁)
    (hhash : p.txHash = h ∧ p.counts = true) (hrow : g.1.xrplTxs.get? h = some row)
    (hcand : isPolicyCandidate row = true) (tx : XrplTransaction) :
    Returns ledgerWorld.recorded (recordNotFound policy job h tx)
      (fun _ g' => JobDone policy h job g g') g₁ := by
  unfold recordNotFound
  refine Returns.bind (getXrplTx_returns h g₁) fun found g₂ hread => ?_
  -- the row that is stored is the one the job has read
  obtain ⟨rfl, -, hk₂⟩ := hread
  rw [hp.store, hrow]
  dsimp only [Option.getD_some]
  refine Returns.bind (nowIso_returns g₂) fun now g₃ hclock => ?_
  have hk₃ := hk₂.trans hclock.2
  split
  · -- the budget is spent: the row is given up and the job goes
    rename_i hspent
    refine Returns.bind (saveXrplTx_returns _ g₃) fun _ g₄ hsaved => ?_
    refine Returns.bind (deleteDelayedJob_returns job.id g₄) fun _ g₅ hdel => ?_
    obtain ⟨hk₅, hgone⟩ := hdel
    have hdone : JobDone policy h job g g₅ := by
      refine ⟨?_, ?_, .exhausted p hhash ?_ row now hrow hcand hspent ?_ hgone⟩
      · rw [← hp.store]
        exact hk₃.jobs.trans ((JobsFrom.of_eq hsaved.delayedJobs).trans hk₅.jobs)
      · rw [hk₅.created, hsaved.created, hk₃.created, hp.created]
      · rw [hk₅.probes, hsaved.probes, hk₃.probes, hp.probes]
      · rw [hk₅.xrplTxs, hsaved.xrplTxs, hk₃.xrplTxs, hp.store]
    have hannounce := fun probes fields : JsonObject =>
      (writeAudit_mild "xrpl_tx" h "xrpl.tx_policy_exhausted" "system" none none (some probes)).bind
        fun _ => emitEvent_mild "xrpl.tx_policy_exhausted" "xrpl_tx" h fields
    exact (clean_kept (hannounce _ _) g₅).mono fun _ g₆ hk₆ => hdone.after hk₆
  · -- the counter goes up and the job is put back
    rename_i hleft
    refine Returns.bind (saveXrplTx_returns _ g₃) fun _ g₄ hsaved => ?_
    have hdone : JobDone policy h job g g₄ := by
      refine ⟨?_, ?_, .counted p hhash ?_ row now hrow hcand (Nat.not_le.mp hleft) ?_⟩
      · rw [← hp.store]
        exact hk₃.jobs.trans (.of_eq hsaved.delayedJobs)
      · rw [hsaved.created, hk₃.created, hp.created]
      · rw [hsaved.probes, hk₃.probes, hp.probes]
      · rw [hsaved.xrplTxs, hk₃.xrplTxs, hp.store]
    exact (clean_kept (requeueJob_mild policy job none) g₄).mono fun _ g₅ hk₅ => hdone.after hk₅

/-- The body of the job loop: what is thrown is thrown by a probe. -/
theorem runPolicyJob_ends (policy : PolicyConfig) (job : DelayedJob) (h : String) (g : Store × Trace) :
    Ends ledgerWorld.recorded (runPolicyJob policy job h) (fun _ g' => JobDone policy h job g g')
      (fun _ g' => JobDone policy h job g g') g := by
  unfold runPolicyJob
  refine Ends.bind (Ends.of_returns (getXrplTx_returns h g)) fun found g₁ hread => ?_
  -- a row that has gone, or is no candidate, ends its job
  obtain ⟨rfl, hsame, hk₁⟩ := hread
  have hdelete : Ends ledgerWorld.recorded (deleteDelayedJob job.id)
      (fun _ g' => JobDone policy h job g g') (fun _ g' => JobDone policy h job g g') g₁ :=
    Ends.of_returns ((deleteDelayedJob_returns job.id g₁).mono fun _ g' hg' => (hk₁.trans hg'.1).done)
  cases hrow : g.1.xrplTxs.get? h with
  | none => exact hdelete
  | some row =>
    dsimp only
    split
    · rename_i hcand
      have hrow₁ : g₁.1.xrplTxs.get? h = some row := by rw [hsame, hrow]
      refine Ends.bind (Ends.mono (probeLedger_ends h row g₁) (fun _ _ hprobe => hprobe) ?_)
        fun found g₂ hprobe => ?_
      · -- the probe throws: nothing was counted
        rintro e g₂ ⟨p, hp, hhash, hcounts⟩
        exact hk₁.before (hp.done ⟨hhash, hcounts⟩)
      · obtain ⟨p, hp, hhash, hcounts⟩ := hprobe
        -- an answer is applied; without one the probe is counted
        apply Ends.of_returns
        cases found with
        | some live =>
          refine Returns.bind (R := fun _ g₃ => JobDone policy h job g₁ g₃)
            (applyLive_done live hp ⟨hhash, hcounts⟩ hrow₁ hcand) fun _ g₃ hdone => ?_
          refine (deleteDelayedJob_returns job.id g₃).mono fun _ g₄ hg₄ => ?_
          exact hk₁.before (JobDone.after hdone hg₄.1)
        | none =>
          refine (recordNotFound_done hp ⟨hhash, hcounts⟩ hrow₁ hcand row).mono fun _ g₃ hdone => ?_
          exact hk₁.before hdone
    · exact hdelete

/-- One job. A job without a hash is deleted. -/
theorem processJob_done (policy : PolicyConfig) (job : DelayedJob) (g : Store × Trace) :
    Returns ledgerWorld.recorded (processJob policy job) (fun _ g' => Kept g g' ∨
      ∃ h, job.payloadTxHash = some h ∧ JobDone policy h job g g') g := by
  unfold processJob
  -- a job without a hash is deleted
  cases htruthy : truthy job.payloadTxHash with
  | none => exact (deleteDelayedJob_returns job.id g).mono fun _ g' hg' => .inl hg'.1
  | some h =>
    have hhash := (truthy_eq_some.mp htruthy).1
    -- a failure of the job itself is caught and requeued
    refine Ends.tryCatch (E := fun _ g' => JobDone policy h job g g') ?_ fun e g₁ hdone => ?_
    · exact (runPolicyJob_ends policy job h g).mono (fun _ g' hdone => .inr ⟨h, hhash, hdone⟩)
        fun _ _ hdone => hdone
    · -- what the exception leaves is put back with its message
      refine (clean_kept (requeueJob_mild policy job (some e)) g₁).mono fun _ g₂ hk => ?_
      exact .inr ⟨h, hhash, hdone.after hk⟩

end Job

/-! ## The budget -/

/-- The number of probes of the hash that the ledger answered with not found. -/
def answers (h : String) (ps : List Probe) : Nat :=
  ps.countP fun p => decide (p.txHash = h) && p.notFound

/-- No probe of the hash rests on a `tx` request that failed. -/
def NoneMisread (h : String) (ps : List Probe) : Prop := ∀ p ∈ ps, p.txHash = h → p.misread = false

/-- After `n` not-found answers the counter of the row is `n`, and the row is given up, without
    a job, exactly when `n` is the budget. -/
structure Budget (budget : Nat) (h : String) (n : Nat) (s : Store) : Prop where
  named : JobsNamed h s
  row : ∃ row, s.xrplTxs.get? h = some row ∧ row.retries = n ∧
    (row.givenUp = true → n = budget ∧ NoJob h s) ∧ (row.givenUp = false → n < budget)

section Budget

variable {budget n : Nat} {h : String}

/-- The counter and the mark of the row stay, and no job is new. -/
theorem Budget.same {s s' : Store} (hb : Budget budget h n s) (hjobs : JobsFrom s s')
    (hrows : ∀ row, s.xrplTxs.get? h = some row → ∃ row', s'.xrplTxs.get? h = some row' ∧
      row'.retries = row.retries ∧ row'.givenUp = row.givenUp) : Budget budget h n s' := by
  obtain ⟨row, hrow, hretries, hup, hleft⟩ := hb.row
  obtain ⟨row', hrow', hretries', hup'⟩ := hrows row hrow
  refine ⟨hb.named.mono hjobs, row', hrow', hretries'.trans hretries, ?_, ?_⟩
  · intro hgiven
    obtain ⟨hn, hnone⟩ := hup (hup'.symm.trans hgiven)
    exact ⟨hn, hnone.mono hjobs⟩
  · intro hgiven
    exact hleft (hup'.symm.trans hgiven)

/-- The budget of a row is kept by steps that keep the row. -/
theorem Budget.of_rows {s s' : Store} (hb : Budget budget h n s) (hjobs : JobsFrom s s')
    (hrows : s'.xrplTxs.get? h = s.xrplTxs.get? h) : Budget budget h n s' := by
  refine hb.same hjobs fun row hrow => ⟨row, ?_, rfl, rfl⟩
  rw [hrows, hrow]

/-- A candidate is not given up, so its budget is not spent. -/
theorem Budget.left {s : Store} (hb : Budget budget h n s) {row : XrplTransaction}
    (hrow : s.xrplTxs.get? h = some row) (hcand : isPolicyCandidate row = true) :
    row.retries = n ∧ n < budget := by
  obtain ⟨row', hrow', hretries, -, hleft⟩ := hb.row
  rw [hrow, Option.some.injEq] at hrow'
  subst hrow'
  exact ⟨hretries, hleft (not_givenUp_of_candidate hcand)⟩

end Budget

section Jobs

variable {policy : PolicyConfig} {h h' : String} {job : DelayedJob} {g g' : Store × Trace} {n : Nat}

/-- A job makes probes of its own hash and changes no other row. -/
theorem RowDone.others (hd : RowDone policy h' job g g') :
    (∃ ps, probesOf g'.2 = ps ++ probesOf g.2 ∧ ∀ p ∈ ps, p.txHash = h') ∧
      ∀ k, k ≠ h' → g'.1.xrplTxs.get? k = g.1.xrplTxs.get? k := by
  -- rows of other hashes are not written
  have hset : ∀ row row' : XrplTransaction, g.1.xrplTxs.get? h' = some row → row'.txHash = row.txHash →
      ∀ k, k ≠ h' → (g.1.xrplTxs.set row').get? k = g.1.xrplTxs.get? k := by
    intro row row' hrow hhash k hk
    rw [Table.get?_set, hhash, Table.key_of_get? hrow, if_neg hk]
  have hone : ∀ p : Probe, p.txHash = h' → probesOf g'.2 = p :: probesOf g.2 →
      ∃ ps, probesOf g'.2 = ps ++ probesOf g.2 ∧ ∀ p ∈ ps, p.txHash = h' := by
    intro p hp hprobes
    refine ⟨[p], hprobes, fun q hq => ?_⟩
    rw [List.mem_singleton.mp hq]
    exact hp
  -- in each case the row of the job is the only one that may have changed
  cases hd with
  | spared ps hps hprobes hrows =>
    refine ⟨⟨ps, hprobes, fun p hp => (hps p hp).1⟩, fun k _ => ?_⟩
    rw [hrows]
  | resolved p hp hprobes row live t hrow hcand hrows =>
    rw [hrows]
    exact ⟨hone p hp.1 hprobes, hset row _ hrow rfl⟩
  | counted p hp hprobes row t hrow hcand hleft hrows =>
    rw [hrows]
    exact ⟨hone p hp.1 hprobes, hset row _ hrow rfl⟩
  | exhausted p hp hprobes row t hrow hcand hspent hrows hjob =>
    rw [hrows]
    exact ⟨hone p hp.1 hprobes, hset row _ hrow rfl⟩

/-- What holds of all probes holds of the later ones. -/
theorem NoneMisread.of_append {ps qs : List Probe} (hnone : NoneMisread h (ps ++ qs)) :
    NoneMisread h qs :=
  fun p hp => hnone p (List.mem_append_right _ hp)

/-- A probe that does not count is no answer, and neither is one of another hash. -/
theorem answers_append {ps qs : List Probe}
    (hps : ∀ p ∈ ps, p.txHash = h → p.counts = false) : answers h (ps ++ qs) = answers h qs := by
  unfold answers
  rw [List.countP_append, List.countP_eq_zero.mpr, Nat.zero_add]
  intro p hp
  simp only [Bool.and_eq_true, decide_eq_true_eq, not_and]
  intro hhash hfound
  have hcounts := hps p hp hhash
  simp [Probe.counts, hfound] at hcounts

/-- A probe that counts is an answer, if it is not misread. -/
theorem answers_cons {p : Probe} {ps : List Probe} (hp : p.txHash = h ∧ p.counts = true)
    (hread : p.misread = false) : answers h (p :: ps) = answers h ps + 1 := by
  obtain ⟨hhash, hcounts⟩ := hp
  unfold Probe.counts at hcounts
  rw [hread, Bool.or_false] at hcounts
  unfold answers
  rw [List.countP_cons_of_pos (by simp [hhash, hcounts])]

/-- A job of another hash. -/
theorem JobDone.budget_other (hd : JobDone policy h' job g g') (hne : h ≠ h')
    (hb : Budget policy.maxNotFoundProbes h (n + answers h (probesOf g.2)) g.1) :
    Budget policy.maxNotFoundProbes h (n + answers h (probesOf g'.2)) g'.1 := by
  obtain ⟨⟨ps, hprobes, hps⟩, hrows⟩ := hd.row.others
  have hanswers : answers h (probesOf g'.2) = answers h (probesOf g.2) := by
    rw [hprobes]
    exact answers_append fun p hp hhash => absurd (hhash.symm.trans (hps p hp)) hne
  rw [hanswers]
  exact hb.of_rows hd.jobs (hrows h hne)

/-- A job of the hash. -/
theorem JobDone.budget_own (hd : JobDone policy h job g g') (hjob : job.id = xrplTxPolicyJobId h)
    (hnone : NoneMisread h (probesOf g'.2))
    (hb : Budget policy.maxNotFoundProbes h (n + answers h (probesOf g.2)) g.1) :
    Budget policy.maxNotFoundProbes h (n + answers h (probesOf g'.2)) g'.1 := by
  -- what the job did to its row decides how the count goes on
  cases hd.row with
  | spared ps hps hprobes hrows =>
    rw [hprobes, answers_append fun p hp _ => (hps p hp).2]
    exact hb.of_rows hd.jobs (by rw [hrows])
  | resolved p hp hprobes row live t hrow hcand hrows =>
    -- a probe that finds something is no answer without result
    have hsame : answers h ([p] ++ probesOf g.2) = answers h (probesOf g.2) := by
      apply answers_append
      intro q hq _
      rw [List.mem_singleton.mp hq]
      exact hp.2
    rw [hprobes, ← List.singleton_append, hsame]
    obtain ⟨hretries, hleft⟩ := hb.left hrow hcand
    refine ⟨hb.named.mono hd.jobs, row.reconciled live t, ?_, hretries, ?_, fun _ => hleft⟩
    · rw [hrows, ← Table.key_of_get? hrow]
      exact Table.get?_set_self _ _
    · intro hup
      rw [givenUp_reconciled] at hup
      cases hup
  | counted p hp hprobes row t hrow hcand hleft hrows =>
    rw [hprobes] at hnone
    -- the probe counts, in the trace and in the row alike
    rw [hprobes, answers_cons hp (hnone p List.mem_cons_self hp.1)]
    obtain ⟨hretries, -⟩ := hb.left hrow hcand
    refine ⟨hb.named.mono hd.jobs, row.probed t, ?_, ?_, ?_, fun _ => ?_⟩
    · rw [hrows, ← Table.key_of_get? hrow]
      exact Table.get?_set_self _ _
    · show row.retries + 1 = _
      omega
    · intro hup
      have hnot : row.givenUp = true := hup
      rw [not_givenUp_of_candidate hcand] at hnot
      cases hnot
    · omega
  | exhausted p hp hprobes row t hrow hcand hspent hrows hgone =>
    rw [hprobes] at hnone
    -- the last probe of the budget gives the row up
    rw [hprobes, answers_cons hp (hnone p List.mem_cons_self hp.1)]
    obtain ⟨hretries, hleft⟩ := hb.left hrow hcand
    have hnamed := hb.named.mono hd.jobs
    refine ⟨hnamed, row.exhausted t, ?_, ?_, fun _ => ⟨by omega, ?_⟩, ?_⟩
    · rw [hrows, ← Table.key_of_get? hrow]
      exact Table.get?_set_self _ _
    · show row.retries + 1 = _
      omega
    · -- the job that was deleted is the only one of the hash
      intro j hj hhash
      exact hgone j hj ((hnamed j hj hhash).trans hjob.symm)
    · intro hup
      rw [givenUp_exhausted] at hup
      cases hup

/-- What one job does to the budget. -/
theorem processJob_budget (hjob : job.payloadTxHash = some h → job.id = xrplTxPolicyJobId h)
    (hb : NoneMisread h (probesOf g.2) →
      Budget policy.maxNotFoundProbes h (n + answers h (probesOf g.2)) g.1) :
    Returns ledgerWorld.recorded (processJob policy job) (fun _ g' =>
      createdIn g'.2 = createdIn g.2 ∧ (NoneMisread h (probesOf g'.2) →
        Budget policy.maxNotFoundProbes h (n + answers h (probesOf g'.2)) g'.1)) g := by
  -- the job of this hash, or of another
  refine (processJob_done policy job g).mono fun _ g' hdone => ?_
  rcases hdone with hk | ⟨h', hhash, hd⟩
  · refine ⟨hk.created, fun hnone => ?_⟩
    rw [hk.probes] at hnone ⊢
    exact (hb hnone).of_rows hk.jobs (by rw [hk.xrplTxs])
  · refine ⟨hd.created, fun hnone => ?_⟩
    -- the job adds its own probes to those made before
    obtain ⟨⟨ps, hprobes, -⟩, -⟩ := hd.row.others
    have hbefore := hb (NoneMisread.of_append (hprobes ▸ hnone))
    by_cases hne : h = h'
    · subst hne
      exact hd.budget_own (hjob hhash) hnone hbefore
    -- a job of another hash leaves the budget of this one
    · exact hd.budget_other hne hbefore

end Jobs

/-! ## One tick -/

/-- The account loop: rows keep their counter and their mark. -/
structure AccountsLooked (g g' : Store × Trace) : Prop where
  rows : ∀ h row, g.1.xrplTxs.get? h = some row → ∃ row', g'.1.xrplTxs.get? h = some row' ∧
    row'.retries = row.retries ∧ row'.givenUp = row.givenUp
  jobs : JobsFrom g.1 g'.1
  created : createdIn g'.2 = createdIn g.2

/-- Two passes over accounts are one. -/
theorem AccountsLooked.trans {g g₁ g' : Store × Trace} (h : AccountsLooked g g₁)
    (h' : AccountsLooked g₁ g') : AccountsLooked g g' := by
  refine ⟨fun k row hrow => ?_, h.jobs.trans h'.jobs, h'.created.trans h.created⟩
  obtain ⟨row₁, hrow₁, hretries₁, hup₁⟩ := h.rows k row hrow
  obtain ⟨row', hrow', hretries', hup'⟩ := h'.rows k row₁ hrow₁
  exact ⟨row', hrow', hretries'.trans hretries₁, hup'.trans hup₁⟩

/-- A step that keeps the rows has looked at no account. -/
theorem Kept.looked {g g' : Store × Trace} (h : Kept g g') : AccountsLooked g g' := by
  refine ⟨fun k row hrow => ⟨row, ?_, rfl, rfl⟩, h.jobs, h.created⟩
  rw [h.xrplTxs, hrow]

/-- A row that is saved with an account. -/
theorem Saved.looked {g g' : Store × Trace} {tx latest : XrplTransaction} {account : String} {now : Time}
    (hlatest : latest = (g.1.xrplTxs.get? tx.txHash).getD tx)
    (h : Saved (latest.withAccount account now) g g') : AccountsLooked g g' := by
  refine ⟨fun k row hrow => ?_, .of_eq h.delayedJobs, h.created⟩
  rw [h.xrplTxs, Table.get?_set]
  -- the account is written on the row that was read under this hash
  by_cases hk : k = latest.txHash
  · -- the saved row is the one that was stored under its hash
    have hstored : latest = row := by
      cases hget : g.1.xrplTxs.get? tx.txHash with
      | none =>
        rw [hget, Option.getD_none] at hlatest
        rw [hk, hlatest, hget] at hrow
        cases hrow
      | some w =>
        rw [hget, Option.getD_some] at hlatest
        rw [hk, hlatest, Table.key_of_get? hget, hget] at hrow
        rw [hlatest]
        exact Option.some.inj hrow
    refine ⟨latest.withAccount account now, if_pos hk, ?_, ?_⟩
    · rw [← hstored]
      rfl
    · rw [← hstored]
      rfl
  · exact ⟨row, (if_neg hk).trans hrow, rfl, rfl⟩

/-- The pass over one account, whether or not the ledger answers. -/
theorem backfillAccount_looked (tx : XrplTransaction) (g : Store × Trace) :
    Ends ledgerWorld.recorded (backfillAccount tx) (fun _ g' => AccountsLooked g g')
      (fun _ g' => AccountsLooked g g') g := by
  obtain ⟨s, tr⟩ := g
  -- a lookup leaves the store
  have hlookup : ∀ c, AccountsLooked (s, tr) (s, (.getTxStatus tx.txHash, c) :: tr) := fun c =>
    ⟨fun k row hrow => ⟨row, hrow, rfl, rfl⟩, .of_eq rfl, rfl⟩
  unfold backfillAccount
  refine Ends.bind (R := fun _ g₁ => AccountsLooked (s, tr) g₁)
    (ends_recorded rfl (fun c _ => hlookup c) fun c _ _ => hlookup c) fun live g₁ hg₁ => ?_
  apply Ends.of_returns
  split
  · exact Returns.pure hg₁
  · rename_i account _
    refine Returns.bind (getXrplTx_returns tx.txHash g₁) fun stored g₂ hread => ?_
    obtain ⟨hstored, hsame₂, hk₂⟩ := hread
    dsimp only
    split
    · exact Returns.pure (hg₁.trans hk₂.looked)
    · refine Returns.bind (nowIso_returns g₂) fun now g₃ hclock => ?_
      refine Returns.bind (saveXrplTx_returns _ g₃) fun _ g₄ hsaved => ?_
      have hlatest : stored.getD tx = (g₃.1.xrplTxs.get? tx.txHash).getD tx := by
        rw [hstored, hclock.1, hsame₂]
      have hg₄ := hg₁.trans (hk₂.looked.trans (hclock.2.looked.trans (hsaved.looked hlatest)))
      refine (clean_kept (writeAudit_mild _ _ _ _ _ _ _) g₄).mono fun _ g₅ hk₅ => ?_
      exact hg₄.trans hk₅.looked

/-- The pass over all of them. -/
theorem backfillAccounts_looked (rows : List XrplTransaction) (g : Store × Trace) :
    Returns ledgerWorld.recorded (backfillAccounts rows) (fun _ g' => AccountsLooked g g') g := by
  let looked : List XrplTransaction → Store × Trace → Prop := fun _ g' => AccountsLooked g g'
  show Returns ledgerWorld.recorded (backfillAccounts rows) (fun _ => looked []) g
  unfold backfillAccounts
  refine Returns.forM (fun tx rest g₁ hg₁ => ?_) (Kept.refl g).looked
  have hbefore : AccountsLooked g g₁ := hg₁
  refine Ends.tryCatch (E := fun _ g' => AccountsLooked g g') ?_ fun e g₂ hg₂ => Returns.pure hg₂
  refine (backfillAccount_looked tx g₁).mono (fun _ _ h => ?_) fun _ _ h => hbefore.trans h
  exact hbefore.trans h

/-- Jobs were created for candidates among the rows. -/
structure JobsCreated (txs : List XrplTransaction) (g g' : Store × Trace) : Prop where
  xrplTxs : g'.1.xrplTxs = g.1.xrplTxs
  jobs : ∀ j ∈ g'.1.delayedJobs.rows,
    (∃ j₀ ∈ g.1.delayedJobs.rows, j₀.id = j.id ∧ j₀.payloadTxHash = j.payloadTxHash) ∨
    ∃ tx ∈ txs, isPolicyCandidate tx = true ∧ j.id = xrplTxPolicyJobId tx.txHash ∧
      j.payloadTxHash = some tx.txHash
  created : ∀ job ∈ createdIn g'.2, job ∈ createdIn g.2 ∨
    ∃ tx ∈ txs, isPolicyCandidate tx = true ∧ job.payloadTxHash = some tx.txHash

/-- Jobs that were created stay so under steps that keep them. -/
theorem JobsCreated.kept {txs : List XrplTransaction} {g g₁ g' : Store × Trace}
    (h : JobsCreated txs g g₁) (hk : Kept g₁ g') : JobsCreated txs g g' := by
  refine ⟨hk.xrplTxs.trans h.xrplTxs, fun j hj => ?_, fun job hjob => ?_⟩
  · obtain ⟨j₁, hj₁, hid, hhash⟩ := hk.jobs j hj
    rw [← hid, ← hhash]
    exact h.jobs j₁ hj₁
  · rw [hk.created] at hjob
    exact h.created job hjob

/-- One creation. -/
theorem JobsCreated.create {txs : List XrplTransaction} {g : Store × Trace} {s : Store} {tr : Trace}
    (h : JobsCreated txs g (s, tr)) {tx : XrplTransaction} (htx : tx ∈ txs)
    (hcand : isPolicyCandidate tx = true) (now : Time) (c : LedgerChoice) :
    JobsCreated txs g ((perform (.createDelayedJobIfAbsent (policyJob tx.txHash now)) c.seen s).2,
      (.createDelayedJobIfAbsent (policyJob tx.txHash now), c) :: tr) := by
  -- the rows of the transactions are as before
  refine ⟨?_, fun j hj => ?_, fun job hjob => ?_⟩
  · rw [← h.xrplTxs]
    simp only [perform]
    split <;> rfl
  -- the job is kept, leased, or the one that was created
  · cases jobAfter_perform hj with
    | kept hold => exact h.jobs j hold
    | leased now lockTtlMs hold =>
      have hleased := h.jobs _ hold
      exact hleased
    | created => exact .inr ⟨tx, htx, hcand, rfl, rfl⟩
  -- and the created one names its transaction
  · rcases List.mem_cons.mp hjob with rfl | hjob
    · exact .inr ⟨tx, htx, hcand, rfl⟩
    · exact h.created job hjob

/-- The worker creates one job for each row, under its name. -/
theorem createPolicyJobs_created (policy : PolicyConfig) (now : Time) (txs : List XrplTransaction)
    (g : Store × Trace) :
    Returns ledgerWorld.recorded (createPolicyJobs policy now txs) (fun _ g' => JobsCreated txs g g') g := by
  have hstart : JobsCreated txs g g :=
    ⟨rfl, fun j hj => .inl ⟨j, hj, rfl, rfl⟩, fun job hjob => .inl hjob⟩
  -- the invariant knows that the rows that are left are among the rows of the tick
  let left : List XrplTransaction → Store × Trace → Prop := fun rest g' =>
    (∀ tx ∈ rest, tx ∈ txs) ∧ JobsCreated txs g g'
  suffices hloop : Returns ledgerWorld.recorded (createPolicyJobs policy now txs) (fun _ => left []) g
    from hloop.mono fun _ _ h => h.2
  unfold createPolicyJobs
  refine Returns.forM (fun tx rest g₁ hg₁ => ?_) ⟨fun tx htx => htx, hstart⟩
  obtain ⟨hrest, hg₁⟩ := hg₁
  have hmem : ∀ tx' ∈ rest, tx' ∈ txs := fun tx' htx' => hrest tx' (List.mem_cons_of_mem _ htx')
  split
  · rename_i hcand
    refine Returns.bind (nowIso_returns g₁) fun t g₂ hclock => ?_
    have hg₂ := hg₁.kept hclock.2
    split
    · exact Returns.pure ⟨hmem, hg₂⟩
    · obtain ⟨s₂, tr₂⟩ := g₂
      refine Returns.bind (R := fun _ g₃ => JobsCreated txs g g₃)
        (returns_recorded rfl fun c => hg₂.create (hrest tx List.mem_cons_self) hcand now c)
        fun _ g₃ hg₃ => ?_
      exact Returns.pure ⟨hmem, hg₃⟩
  · exact Returns.pure ⟨hmem, hg₁⟩

/-- The claim: the jobs that are handed out are stored, and the probes start. -/
theorem claimDueDelayedJobs_returns (kind : String) (now : Time) (limit lockTtlMs : Nat)
    (g : Store × Trace) :
    Returns ledgerWorld.recorded (claimDueDelayedJobs kind now limit lockTtlMs) (fun jobs g' =>
      (∀ job ∈ jobs, ∃ j₀ ∈ g.1.delayedJobs.rows, j₀.id = job.id ∧
        j₀.payloadTxHash = job.payloadTxHash) ∧
      g'.1.xrplTxs = g.1.xrplTxs ∧ JobsFrom g.1 g'.1 ∧ probesOf g'.2 = [] ∧
      createdIn g'.2 = createdIn g.2) g := by
  obtain ⟨s, tr⟩ := g
  refine returns_recorded rfl fun c => ⟨fun job hjob => ?_, rfl, ?_, rfl, rfl⟩
  · obtain ⟨j₀, hj₀, rfl⟩ := List.mem_map.mp hjob
    exact ⟨j₀, mem_dueJobs hj₀, rfl, rfl⟩
  · apply jobsFrom_perform
    intro job hop
    cases hop

/-- The row under the hash is given up. -/
def GivenUpIn (h : String) (s : Store) : Prop :=
  ∃ row, s.xrplTxs.get? h = some row ∧ row.givenUp = true

/-- What a tick that starts in `s` with `n` answers does. -/
structure TickDone (budget : Nat) (h : String) (n : Nat) (s : Store) (g' : Store × Trace) : Prop where
  budget : NoneMisread h (probesOf g'.2) → Budget budget h (n + answers h (probesOf g'.2)) g'.1
  created : GivenUpIn h s → ∀ job ∈ createdIn g'.2, job.payloadTxHash ≠ some h

section Tick

variable {config : Config} {h : String} {n : Nat} {s : Store}

/-- Jobs are created for candidates, and a row that is given up is none. -/
theorem Budget.create {budget : Nat} {g g' : Store × Trace} (hb : Budget budget h n g.1)
    (hup : GivenUpIn h g.1 → GivenUpIn h s) (hcreated : JobsCreated s.xrplTxs.rows g g') :
    Budget budget h n g'.1 := by
  -- a row that is given up is listed as such
  have hnone : GivenUpIn h g.1 → ∀ tx ∈ s.xrplTxs.rows, isPolicyCandidate tx = true → tx.txHash ≠ h := by
    rintro hgiven tx htx hcand rfl
    obtain ⟨row, hrow, hrowUp⟩ := hup hgiven
    rw [Table.get?_of_mem htx, Option.some.injEq] at hrow
    subst hrow
    rw [not_candidate_of_givenUp hrowUp] at hcand
    cases hcand
  obtain ⟨row, hrow, hretries, hgiven, hleft⟩ := hb.row
  refine ⟨fun j hj hhash => ?_, row, ?_, hretries, fun hrowUp => ?_, hleft⟩
  · rcases hcreated.jobs j hj with ⟨j₀, hj₀, hid, hhash₀⟩ | ⟨tx, -, -, hid, hhash'⟩
    · rw [← hid]
      exact hb.named j₀ hj₀ (hhash₀.trans hhash)
    · rw [hid, Option.some.inj (hhash'.symm.trans hhash)]
  · rw [hcreated.xrplTxs, hrow]
  · obtain ⟨hn, hno⟩ := hgiven hrowUp
    refine ⟨hn, fun j hj hhash => ?_⟩
    rcases hcreated.jobs j hj with ⟨j₀, hj₀, -, hhash₀⟩ | ⟨tx, htx, hcand, -, hhash'⟩
    · exact hno j₀ hj₀ (hhash₀.trans hhash)
    · exact hnone ⟨row, hrow, hrowUp⟩ tx htx hcand (Option.some.inj (hhash'.symm.trans hhash))

/-- The second half of the tick. -/
theorem runPolicyJobs_budget (now : Time) {g : Store × Trace}
    (hb : Budget config.policy.maxNotFoundProbes h n g.1)
    (hup : GivenUpIn h g.1 ↔ GivenUpIn h s) (hnew : createdIn g.2 = []) :
    Returns ledgerWorld.recorded (runPolicyJobs config.policy now s.xrplTxs.rows)
      (fun _ g' => TickDone config.policy.maxNotFoundProbes h n s g') g := by
  unfold runPolicyJobs
  refine Returns.bind (createPolicyJobs_created _ now _ g) fun _ g₁ hcreated => ?_
  have hb₁ := hb.create hup.mp hcreated
  have hgone : GivenUpIn h s → ∀ job ∈ createdIn g₁.2, job.payloadTxHash ≠ some h := by
    rintro ⟨row, hrow, hrowUp⟩ job hjob hhash
    rcases hcreated.created job hjob with hold | ⟨tx, htx, hcand, hhash'⟩
    · rw [hnew] at hold
      cases hold
    · rw [hhash', Option.some.injEq] at hhash
      rw [← hhash, Table.get?_of_mem htx, Option.some.injEq] at hrow
      subst hrow
      rw [not_candidate_of_givenUp hrowUp] at hcand
      cases hcand
  refine Returns.bind (claimDueDelayedJobs_returns _ now _ _ g₁) fun jobs g₂ hclaim => ?_
  obtain ⟨hjobs, hrows, hfrom, hprobes, hsame⟩ := hclaim
  have hnamed : ∀ job ∈ jobs, job.payloadTxHash = some h → job.id = xrplTxPolicyJobId h := by
    intro job hjob hhash
    obtain ⟨j₀, hj₀, hid, hhash₀⟩ := hjobs job hjob
    rw [← hid]
    exact hb₁.named j₀ hj₀ (hhash₀.trans hhash)
  -- the loop: the jobs that are left are named, and the probes so far are counted
  let left : List DelayedJob → Store × Trace → Prop := fun rest g' =>
    (∀ job ∈ rest, job.payloadTxHash = some h → job.id = xrplTxPolicyJobId h) ∧
    createdIn g'.2 = createdIn g₁.2 ∧ (NoneMisread h (probesOf g'.2) →
      Budget config.policy.maxNotFoundProbes h (n + answers h (probesOf g'.2)) g'.1)
  have hstart : left jobs g₂ := by
    refine ⟨hnamed, hsame, fun _ => ?_⟩
    rw [hprobes]
    exact hb₁.of_rows hfrom (by rw [hrows])
  have hloop : Returns ledgerWorld.recorded (forM jobs (processJob config.policy)) (fun _ => left []) g₂ := by
    refine Returns.forM (fun job rest g₃ hg₃ => ?_) hstart
    obtain ⟨hrest, hcreated₃, hb₃⟩ := hg₃
    refine (processJob_budget (hrest job List.mem_cons_self) hb₃).mono fun _ g₄ hg₄ => ?_
    exact ⟨fun job' hjob' => hrest job' (List.mem_cons_of_mem _ hjob'), hg₄.1.trans hcreated₃, hg₄.2⟩
  refine hloop.mono fun _ g₃ hg₃ => ⟨hg₃.2.2, fun hgiven job hjob => ?_⟩
  rw [hg₃.2.1] at hjob
  exact hgone hgiven job hjob

/-- One tick. -/
theorem policyTick_budget (hb : Budget config.policy.maxNotFoundProbes h n s) :
    Returns ledgerWorld.recorded (policyTick config)
      (fun _ g' => TickDone config.policy.maxNotFoundProbes h n s g') (s, []) := by
  unfold policyTick
  split
  · refine Returns.bind (nowIso_returns (s, [])) fun now g₁ hclock => ?_
    obtain ⟨hstore, hk₁⟩ := hclock
    refine Returns.bind (R := fun txs g₂ => txs = s.xrplTxs.rows ∧ Kept (s, []) g₂) ?_ fun txs g₂ hlist => ?_
    · obtain ⟨s₁, tr₁⟩ := g₁
      have hs₁ : s₁ = s := hstore
      refine returns_recorded rfl fun c => ⟨?_, hk₁.trans (kept_mild rfl c s₁ tr₁)⟩
      show s₁.xrplTxs.rows = _
      rw [hs₁]
    · obtain ⟨rfl, hk₂⟩ := hlist
      -- whatever the account loop does, the counter and the mark stay
      have hrest : ∀ g₃, AccountsLooked (s, []) g₃ →
          Returns ledgerWorld.recorded (runPolicyJobs config.policy now s.xrplTxs.rows)
            (fun _ g' => TickDone config.policy.maxNotFoundProbes h n s g') g₃ := by
        intro g₃ hg₃
        refine runPolicyJobs_budget now (hb.same hg₃.jobs (hg₃.rows h)) ?_ hg₃.created
        obtain ⟨row, hrow, -⟩ := hb.row
        obtain ⟨row', hrow', -, hup⟩ := hg₃.rows h row hrow
        constructor
        · rintro ⟨r, hr, hrUp⟩
          rw [hrow', Option.some.injEq] at hr
          exact ⟨row, hrow, by rw [← hup, hr, hrUp]⟩
        · rintro ⟨r, hr, hrUp⟩
          rw [hrow, Option.some.injEq] at hr
          exact ⟨row', hrow', by rw [hup, hr, hrUp]⟩
      dsimp only
      split
      · refine Returns.bind (backfillAccounts_looked _ g₂) fun _ g₃ hg₃ => ?_
        exact hrest g₃ (hk₂.looked.trans hg₃)
      · exact hrest g₂ hk₂.looked
  · refine Returns.pure ⟨fun _ => hb, fun _ job hjob => ?_⟩
    cases hjob

end Tick

/-! ## Runs -/

/-- The probes of a run, newest first. -/
def runProbes (config : Config) (ms : List (Move Store PolicyLabel)) : List Probe :=
  ms.flatMap fun m => probesOf (policyTrace config m)

/-- A change by another path leaves the row of the transaction; the jobs are the worker's. -/
def SparesTx (h : String) (m : Move Store PolicyLabel) : Prop :=
  ∀ s, m.label = .elsewhere s →
    m.after.xrplTxs.get? h = m.before.xrplTxs.get? h ∧ m.after.delayedJobs = m.before.delayedJobs

/-- The claim of the worker over a run: the row is given up exactly when the budget of
    not-found answers is reached; then its job is gone, and none is created for it again. -/
structure BudgetKept (config : Config) (h : String) (ms : List (Move Store PolicyLabel)) (s : Store) :
    Prop where
  marked : GivenUpIn h s ↔ answers h (runProbes config ms) = config.policy.maxNotFoundProbes
  deleted : ∀ m ∈ ms, GivenUpIn h m.after → NoJob h m.after
  created : ∀ m ∈ ms, GivenUpIn h m.before →
    ∀ job ∈ createdIn (policyTrace config m), job.payloadTxHash ≠ some h

section Runs

variable {config : Config} {h : String}

/-- A row is given up exactly when its budget is used up. -/
theorem Budget.givenUp_iff {budget n : Nat} {s : Store} (hb : Budget budget h n s) :
    GivenUpIn h s ↔ n = budget := by
  -- the row is read under its hash, and its budget is what is left
  obtain ⟨row, hrow, -, hup, hleft⟩ := hb.row
  constructor
  -- a row that was given up has no budget left
  · rintro ⟨row', hrow', hup'⟩
    rw [hrow, Option.some.injEq] at hrow'
    exact (hup (hrow' ▸ hup')).1
  · intro hn
    refine ⟨row, hrow, ?_⟩
    -- one that was not has some, which contradicts the count
    cases hrowUp : row.givenUp with
    | true => rfl
    | false =>
      have hlt := hleft hrowUp
      omega

/-- A row that is given up has no job. -/
theorem Budget.noJob {budget n : Nat} {s : Store} (hb : Budget budget h n s) (hup : GivenUpIn h s) :
    NoJob h s := by
  obtain ⟨row, hrow, -, hgiven, -⟩ := hb.row
  obtain ⟨row', hrow', hup'⟩ := hup
  rw [hrow, Option.some.injEq] at hrow'
  exact (hgiven (hrow' ▸ hup')).2

/-- The answers of a run are those of its moves. -/
theorem answers_flatMap_cons (m : Move Store PolicyLabel) (ms : List (Move Store PolicyLabel)) :
    answers h (runProbes config (m :: ms)) =
      answers h (runProbes config ms) + answers h (probesOf (policyTrace config m)) := by
  unfold answers runProbes
  rw [List.flatMap_cons, List.countP_append, Nat.add_comm]

/-- One move. -/
theorem budget_step {n : Nat} {m : Move Store PolicyLabel}
    (hstep : policyStep config m.before m.label = some m.after) (hother : SparesTx h m)
    (hread : NoneMisread h (probesOf (policyTrace config m)))
    (hb : Budget config.policy.maxNotFoundProbes h n m.before) :
    Budget config.policy.maxNotFoundProbes h (n + answers h (probesOf (policyTrace config m))) m.after ∧
      (GivenUpIn h m.before → ∀ job ∈ createdIn (policyTrace config m), job.payloadTxHash ≠ some h) := by
  obtain ⟨s, a, s'⟩ := m
  -- a tick keeps the count by its own specification
  cases a with
  | tick cs =>
    have htick : seqStep ledgerWorld (fun _ : Unit => policyTick config) s ((), cs) = some s' := hstep
    have hends : Ends ledgerWorld.recorded (policyTick config)
        (fun _ => TickDone config.policy.maxNotFoundProbes h n s)
        (fun _ => TickDone config.policy.maxNotFoundProbes h n s) (s, []) :=
      Ends.of_returns (policyTick_budget hb)
    have hdone := seqStep_recorded (a := ((), cs)) hends htick
    exact ⟨hdone.budget hread, hdone.created⟩
  | elsewhere t =>
    -- anything else leaves the row and its jobs alone
    obtain ⟨hrow, hjobs⟩ := hother t rfl
    refine ⟨hb.of_rows (.of_eq hjobs) hrow, fun _ job hjob => ?_⟩
    cases hjob

/-- A row starts with no answer. -/
theorem budget_fresh {s : Store} (hbudget : 0 < config.policy.maxNotFoundProbes) {id : String}
    {p : TrackParams} {t : Time} (hrow : s.xrplTxs.get? h = some (freshTrackedTx id h p t))
    (hjobs : JobsNamed h s) : Budget config.policy.maxNotFoundProbes h 0 s := by
  refine ⟨hjobs, _, hrow, rfl, fun hup => ?_, fun _ => hbudget⟩
  cases hup

/-- Where no probe rests on a `tx` request that failed, the worker keeps its budget, from the
    creation of the row on and as long as no other path changes the row. -/
theorem probe_budget (hbudget : 0 < config.policy.maxNotFoundProbes) {s₀ s : Store} {id : String}
    {p : TrackParams} {t : Time} (hrow : s₀.xrplTxs.get? h = some (freshTrackedTx id h p t))
    (hjobs : JobsNamed h s₀) {ms : List (Move Store PolicyLabel)}
    (run : Run (policyStep config) s₀ ms s) (hother : ∀ m ∈ ms, SparesTx h m)
    (hread : ∀ m ∈ ms, NoneMisread h (probesOf (policyTrace config m))) :
    BudgetKept config h ms s := by
  have hinv : Budget config.policy.maxNotFoundProbes h (answers h (runProbes config ms)) s ∧
      ∀ m ∈ ms, (GivenUpIn h m.after → NoJob h m.after) ∧ (GivenUpIn h m.before →
        ∀ job ∈ createdIn (policyTrace config m), job.payloadTxHash ≠ some h) := by
    -- induction on the run; each step keeps the count and says which jobs it creates
    induction run with
    | nil => exact ⟨budget_fresh hbudget hrow hjobs, fun m hm => absurd hm List.not_mem_nil⟩
    | @cons ms t u a run hstep ih =>
      obtain ⟨hb, hmoves⟩ := ih (fun m hm => hother m (List.mem_cons_of_mem _ hm))
        (fun m hm => hread m (List.mem_cons_of_mem _ hm))
      obtain ⟨hb', hcreated⟩ := budget_step (m := ⟨t, a, u⟩) hstep (hother _ List.mem_cons_self)
        (hread _ List.mem_cons_self) hb
      refine ⟨?_, fun m hm => ?_⟩
      · rw [answers_flatMap_cons]
        exact hb'
      · rcases List.mem_cons.mp hm with rfl | hm
        · exact ⟨hb'.noJob, hcreated⟩
        · exact hmoves m hm
  exact ⟨hinv.1.givenUp_iff, fun m hm => (hinv.2 m hm).1, fun m hm => (hinv.2 m hm).2⟩

end Runs

/-! ## Concrete runs -/

/-- An environment in which the clock stands at `now`, the `tx` request does `tx`, or the
    connection fails, and `account_tx` lists nothing. -/
def ledgerOracle (now : Time) (refused : Option String) (tx : TxResponse) : Call → LedgerChoice
  | .clock => { now := now }
  | .randomId tag => { id := tag ++ "_1" }
  | .getTxStatus _ => { failure := refused, tx := tx }
  | _ => {}

/-- Ticks one after the other, each with its environment. -/
def tickLabels : List (Call → LedgerChoice) → Store → List PolicyLabel
  | [], _ => []
  | oracle :: oracles, s =>
    let cs := oracleChoices ledgerWorld oracle (policyTick sampleConfig) s
    match policyStep sampleConfig s (.tick cs) with
    | none => [.tick cs]
    | some t => .tick cs :: tickLabels oracles t

/-- A tick whose connection is refused, then `n` ticks with the same answer. -/
def probingTicks (n : Nat) (tx : TxResponse) : List PolicyLabel :=
  tickLabels (ledgerOracle 400000 (some "connect ECONNREFUSED") tx ::
    (List.range n).map fun i => ledgerOracle (400000 * (i + 2)) none tx) probedStore

def PolicyLabel.isTick : PolicyLabel → Bool
  | .tick _ => true
  | .elsewhere _ => false

/-- A tick of the worker spares the row from other writers. -/
theorem sparesTx_of_check {h : String} {m : Move Store PolicyLabel} (hm : m.label.isTick = true) :
    SparesTx h m := by
  intro s hlabel
  rw [hlabel] at hm
  cases hm

/-- The jobs of the sample store are named after their rows. -/
theorem jobsNamed_probedStore (h : String) : JobsNamed h probedStore :=
  fun _ hj => absurd hj List.not_mem_nil

/-- The row of the concrete runs is given up. -/
def givenUpCheck (s : Store) : Bool := (s.xrplTxs.get? "AB12CD34").any XrplTransaction.givenUp

/-- Five genuine answers, and one more tick: the row is given up after the fifth. -/
theorem probe_budget_spent :
    ∃ ms s, Run (policyStep sampleConfig) probedStore ms s ∧ ms.length = 7 ∧
      answers "AB12CD34" (runProbes sampleConfig ms) = 5 ∧ BudgetKept sampleConfig "AB12CD34" ms s := by
  obtain ⟨ms, s, run, hp⟩ := exists_run_of_replay (probingTicks 6 .txnNotFound)
    (fun r => r.1.all (fun m => m.label.isTick &&
        (probesOf (policyTrace sampleConfig m)).all fun p => !p.misread) &&
      decide (r.1.length = 7) && decide (answers "AB12CD34" (runProbes sampleConfig r.1) = 5))
    (by decide +kernel : (replay (policyStep sampleConfig) probedStore _ []).any _ = true)
  simp only [Bool.and_eq_true, List.all_eq_true, decide_eq_true_eq, Bool.not_eq_true'] at hp
  -- every probe of the replay was read rightly
  obtain ⟨⟨hmoves, hlength⟩, hanswers⟩ := hp
  have hkept : BudgetKept sampleConfig "AB12CD34" ms s :=
    probe_budget (by decide) rfl (jobsNamed_probedStore _) run
      (fun m hm => sparesTx_of_check (hmoves m hm).1) (fun m hm p hmem _ => (hmoves m hm).2 p hmem)
  exact ⟨ms, s, run, hlength, hanswers, hkept⟩

/-- Five requests time out: the row is given up without a single not-found answer. -/
theorem timeouts_counted :
    ¬ ∀ (config : Config) (h : String) (s₀ s : Store) (id : String) (p : TrackParams) (t : Time)
      (ms : List (Move Store PolicyLabel)), 0 < config.policy.maxNotFoundProbes →
      s₀.xrplTxs.get? h = some (freshTrackedTx id h p t) → JobsNamed h s₀ →
      Run (policyStep config) s₀ ms s → (∀ m ∈ ms, SparesTx h m) → BudgetKept config h ms s := by
  intro hall
  obtain ⟨ms, s, run, hp⟩ := exists_run_of_replay (probingTicks 5 (.failed "Timeout for request"))
    (fun r => r.1.all (fun m => m.label.isTick) && givenUpCheck r.2 &&
      decide (answers "AB12CD34" (runProbes sampleConfig r.1) = 0))
    (by decide +kernel : (replay (policyStep sampleConfig) probedStore _ []).any _ = true)
  simp only [givenUpCheck, Bool.and_eq_true, List.all_eq_true, decide_eq_true_eq, Option.any_eq_true] at hp
  -- the budget is used up without an answer in between
  obtain ⟨⟨hticks, hup⟩, hanswers⟩ := hp
  have hkept := hall sampleConfig "AB12CD34" probedStore s _ _ _ ms (by decide) rfl
    (jobsNamed_probedStore _) run fun m hm => sparesTx_of_check (hticks m hm)
  have hspent := hkept.marked.mp hup
  rw [hanswers] at hspent
  exact absurd hspent (by decide)

end Bluesafe.Ops
