import Bluesafe.Spec.LedgerTruth
import Bluesafe.Async.Monitored

/-!
# The attempts of a delayed job

A job is created with `maxAttempts` 64, and a tick that cannot settle its transaction puts it
back with one more attempt, after a probe that found nothing as well as after an exception.
Nothing compares the two numbers: the probe counter of the row ends only the first kind of
retry, and a job whose reads keep failing is put back for ever
(`attempts_exceed_maxAttempts`). Ticks may overlap and any of their calls may be rejected; the
bound holds as long as no tick puts back a job that it has claimed with all its attempts used
(`job_attempts_bounded`).

## Key results

- `jobs_serve`: what a call does to the jobs
- `policyTick_safe`: what the calls of a tick are about
- `jobsBounded_step`: the invariant of a run
-/

namespace Bluesafe.Ops

open Async Transition

/-! ## What a call does to the jobs -/

/-- The job after `bumpDelayedJob`. -/
def DelayedJob.bumped (j : DelayedJob) (p : DelayedJobBump) : DelayedJob :=
  { j with
    runAfter := p.runAfter, attempts := p.attempts, lastError := p.lastError,
    updatedAt := p.updatedAt, lockedUntil := none }

/-- A job in the store after the call was there before, perhaps with another lease, or the call
    creates it or puts it back. -/
inductive JobAfter (s : Store) : Call → DelayedJob → Prop
  | kept {op : Call} {j : DelayedJob} (h : j ∈ s.delayedJobs.rows) : JobAfter s op j
  | leased {op : Call} {j : DelayedJob} (now : Time) (lockTtlMs : Nat) (h : j ∈ s.delayedJobs.rows) :
    JobAfter s op (j.leased now lockTtlMs)
  | created (j : DelayedJob) : JobAfter s (.createDelayedJobIfAbsent j) j
  | bumped (p : DelayedJobBump) {j : DelayedJob} (h : s.delayedJobs.get? p.id = some j) :
    JobAfter s (.bumpDelayedJob p) (j.bumped p)

/-- A job that is due is stored. -/
theorem mem_dueJobs {s : Store} {kind : String} {now : Time} {limit : Nat} {j : DelayedJob}
    (h : j ∈ s.dueJobs kind now limit) : j ∈ s.delayedJobs.rows := by
  have hsort := List.mem_of_mem_take h
  rw [List.mem_insertionSort, List.mem_filter] at hsort
  exact hsort.1

/-- Where a job comes from, after a call. -/
theorem jobAfter_perform {op : Call} {c : Choice} {s : Store} {j : DelayedJob}
    (h : j ∈ (perform op c s).2.delayedJobs.rows) : JobAfter s op j := by
  -- four calls write the jobs
  cases op with
  | tryRecordXrplIngestionEvent key =>
    simp only [perform] at h
    split at h <;> exact .kept h
  | createDelayedJobIfAbsent job =>
    simp only [perform] at h
    split at h
    -- a job that is there already is not created again
    · exact .kept h
    · rcases Table.mem_rows_set.mp h with rfl | hold
      · exact .created _
      · exact .kept hold.1
  | claimDueDelayedJobs kind now limit lockTtlMs =>
    have hget := Table.get?_of_mem h
    rcases Table.get?_foldl_set s.delayedJobs _ j.id with heq | ⟨claimed, hmem, -, heq⟩
    -- the call leases other jobs, or this one
    · exact .kept (Table.mem_of_get? (heq.symm.trans hget))
    · -- the job is one of those that the call leases
      have hj : claimed = j := Option.some.inj (heq.symm.trans hget)
      obtain ⟨due, hdue, rfl⟩ := List.mem_map.mp hmem
      rw [← hj]
      exact .leased now lockTtlMs (mem_dueJobs hdue)
  | deleteDelayedJob id => exact .kept (Table.mem_rows_erase.mp h).1
  | bumpDelayedJob p =>
    simp only [perform] at h
    split at h
    · exact .kept h
    -- a bump writes one job, this one or another
    · rename_i old hget
      rcases Table.mem_rows_set.mp h with rfl | hold
      · exact .bumped p hget
      · exact .kept hold.1
  | _ => exact .kept h

/-- The same for a call that may fail. -/
theorem jobAfter_serve {op : Call} {c : Choice} {s : Store} {j : DelayedJob}
    (h : j ∈ (serve op c s).2.delayedJobs.rows) : JobAfter s op j := by
  rcases serve_state op c s with heq | heq <;> rw [heq] at h
  · exact jobAfter_perform h
  · exact .kept h

/-- The request has claimed the job. -/
def Claimed (l : OpsLog) (job : DelayedJob) : Prop :=
  ∃ kind now limit lockTtlMs jobs,
    Answered l (.claimDueDelayedJobs kind now limit lockTtlMs) jobs ∧ job ∈ jobs

/-- A job that was claimed stays so in the log. -/
theorem Claimed.mono {l l' : OpsLog} {job : DelayedJob} (h : Claimed l job) (hl : l <:+ l') :
    Claimed l' job := by
  obtain ⟨kind, now, limit, lockTtlMs, jobs, hans, hmem⟩ := h
  exact ⟨kind, now, limit, lockTtlMs, jobs, hans.mono hl, hmem⟩

/-- A job that a call hands out is stored, up to its lease. -/
theorem claimed_serve {op : Call} {c : Choice} {s : Store} {kind : String} {now : Time}
    {limit lockTtlMs : Nat} {jobs : List DelayedJob}
    (h : (⟨op, (serve op c s).1⟩ : Event calls String) =
      ⟨.claimDueDelayedJobs kind now limit lockTtlMs, .ok jobs⟩) {job : DelayedJob} (hjob : job ∈ jobs) :
    ∃ j ∈ s.delayedJobs.rows, job = j.leased now lockTtlMs := by
  obtain ⟨-, rfl, -⟩ := performed_of_event h.symm
  obtain ⟨j, hj, rfl⟩ := List.mem_map.mp hjob
  exact ⟨j, mem_dueJobs hj, rfl⟩

/-! ## The calls of a tick -/

/-- Calls that neither create a job nor put one back. -/
def Call.keepsAttempts : Call → Bool
  | .createDelayedJobIfAbsent _ => false
  | .bumpDelayedJob _ => false
  | _ => true

/-- What a monitor has to accept for a tick: the calls about other things, the jobs of pending
    transactions, and a claimed job put back with one more attempt. -/
structure AcceptsTick (ok : OpsLog → Call → Prop) : Prop where
  other : ∀ l op, Call.keepsAttempts op = true → ok l op
  created : ∀ l txHash now, ok l (.createDelayedJobIfAbsent (policyJob txHash now))
  requeued : ∀ l job p, Claimed l job → job.id = p.id → p.attempts = job.attempts + 1 →
    ok l (.bumpDelayedJob p)

section Tick

variable {ok : OpsLog → Call → Prop} {l : OpsLog}

/-- Programs whose calls leave the jobs alone. -/
theorem safe_of_keepsAttempts (hok : AcceptsTick ok) {α : Type} {p : OpsM α}
    (hp : Only (fun op : calls.Op => Call.keepsAttempts op = true) p) :
    Safe (I := calls) ok p l :=
  hp.safe hok.other l

/-- An audit entry counts no attempt. -/
theorem writeAudit_keepsAttempts (entityType entityId action actor : String)
    (before after metadata : Option JsonObject) :
    Only (fun op : calls.Op => Call.keepsAttempts op = true)
      (writeAudit entityType entityId action actor before after metadata) :=
  .bind (.call rfl) fun _ => .bind (.call rfl) fun _ => .call rfl

/-- Nor does an event. -/
theorem emitEvent_keepsAttempts (eventType entityType entityId : String) (payload : JsonObject) :
    Only (fun op : calls.Op => Call.keepsAttempts op = true)
      (emitEvent eventType entityType entityId payload) :=
  .bind (.call rfl) fun _ => .bind (.call rfl) fun _ => .bind (.call rfl) fun _ => .call rfl

/-- Nor does a notice to the parties. -/
theorem notifyParties_keepsAttempts (contractId eventType : String) (payload : JsonObject) :
    Only (fun op : calls.Op => Call.keepsAttempts op = true)
      (notifyParties contractId eventType payload) := by
  refine .bind (.call rfl) fun contract => ?_
  cases contract with
  | none => exact .pure
  | some c => exact .call rfl

/-- Nor does the dispute of an answered row. -/
theorem resolveLinkedDispute_keepsAttempts (row : XrplTransaction) :
    Only (fun op : calls.Op => Call.keepsAttempts op = true) (resolveLinkedDispute row) := by
  -- none of the calls of a resolution touches a job
  unfold resolveLinkedDispute
  split
  · exact .pure
  · refine .bind (.call rfl) fun found => ?_
    cases found with
    | none => exact .pure
    | some d =>
      refine .ite ?_ .pure
      refine .bind (.call rfl) fun t => .bind (.call rfl) fun _ => ?_
      refine .bind (writeAudit_keepsAttempts _ _ _ _ _ _ _) fun _ => ?_
      refine .bind (emitEvent_keepsAttempts _ _ _ _) fun _ => ?_
      exact notifyParties_keepsAttempts _ _ _

/-- Nor does an answer of the ledger. -/
theorem applyLiveTxStatus_keepsAttempts (h : String) (live : LiveTxStatus) :
    Only (fun op : calls.Op => Call.keepsAttempts op = true) (applyLiveTxStatus h live) := by
  refine .bind (.call rfl) fun found => ?_
  cases found with
  | none => exact .pure
  | some row =>
    refine .bind (.call rfl) fun now => .bind (.call rfl) fun _ => ?_
    exact .bind (resolveLinkedDispute_keepsAttempts _) fun _ => .pure

/-- Nor does the pass over an account. -/
theorem backfillAccount_keepsAttempts (tx : XrplTransaction) :
    Only (fun op : calls.Op => Call.keepsAttempts op = true) (backfillAccount tx) := by
  refine .bind (.call rfl) fun live => ?_
  split
  · exact .pure
  · refine .bind (.call rfl) fun stored => ?_
    dsimp only
    split
    · exact .pure
    · refine .bind (.call rfl) fun now => .bind (.call rfl) fun _ => ?_
      exact writeAudit_keepsAttempts _ _ _ _ _ _ _

/-- A new job has had no attempt. -/
theorem createPolicyJobs_safe (hok : AcceptsTick ok) (policy : PolicyConfig) (now : Time)
    (txs : List XrplTransaction) : Safe (I := calls) ok (createPolicyJobs policy now txs) l := by
  unfold createPolicyJobs
  refine Gives.forM fun tx l₁ _ _ => ?_
  split
  · refine Gives.call_then (hok.other _ _ rfl) fun t l₂ _ => ?_
    split
    · exact Gives.pure trivial
    · exact Gives.call_then (hok.created _ _ _) fun _ l₃ _ => Gives.pure trivial
  · exact Gives.pure trivial

/-- A job that was claimed is put back with one more attempt. -/
theorem requeueJob_safe (hok : AcceptsTick ok) (policy : PolicyConfig) {job : DelayedJob}
    (hjob : Claimed l job) (lastError : Option String) :
    Safe (I := calls) ok (requeueJob policy job lastError) l := by
  unfold requeueJob
  refine Gives.call_then (hok.other _ _ rfl) fun t l₁ hl₁ => ?_
  refine Gives.call_then (hok.other _ _ rfl) fun updatedAt l₂ hl₂ => ?_
  exact Gives.call (hok.requeued _ job _ (hjob.mono (hl₁.trans hl₂)) rfl rfl) fun _ => trivial

/-- A probe that found nothing puts its job back. -/
theorem recordNotFound_safe (hok : AcceptsTick ok) (policy : PolicyConfig) {job : DelayedJob}
    (hjob : Claimed l job) (h : String) (tx : XrplTransaction) :
    Safe (I := calls) ok (recordNotFound policy job h tx) l := by
  unfold recordNotFound
  -- the stored row and the clock are read before the budget is compared
  refine Gives.call_then (hok.other _ _ rfl) fun stored l₁ hl₁ => ?_
  refine Gives.call_then (hok.other _ _ rfl) fun now l₂ hl₂ => ?_
  dsimp only
  split
  · -- exhausted: the job is deleted
    refine Gives.call_then (hok.other _ _ rfl) fun _ l₃ _ => ?_
    refine Gives.call_then (hok.other _ _ rfl) fun _ l₄ _ => ?_
    refine Gives.bind (safe_of_keepsAttempts hok (writeAudit_keepsAttempts _ _ _ _ _ _ _))
      fun _ l₅ _ _ => ?_
    exact safe_of_keepsAttempts hok (emitEvent_keepsAttempts _ _ _ _)
  -- not exhausted: the job is put back for the next tick
  · refine Gives.call_then (hok.other _ _ rfl) fun _ l₃ hl₃ => ?_
    exact requeueJob_safe hok policy (hjob.mono ((hl₁.trans hl₂).trans hl₃)) none

/-- So does a job that fails. -/
theorem processJob_safe (hok : AcceptsTick ok) (policy : PolicyConfig) {job : DelayedJob}
    (hjob : Claimed l job) : Safe (I := calls) ok (processJob policy job) l := by
  unfold processJob
  split
  · exact Gives.call (hok.other _ _ rfl) fun _ => trivial
  · rename_i h _
    -- whatever is thrown, the job that was claimed is put back
    refine Gives.tryCatch ?_ fun e l₁ hl₁ => requeueJob_safe hok policy (hjob.mono hl₁) _
    unfold runPolicyJob
    refine Gives.call_then (hok.other _ _ rfl) fun found l₁ hl₁ => ?_
    cases found with
    | none => exact Gives.call (hok.other _ _ rfl) fun _ => trivial
    | some tx =>
      dsimp only
      split
      · have hprobe : Only (fun op : calls.Op => Call.keepsAttempts op = true) (probeLedger h tx) := by
          refine .bind (.call rfl) fun found => ?_
          cases found with
          | some live => exact .pure
          | none =>
            dsimp only
            split
            · exact .pure
            · exact .bind (.call rfl) fun _ => .pure
        refine Gives.bind (safe_of_keepsAttempts hok hprobe) fun found l₂ hl₂ _ => ?_
        cases found with
        | some live =>
          refine Gives.bind (safe_of_keepsAttempts hok (applyLiveTxStatus_keepsAttempts _ live))
            fun _ l₃ _ _ => ?_
          exact Gives.call (hok.other _ _ rfl) fun _ => trivial
        | none => exact recordNotFound_safe hok policy (hjob.mono (hl₁.trans hl₂)) _ tx
      · exact Gives.call (hok.other _ _ rfl) fun _ => trivial

/-- A tick puts back the jobs it has claimed. -/
theorem policyTick_safe (hok : AcceptsTick ok) (config : Config) :
    Safe (I := calls) ok (policyTick config) l := by
  -- the jobs of a tick: they are created, claimed and then processed
  have hjobs : ∀ now txs l', Safe (I := calls) ok (runPolicyJobs config.policy now txs) l' := by
    intro now txs l'
    unfold runPolicyJobs
    refine Gives.bind (createPolicyJobs_safe hok _ _ _) fun _ l₁ _ _ => ?_
    refine Gives.call_read (hok.other _ _ rfl) fun jobs l₂ _ hclaim => ?_
    exact Gives.forM fun job l₃ hjob hl₃ =>
      -- a processed job is one of those that this call claimed
      processJob_safe hok _ ⟨_, _, _, _, jobs, Answered.mono hclaim hl₃, hjob⟩
  unfold policyTick
  split
  · refine Gives.call_then (hok.other _ _ rfl) fun now l₁ _ => ?_
    refine Gives.call_then (hok.other _ _ rfl) fun txs l₂ _ => ?_
    dsimp only
    split
    · refine Gives.bind (R := fun _ _ => True) ?_ fun _ l₃ _ _ => hjobs _ _ _
      -- the backfill of the accounts comes first, and touches no job
      refine Gives.forM fun tx l₃ _ _ => ?_
      exact safe_of_keepsAttempts hok (.tryCatch (backfillAccount_keepsAttempts tx) fun _ => .pure)
    · exact hjobs _ _ _
  · exact Gives.pure trivial

end Tick

/-! ## The attempts a tick writes -/

/-- A tick creates jobs without attempts, and puts back jobs that it has claimed. -/
def jobsOk (req : Request) (l : OpsLog) : Call → Prop
  | .createDelayedJobIfAbsent job => req = .policyTick → job.attempts = 0 ∧ job.maxAttempts = 64
  | .bumpDelayedJob p => req = .policyTick →
    ∃ job, Claimed l job ∧ job.id = p.id ∧ p.attempts = job.attempts + 1
  | _ => True

/-- The rule of the bound is one of those a tick keeps. -/
theorem jobsOk_accepts (req : Request) : AcceptsTick (jobsOk req) where
  other l op h := by cases op <;> trivial
  created _ _ _ := fun _ => ⟨rfl, rfl⟩
  requeued _ job _ hjob hid hattempts := fun _ => ⟨job, hjob, hid, hattempts⟩

/-- The other requests are not restricted. -/
theorem handle_jobs (config : Config) (req : Request) :
    Safe (I := calls) (jobsOk req) (handle config req) [] := by
  by_cases htick : req = .policyTick
  · subst htick
    exact Gives.map (policyTick_safe (jobsOk_accepts _) config)
  · refine safe_of_forall (fun l op => ?_) _ _
    cases op <;> first | trivial | exact fun h => absurd h htick

/-! ## Runs of ticks -/

/-- The move puts a job back that its tick has claimed with all its attempts used. -/
def RequeuesSpent (m : Move OpsPool (Act Request Choice)) : Prop :=
  ∃ th p c, MakesCall m th (.bumpDelayedJob p) c ∧
    ∃ job, Claimed th.log job ∧ job.id = p.id ∧ job.maxAttempts ≤ job.attempts

/-- What a run keeps: the stored jobs are within the bound, and the jobs that ticks have
    claimed have the same bound. -/
structure JobsBounded (P : OpsPool) : Prop where
  stored : ∀ j ∈ P.store.delayedJobs.rows, j.maxAttempts = 64 ∧ j.attempts ≤ 64
  claimed : ∀ th ∈ P.threads, ∀ job, Claimed th.log job → job.maxAttempts = 64
  ticks : ∀ th ∈ P.threads, th.req = .policyTick
  safe : ∀ th ∈ P.threads, th.Safe jobsOk

/-- The jobs a tick has claimed after a call are those from before, or stored ones. -/
theorem claimed_resume {op : Call} {c : Choice} {s : Store} {l : OpsLog} {job : DelayedJob}
    (h : Claimed (⟨op, (serve op c s).1⟩ :: l) job) :
    Claimed l job ∨ ∃ j ∈ s.delayedJobs.rows, job.maxAttempts = j.maxAttempts := by
  obtain ⟨kind, now, limit, lockTtlMs, jobs, hans, hmem⟩ := h
  rcases List.mem_cons.mp hans with heq | hans
  · obtain ⟨j, hj, rfl⟩ := claimed_serve heq.symm hmem
    exact .inr ⟨j, hj, rfl⟩
  · exact .inl ⟨kind, now, limit, lockTtlMs, jobs, hans, hmem⟩

/-- Every step keeps the bound. -/
theorem jobsBounded_step {config : Config} (m : Move OpsPool (Act Request Choice))
    (hstep : opsPoolStep config m.before m.label = some m.after)
    (hm : (∀ req, m.label = .spawn req → req = .policyTick) ∧ ¬ RequeuesSpent m)
    (hP : JobsBounded m.before) : JobsBounded m.after := by
  have hsafe := poolStep_safe (handle_jobs config) hstep hP.safe
  obtain ⟨htick, hspent⟩ := hm
  obtain ⟨P, a, P'⟩ := m
  dsimp only at hstep hP hsafe htick ⊢
  obtain ⟨req, rfl, rfl⟩ | ⟨i, c, th, op, k, rfl, hth, hprog, -, rfl⟩ := poolStep_cases hstep
  · refine ⟨hP.stored, fun u hu job hjob => ?_, fun u hu => ?_, hsafe⟩
    · rcases List.mem_append.mp hu with hu | hu
      · exact hP.claimed u hu job hjob
      · rw [List.mem_singleton.mp hu] at hjob
        obtain ⟨_, _, _, _, _, hans, _⟩ := hjob
        cases hans
    · rcases List.mem_append.mp hu with hu | hu
      · exact hP.ticks u hu
      · rw [List.mem_singleton.mp hu]
        exact htick req rfl
  · have hmem : th ∈ P.threads := List.mem_of_getElem? hth
    have hok : jobsOk th.req th.log op := (hP.safe th hmem).ok_of_await hprog
    refine ⟨fun j hj => ?_, fun u hu job hjob => ?_, fun u hu => ?_, hsafe⟩
    · cases jobAfter_serve hj with
      | kept h => exact hP.stored j h
      | @leased _ old now lockTtlMs h => exact hP.stored old h
      | created =>
        obtain ⟨hzero, hmax⟩ := hok (hP.ticks th hmem)
        exact ⟨hmax, hzero ▸ Nat.zero_le 64⟩
      | @bumped p old h =>
        -- the job was claimed before with an attempt left
        obtain ⟨job, hjob, hid, hattempts⟩ := hok (hP.ticks th hmem)
        have hmax := hP.claimed th hmem job hjob
        have hleft : job.attempts < job.maxAttempts := by
          by_contra hge
          exact hspent ⟨th, p, c, ⟨i, k, rfl, hth, hprog⟩, job, hjob, hid, Nat.le_of_not_lt hge⟩
        refine ⟨(hP.stored old (Table.mem_of_get? h)).1, ?_⟩
        show p.attempts ≤ 64
        omega
    · rcases mem_set_resume hu with rfl | hu
      · rcases claimed_resume hjob with hold | ⟨j, hj, heq⟩
        · exact hP.claimed th hmem job hold
        · exact heq.trans (hP.stored j hj).1
      · exact hP.claimed u hu job hjob
    · rcases mem_set_resume hu with rfl | hu
      · exact hP.ticks th hmem
      · exact hP.ticks u hu

/-- Any number of ticks, overlapping and with any rejections: while no tick puts back a job
    whose attempts were used up when it claimed it, every stored job is within its bound. -/
theorem job_attempts_bounded {config : Config} {s₀ : Store} {P : OpsPool}
    {ms : List (Move OpsPool (Act Request Choice))} (h₀ : s₀.delayedJobs.rows = [])
    (run : Run (opsPoolStep config) ⟨s₀, []⟩ ms P)
    (hticks : ∀ m ∈ ms, ∀ req, m.label = .spawn req → req = .policyTick)
    (hspent : ∀ m ∈ ms, ¬ RequeuesSpent m) :
    ∀ j ∈ P.store.delayedJobs.rows, j.attempts ≤ j.maxAttempts := by
  -- the first store has no jobs and no threads
  have hstart : JobsBounded ⟨s₀, []⟩ := by
    refine ⟨?_, ?_, ?_, ?_⟩
    · rw [h₀]
      simp
    · simp
    · simp
    · simp
  have hbounded := run.invariant (P := JobsBounded) (fun m hm => ⟨hticks m hm, hspent m hm⟩) hstart
    jobsBounded_step
  -- what the invariant says of a stored job
  intro j hj
  obtain ⟨hmax, hle⟩ := hbounded.stored j hj
  omega

/-! ## Concrete runs -/

/-- The transaction of an account, not found yet. -/
def probedStore : Store :=
  { Store.empty with
    xrplTxs := Table.empty.set
      (freshTrackedTx "xrt_1" "AB12CD34" ⟨"EscrowFinish", some "rOwnerOwnerOwnerOwner", none, .testnet⟩ 0) }

/-- The reads of rows are rejected, everything else answers; the ledger knows nothing. -/
def readsRejected (now : Time) : Call → Choice
  | .getXrplTx _ => { failure := some "connection terminated" }
  | op => sampleOracle "1" now none op

/-- `n` ticks, each of them later than the longest delay of a job. -/
def failingTicks (n : Nat) : List (Turn calls Request Choice) :=
  (List.range n).flatMap fun i =>
    [.start .policyTick, .run i 20 (readsRejected (400000 * (i + 1)))]

/-- The condition, as a check. -/
def requeueCheck (m : Move OpsPool (Act Request Choice)) : Bool :=
  match m.label with
  | .spawn _ => true
  | .advance i _ =>
    (m.before.threads[i]?).all fun th =>
      match th.prog with
      | .await (.bumpDelayedJob p) _ => th.log.all fun
        | ⟨.claimDueDelayedJobs _ _ _ _, .ok jobs⟩ =>
          jobs.all fun job => decide (job.id ≠ p.id) || decide (job.attempts < job.maxAttempts)
        | _ => true
      | _ => true

/-- Whether a spent job is put back can be computed. -/
theorem not_requeuesSpent_of_check {m : Move OpsPool (Act Request Choice)} (h : requeueCheck m = true) :
    ¬ RequeuesSpent m := by
  rintro ⟨th, p, c, ⟨i, k, hlabel, hth, hprog⟩, job, ⟨_, _, _, _, jobs, hans, hjob⟩, hid, hspent⟩
  unfold requeueCheck at h
  rw [hlabel] at h
  dsimp only at h
  rw [hth, Option.all_some, hprog] at h
  have hall := List.all_eq_true.mp h _ hans
  have hleft := List.all_eq_true.mp hall job hjob
  simp only [hid, ne_eq, not_true_eq_false, decide_false, Bool.false_or, decide_eq_true_eq] at hleft
  omega

/-- The request is a tick. -/
def Request.isTick : Request → Bool
  | .policyTick => true
  | _ => false

/-- And whether only ticks arrive. -/
theorem tick_of_check {m : Move OpsPool (Act Request Choice)} (h : spawnCheck Request.isTick m = true) :
    ∀ req, m.label = .spawn req → req = .policyTick := by
  intro req hreq
  have htick := spawn_of_check h req hreq
  cases req <;> first | rfl | cases htick

/-- Three ticks whose reads are rejected. -/
theorem job_attempts_bounded_three :
    ∃ ms P, Run (opsPoolStep sampleConfig) ⟨probedStore, []⟩ ms P ∧
      P.store.delayedJobs.rows.map DelayedJob.attempts = [3] ∧
      ∀ j ∈ P.store.delayedJobs.rows, j.attempts ≤ j.maxAttempts := by
  obtain ⟨ms, P, run, hp⟩ := exists_run_of_replay
    (scheduleActs world (handle sampleConfig) (failingTicks 3) ⟨probedStore, []⟩)
    (fun r => r.1.all (fun m => spawnCheck Request.isTick m && requeueCheck m) &&
      decide (r.2.store.delayedJobs.rows.map DelayedJob.attempts = [3]))
    (by decide +kernel : (replay (opsPoolStep sampleConfig) ⟨probedStore, []⟩ _ []).any _ = true)
  simp only [Bool.and_eq_true, List.all_eq_true, decide_eq_true_eq] at hp
  obtain ⟨hmoves, hattempts⟩ := hp
  exact ⟨ms, P, run, hattempts, job_attempts_bounded rfl run (fun m hm => tick_of_check (hmoves m hm).1)
    fun m hm => not_requeuesSpent_of_check (hmoves m hm).2⟩

/-- After 65 such ticks the job has one attempt too many. -/
theorem attempts_exceed_maxAttempts :
    ¬ ∀ (config : Config) (s₀ : Store) (P : OpsPool) (ms : List (Move OpsPool (Act Request Choice))),
      s₀.delayedJobs.rows = [] → Run (opsPoolStep config) ⟨s₀, []⟩ ms P →
      (∀ m ∈ ms, ∀ req, m.label = .spawn req → req = .policyTick) →
      ∀ j ∈ P.store.delayedJobs.rows, j.attempts ≤ j.maxAttempts := by
  intro h
  obtain ⟨ms, P, run, hp⟩ := exists_run_of_replay
    (scheduleActs world (handle sampleConfig) (failingTicks 65) ⟨probedStore, []⟩)
    (fun r => r.1.all (spawnCheck Request.isTick) &&
      r.2.store.delayedJobs.rows.any fun j : DelayedJob => decide (j.maxAttempts < j.attempts))
    (by decide +kernel : (replay (opsPoolStep sampleConfig) ⟨probedStore, []⟩ _ []).any _ = true)
  simp only [Bool.and_eq_true, List.all_eq_true, List.any_eq_true, decide_eq_true_eq] at hp
  obtain ⟨hmoves, j, hj, hlt⟩ := hp
  -- the bound says that this job stays below its maximum
  have hle := h sampleConfig probedStore P ms rfl run (fun m hm => tick_of_check (hmoves m hm)) j hj
  omega

end Bluesafe.Ops
