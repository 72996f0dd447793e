import Bluesafe.ForStd.Page
import Bluesafe.Spec.JobAttempts

/-!
# The leases of delayed jobs

A claim hands out the due jobs of its kind that are not leased, earliest first, and leases each
of them for `lockTtlMs`. Any sequence of calls may follow, claims of other ticks among them and
calls that are rejected before or after they took effect: until the lease ends, no claim hands
the job out again, unless it was bumped, or deleted and created again (`job_leases_exclude`).
The identifier of a job is made from the hash of its transaction, so there is at most one job
for a transaction.

## Key results

- `leased_serve`: what a call does to a leased job
- `leased_run`: what a sequence of calls does to it
- `claim_exact`: what a claim hands out
-/

namespace Bluesafe.Ops

open Async Transition

/-! ## Sequences of calls -/

/-- One call with the choice of the environment. -/
def callStep (s : Store) (a : Call × Choice) : Option Store :=
  some (serve a.1 a.2 s).2

/-- A call of a sequence, with the stores before and after it. -/
abbrev CallMove : Type := Move Store (Call × Choice)

/-- The call puts the job `id` back. -/
def Call.Bumps (id : String) (op : Call) : Prop :=
  ∃ p, op = .bumpDelayedJob p ∧ p.id = id

/-- The call creates the job `id`, unless there is one. -/
def Call.CreatesJob (id : String) (op : Call) : Prop :=
  ∃ job, op = .createDelayedJobIfAbsent job ∧ job.id = id

/-- The job is due and not leased. -/
def DelayedJob.Due (kind : String) (now : Time) (j : DelayedJob) : Prop :=
  j.kind = kind ∧ j.runAfter ≤ now ∧ ∀ t ∈ j.lockedUntil, t ≤ now

instance (kind : String) (now : Time) : DecidablePred (DelayedJob.Due kind now) :=
  fun j => inferInstanceAs (Decidable (_ ∧ _ ∧ ∀ t ∈ j.lockedUntil, t ≤ now))

/-! ## What a claim hands out -/

/-- The jobs that a claim at `now` hands out: due jobs with their new lease, as many as the
    limit allows, and the earliest ones. -/
structure Store.HandsOut (s : Store) (kind : String) (now : Time) (limit lockTtlMs : Nat)
    (jobs : List DelayedJob) : Prop where
  due : ∀ job ∈ jobs, ∃ j ∈ s.delayedJobs.rows, j.Due kind now ∧ job = j.leased now lockTtlMs
  distinct : (jobs.map DelayedJob.id).Nodup
  length : jobs.length = min limit (s.delayedJobs.rows.countP fun j => decide (j.Due kind now))
  ordered : jobs.Pairwise fun a b => a.runAfter ≤ b.runAfter
  earliest : ∀ j ∈ s.delayedJobs.rows, j.Due kind now → j.leased now lockTtlMs ∉ jobs →
    ∀ job ∈ jobs, job.runAfter ≤ j.runAfter

section Claim

variable {s : Store} {kind : String} {now : Time} {limit lockTtlMs : Nat}

/-- Earlier jobs first. -/
abbrev runsBefore (a b : DelayedJob) : Prop := a.runAfter ≤ b.runAfter

instance : Std.Total runsBefore := ⟨fun a b => Nat.le_total a.runAfter b.runAfter⟩

instance : IsTrans DelayedJob runsBefore := ⟨fun _ _ _ => Nat.le_trans⟩

theorem dueJobs_eq : s.dueJobs kind now limit =
    s.delayedJobs.rows.firstBy runsBefore (fun j => decide (j.Due kind now)) limit := rfl

/-- A claim that is not rejected hands out exactly the jobs it should. -/
theorem claim_exact (c : Choice) :
    s.HandsOut kind now limit lockTtlMs
      (perform (.claimDueDelayedJobs kind now limit lockTtlMs) c s).1 := by
  show s.HandsOut kind now limit lockTtlMs
    ((s.dueJobs kind now limit).map (DelayedJob.leased now lockTtlMs))
  rw [dueJobs_eq]
  refine ⟨?_, ?_, ?_, ?_, ?_⟩
  -- what is handed out was due, with the lease of this claim
  · intro job hjob
    obtain ⟨j, hj, rfl⟩ := List.mem_map.mp hjob
    obtain ⟨hmem, hdue⟩ := List.mem_of_mem_firstBy hj
    exact ⟨j, hmem, of_decide_eq_true hdue, rfl⟩
  · -- a lease does not change the identifiers, which are distinct in the table
    rw [List.map_map]
    have hperm := List.perm_insertionSort runsBefore
      (s.delayedJobs.rows.filter fun j => decide (j.Due kind now))
    have hrows : (s.delayedJobs.rows.map DelayedJob.id).Nodup := s.delayedJobs.nodup
    have hsorted := (hperm.map DelayedJob.id).nodup_iff.mpr
      (hrows.sublist (List.filter_sublist.map DelayedJob.id))
    exact hsorted.sublist ((List.take_sublist _ _).map DelayedJob.id)
  · rw [List.length_map, List.length_firstBy]
  · exact List.pairwise_map.mpr List.pairwise_firstBy
  -- what is left out comes after everything that was handed out
  · intro j hj hdue hout job hjob
    obtain ⟨k, hk, rfl⟩ := List.mem_map.mp hjob
    have hleft : j ∉ s.delayedJobs.rows.firstBy runsBefore (fun j => decide (j.Due kind now)) limit :=
      fun hmem => hout (List.mem_map_of_mem hmem)
    have hbefore : runsBefore k j := List.before_of_left_out hk hj (decide_eq_true hdue) hleft
    exact hbefore

end Claim

/-! ## A leased job -/

/-- The job `id` is stored with a lease that does not end before `bound`. -/
def Store.Leased (s : Store) (id : String) (bound : Time) : Prop :=
  ∃ j t, s.delayedJobs.get? id = some j ∧ j.lockedUntil = some t ∧ bound ≤ t

section Lease

variable {s : Store} {id : String} {bound : Time}

/-- A claim stores the jobs it hands out with their lease. -/
theorem leased_claim {kind : String} {now : Time} {limit lockTtlMs : Nat} {c : Choice}
    {job : DelayedJob}
    (hjob : job ∈ (perform (.claimDueDelayedJobs kind now limit lockTtlMs) c s).1) :
    (perform (.claimDueDelayedJobs kind now limit lockTtlMs) c s).2.Leased job.id
      (now + lockTtlMs) := by
  obtain ⟨w, hw, hid, hget⟩ := Table.get?_foldl_set_of_mem (t := s.delayedJobs) hjob
  obtain ⟨j, -, rfl⟩ := List.mem_map.mp hw
  exact ⟨_, _, hget, rfl, Nat.le_refl _⟩

/-- A job that a claim hands out is not leased at that time. -/
theorem not_leased_of_handed_out {kind : String} {now : Time} {limit lockTtlMs : Nat} {c : Choice}
    {job : DelayedJob}
    (hjob : job ∈ (perform (.claimDueDelayedJobs kind now limit lockTtlMs) c s).1)
    (hlease : s.Leased job.id bound) : bound ≤ now := by
  obtain ⟨j, hj, hdue, rfl⟩ := (claim_exact c).due job hjob
  obtain ⟨k, t, hget, hlock, hle⟩ := hlease
  have hsame : some k = some j := hget.symm.trans (Table.get?_of_mem hj)
  obtain rfl := Option.some.inj hsame
  exact Nat.le_trans hle (hdue.2.2 t hlock)

/-- A leased job keeps its lease, or the call bumps it, or the call deletes it. -/
theorem leased_perform (op : Call) (c : Choice) (h : s.Leased id bound) :
    op.Bumps id ∨ (op = .deleteDelayedJob id ∧ (perform op c s).2.delayedJobs.get? id = none) ∨
      (perform op c s).2.Leased id bound := by
  obtain ⟨j, t, hget, hlock, hle⟩ := h
  -- four calls write jobs; each keeps the lease, or is one of the two exceptions
  cases op with
  | tryRecordXrplIngestionEvent key =>
    have hjobs : (perform (.tryRecordXrplIngestionEvent key) c s).2.delayedJobs = s.delayedJobs := by
      simp only [perform]
      split <;> rfl
    exact .inr (.inr ⟨j, t, hjobs ▸ hget, hlock, hle⟩)
  | createDelayedJobIfAbsent job =>
    simp only [perform]
    by_cases hid : job.id = id
    · -- there is a job with this identifier: nothing is created
      rw [hid, hget]
      exact .inr (.inr ⟨j, t, hget, hlock, hle⟩)
    · refine .inr (.inr ⟨j, t, ?_, hlock, hle⟩)
      split
      · exact hget
      · show (s.delayedJobs.set job).get? id = some j
        rw [Table.get?_set, if_neg (Ne.symm hid), hget]
  | claimDueDelayedJobs kind now limit lockTtlMs =>
    refine .inr (.inr ?_)
    rcases Table.get?_foldl_set s.delayedJobs
      ((s.dueJobs kind now limit).map (DelayedJob.leased now lockTtlMs)) id with heq | ⟨w, hw, hid, heq⟩
    · exact ⟨j, t, heq.trans hget, hlock, hle⟩
    · -- the job was handed out again, so its lease had ended and the new one is longer
      have hbound := not_leased_of_handed_out (c := c) hw ⟨j, t, hid ▸ hget, hlock, hle⟩
      obtain ⟨k, -, rfl⟩ := List.mem_map.mp hw
      exact ⟨_, _, heq, rfl, Nat.le_trans hbound (Nat.le_add_right now lockTtlMs)⟩
  -- a deletion of this job ends its lease
  | deleteDelayedJob id' =>
    by_cases hid : id' = id
    · subst hid
      refine .inr (.inl ⟨rfl, ?_⟩)
      show (s.delayedJobs.erase id').get? id' = none
      rw [Table.get?_erase, if_pos rfl]
    · refine .inr (.inr ⟨j, t, ?_, hlock, hle⟩)
      show (s.delayedJobs.erase id').get? id = some j
      rw [Table.get?_erase, if_neg (Ne.symm hid), hget]
  -- the bump of this job is the first exception
  | bumpDelayedJob p =>
    by_cases hid : p.id = id
    · exact .inl ⟨p, rfl, hid⟩
    · refine .inr (.inr ⟨j, t, ?_, hlock, hle⟩)
      simp only [perform]
      split
      · exact hget
      · rename_i old hold
        have hkey : old.id = p.id := Table.key_of_get? hold
        show (s.delayedJobs.set (old.bumped p)).get? id = some j
        have hne : id ≠ DelayedJob.id (old.bumped p) := fun heq => hid (hkey.symm.trans heq.symm)
        rw [Table.get?_set, if_neg hne, hget]
  | _ => exact .inr (.inr ⟨j, t, hget, hlock, hle⟩)

/-- A rejected call took effect or did nothing. -/
theorem leased_serve (op : Call) (c : Choice) (h : s.Leased id bound) :
    op.Bumps id ∨ (op = .deleteDelayedJob id ∧ (serve op c s).2.delayedJobs.get? id = none) ∨
      (serve op c s).2.Leased id bound := by
  rcases serve_state op c s with heq | heq <;> rw [heq]
  · exact leased_perform op c h
  · exact .inr (.inr h)

/-- A job that is not stored stays away, or the call creates it. -/
theorem absent_serve (op : Call) (c : Choice) (h : s.delayedJobs.get? id = none) :
    op.CreatesJob id ∨ (serve op c s).2.delayedJobs.get? id = none := by
  by_cases hcreate : op.CreatesJob id
  · exact .inl hcreate
  · refine .inr ?_
    rw [Table.get?_eq_none_iff, List.mem_map]
    rintro ⟨j, hj, hid⟩
    -- a stored job was stored before, or the call creates it
    have hold : ∀ k ∈ s.delayedJobs.rows, k.id ≠ id := by
      intro k hk heq
      rw [Table.get?_eq_none_iff] at h
      exact h (heq ▸ List.mem_map_of_mem hk)
    cases jobAfter_serve hj with
    | kept hmem => exact hold j hmem hid
    | leased now lockTtlMs hmem => exact hold _ hmem hid
    | created => exact hcreate ⟨j, rfl, hid⟩
    | bumped p hget => exact hold _ (Table.mem_of_get? hget) hid

end Lease

/-! ## A sequence of calls -/

/-- The job was put back. -/
def BumpedIn (id : String) (ms : List CallMove) : Prop :=
  ∃ m ∈ ms, m.label.1.Bumps id

/-- The job was deleted, and created again after that (the newest call comes first). -/
def RecreatedIn (id : String) (ms : List CallMove) : Prop :=
  ∃ created deleted : CallMove, [created, deleted].Sublist ms ∧
    created.label.1.CreatesJob id ∧ deleted.label.1 = .deleteDelayedJob id

/-- Until it is bumped, or deleted and created again, a leased job keeps its lease or is
    deleted. -/
theorem leased_run {s s' : Store} {ms : List CallMove} (run : Run callStep s ms s') {id : String}
    {bound : Time} (h : s.Leased id bound) :
    BumpedIn id ms ∨ RecreatedIn id ms ∨ s'.Leased id bound ∨
      (s'.delayedJobs.get? id = none ∧ ∃ m ∈ ms, m.label.1 = .deleteDelayedJob id) := by
  -- induction on the run: the lease holds, or something has ended it
  induction run with
  | nil => exact .inr (.inr (.inl h))
  | @cons ms t u a run hstep ih =>
    cases hstep
    -- one case for what has happened so far, and one for the last call
    rcases ih with ⟨m, hm, hbump⟩ | ⟨created, deleted, hsub, hboth⟩ | hlease | ⟨hnone, m, hm, hdel⟩
    · exact .inl ⟨m, List.mem_cons_of_mem _ hm, hbump⟩
    · exact .inr (.inl ⟨created, deleted, hsub.trans (List.sublist_cons_self _ _), hboth⟩)
    · rcases leased_serve a.1 a.2 hlease with hbump | ⟨hdel, hnone⟩ | hlease
      · exact .inl ⟨_, List.mem_cons_self, hbump⟩
      · exact .inr (.inr (.inr ⟨hnone, _, List.mem_cons_self, hdel⟩))
      · exact .inr (.inr (.inl hlease))
    -- the job was deleted; it is created again, or stays away
    · rcases absent_serve a.1 a.2 hnone with hcreate | hnone
      · have hsub : [m].Sublist ms := List.singleton_sublist.mpr hm
        exact .inr (.inl ⟨_, m, hsub.cons_cons _, hcreate, hdel⟩)
      · exact .inr (.inr (.inr ⟨hnone, m, List.mem_cons_of_mem _ hm, hdel⟩))

/-! ## One job for a transaction -/

/-- A job as the tick creates it: its identifier is made from the hash in its payload. -/
def DelayedJob.ForTx (txHash : String) (j : DelayedJob) : Prop :=
  j.payloadTxHash = some txHash ∧ j.id = xrplTxPolicyJobId txHash

/-- A call that creates a job creates one for a transaction. -/
def Call.CreatesForTx : Call → Prop
  | .createDelayedJobIfAbsent job => ∃ txHash, job.ForTx txHash
  | _ => True

theorem forTx_serve {s : Store} {op : Call} {c : Choice} (hop : op.CreatesForTx)
    (hs : ∀ j ∈ s.delayedJobs.rows, ∃ txHash, j.ForTx txHash) :
    ∀ j ∈ (serve op c s).2.delayedJobs.rows, ∃ txHash, j.ForTx txHash := by
  intro j hj
  cases jobAfter_serve hj with
  | kept hmem => exact hs j hmem
  | @leased _ old now lockTtlMs hmem => exact hs old hmem
  | created => exact hop
  | @bumped p old hget => exact hs old (Table.mem_of_get? hget)

theorem forTx_run {s s' : Store} {ms : List CallMove} (run : Run callStep s ms s')
    (hstart : ∀ j ∈ s.delayedJobs.rows, ∃ txHash, j.ForTx txHash)
    (hcreated : ∀ m ∈ ms, m.label.1.CreatesForTx) :
    ∀ j ∈ s'.delayedJobs.rows, ∃ txHash, j.ForTx txHash := by
  refine run.invariant (P := fun s => ∀ j ∈ s.delayedJobs.rows, ∃ txHash, j.ForTx txHash) hcreated
    hstart fun m hstep hm hs => ?_
  rw [← Option.some.inj hstep]
  exact forTx_serve hm hs

/-- Two jobs for one transaction are the same job. -/
theorem eq_of_forTx {s : Store} (h : ∀ j ∈ s.delayedJobs.rows, ∃ txHash, j.ForTx txHash)
    {j k : DelayedJob} (hj : j ∈ s.delayedJobs.rows) (hk : k ∈ s.delayedJobs.rows)
    (heq : j.payloadTxHash = k.payloadTxHash) : j = k := by
  obtain ⟨h₁, hpay₁, hid₁⟩ := h j hj
  obtain ⟨h₂, hpay₂, hid₂⟩ := h k hk
  have hhash : h₁ = h₂ := Option.some.inj (hpay₁.symm.trans (heq.trans hpay₂))
  have hid : j.id = k.id := by rw [hid₁, hid₂, hhash]
  have hgetj := Table.get?_of_mem hj
  rw [hid, Table.get?_of_mem hk] at hgetj
  exact (Option.some.inj hgetj).symm

/-! ## The claim -/

/-- After any sequence of calls, rejected ones among them: no two jobs are for one transaction,
    a claim hands out the earliest due jobs that are not leased, and a job that was handed out
    before is not handed out again until its lease ends, unless it was bumped, or deleted and
    created again. -/
theorem job_leases_exclude {s s' : Store} {ms : List CallMove} (run : Run callStep s ms s') :
    ((∀ j ∈ s.delayedJobs.rows, ∃ txHash, j.ForTx txHash) →
        (∀ m ∈ ms, m.label.1.CreatesForTx) →
      ∀ j ∈ s'.delayedJobs.rows, ∀ k ∈ s'.delayedJobs.rows, j.payloadTxHash = k.payloadTxHash →
        j = k) ∧
    (∀ kind now limit lockTtlMs c jobs,
        (serve (.claimDueDelayedJobs kind now limit lockTtlMs) c s').1 = .ok jobs →
      s'.HandsOut kind now limit lockTtlMs jobs) ∧
    (∀ kind₁ t₁ limit₁ lockTtlMs c₁ s₀ jobs₁ kind₂ t₂ limit₂ lockTtlMs₂ c₂ jobs₂,
        serve (.claimDueDelayedJobs kind₁ t₁ limit₁ lockTtlMs) c₁ s₀ = (.ok jobs₁, s) →
        (serve (.claimDueDelayedJobs kind₂ t₂ limit₂ lockTtlMs₂) c₂ s').1 = .ok jobs₂ →
        t₂ < t₁ + lockTtlMs →
      ∀ job₁ ∈ jobs₁, ∀ job₂ ∈ jobs₂, job₁.id = job₂.id →
        BumpedIn job₁.id ms ∨ RecreatedIn job₁.id ms) := by
  -- the three parts of the claim, in their order
  refine ⟨?_, ?_, ?_⟩
  · intro hstart hcreated j hj k hk heq
    exact eq_of_forTx (forTx_run run hstart hcreated) hj hk heq
  · intro kind now limit lockTtlMs c jobs hans
    rw [← answer_of_serve hans]
    exact claim_exact c
  · intro kind₁ t₁ limit₁ lockTtlMs c₁ s₀ jobs₁ kind₂ t₂ limit₂ lockTtlMs₂ c₂ jobs₂ hfirst hsecond
      hlt job₁ hjob₁ job₂ hjob₂ hid
    have hans : (serve (.claimDueDelayedJobs kind₁ t₁ limit₁ lockTtlMs) c₁ s₀).1 = .ok jobs₁ := by
      rw [hfirst]
    rw [serve_performed (failure_of_serve hans)] at hfirst
    -- the first claim leaves its lease behind
    have hlease : s.Leased job₁.id (t₁ + lockTtlMs) := by
      rw [Prod.mk.injEq, Except.ok.injEq] at hfirst
      rw [← hfirst.2]
      exact leased_claim (by rw [hfirst.1]; exact hjob₁)
    rw [← answer_of_serve hsecond] at hjob₂
    -- the second hands the job out, so the lease was ended or is over
    rcases leased_run run hlease with hbump | hagain | hlease | ⟨hnone, -⟩
    · exact .inl hbump
    · exact .inr hagain
    · have hended := not_leased_of_handed_out hjob₂ (hid ▸ hlease)
      exact absurd hlt (Nat.not_lt.mpr hended)
    · -- a job that is not stored is not handed out
      obtain ⟨j, hj, -, rfl⟩ := (claim_exact c₂).due job₂ hjob₂
      have hget : s'.delayedJobs.get? job₁.id = some j := by
        rw [hid]
        exact Table.get?_of_mem hj
      rw [hnone] at hget
      cases hget

/-- The job of one pending transaction. -/
def jobStore : Store :=
  { Store.empty with delayedJobs := Table.empty.set (policyJob "AB12CD34" 0) }

/-- A claim of a tick whose leases last 100 ms. -/
abbrev sampleClaim (now : Time) : Call :=
  .claimDueDelayedJobs policyJobKind now 10 100

/-- The job is claimed at 0 and again at 60, with a rejected deletion in between; the lease holds
    at 99. -/
theorem job_leases_exclude_claimed :
    ∃ (s s' : Store) (ms : List CallMove), Run callStep s ms s' ∧ ms.length = 2 ∧
      (perform (sampleClaim 0) {} jobStore).1.map DelayedJob.id = ["xrpl_policy:AB12CD34"] ∧
      s = (perform (sampleClaim 0) {} jobStore).2 ∧
      (∀ j ∈ s'.delayedJobs.rows, ∀ k ∈ s'.delayedJobs.rows, j.payloadTxHash = k.payloadTxHash →
        j = k) ∧
      ∀ job : DelayedJob, job ∈ (perform (sampleClaim 99) {} s').1 → job.id ≠ "xrpl_policy:AB12CD34" := by
  let s := (perform (sampleClaim 0) {} jobStore).2
  have hdel : callStep s (.deleteDelayedJob "xrpl_policy:AB12CD34", { failure := some "timeout" }) =
      some s := rfl
  have run := (Run.nil.cons hdel).cons (a := (sampleClaim 60, {})) rfl
  obtain ⟨hone, -, hexcl⟩ := job_leases_exclude run
  refine ⟨s, _, _, run, rfl, by decide +kernel, rfl, hone ?_ ?_, fun job hjob hid => ?_⟩
  · intro j hj
    have hrow : j = (policyJob "AB12CD34" 0).leased 0 100 := List.mem_singleton.mp hj
    exact ⟨"AB12CD34", by rw [hrow]; exact ⟨rfl, rfl⟩⟩
  · intro m hm
    rcases List.mem_cons.mp hm with rfl | hm
    · trivial
    · rw [List.mem_singleton.mp hm]
      trivial
  -- the claim of the sample is an instance: the lease ends at its bound
  · have hfirst : (policyJob "AB12CD34" 0).leased 0 100 ∈ (perform (sampleClaim 0) {} jobStore).1 :=
      List.mem_singleton.mpr rfl
    rcases hexcl _ 0 10 100 {} jobStore _ _ 99 10 100 {} _ rfl rfl (by decide) _ hfirst job hjob
      hid.symm with ⟨m, hm, p, hbump, -⟩ | ⟨created, deleted, hsub, ⟨j, hcreate, -⟩, -⟩
    · rcases List.mem_cons.mp hm with rfl | hm
      · cases hbump
      · rw [List.mem_singleton.mp hm] at hbump
        cases hbump
    · rcases List.mem_cons.mp (hsub.subset List.mem_cons_self) with rfl | hm
      · cases hcreate
      · rw [List.mem_singleton.mp hm] at hcreate
        cases hcreate

end Bluesafe.Ops
