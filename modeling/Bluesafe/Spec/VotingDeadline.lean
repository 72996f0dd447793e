import Bluesafe.Spec.JudgmentExclusive

/-!
# The voting deadline

A dispute is submitted with a deadline, before which `computeRuling` wants a majority and from which
a plurality will do. `collectVote` never looks at it. As long as nobody casts a vote from the
deadline on that `collectVote` would record, the votes stay as they are and every later time gives
the same ruling.
-/

namespace Bluesafe.Judge

open Async Transition

/-! ## Late votes -/

/-- The dispute and the verifier of the vote that thread `i` is about to cast. -/
def castBy (P : JudgePool) (i : Nat) : Option (String × String) :=
  match P.threads[i]? with
  | some ⟨_, _, .await (.collectVote disputeId verifier _) _⟩ => some (disputeId, verifier)
  | _ => none

/-- The dispute on which a vote of the verifier counts: it is open, and the verifier is on the panel
and has not voted. -/
def countsFor (s : Memory) (disputeId verifier : String) : Option DisputeSubmission :=
  match requireOpen s disputeId with
  | .error _ => none
  | .ok (_, d) =>
    if d.panel.contains verifier && (d.votes.lookup verifier).isNone then some d else none

/-- A vote that counts is cast from the deadline of its dispute on. -/
def lateVote (m : Move JudgePool (Act Request Choice)) : Bool :=
  match m.label with
  | .spawn _ => false
  | .advance i c =>
    (castBy m.before i).any fun vote =>
      (countsFor m.before.store vote.1 vote.2).any fun d => decide (d.votingDeadlineUnix ≤ c.nowUnix)

/-- The label is no call before `deadline`. -/
def From (deadline : Nat) : Act Request Choice → Prop
  | .spawn _ => True
  | .advance _ c => deadline ≤ c.nowUnix

instance (deadline : Nat) : DecidablePred (From deadline) := fun a => by
  cases a with
  | spawn req => exact instDecidableTrue
  | advance i c => exact inferInstanceAs (Decidable (_ ≤ _))

/-! ## What a call does to the votes -/

/-- The dispute keeps what a ruling is computed from. -/
def SameBox (d d' : DisputeSubmission) : Prop :=
  d'.votes = d.votes ∧ d'.panel = d.panel ∧ d'.votingDeadlineUnix = d.votingDeadlineUnix

theorem SameBox.refl (d : DisputeSubmission) : SameBox d d := ⟨rfl, rfl, rfl⟩

theorem SameBox.trans {d d' d'' : DisputeSubmission} (h : SameBox d d') (h' : SameBox d' d'') :
    SameBox d d'' :=
  ⟨h'.1.trans h.1, h'.2.1.trans h.2.1, h'.2.2.trans h.2.2⟩

/-- The ruling depends on the votes, the panel and the deadline. -/
theorem SameBox.computeRuling {d d' : DisputeSubmission} (h : SameBox d d') (nowUnix : Nat) :
    computeRuling d' nowUnix = computeRuling d nowUnix := by
  obtain ⟨hvotes, hpanel, hdeadline⟩ := h
  unfold Judge.computeRuling countVotes
  rw [hvotes, hpanel, hdeadline]

/-- From the deadline on the ruling does not depend on the time. -/
theorem computeRuling_from {d : DisputeSubmission} {t t' : Nat} (h : d.votingDeadlineUnix ≤ t)
    (h' : d.votingDeadlineUnix ≤ t') : computeRuling d t = computeRuling d t' := by
  unfold computeRuling
  dsimp only
  rw [if_neg (not_lt.mpr h), if_neg (not_lt.mpr h')]

/-- The dispute at `ref` is still there, with the same votes. -/
def Memory.KeepsBox (s s' : Memory) (ref : Nat) : Prop :=
  ∀ d, s.objects[ref]? = some d → ∃ d', s'.objects[ref]? = some d' ∧ SameBox d d'

theorem Memory.KeepsBox.of_objects {s s' : Memory} {ref : Nat} (h : s'.objects = s.objects) :
    s.KeepsBox s' ref := by
  intro d hd
  exact ⟨d, h ▸ hd, .refl d⟩

theorem Memory.keepsBox_update {s : Memory} {ref i : Nat} {f : DisputeSubmission → DisputeSubmission}
    (h : i = ref → ∀ d, s.objects[ref]? = some d → SameBox d (f d)) : s.KeepsBox (s.update i f) ref := by
  intro d hd
  simp only [Memory.update, List.getElem?_modify, hd, Option.map_eq_map, Option.map_some]
  by_cases hi : i = ref
  · rw [if_pos hi]
    exact ⟨f d, rfl, h hi d hd⟩
  · rw [if_neg hi]
    exact ⟨d, rfl, .refl d⟩

/-- A vote that is recorded counts for its dispute. -/
theorem collectVote_counts {s s' : Memory} {disputeId verifier : String} {ruling : DisputeRuling}
    (h : collectVote s disputeId verifier ruling = .ok s') :
    ∃ ref d, s.objects[ref]? = some d ∧ countsFor s disputeId verifier = some d ∧
      s'.objects = (s.update ref fun d =>
        { d with votes := d.votes ++ [(verifier, ruling)] }).objects := by
  obtain ⟨ref, d, hopen, hpanel, hobjects, -⟩ := collectVote_ok h
  refine ⟨ref, d, (requireOpen_ok hopen).1, ?_, hobjects⟩
  unfold collectVote at h
  unfold countsFor
  rw [hopen] at h ⊢
  simp only [bind, Except.bind] at h
  split at h
  · cases h
  · split at h
    · cases h
    · rename_i hvoted
      -- the second check of `collectVote` is that there is no vote yet
      have hfresh : (d.votes.lookup verifier).isNone = true := by
        cases hlookup : d.votes.lookup verifier with
        | none => rfl
        | some earlier => exact absurd (by rw [hlookup]; rfl) hvoted
      dsimp only
      rw [if_pos (by rw [hfresh, Bool.and_true]; exact List.contains_iff_mem.mpr hpanel)]

/-- A call keeps the votes of a dispute, unless it casts a vote that counts for it. -/
theorem serve_keepsBox {op : Call} (c : Choice) (s : Memory) {ref : Nat}
    (hvote : ∀ disputeId verifier ruling, op = .collectVote disputeId verifier ruling →
      ∀ d, s.objects[ref]? = some d → countsFor s disputeId verifier ≠ some d) :
    s.KeepsBox (serve op c s).2 ref := by
  have hrefl : s.KeepsBox s ref := .of_objects rfl
  cases op with
  | registerVerifier v =>
    refine settled_snd (Q := fun s' => s.KeepsBox s' ref) hrefl fun s' h => .of_objects ?_
    unfold registerVerifier at h
    split at h
    · cases h
    · cases h
      rfl
  | deactivateVerifier address =>
    refine settled_snd (Q := fun s' => s.KeepsBox s' ref) hrefl fun s' h => .of_objects ?_
    unfold deactivateVerifier at h
    split at h
    · cases h
      rfl
    · cases h
  | submitDispute args =>
    refine settledWith_snd (Q := fun s' => s.KeepsBox s' ref) hrefl fun _ s' h => ?_
    obtain ⟨panel, -, -, rfl⟩ := submitDispute_cases h
    intro d hd
    have hlt : ref < s.objects.length := (List.getElem?_eq_some_iff.mp hd).1
    exact ⟨d, by rw [List.getElem?_append_left hlt]; exact hd, .refl d⟩
  | collectVote disputeId verifier ruling =>
    refine settled_snd (Q := fun s' => s.KeepsBox s' ref) hrefl fun s' h => ?_
    obtain ⟨i, d, hd, hcounts, hobjects⟩ := collectVote_counts h
    -- the vote may be for another dispute of the heap
    have hupdate := @Memory.keepsBox_update s ref i
      (fun d => { d with votes := d.votes ++ [(verifier, ruling)] }) (by
        rintro rfl d' hd'
        rw [hd, Option.some.injEq] at hd'
        rw [hd'] at hcounts hd
        exact absurd hcounts (hvote _ _ _ rfl d' hd))
    intro d' hd'
    rw [hobjects]
    exact hupdate d' hd'
  | withdrawDispute disputeId claimant =>
    refine settled_snd (Q := fun s' => s.KeepsBox s' ref) hrefl fun s' h => ?_
    obtain ⟨i, d, -, rfl⟩ := withdrawDispute_ok h
    exact Memory.keepsBox_update fun _ _ _ => ⟨rfl, rfl, rfl⟩
  | openJudgment disputeId =>
    refine settledWith_snd (Q := fun s' => s.KeepsBox s' ref) hrefl fun o s' h => ?_
    obtain ⟨-, -, -, rfl⟩ := openJudgment_ok h
    exact Memory.keepsBox_update fun _ _ _ => ⟨rfl, rfl, rfl⟩
  | pushHash i res =>
    show s.KeepsBox (pushHash s i res) ref
    unfold pushHash
    split
    · exact hrefl
    · exact Memory.keepsBox_update fun _ _ _ => ⟨rfl, rfl, rfl⟩
  | trackAccuracy i ruling => exact .of_objects (trackAccuracy_frame s i ruling).1
  | autofill tx =>
    simp only [serve]
    split
    · exact hrefl
    · exact hrefl
  | submitAndWait tx =>
    -- the ledger is not part of the heap
    refine .of_objects ?_
    simp only [serve]
    split <;> dsimp only <;> split <;> rfl

/-! ## Runs -/

/-- A step from the deadline on keeps the votes of the dispute, unless it casts a late vote. -/
theorem step_keepsBox {config : Config} {m : Move JudgePool (Act Request Choice)}
    (hstep : judgeStep config m.before m.label = some m.after) (hlate : lateVote m = false)
    {ref : Nat} {d : DisputeSubmission} (hd : m.before.store.objects[ref]? = some d)
    (hfrom : From d.votingDeadlineUnix m.label) :
    ∃ d', m.after.store.objects[ref]? = some d' ∧ SameBox d d' := by
  obtain ⟨before, label, after⟩ := m
  dsimp only at hstep hd hfrom ⊢
  obtain ⟨req, rfl, rfl⟩ | ⟨i, c, th, op, k, rfl, hth, hprog, -, rfl⟩ := poolStep_cases hstep
  · exact ⟨d, hd, .refl d⟩
  · refine @serve_keepsBox op c before.store ref ?_ d hd
    rintro disputeId verifier ruling rfl d' hd' hcounts
    rw [hd, Option.some.injEq] at hd'
    subst hd'
    -- the thread waits for this vote, so it is the one the move casts
    have hcast : castBy before i = some (disputeId, verifier) := by
      obtain ⟨req, log, prog⟩ := th
      dsimp only at hprog
      unfold castBy
      rw [hth, hprog]
    unfold lateVote at hlate
    dsimp only at hlate
    rw [hcast, Option.any_some, hcounts, Option.any_some] at hlate
    exact absurd hfrom (of_decide_eq_false hlate)

/-- From the deadline on the votes of the dispute are kept by every run without late votes. -/
theorem run_keepsBox {config : Config} {P P' : JudgePool}
    {ms : List (Move JudgePool (Act Request Choice))} (run : Run (judgeStep config) P ms P')
    (hlate : ∀ m ∈ ms, lateVote m = false) {ref : Nat} {d : DisputeSubmission}
    (hd : P.store.objects[ref]? = some d) (hfrom : ∀ m ∈ ms, From d.votingDeadlineUnix m.label) :
    ∃ d', P'.store.objects[ref]? = some d' ∧ SameBox d d' := by
  refine run.invariant (P := fun P => ∃ d', P.store.objects[ref]? = some d' ∧ SameBox d d')
    (C := fun m => lateVote m = false ∧ From d.votingDeadlineUnix m.label)
    (fun m hm => ⟨hlate m hm, hfrom m hm⟩) ⟨d, hd, .refl d⟩ ?_
  rintro m hstep ⟨hlate, hfrom⟩ ⟨d', hd', hsame⟩
  -- the deadline of the dispute has not moved
  rw [← hsame.2.2] at hfrom
  obtain ⟨d'', hd'', hsame'⟩ := step_keepsBox hstep hlate hd' hfrom
  exact ⟨d'', hd'', hsame.trans hsame'⟩

/-- In every run without late votes: no call from the deadline of a dispute on changes its votes, and
if all calls between two states are made from the deadline on, all times from the deadline on give
the same ruling in both. -/
theorem votes_close (config : Config) (s₀ : Memory)
    {ms₁ ms₂ : List (Move JudgePool (Act Request Choice))} {P₁ P₂ : JudgePool}
    (run₁ : Run (judgeStep config) ⟨s₀, []⟩ ms₁ P₁) (run₂ : Run (judgeStep config) P₁ ms₂ P₂)
    (hlate : ∀ m ∈ ms₂ ++ ms₁, lateVote m = false) :
    (∀ m ∈ ms₂ ++ ms₁, ∀ (ref : Nat) d, m.before.store.objects[ref]? = some d →
      From d.votingDeadlineUnix m.label →
        ∃ d', m.after.store.objects[ref]? = some d' ∧ d'.votes = d.votes) ∧
    ∀ (ref : Nat) d₁, P₁.store.objects[ref]? = some d₁ →
      (∀ m ∈ ms₂, From d₁.votingDeadlineUnix m.label) →
        ∃ d₂, P₂.store.objects[ref]? = some d₂ ∧ ∀ t₁ t₂, d₁.votingDeadlineUnix ≤ t₁ →
          d₁.votingDeadlineUnix ≤ t₂ → computeRuling d₁ t₁ = computeRuling d₂ t₂ := by
  constructor
  · intro m hm ref d hd hfrom
    have hstep : judgeStep config m.before m.label = some m.after := by
      rcases List.mem_append.mp hm with hm | hm
      · exact run₂.step_of_mem hm
      · exact run₁.step_of_mem hm
    obtain ⟨d', hd', hsame⟩ := step_keepsBox hstep (hlate m hm) hd hfrom
    exact ⟨d', hd', hsame.1⟩
  · intro ref d₁ hd₁ hfrom
    obtain ⟨d₂, hd₂, hsame⟩ := run_keepsBox run₂
      (fun m hm => hlate m (List.mem_append_left _ hm)) hd₁ hfrom
    refine ⟨d₂, hd₂, fun t₁ t₂ h₁ h₂ => ?_⟩
    rw [hsame.computeRuling]
    exact computeRuling_from h₁ h₂

/-! ## Two runs past the deadline -/

/-- A panel of two, of whom the first votes twice and the second once. -/
def twoVerifiers : List Request :=
  [.registerVerifier { address := "rFirst" }, .registerVerifier { address := "rSecond" },
    .submitDispute { claimant := "rTenant", evidenceHashHex := "", disputeMeta := sampleMeta none,
                     panelSelection := some { panelSize := some 2 } },
    .collectVote "d1" "rFirst" .tenantWins, .collectVote "d1" "rFirst" .landlordWins,
    .collectVote "d1" "rSecond" .landlordWins]

/-- Before the deadline, at 604800, the first has voted. -/
def votedInTime : List (Act Request Choice) :=
  twoVerifiers.map Act.spawn ++
    [.advance 0 {}, .advance 1 {}, .advance 2 { id := "d1" }, .advance 3 { nowUnix := 100 }]

/-- The ruling on the dispute at position 0 at some time. -/
def rulingAt (P : JudgePool) (nowUnix : Nat) : Option DisputeRuling :=
  P.store.objects[0]?.bind fun d => (computeRuling d nowUnix).toOption

/-- The dispute at position 0 is open, with this deadline. -/
def openUntil (P : JudgePool) (deadline : Nat) : Bool :=
  P.store.objects[0]?.any fun d => !d.withdrawn && d.ruling.isNone && d.votingDeadlineUnix = deadline

/-- What is expected of the calls `as` past the deadline: the ruling before and after them, and whether
they are late votes. -/
def expects (as : List (Act Request Choice)) (before after : DisputeRuling) (late : Bool)
    (P : JudgePool) : Bool :=
  openUntil P 604800 && decide (rulingAt P 700000 = some before) &&
    (replay (judgeStep sampleConfig) P as []).any fun r =>
      openUntil r.2 604800 && decide (rulingAt r.2 700000 = some after) &&
        r.1.all fun m => decide (From 604800 m.label) && lateVote m == late

theorem exists_runs_of_expects {as : List (Act Request Choice)} {before after : DisputeRuling}
    {late : Bool} {P₁ : JudgePool} (h : expects as before after late P₁ = true) :
    openUntil P₁ 604800 = true ∧ rulingAt P₁ 700000 = some before ∧
      ∃ ms₂ P₂, Run (judgeStep sampleConfig) P₁ ms₂ P₂ ∧ ms₂.map Move.label = as.reverse ∧
        openUntil P₂ 604800 = true ∧ rulingAt P₂ 700000 = some after ∧
          ∀ m ∈ ms₂, From 604800 m.label ∧ lateVote m = late := by
  simp only [expects, Bool.and_eq_true, decide_eq_true_eq] at h
  obtain ⟨⟨hopen₁, hruling₁⟩, h⟩ := h
  obtain ⟨ms₂, P₂, run₂, hlabels, h⟩ := exists_run_of_replay_labels as _ h
  simp only [Bool.and_eq_true, decide_eq_true_eq, List.all_eq_true, beq_iff_eq] at h
  obtain ⟨⟨hopen₂, hruling₂⟩, hmoves⟩ := h
  exact ⟨hopen₁, hruling₁, ms₂, P₂, run₂, hlabels, hopen₂, hruling₂, hmoves⟩

/-- The vote of the second verifier is recorded past the deadline. The ruling was for the tenant, and
is the tie after it. -/
theorem late_vote_recorded : ∃ ms₁ P₁ ms₂ P₂,
    Run (judgeStep sampleConfig) ⟨Memory.empty, []⟩ ms₁ P₁ ∧ Run (judgeStep sampleConfig) P₁ ms₂ P₂ ∧
      openUntil P₁ 604800 = true ∧ openUntil P₂ 604800 = true ∧
      (∀ m ∈ ms₂, From 604800 m.label ∧ lateVote m = true) ∧
      rulingAt P₁ 700000 = some .tenantWins ∧ rulingAt P₂ 700000 = some .systemFault := by
  obtain ⟨ms₁, P₁, run₁, h⟩ := exists_run_of_replay votedInTime
    (fun r => expects [.advance 5 { nowUnix := 700000 }] .tenantWins .systemFault true r.2)
    (by decide +kernel : (replay (judgeStep sampleConfig) ⟨Memory.empty, []⟩ _ []).any _ = true)
  obtain ⟨hopen₁, hruling₁, ms₂, P₂, run₂, -, hopen₂, hruling₂, hmoves⟩ := exists_runs_of_expects h
  exact ⟨ms₁, P₁, ms₂, P₂, run₁, run₂, hopen₁, hopen₂, hmoves, hruling₁, hruling₂⟩

/-- The second vote of the first verifier is refused past the deadline, and the ruling stays. -/
theorem votes_close_refused : ∃ ms₁ P₁ ms₂ P₂,
    Run (judgeStep sampleConfig) ⟨Memory.empty, []⟩ ms₁ P₁ ∧ Run (judgeStep sampleConfig) P₁ ms₂ P₂ ∧
      ms₂ ≠ [] ∧ rulingAt P₁ 700000 = some .tenantWins ∧
      ∃ d₁ d₂, P₁.store.objects[0]? = some d₁ ∧ P₂.store.objects[0]? = some d₂ ∧
        computeRuling d₁ 700000 = computeRuling d₂ 800000 := by
  obtain ⟨ms₁, P₁, run₁, h⟩ := exists_run_of_replay votedInTime
    (fun r => expects [.advance 4 { nowUnix := 700000 }] .tenantWins .tenantWins false r.2 &&
      r.1.all fun m => lateVote m == false)
    (by decide +kernel : (replay (judgeStep sampleConfig) ⟨Memory.empty, []⟩ _ []).any _ = true)
  simp only [Bool.and_eq_true, List.all_eq_true, beq_iff_eq] at h
  obtain ⟨h, hlate₁⟩ := h
  obtain ⟨hopen₁, hruling₁, ms₂, P₂, run₂, hlabels, -, -, hmoves⟩ := exists_runs_of_expects h
  have hlate : ∀ m ∈ ms₂ ++ ms₁, lateVote m = false := by
    intro m hm
    rcases List.mem_append.mp hm with hm | hm
    · exact (hmoves m hm).2
    · exact hlate₁ m hm
  obtain ⟨d₁, hd₁, hopen₁⟩ := (Option.any_eq_true _ _).mp hopen₁
  simp only [Bool.and_eq_true, decide_eq_true_eq] at hopen₁
  obtain ⟨d₂, hd₂, hrulings⟩ :=
    (votes_close sampleConfig Memory.empty run₁ run₂ hlate).2 0 d₁ hd₁ fun m hm => by
      rw [hopen₁.2]
      exact (hmoves m hm).1
  refine ⟨ms₁, P₁, ms₂, P₂, run₁, run₂, ?_, hruling₁, d₁, d₂, hd₁, hd₂, hrulings _ _ ?_ ?_⟩
  · rintro rfl
    cases hlabels
  · omega
  · omega

end Bluesafe.Judge
