import Bluesafe.ForStd.Except
import Bluesafe.ForStd.Poll
import Bluesafe.Spec.VotingDeadline

/-!
# Majorities

The votes that `collectVote` accepts are a ballot of the panel (`collectVotes_iff`), whichever way
they are ordered, and `computeRuling` only counts them. What holds of ballots gives the rest: one
ruling at most has a majority, it keeps it, and a tie for the top leaves none.
-/

namespace Bluesafe.Judge

open Bluesafe.Poll

/-- A sequence of votes on one dispute. -/
def collectVotes (s : Memory) (disputeId : String) :
    List (String × DisputeRuling) → Except String Memory
  | [] => .ok s
  | vote :: votes => do
    let s' ← collectVote s disputeId vote.1 vote.2
    collectVotes s' disputeId votes

/-- The dispute with these votes after its own. -/
def DisputeSubmission.withVotes (d : DisputeSubmission) (votes : List (String × DisputeRuling)) :
    DisputeSubmission :=
  { d with votes := d.votes ++ votes }

/-! ## Votes that are accepted -/

/-- A dispute that is changed is found with its change. -/
theorem getDispute_update {s : Memory} {id : String} {ref : Nat} {d : DisputeSubmission}
    (h : s.getDispute id = some (ref, d)) (f : DisputeSubmission → DisputeSubmission) :
    (s.update ref f).getDispute id = some (ref, f d) := by
  simp only [Memory.getDispute, Option.bind_eq_bind, Option.bind_eq_some_iff, Option.pure_def,
    Option.some.injEq, Prod.mk.injEq] at h ⊢
  obtain ⟨ref', hlookup, d', hd, rfl, rfl⟩ := h
  exact ⟨ref', hlookup, f d', by simp [Memory.update, hd], rfl, rfl⟩

/-- The object that is open. -/
theorem requireOpen_eq_iff {s : Memory} {id : String} {ref : Nat} {d : DisputeSubmission} :
    requireOpen s id = .ok (ref, d) ↔
      s.getDispute id = some (ref, d) ∧ d.withdrawn = false ∧ d.ruling = none := by
  unfold requireOpen
  constructor
  · intro h
    split at h
    · cases h
    · rename_i ref' d' hget
      split at h
      · cases h
      · rename_i hwithdrawn
        split at h
        · cases h
        · rename_i hruling
          cases h
          exact ⟨hget, by simpa using hwithdrawn, by simpa using hruling⟩
  · rintro ⟨hget, hwithdrawn, hruling⟩
    rw [hget]
    simp [hwithdrawn, hruling]

/-- A verifier has voted when its name is among the votes. -/
theorem lookup_isSome_iff {votes : List (String × DisputeRuling)} {verifier : String} :
    (votes.lookup verifier).isSome = true ↔ verifier ∈ votes.map Prod.fst := by
  rw [List.lookup_isSome_iff, List.mem_map]
  constructor
  · rintro ⟨vote, hvote, heq⟩
    exact ⟨vote, hvote, (beq_iff_eq.mp heq).symm⟩
  · rintro ⟨vote, hvote, rfl⟩
    exact ⟨vote, hvote, beq_self_eq_true _⟩

/-- A vote is accepted iff the votes with it are a ballot. -/
theorem collectVote_iff {s : Memory} {id : String} {ref : Nat} {d : DisputeSubmission}
    (hopen : requireOpen s id = .ok (ref, d)) (hballot : Ballot d.panel d.votes)
    (vote : String × DisputeRuling) :
    (∃ s', collectVote s id vote.1 vote.2 = .ok s') ↔ Ballot d.panel (d.votes ++ [vote]) := by
  rw [ballot_append_singleton_iff, ← lookup_isSome_iff]
  unfold collectVote
  rw [hopen]
  simp only [bind, Except.bind]
  constructor
  · rintro ⟨s', h⟩
    split at h
    · cases h
    · rename_i hpanel
      split at h
      · cases h
      · rename_i hvoted
        exact ⟨hballot, by simpa using hpanel, hvoted⟩
  · rintro ⟨-, hpanel, hvoted⟩
    rw [if_neg (by simpa using hpanel), if_neg hvoted]
    exact ⟨_, rfl⟩

/-- A vote leaves its dispute open. -/
theorem requireOpen_collectVote {s s' : Memory} {id verifier : String} {ruling : DisputeRuling}
    {ref : Nat} {d : DisputeSubmission} (hopen : requireOpen s id = .ok (ref, d))
    (h : collectVote s id verifier ruling = .ok s') :
    requireOpen s' id = .ok (ref, d.withVotes [(verifier, ruling)]) := by
  obtain ⟨hget, hwithdrawn, hruling⟩ := requireOpen_eq_iff.mp hopen
  unfold collectVote at h
  rw [hopen] at h
  simp only [bind, Except.bind] at h
  split at h
  · cases h
  · split at h
    · cases h
    · cases h
      rw [requireOpen_eq_iff]
      exact ⟨getDispute_update hget _, hwithdrawn, hruling⟩

/-- Votes are added in two parts. -/
theorem withVotes_withVotes (d : DisputeSubmission) (votes votes' : List (String × DisputeRuling)) :
    (d.withVotes votes).withVotes votes' = d.withVotes (votes ++ votes') := by
  unfold DisputeSubmission.withVotes
  rw [List.append_assoc]

/-- Many votes leave it open, too. -/
theorem requireOpen_collectVotes {s s' : Memory} {id : String} {ref : Nat} {d : DisputeSubmission}
    (hopen : requireOpen s id = .ok (ref, d)) {votes : List (String × DisputeRuling)}
    (h : collectVotes s id votes = .ok s') : requireOpen s' id = .ok (ref, d.withVotes votes) := by
  induction votes generalizing s d with
  | nil =>
    cases h
    rw [hopen]
    simp [DisputeSubmission.withVotes]
  | cons vote votes ih =>
    obtain ⟨s₁, hvote, h⟩ := Except.exists_of_bind_eq_ok h
    have hrest := ih (requireOpen_collectVote hopen hvote) h
    rw [withVotes_withVotes, List.singleton_append] at hrest
    exact hrest

/-- A sequence of votes is accepted iff all votes together are a ballot. -/
theorem collectVotes_iff {s : Memory} {id : String} {ref : Nat} {d : DisputeSubmission}
    (hopen : requireOpen s id = .ok (ref, d)) (hballot : Ballot d.panel d.votes)
    (votes : List (String × DisputeRuling)) :
    (∃ s', collectVotes s id votes = .ok s') ↔ Ballot d.panel (d.votes ++ votes) := by
  induction votes generalizing s d with
  | nil =>
    rw [List.append_nil]
    exact ⟨fun _ => hballot, fun _ => ⟨s, rfl⟩⟩
  | cons vote votes ih =>
    rw [List.append_cons]
    constructor
    · rintro ⟨s', h⟩
      obtain ⟨s₁, hvote, h⟩ := Except.exists_of_bind_eq_ok h
      -- the votes up to this one are a ballot, and the dispute with them is open
      have hfirst := (collectVote_iff hopen hballot vote).mp ⟨s₁, hvote⟩
      exact (ih (requireOpen_collectVote hopen hvote) hfirst).mp ⟨s', h⟩
    · intro h
      have hfirst : Ballot d.panel (d.votes ++ [vote]) := h.of_append
      obtain ⟨s₁, hvote⟩ := (collectVote_iff hopen hballot vote).mpr hfirst
      obtain ⟨s', hrest⟩ := (ih (requireOpen_collectVote hopen hvote) hfirst).mpr h
      refine ⟨s', ?_⟩
      unfold collectVotes
      rw [hvote]
      exact hrest

/-! ## Rulings -/

/-- The ruling is the side with more than half of the panel. -/
theorem computeRuling_eq (d : DisputeSubmission) (nowUnix : Nat) : computeRuling d nowUnix =
    if d.panel.length / 2 + 1 ≤ count d.votes .tenantWins then .ok .tenantWins
    else if d.panel.length / 2 + 1 ≤ count d.votes .landlordWins then .ok .landlordWins
    else if d.panel.length / 2 + 1 ≤ count d.votes .systemFault then .ok .systemFault
    else if nowUnix < d.votingDeadlineUnix then .error "no majority yet and voting still open"
    else if count d.votes .landlordWins < count d.votes .tenantWins ∧
      count d.votes .systemFault < count d.votes .tenantWins then .ok .tenantWins
    else if count d.votes .tenantWins < count d.votes .landlordWins ∧
      count d.votes .systemFault < count d.votes .landlordWins then .ok .landlordWins
    else .ok .systemFault := rfl

/-- A ruling with a majority is the ruling, at every time. -/
theorem computeRuling_majority {d : DisputeSubmission} (hballot : Ballot d.panel d.votes)
    {ruling : DisputeRuling} (h : Majority d.panel d.votes ruling) (nowUnix : Nat) :
    computeRuling d nowUnix = .ok ruling := by
  -- the branches in front of that of the ruling ask for the majority of another
  have hother : ∀ other, other ≠ ruling → ¬ d.panel.length / 2 + 1 ≤ count d.votes other :=
    fun other hne hmajority => hne (hballot.majority_unique hmajority h)
  have hmajority : d.panel.length / 2 + 1 ≤ count d.votes ruling := h
  rw [computeRuling_eq]
  cases ruling with
  | tenantWins => rw [if_pos hmajority]
  | landlordWins => rw [if_neg (hother .tenantWins (by decide)), if_pos hmajority]
  | systemFault =>
    rw [if_neg (hother .tenantWins (by decide)), if_neg (hother .landlordWins (by decide)), if_pos hmajority]

/-- The order of the votes does not matter. -/
theorem computeRuling_perm (d : DisputeSubmission) {votes votes' : List (String × DisputeRuling)}
    (h : votes.Perm votes') (nowUnix : Nat) :
    computeRuling (d.withVotes votes) nowUnix = computeRuling (d.withVotes votes') nowUnix := by
  have hcount : ∀ ruling, count (d.withVotes votes).votes ruling =
      count (d.withVotes votes').votes ruling := count_perm (h.append_left d.votes)
  rw [computeRuling_eq, computeRuling_eq]
  simp only [hcount]
  rfl

/-- A tie for the top is nobody's fault from the deadline on. -/
theorem computeRuling_tie {d : DisputeSubmission} (hballot : Ballot d.panel d.votes)
    {ruling ruling' : DisputeRuling} (hne : ruling ≠ ruling') (h : Top d.votes ruling)
    (h' : Top d.votes ruling') {nowUnix : Nat} (hdeadline : d.votingDeadlineUnix ≤ nowUnix) :
    computeRuling d nowUnix = .ok .systemFault := by
  have hnone : ∀ other, ¬ d.panel.length / 2 + 1 ≤ count d.votes other :=
    hballot.not_majority_of_tie hne h h'
  -- no ruling has more votes than each of the two
  have hplural : ∀ other, ∃ tied, tied ≠ other ∧ count d.votes other ≤ count d.votes tied := by
    intro other
    by_cases heq : ruling = other
    · exact ⟨ruling', fun heq' => hne (heq.trans heq'.symm), h' other⟩
    · exact ⟨ruling, heq, h other⟩
  have htenant : ¬ (count d.votes .landlordWins < count d.votes .tenantWins ∧
      count d.votes .systemFault < count d.votes .tenantWins) := by
    obtain ⟨tied, htied, hle⟩ := hplural .tenantWins
    cases tied with
    | tenantWins => exact absurd rfl htied
    | landlordWins => omega
    | systemFault => omega
  have hlandlord : ¬ (count d.votes .tenantWins < count d.votes .landlordWins ∧
      count d.votes .systemFault < count d.votes .landlordWins) := by
    obtain ⟨tied, htied, hle⟩ := hplural .landlordWins
    cases tied with
    | tenantWins => omega
    | landlordWins => exact absurd rfl htied
    | systemFault => omega
  rw [computeRuling_eq, if_neg (hnone .tenantWins), if_neg (hnone .landlordWins),
    if_neg (hnone .systemFault), if_neg (not_lt.mpr hdeadline), if_neg htenant, if_neg hlandlord]

/-! ## A dispute from its submission -/

/-- A dispute that is submitted is found. -/
theorem getDispute_submitted (s : Memory) (id : String) (d : DisputeSubmission) :
    ({ s with objects := s.objects ++ [d], disputes := (id, s.objects.length) :: s.disputes } :
      Memory).getDispute id = some (s.objects.length, d) := by
  simp [Memory.getDispute]

/-- A dispute that was submitted is open and has no votes. -/
theorem requireOpen_submitDispute {s s' : Memory} {args : SubmitDisputeArgs} {id : String}
    {nowUnix ref : Nat} {picks : List Nat} (h : submitDispute s args id nowUnix picks = .ok (ref, s')) :
    ∃ d, requireOpen s' id = .ok (ref, d) ∧ d.votes = [] := by
  obtain ⟨panel, -, rfl, rfl⟩ := submitDispute_cases h
  exact ⟨_, requireOpen_eq_iff.mpr ⟨getDispute_submitted s id _, rfl, rfl⟩, rfl⟩

/-- For every dispute and every sequence of votes that is accepted on it: at most one ruling has a
majority; one that has it is the ruling at every time, whatever votes are accepted behind it; every
other order of the votes is accepted as well and gives the same ruling at every time; and a tie for
the top gives `SYSTEM_FAULT` from the deadline on. -/
theorem majority_unique_stable {s s₁ s₂ : Memory} {args : SubmitDisputeArgs} {id : String}
    {nowUnix ref : Nat} {picks : List Nat} {votes : List (String × DisputeRuling)}
    (hsubmit : submitDispute s args id nowUnix picks = .ok (ref, s₁))
    (hvotes : collectVotes s₁ id votes = .ok s₂) :
    ∃ d, requireOpen s₂ id = .ok (ref, d) ∧ d.votes = votes ∧
      (∀ ruling ruling', Majority d.panel votes ruling → Majority d.panel votes ruling' →
        ruling = ruling') ∧
      (∀ ruling, Majority d.panel votes ruling → ∀ further s₃, collectVotes s₂ id further = .ok s₃ →
        ∃ d₃, requireOpen s₃ id = .ok (ref, d₃) ∧ ∀ t, computeRuling d₃ t = .ok ruling) ∧
      (∀ votes', votes.Perm votes' → ∃ s₂' d', collectVotes s₁ id votes' = .ok s₂' ∧
        requireOpen s₂' id = .ok (ref, d') ∧ ∀ t, computeRuling d' t = computeRuling d t) ∧
      ∀ ruling ruling' t, ruling ≠ ruling' → Top votes ruling → Top votes ruling' →
        d.votingDeadlineUnix ≤ t → computeRuling d t = .ok .systemFault := by
  obtain ⟨d₀, hopen₀, hempty⟩ := requireOpen_submitDispute hsubmit
  have hopen := requireOpen_collectVotes hopen₀ hvotes
  have hballot₀ : Ballot d₀.panel d₀.votes := by
    rw [hempty]
    exact Ballot.nil _
  have hballot := (collectVotes_iff hopen₀ hballot₀ votes).mp ⟨s₂, hvotes⟩
  have hown : (d₀.withVotes votes).votes = votes := by
    show d₀.votes ++ votes = votes
    rw [hempty, List.nil_append]
  rw [hempty, List.nil_append] at hballot
  refine ⟨d₀.withVotes votes, hopen, hown, fun _ _ => hballot.majority_unique, ?_, ?_, ?_⟩
  · intro ruling hmajority further s₃ hfurther
    -- the further votes are a ballot with the votes before them
    have hballot' := (collectVotes_iff hopen (by rw [hown]; exact hballot) further).mp ⟨s₃, hfurther⟩
    refine ⟨_, requireOpen_collectVotes hopen hfurther, computeRuling_majority hballot' ?_⟩
    show Majority d₀.panel ((d₀.withVotes votes).votes ++ further) ruling
    rw [hown]
    exact hmajority.append further
  · intro votes' hperm
    -- a permutation of a ballot is a ballot, so this order is accepted as well
    have hballot' : Ballot d₀.panel (d₀.votes ++ votes') := by
      rw [hempty, List.nil_append]
      exact hballot.perm hperm
    obtain ⟨s₂', hvotes'⟩ := (collectVotes_iff hopen₀ hballot₀ votes').mpr hballot'
    exact ⟨s₂', _, hvotes', requireOpen_collectVotes hopen₀ hvotes',
      computeRuling_perm d₀ hperm.symm⟩
  · intro ruling ruling' t hne htop htop' hdeadline
    refine computeRuling_tie ?_ hne ?_ ?_ hdeadline
    · rw [hown]
      exact hballot
    · rw [hown]
      exact htop
    · rw [hown]
      exact htop'

/-- Three verifiers. -/
def threeVerifiers : Memory :=
  { Memory.empty with verifiers := ["rA", "rB", "rC"].map fun a => ⟨a, true, none, none, 0, 0⟩ }

def threeArgs : SubmitDisputeArgs where
  claimant := "rTenant"
  evidenceHashHex := ""
  disputeMeta := sampleMeta none
  panelSelection := some { panelSize := some 3 }

/-- A check of a result holds of the value it has. -/
theorem exists_of_any_toOption {α : Type} {x : Except String α} {p : α → Bool}
    (h : x.toOption.any p = true) : ∃ a, x = .ok a ∧ p a = true := by
  cases x with
  | error e => cases h
  | ok a => exact ⟨a, rfl, h⟩

/-- The three votes are accepted by a panel of three. -/
def threeOutcome (submitted : Nat × Memory) : Bool :=
  (collectVotes submitted.2 "d1" [("rA", .tenantWins), ("rB", .tenantWins)]).toOption.any fun s₂ =>
    ((requireOpen s₂ "d1").toOption.any fun x => decide (x.2.panel.length = 3)) &&
      (collectVotes s₂ "d1" [("rC", .landlordWins)]).toOption.any fun _ => true

/-- Two of three votes are a majority, and the third does not change the ruling. -/
theorem majority_unique_stable_three : ∃ ref s₁ s₂ s₃ d₃,
    submitDispute threeVerifiers threeArgs "d1" 0 [] = .ok (ref, s₁) ∧
      collectVotes s₁ "d1" [("rA", .tenantWins), ("rB", .tenantWins)] = .ok s₂ ∧
      collectVotes s₂ "d1" [("rC", .landlordWins)] = .ok s₃ ∧
      requireOpen s₃ "d1" = .ok (ref, d₃) ∧ ∀ t, computeRuling d₃ t = .ok .tenantWins := by
  obtain ⟨⟨ref, s₁⟩, hsubmit, h⟩ := @exists_of_any_toOption _ _ threeOutcome
    (by decide +kernel : (submitDispute threeVerifiers threeArgs "d1" 0 []).toOption.any _ = true)
  obtain ⟨s₂, hvotes, h⟩ := exists_of_any_toOption h
  rw [Bool.and_eq_true] at h
  obtain ⟨⟨x, hopen, hpanel⟩, s₃, hfurther, -⟩ :=
    And.intro (exists_of_any_toOption h.1) (exists_of_any_toOption h.2)
  obtain ⟨d, hopen', -, -, hstable, -⟩ := majority_unique_stable hsubmit hvotes
  rw [hopen'] at hopen
  cases hopen
  have hmajority : Majority d.panel
      [("rA", DisputeRuling.tenantWins), ("rB", DisputeRuling.tenantWins)] .tenantWins := by
    unfold Majority
    rw [of_decide_eq_true hpanel]
    decide
  obtain ⟨d₃, hopen₃, hruling⟩ := hstable .tenantWins hmajority _ s₃ hfurther
  exact ⟨ref, s₁, s₂, s₃, d₃, hsubmit, hvotes, hfurther, hopen₃, hruling⟩

end Bluesafe.Judge
