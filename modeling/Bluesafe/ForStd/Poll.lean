import Mathlib.Data.List.Nodup
import Mathlib.Data.List.Perm.Subperm

/-!
# Polls

Votes of the members of a panel. A member votes once, so the votes are at most as many as the panel
has members, and no two choices have a majority of the panel.
-/

namespace Bluesafe.Poll

variable {α β : Type} {panel : List α} {votes votes' : List (α × β)} {choice choice' : β}

/-! ## Ballots -/

/-- Votes of members of the panel, none of whom has voted twice. -/
structure Ballot (panel : List α) (votes : List (α × β)) : Prop where
  distinct : (votes.map Prod.fst).Nodup
  members : ∀ v ∈ votes, v.1 ∈ panel

theorem Ballot.nil (panel : List α) : Ballot panel ([] : List (α × β)) where
  distinct := List.nodup_nil
  members := by simp

/-- A further vote of a member who has not voted. -/
theorem ballot_append_singleton_iff {voter : α} :
    Ballot panel (votes ++ [(voter, choice)]) ↔
      Ballot panel votes ∧ voter ∈ panel ∧ voter ∉ votes.map Prod.fst := by
  constructor
  · intro h
    have hdistinct := h.distinct
    rw [List.map_append, List.nodup_append] at hdistinct
    refine ⟨⟨hdistinct.1, fun v hv => h.members v (List.mem_append_left _ hv)⟩,
      h.members _ (List.mem_append_right _ List.mem_cons_self), fun hvoted => ?_⟩
    exact hdistinct.2.2 voter hvoted voter List.mem_cons_self rfl
  · rintro ⟨h, hmember, hfresh⟩
    constructor
    · rw [List.map_append, List.nodup_append]
      refine ⟨h.distinct, List.nodup_singleton _, ?_⟩
      intro a ha b hb hab
      rw [hab, List.mem_singleton.mp hb] at ha
      exact hfresh ha
    · intro v hv
      rcases List.mem_append.mp hv with hv | hv
      · exact h.members v hv
      · rw [List.mem_singleton.mp hv]
        exact hmember

/-- The first part of a ballot is a ballot. -/
theorem Ballot.of_append (h : Ballot panel (votes ++ votes')) : Ballot panel votes where
  distinct := by
    have hdistinct := h.distinct
    rw [List.map_append] at hdistinct
    exact hdistinct.of_append_left
  members := fun v hv => h.members v (List.mem_append_left _ hv)

/-- The order of the votes does not matter. -/
theorem Ballot.perm (h : Ballot panel votes) (hperm : votes.Perm votes') : Ballot panel votes' where
  distinct := (hperm.map Prod.fst).nodup_iff.mp h.distinct
  members := fun v hv => h.members v (hperm.mem_iff.mpr hv)

/-- There are at most as many votes as members. -/
theorem Ballot.length_le (h : Ballot panel votes) : votes.length ≤ panel.length := by
  have hsub : votes.map Prod.fst ⊆ panel := by
    intro voter hvoter
    obtain ⟨v, hv, rfl⟩ := List.mem_map.mp hvoter
    exact h.members v hv
  have hle := (h.distinct.subperm hsub).length_le
  rwa [List.length_map] at hle

/-! ## Counting -/

variable [DecidableEq β]

/-- The number of votes for `choice`. -/
def count (votes : List (α × β)) (choice : β) : ℕ := votes.countP fun v => decide (v.2 = choice)

/-- More than half of the panel has voted for `choice`. -/
def Majority (panel : List α) (votes : List (α × β)) (choice : β) : Prop :=
  panel.length / 2 + 1 ≤ count votes choice

/-- No other choice has more votes. -/
def Top (votes : List (α × β)) (choice : β) : Prop := ∀ other, count votes other ≤ count votes choice

/-- Nor does it for their count. -/
theorem count_perm (h : votes.Perm votes') (choice : β) : count votes choice = count votes' choice :=
  h.countP_eq _

/-- Further votes take none away. -/
theorem count_le_append (votes votes' : List (α × β)) (choice : β) :
    count votes choice ≤ count (votes ++ votes') choice := by
  unfold count
  rw [List.countP_append]
  omega

/-- No vote is for two choices. -/
theorem count_add_count_le (hne : choice ≠ choice') (votes : List (α × β)) :
    count votes choice + count votes choice' ≤ votes.length := by
  induction votes with
  | nil => simp [count]
  | cons v votes ih =>
    unfold count at ih ⊢
    rw [List.countP_cons, List.countP_cons, List.length_cons]
    by_cases hv : v.2 = choice
    · have hv' : v.2 ≠ choice' := fun h => hne (hv.symm.trans h)
      simp only [hv, hne, decide_true, if_true, decide_false, Bool.false_eq_true, if_false]
      omega
    · simp only [hv, decide_false, Bool.false_eq_true, if_false]
      split <;> omega

/-- There is one majority at most. -/
theorem Ballot.majority_unique (h : Ballot panel votes) (hc : Majority panel votes choice)
    (hc' : Majority panel votes choice') : choice = choice' := by
  by_contra hne
  have hsum := count_add_count_le hne votes
  have hlength := h.length_le
  unfold Majority at hc hc'
  omega

/-- A majority is not lost by further votes. -/
theorem Majority.append (h : Majority panel votes choice) (votes' : List (α × β)) :
    Majority panel (votes ++ votes') choice :=
  Nat.le_trans h (count_le_append votes votes' choice)

/-- A tie for the top leaves no majority. -/
theorem Ballot.not_majority_of_tie (h : Ballot panel votes) (hne : choice ≠ choice')
    (hc : Top votes choice) (hc' : Top votes choice') (other : β) :
    ¬ Majority panel votes other := by
  intro hother
  exact hne (h.majority_unique (Nat.le_trans hother (hc other)) (Nat.le_trans hother (hc' other)))

end Bluesafe.Poll
