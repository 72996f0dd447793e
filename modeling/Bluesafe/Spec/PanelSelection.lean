import Bluesafe.Judge.Panel
import Bluesafe.Spec.VerifierStats
import Mathlib

/-!
# The panel is exact

The loop of `selectVerifiers` only swaps, so the array stays a permutation of the eligible addresses
and its end is a panel of distinct ones. Conversely, a panel is reached by the draws that fetch its
members one after the other to the end of the part that is left.
-/

namespace Bluesafe.Judge

open Bluesafe.Ops (truthy truthy_eq_some)

/-! ## Who is eligible -/

/-- `v` is active and not excluded by address, region or brokerage. -/
structure Eligible (opts : PanelSelectionParams) (v : VerifierEntry) : Prop where
  active : v.active = true
  address : v.address ∉ opts.excludeAddresses.getD []
  region : ∀ region ∈ truthy opts.excludeRegion, v.region ≠ some region
  brokerage : ∀ b ∈ v.brokerages.getD [], b ∉ opts.excludeBrokerages.getD []

/-- Who may sit on a panel. -/
theorem isEligible_iff {opts : PanelSelectionParams} {v : VerifierEntry} :
    isEligible opts v = true ↔ Eligible opts v := by
  unfold isEligible
  constructor
  · intro h
    split at h
    · cases h
    · rename_i hgate
      rw [Bool.or_eq_true, not_or] at hgate
      split at h
      · cases h
      · rename_i hregion
        refine ⟨by simpa using hgate.1, by simpa using hgate.2, ?_, ?_⟩
        · intro region hsome heq
          rw [Option.mem_def] at hsome
          -- an empty region excludes nobody, so a region that is given is not empty
          rw [hsome, (truthy_eq_some.mp hsome).1, heq] at hregion
          simp at hregion
        · cases hexcluded : opts.excludeBrokerages with
          | none => simp
          | some excluded =>
            rw [hexcluded] at h
            simpa using h
  · intro h
    rw [if_neg, if_neg]
    · cases hexcluded : opts.excludeBrokerages with
      | none => rfl
      | some excluded =>
        have hbrokerage := h.brokerage
        rw [hexcluded] at hbrokerage
        simpa using hbrokerage
    · cases hsome : truthy opts.excludeRegion with
      | none => simp
      | some region =>
        have hregion := h.region region hsome
        rw [(truthy_eq_some.mp hsome).1]
        simpa using hregion
    · have haddress := h.address
      rw [h.active]
      simpa using haddress

instance (opts : PanelSelectionParams) : DecidablePred (Eligible opts) :=
  fun _ => decidable_of_iff _ isEligible_iff

/-- The addresses of the verifiers who are eligible. -/
def Roster.candidates (roster : Roster) (opts : PanelSelectionParams) : Finset String :=
  ((roster.verifiers.filter (Eligible opts ·)).map VerifierEntry.address).toFinset

/-! ## The shuffle -/

/-- One step of the loop. -/
def swapped (arr : List String) (i j : ℕ) : List String :=
  (arr.set i (arr.getD j "")).set j (arr.getD i "")

/-- A swap writes both places. -/
theorem swapped_eq {arr : List String} {i j : ℕ} (hi : i < arr.length) (hj : j < arr.length) :
    swapped arr i j = (arr.set i arr[j]).set j arr[i] := by
  unfold swapped
  rw [List.getD_eq_getElem _ _ hi, List.getD_eq_getElem _ _ hj]

/-- A swap is a permutation. -/
theorem swapped_perm {arr : List String} {i j : ℕ} (hi : i < arr.length) (hj : j < arr.length) :
    (swapped arr i j).Perm arr := by
  rw [swapped_eq hi hj]
  exact List.set_set_perm hi hj

/-- One step of the shuffle. -/
theorem shuffleTail_succ (arr : List String) (n i : ℕ) (picks : List ℕ) :
    shuffleTail arr (n + 1) i picks =
      shuffleTail (swapped arr i (picks.headD 0 % (i + 1))) n (i - 1) picks.tail := rfl

/-- `n` draws in the first `m` positions permute the array. -/
theorem shuffleTail_perm {arr : List String} {n m : ℕ} {picks : List ℕ} (hn : n ≤ m)
    (hm : m ≤ arr.length) : (shuffleTail arr n (m - 1) picks).Perm arr := by
  induction n generalizing arr m picks with
  | zero => exact List.Perm.refl arr
  | succ n ih =>
    -- the position that is drawn from is the last of the first `m`
    have hi : m - 1 < arr.length := by omega
    have hj : picks.headD 0 % (m - 1 + 1) < arr.length :=
      Nat.lt_of_lt_of_le (Nat.mod_lt _ (Nat.succ_pos _)) hi
    have hperm := swapped_perm hi hj
    rw [shuffleTail_succ]
    exact (ih (m := m - 1) (by omega) (by rw [hperm.length_eq]; omega)).trans hperm

/-- The step puts the address at `j` behind the part that is left, and nothing else there. -/
theorem drop_swapped {arr : List String} {i j : ℕ} (hi : i < arr.length) (hj : j ≤ i) :
    (swapped arr i j).drop i = arr[j] :: arr.drop (i + 1) := by
  have hlength : i < ((arr.set i arr[j]).set j arr[i]).length := by
    simpa only [List.length_set] using hi
  rw [swapped_eq hi (by omega), List.drop_eq_getElem_cons hlength, List.drop_set_of_lt (by omega),
    List.drop_set_of_lt (by omega), List.getElem_set]
  split
  · rename_i heq
    subst heq
    rfl
  · rw [List.getElem_set_self]

/-- What is left are the addresses that were left, without the one that was fetched. -/
theorem mem_take_swapped {arr : List String} {i j : ℕ} (hi : i < arr.length) (hj : j ≤ i) {a : String}
    (ha : a ∈ arr.take (i + 1)) (hne : a ≠ arr[j]) : a ∈ (swapped arr i j).take i := by
  have hperm := swapped_perm hi (Nat.lt_of_le_of_lt hj hi)
  have hdrop := drop_swapped hi hj
  -- behind position `i` nothing is moved, so the fronts are permutations of each other
  have hsplit : (swapped arr i j).take i ++ [arr[j]] ++ arr.drop (i + 1) = swapped arr i j := by
    rw [List.append_assoc, List.singleton_append, ← hdrop, List.take_append_drop]
  have hfront : ((swapped arr i j).take i ++ [arr[j]]).Perm (arr.take (i + 1)) := by
    rw [← List.perm_append_right_iff (arr.drop (i + 1)), hsplit, List.take_append_drop]
    exact hperm
  rcases List.mem_append.mp (hfront.mem_iff.mpr ha) with hleft | hlast
  · exact hleft
  · exact absurd (List.mem_singleton.mp hlast) hne

/-- Some draws fetch `targets`, which are in the first `m` positions, to the end of these. -/
theorem exists_draws {arr targets : List String} {m : ℕ} (hm : m ≤ arr.length)
    (hdistinct : targets.Nodup) (hmem : ∀ a ∈ targets, a ∈ arr.take m) (hn : targets.length ≤ m) :
    ∃ draws, (shuffleTail arr targets.length (m - 1) (positions targets.length (m - 1) draws)).drop
      (m - targets.length) = targets.reverse ++ arr.drop m := by
  induction targets generalizing arr m with
  | nil => exact ⟨Stream'.const (Draw.middle 0 0 (le_refl 0)), rfl⟩
  | cons target rest ih =>
    obtain ⟨i, rfl⟩ : ∃ i, m = i + 1 := ⟨m - 1, by simp only [List.length_cons] at hn; omega⟩
    obtain ⟨hfresh, hdistinct⟩ := List.nodup_cons.mp hdistinct
    -- the next member is at `j`, and the draw in the middle of the range of `j` fetches it
    obtain ⟨j, hj, htarget⟩ := List.getElem_of_mem (hmem target (List.mem_cons_self))
    rw [List.length_take] at hj
    rw [List.getElem_take] at htarget
    have hi : i < arr.length := by omega
    have hj' : j ≤ i := by omega
    have hdrop := drop_swapped hi hj'
    have hlength := (swapped_perm hi (by omega : j < arr.length)).length_eq
    -- the others are still in front: only the member that was fetched has left
    obtain ⟨draws, hdraws⟩ := @ih (swapped arr i j) i (by omega) hdistinct (by
      intro a ha
      refine mem_take_swapped hi hj' (hmem a (List.mem_cons_of_mem _ ha)) ?_
      rintro rfl
      rw [htarget] at ha
      exact hfresh ha) (by simp only [List.length_cons] at hn; omega)
    refine ⟨Stream'.cons (Draw.middle j i hj') draws, ?_⟩
    have hpositions : positions (rest.length + 1) i (Stream'.cons (Draw.middle j i hj') draws) =
        j :: positions rest.length (i - 1) draws := by
      show (Draw.middle j i hj').index i :: _ = _
      rw [Draw.index_middle]
      rfl
    rw [List.length_cons, Nat.add_sub_cancel, hpositions, shuffleTail_succ]
    show (shuffleTail (swapped arr i (j % (i + 1))) rest.length (i - 1) _).drop _ = _
    rw [Nat.mod_eq_of_lt (by omega), Nat.add_sub_add_right, List.tail_cons, hdraws, hdrop, htarget,
      List.reverse_cons, List.append_assoc]
    rfl

/-! ## The selection -/

/-- The addresses that the loop works on. -/
def Roster.arr (roster : Roster) (opts : PanelSelectionParams) : List String :=
  (roster.verifiers.filter (isEligible opts)).map VerifierEntry.address

/-- No candidate stands twice in the array. -/
theorem Roster.nodup_arr (roster : Roster) (opts : PanelSelectionParams) :
    (roster.arr opts).Nodup :=
  roster.distinct.sublist (List.filter_sublist.map _)

/-- The array holds the candidates. -/
theorem Roster.toFinset_arr (roster : Roster) (opts : PanelSelectionParams) :
    (roster.arr opts).toFinset = roster.candidates opts := by
  unfold Roster.arr Roster.candidates
  have hfilter : isEligible opts = fun v => decide (Eligible opts v) := by
    funext v
    rw [Bool.eq_iff_iff, isEligible_iff, decide_eq_true_eq]
  rw [hfilter]

/-- As many as it is long. -/
theorem Roster.card_candidates (roster : Roster) (opts : PanelSelectionParams) :
    (roster.candidates opts).card = (roster.arr opts).length := by
  rw [← roster.toFinset_arr, List.toFinset_card_of_nodup (roster.nodup_arr opts)]

/-- The selection, as a shuffle of the array. -/
theorem Roster.selectVerifiers_eq (roster : Roster) (opts : PanelSelectionParams)
    (draws : Stream' Draw) : roster.selectVerifiers opts draws =
      if (roster.arr opts).length < opts.size then
        .error ("not enough eligible verifiers: have " ++ toString (roster.arr opts).length ++
          ", need " ++ toString opts.size)
      else .ok ((shuffleTail (roster.arr opts) opts.size ((roster.arr opts).length - 1)
        (positions opts.size ((roster.arr opts).length - 1) draws)).drop
          ((roster.arr opts).length - opts.size)) := by
  have hlength : (roster.verifiers.filter (isEligible opts)).length = (roster.arr opts).length :=
    List.length_map _ |>.symm
  unfold Roster.selectVerifiers Judge.selectVerifiers
  dsimp only [Memory.empty]
  rw [hlength]
  rfl

/-- The verifiers of a consistent memory, as every run leaves it, are a roster. -/
def Memory.Consistent.roster {s : Memory} (h : s.Consistent) : Roster := ⟨s.verifiers, h.distinct⟩

/-- The same for the registry of a consistent memory. -/
theorem Memory.Consistent.selectVerifiers_eq {s : Memory} (h : s.Consistent)
    (opts : PanelSelectionParams) (draws : Stream' Draw) :
    Judge.selectVerifiers s opts
      (positions opts.size ((s.verifiers.filter (isEligible opts)).length - 1) draws) =
      h.roster.selectVerifiers opts draws := rfl

/-- The selection throws iff too few are eligible, returns distinct eligible addresses, as many as
asked for, and returns every such panel for some draws. -/
theorem panel_selection_exact (roster : Roster) (opts : PanelSelectionParams) :
    (∀ draws, (∃ e, roster.selectVerifiers opts draws = .error e) ↔
      (roster.candidates opts).card < opts.size) ∧
    (∀ draws panel, roster.selectVerifiers opts draws = .ok panel →
      panel.length = opts.size ∧ panel.Nodup ∧ ∀ a ∈ panel, a ∈ roster.candidates opts) ∧
    ∀ panel ⊆ roster.candidates opts, panel.card = opts.size →
      ∃ draws selected, roster.selectVerifiers opts draws = .ok selected ∧
        selected.toFinset = panel := by
  refine ⟨fun draws => ?_, fun draws panel hpanel => ?_, fun panel hsub hcard => ?_⟩
  · rw [roster.selectVerifiers_eq, roster.card_candidates]
    split
    · rename_i hfew
      simpa using hfew
    · rename_i henough
      simpa using henough
  · rw [roster.selectVerifiers_eq] at hpanel
    split at hpanel
    · cases hpanel
    · rename_i henough
      cases hpanel
      -- the panel is the end of a permutation of the addresses
      have hperm := @shuffleTail_perm (roster.arr opts) opts.size (roster.arr opts).length
        (positions opts.size ((roster.arr opts).length - 1) draws) (by omega) (le_refl _)
      refine ⟨?_, ?_, fun a ha => ?_⟩
      · rw [List.length_drop, hperm.length_eq]
        omega
      · exact (hperm.nodup_iff.mpr (roster.nodup_arr opts)).sublist (List.drop_sublist _ _)
      · rw [← roster.toFinset_arr, List.mem_toFinset]
        exact hperm.mem_iff.mp (List.mem_of_mem_drop ha)
  · -- the members of the panel, one after the other
    have hlength : panel.toList.length = opts.size := by rw [Finset.length_toList, hcard]
    have henough : opts.size ≤ (roster.arr opts).length := by
      rw [← hcard, ← roster.card_candidates]
      exact Finset.card_le_card hsub
    obtain ⟨draws, hdraws⟩ := @exists_draws (roster.arr opts) panel.toList (roster.arr opts).length
      (le_refl _) panel.nodup_toList (by
        intro a ha
        rw [List.take_length, ← List.mem_toFinset, roster.toFinset_arr]
        exact hsub (Finset.mem_toList.mp ha)) (by omega)
    rw [hlength] at hdraws
    rw [List.drop_length, List.append_nil] at hdraws
    refine ⟨draws, panel.toList.reverse, ?_, ?_⟩
    · rw [roster.selectVerifiers_eq, if_neg (by omega), hdraws]
    · rw [List.toFinset_reverse, Finset.toList_toFinset]

end Bluesafe.Judge
