import Bluesafe.Lock.Types

/-!
# Which signer lists are accepted

`validateParams` of the signer list service walks over the signers with the accounts it has seen
and the weight it has summed up, and stops at the first signer it does not accept.
`checkSigners_eq_ok_iff` says what the walk from any of its states returns, and
`signer_lists_exact` that exactly the well-formed lists pass.
-/

namespace Bluesafe.Lock

/-- The sum of the weights. -/
def totalWeight : List SignerSpec → Int
  | [] => 0
  | s :: rest => s.weight + totalWeight rest

/-- A well-formed list for an account and a quorum. -/
structure SetSignerListParams.WellFormed (params : SetSignerListParams) : Prop where
  nonempty : 1 ≤ params.signers.length
  max_signers : params.signers.length ≤ 32
  weights : ∀ s ∈ params.signers, 1 ≤ s.weight ∧ s.weight ≤ 65535
  distinct : (params.signers.map SignerSpec.account).Nodup
  not_owner : ∀ s ∈ params.signers, s.account ≠ params.account.classicAddress
  quorum_pos : 0 < params.quorum
  quorum_le : params.quorum ≤ totalWeight params.signers

/-- Some of the signers have the weight of the quorum together. -/
def SetSignerListParams.CanReachQuorum (params : SetSignerListParams) : Prop :=
  ∃ signing, signing.Sublist params.signers ∧ params.quorum ≤ totalWeight signing

section Walk

variable {owner : String} {signers : List SignerSpec} {seen : List String} {total w : Int}

/-- A signer that the walk accepts after the accounts `seen`. -/
def Acceptable (owner : String) (seen : List String) (s : SignerSpec) : Prop :=
  (1 ≤ s.weight ∧ s.weight ≤ 65535) ∧ s.account ≠ owner ∧ s.account ∉ seen

/-- One step of the walk. -/
theorem checkSigners_cons (s : SignerSpec) :
    checkSigners owner (s :: signers) seen total = .ok w ↔
      Acceptable owner seen s ∧
        checkSigners owner signers (s.account :: seen) (total + s.weight) = .ok w := by
  -- one goal for each refusal of the code, in its order
  rw [checkSigners]
  unfold Acceptable
  split
  · rename_i hrange
    have hno : ¬(1 ≤ s.weight ∧ s.weight ≤ 65535) := by omega
    simp [hno]
  · rename_i hrange
    have hweight : 1 ≤ s.weight ∧ s.weight ≤ 65535 := by omega
    split
    · rename_i howner
      simp [howner]
    · rename_i howner
      split
      · rename_i hseen
        simp [List.contains_iff_mem.mp hseen]
      · rename_i hseen
        have hnew : s.account ∉ seen := fun h => hseen (List.contains_iff_mem.mpr h)
        simp [hweight, howner, hnew]

/-- What the walk returns, from any of its states. -/
theorem checkSigners_eq_ok_iff :
    checkSigners owner signers seen total = .ok w ↔
      (∀ s ∈ signers, Acceptable owner seen s) ∧ (signers.map SignerSpec.account).Nodup ∧
        w = total + totalWeight signers := by
  -- induction on the signers, with what was seen and added before them
  induction signers generalizing seen total with
  | nil =>
    simp only [checkSigners, totalWeight, Except.ok.injEq, List.not_mem_nil, false_implies,
      implies_true, List.map_nil, List.nodup_nil, true_and, Int.add_zero]
    exact eq_comm
  | cons s rest ih =>
    rw [checkSigners_cons, ih, List.map_cons, List.nodup_cons, totalWeight, Int.add_assoc]
    constructor
    -- a signer that was accepted is none of the accounts seen before
    · rintro ⟨hs, hrest, hnodup, hw⟩
      refine ⟨fun s' hs' => ?_, ⟨fun hmem => ?_, hnodup⟩, hw⟩
      · rcases List.mem_cons.mp hs' with rfl | hs'
        · exact hs
        · obtain ⟨hweight, howner, hseen⟩ := hrest s' hs'
          exact ⟨hweight, howner, fun h => hseen (List.mem_cons_of_mem _ h)⟩
      · -- a later signer with this account would have been refused
        obtain ⟨s', hs', haccount⟩ := List.mem_map.mp hmem
        exact (hrest s' hs').2.2 (haccount ▸ List.mem_cons_self)
    -- distinct accounts are never seen twice
    · rintro ⟨hall, ⟨hnew, hnodup⟩, hw⟩
      refine ⟨hall s List.mem_cons_self, fun s' hs' => ?_, hnodup, hw⟩
      obtain ⟨hweight, howner, hseen⟩ := hall s' (List.mem_cons_of_mem _ hs')
      refine ⟨hweight, howner, fun h => ?_⟩
      -- neither the one before, nor one of the earlier ones
      rcases List.mem_cons.mp h with heq | h
      · exact hnew (heq ▸ List.mem_map_of_mem hs')
      · exact hseen h

end Walk

/-- The checks around the walk. -/
theorem validate_eq_ok_iff {params : SetSignerListParams} :
    params.validate = .ok () ↔ (1 ≤ params.signers.length ∧ params.signers.length ≤ 32) ∧
      0 < params.quorum ∧ ∃ total,
        checkSigners params.account.classicAddress params.signers [] 0 = .ok total ∧
          params.quorum ≤ total := by
  -- an empty list, one that is too long, a quorum that is not positive
  unfold SetSignerListParams.validate
  split
  · rename_i hempty
    simp [hempty]
  · rename_i hnonempty
    split
    · rename_i hmany
      exact iff_of_false (fun h => by cases h) fun h => by omega
    · rename_i hmax
      have hlength : 1 ≤ params.signers.length ∧ params.signers.length ≤ 32 := by omega
      split
      · rename_i hzero
        exact iff_of_false (fun h => by cases h) fun h => by omega
      · rename_i hpos
        have hquorum : 0 < params.quorum := by omega
        -- then the list, whose total is compared with the quorum
        cases checkSigners params.account.classicAddress params.signers [] 0 with
        | error e => exact iff_of_false (fun h => by cases h) fun h => by simp at h
        | ok total =>
          show (if params.quorum > total then _ else _) = _ ↔ _
          split
          -- the quorum is more than the weights can reach
          · rename_i hexceeds
            refine iff_of_false (fun h => by cases h) ?_
            rintro ⟨-, -, total', htotal, hle⟩
            cases htotal
            omega
          · rename_i hle
            exact iff_of_true rfl ⟨hlength, hquorum, total, rfl, by omega⟩

/-- `validateParams`, for every account, every list of signers with integer weights and every
    integer quorum: it accepts exactly the well-formed lists, and so every list it accepts can
    reach its quorum. -/
theorem signer_lists_exact (params : SetSignerListParams) :
    (params.validate = .ok () ↔ params.WellFormed) ∧
      (params.validate = .ok () → params.CanReachQuorum) := by
  have hexact : params.validate = .ok () ↔ params.WellFormed := by
    rw [validate_eq_ok_iff]
    simp only [checkSigners_eq_ok_iff, Int.zero_add]
    constructor
    · rintro ⟨⟨hmin, hmax⟩, hpos, total, ⟨hall, hnodup, rfl⟩, hle⟩
      exact ⟨hmin, hmax, fun s hs => (hall s hs).1, hnodup, fun s hs => (hall s hs).2.1, hpos, hle⟩
    · intro h
      refine ⟨⟨h.nonempty, h.max_signers⟩, h.quorum_pos, _, ⟨fun s hs => ?_, h.distinct, rfl⟩,
        h.quorum_le⟩
      exact ⟨h.weights s hs, h.not_owner s hs, List.not_mem_nil⟩
  -- the whole list of signers has the weight
  exact ⟨hexact, fun h => ⟨params.signers, List.Sublist.refl _, (hexact.mp h).quorum_le⟩⟩

end Bluesafe.Lock
