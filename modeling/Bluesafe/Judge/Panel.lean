import Bluesafe.Judge.Service
import Mathlib

/-!
# Drawing a panel

`selectVerifiers` with the numbers of `Math.random()` in place of the positions they lead to. The
verifiers are the values of a map, so their addresses are distinct.
-/

namespace Bluesafe.Judge

open Bluesafe.Ops (truthy)

/-- `this.verifiers`. -/
structure Roster where
  verifiers : List VerifierEntry
  distinct : (verifiers.map VerifierEntry.address).Nodup

/-- A result of `Math.random()`. -/
structure Draw where
  value : ℚ
  nonneg : 0 ≤ value
  lt_one : value < 1

/-- `Math.floor(Math.random() * (i + 1))`. -/
def Draw.index (draw : Draw) (i : ℕ) : ℕ := ⌊draw.value * (i + 1 : ℕ)⌋₊

/-- The positions of `n` draws, from `i` down. -/
def positions : ℕ → ℕ → Stream' Draw → List ℕ
  | 0, _, _ => []
  | n + 1, i, draws => draws.head.index i :: positions n (i - 1) draws.tail

/-- `opts.panelSize ?? 5`. -/
def PanelSelectionParams.size (opts : PanelSelectionParams) : ℕ := opts.panelSize.getD 5

/-- `selectVerifiers`, with the draws that it makes. -/
def Roster.selectVerifiers (roster : Roster) (opts : PanelSelectionParams) (draws : Stream' Draw) :
    Except String (List String) :=
  let eligible := roster.verifiers.filter (isEligible opts)
  Judge.selectVerifiers { Memory.empty with verifiers := roster.verifiers } opts
    (positions opts.size (eligible.length - 1) draws)

/-- The draw in the middle of those that lead to a position. -/
def Draw.middle (j i : ℕ) (h : j ≤ i) : Draw where
  value := (2 * j + 1 : ℕ) / (2 * (i + 1) : ℕ)
  nonneg := div_nonneg (Nat.cast_nonneg _) (Nat.cast_nonneg _)
  lt_one := by
    rw [div_lt_one (by exact_mod_cast (by omega : 0 < 2 * (i + 1)))]
    exact_mod_cast (by omega : 2 * j + 1 < 2 * (i + 1))

theorem Draw.index_middle {j i : ℕ} (h : j ≤ i) : (Draw.middle j i h).index i = j := by
  have hpos : (0 : ℚ) < (i + 1 : ℕ) := by exact_mod_cast Nat.succ_pos i
  have hvalue : (Draw.middle j i h).value * (i + 1 : ℕ) = j + 1 / 2 := by
    unfold Draw.middle
    push_cast at hpos ⊢
    field_simp
  unfold Draw.index
  rw [hvalue, Nat.floor_eq_iff (by positivity)]
  constructor
  · linarith
  · linarith

end Bluesafe.Judge
