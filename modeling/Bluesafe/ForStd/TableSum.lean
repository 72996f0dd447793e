import Bluesafe.ForStd.Table
import Mathlib.Algebra.GroupWithZero.Nat

/-!
# Sums over the rows of a table

`total f t` adds the weight `f` of all rows. A store changes it by the difference between the new
row and the old one; several stores under different keys change it row by row, and leave the rows
under other keys alone.
-/

namespace Table

variable {κ ν : Type} [DecidableEq κ] {key : ν → κ} {f : ν → Nat} {t : Table key} {v w : ν}

/-- The sum of the weights of the rows. -/
def total (f : ν → Nat) (t : Table key) : Nat := (t.rows.map f).sum

/-- Nothing weighs anything. -/
theorem total_eq_zero_iff : t.total f = 0 ↔ ∀ v ∈ t.rows, f v = 0 := by
  rw [total, List.sum_eq_zero_iff_forall_eq_nat]
  simp

/-- A store under a key in use. -/
theorem total_set_of_some (h : t.get? (key v) = some w) :
    (t.set v).total f + f w = t.total f + f v := by
  obtain ⟨before, after, hrows, hset⟩ := rows_set_of_some h
  simp only [total, hrows, hset, List.map_append, List.map_cons, List.sum_append, List.sum_cons]
  omega

/-- A store under a new key. -/
theorem total_set_of_none (h : t.get? (key v) = none) : (t.set v).total f = t.total f + f v := by
  simp [total, rows_set_of_none h]

/-- Stores under other keys leave a row alone. -/
theorem get?_foldl_set_of_notMem {vs : List ν} {k : κ} (hk : k ∉ vs.map key) :
    (vs.foldl set t).get? k = t.get? k := by
  rcases get?_foldl_set t vs k with h | ⟨u, hu, hkey, -⟩
  · exact h
  · exact absurd (hkey ▸ List.mem_map_of_mem hu) hk

/-- Of stores under different keys each one counts. -/
theorem get?_foldl_set_of_nodup {vs : List ν} (hnodup : (vs.map key).Nodup) (hv : v ∈ vs) :
    (vs.foldl set t).get? (key v) = some v := by
  obtain ⟨u, hu, hkey, hget⟩ := get?_foldl_set_of_mem (t := t) hv
  rw [hget, List.inj_on_of_nodup_map hnodup hu hv hkey]

/-- A row after several stores was stored by one of them, or it is an old row. -/
theorem mem_rows_foldl_set {vs : List ν} (h : w ∈ (vs.foldl set t).rows) :
    w ∈ vs ∨ (w ∈ t.rows ∧ key w ∉ vs.map key) := by
  by_cases hmem : key w ∈ vs.map key
  · obtain ⟨u, hu, hkey⟩ := List.mem_map.mp hmem
    obtain ⟨x, hx, -, hget⟩ := get?_foldl_set_of_mem (t := t) hu
    rw [hkey, get?_of_mem h, Option.some.injEq] at hget
    exact .inl (hget ▸ hx)
  · have hget := get?_of_mem h
    rw [get?_foldl_set_of_notMem hmem] at hget
    exact .inr ⟨mem_of_get? hget, hmem⟩

/-- Stores that each replace a row by one of the same weight. -/
theorem total_foldl_set {vs : List ν} (hnodup : (vs.map key).Nodup)
    (h : ∀ v ∈ vs, ∃ w, t.get? (key v) = some w ∧ f v = f w) :
    (vs.foldl set t).total f = t.total f := by
  induction vs generalizing t with
  | nil => rfl
  | cons v vs ih =>
    obtain ⟨w, hw, hweight⟩ := h v List.mem_cons_self
    rw [List.map_cons, List.nodup_cons] at hnodup
    have hset := total_set_of_some (f := f) hw
    rw [List.foldl_cons, ih hnodup.2 fun u hu => ?_]
    · omega
    · obtain ⟨x, hx, hux⟩ := h u (List.mem_cons_of_mem _ hu)
      have hne : key u ≠ key v := fun heq => hnodup.1 (heq ▸ List.mem_map_of_mem hu)
      exact ⟨x, by rw [get?_set, if_neg hne, hx], hux⟩

end Table
