import Mathlib.Data.List.Perm.Basic
import Mathlib.Data.List.Induction

/-!
# The first element of every key

`firstPerKey key xs` keeps, of the elements of `xs` with the same key, the one that comes
first: what a table with a unique key holds after the elements were inserted one after the
other and an insertion under a key in use was refused.
-/

namespace List

variable {α κ : Type} [DecidableEq κ] {key : α → κ}

/-- Insert at the end, unless the key is in use. -/
def insertNew (key : α → κ) (xs : List α) (x : α) : List α :=
  if key x ∈ xs.map key then xs else xs ++ [x]

/-- The first element of every key, in the order of the list. -/
def firstPerKey (key : α → κ) (xs : List α) : List α :=
  xs.foldl (insertNew key) []

theorem firstPerKey_concat (xs : List α) (x : α) :
    firstPerKey key (xs ++ [x]) = insertNew key (firstPerKey key xs) x := by
  rw [firstPerKey, foldl_append]
  rfl

/-- No two elements that are kept have the same key. -/
theorem nodup_map_firstPerKey (xs : List α) : ((firstPerKey key xs).map key).Nodup := by
  induction xs using List.reverseRecOn with
  | nil => exact nodup_nil
  | append_singleton xs x ih =>
    rw [firstPerKey_concat, insertNew]
    split
    · exact ih
    · rename_i hnew
      rw [map_append, nodup_append]
      refine ⟨ih, by simp, ?_⟩
      intro a ha b hb
      simp only [map_cons, map_nil, mem_singleton] at hb
      rintro rfl
      exact hnew (hb ▸ ha)

/-- A list whose keys differ is kept as a whole. -/
theorem firstPerKey_of_nodup {xs : List α} (h : (xs.map key).Nodup) : firstPerKey key xs = xs := by
  induction xs using List.reverseRecOn with
  | nil => rfl
  | append_singleton xs x ih =>
    rw [map_append, nodup_append] at h
    have hnew : key x ∉ xs.map key := fun hmem =>
      h.2.2 (key x) hmem (key x) (by simp) rfl
    rw [firstPerKey_concat, ih h.1, insertNew, if_neg hnew]

/-- Nothing is dropped exactly when the keys differ. -/
theorem firstPerKey_perm_iff {xs : List α} :
    firstPerKey key xs ~ xs ↔ (xs.map key).Nodup := by
  constructor
  · intro hperm
    exact (hperm.map key).nodup_iff.mp (nodup_map_firstPerKey xs)
  · intro h
    rw [firstPerKey_of_nodup h]

end List
