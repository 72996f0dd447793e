import Mathlib.Data.List.Flatten
import Mathlib.Data.List.Perm.Subperm
import Mathlib.Data.List.Range

/-!
# Counting over a list of lists

The number of elements with a property in `l.flatMap g`, when one entry of `l` changes and
when the entries are picked by their positions.
-/

namespace List

variable {α β : Type}

/-- One entry is replaced: its elements go, those of the new entry come. -/
theorem countP_flatMap_set {l : List α} {i : Nat} {a : α} (h : l[i]? = some a) (b : α)
    (g : α → List β) (p : β → Bool) :
    ((l.set i b).flatMap g).countP p + (g a).countP p =
      (l.flatMap g).countP p + (g b).countP p := by
  induction l generalizing i with
  | nil => simp at h
  | cons x l ih =>
    cases i with
    | zero =>
      simp only [getElem?_cons_zero, Option.some.injEq] at h
      subst h
      simp only [set_cons_zero, flatMap_cons, countP_append]
      omega
    | succ i =>
      have hrest := ih (by simpa using h)
      simp only [set_cons_succ, flatMap_cons, countP_append]
      omega

theorem modify_eq_set_of_getElem? {l : List α} {i : Nat} {a : α} (h : l[i]? = some a)
    (f : α → α) : l.modify i f = l.set i (f a) := by
  apply ext_getElem?
  intro j
  rw [getElem?_modify, getElem?_set]
  by_cases hij : i = j
  · subst hij
    obtain ⟨hlt, rfl⟩ := getElem?_eq_some_iff.mp h
    simp [hlt]
  · simp [hij]

private theorem two_le_countP {p : α → Bool} {a b : List α} {x x' : α} (hx : p x = true)
    (hx' : p x' = true) : 2 ≤ (x :: (a ++ x' :: b)).countP p := by
  rw [countP_cons_of_pos hx, countP_append, countP_cons_of_pos hx']
  omega

/-- The place of the only element with a property. -/
theorem eq_of_countP_eq_one {p : α → Bool} {a a' b b' : List α} {x x' : α}
    (h : a ++ x :: b = a' ++ x' :: b') (hx : p x = true) (hx' : p x' = true)
    (hone : (a ++ x :: b).countP p = 1) : a = a' := by
  induction a generalizing a' with
  | nil =>
    cases a' with
    | nil => rfl
    | cons y a' =>
      simp only [nil_append, cons_append, cons.injEq] at h
      rw [nil_append, h.2] at hone
      have htwo := two_le_countP (a := a') (b := b') hx hx'
      omega
  | cons y a ih =>
    cases a' with
    | nil =>
      simp only [nil_append, cons_append, cons.injEq] at h
      rw [cons_append, h.1] at hone
      have htwo := two_le_countP (a := a) (b := b) hx' hx
      omega
    | cons y' a' =>
      simp only [cons_append, cons.injEq] at h hone
      obtain ⟨rfl, h⟩ := h
      have hrest : (a ++ x :: b).countP p = 1 := by
        have hpos : 1 ≤ (a ++ x :: b).countP p := by
          rw [countP_append, countP_cons_of_pos hx]
          omega
        rw [countP_cons] at hone
        omega
      rw [ih h hrest]

/-- One entry is changed in place. -/
theorem countP_flatMap_modify {l : List α} {i : Nat} {a : α} (h : l[i]? = some a) (f : α → α)
    (g : α → List β) (p : β → Bool) :
    ((l.modify i f).flatMap g).countP p + (g a).countP p =
      (l.flatMap g).countP p + (g (f a)).countP p := by
  rw [modify_eq_set_of_getElem? h]
  exact countP_flatMap_set h (f a) g p

/-- The elements at a position. -/
def flatAt (l : List α) (g : α → List β) (i : Nat) : List β :=
  l[i]?.elim [] g

theorem flatAt_of_getElem? {l : List α} {i : Nat} {a : α} (h : l[i]? = some a) (g : α → List β) :
    l.flatAt g i = g a := by
  simp [flatAt, h]

/-- All positions give all elements. -/
theorem flatMap_range_flatAt (l : List α) (g : α → List β) :
    (range l.length).flatMap (l.flatAt g) = l.flatMap g := by
  induction l with
  | nil => rfl
  | cons x l ih =>
    rw [length_cons, range_succ_eq_map, flatMap_cons, flatMap_cons, flatMap_map, ← ih]
    rfl

/-- Distinct positions give no more than all of them. -/
theorem countP_flatMap_flatAt_le {l : List α} {is : List Nat} (hnodup : is.Nodup)
    (hlt : ∀ i ∈ is, i < l.length) (g : α → List β) (p : β → Bool) :
    (is.flatMap (l.flatAt g)).countP p ≤ (l.flatMap g).countP p := by
  have hsub : is ⊆ range l.length := fun i hi => mem_range.mpr (hlt i hi)
  obtain ⟨js, hperm, hsublist⟩ := hnodup.subperm hsub
  have hcount := (hperm.flatMap_right (l.flatAt g)).countP_eq p
  have hle : (js.flatMap (l.flatAt g)).countP p ≤
      ((range l.length).flatMap (l.flatAt g)).countP p :=
    (hsublist.flatMap (l.flatAt g)).countP_le
  rw [flatMap_range_flatAt] at hle
  omega

end List
