import Mathlib.Data.List.Sort

/-!
# The first rows of an order

`firstBy r p n rows` is the page a query with a condition, an order and a limit returns: the
rows that meet `p`, sorted by `r`, cut after `n`. It is described without sorting: all its
rows meet `p`, there are as many of them as there can be, they are in order, and no row
that is left out comes before one that is on the page (`before_of_left_out`).

Which rows are on the page is decided by counting: a row is on it if and only if fewer than
`n` rows are ahead of it (`mem_firstBy_iff`). The sort keeps the order of equal rows, so of
those the rows that are listed before it are ahead, and the rows after it are not.
-/

namespace List

variable {α : Type} (r : α → α → Prop) [DecidableRel r] (p : α → Bool) (n : Nat)

/-- The first `n` rows that meet `p`, in the order `r`. -/
def firstBy (rows : List α) : List α :=
  ((rows.filter p).insertionSort r).take n

variable {r p n} {rows : List α} {a b : α}

theorem mem_of_mem_firstBy (h : a ∈ rows.firstBy r p n) : a ∈ rows ∧ p a = true := by
  have hsort : a ∈ (rows.filter p).insertionSort r := mem_of_mem_take h
  rwa [mem_insertionSort, mem_filter] at hsort

theorem length_firstBy : (rows.firstBy r p n).length = min n (rows.countP p) := by
  rw [firstBy, length_take, length_insertionSort, countP_eq_length_filter]

variable [Std.Total r] [IsTrans α r]

theorem pairwise_firstBy : (rows.firstBy r p n).Pairwise r :=
  (pairwise_insertionSort r _).sublist (take_sublist _ _)

/-- Every row that is left out comes after the rows of the page. -/
theorem before_of_left_out (ha : a ∈ rows.firstBy r p n) (hb : b ∈ rows) (hpb : p b = true)
    (hout : b ∉ rows.firstBy r p n) : r a b := by
  have hsorted := pairwise_insertionSort r (rows.filter p)
  rw [← take_append_drop n ((rows.filter p).insertionSort r), pairwise_append] at hsorted
  have hmem : b ∈ (rows.filter p).insertionSort r := by
    rw [mem_insertionSort, mem_filter]
    exact ⟨hb, hpb⟩
  rw [← take_append_drop n ((rows.filter p).insertionSort r), mem_append] at hmem
  rcases hmem with hpage | hrest
  · exact absurd hpage hout
  · exact hsorted.2.2 a ha b hrest

/-- The elements in front of the last ones come before them. -/
theorem Pairwise.rel_of_notMem_drop {R : α → α → Prop} {l : List α} {j : Nat} (h : l.Pairwise R)
    (ha : a ∈ l) (hout : a ∉ l.drop j) (hb : b ∈ l.drop j) : R a b := by
  rw [← take_append_drop j l, pairwise_append] at h
  rw [← take_append_drop j l, mem_append] at ha
  rcases ha with ha | ha
  · exact h.2.2 a ha b hb
  · exact absurd ha hout

/-! ## Places -/

section Place

variable {α : Type} [DecidableEq α] {r : α → α → Prop} [DecidableRel r] [IsTrans α r]
  {rows : List α} {a b : α}

/-- A row that is inserted in front of `a` moves it one place back. -/
theorem idxOf_orderedInsert_of_ne (hsorted : rows.Pairwise r) (ha : a ∈ rows) (hne : b ≠ a) :
    (rows.orderedInsert r b).idxOf a = rows.idxOf a + if r b a then 1 else 0 := by
  -- induction on the sorted rows
  induction rows with
  | nil => cases ha
  | cons c rest ih =>
    rw [pairwise_cons] at hsorted
    by_cases hca : c = a
    · -- `a` is the first row
      subst hca
      by_cases hb : r b c
      · rw [orderedInsert_cons_of_le r rest hb, idxOf_cons_ne _ hne]
        simp [hb]
      · rw [orderedInsert_of_not_le r rest hb]
        simp [hb]
    · have hmem : a ∈ rest := (mem_cons.mp ha).resolve_left fun h => hca h.symm
      by_cases hbc : r b c
      · -- `a` is behind `c`, so it is behind `b` too
        have hba : r b a := IsTrans.trans b c a hbc (hsorted.1 a hmem)
        rw [orderedInsert_cons_of_le r rest hbc, idxOf_cons_ne _ hne, if_pos hba]
      -- the new row comes later; the head of the list stays in front
      · rw [orderedInsert_of_not_le r rest hbc, idxOf_cons_ne _ hca, idxOf_cons_ne _ hca,
          ih hsorted.2 hmem]
        omega

/-- A new row is put behind the rows that are strictly before it. -/
theorem idxOf_orderedInsert_self (hsorted : rows.Pairwise r) (ha : a ∉ rows) :
    (rows.orderedInsert r a).idxOf a = rows.countP fun e => !decide (r a e) := by
  -- induction on the sorted rows again
  induction rows with
  | nil => simp
  | cons c rest ih =>
    rw [pairwise_cons] at hsorted
    have hca : c ≠ a := fun h => ha (h ▸ mem_cons_self)
    by_cases hac : r a c
    -- a row that is not after the new one cannot be before it either
    · have hnone : (c :: rest).countP (fun e => !decide (r a e)) = 0 := by
        rw [countP_eq_zero]
        intro e he
        have hae : r a e := by
          rcases mem_cons.mp he with rfl | hrest
          · exact hac
          · exact IsTrans.trans a c e hac (hsorted.1 e hrest)
        simp [hae]
      rw [orderedInsert_cons_of_le r rest hac, hnone, idxOf_cons_self]
    -- the head is before the new row, and counts once
    · rw [orderedInsert_of_not_le r rest hac, idxOf_cons_ne _ hca,
        ih hsorted.2 fun h => ha (mem_cons_of_mem c h)]
      simp [hac]

/-- The place of a row after sorting. -/
theorem idxOf_insertionSort [Std.Total r] {l₁ l₂ : List α} (h₁ : a ∉ l₁) (h₂ : a ∉ l₂) :
    ((l₁ ++ a :: l₂).insertionSort r).idxOf a =
      l₁.countP (fun e => decide (r e a)) + l₂.countP fun e => !decide (r a e) := by
  -- induction on the rows in front of `a`
  induction l₁ with
  | nil =>
    -- with none in front, `a` is inserted into the sorted rest
    have hnot : a ∉ l₂.insertionSort r := by
      rw [mem_insertionSort]
      exact h₂
    rw [nil_append, insertionSort_cons, idxOf_orderedInsert_self (pairwise_insertionSort r l₂) hnot,
      (perm_insertionSort r l₂).countP_eq]
    simp
  | cons b l₁ ih =>
    rw [mem_cons, not_or] at h₁
    -- with one more in front, it moves `a` by one if it sorts first
    have hmem : a ∈ (l₁ ++ a :: l₂).insertionSort r := by
      rw [mem_insertionSort]
      simp
    rw [cons_append, insertionSort_cons,
      idxOf_orderedInsert_of_ne (pairwise_insertionSort r _) hmem fun h => h₁.1 h.symm, ih h₁.2,
      countP_cons]
    simp only [decide_eq_true_eq]
    omega

end Place

/-! ## Rows ahead -/

section Ahead

variable {α κ : Type} [DecidableEq κ] (key : α → κ) (r : α → α → Prop) [DecidableRel r]
  (p : α → Bool)

/-- How many rows that meet `p` are ahead of `a`: of the rows listed before `a` those that do
    not come after it in the order, of the others those that come strictly before it. -/
def ahead (rows : List α) (a : α) : Nat :=
  (rows.takeWhile fun e => decide (key e ≠ key a)).countP (fun e => p e && decide (r e a)) +
    (rows.dropWhile fun e => decide (key e ≠ key a)).countP fun e => p e && !decide (r a e)

variable {key r p} {l₁ l₂ rows : List α} {a : α} {n : Nat}

theorem ahead_append_cons (h : key a ∉ l₁.map key) :
    (l₁ ++ a :: l₂).ahead key r p a =
      l₁.countP (fun e => p e && decide (r e a)) +
        (a :: l₂).countP fun e => p e && !decide (r a e) := by
  have hfront : ∀ e ∈ l₁, decide (key e ≠ key a) = true := by
    intro e he
    have hne : key e ≠ key a := fun heq => h (heq ▸ mem_map_of_mem he)
    simpa using hne
  rw [ahead, takeWhile_append_of_pos hfront, dropWhile_append_of_pos hfront]
  simp

/-- A row is on the page if and only if fewer rows are ahead of it than the page holds. -/
theorem mem_firstBy_iff [Std.Total r] [IsTrans α r] (hnodup : (rows.map key).Nodup) (ha : a ∈ rows)
    (hp : p a = true) : a ∈ rows.firstBy r p n ↔ rows.ahead key r p a < n := by
  -- only now is the order used; the membership needs no decision
  classical
  obtain ⟨l₁, l₂, rfl⟩ := append_of_mem ha
  rw [map_append, map_cons, nodup_append, nodup_cons] at hnodup
  have h₁ : key a ∉ l₁.map key := fun h => hnodup.2.2 _ h _ mem_cons_self rfl
  -- the row is not among those in front of it, nor among those behind
  have hnot₁ : a ∉ l₁.filter p := fun h => h₁ (mem_map_of_mem (mem_filter.mp h).1)
  have hnot₂ : a ∉ l₂.filter p := fun h => hnodup.2.1.1 (mem_map_of_mem (mem_filter.mp h).1)
  have hmem : a ∈ ((l₁ ++ a :: l₂).filter p).insertionSort r := by
    rw [mem_insertionSort, mem_filter]
    exact ⟨ha, hp⟩
  have hself : r a a := (Std.Total.total (r := r) a a).elim id id
  -- its place in the sorted page is the number of rows that sort before it
  rw [firstBy, mem_take_iff_idxOf_lt hmem, filter_append, filter_cons, if_pos hp,
    idxOf_insertionSort hnot₁ hnot₂, ahead_append_cons h₁, countP_filter, countP_filter, countP_cons]
  simp [hself, Bool.and_comm]

end Ahead

end List
