import Mathlib.Data.List.Nodup

/-!
# Keyed tables

A `Table key` is a list of rows in which no two rows share a key, in the order in
which the keys were first inserted: the behaviour of an insertion-ordered map whose
values carry their own key (a database table with a primary key, a JavaScript `Map`
filled by `m.set(v.id, v)`).

The uniqueness of keys is a proof field, so a lookup never has to choose between two
rows and `get?_set` holds without side conditions.
-/

/-- Rows of type `ν`, at most one for each key. -/
structure Table {κ ν : Type} [DecidableEq κ] (key : ν → κ) where
  rows : List ν
  nodup : (rows.map key).Nodup

namespace Table

variable {κ ν : Type} [DecidableEq κ] {key : ν → κ}

/-- The table without rows. -/
def empty : Table key := ⟨[], List.nodup_nil⟩

/-- The row stored under `k`. -/
def get? (t : Table key) (k : κ) : Option ν :=
  t.rows.find? fun v => decide (key v = k)

/-- Replace every row that has the key of `v` by `v`. -/
def overwrite (key : ν → κ) (v : ν) (rows : List ν) : List ν :=
  rows.map fun w => if key w = key v then v else w

/-- Overwriting a row keeps the keys. -/
private theorem overwrite_keys (v : ν) (rows : List ν) :
    (overwrite key v rows).map key = rows.map key := by
  rw [overwrite, List.map_map]
  apply List.map_congr_left
  intro w _
  by_cases h : key w = key v
  · simp [h]
  · simp [h]

/-- Store `v` under its own key: in place when the key is present, at the end otherwise. -/
def set (t : Table key) (v : ν) : Table key :=
  if h : key v ∈ t.rows.map key then
    ⟨overwrite key v t.rows, by rw [overwrite_keys]; exact t.nodup⟩
  else
    ⟨t.rows ++ [v], by
      rw [List.map_append, List.nodup_append]
      refine ⟨t.nodup, by simp, ?_⟩
      intro a ha b hb
      simp only [List.map_cons, List.map_nil, List.mem_singleton] at hb
      rintro rfl
      exact h (hb ▸ ha)⟩

/-- Remove the row stored under `k`. -/
def erase (t : Table key) (k : κ) : Table key :=
  ⟨t.rows.filter fun v => decide (key v ≠ k),
    t.nodup.sublist (List.filter_sublist.map key)⟩

@[simp] theorem get?_empty (k : κ) : (empty : Table key).get? k = none := rfl

/-- A row found under `k` has the key `k`. -/
theorem key_of_get? {t : Table key} {k : κ} {v : ν} (h : t.get? k = some v) : key v = k := by
  simpa using List.find?_some h

/-- A row that is found is in the table. -/
theorem mem_of_get? {t : Table key} {k : κ} {v : ν} (h : t.get? k = some v) : v ∈ t.rows :=
  List.mem_of_find?_eq_some h

/-- A row of the table is found under its key. -/
private theorem find?_of_mem {rows : List ν} (hn : (rows.map key).Nodup) {v : ν}
    (h : v ∈ rows) : rows.find? (fun w => decide (key w = key v)) = some v := by
  induction rows with
  | nil => cases h
  | cons w rest ih =>
    rw [List.map_cons, List.nodup_cons] at hn
    rcases List.mem_cons.mp h with rfl | hmem
    · simp
    · have hne : key w ≠ key v := fun heq => hn.1 (heq ▸ List.mem_map_of_mem hmem)
      rw [List.find?_cons_of_neg (by simpa using hne)]
      exact ih hn.2 hmem

/-- Every stored row is found under its own key. -/
theorem get?_of_mem {t : Table key} {v : ν} (h : v ∈ t.rows) : t.get? (key v) = some v :=
  find?_of_mem t.nodup h

/-- The rows are exactly the results of successful lookups. -/
theorem mem_rows_iff {t : Table key} {v : ν} : v ∈ t.rows ↔ t.get? (key v) = some v :=
  ⟨get?_of_mem, mem_of_get?⟩

/-- A key without a row is the key of none. -/
theorem get?_eq_none_iff {t : Table key} {k : κ} : t.get? k = none ↔ k ∉ t.rows.map key := by
  rw [get?, List.find?_eq_none]
  simp [List.mem_map]

/-- Overwriting a row leaves the others. -/
private theorem find?_overwrite (v : ν) (rows : List ν) (k : κ) (hne : k ≠ key v) :
    (overwrite key v rows).find? (fun w => decide (key w = k)) =
      rows.find? (fun w => decide (key w = k)) := by
  -- induction on the rows
  induction rows with
  | nil => rfl
  | cons w rest ih =>
    simp only [overwrite, List.map_cons] at ih ⊢
    -- a row under the key is replaced, which is not the row that is looked for
    by_cases hw : key w = key v
    · have hvk : ¬ key v = k := fun h => hne h.symm
      have hwk : ¬ key w = k := fun h => hvk (hw.symm.trans h)
      rw [if_pos hw, List.find?_cons_of_neg (by simpa using hvk),
        List.find?_cons_of_neg (by simpa using hwk), ih]
    · rw [if_neg hw, List.find?_cons, List.find?_cons, ih]

/-- Lookup after a store: the stored row under its key, the old row elsewhere. -/
theorem get?_set (t : Table key) (v : ν) (k : κ) :
    (t.set v).get? k = if k = key v then some v else t.get? k := by
  -- the row that was set, or another one
  by_cases hk : k = key v
  · subst hk
    rw [if_pos rfl]
    refine get?_of_mem ?_
    unfold set
    -- the row replaces one of its key, or is appended
    split
    · rename_i h
      obtain ⟨w, hw, hkw⟩ := List.mem_map.mp h
      exact List.mem_map.mpr ⟨w, hw, if_pos hkw⟩
    · exact List.mem_append_right _ (List.mem_singleton.mpr rfl)
  · rw [if_neg hk]
    unfold set
    split
    -- the others are found as before
    · exact find?_overwrite v t.rows k hk
    · have hvk : ¬ key v = k := fun h => hk h.symm
      simp only [get?, List.find?_append]
      rw [List.find?_cons_of_neg (by simpa using hvk)]
      simp

@[simp] theorem get?_set_self (t : Table key) (v : ν) : (t.set v).get? (key v) = some v := by
  rw [get?_set, if_pos rfl]

/-- Lookup after several stores: one of the stored rows, or the old row. -/
theorem get?_foldl_set (t : Table key) (vs : List ν) (k : κ) :
    (vs.foldl set t).get? k = t.get? k ∨
      ∃ v ∈ vs, key v = k ∧ (vs.foldl set t).get? k = some v := by
  -- induction on the list of new rows
  induction vs generalizing t with
  | nil => exact .inl rfl
  | cons v vs ih =>
    rw [List.foldl_cons]
    -- a later row has replaced this one, or none has
    rcases ih (t.set v) with h | ⟨w, hw, hk, h⟩
    · by_cases hk : k = key v
      · rw [h, get?_set, if_pos hk]
        exact .inr ⟨v, List.mem_cons_self, hk.symm, rfl⟩
      · rw [h, get?_set, if_neg hk]
        exact .inl rfl
    · exact .inr ⟨w, List.mem_cons_of_mem _ hw, hk, h⟩

/-- After several stores one of the rows stored under a key is found there. -/
theorem get?_foldl_set_of_mem {t : Table key} {vs : List ν} {v : ν} (hv : v ∈ vs) :
    ∃ w ∈ vs, key w = key v ∧ (vs.foldl set t).get? (key v) = some w := by
  -- the same induction, for a row of the list
  induction vs generalizing t with
  | nil => cases hv
  | cons u vs ih =>
    rw [List.foldl_cons]
    rcases get?_foldl_set (t.set u) vs (key v) with h | ⟨w, hw, hk, h⟩
    · rcases List.mem_cons.mp hv with rfl | hmem
      · exact ⟨v, List.mem_cons_self, rfl, h.trans (get?_set_self t v)⟩
      · obtain ⟨w, hw, hk, hget⟩ := ih (t := t.set u) hmem
        exact ⟨w, List.mem_cons_of_mem _ hw, hk, hget⟩
    · exact ⟨w, List.mem_cons_of_mem _ hw, hk, h⟩

/-- The rows that are left when a key is erased. -/
theorem mem_rows_erase {t : Table key} {k : κ} {v : ν} :
    v ∈ (t.erase k).rows ↔ v ∈ t.rows ∧ key v ≠ k := by
  simp [erase]

/-- An erased key is not found. -/
theorem get?_erase (t : Table key) (k k' : κ) :
    (t.erase k).get? k' = if k' = k then none else t.get? k' := by
  -- an erased key is found no more
  split
  · rename_i h
    rw [get?_eq_none_iff, List.mem_map]
    rintro ⟨v, hv, hkey⟩
    exact (mem_rows_erase.mp hv).2 (hkey.trans h)
  · rename_i h
    -- another one is found, or not, as before
    cases hget : t.get? k' with
    | none =>
      rw [get?_eq_none_iff, List.mem_map] at hget ⊢
      rintro ⟨v, hv, hkey⟩
      exact hget ⟨v, (mem_rows_erase.mp hv).1, hkey⟩
    | some v =>
      have hkey := key_of_get? hget
      rw [← hkey]
      apply get?_of_mem
      rw [mem_rows_erase, hkey]
      exact ⟨mem_of_get? hget, h⟩

/-- A row of `t.set v` is `v` itself or an old row under another key. -/
theorem mem_rows_set {t : Table key} {v w : ν} :
    w ∈ (t.set v).rows ↔ w = v ∨ (w ∈ t.rows ∧ key w ≠ key v) := by
  -- the membership is read through the look-up
  rw [mem_rows_iff, get?_set, mem_rows_iff]
  by_cases h : key w = key v
  · rw [if_pos h, Option.some.injEq]
    simp only [h, ne_eq, not_true_eq_false, and_false, or_false]
    exact eq_comm
  · rw [if_neg h]
    simp only [ne_eq, h, not_false_eq_true, and_true]
    -- a row of another key is one of the old ones
    constructor
    · exact Or.inr
    · rintro (rfl | hw)
      · exact absurd rfl h
      · exact hw

/-! ## The rows as a list -/

/-- A row under a new key is stored at the end. -/
theorem rows_set_of_none {t : Table key} {v : ν} (h : t.get? (key v) = none) :
    (t.set v).rows = t.rows ++ [v] := by
  unfold set
  rw [dif_neg (get?_eq_none_iff.mp h)]

/-- Nothing is overwritten under a new key. -/
private theorem overwrite_of_notMem {v : ν} {rows : List ν} (h : key v ∉ rows.map key) :
    overwrite key v rows = rows := by
  rw [overwrite, List.map_congr_left (g := id), List.map_id]
  intro u hu
  have hne : key u ≠ key v := fun heq => h (heq ▸ List.mem_map_of_mem hu)
  simp [hne]

/-- A row under a key in use is stored in place. -/
theorem rows_set_of_some {t : Table key} {v w : ν} (h : t.get? (key v) = some w) :
    ∃ before after, t.rows = before ++ w :: after ∧ (t.set v).rows = before ++ v :: after := by
  have hkw := key_of_get? h
  obtain ⟨before, after, hrows⟩ := List.append_of_mem (mem_of_get? h)
  refine ⟨before, after, hrows, ?_⟩
  -- The key is at one place only; before and after it nothing changes.
  have hnodup := t.nodup
  simp only [hrows, List.map_append, List.map_cons, List.nodup_append, List.nodup_cons] at hnodup
  have hbefore : key v ∉ before.map key := fun hb =>
    hnodup.2.2 (key v) hb (key w) (by simp) hkw.symm
  have hafter : key v ∉ after.map key := fun ha => hnodup.2.1.1 (hkw ▸ ha)
  have hmem : key v ∈ t.rows.map key := by
    rw [hrows]
    simp [hkw]
  unfold set
  rw [dif_pos hmem]
  show overwrite key v t.rows = _
  rw [hrows, overwrite, List.map_append, List.map_cons, if_pos hkw]
  exact congrArg₂ _ (overwrite_of_notMem hbefore)
    (congrArg _ (overwrite_of_notMem hafter))

/-- A field that the new row shares with the old one is unchanged in the list of rows. -/
theorem map_rows_set {β : Type} {f : ν → β} {t : Table key} {v w : ν}
    (h : t.get? (key v) = some w) (hf : f v = f w) : (t.set v).rows.map f = t.rows.map f := by
  obtain ⟨before, after, hrows, hset⟩ := rows_set_of_some h
  simp [hrows, hset, hf]

/-- A row that comes to meet the condition is added to the rows that meet it. -/
theorem filter_rows_set_perm {p : ν → Bool} {t : Table key} {v w : ν}
    (h : t.get? (key v) = some w) (hw : p w = false) (hv : p v = true) :
    ((t.set v).rows.filter p).Perm (v :: t.rows.filter p) := by
  obtain ⟨before, after, hrows, hset⟩ := rows_set_of_some h
  simp only [hrows, hset, List.filter_append, List.filter_cons, hv, hw, if_true,
    Bool.false_eq_true, if_false]
  exact List.perm_middle

/-- A row that did not meet the condition and does not meet it now changes nothing. -/
theorem filter_rows_set_eq {p : ν → Bool} {t : Table key} {v w : ν}
    (h : t.get? (key v) = some w) (hw : p w = false) (hv : p v = false) :
    (t.set v).rows.filter p = t.rows.filter p := by
  obtain ⟨before, after, hrows, hset⟩ := rows_set_of_some h
  simp [hrows, hset, List.filter_append, hv, hw]

/-- A row under a new key is counted when it meets the condition. -/
theorem countP_rows_set_of_none {t : Table key} {v : ν} (h : t.get? (key v) = none)
    (p : ν → Bool) : (t.set v).rows.countP p = t.rows.countP p + if p v then 1 else 0 := by
  rw [rows_set_of_none h, List.countP_append, List.countP_singleton]

/-- A row that is counted before and after, or neither, changes no count. -/
theorem countP_rows_set_of_some {p : ν → Bool} {t : Table key} {v w : ν}
    (h : t.get? (key v) = some w) (hp : p v = p w) :
    (t.set v).rows.countP p = t.rows.countP p := by
  obtain ⟨before, after, hrows, hset⟩ := rows_set_of_some h
  simp only [hrows, hset, List.countP_append, List.countP_cons, hp]

/-- The removal of a row that is not counted. -/
theorem countP_rows_erase {p : ν → Bool} {t : Table key} {k : κ}
    (h : ∀ v, t.get? k = some v → p v = false) : (t.erase k).rows.countP p = t.rows.countP p := by
  show (t.rows.filter fun v => decide (key v ≠ k)).countP p = _
  rw [List.countP_filter]
  apply List.countP_congr
  intro v hv
  by_cases hk : key v = k
  · have hget := get?_of_mem hv
    rw [hk] at hget
    simp [h v hget]
  · simp [hk]

/-! ## The first rows -/

/-- The removal of the first row leaves the others as they are. -/
theorem rows_erase_head {t : Table key} {v : ν} {rest : List ν} (h : t.rows = v :: rest) :
    (t.erase (key v)).rows = rest := by
  have hnodup := t.nodup
  rw [h, List.map_cons, List.nodup_cons] at hnodup
  show t.rows.filter (fun w => decide (key w ≠ key v)) = rest
  rw [h, List.filter_cons_of_neg (by simp), List.filter_eq_self]
  intro w hw
  have hne : key w ≠ key v := fun heq => hnodup.1 (heq ▸ List.mem_map_of_mem hw)
  simpa using hne

/-- The removal of the first `n` keys, one after the other. -/
theorem rows_foldl_erase_take (t : Table key) (n : Nat) :
    (((t.rows.map key).take n).foldl erase t).rows = t.rows.drop n := by
  -- induction on the number of rows that are taken
  induction n generalizing t with
  | zero => simp
  | succ n ih =>
    cases hrows : t.rows with
    | nil => simp [hrows]
    | cons v rest =>
      have hrest := rows_erase_head hrows
      simp only [List.map_cons, List.take_succ_cons, List.foldl_cons, List.drop_succ_cons]
      rw [← hrest]
      exact ih (t.erase (key v))

end Table
