import Mathlib.Data.List.Basic
import Mathlib.Order.Lattice

/-!
# Keyset pagination

A table is read page by page: each request asks for the rows behind the key of the last row
it has seen, and the table may have grown since. `Keyset.walk` is the client of such a
table. Its pages are strictly increasing (`walk_sorted`), it skips no row that was there
from the start (`mem_walk`), and it comes to an end once the table stays as it is
(`walk_append_replicate`).
-/

namespace Keyset

variable {α κ : Type} [LinearOrder κ] (key : α → κ) (limit : Nat)

/-- The rows behind a cursor. -/
def behind (cursor : Option κ) (rows : List α) : List α :=
  rows.filter fun a => cursor.all fun k => decide (k < key a)

/-- The pages of a client that follows the cursors, and whether it has seen the last one.
    `tables` are the sorted rows at each of its requests. -/
def walk : Option κ → List (List α) → List (List α) × Bool
  | _, [] => ([], false)
  | cursor, rows :: tables =>
    let page := (behind key cursor rows).take limit
    if limit < (behind key cursor rows).length then
      let rest := walk (page.getLast?.map key) tables
      (page :: rest.1, rest.2)
    else ([page], true)

variable {key limit}

theorem mem_behind {cursor : Option κ} {rows : List α} {a : α} :
    a ∈ behind key cursor rows ↔ a ∈ rows ∧ ∀ k ∈ cursor, k < key a := by
  cases cursor <;> simp [behind]

/-- In a sorted table the rows behind a key are found by skipping those that are not. -/
theorem dropWhile_eq_behind {rows : List α} (h : rows.Pairwise fun a b => key a < key b) (k : κ) :
    rows.dropWhile (fun a => !decide (k < key a)) = behind key (some k) rows := by
  unfold behind
  -- induction on the rows, in the order of their keys
  induction rows with
  | nil => rfl
  | cons a rows ih =>
    obtain ⟨hhead, htail⟩ := List.pairwise_cons.mp h
    by_cases hk : k < key a
    · -- The rows after this one have larger keys still.
      have hall : ∀ b ∈ a :: rows, k < key b := by
        intro b hb
        rcases List.mem_cons.mp hb with rfl | hb
        · exact hk
        · exact lt_trans hk (hhead b hb)
      rw [List.dropWhile_cons_of_neg (by simp [hk]), List.filter_eq_self.mpr]
      intro b hb
      simp [hall b hb]
    · rw [List.dropWhile_cons_of_pos (by simp [hk]), ih htail, List.filter_cons_of_neg (by simp [hk])]

theorem behind_sorted {rows : List α} (h : rows.Pairwise fun a b => key a < key b)
    (cursor : Option κ) : (behind key cursor rows).Pairwise fun a b => key a < key b :=
  h.sublist List.filter_sublist

/-- A page that is not the last one ends with a row. -/
theorem getLast?_take {rest : List α} (hlimit : 0 < limit) (h : limit < rest.length) :
    ∃ last, (rest.take limit).getLast? = some last := by
  have hne : rest.take limit ≠ [] := by
    intro hnil
    have hlen := congrArg List.length hnil
    simp only [List.length_take, List.length_nil] at hlen
    omega
  exact ⟨_, List.getLast?_eq_some_getLast hne⟩

theorem length_page_le (cursor : Option κ) (tables : List (List α)) :
    ∀ page ∈ (walk key limit cursor tables).1, page.length ≤ limit := by
  induction tables generalizing cursor with
  | nil => simp [walk]
  | cons rows tables ih =>
    intro page hpage
    rw [walk] at hpage
    split at hpage
    · rcases List.mem_cons.mp hpage with rfl | hpage
      · exact List.length_take_le _ _
      · exact ih _ page hpage
    · rcases List.mem_cons.mp hpage with rfl | hpage
      · exact List.length_take_le _ _
      · cases hpage

/-- Only rows of the tables are returned. -/
theorem mem_table_of_mem_walk {cursor : Option κ} {tables : List (List α)} {a : α}
    (h : a ∈ (walk key limit cursor tables).1.flatten) : ∃ rows ∈ tables, a ∈ rows := by
  induction tables generalizing cursor with
  | nil => simp [walk] at h
  | cons rows tables ih =>
    have hpage : a ∈ (behind key cursor rows).take limit → ∃ r ∈ rows :: tables, a ∈ r :=
      fun ha => ⟨rows, List.mem_cons_self, (mem_behind.mp (List.mem_of_mem_take ha)).1⟩
    rw [walk] at h
    split at h
    · rcases List.mem_append.mp h with ha | ha
      · exact hpage ha
      · obtain ⟨r, hr, har⟩ := ih ha
        exact ⟨r, List.mem_cons_of_mem _ hr, har⟩
    · exact hpage (by simpa using h)

/-- The rows that are returned lie behind the cursor. -/
theorem lt_of_mem_walk {cursor : Option κ} {tables : List (List α)} {a : α} (hlimit : 0 < limit)
    (h : a ∈ (walk key limit cursor tables).1.flatten) : ∀ k ∈ cursor, k < key a := by
  induction tables generalizing cursor with
  -- induction on the tables, one for each page
  | nil => simp [walk] at h
  | cons rows tables ih =>
    -- a row of a page is behind the cursor of that page
    have hpage : ∀ b ∈ (behind key cursor rows).take limit, ∀ k ∈ cursor, k < key b :=
      fun b hb => (mem_behind.mp (List.mem_of_mem_take hb)).2
    rw [walk] at h
    split at h
    · rename_i hmore
      -- the row is of this page, or of a later one
      rcases List.mem_append.mp h with ha | ha
      · exact hpage a ha
      · intro k hk
        obtain ⟨last, hlast⟩ := getLast?_take hlimit hmore
        have hlt := ih ha (key last) (by simp [hlast])
        exact lt_trans (hpage last (List.mem_of_getLast? hlast) k hk) hlt
    · exact hpage a (by simpa using h)
-- a short page is the last

theorem le_getLast {page : List α} (h : page.Pairwise fun a b => key a < key b) {last : α}
    (hlast : page.getLast? = some last) : ∀ a ∈ page, key a ≤ key last := by
  intro a ha
  obtain ⟨init, rfl⟩ := List.getLast?_eq_some_iff.mp hlast
  rcases List.mem_append.mp ha with ha | ha
  · exact le_of_lt ((List.pairwise_append.mp h).2.2 a ha last (by simp))
  · rw [List.mem_singleton.mp ha]

/-- The keys increase within each page and from page to page. -/
theorem walk_sorted {tables : List (List α)} (hlimit : 0 < limit)
    (h : ∀ rows ∈ tables, rows.Pairwise fun a b => key a < key b) (cursor : Option κ) :
    (walk key limit cursor tables).1.flatten.Pairwise fun a b => key a < key b := by
  induction tables generalizing cursor with
  -- induction on the tables again
  | nil => simp [walk]
  | cons rows tables ih =>
    have hpage : ((behind key cursor rows).take limit).Pairwise fun a b => key a < key b :=
      (behind_sorted (h rows List.mem_cons_self) cursor).sublist (List.take_sublist _ _)
    rw [walk]
    split
    · rename_i hmore
      obtain ⟨last, hlast⟩ := getLast?_take hlimit hmore
      -- the rows of the later pages are behind the last row of this one
      rw [hlast]
      apply List.pairwise_append.mpr
      refine ⟨hpage, ih (fun r hr => h r (List.mem_cons_of_mem _ hr)) _, ?_⟩
      intro a ha b hb
      exact lt_of_le_of_lt (le_getLast hpage hlast a ha) (lt_of_mem_walk hlimit hb _ rfl)
    · simpa using hpage

/-- A walk that has seen the last page has seen every row that was there all the time. -/
theorem mem_walk {tables : List (List α)} {cursor : Option κ} {a : α}
    (h : ∀ rows ∈ tables, rows.Pairwise fun a b => key a < key b)
    (hdone : (walk key limit cursor tables).2 = true) (hmem : ∀ rows ∈ tables, a ∈ rows)
    (hbehind : ∀ k ∈ cursor, k < key a) : a ∈ (walk key limit cursor tables).1.flatten := by
  induction tables generalizing cursor with
  | nil => simp [walk] at hdone
  | cons rows tables ih =>
    -- the row is in every table, so it is behind the first cursor
    have hrest : a ∈ behind key cursor rows := mem_behind.mpr ⟨hmem rows List.mem_cons_self, hbehind⟩
    have hsorted := behind_sorted (h rows List.mem_cons_self) cursor
    rw [walk] at hdone ⊢
    split
    · rename_i hmore
      -- the walk goes on, or this is its last page
      rw [if_pos hmore] at hdone
      rw [← List.take_append_drop limit (behind key cursor rows)] at hrest hsorted
      rcases List.mem_append.mp hrest with ha | ha
      · exact List.mem_append_left _ ha
      · -- The row comes after this page, so it is behind the next cursor.
        apply List.mem_append_right
        apply ih (fun r hr => h r (List.mem_cons_of_mem _ hr)) hdone
          (fun r hr => hmem r (List.mem_cons_of_mem _ hr))
        intro k hk
        obtain ⟨last, hlast, rfl⟩ := Option.map_eq_some_iff.mp hk
        exact (List.pairwise_append.mp hsorted).2.2 last (List.mem_of_getLast? hlast) a ha
    · rename_i hmore
      rw [List.take_of_length_le (Nat.le_of_not_lt hmore)]
      simpa using hrest

/-- Behind a row that lies behind the cursor there are fewer rows. -/
theorem length_behind_lt {cursor : Option κ} {rows : List α} {last : α}
    (h : last ∈ behind key cursor rows) :
    (behind key (some (key last)) rows).length < (behind key cursor rows).length := by
  obtain ⟨hmem, hbehind⟩ := mem_behind.mp h
  have hsub : (behind key (some (key last)) rows).Sublist (behind key cursor rows) := by
    apply List.monotone_filter_right
    intro a ha
    simp only [Option.all_some, decide_eq_true_eq] at ha
    cases cursor with
    | none => rfl
    | some k => simpa using lt_trans (hbehind k rfl) ha
  apply Nat.lt_of_le_of_ne hsub.length_le
  intro hlen
  rw [← hsub.eq_of_length hlen] at h
  exact lt_irrefl _ ((mem_behind.mp h).2 _ rfl)

theorem walk_replicate {rows : List α} (hlimit : 0 < limit) {n : Nat} {cursor : Option κ}
    (h : (behind key cursor rows).length < n) :
    (walk key limit cursor (List.replicate n rows)).2 = true := by
  induction n generalizing cursor with
  | zero => omega
  | succ n ih =>
    rw [List.replicate_succ, walk]
    split
    · rename_i hmore
      obtain ⟨last, hlast⟩ := getLast?_take hlimit hmore
      have hlt := length_behind_lt (List.mem_of_mem_take (List.mem_of_getLast? hlast))
      rw [hlast]
      exact ih (by simp only [Option.map_some]; omega)
    · rfl

/-- Once the table stays as it is, the walk ends after at most as many pages as it has rows. -/
theorem walk_append_replicate {rows : List α} (hlimit : 0 < limit) {n : Nat}
    (h : rows.length < n) (tables : List (List α)) (cursor : Option κ) :
    (walk key limit cursor (tables ++ List.replicate n rows)).2 = true := by
  induction tables generalizing cursor with
  | nil =>
    have hle : (behind key cursor rows).length ≤ rows.length := List.length_filter_le _ _
    exact walk_replicate hlimit (by omega)
  | cons r tables ih =>
    rw [List.cons_append, walk]
    split
    · exact ih _
    · rfl

end Keyset
