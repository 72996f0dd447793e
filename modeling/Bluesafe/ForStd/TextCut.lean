import Bluesafe.ForStd.Text

/-!
# Texts cut by their bytes

The text of the first `n` bytes of a text. The cut may fall into a character; a decoder then
puts one replacement character for the bytes that are left of it. `cutBytes_eq` describes the
cut without recursion: the longest front of the text that fits, and a replacement character if
it does not fill the bytes.
-/

namespace Text

/-- The decoder's sign for bytes that are no character. -/
def replacement : Char := Char.ofNat 0xFFFD

/-- The text of the first `n` bytes. -/
def cutBytes : Nat → List Char → List Char
  | _, [] => []
  | n, c :: cs =>
    if c.utf8Size ≤ n then c :: cutBytes (n - c.utf8Size) cs
    else if n = 0 then [] else [replacement]

/-- The sum of the sizes, from any start. -/
private theorem foldl_utf8Size (n : Nat) (cs : List Char) :
    cs.foldl (fun n c => n + c.utf8Size) n = n + byteLength cs := by
  unfold byteLength
  induction cs generalizing n with
  | nil => rfl
  | cons c cs ih => rw [List.foldl_cons, List.foldl_cons, ih, ih (0 + _), Nat.zero_add, Nat.add_assoc]

/-- The empty text has no bytes. -/
@[simp] theorem byteLength_nil : byteLength [] = 0 := rfl

/-- The first character, and the rest. -/
@[simp] theorem byteLength_cons (c : Char) (cs : List Char) :
    byteLength (c :: cs) = c.utf8Size + byteLength cs := by
  rw [byteLength, List.foldl_cons, foldl_utf8Size, Nat.zero_add]

/-- The bytes of two texts. -/
@[simp] theorem byteLength_append (as bs : List Char) :
    byteLength (as ++ bs) = byteLength as + byteLength bs := by
  rw [byteLength, List.foldl_append, foldl_utf8Size]
  rfl

/-- Every character has a byte. -/
theorem byteLength_pos {cs : List Char} (h : cs ≠ []) : 0 < byteLength cs := by
  cases cs with
  | nil => exact absurd rfl h
  | cons c cs =>
    rw [byteLength_cons]
    have hc := c.utf8Size_pos
    omega

/-- A text that fits is not cut. -/
theorem cutBytes_of_le {n : Nat} {cs : List Char} (h : byteLength cs ≤ n) : cutBytes n cs = cs := by
  induction cs generalizing n with
  | nil => rfl
  | cons c cs ih =>
    rw [byteLength_cons] at h
    rw [cutBytes, if_pos (by omega), ih (by omega)]

/-- A cut behind the first part of a text. -/
theorem cutBytes_append {n : Nat} {as bs : List Char} (h : byteLength as ≤ n) :
    cutBytes n (as ++ bs) = as ++ cutBytes (n - byteLength as) bs := by
  induction as generalizing n with
  | nil => rfl
  | cons c cs ih =>
    rw [byteLength_cons] at h
    rw [List.cons_append, cutBytes, if_pos (by omega), ih (by omega), byteLength_cons, Nat.sub_sub,
      List.cons_append]

/-- No bytes hold no text. -/
@[simp] theorem cutBytes_zero (cs : List Char) : cutBytes 0 cs = [] := by
  cases cs with
  | nil => rfl
  | cons c cs =>
    have hc := c.utf8Size_pos
    rw [cutBytes, if_neg (by omega), if_pos rfl]

/-- A cut inside the first part of a text, or right behind it. -/
theorem cutBytes_append_of_le {n : Nat} {as : List Char} (h : n ≤ byteLength as) (bs : List Char) :
    cutBytes n (as ++ bs) = cutBytes n as := by
  induction as generalizing n with
  | nil =>
    have hzero : n = 0 := Nat.le_zero.mp h
    rw [hzero, cutBytes_zero, cutBytes_zero]
  | cons c cs ih =>
    rw [byteLength_cons] at h
    rw [List.cons_append, cutBytes, cutBytes]
    by_cases hc : c.utf8Size ≤ n
    · rw [if_pos hc, if_pos hc, ih (by omega)]
    · rw [if_neg hc, if_neg hc]

/-- What is cut from a text that does not fit: a proper front of it, filled up with a
    replacement character if bytes are left. -/
theorem cutBytes_eq {n : Nat} {cs : List Char} (h : n < byteLength cs) :
    ∃ front c rest, cs = front ++ c :: rest ∧ byteLength front ≤ n ∧ n < byteLength front + c.utf8Size ∧
      cutBytes n cs = front ++ if byteLength front = n then [] else [replacement] := by
  -- induction on the text: a character that fits is taken, and the cut goes on behind it
  induction cs generalizing n with
  | nil => exact absurd h (Nat.not_lt_zero n)
  | cons c cs ih =>
    rw [byteLength_cons] at h
    by_cases hc : c.utf8Size ≤ n
    · obtain ⟨front, d, rest, hcs, hle, hlt, hcut⟩ := ih (n := n - c.utf8Size) (by omega)
      refine ⟨c :: front, d, rest, by rw [hcs, List.cons_append], ?_, ?_, ?_⟩
      · rw [byteLength_cons]
        omega
      · rw [byteLength_cons]
        omega
      · rw [cutBytes, if_pos hc, hcut, byteLength_cons, List.cons_append]
        have hiff : byteLength front = n - c.utf8Size ↔ c.utf8Size + byteLength front = n := by omega
        simp only [hiff]
    -- the first character does not fit, so the cut is here
    · refine ⟨[], c, cs, rfl, Nat.zero_le n, by rw [byteLength_nil]; omega, ?_⟩
      rw [cutBytes, if_neg hc, byteLength_nil, List.nil_append]
      simp only [eq_comm]


/-- A cut text has no characters of its own but the replacement. -/
theorem mem_of_mem_cutBytes {n : Nat} {cs : List Char} {c : Char} (h : c ∈ cutBytes n cs) :
    c ∈ cs ∨ c = replacement := by
  by_cases hfits : byteLength cs ≤ n
  · rw [cutBytes_of_le hfits] at h
    exact .inl h
  · obtain ⟨front, d, rest, rfl, -, -, hcut⟩ := cutBytes_eq (Nat.lt_of_not_le hfits)
    rw [hcut, List.mem_append] at h
    rcases h with hfront | hfill
    · exact .inl (List.mem_append_left _ hfront)
    · split at hfill
      · cases hfill
      · exact .inr (List.mem_singleton.mp hfill)

/-- Nothing is left of a text only if no byte is. -/
theorem eq_zero_of_cutBytes_eq_nil {n : Nat} {cs : List Char} (hcs : cs ≠ [])
    (h : cutBytes n cs = []) : n = 0 := by
  cases cs with
  | nil => exact absurd rfl hcs
  | cons c cs =>
    rw [cutBytes] at h
    split at h
    · cases h
    · split at h
      · assumption
      · cases h

/-- A text that does not end with the replacement is left whole only if it fits. -/
theorem byteLength_le_of_cutBytes_eq_self {n : Nat} {cs : List Char}
    (hlast : cs.getLast? ≠ some replacement) (h : cutBytes n cs = cs) : byteLength cs ≤ n := by
  by_contra hfits
  obtain ⟨front, c, rest, hcs, -, -, hcut⟩ := cutBytes_eq (Nat.lt_of_not_le hfits)
  rw [hcut, hcs] at h
  have hrest := List.append_cancel_left h
  split at hrest
  · cases hrest
  · rw [hcs, ← hrest, List.getLast?_concat] at hlast
    exact hlast rfl

/-! ## Line texts -/

/-- The lines of a text that are not empty. -/
def nonEmptyLines (text : List Char) : List (List Char) :=
  (text.splitOn '\n').filter fun line => !line.isEmpty

/-- Every line with a line break behind it. -/
def joinLines (lines : List (List Char)) : List Char := lines.flatMap fun line => line ++ ['\n']

/-- A text of one line that is not empty. -/
def IsLine (line : List Char) : Prop := line ≠ [] ∧ '\n' ∉ line

/-- The first line, and the rest. -/
theorem joinLines_cons (line : List Char) (lines : List (List Char)) :
    joinLines (line :: lines) = line ++ '\n' :: joinLines lines := by
  simp [joinLines]

/-- The lines of two texts. -/
theorem joinLines_append (as bs : List (List Char)) :
    joinLines (as ++ bs) = joinLines as ++ joinLines bs := List.flatMap_append

/-- A line takes its bytes and its break. -/
theorem byteLength_joinLines_cons (line : List Char) (lines : List (List Char)) :
    byteLength (joinLines (line :: lines)) = byteLength line + 1 + byteLength (joinLines lines) := by
  have hbreak : '\n'.utf8Size = 1 := rfl
  rw [joinLines_cons, byteLength_append, byteLength_cons, hbreak, Nat.add_assoc]

/-- The empty text has no lines. -/
@[simp] theorem nonEmptyLines_nil : nonEmptyLines [] = [] := rfl

/-- The first line of a text. -/
theorem nonEmptyLines_line {line : List Char} (h : '\n' ∉ line) (rest : List Char) :
    nonEmptyLines (line ++ '\n' :: rest) = [line].filter (fun l => !l.isEmpty) ++ nonEmptyLines rest := by
  have hfree : ∀ c ∈ line, (c == '\n') = false := by
    intro c hc
    rw [beq_eq_false_iff_ne]
    rintro rfl
    exact h hc
  unfold nonEmptyLines List.splitOn
  rw [List.splitOnP_append_cons_of_forall_mem hfree '\n' (by decide), ← List.singleton_append,
    List.filter_append]

/-- A line is read up to its break. -/
theorem nonEmptyLines_isLine {line : List Char} (h : IsLine line) (rest : List Char) :
    nonEmptyLines (line ++ '\n' :: rest) = line :: nonEmptyLines rest := by
  rw [nonEmptyLines_line h.2, List.filter_cons_of_pos (by simp [h.1])]
  rfl

/-- The lines of joined lines, and of what follows them. -/
theorem nonEmptyLines_joinLines {lines : List (List Char)} (h : ∀ line ∈ lines, IsLine line)
    (rest : List Char) : nonEmptyLines (joinLines lines ++ rest) = lines ++ nonEmptyLines rest := by
  induction lines with
  | nil => rfl
  | cons line lines ih =>
    rw [joinLines_cons, List.append_assoc, List.cons_append,
      nonEmptyLines_isLine (h line List.mem_cons_self), ih fun l hl => h l (List.mem_cons_of_mem _ hl),
      List.cons_append]

/-! ## Truncation -/

/-- A text, or the text of its first `max` bytes with a marker on a line of its own. -/
def truncate (max : Nat) (marker text : List Char) : List Char :=
  if max < byteLength text then cutBytes max text ++ '\n' :: (marker ++ ['\n']) else text

/-- The lines of the text are some of the first lines, and the marker if lines are missing. -/
def KeepsLines (lines : List (List Char)) (marker text : List Char) : Prop :=
  ∃ k ≤ lines.length,
    nonEmptyLines text = lines.take k ++ if k < lines.length then [marker] else []

/-- Where the cut of joined lines falls: behind `k` whole lines, and in the next one or at one
    of its ends. -/
theorem exists_cut {max : Nat} {lines : List (List Char)} (h : max < byteLength (joinLines lines)) :
    ∃ k line, lines[k]? = some line ∧ byteLength (joinLines (lines.take k)) ≤ max ∧
      max ≤ byteLength (joinLines (lines.take k)) + byteLength line ∧
      cutBytes max (joinLines lines) = joinLines (lines.take k) ++
        cutBytes (max - byteLength (joinLines (lines.take k))) line := by
  -- induction on the lines: the cut is in the first, or behind it
  induction lines generalizing max with
  | nil => exact absurd h (Nat.not_lt_zero max)
  | cons line lines ih =>
    rw [byteLength_joinLines_cons] at h
    by_cases hfirst : max ≤ byteLength line
    · refine ⟨0, line, rfl, Nat.zero_le max, ?_, ?_⟩
      · show max ≤ 0 + byteLength line
        omega
      · rw [joinLines_cons, cutBytes_append_of_le hfirst]
        rfl
    · have hrest : max - (byteLength line + 1) < byteLength (joinLines lines) := by omega
      obtain ⟨k, next, hnext, hle, hlt, hcut⟩ := ih hrest
      have hbytes : byteLength (joinLines ((line :: lines).take (k + 1))) =
          byteLength line + 1 + byteLength (joinLines (lines.take k)) := by
        rw [List.take_succ_cons, byteLength_joinLines_cons]
      have hline : byteLength (line ++ ['\n']) = byteLength line + 1 := byteLength_append line ['\n']
      -- the cut of the other lines, one line further on
      refine ⟨k + 1, next, hnext, by omega, by omega, ?_⟩
      have hsplit : joinLines (line :: lines) = (line ++ ['\n']) ++ joinLines lines := rfl
      have hleft : max - (byteLength line + 1) - byteLength (joinLines (lines.take k)) =
          max - byteLength (joinLines ((line :: lines).take (k + 1))) := by omega
      rw [hsplit, cutBytes_append (by omega), hline, hcut, hleft, List.take_succ_cons,
        ← List.append_assoc]
      rfl

/-- The cut ends with the lines that fit: nothing is left of the next line, or all of it. -/
def CutsAtLine (max : Nat) (lines : List (List Char)) : Prop :=
  ∃ k < lines.length, byteLength (joinLines (lines.take k)) = max ∨
    byteLength (joinLines (lines.take k)) = max + 1

section Truncate

variable {max : Nat} {marker : List Char} {lines : List (List Char)}

/-- Some of the first lines are not all the bytes. -/
theorem byteLength_take_lt {k : Nat} (hk : k < lines.length) :
    byteLength (joinLines (lines.take k)) < byteLength (joinLines lines) := by
  have hsplit : joinLines lines = joinLines (lines.take k) ++ joinLines (lines.drop k) := by
    rw [← joinLines_append, List.take_append_drop]
  have hrest : joinLines (lines.drop k) ≠ [] := by
    rw [List.drop_eq_getElem_cons hk, joinLines_cons]
    simp
  have hpos := byteLength_pos hrest
  rw [hsplit, byteLength_append]
  omega

/-- The lines of a truncated text are what is before the cut, and the marker. -/
theorem nonEmptyLines_truncated (hmarker : IsLine marker) (hlines : ∀ line ∈ lines, IsLine line)
    {k : Nat} {part : List Char} (hpart : '\n' ∉ part) :
    nonEmptyLines (joinLines (lines.take k) ++ part ++ '\n' :: (marker ++ ['\n'])) =
      lines.take k ++ ([part].filter (fun l => !l.isEmpty) ++ [marker]) := by
  rw [List.append_assoc, nonEmptyLines_joinLines fun l hl => hlines l (List.mem_of_mem_take hl),
    nonEmptyLines_line hpart, nonEmptyLines_isLine hmarker]
  rfl

/-- Joined lines are read back. -/
theorem nonEmptyLines_eq_take (hlines : ∀ line ∈ lines, IsLine line) :
    nonEmptyLines (joinLines lines) = lines := by
  have h := nonEmptyLines_joinLines hlines []
  rwa [List.append_nil, nonEmptyLines_nil, List.append_nil] at h

/-- A cut at a line. -/
theorem keepsLines_of_cutsAtLine (hmarker : IsLine marker) (hlines : ∀ line ∈ lines, IsLine line)
    (h : CutsAtLine max lines) : KeepsLines lines marker (truncate max marker (joinLines lines)) := by
  obtain ⟨k, hk, hbytes⟩ := h
  have hlt := byteLength_take_lt hk
  unfold truncate
  rw [if_pos (by omega)]
  refine ⟨k, Nat.le_of_lt hk, ?_⟩
  rw [if_pos hk]
  rcases hbytes with hat | hbreak
  · -- the cut is behind a line break
    have hcut : cutBytes max (joinLines lines) = joinLines (lines.take k) ++ [] := by
      conv_lhs => rw [← List.take_append_drop k lines]
      rw [joinLines_append, cutBytes_append (by omega), hat, Nat.sub_self, cutBytes_zero]
    rw [hcut, nonEmptyLines_truncated hmarker hlines List.not_mem_nil]
    rfl
  · -- the cut is before the line break of the last line that is left
    cases k with
    | zero =>
      rw [List.take_zero] at hbreak
      cases hbreak
    | succ j =>
      have hj : j < lines.length := by omega
      have htake : lines.take (j + 1) = lines.take j ++ [lines[j]] := List.take_succ_eq_append_getElem hj
      have hline : IsLine lines[j] := hlines _ (List.getElem_mem hj)
      have hjoin : joinLines (lines.take (j + 1)) = joinLines (lines.take j) ++ lines[j] ++ ['\n'] := by
        rw [htake, joinLines_append, joinLines_cons, List.append_assoc]
        rfl
      have hlength : byteLength (joinLines (lines.take j) ++ lines[j]) = max := by
        rw [hjoin, byteLength_append] at hbreak
        exact Nat.succ.inj hbreak
      have hcut : cutBytes max (joinLines lines) = joinLines (lines.take j) ++ lines[j] := by
        conv_lhs => rw [← List.take_append_drop (j + 1) lines]
        rw [joinLines_append, hjoin, List.append_assoc, cutBytes_append (Nat.le_of_eq hlength), hlength,
          Nat.sub_self, cutBytes_zero, List.append_nil]
      rw [hcut, nonEmptyLines_truncated hmarker hlines hline.2, htake, List.append_assoc,
        List.filter_cons_of_pos (by simp [hline.1])]
      rfl

/-- Joined lines that are truncated are some of the first lines with the marker for the others
    exactly if they fit or are cut at a line. -/
theorem keepsLines_truncate_iff (hmarker : IsLine marker) (hlines : ∀ line ∈ lines, IsLine line)
    (hlast : ∀ line ∈ lines, line.getLast? ≠ some replacement) (hnot : marker ∉ lines) :
    KeepsLines lines marker (truncate max marker (joinLines lines)) ↔
      byteLength (joinLines lines) ≤ max ∨ CutsAtLine max lines := by
  constructor
  · intro h
    by_cases hfits : byteLength (joinLines lines) ≤ max
    · exact .inl hfits
    · right
      obtain ⟨m, hm, heq⟩ := h
      obtain ⟨k, line, hline, hle, hend, hcut⟩ := exists_cut (Nat.lt_of_not_le hfits)
      obtain ⟨hk, hget⟩ := List.getElem?_eq_some_iff.mp hline
      have hmem : line ∈ lines := List.mem_of_getElem? hline
      have hpart : '\n' ∉ cutBytes (max - byteLength (joinLines (lines.take k))) line := by
        intro hbreak
        rcases mem_of_mem_cutBytes hbreak with hin | hfill
        · exact (hlines line hmem).2 hin
        · revert hfill
          decide
      unfold truncate at heq
      rw [if_pos (Nat.lt_of_not_le hfits), hcut, nonEmptyLines_truncated hmarker hlines hpart] at heq
      by_cases hnil : cutBytes (max - byteLength (joinLines (lines.take k))) line = []
      · -- the cut is behind a line break
        have hzero := eq_zero_of_cutBytes_eq_nil (hlines line hmem).1 hnil
        exact ⟨k, hk, .inl (by omega)⟩
      · rw [List.filter_cons_of_pos (by simp [hnil])] at heq
        have htake : lines.take (k + 1) = lines.take k ++ [line] := by
          rw [List.take_succ_eq_append_getElem hk, hget]
        split at heq
        · -- the marker stands for the lines behind `m`; the cut text is line `k`
          rename_i hlt
          have hlength := congrArg List.length heq
          simp only [List.length_append, List.length_take, List.filter_nil,
            List.length_cons, List.length_nil] at hlength
          have hmk : m = k + 1 := by omega
          subst hmk
          rw [htake, List.append_assoc] at heq
          have hwhole : line = cutBytes (max - byteLength (joinLines (lines.take k))) line :=
            (List.cons.inj (List.append_cancel_left heq)).1.symm
          have hfull := byteLength_le_of_cutBytes_eq_self (hlast line hmem) hwhole.symm
          have hbytes : byteLength (joinLines (lines.take (k + 1))) =
              byteLength (joinLines (lines.take k)) + (byteLength line + 1) := by
            rw [htake, joinLines_append, byteLength_append, byteLength_joinLines_cons]
            rfl
          exact ⟨k + 1, hlt, .inr (by omega)⟩
        · -- no line is missing, so the marker would be a line
          rename_i hge
          rw [List.take_of_length_le (Nat.le_of_not_lt hge), List.append_nil] at heq
          have hin : marker ∈ lines := by
            rw [← heq]
            simp
          exact absurd hin hnot
  · rintro (hfits | hcuts)
    · unfold truncate
      rw [if_neg (by omega)]
      refine ⟨lines.length, Nat.le_refl _, ?_⟩
      rw [nonEmptyLines_eq_take hlines, if_neg (Nat.lt_irrefl _), List.take_length, List.append_nil]
    · exact keepsLines_of_cutsAtLine hmarker hlines hcuts

end Truncate

end Text
