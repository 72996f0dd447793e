import Bluesafe.ForStd.NumberText
import Mathlib

/-!
# The values of decimal texts

What a text of digits, with a fraction and an exponent, is worth (`readValue`), and the two texts of
`Number.prototype.toFixed`: the digits of the nearest number with so many decimals below `10 ^ 21`,
and the exact text of the number from there on.
-/

namespace NumberText

/-! ## Values -/

/-- The value of digits around a point that is moved by an exponent. -/
def value (whole frac : List Char) (e : ℤ) : ℚ :=
  (Nat.ofDigitChars 10 (whole ++ frac) 0 : ℚ) * 10 ^ (e - frac.length)

/-- A number of digits. -/
def readDigits (ds : List Char) : Option ℕ :=
  if ds ≠ [] ∧ ∀ c ∈ ds, c.isDigit = true then some (Nat.ofDigitChars 10 ds 0) else none

/-- The exponent that ends a text. -/
def readPower : List Char → Option ℤ
  | [] => some 0
  | 'e' :: '+' :: ds => (readDigits ds).map fun e => (e : ℤ)
  | 'e' :: '-' :: ds => (readDigits ds).map fun e => -(e : ℤ)
  | _ => none

/-- The value of a text that is a number as a whole. -/
def readValue (cs : List Char) : Option ℚ :=
  let whole := cs.takeWhile Char.isDigit
  let tail := readFraction (cs.dropWhile Char.isDigit)
  if whole = [] ∨ cs.dropWhile Char.isDigit = '.' :: tail.2 then none
  else (readPower tail.2).map (value whole tail.1)

theorem readValue_parts {whole frac rest : List Char} (hne : whole ≠ [])
    (hwhole : ∀ c ∈ whole, c.isDigit = true) (hfrac : ∀ c ∈ frac, c.isDigit = true)
    (hrest : Stops rest) :
    readValue (whole ++ (fraction frac ++ rest)) = (readPower rest).map (value whole frac) := by
  obtain ⟨htake, hdrop⟩ := span_append hwhole (head_fraction frac hrest)
  have hpoint : fraction frac ++ rest ≠ '.' :: rest := by
    cases frac with
    | nil => rcases hrest with rfl | ⟨ds, rfl⟩ <;> simp [fraction]
    | cons d ds =>
      intro h
      have hlength := congrArg List.length h
      simp only [fraction, List.cons_append, List.length_cons, List.length_append] at hlength
      omega
  unfold readValue
  rw [htake, hdrop, readFraction_fraction hfrac hrest]
  dsimp only
  rw [if_neg (not_or.mpr ⟨hne, hpoint⟩)]

theorem readPower_plus {ds : List Char} (hne : ds ≠ []) (hds : ∀ c ∈ ds, c.isDigit = true) :
    readPower ('e' :: '+' :: ds) = some (Nat.ofDigitChars 10 ds 0 : ℤ) := by
  have hread : readDigits ds = some (Nat.ofDigitChars 10 ds 0) := if_pos ⟨hne, hds⟩
  simp [readPower, hread]

/-- Zeros at the end of a fraction do not count. -/
theorem value_append_zeros (whole frac : List Char) (k : ℕ) (e : ℤ) :
    value whole (frac ++ List.replicate k '0') e = value whole frac e := by
  unfold value
  rw [← List.append_assoc, Nat.ofDigitChars_append, Nat.ofDigitChars_replicate_zero,
    List.length_append, List.length_replicate]
  have hpow : (10 : ℚ) ^ (e - (frac.length : ℤ)) =
      10 ^ k * 10 ^ (e - ((frac.length + k : ℕ) : ℤ)) := by
    rw [← zpow_natCast, ← zpow_add₀ (by norm_num)]
    congr 1
    push_cast
    ring
  rw [hpow]
  push_cast
  ring

/-! ## Zeros at the end -/

/-- What is behind a character that stays is dropped by itself. -/
theorem rdropWhile_append_cons {p : Char → Bool} {c : Char} (hc : p c = false) (front back : List Char) :
    (front ++ c :: back).rdropWhile p = front ++ c :: back.rdropWhile p := by
  unfold List.rdropWhile
  rw [List.reverse_append, List.reverse_cons, List.append_assoc, List.dropWhile_append]
  -- read from the end, the dropping stops at `c` at the latest
  have hstop : ([c] ++ front.reverse).dropWhile p = [c] ++ front.reverse := by simp [hc]
  rw [hstop]
  split
  · rename_i hempty
    rw [List.isEmpty_iff.mp hempty]
    simp
  · simp

/-- Digits are those that are left without the zeros at the end, and these zeros. -/
theorem exists_zeros (ds : List Char) :
    ∃ k, ds = ds.rdropWhile (· == '0') ++ List.replicate k '0' := by
  have hzeros : ds.rtakeWhile (· == '0') = List.replicate (ds.rtakeWhile (· == '0')).length '0' := by
    rw [List.eq_replicate_length]
    intro c hc
    have hzero : (c == '0') = true := List.mem_rtakeWhile_imp (p := (· == '0')) hc
    exact beq_iff_eq.mp hzero
  refine ⟨(ds.rtakeWhile (· == '0')).length, ?_⟩
  rw [← hzeros, List.rdropWhile_append_rtakeWhile]

/-- Without a zero at the end, nothing is dropped. -/
theorem getLast?_rdropWhile_ne (ds : List Char) : (ds.rdropWhile (· == '0')).getLast? ≠ some '0' := by
  intro hzero
  have hne : ds.rdropWhile (· == '0') ≠ [] := by
    intro hnil
    rw [hnil] at hzero
    cases hzero
  have hlast := List.rdropWhile_last_not (· == '0') ds hne
  rw [List.getLast?_eq_some_getLast hne, Option.some.injEq] at hzero
  exact hlast (beq_iff_eq.mpr hzero)

/-! ## `toFixed` -/

/-- The text of `n / 10 ^ f`: the digits of `n`, at least `f + 1`, with the point in front of the last
`f`. -/
def fixedDigits (f n : ℕ) : List Char :=
  let m := List.replicate (f + 1 - (Nat.toDigits 10 n).length) '0' ++ Nat.toDigits 10 n
  m.take (m.length - f) ++ fraction (m.drop (m.length - f))

/-- The text of a number of at most `places` decimals that is not below `10 ^ 21`. -/
def exactText (places : ℕ) (x : ℚ) : List Char :=
  let digits := Nat.toDigits 10 ⌊x * 10 ^ places⌋₊
  magnitude (digits.rdropWhile (· == '0')) (digits.length - places)

/-- `Number.prototype.toFixed` on a number of at most `places` decimals that is not negative. -/
def toFixed (places f : ℕ) (x : ℚ) : List Char :=
  if x < 10 ^ 21 then fixedDigits f ⌊x * 10 ^ f + 1 / 2⌋₊ else exactText places x

theorem fraction_of_ne_nil {frac : List Char} (h : frac ≠ []) : fraction frac = '.' :: frac := by
  obtain ⟨d, ds, rfl⟩ := List.exists_cons_of_ne_nil h
  rfl

/-- The parts of the first text. -/
theorem exists_fixedDigits {f : ℕ} (hf : 0 < f) (n : ℕ) : ∃ whole frac,
    fixedDigits f n = whole ++ '.' :: frac ∧ whole ≠ [] ∧ frac ≠ [] ∧
      (∀ c ∈ whole, c.isDigit = true) ∧ (∀ c ∈ frac, c.isDigit = true) ∧
      value whole frac 0 = n / 10 ^ f := by
  let m := List.replicate (f + 1 - (Nat.toDigits 10 n).length) '0' ++ Nat.toDigits 10 n
  have hlength : f + 1 ≤ m.length := by
    simp only [m, List.length_append, List.length_replicate]
    omega
  have hdigits : ∀ c ∈ m, c.isDigit = true := by
    intro c hc
    rcases List.mem_append.mp hc with hzero | hdigit
    · rw [List.eq_of_mem_replicate hzero]
      rfl
    · exact Nat.isDigit_of_mem_toDigits (by omega) (by omega) hdigit
  have hfrac : (m.drop (m.length - f)).length = f := by
    rw [List.length_drop]
    omega
  have hne : m.drop (m.length - f) ≠ [] := by
    rw [← List.length_pos_iff, hfrac]
    exact hf
  refine ⟨m.take (m.length - f), m.drop (m.length - f), ?_, ?_, hne, ?_, ?_, ?_⟩
  · rw [← fraction_of_ne_nil hne]
    rfl
  · rw [← List.length_pos_iff, List.length_take]
    omega
  · exact fun c hc => hdigits c (List.mem_of_mem_take hc)
  · exact fun c hc => hdigits c (List.mem_of_mem_drop hc)
  · -- the zeros in front do not count
    have hnumber : Nat.ofDigitChars 10 m 0 = n := by
      rw [Nat.ofDigitChars_append, Nat.ofDigitChars_replicate_zero, Nat.mul_zero,
        Nat.ofDigitChars_ten_toDigits]
    unfold value
    rw [List.take_append_drop, hnumber, hfrac, zero_sub, zpow_neg, zpow_natCast, div_eq_mul_inv]

/-! ## The exact text -/

/-- The digits of a number that is not zero, without the zeros at its end. -/
theorem exists_digits {n : ℕ} (hn : n ≠ 0) : ∃ k, (Nat.toDigits 10 n).rdropWhile (· == '0') ≠ [] ∧
    Nat.toDigits 10 n = (Nat.toDigits 10 n).rdropWhile (· == '0') ++ List.replicate k '0' ∧
    n = Nat.ofDigitChars 10 ((Nat.toDigits 10 n).rdropWhile (· == '0')) 0 * 10 ^ k ∧
    (k = 0 ↔ ¬ 10 ∣ n) := by
  obtain ⟨k, hk⟩ := exists_zeros (Nat.toDigits 10 n)
  have hvalue : n = Nat.ofDigitChars 10 ((Nat.toDigits 10 n).rdropWhile (· == '0')) 0 * 10 ^ k := by
    have hread := @Nat.ofDigitChars_ten_toDigits n
    rw [hk, Nat.ofDigitChars_append, Nat.ofDigitChars_replicate_zero, Nat.mul_comm] at hread
    exact hread.symm
  refine ⟨k, ?_, hk, hvalue, ?_⟩
  · intro hnil
    rw [hnil, Nat.ofDigitChars_nil, Nat.zero_mul] at hvalue
    exact hn hvalue
  · constructor
    · rintro rfl ⟨q, rfl⟩
      -- the last digit of a multiple of ten is a zero
      have hlast : Nat.toDigits 10 (10 * q) = Nat.toDigits 10 q ++ ['0'] := by
        rw [Nat.toDigits_of_base_le (by omega) (by omega), Nat.mul_div_cancel_left _ (by omega),
          Nat.mul_mod_right]
        rfl
      rw [List.replicate_zero, List.append_nil] at hk
      have hne := getLast?_rdropWhile_ne (Nat.toDigits 10 (10 * q))
      rw [← hk, hlast, List.getLast?_concat] at hne
      exact hne rfl
    · intro hdvd
      cases k with
      | zero => rfl
      | succ k =>
        rw [Nat.pow_succ, ← Nat.mul_assoc] at hvalue
        exact absurd ⟨_, hvalue.trans (Nat.mul_comm _ 10)⟩ hdvd

theorem length_toDigits {n : ℕ} (hn : n ≠ 0) : (Nat.toDigits 10 n).length = Nat.log 10 n + 1 := by
  have hupper : (Nat.toDigits 10 n).length ≤ Nat.log 10 n + 1 := by
    rw [Nat.length_toDigits_le_iff (by omega) (by omega)]
    exact Nat.lt_pow_succ_log_self (by omega) n
  have hlower : Nat.log 10 n < (Nat.toDigits 10 n).length := by
    rcases Nat.eq_zero_or_pos (Nat.log 10 n) with hzero | hpos
    · rw [hzero]
      exact Nat.length_toDigits_pos
    · by_contra hle
      rw [not_lt, Nat.length_toDigits_le_iff (by omega) hpos] at hle
      exact absurd (Nat.pow_log_le_self 10 hn) (not_le.mpr hle)
  omega

theorem floor_div_pow (n places : ℕ) : ⌊(n : ℚ) / 10 ^ places⌋₊ = n / 10 ^ places := by
  have hcast : (10 : ℚ) ^ places = ((10 ^ places : ℕ) : ℚ) := by push_cast; rfl
  rw [hcast, Nat.floor_div_natCast, Nat.floor_natCast]

/-- The parts of the exact text of a number that is not below `10 ^ 21`. -/
theorem exists_exactText {places n : ℕ} (h : 10 ^ (21 + places) ≤ n) : ∃ d frac,
    exactText places (n / 10 ^ places) =
      d :: (fraction frac ++ 'e' :: '+' :: Nat.toDigits 10 (Nat.log 10 (n / 10 ^ places))) ∧
      (∀ c ∈ d :: frac, c.isDigit = true) ∧
      value [d] frac (Nat.log 10 (n / 10 ^ places)) = n / 10 ^ places ∧
      21 ≤ Nat.log 10 (n / 10 ^ places) := by
  have hpos : 0 < 10 ^ (21 + places) := Nat.pow_pos (by omega)
  have hn : n ≠ 0 := by omega
  obtain ⟨k, hne, hdigits, hvalue, -⟩ := exists_digits hn
  obtain ⟨d, frac, hparts⟩ := List.exists_cons_of_ne_nil hne
  have hlength := length_toDigits hn
  have hlog : 21 + places ≤ Nat.log 10 n := Nat.le_log_of_pow_le (by omega) h
  -- the digits are the first one, the fraction and the zeros behind it
  have hcount : (Nat.toDigits 10 n).length = frac.length + 1 + k := by
    have := congrArg List.length hdigits
    rw [List.length_append, List.length_replicate, hparts, List.length_cons] at this
    exact this
  rw [Nat.log_div_base_pow]
  refine ⟨d, frac, ?_, ?_, ?_, by omega⟩
  · have hunits : ⌊(n : ℚ) / 10 ^ places * 10 ^ places⌋₊ = n := by
      rw [div_mul_cancel₀ _ (by positivity), Nat.floor_natCast]
    have hpower : ((Nat.toDigits 10 n).length : ℤ) - places - 1 = (Nat.log 10 n - places : ℕ) := by
      omega
    unfold exactText magnitude
    dsimp only
    rw [hunits, hparts, if_neg (by omega), if_neg (by omega), if_neg (by omega), hpower]
    unfold exponent
    rw [if_pos (by omega), Int.natAbs_natCast]
    rfl
  · intro c hc
    rw [← hparts] at hc
    refine Nat.isDigit_of_mem_toDigits (b := 10) (n := n) (by omega) (by omega) ?_
    rw [hdigits]
    exact List.mem_append_left _ hc
  · rw [hparts] at hvalue
    unfold value
    rw [List.singleton_append]
    have hpower : ((Nat.log 10 n - places : ℕ) : ℤ) - frac.length = (k : ℤ) - places := by omega
    rw [hpower, zpow_sub₀ (by norm_num), zpow_natCast, zpow_natCast, ← mul_div_assoc]
    congr 1
    exact_mod_cast hvalue.symm

end NumberText
