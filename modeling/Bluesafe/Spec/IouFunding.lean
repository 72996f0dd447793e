import Bluesafe.ForStd.DecimalText
import Bluesafe.Lock.Controller
import Mathlib

/-!
# The funding of two IOU escrows

`sumIouValueStrings` in exact arithmetic. Below `10 ^ 21` the sum is rounded to fifteen decimals, which
loses what a sixteenth of `1` to `4` is worth. From there on `toFixed` writes the sum with an exponent,
and the zeros that are taken off its end may be those of the exponent.
-/

namespace Bluesafe.Lock

open NumberText (exactText exists_exactText exists_fixedDigits fixedDigits fraction readPower readValue
  readValue_parts toFixed value)

/-! ## Exact arithmetic -/

/-- An amount that the IOU branch accepts. -/
structure IouValue where
  text : String
  accepted : isIouValue text = true

/-- The parts of an accepted amount. -/
theorem exists_iouValue {s : String} (h : isIouValue s = true) : ∃ whole frac,
    s.toList = whole ++ fraction frac ∧ whole ≠ [] ∧ frac.length ≤ 16 ∧
      (∀ c ∈ whole, c.isDigit = true) ∧ ∀ c ∈ frac, c.isDigit = true := by
  unfold isIouValue at h
  rw [Bool.and_eq_true] at h
  obtain ⟨hwhole, hrest⟩ := h
  have hdigits : ∀ c ∈ s.toList.takeWhile Char.isDigit, c.isDigit = true :=
    fun c hc => List.mem_takeWhile_imp hc
  have hne : s.toList.takeWhile Char.isDigit ≠ [] := by simpa using hwhole
  -- the expression of the source is matched digit by digit
  have hsplit := List.takeWhile_append_dropWhile (p := Char.isDigit) (l := s.toList)
  split at hrest
  · rename_i hnil
    refine ⟨s.toList.takeWhile Char.isDigit, [], ?_, hne, by simp, hdigits, by simp⟩
    rw [hnil] at hsplit
    exact hsplit.symm
  · rename_i c cs hcons
    simp only [Bool.and_eq_true, decide_eq_true_eq, List.all_eq_true] at hrest
    obtain ⟨⟨⟨rfl, hsome⟩, hlength⟩, hfrac⟩ := hrest
    have hfracNe : cs ≠ [] := by simpa using hsome
    refine ⟨s.toList.takeWhile Char.isDigit, cs, ?_, hne, hlength, hdigits, hfrac⟩
    rw [NumberText.fraction_of_ne_nil hfracNe, ← hcons, hsplit]

/-- The value of an accepted amount, in units of the sixteenth decimal. -/
theorem readValue_iouValue {s : String} (h : isIouValue s = true) :
    ∃ units : ℕ, readValue s.toList = some ((units : ℚ) / 10 ^ 16) := by
  obtain ⟨whole, frac, hs, hne, hlength, hwhole, hfrac⟩ := exists_iouValue h
  have hread := readValue_parts hne hwhole hfrac (.inl rfl)
  rw [List.append_nil, ← hs] at hread
  refine ⟨Nat.ofDigitChars 10 (whole ++ frac) 0 * 10 ^ (16 - frac.length), hread.trans ?_⟩
  show some (value whole frac 0) = _
  rw [Option.some.injEq]
  unfold value
  -- a fraction of fewer digits is filled up with zeros
  have hpower : (10 : ℚ) ^ ((0 : ℤ) - frac.length) = 10 ^ (16 - frac.length) / 10 ^ 16 := by
    rw [eq_div_iff (by positivity), ← zpow_natCast, ← zpow_natCast, ← zpow_add₀ (by norm_num)]
    congr 1
    omega
  rw [hpower]
  push_cast
  rw [mul_div_assoc]

/-- Exact numbers; `none` is `NaN`. A text is a number as a whole or not at all, and a number is
written with at most sixteen decimals, as a sum of two amounts has. -/
def exactFloats : Floats where
  Number := Option ℚ
  parseFloat s := readValue s.toList
  add x y := x.bind fun a => y.map (a + ·)
  isFinite := Option.isSome
  lt x y := x.any fun a => y.any (a < ·)
  ge x y := x.any fun a => y.any (· ≤ a)
  zero := some 0
  toFixed x := x.elim "NaN" fun a => String.ofList (toFixed 16 15 a)
  ge_self s h := by
    obtain ⟨units, hunits⟩ := readValue_iouValue h
    simp [hunits]
  lt_irrefl x := by
    cases x with
    | none => rfl
    | some a => simp

/-- The value of an amount. -/
def IouValue.value (a : IouValue) : ℚ := (readValue a.text.toList).getD 0

theorem IouValue.exists_units (a : IouValue) : ∃ units : ℕ,
    a.value = (units : ℚ) / 10 ^ 16 ∧ readValue a.text.toList = some a.value := by
  obtain ⟨units, hunits⟩ := readValue_iouValue a.accepted
  refine ⟨units, ?_, ?_⟩
  · rw [IouValue.value, hunits, Option.getD_some]
  · rw [IouValue.value, hunits, Option.getD_some]

/-- The sum is a number, and at least as large as the two amounts. -/
def Covers (a b : IouValue) : Prop :=
  ∃ text v, sumIouValueStrings exactFloats a.text b.text = .ok text ∧
    readValue text.toList = some v ∧ a.value + b.value ≤ v

/-- Below `10 ^ 21` the sixteenth decimal is none of `1` to `4`; from there on the exponent is no
multiple of ten. -/
def Fundable (sum : ℚ) : Prop :=
  (sum < 10 ^ 21 ∧ (⌊sum * 10 ^ 16⌋₊ % 10 = 0 ∨ 5 ≤ ⌊sum * 10 ^ 16⌋₊ % 10)) ∨
    (10 ^ 21 ≤ sum ∧ ¬ 10 ∣ Nat.log 10 ⌊sum⌋₊)

/-! ## The zeros that are taken off -/

theorem toList_dropZeros (s : String) : (dropZeros s).toList =
    let front := s.toList.rdropWhile (· == '0')
    if front ≠ s.toList ∧ front.getLast? = some '.' then front.dropLast else front := by
  unfold dropZeros
  show (if s.toList.rdropWhile (· == '0') = s.toList then s
    else if (s.toList.rdropWhile (· == '0')).getLast? = some '.' then
      String.ofList (s.toList.rdropWhile (· == '0')).dropLast
    else String.ofList (s.toList.rdropWhile (· == '0'))).toList = _
  dsimp only
  by_cases hsame : s.toList.rdropWhile (· == '0') = s.toList
  · rw [if_pos hsame, if_neg (fun h => h.1 hsame), hsame]
  · by_cases hpoint : (s.toList.rdropWhile (· == '0')).getLast? = some '.'
    · rw [if_neg hsame, if_pos hpoint, if_pos ⟨hsame, hpoint⟩, String.toList_ofList]
    · rw [if_neg hsame, if_neg hpoint, if_neg (fun h => hpoint h.2), String.toList_ofList]

/-- A text that ends in digits does not end in a point. -/
theorem getLast?_digits_ne {front digits : List Char} {c : Char} (hne : digits ≠ [])
    (hdigits : ∀ d ∈ digits, d.isDigit = true) : (front ++ c :: digits).getLast? ≠ some '.' := by
  intro hpoint
  rw [← List.singleton_append, ← List.append_assoc, List.getLast?_append_of_ne_nil _ hne] at hpoint
  have hdigit := hdigits '.' (List.mem_of_getLast? hpoint)
  cases hdigit

/-- The digits that are left. -/
theorem isDigit_rdropWhile {digits : List Char} (hdigits : ∀ c ∈ digits, c.isDigit = true) :
    ∀ c ∈ digits.rdropWhile (· == '0'), c.isDigit = true :=
  fun c hc => hdigits c ((List.rdropWhile_prefix (· == '0') digits).subset hc)

/-- A fraction loses its zeros, and the point if nothing is left. -/
theorem toList_dropZeros_fraction {whole frac : List Char} (hne : frac ≠ [])
    (hfrac : ∀ c ∈ frac, c.isDigit = true) :
    (dropZeros (String.ofList (whole ++ '.' :: frac))).toList =
      whole ++ fraction (frac.rdropWhile (· == '0')) := by
  rw [toList_dropZeros, String.toList_ofList, NumberText.rdropWhile_append_cons (by decide)]
  dsimp only
  by_cases hnil : frac.rdropWhile (· == '0') = []
  · rw [hnil, if_pos]
    · rw [List.dropLast_concat]
      exact (List.append_nil _).symm
    · refine ⟨fun h => hne ?_, List.getLast?_concat⟩
      have := List.append_cancel_left h
      simpa using this.symm
  · rw [if_neg fun h => getLast?_digits_ne hnil (isDigit_rdropWhile hfrac) h.2,
      NumberText.fraction_of_ne_nil hnil]

/-- An exponent loses its zeros. -/
theorem toList_dropZeros_exponent {front digits : List Char}
    (hne : digits.rdropWhile (· == '0') ≠ []) (hdigits : ∀ c ∈ digits, c.isDigit = true) :
    (dropZeros (String.ofList (front ++ '+' :: digits))).toList =
      front ++ '+' :: digits.rdropWhile (· == '0') := by
  rw [toList_dropZeros, String.toList_ofList, NumberText.rdropWhile_append_cons (by decide)]
  dsimp only
  rw [if_neg fun h => getLast?_digits_ne hne (isDigit_rdropWhile hdigits) h.2]

/-! ## The sum -/

/-- The text of the sum, without the zeros at its end. -/
def sumText (x : ℚ) : String := dropZeros (String.ofList (toFixed 16 15 x))

/-- The sum covers the amounts if its value does. -/
theorem covers_iff {a b : IouValue} {v : ℚ}
    (hread : readValue (sumText (a.value + b.value)).toList = some v) :
    Covers a b ↔ a.value + b.value ≤ v := by
  obtain ⟨ua, hua, hra⟩ := a.exists_units
  obtain ⟨ub, hub, hrb⟩ := b.exists_units
  -- the check for a negative sum never fails
  have hnonneg : ¬ a.value + b.value < 0 := by
    rw [hua, hub, not_lt]
    positivity
  have hne : sumText (a.value + b.value) ≠ "" := by
    intro hempty
    rw [hempty] at hread
    cases hread
  have hsum : sumIouValueStrings exactFloats a.text b.text = .ok (sumText (a.value + b.value)) := by
    have hadd : exactFloats.add (exactFloats.parseFloat a.text) (exactFloats.parseFloat b.text) =
        some (a.value + b.value) := by
      show (readValue a.text.toList).bind (fun x => (readValue b.text.toList).map (x + ·)) = _
      rw [hra, hrb]
      rfl
    unfold sumIouValueStrings
    dsimp only
    rw [hadd]
    show (if (!true || decide (a.value + b.value < 0)) = true then _
      else Except.ok ((Ops.truthy (some (sumText (a.value + b.value)))).getD "0")) = _
    rw [if_neg (by simpa using not_lt.mp hnonneg), Ops.truthy, if_neg hne]
    rfl
  constructor
  · rintro ⟨text, v', htext, hread', hle⟩
    rw [hsum] at htext
    cases htext
    rw [hread, Option.some.injEq] at hread'
    rwa [hread']
  · intro hle
    exact ⟨_, v, hsum, hread, hle⟩

/-- Below `10 ^ 21` the sum is the nearest number of fifteen decimals. -/
theorem readValue_sumText_fixed {units : ℕ} (h : (units : ℚ) / 10 ^ 16 < 10 ^ 21) :
    readValue (sumText (units / 10 ^ 16)).toList = some ((((units + 5) / 10 : ℕ) : ℚ) / 10 ^ 15) := by
  -- rounding to the fifteenth decimal adds a half of it
  have hround : ⌊(units : ℚ) / 10 ^ 16 * 10 ^ 15 + 1 / 2⌋₊ = (units + 5) / 10 := by
    have hhalf : (units : ℚ) / 10 ^ 16 * 10 ^ 15 + 1 / 2 = ((units + 5 : ℕ) : ℚ) / (10 : ℕ) := by
      push_cast
      ring
    rw [hhalf, Nat.floor_div_natCast, Nat.floor_natCast]
  obtain ⟨whole, frac, hparts, hwholeNe, hfracNe, hwhole, hfrac, hvalue⟩ :=
    exists_fixedDigits (f := 15) (by omega) ((units + 5) / 10)
  obtain ⟨k, hk⟩ := NumberText.exists_zeros frac
  unfold sumText toFixed
  rw [if_pos h, hround, hparts, toList_dropZeros_fraction hfracNe hfrac]
  have hread := readValue_parts hwholeNe hwhole (isDigit_rdropWhile hfrac) (.inl rfl)
  rw [List.append_nil] at hread
  rw [hread]
  show some (value whole (frac.rdropWhile (· == '0')) 0) = _
  rw [← NumberText.value_append_zeros whole _ k, ← hk, hvalue]

theorem exponent_parts (d : Char) (frac digits : List Char) :
    (d :: fraction frac ++ ['e']) ++ '+' :: digits =
      [d] ++ (fraction frac ++ 'e' :: '+' :: digits) := by
  simp

/-- From `10 ^ 21` on it is the sum with the exponent that is left. -/
theorem readValue_sumText_exponent {units : ℕ} (h : (10 : ℚ) ^ 21 ≤ units / 10 ^ 16) :
    ∃ (m : ℚ) (e k : ℕ) (places : ℤ), 0 < e ∧
      readValue (sumText (units / 10 ^ 16)).toList = some (m * 10 ^ ((e : ℤ) - places)) ∧
      (units : ℚ) / 10 ^ 16 = m * 10 ^ (((e * 10 ^ k : ℕ) : ℤ) - places) ∧
      (k = 0 ↔ ¬ 10 ∣ Nat.log 10 ⌊(units : ℚ) / 10 ^ 16⌋₊) := by
  have hunits : 10 ^ (21 + 16) ≤ units := by
    rw [le_div_iff₀ (by positivity), ← pow_add] at h
    exact_mod_cast h
  obtain ⟨d, frac, hparts, hdigits, hvalue, hlog⟩ := @exists_exactText 16 units hunits
  have hexponent : Nat.log 10 (units / 10 ^ 16) ≠ 0 := by omega
  obtain ⟨k, hne, hzeros, hpower, hdvd⟩ := NumberText.exists_digits hexponent
  rw [NumberText.floor_div_pow]
  refine ⟨Nat.ofDigitChars 10 ([d] ++ frac) 0, Nat.ofDigitChars 10
    ((Nat.toDigits 10 (Nat.log 10 (units / 10 ^ 16))).rdropWhile (· == '0')) 0, k, frac.length,
    ?_, ?_, ?_, hdvd⟩
  · rw [Nat.pos_iff_ne_zero]
    intro hzero
    rw [hzero, Nat.zero_mul] at hpower
    exact hexponent hpower
  · have hexp : ∀ c ∈ Nat.toDigits 10 (Nat.log 10 (units / 10 ^ 16)), c.isDigit = true :=
      fun c hc => Nat.isDigit_of_mem_toDigits (by omega) (by omega) hc
    unfold sumText toFixed
    -- the point is in front of the exponent, so only the digits of the exponent lose zeros
    rw [if_neg (not_lt.mpr h), hparts, ← List.singleton_append, ← exponent_parts,
      toList_dropZeros_exponent hne hexp, exponent_parts, readValue_parts (by simp)
        (fun c hc => hdigits c (by rw [List.mem_singleton.mp hc]; exact List.mem_cons_self))
        (fun c hc => hdigits c (List.mem_cons_of_mem _ hc)) (.inr ⟨_, rfl⟩),
      NumberText.readPower_plus hne (isDigit_rdropWhile hexp)]
    rfl
  · rw [← hpower]
    exact hvalue.symm

/-- Exactly which sums cover their amounts. -/
theorem covers_iff_fundable (a b : IouValue) : Covers a b ↔ Fundable (a.value + b.value) := by
  obtain ⟨ua, hua, -⟩ := a.exists_units
  obtain ⟨ub, hub, -⟩ := b.exists_units
  have hsum : a.value + b.value = ((ua + ub : ℕ) : ℚ) / 10 ^ 16 := by
    rw [hua, hub]
    push_cast
    ring
  by_cases hsmall : a.value + b.value < 10 ^ 21
  · have hread := readValue_sumText_fixed (hsum ▸ hsmall)
    rw [← hsum] at hread
    have hunits : ⌊(a.value + b.value) * 10 ^ 16⌋₊ = ua + ub := by
      rw [hsum, div_mul_cancel₀ _ (by positivity), Nat.floor_natCast]
    -- rounding to the nearest multiple of ten does not fall below
    have hround : ((ua + ub : ℕ) : ℚ) / 10 ^ 16 ≤ (((ua + ub + 5) / 10 : ℕ) : ℚ) / 10 ^ 15 ↔
        ua + ub ≤ (ua + ub + 5) / 10 * 10 := by
      rw [div_le_div_iff₀ (by positivity) (by positivity), pow_succ (10 : ℚ) 15, ← mul_assoc,
        mul_comm (_ * _) (10 : ℚ), ← mul_assoc, mul_le_mul_iff_left₀ (by positivity), mul_comm (10 : ℚ)]
      exact_mod_cast Iff.rfl
    rw [covers_iff hread, Fundable, hunits]
    rw [hsum] at hsmall ⊢
    rw [hround]
    constructor
    · intro hle
      exact .inl ⟨hsmall, by omega⟩
    · rintro (⟨-, hdigit⟩ | ⟨hlarge, -⟩)
      · omega
      · exact absurd hsmall (not_lt.mpr hlarge)
  · have hlarge := not_lt.mp hsmall
    obtain ⟨m, e, k, places, he, hread, hvalue, hk⟩ := readValue_sumText_exponent (hsum ▸ hlarge)
    rw [← hsum] at hread hvalue hk
    have hpos : 0 < m := by
      by_contra hnot
      have hnonpos : a.value + b.value ≤ 0 := by
        rw [hvalue]
        exact mul_nonpos_of_nonpos_of_nonneg (not_lt.mp hnot) (by positivity)
      have : (0 : ℚ) < 10 ^ 21 := by positivity
      linarith
    -- the exponent that is left is the whole one iff no zero was taken off
    have hexponent : a.value + b.value ≤ m * 10 ^ ((e : ℤ) - places) ↔ k = 0 := by
      rw [hvalue, mul_le_mul_iff_right₀ hpos, zpow_le_zpow_iff_right₀ (by norm_num)]
      constructor
      · intro hle
        by_contra hk
        have hten : 10 ≤ 10 ^ k := Nat.le_self_pow hk 10
        have hmul : e * 10 ≤ e * 10 ^ k := Nat.mul_le_mul_left e hten
        omega
      · rintro rfl
        simp
    rw [covers_iff hread, Fundable, ← hk, hexponent]
    constructor
    · intro hzero
      exact .inr ⟨hlarge, hzero⟩
    · rintro (⟨hlt, -⟩ | ⟨-, hzero⟩)
      · exact absurd hlt hsmall
      · exact hzero

/-- The smallest amount. -/
def smallest : IouValue := ⟨"0.0000000000000001", by decide⟩

/-- An amount whose text has an exponent that ends in a zero. -/
def huge : IouValue := ⟨"5" ++ String.ofList (List.replicate 29 '0'), by decide⟩

/-- A sum whose text is worth less than the amounts does not cover them. -/
theorem not_covers {a b : IouValue} {text : String} {v : ℚ}
    (hsum : sumIouValueStrings exactFloats a.text b.text = .ok text)
    (hread : readValue text.toList = some v) (hlt : v < a.value + b.value) : ¬ Covers a b := by
  rintro ⟨text', v', hsum', hread', hle⟩
  rw [hsum] at hsum'
  cases hsum'
  rw [hread, Option.some.injEq] at hread'
  linarith

/-- Two smallest amounts are funded with nothing, and two huge ones, `1e+30` together, with a
thousand. -/
theorem sum_not_covered :
    sumIouValueStrings exactFloats smallest.text smallest.text = .ok "0" ∧
    ¬ Covers smallest smallest ∧
    sumIouValueStrings exactFloats huge.text huge.text = .ok "1e+3" ∧
    ¬ Covers huge huge := by
  have hsmallest : sumIouValueStrings exactFloats smallest.text smallest.text = .ok "0" := by
    decide +kernel
  have hhuge : sumIouValueStrings exactFloats huge.text huge.text = .ok "1e+3" := by decide +kernel
  have hzero : readValue "0".toList = some 0 := by decide +kernel
  have hthousand : readValue "1e+3".toList = some (value ['1'] [] 3) := by
    show readValue (['1'] ++ (fraction [] ++ ['e', '+', '3'])) = _
    rw [readValue_parts (by simp) (fun c hc => by rw [List.mem_singleton.mp hc]; rfl) (by simp)
      (.inr ⟨_, rfl⟩), NumberText.readPower_plus (by simp)
        (fun c hc => by rw [List.mem_singleton.mp hc]; rfl)]
    rfl
  have hvalue : value ['1'] [] 3 = 1000 := by
    show ((1 : ℕ) : ℚ) * 10 ^ ((3 : ℤ) - ((0 : ℕ) : ℤ)) = 1000
    norm_num
  have hlarge : (1000 : ℚ) < huge.value + huge.value := by decide +kernel
  exact ⟨hsmallest, not_covers hsmallest hzero (by decide +kernel), hhuge,
    not_covers hhuge hthousand (by rw [hvalue]; exact hlarge)⟩

end Bluesafe.Lock
