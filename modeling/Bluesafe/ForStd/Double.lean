import Mathlib.Algebra.Order.Floor.Ring
import Mathlib.Data.Int.Log
import Mathlib.Data.Rat.Floor
import Mathlib.Tactic.Linarith
import Mathlib.Tactic.LinearCombination
import Mathlib.Tactic.Positivity
import Mathlib.Tactic.Ring

/-!
# Numbers of double precision

A number of JavaScript is a rational of 53 binary places with a bounded exponent, an infinity, or not
a number. `round` takes a rational to the nearest one of 53 places, of two that are equally near to the
one with an even last place. It keeps what has 53 places (`round_of_places`), is monotone
(`round_mono`), and is off by half a unit of the last place at most (`abs_round_sub_le`).

There is no negative zero: nothing here tells it from zero.
-/

namespace Double

/-! ## Integers -/

/-- The nearest integer; of two that are equally near the even one. -/
def roundEven (q : ℚ) : ℤ :=
  if q - ⌊q⌋ < 1 / 2 then ⌊q⌋ else if 1 / 2 < q - ⌊q⌋ then ⌊q⌋ + 1 else ⌊q⌋ + ⌊q⌋ % 2

/-- The nearest integer is half a unit away at most. -/
theorem abs_roundEven_sub_le (q : ℚ) : |(roundEven q : ℚ) - q| ≤ 1 / 2 := by
  have hlo := Int.floor_le q
  have hhi := Int.lt_floor_add_one q
  unfold roundEven
  -- below the half, above it, and at it
  split
  · rw [abs_le]
    constructor <;> linarith
  · split
    · push_cast
      rw [abs_le]
      constructor <;> linarith
    · -- a half lies between the two integers, and the even one of them is taken
      rcases Int.emod_two_eq_zero_or_one ⌊q⌋ with heven | hodd
      · rw [heven, add_zero, abs_le]
        constructor <;> linarith
      · rw [hodd]
        push_cast
        rw [abs_le]
        constructor <;> linarith

/-- An integer is its own nearest one. -/
@[simp] theorem roundEven_intCast (n : ℤ) : roundEven n = n := by simp [roundEven]

/-- The nearest integer of a negated number. -/
theorem roundEven_neg (q : ℚ) : roundEven (-q) = -roundEven q := by
  -- integers are their own rounding; other numbers lie strictly between two of them
  by_cases hq : q = ⌊q⌋
  · rw [hq, ← Int.cast_neg, roundEven_intCast, roundEven_intCast]
  · have hlt : (⌊q⌋ : ℚ) < q := lt_of_le_of_ne (Int.floor_le q) (Ne.symm hq)
    have hfloor : ⌊-q⌋ = -⌊q⌋ - 1 := by
      rw [Int.floor_eq_iff]
      push_cast
      constructor
      · linarith [Int.lt_floor_add_one q]
      · linarith
    unfold roundEven
    rw [hfloor]
    push_cast
    -- mirrored at the half, the cases change places
    rcases lt_trichotomy (q - ⌊q⌋) (1 / 2) with h | h | h
    · rw [if_pos h, if_neg (by linarith), if_pos (by linarith)]
      ring
    · rw [if_neg (by linarith), if_neg (by linarith), if_neg (by linarith), if_neg (by linarith)]
      omega
    · rw [if_neg (by linarith : ¬ q - ⌊q⌋ < 1 / 2), if_pos h, if_pos (by linarith)]
      ring

/-- An integer in front of a number is in front of the nearest one. -/
theorem le_roundEven {q : ℚ} {n : ℤ} (h : (n : ℚ) ≤ q) : n ≤ roundEven q := by
  have hfloor : n ≤ ⌊q⌋ := Int.le_floor.mpr h
  unfold roundEven
  split
  · exact hfloor
  · split
    · omega
    · omega

/-- An integer behind a number is behind the nearest one. -/
theorem roundEven_le {q : ℚ} {n : ℤ} (h : q ≤ n) : roundEven q ≤ n := by
  -- a number that is an integer, or one between two
  by_cases hq : q = ⌊q⌋
  · rw [hq, roundEven_intCast]
    rw [hq] at h
    exact_mod_cast h
  · -- the integer behind a number that is none is behind its floor
    have hlt : (⌊q⌋ : ℚ) < n := lt_of_lt_of_le (lt_of_le_of_ne (Int.floor_le q) (Ne.symm hq)) h
    have hfloor : ⌊q⌋ + 1 ≤ n := by exact_mod_cast hlt
    unfold roundEven
    split
    · omega
    · split
      · exact hfloor
      · omega

/-- The nearest integers of two numbers are in the order of the numbers. -/
theorem roundEven_mono {p q : ℚ} (h : p ≤ q) : roundEven p ≤ roundEven q := by
  have hfloor : ⌊p⌋ ≤ ⌊q⌋ := Int.floor_le_floor h
  by_cases heq : ⌊p⌋ = ⌊q⌋
  · -- in front of, at and behind the half
    unfold roundEven
    rw [heq]
    by_cases hp : p - ⌊q⌋ < 1 / 2
    · rw [if_pos hp]
      split
      · exact le_refl _
      · split
        · omega
        · omega
    · have hq : ¬ q - ⌊q⌋ < 1 / 2 := by linarith
      rw [if_neg hp, if_neg hq]
      -- behind the half for both, or at it for one
      by_cases hp' : 1 / 2 < p - ⌊q⌋
      · have hq' : 1 / 2 < q - ⌊q⌋ := by linarith
        rw [if_pos hp', if_pos hq']
      · rw [if_neg hp']
        split
        · omega
        · exact le_refl _
  · -- an integer lies between the two numbers
    have hlt : ⌊p⌋ + 1 ≤ ⌊q⌋ := by omega
    have hp : p ≤ (⌊q⌋ : ℤ) := by
      have hcast : ((⌊p⌋ + 1 : ℤ) : ℚ) ≤ (⌊q⌋ : ℤ) := by exact_mod_cast hlt
      push_cast at hcast
      linarith [Int.lt_floor_add_one p]
    exact le_trans (roundEven_le hp) (le_roundEven (Int.floor_le q))

/-! ## Places -/

/-- The exponent of the last of the 53 binary places of a number. -/
def lastPlace (q : ℚ) : ℤ := max (Int.log 2 |q| - 52) (-1074)

/-- The unit of the last place. -/
def ulp (q : ℚ) : ℚ := 2 ^ lastPlace q

/-- The nearest number of 53 binary places. -/
def round (q : ℚ) : ℚ := roundEven (q / ulp q) * ulp q

/-- The number has 53 binary places. -/
def HasPlaces (q : ℚ) : Prop := ∃ m e : ℤ, |m| ≤ 2 ^ 53 ∧ -1074 ≤ e ∧ q = m * 2 ^ e

theorem two_zpow_pos (n : ℤ) : (0 : ℚ) < 2 ^ n := zpow_pos (by norm_num) n

theorem ulp_pos (q : ℚ) : 0 < ulp q := two_zpow_pos _

theorem two_zpow_mono {m n : ℤ} (h : m ≤ n) : (2 : ℚ) ^ m ≤ 2 ^ n :=
  zpow_le_zpow_right₀ (by norm_num) h

theorem two_zpow_add (m n : ℤ) : (2 : ℚ) ^ (m + n) = 2 ^ m * 2 ^ n := zpow_add₀ (by norm_num) m n

/-- A multiple of a power of two is one of every smaller power. -/
theorem multiple_of_le {e e' : ℤ} (h : e' ≤ e) (m : ℤ) : ∃ n : ℤ, (m : ℚ) * 2 ^ e = n * 2 ^ e' := by
  obtain ⟨k, hk⟩ := Int.eq_ofNat_of_zero_le (sub_nonneg.mpr h)
  have hsplit : (2 : ℚ) ^ e = 2 ^ k * 2 ^ e' := by
    rw [← zpow_natCast, ← two_zpow_add, ← hk]
    congr 1
    omega
  refine ⟨m * 2 ^ k, ?_⟩
  rw [hsplit]
  push_cast
  ring

/-- The last place is 52 places below the first one, or the lowest of all. -/
theorem lastPlace_cases {q : ℚ} (hq : q ≠ 0) :
    (2 ^ (lastPlace q + 52) ≤ |q| ∨ lastPlace q = -1074) ∧ |q| < 2 ^ (lastPlace q + 53) := by
  -- the power of two below the number, and the one above
  have habs : 0 < |q| := abs_pos.mpr hq
  have hhi : |q| < 2 ^ (Int.log 2 |q| + 1) := by exact_mod_cast Int.lt_zpow_succ_log_self one_lt_two |q|
  have hlo : (2 : ℚ) ^ Int.log 2 |q| ≤ |q| := by exact_mod_cast Int.zpow_log_le_self one_lt_two habs
  unfold lastPlace
  constructor
  -- the number is too small for the grid, or it is not
  · by_cases hlow : Int.log 2 |q| - 52 ≤ -1074
    · exact .inr (max_eq_right hlow)
    · left
      rw [max_eq_left (by omega), sub_add_cancel]
      exact hlo
  · refine lt_of_lt_of_le hhi (two_zpow_mono ?_)
    omega

/-- A number below a power of two has its last place 53 places below it. -/
theorem lastPlace_le {q : ℚ} {n : ℤ} (h : |q| < 2 ^ n) (hn : 1 ≤ n) : lastPlace q ≤ n - 53 := by
  unfold lastPlace
  by_cases hq : q = 0
  · subst hq
    rw [abs_zero, Int.log_of_right_le_zero 2 (le_refl (0 : ℚ))]
    omega
  · have hlog : Int.log 2 |q| < n :=
      (Int.lt_zpow_iff_log_lt one_lt_two (abs_pos.mpr hq)).mp (by exact_mod_cast h)
    omega

/-- A number that is not below a power of two has its last place 52 places below it. -/
theorem le_lastPlace {q : ℚ} {n : ℤ} (h : 2 ^ n ≤ |q|) : n - 52 ≤ lastPlace q := by
  unfold lastPlace
  have hlog : n ≤ Int.log 2 |q| :=
    (Int.zpow_le_iff_le_log one_lt_two (lt_of_lt_of_le (two_zpow_pos n) h)).mp (by exact_mod_cast h)
  omega

/-- The unit of the last place of a number below a power of two. -/
theorem ulp_le {q : ℚ} {n : ℤ} (h : |q| < 2 ^ n) (hn : 1 ≤ n) : ulp q ≤ 2 ^ (n - 53) :=
  two_zpow_mono (lastPlace_le h hn)

/-! ## Rounding -/

/-- A number is rounded by half a unit of its last place at most. -/
theorem abs_round_sub_le (q : ℚ) : |round q - q| ≤ ulp q / 2 := by
  have hulp := ulp_pos q
  have hscaled : round q - q = (roundEven (q / ulp q) - q / ulp q) * ulp q := by
    unfold round
    rw [sub_mul, div_mul_cancel₀ _ hulp.ne']
  rw [hscaled, abs_mul, abs_of_pos hulp]
  linarith [mul_le_mul_of_nonneg_right (abs_roundEven_sub_le (q / ulp q)) hulp.le]

/-- A multiple of the unit of the last place is kept. -/
theorem round_of_multiple {q : ℚ} {m e : ℤ} (h : q = m * 2 ^ e) (he : lastPlace q ≤ e) :
    round q = q := by
  -- the grid of the multiple is one of the places of the number
  obtain ⟨n, hn⟩ := multiple_of_le he m
  have hgrid : q = n * ulp q := h.trans hn
  -- so the quotient is an integer, which the rounding leaves
  have hscaled : q / ulp q = n := (div_eq_iff (ulp_pos q).ne').mpr hgrid
  rw [round, hscaled, roundEven_intCast]
  exact hgrid.symm

@[simp] theorem round_zero : round 0 = 0 := by
  have hint : roundEven 0 = 0 := roundEven_intCast 0
  rw [round, zero_div, hint, Int.cast_zero, zero_mul]

/-- The places of a number do not depend on its sign. -/
theorem round_neg (q : ℚ) : round (-q) = -round q := by
  have hulp : ulp (-q) = ulp q := by
    unfold ulp lastPlace
    rw [abs_neg]
  rw [round, hulp, neg_div, roundEven_neg, Int.cast_neg, neg_mul, round]

/-- What has 53 binary places is kept. -/
theorem round_of_places {q : ℚ} (h : HasPlaces q) : round q = q := by
  obtain ⟨m, e, hm, he, rfl⟩ := h
  by_cases hzero : m = 0
  · rw [hzero, Int.cast_zero, zero_mul, round_zero]
  · have hm' : |(m : ℚ)| ≤ 2 ^ (53 : ℤ) := by exact_mod_cast hm
    have habs : |(m : ℚ) * 2 ^ e| ≤ 2 ^ (e + 53) := by
      rw [abs_mul, abs_of_pos (two_zpow_pos e), add_comm, two_zpow_add]
      exact mul_le_mul_of_nonneg_right hm' (two_zpow_pos e).le
    -- the last place is the one of the number, or one above it
    have hne : (m : ℚ) * 2 ^ e ≠ 0 := mul_ne_zero (by exact_mod_cast hzero) (two_zpow_pos e).ne'
    by_cases hlast : lastPlace ((m : ℚ) * 2 ^ e) ≤ e
    · exact round_of_multiple rfl hlast
    · -- the number is a power of two, whose last place is one higher
      have hlow : lastPlace ((m : ℚ) * 2 ^ e) ≠ -1074 := by omega
      have hpower := (lastPlace_cases hne).1.resolve_right hlow
      have hle : (2 : ℚ) ^ (e + 53) ≤ 2 ^ (lastPlace ((m : ℚ) * 2 ^ e) + 52) := two_zpow_mono (by omega)
      have hsucc : lastPlace ((m : ℚ) * 2 ^ e) ≤ e + 1 := by
        by_contra hnot
        have hlt : (2 : ℚ) ^ (e + 53) < 2 ^ (lastPlace ((m : ℚ) * 2 ^ e) + 52) :=
          zpow_lt_zpow_right₀ (by norm_num) (by omega)
        linarith
      have heq : |(m : ℚ) * 2 ^ e| = 2 ^ (e + 53) := le_antisymm habs (hle.trans hpower)
      have hmabs : |(m : ℚ)| = 2 ^ (53 : ℤ) := by
        rw [abs_mul, abs_of_pos (two_zpow_pos e), add_comm, two_zpow_add] at heq
        exact mul_right_cancel₀ (two_zpow_pos e).ne' heq
      have hmabs' : |m| = 2 ^ 53 := by exact_mod_cast hmabs
      have hhalf : (m : ℚ) * 2 ^ e = ((m / 2 : ℤ) : ℚ) * 2 ^ (e + 1) := by
        have hdouble : (m : ℚ) = ((m / 2 : ℤ) : ℚ) * 2 := by
          have hint : m = m / 2 * 2 := by
            rcases (abs_eq (by norm_num)).mp hmabs' with h | h
            · omega
            · omega
          exact_mod_cast hint
        rw [two_zpow_add, zpow_one]
        linear_combination hdouble * 2 ^ e
      exact round_of_multiple hhalf hsucc

/-- A rounded number has 53 binary places. -/
theorem hasPlaces_round (q : ℚ) : HasPlaces (round q) := by
  refine ⟨roundEven (q / ulp q), lastPlace q, ?_, le_max_right _ _, rfl⟩
  -- zero has every place
  by_cases hq : q = 0
  · simp [hq, roundEven]
  -- the quotient has at most 53 binary digits
  · have hbound : |q / ulp q| ≤ 2 ^ (53 : ℤ) := by
      rw [abs_div, abs_of_pos (ulp_pos q), div_le_iff₀ (ulp_pos q), ulp, ← two_zpow_add, add_comm]
      exact (lastPlace_cases hq).2.le
    rw [abs_le] at hbound ⊢
    constructor
    · exact le_roundEven (by push_cast; exact_mod_cast hbound.1)
    · exact roundEven_le (by push_cast; exact_mod_cast hbound.2)

/-- Rounding twice is rounding once. -/
theorem round_round (q : ℚ) : round (round q) = round q := round_of_places (hasPlaces_round q)

/-- Numbers that are not below a power of two are multiples of its last place. -/
theorem multiple_of_places {q : ℚ} {n : ℤ} (h : HasPlaces q) (hn : 2 ^ n ≤ |q|) :
    ∃ m : ℤ, q = m * 2 ^ (n - 52) := by
  -- a number with places is its own rounding
  have hround : round q = q := round_of_places h
  obtain ⟨m, hm⟩ := multiple_of_le (le_lastPlace hn) (roundEven (q / ulp q))
  exact ⟨m, hround.symm.trans hm⟩

/-- Different numbers that are not below a power of two differ by a unit of its last place. -/
theorem add_le_of_places {p q : ℚ} {n : ℤ} (hp : HasPlaces p) (hq : HasPlaces q) (hpn : 2 ^ n ≤ |p|)
    (hqn : 2 ^ n ≤ |q|) (h : p < q) : p + 2 ^ (n - 52) ≤ q := by
  have hunit : (0 : ℚ) < 2 ^ (n - 52) := two_zpow_pos _
  obtain ⟨a, ha⟩ := multiple_of_places hp hpn
  obtain ⟨b, hb⟩ := multiple_of_places hq hqn
  rw [ha, hb] at h ⊢
  have hlt : (a : ℚ) < b := lt_of_mul_lt_mul_right h hunit.le
  have hint : a + 1 ≤ b := by exact_mod_cast hlt
  have hcast : (a : ℚ) + 1 ≤ b := by exact_mod_cast hint
  calc (a : ℚ) * 2 ^ (n - 52) + 2 ^ (n - 52) = (a + 1) * 2 ^ (n - 52) := by ring
    _ ≤ b * 2 ^ (n - 52) := mul_le_mul_of_nonneg_right hcast hunit.le

/-- From `2 ^ 53` on every number is an integer. -/
theorem floor_of_large {q : ℚ} (h : HasPlaces q) (hlarge : 2 ^ (53 : ℤ) ≤ |q|) : (⌊q⌋ : ℚ) = q := by
  obtain ⟨m, hm⟩ := multiple_of_places h hlarge
  have hint : q = ((m * 2 : ℤ) : ℚ) := by
    rw [hm]
    norm_num
  rw [hint, Int.floor_intCast]

/-- A multiple of the unit of the last place of a number stays in front of it. -/
theorem le_round_of_multiple {g q : ℚ} {m e : ℤ} (hg : g = m * 2 ^ e) (he : lastPlace q ≤ e)
    (h : g ≤ q) : g ≤ round q := by
  -- the same grid, now for a number below
  obtain ⟨n, hn⟩ := multiple_of_le he m
  have hgrid : g = n * ulp q := hg.trans hn
  rw [hgrid] at h ⊢
  -- an integer below the quotient stays below it rounded
  have hint : n ≤ roundEven (q / ulp q) := le_roundEven ((le_div_iff₀ (ulp_pos q)).mpr h)
  have hcast : (n : ℚ) ≤ roundEven (q / ulp q) := by exact_mod_cast hint
  exact mul_le_mul_of_nonneg_right hcast (ulp_pos q).le

/-- A number of 53 places in front of another one is in front of what that is rounded to. -/
theorem le_round {g q : ℚ} (hg : HasPlaces g) (h : g ≤ q) : g ≤ round q := by
  obtain ⟨m, e, hm, he, hval⟩ := hg
  -- at zero the rounding is exact
  by_cases hq : q = 0
  · rw [hq, round_zero]
    exact hq ▸ h
  by_cases hlast : lastPlace q ≤ e
  · exact le_round_of_multiple hval hlast h
  · -- the number has lower places, so it is nearer to zero than a power of two up to `q`
    have hpower := (lastPlace_cases hq).1.resolve_right (by omega)
    have hgrid : (2 : ℚ) ^ (lastPlace q + 52) = ((2 ^ 52 : ℤ) : ℚ) * 2 ^ lastPlace q := by
      rw [add_comm, two_zpow_add]
      norm_num
    have hnear : |g| ≤ 2 ^ (lastPlace q + 52) := by
      -- a number with places is at most this power of two
      have hm' : |(m : ℚ)| ≤ 2 ^ (53 : ℤ) := by exact_mod_cast hm
      calc |g| = |(m : ℚ)| * 2 ^ e := by rw [hval, abs_mul, abs_of_pos (two_zpow_pos e)]
        _ ≤ 2 ^ (53 : ℤ) * 2 ^ e := mul_le_mul_of_nonneg_right hm' (two_zpow_pos e).le
        _ = 2 ^ (53 + e) := (two_zpow_add 53 e).symm
        _ ≤ 2 ^ (lastPlace q + 52) := two_zpow_mono (by omega)
    rcases lt_or_gt_of_ne hq with hneg | hpos
    · -- in front of a negative number there is only the power itself
      rw [abs_of_neg hneg] at hpower
      have heq : g = ((-2 ^ 52 : ℤ) : ℚ) * 2 ^ lastPlace q := by
        have hle := (abs_le.mp hnear).1
        push_cast at hgrid ⊢
        linarith
      exact le_round_of_multiple heq (le_refl _) h
    · rw [abs_of_pos hpos] at hpower
      exact (le_abs_self g).trans (hnear.trans (le_round_of_multiple hgrid (le_refl _) hpower))

/-- The negation of a number has as many places. -/
theorem HasPlaces.neg {q : ℚ} (h : HasPlaces q) : HasPlaces (-q) := by
  obtain ⟨m, e, hm, he, rfl⟩ := h
  exact ⟨-m, e, by rwa [abs_neg], he, by push_cast; ring⟩

/-- A number of 53 places behind another one is behind what that is rounded to. -/
theorem round_le {g q : ℚ} (hg : HasPlaces g) (h : q ≤ g) : round q ≤ g := by
  have hneg := le_round hg.neg (neg_le_neg h)
  rw [round_neg] at hneg
  linarith

/-- Zero has places. -/
theorem hasPlaces_zero : HasPlaces 0 := ⟨0, 0, by norm_num, by norm_num, by simp⟩

/-- A power of two has places. -/
theorem hasPlaces_two_zpow {n : ℤ} (hn : -1074 ≤ n) : HasPlaces (2 ^ n) :=
  ⟨1, n, by norm_num, hn, by simp⟩

/-- An integer of 53 binary places has places. -/
theorem hasPlaces_intCast {n : ℤ} (hn : |n| ≤ 2 ^ 53) : HasPlaces n :=
  ⟨n, 0, hn, by norm_num, by simp⟩

private theorem round_mono_of_pos {x y : ℚ} (hx : 0 < x) (h : x ≤ y) : round x ≤ round y := by
  have hy : 0 < y := lt_of_lt_of_le hx h
  have hlast : lastPlace x ≤ lastPlace y := by
    have hlog : Int.log 2 x ≤ Int.log 2 y := Int.log_mono_right hx h
    unfold lastPlace
    rw [abs_of_pos hx, abs_of_pos hy]
    omega
  rcases hlast.lt_or_eq with hlt | heq
  · -- a power of two lies between the two numbers
    have hlow : -1074 ≤ lastPlace x := le_max_right _ _
    have hpower := (lastPlace_cases hy.ne').1.resolve_right (by omega)
    have hbelow := (lastPlace_cases hx.ne').2
    rw [abs_of_pos hy] at hpower
    rw [abs_of_pos hx] at hbelow
    have hplaces : HasPlaces (2 ^ (lastPlace y + 52)) := hasPlaces_two_zpow (by omega)
    have hxp : x ≤ 2 ^ (lastPlace y + 52) := hbelow.le.trans (two_zpow_mono (by omega))
    exact (round_le hplaces hxp).trans (le_round hplaces hpower)
  -- with one last place for both, rounding is that of integers
  · have hulp : ulp x = ulp y := by rw [ulp, ulp, heq]
    have hscaled : x / ulp y ≤ y / ulp y := div_le_div_of_nonneg_right h (ulp_pos y).le
    have hint : (roundEven (x / ulp y) : ℚ) ≤ roundEven (y / ulp y) := by
      exact_mod_cast roundEven_mono hscaled
    rw [round, hulp, round]
    exact mul_le_mul_of_nonneg_right hint (ulp_pos y).le

/-- Rounding keeps the order of numbers. -/
theorem round_mono {x y : ℚ} (h : x ≤ y) : round x ≤ round y := by
  rcases lt_or_ge 0 x with hx | hx
  · exact round_mono_of_pos hx h
  · rcases lt_or_ge y 0 with hy | hy
    · have hneg := round_mono_of_pos (neg_pos.mpr hy) (neg_le_neg h)
      rw [round_neg, round_neg] at hneg
      linarith
    · exact (round_le hasPlaces_zero hx).trans (le_round hasPlaces_zero hy)

/-- A rounded integer is an integer. -/
theorem exists_int_round (n : ℤ) : ∃ m : ℤ, round n = m := by
  by_cases hlast : lastPlace n ≤ 0
  · exact ⟨n, @round_of_multiple n n 0 (by simp) hlast⟩
  · obtain ⟨k, hk⟩ := Int.eq_ofNat_of_zero_le (not_le.mp hlast).le
    refine ⟨roundEven (n / ulp n) * 2 ^ k, ?_⟩
    rw [round, ulp, hk, zpow_natCast]
    push_cast
    rfl

/-- A number that is not below a power of two is not rounded below it. -/
theorem two_zpow_le_abs_round {q : ℚ} {n : ℤ} (hn : -1074 ≤ n) (h : 2 ^ n ≤ |q|) :
    2 ^ n ≤ |round q| := by
  have hplaces := hasPlaces_two_zpow hn
  rcases le_abs.mp h with hq | hq
  · exact le_abs.mpr (.inl (le_round hplaces hq))
  · have hneg := le_round hplaces hq
    rw [round_neg] at hneg
    exact le_abs.mpr (.inr hneg)

/-- A positive number that is rounded below a power of two is below it. -/
theorem abs_lt_of_round {q : ℚ} {n : ℤ} (hn : -1074 ≤ n) (hpos : 0 < round q) (h : round q < 2 ^ n) :
    |q| < 2 ^ n := by
  have hq : 0 < q := by
    by_contra hnot
    linarith [round_le hasPlaces_zero (not_lt.mp hnot)]
  rw [abs_of_pos hq]
  by_contra hnot
  linarith [le_round (hasPlaces_two_zpow hn) (not_lt.mp hnot)]

/-- The integer part of a number of 53 places has as many. -/
theorem HasPlaces.floor {q : ℚ} (h : HasPlaces q) : HasPlaces ⌊q⌋ := by
  -- small numbers and large ones
  rcases lt_or_ge |q| (2 ^ (53 : ℤ)) with hsmall | hlarge
  · -- below `2 ^ 53` every integer has places
    have hbound := abs_lt.mp hsmall
    refine hasPlaces_intCast (abs_le.mpr ⟨?_, ?_⟩)
    · refine Int.le_floor.mpr ?_
      push_cast
      exact_mod_cast hbound.1.le
    · have hlt : (⌊q⌋ : ℚ) < 2 ^ (53 : ℤ) := lt_of_le_of_lt (Int.floor_le q) hbound.2
      exact_mod_cast hlt.le
  · -- from there on every number is an integer
    rw [floor_of_large h hlarge]
    exact h

/-! ## Numbers -/

/-- A finite number. -/
structure Finite where
  val : ℚ
  places : round val = val
  bounded : |val| < 2 ^ 1024
  deriving DecidableEq

/-- A number of JavaScript. -/
inductive Number
  | nan
  | infinity (negative : Bool)
  | finite (x : Finite)
  deriving DecidableEq

namespace Number

/-- The number nearest to a rational, which is an infinity beyond the largest finite number. -/
def ofRat (q : ℚ) : Number :=
  if h : |round q| < 2 ^ 1024 then .finite ⟨round q, round_round q, h⟩
  else .infinity (decide (q < 0))

/-- The number of an integer literal. -/
def ofInt (n : ℤ) : Number := ofRat n

/-- `x + y`. -/
def add : Number → Number → Number
  | nan, _ => nan
  | _, nan => nan
  | infinity s, infinity t => if s = t then infinity s else nan
  | infinity s, finite _ => infinity s
  | finite _, infinity t => infinity t
  | finite x, finite y => ofRat (x.val + y.val)

/-- `x * y`. -/
def mul : Number → Number → Number
  | nan, _ => nan
  | _, nan => nan
  | infinity s, infinity t => infinity (s != t)
  | infinity s, finite y => if y.val = 0 then nan else infinity (s != decide (y.val < 0))
  | finite x, infinity t => if x.val = 0 then nan else infinity (decide (x.val < 0) != t)
  | finite x, finite y => ofRat (x.val * y.val)

/-- `x - n` for an integer literal `n`. -/
def subInt (x : Number) (n : ℤ) : Number := add x (ofInt (-n))

/-- `Math.floor(x)`. -/
def floor : Number → Number
  | finite x => ofRat ⌊x.val⌋
  | x => x

/-- `x < y`. -/
def Lt : Number → Number → Prop
  | finite x, finite y => x.val < y.val
  | finite _, infinity t => t = false
  | infinity s, finite _ => s = true
  | infinity s, infinity t => s = true ∧ t = false
  | _, _ => False

instance : LT Number := ⟨Lt⟩

instance : (x y : Number) → Decidable (x < y)
  | finite x, finite y => inferInstanceAs (Decidable (x.val < y.val))
  | finite _, infinity t => inferInstanceAs (Decidable (t = false))
  | infinity s, finite _ => inferInstanceAs (Decidable (s = true))
  | infinity s, infinity t => inferInstanceAs (Decidable (s = true ∧ t = false))
  | nan, _ => isFalse id
  | finite _, nan => isFalse id
  | infinity _, nan => isFalse id

/-- Finite numbers are compared by their values. -/
@[simp] theorem finite_lt {x y : Finite} : finite x < finite y ↔ x.val < y.val := Iff.rfl

/-- A finite number is determined by its value. -/
theorem finite_inj_val {x y : Finite} : finite x = finite y ↔ x.val = y.val := by
  obtain ⟨v, hv, hv'⟩ := x
  obtain ⟨w, hw, hw'⟩ := y
  simp

/-- A rational is rounded to a finite number. -/
theorem ofRat_eq_finite {q : ℚ} {x : Finite} : ofRat q = finite x ↔ round q = x.val := by
  -- the number is in the range, or it is not
  unfold ofRat
  constructor
  · intro h
    split at h
    · exact finite_inj_val.mp h
    · cases h
  · intro h
    have hbound : |round q| < 2 ^ 1024 := by
      rw [h]
      exact x.bounded
    rw [dif_pos hbound]
    exact finite_inj_val.mpr h

/-- The value of a finite number has places. -/
theorem finite_hasPlaces (x : Finite) : HasPlaces x.val := x.places ▸ hasPlaces_round x.val

/-- A rational between zero and a finite number is rounded to a finite number. -/
theorem exists_ofRat_eq_finite {q : ℚ} {x : Finite} (hpos : 0 ≤ q) (h : q ≤ x.val) :
    ∃ r, ofRat q = finite r ∧ round q = r.val := by
  have hlo : 0 ≤ round q := le_round hasPlaces_zero hpos
  have hhi : round q ≤ x.val := round_le (finite_hasPlaces x) h
  have hbound : |round q| < 2 ^ 1024 := by
    rw [abs_of_nonneg hlo]
    exact lt_of_le_of_lt (hhi.trans (le_abs_self _)) x.bounded
  exact ⟨⟨round q, round_round q, hbound⟩, ofRat_eq_finite.mpr rfl, rfl⟩

/-- A sum is finite only if both summands are. -/
theorem add_eq_finite {x y : Number} {z : Finite} : x.add y = finite z ↔
    ∃ x' y', x = finite x' ∧ y = finite y' ∧ round (x'.val + y'.val) = z.val := by
  constructor
  · intro h
    -- only two finite numbers have a finite sum
    match x, y with
    | finite x', finite y' => exact ⟨x', y', rfl, rfl, ofRat_eq_finite.mp h⟩
    | nan, _ => cases h
    | finite _, nan => cases h
    | infinity _, nan => cases h
    | finite _, infinity _ => cases h
    | infinity _, finite _ => cases h
    | infinity s, infinity t =>
      change (if s = t then infinity s else nan) = finite z at h
      split at h
      · cases h
      · cases h
  · rintro ⟨x', y', rfl, rfl, h⟩
    exact ofRat_eq_finite.mpr h

/-- A product is finite only if both factors are. -/
theorem mul_eq_finite {x y : Number} {z : Finite} : x.mul y = finite z ↔
    ∃ x' y', x = finite x' ∧ y = finite y' ∧ round (x'.val * y'.val) = z.val := by
  constructor
  · intro h
    -- and only they have a finite product
    match x, y with
    | finite x', finite y' => exact ⟨x', y', rfl, rfl, ofRat_eq_finite.mp h⟩
    | nan, _ => cases h
    | finite _, nan => cases h
    | infinity _, nan => cases h
    | infinity _, infinity _ => cases h
    | finite x', infinity t =>
      change (if x'.val = 0 then nan else infinity (decide (x'.val < 0) != t)) = finite z at h
      split at h
      · cases h
      · cases h
    | infinity s, finite y' =>
      change (if y'.val = 0 then nan else infinity (s != decide (y'.val < 0))) = finite z at h
      split at h
      · cases h
      · cases h
  · rintro ⟨x', y', rfl, rfl, h⟩
    exact ofRat_eq_finite.mpr h

end Number

end Double
