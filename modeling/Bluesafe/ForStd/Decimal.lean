import Mathlib.Algebra.Ring.Nat
import Mathlib.Data.List.Basic

/-!
# Decimals of fixed width

`Decimal.units w n` are the codes of the last `w` decimal digits of `n`. On numbers of at
most `w` digits the order of these lists is the order of the numbers (`units_lt_iff`), and
lists with first parts of equal length are compared part by part
(`List.append_lt_append_iff`).
-/

namespace List

/-- Two lists whose first parts have the same length are compared by these parts first. -/
theorem append_lt_append_iff {l₁ l₂ r₁ r₂ : List Nat} (h : l₁.length = l₂.length) :
    l₁ ++ r₁ < l₂ ++ r₂ ↔ l₁ < l₂ ∨ l₁ = l₂ ∧ r₁ < r₂ := by
  induction l₁ generalizing l₂ with
  | nil =>
    cases l₂ with
    | nil => simp
    | cons b l₂ => simp at h
  | cons a l₁ ih =>
    cases l₂ with
    | nil => simp at h
    | cons b l₂ =>
      rw [List.cons_append, List.cons_append, List.cons_lt_cons_iff, List.cons_lt_cons_iff,
        ih (by simpa using h), List.cons.injEq]
      tauto

end List

namespace Decimal

/-- The codes of the last `w` digits. -/
def units : Nat → Nat → List Nat
  | 0, _ => []
  | w + 1, n => units w (n / 10) ++ [48 + n % 10]

@[simp] theorem length_units (w n : Nat) : (units w n).length = w := by
  induction w generalizing n with
  | zero => rfl
  | succ w ih => simp [units, ih]

theorem units_zero (w : Nat) : units w 0 = List.replicate w 48 := by
  induction w with
  | zero => rfl
  | succ w ih => rw [units, Nat.zero_div, ih, List.replicate_succ']

theorem units_inj {w n m : Nat} (hn : n < 10 ^ w) (hm : m < 10 ^ w)
    (h : units w n = units w m) : n = m := by
  induction w generalizing n m with
  | zero => omega
  | succ w ih =>
    rw [Nat.pow_succ] at hn hm
    obtain ⟨hinit, hlast⟩ := List.append_inj h (by simp)
    have hdiv : n / 10 = m / 10 := ih (by omega) (by omega) hinit
    have hmod : 48 + n % 10 = 48 + m % 10 := (List.cons.inj hlast).1
    omega

/-- Numbers of at most `w` digits are ordered like their digits. -/
theorem units_lt_iff {w n m : Nat} (hn : n < 10 ^ w) (hm : m < 10 ^ w) :
    units w n < units w m ↔ n < m := by
  induction w generalizing n m with
  | zero =>
    simp only [Nat.pow_zero] at hn hm
    have hnm : n = m := by omega
    simp [hnm]
  | succ w ih =>
    rw [Nat.pow_succ] at hn hm
    rw [units, units, List.append_lt_append_iff (by simp), ih (by omega) (by omega)]
    have hlast : [48 + n % 10] < [48 + m % 10] ↔ n % 10 < m % 10 := by
      rw [List.cons_lt_cons_iff]
      simp
    rw [hlast]
    -- The number without its last digit decides, then the last digit.
    constructor
    · rintro (h | ⟨h, hmod⟩)
      · omega
      · have hdiv : n / 10 = m / 10 := units_inj (by omega) (by omega) h
        omega
    · intro h
      by_cases hdiv : n / 10 = m / 10
      · exact .inr ⟨by rw [hdiv], by omega⟩
      · exact .inl (by omega)

/-- The digits that `Nat.toDigits` writes, filled up with zeros to `w` digits. -/
theorem toDigits_units {w n : Nat} (hw : 0 < w) (hn : n < 10 ^ w) :
    List.replicate (w - (Nat.toDigits 10 n).length) 48 ++ (Nat.toDigits 10 n).map Char.toNat =
      units w n := by
  have hdigit : ∀ d < 10, (Nat.digitChar d).toNat = 48 + d := by decide
  induction w generalizing n with
  | zero => omega
  | succ w ih =>
    rw [Nat.pow_succ] at hn
    by_cases hsmall : n < 10
    · rw [Nat.toDigits_of_lt_base hsmall, units]
      have hdiv : n / 10 = 0 := by omega
      have hmod : n % 10 = n := by omega
      rw [hdiv, hmod, units_zero]
      simp [hdigit n hsmall]
    · -- The last digit is the last one of both sides.
      have hsplit : Nat.toDigits 10 n = Nat.toDigits 10 (n / 10) ++ Nat.toDigits 10 (n % 10) := by
        rw [Nat.toDigits_append_toDigits (by omega) (by omega) (by omega)]
        congr 1
        omega
      have hwpos : 0 < w := by
        rcases Nat.eq_zero_or_pos w with rfl | h
        · simp only [Nat.pow_zero] at hn
          omega
        · exact h
      rw [hsplit, Nat.toDigits_of_lt_base (by omega : n % 10 < 10), units, ← ih hwpos (by omega)]
      simp [hdigit (n % 10) (by omega)]

end Decimal
