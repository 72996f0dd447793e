import Mathlib.Data.List.DropRight
import Mathlib.Tactic.SplitIfs

/-!
# The texts of numbers

`Number::toString` of ECMAScript on finite numbers. A number is given by the fewest decimal
digits that denote it and the place of the decimal point; the place decides between the four
forms `1200`, `1.2`, `0.0012` and `1.2e+30`.

## Key results

- `JsNumber.text_inj`: the text determines the number. `readMagnitude` reads all four forms
  in the same way: the digits before and after the point without the zeros on both sides, and
  the place of the point moved by the exponent.
- `JsNumber.numberChar_of_mem`: a text of a number can be told from what follows it in a
  larger text.
-/

namespace NumberText

/-! ## The four forms -/

/-- The digits after a decimal point, if there are any. -/
def fraction : List Char → List Char
  | [] => []
  | d :: ds => '.' :: d :: ds

/-- The exponent, with its sign. -/
def exponent (e : Int) : List Char :=
  (if 0 ≤ e then '+' else '-') :: Nat.toDigits 10 e.natAbs

/-- The text of `0.d₁d₂… · 10ⁿ`. -/
def magnitude (ds : List Char) (n : Int) : List Char :=
  if ds.length ≤ n ∧ n ≤ 21 then ds ++ List.replicate (n.toNat - ds.length) '0'
  else if 0 < n ∧ n ≤ 21 then ds.take n.toNat ++ fraction (ds.drop n.toNat)
  else if -6 < n ∧ n ≤ 0 then '0' :: fraction (List.replicate (-n).toNat '0' ++ ds)
  else ds.take 1 ++ (fraction (ds.drop 1) ++ 'e' :: exponent (n - 1))

/-! ## Reading them back -/

/-- The digits after a decimal point, and what follows them. -/
def readFraction : List Char → List Char × List Char
  | '.' :: cs => (cs.takeWhile Char.isDigit, cs.dropWhile Char.isDigit)
  | cs => ([], cs)

/-- The value of an exponent; there may be none. -/
def readExponent : List Char → Int
  | 'e' :: '+' :: ds => Nat.ofDigitChars 10 ds 0
  | 'e' :: '-' :: ds => -Nat.ofDigitChars 10 ds 0
  | _ => 0

/-- The digits without the zeros on both sides, and the place of the point. -/
def normalize (whole frac : List Char) (e : Int) : List Char × Int :=
  let zeros := ((whole ++ frac).takeWhile (· == '0')).length
  (((whole ++ frac).dropWhile (· == '0')).rdropWhile (· == '0'), whole.length + e - zeros)

/-- The digits and the place of the point of a text. -/
def readMagnitude (cs : List Char) : List Char × Int :=
  let whole := cs.takeWhile Char.isDigit
  let tail := readFraction (cs.dropWhile Char.isDigit)
  normalize whole tail.1 (readExponent tail.2)

/-- An exponent is read back. -/
theorem readExponent_exponent (e : Int) : readExponent ('e' :: exponent e) = e := by
  unfold exponent
  split
  · show ((Nat.ofDigitChars 10 (Nat.toDigits 10 e.natAbs) 0 : Nat) : Int) = e
    rw [Nat.ofDigitChars_ten_toDigits]
    omega
  · show -((Nat.ofDigitChars 10 (Nat.toDigits 10 e.natAbs) 0 : Nat) : Int) = e
    rw [Nat.ofDigitChars_ten_toDigits]
    omega

/-- A text that no digit continues: it is empty or starts with an exponent. -/
def Stops (cs : List Char) : Prop := cs = [] ∨ ∃ ds, cs = 'e' :: ds

/-- Characters of one sort, and a text that does not continue them. -/
theorem span_append {p : Char → Bool} {ds cs : List Char} (hds : ∀ c ∈ ds, p c = true)
    (hcs : ∀ c ∈ cs.head?, p c = false) :
    (ds ++ cs).takeWhile p = ds ∧ (ds ++ cs).dropWhile p = cs := by
  rw [List.takeWhile_append_of_pos hds, List.dropWhile_append_of_pos hds]
  cases cs with
  | nil => simp
  | cons c cs =>
    have hc : p c = false := hcs c rfl
    simp [hc]

/-- Decimals begin with their point. -/
theorem head_fraction (frac : List Char) {rest : List Char} (hrest : Stops rest) :
    ∀ c ∈ (fraction frac ++ rest).head?, c.isDigit = false := by
  cases frac with
  | nil =>
    rcases hrest with rfl | ⟨ds, rfl⟩ <;> simp [fraction]
  | cons d frac =>
    intro c hc
    obtain rfl : '.' = c := Option.some.inj hc
    rfl

/-- They are read back. -/
theorem readFraction_fraction {frac rest : List Char} (hfrac : ∀ c ∈ frac, c.isDigit = true)
    (hrest : Stops rest) : readFraction (fraction frac ++ rest) = (frac, rest) := by
  cases frac with
  | nil => rcases hrest with rfl | ⟨ds, rfl⟩ <;> rfl
  | cons d frac =>
    have hstop : ∀ c ∈ rest.head?, c.isDigit = false := by
      rcases hrest with rfl | ⟨ds, rfl⟩ <;> simp
    obtain ⟨htake, hdrop⟩ := span_append hfrac hstop
    show ((d :: frac ++ rest).takeWhile Char.isDigit, (d :: frac ++ rest).dropWhile Char.isDigit) = _
    rw [htake, hdrop]

/-- Every form is digits, a fraction and an exponent. -/
theorem readMagnitude_parts (whole frac : List Char) {rest : List Char}
    (hwhole : ∀ c ∈ whole, c.isDigit = true) (hfrac : ∀ c ∈ frac, c.isDigit = true)
    (hrest : Stops rest) :
    readMagnitude (whole ++ (fraction frac ++ rest)) = normalize whole frac (readExponent rest) := by
  obtain ⟨htake, hdrop⟩ := span_append hwhole (head_fraction frac hrest)
  simp only [readMagnitude, htake, hdrop, readFraction_fraction hfrac hrest]

/-- Zeros at the end are taken away. -/
theorem rdropWhile_zeros {α : Type} [BEq α] [LawfulBEq α] {zero : α} {ds : List α}
    (hlast : ds.getLast? ≠ some zero) (b : Nat) :
    (ds ++ List.replicate b zero).rdropWhile (· == zero) = ds := by
  induction b with
  | zero =>
    rw [List.replicate_zero, List.append_nil, List.rdropWhile_eq_self_iff]
    intro hne hzero
    rw [List.getLast?_eq_some_getLast hne, beq_iff_eq.mp hzero] at hlast
    exact hlast rfl
  | succ b ih =>
    rw [List.replicate_succ', ← List.append_assoc,
      List.rdropWhile_concat_pos (· == zero) _ _ (beq_self_eq_true zero), ih]

/-- The digits between the zeros. -/
theorem normalize_zeros {whole frac ds : List Char} (a b : Nat) (e : Int)
    (h : whole ++ frac = List.replicate a '0' ++ (ds ++ List.replicate b '0'))
    (hne : ds ≠ []) (hfirst : ds.head? ≠ some '0') (hlast : ds.getLast? ≠ some '0') :
    normalize whole frac e = (ds, whole.length + e - a) := by
  have hzeros : ∀ c ∈ List.replicate a '0', (c == '0') = true := fun c hc => by
    rw [List.eq_of_mem_replicate hc]
    rfl
  obtain ⟨d, ds', rfl⟩ := List.exists_cons_of_ne_nil hne
  have hd : (d == '0') = false := by
    rw [beq_eq_false_iff_ne]
    exact fun heq => hfirst (congrArg some heq)
  unfold normalize
  rw [h, List.takeWhile_append_of_pos hzeros, List.dropWhile_append_of_pos hzeros]
  -- no zero is left in front, so only those at the end go
  simp only [List.cons_append, List.takeWhile_cons, List.dropWhile_cons, hd, Bool.false_eq_true,
    if_false, List.append_nil, List.length_replicate]
  rw [← List.cons_append, rdropWhile_zeros hlast]

/-- Reading undoes writing, whatever the form. -/
theorem readMagnitude_magnitude {ds : List Char} {n : Int} (hds : ∀ c ∈ ds, c.isDigit = true)
    (hne : ds ≠ []) (hfirst : ds.head? ≠ some '0') (hlast : ds.getLast? ≠ some '0') :
    readMagnitude (magnitude ds n) = (ds, n) := by
  have hpos : 0 < ds.length := List.length_pos_of_ne_nil hne
  -- the zeros that are added are digits
  have hzeros : ∀ k, ∀ c ∈ List.replicate k '0', c.isDigit = true := fun k c hc => by
    rw [List.eq_of_mem_replicate hc]
    rfl
  unfold magnitude
  split_ifs with hint hpoint hsmall
  · -- an integer: zeros follow the digits
    have hread := readMagnitude_parts (ds ++ List.replicate (n.toNat - ds.length) '0') []
      (fun c hc => (List.mem_append.mp hc).elim (hds c) (hzeros _ c))
      (fun c hc => absurd hc List.not_mem_nil) (Or.inl rfl)
    -- without a fraction there is no point
    simp only [fraction, List.append_nil] at hread
    rw [hread, normalize_zeros 0 (n.toNat - ds.length) _ (by simp) hne hfirst hlast,
      List.length_append, List.length_replicate]
    simp only [readExponent, Prod.mk.injEq, true_and]
    -- the exponent that was not written is zero
    omega
  · -- the point is among the digits
    have hread := readMagnitude_parts (ds.take n.toNat) (ds.drop n.toNat)
      (fun c hc => hds c (List.mem_of_mem_take hc)) (fun c hc => hds c (List.mem_of_mem_drop hc))
      (Or.inl rfl)
    rw [List.append_nil] at hread
    rw [hread, normalize_zeros 0 0 _ (by simp) hne hfirst hlast, List.length_take]
    simp only [readExponent, Prod.mk.injEq, true_and]
    -- so the digits and the exponent are those of the number
    omega
  · -- zeros stand between the point and the digits
    have hread := readMagnitude_parts ['0'] (List.replicate (-n).toNat '0' ++ ds)
      (hzeros 1)
      (fun c hc => (List.mem_append.mp hc).elim (hzeros _ c) (hds c)) (Or.inl rfl)
    rw [List.append_nil, List.singleton_append] at hread
    rw [hread, normalize_zeros ((-n).toNat + 1) 0 _ (by simp [List.replicate_succ]) hne
      hfirst hlast]
    simp only [readExponent, List.length_singleton, Prod.mk.injEq, true_and]
    -- the exponent is negative by the number of these zeros
    omega
  · -- the exponent moves the point behind the first digit
    have hread := readMagnitude_parts (ds.take 1) (ds.drop 1)
      (fun c hc => hds c (List.mem_of_mem_take hc)) (fun c hc => hds c (List.mem_of_mem_drop hc))
      (Or.inr ⟨exponent (n - 1), rfl⟩)
    rw [hread, normalize_zeros 0 0 _ (by rw [List.take_append_drop]; simp) hne hfirst hlast,
      List.length_take, readExponent_exponent]
    simp only [Prod.mk.injEq, true_and]
    -- the written exponent and the one digit before the point
    omega

/-! ## Numbers -/

/-- The characters of the texts of numbers. -/
def NumberChar (c : Char) : Prop := c.isDigit = true ∨ c ∈ ['-', '+', '.', 'e']

instance : DecidablePred NumberChar := fun _ => inferInstanceAs (Decidable (_ ∨ _))

/-- Decimals consist of characters of a number. -/
theorem numberChar_fraction {ds : List Char} (hds : ∀ c ∈ ds, c.isDigit = true) :
    ∀ c ∈ fraction ds, NumberChar c := by
  cases ds with
  | nil => exact fun c hc => absurd hc List.not_mem_nil
  | cons d ds =>
    intro c hc
    rcases List.mem_cons.mp hc with rfl | hc
    · exact Or.inr (by simp)
    · exact Or.inl (hds c hc)

/-- So does an exponent. -/
theorem numberChar_exponent (e : Int) : ∀ c ∈ exponent e, NumberChar c := by
  intro c hc
  rcases List.mem_cons.mp hc with rfl | hc
  · split
    · exact Or.inr (by simp)
    · exact Or.inr (by simp)
  · exact Or.inl (Nat.isDigit_of_mem_toDigits (by decide) (by decide) hc)

/-- And the text of a magnitude. -/
theorem numberChar_magnitude {ds : List Char} {n : Int} (hds : ∀ c ∈ ds, c.isDigit = true) :
    ∀ c ∈ magnitude ds n, NumberChar c := by
  -- one goal for each form of the number, as in the lemma above
  have hzeros : ∀ k, ∀ c ∈ List.replicate k '0', c.isDigit = true := fun k c hc => by
    rw [List.eq_of_mem_replicate hc]
    rfl
  intro c hc
  unfold magnitude at hc
  split_ifs at hc
  · exact Or.inl ((List.mem_append.mp hc).elim (hds c) (hzeros _ c))
  -- the digits before the point, then the fraction
  · rcases List.mem_append.mp hc with hc | hc
    · exact Or.inl (hds c (List.mem_of_mem_take hc))
    · exact numberChar_fraction (fun d hd => hds d (List.mem_of_mem_drop hd)) c hc
  -- a leading zero, then the fraction
  · rcases List.mem_cons.mp hc with rfl | hc
    · exact Or.inl rfl
    · exact numberChar_fraction
        (fun d hd => (List.mem_append.mp hd).elim (hzeros _ d) (hds d)) c hc
  -- a digit, the fraction, and the exponent with its sign
  · rcases List.mem_append.mp hc with hc | hc
    · exact Or.inl (hds c (List.mem_of_mem_take hc))
    · rcases List.mem_append.mp hc with hc | hc
      · exact numberChar_fraction (fun d hd => hds d (List.mem_of_mem_drop hd)) c hc
      · rcases List.mem_cons.mp hc with rfl | hc
        · exact Or.inr (by simp)
        · exact numberChar_exponent _ c hc

end NumberText

/-- A finite number, `± 0.d₁d₂…dₖ · 10ⁿ` with the fewest digits. Zero has none, and one sign:
    `-0` is written like `0`. -/
structure JsNumber where
  negative : Bool
  digits : List (Fin 10)
  point : Int
  first_ne : digits.head? ≠ some 0
  last_ne : digits.getLast? ≠ some 0
  zero : digits = [] → negative = false ∧ point = 0

namespace JsNumber

open NumberText

/-- The digits of a number as characters. -/
def chars (ds : List (Fin 10)) : List Char := ds.map fun d => Nat.digitChar d.val

/-- `Number::toString`. -/
def text (x : JsNumber) : List Char :=
  if x.digits = [] then ['0']
  else (if x.negative then ['-'] else []) ++ magnitude (chars x.digits) x.point

/-- Different digits have different characters. -/
theorem digitChar_inj : Function.Injective fun d : Fin 10 => Nat.digitChar d.val := by
  intro d d' h
  revert d d'
  decide

/-- The characters of digits are digits. -/
theorem isDigit_chars {ds : List (Fin 10)} : ∀ c ∈ chars ds, c.isDigit = true := by
  intro c hc
  obtain ⟨d, -, rfl⟩ := List.mem_map.mp hc
  rw [Nat.isDigit_digitChar]
  exact decide_eq_true d.isLt

/-- A digit that is not zero is not written as one. -/
theorem chars_ne_zero {o : Option (Fin 10)} (h : o ≠ some 0) :
    (o.map fun d => Nat.digitChar d.val) ≠ some '0' := by
  cases o with
  | none => simp
  | some d =>
    intro hd
    exact h (congrArg some (digitChar_inj (Option.some.inj hd)))

/-- The digits of a number that is not zero can be read off its magnitude. -/
theorem readMagnitude_digits {x : JsNumber} (hx : x.digits ≠ []) :
    readMagnitude (magnitude (chars x.digits) x.point) = (chars x.digits, x.point) := by
  refine readMagnitude_magnitude isDigit_chars (mt List.map_eq_nil_iff.mp hx) ?_ ?_
  · rw [chars, List.head?_map]
    exact chars_ne_zero x.first_ne
  · rw [chars, List.getLast?_map]
    exact chars_ne_zero x.last_ne

/-- The text of a number consists of characters of a number. -/
theorem numberChar_of_mem {x : JsNumber} {c : Char} (hc : c ∈ x.text) : NumberChar c := by
  unfold text at hc
  split_ifs at hc with hx hneg
  · rw [List.mem_singleton.mp hc]
    exact Or.inl rfl
  · rcases List.mem_cons.mp hc with rfl | hc
    · exact Or.inr (by simp)
    · exact numberChar_magnitude isDigit_chars c hc
  · exact numberChar_magnitude isDigit_chars c hc

/-- It is not empty. -/
theorem text_ne_nil (x : JsNumber) : x.text ≠ [] := by
  unfold text
  split_ifs with hx hneg
  · simp
  · simp
  · -- an empty magnitude would be read as no digits
    intro h
    have hread := readMagnitude_digits hx
    rw [List.nil_append] at h
    rw [h] at hread
    exact hx (List.map_eq_nil_iff.mp (congrArg Prod.fst hread).symm)

/-- The sign, the digits and the place of the point of a text. -/
def readText (cs : List Char) : Bool × List Char × Int :=
  if cs.head? = some '-' then (true, readMagnitude cs.tail) else (false, readMagnitude cs)

/-- A number is read back from its text. -/
theorem readText_text (x : JsNumber) : readText x.text = (x.negative, chars x.digits, x.point) := by
  unfold text
  split_ifs with hx hneg
  · obtain ⟨hsign, hpoint⟩ := x.zero hx
    rw [hx, hsign, hpoint]
    decide
  · rw [hneg, ← readMagnitude_digits hx]
    rfl
  · rw [Bool.not_eq_true] at hneg
    rw [hneg, ← readMagnitude_digits hx, List.nil_append, readText, if_neg]
    -- a minus sign would hide the digits
    intro hminus
    obtain ⟨cs, hcs⟩ := List.head?_eq_some_iff.mp hminus
    have hread := readMagnitude_digits hx
    rw [hcs] at hread
    exact hx (List.map_eq_nil_iff.mp (congrArg Prod.fst hread).symm)

/-- The text determines the number. -/
theorem text_inj {x y : JsNumber} (h : x.text = y.text) : x = y := by
  have hread : (x.negative, chars x.digits, x.point) = (y.negative, chars y.digits, y.point) := by
    rw [← readText_text, ← readText_text, h]
  simp only [Prod.mk.injEq] at hread
  obtain ⟨hsign, hdigits, hpoint⟩ := hread
  have hsame : x.digits = y.digits := List.map_injective_iff.mpr digitChar_inj hdigits
  cases x
  cases y
  simp_all

example : (JsNumber.mk true [1, 2, 5] 1 (by decide) (by decide) (by decide)).text = "-1.25".toList := by
  decide

end JsNumber
