import Bluesafe.ForStd.NumberText

/-!
# Reading number literals

The number literals of JSON, read off the front of a text. The value of a literal is exact: the
digits before and after the point without the zeros on both sides, with the point moved by the
exponent (`JsNumber.ofDigits`). Every text of a number is a literal of it (`readNumber_text`).
-/

namespace JsNumber

open NumberText

/-! ## Exact values -/

instance : Zero JsNumber := ⟨⟨false, [], 0, by simp, by simp, by simp⟩⟩

/-- The digits between the zeros on both sides. -/
def inner (ds : List (Fin 10)) : List (Fin 10) :=
  (ds.dropWhile (· == 0)).rdropWhile (· == 0)

/-- Without its outer zeros a number does not begin with one. -/
theorem inner_head_ne (ds : List (Fin 10)) : (inner ds).head? ≠ some 0 := by
  intro hzero
  obtain ⟨rest, hrest⟩ := List.head?_eq_some_iff.mp hzero
  obtain ⟨back, hback⟩ := List.rdropWhile_prefix (· == 0) (ds.dropWhile (· == 0))
  have hfirst := List.head?_dropWhile_not (· == 0) ds
  unfold inner at hrest
  rw [← hback, hrest] at hfirst
  simp at hfirst

/-- Nor does it end with one. -/
theorem inner_last_ne (ds : List (Fin 10)) : (inner ds).getLast? ≠ some 0 := by
  intro hzero
  have hne : inner ds ≠ [] := by
    intro hnil
    rw [hnil] at hzero
    cases hzero
  have hlast := List.rdropWhile_last_not (· == 0) (ds.dropWhile (· == 0)) hne
  rw [List.getLast?_eq_some_getLast hne, Option.some.injEq] at hzero
  exact hlast (beq_iff_eq.mpr hzero)

/-- `± 0.d₁d₂… · 10ⁿ`, with any zeros. -/
def ofDigits (negative : Bool) (ds : List (Fin 10)) (point : Int) : JsNumber :=
  if h : inner ds = [] then 0
  else ⟨negative, inner ds, point - (ds.takeWhile (· == 0)).length, inner_head_ne ds,
    inner_last_ne ds, fun hnil => absurd hnil h⟩

/-- Zeros around a number are taken away. -/
theorem inner_zeros {ds : List (Fin 10)} (hne : ds ≠ []) (hfirst : ds.head? ≠ some 0)
    (hlast : ds.getLast? ≠ some 0) (a b : Nat) :
    inner (List.replicate a 0 ++ (ds ++ List.replicate b 0)) = ds ∧
      ((List.replicate a 0 ++ (ds ++ List.replicate b 0)).takeWhile (· == 0)).length = a := by
  have hzeros : ∀ k, ∀ d ∈ List.replicate k (0 : Fin 10), (d == 0) = true := by
    intro k d hd
    rw [List.eq_of_mem_replicate hd]
    rfl
  obtain ⟨d, ds', rfl⟩ := List.exists_cons_of_ne_nil hne
  -- the first digit is not zero, so only the zeros in front are dropped
  have hd : (d == 0) = false := by
    rw [beq_eq_false_iff_ne]
    exact fun heq => hfirst (congrArg some heq)
  constructor
  · rw [inner, List.dropWhile_append_of_pos (hzeros a), List.cons_append, List.dropWhile_cons, hd]
    simp only [Bool.false_eq_true, if_false]
    rw [← List.cons_append, rdropWhile_zeros hlast]
  · rw [List.takeWhile_append_of_pos (hzeros a), List.cons_append, List.takeWhile_cons, hd]
    simp

/-- Zeros on both sides do not count. -/
theorem ofDigits_zeros {x : JsNumber} (hx : x.digits ≠ []) (a b : Nat) {point : Int}
    (hpoint : point = x.point + a) :
    ofDigits x.negative (List.replicate a 0 ++ (x.digits ++ List.replicate b 0)) point = x := by
  obtain ⟨hinner, hlength⟩ := inner_zeros hx x.first_ne x.last_ne a b
  have hnot : inner (List.replicate a 0 ++ (x.digits ++ List.replicate b 0)) ≠ [] := by
    rw [hinner]
    exact hx
  have hplace : point - (a : Int) = x.point := by omega
  unfold ofDigits
  rw [dif_neg hnot]
  cases x
  simp only [mk.injEq, true_and]
  exact ⟨hinner, by rw [hlength]; exact hplace⟩

/-- Digits that are all zero make zero. -/
theorem ofDigits_replicate (negative : Bool) (a : Nat) (point : Int) :
    ofDigits negative (List.replicate a 0) point = 0 := by
  have hnil : inner (List.replicate a 0) = [] := by
    rw [inner, List.rdropWhile_eq_nil_iff]
    intro d hd
    rw [List.eq_of_mem_replicate ((List.dropWhile_sublist _).subset hd)]
    rfl
  unfold ofDigits
  rw [dif_pos hnil]

/-! ## Literals -/

/-- The value of a digit. -/
def digitValue (c : Char) : Fin 10 := Fin.ofNat 10 (c.toNat - 48)

/-- The digits after a point, if there is one. -/
def readPoint : List Char → Option (List Char × List Char)
  | [] => some ([], [])
  | c :: cs =>
    if c = '.' then
      if cs.takeWhile Char.isDigit = [] then none
      else some (cs.takeWhile Char.isDigit, cs.dropWhile Char.isDigit)
    else some ([], c :: cs)

/-- The digits of an exponent with its sign. -/
def readPower (negative : Bool) (cs : List Char) : Option (Int × List Char) :=
  if cs.takeWhile Char.isDigit = [] then none
  else
    let power : Nat := Nat.ofDigitChars 10 (cs.takeWhile Char.isDigit) 0
    some (if negative then -power else power, cs.dropWhile Char.isDigit)

/-- The exponent, if there is one. -/
def readScale : List Char → Option (Int × List Char)
  | [] => some (0, [])
  | c :: cs =>
    if c = 'e' ∨ c = 'E' then
      if cs.head? = some '-' then readPower true cs.tail
      else if cs.head? = some '+' then readPower false cs.tail
      else readPower false cs
    else some (0, c :: cs)

/-- A number without its sign; no zero is in front of other digits. -/
def readUnsigned (negative : Bool) (cs : List Char) : Option (JsNumber × List Char) :=
  let whole := cs.takeWhile Char.isDigit
  if whole = [] ∨ (whole.head? = some '0' ∧ whole ≠ ['0']) then none
  else do
    let (frac, cs) ← readPoint (cs.dropWhile Char.isDigit)
    let (power, cs) ← readScale cs
    return (ofDigits negative ((whole ++ frac).map digitValue) (whole.length + power), cs)

/-- A number literal at the front of a text. -/
def readNumber (cs : List Char) : Option (JsNumber × List Char) :=
  if cs.head? = some '-' then readUnsigned true cs.tail else readUnsigned false cs

/-- A text that continues no number. -/
def Ends (rest : List Char) : Prop := ∀ c ∈ rest.head?, c = ',' ∨ c = ']' ∨ c = '}'

/-- The exponent of a text, or none. -/
inductive Scale : List Char → Int → Prop
  | none : Scale [] 0
  | some (e : Int) : Scale ('e' :: exponent e) e

/-- The text behind a number does not begin with a digit. -/
theorem isDigit_of_ends {rest : List Char} (h : Ends rest) : ∀ c ∈ rest.head?, c.isDigit = false := by
  intro c hc
  rcases h c hc with rfl | rfl | rfl
  · rfl
  · rfl
  · rfl

/-- A scale is read back. -/
theorem readScale_scale {tail rest : List Char} {e : Int} (htail : Scale tail e)
    (hrest : Ends rest) : readScale (tail ++ rest) = some (e, rest) := by
  -- without a scale the rest has to begin with something else than an exponent
  cases htail with
  | none =>
    cases rest with
    | nil => rfl
    | cons c cs =>
      rcases hrest c rfl with rfl | rfl | rfl
      · rfl
      · rfl
      · rfl
  | some e =>
    have hdigits : ∀ c ∈ Nat.toDigits 10 e.natAbs, c.isDigit = true := fun c hc =>
      Nat.isDigit_of_mem_toDigits (by decide) (by decide) hc
    obtain ⟨htake, hdrop⟩ := span_append hdigits (isDigit_of_ends hrest)
    -- the digits of the exponent are read up to where the number ends
    have hpower : ∀ negative, readPower negative (Nat.toDigits 10 e.natAbs ++ rest) =
        some (if negative then -(e.natAbs : Int) else e.natAbs, rest) := by
      intro negative
      unfold readPower
      rw [htake, hdrop, if_neg Nat.toDigits_ne_nil, Nat.ofDigitChars_ten_toDigits]
    unfold exponent
    -- the sign of the exponent
    split
    · have hsign : (e.natAbs : Int) = e := by omega
      have hread := hpower false
      rw [if_neg Bool.false_ne_true, hsign] at hread
      exact hread
    · have hsign : -(e.natAbs : Int) = e := by omega
      have hread := hpower true
      rw [if_pos rfl, hsign] at hread
      exact hread

/-- It begins with neither digit nor point. -/
theorem head_scale {tail rest : List Char} {e : Int} (htail : Scale tail e) (hrest : Ends rest) :
    ∀ c ∈ (tail ++ rest).head?, c.isDigit = false ∧ c ≠ '.' := by
  cases htail with
  | none =>
    intro c hc
    rcases hrest c hc with rfl | rfl | rfl
    · decide
    · decide
    · decide
  | some e =>
    intro c hc
    obtain rfl : 'e' = c := Option.some.inj hc
    decide

/-- Decimals are read back, with the scale behind them. -/
theorem readPoint_fraction {frac tail rest : List Char} {e : Int}
    (hfrac : ∀ c ∈ frac, c.isDigit = true) (htail : Scale tail e) (hrest : Ends rest) :
    readPoint (fraction frac ++ (tail ++ rest)) = some (frac, tail ++ rest) := by
  have hstop := head_scale htail hrest
  cases frac with
  | nil =>
    rw [fraction, List.nil_append]
    cases hcs : tail ++ rest with
    | nil => rfl
    | cons c cs =>
      rw [hcs] at hstop
      rw [readPoint, if_neg (hstop c rfl).2]
  | cons d frac =>
    obtain ⟨htake, hdrop⟩ := span_append hfrac fun c hc => (hstop c hc).1
    show readPoint ('.' :: (d :: frac ++ (tail ++ rest))) = _
    rw [readPoint, if_pos rfl, htake, hdrop, if_neg (List.cons_ne_nil d frac)]

/-- Digits that begin a literal: no zero is in front of others. -/
def Whole (whole : List Char) : Prop :=
  (∀ c ∈ whole, c.isDigit = true) ∧ whole ≠ [] ∧ (whole.head? = some '0' → whole = ['0'])

/-- Every literal is digits, a fraction and an exponent. -/
theorem readUnsigned_parts {whole frac tail rest : List Char} {e : Int} (negative : Bool)
    (hwhole : Whole whole) (hfrac : ∀ c ∈ frac, c.isDigit = true) (htail : Scale tail e)
    (hrest : Ends rest) :
    readUnsigned negative (whole ++ (fraction frac ++ (tail ++ rest))) =
      some (ofDigits negative ((whole ++ frac).map digitValue) (whole.length + e), rest) := by
  obtain ⟨hdigits, hne, hzero⟩ := hwhole
  -- the whole digits end at the point, at the scale, or at the end of the number
  have hstop : ∀ c ∈ (fraction frac ++ (tail ++ rest)).head?, c.isDigit = false := by
    cases frac with
    | nil => exact fun c hc => (head_scale htail hrest c hc).1
    | cons d frac =>
      intro c hc
      obtain rfl : '.' = c := Option.some.inj hc
      rfl
  obtain ⟨htake, hdrop⟩ := span_append hdigits hstop
  -- a leading zero stands alone
  have hok : ¬ (whole = [] ∨ (whole.head? = some '0' ∧ whole ≠ ['0'])) := by
    rintro (hnil | ⟨hhead, hmore⟩)
    · exact hne hnil
    · exact hmore (hzero hhead)
  unfold readUnsigned
  rw [htake, hdrop]
  dsimp only
  rw [if_neg hok, readPoint_fraction hfrac htail hrest]
  dsimp only [bind, Option.bind]
  rw [readScale_scale htail hrest]
  rfl

/-- The four forms of a magnitude as literals: the digits with zeros on both sides. -/
theorem exists_literal {ds : List Char} (hds : ∀ c ∈ ds, c.isDigit = true) (hne : ds ≠ [])
    (hfirst : ds.head? ≠ some '0') (n : Int) :
    ∃ whole frac tail e, ∃ a b : Nat,
      magnitude ds n = whole ++ (fraction frac ++ tail) ∧ Whole whole ∧
      (∀ c ∈ frac, c.isDigit = true) ∧ Scale tail e ∧
      whole ++ frac = List.replicate a '0' ++ (ds ++ List.replicate b '0') ∧
      (whole.length : Int) + e = n + a := by
  have hpos : 0 < ds.length := List.length_pos_of_ne_nil hne
  have hzeros : ∀ k, ∀ c ∈ List.replicate k '0', c.isDigit = true := fun k c hc => by
    rw [List.eq_of_mem_replicate hc]
    rfl
  have hempty : ∀ c ∈ ([] : List Char), c.isDigit = true := fun c hc => absurd hc List.not_mem_nil
  obtain ⟨d, ds', rfl⟩ := List.exists_cons_of_ne_nil hne
  have hd : ∀ k, (List.take (k + 1) (d :: ds')).head? = some '0' → False := by
    intro k hzero
    exact hfirst hzero
  unfold magnitude
  split_ifs with hint hpoint hsmall
  · -- an integer: zeros follow the digits
    refine ⟨d :: ds' ++ List.replicate (n.toNat - (d :: ds').length) '0', [], [], 0, 0,
      n.toNat - (d :: ds').length, by simp [fraction], ⟨?_, by simp, ?_⟩, hempty, .none, by simp, ?_⟩
    · intro c hc
      exact (List.mem_append.mp hc).elim (hds c) (hzeros _ c)
    · intro hzero
      exact absurd hzero hfirst
    · rw [List.length_append, List.length_replicate]
      omega
  · -- the point is among the digits
    obtain ⟨k, hk⟩ : ∃ k, n.toNat = k + 1 := ⟨n.toNat - 1, by omega⟩
    refine ⟨(d :: ds').take n.toNat, (d :: ds').drop n.toNat, [], 0, 0, 0, by simp,
      ⟨fun c hc => hds c (List.mem_of_mem_take hc), by rw [hk]; simp, ?_⟩,
      fun c hc => hds c (List.mem_of_mem_drop hc), .none, by simp, ?_⟩
    · intro hzero
      rw [hk] at hzero
      exact absurd hzero (hd k)
    · rw [List.length_take]
      omega
  · -- zeros stand between the point and the digits
    refine ⟨['0'], List.replicate (-n).toNat '0' ++ (d :: ds'), [], 0, (-n).toNat + 1, 0, by simp,
      ⟨hzeros 1, by simp, fun _ => rfl⟩, ?_, .none, by simp [List.replicate_succ], ?_⟩
    · intro c hc
      exact (List.mem_append.mp hc).elim (hzeros _ c) (hds c)
    · rw [List.length_singleton]
      omega
  · -- the exponent moves the point behind the first digit
    refine ⟨(d :: ds').take 1, (d :: ds').drop 1, 'e' :: exponent (n - 1), n - 1, 0, 0, rfl,
      ⟨fun c hc => hds c (List.mem_of_mem_take hc), by simp, ?_⟩,
      fun c hc => hds c (List.mem_of_mem_drop hc), .some (n - 1), by simp, ?_⟩
    · intro hzero
      exact absurd hzero (hd 0)
    · rw [List.length_take]
      omega

/-- Digits are read back from their characters. -/
theorem map_digitValue_chars (ds : List (Fin 10)) : (chars ds).map digitValue = ds := by
  have hback : ∀ d : Fin 10, digitValue (Nat.digitChar d.val) = d := by decide
  rw [chars, List.map_map]
  exact List.map_id'' hback ds

/-- The magnitude of a number is read with its sign. -/
theorem readUnsigned_magnitude {x : JsNumber} (hx : x.digits ≠ []) {rest : List Char}
    (hrest : Ends rest) :
    readUnsigned x.negative (magnitude (chars x.digits) x.point ++ rest) = some (x, rest) := by
  have hne : chars x.digits ≠ [] := mt List.map_eq_nil_iff.mp hx
  have hfirst : (chars x.digits).head? ≠ some '0' := by
    rw [chars, List.head?_map]
    exact chars_ne_zero x.first_ne
  obtain ⟨whole, frac, tail, e, a, b, htext, hwhole, hfrac, htail, hdigits, hpoint⟩ :=
    exists_literal isDigit_chars hne hfirst x.point
  have hvalue : ofDigits x.negative ((whole ++ frac).map digitValue) (whole.length + e) = x := by
    rw [hdigits, List.map_append, List.map_append, List.map_replicate, List.map_replicate,
      map_digitValue_chars]
    exact ofDigits_zeros hx a b hpoint
  rw [htext, List.append_assoc, List.append_assoc, readUnsigned_parts _ hwhole hfrac htail hrest,
    hvalue]

/-- A number without digits is zero. -/
theorem eq_zero_of_digits {x : JsNumber} (hx : x.digits = []) : x = 0 := by
  obtain ⟨hsign, hpoint⟩ := x.zero hx
  cases x
  dsimp only at hx hsign hpoint
  subst hx hsign hpoint
  rfl

/-- A magnitude begins with a digit. -/
theorem exists_magnitude_cons {x : JsNumber} (hx : x.digits ≠ []) :
    ∃ c cs, magnitude (chars x.digits) x.point = c :: cs ∧ c.isDigit = true := by
  have hne : chars x.digits ≠ [] := mt List.map_eq_nil_iff.mp hx
  have hfirst : (chars x.digits).head? ≠ some '0' := by
    rw [chars, List.head?_map]
    exact chars_ne_zero x.first_ne
  obtain ⟨whole, frac, tail, e, a, b, htext, hwhole, -⟩ :=
    exists_literal isDigit_chars hne hfirst x.point
  obtain ⟨c, cs, rfl⟩ := List.exists_cons_of_ne_nil hwhole.2.1
  exact ⟨c, cs ++ (fraction frac ++ tail), htext, hwhole.1 c List.mem_cons_self⟩

/-- Reading a number undoes writing it. -/
theorem readNumber_text (x : JsNumber) {rest : List Char} (hrest : Ends rest) :
    readNumber (x.text ++ rest) = some (x, rest) := by
  unfold text
  -- zero, a positive number, and a negative one
  split_ifs with hx hneg
  · have hwhole : Whole ['0'] := ⟨by simp, by simp, fun _ => rfl⟩
    have hfrac : ∀ c ∈ ([] : List Char), c.isDigit = true := by simp
    have hread := readUnsigned_parts false hwhole hfrac .none hrest
    have hzero : ofDigits false ([0] : List (Fin 10)) 1 = 0 := ofDigits_replicate false 1 1
    rw [eq_zero_of_digits hx, ← hzero]
    exact hread
  · have hread := readUnsigned_magnitude hx hrest
    rw [hneg] at hread
    exact hread
  · have hread := readUnsigned_magnitude hx hrest
    rw [Bool.not_eq_true] at hneg
    obtain ⟨c, cs, hcons, hc⟩ := exists_magnitude_cons hx
    rw [hneg, hcons] at hread
    -- a positive number does not begin with a sign
    rw [List.nil_append, hcons, List.cons_append, readNumber, if_neg]
    · exact hread
    · intro hminus
      rw [Option.some.inj hminus] at hc
      cases hc

/-! ## Integers -/

/-- The number that digits are without a point. -/
def coefficient (ds : List (Fin 10)) : Nat := ds.foldl (fun n d => n * 10 + d.val) 0

def signed (negative : Bool) (n : Nat) : Int := if negative then -(n : Int) else n

/-- The value is at least `k`: both are multiplied by the power of ten that makes them integers. -/
def AtLeast (x : JsNumber) (k : Int) : Prop :=
  k * (Nat.pow 10 ((x.digits.length : Int) - x.point).toNat : Nat) ≤
    signed x.negative (coefficient x.digits * Nat.pow 10 (x.point - x.digits.length).toNat)

instance (x : JsNumber) (k : Int) : Decidable (x.AtLeast k) := Int.decLe _ _

/-- An integer. -/
def ofInt (n : Int) : JsNumber :=
  ofDigits (decide (n < 0)) ((Nat.toDigits 10 n.natAbs).map digitValue)
    (Nat.toDigits 10 n.natAbs).length

/-- The coefficient of two runs of digits. -/
theorem coefficient_append (ds es : List (Fin 10)) :
    coefficient (ds ++ es) = coefficient ds * Nat.pow 10 es.length + coefficient es := by
  induction es using List.reverseRecOn with
  | nil => simp [coefficient]
  | append_singleton es e ih =>
    have hsnoc : ∀ fs : List (Fin 10), coefficient (fs ++ [e]) = coefficient fs * 10 + e.val := by
      intro fs
      rw [coefficient, List.foldl_append]
      rfl
    rw [← List.append_assoc, hsnoc, hsnoc, ih, List.length_append, List.length_singleton]
    show _ = coefficient ds * (Nat.pow 10 es.length * 10) + _
    rw [Nat.add_mul, Nat.mul_assoc]
    omega

/-- The coefficient of zeros. -/
theorem coefficient_replicate (a : Nat) : coefficient (List.replicate a 0) = 0 := by
  induction a with
  | zero => rfl
  | succ a ih =>
    rw [List.replicate_succ', coefficient_append, ih]
    rfl

/-- The zeros on both sides of the digits. -/
theorem exists_zeros (ds : List (Fin 10)) :
    ∃ b, ds = List.replicate (ds.takeWhile (· == 0)).length 0 ++ (inner ds ++ List.replicate b 0) := by
  have hfront : ds.takeWhile (· == 0) = List.replicate (ds.takeWhile (· == 0)).length 0 := by
    rw [List.eq_replicate_iff]
    refine ⟨rfl, fun d hd => ?_⟩
    have hzero := List.mem_takeWhile_imp hd
    exact beq_iff_eq.mp hzero
  have hback : (ds.dropWhile (· == 0)).rtakeWhile (· == 0) =
      List.replicate ((ds.dropWhile (· == 0)).rtakeWhile (· == 0)).length 0 := by
    rw [List.eq_replicate_iff]
    refine ⟨rfl, fun d hd => ?_⟩
    have hzero := List.mem_rtakeWhile_imp hd
    exact beq_iff_eq.mp hzero
  refine ⟨((ds.dropWhile (· == 0)).rtakeWhile (· == 0)).length, ?_⟩
  rw [← hfront, ← hback, inner, List.rdropWhile_append_rtakeWhile, List.takeWhile_append_dropWhile]

/-- The value of a digit is its distance from zero. -/
theorem digitValue_val {c : Char} (hc : c.isDigit = true) : (digitValue c).val = c.toNat - 48 := by
  have hle : c.toNat ≤ 57 := by
    simp only [Char.isDigit, Bool.and_eq_true, decide_eq_true_eq] at hc
    exact hc.2
  show (c.toNat - 48) % 10 = c.toNat - 48
  omega

/-- A number is the coefficient of its digits. -/
theorem coefficient_toDigits (n : Nat) : coefficient ((Nat.toDigits 10 n).map digitValue) = n := by
  have hfold : ∀ cs : List Char, (∀ c ∈ cs, c.isDigit = true) → ∀ m,
      (cs.map digitValue).foldl (fun n d => n * 10 + d.val) m = Nat.ofDigitChars 10 cs m := by
    intro cs hcs
    induction cs with
    | nil => simp
    | cons c cs ih =>
      intro m
      rw [List.map_cons, List.foldl_cons, ih (fun d hd => hcs d (List.mem_cons_of_mem _ hd)),
        Nat.ofDigitChars_cons, digitValue_val (hcs c List.mem_cons_self), Nat.mul_comm]
      rfl
  have hdigits : ∀ c ∈ Nat.toDigits 10 n, c.isDigit = true := fun c hc =>
    Nat.isDigit_of_mem_toDigits (by decide) (by decide) hc
  rw [coefficient, hfold _ hdigits, Nat.ofDigitChars_ten_toDigits]

/-- Integers are compared as integers. -/
theorem atLeast_ofInt {n k : Int} : (ofInt n).AtLeast k ↔ k ≤ n := by
  have hvalue := coefficient_toDigits n.natAbs
  unfold ofInt
  obtain ⟨b, hds⟩ := exists_zeros ((Nat.toDigits 10 n.natAbs).map digitValue)
  have hlength : ((Nat.toDigits 10 n.natAbs).map digitValue).length =
    (Nat.toDigits 10 n.natAbs).length := List.length_map _
  rw [← hlength]
  generalize (Nat.toDigits 10 n.natAbs).map digitValue = ds at hvalue hds ⊢
  -- the digits without the zeros, times a power of ten
  have hsplit := congrArg coefficient hds
  have hsize := congrArg List.length hds
  rw [hvalue, coefficient_append, coefficient_append, coefficient_replicate, coefficient_replicate,
    List.length_replicate, Nat.zero_mul, Nat.zero_add, Nat.add_zero] at hsplit
  rw [List.length_append, List.length_append, List.length_replicate, List.length_replicate] at hsize
  unfold ofDigits
  split
  · rename_i hnil
    rw [hnil] at hsplit
    have hzero : n = 0 := by
      rw [coefficient, List.foldl_nil, Nat.zero_mul] at hsplit
      omega
    rw [hzero]
    show k * 1 ≤ 0 ↔ k ≤ 0
    omega
  · have hlow : ((inner ds).length - ((ds.length : Int) - (ds.takeWhile (· == 0)).length)).toNat = 0 := by
      omega
    have hhigh : ((ds.length : Int) - (ds.takeWhile (· == 0)).length - (inner ds).length).toNat = b := by
      omega
    show k * (Nat.pow 10 ((inner ds).length - ((ds.length : Int) -
      (ds.takeWhile (· == 0)).length)).toNat : Nat) ≤ signed (decide (n < 0))
        (coefficient (inner ds) * Nat.pow 10 ((ds.length : Int) -
          (ds.takeWhile (· == 0)).length - (inner ds).length).toNat) ↔ k ≤ n
    rw [hlow, hhigh, ← hsplit]
    have hsigned : signed (decide (n < 0)) n.natAbs = n := by
      unfold signed
      by_cases hn : n < 0
      · rw [if_pos (decide_eq_true hn)]
        omega
      · rw [if_neg (by simpa using hn)]
        omega
    rw [hsigned]
    show k * 1 ≤ n ↔ k ≤ n
    omega

end JsNumber
