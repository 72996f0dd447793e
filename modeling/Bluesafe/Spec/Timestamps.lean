import Bluesafe.Api.Repository
import Bluesafe.ForStd.Decimal

/-!
# The order of ISO timestamps

The memory repository compares timestamps as texts. For the texts of `toISOString` up to the
year 9999 this is the order of the instants (`textLt_isoString`): the calendar turns later
instants into later dates, and every field has a fixed width.
-/

namespace Bluesafe.Api

open Bluesafe.Ops (Time)
open Bluesafe.Notify (isoString padded utf16Units unitsLe)

/-! ## The order of texts -/

/-- The order of texts by their units. -/
theorem unitsLe_iff (a b : List Nat) : unitsLe a b = true ↔ ¬ b < a := by
  -- induction on the first list, with the second one free
  induction a generalizing b with
  | nil => simp [unitsLe]
  | cons x a ih =>
    cases b with
    | nil => simp [unitsLe]
    | cons y b =>
      rw [List.cons_lt_cons_iff, unitsLe]
      -- the first units decide, unless they are the same
      split
      · rename_i h
        simp only [true_iff, not_or, not_and]
        exact ⟨by omega, fun heq => absurd heq (by omega)⟩
      · rename_i h
        split
        · rename_i h'
          simp [h']
        · rename_i h'
          have heq : y = x := by omega
          rw [ih]
          simp [heq]

/-- `a < b` on texts is the order of their code units. -/
theorem textLt_iff (a b : String) : textLt a b = true ↔ utf16Units a < utf16Units b := by
  rw [textLt, Bool.not_eq_true', ← Bool.not_eq_true, unitsLe_iff, not_not]

/-- The units of two texts. -/
theorem utf16Units_append (a b : String) : utf16Units (a ++ b) = utf16Units a ++ utf16Units b := by
  simp [utf16Units]

/-- The code units determine the text: a character above the basic plane starts with a unit
    that is no character. -/
theorem utf16Units_inj {a b : String} (h : utf16Units a = utf16Units b) : a = b := by
  have hchar : ∀ c : Char, c.toNat < 0xD800 ∨ 0xDFFF < c.toNat ∧ c.toNat < 0x110000 := fun c => c.valid
  rw [← String.toList_inj]
  unfold utf16Units at h
  generalize a.toList = cs at h
  generalize b.toList = ds at h
  induction cs generalizing ds with
  | nil =>
    cases ds with
    | nil => rfl
    | cons d ds =>
      rw [List.flatMap_cons] at h
      split at h <;> simp at h
  | cons c cs ih =>
    cases ds with
    | nil =>
      rw [List.flatMap_cons] at h
      split at h <;> simp at h
    | cons d ds =>
      have hc := hchar c
      have hd := hchar d
      -- The first units tell whether one or two of them belong to the first character.
      have hsame : c.toNat = d.toNat ∧ cs = ds := by
        rw [List.flatMap_cons, List.flatMap_cons] at h
        split at h <;> split at h <;>
          simp only [List.cons_append, List.nil_append, List.cons.injEq] at h
        · exact ⟨h.1, ih _ h.2⟩
        · omega
        · omega
        · exact ⟨by omega, ih _ h.2.2⟩
      rw [hsame.2, Char.toNat_inj.mp hsame.1]

/-- A text of ASCII characters. -/
theorem utf16Units_of_ascii {s : String} (h : ∀ c ∈ s.toList, c.toNat < 128) :
    utf16Units s = s.toList.map Char.toNat := by
  unfold utf16Units
  generalize s.toList = cs at h
  induction cs with
  | nil => rfl
  | cons c cs ih =>
    have hc := h c List.mem_cons_self
    rw [List.flatMap_cons, if_pos (by omega), ih fun d hd => h d (List.mem_cons_of_mem _ hd)]
    rfl

/-- A padded number has the units of its digits. -/
theorem utf16Units_padded {w n : Nat} (hw : 0 < w) (hn : n < 10 ^ w) :
    utf16Units (padded w n) = Decimal.units w n := by
  have hdigits : (toString n).toList = Nat.toDigits 10 n := by simp
  -- zeros and decimal digits are ASCII
  have hascii : ∀ c ∈ (padded w n).toList, c.toNat < 128 := by
    intro c hc
    simp only [padded, hdigits, String.toList_ofList, List.mem_append] at hc
    rcases hc with hc | hc
    · rw [(List.mem_replicate.mp hc).2]
      decide
    · have hd := Nat.isDigit_of_mem_toDigits (by decide) (by decide) hc
      simp only [Char.isDigit, Bool.and_eq_true, decide_eq_true_eq] at hd
      have hle : c.toNat ≤ '9'.toNat := hd.2
      exact Nat.lt_of_le_of_lt hle (by decide)
  rw [utf16Units_of_ascii hascii, ← Decimal.toDigits_units hw hn]
  simp [padded]

/-! ## The calendar

Days are counted from 1 March of year 0 in eras of 400 years, as `isoString` does it. -/

/-- The year of its era that a day of an era belongs to; years begin in March. -/
def yearOfEra (doe : Nat) : Nat := (doe - doe / 1460 + doe / 36524 - doe / 146096) / 365

/-- The first day of a year of an era. -/
def startOfYear (yoe : Nat) : Nat := 365 * yoe + yoe / 4 - yoe / 100

/-- A cycle has four hundred years. -/
theorem yearOfEra_lt {doe : Nat} (h : doe < 146097) : yearOfEra doe < 400 := by
  unfold yearOfEra
  omega

/-- Later days are not in earlier years. -/
theorem yearOfEra_mono {d d' : Nat} (h : d ≤ d') (h' : d' < 146097) :
    yearOfEra d ≤ yearOfEra d' := by
  unfold yearOfEra
  apply Nat.div_le_div_right
  omega

/-- A day of an era by its century, the four years in it, the year in these, and the day. The
    last year of four has 366 days, but for the last one of a century other than the fourth. -/
structure Cycles (doe c j a doy : Nat) : Prop where
  century : c < 4
  four : j < 25
  year : a < 4
  day : doy ≤ 364 ∨ doy = 365 ∧ a = 3 ∧ (j < 24 ∨ c = 3)
  eq : doe = 36524 * c + 1461 * j + 365 * a + doy

/-- Every day of a cycle lies in a century, a group of four years and a year. -/
theorem exists_cycles {doe : Nat} (h : doe < 146097) : ∃ c j a doy, Cycles doe c j a doy := by
  obtain ⟨c, r, hc, hr, hdoe⟩ : ∃ c r, c < 4 ∧ (r ≤ 36523 ∨ r = 36524 ∧ c = 3) ∧
      doe = 36524 * c + r := by
    by_cases hlast : doe = 146096
    · exact ⟨3, 36524, by omega, by omega, by omega⟩
    · exact ⟨doe / 36524, doe % 36524, by omega, by omega, by omega⟩
  by_cases hlast : r % 1461 = 1460
  · exact ⟨c, r / 1461, 3, 365, hc, by omega, by omega, by omega, by omega⟩
  · exact ⟨c, r / 1461, r % 1461 / 365, r % 1461 % 365, hc, by omega, by omega, by omega, by omega⟩

/-- The quotient by 36524 counts one century too many on the last day of an era. -/
theorem Cycles.centuries {doe c j a doy : Nat} (h : Cycles doe c j a doy) :
    doe / 36524 = c + doe / 146096 := by
  obtain ⟨hc, hj, ha, hday, hdoe⟩ := h
  -- the last day of the era belongs to the fourth century
  by_cases hlast : doe = 146096
  · have hthree : c = 3 := by omega
    rw [hlast, hthree]
  · have hhigh : doe < 36524 * (c + 1) := by omega
    have hlow : 36524 * c ≤ doe := by omega
    -- on the others the quotient is the century
    have hquot : doe / 36524 = c := by
      clear hday
      omega
    have hzero : doe / 146096 = 0 := by
      clear hday
      omega
    rw [hquot, hzero, Nat.add_zero]

/-- The days of a cycle, without its leap days. -/
theorem Cycles.days {doe c j a doy : Nat} (h : Cycles doe c j a doy) {δ f : Nat} (hδ : δ ≤ doy) :
    doe - (25 * c + j + δ) + (c + f) - f = 365 * (100 * c + 4 * j + a) + (doy - δ) := by
  rw [h.eq]
  omega

/-- The year of a day, from the parts it lies in. -/
theorem Cycles.yearOfEra_eq {doe c j a doy : Nat} (h : Cycles doe c j a doy) :
    yearOfEra doe = 100 * c + 4 * j + a := by
  -- From the end of a cycle of four years on the leap day of the next one is counted.
  obtain ⟨δ, hlow, hhigh⟩ : ∃ δ, 1460 * δ ≤ 24 * c + j + 365 * a + doy ∧
      24 * c + j + 365 * a + doy < 1460 * (δ + 1) :=
    ⟨(24 * c + j + 365 * a + doy) / 1460, by omega, by omega⟩
  have hleap : δ ≤ doy ∧ doy - δ < 365 := by
    obtain ⟨hc, hj, ha, hday, -⟩ := h
    rcases hday with h | h <;> omega
  have hyears : doe / 1460 = 25 * c + j + δ := by
    have hdoe := h.eq
    omega
  rw [yearOfEra, hyears, h.centuries, h.days hleap.1, Nat.mul_add_div (by decide),
    Nat.div_eq_of_lt hleap.2, Nat.add_zero]

/-- A day lies in its year, which has at most 366 days. -/
theorem startOfYear_le {doe : Nat} (h : doe < 146097) :
    startOfYear (yearOfEra doe) ≤ doe ∧ doe - startOfYear (yearOfEra doe) < 366 := by
  obtain ⟨c, j, a, doy, hcycles⟩ := exists_cycles h
  rw [hcycles.yearOfEra_eq]
  obtain ⟨hc, hj, ha, hday, hdoe⟩ := hcycles
  have hfour : (100 * c + 4 * j + a) / 4 = 25 * c + j := by omega
  have hhundred : (100 * c + 4 * j + a) / 100 = c := by omega
  rw [startOfYear, hfour, hhundred]
  omega

/-- The year that begins in March. -/
def marchYear (z : Nat) : Nat := yearOfEra (z % 146097) + z / 146097 * 400

/-- The day of that year. -/
def marchDay (z : Nat) : Nat := z % 146097 - startOfYear (yearOfEra (z % 146097))

/-- The month of that year, from 0. -/
def marchMonth (z : Nat) : Nat := (5 * marchDay z + 2) / 153

def dayOf (z : Nat) : Nat := marchDay z - (153 * marchMonth z + 2) / 5 + 1

def monthOf (z : Nat) : Nat := if marchMonth z < 10 then marchMonth z + 3 else marchMonth z - 9

def yearOf (z : Nat) : Nat := marchYear z + if monthOf z ≤ 2 then 1 else 0

/-- A year has at most 366 days. -/
theorem marchDay_lt (z : Nat) : marchDay z < 366 :=
  (startOfYear_le (Nat.mod_lt z (by decide))).2

/-- It has twelve months. -/
theorem marchMonth_lt (z : Nat) : marchMonth z < 12 := by
  have h := marchDay_lt z
  unfold marchMonth
  omega

/-- The day of a month has two digits. -/
theorem dayOf_lt (z : Nat) : dayOf z < 100 := by
  have h := marchDay_lt z
  unfold dayOf marchMonth
  omega

/-- So has the month. -/
theorem monthOf_lt (z : Nat) : monthOf z < 100 := by
  have h := marchMonth_lt z
  unfold monthOf
  split <;> omega

/-- Later days lie in later years, or later in the same year. -/
theorem marchYear_lt {z z' : Nat} (h : z < z') :
    marchYear z < marchYear z' ∨ marchYear z = marchYear z' ∧ marchDay z < marchDay z' := by
  have hdoe : z % 146097 < 146097 := Nat.mod_lt z (by decide)
  have hdoe' : z' % 146097 < 146097 := Nat.mod_lt z' (by decide)
  have hyear := yearOfEra_lt hdoe
  have hyear' := yearOfEra_lt hdoe'
  -- the same era, or a later one
  by_cases hera : z / 146097 = z' / 146097
  · have hlt : z % 146097 < z' % 146097 := by omega
    have hmono := yearOfEra_mono hlt.le hdoe'
    -- in the same year the days decide
    by_cases heq : yearOfEra (z % 146097) = yearOfEra (z' % 146097)
    · refine .inr ⟨by rw [marchYear, marchYear, heq, hera], ?_⟩
      have hstart := (startOfYear_le hdoe).1
      unfold marchDay
      rw [← heq]
      omega
    · left
      unfold marchYear
      omega
  · left
    unfold marchYear
    omega

/-- Later days of a year lie in later months, or later in the same month. -/
theorem marchMonth_lt_of_day {z z' : Nat} (h : marchDay z < marchDay z') :
    marchMonth z < marchMonth z' ∨ marchMonth z = marchMonth z' ∧ dayOf z < dayOf z' := by
  -- the same month, or a later one
  by_cases hmonth : marchMonth z = marchMonth z'
  · right
    refine ⟨hmonth, ?_⟩
    have hstart : (153 * marchMonth z + 2) / 5 ≤ marchDay z := by
      unfold marchMonth
      omega
    unfold dayOf
    rw [← hmonth]
    omega
  · left
    unfold marchMonth at *
    omega

/-- The calendar keeps the order of the days. -/
theorem date_lt {z z' : Nat} (h : z < z') :
    yearOf z < yearOf z' ∨ yearOf z = yearOf z' ∧
      (monthOf z < monthOf z' ∨ monthOf z = monthOf z' ∧ dayOf z < dayOf z') := by
  -- Counted in months, January and February belong to the next year.
  have hcount : ∀ z, 12 * yearOf z + monthOf z = 12 * marchYear z + marchMonth z + 3 ∧
      1 ≤ monthOf z ∧ monthOf z ≤ 12 := by
    intro z
    have hm := marchMonth_lt z
    unfold yearOf monthOf
    by_cases hsmall : marchMonth z < 10
    · rw [if_pos hsmall, if_neg (by omega)]
      omega
    · rw [if_neg hsmall, if_pos (by omega)]
      omega
  have hc := hcount z
  have hc' := hcount z'
  have hm := marchMonth_lt z
  have hm' := marchMonth_lt z'
  rcases marchYear_lt h with hyear | ⟨hyear, hday⟩
  · omega
  · rcases marchMonth_lt_of_day hday with hmonth | ⟨hmonth, hday⟩
    · omega
    · omega

/-! ## Timestamps -/

/-- A timestamp is not empty. -/
theorem isoString_ne (t : Time) : isoString t ≠ "" := by
  intro h
  have hlen := congrArg (fun u => u.toList.length) h
  simp only [isoString, String.toList_append, List.length_append] at hlen
  exact absurd hlen (Nat.succ_ne_zero _)

/-- The first instant of the year 10000. -/
def year10000 : Time := 253402300800000

/-- The day of an instant, counted from 1 March of year 0. -/
def dayNumber (t : Time) : Nat := t / 86400000 + 719468

/-- Before the year 10000 a year has four digits. -/
theorem yearOf_lt {t : Time} (h : t < year10000) : yearOf (dayNumber t) < 10000 := by
  have hlast : yearOf (dayNumber (year10000 - 1)) = 9999 := by decide +kernel
  have hle : dayNumber t ≤ dayNumber (year10000 - 1) := by
    have hlt : t ≤ 253402300799999 := Nat.le_of_lt_succ h
    exact Nat.add_le_add_right (Nat.div_le_div_right hlt) _
  rcases Nat.lt_or_eq_of_le hle with hlt | heq
  · have := date_lt hlt
    omega
  · rw [heq, hlast]
    decide

/-- The text of an instant before the year 10000, field by field. -/
theorem isoString_eq {t : Time} (h : t < year10000) :
    isoString t = padded 4 (yearOf (dayNumber t)) ++ "-" ++ padded 2 (monthOf (dayNumber t)) ++ "-" ++
      padded 2 (dayOf (dayNumber t)) ++ "T" ++ padded 2 (t % 86400000 / 3600000) ++ ":" ++
      padded 2 (t % 86400000 / 60000 % 60) ++ ":" ++ padded 2 (t % 86400000 / 1000 % 60) ++ "." ++
      padded 3 (t % 86400000 % 1000) ++ "Z" := by
  have hyear : yearOf (dayNumber t) ≤ 9999 := Nat.le_of_lt_succ (yearOf_lt h)
  have hif : (if yearOf (dayNumber t) ≤ 9999 then padded 4 (yearOf (dayNumber t))
      else "+" ++ padded 6 (yearOf (dayNumber t))) = padded 4 (yearOf (dayNumber t)) :=
    if_pos hyear
  rw [← hif]
  rfl

/-- A field of fixed width and what follows it. -/
def field (w n : Nat) (rest : List Nat) : List Nat := Decimal.units w n ++ rest

/-- A number that is smaller, or as large with a smaller rest, comes first. -/
theorem field_lt {w n n' : Nat} {r r' : List Nat} (hn : n < 10 ^ w) (hn' : n' < 10 ^ w)
    (h : n < n' ∨ n = n' ∧ r < r') : field w n r < field w n' r' := by
  unfold field
  rw [List.append_lt_append_iff (by simp), Decimal.units_lt_iff hn hn']
  rcases h with h | ⟨rfl, h⟩
  · exact .inl h
  · exact .inr ⟨rfl, h⟩

/-- The parts of a day fit their fields. -/
theorem clock_bounds {m : Nat} (h : m < 86400000) :
    m / 3600000 < 10 ^ 2 ∧ m / 60000 % 60 < 10 ^ 2 ∧ m / 1000 % 60 < 10 ^ 2 ∧ m % 1000 < 10 ^ 3 := by
  omega

/-- The time of the day, field by field. -/
theorem clock_lt {m m' : Nat} (h : m < m') :
    m / 3600000 < m' / 3600000 ∨ m / 3600000 = m' / 3600000 ∧
      (m / 60000 % 60 < m' / 60000 % 60 ∨ m / 60000 % 60 = m' / 60000 % 60 ∧
        (m / 1000 % 60 < m' / 1000 % 60 ∨ m / 1000 % 60 = m' / 1000 % 60 ∧
          m % 1000 < m' % 1000)) := by
  omega

/-- The code units of a timestamp: `-`, `T`, `:`, `.` and `Z` are 45, 84, 58, 46 and 90. -/
theorem utf16Units_isoString {t : Time} (h : t < year10000) :
    utf16Units (isoString t) =
      field 4 (yearOf (dayNumber t)) (45 ::
      field 2 (monthOf (dayNumber t)) (45 ::
      field 2 (dayOf (dayNumber t)) (84 ::
      field 2 (t % 86400000 / 3600000) (58 ::
      field 2 (t % 86400000 / 60000 % 60) (58 ::
      field 2 (t % 86400000 / 1000 % 60) (46 ::
      field 3 (t % 86400000 % 1000) [90])))))) := by
  have hyear : yearOf (dayNumber t) < 10 ^ 4 := yearOf_lt h
  have hmonth : monthOf (dayNumber t) < 10 ^ 2 := monthOf_lt _
  have hday : dayOf (dayNumber t) < 10 ^ 2 := dayOf_lt _
  obtain ⟨hhour, hminute, hsecond, hmilli⟩ := clock_bounds (Nat.mod_lt t (by decide))
  rw [isoString_eq h]
  simp only [utf16Units_append, utf16Units_padded (by decide : 0 < 4) hyear,
    utf16Units_padded (by decide : 0 < 2) hmonth, utf16Units_padded (by decide : 0 < 2) hday,
    utf16Units_padded (by decide : 0 < 2) hhour, utf16Units_padded (by decide : 0 < 2) hminute,
    utf16Units_padded (by decide : 0 < 2) hsecond, utf16Units_padded (by decide : 0 < 3) hmilli,
    List.append_assoc]
  rfl

/-- A timestamp ends with `Z`. -/
theorem getLast?_isoString {t : Time} (h : t < year10000) :
    (utf16Units (isoString t)).getLast? = some 90 := by
  rw [utf16Units_isoString h]
  simp [field, List.getLast?_append, List.getLast?_cons]

/-- A later instant comes on a later day, or later on the same day. -/
theorem dayNumber_lt {t t' : Time} (h : t < t') :
    dayNumber t < dayNumber t' ∨
      dayNumber t = dayNumber t' ∧ t % 86400000 < t' % 86400000 := by
  have hdays : ∀ n n' : Nat, n < n' → n / 86400000 + 719468 < n' / 86400000 + 719468 ∨
      n / 86400000 + 719468 = n' / 86400000 + 719468 ∧ n % 86400000 < n' % 86400000 := by
    omega
  exact hdays t t' h

/-- Earlier times have smaller timestamps. -/
theorem units_isoString_lt {t t' : Time} (h' : t' < year10000) (hlt : t < t') :
    utf16Units (isoString t) < utf16Units (isoString t') := by
  have h : t < year10000 := Nat.lt_trans hlt h'
  obtain ⟨hhour, hminute, hsecond, hmilli⟩ := clock_bounds (Nat.mod_lt t (by decide))
  obtain ⟨hhour', hminute', hsecond', hmilli'⟩ := clock_bounds (Nat.mod_lt t' (by decide))
  rw [utf16Units_isoString h, utf16Units_isoString h']
  -- The first field in which the two dates or times differ decides.
  have hfields := dayNumber_lt hlt
  apply field_lt (yearOf_lt h) (yearOf_lt h')
  rcases hfields with hday | ⟨hday, hclock⟩
  · refine (date_lt hday).imp_right (And.imp_right fun hmonth => ?_)
    rw [List.cons_lt_cons_self]
    apply field_lt (monthOf_lt _) (monthOf_lt _)
    refine hmonth.imp_right (And.imp_right fun hday => ?_)
    rw [List.cons_lt_cons_self]
    exact field_lt (dayOf_lt _) (dayOf_lt _) (.inl hday)
  · right
    rw [hday]
    refine ⟨rfl, ?_⟩
    rw [List.cons_lt_cons_self]
    apply field_lt (monthOf_lt _) (monthOf_lt _)
    refine .inr ⟨rfl, ?_⟩
    rw [List.cons_lt_cons_self]
    apply field_lt (dayOf_lt _) (dayOf_lt _)
    refine .inr ⟨rfl, ?_⟩
    rw [List.cons_lt_cons_self]
    apply field_lt hhour hhour'
    refine (clock_lt hclock).imp_right (And.imp_right fun hrest => ?_)
    rw [List.cons_lt_cons_self]
    apply field_lt hminute hminute'
    refine hrest.imp_right (And.imp_right fun hrest => ?_)
    rw [List.cons_lt_cons_self]
    apply field_lt hsecond hsecond'
    refine hrest.imp_right (And.imp_right fun hrest => ?_)
    rw [List.cons_lt_cons_self]
    exact field_lt hmilli hmilli' (.inl hrest)

/-- Texts of instants before the year 10000 are ordered like the instants. -/
theorem textLt_isoString {t t' : Time} (h : t < year10000) (h' : t' < year10000) :
    textLt (isoString t) (isoString t') = true ↔ t < t' := by
  rw [textLt_iff]
  constructor
  · intro hlt
    by_contra hge
    rcases Nat.lt_or_eq_of_le (Nat.le_of_not_lt hge) with hgt | rfl
    · exact List.lt_asymm hlt (units_isoString_lt h hgt)
    · exact List.lt_irrefl _ hlt
  · exact units_isoString_lt h'

end Bluesafe.Api
