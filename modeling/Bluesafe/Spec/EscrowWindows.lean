import Bluesafe.Async.Traces
import Bluesafe.Escrow.Builders
import Bluesafe.Spec.LockDeposit

/-!
# Windows of an escrow

The ledger requires `FinishAfter < CancelAfter`. The builders for a lease take the offsets as they
are, so there is a window iff the offsets are in order and their dates are two different numbers:
rounding is monotone, and it takes two dates that are days apart to one number only where days are not
told apart at all (`ripple_lt`). `createEscrow` compares its dates in milliseconds and submits seconds:
two dates that are rounded to one second leave no window, and they are not if a half second lies
between them.
-/

namespace Bluesafe.Escrow

open Async Double
open Bluesafe.Lock (Amount CreateEscrowParams Date calls createEscrow isoTimeToRippleTime orThrow)

variable {numberText : Number → String}

/-! ## The builders for a lease -/

/-- `unixToRippleEpoch` takes the time: it is a number, and not before the year 2000. -/
def InRange : Number → Prop
  | .finite t => (rippleEpochOffset : ℚ) ≤ t.val
  | _ => False

/-- The offsets are in order and lead to two different dates, or a date is out of range. -/
def OffsetsInOrder (leaseEndUnix : Number) (finishOffsetDays cancelOffsetDays : Option ℤ) : Prop :=
  (finishOffsetDays.getD 7 < cancelOffsetDays.getD 30 ∧
    addDaysUnix leaseEndUnix (finishOffsetDays.getD 7) ≠
      addDaysUnix leaseEndUnix (cancelOffsetDays.getD 30)) ∨
  ¬ InRange (addDaysUnix leaseEndUnix (finishOffsetDays.getD 7)) ∨
  ¬ InRange (addDaysUnix leaseEndUnix (cancelOffsetDays.getD 30))

/-- `buildDepositEscrow` throws, or the window is not empty. -/
def DepositWindow (numberText : Number → String) (p : DepositEscrowInput) : Prop :=
  ∀ tx, buildDepositEscrow numberText p = .ok tx → tx.finishAfter < tx.cancelAfter

/-- `buildStakeEscrow` throws, or the window is not empty. -/
def StakeWindow (numberText : Number → String) (p : StakeEscrowInput) : Prop :=
  ∀ tx, buildStakeEscrow numberText p = .ok tx → tx.finishAfter < tx.cancelAfter

/-! ### Days in doubles -/

/-- The seconds of some days, as they are computed. -/
def daySeconds (days : ℤ) : ℚ := Double.round (Double.round days * 86400)

/-- A date is a finite number only if the end of the lease is one. -/
theorem addDaysUnix_eq_finite {leaseEnd : Number} {days : ℤ} {x : Double.Finite}
    (h : addDaysUnix leaseEnd days = .finite x) :
    ∃ l, leaseEnd = .finite l ∧ x.val = Double.round (l.val + daySeconds days) := by
  obtain ⟨l, offset, hl, hoffset, hsum⟩ := Number.add_eq_finite.mp h
  obtain ⟨d, day, hd, hday, hproduct⟩ := Number.mul_eq_finite.mp hoffset
  have hd' : Double.round days = d.val := Number.ofRat_eq_finite.mp hd
  have hday' : Double.round (86400 : ℤ) = day.val := Number.ofRat_eq_finite.mp hday
  have hexact : Double.round (86400 : ℤ) = ((86400 : ℤ) : ℚ) :=
    round_of_places (hasPlaces_intCast (by norm_num))
  refine ⟨l, hl, ?_⟩
  rw [← hsum, ← hproduct, ← hd', ← hday', hexact, daySeconds]
  norm_num

/-- More days are not fewer seconds. -/
theorem daySeconds_mono {days days' : ℤ} (h : days ≤ days') : daySeconds days ≤ daySeconds days' := by
  have hcast : (days : ℚ) ≤ days' := by exact_mod_cast h
  exact round_mono (mul_le_mul_of_nonneg_right (round_mono hcast) (by norm_num))

/-- Offsets that differ at all differ by `2 ^ 14` seconds: up to `2 ^ 69` seconds a day is longer than
two roundings, and from `2 ^ 68` seconds on the numbers themselves are further apart. -/
theorem daySeconds_gap {days days' : ℤ} (h : daySeconds days < daySeconds days') :
    daySeconds days + 2 ^ 14 ≤ daySeconds days' := by
  obtain ⟨d, hd⟩ := exists_int_round days
  obtain ⟨d', hd'⟩ := exists_int_round days'
  unfold daySeconds at h ⊢
  rw [hd, hd'] at h ⊢
  -- days that differ in seconds differ by a day at least
  have hday : d + 1 ≤ d' := by
    by_contra hnot
    have hle : (d' : ℚ) ≤ d := by exact_mod_cast (by omega : d' ≤ d)
    have hmono := round_mono (mul_le_mul_of_nonneg_right hle (by norm_num : (0 : ℚ) ≤ 86400))
    linarith
  have hcast : (d : ℚ) + 1 ≤ d' := by exact_mod_cast hday
  set p := (d : ℚ) * 86400 with hp
  set q := (d' : ℚ) * 86400 with hq
  -- small enough, the errors of both products are less than half a day together
  by_cases hsmall : |p| < 2 ^ (69 : ℤ) ∧ |q| < 2 ^ (69 : ℤ)
  · have hpulp := ulp_le hsmall.1 (by norm_num)
    have hqulp := ulp_le hsmall.2 (by norm_num)
    have hperr := abs_le.mp (abs_round_sub_le p)
    have hqerr := abs_le.mp (abs_round_sub_le q)
    norm_num at hpulp hqulp ⊢
    linarith [hperr.2, hqerr.1]
  · by_cases hboth : 2 ^ (68 : ℤ) ≤ |Double.round p| ∧ 2 ^ (68 : ℤ) ≤ |Double.round q|
    · -- two different multiples of `2 ^ 16`
      have hunit := add_le_of_places (hasPlaces_round p) (hasPlaces_round q) hboth.1 hboth.2 h
      norm_num at hunit ⊢
      linarith
    · -- one of them is below `2 ^ 68`, and the other is not below `2 ^ 69`
      have hfar : 2 ^ (69 : ℤ) ≤ |Double.round p| ∨ 2 ^ (69 : ℤ) ≤ |Double.round q| := by
        rcases not_and_or.mp hsmall with hlarge | hlarge
        · exact .inl (two_zpow_le_abs_round (by norm_num) (not_lt.mp hlarge))
        · exact .inr (two_zpow_le_abs_round (by norm_num) (not_lt.mp hlarge))
      have hnear := not_and_or.mp hboth
      have habs := abs_sub_abs_le_abs_sub (Double.round q) (Double.round p)
      have habs' := abs_sub_abs_le_abs_sub (Double.round p) (Double.round q)
      rw [abs_sub_comm] at habs'
      rw [abs_of_pos (sub_pos.mpr h)] at habs habs'
      norm_num at hfar hnear ⊢
      rcases hfar with hfar | hfar
      · rcases hnear with hnear | hnear
        · linarith
        · linarith
      · rcases hnear with hnear | hnear
        · linarith
        · linarith

/-- The Ripple time of a date, as it is computed. -/
def rippleSeconds (date : ℚ) : ℚ := Double.round ((⌊date⌋ : ℚ) - rippleEpochOffset)

/-- Below `2 ^ 53` the Ripple time of a date is exact. -/
theorem rippleSeconds_of_small {z : ℚ} (hrange : (rippleEpochOffset : ℚ) ≤ z)
    (hsmall : z < 2 ^ (53 : ℤ)) : rippleSeconds z = ((⌊z⌋ - rippleEpochOffset : ℤ) : ℚ) := by
  have hlo : rippleEpochOffset ≤ ⌊z⌋ := Int.le_floor.mpr hrange
  have hhi : ⌊z⌋ < 2 ^ 53 := Int.floor_lt.mpr (by exact_mod_cast hsmall)
  unfold rippleSeconds
  rw [← Int.cast_sub]
  refine round_of_places (hasPlaces_intCast ?_)
  unfold rippleEpochOffset at hlo ⊢
  rw [abs_le]
  omega

/-- From `2 ^ 53` on a date has no fraction, and only the shift is rounded. -/
theorem rippleSeconds_of_large {z : ℚ} (hplaces : HasPlaces z) (hlarge : 2 ^ (53 : ℤ) ≤ |z|) :
    rippleSeconds z = Double.round (z - rippleEpochOffset) := by
  rw [rippleSeconds, floor_of_large hplaces hlarge]

/-- The dates of two offsets from the end `l` of a lease: they differ, and neither is before the
year 2000. -/
structure Dates (l x y : ℚ) (days days' : ℤ) : Prop where
  finish : x = Double.round (l + daySeconds days)
  cancel : y = Double.round (l + daySeconds days')
  inRange : (rippleEpochOffset : ℚ) ≤ x
  differ : x < y

namespace Dates

variable {l x y : ℚ} {days days' : ℤ}

/-- The first date is positive. -/
theorem pos (h : Dates l x y days days') : 0 < x :=
  lt_of_lt_of_le (by unfold rippleEpochOffset; norm_num) h.inRange

/-- The offsets of two dates are `2 ^ 14` seconds apart. -/
theorem gap (h : Dates l x y days days') : daySeconds days + 2 ^ 14 ≤ daySeconds days' := by
  refine daySeconds_gap (not_le.mp fun hle => ?_)
  have hdiffer := h.differ
  rw [h.finish, h.cancel] at hdiffer
  linarith [round_mono (add_le_add_right hle l)]

/-- Below `2 ^ n` two dates are as far apart as the offsets, but for a unit of the last place. -/
theorem apart (h : Dates l x y days days') {n : ℤ} (hn : 1 ≤ n) (hy : y < 2 ^ n) :
    x + 2 ^ 14 ≤ y + 2 ^ (n - 53) := by
  have hx := h.pos
  have hxsum : |l + daySeconds days| < 2 ^ n :=
    abs_lt_of_round (by omega) (h.finish ▸ hx) (h.finish ▸ h.differ.trans hy)
  have hysum : |l + daySeconds days'| < 2 ^ n :=
    abs_lt_of_round (by omega) (h.cancel ▸ hx.trans h.differ) (h.cancel ▸ hy)
  have hxerr := abs_le.mp (abs_round_sub_le (l + daySeconds days))
  have hyerr := abs_le.mp (abs_round_sub_le (l + daySeconds days'))
  rw [← h.finish] at hxerr
  rw [← h.cancel] at hyerr
  linarith [hxerr.2, hyerr.1, h.gap, ulp_le hxsum hn, ulp_le hysum hn]

/-- Below `2 ^ 53` all is exact: the dates are more than a second apart. -/
theorem ripple_lt_of_small (h : Dates l x y days days') (hy : y < 2 ^ (53 : ℤ)) :
    rippleSeconds x < rippleSeconds y := by
  have hapart := h.apart (by norm_num) hy
  norm_num at hapart
  -- seconds that lie apart lie apart when they are rounded down
  have hfloor : ⌊x⌋ + 1 ≤ ⌊y⌋ := by
    rw [← Int.floor_add_one]
    exact Int.floor_le_floor (by linarith)
  rw [rippleSeconds_of_small h.inRange (h.differ.trans hy),
    rippleSeconds_of_small (h.inRange.trans h.differ.le) hy]
  exact_mod_cast (by omega : ⌊x⌋ - rippleEpochOffset < ⌊y⌋ - rippleEpochOffset)

/-- The dates have 53 places. -/
theorem places (h : Dates l x y days days') : HasPlaces x ∧ HasPlaces y := by
  rw [h.finish, h.cancel]
  exact ⟨hasPlaces_round _, hasPlaces_round _⟩

/-- A first date below `2 ^ 53` and a second one that is not. -/
theorem ripple_lt_of_between (h : Dates l x y days days') (hx : x < 2 ^ (53 : ℤ))
    (hy : 2 ^ (53 : ℤ) ≤ y) : rippleSeconds x < rippleSeconds y := by
  have hxfloor : ⌊x⌋ < 2 ^ 53 := Int.floor_lt.mpr (by exact_mod_cast hx)
  have hyfloor : 2 ^ 53 ≤ ⌊y⌋ := Int.le_floor.mpr (by exact_mod_cast hy)
  -- the first time is exact, and the second one is not rounded below the bound
  have hybound : ((2 ^ 53 - rippleEpochOffset : ℤ) : ℚ) ≤ rippleSeconds y := by
    refine le_round (hasPlaces_intCast (by unfold rippleEpochOffset; norm_num)) ?_
    rw [← Int.cast_sub]
    exact_mod_cast (by omega : 2 ^ 53 - rippleEpochOffset ≤ ⌊y⌋ - rippleEpochOffset)
  rw [rippleSeconds_of_small h.inRange hx]
  refine lt_of_lt_of_le ?_ hybound
  exact_mod_cast (by omega : ⌊x⌋ - rippleEpochOffset < 2 ^ 53 - rippleEpochOffset)

/-- The offset of the Ripple epoch lies halfway between two multiples of `2 ^ k` only for `k = 8`. -/
theorem eq_eight_of_half {j : ℤ} {k : ℕ} (hk : 1 ≤ k)
    (h : 2 * rippleEpochOffset = (2 * j + 1) * 2 ^ k) : k = 8 := by
  unfold rippleEpochOffset at h
  rcases lt_trichotomy k 8 with hlt | heq | hgt
  · interval_cases k <;> omega
  · exact heq
  · obtain ⟨i, rfl⟩ := Nat.exists_eq_add_of_le hgt
    have hmultiple : 2 * 946684800 = (2 * j + 1) * 2 ^ i * 512 := by
      rw [h, pow_add]
      ring
    omega

/-- If the shift took two dates from `2 ^ n` on out of their order, they would be neighbours, and the
shifted first one would be halfway between two numbers, the second of which is the common time. -/
theorem halfway (h : Dates l x y days days') {n : ℤ} (hn : 53 ≤ n) (hlo : 2 ^ n ≤ x)
    (hhi : x < 2 ^ (n + 1)) (hle : rippleSeconds y ≤ rippleSeconds x) :
    y = x + 2 ^ (n - 52) ∧ 2 ^ n ≤ rippleSeconds x ∧
      rippleSeconds x = x - rippleEpochOffset + 2 ^ (n - 52) / 2 := by
  have hxpos := h.pos
  have hdiffer := h.differ
  obtain ⟨hxplaces, hyplaces⟩ := h.places
  have hxabs : 2 ^ n ≤ |x| := hlo.trans (le_abs_self x)
  have hyabs : 2 ^ n ≤ |y| := (hlo.trans hdiffer.le).trans (le_abs_self y)
  have hlarge : (2 : ℚ) ^ (53 : ℤ) ≤ 2 ^ n := two_zpow_mono hn
  rw [rippleSeconds_of_large hxplaces (hlarge.trans hxabs),
    rippleSeconds_of_large hyplaces (hlarge.trans hyabs)] at hle
  rw [rippleSeconds_of_large hxplaces (hlarge.trans hxabs)]
  have hoffset : (rippleEpochOffset : ℚ) = 946684800 := by unfold rippleEpochOffset; norm_num
  have hx53 : (9007199254740992 : ℚ) ≤ x := by norm_num at hlarge; linarith
  -- both dates are multiples of the unit of the last place
  have hstep := add_le_of_places hxplaces hyplaces hxabs hyabs hdiffer
  have hzx : Double.round (x - rippleEpochOffset) ≤ x := round_le hxplaces (by linarith)
  -- both shifted dates lie below the next power of two, so both errors are half a unit at most
  have hylt : y - rippleEpochOffset < 2 ^ (n + 1) := by
    by_contra hge
    linarith [le_round (hasPlaces_two_zpow (by omega)) (not_lt.mp hge)]
  have hxulp : ulp (x - rippleEpochOffset) ≤ 2 ^ (n + 1 - 53) :=
    ulp_le (by rw [abs_of_pos (by linarith)]; linarith) (by omega)
  have hyulp : ulp (y - rippleEpochOffset) ≤ 2 ^ (n + 1 - 53) :=
    ulp_le (by rw [abs_of_pos (by linarith)]; exact hylt) (by omega)
  rw [show n + 1 - 53 = n - 52 by omega] at hxulp hyulp
  have hxerr := (abs_le.mp (abs_round_sub_le (x - rippleEpochOffset))).2
  have hyerr := (abs_le.mp (abs_round_sub_le (y - rippleEpochOffset))).1
  have hy : y = x + 2 ^ (n - 52) := by linarith
  have hz : Double.round (x - rippleEpochOffset) = x - rippleEpochOffset + 2 ^ (n - 52) / 2 := by
    linarith
  refine ⟨hy, ?_, hz⟩
  -- a common value below `2 ^ n` would be off by a quarter of a unit at most
  by_contra hlt
  have hylt' : y - rippleEpochOffset < 2 ^ n := by
    by_contra hge
    linarith [le_round (hasPlaces_two_zpow (by omega)) (not_lt.mp hge)]
  have hyulp' : ulp (y - rippleEpochOffset) ≤ 2 ^ (n - 53) :=
    ulp_le (by rw [abs_of_pos (by linarith)]; exact hylt') (by omega)
  have hhalf : (2 : ℚ) ^ (n - 52) = 2 ^ (n - 53) * 2 := by
    rw [show n - 52 = n - 53 + 1 by omega, two_zpow_add, zpow_one]
  linarith

/-- So the offset would be halfway between two multiples of the unit, which fixes the power. -/
theorem exponent_eq (h : Dates l x y days days') {n : ℤ} (hn : 53 ≤ n) (hlo : 2 ^ n ≤ x)
    (hhi : x < 2 ^ (n + 1)) (hle : rippleSeconds y ≤ rippleSeconds x) : n = 60 := by
  obtain ⟨-, hzlo, hz⟩ := h.halfway hn hlo hhi hle
  obtain ⟨a, ha⟩ := multiple_of_places h.places.1 (hlo.trans (le_abs_self x))
  obtain ⟨m, hm⟩ := multiple_of_places (hasPlaces_round _) (hzlo.trans (le_abs_self _))
  obtain ⟨k, hk⟩ := Int.eq_ofNat_of_zero_le (by omega : 0 ≤ n - 52)
  have hunit : (2 : ℚ) ^ (n - 52) = ((2 ^ k : ℤ) : ℚ) := by
    rw [hk, zpow_natCast]
    norm_num
  have hk8 : k = 8 := by
    refine eq_eight_of_half (j := a - m) (by omega) ?_
    have hhalf : (2 * rippleEpochOffset : ℚ) = (2 * (a - m) + 1) * 2 ^ (n - 52) := by
      rw [rippleSeconds, hm, ha] at hz
      linarith
    rw [hunit] at hhalf
    exact_mod_cast hhalf
  omega

/-- From `2 ^ 53` on the dates are integers, and a shift takes two of them to one number only where it
is halfway between two numbers, which dates that are days apart do not come near to. -/
theorem ripple_lt_of_large (h : Dates l x y days days') (hx : 2 ^ (53 : ℤ) ≤ x) :
    rippleSeconds x < rippleSeconds y := by
  have hxpos := h.pos
  -- the power of two in front of the first date
  have hlo : (2 : ℚ) ^ Int.log 2 x ≤ x := by exact_mod_cast Int.zpow_log_le_self one_lt_two hxpos
  have hhi : x < 2 ^ (Int.log 2 x + 1) := by exact_mod_cast Int.lt_zpow_succ_log_self one_lt_two x
  have hn : 53 ≤ Int.log 2 x := (Int.zpow_le_iff_le_log one_lt_two hxpos).mp (by exact_mod_cast hx)
  by_contra hnot
  have hsixty := h.exponent_eq hn hlo hhi (not_lt.mp hnot)
  obtain ⟨hy, -, -⟩ := h.halfway hn hlo hhi (not_lt.mp hnot)
  rw [hsixty] at hhi hy
  norm_num at hhi hy
  -- neighbours are `2 ^ 8` apart there, and dates `2 ^ 13` at least
  have hapart := h.apart (n := 62) (by norm_num) (by norm_num; linarith)
  norm_num at hapart
  linarith

end Dates

/-- Two dates of offsets that differ have two Ripple times, in the same order. -/
theorem ripple_lt {l x y : ℚ} {days days' : ℤ} (h : Dates l x y days days') :
    rippleSeconds x < rippleSeconds y := by
  rcases lt_or_ge y (2 ^ (53 : ℤ)) with hy | hy
  · exact h.ripple_lt_of_small hy
  · rcases lt_or_ge x (2 ^ (53 : ℤ)) with hx | hx
    · exact h.ripple_lt_of_between hx hy
    · exact h.ripple_lt_of_large hx

/-! ### The windows -/

/-- The time that is computed for a date in range. -/
theorem floor_subInt {x : Double.Finite} (hx : (rippleEpochOffset : ℚ) ≤ x.val) :
    ∃ r, (Number.finite x).floor.subInt rippleEpochOffset = .finite r ∧ rippleSeconds x.val = r.val := by
  have hrange : (rippleEpochOffset : ℚ) ≤ ⌊x.val⌋ := by exact_mod_cast Int.le_floor.mpr hx
  have hfloor := Int.floor_le x.val
  have hoffset : (0 : ℚ) < rippleEpochOffset := by unfold rippleEpochOffset; norm_num
  -- the integer part is exact, and so is the offset
  obtain ⟨y, hy, hyval⟩ := Number.exists_ofRat_eq_finite (by linarith) hfloor
  rw [round_of_places (Number.finite_hasPlaces x).floor] at hyval
  have he : Number.ofInt (-rippleEpochOffset) =
      .finite ⟨(-rippleEpochOffset : ℤ), by decide +kernel, by decide +kernel⟩ :=
    Number.ofRat_eq_finite.mpr (by decide +kernel)
  obtain ⟨r, -, hr⟩ := @Number.exists_ofRat_eq_finite (⌊x.val⌋ - rippleEpochOffset) x (by linarith)
    (by linarith)
  refine ⟨r, Number.add_eq_finite.mpr ⟨y, _, hy, he, ?_⟩, hr⟩
  rw [← hyval, ← hr]
  push_cast
  rw [sub_eq_add_neg]

/-- The Ripple time of a date that is in range. -/
theorem unixToRippleEpoch_ok {unixSeconds t : Number} :
    unixToRippleEpoch numberText unixSeconds = .ok t ↔
      ∃ x, unixSeconds = .finite x ∧ (rippleEpochOffset : ℚ) ≤ x.val ∧
        ∃ r, t = .finite r ∧ rippleSeconds x.val = r.val := by
  unfold unixToRippleEpoch
  constructor
  · intro h
    cases unixSeconds with
    | nan => cases h
    | infinity s => cases h
    -- a finite number that is not before the epoch
    | finite x =>
      dsimp only at h
      split at h
      · cases h
      · rename_i hrange
        obtain ⟨r, hr, hval⟩ := floor_subInt (not_lt.mp hrange)
        rw [hr] at h
        cases h
        exact ⟨x, rfl, not_lt.mp hrange, r, rfl, hval⟩
  · rintro ⟨x, rfl, hrange, r, rfl, hval⟩
    obtain ⟨r', hr', hval'⟩ := floor_subInt hrange
    dsimp only
    rw [if_neg (not_lt.mpr hrange), hr', Number.finite_inj_val.mpr (hval'.symm.trans hval)]

/-- The builders take the window iff both dates are in range. -/
theorem escrowWindow_ok {leaseEndUnix : Number} {finishOffsetDays cancelOffsetDays : Option ℤ}
    {window : Number × Number} :
    escrowWindow numberText leaseEndUnix finishOffsetDays cancelOffsetDays = .ok window ↔
      unixToRippleEpoch numberText (addDaysUnix leaseEndUnix (finishOffsetDays.getD 7)) =
          .ok window.1 ∧
        unixToRippleEpoch numberText (addDaysUnix leaseEndUnix (cancelOffsetDays.getD 30)) =
          .ok window.2 := by
  constructor
  · intro h
    obtain ⟨finishAfter, hfinish, h⟩ := Except.exists_of_bind_eq_ok h
    obtain ⟨cancelAfter, hcancel, h⟩ := Except.exists_of_bind_eq_ok h
    cases h
    exact ⟨hfinish, hcancel⟩
  · rintro ⟨hfinish, hcancel⟩
    unfold escrowWindow
    dsimp only
    rw [hfinish, hcancel]
    rfl

/-- A date in range has a Ripple time. -/
theorem inRange_iff {unixSeconds : Number} : InRange unixSeconds ↔
    ∃ x r, unixSeconds = .finite x ∧ (rippleEpochOffset : ℚ) ≤ x.val ∧
      unixToRippleEpoch numberText unixSeconds = .ok (.finite r) ∧ rippleSeconds x.val = r.val := by
  constructor
  · intro h
    cases unixSeconds with
    | nan => exact h.elim
    | infinity s => exact h.elim
    | finite x =>
      obtain ⟨r, hr, hval⟩ := floor_subInt h
      exact ⟨x, r, rfl, h, unixToRippleEpoch_ok.mpr ⟨x, rfl, h, r, rfl, hval⟩, hval⟩
  · rintro ⟨x, -, rfl, hx, -⟩
    exact hx

/-- Both builders give a window that is not empty, or throw, exactly under the condition. -/
theorem window_iff {leaseEndUnix : Number} {finishOffsetDays cancelOffsetDays : Option ℤ} :
    (∀ window, escrowWindow numberText leaseEndUnix finishOffsetDays cancelOffsetDays = .ok window →
      window.1 < window.2) ↔ OffsetsInOrder leaseEndUnix finishOffsetDays cancelOffsetDays := by
  unfold OffsetsInOrder
  by_cases hfinish : InRange (addDaysUnix leaseEndUnix (finishOffsetDays.getD 7))
  · by_cases hcancel : InRange (addDaysUnix leaseEndUnix (cancelOffsetDays.getD 30))
    · obtain ⟨x, r, hx, hxrange, hxok, hr⟩ := (@inRange_iff numberText _).mp hfinish
      obtain ⟨y, r', hy, -, hyok, hr'⟩ := (@inRange_iff numberText _).mp hcancel
      obtain ⟨l, hl, hxval⟩ := addDaysUnix_eq_finite hx
      obtain ⟨l', hl', hyval⟩ := addDaysUnix_eq_finite hy
      rw [hl] at hl'
      cases hl'
      simp only [hfinish, hcancel, not_true_eq_false, or_false]
      have hwindow : (∀ window, escrowWindow numberText leaseEndUnix finishOffsetDays cancelOffsetDays =
          .ok window → window.1 < window.2) ↔ rippleSeconds x.val < rippleSeconds y.val := by
        rw [hr, hr']
        constructor
        · intro h
          exact h (.finite r, .finite r') (escrowWindow_ok.mpr ⟨hxok, hyok⟩)
        · intro hlt window hok
          obtain ⟨hok, hok'⟩ := escrowWindow_ok.mp hok
          rw [hxok] at hok
          rw [hyok] at hok'
          obtain ⟨finishAfter, cancelAfter⟩ := window
          cases hok
          cases hok'
          exact hlt
      rw [hwindow, hx, hy, ne_eq, Number.finite_inj_val]
      constructor
      · intro hlt
        -- rounding is monotone, so a later finish is not in front of the cancellation
        have hmono : ¬ y.val ≤ x.val := by
          intro hle
          have hfloor : (⌊y.val⌋ : ℚ) ≤ ⌊x.val⌋ := by exact_mod_cast Int.floor_le_floor hle
          have hripple : rippleSeconds y.val ≤ rippleSeconds x.val :=
            round_mono (sub_le_sub_right hfloor _)
          linarith
        refine ⟨not_le.mp fun hdays => hmono ?_, fun heq => hmono heq.ge⟩
        rw [hxval, hyval]
        exact round_mono (add_le_add_right (daySeconds_mono hdays) l.val)
      · rintro ⟨hdays, hne⟩
        have hle : x.val ≤ y.val := by
          rw [hxval, hyval]
          exact round_mono (add_le_add_right (daySeconds_mono hdays.le) l.val)
        exact ripple_lt ⟨hxval, hyval, hxrange, lt_of_le_of_ne hle hne⟩
    · -- the cancellation is out of range
      simp only [hcancel, not_false_eq_true, or_true, iff_true]
      intro window hok
      obtain ⟨y, hy, hyrange, -⟩ := unixToRippleEpoch_ok.mp (escrowWindow_ok.mp hok).2
      rw [hy] at hcancel
      exact absurd hyrange hcancel
  · simp only [hfinish, not_false_eq_true, true_or, or_true, iff_true]
    intro window hok
    obtain ⟨x, hx, hxrange, -⟩ := unixToRippleEpoch_ok.mp (escrowWindow_ok.mp hok).1
    rw [hx] at hfinish
    exact absurd hxrange hfinish

/-- Up to `2 ^ 52` seconds and `2 ^ 35` days the order of the offsets is enough: the dates differ. -/
theorem offsetsInOrder_of_small {l : Double.Finite} {finishOffsetDays cancelOffsetDays : Option ℤ}
    (hl : |l.val| ≤ 2 ^ 52) (hfinish : |finishOffsetDays.getD 7| ≤ 2 ^ 35)
    (hcancel : |cancelOffsetDays.getD 30| ≤ 2 ^ 35)
    (h : finishOffsetDays.getD 7 < cancelOffsetDays.getD 30) :
    OffsetsInOrder (.finite l) finishOffsetDays cancelOffsetDays := by
  have hexact : ∀ days : ℤ, |days| ≤ 2 ^ 35 → daySeconds days = (days * 86400 : ℤ) := by
    intro days hdays
    have hbound := abs_le.mp hdays
    have hround : Double.round days = days := round_of_places (hasPlaces_intCast (by rw [abs_le]; omega))
    have hcast : (days : ℚ) * 86400 = (days * 86400 : ℤ) := by push_cast; rfl
    rw [daySeconds, hround, hcast]
    exact round_of_places (hasPlaces_intCast (by rw [abs_le]; omega))
  -- both sums are below `2 ^ 53`, so they are off by half a second at most
  have herror : ∀ days : ℤ, |days| ≤ 2 ^ 35 →
      |Double.round (l.val + daySeconds days) - (l.val + daySeconds days)| ≤ 1 / 2 := by
    intro days hdays
    have hlval := abs_le.mp hl
    have hbound := abs_le.mp hdays
    have hcast : -2 ^ 35 ≤ (days : ℚ) ∧ (days : ℚ) ≤ 2 ^ 35 :=
      ⟨by exact_mod_cast hbound.1, by exact_mod_cast hbound.2⟩
    have hsum : |l.val + daySeconds days| < 2 ^ (53 : ℤ) := by
      rw [hexact days hdays, abs_lt]
      push_cast
      norm_num at hlval hcast ⊢
      constructor
      · linarith [hlval.1, hcast.1]
      · linarith [hlval.2, hcast.2]
    have hulp := ulp_le hsum (by norm_num)
    norm_num at hulp
    linarith [abs_round_sub_le (l.val + daySeconds days)]
  by_cases hrange : InRange (addDaysUnix (.finite l) (finishOffsetDays.getD 7))
  · refine .inl ⟨h, fun heq => ?_⟩
    have hrange' := heq ▸ hrange
    obtain ⟨x, -, hx, -⟩ := (@inRange_iff (fun _ => "") _).mp hrange
    obtain ⟨y, -, hy, -⟩ := (@inRange_iff (fun _ => "") _).mp hrange'
    obtain ⟨l', hl', hxval⟩ := addDaysUnix_eq_finite hx
    obtain ⟨l'', hl'', hyval⟩ := addDaysUnix_eq_finite hy
    cases hl'
    cases hl''
    rw [hx, hy, Number.finite_inj_val, hxval, hyval] at heq
    have hday : (finishOffsetDays.getD 7 : ℚ) + 1 ≤ cancelOffsetDays.getD 30 := by
      have hint : finishOffsetDays.getD 7 + 1 ≤ cancelOffsetDays.getD 30 := h
      exact_mod_cast hint
    have hxerr := (abs_le.mp (herror _ hfinish)).2
    have hyerr := (abs_le.mp (herror _ hcancel)).1
    rw [hexact _ hfinish] at hxerr heq
    rw [hexact _ hcancel] at hyerr heq
    push_cast at hxerr hyerr heq
    linarith
  · exact .inr (.inl hrange)

/-- The window of a deposit. -/
theorem depositWindow_iff (p : DepositEscrowInput) : DepositWindow numberText p ↔
    OffsetsInOrder p.leaseEndUnix p.finishOffsetDays p.cancelOffsetDays := by
  rw [← @window_iff numberText]
  unfold DepositWindow buildDepositEscrow
  cases escrowWindow numberText p.leaseEndUnix p.finishOffsetDays p.cancelOffsetDays with
  | error e => simp [bind, Except.bind]
  | ok window => simp [bind, Except.bind, pure, Except.pure]

/-- The window of a stake. -/
theorem stakeWindow_iff (p : StakeEscrowInput) : StakeWindow numberText p ↔
    OffsetsInOrder p.leaseEndUnix p.finishOffsetDays p.cancelOffsetDays := by
  rw [← @window_iff numberText]
  unfold StakeWindow buildStakeEscrow
  cases escrowWindow numberText p.leaseEndUnix p.finishOffsetDays p.cancelOffsetDays with
  | error e => simp [bind, Except.bind]
  | ok window => simp [bind, Except.bind, pure, Except.pure]

/-! ## `createEscrow` -/

/-- The window between two times that are both given is not empty. -/
def NonEmpty (finishAfter cancelAfter : Option ℤ) : Prop :=
  ∀ finish ∈ finishAfter, ∀ cancel ∈ cancelAfter, finish < cancel

/-- Every transaction that `createEscrow` submits has a window. -/
def SubmittedWindow (params : CreateEscrowParams) : Prop :=
  ∀ evs x, Traces (createEscrow params) evs x → ∀ ev ∈ evs,
    ∀ account destination amount finishAfter cancelAfter condition destinationTag,
      ev.op = .submitAndWait (.escrowCreate account destination amount finishAfter cancelAfter
        condition destinationTag) → NonEmpty finishAfter cancelAfter

/-- Between two valid dates that are in order there is a half second. -/
def HalfSecondBetween (params : CreateEscrowParams) : Prop :=
  ∀ finish ∈ params.finishAfter, ∀ cancel ∈ params.cancelAfter, ∀ a ∈ finish.ms, ∀ b ∈ cancel.ms,
    a < b → ∃ second, a < 1000 * second + 500 ∧ 1000 * second + 500 ≤ b

theorem rounded_lt_iff {a b : ℤ} : (a + 500) / 1000 - 946684800 < (b + 500) / 1000 - 946684800 ↔
    ∃ second, a < 1000 * second + 500 ∧ 1000 * second + 500 ≤ b := by
  constructor
  · intro h
    exact ⟨(b + 500) / 1000 - 1, by omega, by omega⟩
  · rintro ⟨second, ha, hb⟩
    omega

/-- The transaction that is submitted, if the checks pass. -/
theorem createEscrow_submits {params : CreateEscrowParams} {tx : Lock.Tx} :
    (∃ evs x, Traces (createEscrow params) evs x ∧ ∃ ev ∈ evs, ev.op = .submitAndWait tx) ↔
      params.validate = .ok () ∧ params.toTx = .ok tx := by
  unfold createEscrow
  cases hvalid : params.validate with
  -- parameters that are refused, a time that cannot be built, or the one submission
  | error e =>
    constructor
    · rintro ⟨evs, x, htraces, ev, hev, -⟩
      obtain ⟨rfl, -⟩ := htraces
      cases hev
    · rintro ⟨h, -⟩
      cases h
  | ok u =>
    cases htx : params.toTx with
    | error e =>
      constructor
      · rintro ⟨evs, x, htraces, ev, hev, -⟩
        obtain ⟨rfl, -⟩ := htraces
        cases hev
      · rintro ⟨-, h⟩
        cases h
    | ok built =>
      constructor
      · rintro ⟨evs, x, htraces, ev, hev, hop⟩
        refine ⟨rfl, ?_⟩
        rcases traces_call_bind.mp htraces with ⟨e, -, rfl⟩ | ⟨response, rest, rfl, hrest⟩
        · rw [List.mem_singleton.mp hev] at hop
          cases hop
          rfl
        · -- behind the submission there is no other call
          have hnone : rest = [] := by
            generalize Lock.assertCreateSuccess response = result at hrest
            cases result with
            | ok r => exact hrest.1
            | error e => exact hrest.1
          rw [hnone, List.mem_singleton] at hev
          rw [hev] at hop
          cases hop
          rfl
      · rintro ⟨-, h⟩
        cases h
        exact ⟨_, _, traces_call_bind.mpr (.inl ⟨"", rfl, rfl⟩), _, List.mem_singleton_self _, rfl⟩

/-- What the checks and the transaction leave of the two dates. -/
theorem validate_toTx_ok {params : CreateEscrowParams} {account destination : String}
    {amount : Amount} {finishAfter cancelAfter : Option ℤ} {condition : Option String}
    {destinationTag : Option Nat} (hvalid : params.validate = .ok ())
    (htx : params.toTx = .ok (.escrowCreate account destination amount finishAfter cancelAfter
      condition destinationTag)) :
    params.finishAfter.mapM isoTimeToRippleTime = .ok finishAfter ∧
      params.cancelAfter.mapM isoTimeToRippleTime = .ok cancelAfter ∧
      ∀ finish ∈ params.finishAfter, ∀ cancel ∈ params.cancelAfter, cancel.notAfter finish = false := by
  obtain ⟨finishAfter', hfinish, htx⟩ := Except.exists_of_bind_eq_ok htx
  obtain ⟨cancelAfter', hcancel, htx⟩ := Except.exists_of_bind_eq_ok htx
  cases htx
  refine ⟨hfinish, hcancel, fun finish hf cancel hc => ?_⟩
  unfold CreateEscrowParams.validate at hvalid
  rw [Option.mem_def.mp hf, Option.mem_def.mp hc] at hvalid
  cases hnot : cancel.notAfter finish with
  | false => rfl
  | true => simp [hnot] at hvalid

/-- The time of a date that is given. -/
theorem mapM_ripple {date : Option Date} {t : Option ℤ}
    (h : date.mapM isoTimeToRippleTime = .ok t) :
    ∀ second ∈ t, ∃ d ∈ date, ∃ ms ∈ d.ms, second = (ms + 500) / 1000 - 946684800 := by
  intro second hsecond
  -- without a date there is no time
  cases date with
  | none =>
    cases h
    cases hsecond
  | some d =>
    obtain ⟨second', hd, h⟩ := Except.exists_of_bind_eq_ok h
    cases h
    cases hsecond
    unfold isoTimeToRippleTime at hd
    cases hms : d.ms with
    | none =>
      rw [hms] at hd
      cases hd
    | some ms =>
      rw [hms] at hd
      cases hd
      exact ⟨d, rfl, ms, hms, rfl⟩

theorem submittedWindow_iff (params : CreateEscrowParams) :
    SubmittedWindow params ↔ HalfSecondBetween params := by
  constructor
  · intro h finish hf cancel hc a ha b hb hab
    rw [← rounded_lt_iff]
    -- the dates pass the check, and the transaction carries them as rounded seconds
    have hvalid : params.validate = .ok () := by
      unfold CreateEscrowParams.validate Date.notAfter
      rw [Option.mem_def.mp hf, Option.mem_def.mp hc]
      simp only [Option.isNone_some, Bool.false_eq_true, false_and, if_false, Option.mem_def.mp ha,
        Option.mem_def.mp hb, decide_eq_true_eq]
      rw [if_neg (not_le.mpr hab)]
    have htx : params.toTx = .ok (.escrowCreate params.account.classicAddress params.destination
        params.amount (some ((a + 500) / 1000 - 946684800)) (some ((b + 500) / 1000 - 946684800))
        (Ops.truthy params.condition) params.destinationTag) := by
      unfold CreateEscrowParams.toTx isoTimeToRippleTime
      rw [Option.mem_def.mp hf, Option.mem_def.mp hc]
      simp only [Option.mapM_some, Option.mem_def.mp ha, Option.mem_def.mp hb]
      rfl
    obtain ⟨evs, x, htraces, ev, hev, hop⟩ := createEscrow_submits.mpr ⟨hvalid, htx⟩
    exact h evs x htraces ev hev _ _ _ _ _ _ _ hop _ rfl _ rfl
  · intro h evs x htraces ev hev account destination amount finishAfter cancelAfter condition
      destinationTag hop finish hfinish cancel hcancel
    obtain ⟨hvalid, htx⟩ := createEscrow_submits.mp ⟨evs, x, htraces, ev, hev, hop⟩
    obtain ⟨hmapFinish, hmapCancel, hnot⟩ := validate_toTx_ok hvalid htx
    obtain ⟨d, hd, a, ha, rfl⟩ := mapM_ripple hmapFinish finish hfinish
    obtain ⟨d', hd', b, hb, rfl⟩ := mapM_ripple hmapCancel cancel hcancel
    -- the check compares the milliseconds
    have hab : a < b := by
      have hfalse := hnot d hd d' hd'
      unfold Date.notAfter at hfalse
      rw [Option.mem_def.mp ha, Option.mem_def.mp hb] at hfalse
      exact not_le.mp (of_decide_eq_false hfalse)
    exact rounded_lt_iff.mpr (h d hd d' hd' a ha b hb hab)

/-- Exactly when the window of an escrow is not empty, for each of the three builders. -/
theorem escrow_windows_iff (numberText : Number → String) :
    (∀ p, DepositWindow numberText p ↔
      OffsetsInOrder p.leaseEndUnix p.finishOffsetDays p.cancelOffsetDays) ∧
    (∀ p, StakeWindow numberText p ↔
      OffsetsInOrder p.leaseEndUnix p.finishOffsetDays p.cancelOffsetDays) ∧
    ∀ params, SubmittedWindow params ↔ HalfSecondBetween params :=
  ⟨depositWindow_iff, stakeWindow_iff, submittedWindow_iff⟩

/-- A date far away, from which a few weeks make no difference. -/
example : addDaysUnix (.ofInt (10 ^ 23)) 7 = addDaysUnix (.ofInt (10 ^ 23)) 30 := by decide +kernel

/-- A deposit that may be claimed a month after the lease ends, with the cancellation a week after
the end, has no window. -/
def lateFinish : DepositEscrowInput where
  tenant := "rTenant"
  landlord := "rLandlord"
  amount := .drops "1000000"
  leaseEndUnix := .ofInt 1900000000
  finishOffsetDays := some 30
  cancelOffsetDays := some 7

/-- Two dates 400 ms apart that are rounded to one second. -/
def sameSecond : CreateEscrowParams where
  account := ⟨"rTenant", none⟩
  destination := "rLandlord"
  amount := .drops "1000000"
  finishAfter := some ⟨some 1900000000000⟩
  cancelAfter := some ⟨some 1900000000400⟩

theorem escrow_window_empty :
    (∃ tx, buildDepositEscrow (fun _ => "") lateFinish = .ok tx ∧ tx.cancelAfter < tx.finishAfter) ∧
    ¬ DepositWindow (fun _ => "") lateFinish ∧
    sameSecond.validate = .ok () ∧
    sameSecond.toTx = .ok (.escrowCreate "rTenant" "rLandlord" (.drops "1000000") (some 953315200)
      (some 953315200) none none) ∧
    ¬ SubmittedWindow sameSecond := by
  have hdeposit : buildDepositEscrow (fun _ => "") lateFinish =
      .ok ⟨"rTenant", "rLandlord", .drops "1000000", .ofInt 955907200, .ofInt 953920000, none, none,
        none⟩ := by
    decide +kernel
  have hvalid : sameSecond.validate = .ok () := by rfl
  have htx : sameSecond.toTx = .ok (.escrowCreate "rTenant" "rLandlord" (.drops "1000000")
      (some 953315200) (some 953315200) none none) := by rfl
  refine ⟨⟨_, hdeposit, by decide +kernel⟩, fun h => ?_, hvalid, htx, fun h => ?_⟩
  · exact absurd (h _ hdeposit) (by decide +kernel)
  · obtain ⟨evs, x, htraces, ev, hev, hop⟩ := createEscrow_submits.mpr ⟨hvalid, htx⟩
    exact absurd (h evs x htraces ev hev _ _ _ _ _ _ _ hop _ rfl _ rfl) (by decide)

end Bluesafe.Escrow
