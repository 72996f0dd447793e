import Bluesafe.Api.Query
import Bluesafe.Spec.Timestamps

/-!
# Time windows of the list calls

The bounds of a list call are compared with the stored timestamps as texts, while the other
repository compares instants. Both windows are intervals of milliseconds, so they agree on
all stores exactly when they agree at their edges (`WindowExact`): the text of the lower
bound must stand between the texts of the millisecond before its instant and of its
instant, and the text of the upper bound between those of its instant and of the next one.
The canonical text of an instant does; one without milliseconds or with an offset need not.

Stored timestamps are taken before the year 10000, from where on their texts start with `+`.

## Key results

- `inWindow_eq_iff`: when the two windows agree on all timestamps
- `WindowExact.canonical`: bounds as `toISOString` writes them
- `time_windows_exact`: when the five list calls return the rows between the instants
-/

namespace Bluesafe.Api

open Bluesafe.Ops (Time AuditLog Contract DisputeCase truthy ContractStatus DisputeStatus)
open Bluesafe.Notify (isoString utf16Units)

attribute [local irreducible] isoString year10000

/-! ## Rows between two instants -/

/-- The window as instants; `instant` is the value of `Date.parse`. -/
def betweenInstants (instant : String → Option Int) (lo hi : Option String) (t : Time) : Bool :=
  ((truthy lo).bind instant).all (fun l => decide (l ≤ (t : Int))) &&
    ((truthy hi).bind instant).all (fun h => decide ((t : Int) ≤ h))

/-- The audit entries of a window, in the order of the lists. -/
def Store.auditsIn (s : Store) (rt : Runtime) (entityType entityId : Option String)
    (window : Time → Bool) : List AuditLog :=
  (s.ops.audits.reverse.filter fun log => matchesText entityType log.entityType &&
    matchesText entityId log.entityId && window log.createdAt).insertionSort
      fun a b => auditLe rt a b = true

/-- The contracts of a window, newest update first. -/
def Store.contractsIn (s : Store) (status : Option ContractStatus)
    (tenantId landlordId : Option String) (window : Time → Bool) : List Contract :=
  (s.ops.contracts.rows.filter fun c => matchesOpt status c.status &&
    matchesText tenantId c.tenantId && matchesText landlordId c.landlordId &&
    window c.updatedAt).insertionSort fun a b => b.updatedAt ≤ a.updatedAt

/-- The disputes of a window, newest update first. -/
def Store.disputesIn (s : Store) (contractId : Option String) (status : Option DisputeStatus)
    (window : Time → Bool) : List DisputeCase :=
  (s.ops.disputes.rows.filter fun d => matchesText contractId d.contractId &&
    matchesOpt status d.status && window d.updatedAt).insertionSort
      fun a b => b.updatedAt ≤ a.updatedAt

/-- The page of a list behind a cursor. -/
def pageAfterCursor (rt : Runtime) (limit : Nat) (cursor : Option String) (rows : List AuditLog) :
    Option (List AuditLog × Option String) :=
  match truthy cursor with
  | none => some (Store.auditsAfterCursor.cut rt limit rows)
  | some raw =>
    match decodeAuditCursor rt raw with
    | none => none
    | some c => some (Store.auditsAfterCursor.cut rt limit
        (rows.dropWhile fun log => !isAfterCursor c log))

/-- The timestamps of the listed rows have a year of four digits. -/
structure Stamped (s : Store) : Prop where
  audits : ∀ log ∈ s.ops.audits, log.createdAt < year10000
  contracts : ∀ c ∈ s.ops.contracts.rows, c.updatedAt < year10000
  disputes : ∀ d ∈ s.ops.disputes.rows, d.updatedAt < year10000

/-- The five list calls return the rows whose timestamps lie between the two instants. -/
structure ListsExact (rt : Runtime) (instant : String → Option Int) (lo hi : Option String)
    (s : Store) : Prop where
  listAudits : ∀ entityType entityId c,
    (perform rt (.listAudits ⟨entityType, entityId, lo, hi⟩) c s).1 =
      s.auditsIn rt entityType entityId (betweenInstants instant lo hi)
  listAuditsPage : ∀ entityType entityId p c,
    (perform rt (.listAuditsPage ⟨entityType, entityId, lo, hi⟩ p) c s).1 =
      .of (s.auditsIn rt entityType entityId (betweenInstants instant lo hi)) p
  listAuditsAfterCursor : ∀ entityType entityId limit cursor c,
    (perform rt (.listAuditsAfterCursor ⟨entityType, entityId, lo, hi⟩ limit cursor) c s).1 =
      pageAfterCursor rt limit cursor
        (s.auditsIn rt entityType entityId (betweenInstants instant lo hi))
  listContractsPage : ∀ status tenantId landlordId p c,
    (perform rt (.listContractsPage ⟨status, tenantId, landlordId, lo, hi⟩ p) c s).1 =
      .of (s.contractsIn status tenantId landlordId (betweenInstants instant lo hi)) p
  listDisputesPage : ∀ contractId status p c,
    (perform rt (.listDisputesPage ⟨contractId, status, lo, hi⟩ p) c s).1 =
      .of (s.disputesIn contractId status (betweenInstants instant lo hi)) p

/-! ## The edges of a window -/

/-- The first millisecond a lower bound admits. -/
def firstInstant (instant : String → Option Int) (lo : Option String) : Nat :=
  (((truthy lo).bind instant).getD 0).toNat

/-- The first millisecond an upper bound does not admit, at most the end of the year 9999. -/
def stopInstant (instant : String → Option Int) (hi : Option String) : Nat :=
  match (truthy hi).bind instant with
  | none => year10000
  | some h => min (h + 1).toNat year10000

/-- The timestamp sorts before the text of the lower bound. -/
def sortsBelow (lo : Option String) (t : Time) : Bool :=
  (truthy lo).any fun l => textLt (isoString t) l

/-- The timestamp sorts after the text of the upper bound. -/
def sortsAbove (hi : Option String) (t : Time) : Bool :=
  (truthy hi).any fun h => textLt h (isoString t)

/-- The texts of the bounds stand where the texts of their instants stand; when the instants
    admit no timestamp, the texts admit none. -/
def WindowExact (instant : String → Option Int) (lo hi : Option String) : Prop :=
  let first := firstInstant instant lo
  let stop := stopInstant instant hi
  if first < stop then
    (sortsBelow lo first = false ∧ (0 < first → sortsBelow lo (first - 1) = true)) ∧
      (sortsAbove hi (stop - 1) = false ∧ (stop < year10000 → sortsAbove hi stop = true))
  else ∀ t < year10000, sortsBelow lo t = true ∨ sortsAbove hi t = true

theorem all_not_eq {α : Type} (o : Option α) (p : α → Bool) : (o.all fun a => !p a) = !o.any p := by
  cases o <;> rfl

/-- A time is in a window when it sorts neither below nor above. -/
theorem inWindow_eq (lo hi : Option String) (t : Time) :
    inWindow lo hi t = (!sortsBelow lo t && !sortsAbove hi t) := by
  unfold inWindow sortsBelow sortsAbove
  rw [all_not_eq, all_not_eq]

/-- And between two instants when it is neither before nor after. -/
theorem betweenInstants_eq (instant : String → Option Int) (lo hi : Option String) {t : Time}
    (h : t < year10000) : betweenInstants instant lo hi t =
      decide (firstInstant instant lo ≤ t ∧ t < stopInstant instant hi) := by
  -- both comparisons are bounds on the number of the timestamp
  unfold betweenInstants firstInstant stopInstant
  -- a bound that is absent, or is no time, admits everything
  have hlower : ((truthy lo).bind instant).all (fun l => decide (l ≤ (t : Int))) =
      decide ((((truthy lo).bind instant).getD 0).toNat ≤ t) := by
    cases (truthy lo).bind instant with
    | none => simp
    | some l => simp [Int.toNat_le]
  have hupper : ((truthy hi).bind instant).all (fun l => decide ((t : Int) ≤ l)) =
      decide (t < match (truthy hi).bind instant with
        -- the upper bound is inclusive, so the interval ends one number later
        | none => year10000
        | some l => min (l + 1).toNat year10000) := by
    cases (truthy hi).bind instant with
    | none => simpa using h
    | some l =>
      have hiff : (t : Int) ≤ l ↔ t < min (l + 1).toNat year10000 := by
        rw [Nat.lt_min, Int.lt_toNat, Int.lt_add_one_iff]
        exact ⟨fun hle => ⟨hle, h⟩, And.left⟩
      simp only [Option.all_some, hiff]
  rw [hlower, hupper, Bool.decide_and]

/-- Both tests of a window are monotone below a bound: it is an interval, and its edges
    determine it. -/
theorem interval_iff (below above : Nat → Bool) (first : Nat) {stop bound : Nat} (hstop : stop ≤ bound)
    (hbelow : ∀ t t', t ≤ t' → t' < bound → below t' = true → below t = true)
    (habove : ∀ t t', t ≤ t' → t' < bound → above t = true → above t' = true) :
    (∀ t < bound, (!below t && !above t) = decide (first ≤ t ∧ t < stop)) ↔
      if first < stop then
        (below first = false ∧ (0 < first → below (first - 1) = true)) ∧
          (above (stop - 1) = false ∧ (stop < bound → above stop = true))
      else ∀ t < bound, below t = true ∨ above t = true := by
  -- the interval is not empty, or it is
  split
  · rename_i hne
    constructor
    -- the comparison agrees on every value, so in particular on those at the edges
    · intro h
      have hinside : ∀ t, first ≤ t → t < stop → below t = false ∧ above t = false := by
        intro t hlo hhi
        have ht := h t (by omega)
        rw [decide_eq_true ⟨hlo, hhi⟩] at ht
        simpa using ht
      have houtside : ∀ t < bound, ¬ (first ≤ t ∧ t < stop) → below t = true ∨ above t = true := by
        intro t ht hout
        have hedge := h t ht
        rw [decide_eq_false hout, Bool.and_eq_false_iff] at hedge
        simpa using hedge
      -- the two ends of the interval, and the values next to them
      have hfirst := hinside first (by omega) hne
      have hlast := hinside (stop - 1) (by omega) (by omega)
      -- the four corners of the interval
      refine ⟨⟨hfirst.1, fun hpos => ?_⟩, hlast.2, fun hlt => ?_⟩
      · -- A timestamp before the first one cannot sort above the upper bound.
        rcases houtside (first - 1) (by omega) (by omega) with hb | ha
        · exact hb
        · have hcontra := habove (first - 1) (stop - 1) (by omega) (by omega) ha
          rw [hlast.2] at hcontra
          cases hcontra
      -- nor can a timestamp after the last one sort below the lower bound
      · rcases houtside stop hlt (by omega) with hb | ha
        · have hcontra := hbelow first stop (by omega) hlt hb
          rw [hfirst.1] at hcontra
          cases hcontra
        · exact ha
    -- from the corners, the two orders decide everything
    · rintro ⟨⟨hfirst, hbefore⟩, hlast, hafter⟩ t ht
      by_cases hlo : first ≤ t
      · by_cases hhi : t < stop
        -- below the stop, the lower bound cannot have cut it off
        · have hb : below t = false := by
            rw [← Bool.not_eq_true]
            intro hb
            rw [hbelow first t hlo ht hb] at hfirst
            cases hfirst
          have ha : above t = false := by
            rw [← Bool.not_eq_true]
            intro ha
            rw [habove t (stop - 1) (by omega) (by omega) ha] at hlast
            cases hlast
          simp [hb, ha, hlo, hhi]
        -- a timestamp past the stop is above the bound
        · have ha := habove stop t (by omega) ht (hafter (by omega))
          simp [ha, hhi]
      -- one before the first is below it
      · have hb := hbelow t (first - 1) (by omega) (by omega) (hbefore (by omega))
        simp [hb, hlo]
  -- no value is in an empty interval, so the comparison refuses every one
  · rename_i hempty
    have hnone : ∀ t, ¬ (first ≤ t ∧ t < stop) := fun t => by omega
    constructor
    · intro h t ht
      have hout := h t ht
      rw [decide_eq_false (hnone t), Bool.and_eq_false_iff] at hout
      simpa using hout
    · intro h t ht
      rw [decide_eq_false (hnone t), Bool.and_eq_false_iff]
      simpa using h t ht

/-! ## Agreement of the windows -/

/-- What comes before a time below the window is below it. -/
theorem sortsBelow_of_le {lo : Option String} {t t' : Time} (hle : t ≤ t') (h' : t' < year10000)
    (h : sortsBelow lo t' = true) : sortsBelow lo t = true := by
  rcases Nat.lt_or_eq_of_le hle with hlt | rfl
  · obtain ⟨l, hl, hbelow⟩ := Option.any_eq_true _ _ |>.mp h
    rw [textLt_iff] at hbelow
    have htext := List.lt_trans (units_isoString_lt h' hlt) hbelow
    exact Option.any_eq_true _ _ |>.mpr ⟨l, hl, (textLt_iff _ _).mpr htext⟩
  · exact h

/-- What comes after a time above the window is above it. -/
theorem sortsAbove_of_le {hi : Option String} {t t' : Time} (hle : t ≤ t') (h' : t' < year10000)
    (h : sortsAbove hi t = true) : sortsAbove hi t' = true := by
  rcases Nat.lt_or_eq_of_le hle with hlt | rfl
  · obtain ⟨l, hl, habove⟩ := Option.any_eq_true _ _ |>.mp h
    rw [textLt_iff] at habove
    have htext := List.lt_trans habove (units_isoString_lt h' hlt)
    exact Option.any_eq_true _ _ |>.mpr ⟨l, hl, (textLt_iff _ _).mpr htext⟩
  · exact h

/-- No bound lies beyond the year 10000. -/
theorem stopInstant_le (instant : String → Option Int) (hi : Option String) :
    stopInstant instant hi ≤ year10000 := by
  unfold stopInstant
  cases (truthy hi).bind instant with
  | none => exact Nat.le_refl _
  | some h => exact Nat.min_le_right _ _

/-- The two windows agree exactly when the texts of the bounds stand where their instants
    do. -/
theorem inWindow_eq_iff (instant : String → Option Int) (lo hi : Option String) :
    (∀ t < year10000, inWindow lo hi t = betweenInstants instant lo hi t) ↔
      WindowExact instant lo hi := by
  have hinterval := interval_iff (sortsBelow lo) (sortsAbove hi) (firstInstant instant lo)
    (stopInstant_le instant hi)
    (fun t t' hle h' => sortsBelow_of_le hle h') (fun t t' hle h' => sortsAbove_of_le hle h')
  unfold WindowExact
  rw [← hinterval]
  apply forall₂_congr
  intro t ht
  rw [inWindow_eq, betweenInstants_eq instant lo hi ht]

/-- Both bounds are compared as texts. -/
theorem inWindow_some {u v : String} (hu : u ≠ "") (hv : v ≠ "") (t : Time) :
    inWindow (some u) (some v) t = (!textLt (isoString t) u && !textLt v (isoString t)) := by
  have hlower : truthy (some u) = some u := Ops.truthy_eq_some.mpr ⟨rfl, hu⟩
  have hupper : truthy (some v) = some v := Ops.truthy_eq_some.mpr ⟨rfl, hv⟩
  unfold inWindow
  rw [hlower, hupper, Option.all_some, Option.all_some]

/-- And as instants. -/
theorem betweenInstants_some {instant : String → Option Int} {u v : String} {a b : Int}
    (hu : u ≠ "") (hv : v ≠ "") (ha : instant u = some a) (hb : instant v = some b) (t : Time) :
    betweenInstants instant (some u) (some v) t = (decide (a ≤ (t : Int)) && decide ((t : Int) ≤ b)) := by
  simp [betweenInstants, truthy, hu, hv, ha, hb]

/-- Bounds as `toISOString` writes them. -/
theorem WindowExact.canonical {instant : String → Option Int} {a b : Time}
    (ha : instant (isoString a) = some (a : Int)) (hb : instant (isoString b) = some (b : Int))
    (ha' : a < year10000) (hb' : b < year10000) :
    WindowExact instant (some (isoString a)) (some (isoString b)) := by
  apply (inWindow_eq_iff instant _ _).mp
  intro t ht
  rw [inWindow_some (isoString_ne a) (isoString_ne b),
    betweenInstants_some (isoString_ne a) (isoString_ne b) ha hb]
  have hlower := textLt_isoString ht ha'
  have hupper := textLt_isoString hb' ht
  congr 1
  · rw [Bool.eq_iff_iff, Bool.not_eq_true', ← Bool.not_eq_true, hlower, decide_eq_true_eq, Nat.not_lt,
      Int.ofNat_le]
  · rw [Bool.eq_iff_iff, Bool.not_eq_true', ← Bool.not_eq_true, hupper, decide_eq_true_eq, Nat.not_lt,
      Int.ofNat_le]

/-! ## The list calls -/

/-- A list is exact when its window is. -/
theorem listsExact_of_window {rt : Runtime} {instant : String → Option Int} {lo hi : Option String}
    (h : ∀ t < year10000, inWindow lo hi t = betweenInstants instant lo hi t) {s : Store}
    (hs : Stamped s) : ListsExact rt instant lo hi s := by
  -- the three lists of audits filter the same rows
  have haudits : ∀ entityType entityId, s.listAudits rt ⟨entityType, entityId, lo, hi⟩ =
      s.auditsIn rt entityType entityId (betweenInstants instant lo hi) := by
    intro entityType entityId
    unfold Store.listAudits Store.auditsIn
    congr 1
    apply List.filter_congr
    intro log hlog
    rw [AuditFilter.admits, h log.createdAt (hs.audits log (List.mem_reverse.mp hlog))]
  constructor
  case listAudits =>
    intro entityType entityId c
    exact haudits entityType entityId
  case listAuditsPage =>
    intro entityType entityId p c
    exact congrArg (Page.of · p) (haudits entityType entityId)
  case listAuditsAfterCursor =>
    intro entityType entityId limit cursor c
    exact congrArg (pageAfterCursor rt limit cursor) (haudits entityType entityId)
  case listContractsPage =>
    intro status tenantId landlordId p c
    apply congrArg (Page.of · p)
    unfold Store.contractsIn
    congr 1
    apply List.filter_congr
    intro row hrow
    rw [ContractListFilter.admits, h row.updatedAt (hs.contracts row hrow)]
  case listDisputesPage =>
    intro contractId status p c
    apply congrArg (Page.of · p)
    unfold Store.disputesIn
    congr 1
    apply List.filter_congr
    intro row hrow
    rw [DisputeListFilter.admits, h row.updatedAt (hs.disputes row hrow)]

/-- A store with one audit entry. -/
def storeAt (t : Time) : Store :=
  { Store.empty with ops := { Ops.Store.empty with audits :=
      [⟨"aud_00000000000000a1", "contract", "ctr_1", "contract.activated", "operator", none, none,
        none, t⟩] } }

/-- The sample store has one time throughout. -/
theorem stamped_storeAt {t : Time} (h : t < year10000) : Stamped (storeAt t) where
  audits := by
    intro log hlog
    rw [List.mem_singleton.mp hlog]
    exact h
  contracts := by
    intro c hc
    cases hc
  disputes := by
    intro d hd
    cases hd

/-- One entry shows on which side of a window its timestamp lies. -/
theorem inWindow_eq_of_listsExact {rt : Runtime} {instant : String → Option Int}
    {lo hi : Option String} {t : Time} (h : ListsExact rt instant lo hi (storeAt t)) :
    inWindow lo hi t = betweenInstants instant lo hi t := by
  have hlists := h.listAudits none none {}
  have hlength : ∀ window : Time → Bool,
      ((storeAt t).auditsIn rt none none window).length = if window t then 1 else 0 := by
    intro window
    rw [Store.auditsIn, List.length_insertionSort]
    cases hw : window t <;> simp [storeAt, matchesText, truthy, hw]
  -- The list by texts is the list of the window by texts.
  have htexts : (storeAt t).auditsIn rt none none (inWindow lo hi) =
      (storeAt t).auditsIn rt none none (betweenInstants instant lo hi) := hlists
  have hlen := congrArg List.length htexts
  rw [hlength, hlength] at hlen
  cases hw : inWindow lo hi t <;> cases hb : betweenInstants instant lo hi t <;> simp_all

/-- The list calls return the rows between the instants of their bounds on all stores exactly
    when the texts of the bounds stand where their instants do. -/
theorem time_windows_exact (rt : Runtime) (instant : String → Option Int) (lo hi : Option String) :
    (∀ s, Stamped s → ListsExact rt instant lo hi s) ↔ WindowExact instant lo hi := by
  rw [← inWindow_eq_iff]
  constructor
  · intro h t ht
    exact inWindow_eq_of_listsExact (h (storeAt t) (stamped_storeAt ht))
  · intro h s hs
    exact listsExact_of_window h hs

/-- `Date.parse` on the first instant of the year 2026, written without milliseconds. -/
def parseNewYear (s : String) : Option Int :=
  if s = "2026-01-01T00:00:00Z" then some 1767225600000 else none

/-- A lower bound without milliseconds drops the entries of its own second. -/
theorem bound_without_milliseconds :
    ¬ ∀ (rt : Runtime) (instant : String → Option Int),
      (∀ s, rt.dateParses s = (instant s).isSome) →
      ∀ (name name' : String) (raw raw' lo hi : Option String),
        parseOptionalIso rt name raw = .ok lo → parseOptionalIso rt name' raw' = .ok hi →
        ∀ s, Stamped s → ListsExact rt instant lo hi s := by
  intro h
  let rt : Runtime := { sampleRuntime with dateParses := fun s => (parseNewYear s).isSome }
  have hexact := h rt parseNewYear (fun _ => rfl) "from" "to" (some "2026-01-01T00:00:00Z") none _ _
    rfl rfl (storeAt 1767225600000) (stamped_storeAt (by unfold year10000; decide))
  have hwindow := inWindow_eq_of_listsExact hexact
  have htext : inWindow (some "2026-01-01T00:00:00Z") none 1767225600000 = false := by
    decide +kernel
  have hinstant : betweenInstants parseNewYear (some "2026-01-01T00:00:00Z") none 1767225600000 =
      true := by
    decide +kernel
  rw [htext, hinstant] at hwindow
  cases hwindow

end Bluesafe.Api
