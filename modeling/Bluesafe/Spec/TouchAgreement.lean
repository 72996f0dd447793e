import Bluesafe.Api.SettlementUpsert

/-!
# The two touches of the settlements

The touch in memory finds a row by the id computed from the contract and the period, the one
of the database by the contract and the period themselves. Over rows whose ids are computed
they do the same exactly under `TouchAgrees`: every eligible contract finds its own row, not
archived, under its id, or no row at all and an id the database spells the same way, and no
two of them share an id.

Where the touches agree they do so contract by contract (`lockstep`). For the converse it is
enough to look at the ids and the contracts of the rows both of them leave.

## Key results

- `lockstep`: both touches take the same steps
- `touch_agrees_iff`: when the two touches agree
-/

namespace Bluesafe.Api

open Bluesafe.Ops (Contract)

/-- The contracts whose settlements are touched. -/
def Store.eligible (s : Store) : List Contract := s.ops.contracts.rows.filter isEligible

/-- The id of the row of a contract for the period of a touch. -/
def TouchParams.idOf (p : TouchParams) (contractId : String) : String :=
  settlementDeterministicId contractId p.periodYear p.periodMonth

/-- The ids of the rows are computed from their contracts and periods. -/
def IdsDeterministic (t : Table SettlementRecord.id) : Prop :=
  ∀ r ∈ t.rows, r.id = settlementDeterministicId r.contractId r.periodYear r.periodMonth

/-- When the two touches agree. -/
structure TouchAgrees (s : Store) (p : TouchParams) : Prop where
  fits : ∀ c ∈ s.eligible, p.fits = true
  stored : ∀ c ∈ s.eligible, ∀ r, s.settlements.get? (p.idOf c.id) = some r →
    r.isOf c.id p = true ∧ r.status ≠ .archived ∧ r.ledgerCloseCount + 1 < 2147483648
  distinct : ∀ c ∈ s.eligible, ∀ c' ∈ s.eligible, p.idOf c.id = p.idOf c'.id → c.id = c'.id
  spelled : ∀ c ∈ s.eligible, s.settlements.get? (p.idOf c.id) = none →
    pgSettlementId c.id p.periodYear p.periodMonth = p.idOf c.id

/-! ## Rows of a contract -/

section Rows

variable {p : TouchParams} {t : Table SettlementRecord.id} {r : SettlementRecord}
  {contractId : String}

/-- The row of a contract and a period. -/
theorem isOf_iff : r.isOf contractId p = true ↔
    r.contractId = contractId ∧ r.periodYear = p.periodYear ∧ r.periodMonth = p.periodMonth := by
  simp [SettlementRecord.isOf, and_assoc]

/-- The row of a contract has the id of the contract. -/
theorem IdsDeterministic.id_of_isOf (h : IdsDeterministic t) (hr : r ∈ t.rows)
    (hof : r.isOf contractId p = true) : r.id = p.idOf contractId := by
  obtain ⟨hcontract, hyear, hmonth⟩ := isOf_iff.mp hof
  rw [h r hr, hcontract, hyear, hmonth, TouchParams.idOf]

/-- Under deterministic identifiers the row of a key is the row of its period. -/
theorem IdsDeterministic.find?_of_get? (h : IdsDeterministic t)
    (hget : t.get? (p.idOf contractId) = some r) (hof : r.isOf contractId p = true) :
    (t.rows.find? fun r => r.isOf contractId p) = some r := by
  cases hfind : t.rows.find? fun r => r.isOf contractId p with
  | none =>
    have hnot := List.find?_eq_none.mp hfind r (Table.mem_of_get? hget)
    exact absurd hof hnot
  | some r' =>
    have hmem := List.mem_of_find?_eq_some hfind
    have hof' := List.find?_some hfind
    have hid := h.id_of_isOf hmem hof'
    have hget' := Table.get?_of_mem hmem
    rw [hid, hget] at hget'
    exact hget'.symm

/-- And a key without a row is a period without one. -/
theorem IdsDeterministic.find?_of_none (h : IdsDeterministic t)
    (hget : t.get? (p.idOf contractId) = none) :
    (t.rows.find? fun r => r.isOf contractId p) = none := by
  apply List.find?_eq_none.mpr
  intro r hr hof
  have hget' := Table.get?_of_mem hr
  rw [h.id_of_isOf hr hof, hget] at hget'
  cases hget'

/-- A row under its own key keeps the identifiers deterministic. -/
theorem IdsDeterministic.set (h : IdsDeterministic t)
    (hr : r.id = settlementDeterministicId r.contractId r.periodYear r.periodMonth) :
    IdsDeterministic (t.set r) := by
  intro r' hr'
  rcases Table.mem_rows_set.mp hr' with rfl | ⟨hr', -⟩
  · exact hr
  · exact h r' hr'

end Rows

/-! ## What one contract does -/

/-- The three cases of the touch in memory. -/
theorem touchOne_cases (p : TouchParams) (t : Table SettlementRecord.id) (n : Nat) (c : Contract) :
    (t.get? (p.idOf c.id) = none ∧
      touchOne p (t, n) c = (t.set (freshSettlement (p.idOf c.id) c.id p), n + 1)) ∨
    (∃ r, t.get? (p.idOf c.id) = some r ∧ r.status = .archived ∧ touchOne p (t, n) c = (t, n)) ∨
    ∃ r, t.get? (p.idOf c.id) = some r ∧ r.status ≠ .archived ∧
      touchOne p (t, n) c = (t.set (r.touched p), n + 1) := by
  unfold touchOne TouchParams.idOf
  dsimp only
  cases hget : t.get? (settlementDeterministicId c.id p.periodYear p.periodMonth) with
  | none => exact .inl ⟨rfl, rfl⟩
  | some r =>
    by_cases harch : r.status = .archived
    · exact .inr (.inl ⟨r, rfl, harch, by simp [harch]⟩)
    · exact .inr (.inr ⟨r, rfl, harch, by simp [harch]⟩)

/-- The three ways a contract passes in the database. -/
theorem pgTouchOne_cases {p : TouchParams} {t t' : Table SettlementRecord.id} {n n' : Nat} {c : Contract}
    (h : pgTouchOne p (t, n) c = some (t', n')) :
    p.fits = true ∧ n' = n + 1 ∧
      ((∃ r ∈ t.rows, r.isOf c.id p = true ∧ r.status = .archived ∧ t' = t) ∨
      (∃ r ∈ t.rows, r.isOf c.id p = true ∧ r.status ≠ .archived ∧
        r.ledgerCloseCount + 1 < 2147483648 ∧ t' = t.set (r.touched p)) ∨
      ((∀ r ∈ t.rows, r.isOf c.id p ≠ true) ∧
        t.get? (pgSettlementId c.id p.periodYear p.periodMonth) = none ∧
        t' = t.set (freshSettlement (pgSettlementId c.id p.periodYear p.periodMonth) c.id p))) := by
  unfold pgTouchOne at h
  dsimp only at h
  -- the numbers have to fit their columns
  split at h
  · rename_i hfits
    refine ⟨hfits, ?_⟩
    -- a row of the period is archived, or counted once more
    split at h
    · rename_i r hfind
      have hmem := List.mem_of_find?_eq_some hfind
      have hof := List.find?_some hfind
      split at h
      · rename_i harch
        cases h
        exact ⟨rfl, .inl ⟨r, hmem, hof, harch, rfl⟩⟩
      · rename_i harch
        split at h
        · rename_i hcount
          cases h
          exact ⟨rfl, .inr (.inl ⟨r, hmem, hof, harch, hcount, rfl⟩)⟩
        · cases h
    -- without one a row is inserted, under a key that is free
    · rename_i hfind
      split at h
      · cases h
      · rename_i hget
        cases h
        exact ⟨rfl, .inr (.inr ⟨List.find?_eq_none.mp hfind, hget, rfl⟩)⟩
  · cases h

/-! ## Agreement, contract by contract -/

section Lockstep

variable {s : Store} {p : TouchParams} {t : Table SettlementRecord.id} {c : Contract}

/-- A touched row keeps its computed id. -/
theorem idsDeterministic_touchOne (h : IdsDeterministic t) (n : Nat) :
    IdsDeterministic (touchOne p (t, n) c).1 := by
  rcases touchOne_cases p t n c with ⟨-, heq⟩ | ⟨r, -, -, heq⟩ | ⟨r, hget, -, heq⟩
  · rw [heq]
    exact h.set rfl
  · rw [heq]
    exact h
  · rw [heq]
    exact h.set (h r (Table.mem_of_get? hget))

/-- Only the row of the contract changes. -/
theorem get?_touchOne_of_ne {id : String} (hne : id ≠ p.idOf c.id) (n : Nat) :
    (touchOne p (t, n) c).1.get? id = t.get? id := by
  rcases touchOne_cases p t n c with ⟨-, heq⟩ | ⟨r, -, -, heq⟩ | ⟨r, hget, -, heq⟩
  · rw [heq]
    exact (Table.get?_set _ _ _).trans (if_neg hne)
  · rw [heq]
  · have hkey : r.id = p.idOf c.id := Table.key_of_get? hget
    have hne' : id ≠ (r.touched p).id := fun h => hne (h.trans hkey)
    rw [heq, Table.get?_set, if_neg hne']

/-- A contract that meets the conditions does the same in both. -/
theorem pgTouchOne_eq (h : TouchAgrees s p) (hc : c ∈ s.eligible) (ht : IdsDeterministic t)
    (hsame : t.get? (p.idOf c.id) = s.settlements.get? (p.idOf c.id)) (n : Nat) :
    pgTouchOne p (t, n) c = some (touchOne p (t, n) c) := by
  have hfits := h.fits c hc
  rcases touchOne_cases p t n c with ⟨hget, heq⟩ | ⟨r, hget, harch, -⟩ | ⟨r, hget, harch, heq⟩
  · have hspelled := h.spelled c hc (hsame.symm.trans hget)
    have hnew : t.get? (pgSettlementId c.id p.periodYear p.periodMonth) = none := by
      rw [hspelled, hget]
    rw [heq, ← hspelled]
    simp only [pgTouchOne, hfits, if_true, ht.find?_of_none hget, hnew]
  · exact absurd harch (h.stored c hc r (hsame.symm.trans hget)).2.1
  · obtain ⟨hof, -, hcount⟩ := h.stored c hc r (hsame.symm.trans hget)
    rw [heq]
    simp only [pgTouchOne, hfits, if_true, ht.find?_of_get? hget hof, if_neg harch, hcount]

/-- Both touches take the same steps. -/
theorem lockstep (h : TouchAgrees s p) {cs : List Contract} (hcs : ∀ c ∈ cs, c ∈ s.eligible)
    (hnodup : (cs.map Contract.id).Nodup) {n : Nat} (ht : IdsDeterministic t)
    (hsame : ∀ c ∈ cs, t.get? (p.idOf c.id) = s.settlements.get? (p.idOf c.id)) :
    cs.foldlM (pgTouchOne p) (t, n) = some (cs.foldl (touchOne p) (t, n)) := by
  induction cs generalizing t n with
  | nil => rfl
  | cons c cs ih =>
    have hc := hcs c List.mem_cons_self
    have hrest : ∀ c' ∈ cs, c' ∈ s.eligible := fun c' hc' => hcs c' (List.mem_cons_of_mem _ hc')
    rw [List.map_cons, List.nodup_cons] at hnodup
    rw [List.foldlM_cons, List.foldl_cons,
      pgTouchOne_eq h hc ht (hsame c List.mem_cons_self), Option.bind_eq_bind, Option.bind_some]
    have hids : IdsDeterministic (touchOne p (t, n) c).1 := idsDeterministic_touchOne ht n
    have hothers : ∀ id, id ≠ p.idOf c.id → (touchOne p (t, n) c).1.get? id = t.get? id :=
      fun id hne => get?_touchOne_of_ne hne n
    generalize touchOne p (t, n) c = acc at hids hothers
    refine ih hrest hnodup.2 hids fun c' hc' => ?_
    -- another contract has another id, so its row is still the one of the start
    have hne : p.idOf c'.id ≠ p.idOf c.id := by
      intro heq
      have hid := h.distinct c' (hrest c' hc') c hc heq
      exact hnodup.1 (hid ▸ List.mem_map_of_mem hc')
    rw [hothers _ hne]
    exact hsame c' (List.mem_cons_of_mem _ hc')

end Lockstep

/-- No contract is eligible twice. -/
theorem eligible_nodup (s : Store) : (s.eligible.map Contract.id).Nodup :=
  s.ops.contracts.nodup.sublist (List.filter_sublist.map _)

/-! ## What both touches leave -/

/-- The second row is the first one after touches. -/
structure SameRow (r r' : SettlementRecord) : Prop where
  contractId : r'.contractId = r.contractId
  periodYear : r'.periodYear = r.periodYear
  periodMonth : r'.periodMonth = r.periodMonth
  status : r'.status = r.status
  count : r.ledgerCloseCount ≤ r'.ledgerCloseCount

theorem SameRow.refl (r : SettlementRecord) : SameRow r r := ⟨rfl, rfl, rfl, rfl, Nat.le_refl _⟩

/-- A touch keeps the identity of a row. -/
theorem SameRow.touched (r : SettlementRecord) (p : TouchParams) : SameRow r (r.touched p) :=
  ⟨rfl, rfl, rfl, rfl, Nat.le_succ _⟩

/-- The same row belongs to the same contract and period. -/
theorem SameRow.isOf {r r' : SettlementRecord} (h : SameRow r r') (contractId : String) (p : TouchParams) :
    r'.isOf contractId p = r.isOf contractId p := by
  simp only [SettlementRecord.isOf, h.contractId, h.periodYear, h.periodMonth]

/-- Every row is still there, after touches. -/
def RowsKept (t t' : Table SettlementRecord.id) : Prop :=
  ∀ id r, t.get? id = some r → ∃ r', t'.get? id = some r' ∧ SameRow r r'

section Kept

variable {p : TouchParams} {t t' t'' : Table SettlementRecord.id} {c : Contract}

theorem RowsKept.refl (t : Table SettlementRecord.id) : RowsKept t t :=
  fun _ r h => ⟨r, h, .refl r⟩

theorem RowsKept.trans (h : RowsKept t t') (h' : RowsKept t' t'') : RowsKept t t'' := by
  intro id r hget
  obtain ⟨r', hget', hsame⟩ := h id r hget
  obtain ⟨r'', hget'', hsame'⟩ := h' id r' hget'
  exact ⟨r'', hget'', hsame'.contractId.trans hsame.contractId,
    hsame'.periodYear.trans hsame.periodYear, hsame'.periodMonth.trans hsame.periodMonth,
    hsame'.status.trans hsame.status, Nat.le_trans hsame.count hsame'.count⟩

/-- A row is set: a new one, or one after touches. -/
theorem RowsKept.set {r' : SettlementRecord} (h : ∀ r, t.get? r'.id = some r → SameRow r r') :
    RowsKept t (t.set r') := by
  intro id r hget
  rw [Table.get?_set]
  split
  · rename_i hid
    subst hid
    exact ⟨r', rfl, h r hget⟩
  · exact ⟨r, hget, .refl r⟩

/-- The touch of one contract keeps the other rows. -/
theorem rowsKept_touchOne (n : Nat) : RowsKept t (touchOne p (t, n) c).1 := by
  -- a new row, an archived one, or one that is touched
  rcases touchOne_cases p t n c with ⟨hget, heq⟩ | ⟨r, -, -, heq⟩ | ⟨r, hget, -, heq⟩
  · rw [heq]
    refine .set fun r hr => ?_
    have hid : (freshSettlement (p.idOf c.id) c.id p).id = p.idOf c.id := rfl
    rw [hid, hget] at hr
    cases hr
  · rw [heq]
    exact .refl t
  · rw [heq]
    refine .set fun r' hr' => ?_
    have hid : (r.touched p).id = p.idOf c.id := (Table.key_of_get? hget : r.id = p.idOf c.id)
    rw [hid, hget] at hr'
    cases hr'
    exact .touched r p

/-- The rows that the touch in memory leaves. -/
theorem foldl_touchOne (p : TouchParams) (cs : List Contract) (acc : Table SettlementRecord.id × Nat)
    (h : IdsDeterministic acc.1) :
    IdsDeterministic (cs.foldl (touchOne p) acc).1 ∧ RowsKept acc.1 (cs.foldl (touchOne p) acc).1 := by
  induction cs generalizing acc with
  | nil => exact ⟨h, .refl _⟩
  | cons c cs ih =>
    obtain ⟨hids, hkept⟩ := ih (touchOne p acc c) (idsDeterministic_touchOne h acc.2)
    exact ⟨hids, (rowsKept_touchOne acc.2).trans hkept⟩

/-- The row under the id is archived. -/
def archivedAt (t : Table SettlementRecord.id) (id : String) : Bool :=
  (t.get? id).any fun r => decide (r.status = .archived)

/-- It archives nothing, and brings nothing back. -/
theorem archivedAt_touchOne (n : Nat) (id : String) :
    archivedAt (touchOne p (t, n) c).1 id = archivedAt t id := by
  -- only the row of the contract is looked at
  by_cases hid : id = p.idOf c.id
  · subst hid
    unfold archivedAt
    rcases touchOne_cases p t n c with ⟨hget, heq⟩ | ⟨r, -, -, heq⟩ | ⟨r, hget, harch, heq⟩
    · have hnew := Table.get?_set_self t (freshSettlement (p.idOf c.id) c.id p)
      have hkey : (freshSettlement (p.idOf c.id) c.id p).id = p.idOf c.id := rfl
      rw [hkey] at hnew
      rw [heq, hnew, hget]
      rfl
    · rw [heq]
    · have hnew := Table.get?_set_self t (r.touched p)
      have hkey : (r.touched p).id = p.idOf c.id := (Table.key_of_get? hget : r.id = p.idOf c.id)
      rw [hkey] at hnew
      rw [heq, hnew, hget]
      rfl
  · unfold archivedAt
    rw [get?_touchOne_of_ne hid]

/-- What the touch in memory returns: it does not count the archived rows. -/
theorem foldl_touchOne_count (p : TouchParams) (cs : List Contract)
    (acc : Table SettlementRecord.id × Nat) :
    (cs.foldl (touchOne p) acc).2 + (cs.countP fun c => archivedAt acc.1 (p.idOf c.id)) =
      acc.2 + cs.length := by
  -- induction on the contracts: each is counted, or archived
  induction cs generalizing acc with
  | nil => rfl
  | cons c cs ih =>
    obtain ⟨t, n⟩ := acc
    have hrest := ih (touchOne p (t, n) c)
    simp only [archivedAt_touchOne] at hrest
    rw [List.foldl_cons, List.countP_cons, List.length_cons]
    -- a new row counts, and is not archived
    rcases touchOne_cases p t n c with ⟨hget, heq⟩ | ⟨r, hget, harch, heq⟩ | ⟨r, hget, harch, heq⟩
    · have hnot : archivedAt t (p.idOf c.id) = false := by simp [archivedAt, hget]
      rw [heq] at hrest ⊢
      simp only [hnot, Bool.false_eq_true, if_false]
      omega
    · -- an archived row is on the left instead of the count
      have harchived : archivedAt t (p.idOf c.id) = true := by simp [archivedAt, hget, harch]
      rw [heq] at hrest ⊢
      simp only [harchived, if_true]
      omega
    -- a row that is touched counts, and was not archived
    · have hnot : archivedAt t (p.idOf c.id) = false := by simp [archivedAt, hget, harch]
      rw [heq] at hrest ⊢
      simp only [hnot, Bool.false_eq_true, if_false]
      omega

end Kept

/-! ## What the statement of the database leaves -/

/-- The contract has at most one row for the period, by the constraint of the table. -/
def UniqueOf (p : TouchParams) (t : Table SettlementRecord.id) : Prop :=
  ∀ contractId, ∀ r ∈ t.rows, ∀ r' ∈ t.rows, r.isOf contractId p = true →
    r'.isOf contractId p = true → r = r'

/-- Under deterministic identifiers each period has one row. -/
theorem IdsDeterministic.uniqueOf {t : Table SettlementRecord.id} (h : IdsDeterministic t)
    (p : TouchParams) : UniqueOf p t := by
  intro contractId r hr r' hr' hof hof'
  have hget := Table.get?_of_mem hr
  have hget' := Table.get?_of_mem hr'
  rw [h.id_of_isOf hr hof] at hget
  rw [h.id_of_isOf hr' hof', hget] at hget'
  exact Option.some.inj hget'

/-- One contract: the row it leaves, and the rows it keeps. -/
structure PgStep (p : TouchParams) (c : Contract) (t t' : Table SettlementRecord.id) : Prop where
  fits : p.fits = true
  kept : RowsKept t t'
  unique : UniqueOf p t'
  own : ∃ r ∈ t'.rows, r.isOf c.id p = true
  new : ∀ id r, t'.get? id = some r → (∃ r₀, t.get? id = some r₀) ∨
    id = pgSettlementId c.id p.periodYear p.periodMonth ∧ r.contractId = c.id
  count : ∀ r ∈ t.rows, r.isOf c.id p = true → r.status ≠ .archived →
    r.ledgerCloseCount + 1 < 2147483648

/-- The upsert of a period that has a row. -/
theorem pgStep_touched {p : TouchParams} {c : Contract} {t : Table SettlementRecord.id}
    (hu : UniqueOf p t) (hfits : p.fits = true) {r : SettlementRecord} (hr : r ∈ t.rows)
    (hof : r.isOf c.id p = true) (hcount : r.ledgerCloseCount + 1 < 2147483648) :
    PgStep p c t (t.set (r.touched p)) := by
  have hget : t.get? (r.touched p).id = some r := Table.get?_of_mem hr
  have hsame := SameRow.touched r p
  refine ⟨hfits, .set fun r' hr' => ?_, ?_, ⟨r.touched p, Table.mem_rows_set.mpr (.inl rfl), ?_⟩,
    fun id r' hr' => .inl ?_, fun r' hr' hof' _ => ?_⟩
  -- the same row, with another time and count
  · rw [hget] at hr'
    cases hr'
    exact hsame
  · -- another row with the contract of the touched one would be that row before the touch
    have hother : ∀ contractId x, x ∈ t.rows → x.id ≠ (r.touched p).id →
        x.isOf contractId p = true → (r.touched p).isOf contractId p = true → False := by
      intro contractId x hx hne hxof htof
      rw [hsame.isOf] at htof
      rw [hu contractId x hx r hr hxof htof] at hne
      exact hne rfl
    intro contractId x hx y hy hxof hyof
    rcases Table.mem_rows_set.mp hx with rfl | ⟨hx, hxne⟩ <;>
      rcases Table.mem_rows_set.mp hy with rfl | ⟨hy, hyne⟩
    · rfl
    · exact (hother contractId y hy hyne hyof hxof).elim
    · exact (hother contractId x hx hxne hxof hyof).elim
    · exact hu contractId x hx y hy hxof hyof
  · rw [hsame.isOf]
    exact hof
  -- no identifier is new
  · rw [Table.get?_set] at hr'
    split at hr'
    · rename_i hid
      exact ⟨r, hid ▸ hget⟩
    · exact ⟨r', hr'⟩
  · rw [hu c.id r' hr' r hr hof' hof]
    exact hcount

/-- A new row belongs to the contract it was made for. -/
theorem isOf_freshSettlement (id contractId : String) (p : TouchParams) :
    (freshSettlement id contractId p).isOf contractId p = true := by
  simp [SettlementRecord.isOf, freshSettlement]

/-- The upsert of a period without a row. -/
theorem pgStep_inserted {p : TouchParams} {c : Contract} {t : Table SettlementRecord.id}
    (hu : UniqueOf p t) (hfits : p.fits = true) (hnone : ∀ r ∈ t.rows, r.isOf c.id p ≠ true)
    (hfree : t.get? (pgSettlementId c.id p.periodYear p.periodMonth) = none) :
    PgStep p c t
      (t.set (freshSettlement (pgSettlementId c.id p.periodYear p.periodMonth) c.id p)) := by
  have hof := isOf_freshSettlement (pgSettlementId c.id p.periodYear p.periodMonth) c.id p
  have hcontract : (freshSettlement (pgSettlementId c.id p.periodYear p.periodMonth) c.id p).contractId =
    c.id := rfl
  have hid : (freshSettlement (pgSettlementId c.id p.periodYear p.periodMonth) c.id p).id =
    pgSettlementId c.id p.periodYear p.periodMonth := rfl
  generalize freshSettlement (pgSettlementId c.id p.periodYear p.periodMonth) c.id p = f at *
  refine ⟨hfits, .set fun r' hr' => ?_, ?_, ⟨f, Table.mem_rows_set.mpr (.inl rfl), hof⟩,
    fun id r' hr' => ?_, fun r' hr' hof' => absurd hof' (hnone r' hr')⟩
  -- the key of the new row was free
  · rw [hid, hfree] at hr'
    cases hr'
  · -- the new row is the only one of its contract
    have hother : ∀ contractId x, x ∈ t.rows → x.isOf contractId p = true →
        f.isOf contractId p = true → False := by
      intro contractId x hx hxof hfof
      have hsame : contractId = c.id := (isOf_iff.mp hfof).1.symm.trans hcontract
      exact hnone x hx (hsame ▸ hxof)
    intro contractId x hx y hy hxof hyof
    rcases Table.mem_rows_set.mp hx with rfl | ⟨hx', -⟩ <;>
      rcases Table.mem_rows_set.mp hy with rfl | ⟨hy', -⟩
    · rfl
    · exact (hother contractId y hy' hyof hxof).elim
    · exact (hother contractId x hx' hxof hyof).elim
    · exact hu contractId x hx' y hy' hxof hyof
  -- the one identifier that is new is that of the contract
  · rw [Table.get?_set] at hr'
    split at hr'
    · rename_i heq
      cases hr'
      exact .inr ⟨heq.trans hid, hcontract⟩
    · exact .inl ⟨r', hr'⟩

/-- Every upsert is one of the two. -/
theorem pgStep_of_touchOne {p : TouchParams} {c : Contract} {t t' : Table SettlementRecord.id}
    {n n' : Nat} (hu : UniqueOf p t) (h : pgTouchOne p (t, n) c = some (t', n')) : PgStep p c t t' := by
  obtain ⟨hfits, -, hcases⟩ := pgTouchOne_cases h
  rcases hcases with ⟨r, hr, hof, harch, rfl⟩ | ⟨r, hr, hof, -, hcount, rfl⟩ | ⟨hnone, hfree, rfl⟩
  · refine ⟨hfits, .refl _, hu, ⟨r, hr, hof⟩, fun id r' hr' => .inl ⟨r', hr'⟩, fun r' hr' hof' hopen => ?_⟩
    rw [hu c.id r' hr' r hr hof' hof] at hopen
    exact absurd harch hopen
  · exact pgStep_touched hu hfits hr hof hcount
  · exact pgStep_inserted hu hfits hnone hfree

/-- What the statement leaves when it does not fail. -/
structure PgOutcome (p : TouchParams) (cs : List Contract) (t t' : Table SettlementRecord.id) : Prop where
  fits : ∀ c ∈ cs, p.fits = true
  kept : RowsKept t t'
  own : ∀ c ∈ cs, ∃ r ∈ t'.rows, r.isOf c.id p = true
  new : ∀ id r, t'.get? id = some r → (∃ r₀, t.get? id = some r₀) ∨
    id = pgSettlementId r.contractId p.periodYear p.periodMonth
  count : ∀ c ∈ cs, ∀ r ∈ t.rows, r.isOf c.id p = true → r.status ≠ .archived →
    r.ledgerCloseCount + 1 < 2147483648

/-- A row that is kept is found again. -/
theorem RowsKept.mem {t t' : Table SettlementRecord.id} (h : RowsKept t t') {r : SettlementRecord}
    (hr : r ∈ t.rows) : ∃ r' ∈ t'.rows, SameRow r r' := by
  obtain ⟨r', hget, hsame⟩ := h r.id r (Table.get?_of_mem hr)
  exact ⟨r', Table.mem_of_get? hget, hsame⟩

/-- The step of the first contract, and the outcome of the others. -/
theorem PgStep.andThen {p : TouchParams} {c : Contract} {cs : List Contract}
    {t t' t'' : Table SettlementRecord.id} (hstep : PgStep p c t t') (hrest : PgOutcome p cs t' t'') :
    PgOutcome p (c :: cs) t t'' := by
  refine ⟨fun _ _ => hstep.fits, hstep.kept.trans hrest.kept, fun c' hc' => ?_, fun id r hget => ?_,
    fun c' hc' r hr hof hopen => ?_⟩
  -- the rows of all contracts are there in the end
  · rcases List.mem_cons.mp hc' with rfl | hc'
    · obtain ⟨r, hr, hof⟩ := hstep.own
      obtain ⟨r', hr', hsame⟩ := hrest.kept.mem hr
      exact ⟨r', hr', (hsame.isOf _ p).trans hof⟩
    · exact hrest.own c' hc'
  -- a row is new by the first step, or by the rest
  · rcases hrest.new id r hget with ⟨r₁, hget₁⟩ | hnew
    · rcases hstep.new id r₁ hget₁ with hold | ⟨hid, hcontract⟩
      · exact .inl hold
      · -- the row was inserted for `c` and has kept its contract
        obtain ⟨r', hget', hsame⟩ := hrest.kept id r₁ hget₁
        rw [hget] at hget'
        rw [← Option.some.inj hget'] at hsame
        exact .inr (by rw [hsame.contractId, hcontract]; exact hid)
    · exact .inr hnew
  -- the count of the first contract is kept by the rest
  · rcases List.mem_cons.mp hc' with rfl | hc'
    · exact hstep.count r hr hof hopen
    · obtain ⟨r', hr', hsame⟩ := hstep.kept.mem hr
      have hcount := hrest.count c' hc' r' hr' ((hsame.isOf _ p).trans hof) (hsame.status ▸ hopen)
      have hle := hsame.count
      omega

/-- The upserts of all contracts, one after the other. -/
theorem pgOutcome_of_foldlM {p : TouchParams} {cs : List Contract} {t t' : Table SettlementRecord.id}
    {n n' : Nat} (hu : UniqueOf p t) (h : cs.foldlM (pgTouchOne p) (t, n) = some (t', n')) :
    n' = n + cs.length ∧ PgOutcome p cs t t' := by
  -- induction on the contracts, one upsert each
  induction cs generalizing t n with
  | nil =>
    rw [List.foldlM_nil] at h
    cases h
    exact ⟨rfl, fun c hc => absurd hc List.not_mem_nil, .refl _, fun c hc => absurd hc List.not_mem_nil,
      fun id r hget => .inl ⟨r, hget⟩, fun c hc => absurd hc List.not_mem_nil⟩
  | cons c cs ih =>
    rw [List.foldlM_cons, Option.bind_eq_bind, Option.bind_eq_some_iff] at h
    obtain ⟨⟨t₁, n₁⟩, hone, hrest⟩ := h
    have hstep := pgStep_of_touchOne hu hone
    obtain ⟨hcount, houtcome⟩ := ih hstep.unique hrest
    have hn₁ := (pgTouchOne_cases hone).2.1
    refine ⟨?_, hstep.andThen houtcome⟩
    rw [List.length_cons]
    omega

/-! ## The two touches -/

/-- The statement of the database does not fail, leaves the rows of the touch in memory and
    returns the same number. -/
def SameTouch (s : Store) (p : TouchParams) : Prop :=
  ∃ t n, s.pgTouchSettlements p = some (t, n) ∧ n = (s.touchSettlements p).2 ∧
    ∀ id, t.get? id = (s.touchSettlements p).1.get? id

/-- Where the touches agree, the conditions hold. -/
theorem touchAgrees_of_sameTouch {s : Store} (hids : IdsDeterministic s.settlements) {p : TouchParams}
    (h : SameTouch s p) : TouchAgrees s p := by
  obtain ⟨t, n, hpg, hn, hrows⟩ := h
  obtain ⟨hcount, houtcome⟩ := pgOutcome_of_foldlM (hids.uniqueOf p) hpg
  have hfold : s.touchSettlements p = s.eligible.foldl (touchOne p) (s.settlements, 0) := rfl
  obtain ⟨hids', hkept⟩ := foldl_touchOne p s.eligible (s.settlements, 0) hids
  have hmemory := foldl_touchOne_count p s.eligible (s.settlements, 0)
  rw [← hfold] at hids' hkept hmemory
  dsimp only at hkept hmemory
  -- the database counts every contract, the memory none whose row is archived
  have hopen : ∀ c ∈ s.eligible, archivedAt s.settlements (p.idOf c.id) = false := by
    have hlength : n = 0 + s.eligible.length := hcount
    have hzero : (s.eligible.countP fun c => archivedAt s.settlements (p.idOf c.id)) = 0 := by omega
    intro c hc
    have hnot := List.countP_eq_zero.mp hzero c hc
    simpa using hnot
  -- the row of a contract is stored under its id, in both
  have hown : ∀ c ∈ s.eligible, ∃ r, t.get? (p.idOf c.id) = some r ∧ r.isOf c.id p = true := by
    intro c hc
    obtain ⟨r, hr, hof⟩ := houtcome.own c hc
    have hget := Table.get?_of_mem hr
    have hid := hids'.id_of_isOf (Table.mem_of_get? ((hrows r.id).symm.trans hget)) hof
    exact ⟨r, hid ▸ hget, hof⟩
  -- a row that was there under the id of a contract is the one of the contract
  have hstored : ∀ c ∈ s.eligible, ∀ r, s.settlements.get? (p.idOf c.id) = some r →
      r.isOf c.id p = true := by
    intro c hc r hget
    obtain ⟨r', hget', hof'⟩ := hown c hc
    obtain ⟨r'', hget'', hsame⟩ := hkept _ r hget
    rw [← hrows, hget'] at hget''
    rw [← Option.some.inj hget''] at hsame
    exact (hsame.isOf c.id p).symm.trans hof'
  refine ⟨houtcome.fits, fun c hc r hget => ?_, fun c hc c' hc' hid => ?_, fun c hc hnone => ?_⟩
  · have hof := hstored c hc r hget
    have hstatus : r.status ≠ .archived := by
      have hfalse := hopen c hc
      rw [archivedAt, hget, Option.any_some, decide_eq_false_iff_not] at hfalse
      exact hfalse
    exact ⟨hof, hstatus, houtcome.count c hc r (Table.mem_of_get? hget) hof hstatus⟩
  · obtain ⟨r, hget, hof⟩ := hown c hc
    obtain ⟨r', hget', hof'⟩ := hown c' hc'
    rw [← hid, hget] at hget'
    rw [← Option.some.inj hget'] at hof'
    exact (isOf_iff.mp hof).1.symm.trans (isOf_iff.mp hof').1
  · obtain ⟨r, hget, hof⟩ := hown c hc
    rcases houtcome.new _ r hget with ⟨r₀, hget₀⟩ | hnew
    · rw [hnone] at hget₀
      cases hget₀
    · rw [hnew, (isOf_iff.mp hof).1]

/-- The two touches agree exactly under the conditions of `TouchAgrees`. -/
theorem touch_agrees_iff {s : Store} (hids : IdsDeterministic s.settlements) (p : TouchParams) :
    SameTouch s p ↔ TouchAgrees s p := by
  constructor
  · exact touchAgrees_of_sameTouch hids
  · intro h
    have hsame : s.pgTouchSettlements p = some (s.touchSettlements p) :=
      lockstep h (fun _ hc => hc) (eligible_nodup s) hids fun _ _ => rfl
    exact ⟨_, _, hsame, rfl, fun _ => rfl⟩

/-! ## Concrete touches -/

/-- One active contract, with or without a row for January 2026. -/
def settledStore (rows : List SettlementRecord) : Store :=
  { Store.empty with
    ops := { Ops.Store.empty with
      contracts := Table.empty.set
        ⟨"ctr_1", "tenant_1", "landlord_1", .active, none, none, none, none, none, 0, 0⟩ }
    settlements := rows.foldl Table.set Table.empty }

/-- The row of the contract `ctr_1` for January 2026. -/
def januaryRow (status : SettlementStatus) : SettlementRecord :=
  { freshSettlement "stl_ctr_1_2026_1" "ctr_1" ⟨2026, 1, 7, 0⟩ with status := status }

/-- The computed ids, as a check. -/
def idsCheck (t : Table SettlementRecord.id) : Bool :=
  t.rows.all fun r => decide (r.id = settlementDeterministicId r.contractId r.periodYear r.periodMonth)

/-- Whether the identifiers are deterministic can be computed. -/
theorem idsDeterministic_of_check {t : Table SettlementRecord.id} (h : idsCheck t = true) :
    IdsDeterministic t := by
  intro r hr
  exact of_decide_eq_true (List.all_eq_true.mp h r hr)

/-- The conditions, as a check. -/
def touchAgreesCheck (s : Store) (p : TouchParams) : Bool :=
  s.eligible.all fun c =>
    p.fits &&
    (match s.settlements.get? (p.idOf c.id) with
    | some r => r.isOf c.id p && decide (r.status ≠ .archived) &&
        decide (r.ledgerCloseCount + 1 < 2147483648)
    | none => decide (pgSettlementId c.id p.periodYear p.periodMonth = p.idOf c.id)) &&
    s.eligible.all fun c' => !decide (p.idOf c.id = p.idOf c'.id) || decide (c.id = c'.id)

/-- And whether the two stores agree. -/
theorem touchAgrees_of_check {s : Store} {p : TouchParams} (h : touchAgreesCheck s p = true) :
    TouchAgrees s p := by
  simp only [touchAgreesCheck, List.all_eq_true, Bool.and_eq_true] at h
  refine ⟨fun c hc => (h c hc).1.1, fun c hc r hget => ?_, fun c hc c' hc' hid => ?_,
    fun c hc hnone => ?_⟩
  · have hrow := (h c hc).1.2
    rw [hget] at hrow
    simpa [and_assoc] using hrow
  · have hpair := (h c hc).2 c' hc'
    simpa [hid] using hpair
  · have hspelled := (h c hc).1.2
    rw [hnone] at hspelled
    exact of_decide_eq_true hspelled

/-- The row is open: both touches do the same, and count it. -/
theorem touch_agrees_iff_open :
    SameTouch (settledStore [januaryRow .collecting]) ⟨2026, 1, 8, 1⟩ ∧
      ((settledStore [januaryRow .collecting]).touchSettlements ⟨2026, 1, 8, 1⟩).2 = 1 := by
  have hids : IdsDeterministic (settledStore [januaryRow .collecting]).settlements :=
    idsDeterministic_of_check (by decide +kernel)
  exact ⟨(touch_agrees_iff hids ⟨2026, 1, 8, 1⟩).mpr (touchAgrees_of_check (by decide +kernel)),
    by decide +kernel⟩

/-- The row is archived: the database counts it, the memory does not. -/
theorem archived_row_counted :
    ¬ ∀ (s : Store), IdsDeterministic s.settlements → ∀ p, SameTouch s p := by
  intro h
  obtain ⟨t, n, hpg, hn, -⟩ := h (settledStore [januaryRow .archived])
    (idsDeterministic_of_check (by decide +kernel)) ⟨2026, 1, 8, 1⟩
  have hone : (((settledStore [januaryRow .archived]).pgTouchSettlements ⟨2026, 1, 8, 1⟩).map
      Prod.snd) = some 1 := by decide +kernel
  have hzero : ((settledStore [januaryRow .archived]).touchSettlements ⟨2026, 1, 8, 1⟩).2 = 0 := by
    decide +kernel
  rw [hpg, Option.map_some, hn, hzero] at hone
  cases hone

end Bluesafe.Api
