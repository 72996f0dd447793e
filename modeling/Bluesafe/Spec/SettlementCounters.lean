import Mathlib.Data.List.Dedup
import Bluesafe.Spec.DisputeEvidence
import Bluesafe.Spec.Ingestion
import Bluesafe.Spec.SettlementLifecycle

/-!
# The counters of a settlement

A touch counts a closed ledger in the rows of all eligible contracts. The record of the ledger
lets one message of it through, so no ledger is counted twice. But a patch writes back the
counters that it has read, and a touch in between is lost (`counters_not_exact`); a touch also stores
whatever ledger index it comes with, and a row that two contracts share is counted twice.

Where the row of a patch is not touched between its read and its save, the ledgers of a row
arrive in order, and the eligible contracts have rows of their own, the counters are exact
(`counters_exact`).

## Key results

- `period_of_id`: the id of a row names its period
- `touchResult_foldl`: what a touch does to a row
- `handleSettlement_counters`: what the requests touch and save
- `countersInv_step`: one step of a run
- `counters_exact`: runs
-/

namespace Bluesafe.Api

open Bluesafe.Ops (Contract)
open Async Transition

/-! ## Periods -/

/-- What comes before the first separator of a list. -/
theorem append_cons_inj {α : Type} {x : α} {ds ds' xs ys : List α} (hds : x ∉ ds) (hds' : x ∉ ds')
    (h : ds ++ x :: xs = ds' ++ x :: ys) : ds = ds' ∧ xs = ys := by
  induction ds generalizing ds' with
  | nil =>
    cases ds' with
    | nil => simpa using h
    | cons d' ds' =>
      simp only [List.nil_append, List.cons_append, List.cons.injEq] at h
      simp [h.1] at hds'
  | cons d ds ih =>
    cases ds' with
    | nil =>
      simp only [List.nil_append, List.cons_append, List.cons.injEq] at h
      simp [h.1] at hds
    | cons d' ds' =>
      simp only [List.cons_append, List.cons.injEq] at h
      simp only [List.mem_cons, not_or] at hds hds'
      have htail := ih hds.2 hds'.2 h.2
      simp [h.1, htail]

/-- The digits of a number. -/
theorem toList_toString (n : Nat) : (toString n).toList = Nat.toDigits 10 n := by simp

/-- The number after the last underscore of a text, and what is before it. -/
theorem append_toString_inj {xs ys : List Char} {n n' : Nat}
    (h : xs ++ '_' :: (toString n).toList = ys ++ '_' :: (toString n').toList) : xs = ys ∧ n = n' := by
  rw [toList_toString, toList_toString] at h
  have hrev := congrArg List.reverse h
  simp only [List.reverse_append, List.reverse_cons, List.append_assoc, List.cons_append,
    List.nil_append] at hrev
  have hnot : ∀ k : Nat, '_' ∉ (Nat.toDigits 10 k).reverse := by
    intro k hmem
    have hdigit := Nat.isDigit_of_mem_toDigits (by decide) (by decide) (List.mem_reverse.mp hmem)
    exact absurd hdigit (by decide)
  obtain ⟨hdigits, hrest⟩ := append_cons_inj (hnot n) (hnot n') hrev
  have hnumber := congrArg (Nat.ofDigitChars 10 · 0) (List.reverse_injective hdigits)
  simp only [Nat.ofDigitChars_ten_toDigits] at hnumber
  exact ⟨List.reverse_injective hrest, hnumber⟩

/-- An id names the period of its row. -/
theorem period_of_id {contractId contractId' : String} {y m y' m' : Nat}
    (h : settlementDeterministicId contractId y m = settlementDeterministicId contractId' y' m') :
    y = y' ∧ m = m' := by
  have hchars := congrArg String.toList h
  have hsep : "_".toList = ['_'] := rfl
  simp only [settlementDeterministicId, String.toList_append, hsep, List.append_assoc,
    List.cons_append, List.nil_append] at hchars
  -- the month comes after the last underscore, the year after the one before
  simp only [← List.append_assoc, ← List.cons_append] at hchars
  obtain ⟨hfront, hmonth⟩ := append_toString_inj hchars
  exact ⟨(append_toString_inj hfront).2, hmonth⟩

/-! ## What a touch does to a row -/

/-- The row before and after a touch of its contract. -/
def TouchResult (p : TouchParams) (old new : Option SettlementRecord) : Prop :=
  (old = none ∧ ∃ id contractId, new = some (freshSettlement id contractId p)) ∨
  (∃ r, old = some r ∧ r.status = .archived ∧ new = some r) ∨
  ∃ r, old = some r ∧ r.status ≠ .archived ∧ new = some (r.touched p)

section Touch

variable {p : TouchParams} {cs : List Contract} {id : String}

/-- What the touch of one contract does to its row. -/
theorem touchResult_touchOne (p : TouchParams) (t : Table SettlementRecord.id) (n : Nat) (c : Contract) :
    TouchResult p (t.get? (p.idOf c.id)) ((touchOne p (t, n) c).1.get? (p.idOf c.id)) := by
  rcases touchOne_cases p t n c with ⟨hget, heq⟩ | ⟨r, hget, harch, heq⟩ | ⟨r, hget, harch, heq⟩
  · rw [heq]
    exact .inl ⟨hget, _, _, Table.get?_set_self t (freshSettlement (p.idOf c.id) c.id p)⟩
  · rw [heq]
    exact .inr (.inl ⟨r, hget, harch, hget⟩)
  · have hid : p.idOf c.id = (r.touched p).id := (Table.key_of_get? hget).symm
    rw [heq]
    refine .inr (.inr ⟨r, hget, harch, ?_⟩)
    rw [hid]
    exact Table.get?_set_self t (r.touched p)

/-- A touch leaves the rows of other contracts alone. -/
theorem get?_foldl_touchOne (hid : ∀ c ∈ cs, id ≠ p.idOf c.id) (acc : Table SettlementRecord.id × Nat) :
    (cs.foldl (touchOne p) acc).1.get? id = acc.1.get? id := by
  induction cs generalizing acc with
  | nil => rfl
  | cons c cs ih =>
    rw [List.foldl_cons, ih (fun c' hc' => hid c' (List.mem_cons_of_mem _ hc')) (touchOne p acc c)]
    exact get?_touchOne_of_ne (hid c List.mem_cons_self) acc.2

/-- The row of a contract is touched once, if the contracts have rows of their own. -/
theorem touchResult_foldl (hnodup : (cs.map fun c => p.idOf c.id).Nodup) {c : Contract} (hc : c ∈ cs)
    (acc : Table SettlementRecord.id × Nat) :
    TouchResult p (acc.1.get? (p.idOf c.id)) ((cs.foldl (touchOne p) acc).1.get? (p.idOf c.id)) := by
  -- induction on the contracts; the row of one is touched at its turn
  induction cs generalizing acc with
  | nil => cases hc
  | cons d cs ih =>
    rw [List.map_cons, List.nodup_cons] at hnodup
    rw [List.foldl_cons]
    rcases List.mem_cons.mp hc with rfl | hc
    · -- the touches that follow are of other rows
      rw [get?_foldl_touchOne fun c' hc' heq => hnodup.1 (List.mem_map.mpr ⟨c', hc', heq.symm⟩)]
      exact touchResult_touchOne p acc.1 acc.2 c
    -- the touches in front of it are of other rows
    · have hne : p.idOf c.id ≠ p.idOf d.id := fun heq =>
        hnodup.1 (List.mem_map.mpr ⟨c, hc, heq⟩)
      have hbefore : (touchOne p acc d).1.get? (p.idOf c.id) = acc.1.get? (p.idOf c.id) :=
        get?_touchOne_of_ne hne acc.2
      rw [← hbefore]
      exact ih hnodup.2 hc (touchOne p acc d)

end Touch

/-- The eligible contracts have rows of their own. -/
def OwnRows (s : Store) (p : TouchParams) : Prop :=
  ∀ c ∈ s.eligible, ∀ c' ∈ s.eligible, p.idOf c.id = p.idOf c'.id → c.id = c'.id

/-- Contracts with rows of their own have different rows. -/
theorem OwnRows.nodup {s : Store} {p : TouchParams} (h : OwnRows s p) :
    (s.eligible.map fun c => p.idOf c.id).Nodup := by
  have hids := eligible_nodup s
  rw [List.Nodup, List.pairwise_map] at hids ⊢
  refine hids.imp_of_mem fun {c c'} hc hc' hne heq => ?_
  exact hne (h c hc c' hc' heq)

/-! ## What the requests touch and save -/

/-- The touch that a call makes. -/
def touchCall : calls.Op → Option TouchParams
  | .inr (.touchSettlementsOnLedgerClose p) => some p
  | _ => none

/-- Nothing has been touched. -/
def NoTouch (l : ApiLog) : Prop := ∀ ev ∈ l, touchCall ev.op = none

/-- The row has been read. -/
def ReadRow (l : ApiLog) (id : String) (r : SettlementRecord) : Prop :=
  (⟨.inr (.getSettlement id), .ok (some r)⟩ : Event calls String) ∈ l

/-- The monitor: a request touches the settlements once, for a ledger whose record it has
    inserted, and saves a row that it has read and patched. -/
def counterOk (l : ApiLog) : calls.Op → Prop
  | .inr (.touchSettlementsOnLedgerClose p) => Inserted l (ledgerKey p.ledgerIndex) ∧ NoTouch l
  | .inr (.saveSettlement row) => ∃ id r body t, ReadRow l id r ∧ row = r.patched body t
  | _ => True

section Requests

variable {l : ApiLog} {α : Type}

/-- A call that writes no settlement leaves the counters. -/
theorem counterOk_of_keeps {op : calls.Op} (h : keepsSettlements op = true) : counterOk l op := by
  cases op with
  | inl op => trivial
  | inr op =>
    cases op with
    | touchSettlementsOnLedgerClose p => cases h
    | saveSettlement row => cases h
    | _ => trivial

/-- It is no touch, either. -/
theorem touchCall_of_keeps {op : calls.Op} (h : keepsSettlements op = true) : touchCall op = none := by
  cases op with
  | inl op => rfl
  | inr op =>
    cases op with
    | touchSettlementsOnLedgerClose p => cases h
    | _ => rfl

/-- A call that is no touch adds none to the log. -/
theorem NoTouch.cons (h : NoTouch l) {op : calls.Op} (hop : touchCall op = none)
    (r : Except String (calls.Res op)) : NoTouch (⟨op, r⟩ :: l) := by
  intro ev hev
  rcases List.mem_cons.mp hev with rfl | hev
  · exact hop
  · exact h ev hev

/-- A program that leaves the settlements alone. -/
theorem keeps_gives {p : ApiM α} (hp : Only (fun op : calls.Op => keepsSettlements op = true) p)
    (h : NoTouch l) : Gives counterOk p (fun _ l' => NoTouch l') l :=
  hp.gives (fun _ _ hop _ => counterOk_of_keeps hop)
    (fun _ _ r hop hl => hl.cons (touchCall_of_keeps hop) r) h

/-- A program that writes no settlement is safe for the counters. -/
theorem keeps_safe {p : ApiM α} (hp : Only (fun op : calls.Op => keepsSettlements op = true) p) :
    Safe counterOk p l :=
  hp.safe (fun _ _ hop => counterOk_of_keeps hop) l

/-- The month of a ledger is read without a write. -/
theorem calendarMonth_keeps (stream : LedgerStream) :
    Only (fun op : calls.Op => keepsSettlements op = true) (calendarMonthFromLedgerStream stream) := by
  unfold calendarMonthFromLedgerStream
  split
  · exact Only.pure
  · exact (ofOps_keepsSettlements _).bind fun _ => Only.pure

/-- The touch comes once, after its record. -/
theorem afterSettlementLedgerClosedEvent_counters (touchEnabled : Bool) (stream : LedgerStream)
    (hins : Inserted l (ledgerKey stream.ledgerIndex)) (h : NoTouch l) :
    Safe counterOk (afterSettlementLedgerClosedEvent stream touchEnabled) l := by
  unfold afterSettlementLedgerClosedEvent
  cases touchEnabled with
  | false => exact Gives.pure trivial
  | true =>
    refine Gives.bind (keeps_gives (calendarMonth_keeps stream) h) fun ym l₁ hl₁ h₁ => ?_
    refine Gives.bind (keeps_gives (ofOps_keepsSettlements _) h₁) fun now l₂ hl₂ h₂ => ?_
    refine Gives.call_then ⟨hins.mono (hl₁.trans hl₂), h₂⟩ fun n l₃ _ => ?_
    exact keeps_safe (ofOps_keepsSettlements _)

/-- A closed ledger touches once. -/
theorem handleLedgerClosed_counters (touchEnabled : Bool) (stream : LedgerStream) :
    Safe counterOk (handleLedgerClosed stream touchEnabled) [] := by
  have hnone : NoTouch [] := fun ev hev => absurd hev List.not_mem_nil
  unfold handleLedgerClosed
  rw [ofOps_invoke (.tryRecordXrplIngestionEvent (ledgerKey stream.ledgerIndex))]
  refine Gives.call_bind trivial fun inserted => ?_
  cases inserted with
  | false => exact Gives.pure trivial
  | true =>
    -- the insertion is the only call so far
    have hfirst : NoTouch [⟨.inl (.tryRecordXrplIngestionEvent (ledgerKey stream.ledgerIndex)), .ok true⟩] :=
      hnone.cons rfl _
    refine Gives.bind (keeps_gives (ofOps_keepsSettlements _) hfirst) fun _ l₂ hl₂ h₂ => ?_
    have hins : Inserted l₂ (ledgerKey stream.ledgerIndex) := hl₂.subset List.mem_cons_self
    exact afterSettlementLedgerClosedEvent_counters touchEnabled stream hins h₂

/-- A patch saves a row that it has read. -/
theorem patchSettlementStatus_counters (config : Config) (autoNotify : Bool) (caller : Caller)
    (settlementId : String) (body : SettlementPatch) :
    Safe counterOk (patchSettlementStatus config autoNotify caller settlementId body) l := by
  unfold patchSettlementStatus
  apply operatorRoute_ok
  refine Gives.call_read trivial fun found l₁ _ hread => ?_
  cases found with
  | none => exact Gives.pure trivial
  | some r =>
    dsimp only
    split
    · exact Gives.pure trivial
    · unfold storePatch
      refine Gives.bind (keeps_safe (ofOps_keepsSettlements _)) fun t l₂ hl₂ _ => ?_
      refine Gives.call_then ⟨settlementId, r, body, t, hl₂.subset hread, rfl⟩ fun _ l₃ _ => ?_
      exact keeps_safe (announcePatch_keepsSettlements _ _ _ _ _ _)

/-- Every request meets the monitor. -/
theorem handleSettlement_counters (config : Config) (settings : SettlementSettings)
    (req : SettlementRequest) : Safe counterOk (handleSettlement config settings req) [] := by
  cases req with
  | message msg =>
    cases msg with
    | ledgerClosed stream => exact Gives.map (handleLedgerClosed_counters settings.touchEnabled stream)
    | transaction stream throttled => exact Gives.map (keeps_safe (ofOps_keepsSettlements _))
  | patch caller settlementId body =>
    exact Gives.map (patchSettlementStatus_counters config _ caller settlementId body)

end Requests

/-! ## Who touches for a ledger -/

/-- A step of the system. -/
abbrev SettlementMove : Type := Move SettlementsPool (Act SettlementRequest Choice)

/-- The touch that a step makes, if it takes effect. -/
def touchOf (m : SettlementMove) : Option TouchParams :=
  (stepCall m.before m.label).bind fun call => if call.2.2.effective then touchCall call.2.1 else none

/-- The ledgers that the settlements were touched for, the last one first. -/
def touchedLedgers (ms : List SettlementMove) : List Int :=
  ms.filterMap fun m => (touchOf m).map TouchParams.ledgerIndex

/-- Which step of a pool is a touch. -/
theorem touchOf_advance {P P' : SettlementsPool} {i : Nat} {c : Choice} {th : SettlementThread}
    {op : calls.Op} {k : Except String (calls.Res op) → ApiM (Option Response)}
    (hth : P.threads[i]? = some th) (hprog : th.prog = await op k) :
    touchOf ⟨P, .advance i c, P'⟩ = if c.effective then touchCall op else none := by
  simp only [touchOf, stepCall_advance hth hprog, Option.bind_some]

/-- Records have one owner each, and who has touched for a ledger owns its record. -/
structure OwnersInv (ms : List SettlementMove) (P : SettlementsPool) : Prop where
  safe : ∀ th ∈ P.threads, th.Safe fun _ => counterOk
  recorded : ∀ th ∈ P.threads, ∀ key, Inserted th.log key → key ∈ P.store.ops.ingestions
  owner : ∀ key, AtMostOne (fun th => Inserted th.log key) P.threads
  touched : ∀ v ∈ touchedLedgers ms, ∃ th ∈ P.threads, Inserted th.log (ledgerKey v) ∧ ¬ NoTouch th.log
  distinct : (touchedLedgers ms).Nodup

/-- The row that a call saves. -/
def savedSettlement : calls.Op → Option SettlementRecord
  | .inr (.saveSettlement row) => some row
  | _ => none

/-- The row that a step saves, if it takes effect. -/
def saveOf (m : SettlementMove) : Option SettlementRecord :=
  (stepCall m.before m.label).bind fun call =>
    if call.2.2.effective then savedSettlement call.2.1 else none

section Owners

variable {config : Config} {settings : SettlementSettings} {ms : List SettlementMove} {m : SettlementMove}

/-- The ledgers of a run, with its last step apart. -/
theorem touchedLedgers_cons (m : SettlementMove) (ms : List SettlementMove) :
    touchedLedgers (m :: ms) = ((touchOf m).map TouchParams.ledgerIndex).toList ++ touchedLedgers ms := by
  unfold touchedLedgers
  cases h : touchOf m with
  | none => simp [h]
  | some p => simp [h]

/-- Without requests no ledger has an owner. -/
theorem ownersInv_start (s₀ : Store) : OwnersInv [] ⟨s₀, []⟩ where
  safe _ hth := absurd hth List.not_mem_nil
  recorded _ hth := absurd hth List.not_mem_nil
  owner _ := atMostOne_nil _
  touched _ hv := absurd hv List.not_mem_nil
  distinct := List.nodup_nil

/-- A request that touches owns its ledger. -/
theorem OwnersInv.touchOk {P : SettlementsPool} (h : OwnersInv ms P) {i : Nat} {th : SettlementThread}
    {op : calls.Op} {k : Except String (calls.Res op) → ApiM (Option Response)} {p : TouchParams}
    (hth : P.threads[i]? = some th) (hprog : th.prog = await op k) (htouch : touchCall op = some p) :
    Inserted th.log (ledgerKey p.ledgerIndex) ∧ NoTouch th.log := by
  have hok := (h.safe th (List.mem_of_getElem? hth)).ok_of_await hprog
  cases op with
  | inl op => cases htouch
  | inr op =>
    cases op with
    | touchSettlementsOnLedgerClose p' =>
      cases htouch
      exact hok
    | _ => cases htouch

/-- A ledger that is touched for now has not been touched for before. -/
theorem OwnersInv.new_ledger {P : SettlementsPool} (h : OwnersInv ms P) {i : Nat} {th : SettlementThread}
    (hth : P.threads[i]? = some th) {v : Int} (hins : Inserted th.log (ledgerKey v))
    (hnone : NoTouch th.log) : v ∉ touchedLedgers ms := by
  intro hv
  obtain ⟨u, hu, hins', htouched⟩ := h.touched v hv
  obtain ⟨j, hj⟩ := List.mem_iff_getElem?.mp hu
  -- the record has one owner, which has not touched yet
  have hij : i = j := h.owner (ledgerKey v) i j th u hth hj hins hins'
  subst hij
  rw [hth, Option.some.injEq] at hj
  subst hj
  exact htouched hnone

/-- A ledger is touched by its owner, and once. -/
theorem ownersInv_step (hstep : settlementsStep config settings m.before m.label = some m.after)
    (h : OwnersInv ms m.before) : OwnersInv (m :: ms) m.after := by
  have hsafe : ∀ th ∈ m.after.threads, th.Safe fun _ => counterOk :=
    poolStep_safe (handleSettlement_counters config settings) hstep h.safe
  have hgrow := poolStep_extends hstep
  obtain ⟨P, a, P'⟩ := m
  dsimp only at hstep h hsafe hgrow ⊢
  -- who has touched for a ledger keeps its record and its touch
  have hold : ∀ v ∈ touchedLedgers ms,
      ∃ th ∈ P'.threads, Inserted th.log (ledgerKey v) ∧ ¬ NoTouch th.log := by
    intro v hv
    obtain ⟨th, hth, hins, htouched⟩ := h.touched v hv
    obtain ⟨th', hth', -, hlog⟩ := hgrow th hth
    exact ⟨th', hth', hins.mono hlog, fun hnone => htouched fun ev hev => hnone ev (hlog.subset hev)⟩
  obtain ⟨req, rfl, rfl⟩ | ⟨i, c, th, op, k, rfl, hth, hprog, -, rfl⟩ := poolStep_cases hstep
  · have hnil : ∀ key, ¬ Inserted [] key := fun key hins => absurd hins List.not_mem_nil
    refine ⟨hsafe, fun u hu key hins => ?_, fun key => (h.owner key).append (hnil key), hold, h.distinct⟩
    exact h.recorded u (mem_of_mem_log hu hins) key hins
  · have hmem := List.mem_of_getElem? hth
    have hnext : th.resume op (serve config.runtime op c P.store).1 k ∈
        P.threads.set i (th.resume op (serve config.runtime op c P.store).1 k) :=
      List.mem_set (List.getElem?_eq_some_iff.mp hth).1 _
    refine ⟨hsafe, fun u hu key hins => ?_, fun key => ?_, fun v hv => ?_, ?_⟩
    · rcases mem_set_resume hu with rfl | hu
      · rcases inserted_resume hins with hbefore | ⟨rfl, -, hthere, -⟩
        · exact mem_ingestions_serve (h.recorded th hmem key hbefore)
        · exact hthere
      · exact mem_ingestions_serve (h.recorded u hu key hins)
    · refine (h.owner key).set hth fun hins => ?_
      rcases inserted_resume hins with hbefore | ⟨-, hnew, -, -⟩
      · exact .inl hbefore
      · exact .inr fun u hu hu' => hnew (h.recorded u hu key hu')
    · rw [touchedLedgers_cons, touchOf_advance hth hprog] at hv
      rcases List.mem_append.mp hv with hv | hv
      · -- the ledger of this step
        have hins : Inserted th.log (ledgerKey v) ∧ touchCall op ≠ none := by
          by_cases heff : c.effective = true
          · rw [if_pos heff] at hv
            cases htouch : touchCall op with
            | none => simp [htouch] at hv
            | some p =>
              have hok := (h.touchOk hth hprog htouch).1
              simp only [htouch, Option.map_some, Option.toList_some, List.mem_singleton] at hv
              exact ⟨hv ▸ hok, Option.some_ne_none p⟩
          · simp [heff] at hv
        refine ⟨_, hnext, hins.1.mono (List.suffix_cons _ _), fun hnone => ?_⟩
        exact hins.2 (hnone _ List.mem_cons_self)
      · exact hold v hv
    · rw [touchedLedgers_cons, touchOf_advance hth hprog]
      by_cases heff : c.effective = true
      · rw [if_pos heff]
        cases htouch : touchCall op with
        | none => exact h.distinct
        | some p =>
          obtain ⟨hins, hnone⟩ := h.touchOk hth hprog htouch
          exact List.nodup_cons.mpr ⟨h.new_ledger hth hins hnone, h.distinct⟩
      · rw [if_neg heff]
        exact h.distinct

end Owners

/-! ## What a step does to a row -/

/-- The touch reaches the row with the id: it is of an eligible contract and not archived, or not
    there yet. -/
def touchesRow (s : Store) (p : TouchParams) (id : String) : Bool :=
  (s.eligible.any fun c => decide (p.idOf c.id = id)) &&
    (s.settlements.get? id).all fun r => decide (r.status ≠ .archived)

/-- The ledger that a step touches the row for. -/
def touchedFor (id : String) (m : SettlementMove) : Option Int :=
  (touchOf m).bind fun p => if touchesRow m.before.store p id then some p.ledgerIndex else none

/-- The counter of a row, zero where there is none. -/
def countAt (s : Store) (id : String) : Nat :=
  ((s.settlements.get? id).map SettlementRecord.ledgerCloseCount).getD 0

/-- The last ledger of a row does not go back. -/
def IndexKept (r r' : SettlementRecord) : Prop :=
  ∀ n ∈ r.lastLedgerIndex, ∃ n' ∈ r'.lastLedgerIndex, n ≤ n'

/-- A row that keeps its index has not gone back. -/
theorem IndexKept.of_eq {r r' : SettlementRecord} (h : r'.lastLedgerIndex = r.lastLedgerIndex) :
    IndexKept r r' := by
  intro n hn
  exact ⟨n, h ▸ hn, Int.le_refl n⟩

/-- A patch saves its row while the counters are those that it has read. -/
def PatchCurrent (m : SettlementMove) : Prop :=
  ∀ call row, stepCall m.before m.label = some call → saveOf m = some row →
    ∀ id r cur, ReadRow call.1.log id r → m.before.store.settlements.get? id = some cur →
      cur.ledgerCloseCount = r.ledgerCloseCount ∧ cur.lastLedgerIndex = r.lastLedgerIndex

/-- The condition on a step: a patch writes back current counters, and a touch is for no earlier
    ledger than its rows have had, by contracts with rows of their own. -/
structure Orderly (m : SettlementMove) : Prop where
  current : PatchCurrent m
  ordered : ∀ p, touchOf m = some p → ∀ id r, touchesRow m.before.store p id = true →
    m.before.store.settlements.get? id = some r → ∀ n ∈ r.lastLedgerIndex, n ≤ p.ledgerIndex
  own : ∀ p, touchOf m = some p → OwnRows m.before.store p

/-- The rows are those that the invariant of the pool speaks of: their ids are computed, and what
    a request has read is still there. -/
structure RowsInv (P : SettlementsPool) : Prop where
  ids : IdsDeterministic P.store.settlements
  read : ∀ th ∈ P.threads, ∀ id r, ReadRow th.log id r →
    r.id = id ∧ r.id = settlementDeterministicId r.contractId r.periodYear r.periodMonth ∧
      ∃ cur, P.store.settlements.get? id = some cur

/-- What a step does to the rows: it counts the ledger that it touches for, and takes no row
    away. -/
structure RowsStep (m : SettlementMove) : Prop where
  count : ∀ id, countAt m.after.store id = countAt m.before.store id + (touchedFor id m).toList.length
  kept : ∀ id r, m.before.store.settlements.get? id = some r →
    ∃ r', m.after.store.settlements.get? id = some r' ∧ IndexKept r r'
  ids : IdsDeterministic m.after.store.settlements

section Rows

variable {config : Config} {settings : SettlementSettings} {m : SettlementMove}

/-- Which step of a pool saves a row. -/
theorem saveOf_advance {P P' : SettlementsPool} {i : Nat} {c : Choice} {th : SettlementThread}
    {op : calls.Op} {k : Except String (calls.Res op) → ApiM (Option Response)}
    (hth : P.threads[i]? = some th) (hprog : th.prog = await op k) :
    saveOf ⟨P, .advance i c, P'⟩ = if c.effective then savedSettlement op else none := by
  simp only [saveOf, stepCall_advance hth hprog, Option.bind_some]

/-- What a step does to the table. -/
theorem settlements_step (hstep : settlementsStep config settings m.before m.label = some m.after) :
    (touchOf m = none ∧ m.after.store.settlements = m.before.store.settlements) ∨
    (∃ p, touchOf m = some p ∧
      m.after.store.settlements = (m.before.store.touchSettlements p).1) ∨
    ∃ row, touchOf m = none ∧ saveOf m = some row ∧
      m.after.store.settlements = m.before.store.settlements.set row := by
  obtain ⟨P, a, P'⟩ := m
  dsimp only at hstep ⊢
  obtain ⟨req, rfl, rfl⟩ | ⟨i, c, th, op, k, rfl, hth, hprog, -, rfl⟩ := poolStep_cases hstep
  · exact .inl ⟨rfl, rfl⟩
  -- the step has the effect of its call, or none
  · rw [touchOf_advance hth hprog, saveOf_advance hth hprog]
    by_cases heff : c.effective = true
    · rw [if_pos heff, if_pos heff]
      by_cases hkeeps : keepsSettlements op = true
      · exact .inl ⟨touchCall_of_keeps hkeeps, keepsSettlements_serve hkeeps c P.store⟩
      · -- a touch or a save
        cases op with
        | inl op => exact absurd rfl hkeeps
        | inr op =>
          have hserve : (serve config.runtime (.inr op) c P.store).2 = (perform config.runtime op c P.store).2 := by
            rw [serve_inr, if_pos heff]
          cases op with
          | touchSettlementsOnLedgerClose p =>
            exact .inr (.inl ⟨p, rfl, congrArg Store.settlements hserve⟩)
          | saveSettlement row => exact .inr (.inr ⟨row, rfl, rfl, congrArg Store.settlements hserve⟩)
          | _ => exact absurd rfl hkeeps
    -- without effect the table is as it was
    · rw [if_neg heff]
      refine .inl ⟨rfl, ?_⟩
      rcases settlements_serve config.runtime op c P.store with heq | ⟨p, -, heff', -⟩ | ⟨row, -, heff', -⟩
      · exact heq
      · exact absurd heff' heff
      · exact absurd heff' heff

/-- A touch keeps the ids, and counts in the rows that it reaches. -/
theorem rowsStep_touch {p : TouchParams} (htouch : touchOf m = some p)
    (heq : m.after.store.settlements = (m.before.store.touchSettlements p).1)
    (hids : IdsDeterministic m.before.store.settlements) (hm : Orderly m) : RowsStep m := by
  have hnodup := (hm.own p htouch).nodup
  have hfor : ∀ id, touchedFor id m =
      if touchesRow m.before.store p id then some p.ledgerIndex else none := by
    intro id
    rw [touchedFor, htouch, Option.bind_some]
  -- a row is touched as its contract is, or it is of no eligible contract
  have hrow : ∀ id, (m.before.store.eligible.any (fun c => decide (p.idOf c.id = id)) = true ∧
        TouchResult p (m.before.store.settlements.get? id) (m.after.store.settlements.get? id)) ∨
      (m.before.store.eligible.any (fun c => decide (p.idOf c.id = id)) = false ∧
        m.after.store.settlements.get? id = m.before.store.settlements.get? id) := by
    intro id
    rw [heq]
    cases hany : m.before.store.eligible.any fun c => decide (p.idOf c.id = id) with
    | true =>
      obtain ⟨c, hc, hid⟩ := List.any_eq_true.mp hany
      rw [← of_decide_eq_true hid]
      exact .inl ⟨rfl, touchResult_foldl hnodup hc (m.before.store.settlements, 0)⟩
    | false =>
      refine .inr ⟨rfl, get?_foldl_touchOne (fun c hc hid => ?_) (m.before.store.settlements, 0)⟩
      simp only [List.any_eq_false, decide_eq_true_eq] at hany
      exact hany c hc hid.symm
  refine ⟨fun id => ?_, fun id r hget => ?_, ?_⟩
  · rw [hfor, touchesRow, countAt, countAt]
    rcases hrow id with ⟨hany, ⟨hold, c, row, hnew⟩ | ⟨r, hold, harch, hnew⟩ | ⟨r, hold, harch, hnew⟩⟩ | ⟨hany, hsame⟩
    · simp [hany, hold, hnew, freshSettlement]
    · simp [hold, harch, hnew]
    · simp [hany, hold, harch, hnew, SettlementRecord.touched]
    · simp [hany, hsame]
  · rcases hrow id with ⟨hany, ⟨hold, c, row, hnew⟩ | ⟨r', hold, harch, hnew⟩ | ⟨r', hold, harch, hnew⟩⟩ | ⟨hany, hsame⟩
    · rw [hget] at hold
      cases hold
    · rw [hget] at hold
      cases hold
      exact ⟨r, hnew, .of_eq rfl⟩
    · rw [hget] at hold
      cases hold
      refine ⟨_, hnew, fun n hn => ⟨p.ledgerIndex, rfl, ?_⟩⟩
      refine hm.ordered p htouch id r ?_ hget n hn
      simp [touchesRow, hany, hget, harch]
    · exact ⟨r, hsame.trans hget, .of_eq rfl⟩
  · rw [heq]
    exact (foldl_touchOne p _ (m.before.store.settlements, 0) hids).1

/-- A saved row is one that the request has read and patched. -/
theorem saved_patched (hstep : settlementsStep config settings m.before m.label = some m.after)
    (hsafe : ∀ th ∈ m.before.threads, th.Safe fun _ => counterOk) {row : SettlementRecord}
    (hsave : saveOf m = some row) :
    ∃ call, stepCall m.before m.label = some call ∧ call.1 ∈ m.before.threads ∧
      ∃ id r body t, ReadRow call.1.log id r ∧ row = r.patched body t := by
  obtain ⟨P, a, P'⟩ := m
  dsimp only at hstep hsafe ⊢
  obtain ⟨req, rfl, rfl⟩ | ⟨i, c, th, op, k, rfl, hth, hprog, -, rfl⟩ := poolStep_cases hstep
  -- a request that arrives saves nothing
  · cases hsave
  · have hmem := List.mem_of_getElem? hth
    have hok := (hsafe th hmem).ok_of_await hprog
    rw [saveOf_advance hth hprog] at hsave
    refine ⟨(th, op, c), stepCall_advance hth hprog, hmem, ?_⟩
    -- the row that is saved is one the discipline has accepted
    by_cases heff : c.effective = true
    · rw [if_pos heff] at hsave
      cases op with
      | inl op => cases hsave
      | inr op =>
        cases op with
        | saveSettlement row' =>
          cases hsave
          exact hok
        | _ => cases hsave
    · rw [if_neg heff] at hsave
      cases hsave

/-- A save of a row with current counters counts nothing. -/
theorem rowsStep_save {row : SettlementRecord}
    (hstep : settlementsStep config settings m.before m.label = some m.after)
    (hsafe : ∀ th ∈ m.before.threads, th.Safe fun _ => counterOk) (htouch : touchOf m = none)
    (hsave : saveOf m = some row)
    (heq : m.after.store.settlements = m.before.store.settlements.set row) (hinv : RowsInv m.before)
    (hm : Orderly m) : RowsStep m := by
  obtain ⟨call, hcall, hmem, id₀, r₀, body, t, hread, rfl⟩ := saved_patched hstep hsafe hsave
  -- the row is still stored, with the counters that were read
  obtain ⟨hid, hrow, cur, hcur⟩ := hinv.read call.1 hmem id₀ r₀ hread
  obtain ⟨hcount, hindex⟩ := hm.current call _ hcall hsave id₀ r₀ cur hread hcur
  have hafter : ∀ id, m.after.store.settlements.get? id =
      if id = id₀ then some (r₀.patched body t) else m.before.store.settlements.get? id := by
    intro id
    rw [heq, Table.get?_set, show (r₀.patched body t).id = id₀ from hid]
  have hcounted : (r₀.patched body t).ledgerCloseCount = cur.ledgerCloseCount := hcount.symm
  refine ⟨fun id => ?_, fun id r hget => ?_, ?_⟩
  · rw [touchedFor, htouch, Option.bind_none, countAt, countAt, hafter]
    by_cases hsame : id = id₀
    · rw [if_pos hsame, hsame, hcur]
      simp [hcounted]
    · rw [if_neg hsame]
      rfl
  · rw [hafter]
    by_cases hsame : id = id₀
    · rw [hsame, hcur] at hget
      cases hget
      exact ⟨_, if_pos hsame, .of_eq hindex.symm⟩
    · exact ⟨r, (if_neg hsame).trans hget, .of_eq rfl⟩
  · rw [heq]
    exact hinv.ids.set hrow

/-- A step touches the rows, or saves one that was read. -/
theorem rowsStep_of_step (hstep : settlementsStep config settings m.before m.label = some m.after)
    (hsafe : ∀ th ∈ m.before.threads, th.Safe fun _ => counterOk) (hinv : RowsInv m.before)
    (hm : Orderly m) : RowsStep m := by
  rcases settlements_step hstep with ⟨htouch, heq⟩ | ⟨p, htouch, heq⟩ | ⟨row, htouch, hsave, heq⟩
  · refine ⟨fun id => ?_, fun id r hget => ⟨r, ?_, .of_eq rfl⟩, ?_⟩
    · rw [touchedFor, htouch, countAt, countAt, heq]
      rfl
    · rw [heq]
      exact hget
    · rw [heq]
      exact hinv.ids
  · exact rowsStep_touch htouch heq hinv.ids hm
  · exact rowsStep_save hstep hsafe htouch hsave heq hinv hm

/-- A step keeps the rows in order. -/
theorem rowsInv_step (hstep : settlementsStep config settings m.before m.label = some m.after)
    (hrows : RowsStep m) (hinv : RowsInv m.before) : RowsInv m.after := by
  refine ⟨hrows.ids, fun u hu id r hread => ?_⟩
  -- what is stored stays stored, if changed
  have hstored : ∀ cur, m.before.store.settlements.get? id = some cur →
      ∃ cur, m.after.store.settlements.get? id = some cur := by
    intro cur hcur
    obtain ⟨cur', hcur', -⟩ := hrows.kept id cur hcur
    exact ⟨cur', hcur'⟩
  rcases mem_log_step hstep hu hread with ⟨v, hv, -, hold⟩ | ⟨i, c, th, op, k, -, -, -, -, heq, -⟩
  · obtain ⟨hid, hrow, cur, hcur⟩ := hinv.read v hv id r hold
    exact ⟨hid, hrow, hstored cur hcur⟩
  · -- a row that is read now is stored
    have hevent : (⟨.inr (.getSettlement id), .ok (some r)⟩ : Event calls String) =
      ⟨op, (serve config.runtime op c m.before.store).1⟩ := heq
    generalize hr : (serve config.runtime op c m.before.store).1 = answer at hevent
    cases hevent
    have hget := (getSettlement_answer hr).1.symm
    exact ⟨Table.key_of_get? hget, hinv.ids r (Table.mem_of_get? hget), hstored r hget⟩

end Rows

/-! ## Runs -/

/-- The ledger that a step touches the row for, if it is one of the period of the row. -/
def SettlementRecord.touchedBy (r : SettlementRecord) (m : SettlementMove) : Option Int :=
  (touchOf m).bind fun p =>
    if p.periodYear = r.periodYear ∧ p.periodMonth = r.periodMonth ∧
        touchesRow m.before.store p r.id = true then some p.ledgerIndex
    else none

/-- The closed ledgers of its period that have touched the row while it was not archived. -/
def SettlementRecord.closedLedgers (r : SettlementRecord) (ms : List SettlementMove) : List Int :=
  (ms.filterMap r.touchedBy).dedup

/-- The counters are exact: every row counts the ledgers that have touched it, and no step takes
    its last ledger back. -/
structure CountersExact (ms : List SettlementMove) (s : Store) : Prop where
  count : ∀ r ∈ s.settlements.rows, r.ledgerCloseCount = (r.closedLedgers ms).length
  index : ∀ m ∈ ms, ∀ id r, m.before.store.settlements.get? id = some r →
    ∃ r', m.after.store.settlements.get? id = some r' ∧ IndexKept r r'

/-- The invariant of a run. -/
structure CountersInv (ms : List SettlementMove) (P : SettlementsPool) : Prop where
  owners : OwnersInv ms P
  rows : RowsInv P
  count : ∀ id, countAt P.store id = (ms.filterMap (touchedFor id)).length
  index : ∀ m ∈ ms, ∀ id r, m.before.store.settlements.get? id = some r →
    ∃ r', m.after.store.settlements.get? id = some r' ∧ IndexKept r r'

section Runs

variable {config : Config} {settings : SettlementSettings} {ms : List SettlementMove} {m : SettlementMove}

/-- Without rows the counters are exact. -/
theorem countersInv_start {s₀ : Store} (hnew : s₀.settlements.rows = []) : CountersInv [] ⟨s₀, []⟩ := by
  have hnone : ∀ id, s₀.settlements.get? id = none := by
    intro id
    rw [Table.get?_eq_none_iff, hnew]
    exact List.not_mem_nil
  refine ⟨ownersInv_start s₀, ⟨fun r hr => ?_, fun th hth => absurd hth List.not_mem_nil⟩, fun id => ?_,
    fun m hm => absurd hm List.not_mem_nil⟩
  · rw [hnew] at hr
    cases hr
  · simp [countAt, hnone]

/-- One step of a run. -/
theorem countersInv_step (hstep : settlementsStep config settings m.before m.label = some m.after)
    (hm : Orderly m) (h : CountersInv ms m.before) : CountersInv (m :: ms) m.after := by
  have hrows := rowsStep_of_step hstep h.owners.safe h.rows hm
  refine ⟨ownersInv_step hstep h.owners, rowsInv_step hstep hrows h.rows, fun id => ?_, fun m' hm' => ?_⟩
  · rw [hrows.count, h.count]
    cases hfor : touchedFor id m with
    | none => simp [hfor]
    | some v => simp [hfor]
  · rcases List.mem_cons.mp hm' with rfl | hm'
    · exact hrows.kept
    · exact h.index m' hm'

/-- The ledgers that touch a row are among those that the settlements are touched for. -/
theorem touchedFor_sublist (id : String) (ms : List SettlementMove) :
    (ms.filterMap (touchedFor id)).Sublist (touchedLedgers ms) := by
  -- a row is touched by some of the ledgers, in their order
  induction ms with
  | nil => exact List.Sublist.refl _
  | cons m ms ih =>
    rw [touchedLedgers_cons]
    have hhead : (touchedFor id m).toList.Sublist ((touchOf m).map TouchParams.ledgerIndex).toList := by
      unfold touchedFor
      cases touchOf m with
      | none => exact List.Sublist.refl _
      | some p => by_cases hp : touchesRow m.before.store p id = true <;> simp [hp]
    have hcons : (m :: ms).filterMap (touchedFor id) =
        (touchedFor id m).toList ++ ms.filterMap (touchedFor id) := by
      cases hfor : touchedFor id m <;> simp [hfor]
    rw [hcons]
    exact hhead.append ih

/-- A touch that reaches a row is for its period. -/
theorem touchedBy_eq {r : SettlementRecord}
    (hid : r.id = settlementDeterministicId r.contractId r.periodYear r.periodMonth) (m : SettlementMove) :
    r.touchedBy m = touchedFor r.id m := by
  unfold SettlementRecord.touchedBy touchedFor
  refine congrArg _ (funext fun p => ?_)
  by_cases hp : touchesRow m.before.store p r.id = true
  · have hperiod : p.periodYear = r.periodYear ∧ p.periodMonth = r.periodMonth := by
      simp only [touchesRow, Bool.and_eq_true, List.any_eq_true, decide_eq_true_eq] at hp
      obtain ⟨⟨c, -, hc⟩, -⟩ := hp
      exact period_of_id (hc.trans hid)
    simp [hp, hperiod]
  · simp [hp]

/-- Where every patch writes back current counters, and every touch is for no earlier ledger than
    its rows have had, by contracts with rows of their own, the counters are exact. -/
theorem counters_exact {s₀ : Store} {P : SettlementsPool} (hnew : s₀.settlements.rows = [])
    (run : Run (settlementsStep config settings) ⟨s₀, []⟩ ms P) (horderly : ∀ m ∈ ms, Orderly m) :
    CountersExact ms P.store := by
  -- induction on the run, the newest step last
  have hinv : CountersInv ms P := by
    induction run with
    | nil => exact countersInv_start hnew
    | @cons ms t u a run hstep ih =>
      have hrest := ih fun m hm => horderly m (List.mem_cons_of_mem _ hm)
      exact countersInv_step (m := ⟨t, a, u⟩) hstep (horderly _ List.mem_cons_self) hrest
  refine ⟨fun r hr => ?_, hinv.index⟩
  have hledgers : ms.filterMap r.touchedBy = ms.filterMap (touchedFor r.id) :=
    congrArg (List.filterMap · ms) (funext (touchedBy_eq (hinv.rows.ids r hr)))
  -- no ledger touches twice, so the list has no repetitions
  have hnodup := hinv.owners.distinct.sublist (touchedFor_sublist r.id ms)
  rw [SettlementRecord.closedLedgers, hledgers, hnodup.dedup, ← hinv.count, countAt, Table.get?_of_mem hr]
  rfl

end Runs

/-! ## Concrete runs -/

/-- The ledgers that messages of a run are about. -/
def arrivedLedgers (ms : List SettlementMove) : List Int :=
  (spawned ms).filterMap fun req =>
    match req with
    | .message (.ledgerClosed stream) => some stream.ledgerIndex
    | _ => none

/-- What has been read of a row agrees with its counters. -/
def readsCurrent (s : Store) : Event calls String → Bool
  | ⟨.inr (.getSettlement id), .ok (some r)⟩ =>
    (s.settlements.get? id).all fun cur =>
      decide (cur.ledgerCloseCount = r.ledgerCloseCount ∧ cur.lastLedgerIndex = r.lastLedgerIndex)
  | _ => true

def currentCheck (m : SettlementMove) : Bool :=
  (saveOf m).isNone ||
    (stepCall m.before m.label).all fun call => call.1.log.all (readsCurrent m.before.store)

/-- Whether a patch is current can be computed. -/
theorem patchCurrent_of_check {m : SettlementMove} (h : currentCheck m = true) : PatchCurrent m := by
  intro call row hcall hsave id r cur hread hcur
  unfold currentCheck at h
  rw [hsave, hcall, Option.all_some, Option.isNone_some, Bool.false_or] at h
  have hrow : readsCurrent m.before.store ⟨.inr (.getSettlement id), .ok (some r)⟩ = true :=
    List.all_eq_true.mp h _ hread
  simpa [readsCurrent, hcur] using hrow

/-- No row has had a later ledger than the one of a touch. -/
def orderedCheck (m : SettlementMove) : Bool :=
  (touchOf m).all fun p => m.before.store.settlements.rows.all fun r =>
    r.lastLedgerIndex.all fun n => decide (n ≤ p.ledgerIndex)

/-- Whether the ledgers come in order, too. -/
theorem ordered_of_check {m : SettlementMove} (h : orderedCheck m = true) {p : TouchParams}
    (htouch : touchOf m = some p) {id : String} {r : SettlementRecord}
    (hget : m.before.store.settlements.get? id = some r) : ∀ n ∈ r.lastLedgerIndex, n ≤ p.ledgerIndex := by
  unfold orderedCheck at h
  rw [htouch, Option.all_some, List.all_eq_true] at h
  have hrow := h r (Table.mem_of_get? hget)
  intro n hn
  rw [Option.mem_def.mp hn] at hrow
  simpa using hrow

def ownCheck (m : SettlementMove) : Bool :=
  (touchOf m).all fun p => m.before.store.eligible.all fun c => m.before.store.eligible.all fun c' =>
    !decide (p.idOf c.id = p.idOf c'.id) || decide (c.id = c'.id)

/-- And whether the rows are distinct. -/
theorem ownRows_of_check {m : SettlementMove} (h : ownCheck m = true) {p : TouchParams}
    (htouch : touchOf m = some p) : OwnRows m.before.store p := by
  unfold ownCheck at h
  rw [htouch, Option.all_some] at h
  intro c hc c' hc' hid
  have hpair := List.all_eq_true.mp (List.all_eq_true.mp h c hc) c' hc'
  simpa [hid] using hpair

/-- And so all three. -/
theorem orderly_of_checks {m : SettlementMove} (hcur : currentCheck m = true)
    (hord : orderedCheck m = true) (hown : ownCheck m = true) : Orderly m :=
  ⟨patchCurrent_of_check hcur, fun _ htouch _ _ _ hget => ordered_of_check hord htouch hget,
    fun _ htouch => ownRows_of_check hown htouch⟩

def settlementActs (s : Store) (ts : List (Turn calls SettlementRequest Choice)) :
    List (Act SettlementRequest Choice) :=
  scheduleActs (world sampleRuntime) (handleSettlement (openConfig sampleRuntime) ⟨true, true⟩) ts ⟨s, []⟩

/-- The counters of the row of January 2000. -/
def januaryCounters (s : Store) : Option (Nat × Option Int) :=
  (s.settlements.get? januaryId).map fun r => (r.ledgerCloseCount, r.lastLedgerIndex)

/-- A ledger touches the row while a patch that has stored it writes its audit entry. -/
theorem counters_exact_overlapping :
    ∃ ms P, Run (settlementsStep (openConfig sampleRuntime) ⟨true, true⟩) ⟨settledStore [], []⟩ ms P ∧
      januaryCounters P.store = some (2, some 8) ∧ CountersExact ms P.store := by
  obtain ⟨ms, P, run, hp⟩ := exists_run_of_replay
    (settlementActs (settledStore []) [.start (ledgerOfJanuary 7), .run 0 20 (sampleEvidenceOracle "1" 0),
      .start (patchOfStatus .accrued), .start (ledgerOfJanuary 8),
      .run 1 3 (sampleEvidenceOracle "2" 0), .run 2 20 (sampleEvidenceOracle "3" 0),
      .run 1 20 (sampleEvidenceOracle "2" 0)])
    (fun r => r.1.all currentCheck && r.1.all orderedCheck && r.1.all ownCheck &&
      decide (januaryCounters r.2.store = some (2, some 8)))
    (by decide +kernel : (replay (settlementsStep (openConfig sampleRuntime) ⟨true, true⟩)
      ⟨settledStore [], []⟩ _ []).any _ = true)
  simp only [Bool.and_eq_true, List.all_eq_true, decide_eq_true_eq] at hp
  obtain ⟨⟨⟨hcur, hord⟩, hown⟩, hcounters⟩ := hp
  exact ⟨ms, P, run, hcounters, counters_exact rfl run fun m hm =>
    orderly_of_checks (hcur m hm) (hord m hm) (hown m hm)⟩

/-- A store with two active contracts whose rows have the same id. -/
def sharedRowStore : Store :=
  let contract (id : String) : Contract :=
    ⟨id, "tenant_1", "landlord_1", .active, none, none, none, none, none, 0, 0⟩
  { Store.empty with
    ops := { Ops.Store.empty with
      contracts := (Table.empty.set (contract "ctr_1")).set (contract "ctr-1") } }

/-- The row of January counts other ledgers than those that have touched it. -/
def countsWrong (r : List SettlementMove × SettlementsPool) : Bool :=
  (r.2.store.settlements.get? januaryId).any fun row =>
    decide (row.ledgerCloseCount ≠ (row.closedLedgers r.1).length)

/-- A counter that differs from the touches is not exact. -/
theorem not_exact_of_countsWrong {ms : List SettlementMove} {P : SettlementsPool}
    (h : countsWrong (ms, P) = true) : ¬ CountersExact ms P.store := by
  intro hexact
  obtain ⟨row, hget, hne⟩ := Option.any_eq_true _ _ |>.mp h
  exact of_decide_eq_true hne (hexact.count row (Table.mem_of_get? hget))

/-- In some step the last ledger of the row of January goes back. -/
def indexGoesBack (r : List SettlementMove × SettlementsPool) : Bool :=
  r.1.any fun m => (m.before.store.settlements.get? januaryId).any fun old =>
    (m.after.store.settlements.get? januaryId).any fun new =>
      decide (old.lastLedgerIndex = some 8 ∧ new.lastLedgerIndex = some 7)

/-- Nor is an index that goes back. -/
theorem not_exact_of_indexGoesBack {ms : List SettlementMove} {P : SettlementsPool}
    (h : indexGoesBack (ms, P) = true) : ¬ CountersExact ms P.store := by
  intro hexact
  simp only [indexGoesBack, List.any_eq_true, Option.any_eq_true, decide_eq_true_eq] at h
  obtain ⟨m, hm, old, hold, new, hnew, height, hseven⟩ := h
  obtain ⟨r', hget, hkept⟩ := hexact.index m hm januaryId old hold
  rw [hnew] at hget
  cases hget
  obtain ⟨n, hn, hle⟩ := hkept 8 height
  rw [hseven] at hn
  cases hn
  exact absurd hle (by decide)

/-- A patch that has read the row before a ledger touches it takes the touch back, a ledger that
    arrives after a later one sets the last ledger back, and a row of two contracts is counted
    twice. -/
theorem counters_not_exact :
    (¬ ∀ (config : Config) (settings : SettlementSettings) (s₀ : Store) (P : SettlementsPool)
      (ms : List SettlementMove), s₀.settlements.rows = [] →
      Run (settlementsStep config settings) ⟨s₀, []⟩ ms P → (arrivedLedgers ms).Nodup →
      (∀ m ∈ ms, orderedCheck m = true ∧ ownCheck m = true) → CountersExact ms P.store) ∧
    (¬ ∀ (config : Config) (settings : SettlementSettings) (s₀ : Store) (P : SettlementsPool)
      (ms : List SettlementMove), s₀.settlements.rows = [] →
      Run (settlementsStep config settings) ⟨s₀, []⟩ ms P → (arrivedLedgers ms).Nodup →
      (∀ m ∈ ms, PatchCurrent m ∧ ownCheck m = true) → CountersExact ms P.store) ∧
    ¬ ∀ (config : Config) (settings : SettlementSettings) (s₀ : Store) (P : SettlementsPool)
      (ms : List SettlementMove), s₀.settlements.rows = [] →
      Run (settlementsStep config settings) ⟨s₀, []⟩ ms P → (arrivedLedgers ms).Nodup →
      (∀ m ∈ ms, PatchCurrent m ∧ orderedCheck m = true) → CountersExact ms P.store := by
  refine ⟨fun h => ?_, fun h => ?_, fun h => ?_⟩
  · -- a patch writes back the counters it has read before another ledger was counted
    obtain ⟨ms, P, run, hp⟩ := exists_run_of_replay
      (settlementActs (settledStore []) [.start (ledgerOfJanuary 7), .run 0 20 (sampleEvidenceOracle "1" 0),
        .start (patchOfStatus .accrued), .run 1 1 (sampleEvidenceOracle "2" 0),
        .start (ledgerOfJanuary 8), .run 2 20 (sampleEvidenceOracle "3" 0),
        .run 1 20 (sampleEvidenceOracle "2" 0)])
      (fun r => r.1.all orderedCheck && r.1.all ownCheck && decide (arrivedLedgers r.1 = [8, 7]) &&
        countsWrong r)
      (by decide +kernel : (replay (settlementsStep (openConfig sampleRuntime) ⟨true, true⟩)
        ⟨settledStore [], []⟩ _ []).any _ = true)
    simp only [Bool.and_eq_true, List.all_eq_true, decide_eq_true_eq] at hp
    obtain ⟨⟨⟨hord, hown⟩, harrived⟩, hwrong⟩ := hp
    refine not_exact_of_countsWrong hwrong (h _ _ _ P ms rfl run ?_ fun m hm => ⟨hord m hm, hown m hm⟩)
    rw [harrived]
    decide
  · -- the ledgers arrive out of order
    obtain ⟨ms, P, run, hp⟩ := exists_run_of_replay
      (settlementActs (settledStore []) [.start (ledgerOfJanuary 8), .run 0 20 (sampleEvidenceOracle "1" 0),
        .start (ledgerOfJanuary 7), .run 1 20 (sampleEvidenceOracle "2" 0)])
      (fun r => r.1.all currentCheck && r.1.all ownCheck && decide (arrivedLedgers r.1 = [7, 8]) &&
        indexGoesBack r)
      (by decide +kernel : (replay (settlementsStep (openConfig sampleRuntime) ⟨true, true⟩)
        ⟨settledStore [], []⟩ _ []).any _ = true)
    simp only [Bool.and_eq_true, List.all_eq_true, decide_eq_true_eq] at hp
    obtain ⟨⟨⟨hcur, hown⟩, harrived⟩, hback⟩ := hp
    refine not_exact_of_indexGoesBack hback
      (h _ _ _ P ms rfl run ?_ fun m hm => ⟨patchCurrent_of_check (hcur m hm), hown m hm⟩)
    rw [harrived]
    decide
  · -- the rows of two contracts have one id
    obtain ⟨ms, P, run, hp⟩ := exists_run_of_replay
      (settlementActs sharedRowStore [.start (ledgerOfJanuary 7), .run 0 20 (sampleEvidenceOracle "1" 0)])
      (fun r => r.1.all currentCheck && r.1.all orderedCheck && decide (arrivedLedgers r.1 = [7]) &&
        countsWrong r)
      (by decide +kernel : (replay (settlementsStep (openConfig sampleRuntime) ⟨true, true⟩)
        ⟨sharedRowStore, []⟩ _ []).any _ = true)
    simp only [Bool.and_eq_true, List.all_eq_true, decide_eq_true_eq] at hp
    obtain ⟨⟨⟨hcur, hord⟩, harrived⟩, hwrong⟩ := hp
    refine not_exact_of_countsWrong hwrong
      (h _ _ _ P ms rfl run ?_ fun m hm => ⟨patchCurrent_of_check (hcur m hm), hord m hm⟩)
    rw [harrived]
    decide

end Bluesafe.Api
