import Bluesafe.Api.Settlements
import Bluesafe.Spec.TouchAgreement
import Bluesafe.Async.Keeps

/-!
# The life cycle of a settlement

Two writers change the rows: the touches of the ledger stream, which leave archived rows
alone, and the patches, whose guard looks at a status only when the body has one. So the
status of a row never goes back and `confirmedAt` is written once, but the financial columns
of an archived row can still be patched (`archived_row_patched`). Where no patch does that, an
archived row stays as it is (`settlement_life_cycle`).

## Key results

- `settlements_serve`: what a call does to the settlements
- `settlementsSeqStep_cases`: what one message or patch does to them
- `rowStep_of_step`: what happens to a row in one step
- `settlement_life_cycle`: runs
-/

namespace Bluesafe.Api

open Bluesafe.Ops (Time Contract)
open Async Transition

/-! ## What a call does to the settlements -/

/-- Settlements are written by the touch of a ledger, by a patch, and by nothing else. -/
theorem settlements_perform (rt : Runtime) (op : Call) (c : Choice) (s : Store) :
    (perform rt op c s).2.settlements = s.settlements ∨
    (∃ p, op = .touchSettlementsOnLedgerClose p ∧
      (perform rt op c s).2.settlements = (s.touchSettlements p).1) ∨
    ∃ row, op = .saveSettlement row ∧ (perform rt op c s).2.settlements = s.settlements.set row := by
  cases op with
  | touchSettlementsOnLedgerClose p => exact .inr (.inl ⟨p, rfl, rfl⟩)
  | saveSettlement row => exact .inr (.inr ⟨row, rfl, rfl⟩)
  | _ => exact .inl rfl

/-- Touches and saves change the settlements, if they take effect. -/
theorem settlements_serve (rt : Runtime) (op : calls.Op) (c : Choice) (s : Store) :
    (serve rt op c s).2.settlements = s.settlements ∨
    (∃ p, op = .inr (.touchSettlementsOnLedgerClose p) ∧ c.effective = true ∧
      (serve rt op c s).2.settlements = (s.touchSettlements p).1) ∨
    ∃ row, op = .inr (.saveSettlement row) ∧ c.effective = true ∧
      (serve rt op c s).2.settlements = s.settlements.set row := by
  cases op with
  | inl op => exact .inl rfl
  | inr op =>
    rw [serve_inr]
    by_cases heff : c.effective = true
    · rw [if_pos heff]
      rcases settlements_perform rt op c s with heq | ⟨p, rfl, heq⟩ | ⟨row, rfl, heq⟩
      · exact .inl heq
      · exact .inr (.inl ⟨p, rfl, heff, heq⟩)
      · exact .inr (.inr ⟨row, rfl, heff, heq⟩)
    · rw [if_neg heff]
      exact .inl rfl

/-! ## Rows -/

/-- The place of a status in the life cycle. -/
def SettlementStatus.rank : SettlementStatus → Nat
  | collecting => 0
  | accrued => 1
  | confirmed => 2
  | archived => 3

/-- A confirmed row has `confirmedAt`, and before that it has none. -/
structure RowOk (r : SettlementRecord) : Prop where
  confirmed : r.status = .confirmed → r.confirmedAt ≠ none
  unconfirmed : r.status = .collecting ∨ r.status = .accrued → r.confirmedAt = none

/-- The columns that an archived row must keep are the same. -/
structure SameColumns (r r' : SettlementRecord) : Prop where
  status : r'.status = r.status
  amountMinor : r'.amountMinor = r.amountMinor
  currencyCode : r'.currencyCode = r.currencyCode
  batchId : r'.batchId = r.batchId
  ledgerCloseCount : r'.ledgerCloseCount = r.ledgerCloseCount
  lastLedgerIndex : r'.lastLedgerIndex = r.lastLedgerIndex

/-- What may happen to a row: its status does not go back, `confirmedAt` is set when the row
    becomes confirmed and is kept, and an archived row is kept. -/
structure RowStep (r r' : SettlementRecord) : Prop where
  rank : r.status.rank ≤ r'.status.rank
  confirmedAt : r.confirmedAt ≠ none → r'.confirmedAt = r.confirmedAt
  confirms : r.confirmedAt = none →
    (r'.confirmedAt ≠ none ↔ r.status ≠ .confirmed ∧ r'.status = .confirmed)
  archived : r.status = .archived → SameColumns r r'

theorem SameColumns.refl (r : SettlementRecord) : SameColumns r r := ⟨rfl, rfl, rfl, rfl, rfl, rfl⟩

theorem SameColumns.trans {r r' r'' : SettlementRecord} (h : SameColumns r r') (h' : SameColumns r' r'') :
    SameColumns r r'' :=
  ⟨h'.status.trans h.status, h'.amountMinor.trans h.amountMinor, h'.currencyCode.trans h.currencyCode,
    h'.batchId.trans h.batchId, h'.ledgerCloseCount.trans h.ledgerCloseCount,
    h'.lastLedgerIndex.trans h.lastLedgerIndex⟩

theorem RowStep.refl (r : SettlementRecord) : RowStep r r :=
  ⟨Nat.le_refl _, fun _ => rfl,
    fun hnone => ⟨fun hsome => absurd hnone hsome, fun hstatus => absurd hstatus.2 hstatus.1⟩,
    fun _ => .refl r⟩

/-! ## A patched row -/

section Patched

variable {r : SettlementRecord} {body : SettlementPatch} {t : Time}

/-- A patch that passes the guard does not go back. -/
theorem transition_of_not_rejected (h : body.rejected r = none) :
    body.nextStatus r = r.status ∨
      settlementTransitionAllowed r.status (body.nextStatus r) = true := by
  unfold SettlementPatch.rejected at h
  unfold SettlementPatch.nextStatus
  cases hstatus : body.status with
  | none => exact .inl rfl
  | some next =>
    rw [hstatus] at h
    simp only [Option.map_some, Option.filter_eq_none_iff, Option.some.injEq, forall_eq',
      Bool.not_eq_true', Bool.not_eq_false] at h
    exact .inr h

/-- An allowed transition does not go back. -/
theorem rank_le_of_allowed {old new : SettlementStatus} (h : settlementTransitionAllowed old new = true) :
    old.rank ≤ new.rank := by
  revert h
  cases old <;> cases new <;> decide

/-- So a patch that is accepted does not. -/
theorem rank_patched (h : body.rejected r = none) : r.status.rank ≤ (r.patched body t).status.rank := by
  show r.status.rank ≤ (body.nextStatus r).rank
  rcases transition_of_not_rejected h with heq | hallowed
  · rw [heq]
  · exact rank_le_of_allowed hallowed

/-- An archived row stays archived. -/
theorem status_patched_archived (h : body.rejected r = none) (harch : r.status = .archived) :
    (r.patched body t).status = .archived := by
  have hrank := rank_patched (t := t) h
  rw [harch] at hrank
  revert hrank
  cases (r.patched body t).status <;> decide

/-- A patch that changes no financial column keeps them. -/
theorem sameColumns_patched (h : body.rejected r = none) (harch : r.status = .archived)
    (hfin : body.financialChanged r = false) : SameColumns r (r.patched body t) := by
  -- what is not changed is left out, or named with the value it has
  simp only [SettlementPatch.financialChanged, Bool.or_eq_false_iff] at hfin
  obtain ⟨⟨hamount, hcurrency⟩, hbatch⟩ := hfin
  refine ⟨(status_patched_archived h harch).trans harch.symm, ?_, ?_, ?_, rfl, rfl⟩
  · show body.amountMinor.or r.amountMinor = r.amountMinor
    cases hb : body.amountMinor with
    | none => rfl
    | some n =>
      rw [hb] at hamount
      simpa using hamount
  · show body.currencyCode.getD r.currencyCode = r.currencyCode
    cases hb : body.currencyCode with
    | none => rfl
    | some code =>
      rw [hb] at hcurrency
      simpa using hcurrency
  · show body.batchId.or r.batchId = r.batchId
    cases hb : body.batchId with
    | none => rfl
    | some id =>
      rw [hb] at hbatch
      simpa using hbatch

/-- The time of a confirmation is not changed. -/
theorem confirmedAt_patched_of_ne (h : r.confirmedAt ≠ none) :
    (r.patched body t).confirmedAt = r.confirmedAt := by
  show (if body.nextStatus r = .confirmed ∧ r.confirmedAt = none then some t else r.confirmedAt) = _
  rw [if_neg fun hc => h hc.2]

/-- It is set by the patch that confirms. -/
theorem confirmedAt_patched_of_none (h : r.confirmedAt = none) :
    (r.patched body t).confirmedAt ≠ none ↔ (r.patched body t).status = .confirmed := by
  show (if body.nextStatus r = .confirmed ∧ r.confirmedAt = none then some t else r.confirmedAt) ≠ none ↔
    body.nextStatus r = .confirmed
  by_cases hnext : body.nextStatus r = .confirmed
  · simp [hnext, h]
  · simp [hnext, h]

/-- A patch is a step of the life cycle. -/
theorem RowStep.patched (hr : RowOk r) (h : body.rejected r = none)
    (hfin : r.status = .archived → body.financialChanged r = false) :
    RowStep r (r.patched body t) := by
  refine ⟨rank_patched h, confirmedAt_patched_of_ne, fun hnone => ?_, fun harch => ?_⟩
  · rw [confirmedAt_patched_of_none hnone]
    constructor
    · exact fun hconf => ⟨fun hold => hr.confirmed hold hnone, hconf⟩
    · exact fun hconf => hconf.2
  · exact sameColumns_patched h harch (hfin harch)

end Patched

/-! ## Touched rows -/

/-- The row after any number of touches: an archived one is as before. -/
structure TouchedRow (r r' : SettlementRecord) : Prop where
  status : r'.status = r.status
  confirmedAt : r'.confirmedAt = r.confirmedAt
  archived : r.status = .archived → r' = r

theorem TouchedRow.refl (r : SettlementRecord) : TouchedRow r r := ⟨rfl, rfl, fun _ => rfl⟩

theorem TouchedRow.trans {r r' r'' : SettlementRecord} (h : TouchedRow r r') (h' : TouchedRow r' r'') :
    TouchedRow r r'' := by
  refine ⟨h'.status.trans h.status, h'.confirmedAt.trans h.confirmedAt, fun harch => ?_⟩
  rw [h'.archived (h.status.trans harch), h.archived harch]

/-- So is the touch of a ledger. -/
theorem TouchedRow.rowStep {r r' : SettlementRecord} (h : TouchedRow r r') : RowStep r r' := by
  refine ⟨?_, fun _ => h.confirmedAt, fun hnone => ?_, fun harch => ?_⟩
  · rw [h.status]
  · rw [h.confirmedAt, h.status]
    exact ⟨fun hsome => absurd hnone hsome, fun hstatus => absurd hstatus.2 hstatus.1⟩
  · rw [h.archived harch]
    exact .refl r

/-- The table after any number of touches: new rows are collecting. -/
structure TouchedTable (t t' : Table SettlementRecord.id) : Prop where
  rows : ∀ id r, t.get? id = some r → ∃ r', t'.get? id = some r' ∧ TouchedRow r r'
  fresh : ∀ id r, t.get? id = none → t'.get? id = some r → r.status = .collecting ∧ r.confirmedAt = none

theorem TouchedTable.refl (t : Table SettlementRecord.id) : TouchedTable t t := by
  refine ⟨fun _ r h => ⟨r, h, .refl r⟩, fun id r hnone hsome => ?_⟩
  rw [hnone] at hsome
  cases hsome

theorem TouchedTable.trans {t t' t'' : Table SettlementRecord.id} (h : TouchedTable t t')
    (h' : TouchedTable t' t'') : TouchedTable t t'' := by
  constructor
  · intro id r hget
    obtain ⟨r', hget', hrow⟩ := h.rows id r hget
    obtain ⟨r'', hget'', hrow'⟩ := h'.rows id r' hget'
    exact ⟨r'', hget'', hrow.trans hrow'⟩
  · intro id r'' hnone hget''
    -- the row is new in the first part, or in the second
    cases hget' : t'.get? id with
    | none => exact h'.fresh id r'' hget' hget''
    | some r' =>
      obtain ⟨r, hget, hrow⟩ := h'.rows id r' hget'
      rw [hget''] at hget
      cases hget
      have hfresh := h.fresh id r' hnone hget'
      exact ⟨hrow.status.trans hfresh.1, hrow.confirmedAt.trans hfresh.2⟩

/-- A row is set: a new one, or one after a touch. -/
theorem TouchedTable.set {t : Table SettlementRecord.id} {r' : SettlementRecord}
    (h : ∀ r, t.get? r'.id = some r → TouchedRow r r')
    (hfresh : t.get? r'.id = none → r'.status = .collecting ∧ r'.confirmedAt = none) :
    TouchedTable t (t.set r') := by
  constructor
  -- the row of the key is touched, and the others are not
  · intro id r hget
    rw [Table.get?_set]
    split
    · rename_i hid
      subst hid
      exact ⟨r', rfl, h r hget⟩
    · exact ⟨r, hget, .refl r⟩
  -- the one row that may be new is the one that was set
  · intro id r hnone hget
    rw [Table.get?_set] at hget
    split at hget
    · rename_i hid
      subst hid
      cases hget
      exact hfresh hnone
    · rw [hnone] at hget
      cases hget

/-- The touch of one contract changes counters only, or adds its row. -/
theorem touchedTable_touchOne (p : TouchParams) (t : Table SettlementRecord.id) (n : Nat) (c : Contract) :
    TouchedTable t (touchOne p (t, n) c).1 := by
  -- a new row, an archived one, or one that is touched
  rcases touchOne_cases p t n c with ⟨hget, heq⟩ | ⟨r, -, -, heq⟩ | ⟨r, hget, harch, heq⟩
  · rw [heq]
    refine .set (fun r hr => ?_) fun _ => ⟨rfl, rfl⟩
    have hid : (freshSettlement (p.idOf c.id) c.id p).id = p.idOf c.id := rfl
    rw [hid, hget] at hr
    cases hr
  · rw [heq]
    exact .refl t
  · rw [heq]
    have hid : (r.touched p).id = p.idOf c.id := (Table.key_of_get? hget : r.id = p.idOf c.id)
    refine .set (fun r' hr' => ?_) fun hnone => ?_
    · rw [hid, hget] at hr'
      cases hr'
      exact ⟨rfl, rfl, fun h => absurd h harch⟩
    · rw [hid, hget] at hnone
      cases hnone

/-- So does the touch of all contracts. -/
theorem touchedTable_foldl (p : TouchParams) (cs : List Contract) (acc : Table SettlementRecord.id × Nat) :
    TouchedTable acc.1 (cs.foldl (touchOne p) acc).1 := by
  induction cs generalizing acc with
  | nil => exact .refl _
  | cons c cs ih => exact (touchedTable_touchOne p acc.1 acc.2 c).trans (ih (touchOne p acc c))

/-! ## One request -/

section Requests

variable {config : Config} {settings : SettlementSettings}

/-- The call saves a settlement. -/
def savesSettlement : calls.Op → Bool
  | .inr (.saveSettlement _) => true
  | _ => false

/-- A program of `Bluesafe.Ops` does not. -/
theorem ofOps_only {α : Type} (p : Ops.OpsM α) :
    Only (fun op : calls.Op => savesSettlement op = false) (ofOps p) :=
  .inl (.of_forall (fun _ => rfl) p)

/-- The handlers of the stream do not save settlements. -/
theorem handleMessage_only (touchEnabled : Bool) (msg : Message) :
    Only (fun op : calls.Op => savesSettlement op = false) (handleMessage touchEnabled msg) := by
  cases msg with
  | transaction stream throttled => exact ofOps_only _
  | ledgerClosed stream =>
    refine .bind (ofOps_only _) fun inserted => ?_
    refine .ite (.bind (ofOps_only _) fun _ => ?_) .pure
    unfold afterSettlementLedgerClosedEvent
    refine .ite ?_ .pure
    refine .bind ?_ fun ym => .bind (ofOps_only _) fun now => .bind (.call rfl) fun n => ofOps_only _
    unfold calendarMonthFromLedgerStream
    split
    · exact .pure
    · exact .bind (ofOps_only _) fun _ => .pure

/-- A message only touches settlements. -/
theorem message_keeps (touchEnabled : Bool) (msg : Message) (s : Store) :
    Keeps (world config.runtime) (fun g => TouchedTable s.settlements g.2.settlements)
      (handleMessage touchEnabled msg) fun _ => True := by
  refine .of_only (handleMessage_only touchEnabled msg) fun op c l s' hop hs' _ => ?_
  show TouchedTable s.settlements (serve config.runtime op c s').2.settlements
  rcases settlements_serve config.runtime op c s' with heq | ⟨p, -, -, heq⟩ | ⟨row, rfl, -, -⟩
  · rw [heq]
    exact hs'
  · rw [heq]
    exact hs'.trans (touchedTable_foldl p _ (s'.settlements, 0))
  · cases hop

/-- The caller passes the guards of the route. -/
def patchAdmitted (config : Config) (caller : Caller) : Bool :=
  (Ops.blockAuditorWriteOperations config.ops caller.auth).isNone &&
    (Ops.requireRoles config.ops [.operator] caller.auth).isNone &&
    (requireOperatorScopes config .settlements caller).isNone

/-- What a patch does: nothing, or the row it has read is patched. -/
def PatchDone (config : Config) (caller : Caller) (settlementId : String) (body : SettlementPatch)
    (s s' : Store) : Prop :=
  s'.settlements = s.settlements ∨
    patchAdmitted config caller = true ∧ ∃ r t, s.settlements.get? settlementId = some r ∧
      body.rejected r = none ∧ s'.settlements = s.settlements.set (r.patched body t)

/-- The call leaves the settlements alone. -/
def keepsSettlements : calls.Op → Bool
  | .inr (.saveSettlement _) => false
  | .inr (.touchSettlementsOnLedgerClose _) => false
  | _ => true

/-- A call that writes no settlement keeps the table. -/
theorem keepsSettlements_serve {op : calls.Op} (h : keepsSettlements op = true) (c : Choice) (s : Store) :
    (serve config.runtime op c s).2.settlements = s.settlements := by
  rcases settlements_serve config.runtime op c s with heq | ⟨p, rfl, -, -⟩ | ⟨row, rfl, -, -⟩
  · exact heq
  · cases h
  · cases h

/-- Programs that leave the settlements alone. -/
theorem keepsSettlements_toWp {α : Type} {p : ApiM α} (hp : Only (fun op : calls.Op => keepsSettlements op = true) p)
    {Q : Store → Prop} {s : Store} (hQ : ∀ s', s'.settlements = s.settlements → Q s') (l : ApiLog) :
    wp (seqSpec (world config.runtime)) p (fun _ g => Q g.2) (fun _ g => Q g.2) (l, s) := by
  have hkeeps : Keeps (world config.runtime) (fun g => g.2.settlements = s.settlements) p fun _ => True := by
    refine .of_only hp fun op c l s' hop hs' _ => ?_
    exact (keepsSettlements_serve hop c s').trans hs'
  exact wp_mono _ _ (seqSpec_mono _) (fun _ g h => hQ g.2 h.1) (fun _ g h => hQ g.2 h) (hkeeps.toWp rfl)

/-- The handlers of the book write none. -/
theorem ofOps_keepsSettlements {α : Type} (p : Ops.OpsM α) :
    Only (fun op : calls.Op => keepsSettlements op = true) (ofOps p) :=
  .inl (.of_forall (fun _ => rfl) p)

/-- Announcing a patch writes none. -/
theorem announcePatch_keepsSettlements (autoNotify : Bool) (caller : Caller) (settlementId : String)
    (body : SettlementPatch) (s updated : SettlementRecord) :
    Only (fun op : calls.Op => keepsSettlements op = true)
      (announcePatch autoNotify caller settlementId body s updated) := by
  have hops : ∀ {α : Type} (p : Ops.OpsM α), Only (fun op : calls.Op => keepsSettlements op = true) (ofOps p) :=
    ofOps_keepsSettlements
  refine .bind (hops _) fun _ => .bind (.ite (hops _) .pure) fun _ => ?_
  refine .bind (.ite (.bind (hops _) fun _ => hops _) .pure) fun _ => ?_
  exact .bind (.ite (hops _) .pure) fun _ => .bind (.ite (hops _) .pure) fun _ => .pure

/-- A patch that is stored replaces the row it was checked against. -/
theorem storePatch_done {caller : Caller} {settlementId : String} {body : SettlementPatch}
    {r : SettlementRecord} {s : Store} (hadmitted : patchAdmitted config caller = true)
    (hget : s.settlements.get? settlementId = some r) (hnext : body.rejected r = none)
    (autoNotify : Bool) (l : ApiLog) :
    wp (seqSpec (world config.runtime)) (storePatch autoNotify caller settlementId body r)
      (fun _ g => PatchDone config caller settlementId body s g.2)
      (fun _ g => PatchDone config caller settlementId body s g.2) (l, s) := by
  unfold storePatch
  rw [wp_bind]
  refine wp_mono _ _ (seqSpec_mono _) (fun t g hg => ?_) (fun _ _ h => .inl h)
    (keepsSettlements_toWp (ofOps_keepsSettlements Ops.nowIso) (s := s) (fun s' h => h) l)
  obtain ⟨l', s₁⟩ := g
  dsimp only at hg ⊢
  rw [wp_bind]
  -- the save is rejected without effect, or the patched row is stored
  have hsave : ∀ c, PatchDone config caller settlementId body s
      (serve config.runtime (.inr (.saveSettlement (r.patched body t))) c s₁).2 := by
    intro c
    rcases settlements_serve config.runtime (.inr (.saveSettlement (r.patched body t))) c s₁ with
      heq | ⟨p, hop, -, -⟩ | ⟨row, hop, -, heq⟩
    · exact .inl (heq.trans hg)
    · cases hop
    · cases hop
      rw [hg] at heq
      exact .inr ⟨hadmitted, r, t, hget, hnext, heq⟩
  refine wp_call (fun c a _ _ => ?_) fun c e _ _ => hsave c
  refine keepsSettlements_toWp (announcePatch_keepsSettlements _ _ _ _ _ _) (fun s' hs' => ?_) _
  have hdone := hsave c
  unfold PatchDone at hdone ⊢
  rw [hs']
  exact hdone

/-- A read that is answered leaves the store alone. -/
theorem getSettlement_answer {settlementId : String} {c : Choice} {s : Store}
    {found : Option SettlementRecord}
    (h : (serve config.runtime (.inr (.getSettlement settlementId)) c s).1 = .ok found) :
    found = s.settlements.get? settlementId ∧
      (serve config.runtime (.inr (.getSettlement settlementId)) c s).2 = s := by
  obtain ⟨hanswer, hstore⟩ := answer_inr h
  exact ⟨hanswer.symm, hstore⟩

/-- A request for a patch stores it, or changes nothing. -/
theorem patch_done (caller : Caller) (settlementId : String) (body : SettlementPatch) (autoNotify : Bool)
    (l : ApiLog) (s : Store) :
    wp (seqSpec (world config.runtime)) (patchSettlementStatus config autoNotify caller settlementId body)
      (fun _ g => PatchDone config caller settlementId body s g.2)
      (fun _ g => PatchDone config caller settlementId body s g.2) (l, s) := by
  unfold patchSettlementStatus operatorRoute writeRoute route
  -- the three guards, and then the row the patch is for
  split
  · exact .inl rfl
  · rename_i hauditor
    split
    · exact .inl rfl
    · rename_i hroles
      split
      · exact .inl rfl
      · rename_i hscopes
        have hadmitted : patchAdmitted config caller = true := by
          simp [patchAdmitted, hauditor, hroles, hscopes]
        rw [wp_bind]
        refine wp_call (fun c found _ hfound => ?_) fun c e _ _ => .inl (keepsSettlements_serve rfl c s)
        obtain ⟨rfl, hstore⟩ := getSettlement_answer hfound
        show wp _ _ _ _ (_, (serve config.runtime (.inr (.getSettlement settlementId)) c s).2)
        rw [hstore]
        split
        · exact .inl rfl
        · rename_i r hget
          split
          · exact .inl rfl
          -- a transition that is allowed
          · rename_i hnext
            exact storePatch_done hadmitted hget hnext autoNotify _

/-- What a request does to the settlements: a message touches them, a patch writes one row. -/
theorem settlementsSeqStep_cases {s s' : Store} {a : SettlementRequest × List Choice}
    (h : settlementsSeqStep config settings s a = some s') :
    (∃ msg, a.1 = .message msg ∧ TouchedTable s.settlements s'.settlements) ∨
    ∃ caller settlementId body, a.1 = .patch caller settlementId body ∧
      PatchDone config caller settlementId body s s' := by
  obtain ⟨req, cs⟩ := a
  cases req with
  | message msg =>
    -- a message touches rows only
    refine .inl ⟨msg, rfl, ?_⟩
    have hkeeps : Keeps (world config.runtime) (fun g => TouchedTable s.settlements g.2.settlements)
        (handleSettlement config settings (.message msg)) fun _ => True :=
      .map (message_keeps settings.touchEnabled msg s)
    exact hkeeps.seqStep (.refl _) h
  -- a patch is one request, from its guards to its reply
  | patch caller settlementId body =>
    refine .inr ⟨caller, settlementId, body, rfl, ?_⟩
    refine seqStep_sound (Q := fun g => PatchDone config caller settlementId body s g.2) ?_ h
    show wp _ (some <$> patchSettlementStatus config _ caller settlementId body) _ _ _
    rw [wp_map]
    exact patch_done caller settlementId body settings.autoNotifyOnConfirmed [] s

end Requests

/-! ## Runs -/

section Runs

variable {config : Config} {settings : SettlementSettings}

/-- A patch of an archived row that is not refused leaves its financial columns alone. -/
def SparesArchived (config : Config) (m : Move Store (SettlementRequest × List Choice)) : Prop :=
  ∀ caller settlementId body, m.label.1 = .patch caller settlementId body →
    patchAdmitted config caller = true →
    ∀ r, m.before.settlements.get? settlementId = some r → r.status = .archived →
      body.rejected r = none → body.financialChanged r = false

/-- What may happen to a row while `req` is handled. Only a patch of the row that asks for it
    changes the status. -/
structure RowMove (req : SettlementRequest) (r r' : SettlementRecord) : Prop extends RowStep r r' where
  patched : r'.status ≠ r.status → ∃ caller body,
    req = .patch caller r.id body ∧ body.status.map PatchedStatus.toStatus = some r'.status

/-- What may happen to a row over any number of requests. -/
structure RowRun (r r' : SettlementRecord) : Prop where
  rank : r.status.rank ≤ r'.status.rank
  confirmedAt : r.confirmedAt ≠ none → r'.confirmedAt = r.confirmedAt
  archived : r.status = .archived → SameColumns r r'

theorem RowRun.refl (r : SettlementRecord) : RowRun r r := ⟨Nat.le_refl _, fun _ => rfl, fun _ => .refl r⟩

/-- The way of a row goes on step by step. -/
theorem RowRun.step {r r' r'' : SettlementRecord} (h : RowRun r r') (h' : RowStep r' r'') : RowRun r r'' := by
  refine ⟨h.rank.trans h'.rank, fun hsome => ?_, fun harch => ?_⟩
  · have hkept := h.confirmedAt hsome
    rw [← hkept]
    rw [← hkept] at hsome
    exact h'.confirmedAt hsome
  · have hcols := h.archived harch
    exact hcols.trans (h'.archived (hcols.status.trans harch))

/-- What a request does to the rows. -/
structure TableMove (req : SettlementRequest) (t t' : Table SettlementRecord.id) : Prop where
  rows : ∀ id r, t.get? id = some r → ∃ r', t'.get? id = some r' ∧ RowMove req r r'
  fresh : ∀ id r, t.get? id = none → t'.get? id = some r → r.status = .collecting ∧ r.confirmedAt = none

theorem TableMove.refl (req : SettlementRequest) (t : Table SettlementRecord.id) : TableMove req t t := by
  refine ⟨fun _ r h => ⟨r, h, .refl r, fun hne => absurd rfl hne⟩, fun id r hnone hsome => ?_⟩
  rw [hnone] at hsome
  cases hsome

/-- The touch of a ledger is a move of the table. -/
theorem TouchedTable.move {t t' : Table SettlementRecord.id} (h : TouchedTable t t')
    (req : SettlementRequest) : TableMove req t t' := by
  refine ⟨fun id r hget => ?_, h.fresh⟩
  obtain ⟨r', hget', hrow⟩ := h.rows id r hget
  exact ⟨r', hget', hrow.rowStep, fun hne => absurd hrow.status hne⟩

/-- A change of status is one that the body asks for. -/
theorem status_patched_ne {r : SettlementRecord} {body : SettlementPatch} {t : Time}
    (h : (r.patched body t).status ≠ r.status) :
    body.status.map PatchedStatus.toStatus = some (r.patched body t).status := by
  show _ = some (body.nextStatus r)
  have hne : body.nextStatus r ≠ r.status := h
  unfold SettlementPatch.nextStatus at hne ⊢
  cases hstatus : body.status with
  | none =>
    rw [hstatus] at hne
    exact absurd rfl hne
  | some next => rfl

/-- So is a patch. -/
theorem PatchDone.move {caller : Caller} {settlementId : String} {body : SettlementPatch}
    {s s' : Store} (h : PatchDone config caller settlementId body s s')
    (hok : ∀ r ∈ s.settlements.rows, RowOk r)
    (hspare : patchAdmitted config caller = true →
      ∀ r, s.settlements.get? settlementId = some r → r.status = .archived →
        body.rejected r = none → body.financialChanged r = false) :
    TableMove (.patch caller settlementId body) s.settlements s'.settlements := by
  rcases h with heq | ⟨hadmitted, r, t, hget, hnext, heq⟩
  · rw [heq]
    exact .refl _ _
  · have hid : (r.patched body t).id = settlementId := (Table.key_of_get? hget : r.id = settlementId)
    rw [heq]
    constructor
    · intro id r₁ hget₁
      rw [Table.get?_set, hid]
      split
      · -- the row of the patch, or another one
        rename_i heqid
        subst heqid
        rw [hget] at hget₁
        cases hget₁
        refine ⟨_, rfl, .patched (hok r (Table.mem_of_get? hget)) hnext fun harch => ?_, fun hne => ?_⟩
        · exact hspare hadmitted r hget harch hnext
        · rw [show r.id = id from hid]
          exact ⟨caller, body, rfl, status_patched_ne hne⟩
      · exact ⟨r₁, hget₁, .refl r₁, fun hne => absurd rfl hne⟩
    -- no identifier is new, as the row of the patch was there
    · intro id r₁ hnone hget₁
      rw [Table.get?_set, hid] at hget₁
      split at hget₁
      · rename_i heqid
        rw [heqid, hget] at hnone
        cases hnone
      · rw [hnone] at hget₁
        cases hget₁

/-- A step of the system. -/
theorem tableMove_of_step {m : Move Store (SettlementRequest × List Choice)}
    (h : settlementsSeqStep config settings m.before m.label = some m.after)
    (hspare : SparesArchived config m) (hok : ∀ r ∈ m.before.settlements.rows, RowOk r) :
    TableMove m.label.1 m.before.settlements m.after.settlements := by
  rcases settlementsSeqStep_cases h with ⟨msg, hreq, htouched⟩ | ⟨caller, id, body, hreq, hdone⟩
  · exact htouched.move _
  · rw [hreq]
    exact hdone.move hok (hspare caller id body hreq)

/-- Confirmed rows have `confirmedAt`, and no earlier ones. -/
theorem RowOk.step {r r' : SettlementRecord} (hr : RowOk r) (h : RowStep r r') : RowOk r' := by
  by_cases hnone : r.confirmedAt = none
  · have hconfirms := h.confirms hnone
    refine ⟨fun hconf => ?_, fun hearly => ?_⟩
    · exact hconfirms.mpr ⟨fun hold => hr.confirmed hold hnone, hconf⟩
    · by_contra hsome
      have hconf := (hconfirms.mp hsome).2
      rw [hconf] at hearly
      rcases hearly with hearly | hearly <;> cases hearly
  · have hkept := h.confirmedAt hnone
    refine ⟨fun _ => hkept ▸ hnone, fun hearly => ?_⟩
    -- the row was confirmed or archived already
    exfalso
    -- a status before confirmed has one before it
    have hrank := h.rank
    have hbefore : r.status = .collecting ∨ r.status = .accrued := by
      revert hrank
      rcases hearly with hearly | hearly <;> rw [hearly] <;> cases r.status <;> decide
    exact hnone (hr.unconfirmed hbefore)

/-- A move keeps the rows in order. -/
theorem rowOk_of_tableMove {req : SettlementRequest} {t t' : Table SettlementRecord.id}
    (h : TableMove req t t') (hok : ∀ r ∈ t.rows, RowOk r) : ∀ r ∈ t'.rows, RowOk r := by
  intro r' hr'
  have hget' := Table.get?_of_mem hr'
  cases hget : t.get? r'.id with
  | none =>
    obtain ⟨hstatus, hnone⟩ := h.fresh _ r' hget hget'
    refine ⟨fun hconf => ?_, fun _ => hnone⟩
    rw [hstatus] at hconf
    cases hconf
  | some r =>
    obtain ⟨r'', hget'', hmove⟩ := h.rows _ r hget
    rw [hget'] at hget''
    cases hget''
    exact (hok r (Table.mem_of_get? hget)).step hmove.toRowStep

/-- The life cycle of the rows over a run: in each step, and from each step to the end. -/
structure LifeCycle (ms : List (Move Store (SettlementRequest × List Choice))) (s : Store) : Prop where
  moves : ∀ m ∈ ms, TableMove m.label.1 m.before.settlements m.after.settlements
  kept : ∀ m ∈ ms, ∀ id r, m.before.settlements.get? id = some r →
    ∃ r', s.settlements.get? id = some r' ∧ RowRun r r'
  ok : ∀ r ∈ s.settlements.rows, RowOk r

/-- Messages and patches one after the other, in any order: as long as no patch changes the
    financial columns of an archived row, the rows keep to their life cycle. -/
theorem settlement_life_cycle {s₀ s : Store} {ms : List (Move Store (SettlementRequest × List Choice))}
    (hnew : s₀.settlements.rows = []) (run : Run (settlementsSeqStep config settings) s₀ ms s)
    (hspare : ∀ m ∈ ms, SparesArchived config m) : LifeCycle ms s := by
  have hok₀ : ∀ r ∈ s₀.settlements.rows, RowOk r := by
    rw [hnew]
    simp
  have hstep : ∀ m : Move Store (SettlementRequest × List Choice),
      settlementsSeqStep config settings m.before m.label = some m.after → SparesArchived config m →
      (∀ r ∈ m.before.settlements.rows, RowOk r) → ∀ r ∈ m.after.settlements.rows, RowOk r :=
    fun m h hm hok => rowOk_of_tableMove (tableMove_of_step h hm hok) hok
  have hmoves : ∀ m ∈ ms, TableMove m.label.1 m.before.settlements m.after.settlements := by
    intro m hm
    exact tableMove_of_step (run.step_of_mem hm) (hspare m hm)
      (run.invariant_before (P := fun s => ∀ r ∈ s.settlements.rows, RowOk r) hspare hok₀ hstep hm)
  refine ⟨hmoves, fun m hm id r hget => ?_,
    run.invariant (P := fun s => ∀ r ∈ s.settlements.rows, RowOk r) hspare hok₀ hstep⟩
  -- no later move takes away what is known of the row
  refine run.kept (Q := fun s => ∃ r', s.settlements.get? id = some r' ∧ RowRun r r') ?_ hm ⟨r, hget, .refl r⟩
  rintro m' hm' ⟨r', hget', hrun⟩
  obtain ⟨r'', hget'', hmove⟩ := (hmoves m' hm').rows id r' hget'
  exact ⟨r'', hget'', hrun.step hmove.toRowStep⟩

end Runs

/-! ## Concrete runs -/

/-- A ledger of January 2000 has closed. -/
def ledgerOfJanuary (ledgerIndex : Int) : SettlementRequest :=
  .message (.ledgerClosed { ledgerIndex := ledgerIndex, ledgerTime := some 0 })

def januaryId : String := "stl_ctr_1_2000_1"

/-- The row of January 2000 gets a status. -/
def patchOfStatus (status : PatchedStatus) : SettlementRequest :=
  .patch openCaller januaryId
    { status := some status
      currencyCode_length := by intro t h; cases h
      batchId_length := by intro t h; cases h
      any_given := rfl }

/-- The row of January 2000 gets an amount. -/
def patchOfAmount (amountMinor : Nat) : SettlementRequest :=
  .patch openCaller januaryId
    { amountMinor := some amountMinor
      currencyCode_length := by intro t h; cases h
      batchId_length := by intro t h; cases h
      any_given := rfl }

def settlementLabels (s : Store) (reqs : List SettlementRequest) : List (SettlementRequest × List Choice) :=
  oracleLabels (world sampleRuntime) (handleSettlement (openConfig sampleRuntime) ⟨true, true⟩)
    (reqs.map fun req => (req, sampleEvidenceOracle "1" 0)) s

/-- The condition, as a check. -/
def sparesArchivedCheck (m : Move Store (SettlementRequest × List Choice)) : Bool :=
  match m.label.1 with
  | .message _ => true
  | .patch _ settlementId body =>
    (m.before.settlements.get? settlementId).all fun r =>
      decide (r.status ≠ .archived) || (body.rejected r).isSome || !body.financialChanged r

/-- The check of a move can be computed. -/
theorem sparesArchived_of_check {config : Config} {m : Move Store (SettlementRequest × List Choice)}
    (h : sparesArchivedCheck m = true) : SparesArchived config m := by
  intro caller settlementId body hreq _ r hget harch hnext
  unfold sparesArchivedCheck at h
  rw [hreq] at h
  dsimp only at h
  rw [hget] at h
  simpa [harch, hnext] using h

/-- The row of January 2000 has been archived with two ledgers and an amount. -/
def archivedInJanuary (s : Store) : Bool :=
  (s.settlements.get? januaryId).any fun r =>
    decide (r.status = .archived ∧ r.amountMinor = some 500 ∧ r.ledgerCloseCount = 2)

/-- A row is touched, priced, confirmed and archived, and later ledgers and a later price come
    for it. -/
theorem settlement_life_cycle_archived :
    ∃ ms s, Run (settlementsSeqStep (openConfig sampleRuntime) ⟨true, true⟩) (settledStore []) ms s ∧
      archivedInJanuary s = true ∧ LifeCycle ms s := by
  obtain ⟨ms, s, run, hp⟩ := exists_run_of_replay
    (settlementLabels (settledStore [])
      [ledgerOfJanuary 7, patchOfAmount 500, ledgerOfJanuary 8, patchOfStatus .confirmed,
        patchOfStatus .archived, ledgerOfJanuary 9, patchOfStatus .accrued])
    (fun r => r.1.all sparesArchivedCheck && archivedInJanuary r.2)
    (by decide +kernel : (replay (settlementsSeqStep (openConfig sampleRuntime) ⟨true, true⟩)
      (settledStore []) _ []).any _ = true)
  rw [Bool.and_eq_true, List.all_eq_true] at hp
  exact ⟨ms, s, run, hp.2,
    settlement_life_cycle rfl run fun m hm => sparesArchived_of_check (hp.1 m hm)⟩

/-- In some move the row of January is archived, and its amount changes. -/
def archivedRowPatched (r : List (Move Store (SettlementRequest × List Choice)) × Store) : Bool :=
  r.1.any fun m => (m.before.settlements.get? januaryId).any fun old =>
    (m.after.settlements.get? januaryId).any fun new =>
      decide (old.status = .archived ∧ new.amountMinor ≠ old.amountMinor)

/-- A patch without a status passes the guard, whatever the status of the row is. -/
theorem archived_row_patched :
    ¬ ∀ (config : Config) (settings : SettlementSettings) (s₀ s : Store)
      (ms : List (Move Store (SettlementRequest × List Choice))), s₀.settlements.rows = [] →
      Run (settlementsSeqStep config settings) s₀ ms s → LifeCycle ms s := by
  intro h
  obtain ⟨ms, s, run, hp⟩ := exists_run_of_replay
    (settlementLabels (settledStore []) [ledgerOfJanuary 7, patchOfStatus .archived, patchOfAmount 500])
    archivedRowPatched
    (by decide +kernel : (replay (settlementsSeqStep (openConfig sampleRuntime) ⟨true, true⟩)
      (settledStore []) _ []).any _ = true)
  simp only [archivedRowPatched, List.any_eq_true, Option.any_eq_true, decide_eq_true_eq] at hp
  obtain ⟨m, hm, old, hold, new, hnew, harch, hne⟩ := hp
  obtain ⟨r', hget, hmove⟩ := (h _ _ _ s ms rfl run).moves m hm |>.rows januaryId old hold
  rw [hnew] at hget
  cases hget
  exact hne (hmove.archived harch).amountMinor

end Bluesafe.Api
