import Bluesafe.Api.Subscribe
import Bluesafe.Spec.RowInvariant

/-!
# Ledger messages are ingested exactly once

Both handlers of the ledger stream insert a record of their message first and do what the
message asks for afterwards: the touch of the settlements, or the new status of a tracked
transaction. A message that is delivered again finds the record and is skipped. A call that
is rejected in between therefore loses the effect for good.

`Undisturbed` excludes exactly these rejections. Under it the record belongs to one handler
(`IngestInv.owner`), that handler does not fail (`IngestInv.clean`), and once it has
returned its effect has been applied once (`exactly_once_ingestion`), whatever else is
rejected, delivered again or interleaved.
-/

namespace Bluesafe.Api

open Async Transition
open Bluesafe.Ops (Time IngestionKey TransactionStream XrplTransaction OpsM writeAudit emitEvent
  notifyParties resolveExecution resolveLinkedDispute applyLiveTxStatus handleTransaction
  DisputeCase)

/-! ## What a handler has done -/

/-- The record of a message. -/
def Message.key : Message → Option IngestionKey
  | .ledgerClosed stream => some (ledgerKey stream.ledgerIndex)
  | .transaction stream _ => stream.accepted.map fun p => transactionKey p.2 p.1

/-- The handler has inserted the record. -/
def Inserted (l : ApiLog) (key : IngestionKey) : Prop :=
  (⟨.inl (.tryRecordXrplIngestionEvent key), .ok true⟩ : Event calls String) ∈ l

/-- The handler has touched the settlements for the ledger. -/
def Touched (l : ApiLog) (i : Int) : Prop :=
  ∃ (p : TouchParams) (n : Nat), p.ledgerIndex = i ∧
    (⟨.inr (.touchSettlementsOnLedgerClose p), .ok n⟩ : Event calls String) ∈ l

/-- The handler has read the tracked row of the hash. -/
def FoundTx (l : ApiLog) (hash : String) (row : XrplTransaction) : Prop :=
  (⟨.inl (.getXrplTx hash), .ok (some row)⟩ : Event calls String) ∈ l

/-- The handler has saved the row. -/
def SavedTx (l : ApiLog) (row : XrplTransaction) : Prop :=
  (⟨.inl (.saveXrplTx row), .ok ()⟩ : Event calls String) ∈ l

/-- The newest call was rejected. -/
def Rejected (e : String) (l : ApiLog) : Prop :=
  ∃ (op : calls.Op) (l' : ApiLog), l = ⟨op, .error e⟩ :: l'

/-- A record that a request has inserted stays its own. -/
theorem Inserted.mono {l l' : ApiLog} {key : IngestionKey} (h : Inserted l key) (hl : l <:+ l') :
    Inserted l' key := hl.mem h

/-- A touch is not undone. -/
theorem Touched.mono {l l' : ApiLog} {i : Int} (h : Touched l i) (hl : l <:+ l') : Touched l' i := by
  obtain ⟨p, n, hp, hmem⟩ := h
  exact ⟨p, n, hp, hl.mem hmem⟩

/-- A call of `Bluesafe.Ops` does not touch the settlements. -/
theorem touched_cons_inl {op : Ops.Call} {r : Except String op.Res} {l : ApiLog} {i : Int}
    (h : Touched ((⟨.inl op, r⟩ : Event calls String) :: l) i) : Touched l i := by
  obtain ⟨p, n, hp, hmem⟩ := h
  rcases List.mem_cons.mp hmem with heq | hmem
  · exact nomatch heq
  · exact ⟨p, n, hp, hmem⟩

/-! ## The handlers -/

/-- A handler inserts only the record of its own message, and touches the settlements only
    after that, at most once. -/
def ingestOk (msg : Message) (l : ApiLog) : calls.Op → Prop
  | .inl (.tryRecordXrplIngestionEvent key) => msg.key = some key
  | .inr (.touchSettlementsOnLedgerClose p) =>
    Inserted l (ledgerKey p.ledgerIndex) ∧ ¬ Touched l p.ledgerIndex
  | _ => True

/-- What a handler that has inserted its record has done when it returns. The last case of a
    transaction is a tracked row that is gone at the second read. -/
def Finished (touchEnabled : Bool) (msg : Message) (l : ApiLog) : Prop :=
  match msg with
  | .ledgerClosed stream => touchEnabled = true → Touched l stream.ledgerIndex
  | .transaction stream _ => ∃ hash i row, stream.accepted = some (hash, i) ∧ FoundTx l hash row ∧
      ((∃ tracked now, FoundTx l hash tracked ∧
          SavedTx l (tracked.reconciled (stream.asAnswer hash i) now)) ∨
        ∃ l', l = (⟨.inl (.getXrplTx hash), .ok none⟩ : Event calls String) :: l' ∧
          FoundTx l' hash row)

/-- Every call of the program is accepted, what it returns meets `R`, and it throws only the
    rejection of its newest call. -/
def Runs {α : Type} (msg : Message) (p : ApiM α) (R : α → ApiLog → Prop) (l : ApiLog) : Prop :=
  wp (monitor (ingestOk msg)) p R Rejected l

namespace Runs

variable {α β : Type} {msg : Message} {l : ApiLog}

theorem pure {a : α} {R : α → ApiLog → Prop} (h : R a l) : Runs msg (Pure.pure a) R l := h

/-- A weaker result, which may use that the log has grown. -/
theorem mono {p : ApiM α} {R R' : α → ApiLog → Prop} (hp : Runs msg p R l)
    (hR : ∀ a l', l <:+ l' → R a l' → R' a l') : Runs msg p R' l := by
  have hgrow := wp_monitor_grows (List.suffix_refl l) hp
  exact wp_mono _ _ (monitor_mono _) (fun a l' h => hR a l' h.2 h.1) (fun _ _ h => h.1) hgrow

theorem call {op : calls.Op} {R : calls.Res op → ApiLog → Prop} (hok : ingestOk msg l op)
    (hR : ∀ a, R a (⟨op, .ok a⟩ :: l)) : Runs msg (Async.call op) R l :=
  wp_monitor_call hok hR fun _ => ⟨op, l, rfl⟩

theorem bind {p : ApiM β} {f : β → ApiM α} {R : β → ApiLog → Prop} {Q : α → ApiLog → Prop}
    (hp : Runs msg p R l) (hf : ∀ b l', l <:+ l' → R b l' → Runs msg (f b) Q l') :
    Runs msg (p >>= f) Q l :=
  wp_monitor_bind hp hf

/-- A call of `Bluesafe.Ops`. -/
theorem opsCall {op : Ops.Call} {R : op.Res → ApiLog → Prop} (hok : ingestOk msg l (.inl op))
    (hR : ∀ a, R a ((⟨.inl op, .ok a⟩ : Event calls String) :: l)) :
    Runs msg (ofOps (Ops.invoke op)) R l := by
  rw [ofOps_invoke]
  exact call hok hR

end Runs

/-! ## Programs without a record -/

/-- The program neither records a message nor touches the settlements. -/
def Neutral {α : Type} (msg : Message) (p : OpsM α) (l : ApiLog) : Prop :=
  Runs msg (ofOps p) (fun _ l' => ∀ i, Touched l' i → Touched l i) l

namespace Neutral

variable {α β : Type} {msg : Message} {l : ApiLog}

theorem pure {a : α} : Neutral msg (Pure.pure a) l := fun _ h => h

theorem call {op : Ops.Call} (hop : ∀ key, op ≠ .tryRecordXrplIngestionEvent key) :
    Neutral msg (Ops.invoke op) l := by
  refine Runs.opsCall ?_ fun _ _ h => touched_cons_inl h
  cases op with
  | tryRecordXrplIngestionEvent key => exact absurd rfl (hop key)
  | _ => trivial

theorem bind {p : OpsM β} {f : β → OpsM α} (hp : Neutral msg p l)
    (hf : ∀ b l', Neutral msg (f b) l') : Neutral msg (p >>= f) l := by
  unfold Neutral ofOps
  rw [inl_bind]
  refine Runs.bind hp fun b l' _ htouch => ?_
  -- What was touched at the end was touched in between, and so at the start.
  exact Runs.mono (hf b l') fun _ _ _ h i hi => htouch i (h i hi)

end Neutral

section Neutral

variable {msg : Message}

/-- Audit entries neither record nor touch. -/
theorem writeAudit_neutral {entityType entityId action actorId : String}
    {before after metadata : Option Ops.JsonObject} {l : ApiLog} :
    Neutral msg (writeAudit entityType entityId action actorId before after metadata) l :=
  .bind (.call (by simp)) fun _ _ => .bind (.call (by simp)) fun _ _ => .call (by simp)

/-- Nor do events. -/
theorem emitEvent_neutral {eventType entityType entityId : String} {payload : Ops.JsonObject}
    {l : ApiLog} : Neutral msg (emitEvent eventType entityType entityId payload) l :=
  .bind (.call (by simp)) fun _ _ => .bind (.call (by simp)) fun _ _ =>
    .bind (.call (by simp)) fun _ _ => .call (by simp)

/-- Nor do notifications. -/
theorem notifyParties_neutral {contractId eventType : String} {payload : Ops.JsonObject}
    {l : ApiLog} : Neutral msg (notifyParties contractId eventType payload) l := by
  refine .bind (.call (by simp)) fun contract _ => ?_
  cases contract with
  | none => exact .pure
  | some c => exact .call (by simp)

/-- Nor does the dispute that is resolved. -/
theorem resolveExecution_neutral {dispute : DisputeCase} {tracked : XrplTransaction} {l : ApiLog} :
    Neutral msg (resolveExecution dispute tracked) l :=
  .bind (.call (by simp)) fun _ _ => .bind (.call (by simp)) fun _ _ =>
    .bind writeAudit_neutral fun _ _ => .bind emitEvent_neutral fun _ _ => notifyParties_neutral

/-- Nor does the look-up of this dispute. -/
theorem resolveLinkedDispute_neutral {tracked : XrplTransaction} {l : ApiLog} :
    Neutral msg (resolveLinkedDispute tracked) l := by
  unfold resolveLinkedDispute
  split
  · exact .pure
  · refine .bind (.call (by simp)) fun dispute _ => ?_
    cases dispute with
    | none => exact .pure
    | some d =>
      dsimp only
      split
      · exact resolveExecution_neutral
      · exact .pure

end Neutral

/-! ## The two handlers -/

/-- A handler that has inserted a record has done what its message asks for. -/
def Done (touchEnabled : Bool) (msg : Message) (l : ApiLog) : Prop :=
  ∀ key, Inserted l key → Finished touchEnabled msg l

/-- The clock touches nothing. -/
theorem nowIso_runs {msg : Message} {l : ApiLog} :
    Runs msg (ofOps Ops.nowIso) (fun _ l' => ∀ i, Touched l' i → Touched l i) l :=
  Neutral.call (by simp)

/-- The month is read off the message or off the clock. -/
theorem calendarMonthFromLedgerStream_runs {msg : Message} {stream : LedgerStream} {l : ApiLog} :
    Runs msg (calendarMonthFromLedgerStream stream) (fun _ l' => ∀ i, Touched l' i → Touched l i)
      l := by
  unfold calendarMonthFromLedgerStream
  split
  · exact Runs.pure fun _ h => h
  · exact Runs.bind nowIso_runs fun _ _ _ h => Runs.pure h

/-- The settlements are touched once, after the record was inserted. -/
theorem afterSettlementLedgerClosedEvent_runs {touchEnabled : Bool} {stream : LedgerStream}
    {l : ApiLog} (hins : Inserted l (ledgerKey stream.ledgerIndex))
    (hno : ¬ Touched l stream.ledgerIndex) :
    Runs (.ledgerClosed stream) (afterSettlementLedgerClosedEvent stream touchEnabled)
      (fun _ l' => touchEnabled = true → Touched l' stream.ledgerIndex) l := by
  unfold afterSettlementLedgerClosedEvent
  cases touchEnabled with
  | false => exact Runs.pure fun h => nomatch h
  | true =>
    refine Runs.bind calendarMonthFromLedgerStream_runs fun ym l₁ hl₁ h₁ => ?_
    refine Runs.bind nowIso_runs fun now l₂ hl₂ h₂ => ?_
    -- Nothing was touched while the clock was read, so this is the first touch.
    have hfirst : ¬ Touched l₂ stream.ledgerIndex := fun h => hno (h₁ _ (h₂ _ h))
    have htouch : Runs (.ledgerClosed stream)
        (invoke (.touchSettlementsOnLedgerClose ⟨ym.1, ym.2, stream.ledgerIndex, now⟩))
        (fun _ l' => Touched l' stream.ledgerIndex) l₂ :=
      Runs.call ⟨hins.mono (hl₁.trans hl₂), hfirst⟩ fun n => ⟨_, n, rfl, List.mem_cons_self⟩
    refine Runs.bind htouch fun n l₃ _ h₃ => ?_
    exact Runs.mono emitEvent_neutral fun _ l' hl' _ _ => h₃.mono hl'

/-- A closed ledger: at its end the record is inserted and the settlements are touched. -/
theorem handleLedgerClosed_runs (touchEnabled : Bool) (stream : LedgerStream) :
    Runs (.ledgerClosed stream) (handleLedgerClosed stream touchEnabled)
      (fun _ => Done touchEnabled (.ledgerClosed stream)) [] := by
  unfold handleLedgerClosed
  have hrecord : Runs (.ledgerClosed stream)
      (ofOps (Ops.tryRecordXrplIngestionEvent (ledgerKey stream.ledgerIndex)))
      (fun inserted l' => l' = [⟨.inl (.tryRecordXrplIngestionEvent (ledgerKey stream.ledgerIndex)),
        .ok inserted⟩]) [] :=
    Runs.opsCall rfl fun _ => rfl
  refine Runs.bind hrecord fun inserted l₁ _ hl₁ => ?_
  subst hl₁
  cases inserted with
  | false =>
    -- The record was there before: nothing is inserted, nothing is owed.
    refine Runs.pure fun key hkey => ?_
    simp [Inserted] at hkey
  | true =>
    refine Runs.bind emitEvent_neutral fun _ l₂ hl₂ h₂ => ?_
    have hins : Inserted l₂ (ledgerKey stream.ledgerIndex) := hl₂.mem (by simp)
    have hno : ¬ Touched l₂ stream.ledgerIndex := by
      intro h
      obtain ⟨p, n, -, hmem⟩ := h₂ _ h
      simp at hmem
    exact Runs.mono (afterSettlementLedgerClosedEvent_runs hins hno) fun _ _ _ h _ _ => h

/-- After the record of a transaction was inserted its status is applied, unless the tracked
    row is gone. -/
theorem applyLiveTxStatus_runs (touchEnabled : Bool) {stream : TransactionStream}
    {throttled : Bool} {hash : String} {i : Int} {row : XrplTransaction} {l : ApiLog} (haccepted : stream.accepted = some (hash, i))
    (hfound : FoundTx l hash row) :
    Runs (.transaction stream throttled)
      (ofOps (applyLiveTxStatus hash (stream.asAnswer hash i)))
      (fun _ l' => Finished touchEnabled (.transaction stream throttled) l') l := by
  unfold applyLiveTxStatus ofOps
  rw [inl_bind]
  have hread : Runs (.transaction stream throttled) (ofOps (Ops.getXrplTx hash))
      (fun answer l' => l' = (⟨.inl (.getXrplTx hash), .ok answer⟩ : Event calls String) :: l) l :=
    Runs.opsCall trivial fun _ => rfl
  refine Runs.bind hread fun answer l₁ hl₁ h₁ => ?_
  subst h₁
  cases answer with
  | none =>
    -- the row that was read a call ago is gone
    exact Runs.pure ⟨hash, i, row, haccepted, hl₁.mem hfound, .inr ⟨l, rfl, hfound⟩⟩
  | some tracked =>
    dsimp only
    rw [inl_bind]
    refine Runs.bind nowIso_runs fun now l₂ hl₂ _ => ?_
    rw [inl_bind]
    have hsave : Runs (.transaction stream throttled)
        (ofOps (Ops.saveXrplTx (tracked.reconciled (stream.asAnswer hash i) now)))
        (fun _ l' => SavedTx l' (tracked.reconciled (stream.asAnswer hash i) now)) l₂ :=
      Runs.opsCall trivial fun _ => List.mem_cons_self
    refine Runs.bind hsave fun _ l₃ hl₃ hsaved => ?_
    rw [inl_bind]
    refine Runs.bind resolveLinkedDispute_neutral fun _ l₄ hl₄ _ => ?_
    have hrow : FoundTx l₄ hash row := hl₄.mem (hl₃.mem (hl₂.mem (hl₁.mem hfound)))
    have htracked : FoundTx l₄ hash tracked := hl₄.mem (hl₃.mem (hl₂.mem List.mem_cons_self))
    exact Runs.pure ⟨hash, i, row, haccepted, hrow, .inl ⟨tracked, now, htracked, hl₄.mem hsaved⟩⟩

/-- A transaction: at its end the record is inserted and the answer is applied. -/
theorem handleTransaction_runs (touchEnabled : Bool) (stream : TransactionStream)
    (throttled : Bool) :
    Runs (.transaction stream throttled) (ofOps (handleTransaction stream throttled))
      (fun _ => Done touchEnabled (.transaction stream throttled)) [] := by
  have hnothing : ∀ {l : ApiLog}, (∀ key, ¬ Inserted l key) →
      Done touchEnabled (.transaction stream throttled) l :=
    fun h key hkey => absurd hkey (h key)
  unfold handleTransaction
  cases throttled with
  | true => exact Runs.pure (hnothing fun key hkey => by simp [Inserted] at hkey)
  | false =>
    cases haccepted : stream.accepted with
    | none => exact Runs.pure (hnothing fun key hkey => by simp [Inserted] at hkey)
    | some p =>
      obtain ⟨hash, i⟩ := p
      simp only [Bool.false_eq_true, if_false, ofOps]
      rw [inl_bind]
      have hread : Runs (.transaction stream false) (ofOps (Ops.getXrplTx hash))
          (fun answer l' => l' = [⟨.inl (.getXrplTx hash), .ok answer⟩]) [] :=
        Runs.opsCall trivial fun _ => rfl
      refine Runs.bind hread fun answer l₁ _ h₁ => ?_
      subst h₁
      cases answer with
      | none => exact Runs.pure (hnothing fun key hkey => by simp [Inserted] at hkey)
      | some row =>
        dsimp only
        rw [inl_bind]
        have hrecord : Runs (.transaction stream false)
            (ofOps (Ops.tryRecordXrplIngestionEvent (transactionKey i hash)))
            (fun inserted l' => l' = [⟨.inl (.tryRecordXrplIngestionEvent (transactionKey i hash)),
              .ok inserted⟩, ⟨.inl (.getXrplTx hash), .ok (some row)⟩])
            [⟨.inl (.getXrplTx hash), .ok (some row)⟩] :=
          Runs.opsCall (by simp [ingestOk, Message.key, haccepted]) fun _ => rfl
        refine Runs.bind hrecord fun inserted l₂ _ h₂ => ?_
        subst h₂
        cases inserted with
        | false => exact Runs.pure (hnothing fun key hkey => by simp [Inserted] at hkey)
        | true =>
          -- the record is new: the status is applied
          have hfound : FoundTx [⟨.inl (.tryRecordXrplIngestionEvent (transactionKey i hash)),
              .ok true⟩, ⟨.inl (.getXrplTx hash), .ok (some row)⟩] hash row := by
            simp [FoundTx]
          simp only [if_true]
          rw [inl_bind]
          refine Runs.bind (applyLiveTxStatus_runs touchEnabled haccepted hfound) fun _ l₃ _ h₃ => ?_
          exact Runs.pure fun _ _ => h₃

/-- Every handler. -/
theorem handleMessage_runs (touchEnabled : Bool) (msg : Message) :
    Runs msg (handleMessage touchEnabled msg) (fun _ => Done touchEnabled msg) [] := by
  cases msg with
  | ledgerClosed stream => exact handleLedgerClosed_runs touchEnabled stream
  | transaction stream throttled => exact handleTransaction_runs touchEnabled stream throttled

/-! ## What a call does to the store -/

section Serve

variable {rt : Runtime}

/-- The calls of this part of the backend change only the evidence rows of `Bluesafe.Ops`. -/
theorem serve_inr_ops (op : Call) (c : Choice) (s : Store) :
    (serve rt (.inr op) c s).2.ops =
      { s.ops with evidences := (serve rt (.inr op) c s).2.ops.evidences } := by
  have hperform : (perform rt op c s).2.ops =
      { s.ops with evidences := (perform rt op c s).2.ops.evidences } := by
    cases op <;> rfl
  rcases serve_inr_state rt op c s with heq | heq <;> rw [heq]
  exact hperform

/-- Only the record of a message that is not yet there changes the ingestion log. -/
theorem perform_ingestions (op : Ops.Call) (c : Ops.Choice) (s : Ops.Store) :
    (Ops.perform op c s).2.ingestions = s.ingestions ∨
    ∃ key, op = .tryRecordXrplIngestionEvent key ∧ key ∉ s.ingestions ∧
      (Ops.perform op c s).2.ingestions = key :: s.ingestions := by
  cases op with
  | tryRecordXrplIngestionEvent key =>
    by_cases hkey : key ∈ s.ingestions
    · simp [Ops.perform, hkey]
    · exact .inr ⟨key, rfl, hkey, by simp [Ops.perform, hkey]⟩
  | createDelayedJobIfAbsent job =>
    simp only [Ops.perform]
    split <;> exact .inl rfl
  | bumpDelayedJob p =>
    simp only [Ops.perform]
    split <;> exact .inl rfl
  | _ => exact .inl rfl

/-- A record is inserted by its own call, and by no other. -/
theorem serve_ingestions (rt : Runtime) (op : calls.Op) (c : Choice) (s : Store) :
    (serve rt op c s).2.ops.ingestions = s.ops.ingestions ∨
    ∃ key, op = .inl (.tryRecordXrplIngestionEvent key) ∧ key ∉ s.ops.ingestions ∧
      (serve rt op c s).2.ops.ingestions = key :: s.ops.ingestions ∧
      (c.failure = none ∨ c.applied = true) := by
  cases op with
  | inr op =>
    -- the calls of the API leave the book alone
    rw [serve_inr_ops]
    exact .inl rfl
  | inl op =>
    simp only [serve, Ops.serve]
    cases hfail : c.failure with
    | none =>
      rcases perform_ingestions op c.toChoice s.ops with h | ⟨key, rfl, hkey, h⟩
      · exact .inl h
      · exact .inr ⟨key, rfl, hkey, h, .inl rfl⟩
    -- a call that fails may have been carried out
    | some e =>
      by_cases happlied : c.applied = true
      · simp only [happlied, if_true]
        rcases perform_ingestions op c.toChoice s.ops with h | ⟨key, rfl, hkey, h⟩
        · exact .inl h
        · exact .inr ⟨key, rfl, hkey, h, .inr trivial⟩
      · simp [happlied]

/-- Records are never removed. -/
theorem mem_ingestions_serve {op : calls.Op} {c : Choice} {s : Store} {key : IngestionKey}
    (h : key ∈ s.ops.ingestions) : key ∈ (serve rt op c s).2.ops.ingestions := by
  rcases serve_ingestions rt op c s with heq | ⟨key', -, -, heq, -⟩
  · rw [heq]
    exact h
  · rw [heq]
    exact List.mem_cons_of_mem _ h

/-- A record that is inserted was not there before, and is there afterwards. -/
theorem inserted_serve {key : IngestionKey} {c : Choice} {s : Store}
    (h : (serve rt (.inl (.tryRecordXrplIngestionEvent key)) c s).1 = .ok true) :
    key ∉ s.ops.ingestions ∧
      key ∈ (serve rt (.inl (.tryRecordXrplIngestionEvent key)) c s).2.ops.ingestions := by
  simp only [serve, Ops.serve] at h ⊢
  cases hfail : c.failure with
  | none =>
    by_cases hkey : key ∈ s.ops.ingestions
    · simp [hfail, Ops.perform, hkey] at h
    · simp [Ops.perform, hkey]
  | some e => simp [hfail] at h

/-- A tracked row stays tracked. -/
theorem isSome_xrplTxs_serve {op : calls.Op} {c : Choice} {s : Store} {hash : String}
    (h : (s.ops.xrplTxs.get? hash).isSome = true) :
    ((serve rt op c s).2.ops.xrplTxs.get? hash).isSome = true := by
  cases op with
  | inr op =>
    rw [serve_inr_ops]
    exact h
  | inl op =>
    have hframe := Ops.framed_serve op c.toChoice s.ops
    show ((Ops.serve op c.toChoice s.ops).2.xrplTxs.get? hash).isSome = true
    -- a row that is stored stays stored, or is overwritten
    rcases hframe.xrplTxs with heq | ⟨x, -, heq⟩
    · rw [heq]
      exact h
    · rw [heq, Table.get?_set]
      split
      · rfl
      · exact h

/-- The answer to a read of a tracked row. -/
theorem getXrplTx_serve {hash : String} {c : Choice} {s : Store} {answer : Option XrplTransaction}
    (h : (serve rt (.inl (.getXrplTx hash)) c s).1 = .ok answer) :
    s.ops.xrplTxs.get? hash = answer :=
  Ops.answer_of_serve h

/-- A save that is answered has taken effect. -/
theorem saveXrplTx_serve {row : XrplTransaction} {c : Choice} {s : Store}
    (h : (serve rt (.inl (.saveXrplTx row)) c s).1 = .ok ()) :
    (serve rt (.inl (.saveXrplTx row)) c s).2.ops.xrplTxs.get? row.txHash = some row := by
  simp only [serve, Ops.serve] at h ⊢
  split at h
  · simp [Ops.perform]
  · cases h

/-- A call that is not rejected is answered. -/
theorem serve_of_failure_none {op : calls.Op} {c : Choice} {s : Store} (h : c.failure = none) :
    ∃ a, (serve rt op c s).1 = .ok a := by
  cases op with
  | inl op => exact ⟨(Ops.perform op c.toChoice s.ops).1, by simp only [serve, Ops.serve, h]⟩
  | inr op => exact ⟨(perform rt op c s).1, by simp only [serve, h]⟩

/-- A record that is not there is inserted by a call that is not rejected. -/
theorem record_serve {key : IngestionKey} {c : Choice} {s : Store} (h : c.failure = none)
    (hkey : key ∉ s.ops.ingestions) :
    (serve rt (.inl (.tryRecordXrplIngestionEvent key)) c s).1 = .ok true := by
  simp [serve, Ops.serve, h, Ops.perform, hkey]

end Serve

/-! ## The condition and the invariant -/

/-- A message of a closed ledger arrives only while touching is enabled, a rejected call
    inserts no record, and no call is rejected in a handler that has inserted its record. -/
def Undisturbed (touchEnabled : Bool) (m : Move SubscribePool (Act Message Choice)) : Prop :=
  (∀ stream, m.label = .spawn (.ledgerClosed stream) → touchEnabled = true) ∧
  ∀ th op c, MakesCall m th op c →
    (∀ key, op = .inl (.tryRecordXrplIngestionEvent key) → key ∉ m.before.store.ops.ingestions →
      c.failure = none ∨ c.applied = false) ∧
    ((∃ key, Inserted th.log key) → c.failure = none)

/-- What holds between the calls of the handlers. -/
structure IngestInv (touchEnabled : Bool) (P : SubscribePool) : Prop where
  /-- Every handler keeps to its program. -/
  runs : ∀ th ∈ P.threads,
    th.Meets ingestOk (fun msg _ => Done touchEnabled msg) (fun _ => Rejected)
  /-- Touching is enabled for the messages of closed ledgers. -/
  enabled : ∀ th ∈ P.threads, ∀ stream, th.req = .ledgerClosed stream → touchEnabled = true
  /-- What a handler has inserted is the record of its message, and is still there. -/
  keyed : ∀ th ∈ P.threads, ∀ key, Inserted th.log key →
    th.req.key = some key ∧ key ∈ P.store.ops.ingestions
  /-- A record was inserted by one handler. -/
  owner : ∀ key, AtMostOne (fun th => Inserted th.log key) P.threads
  recorded : ∀ key ∈ P.store.ops.ingestions, ∃ th ∈ P.threads, Inserted th.log key
  /-- The handler that has inserted a record does not fail. -/
  clean : ∀ th ∈ P.threads, ∀ key e, Inserted th.log key → ¬ Rejected e th.log
  /-- Settlements are touched under a record. -/
  touched : ∀ th ∈ P.threads, ∀ i, Touched th.log i → Inserted th.log (ledgerKey i)
  /-- A row that was read is the row of its hash, and is still tracked. -/
  tracked : ∀ th ∈ P.threads, ∀ hash row, FoundTx th.log hash row →
    row.txHash = hash ∧ (P.store.ops.xrplTxs.get? hash).isSome = true
  /-- A row that was read is not gone at the next read. -/
  stays : ∀ th ∈ P.threads, ∀ hash row l,
    th.log = (⟨.inl (.getXrplTx hash), .ok none⟩ : Event calls String) :: l → ¬ FoundTx l hash row

/-- A store without records keeps the invariant. -/
theorem ingestInv_init (touchEnabled : Bool) {s : Store} (hempty : s.ops.ingestions = []) :
    IngestInv touchEnabled ⟨s, []⟩ := by
  constructor
  case owner => exact fun key => atMostOne_nil _
  case recorded =>
    intro key hkey
    rw [hempty] at hkey
    exact nomatch hkey
  all_goals
    intro th hth
    exact nomatch hth

section Step

variable {rt : Runtime} {touchEnabled : Bool}

/-- A message that arrives keeps the invariant. -/
theorem IngestInv.spawn {P : SubscribePool} (h : IngestInv touchEnabled P) (msg : Message)
    (henabled : ∀ stream, msg = .ledgerClosed stream → touchEnabled = true) :
    IngestInv touchEnabled ⟨P.store, P.threads ++ [⟨msg, [], handleMessage touchEnabled msg⟩]⟩ := by
  -- A property of the old threads that holds of an empty log holds of all threads.
  have hall : ∀ {Q : SubscribeThread → Prop}, (∀ th ∈ P.threads, Q th) →
      Q ⟨msg, [], handleMessage touchEnabled msg⟩ →
      ∀ th ∈ P.threads ++ [⟨msg, [], handleMessage touchEnabled msg⟩], Q th := by
    intro Q hold hnew th hth
    rcases List.mem_append.mp hth with hth | hth
    · exact hold th hth
    · rw [List.mem_singleton.mp hth]
      exact hnew
  constructor
  case runs => exact hall h.runs (handleMessage_runs touchEnabled msg)
  case enabled => exact hall h.enabled henabled
  case keyed => exact hall h.keyed fun key hkey => nomatch hkey
  case owner => exact fun key => (h.owner key).append fun hkey => nomatch hkey
  case recorded =>
    intro key hkey
    obtain ⟨th, hth, hins⟩ := h.recorded key hkey
    exact ⟨th, List.mem_append_left _ hth, hins⟩
  case clean => exact hall h.clean fun key e hkey => nomatch hkey
  case touched =>
    refine hall h.touched fun i hi => ?_
    obtain ⟨p, n, -, hmem⟩ := hi
    exact nomatch hmem
  case tracked => exact hall h.tracked fun hash row hrow => nomatch hrow
  case stays => exact hall h.stays fun hash row l hlog => nomatch hlog

/-- What a handler that takes a step has inserted: it had inserted it before, or the step
    inserts it, with an answer. -/
theorem inserted_resume {op : calls.Op} {c : Choice} {s : Store} {l : ApiLog} {key : IngestionKey}
    (h : Inserted (⟨op, (serve rt op c s).1⟩ :: l) key) :
    Inserted l key ∨ op = .inl (.tryRecordXrplIngestionEvent key) ∧ key ∉ s.ops.ingestions ∧
      key ∈ (serve rt op c s).2.ops.ingestions ∧ ∃ a, (serve rt op c s).1 = .ok a := by
  rcases List.mem_cons.mp h with heq | hmem
  · right
    generalize hr : (serve rt op c s).1 = r at heq
    cases heq
    obtain ⟨hnew, hthere⟩ := inserted_serve hr
    exact ⟨rfl, hnew, hthere, true, rfl⟩
  · exact .inl hmem

/-- A row that was found in the log was stored. -/
theorem foundTx_resume {op : calls.Op} {c : Choice} {s : Store} {l : ApiLog} {hash : String}
    {row : XrplTransaction} (h : FoundTx (⟨op, (serve rt op c s).1⟩ :: l) hash row) :
    FoundTx l hash row ∨ s.ops.xrplTxs.get? hash = some row := by
  rcases List.mem_cons.mp h with heq | hmem
  · right
    generalize hr : (serve rt op c s).1 = r at heq
    cases heq
    exact getXrplTx_serve hr
  · exact .inl hmem

namespace IngestInv

variable {P : SubscribePool} {i : Nat} {c : Choice} {th : SubscribeThread} {op : calls.Op}
  {k : Except String (calls.Res op) → ApiM Unit}

/-- A record belongs to the message of the request that has inserted it. -/
theorem keyed_step (h : IngestInv touchEnabled P) (hth : P.threads[i]? = some th)
    (hprog : th.prog = await op k) {u : SubscribeThread}
    (hu : u ∈ P.threads.set i (th.resume op (serve rt op c P.store).1 k)) {key : IngestionKey}
    (hins : Inserted u.log key) :
    u.req.key = some key ∧ key ∈ (serve rt op c P.store).2.ops.ingestions := by
  have hmem := List.mem_of_getElem? hth
  rcases mem_set_resume hu with rfl | hu
  · rcases inserted_resume hins with hold | ⟨rfl, -, hthere, -⟩
    · obtain ⟨hkey, hrec⟩ := h.keyed th hmem key hold
      exact ⟨hkey, mem_ingestions_serve hrec⟩
    · exact ⟨(h.runs th hmem).ok_of_await hprog, hthere⟩
  · obtain ⟨hkey, hrec⟩ := h.keyed u hu key hins
    exact ⟨hkey, mem_ingestions_serve hrec⟩

/-- No two requests have inserted one record. -/
theorem owner_step (h : IngestInv touchEnabled P) (hth : P.threads[i]? = some th)
    (key : IngestionKey) :
    AtMostOne (fun th => Inserted th.log key)
      (P.threads.set i (th.resume op (serve rt op c P.store).1 k)) := by
  refine (h.owner key).set hth fun hins => ?_
  rcases inserted_resume hins with hold | ⟨-, hnew, -, -⟩
  · exact .inl hold
  · exact .inr fun u hu hu' => hnew (h.keyed u hu key hu').2

/-- A record that is stored was inserted by a request. -/
theorem recorded_step (h : IngestInv touchEnabled P) (hth : P.threads[i]? = some th)
    (hrecord : ∀ key, op = .inl (.tryRecordXrplIngestionEvent key) →
      key ∉ P.store.ops.ingestions → c.failure = none ∨ c.applied = false)
    {key : IngestionKey} (hkey : key ∈ (serve rt op c P.store).2.ops.ingestions) :
    ∃ u ∈ P.threads.set i (th.resume op (serve rt op c P.store).1 k), Inserted u.log key := by
  have hnext : th.resume op (serve rt op c P.store).1 k ∈
      P.threads.set i (th.resume op (serve rt op c P.store).1 k) :=
    List.mem_set (List.getElem?_eq_some_iff.mp hth).1 _
  -- A record that was there before has its handler, which may be the one that takes the step.
  have hold : key ∈ P.store.ops.ingestions →
      ∃ u ∈ P.threads.set i (th.resume op (serve rt op c P.store).1 k), Inserted u.log key := by
    intro hrec
    obtain ⟨u, hu, hins⟩ := h.recorded key hrec
    rcases mem_set_of_mem hth hu (th.resume op (serve rt op c P.store).1 k) with rfl | hu
    · exact ⟨_, hnext, hins.mono (List.suffix_cons _ _)⟩
    · exact ⟨u, hu, hins⟩
  rcases serve_ingestions rt op c P.store with heq | ⟨key', rfl, hnew, heq, heffect⟩
  · rw [heq] at hkey
    exact hold hkey
  · rw [heq] at hkey
    rcases List.mem_cons.mp hkey with rfl | hkey
    · have hfail : c.failure = none := by
        rcases heffect with hfail | happlied
        · exact hfail
        · rcases hrecord _ rfl hnew with hfail | hno
          · exact hfail
          · exact absurd happlied (by simp [hno])
      refine ⟨_, hnext, ?_⟩
      show _ ∈ _ :: th.log
      rw [record_serve hfail hnew]
      exact List.mem_cons_self
    · exact hold hkey

/-- A request with its record has been answered so far. -/
theorem clean_step (h : IngestInv touchEnabled P)
    (hfail : (∃ key, Inserted th.log key) → c.failure = none) {u : SubscribeThread}
    (hu : u ∈ P.threads.set i (th.resume op (serve rt op c P.store).1 k)) {key : IngestionKey}
    {e : String} (hins : Inserted u.log key) : ¬ Rejected e u.log := by
  rcases mem_set_resume hu with rfl | hu
  · -- The newest call has an answer, whether it inserts the record or comes after it.
    have hanswer : ∃ a, (serve rt op c P.store).1 = .ok a := by
      rcases inserted_resume hins with hold | ⟨-, -, -, hanswer⟩
      · exact serve_of_failure_none (hfail ⟨key, hold⟩)
      · exact hanswer
    obtain ⟨a, ha⟩ := hanswer
    rintro ⟨op', l', hlog⟩
    have hlog : (⟨op, (serve rt op c P.store).1⟩ : Event calls String) :: th.log =
      ⟨op', .error e⟩ :: l' := hlog
    rw [ha] at hlog
    exact nomatch hlog
  · exact h.clean u hu key e hins

/-- A touch comes after its record. -/
theorem touched_step (h : IngestInv touchEnabled P) (hth : P.threads[i]? = some th)
    (hprog : th.prog = await op k) {u : SubscribeThread}
    (hu : u ∈ P.threads.set i (th.resume op (serve rt op c P.store).1 k)) {j : Int}
    (htouch : Touched u.log j) : Inserted u.log (ledgerKey j) := by
  have hmem := List.mem_of_getElem? hth
  rcases mem_set_resume hu with rfl | hu
  · obtain ⟨p, n, rfl, hp⟩ := htouch
    rcases List.mem_cons.mp hp with heq | hp
    · generalize (serve rt op c P.store).1 = r at heq ⊢
      cases heq
      exact ((h.runs th hmem).ok_of_await hprog).1.mono (List.suffix_cons _ _)
    · exact (h.touched th hmem _ ⟨p, n, rfl, hp⟩).mono (List.suffix_cons _ _)
  · exact h.touched u hu j htouch

/-- The row that a request has found stays stored. -/
theorem tracked_step (h : IngestInv touchEnabled P) (hth : P.threads[i]? = some th)
    {u : SubscribeThread} (hu : u ∈ P.threads.set i (th.resume op (serve rt op c P.store).1 k))
    {hash : String} {row : XrplTransaction} (hfound : FoundTx u.log hash row) :
    row.txHash = hash ∧
      ((serve rt op c P.store).2.ops.xrplTxs.get? hash).isSome = true := by
  have hmem := List.mem_of_getElem? hth
  rcases mem_set_resume hu with rfl | hu
  · rcases foundTx_resume hfound with hold | hget
    · obtain ⟨hkey, hthere⟩ := h.tracked th hmem hash row hold
      exact ⟨hkey, isSome_xrplTxs_serve hthere⟩
    · exact ⟨Table.key_of_get? hget, isSome_xrplTxs_serve (by rw [hget]; rfl)⟩
  · obtain ⟨hkey, hthere⟩ := h.tracked u hu hash row hfound
    exact ⟨hkey, isSome_xrplTxs_serve hthere⟩

/-- It stays the row of the hash. -/
theorem stays_step (h : IngestInv touchEnabled P) (hth : P.threads[i]? = some th)
    {u : SubscribeThread} (hu : u ∈ P.threads.set i (th.resume op (serve rt op c P.store).1 k))
    {hash : String} {row : XrplTransaction} {l : ApiLog}
    (hlog : u.log = (⟨.inl (.getXrplTx hash), .ok none⟩ : Event calls String) :: l) :
    ¬ FoundTx l hash row := by
  rcases mem_set_resume hu with rfl | hu
  · intro hfound
    have hlog : (⟨op, (serve rt op c P.store).1⟩ : Event calls String) :: th.log =
      ⟨.inl (.getXrplTx hash), .ok none⟩ :: l := hlog
    generalize hr : (serve rt op c P.store).1 = r at hlog
    cases hlog
    have hthere := (h.tracked th (List.mem_of_getElem? hth) hash row hfound).2
    rw [getXrplTx_serve hr] at hthere
    exact nomatch hthere
  · exact h.stays u hu hash row l hlog

end IngestInv

/-- A move that meets the condition keeps the invariant. -/
theorem IngestInv.step {m : Move SubscribePool (Act Message Choice)}
    (hstep : subscribeStep rt touchEnabled m.before m.label = some m.after)
    (hC : Undisturbed touchEnabled m) (h : IngestInv touchEnabled m.before) :
    IngestInv touchEnabled m.after := by
  obtain ⟨P, a, P'⟩ := m
  dsimp only at hstep h ⊢
  -- a message arrives, or one that is handled takes its next step
  obtain ⟨msg, rfl, rfl⟩ | ⟨i, c, th, op, k, rfl, hth, hprog, hallow, rfl⟩ := poolStep_cases hstep
  · exact h.spawn msg fun stream hmsg => hC.1 stream (congrArg Act.spawn hmsg)
  -- one lemma for each field of the invariant
  · obtain ⟨hrecord, hfail⟩ := hC.2 th op c ⟨i, k, rfl, hth, hprog⟩
    constructor
    case runs => exact poolStep_meets (handleMessage_runs touchEnabled) hstep h.runs
    case enabled =>
      intro u hu
      rcases mem_set_resume hu with rfl | hu
      · exact h.enabled th (List.mem_of_getElem? hth)
      · exact h.enabled u hu
    case keyed => exact fun u hu key hins => h.keyed_step hth hprog hu hins
    case owner => exact fun key => h.owner_step hth key
    case recorded => exact fun key hkey => h.recorded_step hth hrecord hkey
    case clean => exact fun u hu key e hins => h.clean_step hfail hu hins
    case touched => exact fun u hu j htouch => h.touched_step hth hprog hu htouch
    case tracked => exact fun u hu hash row hfound => h.tracked_step hth hu hfound
    case stays => exact fun u hu hash row l hlog => h.stays_step hth hu hlog

end Step

/-! ## The history of a run -/

/-- The call that a move makes, if it takes effect. -/
def effect (m : Move SubscribePool (Act Message Choice)) : Option calls.Op :=
  match m.label with
  | .spawn _ => none
  | .advance i c =>
    match m.before.threads[i]? with
    | none => none
    | some th =>
      match th.prog with
      | .done _ => none
      | .fail _ => none
      | .await op _ => if c.failure.isNone || c.applied then some op else none

/-- The effect of a call. -/
theorem effect_advance {P P' : SubscribePool} {i : Nat} {c : Choice} {th : SubscribeThread}
    {op : calls.Op} {k : Except String (calls.Res op) → ApiM Unit}
    (hth : P.threads[i]? = some th) (hprog : th.prog = await op k) :
    effect ⟨P, .advance i c, P'⟩ = if c.failure.isNone || c.applied then some op else none := by
  simp only [effect, hth, hprog]

/-- The call touches the settlements for the ledger. -/
def isTouch (i : Int) : calls.Op → Bool
  | .inr (.touchSettlementsOnLedgerClose p) => decide (p.ledgerIndex = i)
  | _ => false

/-- A touch is the call with the number of the ledger. -/
theorem touch_of_isTouch {i : Int} {op : calls.Op} (h : isTouch i op = true) :
    ∃ p : TouchParams, op = .inr (.touchSettlementsOnLedgerClose p) ∧ p.ledgerIndex = i := by
  cases op with
  | inl op => exact nomatch h
  | inr op =>
    cases op with
    | touchSettlementsOnLedgerClose p => exact ⟨p, rfl, of_decide_eq_true h⟩
    | _ => exact nomatch h

/-- How often the settlements were touched for the ledger. -/
def touches (i : Int) (ms : List (Move SubscribePool (Act Message Choice))) : Nat :=
  ms.countP fun m => (effect m).any (isTouch i)

/-- The touches of a run are those in the logs of its handlers, one at most for a ledger. -/
def Counted (ms : List (Move SubscribePool (Act Message Choice))) (P : SubscribePool) : Prop :=
  ∀ j, ((∃ th ∈ P.threads, Touched th.log j) ∧ touches j ms = 1) ∨
    ((∀ th ∈ P.threads, ¬ Touched th.log j) ∧ touches j ms = 0)

/-- Every save that a handler has made is found in the run. -/
def Stored (ms : List (Move SubscribePool (Act Message Choice))) (P : SubscribePool) : Prop :=
  ∀ th ∈ P.threads, ∀ row, SavedTx th.log row →
    ∃ m ∈ ms, m.after.store.ops.xrplTxs.get? row.txHash = some row

section History

variable {rt : Runtime} {touchEnabled : Bool} {ms : List (Move SubscribePool (Act Message Choice))}

/-- The settlements are touched for a ledger that no handler has touched them for. -/
theorem untouched_before {P : SubscribePool} (h : IngestInv touchEnabled P) {i : Nat}
    {th : SubscribeThread} {p : TouchParams} {k : Except String Nat → ApiM Unit}
    (hth : P.threads[i]? = some th)
    (hprog : th.prog = await (I := calls) (.inr (.touchSettlementsOnLedgerClose p)) k) :
    ∀ u ∈ P.threads, ¬ Touched u.log p.ledgerIndex := by
  intro u hu htouch
  obtain ⟨hins, hno⟩ := (h.runs th (List.mem_of_getElem? hth)).ok_of_await hprog
  -- Who has touched them has inserted the record, and the record has one owner.
  obtain ⟨j, hj⟩ := List.mem_iff_getElem?.mp hu
  have hij : i = j := h.owner (ledgerKey p.ledgerIndex) i j th u hth hj hins
    (h.touched u hu _ htouch)
  subst hij
  rw [hth, Option.some.injEq] at hj
  subst hj
  exact hno htouch

/-- A touch that is not rejected is in the log. -/
theorem touched_serve {p : TouchParams} {c : Choice} {s : Store} {l : ApiLog}
    (h : c.failure = none) :
    Touched (⟨.inr (.touchSettlementsOnLedgerClose p),
      (serve rt (.inr (.touchSettlementsOnLedgerClose p)) c s).1⟩ :: l) p.ledgerIndex := by
  obtain ⟨n, hn⟩ : ∃ n, (serve rt (.inr (.touchSettlementsOnLedgerClose p)) c s).1 = .ok n :=
    serve_of_failure_none h
  rw [hn]
  exact ⟨p, n, rfl, List.mem_cons_self⟩

/-- Another call touches nothing. -/
theorem touched_cons_of_not {op : calls.Op} {r : Except String (calls.Res op)} {l : ApiLog} {j : Int}
    (hop : ¬ isTouch j op = true) (h : Touched (⟨op, r⟩ :: l) j) : Touched l j := by
  obtain ⟨p, n, rfl, hmem⟩ := h
  rcases List.mem_cons.mp hmem with heq | hmem
  · cases heq
    exact absurd (decide_eq_true rfl) hop
  · exact ⟨p, n, rfl, hmem⟩

/-- A message that arrives has no effect yet. -/
theorem counted_spawn {P P' : SubscribePool} {msg : Message} {prog : ApiM Unit}
    (hP' : P' = ⟨P.store, P.threads ++ [⟨msg, [], prog⟩]⟩) (hcount : Counted ms P) :
    Counted (⟨P, .spawn msg, P'⟩ :: ms) P' := by
  intro j
  subst hP'
  rw [touches, List.countP_cons]
  simp only [effect, Option.any_none, Bool.false_eq_true, if_false, Nat.add_zero]
  rcases hcount j with ⟨⟨u, hu, htouch⟩, hone⟩ | ⟨hnone, hzero⟩
  · exact .inl ⟨⟨u, List.mem_append_left _ hu, htouch⟩, hone⟩
  · refine .inr ⟨fun u hu htouch => ?_, hzero⟩
    rcases List.mem_append.mp hu with hu | hu
    · exact hnone u hu htouch
    · rw [List.mem_singleton.mp hu] at htouch
      obtain ⟨p, n, -, hmem⟩ := htouch
      exact nomatch hmem

/-- An effect is counted when it happens. -/
theorem counted_advance {P P' : SubscribePool} {i : Nat} {c : Choice} {th : SubscribeThread}
    {op : calls.Op} {k : Except String (calls.Res op) → ApiM Unit}
    (h : IngestInv touchEnabled P) (hth : P.threads[i]? = some th) (hprog : th.prog = await op k)
    (hfail : (∃ key, Inserted th.log key) → c.failure = none)
    (hP' : P'.threads = P.threads.set i (th.resume op (serve rt op c P.store).1 k))
    (hcount : Counted ms P) : Counted (⟨P, .advance i c, P'⟩ :: ms) P' := by
  intro j
  have hmem := List.mem_of_getElem? hth
  have hnext : th.resume op (serve rt op c P.store).1 k ∈ P'.threads := by
    rw [hP']
    exact List.mem_set (List.getElem?_eq_some_iff.mp hth).1 _
  rw [touches, List.countP_cons, effect_advance hth hprog]
  by_cases hop : isTouch j op = true
  · -- The first touch for this ledger, by the owner of its record.
    obtain ⟨p, rfl, rfl⟩ := touch_of_isTouch hop
    have hins := ((h.runs th hmem).ok_of_await hprog).1
    have hnone : c.failure = none := hfail ⟨_, hins⟩
    have hbefore := untouched_before h hth hprog
    refine .inl ⟨⟨_, hnext, touched_serve hnone⟩, ?_⟩
    simp only [hnone, Option.isNone_none, Bool.true_or, if_true, Option.any_some, hop]
    rcases hcount p.ledgerIndex with ⟨⟨u, hu, htouch⟩, -⟩ | ⟨-, hzero⟩
    · exact absurd htouch (hbefore u hu)
    · rw [touches] at hzero
      omega
  · -- Any other call changes neither side.
    have hother : ((if c.failure.isNone || c.applied then some op else none).any (isTouch j)) =
        false := by
      split
      · simpa using hop
      · rfl
    simp only [hother, Bool.false_eq_true, if_false, Nat.add_zero]
    rcases hcount j with ⟨⟨u, hu, htouch⟩, hone⟩ | ⟨hnone, hzero⟩
    -- the thread with the touch is this one, or another
    · refine .inl ⟨?_, hone⟩
      rcases mem_set_of_mem hth hu (th.resume op (serve rt op c P.store).1 k) with rfl | hu
      · exact ⟨_, hnext, htouch.mono (List.suffix_cons _ _)⟩
      · exact ⟨u, hP' ▸ hu, htouch⟩
    -- no thread with a touch is new
    · refine .inr ⟨fun u hu htouch => ?_, hzero⟩
      rw [hP'] at hu
      rcases mem_set_resume hu with rfl | hu
      · exact hnone th hmem (touched_cons_of_not hop htouch)
      · exact hnone u hu htouch

/-- What was recorded stays stored. -/
theorem stored_step {P P' : SubscribePool} {a : Act Message Choice}
    (hstep : subscribeStep rt touchEnabled P a = some P') (hstored : Stored ms P) :
    Stored (⟨P, a, P'⟩ :: ms) P' := by
  intro u hu row hsaved
  rcases mem_log_step hstep hu hsaved with ⟨v, hv, -, hold⟩ | ⟨i, c, th, op, k, -, -, -, -, hev, hstore⟩
  · obtain ⟨m, hm, hrow⟩ := hstored v hv row hold
    exact ⟨m, List.mem_cons_of_mem _ hm, hrow⟩
  · refine ⟨_, List.mem_cons_self, ?_⟩
    dsimp only
    rw [hstore]
    have hev : (⟨.inl (.saveXrplTx row), .ok ()⟩ : Event calls String) =
      ⟨op, (serve rt op c P.store).1⟩ := hev
    generalize hr : (serve rt op c P.store).1 = r at hev
    cases hev
    exact saveXrplTx_serve hr

/-- The invariant and the history of an undisturbed run. -/
theorem history_of_run {s₀ : Store} (hempty : s₀.ops.ingestions = []) {P : SubscribePool}
    (run : Run (subscribeStep rt touchEnabled) ⟨s₀, []⟩ ms P)
    (hC : ∀ m ∈ ms, Undisturbed touchEnabled m) :
    IngestInv touchEnabled P ∧ Counted ms P ∧ Stored ms P := by
  -- induction on the run; the invariant holds before each of its steps
  induction run with
  | nil =>
    refine ⟨ingestInv_init touchEnabled hempty, fun j => .inr ⟨?_, rfl⟩, ?_⟩
    · exact fun th hth => nomatch hth
    · exact fun th hth => nomatch hth
  | @cons ms t u a run hstep ih =>
    obtain ⟨hinv, hcount, hstored⟩ := ih fun m hm => hC m (List.mem_cons_of_mem _ hm)
    have hlast := hC _ List.mem_cons_self
    refine ⟨hinv.step (m := ⟨t, a, u⟩) hstep hlast, ?_, stored_step hstep hstored⟩
    obtain ⟨msg, rfl, hu⟩ | ⟨i, c, th, op, k, rfl, hth, hprog, -, hu⟩ := poolStep_cases hstep
    · exact counted_spawn hu hcount
    · have hthreads : u.threads = t.threads.set i (th.resume op (serve rt op c t.store).1 k) := by
        rw [hu]
        rfl
      exact counted_advance hinv hth hprog (hlast.2 th op c ⟨i, k, rfl, hth, hprog⟩).2 hthreads hcount

end History

/-! ## Exactly once -/

/-- A handler of the message is still running. -/
def InProgress (P : SubscribePool) (key : IngestionKey) : Prop :=
  ∃ th ∈ P.threads, th.req.key = some key ∧ ∃ op k, th.prog = await op k

/-- The status of a message of the run was stored under its hash. -/
def StatusApplied (ms : List (Move SubscribePool (Act Message Choice))) (i : Int)
    (hash : String) : Prop :=
  ∃ (stream : TransactionStream) (throttled : Bool) (tracked : XrplTransaction) (now : Time),
    .transaction stream throttled ∈ spawned ms ∧ stream.accepted = some (hash, i) ∧
    ∃ m ∈ ms, m.after.store.ops.xrplTxs.get? hash =
      some (tracked.reconciled (stream.asAnswer hash i) now)

/-- What a run has done for the records it has made. -/
structure ExactlyOnce (ms : List (Move SubscribePool (Act Message Choice)))
    (P : SubscribePool) : Prop where
  /-- The settlements are never touched twice for a ledger. -/
  at_most_once : ∀ i, touches i ms ≤ 1
  /-- They were touched for every recorded ledger whose handlers have ended. -/
  ledger : ∀ i, ledgerKey i ∈ P.store.ops.ingestions → ¬ InProgress P (ledgerKey i) →
    touches i ms = 1
  /-- The status was applied for every recorded transaction whose handlers have ended. -/
  transaction : ∀ i hash, transactionKey i hash ∈ P.store.ops.ingestions →
    ¬ InProgress P (transactionKey i hash) → StatusApplied ms i hash
  /-- The message of a failed handler is not recorded, unless by a handler that has not failed. -/
  ingestible : ∀ th ∈ P.threads, ∀ key e, th.req.key = some key → th.prog = fail e →
    key ∈ P.store.ops.ingestions →
    ∃ u ∈ P.threads, Inserted u.log key ∧ ∀ e', u.prog ≠ fail e'

section Main

variable {rt : Runtime} {touchEnabled : Bool} {ms : List (Move SubscribePool (Act Message Choice))}
  {P : SubscribePool}

/-- The handler that has inserted a record has not failed. -/
theorem IngestInv.not_failed (h : IngestInv touchEnabled P) {th : SubscribeThread}
    (hth : th ∈ P.threads) {key : IngestionKey} (hins : Inserted th.log key) (e : String) :
    th.prog ≠ fail e := by
  intro hprog
  exact h.clean th hth key e hins ((h.runs th hth).of_fail hprog)

/-- A record whose handlers have ended was inserted by a handler that has done its work. -/
theorem IngestInv.finished (h : IngestInv touchEnabled P) {key : IngestionKey}
    (hkey : key ∈ P.store.ops.ingestions) (hended : ¬ InProgress P key) :
    ∃ th ∈ P.threads, th.req.key = some key ∧ Finished touchEnabled th.req th.log := by
  obtain ⟨th, hth, hins⟩ := h.recorded key hkey
  have hreq := (h.keyed th hth key hins).1
  refine ⟨th, hth, hreq, ?_⟩
  cases hprog : th.prog with
  | done a => exact (h.runs th hth).of_done hprog key hins
  | fail e => exact absurd hprog (h.not_failed hth hins e)
  | await op k => exact absurd ⟨th, hth, hreq, op, k, hprog⟩ hended

/-- The key of a ledger belongs to the message of this ledger. -/
theorem key_eq_ledgerKey {msg : Message} {i : Int} (h : msg.key = some (ledgerKey i)) :
    ∃ stream, msg = .ledgerClosed stream ∧ stream.ledgerIndex = i := by
  cases msg with
  | ledgerClosed stream =>
    simp only [Message.key, ledgerKey, Option.some.injEq, IngestionKey.mk.injEq] at h
    exact ⟨stream, rfl, h.1⟩
  | transaction stream throttled =>
    obtain ⟨p, -, hp⟩ := Option.map_eq_some_iff.mp h
    simp [transactionKey, ledgerKey] at hp

/-- The key of a transaction belongs to a message about it. -/
theorem key_eq_transactionKey {msg : Message} {i : Int} {hash : String}
    (h : msg.key = some (transactionKey i hash)) :
    ∃ stream throttled, msg = .transaction stream throttled ∧
      stream.accepted = some (hash, i) := by
  cases msg with
  | ledgerClosed stream => simp [Message.key, transactionKey, ledgerKey] at h
  | transaction stream throttled =>
    obtain ⟨p, hp, heq⟩ := Option.map_eq_some_iff.mp h
    simp only [transactionKey, IngestionKey.mk.injEq] at heq
    refine ⟨stream, throttled, rfl, ?_⟩
    rw [hp, ← heq.1, ← heq.2.1]

/-- In every undisturbed run a recorded ledger has touched the settlements exactly once, a
    recorded transaction has had its status applied, and a failed handler leaves its message
    to be ingested. -/
theorem exactly_once_ingestion {s₀ : Store} (hempty : s₀.ops.ingestions = [])
    (run : Run (subscribeStep rt touchEnabled) ⟨s₀, []⟩ ms P)
    (hC : ∀ m ∈ ms, Undisturbed touchEnabled m) : ExactlyOnce ms P := by
  obtain ⟨hinv, hcount, hstored⟩ := history_of_run hempty run hC
  constructor
  case at_most_once =>
    intro i
    -- in both cases the ledger was touched once at most
    rcases hcount i with ⟨-, hone⟩ | ⟨-, hzero⟩ <;> omega
  case ledger =>
    intro i hkey hended
    -- a message that has ended has its record and has finished its work
    obtain ⟨th, hth, hreq, hfinished⟩ := hinv.finished hkey hended
    obtain ⟨stream, hmsg, rfl⟩ := key_eq_ledgerKey hreq
    rw [hmsg] at hfinished
    have htouch := hfinished (hinv.enabled th hth stream hmsg)
    -- with the feature on, finishing includes the touch
    rcases hcount stream.ledgerIndex with ⟨-, hone⟩ | ⟨hnone, -⟩
    · exact hone
    · exact absurd htouch (hnone th hth)
  case transaction =>
    intro i hash hkey hended
    obtain ⟨th, hth, hreq, hfinished⟩ := hinv.finished hkey hended
    obtain ⟨stream, throttled, hmsg, haccepted⟩ := key_eq_transactionKey hreq
    rw [hmsg] at hfinished
    obtain ⟨hash', i', row, haccepted', hrow, hcase⟩ := hfinished
    rw [haccepted, Option.some.injEq, Prod.mk.injEq] at haccepted'
    obtain ⟨rfl, rfl⟩ := haccepted'
    -- the answer was applied to the row that was found
    rcases hcase with ⟨tracked, now, hfound, hsaved⟩ | ⟨l', hlog, hfound⟩
    · obtain ⟨m, hm, hget⟩ := hstored th hth _ hsaved
      have htxHash : tracked.txHash = hash := (hinv.tracked th hth hash tracked hfound).1
      refine ⟨stream, throttled, tracked, now, hmsg ▸ req_mem_spawned run hth, haccepted, m, hm, ?_⟩
      rw [← htxHash]
      exact hget
    · -- rows are never deleted, so the second read finds the row again
      exact absurd hfound (hinv.stays th hth hash row l' hlog)
  case ingestible =>
    intro th hth key e hreq hprog hkey
    -- whoever has inserted the record has not failed since
    obtain ⟨u, hu, hins⟩ := hinv.recorded key hkey
    exact ⟨u, hu, hins, fun e' => hinv.not_failed hu hins e'⟩

end Main

/-! ## Concrete runs -/

/-- The handler has ended. -/
def hasEnded (th : SubscribeThread) : Bool :=
  match th.prog with
  | .await _ _ => false
  | _ => true

/-- A request that has ended is not in progress. -/
theorem not_inProgress_of_ended {P : SubscribePool} (h : P.threads.all hasEnded = true)
    (key : IngestionKey) : ¬ InProgress P key := by
  rintro ⟨th, hth, -, op, k, hprog⟩
  have hended := List.all_eq_true.mp h th hth
  rw [hasEnded, hprog] at hended
  exact nomatch hended

/-- The call inserted a record. -/
def isInsertion : Event calls String → Bool
  | ⟨.inl (.tryRecordXrplIngestionEvent _), .ok b⟩ => b
  | _ => false

/-- No call is rejected with an effect or after a record was inserted, and touching is
    enabled. -/
def undisturbedCheck (m : Move SubscribePool (Act Message Choice)) : Bool :=
  match m.label with
  | .spawn _ => true
  | .advance i c =>
    c.failure.isNone || (!c.applied && (m.before.threads[i]?).all fun th => !th.log.any isInsertion)

/-- The check of a move can be computed. -/
theorem undisturbed_of_check {m : Move SubscribePool (Act Message Choice)}
    (h : undisturbedCheck m = true) : Undisturbed true m := by
  refine ⟨fun _ _ => rfl, ?_⟩
  rintro th op c ⟨i, k, hlabel, hth, -⟩
  simp only [undisturbedCheck, hlabel, hth, Option.all_some, Bool.or_eq_true, Bool.and_eq_true,
    Option.isNone_iff_eq_none, Bool.not_eq_true'] at h
  rcases h with hnone | ⟨happlied, hlog⟩
  · exact ⟨fun _ _ _ => .inl hnone, fun _ => hnone⟩
  · refine ⟨fun _ _ _ => .inr happlied, ?_⟩
    rintro ⟨key, hins⟩
    rw [List.any_eq_false] at hlog
    exact absurd rfl (hlog _ hins)

/-- A closed ledger of January 2000. -/
def sampleLedger : Message := .ledgerClosed { ledgerIndex := 7, ledgerTime := some 0 }

/-- A validated transaction of that ledger. -/
def sampleTransaction : Message :=
  .transaction {
    validated := true
    ledgerIndex := some 7
    hash := some "AB12CD34"
    engineResult := some "tesSUCCESS"
    metaResult := none
    account := none
    transactionType := none
    escrowOwner := none
    escrowDestination := none
    escrowOfferSequence := none
    escrowSubmitterAccount := none
    hash_min := by
      intro h hh
      cases hh
      decide } false

/-- One active contract, and one transaction that is tracked. -/
def sampleLedgerStore : Store :=
  { Store.empty with
    ops := { Ops.Store.empty with
      contracts := Table.empty.set
        ⟨"ctr_1", "tenant_1", "landlord_1", .active, none, none, none, none, none, 0, 0⟩
      xrplTxs := Table.empty.set
        (Ops.freshTrackedTx "xrt_1" "AB12CD34" ⟨"EscrowFinish", none, none, .testnet⟩ 0) } }

/-- The call of thread `i` is rejected without effect. -/
def sampleReject (i : Nat) : Act Message Choice :=
  .advance i { failure := some "connection terminated" }

/-- An event is emitted: two identifiers, the clock, and the event. -/
def sampleEmit (i : Nat) : List (Act Message Choice) :=
  [.advance i { id := "evt_1" }, .advance i { id := "trc_1" }, .advance i {}, .advance i {}]

/-- The settlements were touched `n` times for ledger 7, which is recorded. -/
def sampleTouches (n : Nat) (r : List (Move SubscribePool (Act Message Choice)) × SubscribePool) :
    Bool :=
  decide (touches 7 r.1 = n) && decide (ledgerKey 7 ∈ r.2.store.ops.ingestions) &&
    r.2.threads.all hasEnded

/-- The record is rejected, the message is delivered again and handled, and a third delivery
    finds the record. -/
theorem exactly_once_ingestion_redelivered :
    ∃ ms P, Run (subscribeStep sampleRuntime true) ⟨sampleLedgerStore, []⟩ ms P ∧
      (∀ m ∈ ms, Undisturbed true m) ∧ P.threads.length = 3 ∧
      ledgerKey 7 ∈ P.store.ops.ingestions ∧ touches 7 ms = 1 ∧ ExactlyOnce ms P := by
  obtain ⟨ms, P, run, hp⟩ := exists_run_of_replay
    ([.spawn sampleLedger, sampleReject 0, .spawn sampleLedger, .advance 1 {}] ++ sampleEmit 1 ++
      [.advance 1 {}, .advance 1 {}] ++ sampleEmit 1 ++ [.spawn sampleLedger, .advance 2 {}])
    (fun r => r.1.all undisturbedCheck && (decide (r.2.threads.length = 3) && sampleTouches 1 r))
    (by decide +kernel :
      (replay (subscribeStep sampleRuntime true) ⟨sampleLedgerStore, []⟩ _ []).any _ = true)
  simp only [Bool.and_eq_true, List.all_eq_true, decide_eq_true_eq, sampleTouches] at hp
  obtain ⟨hcheck, hthreads, ⟨hcount, hkey⟩, -⟩ := hp
  have hC : ∀ m ∈ ms, Undisturbed true m := fun m hm => undisturbed_of_check (hcheck m hm)
  exact ⟨ms, P, run, hC, hthreads, hkey, hcount, exactly_once_ingestion rfl run hC⟩

/-- The tracked row of the concrete runs is not validated. -/
def sampleUnvalidated (P : SubscribePool) : Bool :=
  (P.store.ops.xrplTxs.get? "AB12CD34").any fun row => !row.validated

/-- The transaction is recorded, its handlers have ended, and it was never validated. -/
def sampleStatusLost (r : List (Move SubscribePool (Act Message Choice)) × SubscribePool) : Bool :=
  decide (transactionKey 7 "AB12CD34" ∈ r.2.store.ops.ingestions) &&
    (r.2.threads.all hasEnded && r.1.all fun m => sampleUnvalidated m.after)

/-- A stored status of a stream message is a validated one. -/
theorem not_statusApplied {ms : List (Move SubscribePool (Act Message Choice))} {i : Int}
    (h : ∀ m ∈ ms, sampleUnvalidated m.after = true) : ¬ StatusApplied ms i "AB12CD34" := by
  rintro ⟨stream, throttled, tracked, now, -, -, m, hm, hget⟩
  have hrow := h m hm
  rw [sampleUnvalidated, hget] at hrow
  exact nomatch hrow

/-- Two runs in which one call is rejected after the record of the message was inserted: the
    event of a closed ledger, and the second read of a tracked row. The message is delivered
    again and skipped; the settlements are not touched, and the row keeps its old status. -/
theorem ledger_message_lost :
    (∃ ms P, Run (subscribeStep sampleRuntime true) ⟨sampleLedgerStore, []⟩ ms P ∧
      ledgerKey 7 ∈ P.store.ops.ingestions ∧ ¬ InProgress P (ledgerKey 7) ∧
      touches 7 ms = 0 ∧ ¬ ExactlyOnce ms P) ∧
    ∃ ms P, Run (subscribeStep sampleRuntime true) ⟨sampleLedgerStore, []⟩ ms P ∧
      transactionKey 7 "AB12CD34" ∈ P.store.ops.ingestions ∧
      ¬ InProgress P (transactionKey 7 "AB12CD34") ∧ ¬ StatusApplied ms 7 "AB12CD34" := by
  constructor
  -- the touch of the ledger is rejected behind its record, and the message comes again
  · obtain ⟨ms, P, run, hp⟩ := exists_run_of_replay
      ([.spawn sampleLedger, .advance 0 {}] ++ (sampleEmit 0).take 3 ++
        [sampleReject 0, .spawn sampleLedger, .advance 1 {}])
      (sampleTouches 0)
      (by decide +kernel :
        (replay (subscribeStep sampleRuntime true) ⟨sampleLedgerStore, []⟩ _ []).any _ = true)
    simp only [Bool.and_eq_true, decide_eq_true_eq, sampleTouches] at hp
    obtain ⟨⟨hcount, hkey⟩, hended⟩ := hp
    have hdone := not_inProgress_of_ended hended (ledgerKey 7)
    refine ⟨ms, P, run, hkey, hdone, hcount, fun h => ?_⟩
    have hone := h.ledger 7 hkey hdone
    omega
  -- the same for the answer of a transaction
  · obtain ⟨ms, P, run, hp⟩ := exists_run_of_replay
      [.spawn sampleTransaction, .advance 0 {}, .advance 0 {}, sampleReject 0,
        .spawn sampleTransaction, .advance 1 {}, .advance 1 {}]
      sampleStatusLost
      (by decide +kernel :
        (replay (subscribeStep sampleRuntime true) ⟨sampleLedgerStore, []⟩ _ []).any _ = true)
    simp only [sampleStatusLost, Bool.and_eq_true, decide_eq_true_eq] at hp
    obtain ⟨hkey, hended, hrows⟩ := hp
    exact ⟨ms, P, run, hkey, not_inProgress_of_ended hended _,
      not_statusApplied (List.all_eq_true.mp hrows)⟩

end Bluesafe.Api
