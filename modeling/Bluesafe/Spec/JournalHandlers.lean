import Bluesafe.Ops.System
import Bluesafe.Spec.ExecutionMatch
import Bluesafe.Spec.Journal
import Bluesafe.Spec.SlaCoverage

/-!
# The journal rebuilds the tables

Each handler that saves a contract, a dispute or a decision writes the entry that accounts for
it before it does anything else that could fail, and the copy it saves differs from the stored
row only in what the entry says. The two handlers that save a copy read some time before are
the SLA scan, where the page holds every dispute once, and the execution request, where
nothing that happens in between touches the dispute because it is still `decided`.
-/

namespace Bluesafe.Ops

open Async Transition

variable {config : Config} {s₀ s : Store}

/-! ## Plain programs -/

section Plain

variable {entityType entityId action actorId eventType : String}
  {before after metadata : Option JsonObject}

/-- An entry that the journal does not read changes nothing that it tells. -/
theorem writeAudit_plain (h : ∀ id now, journal.Unread
      ⟨id, entityType, entityId, action, actorId, before, after, metadata, now⟩) :
    Only (I := calls) Call.IsPlain
      (writeAudit entityType entityId action actorId before after metadata) :=
  .bind (.call trivial) fun _ => .bind (.call trivial) fun _ => .call (h _ _)

/-- Events are not part of the journal. -/
theorem emitEvent_plain (payload : JsonObject) :
    Only (I := calls) Call.IsPlain (emitEvent eventType entityType entityId payload) :=
  .bind (.call trivial) fun _ => .bind (.call trivial) fun _ => .bind (.call trivial) fun _ =>
    .call trivial

/-- Nor are notifications. -/
theorem notifyParties_plain (contractId : String) (payload : JsonObject) :
    Only (I := calls) Call.IsPlain (notifyParties contractId eventType payload) := by
  refine .bind (.call trivial) fun found => ?_
  cases found with
  | none => exact .pure
  | some contract => exact .call trivial

/-- An entry without `before` claims nothing, unless it is about an escrow anchor. -/
theorem agrees_of_before_none {v : JournalView} {id : String} {now : Time}
    (h : action ≠ "contract.escrow_anchor_updated") :
    journal.Agrees v
      ⟨id, entityType, entityId, action, actorId, none, after, metadata, now⟩ := by
  refine ⟨fun status hstatus => ?_, fun heq => absurd heq h⟩
  exact nomatch hstatus

/-- Entries about transactions have no part in the journal. -/
theorem unread_xrpl {id : String} {now : Time}
    (h : action ∈ ["escrow.tx_submitted", "xrpl.tx_account_backfilled", "xrpl.tx_policy_exhausted",
      "xrpl.backfill", "xrpl.backfill.live", "xrpl.backfill.live_failed"]) :
    journal.Unread ⟨id, entityType, entityId, action, actorId, none, after, metadata, now⟩ := by
  intro v
  simp only [List.mem_cons, List.not_mem_nil, or_false] at h
  have hanchor : action ≠ "contract.escrow_anchor_updated" := by
    rintro rfl
    simp at h
  refine ⟨?_, agrees_of_before_none hanchor⟩
  rcases h with rfl | rfl | rfl | rfl | rfl | rfl <;> rfl

end Plain

/-! ## Calls that change nothing -/

/-- A call that leaves the store as it is. -/
def Call.IsIdle (op : Call) : Prop :=
  ∀ c s, (perform op c s).2 = s

/-- A program without effects may run in front. -/
theorem chronicles_idle_bind {α β : Type} {p : OpsM β} {f : β → OpsM α}
    (hp : Only (I := calls) Call.IsIdle p) (h : Chronicle s₀ s) (hf : ∀ b, Chronicles s₀ (f b) s) :
    Chronicles s₀ (p >>= f) s := by
  intro l
  -- a program of idle calls keeps the store, whatever it is answered
  have hkeeps : Async.Keeps reliable (fun g => g.2 = s) p fun _ => True := by
    refine Async.Keeps.of_only hp fun op c l t hop ht _ => ?_
    show (serve op c t).2 = s
    rcases serve_state op c t with heq | heq <;> rw [heq]
    · exact (hop c t).trans ht
    · exact ht
  rw [wp_bind]
  refine wp_mono _ _ (seqSpec_mono reliable) ?_ ?_ (hkeeps.toWp (g := (l, s)) rfl)
  · rintro b ⟨l', t⟩ ⟨rfl, -⟩
    exact hf b l'
  · rintro e ⟨l', t⟩ rfl
    exact h

/-! ## Contracts -/

/-- The guards of a writing route change nothing. -/
theorem writeRoute_chronicles {roles : List BluesafeRole} {auth : Option BluesafeAuth}
    {p : OpsM Reply} (h : Chronicle s₀ s) (hp : Chronicles s₀ p s) :
    Chronicles s₀ (writeRoute config roles auth p) s := by
  unfold writeRoute
  split
  · exact .pure h
  · split
    · exact .pure h
    · exact hp

/-- A new contract and its entry. -/
theorem createContract_chronicles (auth : Option BluesafeAuth) (body : CreateContractBody)
    (h : Chronicle s₀ s) : Chronicles s₀ (createContract config auth body) s := by
  unfold createContract
  refine writeRoute_chronicles h ?_
  split
  · refine .call_bind rfl fun c => .call_bind rfl fun c' => .call_bind rfl fun c'' => ?_
    refine .writeAudit_bind h rfl (fun id now => ?_) (fun id now => ?_) fun t ht => ?_
    · refine Eq.trans ?_ (view_setContract s _).symm
      simp only [journal, JournalView.apply, AuditLog.createdContract, textOf, fieldOf, lookup_opt,
        lookup_field, List.lookup_append, Option.bind_some]
      simp
      rfl
    · exact agrees_of_before_none (by simp)
    · exact .of_only (.bind (emitEvent_plain _) fun _ => .bind (.call trivial) fun _ => .pure) ht
  · exact .pure h

/-- A handler of one contract works on the stored row. -/
theorem withContract_chronicles {auth : Option BluesafeAuth} {contractId : String}
    {p : Contract → OpsM Reply} (h : Chronicle s₀ s)
    (hp : ∀ c, s.contracts.get? c.id = some c → Chronicles s₀ (p c) s) :
    Chronicles s₀ (withContract config auth contractId p) s := by
  unfold withContract
  refine .call_bind rfl fun c => ?_
  have hread : (perform (.getContract contractId) c s).1 = s.contracts.get? contractId := rfl
  rw [hread]
  cases hc : s.contracts.get? contractId with
  | none => exact .pure h
  | some contract =>
    dsimp only
    split
    · exact hp contract (Table.key_of_get? hc ▸ hc)
    · exact .pure h

/-- The end of a contract is notified without a change that the journal tells. -/
theorem notifyContractEnd_plain (contract : Contract) (status : ContractStatus) :
    Only (I := calls) Call.IsPlain (notifyContractEnd contract status) := by
  refine .bind (.call trivial) fun found => ?_
  cases found with
  | none => exact .pure
  | some c => exact .ite (.call trivial) (.ite (.call trivial) .pure)

/-- A contract that moves on, with the entry of its status. -/
theorem patchContractStatus_chronicles (auth : Option BluesafeAuth) (contractId : String)
    (status : ContractStatus) (h : Chronicle s₀ s) :
    Chronicles s₀ (patchContractStatus config auth contractId status) s := by
  unfold patchContractStatus
  refine writeRoute_chronicles h (withContract_chronicles h fun contract hc => ?_)
  split
  · refine .call_bind rfl fun c => .call_bind rfl fun c' => ?_
    refine .writeAudit_bind h rfl (fun id now => ?_) (fun id now => ?_) fun t ht => ?_
    · refine Eq.trans ?_ (view_setContract s _).symm
      exact onContract_eq (view_contract hc) _
    · refine ⟨fun st hst => ⟨fun _ => ?_, fun hd => absurd hd (by simp)⟩, fun ha => absurd ha (by simp)⟩
      cases hst
      exact congrArg (Option.map ContractView.status) (view_contract hc)
    · refine .of_only (.bind (emitEvent_plain _) fun _ => ?_) ht
      exact .bind (notifyContractEnd_plain _ _) fun _ => .pure
  · exact .pure h

/-- The ledger is asked about an anchor without any change. -/
theorem anchorConfirmed_idle (contract : Contract) (txHash : String) :
    Only (I := calls) Call.IsIdle (anchorConfirmed config contract txHash) := by
  have hlook : ∀ live account,
      Only (I := calls) Call.IsIdle (anchorAnswer.lookIn txHash live account) := by
    intro live account
    unfold anchorAnswer.lookIn
    exact .ite (.bind (.call fun _ _ => rfl) fun _ => .pure) .pure
  refine .ite (.tryCatch (.bind ?_ fun _ => .pure) fun _ => .pure) .pure
  exact .bind (.call fun _ _ => rfl) fun _ => .bind (hlook _ _) fun _ => hlook _ _

/-- A contract that is anchored, with the entry of its anchor. -/
theorem patchEscrowAnchor_chronicles (auth : Option BluesafeAuth) (contractId : String)
    (body : EscrowAnchorBody) (h : Chronicle s₀ s) :
    Chronicles s₀ (patchEscrowAnchor config auth contractId body) s := by
  unfold patchEscrowAnchor
  refine writeRoute_chronicles h (withContract_chronicles h fun contract hc => ?_)
  dsimp only
  -- an anchor that is refused writes nothing
  split
  · exact .pure h
  · refine chronicles_idle_bind (anchorConfirmed_idle _ _) h fun confirmed => ?_
    refine .call_bind rfl fun c => .call_bind rfl fun c' => ?_
    -- the entry is replayed on the view, and its `before` read off the stored contract
    refine .writeAudit_bind h rfl (fun id now => ?_) (fun id now => ?_) fun t ht => ?_
    · refine Eq.trans ?_ (view_setContract s _).symm
      exact onContract_eq (view_contract hc) _
    · refine ⟨fun st hst => ⟨fun _ => ?_, fun hd => absurd hd (by simp)⟩, fun _ => ?_⟩
      · cases hst
        exact congrArg (Option.map ContractView.status) (view_contract hc)
      · refine (congrArg (Option.map ContractView.escrowCreateTxHash) (view_contract hc)).trans ?_
        simp [textOf, fieldOf, lookup_field, lookup_opt, Contract.view]
    · exact .of_only (.bind (emitEvent_plain _) fun _ => .pure) ht

/-! ## Disputes -/

/-- A handler of one dispute works on the stored row. -/
theorem withDispute_chronicles {auth : Option BluesafeAuth} {disputeId forbidden : String}
    {p : DisputeCase → OpsM Reply} (h : Chronicle s₀ s)
    (hp : ∀ d, d.id = disputeId → s.disputes.get? d.id = some d → Chronicles s₀ (p d) s) :
    Chronicles s₀ (withDispute config auth disputeId forbidden p) s := by
  -- the access check is idle
  have haccess : ∀ d, Only (I := calls) Call.IsIdle (canAccessDispute config auth d) := by
    refine fun d => .bind (.call fun _ _ => rfl) fun found => ?_
    cases found <;> exact .pure
  unfold withDispute
  refine .call_bind rfl fun c => ?_
  have hread : (perform (.getDispute disputeId) c s).1 = s.disputes.get? disputeId := rfl
  rw [hread]
  cases hd : s.disputes.get? disputeId with
  | none => exact .pure h
  | some dispute =>
    refine chronicles_idle_bind (haccess dispute) h fun allowed => ?_
    split
    · exact hp dispute (Table.key_of_get? hd) (Table.key_of_get? hd ▸ hd)
    · exact .pure h

/-- The evidence files of a new dispute are only read. -/
theorem checkEvidences_idle (contractId : String) (ids : List String) :
    Only (I := calls) Call.IsIdle (checkEvidences contractId ids) := by
  induction ids with
  | nil => exact .pure
  | cons id ids ih =>
    refine .bind (.call fun _ _ => rfl) fun found => ?_
    cases found with
    | none => exact .pure
    | some ev => exact .ite .pure ih

/-- A new dispute and its entry. -/
theorem fileDispute_chronicles (auth : Option BluesafeAuth) (body : CreateDisputeBody)
    (h : Chronicle s₀ s) : Chronicles s₀ (fileDispute config auth body) s := by
  unfold fileDispute
  refine writeRoute_chronicles h (.call_bind rfl fun c => ?_)
  -- without the contract, without access, or without the evidence: nothing is filed
  split
  · exact .pure h
  · rename_i contract _
    split
    · refine chronicles_idle_bind (checkEvidences_idle _ _) h fun rejected => ?_
      cases rejected with
      | some reply => exact .pure h
      | none =>
        refine .call_bind rfl fun c => .call_bind rfl fun c' => .call_bind rfl fun c'' => ?_
        -- a new dispute, entered with everything it was filed with
        refine .writeAudit_bind h rfl (fun id now => ?_) (fun id now => ?_) fun t ht => ?_
        · refine Eq.trans ?_ (view_setDispute s _).symm
          simp [journal, JournalView.apply, AuditLog.filedDispute, textOf, fieldOf, lookup_field]
          rfl
        · exact agrees_of_before_none (by simp)
        · refine .of_only (.bind (emitEvent_plain _) fun _ => ?_) ht
          exact .bind (.call trivial) fun _ => .pure
    · exact .pure h

/-- The entry about a new status agrees with the stored dispute, which had the old one. -/
theorem agrees_status {d : DisputeCase} (hd : s.disputes.get? d.id = some d)
    {id action actor : String} {now : Time} {after metadata : Option JsonObject}
    (haction : action ≠ "contract.escrow_anchor_updated") :
    journal.Agrees s.view ⟨id, "dispute", d.id, action, actor,
      some [("status", .str d.status.text)], after, metadata, now⟩ := by
  refine ⟨fun st hst => ⟨fun hc => absurd hc (by simp), fun _ => ?_⟩, fun ha => absurd ha haction⟩
  cases hst
  exact congrArg (Option.map DisputeView.status) (view_dispute hd)

/-- A dispute that moves along the review, with the entry of its status. -/
theorem patchDisputeStatus_chronicles (auth : Option BluesafeAuth) (disputeId : String)
    (next : ReviewStatus) (h : Chronicle s₀ s) :
    Chronicles s₀ (patchDisputeStatus config auth disputeId next) s := by
  unfold patchDisputeStatus
  refine writeRoute_chronicles h (withDispute_chronicles h fun d hid hd => ?_)
  subst hid
  split
  -- only the two edges of a review are patched
  · split
    · exact .pure h
    · unfold storeReviewStatus auditStatusPatch
      refine .call_bind rfl fun c => ?_
      -- both set the status, and the entry has the one the dispute had before
      cases next with
      | underReview =>
        refine .call_bind rfl fun c' => .call_bind rfl fun c'' => ?_
        refine .writeAudit_bind h rfl (fun id now => ?_) (fun id now => ?_) fun t ht => ?_
        · refine Eq.trans ?_ (view_setDispute s _).symm
          exact onDispute_eq (view_dispute hd) _
        · exact agrees_status hd (by simp)
        · refine .of_only (.bind (emitEvent_plain _) fun _ => ?_) ht
          exact .bind (notifyParties_plain _ _) fun _ => .pure
      | filed =>
        refine .call_bind rfl fun c' => ?_
        refine .writeAudit_bind h rfl (fun id now => ?_) (fun id now => ?_) fun t ht => .pure ht
        · refine Eq.trans ?_ (view_setDispute s _).symm
          exact onDispute_eq (view_dispute hd) _
        · exact agrees_status hd (by simp)
  · exact .pure h

/-- An escalated dispute and its entry. -/
theorem escalate_chronicles (auth : Option BluesafeAuth) (disputeId : String)
    (h : Chronicle s₀ s) : Chronicles s₀ (escalate config auth disputeId) s := by
  unfold escalate
  refine writeRoute_chronicles h (withDispute_chronicles h fun d hid hd => ?_)
  subst hid
  refine .call_bind rfl fun c => .call_bind rfl fun c' => ?_
  refine .writeAudit_bind h rfl (fun id now => ?_) (fun id now => ?_) fun t ht => ?_
  · refine Eq.trans ?_ (view_setDispute s _).symm
    exact onDispute_eq (view_dispute hd) _
  · exact agrees_of_before_none (by simp)
  · refine .of_only (.bind (emitEvent_plain _) fun _ => ?_) ht
    exact .bind (notifyParties_plain _ _) fun _ => .pure

/-! ## The SLA scan -/

/-- The same for a dispute that a scan escalates. -/
theorem autoEscalate_chronicles {d : DisputeCase} (hd : s.disputes.get? d.id = some d)
    (h : Chronicle s₀ s) : Chronicles s₀ (autoEscalate d) s := by
  unfold autoEscalate
  refine .call_bind rfl fun c => .call_bind rfl fun c' => ?_
  refine .writeAudit_bind h rfl (fun id now => ?_) (fun id now => ?_) fun t ht => ?_
  · refine Eq.trans ?_ (view_setDispute s _).symm
    exact onDispute_eq (view_dispute hd) _
  · exact agrees_of_before_none (by simp)
  · exact .of_only (.bind (emitEvent_plain _) fun _ => notifyParties_plain _ _) ht

/-- One dispute of a scan. -/
theorem scanDispute_chronicles {nowMs : Time} {n : SlaCounters} {d : DisputeCase}
    (hd : s.disputes.get? d.id = some d) (h : Chronicle s₀ s) :
    Chronicles s₀ (scanDispute config nowMs n d) s := by
  unfold scanDispute
  split
  · exact .pure h
  · split
    · exact .pure h
    · split
      · split
        · exact .bind (autoEscalate_chronicles hd h) fun _ t ht => .pure ht
        · exact .pure h
      · refine .of_only (.bind ?_ fun _ => .pure) h
        exact .bind (emitEvent_plain _) fun _ => notifyParties_plain _ _

/-- The call saves no other dispute. -/
def Call.OnlyDispute (id : String) (op : Call) : Prop :=
  ∀ d, op = .saveDispute d → d.id = id

/-- A scan changes no dispute but the one it looks at. -/
theorem scanDispute_only (nowMs : Time) (n : SlaCounters) (d : DisputeCase) :
    Only (I := calls) (Call.OnlyDispute d.id) (scanDispute config nowMs n d) := by
  -- plain calls write no dispute at all
  have hplain : ∀ op : Call, op.IsPlain → op.OnlyDispute d.id := by
    rintro op hop d' rfl
    exact hop.elim
  have hannounce : ∀ (eventType notice : String) (payload fields : JsonObject),
      Only (I := calls) (Call.OnlyDispute d.id) (do
        emitEvent eventType "dispute" d.id payload
        notifyParties d.contractId notice fields) :=
    fun _ _ _ _ => .bind ((emitEvent_plain _).mono hplain) fun _ =>
      (notifyParties_plain _ _).mono hplain
  -- and the escalation writes the dispute of its own entry
  have hsave : ∀ t, Only (I := calls) (Call.OnlyDispute d.id) (saveDispute (d.escalated t)) := by
    refine fun t => .call fun d' heq => ?_
    cases heq
    rfl
  have hescalate : Only (I := calls) (Call.OnlyDispute d.id) (autoEscalate d) := by
    refine .bind (.call fun _ => nofun) fun t => .bind (hsave t) fun _ => .bind ?_ fun _ => hannounce ..
    exact .bind (.call fun _ => nofun) fun _ => .bind (.call fun _ => nofun) fun _ =>
      .call fun _ => nofun
  unfold scanDispute
  split
  · exact .pure
  · refine .ite .pure (.ite (.ite (.bind hescalate fun _ => .pure) .pure) ?_)
    exact .bind (hannounce ..) fun _ => .pure

/-- A scan of disputes that are stored as they were listed. -/
theorem scan_chronicles {nowMs : Time} {ds : List DisputeCase} (hnodup : ds.Nodup)
    (hds : ∀ d ∈ ds, s.disputes.get? d.id = some d) (h : Chronicle s₀ s) (n : SlaCounters) :
    Chronicles s₀ (ds.foldlM (scanDispute config nowMs) n) s := by
  induction ds generalizing s n with
  | nil => exact .pure h
  | cons d ds ih =>
    obtain ⟨hd, hds⟩ := List.forall_mem_cons.mp hds
    obtain ⟨hnotMem, hnodup⟩ := List.nodup_cons.mp hnodup
    have hothers : Async.Keeps reliable
        (fun g => ∀ id, id ≠ d.id → g.2.disputes.get? id = s.disputes.get? id)
        (scanDispute config nowMs n d) fun _ => True := by
      refine Async.Keeps.of_only (scanDispute_only nowMs n d) fun op c l t hop ht _ id hid => ?_
      rcases (framed_serve op c t).disputes with heq | ⟨d', rfl, heq⟩
      · exact (congrArg (fun T => T.get? id) heq).trans (ht id hid)
      · refine (congrArg (fun T => T.get? id) heq).trans ?_
        rw [Table.get?_set, if_neg (hop d' rfl ▸ hid)]
        exact ht id hid
    intro l
    rw [List.foldlM_cons, wp_bind]
    refine wp_mono _ _ (seqSpec_mono reliable) ?_ ?_
      (wp_and (scanDispute_chronicles hd h l) (hothers.toWp (g := (l, s)) fun _ _ => rfl))
    · rintro n' ⟨l', t⟩ ⟨ht, hrest, -⟩
      refine ih hnodup (fun d' hd' => ?_) ht n' l'
      -- another dispute of the page has another key, so its row was not saved
      have hne : d'.id ≠ d.id := by
        intro heq
        have hsame := hds d' hd'
        rw [heq, hd] at hsame
        exact hnotMem (Option.some.inj hsame ▸ hd')
      exact (hrest d'.id hne).trans (hds d' hd')
    · rintro e ⟨l', t⟩ ⟨ht, -⟩
      exact ht

/-- A scan, whose page shows stored rows until their turn comes. -/
theorem reviewSlaScan_chronicles (auth : Option BluesafeAuth) (h : Chronicle s₀ s) :
    Chronicles s₀ (reviewSlaScan config auth) s := by
  unfold reviewSlaScan
  refine writeRoute_chronicles h (.call_bind rfl fun c => .call_bind rfl fun c' => ?_)
  refine .bind (scan_chronicles (nodup_disputesPage s _ _ _) (fun d hd => ?_) h _) fun _ _ ht => .pure ht
  exact Table.get?_of_mem (mem_disputesPage hd).1

/-! ## The decision -/

/-- A decision and the decided dispute, with one entry for both. -/
theorem decision_chronicles (auth : Option BluesafeAuth) (disputeId : String) (body : DecisionBody)
    (h : Chronicle s₀ s) : Chronicles s₀ (decision config auth disputeId body) s := by
  unfold decision
  refine writeRoute_chronicles h (withDispute_chronicles h fun d _ hd => ?_)
  split
  · refine .call_bind rfl fun c => .call_bind rfl fun c₁ => .call_bind rfl fun c₂ => ?_
    refine .call_bind rfl fun c₃ => .call_bind rfl fun c₄ => ?_
    -- the decision is saved before its dispute, and one entry accounts for both
    refine .writeAudit_bind h rfl (fun id now => ?_) (fun id now => ?_) fun t ht => ?_
    · refine Eq.trans ?_ (view_decided s _ _).symm
      exact onDispute_eq (v := s.view.setDecision _ _) (view_dispute hd) _
    · exact agrees_status hd (by simp)
    · refine .of_only (.bind (emitEvent_plain _) fun _ => ?_) ht
      exact .bind (notifyParties_plain _ _) fun _ => .pure
  · exact .pure h

/-! ## Transactions -/

/-- An execution has another result than the status of a new dispute. -/
theorem executionResult_ne_filed (outcomeClass : Option OutcomeClass) :
    executionResult outcomeClass ≠ .filed := by
  unfold executionResult
  split <;> exact nofun

/-- A dispute that the ledger resolves, with the entry of its result. -/
theorem resolveLinkedDispute_chronicles (tracked : XrplTransaction) (h : Chronicle s₀ s) :
    Chronicles s₀ (resolveLinkedDispute tracked) s := by
  unfold resolveLinkedDispute
  split
  · exact .pure h
  · rename_i disputeId _
    refine .call_bind rfl fun c => ?_
    have hread : (perform (.getDispute disputeId) c s).1 = s.disputes.get? disputeId := rfl
    rw [hread]
    -- only a pending execution is resolved, by the answer for its hash
    cases hfound : s.disputes.get? disputeId with
    | none => exact .pure h
    | some d =>
      have hd : s.disputes.get? d.id = some d := Table.key_of_get? hfound ▸ hfound
      dsimp only
      split
      · unfold resolveExecution
        refine .call_bind rfl fun c => .call_bind rfl fun c' => ?_
        refine .writeAudit_bind h rfl (fun id now => ?_) (fun id now => ?_) fun t ht => ?_
        · refine Eq.trans ?_ (view_setDispute s _).symm
          -- the entry moves the dispute to the result of the execution
          refine (onDispute_eq (view_dispute hd) _).trans ?_
          exact congrArg (s.view.setDispute d.id) (moved_view d (executionResult_ne_filed _) _)
        · exact agrees_status hd (by simp)
        · exact .of_only (.bind (emitEvent_plain _) fun _ => notifyParties_plain _ _) ht
      · exact .pure h

/-- A row of a transaction is not told; the dispute that it resolves is. -/
theorem applyLiveTxStatus_chronicles (txHash : String) (live : LiveTxStatus)
    (h : Chronicle s₀ s) : Chronicles s₀ (applyLiveTxStatus txHash live) s := by
  unfold applyLiveTxStatus
  refine .call_bind rfl fun c => ?_
  split
  · exact .pure h
  · refine .call_bind rfl fun c => .call_bind rfl fun c' => ?_
    exact .bind (resolveLinkedDispute_chronicles _ (h.trans (.same rfl rfl))) fun _ _ ht => .pure ht

/-- Tracking changes nothing that the journal tells. -/
theorem upsertTrackedTx_only (txHash : String) (p : TrackParams) :
    Only (I := calls) Call.IsPlain (upsertTrackedTx txHash p) := by
  refine .bind (.call trivial) fun now => .bind (.call trivial) fun found => ?_
  cases found with
  | some row => exact .call trivial
  | none => exact .bind (.call trivial) fun _ => .call trivial

/-- An answer of the ledger that is applied. -/
theorem lookupAndApply_chronicles (txHash : String) (h : Chronicle s₀ s) :
    Chronicles s₀ (lookupAndApply txHash) s := by
  unfold lookupAndApply
  refine .ledger_bind rfl h fun live => ?_
  cases live with
  | none => exact .pure h
  | some live => exact .bind (applyLiveTxStatus_chronicles _ _ h) fun _ _ ht => .pure ht

/-- A tracked transaction, which may resolve a dispute at once. -/
theorem track_chronicles (auth : Option BluesafeAuth) (body : TrackBody) (h : Chronicle s₀ s) :
    Chronicles s₀ (track config auth body) s := by
  have hannounce : ∀ t, Chronicle s₀ t → Chronicles s₀ (announceTracked body) t := by
    refine fun t ht => .of_only (.bind (.call trivial) fun tracked => ?_) ht
    refine .bind (writeAudit_plain fun _ _ => unread_xrpl (by simp)) fun _ => ?_
    exact .bind (emitEvent_plain _) fun _ => .pure
  unfold track
  refine writeRoute_chronicles h (.bind (.of_only (upsertTrackedTx_only _ _) h) fun _ t ht => ?_)
  split
  · exact .bind (lookupAndApply_chronicles _ ht) fun _ u hu => hannounce u hu
  · exact hannounce t ht

/-- A reply from the stored row. -/
theorem replyTransaction_only (txHash : String) :
    Only (I := calls) Call.IsPlain (replyTransaction txHash) := by
  refine .bind (.call trivial) fun found => ?_
  cases found with
  | none => exact .throw
  | some row => exact .pure

/-- A lookup that asks the ledger again may do so too. -/
theorem getTransaction_chronicles (auth : Option BluesafeAuth) (txHash : String) (fresh : Bool)
    (h : Chronicle s₀ s) : Chronicles s₀ (getTransaction config auth txHash fresh) s := by
  unfold getTransaction readRoute
  split
  · exact .pure h
  · refine .call_bind rfl fun c => ?_
    split
    · exact .pure h
    · split
      · exact .bind (lookupAndApply_chronicles _ h) fun _ _ ht => .of_only (replyTransaction_only _) ht
      · exact .of_only (replyTransaction_only _) h

/-- A refresh as well. -/
theorem refresh_chronicles (auth : Option BluesafeAuth) (txHash : String) (h : Chronicle s₀ s) :
    Chronicles s₀ (refresh config auth txHash) s := by
  -- the reply reads, and writes nothing
  have hreply : Only (I := calls) Call.IsPlain (replyRefreshed txHash) := by
    refine .bind (.call trivial) fun found => ?_
    cases found with
    | none => exact .throw
    | some row => exact .pure
  unfold refresh
  refine writeRoute_chronicles h (.call_bind rfl fun c => ?_)
  split
  · exact .pure h
  · split
    · refine .ledger_bind rfl h fun live => ?_
      cases live with
      | none => exact .pure h
      | some live =>
        exact .bind (applyLiveTxStatus_chronicles _ _ h) fun _ _ ht => .of_only hreply ht
    · exact .pure h

/-- A message of the stream as well. -/
theorem handleTransaction_chronicles (stream : TransactionStream) (throttled : Bool)
    (h : Chronicle s₀ s) : Chronicles s₀ (handleTransaction stream throttled) s := by
  unfold handleTransaction
  split
  · exact .pure h
  · split
    · exact .pure h
    · refine .call_bind rfl fun c => ?_
      split
      · exact .pure h
      · refine .bind (.of_only (.call trivial) h) fun inserted t ht => ?_
        split
        · exact .bind (applyLiveTxStatus_chronicles _ _ ht) fun _ _ hu => .pure hu
        · exact .pure ht

/-! ## Backfill -/

/-- A program whose rejection is kept as a value. -/
theorem attempt_chronicles {α : Type} {p : OpsM α} (hp : Chronicles s₀ p s) :
    Chronicles s₀ (attempt p) s :=
  .tryCatch (.bind hp fun _ _ ht => .pure ht) fun _ _ ht => .pure ht

/-- A row of a backfill, which may resolve a dispute. -/
theorem backfillLiveRow_chronicles (account : String) (lives : List (String × LiveTxStatus))
    (updated : Nat) (tracked : XrplTransaction) (h : Chronicle s₀ s) :
    Chronicles s₀ (backfillLiveRow account lives updated tracked) s := by
  have happly : Chronicles s₀ (backfillLiveRow.applyRow lives updated tracked) s := by
    unfold backfillLiveRow.applyRow
    split
    · exact .pure h
    · refine .bind (applyLiveTxStatus_chronicles _ _ h) fun applied t ht => ?_
      split <;> exact .pure ht
  unfold backfillLiveRow
  split
  · split
    · exact .pure h
    · exact happly
  · exact happly

/-- All rows of a backfill, one after the other. -/
theorem backfillLiveRows_chronicles (account : String) (h : Chronicle s₀ s) :
    Chronicles s₀ (backfillLiveRows account) s := by
  unfold backfillLiveRows
  -- each step is attempted, so a failure leaves the chronicle as it is
  refine .bind (attempt_chronicles (.of_only (.call trivial) h)) fun lives t ht => ?_
  cases lives with
  | error e => exact .pure ht
  | ok lives =>
    refine .bind (attempt_chronicles (.of_only (.call trivial) ht)) fun rows u hu => ?_
    cases rows with
    | error e => exact .pure hu
    | ok rows =>
      refine .foldlM hu fun p tracked u hu => ?_
      unfold backfillLiveStep
      split
      · exact .pure hu
      · refine .bind (attempt_chronicles (backfillLiveRow_chronicles _ _ _ _ hu)) fun r v hv => ?_
        cases r <;> exact .pure hv

/-- The live part of a backfill, with its failure as a value. -/
theorem backfillLive_chronicles (account : String) (h : Chronicle s₀ s) :
    Chronicles s₀ (backfillLive account) s := by
  unfold backfillLive
  refine .bind (backfillLiveRows_chronicles account h) fun p t ht => ?_
  split
  · exact .pure ht
  · refine .bind (attempt_chronicles (.of_only ?_ ht)) fun r u hu => ?_
    · exact writeAudit_plain fun _ _ => unread_xrpl (by simp)
    · cases r <;> exact .pure hu

/-- The simulated part of a backfill. -/
theorem backfillSimulated_chronicles (body : BackfillBody) (updated : Nat) (h : Chronicle s₀ s) :
    Chronicles s₀ (backfillSimulated body updated) s := by
  unfold backfillSimulated
  refine .call_bind rfl fun c => .bind (.foldlM h fun n tx t ht => ?_) fun n t ht => ?_
  · unfold backfillSimulatedRow
    split
    · exact .pure ht
    · refine .call_bind rfl fun c => .bind (.of_only (.call trivial) ht) fun _ u hu => ?_
      exact .bind (applyLiveTxStatus_chronicles _ _ hu) fun _ _ hv => .pure hv
  · refine .of_only (.bind (writeAudit_plain fun _ _ => ?_) fun _ => .pure) ht
    exact unread_xrpl (by simp)

/-- Both parts of a backfill. -/
theorem backfill_chronicles (auth : Option BluesafeAuth) (body : BackfillBody)
    (h : Chronicle s₀ s) : Chronicles s₀ (backfill config auth body) s := by
  unfold backfill
  refine writeRoute_chronicles h ?_
  split
  · refine .bind (backfillLive_chronicles _ h) fun p t ht => ?_
    split
    · exact .pure ht
    · refine .bind (.of_only (writeAudit_plain fun _ _ => ?_) ht) fun _ u hu => ?_
      · exact unread_xrpl (by simp)
      · exact backfillSimulated_chronicles _ _ hu
  · exact backfillSimulated_chronicles _ _ h

/-! ## Policy worker -/

/-- A job that is put back changes nothing that the journal tells. -/
theorem requeueJob_only (policy : PolicyConfig) (job : DelayedJob) (lastError : Option String) :
    Only (I := calls) Call.IsPlain (requeueJob policy job lastError) :=
  .bind (.call trivial) fun _ => .bind (.call trivial) fun _ => .call trivial

/-- Nor does an account that is added to a row. -/
theorem backfillAccount_only (tx : XrplTransaction) :
    Only (I := calls) Call.IsPlain (backfillAccount tx) := by
  refine .bind (.call trivial) fun live => ?_
  dsimp only
  split
  · exact .pure
  · refine .bind (.call trivial) fun stored => .ite .pure ?_
    refine .bind (.call trivial) fun now => .bind (.call trivial) fun _ => ?_
    exact writeAudit_plain fun _ _ => unread_xrpl (by simp)

/-- Nor does a probe that found nothing. -/
theorem recordNotFound_only (policy : PolicyConfig) (job : DelayedJob) (txHash : String)
    (tx : XrplTransaction) :
    Only (I := calls) Call.IsPlain (recordNotFound policy job txHash tx) := by
  refine .bind (.call trivial) fun stored => .bind (.call trivial) fun now => .ite ?_ ?_
  · refine .bind (.call trivial) fun _ => .bind (.call trivial) fun _ => ?_
    refine .bind (writeAudit_plain fun _ _ => ?_) fun _ => emitEvent_plain _
    exact unread_xrpl (by simp)
  · exact .bind (.call trivial) fun _ => requeueJob_only _ _ _

/-- A probe asks the ledger and logs. -/
theorem probeLedger_only (txHash : String) (tx : XrplTransaction) :
    Only (I := calls) Call.IsPlain (probeLedger txHash tx) := by
  refine .bind (.call trivial) fun live => ?_
  cases live with
  | some live => exact .pure
  | none =>
    dsimp only
    split
    · exact .pure
    · exact .bind (.call trivial) fun _ => .pure

/-- A job whose probe may find an answer that resolves a dispute. -/
theorem runPolicyJob_chronicles (policy : PolicyConfig) (job : DelayedJob) (txHash : String)
    (h : Chronicle s₀ s) : Chronicles s₀ (runPolicyJob policy job txHash) s := by
  unfold runPolicyJob
  refine .call_bind rfl fun c => ?_
  split
  · exact .of_only (.call trivial) h
  · split
    · refine .bind (.of_only (probeLedger_only _ _) h) fun live t ht => ?_
      cases live with
      | none => exact .of_only (recordNotFound_only _ _ _ _) ht
      | some live =>
        refine .bind (applyLiveTxStatus_chronicles _ _ ht) fun _ u hu => ?_
        exact .of_only (.call trivial) hu
    · exact .of_only (.call trivial) h

/-- The job of a tick, behind the check of its payload. -/
theorem processJob_chronicles (policy : PolicyConfig) (job : DelayedJob) (h : Chronicle s₀ s) :
    Chronicles s₀ (processJob policy job) s := by
  unfold processJob
  split
  · exact .of_only (.call trivial) h
  · refine .tryCatch (runPolicyJob_chronicles _ _ _ h) fun e t ht => ?_
    exact .of_only (requeueJob_only _ _ _) ht

/-- New jobs change nothing that the journal tells. -/
theorem createPolicyJobs_chronicles (policy : PolicyConfig) (now : Time)
    (txs : List XrplTransaction) (h : Chronicle s₀ s) :
    Chronicles s₀ (createPolicyJobs policy now txs) s := by
  refine .forM h fun tx t ht => .of_only ?_ ht
  refine .ite (.bind (.call trivial) fun t => .ite .pure ?_) .pure
  exact .bind (.call trivial) fun _ => .pure

/-- A tick of the policy worker. -/
theorem policyTick_chronicles (h : Chronicle s₀ s) : Chronicles s₀ (policyTick config) s := by
  -- the jobs, one by one; a failure of one is caught
  have hjobs : ∀ now txs t, Chronicle s₀ t →
      Chronicles s₀ (runPolicyJobs config.policy now txs) t := by
    intro now txs t ht
    unfold runPolicyJobs
    refine .bind (createPolicyJobs_chronicles _ _ _ ht) fun _ u hu => ?_
    refine .bind (.of_only (.call trivial) hu) fun jobs v hv => ?_
    exact .forM hv fun job w hw => processJob_chronicles _ job hw
  unfold policyTick
  split
  · refine .call_bind rfl fun c => .call_bind rfl fun c' => ?_
    dsimp only
    split
    · refine .bind (.forM h fun tx t ht => ?_) fun _ t ht => hjobs _ _ t ht
      exact .tryCatch (.of_only (backfillAccount_only tx) ht) fun _ _ hu => .pure hu
    · exact hjobs _ _ _ h
  · exact .pure h

/-! ## The execution request -/

/-- Everything that the journal is about is the same. -/
structure SameRecords (s t : Store) : Prop where
  contracts : t.contracts = s.contracts
  disputes : t.disputes = s.disputes
  decisions : t.decisions = s.decisions
  audits : t.audits = s.audits

/-- A store with the same records continues the journal. -/
theorem SameRecords.chronicle {t : Store} (h : SameRecords s t) : Chronicle s t := by
  refine .same h.audits ?_
  unfold Store.view
  rw [h.contracts, h.disputes, h.decisions]

/-- Records that stay the same twice stay the same. -/
theorem SameRecords.trans {t u : Store} (h : SameRecords s t) (h' : SameRecords t u) :
    SameRecords s u :=
  ⟨h'.contracts.trans h.contracts, h'.disputes.trans h.disputes, h'.decisions.trans h.decisions,
    h'.audits.trans h.audits⟩

/-- `p`, run alone from `s`, leaves the records as they are. -/
def LeavesRecords {α : Type} (p : OpsM α) (s : Store) : Prop :=
  ∀ l, wp (seqSpec reliable) p (fun _ g => SameRecords s g.2) (fun _ g => SameRecords s g.2) (l, s)

/-- After `upsertTrackedTx` the row is linked to the dispute that was asked for. -/
theorem upsertTrackedTx_links {txHash id : String} {p : TrackParams} (hp : p.disputeId = some id)
    (l : OpsLog) :
    wp (seqSpec reliable) (upsertTrackedTx txHash p)
      (fun _ g => SameRecords s g.2 ∧
        ∃ row, g.2.xrplTxs.get? txHash = some row ∧ row.disputeId = some id)
      (fun _ g => SameRecords s g.2) (l, s) := by
  unfold upsertTrackedTx
  rw [wp_bind]
  refine wp_invoke rfl fun c => ?_
  rw [wp_bind]
  refine wp_invoke rfl fun c' => ?_
  have hread : (perform (.getXrplTx txHash) c' (perform .clock c s).2).1 = s.xrplTxs.get? txHash :=
    rfl
  rw [hread]
  -- a stored row takes the new link, and a new one is inserted with it
  cases s.xrplTxs.get? txHash with
  | some row =>
    refine wp_invoke rfl fun c'' => ⟨⟨rfl, rfl, rfl, rfl⟩, _, Table.get?_set_self _ _, ?_⟩
    simp [XrplTransaction.retracked, hp]
  | none =>
    dsimp only
    rw [wp_bind]
    refine wp_invoke rfl fun c'' => wp_invoke rfl fun c₃ => ?_
    exact ⟨⟨rfl, rfl, rfl, rfl⟩, _, Table.get?_set_self _ _, hp⟩

/-- A ledger answer about a row whose dispute does not wait changes no record. -/
theorem applyLiveTxStatus_leaves {txHash : String} {row : XrplTransaction} {d : DisputeCase}
    (live : LiveTxStatus) (hrow : s.xrplTxs.get? txHash = some row)
    (hlink : row.disputeId = some d.id) (hd : s.disputes.get? d.id = some d)
    (hstatus : d.status ≠ .executionPending) :
    LeavesRecords (applyLiveTxStatus txHash live) s := by
  intro l
  unfold applyLiveTxStatus
  rw [wp_bind]
  refine wp_invoke rfl fun c => ?_
  have hread : (perform (.getXrplTx txHash) c s).1 = some row := hrow
  rw [hread]
  dsimp only
  rw [wp_bind]
  refine wp_invoke rfl fun c' => ?_
  rw [wp_bind]
  refine wp_invoke rfl fun c'' => ?_
  rw [wp_bind]
  unfold resolveLinkedDispute
  split
  · exact ⟨rfl, rfl, rfl, rfl⟩
  · rename_i id hresolves
    -- the link of the row is not the ledger's to change
    have hid : id = d.id := by
      unfold XrplTransaction.resolves at hresolves
      split at hresolves
      · have hsome := (truthy_eq_some.mp hresolves).1
        exact Option.some.inj (hsome.symm.trans hlink)
      · exact nomatch hresolves
    subst hid
    rw [wp_bind]
    refine wp_invoke rfl fun c₃ => ?_
    split
    · exact ⟨rfl, rfl, rfl, rfl⟩
    · rename_i d' hread'
      cases hd.symm.trans (show s.disputes.get? d.id = some d' from hread')
      rw [if_neg hstatus]
      exact ⟨rfl, rfl, rfl, rfl⟩

/-- The tracked row of an execution leaves contracts, disputes and decisions alone. -/
theorem trackExecution_leaves {d : DisputeCase} {body : ExecutionBody} {chosen : ExecutionHash}
    (hd : s.disputes.get? d.id = some d) (hdecided : d.status = .decided) :
    LeavesRecords (trackExecution config d body chosen) s := by
  -- the dispute is decided, so the answer resolves no execution yet
  have hstatus : d.status ≠ .executionPending := by
    rw [hdecided]
    exact nofun
  intro l
  unfold trackExecution
  split
  · rw [wp_bind]
    refine wp_ledger rfl (fun live => ?_) fun e => ⟨rfl, rfl, rfl, rfl⟩
    dsimp only
    split
    · exact ⟨rfl, rfl, rfl, rfl⟩
    · rw [wp_bind]
      refine wp_mono _ _ (seqSpec_mono reliable) ?_ (fun _ _ h => h)
        -- with its link in place, the answer may only resolve this dispute
        (upsertTrackedTx_links (s := s) rfl _)
      rintro ⟨⟩ ⟨l', t⟩ ⟨hsame, row, hrow, hlink⟩
      cases live with
      | none => exact hsame
      | some live =>
        have hstored : t.disputes.get? d.id = some d := by
          rw [hsame.disputes]
          exact hd
        rw [wp_bind]
        exact wp_mono _ _ (seqSpec_mono reliable) (fun _ _ h => hsame.trans h)
          (fun _ _ h => hsame.trans h) (applyLiveTxStatus_leaves live hrow hlink hstored hstatus l')
  -- without the ledger the link is all
  · rw [wp_bind]
    refine wp_mono _ _ (seqSpec_mono reliable) ?_ (fun _ _ h => h)
      (upsertTrackedTx_links (s := s) rfl _)
    rintro ⟨⟩ ⟨l', t⟩ ⟨hsame, -⟩
    exact hsame

/-- The choice of the hash makes calls to the ledger only. -/
theorem chooseExecutionHash_idle (d : DisputeCase) (body : ExecutionBody) :
    Only (I := calls) Call.IsIdle (chooseExecutionHash config d body) := by
  -- a submission goes to the ledger and leaves the store
  have hsubmit : Only (I := calls) Call.IsIdle (trySubmitDisputeExecution config body) := by
    unfold trySubmitDisputeExecution
    refine .ite .pure (.ite .pure ?_)
    split
    · exact .throw
    · exact .ite .throw (.bind (.call fun _ _ => rfl) fun _ => .pure)
  unfold chooseExecutionHash
  split
  · exact .pure
  · refine .bind (.tryCatch (.bind hsubmit fun _ => .pure) fun _ => .pure) fun found => ?_
    split
    · exact .pure
    · exact .pure
    · exact .ite (.bind (.call fun _ _ => rfl) fun _ => .pure) .pure

/-- The dispute that waits for its execution, with its entry. -/
theorem acceptExecution_chronicles {auth : Option BluesafeAuth} {d : DisputeCase}
    {body : ExecutionBody} {chosen : ExecutionHash} {now : Time}
    (hd : s.disputes.get? d.id = some d) (h : Chronicle s₀ s) :
    Chronicles s₀ (acceptExecution auth d body chosen now) s := by
  unfold acceptExecution
  refine .call_bind rfl fun c => ?_
  refine .writeAudit_bind h rfl (fun id now => ?_) (fun id now => ?_) fun t ht => ?_
  · refine Eq.trans ?_ (view_setDispute s _).symm
    exact onDispute_eq (view_dispute hd) _
  · exact agrees_status hd (by simp)
  · refine .of_only (.bind (emitEvent_plain _) fun _ => ?_) ht
    exact .bind (notifyParties_plain _ _) fun _ => .bind (.call trivial) fun _ => .pure

/-- An execution, from the choice of its hash to the waiting dispute. -/
theorem execution_chronicles (auth : Option BluesafeAuth) (disputeId : String)
    (body : ExecutionBody) (h : Chronicle s₀ s) :
    Chronicles s₀ (execution config auth disputeId body) s := by
  unfold execution
  refine writeRoute_chronicles h (withDispute_chronicles h fun d _ hd => ?_)
  split
  · rename_i hdecided
    refine chronicles_idle_bind (chooseExecutionHash_idle _ _) h fun chosen => ?_
    split
    · exact .pure h
    -- the link is stored before the dispute, and is none of the journal's business
    · refine .call_bind rfl fun c => fun l => ?_
      rw [wp_bind]
      refine wp_mono _ _ (seqSpec_mono reliable) ?_ ?_ (trackExecution_leaves (s := s) hd hdecided l)
      · rintro rejected ⟨l', t⟩ hsame
        have ht : Chronicle s₀ t := h.trans hsame.chronicle
        cases rejected with
        | some reply => exact ht
        | none =>
          have hstored : t.disputes.get? d.id = some d := by
            rw [hsame.disputes]
            exact hd
          exact acceptExecution_chronicles hstored ht l'
      · rintro e ⟨l', t⟩ hsame
        exact h.trans hsame.chronicle
  · exact .pure h

/-! ## The backend -/

/-- Every request continues the journal. -/
theorem handle_chronicles (req : Request) (h : Chronicle s₀ s) :
    Chronicles s₀ (handle config req) s := by
  -- one case for each route, worker and message
  cases req with
  | createContract auth body => exact .map (createContract_chronicles auth body h)
  | patchContractStatus auth id status =>
    exact .map (patchContractStatus_chronicles auth id status h)
  | patchEscrowAnchor auth id body => exact .map (patchEscrowAnchor_chronicles auth id body h)
  | fileDispute auth body => exact .map (fileDispute_chronicles auth body h)
  | patchDisputeStatus auth id next => exact .map (patchDisputeStatus_chronicles auth id next h)
  | escalate auth id => exact .map (escalate_chronicles auth id h)
  | reviewSlaScan auth => exact .map (reviewSlaScan_chronicles auth h)
  | decision auth id body => exact .map (decision_chronicles auth id body h)
  | execution auth id body => exact .map (execution_chronicles auth id body h)
  | track auth body => exact .map (track_chronicles auth body h)
  | getTransaction auth txHash fresh => exact .map (getTransaction_chronicles auth txHash fresh h)
  | refresh auth txHash => exact .map (refresh_chronicles auth txHash h)
  | backfill auth body => exact .map (backfill_chronicles auth body h)
  | streamTransaction stream throttled =>
    exact .map (handleTransaction_chronicles stream throttled h)
  | policyTick => exact .map (policyTick_chronicles h)

/-- In every run of complete requests on a repository that answers, whatever the ledger answers:
    the audit log since the start, replayed from the view of the first tables, gives the view of
    the last ones, and each of its entries agrees with what the entries before it say. -/
theorem journal_rebuilds (config : Config) {s t : Store} {ms : List (Move Store (Request × List Choice))}
    (run : Run (opsStep config) s ms t) :
    ∃ entries, t.audits = entries ++ s.audits ∧ t.view = journal.replay s.view entries ∧
      journal.Follows s.view entries :=
  LogReader.accounts_run run fun m hstep =>
    seqStep_sound (Q := fun g => Chronicle m.before g.2)
      (handle_chronicles m.label.1 (.refl m.before) []) hstep

/-- The start of the concrete run: a contract with one evidence file. -/
def journalStart : Store :=
  { sampleStore [] with evidences := Table.empty.set ⟨"evd_1", "ctr_1"⟩ }

/-- The body of the concrete run names a contract. -/
theorem one_le_length_contract : 1 ≤ "ctr_1".length := by decide

/-- Its reason is not empty. -/
theorem one_le_length_reason : 1 ≤ "deposit_not_returned".length := by decide

/-- Its list of evidence files is not empty. -/
theorem one_le_length_bundle (evidenceId : String) : 1 ≤ [evidenceId].length := Nat.le_refl 1

/-- A dispute about the contract `ctr_1` with one evidence file. -/
def filedBody (evidenceId : String) : CreateDisputeBody where
  contractId := "ctr_1"
  raisedBy := .tenant
  reasonCode := "deposit_not_returned"
  evidenceIds := [evidenceId]
  contractId_min := one_le_length_contract
  reasonCode_min := one_le_length_reason
  evidenceIds_min := one_le_length_bundle evidenceId

/-- A dispute is filed, escalated, decided and executed. -/
def journalRequests : List (Request × (Call → Choice)) :=
  [(.fileDispute none (filedBody "evd_1"), sampleOracle "1" 0 none),
    (.escalate none "dsp_1", sampleOracle "2" 10 none),
    (.decision none "dsp_1" (sampleDecision .finishToTenant), sampleOracle "3" 20 none),
    (.execution none "dsp_1" finishA, sampleOracle "4" 30 none),
    (.refresh none hashA, sampleOracle "5" 40
      (some (answerA true "EscrowFinish" "rOwnerOwnerOwnerOwner" 7)))]

/-- What the journal says about it in the end. -/
def journalDispute : DisputeView where
  contractId := "ctr_1"
  raisedBy := "tenant"
  reasonCode := "deposit_not_returned"
  evidenceCount := 1
  status := "executed"
  escalatedAt := some 10

def journalTold (t : Store) : Bool :=
  decide (t.view.dispute "dsp_1" = some journalDispute)

/-- The journal of the concrete run tells the whole story of the dispute. -/
theorem journal_rebuilds_executed :
    ∃ ms t, Run (opsStep sampleConfig) journalStart ms t ∧
      t.view.dispute "dsp_1" = some journalDispute ∧
      ∃ entries, t.audits = entries ++ journalStart.audits ∧
        t.view = journal.replay journalStart.view entries ∧
        journal.Follows journalStart.view entries := by
  obtain ⟨ms, t, run, hp⟩ := exists_run_of_replay
    (oracleLabels reliable (handle sampleConfig) journalRequests journalStart)
    (fun r => journalTold r.2)
    (by decide +kernel : (replay (opsStep sampleConfig) journalStart _ []).any _ = true)
  exact ⟨ms, t, run, of_decide_eq_true hp, journal_rebuilds sampleConfig run⟩

end Bluesafe.Ops
