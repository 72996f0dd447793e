import Bluesafe.Async.Monitored
import Bluesafe.Spec.LegalHold
import Bluesafe.Spec.RowInvariant

/-!
# The evidence of disputes

A dispute is filed with evidence of its contract, and no request changes the bundle or the
contract of a dispute, or the contract of an evidence. What is missing later has been
deleted by a retention run, which selects by dates and does not look at disputes.

Two monitors carry the proof. A request of `Bluesafe.Ops` leaves the evidence and saves only
disputes that are `Backed`; a request that writes evidence leaves the disputes and keeps the
contract of every row (`evidenceOk`).

## Key results

- `handle_backed`, `handleEvidence_ok`: the requests meet their monitors
- `opsStep_bundles`, `evidenceStep_bundles`: what one request does to the bundles
- `bundles_stored_or_purged`: runs
-/

namespace Bluesafe.Api

open Bluesafe.Ops (Time DisputeCase OpsLog Answered ReadDispute CreateDisputeBody truthy)
open Async Transition

/-! ## Bundles -/

/-- The evidence `id` is stored, as evidence of the contract. -/
def Store.HasEvidence (s : Store) (id contractId : String) : Prop :=
  ∃ e, s.evidenceFiles.get? id = some e ∧ e.contractId = contractId

/-- The evidence of the bundle is stored, but for what is `Gone`. -/
def BundleStored (Gone : String → String → Prop) (s : Store) (d : DisputeCase) : Prop :=
  ∀ id ∈ d.evidenceBundle, s.HasEvidence id d.contractId ∨ Gone id d.contractId

/-- The bundles of all disputes. -/
def BundlesStored (Gone : String → String → Prop) (s : Store) : Prop :=
  ∀ d ∈ s.ops.disputes.rows, BundleStored Gone s d

/-- The columns that `Bluesafe.Ops` reads are those of the rows. -/
def InStep (s : Store) : Prop :=
  ∀ id, s.ops.evidences.get? id = (s.evidenceFiles.get? id).map fun e => ⟨e.id, e.contractId⟩

/-- The book only reads the table of evidence. -/
theorem evidences_serve (op : Ops.Call) (c : Ops.Choice) (s : Ops.Store) :
    (Ops.serve op c s).2.evidences = s.evidences := by
  have hperform : (Ops.perform op c s).2.evidences = s.evidences := by
    -- the three calls with a branch keep the table on both sides of it
    cases op with
    | tryRecordXrplIngestionEvent key =>
      simp only [Ops.perform]
      split <;> rfl
    | createDelayedJobIfAbsent job =>
      simp only [Ops.perform]
      split <;> rfl
    | bumpDelayedJob p =>
      simp only [Ops.perform]
      split <;> rfl
    | _ => rfl
  rcases Ops.serve_state op c s with heq | heq <;> rw [heq]
  exact hperform

/-- Evidence that is saved is saved on both sides. -/
theorem InStep.saveEvidence {s : Store} (h : InStep s) (e : EvidenceFile) :
    InStep (s.saveEvidence e) := by
  intro id
  simp only [Store.saveEvidence, Table.get?_set]
  split
  · rfl
  · exact h id

/-- And so is evidence that is purged. -/
theorem InStep.deleteEvidence {s : Store} (h : InStep s) (id : String) :
    InStep (s.deleteEvidence id) := by
  intro id'
  simp only [Store.deleteEvidence, Table.get?_erase]
  split
  · rfl
  · exact h id'

/-- Every call keeps the columns in step. -/
theorem inStep_serve (rt : Runtime) (op : calls.Op) (c : Choice) {s : Store} (h : InStep s) :
    InStep (serve rt op c s).2 := by
  -- evidence is written by its own two calls, each of which writes both tables
  cases op with
  | inl op =>
    intro id
    have heq := evidences_serve op c.toChoice s.ops
    simp only [serve, heq]
    exact h id
  | inr op =>
    have hperform : InStep (perform rt op c s).2 := by
      cases op with
      | saveEvidence e => exact h.saveEvidence e
      | deleteEvidence id => exact h.deleteEvidence id
      | _ => exact h
    rcases serve_inr_state rt op c s with heq | heq <;> rw [heq]
    · exact hperform
    · exact h

/-- A call changes the disputes when it saves one. -/
theorem disputes_serve (rt : Runtime) (op : calls.Op) (c : Choice) (s : Store) :
    (serve rt op c s).2.ops.disputes = s.ops.disputes ∨
      ∃ d, op = .inl (.saveDispute d) ∧
        (serve rt op c s).2.ops.disputes = s.ops.disputes.set d := by
  -- a call of the other routes, which saves one dispute or none
  cases op with
  | inl op =>
    rcases (Ops.framed_serve op c.toChoice s.ops).disputes with heq | ⟨d, rfl, heq⟩
    · exact .inl heq
    · exact .inr ⟨d, rfl, heq⟩
  -- a call of this module saves none
  | inr op =>
    have hperform : (perform rt op c s).2.ops.disputes = s.ops.disputes := by
      cases op <;> rfl
    left
    rcases serve_inr_state rt op c s with heq | heq <;> rw [heq]
    exact hperform

/-! ## Requests on disputes -/

/-- The bundle and the contract are those of a dispute that was read, or the bundle was
    checked. -/
def Backed (l : OpsLog) (d : DisputeCase) : Prop :=
  (∃ d₀, ReadDispute l d₀ ∧ d₀.evidenceBundle = d.evidenceBundle ∧ d₀.contractId = d.contractId) ∨
    ∀ id ∈ d.evidenceBundle, ∃ ev, Answered l (.getEvidence id) (some ev) ∧
      ev.contractId = d.contractId

/-- The monitor: a dispute that is saved is backed. -/
def savesBacked (l : OpsLog) : Ops.Call → Prop
  | .saveDispute d => Backed l d
  | _ => True

/-- Quiet calls save no dispute. -/
theorem quiet_savesBacked : Ops.Quiet savesBacked := by
  intro l op hop
  cases op <;> trivial

/-- Only a new dispute has a bundle of its own. -/
theorem backed_of_write {config : Ops.Config} {req : Ops.Request} {l : OpsLog} {d : DisputeCase}
    (hreq : ∀ auth body, req ≠ .fileDispute auth body) (h : Ops.DisputeWrite config req l d) :
    Backed l d := by
  left
  -- every write but the filing keeps the bundle and the contract that were read
  cases h with
  | filed _ auth body h => exact absurd h (hreq auth body)
  | reviewStarted _ id _ d _ _ _ hget => exact ⟨d, .byId id hget, rfl, rfl⟩
  | refiled _ id _ d _ _ hget => exact ⟨d, .byId id hget, rfl, rfl⟩
  | escalated d _ _ hread => exact ⟨d, hread, rfl, rfl⟩
  | decided _ id _ d _ _ _ hget => exact ⟨d, .byId id hget, rfl, rfl⟩
  | pending d _ _ _ _ hx =>
    obtain ⟨_, id, _, hget⟩ := hx.isExecution
    exact ⟨d, .byId id hget, rfl, rfl⟩
  | resolved id d _ _ hget => exact ⟨d, .byId id hget, rfl, rfl⟩

/-- The check passes when all evidence is there and belongs to the contract. -/
theorem checkEvidences_checked (contractId : String) (ids : List String) (l : OpsLog) :
    Gives savesBacked (Ops.checkEvidences contractId ids)
      (fun r l' => r = none → ∀ id ∈ ids, ∃ ev, Answered l' (.getEvidence id) (some ev) ∧
        ev.contractId = contractId) l := by
  -- induction on the identifiers; without a rejection each of them was found
  induction ids generalizing l with
  | nil => exact Gives.pure fun _ id hid => absurd hid List.not_mem_nil
  | cons id rest ih =>
    unfold Ops.checkEvidences
    refine Gives.call_read trivial fun ev l₁ _ hev => ?_
    cases ev with
    | none =>
      apply Gives.pure
      intro h
      cases h
    | some ev =>
      dsimp only
      split
      · apply Gives.pure
        intro h
        cases h
      · rename_i hcontract
        refine (ih l₁).mono fun r l₂ hl₂ hrest hnone id' hid' => ?_
        rcases List.mem_cons.mp hid' with rfl | hid'
        · exact ⟨ev, Answered.mono hev hl₂, not_not.mp hcontract⟩
        · exact hrest hnone id' hid'

/-- A dispute is saved with evidence that was found. -/
theorem storeFiledDispute_backed (contract : Ops.Contract) (body : CreateDisputeBody) {l : OpsLog}
    (hchecked : ∀ id ∈ body.evidenceIds, ∃ ev, Answered l (.getEvidence id) (some ev) ∧
      ev.contractId = body.contractId) :
    Safe savesBacked (Ops.storeFiledDispute contract body) l := by
  unfold Ops.storeFiledDispute
  refine Gives.call_then trivial fun id l₁ hl₁ => ?_
  -- the bundle was checked before these two calls
  refine Gives.call_then trivial fun now l₂ hl₂ => ?_
  refine Gives.call_then (.inr fun id hid => ?_) fun _ l₃ _ => ?_
  · obtain ⟨ev, hev, hcontract⟩ := hchecked id hid
    exact ⟨ev, hev.mono (hl₁.trans hl₂), hcontract⟩
  · refine Gives.bind (quiet_savesBacked.writeAudit _ _ _ _ _ _ _) fun _ l₄ _ _ => ?_
    refine Gives.bind (quiet_savesBacked.emitEvent _ _ _ _) fun _ l₅ _ _ => ?_
    refine Gives.call_then trivial fun _ l₆ _ => ?_
    exact Gives.pure trivial

/-- So is one that is filed by a request. -/
theorem fileDispute_backed (config : Ops.Config) (auth : Option Ops.BluesafeAuth)
    (body : CreateDisputeBody) (l : OpsLog) :
    Safe savesBacked (Ops.fileDispute config auth body) l := by
  unfold Ops.fileDispute Ops.writeRoute
  split
  · exact Gives.pure trivial
  · split
    · exact Gives.pure trivial
    · refine Gives.call_then trivial fun contract l₁ _ => ?_
      -- the contract has to be there, and the caller's
      cases contract with
      | none => exact Gives.pure trivial
      | some c =>
        dsimp only
        split
        · refine Gives.bind (checkEvidences_checked _ _ _) fun rejected l₂ _ hchecked => ?_
          cases rejected with
          | some reply => exact Gives.pure trivial
          | none => exact storeFiledDispute_backed c body (hchecked rfl)
        · exact Gives.pure trivial

/-- Every request of `Bluesafe.Ops` saves only backed disputes. -/
theorem handle_backed (config : Ops.Config) (req : Ops.Request) :
    Safe savesBacked (Ops.handle config req) [] := by
  by_cases hreq : ∀ auth body, req ≠ .fileDispute auth body
  · refine wp_monitor_weaken (fun l op hop => ?_) (Ops.handle_justified config req)
    cases op with
    | saveDispute d => exact backed_of_write hreq hop
    | _ => trivial
  · simp only [not_forall, not_not] at hreq
    obtain ⟨auth, body, rfl⟩ := hreq
    exact (fileDispute_backed config auth body []).map

/-- During a request of `Bluesafe.Ops` that starts in `s₀`: the evidence is as before, and the
    bundles of all disputes that are stored or were read are stored. -/
structure BundlesKept (Gone : String → String → Prop) (s₀ : Store) (l : OpsLog) (s : Ops.Store) :
    Prop where
  evidences : s.evidences = s₀.ops.evidences
  rows : ∀ d ∈ s.disputes.rows, BundleStored Gone s₀ d
  read : ∀ d, ReadDispute l d → BundleStored Gone s₀ d
  checked : ∀ id ev, Answered l (.getEvidence id) (some ev) → s₀.ops.evidences.get? id = some ev

section OpsRequests

variable {Gone : String → String → Prop} {s₀ : Store} {l : OpsLog} {s : Ops.Store}

/-- A backed dispute has its bundle stored. -/
theorem BundlesKept.backed (h : BundlesKept Gone s₀ l s) (hstep : InStep s₀) {d : DisputeCase}
    (hd : Backed l d) : BundleStored Gone s₀ d := by
  rcases hd with ⟨d₀, hread, hbundle, hcontract⟩ | hchecked
  -- the bundle is that of a dispute that was read
  · intro id hid
    rw [← hbundle] at hid
    rw [← hcontract]
    exact h.read d₀ hread id hid
  -- or its evidences were checked one by one
  · intro id hid
    obtain ⟨ev, hev, hcontract⟩ := hchecked id hid
    -- an evidence that was checked is still stored
    have hget := h.checked id ev hev
    rw [hstep id, Option.map_eq_some_iff] at hget
    obtain ⟨e, he, rfl⟩ := hget
    exact .inl ⟨e, he, hcontract⟩

/-- A dispute that was read is new in the log, or was read before. -/
theorem readDispute_cons {op : Ops.Call} {r : Except String op.Res} {d : DisputeCase}
    (h : ReadDispute (⟨op, r⟩ :: l) d) : Ops.Shows ⟨op, r⟩ (.dispute d) ∨ ReadDispute l d := by
  -- the dispute was read by its identifier, or in a page
  cases h with
  | byId id hget =>
    rcases List.mem_cons.mp hget with heq | hget
    · cases heq
      exact .inl .getDispute
    · exact .inr (.byId id hget)
  | listed status limit offset items hlist hmem =>
    rcases List.mem_cons.mp hlist with heq | hlist
    · cases heq
      exact .inl (.listDisputesPage hmem)
    · exact .inr (.listed status limit offset items hlist hmem)

/-- A call that the monitor accepts. -/
theorem BundlesKept.serve (hstep : InStep s₀) (op : Ops.Call) (c : Ops.Choice)
    (hop : savesBacked l op) (h : BundlesKept Gone s₀ l s) :
    BundlesKept Gone s₀ (⟨op, (Ops.serve op c s).1⟩ :: l) (Ops.serve op c s).2 := by
  -- what the call writes has its bundle stored
  have hwrites : ∀ d, op.writes = some (.dispute d) → BundleStored Gone s₀ d := by
    intro d hd
    cases op with
    | saveDispute x =>
      cases hd
      exact h.backed hstep hop
    | _ => cases hd
  refine ⟨(evidences_serve op c s).trans h.evidences, fun d hd => ?_, fun d hd => ?_,
    fun id ev hev => ?_⟩
  · rcases Ops.has_serve (r := .dispute d) hd with hold | hsave
    · exact h.rows d hold
    · exact hwrites d hsave
  · rcases readDispute_cons hd with hnew | hold
    · rcases Ops.shows_serve hnew with hstored | hsave
      · exact h.rows d hstored
      · exact hwrites d hsave
    · exact h.read d hold
  · rcases List.mem_cons.mp hev with heq | hold
    · rw [← h.evidences]
      exact (Ops.performed_of_event heq).2.1
    · exact h.checked id ev hold

end OpsRequests

/-- A request of `Bluesafe.Ops` keeps the bundles stored, and the evidence as it is. -/
theorem opsStep_bundles {config : Config} {vault : EvidenceVault} {Gone : String → String → Prop}
    {s s' : Store} {req : Ops.Request} {cs : List Choice} (hstep : InStep s)
    (hs : BundlesStored Gone s) (h : evidenceStep config vault s (.other req, cs) = some s') :
    BundlesStored Gone s' := by
  let G : ApiLog → Store → Prop := fun l t =>
    -- the rows of evidence as at the start, and the bundles under what the request has read
    t.evidenceFiles = s.evidenceFiles ∧ BundlesKept Gone s (lefts l) t.ops
  have hsafe : Safe (onLefts savesBacked) (handleEvidence config vault (.other req)) [] :=
    Gives.map (safe_inl (handle_backed config.ops req))
  have hG : G (evidenceLog config vault ⟨s, (.other req, cs), s'⟩) s' := by
    refine seqStep_monitored (fun op c l t hop hG _ => ?_) hsafe ⟨rfl, rfl, hs, ?_, ?_⟩ h
    · cases op with
      | inl op => exact ⟨hG.1, hG.2.serve hstep op c.toChoice hop⟩
      | inr op => exact hop.elim
    -- at the start of a request nothing has been read
    · intro d hd
      cases hd with
      | byId id hget => cases hget
      | listed status limit offset items hlist => cases hlist
    · intro id ev hev
      cases hev
  intro d hd id hid
  have hbundle := hG.2.rows d hd id hid
  unfold Store.HasEvidence at hbundle ⊢
  rwa [hG.1]

/-! ## Requests on evidence -/

/-- The request may delete evidence. -/
def EvidenceRequest.purges : EvidenceRequest → Bool
  | .retentionRun _ => true
  | _ => false

/-- The monitor: no dispute is saved; a row of evidence that is saved has a generated id, or
    the id and the contract of one that was read. -/
def evidenceOk (purging : Bool) (l : ApiLog) : calls.Op → Prop
  | .inl (.saveDispute _) => False
  | .inr (.saveEvidence e) =>
    (⟨.inl (.randomId "evd"), .ok e.id⟩ : Event calls String) ∈ l ∨
      ∃ id e₀, (⟨.inr (.getEvidence id), .ok (some e₀)⟩ : Event calls String) ∈ l ∧
        e₀.id = e.id ∧ e₀.contractId = e.contractId
  | .inr (.deleteEvidence _) => purging = true
  | _ => True

/-- The monitor of the calls of `Bluesafe.Ops` in between. -/
def savesNoDispute (_ : OpsLog) (op : Ops.Call) : Prop := ∀ d, op ≠ .saveDispute d

/-- Quiet calls save no dispute, backed or not. -/
theorem quiet_savesNoDispute : Ops.Quiet savesNoDispute := by
  intro l op hop d heq
  rw [heq] at hop
  cases hop

section EvidenceRequests

variable {purging : Bool} {l : ApiLog}

/-- Audits, events and other calls of `Bluesafe.Ops` that save no dispute. -/
theorem ofOps_ok {α : Type} {p : Ops.OpsM α}
    (hp : ∀ l : OpsLog, Safe savesNoDispute p l) :
    Safe (evidenceOk purging) (ofOps p) l := by
  refine wp_monitor_inl (fun l op hop => ?_) (hp (lefts l))
  cases op with
  | saveDispute d => exact absurd rfl (hop d)
  | _ => trivial

/-- An audit entry deletes no evidence. -/
theorem writeAudit_ok (entityType entityId action actor : String)
    (before after metadata : Option Ops.JsonObject) :
    Safe (evidenceOk purging)
      (ofOps (Ops.writeAudit entityType entityId action actor before after metadata)) l :=
  ofOps_ok fun _ => (quiet_savesNoDispute.writeAudit _ _ _ _ _ _ _).mono fun _ _ _ _ => trivial

/-- Nor does an event. -/
theorem emitEvent_ok (eventType entityType entityId : String) (payload : Ops.JsonObject) :
    Safe (evidenceOk purging) (ofOps (Ops.emitEvent eventType entityType entityId payload)) l :=
  ofOps_ok fun _ => quiet_savesNoDispute.emitEvent _ _ _ _

/-- Nor does a call of the book. -/
theorem opsCall_ok {op : Ops.Call} (hop : ∀ d, op ≠ .saveDispute d) :
    Safe (evidenceOk purging) (ofOps (Async.call (I := Ops.calls) op)) l :=
  ofOps_ok fun _ => Gives.call hop fun _ => trivial

/-- The guards of a writing route delete nothing. -/
theorem writeRoute_ok {ok : ApiLog → calls.Op → Prop} {config : Config}
    {allowed : List Ops.BluesafeRole} {caller : Caller} {handler : ApiM Response}
    (h : Safe ok handler l) : Safe ok (writeRoute config allowed caller handler) l := by
  unfold writeRoute route
  split
  · exact Gives.pure trivial
  · split
    · exact Gives.pure trivial
    · exact h

/-- Nor do those of an operator's route. -/
theorem operatorRoute_ok {ok : ApiLog → calls.Op → Prop} {config : Config}
    {scope : OperatorConsoleScope} {caller : Caller} {handler : ApiM Response}
    (h : Safe ok handler l) : Safe ok (operatorRoute config scope caller handler) l := by
  unfold operatorRoute
  apply writeRoute_ok
  split
  · exact Gives.pure trivial
  · exact h

/-- Nor does the announcement of an upload. -/
theorem announceUpload_ok (vault : EvidenceVault) (e : EvidenceFile) :
    Safe (evidenceOk purging) (announceUpload vault e) l := by
  unfold announceUpload
  exact Gives.bind (writeAudit_ok _ _ _ _ _ _ _) fun _ _ _ _ => emitEvent_ok _ _ _ _

/-- Its retention is looked up. -/
theorem uploadRetention_ok (vault : EvidenceVault) (days : Option Nat) :
    Safe (evidenceOk purging) (uploadRetention vault days) l := by
  cases days with
  | none => exact Gives.pure trivial
  | some n =>
    refine Gives.bind (opsCall_ok (by intro d h; cases h)) fun now _ _ _ => ?_
    exact Gives.pure trivial

/-- Evidence that is stored is new. -/
theorem storeEvidence_ok (vault : EvidenceVault) (file : UploadedFile) (form : EvidenceUploadForm)
    (hash : String) (encrypted : Bool) (uploaded : UploadToIpfsResult) :
    Safe (evidenceOk purging) (storeEvidence vault file form hash encrypted uploaded) l := by
  unfold storeEvidence
  rw [ofOps_invoke (.randomId "evd")]
  refine Gives.call_read trivial fun id l₁ _ hid => ?_
  refine Gives.call_then trivial fun existing l₂ hl₂ => ?_
  refine Gives.bind (opsCall_ok (by intro d h; cases h)) fun createdAt l₃ hl₃ _ => ?_
  refine Gives.bind (uploadRetention_ok vault _) fun retainUntil l₄ hl₄ _ => ?_
  refine Gives.call_then (.inl (((hl₂.trans hl₃).trans hl₄).subset hid)) fun _ l₅ _ => ?_
  exact Gives.bind (announceUpload_ok vault _) fun _ _ _ _ => Gives.pure trivial

/-- An upload. -/
theorem uploadEvidence_ok (config : Config) (vault : EvidenceVault) (file : UploadedFile)
    (form : EvidenceUploadForm) : Safe (evidenceOk purging) (uploadEvidence config vault file form) l := by
  unfold uploadEvidence resolveDataKey uploadFile
  -- the key and the upload may both fail, and then nothing is stored
  refine Gives.bind (R := fun _ _ => True) (Gives.tryCatch (Gives.map (Gives.call trivial fun _ => trivial))
    fun _ _ _ => Gives.pure trivial) fun key l₁ _ _ => ?_
  cases key with
  | error reply => exact Gives.pure trivial
  | ok key =>
    refine Gives.bind (R := fun _ _ => True) (Gives.tryCatch (Gives.map (Gives.call trivial fun _ => trivial))
      fun _ _ _ => Gives.pure trivial) fun uploaded l₂ _ _ => ?_
    cases uploaded with
    | error reply => exact Gives.pure trivial
    -- only behind both is the row written
    | ok result => exact storeEvidence_ok vault file form _ _ result

/-- The dispute of an upload is looked up. -/
theorem disputeOfContract_ok (contractId : String) (disputeId : Option String) :
    Safe (evidenceOk purging) (disputeOfContract contractId disputeId) l := by
  cases disputeId with
  | none => exact Gives.pure trivial
  | some d =>
    refine Gives.bind (opsCall_ok (by intro d h; cases h)) fun dispute _ _ _ => ?_
    cases dispute with
    | none => exact Gives.pure trivial
    | some dispute => exact Gives.pure trivial

/-- An upload, with its checks. -/
theorem postEvidence_ok (config : Config) (vault : EvidenceVault) (caller : Caller)
    (file : Option UploadedFile) (form : EvidenceUploadForm) :
    Safe (evidenceOk purging) (postEvidence config vault caller file form) l := by
  unfold postEvidence
  apply writeRoute_ok
  -- a file, its size, its contract, and the dispute it is meant for, in this order
  cases file with
  | none => exact Gives.pure trivial
  | some file =>
    dsimp only
    split
    · exact Gives.pure trivial
    · refine Gives.bind (opsCall_ok (by intro d h; cases h)) fun contract l₁ _ _ => ?_
      cases contract with
      | none => exact Gives.pure trivial
      | some contract =>
        dsimp only
        split
        · refine Gives.bind (disputeOfContract_ok _ _) fun ofContract l₂ _ _ => ?_
          split
          · split
            · exact Gives.pure trivial
            · exact uploadEvidence_ok config vault file form
          · exact Gives.pure trivial
        · exact Gives.pure trivial

/-- A patch changes the class, the jurisdiction and the two deadlines only. -/
theorem patch_keeps {rt : Runtime} {body : MetadataPatch} {e next : EvidenceFile}
    (h : body.patch rt e = .ok next) :
    next = { e with
      retentionClass := next.retentionClass
      jurisdiction := next.jurisdiction
      legalHoldUntil := next.legalHoldUntil
      retainUntil := next.retainUntil } := by
  -- the two refusals of a patch
  unfold MetadataPatch.patch at h
  split at h
  · cases h
  · split at h
    · cases h
    · cases h
      rfl

/-- The opening of the handlers of one evidence file: the rest runs with the file that was read. -/
theorem withEvidence_safe {ok : ApiLog → calls.Op → Prop} {config : Config}
    {auth : Option Ops.BluesafeAuth} {evidenceId message : String}
    {handler : EvidenceFile → ApiM Response} (hread : ∀ l, ok l (.inr (.getEvidence evidenceId)))
    (hcontract : ∀ l contractId, ok l (.inl (.getContract contractId)))
    (hbody : ∀ e l', (⟨.inr (.getEvidence evidenceId), .ok (some e)⟩ : Event calls String) ∈ l' →
      Safe ok (handler e) l') :
    Safe ok (withEvidence config auth evidenceId message handler) l := by
  unfold withEvidence contractAccessible
  refine Gives.call_read (hread l) fun e? l₁ _ hget => ?_
  cases e? with
  | none => exact Gives.pure trivial
  | some evidence =>
    dsimp only
    -- whether the contract may be accessed says nothing about the evidence
    refine Gives.bind (R := fun _ _ => True) ?_ fun accessible l₂ hl₂ _ => ?_
    · have hcall : Safe ok (ofOps (Ops.getContract evidence.contractId)) l₁ :=
        Gives.call (hcontract _ _) fun _ => trivial
      refine Gives.bind hcall fun contract _ _ _ => ?_
      cases contract with
      | none => exact Gives.pure trivial
      | some c => exact Gives.pure trivial
    · split
      · exact hbody evidence l₂ (hl₂.subset hget)
      · exact Gives.pure trivial

/-- A patch keeps the contract of the evidence. -/
theorem patchEvidenceMetadata_ok (config : Config) (caller : Caller) (evidenceId : String)
    (body : MetadataPatch) :
    Safe (evidenceOk purging) (patchEvidenceMetadata config caller evidenceId body) l := by
  unfold patchEvidenceMetadata storeMetadata
  apply operatorRoute_ok
  -- the row that was read keeps its identifier and its contract
  refine withEvidence_safe (fun _ => trivial) (fun _ _ => trivial) fun evidence l₁ hget => ?_
  split
  · exact Gives.pure trivial
  · rename_i next hnext
    have hid : evidence.id = next.id := by rw [patch_keeps hnext]
    have hcontract : evidence.contractId = next.contractId := by rw [patch_keeps hnext]
    -- so the patch stores nothing new for a bundle
    refine Gives.call_then (.inr ⟨evidenceId, evidence, hget, hid, hcontract⟩) fun _ l₂ _ => ?_
    refine Gives.bind (writeAudit_ok _ _ _ _ _ _ _) fun _ l₃ _ _ => ?_
    exact Gives.bind (emitEvent_ok _ _ _ _) fun _ _ _ _ => Gives.pure trivial

/-- A purge deletes the evidence it was asked to. -/
theorem purgeEvidence_ok (caller : Caller) (ev : EvidenceFile) :
    Safe (evidenceOk true) (purgeEvidence caller ev) l := by
  unfold purgeEvidence
  refine Gives.bind (R := fun _ _ => True) (Gives.tryCatch (Gives.call trivial fun _ => trivial)
    fun _ _ _ => Gives.pure trivial) fun _ l₁ _ _ => ?_
  refine Gives.call_then rfl fun _ l₂ _ => ?_
  exact Gives.bind (writeAudit_ok _ _ _ _ _ _ _) fun _ _ _ _ => emitEvent_ok _ _ _ _

/-- A retention run purges. -/
theorem retentionRun_ok (config : Config) (caller : Caller) :
    Safe (evidenceOk true) (retentionRun config caller) l := by
  unfold retentionRun
  apply operatorRoute_ok
  refine Gives.bind (opsCall_ok (by intro d h; cases h)) fun now l₁ _ _ => ?_
  refine Gives.call_then trivial fun past l₂ _ => ?_
  refine Gives.bind (Gives.forM fun ev _ _ _ => purgeEvidence_ok caller ev) fun _ _ _ _ => ?_
  exact Gives.pure trivial

/-- Every request that writes evidence meets its monitor. -/
theorem handleEvidence_ok (config : Config) (vault : EvidenceVault) {req : EvidenceRequest}
    (hreq : ∀ r, req ≠ .other r) : Safe (evidenceOk req.purges) (handleEvidence config vault req) [] := by
  cases req with
  | upload caller file form => exact Gives.map (postEvidence_ok config vault caller file form)
  | patchMetadata caller evidenceId body =>
    exact Gives.map (patchEvidenceMetadata_ok config caller evidenceId body)
  | retentionRun caller => exact Gives.map (retentionRun_ok config caller)
  | other r => exact absurd rfl (hreq r)

end EvidenceRequests

/-- The identifiers generated for evidence are not in use. -/
def FreshIn (s : Store) (l : ApiLog) : Prop :=
  ∀ id, (⟨.inl (.randomId "evd"), .ok id⟩ : Event calls String) ∈ l → s.evidenceFiles.get? id = none

/-- During a request on evidence that starts in `s₀`: the disputes are as before, and the
    evidence keeps its contract, unless the request deletes it. -/
structure EvidenceKept (purging : Bool) (s₀ : Store) (l : ApiLog) (s : Store) : Prop where
  disputes : s.ops.disputes = s₀.ops.disputes
  read : ∀ id e, (⟨.inr (.getEvidence id), .ok (some e)⟩ : Event calls String) ∈ l →
    ∀ e₀, s₀.evidenceFiles.get? e.id = some e₀ → e.contractId = e₀.contractId
  kept : ∀ id e₀, s₀.evidenceFiles.get? id = some e₀ →
    s.HasEvidence id e₀.contractId ∨ purging = true ∧ s.evidenceFiles.get? id = none

/-- The answer to `getEvidence`. -/
theorem getEvidence_answer {rt : Runtime} {id : String} {c : Choice} {s : Store} {e : EvidenceFile}
    (h : (serve rt (.inr (.getEvidence id)) c s).1 = .ok (some e)) :
    s.evidenceFiles.get? id = some e :=
  (answer_inr h).1

/-- The rows of evidence after a call that the monitor accepts. -/
theorem EvidenceKept.kept_serve {purging : Bool} {s₀ s : Store} {l : ApiLog}
    (h : EvidenceKept purging s₀ l s) (hfresh : FreshIn s₀ l) (rt : Runtime) {op : calls.Op}
    (c : Choice) (hop : evidenceOk purging l op) {id : String} {e₀ : EvidenceFile}
    (hget : s₀.evidenceFiles.get? id = some e₀) :
    (serve rt op c s).2.HasEvidence id e₀.contractId ∨
      purging = true ∧ (serve rt op c s).2.evidenceFiles.get? id = none := by
  have hbefore := h.kept id e₀ hget
  unfold Store.HasEvidence at hbefore ⊢
  rcases evidenceFiles_serve rt op c s with heq | ⟨e, hsave, -, heq⟩ | ⟨id', hdel, -, heq⟩
  · rwa [heq]
  -- the row that was stored, unless this is the one that is saved
  · rw [heq, Table.get?_set]
    split
    · -- the row that is saved: its id is generated, or it was read
      rename_i hid
      refine .inl ⟨e, rfl, ?_⟩
      rw [saveEvidence_of_saved hsave] at hop
      rw [hid] at hget
      rcases hop with hnew | ⟨id'', e₁, hread, hsame, hcontract⟩
      · rw [hfresh e.id hnew] at hget
        cases hget
      · rw [← hsame] at hget
        rw [← hcontract]
        exact h.read id'' e₁ hread e₀ hget
    · exact hbefore
  -- a row goes only where purging is allowed
  · have hpurging : purging = true := by
      cases op with
      | inl op => cases hdel
      | inr op =>
        cases op with
        | deleteEvidence id'' => exact hop
        | _ => cases hdel
    rw [heq, Table.get?_erase]
    split
    · exact .inr ⟨hpurging, rfl⟩
    · exact hbefore

/-- A call that the monitor accepts. -/
theorem EvidenceKept.step {purging : Bool} {s₀ s : Store} {l : ApiLog}
    (h : EvidenceKept purging s₀ l s) (hfresh : FreshIn s₀ l) (rt : Runtime) {op : calls.Op}
    (c : Choice) (hop : evidenceOk purging l op) :
    EvidenceKept purging s₀ (⟨op, (serve rt op c s).1⟩ :: l) (serve rt op c s).2 := by
  refine ⟨?_, fun id e hread e₀ he₀ => ?_, fun id e₀ he₀ => h.kept_serve hfresh rt c hop he₀⟩
  -- the requests of evidence save no dispute
  · rcases disputes_serve rt op c s with heq | ⟨d, rfl, -⟩
    · exact heq.trans h.disputes
    · exact hop.elim
  -- what was read now, and what was read before
  · rcases List.mem_cons.mp hread with heq | hread
    · generalize hr : (serve rt op c s).1 = r at heq
      cases heq
      have hstored := getEvidence_answer hr
      rw [← Table.key_of_get? hstored] at hstored
      rcases h.kept e.id e₀ he₀ with ⟨e', he', hcontract⟩ | ⟨-, hnone⟩
      · rw [hstored] at he'
        cases he'
        exact hcontract
      · rw [hstored] at hnone
        cases hnone
    · exact h.read id e hread e₀ he₀

/-- A request on evidence keeps the disputes, and the contract of the evidence it does not
    delete. -/
theorem evidenceStep_kept {config : Config} {vault : EvidenceVault} {s s' : Store}
    {req : EvidenceRequest} {cs : List Choice} (hreq : ∀ r, req ≠ .other r)
    (h : evidenceStep config vault s (req, cs) = some s')
    (hfresh : FreshIn s (evidenceLog config vault ⟨s, (req, cs), s'⟩)) :
    EvidenceKept req.purges s (evidenceLog config vault ⟨s, (req, cs), s'⟩) s' := by
  let G : ApiLog → Store → Prop := fun l t => FreshIn s l → EvidenceKept req.purges s l t
  have hG : G (evidenceLog config vault ⟨s, (req, cs), s'⟩) s' := by
    refine seqStep_monitored (fun op c l t hop hG _ hfresh' => ?_) (handleEvidence_ok config vault hreq)
      (fun _ => ⟨rfl, fun id e hread => ?_, fun id e₀ he₀ => .inl ⟨e₀, he₀, rfl⟩⟩) h
    · have hl : FreshIn s l := fun id hid => hfresh' id (List.mem_cons_of_mem _ hid)
      exact (hG hl).step hl config.runtime c hop
    · cases hread
  exact hG hfresh

/-- The columns stay in step. -/
theorem evidenceStep_inStep {config : Config} {vault : EvidenceVault} {s s' : Store}
    {a : EvidenceRequest × List Choice} (hs : InStep s) (h : evidenceStep config vault s a = some s') :
    InStep s' := by
  have hkeeps : Keeps (world config.runtime) (fun g => InStep g.2) (handleEvidence config vault a.1)
      fun _ => True :=
    .of_only (Only.of_forall (P := fun _ => True) (fun _ => trivial) _)
      fun op c _ _ _ hstep _ => inStep_serve config.runtime op c hstep
  exact hkeeps.seqStep hs h

/-! ## Runs -/

/-- A retention run deleted the evidence of the contract: it had selected it at the time it
    read. -/
def PurgedBy (config : Config) (vault : EvidenceVault)
    (ms : List (Move Store (EvidenceRequest × List Choice))) (id contractId : String) : Prop :=
  ∃ m ∈ ms, (∃ caller, m.label.1 = .retentionRun caller) ∧
    ∃ e now, m.before.evidenceFiles.get? id = some e ∧ e.contractId = contractId ∧
      (evidenceLog config vault m).getLast? = some ⟨.inl .clock, .ok now⟩ ∧
      e ∈ m.before.evidencesPastRetention now

section Runs

variable {config : Config} {vault : EvidenceVault}

/-- What was purged stays purged. -/
theorem PurgedBy.cons {ms : List (Move Store (EvidenceRequest × List Choice))} {id contractId : String}
    (h : PurgedBy config vault ms id contractId) (m : Move Store (EvidenceRequest × List Choice)) :
    PurgedBy config vault (m :: ms) id contractId := by
  obtain ⟨m', hm', hpurged⟩ := h
  exact ⟨m', List.mem_cons_of_mem _ hm', hpurged⟩

/-- One step of a run. -/
theorem evidenceStep_bundles {ms : List (Move Store (EvidenceRequest × List Choice))}
    {m : Move Store (EvidenceRequest × List Choice)} (hstep : InStep m.before)
    (hs : BundlesStored (PurgedBy config vault ms) m.before)
    (h : evidenceStep config vault m.before m.label = some m.after)
    (hfresh : FreshIn m.before (evidenceLog config vault m)) :
    BundlesStored (PurgedBy config vault (m :: ms)) m.after := by
  obtain ⟨s, ⟨req, cs⟩, s'⟩ := m
  dsimp only at *
  by_cases hreq : ∀ r, req ≠ .other r
  · -- a request about evidence leaves the disputes alone; a missing row was purged by it
    have hkept := evidenceStep_kept hreq h hfresh
    intro d hd id hid
    rw [hkept.disputes] at hd
    rcases hs d hd id hid with ⟨e, hget, hcontract⟩ | hpurged
    · rcases hkept.kept id e hget with hstored | ⟨hpurges, hnone⟩
      · rw [hcontract] at hstored
        exact .inl hstored
      · right
        cases req with
        | retentionRun caller =>
          obtain ⟨c, -, hlog, hmem⟩ := selected_of_missing (P := fun _ => true) (fun _ _ => rfl) h
            hget hnone
          exact ⟨_, List.mem_cons_self, ⟨caller, rfl⟩, e, c.now, hget, hcontract, hlog, hmem⟩
        | _ => cases hpurges
    · exact .inr (hpurged.cons _)
  · simp only [not_forall, not_not] at hreq
    -- a request of the other routes checks the evidence of the disputes that it files
    obtain ⟨r, rfl⟩ := hreq
    intro d hd id hid
    rcases opsStep_bundles hstep hs h d hd id hid with hstored | hpurged
    · exact .inl hstored
    · exact .inr (hpurged.cons _)

/-- The evidence of every dispute is stored as evidence of its contract, unless a retention
    run deleted it. -/
theorem bundles_stored_or_purged {s₀ s : Store}
    {ms : List (Move Store (EvidenceRequest × List Choice))} (hstep : InStep s₀)
    (h₀ : ∀ d ∈ s₀.ops.disputes.rows, ∀ id ∈ d.evidenceBundle, s₀.HasEvidence id d.contractId)
    (run : Run (evidenceStep config vault) s₀ ms s)
    (hfresh : ∀ m ∈ ms, FreshIn m.before (evidenceLog config vault m)) :
    ∀ d ∈ s.ops.disputes.rows, ∀ id ∈ d.evidenceBundle,
      s.HasEvidence id d.contractId ∨ PurgedBy config vault ms id d.contractId := by
  have hboth : InStep s ∧ BundlesStored (PurgedBy config vault ms) s := by
    induction run with
    | nil => exact ⟨hstep, fun d hd id hid => .inl (h₀ d hd id hid)⟩
    | cons run h ih =>
      obtain ⟨hin, hs⟩ := ih fun m hm => hfresh m (List.mem_cons_of_mem _ hm)
      exact ⟨evidenceStep_inStep hin h, evidenceStep_bundles hin hs h (hfresh _ List.mem_cons_self)⟩
  exact hboth.2

end Runs

/-! ## Concrete runs -/

/-- A photo is uploaded, a dispute is filed with it, and a retention run comes at `now`. -/
def filedRun (now : Time) : List (EvidenceRequest × List Choice) :=
  evidenceLabels (openConfig sampleRuntime) contractStore
    [(sampleUpload, sampleEvidenceOracle "1" 1764547200000),
      (.other (.fileDispute none
        { contractId := "ctr_1"
          raisedBy := .tenant
          reasonCode := "deposit_not_returned"
          evidenceIds := ["evd_1"]
          contractId_min := by decide
          reasonCode_min := by decide
          evidenceIds_min := by decide }), sampleEvidenceOracle "2" 1764547200000),
      (.retentionRun openCaller, sampleEvidenceOracle "3" now)]

/-- No identifier that was generated for evidence is in use. -/
def freshCheck (m : Move Store (EvidenceRequest × List Choice)) : Bool :=
  (evidenceLog (openConfig sampleRuntime) sampleVault m).all fun
    | ⟨.inl (.randomId "evd"), .ok id⟩ => (m.before.evidenceFiles.get? id).isNone
    | _ => true

/-- Whether identifiers are fresh can be computed. -/
theorem freshIn_of_check {m : Move Store (EvidenceRequest × List Choice)} (h : freshCheck m = true) :
    FreshIn m.before (evidenceLog (openConfig sampleRuntime) sampleVault m) := by
  intro id hid
  have hnone : (m.before.evidenceFiles.get? id).isNone = true := List.all_eq_true.mp h _ hid
  exact Option.isNone_iff_eq_none.mp hnone

/-- The columns of a store without evidence. -/
theorem inStep_contractStore : InStep contractStore := by
  intro id
  rfl

/-- The retention run comes the next hour: the photo is still there. -/
theorem bundles_stored_or_purged_filed :
    ∃ ms s, Run (evidenceStep (openConfig sampleRuntime) sampleVault) contractStore ms s ∧
      (∃ d ∈ s.ops.disputes.rows, d.status = .filed ∧ d.evidenceBundle = ["evd_1"]) ∧
      (s.evidenceFiles.get? "evd_1").isSome = true ∧
      ∀ d ∈ s.ops.disputes.rows, ∀ id ∈ d.evidenceBundle, s.HasEvidence id d.contractId ∨
        PurgedBy (openConfig sampleRuntime) sampleVault ms id d.contractId := by
  obtain ⟨ms, s, run, hp⟩ := exists_run_of_replay (filedRun 1764550800000)
    (fun r => r.1.all freshCheck &&
      (r.2.ops.disputes.rows.any fun d =>
        decide (d.status = .filed) && decide (d.evidenceBundle = ["evd_1"])) &&
      (r.2.evidenceFiles.get? "evd_1").isSome)
    (by decide +kernel : (replay (evidenceStep (openConfig sampleRuntime) sampleVault)
      contractStore _ []).any _ = true)
  simp only [Bool.and_eq_true, List.all_eq_true, List.any_eq_true, decide_eq_true_eq] at hp
  obtain ⟨⟨hfresh, hfiled⟩, hkept⟩ := hp
  -- the theorem applies to this run, since its identifiers are fresh
  have hbundles := bundles_stored_or_purged inStep_contractStore
    (fun d hd => absurd hd List.not_mem_nil) run (fun m hm => freshIn_of_check (hfresh m hm))
  exact ⟨ms, s, run, hfiled, hkept, hbundles⟩

/-- The retention run comes a month later and deletes the photo of a dispute that is not
    decided. -/
theorem disputed_evidence_purged :
    ¬ ∀ (config : Config) (vault : EvidenceVault) (s₀ s : Store)
      (ms : List (Move Store (EvidenceRequest × List Choice))), InStep s₀ →
      (∀ d ∈ s₀.ops.disputes.rows, ∀ id ∈ d.evidenceBundle, s₀.HasEvidence id d.contractId) →
      Run (evidenceStep config vault) s₀ ms s →
      (∀ m ∈ ms, FreshIn m.before (evidenceLog config vault m)) →
      ∀ d ∈ s.ops.disputes.rows, d.status ≠ .executed → d.status ≠ .rejected →
        ∀ id ∈ d.evidenceBundle, s.HasEvidence id d.contractId := by
  intro h
  obtain ⟨ms, s, run, hp⟩ := exists_run_of_replay (filedRun 1767236400000)
    (fun r => r.1.all freshCheck &&
      (r.2.ops.disputes.rows.any fun d =>
        decide (d.status = .filed) && decide (d.evidenceBundle = ["evd_1"])) &&
      (r.2.evidenceFiles.get? "evd_1").isNone)
    (by decide +kernel : (replay (evidenceStep (openConfig sampleRuntime) sampleVault)
      contractStore _ []).any _ = true)
  simp only [Bool.and_eq_true, List.all_eq_true, List.any_eq_true, decide_eq_true_eq,
    Option.isNone_iff_eq_none] at hp
  obtain ⟨⟨hfresh, d, hd, hstatus, hbundle⟩, hnone⟩ := hp
  -- the claim would keep the evidence of the dispute that is filed
  have hstored := h _ _ contractStore s ms inStep_contractStore
    (fun d hd => absurd hd List.not_mem_nil) run (fun m hm => freshIn_of_check (hfresh m hm)) d hd
    (by rw [hstatus]; decide) (by rw [hstatus]; decide) "evd_1" (by rw [hbundle]; exact List.mem_cons_self)
  obtain ⟨e, hget, -⟩ := hstored
  rw [hnone] at hget
  cases hget

end Bluesafe.Api
