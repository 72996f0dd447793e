import Bluesafe.Api.Settlements
import Bluesafe.Api.Votes
import Bluesafe.Async.Monitored
import Bluesafe.Spec.AuditorReads
import Bluesafe.Spec.Grants

/-!
# What a caller may write: evidence, votes and settlements

The monitor of `Bluesafe.Spec.Grants` for the calls of `Bluesafe.Api`: a new evidence file
belongs to a contract that its uploader may access, metadata and settlements are patched and
evidence is deleted by operators with the scope for it, and a vote comes from a verifier or an
operator that may access the contract of the dispute. The tables of the workers are written by
no request.
-/

namespace Bluesafe.Api

open Async
open Bluesafe.Ops (BluesafeAuth BluesafeRole HasRole Accessed writerRoles judgeRoles canAccessContract
  blockAuditorWriteOperations requireRoles allRoles hasRole_of_guards hasRole_of_requireRoles)

/-- The request has received the answer `a` to `op`. -/
def ApiAnswered (l : ApiLog) (op : Call) (a : op.Res) : Prop :=
  (⟨.inr op, .ok a⟩ : Event calls String) ∈ l

/-- An answer stays in the log. -/
theorem ApiAnswered.mono {l l' : ApiLog} {op : Call} {a : op.Res} (h : ApiAnswered l op a)
    (hl : l <:+ l') : ApiAnswered l' op a :=
  hl.subset h

/-- The answer to a call of `Bluesafe.Ops`. -/
def OpsAnswered (l : ApiLog) (op : Ops.Call) (a : op.Res) : Prop :=
  (⟨.inl op, .ok a⟩ : Event calls String) ∈ l

/-- So does an answer of the book. -/
theorem OpsAnswered.mono {l l' : ApiLog} {op : Ops.Call} {a : op.Res} (h : OpsAnswered l op a)
    (hl : l <:+ l') : OpsAnswered l' op a :=
  hl.subset h

/-- The request has read the contract, and the caller may access it. -/
def MayAccess (config : Config) (auth : Option BluesafeAuth) (l : ApiLog) (contractId : String) :
    Prop :=
  ∃ c, OpsAnswered l (.getContract contractId) (some c) ∧ canAccessContract config.ops auth c = true

/-- And so a caller that may access a contract still may. -/
theorem MayAccess.mono {config : Config} {auth : Option BluesafeAuth} {l l' : ApiLog} {id : String}
    (h : MayAccess config auth l id) (hl : l <:+ l') : MayAccess config auth l' id := by
  obtain ⟨c, hc, hacc⟩ := h
  exact ⟨c, hc.mono hl, hacc⟩

/-- The caller is not stopped by the guard of the scope. -/
def Scoped (config : Config) (caller : Caller) (scope : OperatorConsoleScope) : Prop :=
  requireOperatorScopes config scope caller = none

/-! ## Grants -/

/-- The request has not saved an evidence file yet. -/
def FirstEvidence (l : ApiLog) : Prop :=
  ∀ e r, (⟨.inr (.saveEvidence e), r⟩ : Event calls String) ∉ l

/-- Which evidence file may be saved: a new one of a contract the caller may access, or one
    that an operator has read, of the same contract. -/
inductive EvidenceGrant (config : Config) (caller : Caller) (l : ApiLog) (e : EvidenceFile) : Prop
  | uploaded (hid : OpsAnswered l (.randomId "evd") e.id) (hfirst : FirstEvidence l)
      (hacc : MayAccess config caller.auth l e.contractId)
      (hrole : HasRole config.ops caller.auth writerRoles)
  | patched (id : String) (copy : EvidenceFile) (hread : ApiAnswered l (.getEvidence id) (some copy))
      (hid : e.id = copy.id) (hcontract : e.contractId = copy.contractId)
      (hacc : MayAccess config caller.auth l e.contractId)
      (hrole : HasRole config.ops caller.auth [.operator]) (hscope : Scoped config caller .evidence)

/-- Whose vote may be stored. -/
def VoteGrant (config : Config) (caller : Caller) (l : ApiLog) (v : VerifierVote) : Prop :=
  HasRole config.ops caller.auth judgeRoles ∧
    ∃ d, OpsAnswered l (.getDispute v.disputeId) (some d) ∧
      MayAccess config caller.auth l d.contractId

/-- An operator with the scope. -/
def OperatorGrant (config : Config) (caller : Caller) (scope : OperatorConsoleScope) : Prop :=
  HasRole config.ops caller.auth [.operator] ∧ Scoped config caller scope

/-- The monitor of the access rules. -/
def granted (config : Config) (caller : Caller) (l : ApiLog) : calls.Op → Prop
  | .inl op => Ops.granted config.ops caller.auth (lefts l) op
  | .inr (.saveEvidence e) => EvidenceGrant config caller l e
  | .inr (.deleteEvidence _) => OperatorGrant config caller .purge
  | .inr (.unpinIfPinata _ _) => OperatorGrant config caller .purge
  | .inr (.saveSettlement _) => OperatorGrant config caller .settlements
  | .inr (.appendDisputeVerifierVote v) => VoteGrant config caller l v
  | .inr (.ipfsUpload _) => HasRole config.ops caller.auth writerRoles
  | .inr (.claimExportJobsPending _ _) => False
  | .inr (.updateExportJob _) => False
  | .inr (.touchSettlementsOnLedgerClose _) => False
  | .inr _ => True

/-- Every call of `p` after the log `l` is granted to the caller. -/
abbrev Granted {α : Type} (config : Config) (caller : Caller) (p : ApiM α) (l : ApiLog) : Prop :=
  Safe (granted config caller) p l

section Rules

variable {config : Config} {caller : Caller} {l : ApiLog} {α : Type}

/-- A handler of `Bluesafe.Ops` that meets its own monitor. -/
theorem granted_ofOps {p : Ops.OpsM α} (hp : Ops.Granted config.ops caller.auth p (lefts l)) :
    Granted config caller (ofOps p) l :=
  wp_monitor_inl (fun _ _ h => h) hp

/-- The rule for one call. -/
theorem granted_invoke {op : Call} (h : granted config caller l (.inr op)) :
    Granted config caller (invoke op) l :=
  Gives.call h fun _ => trivial

/-- Audit entries need no grant. -/
theorem granted_writeAudit (entityType entityId action actor : String)
    (before after metadata : Option Ops.JsonObject) :
    Granted config caller (ofOps (Ops.writeAudit entityType entityId action actor before after metadata))
      l :=
  granted_ofOps (Ops.writeAudit_granted _ _ _ _ _ _ _)

/-- Nor do events. -/
theorem granted_emitEvent (eventType entityType entityId : String) (payload : Ops.JsonObject) :
    Granted config caller (ofOps (Ops.emitEvent eventType entityType entityId payload)) l :=
  granted_ofOps (Ops.emitEvent_granted _ _ _ _)

/-- Nor do notices to the parties. -/
theorem granted_notifyParties (contractId eventType : String) (payload : Ops.JsonObject) :
    Granted config caller (ofOps (Ops.notifyParties contractId eventType payload)) l :=
  granted_ofOps (Ops.notifyParties_granted _ _ _)

/-- A read is granted to everybody. -/
theorem granted_of_isRead {op : calls.Op} (h : isRead op = true) : granted config caller l op := by
  cases op with
  | inl op => cases op <;> trivial
  | inr op => cases op <;> trivial

/-- A program of reads needs no grant. -/
theorem granted_of_reads {p : ApiM α} (hp : ReadsOnly p) : Granted config caller p l :=
  hp.safe (fun _ _ => granted_of_isRead) l

/-- One call that everybody may make, with its answer in the log. -/
theorem granted_invokeRead {op : Call} (h : isRead (.inr op) = true) :
    Gives (granted config caller) (invoke op) (fun a l' => ApiAnswered l' op a) l :=
  Gives.call (granted_of_isRead h) fun _ => List.mem_cons_self

/-- One call of `Bluesafe.Ops` that everybody may make, with its answer in the log. -/
theorem granted_read {op : Ops.Call} (h : isRead (.inl op) = true) :
    Gives (granted config caller) (ofOps (Ops.invoke op))
      (fun a l' => OpsAnswered l' op a ∧ l' = ⟨.inl op, .ok a⟩ :: l) l := by
  rw [ofOps_invoke]
  exact Gives.call (granted_of_isRead h) fun a => ⟨List.mem_cons_self, rfl⟩

/-- A handler that writes runs behind its guards. -/
theorem writeRoute_granted {allowed : List BluesafeRole} {handler : ApiM Response}
    (hp : blockAuditorWriteOperations config.ops caller.auth = none →
      requireRoles config.ops allowed caller.auth = none → Granted config caller handler l) :
    Granted config caller (writeRoute config allowed caller handler) l := by
  unfold writeRoute route
  split
  · exact Gives.pure trivial
  · rename_i hblock
    split
    · exact Gives.pure trivial
    · rename_i hroles
      exact hp hblock hroles

/-- A route of the operator console. -/
theorem operatorRoute_granted {scope : OperatorConsoleScope} {handler : ApiM Response}
    (hp : OperatorGrant config caller scope → Granted config caller handler l) :
    Granted config caller (operatorRoute config scope caller handler) l := by
  unfold operatorRoute
  refine writeRoute_granted fun hblock hroles => ?_
  split
  · exact Gives.pure trivial
  · rename_i hscope
    exact hp ⟨hasRole_of_guards hblock hroles (by decide), hscope⟩

/-- The check of the contract of a row. -/
theorem contractAccessible_granted (contractId : String) :
    Gives (granted config caller) (contractAccessible config caller.auth contractId)
      (fun ok l' => ok = true → MayAccess config caller.auth l' contractId) l := by
  unfold contractAccessible
  refine Gives.bind (granted_read rfl) fun found l₁ _ hread => ?_
  cases found with
  | none => exact Gives.pure fun h => nomatch h
  | some c => exact Gives.pure fun hacc => ⟨c, hread.1, hacc⟩

end Rules

/-! ## Uploads -/

section Handlers

variable {config : Config} {caller : Caller} {l : ApiLog}

/-- No call but that of an upload saves a new file: what comes before it are reads and the
    upload itself. -/
def beforeSave (op : calls.Op) : Prop :=
  isRead op = true ∨ ∃ input, op = .inr (.ipfsUpload input)

/-- Calls before the save leave the evidence the first. -/
theorem FirstEvidence.cons {l : ApiLog} (h : FirstEvidence l) {op : calls.Op}
    {r : Except String (calls.Res op)} (hop : beforeSave op) : FirstEvidence (⟨op, r⟩ :: l) := by
  intro e r' hmem
  rcases List.mem_cons.mp hmem with heq | hmem
  · cases heq
    rcases hop with hread | ⟨input, heq⟩
    · exact nomatch hread
    · exact nomatch heq
  · exact h e r' hmem

/-- A part of an upload that does not save anything. -/
theorem gives_firstEvidence {α : Type} {p : ApiM α} (hp : Async.Only beforeSave p)
    (hrole : HasRole config.ops caller.auth writerRoles) (hl : FirstEvidence l) :
    Gives (granted config caller) p (fun _ l' => FirstEvidence l') l := by
  refine Async.Only.gives hp (fun l op hop _ => ?_) (fun l op r hop hG => hG.cons hop) hl
  rcases hop with hread | ⟨input, rfl⟩
  · exact granted_of_isRead hread
  · exact hrole

/-- A program of reads comes before the save. -/
theorem ReadsOnly.beforeSave {α : Type} {p : ApiM α} (hp : ReadsOnly p) :
    Async.Only beforeSave p :=
  hp.mono fun _ h => .inl h

/-- The data key is looked up. -/
theorem resolveDataKey_reads : ReadsOnly resolveDataKey :=
  .tryCatch (.map (invoke_reads rfl)) fun _ => .pure

/-- An upload to the provider saves no row. -/
theorem uploadFile_beforeSave (input : UploadToIpfsInput) :
    Async.Only beforeSave (uploadFile input) := by
  refine .tryCatch (.map (.call (.inr ⟨input, rfl⟩))) fun _ => .pure

/-- The retention of an upload is looked up. -/
theorem uploadRetention_reads (vault : EvidenceVault) (days : Option Nat) :
    ReadsOnly (uploadRetention vault days) := by
  cases days with
  | none => exact .pure
  | some days => exact .bind (opsInvoke_reads rfl) fun _ => .pure

/-- An upload is announced to whom it may concern. -/
theorem announceUpload_granted (vault : EvidenceVault) (e : EvidenceFile) :
    Granted config caller (announceUpload vault e) l := by
  unfold announceUpload
  exact Gives.bind (granted_writeAudit _ _ _ _ _ _ _) fun _ _ _ _ => granted_emitEvent _ _ _ _

/-- The row of an upload is a new one, for the contract that was checked. -/
theorem storeEvidence_granted {vault : EvidenceVault} {file : UploadedFile}
    {form : EvidenceUploadForm} {hash : String} {encrypted : Bool} {uploaded : UploadToIpfsResult}
    (hrole : HasRole config.ops caller.auth writerRoles) (hl : FirstEvidence l)
    (hacc : MayAccess config caller.auth l form.contractId) :
    Granted config caller (storeEvidence vault file form hash encrypted uploaded) l := by
  unfold storeEvidence
  refine Gives.bind (R := fun id l' => OpsAnswered l' (.randomId "evd") id ∧ FirstEvidence l')
    ?_ fun id l₁ hl₁ ⟨hid, hfirst₁⟩ => ?_
  · exact (granted_read rfl).mono fun id l' _ h => ⟨h.1, h.2 ▸ hl.cons (.inl rfl)⟩
  -- What follows up to the save only reads.
  have hread : ∀ {α : Type} {p : ApiM α} {l : ApiLog}, ReadsOnly p → FirstEvidence l →
      Gives (granted config caller) p (fun _ l' => FirstEvidence l') l :=
    fun hp h => gives_firstEvidence hp.beforeSave hrole h
  refine Gives.bind (hread (invoke_reads rfl) hfirst₁) fun existing l₂ hl₂ hfirst₂ => ?_
  refine Gives.bind (hread (opsInvoke_reads rfl) hfirst₂) fun createdAt l₃ hl₃ hfirst₃ => ?_
  refine Gives.bind (hread (uploadRetention_reads vault form.retentionDays) hfirst₃)
    fun retainUntil l₄ hl₄ hfirst₄ => ?_
  have hl := hl₂.trans (hl₃.trans hl₄)
  refine Gives.bind (granted_invoke (.uploaded (hid.mono hl) hfirst₄ (hacc.mono (hl₁.trans hl)) hrole))
    fun _ l₅ _ _ => ?_
  exact Gives.bind (announceUpload_granted vault _) fun _ _ _ _ => Gives.pure trivial

/-- Evidence is stored by a writer. -/
theorem uploadEvidence_granted {vault : EvidenceVault} {file : UploadedFile}
    {form : EvidenceUploadForm} (hrole : HasRole config.ops caller.auth writerRoles)
    (hl : FirstEvidence l) (hacc : MayAccess config caller.auth l form.contractId) :
    Granted config caller (uploadEvidence config vault file form) l := by
  unfold uploadEvidence
  refine Gives.bind (gives_firstEvidence resolveDataKey_reads.beforeSave hrole hl)
    fun key l₁ hl₁ hfirst₁ => ?_
  cases key with
  | error reply => exact Gives.pure trivial
  | ok key =>
    refine Gives.bind (gives_firstEvidence (uploadFile_beforeSave _) hrole hfirst₁)
      fun result l₂ hl₂ hfirst₂ => ?_
    cases result with
    | error reply => exact Gives.pure trivial
    | ok uploaded =>
      exact storeEvidence_granted hrole hfirst₂ (hacc.mono (hl₁.trans hl₂))

/-- The dispute of an upload is looked up. -/
theorem disputeOfContract_reads (contractId : String) (disputeId : Option String) :
    ReadsOnly (disputeOfContract contractId disputeId) := by
  cases disputeId with
  | none => exact .pure
  | some id =>
    refine .bind (opsInvoke_reads rfl) fun dispute => ?_
    cases dispute with
    | none => exact .pure
    | some d => exact .pure

/-- An upload is stored for a contract that the caller may access. -/
theorem postEvidence_granted (vault : EvidenceVault) (file : Option UploadedFile)
    (form : EvidenceUploadForm) (hl : FirstEvidence l) :
    Granted config caller (postEvidence config vault caller file form) l := by
  -- the roles of the caller come from the guard of the route
  unfold postEvidence
  refine writeRoute_granted fun hblock hroles => ?_
  have hrole := Ops.hasRole_writers hblock hroles
  cases file with
  | none => exact Gives.pure trivial
  | some file =>
    dsimp only
    split
    · exact Gives.pure trivial
    -- the contract is read, and its access is checked
    · refine Gives.bind (R := fun found l' => OpsAnswered l' (.getContract form.contractId) found ∧
        FirstEvidence l') ?_ fun found l₁ _ ⟨hread, hfirst⟩ => ?_
      · exact (granted_read rfl).mono fun found l' _ h => ⟨h.1, h.2 ▸ hl.cons (.inl rfl)⟩
      cases found with
      | none => exact Gives.pure trivial
      | some c =>
        dsimp only
        split
        · rename_i hacc
          -- the named dispute must be of that contract
          refine Gives.bind (gives_firstEvidence (disputeOfContract_reads _ _).beforeSave hrole hfirst)
            fun ok l₂ hl₂ hfirst₂ => ?_
          split
          · split
            · exact Gives.pure trivial
            -- behind both checks the row is written
            · exact uploadEvidence_granted hrole hfirst₂ ⟨c, hread.mono hl₂, hacc⟩
          · exact Gives.pure trivial
        · exact Gives.pure trivial

/-! ## Verification and metadata -/

/-- A body is parsed before the handler runs. -/
theorem withRequest_granted {α : Type} {request : Except Response α} {handler : α → ApiM Response}
    (h : ∀ a, Granted config caller (handler a) l) :
    Granted config caller (withRequest request handler) l := by
  cases request with
  | error reply => exact Gives.pure trivial
  | ok a => exact h a

/-- Evidence that is verified. -/
theorem verifyEvidence_granted (cid expectedSha256 : String) :
    Granted config caller (verifyEvidence config caller cid expectedSha256) l := by
  unfold verifyEvidence
  refine writeRoute_granted fun _ _ => withRequest_granted fun ⟨cid, sha⟩ => ?_
  unfold verifyByCid
  refine Gives.bind (granted_invokeRead rfl) fun found l₁ _ _ => ?_
  cases found with
  | none => exact Gives.pure trivial
  | some e =>
    refine Gives.bind (contractAccessible_granted e.contractId) fun ok l₂ _ _ => ?_
    split
    · exact Gives.bind (granted_writeAudit _ _ _ _ _ _ _) fun _ _ _ _ => Gives.pure trivial
    · exact Gives.pure trivial

/-- A handler behind the check of a file finds its copy in the log, and the caller may access
    its contract. -/
theorem withEvidence_granted {evidenceId message : String} {handler : EvidenceFile → ApiM Response}
    (h : ∀ e l', ApiAnswered l' (.getEvidence evidenceId) (some e) →
      MayAccess config caller.auth l' e.contractId → Granted config caller (handler e) l') :
    Granted config caller (withEvidence config caller.auth evidenceId message handler) l := by
  unfold withEvidence
  refine Gives.bind (granted_invokeRead rfl) fun found l₁ _ hread => ?_
  cases found with
  | none => exact Gives.pure trivial
  | some e =>
    refine Gives.bind (contractAccessible_granted e.contractId) fun ok l₂ hl₂ hacc => ?_
    split
    · rename_i hok
      exact h e l₂ (hread.mono hl₂) (hacc hok)
    · exact Gives.pure trivial

/-- A patch keeps the file and its contract. -/
theorem MetadataPatch.patch_same {rt : Runtime} {body : MetadataPatch} {e next : EvidenceFile}
    (h : body.patch rt e = .ok next) : next.id = e.id ∧ next.contractId = e.contractId := by
  unfold MetadataPatch.patch at h
  split at h
  · exact nomatch h
  · split at h
    · exact nomatch h
    · cases h
      exact ⟨rfl, rfl⟩

/-- The patch of its metadata. -/
theorem patchEvidenceMetadata_granted (evidenceId : String) (body : MetadataPatch) :
    Granted config caller (patchEvidenceMetadata config caller evidenceId body) l := by
  unfold patchEvidenceMetadata
  refine operatorRoute_granted fun hgrant => withEvidence_granted fun e l₁ hread hacc => ?_
  split
  · exact Gives.pure trivial
  · rename_i next hpatch
    obtain ⟨hid, hcontract⟩ := MetadataPatch.patch_same hpatch
    unfold storeMetadata
    refine Gives.bind (granted_invoke (.patched evidenceId e hread hid hcontract
      (hcontract ▸ hacc) hgrant.1 hgrant.2)) fun _ _ _ _ => ?_
    refine Gives.bind (granted_writeAudit _ _ _ _ _ _ _) fun _ _ _ _ => ?_
    exact Gives.bind (granted_emitEvent _ _ _ _) fun _ _ _ _ => Gives.pure trivial

/-- A retention run needs an operator. -/
theorem retentionRun_granted : Granted config caller (retentionRun config caller) l := by
  unfold retentionRun
  refine operatorRoute_granted fun hgrant => ?_
  refine Gives.bind (granted_read rfl) fun now _ _ _ => ?_
  refine Gives.bind (granted_invokeRead rfl) fun past _ _ _ => ?_
  refine Gives.bind (Gives.forM fun ev l₁ _ _ => ?_) fun _ _ _ _ => Gives.pure trivial
  unfold purgeEvidence
  refine Gives.bind (R := fun _ _ => True) ?_ fun _ _ _ _ => ?_
  · exact Gives.tryCatch (granted_invoke hgrant) fun _ _ _ => Gives.pure trivial
  refine Gives.bind (granted_invoke hgrant) fun _ _ _ _ => ?_
  refine Gives.bind (granted_writeAudit _ _ _ _ _ _ _) fun _ _ _ _ => ?_
  exact granted_emitEvent _ _ _ _

/-! ## Votes and settlements -/

/-- A vote needs a verifier. -/
theorem postVerifierVote_granted (disputeId : String) (body : DisputeVerifierVoteBody) :
    Granted config caller (postVerifierVote config caller disputeId body) l := by
  -- the dispute is read first, then the access to its contract
  unfold postVerifierVote
  refine writeRoute_granted fun hblock hroles => ?_
  have hrole := Ops.hasRole_judges hblock hroles
  refine Gives.bind (granted_read rfl) fun found l₁ _ hread => ?_
  cases found with
  | none => exact Gives.pure trivial
  | some d =>
    refine Gives.bind (contractAccessible_granted d.contractId) fun ok l₂ hl₂ hacc => ?_
    split
    · rename_i hok
      split
      -- the listed votes decide whether one is stored
      · refine Gives.bind (granted_invokeRead rfl) fun prior l₃ hl₃ _ => ?_
        split
        · exact Gives.pure trivial
        · unfold storeVote
          refine Gives.bind (granted_read rfl) fun id l₄ hl₄ _ => ?_
          refine Gives.bind (granted_read rfl) fun createdAt l₅ hl₅ _ => ?_
          -- the grant of the save needs both of these answers, which stay in the log
          have hl := hl₃.trans (hl₄.trans hl₅)
          refine Gives.bind (granted_invoke ⟨hrole, d, hread.1.mono (hl₂.trans hl), (hacc hok).mono hl⟩)
            fun _ _ _ _ => ?_
          refine Gives.bind (granted_emitEvent _ _ _ _) fun _ _ _ _ => ?_
          exact Gives.bind (granted_writeAudit _ _ _ _ _ _ _) fun _ _ _ _ => Gives.pure trivial
      · exact Gives.pure trivial
    · exact Gives.pure trivial

/-- The announcement of a patch. -/
theorem announcePatch_granted (autoNotify : Bool) (settlementId : String) (body : SettlementPatch)
    (s updated : SettlementRecord) :
    Granted config caller (announcePatch autoNotify caller settlementId body s updated) l := by
  unfold announcePatch emitStatusUpdated emitFinancialsAttached notifyAccrued notifyConfirmed
  -- each notice is one call or none, and none of them needs a role
  refine Gives.bind (granted_writeAudit _ _ _ _ _ _ _) fun _ _ _ _ => ?_
  refine Gives.bind (R := fun _ _ => True) ?_ fun _ _ _ _ => ?_
  · split
    · exact granted_emitEvent _ _ _ _
    · exact Gives.pure trivial
  refine Gives.bind (R := fun _ _ => True) ?_ fun _ _ _ _ => ?_
  · split
    · exact Gives.bind (granted_emitEvent _ _ _ _) fun _ _ _ _ => granted_notifyParties _ _ _
    · exact Gives.pure trivial
  refine Gives.bind (R := fun _ _ => True) ?_ fun _ _ _ _ => ?_
  · split
    · exact granted_notifyParties _ _ _
    · exact Gives.pure trivial
  refine Gives.bind (R := fun _ _ => True) ?_ fun _ _ _ _ => Gives.pure trivial
  split
  · exact granted_notifyParties _ _ _
  · exact Gives.pure trivial

/-- The patch of a settlement needs an operator. -/
theorem patchSettlementStatus_granted (autoNotify : Bool) (settlementId : String)
    (body : SettlementPatch) :
    Granted config caller (patchSettlementStatus config autoNotify caller settlementId body) l := by
  unfold patchSettlementStatus
  refine operatorRoute_granted fun hgrant => ?_
  -- the settlement must be stored; an archived one is refused
  refine Gives.bind (granted_invokeRead rfl) fun found _ _ _ => ?_
  cases found with
  | none => exact Gives.pure trivial
  | some s =>
    dsimp only
    split
    · exact Gives.pure trivial
    · unfold storePatch
      refine Gives.bind (granted_read rfl) fun t _ _ _ => ?_
      -- the save is granted by the role of the operator
      refine Gives.bind (granted_invoke hgrant) fun _ _ _ _ => ?_
      exact announcePatch_granted _ _ _ _ _

/-! ## Reads -/

/-- Every `GET` handler, with every query. -/
theorem read_granted (q : Query) (r : Route) :
    Granted config caller (read config caller.auth q r) l := by
  by_cases h : ∀ txHash, r = .xrplTransaction txHash →
      (shouldRefresh q && config.ops.xrplEnabled) = false
  · exact granted_of_reads (read_reads h)
  · obtain ⟨txHash, rfl⟩ : ∃ txHash, r = .xrplTransaction txHash := by
      by_contra hne
      exact h fun txHash heq => absurd ⟨txHash, heq⟩ hne
    refine Gives.bind (granted_ofOps (Ops.getTransaction_granted txHash (shouldRefresh q)))
      fun _ _ _ _ => Gives.pure trivial

end Handlers

end Bluesafe.Api
