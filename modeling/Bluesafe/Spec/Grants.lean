import Bluesafe.Spec.Justified

/-!
# What a caller may write

`granted` is the monitor of the access rules: which caller may save which row. A contract is
saved by a caller that may access it, a dispute by one that may access its contract (read
before), by an operator that escalates it, or as the result that the ledger gives it. The
writes of the review need the role of a reviewer, and the tables of the workers are written
by no request.

Every handler of a request in `Bluesafe.Ops` meets the monitor of its caller.
-/

namespace Bluesafe.Ops

open Async

/-- With authentication on, the caller has one of the roles. -/
def HasRole (config : Config) (auth : Option BluesafeAuth) (allowed : List BluesafeRole) : Prop :=
  config.authEnabled = true → ∃ a, auth = some a ∧ a.role ∈ allowed

/-- The roles that may write: an auditor only reads. -/
def writerRoles : List BluesafeRole := [.tenant, .landlord, .operator, .verifier]

/-- The roles that judge disputes. -/
def judgeRoles : List BluesafeRole := [.operator, .verifier]

/-- A role out of fewer is a role out of more. -/
theorem HasRole.mono {config : Config} {auth : Option BluesafeAuth}
    {allowed allowed' : List BluesafeRole} (h : HasRole config auth allowed)
    (hsub : allowed ⊆ allowed') : HasRole config auth allowed' := by
  intro hon
  obtain ⟨a, ha, hrole⟩ := h hon
  exact ⟨a, ha, hsub hrole⟩

/-- A request that passes the guard of the roles. -/
theorem hasRole_of_requireRoles {config : Config} {auth : Option BluesafeAuth}
    {allowed : List BluesafeRole} (h : requireRoles config allowed auth = none) :
    HasRole config auth allowed := by
  intro hon
  simp only [requireRoles, hon, Bool.not_true, Bool.false_eq_true, if_false] at h
  split at h
  · rename_i a
    split at h
    · rename_i hrole
      exact ⟨a, rfl, hrole⟩
    · exact nomatch h
  · exact nomatch h

/-- A request that passes both guards of a writing route. -/
theorem hasRole_of_guards {config : Config} {auth : Option BluesafeAuth}
    {allowed writers : List BluesafeRole}
    (hblock : blockAuditorWriteOperations config auth = none)
    (hroles : requireRoles config allowed auth = none)
    (hsub : ∀ r ∈ allowed, r ≠ .auditor → r ∈ writers) : HasRole config auth writers := by
  intro hon
  obtain ⟨a, rfl, hrole⟩ := hasRole_of_requireRoles hroles hon
  refine ⟨a, rfl, hsub _ hrole fun hauditor => ?_⟩
  simp [blockAuditorWriteOperations, hon, hauditor] at hblock

/-- The request has read the contract, and the caller may access it. -/
def Accessed (config : Config) (auth : Option BluesafeAuth) (l : OpsLog) (contractId : String) :
    Prop :=
  ∃ c, Answered l (.getContract contractId) (some c) ∧ canAccessContract config auth c = true

/-- What was read stays in the log. -/
theorem Accessed.mono {config : Config} {auth : Option BluesafeAuth} {l l' : OpsLog} {id : String}
    (h : Accessed config auth l id) (hl : l <:+ l') : Accessed config auth l' id := by
  obtain ⟨c, hc, hacc⟩ := h
  exact ⟨c, hc.mono hl, hacc⟩

/-! ## Grants -/

/-- The request has not saved a contract yet. -/
def FirstContract (l : OpsLog) : Prop := ∀ c r, (⟨.saveContract c, r⟩ : Event calls String) ∉ l

/-- The request has not saved a dispute yet. -/
def FirstDispute (l : OpsLog) : Prop := ∀ d r, (⟨.saveDispute d, r⟩ : Event calls String) ∉ l

/-- Two rows of one contract with the same parties. -/
def Contract.SameParties (c copy : Contract) : Prop :=
  c.id = copy.id ∧ c.tenantId = copy.tenantId ∧ c.landlordId = copy.landlordId

/-- Two rows of one dispute. -/
def DisputeCase.SameCase (d copy : DisputeCase) : Prop :=
  d.id = copy.id ∧ d.contractId = copy.contractId

/-- The access rules agree on two rows with the same parties. -/
theorem Contract.SameParties.access {config : Config} {auth : Option BluesafeAuth}
    {c copy : Contract} (h : c.SameParties copy) :
    canAccessContract config auth c = canAccessContract config auth copy := by
  unfold canAccessContract
  rw [h.2.1, h.2.2]

/-- Whose contract may be saved: a new one under a new identifier, or one that was read, with
    its parties. -/
inductive ContractGrant (config : Config) (auth : Option BluesafeAuth) (l : OpsLog)
    (c : Contract) : Prop
  | created (hid : Answered l (.randomId "ctr") c.id) (hfirst : FirstContract l)
      (hacc : canAccessContract config auth c = true)
  | updated (id : String) (copy : Contract) (hread : Answered l (.getContract id) (some copy))
      (hsame : c.SameParties copy) (hacc : canAccessContract config auth c = true)

/-- Which dispute may be saved. -/
inductive DisputeGrant (config : Config) (auth : Option BluesafeAuth) (l : OpsLog)
    (d : DisputeCase) : Prop
  | filed (hid : Answered l (.randomId "dsp") d.id) (hfirst : FirstDispute l)
      (hacc : Accessed config auth l d.contractId) (hrole : HasRole config auth writerRoles)
      (hstatus : d.status = .filed) (hescalated : d.escalatedAt = none)
  | reviewed (copy : DisputeCase) (hread : ReadDispute l copy) (hsame : d.SameCase copy)
      (hacc : Accessed config auth l d.contractId) (hrole : HasRole config auth writerRoles)
      (hstatus : d.status = .filed ∨ d.status = .underReview)
      (hescalated : d.escalatedAt = none ∨ d.escalatedAt = copy.escalatedAt)
  | judged (copy : DisputeCase) (hread : ReadDispute l copy) (hsame : d.SameCase copy)
      (hacc : Accessed config auth l d.contractId) (hrole : HasRole config auth judgeRoles)
      (hstatus : d.status = .decided ∨ d.status = .executionPending)
      (hescalated : d.escalatedAt = copy.escalatedAt)
  | escalated (copy : DisputeCase) (t : Time) (hread : ReadDispute l copy)
      (hrole : HasRole config auth [.operator]) (hd : d = copy.escalated t)
  | resolved (copy : DisputeCase) (hread : ReadDispute l copy) (hsame : d.SameCase copy)
      (hstatus : d.status = .executed ∨ d.status = .rejected)
      (hescalated : d.escalatedAt = copy.escalatedAt)

/-- Which decision may be saved: one on a dispute that was read, of a contract that the caller
    may access. -/
def DecisionGrant (config : Config) (auth : Option BluesafeAuth) (l : OpsLog)
    (record : CaseDecision) : Prop :=
  ∃ id d, Answered l (.getDispute id) (some d) ∧ record.disputeId = d.id ∧
    Accessed config auth l d.contractId

/-- The monitor of the access rules. -/
def granted (config : Config) (auth : Option BluesafeAuth) (l : OpsLog) : Call → Prop
  | .saveContract c => HasRole config auth writerRoles ∧ ContractGrant config auth l c
  | .saveDispute d => DisputeGrant config auth l d
  | .saveDecision record => HasRole config auth judgeRoles ∧ DecisionGrant config auth l record
  | .submitAndWaitFromWallet _ => HasRole config auth judgeRoles
  | .saveXrplTx _ => HasRole config auth allRoles
  | .tryRecordXrplIngestionEvent _ => False
  | .createDelayedJobIfAbsent _ => False
  | .claimDueDelayedJobs _ _ _ _ => False
  | .deleteDelayedJob _ => False
  | .bumpDelayedJob _ => False
  | _ => True

/-- Every call of `p` after the log `l` is granted to the caller. -/
abbrev Granted {α : Type} (config : Config) (auth : Option BluesafeAuth) (p : OpsM α) (l : OpsLog) :
    Prop :=
  Safe (granted config auth) p l

variable {config : Config} {auth : Option BluesafeAuth} {l : OpsLog}

/-! ## Recording -/

/-- Everybody's audit entries are granted. -/
theorem writeAudit_granted (entityType entityId action actor : String)
    (before after metadata : Option JsonObject) :
    Granted config auth (writeAudit entityType entityId action actor before after metadata) l := by
  unfold writeAudit
  refine Gives.call_then trivial fun _ _ _ => ?_
  refine Gives.call_then trivial fun _ _ _ => ?_
  exact Gives.call trivial fun _ => trivial

/-- So are events. -/
theorem emitEvent_granted (eventType entityType entityId : String) (payload : JsonObject) :
    Granted config auth (emitEvent eventType entityType entityId payload) l := by
  unfold emitEvent
  refine Gives.call_then trivial fun _ _ _ => ?_
  refine Gives.call_then trivial fun _ _ _ => ?_
  refine Gives.call_then trivial fun _ _ _ => ?_
  exact Gives.call trivial fun _ => trivial

/-- So is the notification of the parties. -/
theorem notifyParties_granted (contractId eventType : String) (payload : JsonObject) :
    Granted config auth (notifyParties contractId eventType payload) l := by
  unfold notifyParties
  refine Gives.call_then trivial fun contract _ _ => ?_
  cases contract with
  | none => exact Gives.pure trivial
  | some c => exact Gives.call trivial fun _ => trivial

/-- What follows the save of a dispute. -/
theorem announce_granted {entityType entityId action actor : String}
    {before after metadata : Option JsonObject} {eventType contractId : String}
    {payload notice : JsonObject} {α : Type} {p : OpsM α} (hp : ∀ l, Granted config auth p l) :
    Granted config auth (do
      writeAudit entityType entityId action actor before after metadata
      emitEvent eventType entityType entityId payload
      notifyParties contractId eventType notice
      p) l := by
  refine Gives.bind (writeAudit_granted _ _ _ _ _ _ _) fun _ _ _ _ => ?_
  refine Gives.bind (emitEvent_granted _ _ _ _) fun _ _ _ _ => ?_
  exact Gives.bind (notifyParties_granted _ _ _) fun _ l' _ _ => hp l'

/-! ## Guards -/

/-- Behind the guards of a writing route the caller has passed both. -/
theorem writeRoute_granted {roles : List BluesafeRole} {p : OpsM Reply}
    (hp : blockAuditorWriteOperations config auth = none → requireRoles config roles auth = none →
      Granted config auth p l) : Granted config auth (writeRoute config roles auth p) l :=
  writeRoute_guarded hp

/-- Behind the guard of a reading route it has one of the roles. -/
theorem readRoute_granted {roles : List BluesafeRole} {p : OpsM Reply}
    (hp : requireRoles config roles auth = none → Granted config auth p l) :
    Granted config auth (readRoute config roles auth p) l := by
  unfold readRoute
  split
  · exact Gives.pure trivial
  · rename_i hroles
    exact hp hroles

/-- A caller that may write is no auditor. -/
theorem hasRole_writers (hblock : blockAuditorWriteOperations config auth = none)
    (hroles : requireRoles config allRoles auth = none) : HasRole config auth writerRoles :=
  hasRole_of_guards hblock hroles (by decide)

/-- A caller that may judge is an operator or a verifier. -/
theorem hasRole_judges (hblock : blockAuditorWriteOperations config auth = none)
    (hroles : requireRoles config reviewerRoles auth = none) : HasRole config auth judgeRoles :=
  hasRole_of_guards hblock hroles (by decide)

/-- Nothing was saved before. -/
def NoSaves (l : OpsLog) : Prop := FirstContract l ∧ FirstDispute l

/-- A request that begins has saved nothing. -/
theorem noSaves_nil : NoSaves [] := ⟨fun _ _ h => (nomatch h), fun _ _ h => (nomatch h)⟩

/-- A quiet call saves nothing. -/
theorem NoSaves.cons {l : OpsLog} (h : NoSaves l) (op : Call) (r : Except String op.Res)
    (hop : op.isQuiet = true) : NoSaves (⟨op, r⟩ :: l) := by
  refine ⟨fun c r' hmem => ?_, fun d r' hmem => ?_⟩
  · rcases List.mem_cons.mp hmem with heq | hmem
    · cases heq
      exact nomatch hop
    · exact h.1 c r' hmem
  · rcases List.mem_cons.mp hmem with heq | hmem
    · cases heq
      exact nomatch hop
    · exact h.2 d r' hmem

/-- The handler of one contract finds its copy in the log, and the caller may access it. -/
theorem withContract_granted {id : String} {p : Contract → OpsM Reply}
    (hp : ∀ c l', Answered l' (.getContract id) (some c) → canAccessContract config auth c = true →
      Granted config auth (p c) l') : Granted config auth (withContract config auth id p) l := by
  -- the contract is read first, and then the access to it is checked
  unfold withContract
  refine Gives.call_read trivial fun found l' _ hget => ?_
  cases found with
  | none => exact Gives.pure trivial
  | some c =>
    dsimp only
    split
    · rename_i hacc
      exact hp c l' hget hacc
    · exact Gives.pure trivial

/-- The handler of one dispute finds its copy and its contract in the log. -/
theorem withDispute_granted {id forbidden : String} {p : DisputeCase → OpsM Reply}
    (hp : ∀ d l', Answered l' (.getDispute id) (some d) → Accessed config auth l' d.contractId →
      Granted config auth (p d) l') :
    Granted config auth (withDispute config auth id forbidden p) l := by
  unfold withDispute canAccessDispute
  refine Gives.call_read trivial fun found l₁ _ hget => ?_
  cases found with
  | none => exact Gives.pure trivial
  | some d =>
    -- after the access check: the dispute was read, and access means its contract was
    refine Gives.bind (R := fun ok l' => Answered l' (.getDispute id) (some d) ∧
      (ok = true → Accessed config auth l' d.contractId)) ?_ fun ok l' _ hl' => ?_
    · refine Gives.call_read trivial fun found l₂ hl₂ hcontract => ?_
      have hget₂ : Answered l₂ (.getDispute id) (some d) := Answered.mono hget hl₂
      cases found with
      | none => exact Gives.pure ⟨hget₂, fun h => nomatch h⟩
      | some c => exact Gives.pure ⟨hget₂, fun hacc => ⟨c, hcontract, hacc⟩⟩
    · split
      · rename_i hok
        exact hp d l' hl'.1 (hl'.2 hok)
      · exact Gives.pure trivial

/-! ## Contract handlers -/

/-- The rule for a new contract is the access rule. -/
theorem canAccess_of_createAllowed {c : Contract}
    (h : assertCreateContractAllowed config auth c.tenantId c.landlordId = true) :
    canAccessContract config auth c = true := by
  -- without authentication both answers are positive
  unfold assertCreateContractAllowed at h
  unfold canAccessContract
  split at h
  · rename_i hoff
    rw [if_pos hoff]
  · rename_i hon
    rw [if_neg hon]
    -- the creation asks for the role, and then for the party
    cases auth with
    | none => exact h
    | some a =>
      dsimp only at h ⊢
      cases hrole : a.role <;> rw [hrole] at h <;> exact h

/-- A contract is created by one of its parties, or by a reviewer. -/
theorem createContract_granted (hl : NoSaves l) (body : CreateContractBody) :
    Granted config auth (createContract config auth body) l := by
  unfold createContract
  refine writeRoute_granted fun hblock hroles => ?_
  split
  · rename_i hallowed
    -- two calls come before the save, so it is the first one of the log
    refine Gives.call_bind trivial fun now => ?_
    refine Gives.call_bind trivial fun id => ?_
    have hfirst := ((hl.cons .clock (.ok now) rfl).cons (.randomId "ctr") (.ok id) rfl).1
    refine Gives.call_then ⟨hasRole_writers hblock hroles,
      .created Answered.head hfirst (canAccess_of_createAllowed hallowed)⟩ fun _ _ _ => ?_
    refine Gives.bind (writeAudit_granted _ _ _ _ _ _ _) fun _ _ _ _ => ?_
    refine Gives.bind (emitEvent_granted _ _ _ _) fun _ _ _ _ => ?_
    exact Gives.call_then trivial fun _ _ _ => Gives.pure trivial
  · exact Gives.pure trivial

/-- The end of a contract is notified to whoever it names. -/
theorem notifyContractEnd_granted (contract : Contract) (status : ContractStatus) :
    Granted config auth (notifyContractEnd contract status) l := by
  unfold notifyContractEnd
  -- the contract is read again, and its end is announced to its parties
  refine Gives.call_then trivial fun found _ _ => ?_
  cases found with
  | none => exact Gives.pure trivial
  | some c =>
    dsimp only
    split
    · exact Gives.call trivial fun _ => trivial
    · split
      · exact Gives.call trivial fun _ => trivial
      · exact Gives.pure trivial

/-- The status of a contract is patched by a caller that may access it. -/
theorem patchContractStatus_granted (id : String) (status : ContractStatus) :
    Granted config auth (patchContractStatus config auth id status) l := by
  unfold patchContractStatus
  -- the contract was read, and the caller may access it
  refine writeRoute_granted fun hblock hroles => withContract_granted fun c l₁ hget hacc => ?_
  split
  · refine Gives.call_then trivial fun now l₂ hl₂ => ?_
    -- a status patch leaves the parties
    have hsame : (c.withStatus status now).SameParties c := ⟨rfl, rfl, rfl⟩
    refine Gives.call_then ⟨hasRole_writers hblock hroles,
      .updated id c (hget.mono hl₂) hsame (hsame.access.trans hacc)⟩ fun _ _ _ => ?_
    refine Gives.bind (writeAudit_granted _ _ _ _ _ _ _) fun _ _ _ _ => ?_
    refine Gives.bind (emitEvent_granted _ _ _ _) fun _ _ _ _ => ?_
    exact Gives.bind (notifyContractEnd_granted _ _) fun _ _ _ _ => Gives.pure trivial
  · exact Gives.pure trivial

/-- Whoever may ask the ledger about an anchor may do so. -/
theorem anchorConfirmed_granted (contract : Contract) (txHash : String) :
    Granted config auth (anchorConfirmed config contract txHash) l := by
  -- the answers are looked for under the hash of the request
  have hlook : ∀ live account l, Granted config auth (anchorAnswer.lookIn txHash live account) l := by
    intro live account l
    unfold anchorAnswer.lookIn
    split
    · exact Gives.call_then trivial fun _ _ _ => Gives.pure trivial
    · exact Gives.pure trivial
  unfold anchorConfirmed anchorAnswer
  split
  -- a lookup that throws counts as an answer that is missing
  · refine Gives.tryCatch (Gives.bind (R := fun _ _ => True) ?_ fun _ _ _ _ => Gives.pure trivial)
      fun _ _ _ => Gives.pure trivial
    refine Gives.call_then trivial fun live _ _ => ?_
    exact Gives.bind (hlook _ _ _) fun live l' _ _ => hlook _ _ l'
  · exact Gives.pure trivial

/-- A contract is anchored by a caller that may access it. -/
theorem patchEscrowAnchor_granted (id : String) (body : EscrowAnchorBody) :
    Granted config auth (patchEscrowAnchor config auth id body) l := by
  unfold patchEscrowAnchor
  refine writeRoute_granted fun hblock hroles => withContract_granted fun c l₁ hget hacc => ?_
  dsimp only
  split
  · exact Gives.pure trivial
  · refine Gives.bind (anchorConfirmed_granted c _) fun confirmed l₂ hl₂ _ => ?_
    refine Gives.call_then trivial fun now l₃ hl₃ => ?_
    -- an anchor leaves the parties too
    have hsame : (c.anchored (trim body.txHash) confirmed now).SameParties c := ⟨rfl, rfl, rfl⟩
    refine Gives.call_then ⟨hasRole_writers hblock hroles,
      .updated id c (hget.mono (hl₂.trans hl₃)) hsame (hsame.access.trans hacc)⟩ fun _ _ _ => ?_
    refine Gives.bind (writeAudit_granted _ _ _ _ _ _ _) fun _ _ _ _ => ?_
    refine Gives.bind (emitEvent_granted _ _ _ _) fun _ _ _ _ => ?_
    exact Gives.pure trivial

/-! ## Dispute handlers -/

/-- Evidence files are read, and nothing is saved by that. -/
theorem checkEvidences_granted (contractId : String) (ids : List String) :
    Gives (granted config auth) (checkEvidences contractId ids)
      (fun _ l' => NoSaves l → NoSaves l') l := by
  -- induction on the identifiers; the checks save nothing, whatever they find
  induction ids generalizing l with
  | nil => exact Gives.pure fun h => h
  | cons id rest ih =>
    unfold checkEvidences
    refine Gives.call_bind trivial fun found => ?_
    have hkept : NoSaves l → NoSaves (⟨.getEvidence id, .ok found⟩ :: l) :=
      fun h => h.cons (.getEvidence id) (.ok found) rfl
    cases found with
    | none => exact Gives.pure hkept
    | some ev =>
      dsimp only
      split
      · exact Gives.pure hkept
      · exact ih.mono fun _ _ _ hnext h => hnext (hkept h)

/-- A new dispute belongs to a contract that its caller may access. -/
theorem storeFiledDispute_granted {body : CreateDisputeBody} (hl : NoSaves l)
    (hacc : Accessed config auth l body.contractId) (hrole : HasRole config auth writerRoles)
    (contract : Contract) : Granted config auth (storeFiledDispute contract body) l := by
  unfold storeFiledDispute
  refine Gives.call_bind trivial fun id => ?_
  refine Gives.call_bind trivial fun now => ?_
  -- the identifier and the clock are no saves
  have hnew := (hl.cons (.randomId "dsp") (.ok id) rfl).cons .clock (.ok now) rfl
  have hgrow : l <:+ ⟨.clock, .ok now⟩ :: ⟨.randomId "dsp", .ok id⟩ :: l :=
    (List.suffix_cons _ _).trans (List.suffix_cons _ _)
  have hid : Answered (⟨.clock, .ok now⟩ :: ⟨.randomId "dsp", .ok id⟩ :: l) (.randomId "dsp") id :=
    Answered.head.mono (List.suffix_cons _ _)
  refine Gives.call_then (.filed hid hnew.2 (hacc.mono hgrow) hrole rfl rfl) fun _ _ _ => ?_
  refine Gives.bind (writeAudit_granted _ _ _ _ _ _ _) fun _ _ _ _ => ?_
  refine Gives.bind (emitEvent_granted _ _ _ _) fun _ _ _ _ => ?_
  exact Gives.call_then trivial fun _ _ _ => Gives.pure trivial

/-- A dispute is filed after its contract was read. -/
theorem fileDispute_granted (hl : NoSaves l) (body : CreateDisputeBody) :
    Granted config auth (fileDispute config auth body) l := by
  unfold fileDispute
  refine writeRoute_granted fun hblock hroles => Gives.call_bind trivial fun found => ?_
  cases found with
  | none => exact Gives.pure trivial
  | some c =>
    have hl₁ := hl.cons (.getContract body.contractId) (.ok (some c)) rfl
    dsimp only
    split
    · rename_i hok
      -- the contract was found and is the caller's, so the dispute may be filed
      have hacc : Accessed config auth (⟨.getContract body.contractId, .ok (some c)⟩ :: l)
          body.contractId := ⟨c, Answered.head, hok⟩
      refine Gives.bind (checkEvidences_granted _ _) fun rejected l₂ hl₂ hkept => ?_
      cases rejected with
      | some reply => exact Gives.pure trivial
      | none =>
        exact storeFiledDispute_granted (hkept hl₁) (hacc.mono hl₂)
          (hasRole_writers hblock hroles) c
    · exact Gives.pure trivial

/-- The review of a dispute is moved by a caller that may access its contract. -/
theorem storeReviewStatus_granted {id : String} {next : ReviewStatus} {d : DisputeCase}
    (hget : Answered l (.getDispute id) (some d)) (hacc : Accessed config auth l d.contractId)
    (hrole : HasRole config auth writerRoles) :
    Granted config auth (storeReviewStatus config auth id next d) l := by
  unfold storeReviewStatus auditStatusPatch
  -- the clock for both; the deadline for a review only
  refine Gives.call_then trivial fun t l₁ hl₁ => ?_
  cases next with
  | underReview =>
    refine Gives.call_then trivial fun due l₂ hl₂ => ?_
    have hl := hl₁.trans hl₂
    refine Gives.call_then (.reviewed d (.byId id (hget.mono hl)) ⟨rfl, rfl⟩ (hacc.mono hl) hrole
      (.inr rfl) (.inr rfl)) fun _ _ _ => ?_
    exact announce_granted fun _ => Gives.pure trivial
  | filed =>
    refine Gives.call_then (.reviewed d (.byId id (hget.mono hl₁)) ⟨rfl, rfl⟩ (hacc.mono hl₁)
      hrole (.inl rfl) (.inl rfl)) fun _ _ _ => ?_
    exact Gives.bind (writeAudit_granted _ _ _ _ _ _ _) fun _ _ _ _ => Gives.pure trivial

/-- The same for the whole request. -/
theorem patchDisputeStatus_granted (id : String) (next : ReviewStatus) :
    Granted config auth (patchDisputeStatus config auth id next) l := by
  unfold patchDisputeStatus
  refine writeRoute_granted fun hblock hroles => withDispute_granted fun d l₁ hget hacc => ?_
  split
  · split
    · exact Gives.pure trivial
    · exact storeReviewStatus_granted hget hacc (hasRole_writers hblock hroles)
  · exact Gives.pure trivial

/-- A dispute is escalated by an operator. -/
theorem escalate_granted (id : String) : Granted config auth (escalate config auth id) l := by
  unfold escalate
  refine writeRoute_granted fun hblock hroles => withDispute_granted fun d l₁ hget _ => ?_
  refine Gives.call_then trivial fun t l₂ hl₂ => ?_
  refine Gives.call_then (.escalated d t (.byId id (hget.mono hl₂))
    (hasRole_of_guards hblock hroles (by decide)) rfl) fun _ _ _ => ?_
  exact announce_granted fun _ => Gives.pure trivial

/-- A scan escalates disputes of its page, for an operator. -/
theorem scanDispute_granted {d : DisputeCase} (hread : ReadDispute l d)
    (hrole : HasRole config auth [.operator]) (nowMs : Time) (n : SlaCounters) :
    Granted config auth (scanDispute config nowMs n d) l := by
  unfold scanDispute autoEscalate announceDeadlineExpired
  -- the scan is an operator's, and writes only what it escalates
  cases d.reviewDeadlineAt with
  | none => exact Gives.pure trivial
  | some deadline =>
    dsimp only
    split
    · exact Gives.pure trivial
    · split
      · split
        · refine Gives.bind (R := fun _ _ => True) ?_ fun _ _ _ _ => Gives.pure trivial
          refine Gives.call_then trivial fun t l₁ hl₁ => ?_
          refine Gives.call_then (.escalated d t (hread.mono hl₁) hrole rfl) fun _ _ _ => ?_
          refine Gives.bind (writeAudit_granted _ _ _ _ _ _ _) fun _ _ _ _ => ?_
          refine Gives.bind (emitEvent_granted _ _ _ _) fun _ _ _ _ => ?_
          exact notifyParties_granted _ _ _
        · exact Gives.pure trivial
      · refine Gives.bind (R := fun _ _ => True) ?_ fun _ _ _ _ => Gives.pure trivial
        refine Gives.bind (emitEvent_granted _ _ _ _) fun _ _ _ _ => ?_
        exact notifyParties_granted _ _ _

/-- The page of a scan is what the operator has read. -/
theorem reviewSlaScan_granted : Granted config auth (reviewSlaScan config auth) l := by
  unfold reviewSlaScan
  refine writeRoute_granted fun hblock hroles => Gives.call_then trivial fun nowMs l₁ _ => ?_
  refine Gives.call_read trivial fun items l₂ _ hlist => ?_
  refine Gives.bind (R := fun _ _ => True) (Gives.foldlM trivial fun n d l₃ hd hl₃ _ => ?_)
    fun n l₃ _ _ => Gives.pure trivial
  exact scanDispute_granted (.listed _ _ _ items (Answered.mono hlist hl₃) hd)
    (hasRole_of_guards hblock hroles (by decide)) nowMs n

/-- A decision is made by a reviewer that may access the contract. -/
theorem decision_granted (id : String) (body : DecisionBody) :
    Granted config auth (decision config auth id body) l := by
  unfold decision
  refine writeRoute_granted fun hblock hroles => withDispute_granted fun d l₁ hget hacc => ?_
  have hrole := hasRole_judges hblock hroles
  -- a dispute that is not open for a decision is refused
  split
  · refine Gives.call_then trivial fun decisionId l₂ hl₂ => ?_
    refine Gives.call_then trivial fun createdAt l₃ hl₃ => ?_
    have hl := hl₂.trans hl₃
    refine Gives.call_then ⟨hrole, id, d, hget.mono hl, rfl, hacc.mono hl⟩ fun _ l₄ hl₄ => ?_
    refine Gives.call_then trivial fun t l₅ hl₅ => ?_
    have hl' := hl.trans (hl₄.trans hl₅)
    refine Gives.call_then (.judged d (.byId id (hget.mono hl')) ⟨rfl, rfl⟩ (hacc.mono hl') hrole
      (.inl rfl) rfl) fun _ _ _ => ?_
    exact announce_granted fun _ => Gives.pure trivial
  · exact Gives.pure trivial

/-! ## Tracked transactions -/

/-- The result of an execution is one of the two final ones. -/
theorem executionResult_resolves (outcome : Option OutcomeClass) :
    executionResult outcome = .executed ∨ executionResult outcome = .rejected := by
  unfold executionResult
  split
  · exact .inl rfl
  · exact .inr rfl

/-- A dispute may be resolved by whoever delivers the answer of the ledger. -/
theorem resolveLinkedDispute_granted (row : XrplTransaction) :
    Granted config auth (resolveLinkedDispute row) l := by
  unfold resolveLinkedDispute resolveExecution
  -- only a row with a dispute in it is linked
  split
  · exact Gives.pure trivial
  · rename_i id _
    refine Gives.call_read trivial fun found l₁ _ hget => ?_
    cases found with
    | none => exact Gives.pure trivial
    | some d =>
      dsimp only
      -- and only a dispute that waits for its execution is resolved
      split
      · refine Gives.call_then trivial fun t l₂ hl₂ => ?_
        refine Gives.call_then (.resolved d (.byId id (Answered.mono hget hl₂)) ⟨rfl, rfl⟩
          (executionResult_resolves _) rfl) fun _ _ _ => ?_
        refine Gives.bind (writeAudit_granted _ _ _ _ _ _ _) fun _ _ _ _ => ?_
        refine Gives.bind (emitEvent_granted _ _ _ _) fun _ _ _ _ => ?_
        exact notifyParties_granted _ _ _
      · exact Gives.pure trivial

section Tracked

variable (hrole : HasRole config auth allRoles)

include hrole

/-- So may the row of the transaction be saved. -/
theorem applyLiveTxStatus_granted (h : String) (live : LiveTxStatus) :
    Granted config auth (applyLiveTxStatus h live) l := by
  unfold applyLiveTxStatus
  refine Gives.call_then trivial fun found _ _ => ?_
  cases found with
  | none => exact Gives.pure trivial
  | some row =>
    refine Gives.call_then trivial fun now _ _ => ?_
    refine Gives.call_then hrole fun _ _ _ => ?_
    exact Gives.bind (resolveLinkedDispute_granted _) fun _ _ _ _ => Gives.pure trivial

/-- Every role may track a transaction. -/
theorem upsertTrackedTx_granted (h : String) (p : TrackParams) :
    Granted config auth (upsertTrackedTx h p) l := by
  unfold upsertTrackedTx
  refine Gives.call_then trivial fun now _ _ => ?_
  refine Gives.call_then trivial fun existing _ _ => ?_
  cases existing with
  | none => exact Gives.call_then trivial fun _ _ _ => Gives.call hrole fun _ => trivial
  | some row => exact Gives.call hrole fun _ => trivial

/-- Every role may ask the ledger. -/
theorem lookupAndApply_granted (h : String) : Granted config auth (lookupAndApply h) l := by
  unfold lookupAndApply
  refine Gives.call_then trivial fun live _ _ => ?_
  cases live with
  | none => exact Gives.pure trivial
  | some live =>
    exact Gives.bind (applyLiveTxStatus_granted hrole _ _) fun _ _ _ _ => Gives.pure trivial

/-- The live part of a backfill applies what the ledger says. -/
theorem backfillLive_granted (account : String) :
    Granted config auth (backfillLive account) l := by
  -- an attempt makes the calls of its program
  have hattempt : ∀ {α : Type} {p : OpsM α} {l : OpsLog}, Granted config auth p l →
      Granted config auth (attempt p) l := by
    intro α p l hp
    unfold attempt
    refine Gives.tryCatch ?_ fun _ _ _ => Gives.pure trivial
    exact Gives.bind hp fun _ _ _ _ => Gives.pure trivial
  -- a row of another account is skipped, and so is one that no answer names
  have hrow : ∀ map updated tracked l,
      Granted config auth (backfillLiveRow account map updated tracked) l := by
    intro map updated tracked l
    have happly : Granted config auth (backfillLiveRow.applyRow map updated tracked) l := by
      unfold backfillLiveRow.applyRow
      split
      · exact Gives.pure trivial
      · refine Gives.bind (applyLiveTxStatus_granted hrole _ _) fun applied _ _ _ => ?_
        cases applied <;> exact Gives.pure trivial
    unfold backfillLiveRow
    split
    · split
      · exact Gives.pure trivial
      · exact happly
    · exact happly
  -- one step of the loop over the tracked rows
  have hstep : ∀ map p tracked l,
      Granted config auth (backfillLiveStep account map p tracked) l := by
    intro map p tracked l
    unfold backfillLiveStep
    split
    · exact Gives.pure trivial
    · refine Gives.bind (hattempt (hrow _ _ _ _)) fun r _ _ _ => ?_
      cases r <;> exact Gives.pure trivial
  unfold backfillLive backfillLiveRows
  refine Gives.bind (R := fun _ _ => True) ?_ fun p _ _ _ => ?_
  · refine Gives.bind (hattempt (Gives.call trivial fun _ => trivial)) fun r _ _ _ => ?_
    cases r with
    | error e => exact Gives.pure trivial
    | ok map =>
      -- both lists are read before the loop starts
      refine Gives.bind (hattempt (Gives.call trivial fun _ => trivial)) fun r _ _ _ => ?_
      cases r with
      | error e => exact Gives.pure trivial
      | ok rows => exact Gives.foldlM trivial fun p tracked l _ _ _ => hstep _ _ _ l
  -- what was updated is written into the audit
  · split
    · exact Gives.pure trivial
    · refine Gives.bind (hattempt (writeAudit_granted _ _ _ _ _ _ _)) fun r _ _ _ => ?_
      cases r <;> exact Gives.pure trivial

/-- The simulated part applies what it makes up. -/
theorem backfillSimulated_granted (body : BackfillBody) (updated : Nat) :
    Granted config auth (backfillSimulated body updated) l := by
  unfold backfillSimulated
  refine Gives.call_then trivial fun rows _ _ => ?_
  refine Gives.bind (R := fun _ _ => True)
    (Gives.foldlM trivial fun updated tx _ _ _ _ => ?_) fun updated _ _ _ => ?_
  -- a row that is validated already is skipped
  · unfold backfillSimulatedRow
    split
    · exact Gives.pure trivial
    · refine Gives.call_then trivial fun now _ _ => ?_
      refine Gives.call_then hrole fun _ _ _ => ?_
      exact Gives.bind (applyLiveTxStatus_granted hrole _ _) fun _ _ _ _ => Gives.pure trivial
  · exact Gives.bind (writeAudit_granted _ _ _ _ _ _ _) fun _ _ _ _ => Gives.pure trivial

end Tracked

/-- Tracking is granted to every role. -/
theorem track_granted (body : TrackBody) : Granted config auth (track config auth body) l := by
  -- the notices after the tracking need no grant
  have hannounce : ∀ l, Granted config auth (announceTracked body) l := by
    intro l
    unfold announceTracked
    refine Gives.call_then trivial fun _ _ _ => ?_
    refine Gives.bind (writeAudit_granted _ _ _ _ _ _ _) fun _ _ _ _ => ?_
    exact Gives.bind (emitEvent_granted _ _ _ _) fun _ _ _ _ => Gives.pure trivial
  unfold track
  refine writeRoute_granted fun hblock hroles => ?_
  have hrole := hasRole_of_requireRoles hroles
  refine Gives.bind (upsertTrackedTx_granted hrole _ _) fun _ l₁ _ _ => ?_
  dsimp only
  -- in live mode the row is looked up at once
  split
  · exact Gives.bind (lookupAndApply_granted hrole _) fun _ l₂ _ _ => hannounce l₂
  · exact hannounce l₁

/-- So is a lookup, also one that asks the ledger again. -/
theorem getTransaction_granted (h : String) (fresh : Bool) :
    Granted config auth (getTransaction config auth h fresh) l := by
  -- the reply reads only
  have hreply : ∀ l, Granted config auth (replyTransaction h) l := by
    intro l
    unfold replyTransaction
    refine Gives.call_then trivial fun latest _ _ => ?_
    cases latest with
    | none => exact Gives.throw
    | some latest => exact Gives.pure trivial
  unfold getTransaction
  refine readRoute_granted fun hroles => Gives.call_then trivial fun found l₁ _ => ?_
  cases found with
  | none => exact Gives.pure trivial
  | some _ =>
    dsimp only
    split
    · exact Gives.bind (lookupAndApply_granted (hasRole_of_requireRoles hroles) _)
        fun _ l₂ _ _ => hreply l₂
    · exact hreply l₁

/-- So is a refresh. -/
theorem refresh_granted (h : String) : Granted config auth (refresh config auth h) l := by
  unfold refresh
  refine writeRoute_granted fun hblock hroles => Gives.call_then trivial fun found _ _ => ?_
  -- whoever may write may track
  have hrole : HasRole config auth allRoles := (hasRole_judges hblock hroles).mono (by decide)
  cases found with
  | none => exact Gives.pure trivial
  | some _ =>
    dsimp only
    split
    · refine Gives.call_then trivial fun live _ _ => ?_
      cases live with
      | none => exact Gives.pure trivial
      | some live =>
        refine Gives.bind (applyLiveTxStatus_granted hrole _ _) fun _ _ _ _ => ?_
        unfold replyRefreshed
        refine Gives.call_then trivial fun latest _ _ => ?_
        cases latest with
        | none => exact Gives.throw
        | some latest => exact Gives.pure trivial
    · exact Gives.pure trivial

/-- So is a backfill. -/
theorem backfill_granted (body : BackfillBody) :
    Granted config auth (backfill config auth body) l := by
  unfold backfill
  refine writeRoute_granted fun hblock hroles => ?_
  have hrole : HasRole config auth allRoles := (hasRole_judges hblock hroles).mono (by decide)
  -- in live mode the ledger is asked first, and the simulation comes when it fails
  split
  · refine Gives.bind (backfillLive_granted hrole _) fun p l₁ _ _ => ?_
    split
    · exact Gives.pure trivial
    · refine Gives.bind (writeAudit_granted _ _ _ _ _ _ _) fun _ l₂ _ _ => ?_
      exact backfillSimulated_granted hrole _ _
  · exact backfillSimulated_granted hrole _ _

/-! ## Execution -/

/-- An escrow transaction is submitted for a reviewer. -/
theorem trySubmitDisputeExecution_granted (hrole : HasRole config auth judgeRoles)
    (body : ExecutionBody) : Granted config auth (trySubmitDisputeExecution config body) l := by
  unfold trySubmitDisputeExecution
  dsimp only
  split
  -- the four ways out, and then the submission under the role of the judge
  · exact Gives.pure trivial
  · split
    · exact Gives.pure trivial
    · split
      · exact Gives.throw
      · split
        · exact Gives.throw
        · exact Gives.call_then hrole fun _ _ _ => Gives.pure trivial

/-- A hash is chosen for a reviewer. -/
theorem chooseExecutionHash_granted (hrole : HasRole config auth judgeRoles) (d : DisputeCase)
    (body : ExecutionBody) : Granted config auth (chooseExecutionHash config d body) l := by
  unfold chooseExecutionHash submitOrReply
  -- the hash of the body, of a submission, or a synthetic one
  split
  · exact Gives.pure trivial
  · refine Gives.bind (R := fun _ _ => True) ?_ fun r _ _ _ => ?_
    · refine Gives.tryCatch ?_ fun _ _ _ => Gives.pure trivial
      exact Gives.bind (trySubmitDisputeExecution_granted hrole body) fun _ _ _ _ =>
        Gives.pure trivial
    · match r with
      | .error reply => exact Gives.pure trivial
      | .ok (some h) => exact Gives.pure trivial
      | .ok none =>
        dsimp only
        split
        · exact Gives.call_then trivial fun _ _ _ => Gives.pure trivial
        · exact Gives.pure trivial

/-- The execution is tracked like any other transaction. -/
theorem trackExecution_granted (hrole : HasRole config auth allRoles) (d : DisputeCase)
    (body : ExecutionBody) (chosen : ExecutionHash) :
    Granted config auth (trackExecution config d body chosen) l := by
  unfold trackExecution
  split
  -- in live mode the ledger must not name another type
  · refine Gives.call_then trivial fun live _ _ => ?_
    split
    · exact Gives.pure trivial
    · refine Gives.bind (upsertTrackedTx_granted hrole _ _) fun _ _ _ _ => ?_
      cases live with
      | none => exact Gives.pure trivial
      | some live =>
        exact Gives.bind (applyLiveTxStatus_granted hrole _ _) fun _ _ _ _ => Gives.pure trivial
  · exact Gives.bind (upsertTrackedTx_granted hrole _ _) fun _ _ _ _ => Gives.pure trivial

/-- A dispute waits for its execution after a reviewer has read it and its contract. -/
theorem acceptExecution_granted {id : String} {d : DisputeCase}
    (hget : Answered l (.getDispute id) (some d)) (hacc : Accessed config auth l d.contractId)
    (hrole : HasRole config auth judgeRoles) (body : ExecutionBody) (chosen : ExecutionHash)
    (now : Time) : Granted config auth (acceptExecution auth d body chosen now) l := by
  unfold acceptExecution
  refine Gives.call_then (.judged d (.byId id hget) ⟨rfl, rfl⟩ hacc hrole (.inr rfl) rfl)
    fun _ _ _ => ?_
  exact announce_granted fun _ => Gives.call_then trivial fun _ _ _ => Gives.pure trivial

/-- The same for the whole request. -/
theorem execution_granted (id : String) (body : ExecutionBody) :
    Granted config auth (execution config auth id body) l := by
  unfold execution
  refine writeRoute_granted fun hblock hroles => withDispute_granted fun d l₁ hget hacc => ?_
  have hrole := hasRole_judges hblock hroles
  -- the roles that may judge are among those that may track
  split
  · refine Gives.bind (chooseExecutionHash_granted hrole d body) fun r l₂ hl₂ _ => ?_
    cases r with
    | error reply => exact Gives.pure trivial
    | ok chosen =>
      refine Gives.call_then trivial fun now l₃ hl₃ => ?_
      refine Gives.bind (trackExecution_granted (hrole.mono (by decide)) d body chosen)
        fun rejected l₄ hl₄ _ => ?_
      have hl := hl₂.trans (hl₃.trans hl₄)
      cases rejected with
      | some reply => exact Gives.pure trivial
      | none => exact acceptExecution_granted (hget.mono hl) (hacc.mono hl) hrole body chosen now
  · exact Gives.pure trivial

end Bluesafe.Ops
