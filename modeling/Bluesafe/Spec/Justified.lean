import Bluesafe.Spec.Writes

/-!
# Every write is justified

Each handler and worker meets the monitor of `Spec/Writes`, whatever the answers to its
calls are. The proofs follow the programs: a call hands its answer to the rest through
the log, and at a save the facts collected on the way are put together.
-/

namespace Bluesafe.Ops

open Async

/-- Every call of `p` after the log `l` is justified. -/
abbrev Justified {α : Type} (config : Config) (req : Request) (p : OpsM α) (l : OpsLog) : Prop :=
  Safe (justified config req) p l

/-- Every call of `p` is justified and what it returns meets `R`. -/
abbrev JustifiedTo {α : Type} (config : Config) (req : Request) (p : OpsM α)
    (R : α → OpsLog → Prop) (l : OpsLog) : Prop :=
  Gives (justified config req) p R l

variable {config : Config} {req : Request} {l : OpsLog}

/-! ## Recording -/

/-- An audit entry is justified by itself, and is in the log afterwards. -/
theorem writeAudit_justified (entityType entityId action actor : String)
    (before after metadata : Option JsonObject) :
    JustifiedTo config req (writeAudit entityType entityId action actor before after metadata)
      (fun _ l' => ∃ log : AuditLog, Answered l' (.appendAudit log) () ∧ log.action = action) l :=
  (quiet_justified config req).writeAudit _ _ _ _ _ _ _

/-- The same where nobody looks at the entry again. -/
theorem writeAudit_safe (entityType entityId action actor : String)
    (before after metadata : Option JsonObject) :
    Justified config req (writeAudit entityType entityId action actor before after metadata) l :=
  (writeAudit_justified _ _ _ _ _ _ _).mono fun _ _ _ _ => trivial

/-- An event saves no row that needs a reason. -/
theorem emitEvent_justified (eventType entityType entityId : String) (payload : JsonObject) :
    Justified config req (emitEvent eventType entityType entityId payload) l :=
  (quiet_justified config req).emitEvent _ _ _ _

/-- The parties are read and notified; no row is saved. -/
theorem notifyParties_justified (contractId eventType : String) (payload : JsonObject) :
    Justified config req (notifyParties contractId eventType payload) l :=
  (quiet_justified config req).notifyParties _ _ _

/-! ## `applyLiveTxStatus` and `upsertTrackedTx` -/

/-- The dispute that waits is saved with the result of the row that was saved before. -/
theorem resolveExecution_justified {id : String} {d : DisputeCase} {row : XrplTransaction}
    (hget : Answered l (.getDispute id) (some d)) (hstatus : d.status = .executionPending)
    (hrow : Answered l (.saveXrplTx row) ()) (hres : row.resolves = some id) :
    Justified config req (resolveExecution d row) l := by
  unfold resolveExecution
  refine Gives.call_then trivial fun t l₁ hl₁ => ?_
  refine Gives.call_then
    (DisputeWrite.resolved id d row t (hget.mono hl₁) hstatus (hrow.mono hl₁) hres)
    fun _ l₂ _ => ?_
  refine Gives.bind (writeAudit_safe _ _ _ _ _ _ _) fun _ l₃ _ _ => ?_
  refine Gives.bind (emitEvent_justified _ _ _ _) fun _ l₄ _ _ => ?_
  exact notifyParties_justified _ _ _

/-- Only the dispute that the saved row names can be resolved. -/
theorem resolveLinkedDispute_justified {row : XrplTransaction}
    (hrow : Answered l (.saveXrplTx row) ()) :
    Justified config req (resolveLinkedDispute row) l := by
  unfold resolveLinkedDispute
  -- only a row that names a dispute resolves one
  cases hres : row.resolves with
  | none => exact Gives.pure trivial
  | some id =>
    refine Gives.call_read trivial fun found l₁ hl₁ hget => ?_
    cases found with
    | none => exact Gives.pure trivial
    | some d =>
      dsimp only
      split
      -- its status is what was read, and the row is what was saved
      · rename_i hstatus
        exact resolveExecution_justified hget hstatus (hrow.mono hl₁) hres
      · exact Gives.pure trivial

/-- The row is saved with the answer of the ledger that the caller has received. -/
theorem applyLiveTxStatus_justified {h : String} {live : LiveTxStatus}
    (ha : Applied config req l h live) :
    Justified config req (applyLiveTxStatus h live) l := by
  unfold applyLiveTxStatus
  refine Gives.call_read trivial fun found l₁ hl₁ hget => ?_
  cases found with
  | none => exact Gives.pure trivial
  | some row =>
    -- the row of this hash is read, and written back with the answer
    refine Gives.call_then trivial fun now l₂ hl₂ => ?_
    have hget₂ : Answered l₂ (.getXrplTx h) (some row) := Answered.mono hget hl₂
    refine Gives.call_read
      (TxWrite.reconciled h row live now (ha.mono (hl₁.trans hl₂)) hget₂)
      fun _ l₃ _ hsaved => ?_
    -- what was saved is what the dispute is resolved by
    refine Gives.bind (resolveLinkedDispute_justified hsaved) fun _ _ _ _ => ?_
    exact Gives.pure trivial

/-- The row `upsertTrackedTx` leaves in the log: its hash and, if given, its link. -/
def Upserted (l : OpsLog) (h : String) (p : TrackParams) : Prop :=
  ∃ row, Answered l (.saveXrplTx row) () ∧ row.txHash = h ∧
    ∀ d, p.disputeId = some d → row.disputeId = some d

/-- The row is saved with the parameters of the request, and is in the log afterwards. -/
theorem upsertTrackedTx_justified {h : String} {p : TrackParams}
    (ht : TrackedBy config req l h p) :
    JustifiedTo config req (upsertTrackedTx h p) (fun _ l' => Upserted l' h p) l := by
  unfold upsertTrackedTx
  refine Gives.call_then trivial fun now l₁ hl₁ => ?_
  refine Gives.call_read trivial fun existing l₂ hl₂ hget => ?_
  have ht₂ := ht.mono (hl₁.trans hl₂)
  cases existing with
  -- no row of this hash: the one that is inserted belongs to the request alone
  | none =>
    refine Gives.call_then trivial fun id l₃ hl₃ => ?_
    have hget₃ : Answered l₃ (.getXrplTx h) none := Answered.mono hget hl₃
    refine Gives.call (TxWrite.fresh id h p now (ht₂.mono hl₃) hget₃) fun _ => ?_
    exact ⟨_, Answered.head, rfl, fun _ hd => hd⟩
  -- a stored row: the values of the request are laid over it
  | some row =>
    refine Gives.call (TxWrite.retracked h row p now ht₂ hget) fun _ => ?_
    refine ⟨_, Answered.head, rfl, fun d hd => ?_⟩
    show p.disputeId.or row.disputeId = some d
    rw [hd]
    rfl

/-! ## Guards -/

/-- A route makes the calls of its handler, behind both guards. -/
theorem writeRoute_guarded {ok : OpsLog → Call → Prop} {roles : List BluesafeRole}
    {auth : Option BluesafeAuth} {p : OpsM Reply}
    (hp : blockAuditorWriteOperations config auth = none → requireRoles config roles auth = none →
      Safe (I := calls) ok p l) : Safe (I := calls) ok (writeRoute config roles auth p) l := by
  unfold writeRoute
  split
  · exact Gives.pure trivial
  · rename_i hauditor
    split
    · exact Gives.pure trivial
    · rename_i hroles
      exact hp hauditor hroles

/-- The guards of a writing route make no calls. -/
theorem writeRoute_justified {roles : List BluesafeRole} {auth : Option BluesafeAuth}
    {p : OpsM Reply} (hp : Justified config req p l) :
    Justified config req (writeRoute config roles auth p) l :=
  writeRoute_guarded fun _ _ => hp

/-- The guards of a reading route make no calls. -/
theorem readRoute_justified {roles : List BluesafeRole} {auth : Option BluesafeAuth}
    {p : OpsM Reply} (hp : Justified config req p l) :
    Justified config req (readRoute config roles auth p) l := by
  unfold readRoute
  split
  · exact Gives.pure trivial
  · exact hp

/-- A call that is not exclusive leaves a log untouched. -/
theorem Untouched.cons {l : OpsLog} (h : Untouched l) (op : Call) (r : Except String op.Res)
    (hop : op.isExclusive = false) : Untouched (⟨op, r⟩ :: l) := by
  intro ev hev
  rcases List.mem_cons.mp hev with rfl | hev
  · exact hop
  · exact h ev hev

/-- A request that begins has touched nothing. -/
theorem untouched_nil : Untouched [] :=
  fun _ h => nomatch h

/-- The handler of one dispute finds its copy in the log, and nothing else happened. -/
theorem withDispute_justified {auth : Option BluesafeAuth} {id forbidden : String}
    {p : DisputeCase → OpsM Reply} (hu : Untouched l)
    (hp : ∀ d l', Answered l' (.getDispute id) (some d) → Untouched l' →
      Justified config req (p d) l') :
    Justified config req (withDispute config auth id forbidden p) l := by
  unfold withDispute canAccessDispute
  refine Gives.call_bind trivial fun found => ?_
  cases found with
  | none => exact Gives.pure trivial
  | some d =>
    -- the access check asks for the contract, which takes neither answer out of the log
    refine Gives.bind (R := fun _ l' => Answered l' (.getDispute id) (some d) ∧ Untouched l')
      (Gives.call_bind trivial fun contract => ?_) fun allowed l' _ hl' => ?_
    · have hl := Answered.head.mono (l := ⟨.getDispute id, .ok (some d)⟩ :: l)
        (List.suffix_cons ⟨.getContract d.contractId, .ok contract⟩ _)
      have hu' := (hu.cons (.getDispute id) (.ok (some d)) rfl).cons
        (.getContract d.contractId) (.ok contract) rfl
      cases contract with
      | none => exact Gives.pure ⟨hl, hu'⟩
      | some c => exact Gives.pure ⟨hl, hu'⟩
    · split
      · exact hp d l' hl'.1 hl'.2
      · exact Gives.pure trivial

/-! ## Dispute handlers -/

/-- The evidence files of a new dispute are only read. -/
theorem checkEvidences_justified (contractId : String) (ids : List String) :
    Justified config req (checkEvidences contractId ids) l :=
  (quiet_justified config req).checkEvidences _ _

/-- A new dispute is saved for the body of the request that files it. -/
theorem storeFiledDispute_justified {auth : Option BluesafeAuth} {body : CreateDisputeBody}
    (hreq : req = .fileDispute auth body) (contract : Contract) :
    Justified config req (storeFiledDispute contract body) l := by
  unfold storeFiledDispute
  refine Gives.call_read trivial fun id l₁ _ hid => ?_
  refine Gives.call_then trivial fun now l₂ hl₂ => ?_
  refine Gives.call_then (DisputeWrite.filed _ auth body hreq (Answered.mono hid hl₂) rfl)
    fun _ l₃ _ => ?_
  refine Gives.bind (writeAudit_safe _ _ _ _ _ _ _) fun _ l₄ _ _ => ?_
  refine Gives.bind (emitEvent_justified _ _ _ _) fun _ l₅ _ _ => ?_
  refine Gives.call_then trivial fun _ l₆ _ => ?_
  exact Gives.pure trivial

/-- Filing saves one new dispute, after its contract and its evidence were read. -/
theorem fileDispute_justified (auth : Option BluesafeAuth) (body : CreateDisputeBody) :
    Justified config (.fileDispute auth body) (fileDispute config auth body) l := by
  unfold fileDispute
  refine writeRoute_justified (Gives.call_then trivial fun contract l₁ _ => ?_)
  -- the contract, then the evidence: two checks before the dispute is stored
  cases contract with
  | none => exact Gives.pure trivial
  | some c =>
    dsimp only
    split
    · refine Gives.bind (checkEvidences_justified _ _) fun rejected l₂ _ _ => ?_
      cases rejected with
      | some reply => exact Gives.pure trivial
      | none => exact storeFiledDispute_justified rfl c
    · exact Gives.pure trivial

/-- The status of a dispute that was read moves along the review. -/
theorem storeReviewStatus_justified {auth : Option BluesafeAuth} {id : String}
    {next : ReviewStatus} {d : DisputeCase} (hreq : req = .patchDisputeStatus auth id next)
    (hget : Answered l (.getDispute id) (some d))
    (hallowed : isDisputeReviewStatusAllowed d.status next.toStatus = true) :
    Justified config req (storeReviewStatus config auth id next d) l := by
  -- the review starts or is taken back, and each is its own kind of write
  unfold storeReviewStatus auditStatusPatch
  refine Gives.call_then trivial fun t l₁ hl₁ => ?_
  cases next with
  | underReview =>
    have hstatus : d.status = .filed := by
      simpa [isDisputeReviewStatusAllowed, ReviewStatus.toStatus] using hallowed
    refine Gives.call_then trivial fun due l₂ hl₂ => ?_
    refine Gives.call_then (DisputeWrite.reviewStarted auth id _ d t _ hreq
      (hget.mono (hl₁.trans hl₂)) hstatus) fun _ l₃ _ => ?_
    refine Gives.bind (writeAudit_safe _ _ _ _ _ _ _) fun _ l₄ _ _ => ?_
    refine Gives.bind (emitEvent_justified _ _ _ _) fun _ l₅ _ _ => ?_
    refine Gives.bind (notifyParties_justified _ _ _) fun _ l₆ _ _ => ?_
    exact Gives.pure trivial
  -- taken back: the deadline of the review goes with it
  | filed =>
    have hstatus : d.status = .underReview := by
      simpa [isDisputeReviewStatusAllowed, ReviewStatus.toStatus] using hallowed
    refine Gives.call_then (DisputeWrite.refiled auth id _ d t hreq (hget.mono hl₁) hstatus)
      fun _ l₂ _ => ?_
    refine Gives.bind (writeAudit_safe _ _ _ _ _ _ _) fun _ l₃ _ _ => ?_
    exact Gives.pure trivial

/-- A review request saves the dispute that it has read, and saves it once. -/
theorem patchDisputeStatus_justified (auth : Option BluesafeAuth) (id : String)
    (next : ReviewStatus) (hu : Untouched l) :
    Justified config (.patchDisputeStatus auth id next) (patchDisputeStatus config auth id next)
      l := by
  unfold patchDisputeStatus
  refine writeRoute_justified (withDispute_justified hu fun d l₁ hget _ => ?_)
  split
  · rename_i hallowed
    split
    · exact Gives.pure trivial
    · exact storeReviewStatus_justified rfl hget hallowed
  · exact Gives.pure trivial

/-- An escalation saves the dispute that it has read, escalated. -/
theorem escalate_justified (auth : Option BluesafeAuth) (id : String) (hu : Untouched l) :
    Justified config (.escalate auth id) (escalate config auth id) l := by
  unfold escalate
  refine writeRoute_justified (withDispute_justified hu fun d l₁ hget _ => ?_)
  refine Gives.call_then trivial fun t l₂ hl₂ => ?_
  refine Gives.call_then (DisputeWrite.escalated d t rfl (.byId id (hget.mono hl₂)))
    fun _ l₃ _ => ?_
  refine Gives.bind (writeAudit_safe _ _ _ _ _ _ _) fun _ l₄ _ _ => ?_
  refine Gives.bind (emitEvent_justified _ _ _ _) fun _ l₅ _ _ => ?_
  refine Gives.bind (notifyParties_justified _ _ _) fun _ l₆ _ _ => ?_
  exact Gives.pure trivial

/-- A scan escalates a dispute of its page. -/
theorem autoEscalate_justified {d : DisputeCase} (hreq : req.escalates = true)
    (hread : ReadDispute l d) : Justified config req (autoEscalate d) l := by
  unfold autoEscalate
  refine Gives.call_then trivial fun t l₁ hl₁ => ?_
  refine Gives.call_then (DisputeWrite.escalated d t hreq (hread.mono hl₁)) fun _ l₂ _ => ?_
  refine Gives.bind (writeAudit_safe _ _ _ _ _ _ _) fun _ l₃ _ _ => ?_
  refine Gives.bind (emitEvent_justified _ _ _ _) fun _ l₄ _ _ => ?_
  exact notifyParties_justified _ _ _

/-- One dispute of a scan is escalated, announced, or left alone. -/
theorem scanDispute_justified {d : DisputeCase} (hreq : req.escalates = true)
    (hread : ReadDispute l d) (nowMs : Time) (n : SlaCounters) :
    Justified config req (scanDispute config nowMs n d) l := by
  unfold scanDispute announceDeadlineExpired
  -- without a deadline, or before it, the scan leaves the dispute alone
  cases d.reviewDeadlineAt with
  | none => exact Gives.pure trivial
  | some deadline =>
    dsimp only
    split
    · exact Gives.pure trivial
    · split
      · split
        · refine Gives.bind (autoEscalate_justified hreq hread) fun _ _ _ _ => ?_
          exact Gives.pure trivial
        -- already escalated
        · exact Gives.pure trivial
      · refine Gives.bind (R := fun _ _ => True) ?_ fun _ _ _ _ => Gives.pure trivial
        refine Gives.bind (emitEvent_justified _ _ _ _) fun _ l₁ _ _ => ?_
        exact notifyParties_justified _ _ _

/-- A scan escalates disputes of its page only. -/
theorem reviewSlaScan_justified (auth : Option BluesafeAuth) :
    Justified config (.reviewSlaScan auth) (reviewSlaScan config auth) l := by
  unfold reviewSlaScan
  refine writeRoute_justified (Gives.call_then trivial fun nowMs l₁ _ => ?_)
  refine Gives.call_read trivial fun items l₂ _ hlist => ?_
  refine Gives.bind (R := fun _ _ => True) (Gives.foldlM trivial fun n d l₃ hd hl₃ _ => ?_)
    fun n l₃ _ _ => Gives.pure trivial
  exact scanDispute_justified rfl (.listed _ _ _ items (Answered.mono hlist hl₃) hd) nowMs n

/-- A decision is saved with the dispute that it decides. -/
theorem decision_justified (auth : Option BluesafeAuth) (id : String) (body : DecisionBody)
    (hu : Untouched l) :
    Justified config (.decision auth id body) (decision config auth id body) l := by
  unfold decision
  refine writeRoute_justified (withDispute_justified hu fun d l₁ hget hu₁ => ?_)
  split
  · rename_i hstatus
    refine Gives.call_bind trivial fun decisionId => ?_
    refine Gives.call_bind trivial fun createdAt => ?_
    -- The log is still exact here: the decision is the first write of the request.
    have hu₂ := (hu₁.cons (.randomId "dcs") (.ok decisionId) rfl).cons .clock (.ok createdAt) rfl
    have hget₂ : Answered _ (.getDispute id) (some d) := (hget.mono (List.suffix_cons
      ⟨.randomId "dcs", .ok decisionId⟩ _)).mono (List.suffix_cons ⟨.clock, .ok createdAt⟩ _)
    refine Gives.call_read (DecisionWrite.mk auth id body d rfl hget₂ hstatus rfl rfl hu₂)
      fun _ l₂ hl₂ hrec => ?_
    refine Gives.call_then trivial fun t l₃ hl₃ => ?_
    refine Gives.call_then (DisputeWrite.decided auth id body d _ t rfl
      (hget₂.mono (hl₂.trans hl₃)) hstatus (Answered.mono hrec hl₃) rfl) fun _ l₄ _ => ?_
    refine Gives.bind (writeAudit_safe _ _ _ _ _ _ _) fun _ l₅ _ _ => ?_
    refine Gives.bind (emitEvent_justified _ _ _ _) fun _ l₆ _ _ => ?_
    refine Gives.bind (notifyParties_justified _ _ _) fun _ l₇ _ _ => ?_
    exact Gives.pure trivial
  · exact Gives.pure trivial

/-! ## Execution -/

/-- The escrow transaction is submitted for a dispute that is decided. -/
theorem trySubmitDisputeExecution_justified {auth : Option BluesafeAuth} {id : String}
    {body : ExecutionBody} {d : DisputeCase} (hreq : req = .execution auth id body)
    (hget : Answered l (.getDispute id) (some d)) (hstatus : d.status = .decided)
    (hu : Untouched l) :
    JustifiedTo config req (trySubmitDisputeExecution config body)
      (fun submitted l' => ∀ h, submitted = some h →
        Answered l' (.submitAndWaitFromWallet (buildExecutionTx body)) h) l := by
  -- the four guards, each of which ends without a submission
  unfold trySubmitDisputeExecution
  dsimp only
  split
  · exact Gives.pure fun _ h => nomatch h
  · split
    · exact Gives.pure fun _ h => nomatch h
    · split
      · exact Gives.throw
      · split
        · exact Gives.throw
        -- the submission itself, for a dispute that was read as decided
        · refine Gives.call_read (SubmitWrite.mk auth id body d hreq hget hstatus rfl hu)
            fun txHash l₁ _ hsub => ?_
          refine Gives.pure fun h heq => ?_
          cases heq
          exact hsub

/-- A failed submission ends the request without a save. -/
theorem submitOrReply_justified {auth : Option BluesafeAuth} {id : String}
    {body : ExecutionBody} {d : DisputeCase} (hreq : req = .execution auth id body)
    (hget : Answered l (.getDispute id) (some d)) (hstatus : d.status = .decided)
    (hu : Untouched l) :
    JustifiedTo config req (submitOrReply config body)
      (fun r l' => ∀ h, r = .ok (some h) →
        Answered l' (.submitAndWaitFromWallet (buildExecutionTx body)) h) l := by
  unfold submitOrReply
  refine Gives.tryCatch ?_ fun e l₁ _ => Gives.pure fun h heq => nomatch heq
  refine Gives.bind (trySubmitDisputeExecution_justified hreq hget hstatus hu)
    fun submitted l₁ _ hsub => ?_
  refine Gives.pure fun h heq => hsub h ?_
  cases heq
  rfl

/-- The hash is the one of the body, or the one of a submission. -/
theorem chooseExecutionHash_justified {auth : Option BluesafeAuth} {id : String}
    {body : ExecutionBody} {d : DisputeCase} (hreq : req = .execution auth id body)
    (hget : Answered l (.getDispute id) (some d)) (hstatus : d.status = .decided)
    (hu : Untouched l) :
    JustifiedTo config req (chooseExecutionHash config d body)
      (fun r l' => ∀ chosen, r = .ok chosen → Chosen config l' body chosen) l := by
  unfold chooseExecutionHash
  -- a hash in the body goes before a submission, which goes before a synthetic one
  cases hbody : truthy body.txHash with
  | some h =>
    refine Gives.pure fun chosen heq => ?_
    cases heq
    exact .named h hbody
  | none =>
    -- a submission, as the body names none
    refine Gives.bind (submitOrReply_justified hreq hget hstatus hu) fun r l₁ _ hsub => ?_
    match r with
    | .error reply => exact Gives.pure fun _ heq => nomatch heq
    | .ok (some h) =>
      refine Gives.pure fun chosen heq => ?_
      cases heq
      exact .submitted h hbody (hsub h rfl)
    -- neither: a synthetic hash where the configuration allows one
    | .ok none =>
      dsimp only
      split
      · rename_i heff
        refine Gives.call_then trivial fun now l₂ _ => ?_
        refine Gives.pure fun chosen heq => ?_
        rw [← Except.ok.inj heq]
        exact .synthetic d now hbody heff
      · exact Gives.pure fun _ heq => nomatch heq

/-- What `trackExecution` leaves in the log when it does not reject: the facts about the
    execution request, and the saved row that links the hash to the dispute. -/
def ExecutionTracked (config : Config) (req : Request) (l : OpsLog) (d : DisputeCase)
    (body : ExecutionBody) (chosen : ExecutionHash) : Prop :=
  Executes config req l d body chosen ∧ Upserted l chosen.txHash (executionParams d body)

/-- A row that was saved stays in the log. -/
theorem Upserted.mono {l l' : OpsLog} {h : String} {p : TrackParams} (hup : Upserted l h p)
    (hl : l <:+ l') : Upserted l' h p := by
  obtain ⟨row, hrow, hrest⟩ := hup
  exact ⟨row, hrow.mono hl, hrest⟩

/-- The execution is tracked under the chosen hash, for the decided dispute. -/
theorem trackExecution_justified {auth : Option BluesafeAuth} {id : String}
    {body : ExecutionBody} {d : DisputeCase} {chosen : ExecutionHash}
    (hreq : req = .execution auth id body) (hget : Answered l (.getDispute id) (some d))
    (hstatus : d.status = .decided) (hchosen : Chosen config l body chosen) :
    JustifiedTo config req (trackExecution config d body chosen)
      (fun rejected l' => rejected = none → ExecutionTracked config req l' d body chosen) l := by
  unfold trackExecution
  -- with the ledger the transaction is looked up and its type compared
  split
  · refine Gives.call_read trivial fun live l₁ hl₁ hlive => ?_
    cases hmis : typeMismatch chosen body live with
    | some t => exact Gives.pure fun h => nomatch h
    | none =>
      have hx : Executes config req l₁ d body chosen :=
        ⟨⟨auth, id, hreq, hget.mono hl₁⟩, hstatus, hchosen.mono hl₁,
          fun _ => ⟨live, hlive, hmis⟩⟩
      refine Gives.bind (upsertTrackedTx_justified (.execution d body chosen hx))
        fun _ l₂ hl₂ hup => ?_
      -- the link is stored first; the answer is applied to what was linked
      cases live with
      | none => exact Gives.pure fun _ => ⟨hx.mono hl₂, hup⟩
      | some live =>
        have hans : Answered l₂ (.getTxStatus chosen.txHash) (some live) :=
          Answered.mono hlive hl₂
        refine Gives.bind (applyLiveTxStatus_justified (.ledger (.tx hans)))
          fun _ l₃ hl₃ _ => ?_
        exact Gives.pure fun _ => ⟨hx.mono (hl₂.trans hl₃), hup.mono hl₃⟩
  -- without the ledger the hash is linked as it is
  · rename_i hoff
    have hx : Executes config req l d body chosen :=
      ⟨⟨auth, id, hreq, hget⟩, hstatus, hchosen, fun hon => absurd hon hoff⟩
    refine Gives.bind (upsertTrackedTx_justified (.execution d body chosen hx))
      fun _ l₂ hl₂ hup => ?_
    exact Gives.pure fun _ => ⟨hx.mono hl₂, hup⟩

/-- The dispute waits for its execution after the row was saved. -/
theorem acceptExecution_justified {auth : Option BluesafeAuth} {d : DisputeCase}
    {body : ExecutionBody} {chosen : ExecutionHash} {now : Time}
    (htracked : ExecutionTracked config req l d body chosen) :
    Justified config req (acceptExecution auth d body chosen now) l := by
  obtain ⟨hx, row, hrow, hhash, hlink⟩ := htracked
  unfold acceptExecution
  refine Gives.call_then
    (DisputeWrite.pending d body chosen row now hx hrow hhash (hlink d.id rfl)) fun _ l₁ _ => ?_
  refine Gives.bind (writeAudit_safe _ _ _ _ _ _ _) fun _ l₂ _ _ => ?_
  refine Gives.bind (emitEvent_justified _ _ _ _) fun _ l₃ _ _ => ?_
  refine Gives.bind (notifyParties_justified _ _ _) fun _ l₄ _ _ => ?_
  refine Gives.call_then trivial fun _ l₅ _ => ?_
  exact Gives.pure trivial

/-- An execution saves a tracked row, and then the dispute that it has read. -/
theorem execution_justified (auth : Option BluesafeAuth) (id : String) (body : ExecutionBody)
    (hu : Untouched l) :
    Justified config (.execution auth id body) (execution config auth id body) l := by
  unfold execution
  refine writeRoute_justified (withDispute_justified hu fun d l₁ hget hu₁ => ?_)
  -- only a decided dispute is executed
  split
  · rename_i hstatus
    refine Gives.bind (chooseExecutionHash_justified rfl hget hstatus hu₁)
      fun r l₂ hl₂ hchosen => ?_
    cases r with
    | error reply => exact Gives.pure trivial
    | ok chosen =>
      refine Gives.call_then trivial fun now l₃ hl₃ => ?_
      refine Gives.bind (trackExecution_justified rfl (hget.mono (hl₂.trans hl₃)) hstatus
        ((hchosen chosen rfl).mono hl₃)) fun rejected l₄ _ htracked => ?_
      cases rejected with
      | some reply => exact Gives.pure trivial
      | none => exact acceptExecution_justified (htracked rfl)
  · exact Gives.pure trivial

/-! ## Tracked transactions -/

/-- What the ledger has answered is applied. -/
theorem lookupAndApply_justified (h : String) :
    Justified config req (lookupAndApply h) l := by
  unfold lookupAndApply
  refine Gives.call_read trivial fun live l₁ _ hlive => ?_
  cases live with
  | none => exact Gives.pure trivial
  | some live =>
    refine Gives.bind (applyLiveTxStatus_justified (.ledger (.tx hlive))) fun _ _ _ _ => ?_
    exact Gives.pure trivial

/-- The announcement of a tracked transaction saves no row. -/
theorem announceTracked_justified (body : TrackBody) :
    Justified config req (announceTracked body) l := by
  unfold announceTracked
  refine Gives.call_then trivial fun tracked l₁ _ => ?_
  refine Gives.bind (writeAudit_safe _ _ _ _ _ _ _) fun _ l₂ _ _ => ?_
  refine Gives.bind (emitEvent_justified _ _ _ _) fun _ l₃ _ _ => ?_
  exact Gives.pure trivial

/-- Tracking saves the row of the request and what the ledger has answered. -/
theorem track_justified (auth : Option BluesafeAuth) (body : TrackBody) :
    Justified config (.track auth body) (track config auth body) l := by
  unfold track
  refine writeRoute_justified ?_
  refine Gives.bind (upsertTrackedTx_justified (.track auth body rfl)) fun _ l₁ _ _ => ?_
  dsimp only
  split
  · exact Gives.bind (lookupAndApply_justified _) fun _ _ _ _ => announceTracked_justified body
  · exact announceTracked_justified body

/-- A lookup saves only what the ledger has answered. -/
theorem getTransaction_justified (auth : Option BluesafeAuth) (h : String) (fresh : Bool) :
    Justified config req (getTransaction config auth h fresh) l := by
  -- the reply reads the row once more, and writes nothing
  have hreply : ∀ l', Justified config req (replyTransaction h) l' := by
    intro l'
    unfold replyTransaction
    refine Gives.call_then trivial fun latest l₁ _ => ?_
    cases latest with
    | none => exact Gives.throw
    | some latest => exact Gives.pure trivial
  unfold getTransaction
  refine readRoute_justified (Gives.call_then trivial fun found l₁ _ => ?_)
  cases found with
  | none => exact Gives.pure trivial
  | some _ =>
    dsimp only
    split
    · exact Gives.bind (lookupAndApply_justified _) fun _ l₂ _ _ => hreply l₂
    · exact hreply l₁

/-- So does a refresh. -/
theorem refresh_justified (auth : Option BluesafeAuth) (h : String) :
    Justified config req (refresh config auth h) l := by
  unfold refresh
  refine writeRoute_justified (Gives.call_then trivial fun found l₁ _ => ?_)
  cases found with
  | none => exact Gives.pure trivial
  | some _ =>
    dsimp only
    -- without a refresh only the row is read
    split
    · refine Gives.call_read trivial fun live l₂ _ hlive => ?_
      cases live with
      | none => exact Gives.pure trivial
      | some live =>
        -- the answer is the ledger's own, under this hash
        refine Gives.bind (applyLiveTxStatus_justified (.ledger (.tx hlive))) fun _ l₃ _ _ => ?_
        unfold replyRefreshed
        -- the reply reads the row again
        refine Gives.call_then trivial fun latest l₄ _ => ?_
        cases latest with
        | none => exact Gives.throw
        | some latest => exact Gives.pure trivial
    · exact Gives.pure trivial

/-- A program whose rejection is kept as a value makes the same calls. -/
theorem attempt_justified {α : Type} {p : OpsM α} (hp : Justified config req p l) :
    Justified config req (attempt p) l := by
  unfold attempt
  refine Gives.tryCatch ?_ fun _ _ _ => Gives.pure trivial
  exact Gives.bind hp fun _ _ _ _ => Gives.pure trivial

/-- A row of a backfill is saved with the answer that the ledger gave for its hash. -/
theorem backfillLiveRow_justified {account : String} {map : List (String × LiveTxStatus)}
    (hmap : Answered l (.getAccountTxResults account) map) (updated : Nat)
    (tracked : XrplTransaction) :
    Justified config req (backfillLiveRow account map updated tracked) l := by
  -- one row of the backfill, when the map has its hash
  have happly : Justified config req
      (backfillLiveRow.applyRow map updated tracked) l := by
    unfold backfillLiveRow.applyRow liveStatusFor
    cases hlook : map.lookup tracked.txHash with
    | none => exact Gives.pure trivial
    | some live =>
      refine Gives.bind
        (applyLiveTxStatus_justified (.ledger (.accountTx account map hmap hlook)))
        fun applied l₁ _ _ => ?_
      cases applied with
      | true => exact Gives.pure trivial
      | false => exact Gives.pure trivial
  unfold backfillLiveRow
  -- rows of other accounts, or ones that are settled, are passed over
  split
  · split
    · exact Gives.pure trivial
    · exact happly
  · exact happly

/-- All rows of a backfill, one after the other. -/
theorem backfillLiveRows_justified (account : String) :
    Justified config req (backfillLiveRows account) l := by
  unfold backfillLiveRows
  refine Gives.bind (R := fun r l₁ => ∀ map, r = .ok map →
    Answered l₁ (.getAccountTxResults account) map) ?_ fun r l₁ _ hmap => ?_
  · unfold attempt
    refine Gives.tryCatch ?_ fun _ _ _ => Gives.pure fun _ heq => nomatch heq
    refine Gives.call_read trivial fun map l₁ _ hget => ?_
    refine Gives.pure fun map' heq => ?_
    cases heq
    exact hget
  · cases r with
    | error e => exact Gives.pure trivial
    | ok map =>
      refine Gives.bind (attempt_justified (Gives.call trivial fun _ => trivial))
        fun r l₂ hl₂ _ => ?_
      cases r with
      | error e => exact Gives.pure trivial
      | ok rows =>
        -- every row of the loop is matched with the one answer of `account_tx`
        refine Gives.foldlM trivial fun p tracked l₃ _ hl₃ _ => ?_
        unfold backfillLiveStep
        split
        · exact Gives.pure trivial
        · refine Gives.bind (attempt_justified (backfillLiveRow_justified
            ((hmap map rfl).mono (hl₂.trans hl₃)) _ _)) fun r l₄ _ _ => ?_
          cases r with
          | ok updated => exact Gives.pure trivial
          | error e => exact Gives.pure trivial

/-- The live part of a backfill, whose list of answers comes from the ledger. -/
theorem backfillLive_justified (account : String) :
    Justified config req (backfillLive account) l := by
  unfold backfillLive
  refine Gives.bind (backfillLiveRows_justified account) fun p l₁ _ _ => ?_
  split
  · exact Gives.pure trivial
  · refine Gives.bind (attempt_justified (writeAudit_safe _ _ _ _ _ _ _)) fun r l₂ _ _ => ?_
    cases r with
    | ok _ => exact Gives.pure trivial
    | error e => exact Gives.pure trivial

/-- The simulated part needs that the live part is off or has failed. -/
theorem backfillSimulated_justified {auth : Option BluesafeAuth} {body : BackfillBody}
    (hreq : req = .backfill auth body) (hfail : config.xrplEnabled = true → LiveFailed l)
    (updated : Nat) : Justified config req (backfillSimulated body updated) l := by
  unfold backfillSimulated
  refine Gives.call_read trivial fun rows l₁ hl₁ hlist => ?_
  -- one simulated row after the other: what the loop carries says nothing
  refine Gives.bind (R := fun _ _ => True)
    (Gives.foldlM trivial fun updated tx l₂ htx hl₂ _ => ?_) fun updated l₂ _ _ => ?_
  · unfold backfillSimulatedRow
    split
    · exact Gives.pure trivial
    -- a row that is not validated gets the next attempt of the simulation
    · rename_i hv
      refine Gives.call_then trivial fun now l₃ hl₃ => ?_
      have hlist₃ : Answered l₃ .listXrplTxs rows := Answered.mono hlist (hl₂.trans hl₃)
      have hs : Simulates config req l₃ body tx :=
        ⟨⟨auth, hreq⟩, ⟨rows, hlist₃, htx⟩, by simpa using hv,
          fun hon => (hfail hon).mono (hl₁.trans (hl₂.trans hl₃))⟩
      refine Gives.call_then (TxWrite.simulated body tx now hs) fun _ l₄ hl₄ => ?_
      refine Gives.bind (applyLiveTxStatus_justified
        (.simulated body tx now (hs.mono hl₄) rfl rfl)) fun _ l₅ _ _ => ?_
      exact Gives.pure trivial
  · refine Gives.bind (writeAudit_safe _ _ _ _ _ _ _) fun _ l₃ _ _ => ?_
    exact Gives.pure trivial

/-- A backfill falls through to the simulated part only after it has recorded the failure. -/
theorem backfill_justified (auth : Option BluesafeAuth) (body : BackfillBody) :
    Justified config (.backfill auth body) (backfill config auth body) l := by
  unfold backfill
  refine writeRoute_justified ?_
  -- the simulation is used when the ledger is off, or has failed
  split
  · refine Gives.bind (backfillLive_justified _) fun p l₁ _ _ => ?_
    split
    · exact Gives.pure trivial
    · refine Gives.bind (writeAudit_justified _ _ _ _ _ _ _) fun _ l₂ _ hfail => ?_
      exact backfillSimulated_justified rfl (fun _ => hfail) _
  · rename_i hoff
    exact backfillSimulated_justified rfl (fun hon => absurd hon hoff) _

/-- A message of the stream is itself an answer of the ledger. -/
theorem handleTransaction_justified (stream : TransactionStream) (throttled : Bool) :
    Justified config (.streamTransaction stream throttled) (handleTransaction stream throttled)
      l := by
  unfold handleTransaction
  split
  -- what the stream accepts, the row it is about, and the key that lets it in once
  · exact Gives.pure trivial
  · cases hacc : stream.accepted with
    | none => exact Gives.pure trivial
    | some p =>
      obtain ⟨h, i⟩ := p
      refine Gives.call_then trivial fun found l₁ _ => ?_
      cases found with
      | none => exact Gives.pure trivial
      | some _ =>
        refine Gives.call_then trivial fun inserted l₂ _ => ?_
        split
        · refine Gives.bind (applyLiveTxStatus_justified
            (.ledger (.stream stream throttled i rfl hacc rfl))) fun _ l₃ _ _ => ?_
          exact Gives.pure trivial
        · exact Gives.pure trivial

/-! ## Policy worker -/

/-- The account of a row is added to the row that was read. -/
theorem backfillAccount_justified {tx : XrplTransaction} (hread : ReadRow l tx) :
    Justified config req (backfillAccount tx) l := by
  -- the account is filled in on the latest copy of the row
  unfold backfillAccount
  refine Gives.call_then trivial fun live l₁ hl₁ => ?_
  split
  · exact Gives.pure trivial
  · rename_i account _
    refine Gives.call_read trivial fun stored l₂ hl₂ hget => ?_
    have hlatest : ReadRow l₂ (stored.getD tx) := by
      cases stored with
      | none => exact hread.mono (hl₁.trans hl₂)
      | some row => exact .byHash _ hget
    dsimp only
    split
    · exact Gives.pure trivial
    · refine Gives.call_then trivial fun now l₃ hl₃ => ?_
      refine Gives.call_then (TxWrite.account _ account now (hlatest.mono hl₃)) fun _ l₄ _ => ?_
      exact writeAudit_safe _ _ _ _ _ _ _

/-- The jobs of a tick save no row that needs a reason. -/
theorem createPolicyJobs_justified (policy : PolicyConfig) (now : Time)
    (txs : List XrplTransaction) : Justified config req (createPolicyJobs policy now txs) l := by
  unfold createPolicyJobs
  refine Gives.forM fun tx l₁ _ _ => ?_
  split
  · refine Gives.call_then trivial fun t l₂ _ => ?_
    split
    · exact Gives.pure trivial
    · refine Gives.call_then trivial fun _ l₃ _ => ?_
      exact Gives.pure trivial
  · exact Gives.pure trivial

/-- A job that is put back saves no such row either. -/
theorem requeueJob_justified (policy : PolicyConfig) (job : DelayedJob)
    (lastError : Option String) : Justified config req (requeueJob policy job lastError) l := by
  unfold requeueJob
  refine Gives.call_then trivial fun t l₁ _ => ?_
  refine Gives.call_then trivial fun updatedAt l₂ _ => ?_
  exact Gives.call trivial fun _ => trivial

/-- What a probe has found, the ledger has said. -/
theorem probeLedger_justified (h : String) (tx : XrplTransaction) :
    JustifiedTo config req (probeLedger h tx)
      (fun found l' => ∀ live, found = some live → Reported req l' h live) l := by
  unfold probeLedger liveStatusFor
  -- the transaction itself goes first, its account second
  refine Gives.call_read trivial fun found l₁ _ hget => ?_
  cases found with
  | some live =>
    refine Gives.pure fun live' heq => ?_
    cases heq
    exact .tx hget
  | none =>
    dsimp only
    split
    · exact Gives.pure fun _ heq => nomatch heq
    · rename_i account _
      refine Gives.call_read trivial fun map l₂ _ hmap => ?_
      exact Gives.pure fun live hlook => .accountTx account map hmap hlook

/-- A probe that found nothing saves the row that it has read. -/
theorem recordNotFound_justified {h : String} {tx : XrplTransaction} (hread : ReadRow l tx)
    (policy : PolicyConfig) (job : DelayedJob) :
    Justified config req (recordNotFound policy job h tx) l := by
  unfold recordNotFound
  refine Gives.call_read trivial fun stored l₁ hl₁ hget => ?_
  have hlatest : ReadRow l₁ (stored.getD tx) := by
    cases stored with
    | none => exact hread.mono hl₁
    | some row => exact .byHash _ hget
  refine Gives.call_then trivial fun now l₂ hl₂ => ?_
  dsimp only
  -- at the last attempt the row is given up; before, the probe is counted
  split
  · refine Gives.call_then (TxWrite.exhausted _ now (hlatest.mono hl₂)) fun _ l₃ _ => ?_
    refine Gives.call_then trivial fun _ l₄ _ => ?_
    refine Gives.bind (writeAudit_safe _ _ _ _ _ _ _) fun _ l₅ _ _ => ?_
    exact emitEvent_justified _ _ _ _
  · refine Gives.call_then (TxWrite.probed _ now (hlatest.mono hl₂)) fun _ l₃ _ => ?_
    exact requeueJob_justified _ _ _

/-- A job saves what its probe has found, or counts the probe. -/
theorem processJob_justified (policy : PolicyConfig) (job : DelayedJob) :
    Justified config req (processJob policy job) l := by
  unfold processJob
  -- a payload that cannot be read ends its job
  split
  · exact Gives.call trivial fun _ => trivial
  · rename_i h _
    -- a failure of the probe puts the job back
    refine Gives.tryCatch ?_ fun e l₁ _ => requeueJob_justified _ _ _
    unfold runPolicyJob
    refine Gives.call_read trivial fun found l₁ _ hget => ?_
    cases found with
    | none => exact Gives.call trivial fun _ => trivial
    | some tx =>
      dsimp only
      -- a candidate is probed; any other row ends its job
      split
      · refine Gives.bind (probeLedger_justified h tx) fun found l₂ hl₂ hrep => ?_
        cases found with
        | some live =>
          refine Gives.bind (applyLiveTxStatus_justified (.ledger (hrep live rfl)))
            fun _ l₃ _ _ => ?_
          exact Gives.call trivial fun _ => trivial
        | none =>
          exact recordNotFound_justified (.byHash h (Answered.mono hget hl₂)) _ _
      · exact Gives.call trivial fun _ => trivial

/-- The jobs of a tick, one after the other. -/
theorem runPolicyJobs_justified (policy : PolicyConfig) (now : Time)
    (txs : List XrplTransaction) : Justified config req (runPolicyJobs policy now txs) l := by
  unfold runPolicyJobs
  refine Gives.bind (createPolicyJobs_justified _ _ _) fun _ l₁ _ _ => ?_
  refine Gives.call_then trivial fun jobs l₂ _ => ?_
  exact Gives.forM fun job l₃ _ _ => processJob_justified _ job

/-- A tick of the policy worker, whose failures are logged. -/
theorem policyTick_justified : Justified config req (policyTick config) l := by
  unfold policyTick
  split
  · refine Gives.call_then trivial fun now l₁ _ => ?_
    -- the transactions are listed once, before the jobs
    refine Gives.call_read trivial fun txs l₂ _ hlist => ?_
    dsimp only
    split
    · refine Gives.bind (R := fun _ _ => True) ?_ fun _ l₃ _ _ => runPolicyJobs_justified _ _ _
      -- one step of the loop over the accounts that were listed
      refine Gives.forM fun tx l₃ htx hl₃ => ?_
      have hmem : tx ∈ txs := List.mem_of_mem_filter (List.mem_of_mem_take htx)
      refine Gives.tryCatch ?_ fun _ _ _ => Gives.pure trivial
      exact backfillAccount_justified (.listed txs (Answered.mono hlist hl₃) hmem)
    · exact runPolicyJobs_justified _ _ _
  · exact Gives.pure trivial

/-! ## Contract handlers -/

/-- A new contract is saved for the body of its request. -/
theorem createContract_justified (auth : Option BluesafeAuth) (body : CreateContractBody) :
    Justified config (.createContract auth body) (createContract config auth body) l := by
  unfold createContract
  refine writeRoute_justified ?_
  -- the guard of the creation is part of what justifies it
  split
  · refine Gives.call_then trivial fun now l₁ _ => ?_
    refine Gives.call_read trivial fun id l₂ _ hid => ?_
    refine Gives.call_then (ContractWrite.created auth body id now rfl hid) fun _ l₃ _ => ?_
    refine Gives.bind (writeAudit_safe _ _ _ _ _ _ _) fun _ l₄ _ _ => ?_
    refine Gives.bind (emitEvent_justified _ _ _ _) fun _ l₅ _ _ => ?_
    refine Gives.call_then trivial fun created l₆ _ => ?_
    exact Gives.pure trivial
  · exact Gives.pure trivial

/-- A handler of one contract finds its copy in the log. -/
theorem withContract_justified {auth : Option BluesafeAuth} {id : String}
    {p : Contract → OpsM Reply}
    (hp : ∀ c l', Answered l' (.getContract id) (some c) → Justified config req (p c) l') :
    Justified config req (withContract config auth id p) l := by
  unfold withContract
  refine Gives.call_read trivial fun found l₁ _ hget => ?_
  cases found with
  | none => exact Gives.pure trivial
  | some c =>
    dsimp only
    split
    · exact hp c l₁ hget
    · exact Gives.pure trivial

/-- The end of a contract is notified; no row is saved. -/
theorem notifyContractEnd_justified (c : Contract) (status : ContractStatus) :
    Justified config req (notifyContractEnd c status) l := by
  unfold notifyContractEnd
  -- the contract is read once more for the notices
  refine Gives.call_then trivial fun found l₁ _ => ?_
  cases found with
  | none => exact Gives.pure trivial
  | some c =>
    dsimp only
    split
    · exact Gives.call trivial fun _ => trivial
    · split
      · exact Gives.call trivial fun _ => trivial
      · exact Gives.pure trivial

/-- The status of a contract that was read moves as the transitions allow. -/
theorem patchContractStatus_justified (auth : Option BluesafeAuth) (id : String)
    (status : ContractStatus) :
    Justified config (.patchContractStatus auth id status)
      (patchContractStatus config auth id status) l := by
  unfold patchContractStatus
  refine writeRoute_justified (withContract_justified fun c l₁ hget => ?_)
  split
  -- the edge was allowed from the status that was read
  · rename_i hallowed
    refine Gives.call_then trivial fun now l₂ hl₂ => ?_
    refine Gives.call_then
      (ContractWrite.patched auth id status c now rfl (hget.mono hl₂) hallowed) fun _ l₃ _ => ?_
    refine Gives.bind (writeAudit_safe _ _ _ _ _ _ _) fun _ l₄ _ _ => ?_
    refine Gives.bind (emitEvent_justified _ _ _ _) fun _ l₅ _ _ => ?_
    refine Gives.bind (notifyContractEnd_justified _ _) fun _ l₆ _ _ => ?_
    exact Gives.pure trivial
  · exact Gives.pure trivial

/-- An answer that is looked up in the list of an account comes from the ledger. -/
theorem anchorAnswer_lookIn_justified {h account : String} {live : Option LiveTxStatus}
    (hlive : ∀ a, live = some a → Reported req l h a) :
    JustifiedTo config req (anchorAnswer.lookIn h live account)
      (fun found l' => ∀ a, found = some a → Reported req l' h a) l := by
  unfold anchorAnswer.lookIn
  split
  · refine Gives.call_read trivial fun map l₁ _ hmap => ?_
    exact Gives.pure fun a hlook => .accountTx account map hmap hlook
  · exact Gives.pure hlive

/-- So does the answer for the hash of an anchor, whichever way it was asked for. -/
theorem anchorAnswer_justified (c : Contract) (h : String) :
    JustifiedTo config req (anchorAnswer c h)
      (fun found l' => ∀ a, found = some a → Reported req l' h a) l := by
  unfold anchorAnswer
  refine Gives.call_read trivial fun live l₁ _ hget => ?_
  have hlive : ∀ a, live = some a → Reported req l₁ h a := by
    intro a ha
    subst ha
    exact .tx hget
  refine Gives.bind (anchorAnswer_lookIn_justified hlive) fun live₂ l₂ _ hlive₂ => ?_
  exact anchorAnswer_lookIn_justified hlive₂

/-- An anchor is confirmed by an answer of the ledger that anchors. -/
theorem anchorConfirmed_justified (c : Contract) (h : String) :
    JustifiedTo config req (anchorConfirmed config c h)
      (fun confirmed l' => confirmed = true →
        ∃ live, Reported req l' h live ∧ live.anchors = true) l := by
  unfold anchorConfirmed
  split
  · refine Gives.tryCatch ?_ fun _ _ _ => Gives.pure fun h => nomatch h
    refine Gives.bind (anchorAnswer_justified c h) fun live l₁ _ hlive => ?_
    refine Gives.pure fun hconf => ?_
    cases live with
    | none => exact nomatch hconf
    | some live => exact ⟨live, hlive live rfl, hconf⟩
  · exact Gives.pure fun h => nomatch h

/-- A contract is anchored after the ledger has confirmed the hash, or keeps its status. -/
theorem patchEscrowAnchor_justified (auth : Option BluesafeAuth) (id : String)
    (body : EscrowAnchorBody) :
    Justified config (.patchEscrowAnchor auth id body) (patchEscrowAnchor config auth id body)
      l := by
  unfold patchEscrowAnchor
  refine writeRoute_justified (withContract_justified fun c l₁ hget => ?_)
  dsimp only
  -- an anchor that is refused, for the status or for another hash
  split
  · exact Gives.pure trivial
  · rename_i hfree
    refine Gives.bind (anchorConfirmed_justified c _) fun confirmed l₂ hl₂ hconf => ?_
    -- the contract is stored with what the ledger has said of this hash
    refine Gives.call_then trivial fun now l₃ hl₃ => ?_
    refine Gives.call_then (ContractWrite.anchored auth id body c confirmed now rfl
      (hget.mono (hl₂.trans hl₃)) hfree fun htrue => ?_) fun _ l₄ _ => ?_
    · obtain ⟨live, hrep, hanchors⟩ := hconf htrue
      exact ⟨live, hrep.mono hl₃, hanchors⟩
    refine Gives.bind (writeAudit_safe _ _ _ _ _ _ _) fun _ l₅ _ _ => ?_
    refine Gives.bind (emitEvent_justified _ _ _ _) fun _ l₆ _ _ => ?_
    exact Gives.pure trivial

/-! ## The backend -/

/-- Every write of every request is justified. -/
theorem handle_justified (config : Config) (req : Request) :
    Justified config req (handle config req) [] := by
  -- one case for each route, worker and message
  cases req with
  | createContract auth body => exact (createContract_justified auth body).map
  | patchContractStatus auth id status => exact (patchContractStatus_justified auth id status).map
  | patchEscrowAnchor auth id body => exact (patchEscrowAnchor_justified auth id body).map
  | fileDispute auth body => exact (fileDispute_justified auth body).map
  | patchDisputeStatus auth id next =>
    exact (patchDisputeStatus_justified auth id next untouched_nil).map
  | escalate auth id => exact (escalate_justified auth id untouched_nil).map
  | reviewSlaScan auth => exact (reviewSlaScan_justified auth).map
  | decision auth id body => exact (decision_justified auth id body untouched_nil).map
  | execution auth id body => exact (execution_justified auth id body untouched_nil).map
  | track auth body => exact (track_justified auth body).map
  | getTransaction auth h fresh => exact (getTransaction_justified auth h fresh).map
  | refresh auth h => exact (refresh_justified auth h).map
  | backfill auth body => exact (backfill_justified auth body).map
  | streamTransaction stream throttled =>
    exact (handleTransaction_justified stream throttled).map
  | policyTick => exact policyTick_justified.map

end Bluesafe.Ops
