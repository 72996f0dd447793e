import Bluesafe.Api.Server
import Bluesafe.Async.Only

/-!
# Requests of auditors

The block on writes looks at the method only, so an auditor reaches every `GET` handler. All
calls of these handlers are reads, the clock, the generator, questions to remote services, and
the audit entries of a few of them; the exception is
`GET /v1/xrpl/transactions/:txHash?refresh=true`, which applies the answer of the ledger like
the `POST` route for the same purpose.

`Only` carries the argument: one lemma for each handler, then a frame for every run.
-/

namespace Bluesafe.Api

open Bluesafe.Ops (BluesafeAuth BluesafeRole AuditLog XrplTransaction)

/-! ## Reads -/

/-- The calls that change at most the audit entries. -/
def isRead : calls.Op → Bool
  | .inl .clock => true
  | .inl (.randomId _) => true
  | .inl (.getContract _) => true
  | .inl (.getEvidence _) => true
  | .inl (.getDispute _) => true
  | .inl (.listDisputesPage _ _ _) => true
  | .inl (.getXrplTx _) => true
  | .inl .listXrplTxs => true
  | .inl (.appendAudit _) => true
  | .inl (.getTxStatus _) => true
  | .inl (.getAccountTxResults _) => true
  | .inl _ => false
  | .inr (.claimExportJobsPending _ _) => false
  | .inr (.updateExportJob _) => false
  | .inr (.touchSettlementsOnLedgerClose _) => false
  | .inr (.saveSettlement _) => false
  | .inr (.saveEvidence _) => false
  | .inr (.deleteEvidence _) => false
  | .inr (.appendDisputeVerifierVote _) => false
  | .inr (.ipfsUpload _) => false
  | .inr (.unpinIfPinata _ _) => false
  | .inr _ => true

/-- The second store is the first one with audit entries added. -/
def OnlyAudits (s s' : Store) : Prop :=
  ∃ added : List AuditLog, s' = { s with ops := { s.ops with audits := added ++ s.ops.audits } }

theorem OnlyAudits.refl (s : Store) : OnlyAudits s s := ⟨[], rfl⟩

theorem OnlyAudits.trans {s t u : Store} (h : OnlyAudits s t) (h' : OnlyAudits t u) :
    OnlyAudits s u := by
  obtain ⟨xs, rfl⟩ := h
  obtain ⟨ys, rfl⟩ := h'
  exact ⟨ys ++ xs, by simp⟩

/-- A read changes nothing but the audit log. -/
theorem perform_of_isRead {op : Ops.Call} (h : isRead (.inl op) = true) (c : Ops.Choice)
    (s : Ops.Store) :
    ∃ added : List AuditLog, (Ops.perform op c s).2 = { s with audits := added ++ s.audits } := by
  cases op <;> first | exact ⟨[], rfl⟩ | exact ⟨[_], rfl⟩ | cases h

/-- A read, rejected or not, adds at most audit entries. -/
theorem serve_of_isRead (rt : Runtime) (op : calls.Op) (c : Choice) (s : Store)
    (h : isRead op = true) : OnlyAudits s (serve rt op c s).2 := by
  -- the call is one of the other routes, or one of this module
  cases op with
  | inl op =>
    obtain ⟨added, hadded⟩ := perform_of_isRead h c.toChoice s.ops
    simp only [serve]
    -- even a call that throws adds nothing but log lines
    rcases Ops.serve_state op c.toChoice s.ops with heq | heq
    · exact ⟨added, by rw [heq, hadded]⟩
    · exact ⟨[], by rw [heq]; rfl⟩
  | inr op =>
    -- every reading call leaves the whole store
    have hkeep : (perform rt op c s).2 = s := by
      cases op <;> first | rfl | cases h
    have hsame : (serve rt (.inr op) c s).2 = s := by
      rcases serve_inr_state rt op c s with heq | heq <;> rw [heq]
      exact hkeep
    rw [hsame]
    exact .refl s

/-- The program makes reads only. -/
abbrev ReadsOnly {α : Type} (p : ApiM α) : Prop := Async.Only (fun op => isRead op = true) p

/-- So does a program of reads. -/
theorem ReadsOnly.onlyAudits {α : Type} {p : ApiM α} (h : ReadsOnly p) (rt : Runtime)
    (oracle : Nat → Choice) (l : ApiLog) (s : Store) :
    OnlyAudits s (Async.runWith (world rt) oracle p l s).state :=
  Async.Only.runWith (W := world rt) OnlyAudits.refl (fun _ _ _ => .trans)
    (fun op c s hop => serve_of_isRead rt op c s hop) h oracle l s

/-! ## Rules -/

/-- A call that reads. -/
theorem invoke_reads {op : Call} (h : isRead (.inr op) = true) : ReadsOnly (invoke op) := .call h

/-- A call of the book that reads. -/
theorem opsInvoke_reads {op : Ops.Call} (h : isRead (.inl op) = true) :
    ReadsOnly (ofOps (Ops.invoke op)) := .inl (.call h)

/-- An audit entry counts as a read. -/
theorem writeAudit_reads (entityType entityId action actorId : String)
    (before after metadata : Option Ops.JsonObject) :
    ReadsOnly (ofOps (Ops.writeAudit entityType entityId action actorId before after metadata)) := by
  refine .inl (.bind (.call rfl) fun id => ?_)
  exact .bind (.call rfl) fun createdAt => .call rfl

section Handlers

variable {config : Config} {auth : Option BluesafeAuth}

/-- The guards of a route read. -/
theorem route_reads {allowed : List BluesafeRole} {handler : ApiM Response}
    (h : ReadsOnly handler) : ReadsOnly (route config allowed auth handler) := by
  unfold route
  split
  · exact .pure
  · exact h

/-- So does the parser of a body. -/
theorem withRequest_reads {α : Type} {request : Except Response α} {handler : α → ApiM Response}
    (h : ∀ a, ReadsOnly (handler a)) : ReadsOnly (withRequest request handler) := by
  cases request with
  | error reply => exact .pure
  | ok a => exact h a

/-- A call whose answer is sent. -/
theorem reply_reads {op : Call} {f : op.Res → Response} (h : isRead (.inr op) = true) :
    ReadsOnly (invoke op >>= fun a => pure (f a)) :=
  .bind (invoke_reads h) fun _ => .pure

/-- Whether a contract may be accessed. -/
theorem contractAccessible_reads (contractId : String) :
    ReadsOnly (contractAccessible config auth contractId) := by
  refine .bind (opsInvoke_reads rfl) fun contract => ?_
  cases contract with
  | none => exact .pure
  | some c => exact .pure

/-! ## Handlers -/

/-- A contract. -/
theorem readContract_reads (contractId : String) :
    ReadsOnly (readContract config auth contractId) := by
  refine route_reads (.bind (opsInvoke_reads rfl) fun contract => ?_)
  cases contract with
  | none => exact .pure
  | some c =>
    dsimp only
    split
    · exact .pure
    · exact .pure

/-- Evidence that is looked up for a handler. -/
theorem withEvidence_reads {evidenceId message : String} {handler : EvidenceFile → ApiM Response}
    (h : ∀ e, ReadsOnly (handler e)) :
    ReadsOnly (withEvidence config auth evidenceId message handler) := by
  refine .bind (invoke_reads rfl) fun evidence => ?_
  cases evidence with
  | none => exact .pure
  | some e =>
    exact .bind (contractAccessible_reads e.contractId) fun _ => .ite (h e) .pure

/-- Evidence. -/
theorem readEvidence_reads (evidenceId : String) :
    ReadsOnly (readEvidence config auth evidenceId) := by
  refine route_reads (withEvidence_reads fun e => ?_)
  exact .bind (writeAudit_reads ..) fun _ => .pure

/-- Its bytes, as they are stored. -/
theorem fetchEvidence_reads (e : EvidenceFile) : ReadsOnly (fetchEvidence config e) := by
  unfold fetchEvidence
  cases e.storageProvider with
  | mock => exact .pure
  | pinata => exact .tryCatch (.map (invoke_reads rfl)) fun _ => .pure

/-- And as they are decrypted. -/
theorem decryptEvidence_reads (e : EvidenceFile) (body : List UInt8) :
    ReadsOnly (decryptEvidence config e body) := by
  -- evidence that is not encrypted is handed out as it is
  unfold decryptEvidence
  split
  -- the key is resolved first; a failure is an answer, not a write
  · refine .bind (.tryCatch (.map (invoke_reads rfl)) fun _ => .pure) fun resolved => ?_
    cases resolved with
    | error reply => exact .pure
    | ok key =>
      cases key with
      | none => exact .pure
      | some k =>
        dsimp only
        split
        · exact .pure
        · exact .pure
  · exact .pure

/-- The content of evidence. -/
theorem readEvidenceContent_reads (evidenceId : String) :
    ReadsOnly (readEvidenceContent config auth evidenceId) := by
  -- the row, the stored bytes, the decrypted bytes: three reads
  refine route_reads (withEvidence_reads fun e => ?_)
  refine .bind (fetchEvidence_reads e) fun stored => ?_
  cases stored with
  | error reply => exact .pure
  | ok bytes =>
    refine .bind (decryptEvidence_reads e bytes) fun body => ?_
    cases body with
    | error reply => exact .pure
    | ok content =>
      -- the last call is the audit, which is counted as a log line
      dsimp only
      split
      · exact .pure
      · exact .bind (writeAudit_reads ..) fun _ => .pure

/-- The evidence that is due. -/
theorem retentionDue_reads : ReadsOnly (retentionDue config auth) :=
  route_reads (.bind (opsInvoke_reads rfl) fun _ => reply_reads rfl)

/-- A dispute that is looked up for a handler. -/
theorem withDispute_reads {disputeId : String} {handler : Ops.DisputeCase → ApiM Response}
    (h : ∀ d, ReadsOnly (handler d)) : ReadsOnly (withDispute config auth disputeId handler) := by
  refine .bind (opsInvoke_reads rfl) fun dispute => ?_
  cases dispute with
  | none => exact .pure
  | some d =>
    exact .bind (contractAccessible_reads d.contractId) fun _ => .ite (h d) .pure

/-- The escrows of an account. -/
theorem accountEscrows_reads (account : String) (q : Query) :
    ReadsOnly (accountEscrows config auth account q) := by
  unfold accountEscrows
  refine route_reads (.ite .pure ?_)
  refine withRequest_reads fun a => .ite ?_ .pure
  refine .tryCatch ?_ fun _ => .pure
  exact .bind (invoke_reads rfl) fun _ => .bind (writeAudit_reads ..) fun _ => .pure

/-- A notification. -/
theorem readNotification_reads (notificationId : String) :
    ReadsOnly (readNotification config auth notificationId) := by
  refine route_reads (.bind (invoke_reads rfl) fun n => ?_)
  cases n with
  | none => exact .pure
  | some n => exact .pure

/-- The settlements a caller may access. -/
theorem accessibleSettlements_reads (items : List SettlementRecord) :
    ReadsOnly (accessibleSettlements config auth items) := by
  induction items with
  | nil => exact .pure
  | cons item rest ih =>
    exact .bind (contractAccessible_reads _) fun _ => .bind ih fun _ => .pure

/-- A settlement. -/
theorem readSettlement_reads (settlementId : String) :
    ReadsOnly (readSettlement config auth settlementId) := by
  refine route_reads (.bind (invoke_reads rfl) fun s => ?_)
  cases s with
  | none => exact .pure
  | some s =>
    exact .bind (contractAccessible_reads _) fun _ => .ite .pure .pure

/-- The export loop: each page starts behind the rows that were written. -/
theorem exportAudits_reads (f : AuditFilter) (pageSize remaining offset : Nat) :
    ReadsOnly (exportAudits f pageSize remaining offset) := by
  induction remaining using Nat.strong_induction_on generalizing offset with
  | _ remaining ih =>
    unfold exportAudits
    split
    · exact .pure
    · rename_i hpos
      refine .bind (invoke_reads rfl) fun page => ?_
      cases page.items with
      | nil => exact .pure
      | cons log logs =>
        refine .ite .pure (.bind (ih _ ?_ _) fun _ => .pure)
        omega

/-- A report. -/
theorem exportReport_reads {q : Query} {contentType fileName : String}
    {render : List AuditLog → List String} :
    ReadsOnly (exportReport config auth q contentType fileName render) :=
  route_reads (withRequest_reads fun _ => .bind (exportAudits_reads ..) fun _ => .pure)

/-- An export job. -/
theorem readExportJob_reads (jobId : String) : ReadsOnly (readExportJob config auth jobId) := by
  refine route_reads (.bind (invoke_reads rfl) fun job => ?_)
  cases job with
  | none => exact .pure
  | some j => exact .pure

/-- The address of its artifact. -/
theorem artifactUrl_reads (jobId : String) : ReadsOnly (artifactUrl config auth jobId) := by
  unfold artifactUrl
  apply route_reads
  split
  · exact .pure
  · refine .bind (invoke_reads rfl) fun job => ?_
    cases job with
    | none => exact .pure
    | some j => exact .ite (.bind (opsInvoke_reads rfl) fun _ => .pure) .pure

/-- The audit log. -/
theorem listAudits_reads (q : Query) : ReadsOnly (listAudits config auth q) := by
  refine route_reads (withRequest_reads fun a => .ite (.ite .pure ?_) (reply_reads rfl))
  refine .bind (invoke_reads rfl) fun answer => ?_
  cases answer with
  | none => exact .pure
  | some x => exact .pure

/-- Without a refresh, the handler of one tracked transaction reads its row twice. -/
theorem readXrplTransaction_reads {txHash : String} {q : Query}
    (h : (shouldRefresh q && config.ops.xrplEnabled) = false) :
    ReadsOnly (readXrplTransaction config auth txHash q) := by
  refine .bind (.inl ?_) fun _ => .pure
  -- without a refresh the route only reads
  unfold Ops.getTransaction Ops.readRoute
  split
  · exact .pure
  · refine .bind (.call rfl) fun tx => ?_
    cases tx with
    | none => exact .pure
    | some t =>
      -- the refresh is refused to an auditor, so the latest row is read
      simp only [h]
      refine .bind (.call rfl) fun latest => ?_
      cases latest with
      | none => exact .throw
      | some t => exact .pure

/-- The request asks for the state of a transaction on a live ledger. -/
def Refreshes (config : Config) (req : Request) : Prop :=
  req.method.isRead = true ∧ (∃ txHash, req.route = .xrplTransaction txHash) ∧
    shouldRefresh req.query = true ∧ config.ops.xrplEnabled = true

/-- Every handler of a `GET` route, with every query, makes reads only, but for the refresh. -/
theorem read_reads {q : Query} {r : Route}
    (h : ∀ txHash, r = .xrplTransaction txHash →
      (shouldRefresh q && config.ops.xrplEnabled) = false) :
    ReadsOnly (read config auth q r) := by
  -- one case for each route of the table
  cases r with
  | contracts => exact route_reads (withRequest_reads fun _ => reply_reads rfl)
  | contract contractId => exact readContract_reads contractId
  | evidence evidenceId => exact readEvidence_reads evidenceId
  | evidenceContent evidenceId => exact readEvidenceContent_reads evidenceId
  | retentionDue => exact retentionDue_reads
  | disputes => exact route_reads (withRequest_reads fun _ => reply_reads rfl)
  | dispute disputeId => exact route_reads (withDispute_reads fun _ => .pure)
  | reviewState disputeId => exact route_reads (withDispute_reads fun _ => reply_reads rfl)
  | verifierRegistry => exact route_reads (reply_reads rfl)
  | xrplTransactions => exact route_reads (withRequest_reads fun _ => reply_reads rfl)
  | xrplTransaction txHash => exact readXrplTransaction_reads (h txHash rfl)
  | accountEscrows account => exact accountEscrows_reads account q
  | outbox => exact route_reads (withRequest_reads fun _ => reply_reads rfl)
  | notification notificationId => exact readNotification_reads notificationId
  | events => exact route_reads (withRequest_reads fun _ => reply_reads rfl)
  -- the settlements read the contracts as well, for their access
  | settlements =>
    exact route_reads (withRequest_reads fun _ => .bind (invoke_reads rfl) fun _ =>
      .bind (accessibleSettlements_reads _) fun _ => .pure)
  | settlement settlementId => exact readSettlement_reads settlementId
  | statsSummary => exact route_reads (reply_reads rfl)
  | executionPolicy => exact route_reads .pure
  | xrplOperations => exact route_reads .pure
  | authProviders => exact route_reads .pure
  | reportsSummary => exact route_reads (withRequest_reads fun _ => reply_reads rfl)
  | auditsNdjson => exact exportReport_reads
  | auditsCsv => exact exportReport_reads
  | exportJob jobId => exact readExportJob_reads jobId
  | artifactUrl jobId => exact artifactUrl_reads jobId
  | audits => exact listAudits_reads q
  | unmatched path => exact .pure

end Handlers

/-! ## The refresh -/

/-- A row that waits for its validation and executes no dispute. -/
def pendingTx (txHash : String) : XrplTransaction :=
  Ops.freshTrackedTx "xrt_1" txHash ⟨"EscrowFinish", none, none, .testnet⟩ 0

/-- A store that tracks one hash. -/
def trackingStore (txHash : String) : Store :=
  { Store.empty with ops := { Ops.Store.empty with xrplTxs := ⟨[pendingTx txHash], by simp⟩ } }

/-- The ledger's answer for a transaction that succeeded. -/
def validatedStatus (txHash : String) : Ops.LiveTxStatus :=
  { txHash := txHash, validated := true, resultCode := some "tesSUCCESS" }

/-- The ledger has validated the transaction; no call fails. -/
def validatedOracle (txHash : String) : Nat → Choice :=
  fun _ => { live := some (validatedStatus txHash) }

/-- A call of `Bluesafe.Ops` that does not fail. -/
theorem runWith_ofOps {rt : Runtime} {oracle : Nat → Choice} {op : Ops.Call} {l : ApiLog}
    {s : Store} (h : (oracle l.length).failure = none) :
    Async.runWith (world rt) oracle (ofOps (Ops.invoke op)) l s =
      ⟨⟨.inl op, .ok (Ops.perform op (oracle l.length).toChoice s.ops).1⟩ :: l,
        .ok (Ops.perform op (oracle l.length).toChoice s.ops).1,
        { s with ops := (Ops.perform op (oracle l.length).toChoice s.ops).2 }⟩ := by
  have hserve : (world rt).serve (.inl op) (oracle l.length) s =
      (.ok (Ops.perform op (oracle l.length).toChoice s.ops).1,
        { s with ops := (Ops.perform op (oracle l.length).toChoice s.ops).2 }) := by
    simp only [world, serve, Ops.serve, h]
  have hanswer : ((world rt).serve (.inl op) (oracle l.length) s).1 =
      .ok (Ops.perform op (oracle l.length).toChoice s.ops).1 := by
    rw [hserve]
  rw [ofOps_invoke, Async.runWith_call_ok _ _ hanswer, hserve]

/-- Where no call fails, the ledger's answer replaces the row of a hash without a dispute. -/
theorem runWith_applyLiveTxStatus (rt : Runtime) {oracle : Nat → Choice} {txHash : String}
    (hfail : ∀ n, (oracle n).failure = none) {s : Store} {tracked : XrplTransaction}
    (hrow : s.ops.xrplTxs.get? txHash = some tracked) (hdispute : tracked.disputeId = none)
    (live : Ops.LiveTxStatus) (l : ApiLog) :
    (Async.runWith (world rt) oracle
        (ofOps (Ops.applyLiveTxStatus txHash live)) l s).result = .ok true ∧
      (Async.runWith (world rt) oracle
        (ofOps (Ops.applyLiveTxStatus txHash live)) l s).state =
      { s with ops := { s.ops with
        xrplTxs := s.ops.xrplTxs.set (tracked.reconciled live (oracle (l.length + 1)).now) } } := by
  have hlink : ∀ now, Ops.resolveLinkedDispute (tracked.reconciled live now) = pure () := by
    intro now
    simp [Ops.resolveLinkedDispute, XrplTransaction.resolves, XrplTransaction.reconciled, hdispute,
      Ops.truthy]
  simp only [Ops.applyLiveTxStatus, Async.inl_bind, Async.runWith_bind, runWith_ofOps (hfail _),
    Async.Outcome.andThen, Ops.perform, hrow, hlink]
  exact ⟨rfl, rfl⟩

/-- The refresh stores the answer of the ledger. -/
theorem refresh_writes {config : Config} {q : Query} (a : BluesafeAuth) (txHash : String)
    (hrefresh : shouldRefresh q = true)
    (henabled : config.ops.xrplEnabled = true) :
    (((Async.runWith (world config.runtime) (validatedOracle txHash)
      (readXrplTransaction config (some a) txHash q) [] (trackingStore txHash)).state.ops.xrplTxs.get?
        txHash).map XrplTransaction.validated) = some true := by
  have hrow : (trackingStore txHash).ops.xrplTxs.get? txHash = some (pendingTx txHash) :=
    Table.get?_of_mem (v := pendingTx txHash) List.mem_cons_self
  have hfail : ∀ n, (validatedOracle txHash n).failure = none := fun _ => rfl
  have hlive : ∀ n, (validatedOracle txHash n).live = some (validatedStatus txHash) := fun _ => rfl
  have happly := runWith_applyLiveTxStatus config.runtime hfail hrow rfl (validatedStatus txHash)
  simp only [readXrplTransaction, Ops.getTransaction, Ops.readRoute, requireRoles_allRoles, hrefresh,
    henabled, Ops.lookupAndApply, Async.runWith_bind, Async.inl_bind,
    runWith_ofOps (hfail _), Async.Outcome.andThen, Ops.perform, hrow, Bool.and_self, if_true, hlive]
  -- The reply reads the row that was just stored.
  have hset : ∀ now, ((trackingStore txHash).ops.xrplTxs.set
      ((pendingTx txHash).reconciled (validatedStatus txHash) now)).get? txHash =
      some ((pendingTx txHash).reconciled (validatedStatus txHash) now) :=
    fun now => Table.get?_set_self _ ((pendingTx txHash).reconciled (validatedStatus txHash) now)
  rw [(happly _).1]
  simp only [(happly _).2, Async.inl_pure, Async.runWith_pure, Ops.replyTransaction,
    Async.inl_bind, Async.runWith_bind, runWith_ofOps (hfail _), Async.Outcome.andThen, Ops.perform,
    hset]
  rfl

/-! ## Requests -/

/-- For every store, every behaviour of the environment and every request of an auditor, at
    most audit entries are added, exactly when the request does not refresh a tracked
    transaction from a live ledger. -/
theorem auditor_requests_read_only (config : Config)
    (other : Request → Option BluesafeAuth → ApiM Response) (req : Request) (a : BluesafeAuth)
    (hauth : authenticate config req.headers = .ok (some a)) (hrole : a.role = .auditor) :
    (∀ oracle s, OnlyAudits s (run config other oracle s req).state) ↔
      ¬ Refreshes config req := by
  constructor
  · rintro hall ⟨hread, ⟨txHash, hroute⟩, hrefresh, henabled⟩
    obtain ⟨added, hsame⟩ := hall (validatedOracle txHash) (trackingStore txHash)
    have hwrites := refresh_writes a txHash hrefresh henabled
    rw [run_read hread hauth, hroute] at hsame
    change Async.Outcome.state (Async.runWith _ _ (readXrplTransaction _ _ _ _) _ _) = _ at hsame
    rw [hsame] at hwrites
    have hrow : (trackingStore txHash).ops.xrplTxs.get? txHash = some (pendingTx txHash) :=
      Table.get?_of_mem (v := pendingTx txHash) List.mem_cons_self
    simp only [hrow] at hwrites
    cases hwrites
  · intro hno oracle s
    cases hread : req.method.isRead with
    | true =>
      rw [run_read hread hauth]
      refine ReadsOnly.onlyAudits (read_reads fun txHash hroute => ?_) _ _ _ _
      -- A refresh on a live ledger is what the hypothesis excludes.
      rw [Bool.and_eq_false_iff]
      by_contra hboth
      simp only [not_or, Bool.not_eq_false] at hboth
      exact hno ⟨hread, ⟨txHash, hroute⟩, hboth.1, hboth.2⟩
    | false =>
      obtain ⟨hon, -⟩ := authenticate_eq_some hauth
      have hblocked : Ops.blockAuditorWriteOperations config.ops (some a) =
          some (.error 403 "B2_FORBIDDEN" "Auditor role is read-only (GET/HEAD only on /v1)") := by
        simp [Ops.blockAuditorWriteOperations, hon, hrole]
      have hprog : ReadsOnly (handle config other req) := by
        unfold handle
        refine .ite .pure ?_
        simp only [hauth, dispatch, hread, hblocked]
        exact .pure
      exact hprog.onlyAudits _ _ _ _

/-- An auditor lists the evidence files whose retention is over. -/
theorem auditor_requests_read_only_retention :
    OnlyAudits (trackingStore (Ops.sampleHash 'A'))
      (run sampleConfig sampleWrites (validatedOracle (Ops.sampleHash 'A'))
        (trackingStore (Ops.sampleHash 'A')) (sampleRequest .get .retentionDue "auditor")).state :=
  (auditor_requests_read_only sampleConfig sampleWrites
    (sampleRequest .get .retentionDue "auditor") ⟨.auditor, none, none⟩ rfl rfl).mpr
    (fun h => by simpa [sampleRequest] using h.2.1) _ _

/-- The request of an auditor for a tracked transaction, with `?refresh=true`. -/
def sampleRefresh : Request :=
  { sampleRequest .get (.xrplTransaction (Ops.sampleHash 'A')) "auditor" with
    query := fun name => if name = "refresh" then some (.text "true") else none }

/-- The request stores that the transaction is validated. -/
theorem auditor_refresh_stores_status :
    authenticate sampleConfig sampleRefresh.headers = .ok (some ⟨.auditor, none, none⟩) ∧
    ((trackingStore (Ops.sampleHash 'A')).ops.xrplTxs.get? (Ops.sampleHash 'A')).map
      XrplTransaction.validated = some false ∧
    ((run sampleConfig sampleWrites (validatedOracle (Ops.sampleHash 'A'))
      (trackingStore (Ops.sampleHash 'A')) sampleRefresh).state.ops.xrplTxs.get?
        (Ops.sampleHash 'A')).map XrplTransaction.validated = some true :=
  ⟨rfl, rfl, by decide +kernel⟩

end Bluesafe.Api
