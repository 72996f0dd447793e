import Bluesafe.Spec.BookRefinement

/-!
# The deeds of each request

The requests of the execution life cycle, handled one after the other: decisions, tracking,
refreshes, backfills, stream messages and ticks of the policy worker do plain deeds
only, and an execution request does nothing or the one deed `execute`, with the answer
its lookup had.
-/

namespace Bluesafe.Ops

open Async Transition

variable {config : Config} {l : OpsLog} {s : Store}

/-! ## Reads

The answer of a read is what the store holds, so a proof continues with that value. -/

/-- A look-up of a row gives the stored one. -/
theorem getXrplTx_does {β : Type} {R : Except String β → List Deed → OpsLog → Store → Prop}
    {h : String} {found : Option XrplTransaction} {f : Option XrplTransaction → OpsM β}
    (hrow : s.xrplTxs.get? h = found) (hf : Does (f found) R (⟨.getXrplTx h, .ok found⟩ :: l) s) :
    Does (getXrplTx h >>= f) R l s := by
  subst hrow
  exact Does.quiet_bind rfl fun _ => hf

/-- A look-up of a dispute gives the stored one. -/
theorem getDispute_does {β : Type} {R : Except String β → List Deed → OpsLog → Store → Prop}
    {id : String} {found : Option DisputeCase} {f : Option DisputeCase → OpsM β}
    (hd : s.disputes.get? id = found) (hf : Does (f found) R (⟨.getDispute id, .ok found⟩ :: l) s) :
    Does (getDispute id >>= f) R l s := by
  subst hd
  exact Does.quiet_bind rfl fun _ => hf

/-- A look-up of a contract may give any, as the book has none. -/
theorem getContract_does {β : Type} {R : Except String β → List Deed → OpsLog → Store → Prop}
    {id : String} {f : Option Contract → OpsM β}
    (hf : ∀ found, Does (f found) R (⟨.getContract id, .ok found⟩ :: l) s) :
    Does (getContract id >>= f) R l s :=
  Does.quiet_bind rfl fun _ => hf _

/-! ## Routes -/

/-- The guards of a writing route do nothing. -/
theorem writeRoute_does {R : Except String Reply → List Deed → OpsLog → Store → Prop}
    {roles : List BluesafeRole} {auth : Option BluesafeAuth} {p : OpsM Reply}
    (hR : ∀ reply, R (.ok reply) [] l s) (hp : Does p R l s) :
    Does (writeRoute config roles auth p) R l s := by
  unfold writeRoute
  split
  · exact Does.pure (hR _)
  · split
    · exact Does.pure (hR _)
    · exact hp

/-- The ledger was not asked between the two logs. -/
def Unasked (l l' : OpsLog) : Prop :=
  ∀ ev ∈ l', ev ∈ l ∨ ev.op.isLedger = false

/-- A call that does not go to the ledger asks nothing. -/
theorem Unasked.cons {l' : OpsLog} (h : Unasked l l') {ev : Event calls String}
    (hev : ev.op.isLedger = false) : Unasked l (ev :: l') := by
  intro ev' hmem
  rcases List.mem_cons.mp hmem with rfl | hmem
  · exact .inr hev
  · exact h ev' hmem

theorem unasked_refl (l : OpsLog) : Unasked l l := fun _ h => .inl h

/-- The handler of one dispute works on the stored dispute. -/
theorem withDispute_does {R : Except String Reply → List Deed → OpsLog → Store → Prop}
    {auth : Option BluesafeAuth} {id forbidden : String} {p : DisputeCase → OpsM Reply}
    (hR : ∀ reply l', R (.ok reply) [] l' s)
    (hp : ∀ d l', s.disputes.get? id = some d → Unasked l l' → Does (p d) R l' s) :
    Does (withDispute config auth id forbidden p) R l s := by
  unfold withDispute canAccessDispute
  -- both look-ups are read off the store; neither is a deed
  cases hd : s.disputes.get? id with
  | none => exact getDispute_does hd (Does.pure (hR _ _))
  | some d =>
    refine getDispute_does hd ?_
    refine Does.bind (R := fun r ds l' s' => (∃ b, r = .ok b) ∧ ds = [] ∧ s' = s ∧ Unasked l l')
      ?_ ?_ ?_
    · have hasked : Unasked l (⟨.getDispute id, .ok (some d)⟩ :: l) :=
        (unasked_refl l).cons rfl
      refine getContract_does fun found => ?_
      cases found with
      | none => exact Does.pure ⟨⟨_, rfl⟩, rfl, rfl, hasked.cons rfl⟩
      | some contract => exact Does.pure ⟨⟨_, rfl⟩, rfl, rfl, hasked.cons rfl⟩
    · rintro allowed ds l' s' - ⟨-, rfl, rfl, hasked⟩
      split
      · exact hp d l' hd hasked
      · exact Does.pure (hR _ _)
    -- the access check throws nothing
    · rintro e ds l' s' - ⟨⟨b, hb⟩, -⟩
      exact nomatch hb

/-! ## Saves that keep the book -/

/-- Saving a row with the link and the flag of the stored one keeps the book. -/
theorem book_withRow_same {h : String} {row row' : XrplTransaction}
    (hrow : s.xrplTxs.get? h = some row) (hhash : row'.txHash = h)
    (hsame : row'.asEntry = row.asEntry) : (s.withRow row').book = s.book := by
  unfold Store.withRow
  rw [book_setRow, hhash, hsame]
  exact Book.setEntry_eq_self (book_entry hrow)

/-- A row that is saved with its old entry does nothing to the book. -/
theorem saveXrplTx_plain {β : Type} {h : String} {row row' : XrplTransaction} {f : Unit → OpsM β}
    (hrow : s.xrplTxs.get? h = some row) (hhash : row'.txHash = h)
    (hsame : row'.asEntry = row.asEntry)
    (hf : ∀ l', DoesPlain (f ()) l' (s.withRow row')) : DoesPlain (saveXrplTx row' >>= f) l s :=
  Does.call_bind rfl (by intro d hd; exact nomatch hd)
    (fun _ => book_withRow_same hrow hhash hsame) fun _ => hf _

/-- Saving a dispute that is not resolved: a deed without a resolution. -/
theorem saveDispute_does {β : Type} {R : Except String β → List Deed → OpsLog → Store → Prop}
    {d : DisputeCase} {f : Unit → OpsM β} (deed : Deed)
    (hstatus : d.status ≠ .executed ∧ d.status ≠ .rejected)
    (hbook : (s.withDispute d).book = s.book.step deed)
    (hf : Does (f ()) (fun r ds => R r (deed :: ds)) (⟨.saveDispute d, .ok ()⟩ :: l)
      (s.withDispute d)) : Does (saveDispute d >>= f) R l s := by
  unfold Does
  rw [wp_bind]
  refine wp_invoke rfl fun c => ?_
  have href : Refines l s (⟨.saveDispute d, .ok ()⟩ :: l) (s.withDispute d) [deed] := by
    refine ⟨List.suffix_cons _ _, hbook, fun h id hm => .inl (movedBy_cons ?_ hm)⟩
    rintro d' heq
    cases heq
    exact hstatus
  exact Does.after href hf

/-! ## Tracking and refreshing -/

/-- The answer of the ledger is one deed. -/
theorem lookupAndApply_plain (h : String) : DoesPlain (lookupAndApply h) l s := by
  unfold lookupAndApply
  refine DoesPlain.ledger_bind rfl fun live l₁ => ?_
  cases live with
  | none => exact DoesPlain.pure ()
  | some live =>
    refine DoesPlain.bind (applyLiveTxStatus_plain h live l₁ s) fun _ _ l₂ s₂ _ _ => ?_
    exact DoesPlain.pure ()

/-- The announcement of a tracked transaction is no deed. -/
theorem announceTracked_plain (body : TrackBody) : DoesPlain (announceTracked body) l s := by
  refine DoesPlain.of_calm ?_
  unfold announceTracked
  refine Calm.bind (Calm.call rfl) fun tracked => ?_
  refine Calm.bind (Calm.writeAudit _ _ _ _ _ _ _) fun _ => ?_
  refine Calm.bind (Calm.emitEvent _ _ _ _) fun _ => ?_
  exact Calm.pure _

/-- Tracking links the hash, and applies an answer. -/
theorem track_plain (auth : Option BluesafeAuth) (body : TrackBody) :
    DoesPlain (track config auth body) l s := by
  unfold track
  refine writeRoute_does (fun _ => Book.plain_nil) ?_
  refine DoesPlain.bind (upsertTrackedTx_plain rfl l s) fun _ _ l₁ s₁ _ _ => ?_
  split
  · refine DoesPlain.bind (lookupAndApply_plain _) fun _ _ l₂ s₂ _ _ => ?_
    exact announceTracked_plain body
  · exact announceTracked_plain body

/-- The reply reads only. -/
theorem replyRefreshed_plain (h : String) : DoesPlain (replyRefreshed h) l s := by
  unfold replyRefreshed
  refine getXrplTx_does rfl ?_
  cases s.xrplTxs.get? h with
  | none => exact DoesPlain.throw _
  | some latest => exact DoesPlain.pure _

/-- A refresh applies an answer. -/
theorem refresh_plain (auth : Option BluesafeAuth) (h : String) :
    DoesPlain (refresh config auth h) l s := by
  unfold refresh
  refine writeRoute_does (fun _ => Book.plain_nil) ?_
  refine Does.quiet_bind rfl fun c => ?_
  split
  · exact DoesPlain.pure _
  · split
    · refine DoesPlain.ledger_bind rfl fun live l₁ => ?_
      cases live with
      | none => exact DoesPlain.pure _
      | some live =>
        refine DoesPlain.bind (applyLiveTxStatus_plain h live _ _) fun _ _ l₂ s₂ _ _ => ?_
        exact replyRefreshed_plain h
    · exact DoesPlain.pure _

/-- This reply reads only, too. -/
theorem replyTransaction_plain (h : String) : DoesPlain (replyTransaction h) l s := by
  unfold replyTransaction
  refine getXrplTx_does rfl ?_
  cases s.xrplTxs.get? h with
  | none => exact DoesPlain.throw _
  | some latest => exact DoesPlain.pure _

/-- A lookup that asks the ledger again applies its answer. -/
theorem getTransaction_plain (auth : Option BluesafeAuth) (h : String) (fresh : Bool) :
    DoesPlain (getTransaction config auth h fresh) l s := by
  unfold getTransaction readRoute
  split
  · exact DoesPlain.pure _
  · refine Does.quiet_bind rfl fun c => ?_
    split
    · exact DoesPlain.pure _
    · split
      · refine DoesPlain.bind (lookupAndApply_plain _) fun _ _ l₁ s₁ _ _ => ?_
        exact replyTransaction_plain h
      · exact replyTransaction_plain h

/-! ## Stream -/

/-- A message of the stream applies its answer. -/
theorem handleTransaction_plain (stream : TransactionStream) (throttled : Bool) :
    DoesPlain (handleTransaction stream throttled) l s := by
  unfold handleTransaction
  split
  · exact DoesPlain.pure _
  · cases stream.accepted with
    | none => exact DoesPlain.pure _
    | some p =>
      obtain ⟨h, i⟩ := p
      -- the row has to be there, and the message has to be the first of its key
      refine Does.quiet_bind rfl fun c => ?_
      split
      · exact DoesPlain.pure _
      · refine Does.quiet_bind rfl fun c => ?_
        split
        · refine DoesPlain.bind (applyLiveTxStatus_plain _ _ _ _) fun _ _ l₂ s₂ _ _ => ?_
          exact DoesPlain.pure _
        · exact DoesPlain.pure _

/-! ## Policy worker -/

/-- Every one of the rows is tracked in the book. -/
def Tracked (rows : List XrplTransaction) (b : Book) : Prop :=
  ∀ tx ∈ rows, ∃ e, b.entry tx.txHash = some e ∧ e.link = tx.disputeId

/-- Plain deeds forget no transaction and change no link. -/
theorem tracked_stable (rows : List XrplTransaction) : DoesPlain.Stable (Tracked rows) := by
  intro b ds hplain hb tx htx
  obtain ⟨e, he, hlink⟩ := hb tx htx
  obtain ⟨e', he', hlink'⟩ := Book.link_run he hplain
  exact ⟨e', he', hlink'.trans hlink⟩

/-- The rows of a store are tracked in its book. -/
theorem tracked_rows (s : Store) : Tracked s.xrplTxs.rows s.book := by
  intro tx htx
  exact ⟨tx.asEntry, book_entry (Table.get?_of_mem htx), rfl⟩

/-- A tracked hash has a row. -/
theorem row_of_entry {h : String} {e : Entry} (he : s.book.entry h = some e) :
    ∃ row, s.xrplTxs.get? h = some row ∧ row.asEntry = e := by
  exact Option.map_eq_some_iff.mp he

/-- The account of a row is no part of its entry. -/
theorem backfillAccount_plain {tx : XrplTransaction}
    (htx : ∃ e, s.book.entry tx.txHash = some e) : DoesPlain (backfillAccount tx) l s := by
  obtain ⟨e, he⟩ := htx
  obtain ⟨row, hrow, -⟩ := row_of_entry he
  unfold backfillAccount
  refine DoesPlain.ledger_bind rfl fun live l₁ => ?_
  split
  · exact DoesPlain.pure _
  · rename_i account _
    -- The row is still stored, so the copy from the list is not used.
    refine getXrplTx_does hrow ?_
    dsimp only [Option.getD_some]
    split
    · exact DoesPlain.pure _
    · refine Does.quiet_bind rfl fun c => ?_
      have hhash : row.txHash = tx.txHash := Table.key_of_get? hrow
      refine saveXrplTx_plain hrow hhash rfl fun l₂ => ?_
      exact DoesPlain.of_calm (Calm.writeAudit _ _ _ _ _ _ _)

/-- Jobs are no deeds. -/
theorem createPolicyJobs_plain (policy : PolicyConfig) (now : Time) (txs : List XrplTransaction) :
    DoesPlain (createPolicyJobs policy now txs) l s := by
  refine DoesPlain.of_calm ?_
  unfold createPolicyJobs
  refine Calm.forM fun tx _ => ?_
  split
  · refine Calm.bind (Calm.call rfl) fun t => ?_
    split
    · exact Calm.pure _
    · exact Calm.bind (Calm.call rfl) fun _ => Calm.pure _
  · exact Calm.pure _

/-- Nor is a job that is put back. -/
theorem requeueJob_plain (policy : PolicyConfig) (job : DelayedJob) (lastError : Option String) :
    DoesPlain (requeueJob policy job lastError) l s := by
  refine DoesPlain.of_calm ?_
  unfold requeueJob
  exact Calm.bind (Calm.call rfl) fun t => Calm.bind (Calm.call rfl) fun _ => Calm.call rfl

/-- Nor is one that is deleted. -/
theorem deleteDelayedJob_plain (id : String) : DoesPlain (deleteDelayedJob id) l s :=
  DoesPlain.of_calm (Calm.call rfl)

/-- The probe only asks the ledger. -/
theorem probeLedger_does (h : String) (tx : XrplTransaction) :
    Does (probeLedger h tx) (fun _ ds _ s' => ds = [] ∧ s' = s) l s := by
  unfold probeLedger
  refine Does.ledger_bind rfl (fun live => ?_) fun e => ⟨rfl, rfl⟩
  cases live with
  | some live => exact Does.pure ⟨rfl, rfl⟩
  | none =>
    dsimp only
    split
    · exact Does.pure ⟨rfl, rfl⟩
    · exact Does.ledger_bind rfl (fun map => Does.pure ⟨rfl, rfl⟩) fun e => ⟨rfl, rfl⟩

/-- A candidate is not validated. -/
theorem not_validated_of_candidate {tx : XrplTransaction} (h : isPolicyCandidate tx = true) :
    tx.validated = false := by
  unfold isPolicyCandidate at h
  split at h
  · exact nomatch h
  · rename_i hv
    simpa using hv

/-- A probe that found nothing keeps the entry of its row. -/
theorem recordNotFound_plain {h : String} {tx : XrplTransaction}
    (hrow : s.xrplTxs.get? h = some tx) (hcand : isPolicyCandidate tx = true)
    (policy : PolicyConfig) (job : DelayedJob) :
    DoesPlain (recordNotFound policy job h tx) l s := by
  have hhash : tx.txHash = h := Table.key_of_get? hrow
  unfold recordNotFound
  refine getXrplTx_does hrow ?_
  refine Does.quiet_bind rfl fun c => ?_
  dsimp only [Option.getD_some]
  split
  · refine saveXrplTx_plain hrow hhash ?_ fun l₂ => ?_
    · -- A candidate is not validated, so the flag is the old one.
      show (⟨tx.disputeId, false⟩ : Entry) = ⟨tx.disputeId, tx.validated⟩
      rw [not_validated_of_candidate hcand]
    · refine DoesPlain.of_calm (Calm.bind (Calm.call rfl) fun _ => ?_)
      exact Calm.bind (Calm.writeAudit _ _ _ _ _ _ _) fun _ => Calm.emitEvent _ _ _ _
  -- a counted probe leaves link and flag of the row
  · refine saveXrplTx_plain hrow hhash rfl fun l₂ => ?_
    exact requeueJob_plain _ _ _

/-- A job applies the answer of its probe. -/
theorem runPolicyJob_plain (policy : PolicyConfig) (job : DelayedJob) (h : String) :
    DoesPlain (runPolicyJob policy job h) l s := by
  unfold runPolicyJob
  cases hrow : s.xrplTxs.get? h with
  | none => exact getXrplTx_does hrow (deleteDelayedJob_plain _)
  | some tx =>
    refine getXrplTx_does hrow ?_
    dsimp only
    split
    -- a candidate is probed; its answer is one deed, its absence none
    · rename_i hcand
      refine Does.bind (probeLedger_does h tx) ?_ ?_
      · rintro found ds l₂ s₂ - ⟨rfl, rfl⟩
        cases found with
        | none => exact recordNotFound_plain hrow hcand policy job
        | some live =>
          refine DoesPlain.bind (applyLiveTxStatus_plain h live _ _) fun _ _ l₃ s₃ _ _ => ?_
          exact deleteDelayedJob_plain _
      · rintro e ds l₂ s₂ - ⟨rfl, rfl⟩
        exact Book.plain_nil
    · exact deleteDelayedJob_plain _

/-- So does the job behind the check of its payload. -/
theorem processJob_plain (policy : PolicyConfig) (job : DelayedJob) :
    DoesPlain (processJob policy job) l s := by
  unfold processJob
  split
  · exact deleteDelayedJob_plain _
  · refine DoesPlain.tryCatch (runPolicyJob_plain policy job _) fun e _ l₁ s₁ _ _ => ?_
    exact requeueJob_plain _ _ _

/-- All jobs of a tick. -/
theorem runPolicyJobs_plain (policy : PolicyConfig) (now : Time) (txs : List XrplTransaction) :
    DoesPlain (runPolicyJobs policy now txs) l s := by
  unfold runPolicyJobs
  refine DoesPlain.bind (createPolicyJobs_plain policy now txs) fun _ _ l₁ s₁ _ _ => ?_
  refine Does.quiet_bind rfl fun c => ?_
  exact DoesPlain.forM (J := fun _ => True) (fun _ _ _ h => h) trivial
    fun job l₂ s₂ _ _ => processJob_plain policy job

/-- A tick of the policy worker. -/
theorem policyTick_plain : DoesPlain (policyTick config) l s := by
  unfold policyTick
  split
  · refine Does.quiet_bind rfl fun c => ?_
    refine Does.quiet_bind rfl fun c' => ?_
    show DoesPlain (if config.policy.accountBackfillPerTick > 0 then _ else _) _ s
    split
    · refine DoesPlain.bind (DoesPlain.forM (tracked_stable s.xrplTxs.rows) (tracked_rows s) ?_)
        fun _ _ l₃ s₃ _ _ => runPolicyJobs_plain _ _ _
      intro tx l₂ s₂ htx htracked
      -- the rows of the pass are rows of the store, so they have entries
      have hmem : tx ∈ s.xrplTxs.rows := List.mem_of_mem_filter (List.mem_of_mem_take htx)
      obtain ⟨e, he, -⟩ := htracked tx hmem
      refine DoesPlain.tryCatch (backfillAccount_plain ⟨e, he⟩) fun _ _ l₃ s₃ _ _ => ?_
      exact DoesPlain.pure _
    · exact runPolicyJobs_plain _ _ _
  · exact DoesPlain.pure _

/-! ## Backfill -/

/-- A program whose rejection is kept as a value. -/
theorem attempt_plain {α : Type} {p : OpsM α} (hp : DoesPlain p l s) :
    DoesPlain (attempt p) l s := by
  unfold attempt
  refine DoesPlain.tryCatch ?_ fun e _ l₁ s₁ _ _ => DoesPlain.pure _
  exact DoesPlain.bind hp fun a _ l₁ s₁ _ _ => DoesPlain.pure _

/-- A row of a backfill applies the answer for its hash. -/
theorem backfillLiveRow_plain (account : String) (map : List (String × LiveTxStatus))
    (updated : Nat) (tracked : XrplTransaction) :
    DoesPlain (backfillLiveRow account map updated tracked) l s := by
  -- the answer of the map is one deed, if there is one
  have happly : DoesPlain (backfillLiveRow.applyRow map updated tracked) l s := by
    unfold backfillLiveRow.applyRow
    split
    · exact DoesPlain.pure _
    · refine DoesPlain.bind (applyLiveTxStatus_plain _ _ l s) fun applied _ l₁ s₁ _ _ => ?_
      split
      · exact DoesPlain.pure _
      · exact DoesPlain.pure _
  unfold backfillLiveRow
  split
  · split
    · exact DoesPlain.pure _
    · exact happly
  · exact happly

/-- All rows of a backfill. -/
theorem backfillLiveRows_plain (account : String) : DoesPlain (backfillLiveRows account) l s := by
  unfold backfillLiveRows
  -- the ledger is asked once, and its failure is caught
  have hasks : DoesPlain (getAccountTxResults account) l s := by
    refine wp_ledger rfl (fun map => ?_) fun e => ?_
    · exact ⟨[], Refines.call (by intro d hd; exact nomatch hd) rfl, Book.plain_nil⟩
    · exact ⟨[], Refines.call (by intro d hd; exact nomatch hd) rfl, Book.plain_nil⟩
  refine DoesPlain.bind (attempt_plain hasks) fun r _ l₁ s₁ _ _ => ?_
  split
  · exact DoesPlain.pure _
  · refine DoesPlain.bind (attempt_plain (DoesPlain.of_calm (Calm.call rfl)))
      fun r _ l₂ s₂ _ _ => ?_
    split
    · exact DoesPlain.pure _
    · -- each row is one step of the loop; a row that fails is skipped
      refine DoesPlain.foldlM (J := fun _ => True) (fun _ _ _ h => h) trivial
        fun p tracked l₃ s₃ _ _ => ?_
      unfold backfillLiveStep
      split
      · exact DoesPlain.pure _
      · refine DoesPlain.bind (attempt_plain (backfillLiveRow_plain _ _ _ _))
          fun r _ l₄ s₄ _ _ => ?_
        split
        · exact DoesPlain.pure _
        · exact DoesPlain.pure _

/-- The live part of a backfill. -/
theorem backfillLive_plain (account : String) : DoesPlain (backfillLive account) l s := by
  unfold backfillLive
  refine DoesPlain.bind (backfillLiveRows_plain account) fun p _ l₁ s₁ _ _ => ?_
  split
  · exact DoesPlain.pure _
  · refine DoesPlain.bind (attempt_plain (DoesPlain.of_calm (Calm.writeAudit _ _ _ _ _ _ _)))
      fun r _ l₂ s₂ _ _ => ?_
    split
    · exact DoesPlain.pure _
    · exact DoesPlain.pure _

/-- A row that is saved with another flag just before the ledger's word is applied to it
    does not count: the word replaces the flag. -/
theorem Refines.of_setEntry {l' : OpsLog} {s₁ s' : Store} {ev : Event calls String} {h : String}
    {e : Entry} {flag validated success : Bool} (he : s.book.entry h = some e)
    (hs₁ : s₁.book = s.book.setEntry h ⟨e.link, flag⟩) (hev : ∀ d, ev.op ≠ .saveDispute d)
    (href : Refines (ev :: l) s₁ l' s' [.apply h validated success]) :
    Refines l s l' s' [.apply h validated success] := by
  refine ⟨(List.suffix_cons _ _).trans href.grows, ?_, fun h' id hm => ?_⟩
  · rw [href.book, hs₁]
    exact Book.apply_setEntry he flag validated success
  · rcases href.moved h' id hm with hm | hm
    · exact .inl (movedBy_cons (fun d hd => absurd hd (hev d)) hm)
    · right
      have hmoved := Book.moved_setEntry he flag validated
      rw [← hs₁] at hmoved
      simp only [Book.resolutions, Book.resolution, hmoved] at hm ⊢
      exact hm

/-- The simulated loop brings the word it makes up to the book. -/
theorem backfillSimulatedRow_plain {body : BackfillBody} {updated : Nat} {tx : XrplTransaction}
    (htx : ∃ e, s.book.entry tx.txHash = some e ∧ e.link = tx.disputeId) :
    DoesPlain (backfillSimulatedRow body updated tx) l s := by
  obtain ⟨e, he, hlink⟩ := htx
  unfold backfillSimulatedRow
  split
  · exact DoesPlain.pure _
  · refine Does.quiet_bind rfl fun c => ?_
    generalize (perform .clock c s).1 = now
    -- saving the simulated answer is the deed that `applyLiveTxStatus` then repeats
    have hsaved : (s.withRow (tx.simulated body now)).book =
        s.book.setEntry tx.txHash ⟨e.link, (tx.simulatedStep body).1⟩ := by
      unfold Store.withRow
      rw [book_setRow, hlink]
      rfl
    show wp _ (saveXrplTx (tx.simulated body now) >>= fun _ => _) _ _ _
    rw [wp_bind]
    refine wp_invoke rfl fun c' => ?_
    rw [wp_bind]
    refine wp_mono _ _ (seqSpec_mono reliable) ?_ ?_
      (applyLiveTxStatus_does tx.txHash (tx.simulated body now).asAnswer _ _)
    · rintro applied g ⟨ds, href, -, rfl⟩
      exact ⟨_, href.of_setEntry he hsaved (by intro d hd; exact nomatch hd), deed_plain _ _⟩
    · rintro err g ⟨ds, href, -, rfl⟩
      exact ⟨_, href.of_setEntry he hsaved (by intro d hd; exact nomatch hd), deed_plain _ _⟩

/-- The simulated part applies what it makes up. -/
theorem backfillSimulated_plain (body : BackfillBody) (updated : Nat) :
    DoesPlain (backfillSimulated body updated) l s := by
  unfold backfillSimulated
  refine Does.quiet_bind rfl fun c => ?_
  refine DoesPlain.bind (DoesPlain.foldlM (tracked_stable s.xrplTxs.rows) (tracked_rows s)
    fun updated tx l₁ s₁ htx htracked => backfillSimulatedRow_plain (htracked tx htx))
    fun updated _ l₂ s₂ _ _ => ?_
  exact DoesPlain.of_calm (Calm.bind (Calm.writeAudit _ _ _ _ _ _ _) fun _ => Calm.pure _)

/-- Both parts of a backfill. -/
theorem backfill_plain (auth : Option BluesafeAuth) (body : BackfillBody) :
    DoesPlain (backfill config auth body) l s := by
  unfold backfill
  refine writeRoute_does (fun _ => Book.plain_nil) ?_
  split
  · refine DoesPlain.bind (backfillLive_plain _) fun p _ l₁ s₁ _ _ => ?_
    split
    · exact DoesPlain.pure _
    · refine DoesPlain.bind (DoesPlain.of_calm (Calm.writeAudit _ _ _ _ _ _ _))
        fun _ _ l₂ s₂ _ _ => ?_
      exact backfillSimulated_plain body _
  · exact backfillSimulated_plain body _

/-! ## Decision -/

/-- A dispute that awaits its decision is written back as decided. -/
theorem book_decided {id : String} {d : DisputeCase} (hd : s.disputes.get? id = some d)
    (hawaits : d.status.awaitsDecision = true) (t : Time) :
    (s.withDispute { d with status := .decided, updatedAt := t }).book =
      s.book.step (.decide id) := by
  have hid : d.id = id := Table.key_of_get? hd
  have hany : (s.book.status id).any DisputeStatus.awaitsDecision = true := by
    rw [book_status hd]
    exact hawaits
  unfold Store.withDispute
  rw [book_setDispute]
  simp only [Book.step]
  rw [if_pos hany, hid]

/-- A decision is one deed. -/
theorem decision_plain (auth : Option BluesafeAuth) (id : String) (body : DecisionBody) :
    DoesPlain (decision config auth id body) l s := by
  unfold decision
  refine writeRoute_does (fun _ => Book.plain_nil) ?_
  refine withDispute_does (fun _ _ => Book.plain_nil) fun d l₁ hd _ => ?_
  split
  · rename_i hawaits
    refine Does.quiet_bind rfl fun c => ?_
    refine Does.quiet_bind rfl fun c' => ?_
    -- the record of the decision is no part of the book
    refine Does.call_bind rfl (by intro d hd; exact nomatch hd) (fun _ => rfl) fun _ => ?_
    refine Does.quiet_bind rfl fun c'' => ?_
    -- the one deed of the request, for a dispute that awaits its decision
    refine saveDispute_does (.decide id) ⟨nofun, nofun⟩ (book_decided hd hawaits _) ?_
    refine (Does.calm ?_).mono fun r ds l' s' _ hcalm => ?_
    · refine Calm.bind (Calm.writeAudit _ _ _ _ _ _ _) fun _ => ?_
      refine Calm.bind (Calm.emitEvent _ _ _ _) fun _ => ?_
      exact Calm.bind (Calm.notifyParties _ _ _) fun _ => Calm.pure _
    · rw [hcalm.2.1]
      exact Book.plain_singleton fun _ _ _ heq => nomatch heq
  · exact DoesPlain.pure _

/-! ## Execution -/

/-- No lookup of the hash had an answer. -/
def Unanswered (l : OpsLog) (h : String) : Prop :=
  ∀ live, ¬ Answered l (.getTxStatus h) (some live)

/-- A hash without an answer has none after more calls that do not ask. -/
theorem Unanswered.extend {l l' : OpsLog} {h : String} (hu : Unanswered l h)
    (hext : ∀ ev ∈ l', ev ∈ l ∨ ev.op.isLedger = false) : Unanswered l' h := by
  intro live hlive
  rcases hext _ hlive with hold | hnot
  · exact hu live hold
  · exact nomatch hnot

/-- What an execution request did when it accepted the execution of `id` at `h`: the dispute
    was decided, the row of `h` was read, and `answer` is the word the ledger had for `h`. -/
structure Executed (b : Book) (l : OpsLog) (id h : String) (answer : Option (Bool × Bool)) :
    Prop where
  decided : b.status id = some .decided
  read : ∃ found, Answered l (.getXrplTx h) found
  answered : ∀ a, answer = some a →
    ∃ live, Answered l (.getTxStatus h) (some live) ∧ a = (live.validated, live.success)
  unanswered : answer = none → Unanswered l h

/-- The log has no lookup at all. -/
def NoLookup (l : OpsLog) : Prop :=
  ∀ ev ∈ l, ∀ h, ev.op ≠ .getTxStatus h

/-- A call that looks up no hash keeps a log without look-ups. -/
theorem NoLookup.cons {l : OpsLog} (hl : NoLookup l) {ev : Event calls String}
    (hev : ∀ h, ev.op ≠ .getTxStatus h) : NoLookup (ev :: l) := by
  intro ev' hmem
  rcases List.mem_cons.mp hmem with rfl | hmem
  · exact hev
  · exact hl ev' hmem

/-- Without a look-up no hash has an answer. -/
theorem NoLookup.unanswered {l : OpsLog} (hl : NoLookup l) (h : String) : Unanswered l h :=
  fun _ hlive => hl _ hlive h rfl

/-- A request that has asked nothing has looked up nothing. -/
theorem noLookup_of_unasked {l : OpsLog} (hl : Unasked [] l) : NoLookup l := by
  intro ev hev h heq
  rcases hl ev hev with hnil | hledger
  · exact nomatch hnil
  · rw [heq] at hledger
    exact nomatch hledger

/-- A submission asks the wallet and no more. -/
theorem trySubmitDisputeExecution_does {body : ExecutionBody} (hl : NoLookup l) :
    Does (trySubmitDisputeExecution config body)
      (fun _ ds l' s' => ds = [] ∧ s' = s ∧ NoLookup l') l s := by
  unfold trySubmitDisputeExecution
  dsimp only
  split
  · exact Does.pure ⟨rfl, rfl, hl⟩
  · split
    · exact Does.pure ⟨rfl, rfl, hl⟩
    · split
      · exact Does.throw ⟨rfl, rfl, hl⟩
      · split
        · exact Does.throw ⟨rfl, rfl, hl⟩
        · exact Does.ledger_bind rfl
            (fun h => Does.pure ⟨rfl, rfl, hl.cons fun _ => nofun⟩)
            (fun e => ⟨rfl, rfl, hl.cons fun _ => nofun⟩)

/-- A submission that fails becomes a reply. -/
theorem submitOrReply_does {body : ExecutionBody} (hl : NoLookup l) :
    Does (submitOrReply config body)
      (fun r ds l' s' => (∃ a, r = .ok a) ∧ ds = [] ∧ s' = s ∧ NoLookup l') l s := by
  unfold submitOrReply
  refine Does.tryCatch (R := fun _ ds l' s' => ds = [] ∧ s' = s ∧ NoLookup l') ?_ ?_ ?_
  · refine Does.bind (trySubmitDisputeExecution_does hl) ?_ ?_
    · rintro a ds l' s' - ⟨rfl, rfl, hl'⟩
      exact Does.pure ⟨rfl, rfl, hl'⟩
    · rintro e ds l' s' - h
      exact h
  · rintro a ds l' s' ⟨rfl, rfl, hl'⟩
    exact ⟨⟨_, rfl⟩, rfl, rfl, hl'⟩
  · rintro e ds l' s' - ⟨rfl, rfl, hl'⟩
    exact Does.pure ⟨⟨_, rfl⟩, rfl, rfl, hl'⟩

/-- The choice of the hash touches nothing and looks nothing up. -/
theorem chooseExecutionHash_does {d : DisputeCase} {body : ExecutionBody} (hl : NoLookup l) :
    Does (chooseExecutionHash config d body)
      (fun r ds l' s' => (∃ a, r = .ok a) ∧ ds = [] ∧ s' = s ∧ NoLookup l') l s := by
  unfold chooseExecutionHash
  -- a hash that is chosen without the ledger, or by a submission, is no look-up of it
  split
  · exact Does.pure ⟨⟨_, rfl⟩, rfl, rfl, hl⟩
  · refine Does.bind (submitOrReply_does hl) ?_ ?_
    · rintro r ds l' s' - ⟨-, rfl, rfl, hl'⟩
      split
      · exact Does.pure ⟨⟨_, rfl⟩, rfl, rfl, hl'⟩
      · exact Does.pure ⟨⟨_, rfl⟩, rfl, rfl, hl'⟩
      · split
        · refine Does.quiet_bind rfl fun c => ?_
          exact Does.pure ⟨⟨_, rfl⟩, rfl, rfl, hl'.cons fun _ => nofun⟩
        · exact Does.pure ⟨⟨_, rfl⟩, rfl, rfl, hl'⟩
    · rintro e ds l' s' - ⟨⟨a, ha⟩, -⟩
      exact nomatch ha

/-- The hash is tracked for the dispute and the ledger's word applied; only the status of
    the dispute is missing for the deed `execute`. -/
structure Attached (l : OpsLog) (s : Store) (l' : OpsLog) (s' : Store) (id h : String)
    (answer : Option (Bool × Bool)) : Prop where
  grows : l <:+ l'
  book : s'.book.setStatus id .executionPending = s.book.execute id h answer
  moved : ∀ h' id', MovedBy l' h' id' → MovedBy l h' id'
  executed : Executed s.book l' id h answer

/-- Without an answer of the ledger the link is all. -/
theorem attached_of_links {l' : OpsLog} {s' : Store} {id h : String}
    (hid : s.book.status id = some .decided) (hlinks : Links l s l' s' h (some id))
    (hu : Unanswered l h) : Attached l s l' s' id h none where
  grows := hlinks.grows
  book := by
    rw [hlinks.book]
    rfl
  moved := hlinks.moved
  executed := ⟨hid, hlinks.read, (fun _ heq => nomatch heq), fun _ => hu.extend hlinks.asked⟩

/-- With an answer, applying it to the linked hash resolves nothing: the dispute is still
    only decided. -/
theorem attached_of_applied {l₁ l' : OpsLog} {s₁ s' : Store} {id h : String} {live : LiveTxStatus}
    (hid : s.book.status id = some .decided) (hlinks : Links l s l₁ s₁ h (some id))
    (href : Refines l₁ s₁ l' s' [live.deed h]) (hlive : Answered l (.getTxStatus h) (some live)) :
    Attached l s l' s' id h (some (live.validated, live.success)) where
  -- the two parts of the request, one behind the other
  grows := hlinks.grows.trans href.grows
  book := by
    rw [href.book, hlinks.book]
    rfl
  moved := by
    intro h' id' hm
    rcases href.moved h' id' hm with hm | hm
    · exact hlinks.moved h' id' hm
    · have hnone := Book.moved_track_decided hid h live.validated
      rw [hlinks.book] at hm
      simp [Book.resolutions, Book.resolution, LiveTxStatus.deed, hnone] at hm
  executed := by
    obtain ⟨found, hread⟩ := hlinks.read
    refine ⟨hid, ⟨found, hread.mono href.grows⟩, fun a ha => ?_, fun heq => nomatch heq⟩
    cases ha
    exact ⟨live, hlive.mono (hlinks.grows.trans href.grows), rfl⟩

/-- `trackExecution` refuses the transaction, fails before it has written anything, or
    attaches it to the dispute. -/
theorem trackExecution_wp {d : DisputeCase} {id : String} {body : ExecutionBody}
    {chosen : ExecutionHash} (hd : s.disputes.get? id = some d) (hdecided : d.status = .decided)
    (hl : NoLookup l) :
    wp (seqSpec reliable) (trackExecution config d body chosen)
      (fun r g => (∃ reply, r = some reply ∧ Refines l s g.1 g.2 []) ∨
        (r = none ∧ ∃ answer, Attached l s g.1 g.2 id chosen.txHash answer))
      (fun _ g => Refines l s g.1 g.2 []) (l, s) := by
  have hid : d.id = id := Table.key_of_get? hd
  have hstatus : s.book.status id = some .decided := by
    rw [book_status hd, hdecided]
  have hlink : (executionParams d body).disputeId = some id := congrArg some hid
  unfold trackExecution
  split
  · rw [wp_bind]
    refine wp_ledger rfl (fun live => ?_) fun e => Refines.call (by intro d hd; exact nomatch hd) rfl
    have hasked : Refines l s (⟨.getTxStatus chosen.txHash, .ok live⟩ :: l) s [] :=
      Refines.call (by intro d hd; exact nomatch hd) rfl
    dsimp only
    split
    · exact .inl ⟨_, rfl, hasked⟩
    · rw [wp_bind]
      refine upsertTrackedTx_wp fun l₁ s₁ hlinks => ?_
      rw [hlink] at hlinks
      -- the look-up before the row is tracked is no write: it can be dropped from the log
      have hback : ∀ {l' s' answer}, Attached (⟨.getTxStatus chosen.txHash, .ok live⟩ :: l) s l' s'
          id chosen.txHash answer → Attached l s l' s' id chosen.txHash answer := by
        intro l' s' answer ha
        refine ⟨hasked.grows.trans ha.grows, ha.book, fun h' id' hm => ?_, ha.executed⟩
        exact movedBy_cons (by intro d hd; exact nomatch hd) (ha.moved h' id' hm)
      cases live with
      | some live =>
        dsimp only
        rw [wp_bind]
        refine wp_mono _ _ (seqSpec_mono reliable) ?_ ?_
          (applyLiveTxStatus_does chosen.txHash live l₁ s₁)
        · rintro applied g ⟨ds, href, -, rfl⟩
          exact .inr ⟨rfl, _, hback (attached_of_applied hstatus hlinks href List.mem_cons_self)⟩
        · rintro e g ⟨ds, -, ⟨b, hb⟩, -⟩
          exact nomatch hb
      | none =>
        refine .inr ⟨rfl, none, hback (attached_of_links hstatus hlinks ?_)⟩
        intro live hlive
        rcases List.mem_cons.mp hlive with heq | hlive
        · cases heq
        · exact hl.unanswered _ live hlive
  · rw [wp_bind]
    refine upsertTrackedTx_wp fun l₁ s₁ hlinks => ?_
    rw [hlink] at hlinks
    exact .inr ⟨rfl, none, attached_of_links hstatus hlinks (hl.unanswered _)⟩

/-- What an execution request may have done. -/
def ExecutedOrNot (b : Book) (id : String) (ds : List Deed) (l : OpsLog) : Prop :=
  ds = [] ∨ ∃ h answer, ds = [.execute id h answer] ∧ Executed b l id h answer

/-- An execution stays executed after more calls that do not ask. -/
theorem Executed.extend {b : Book} {l' : OpsLog} {id h : String} {answer : Option (Bool × Bool)}
    (hx : Executed b l id h answer) (hl : l <:+ l')
    (hext : ∀ ev ∈ l', ev ∈ l ∨ ev.op.isLedger = false) : Executed b l' id h answer := by
  obtain ⟨found, hread⟩ := hx.read
  refine ⟨hx.decided, ⟨found, hread.mono hl⟩, fun a ha => ?_, fun hnone => ?_⟩
  · obtain ⟨live, hlive, heq⟩ := hx.answered a ha
    exact ⟨live, hlive.mono hl, heq⟩
  · exact (hx.unanswered hnone).extend hext

/-- The status of the dispute completes the deed. -/
theorem acceptExecution_wp {auth : Option BluesafeAuth} {d : DisputeCase} {body : ExecutionBody}
    {chosen : ExecutionHash} {now : Time} {id h : String} {answer : Option (Bool × Bool)}
    {l' : OpsLog} {s' : Store} (hid : d.id = id) (hatt : Attached l s l' s' id h answer) :
    wp (seqSpec reliable) (acceptExecution auth d body chosen now)
      (fun _ g => ∃ ds, Refines l s g.1 g.2 ds ∧ ExecutedOrNot s.book id ds g.1)
      (fun _ g => ∃ ds, Refines l s g.1 g.2 ds ∧ ExecutedOrNot s.book id ds g.1) (l', s') := by
  unfold acceptExecution
  rw [wp_bind]
  refine wp_invoke rfl fun c => ?_
  generalize hd' : ({ d with status := .executionPending, updatedAt := now } : DisputeCase) = d'
  -- tracking and marking together are one `execute` of the book
  have hbook : (s'.withDispute d').book = s.book.run [.execute id h answer] := by
    subst hd'
    unfold Store.withDispute
    rw [book_setDispute]
    show s'.book.setStatus d.id .executionPending = s.book.step (.execute id h answer)
    simp only [Book.step]
    rw [if_pos hatt.executed.decided, hid, hatt.book]
  have href : Refines l s (⟨.saveDispute d', .ok ()⟩ :: l') (s'.withDispute d')
      [.execute id h answer] := by
    refine ⟨hatt.grows.trans (List.suffix_cons _ _), hbook, fun h' id' hm => .inl ?_⟩
    refine hatt.moved h' id' (movedBy_cons ?_ hm)
    rintro d'' heq
    cases heq
    rw [← hd']
    exact ⟨by simp, by simp⟩
  have hx : Executed s.book (⟨.saveDispute d', .ok ()⟩ :: l') id h answer := by
    refine hatt.executed.extend (List.suffix_cons _ _) fun ev hev => ?_
    rcases List.mem_cons.mp hev with rfl | hev
    · exact .inr rfl
    · exact .inl hev
  -- what follows the save is calm
  refine Does.after (R := fun _ ds l'' _ => ExecutedOrNot s.book id ds l'') href ?_
  refine (Does.calm ?_).mono ?_
  · refine Calm.bind (Calm.writeAudit _ _ _ _ _ _ _) fun _ => ?_
    refine Calm.bind (Calm.emitEvent _ _ _ _) fun _ => ?_
    refine Calm.bind (Calm.notifyParties _ _ _) fun _ => ?_
    exact Calm.bind (Calm.call rfl) fun _ => Calm.pure _
  · rintro r ds l'' s'' hrefs ⟨-, rfl, -, hquiet⟩
    refine .inr ⟨h, answer, rfl, hx.extend hrefs.grows fun ev hev => ?_⟩
    rcases hquiet ev hev with hold | hnew
    · exact .inl hold
    · exact .inr (not_ledger_of_quiet hnew)

/-- An execution request does nothing, or it executes its dispute at one hash. -/
theorem execution_does (auth : Option BluesafeAuth) (id : String) (body : ExecutionBody) :
    Does (execution config auth id body)
      (fun _ ds l' _ => ExecutedOrNot s.book id ds l') [] s := by
  unfold execution
  refine writeRoute_does (fun _ => .inl rfl) ?_
  refine withDispute_does (fun _ _ => .inl rfl) fun d l₁ hd hasked => ?_
  split
  · rename_i hdecided
    -- choosing a hash does nothing yet
    refine Does.bind (chooseExecutionHash_does (noLookup_of_unasked hasked)) ?_ ?_
    · rintro r ds l₂ s₂ - ⟨-, rfl, rfl, hl₂⟩
      split
      · exact Does.pure (.inl rfl)
      · rename_i chosen
        refine Does.quiet_bind rfl fun c => ?_
        unfold Does
        rw [wp_bind]
        refine wp_mono _ _ (seqSpec_mono reliable) ?_ ?_
          (trackExecution_wp hd hdecided (hl₂.cons fun _ => nofun))
        -- a rejection leaves the book; otherwise the execution is accepted behind its link
        · rintro r ⟨l₃, s₃⟩ (⟨reply, rfl, href⟩ | ⟨rfl, answer, hatt⟩)
          · exact ⟨[], href, .inl rfl⟩
          · exact acceptExecution_wp (Table.key_of_get? hd) hatt
        · rintro e g href
          exact ⟨[], href, .inl rfl⟩
    · rintro e ds l₂ s₂ - ⟨⟨a, ha⟩, -⟩
      exact nomatch ha
  · exact Does.pure (.inl rfl)

/-! ## The backend -/

/-- The requests of the execution life cycle: the decision, the execution, and everything
    that reads the ledger for a tracked transaction. -/
def Request.inExecution : Request → Bool
  | .decision _ _ _ => true
  | .execution _ _ _ => true
  | .track _ _ => true
  | .getTransaction _ _ _ => true
  | .refresh _ _ => true
  | .backfill _ _ => true
  | .streamTransaction _ _ => true
  | .policyTick => true
  | _ => false

/-- What a request of the execution life cycle may have done. -/
def Deeds (b : Book) (req : Request) (ds : List Deed) (l : OpsLog) : Prop :=
  Book.Plain ds ∨ ∃ auth id body, req = .execution auth id body ∧ ExecutedOrNot b id ds l

/-- Every request does the deeds of the book that its answers allow. -/
theorem handle_does {req : Request} (hreq : req.inExecution = true) :
    Does (handle config req) (fun _ ds l' _ => Deeds s.book req ds l') [] s := by
  -- a plain handler does what its deeds are, and nothing of an execution
  have hplain : ∀ {α : Type} {p : OpsM α} {f : α → Option Reply}, DoesPlain p [] s →
      Does (f <$> p) (fun _ ds l' _ => Deeds s.book req ds l') [] s := by
    intro α p f hp
    exact Does.map hp (fun _ _ _ _ h => .inl h) (fun _ _ _ _ h => .inl h)
  -- requests outside the execution of a dispute are excluded by assumption
  cases req with
  | decision auth id body => exact hplain (decision_plain auth id body)
  | execution auth id body =>
    have hx : ∀ ds l', ExecutedOrNot s.book id ds l' →
        Deeds s.book (.execution auth id body) ds l' :=
      fun ds l' h => .inr ⟨auth, id, body, rfl, h⟩
    exact Does.map (execution_does auth id body) (fun _ ds l' _ h => hx ds l' h)
      (fun _ ds l' _ h => hx ds l' h)
  | track auth body => exact hplain (track_plain auth body)
  | getTransaction auth h fresh => exact hplain (getTransaction_plain auth h fresh)
  | refresh auth h => exact hplain (refresh_plain auth h)
  | backfill auth body => exact hplain (backfill_plain auth body)
  | streamTransaction stream throttled => exact hplain (handleTransaction_plain stream throttled)
  | policyTick => exact hplain policyTick_plain
  | createContract auth body => exact nomatch hreq
  | patchContractStatus auth id status => exact nomatch hreq
  | patchEscrowAnchor auth id body => exact nomatch hreq
  | fileDispute auth body => exact nomatch hreq
  | patchDisputeStatus auth id next => exact nomatch hreq
  | escalate auth id => exact nomatch hreq
  | reviewSlaScan auth => exact nomatch hreq

/-- The backend refines the book: each request is a list of deeds. -/
theorem opsStep_deeds {m : Move Store (Request × List Choice)}
    (hstep : opsStep config m.before m.label = some m.after)
    (hreq : m.label.1.inExecution = true) :
    ∃ ds, Refines [] m.before (opsLog config m) m.after ds ∧
      Deeds m.before.book m.label.1 ds (opsLog config m) :=
  seqStep_sound (Q := fun g => ∃ ds, Refines [] m.before g.1 g.2 ds ∧
    Deeds m.before.book m.label.1 ds g.1) (handle_does hreq) hstep

end Bluesafe.Ops
