import Bluesafe.Spec.BookRefinement
import Bluesafe.Spec.LedgerTruth

/-!
# The retry policy of the simulated backfill

With live mode off a backfill pass saves each unvalidated row twice. The loop counts the pass
and chooses a status from the result code: `retry_scheduled`, and `validated_fail` from the third
pass on, while the code is retryable. Then it hands the row to `applyLiveTxStatus`, which gives
every answer that is not validated the status `pending_validation`. So the statuses of the
retry policy never outlive the pass that sets them, and only the passes that end in a success
do what the loop says (`simulated_retry_policy_iff`).
-/

namespace Bluesafe.Ops

open Async Transition

/-! ## Programs that do not throw -/

section Returns

variable {s : Store} {α : Type}

/-- A call that does not go to the ledger returns. -/
theorem returns_invoke {op : Call} (hop : op.isLedger = false) {Q : op.Res → Store → Prop}
    (h : ∀ c, Q (perform op c s).1 (perform op c s).2) : Returns reliable (invoke op) Q s :=
  fun _ => wp_invoke hop h

/-- The program returns and leaves the tracked transactions alone. -/
def LeavesTxs (p : OpsM α) : Prop :=
  ∀ s, Returns reliable p (fun _ s' => s'.xrplTxs = s.xrplTxs) s

/-- Two programs that leave the rows. -/
theorem LeavesTxs.bind {β : Type} {p : OpsM β} {f : β → OpsM α} (hp : LeavesTxs p)
    (hf : ∀ b, LeavesTxs (f b)) : LeavesTxs (p >>= f) := by
  intro s
  refine Returns.bind (hp s) fun b s' hs' => Returns.mono (hf b s') fun _ s'' hs'' => ?_
  exact hs''.trans hs'

/-- A value leaves them. -/
theorem LeavesTxs.pure (a : α) : LeavesTxs (Pure.pure a) := fun _ => Returns.pure rfl

/-- Recording leaves them alone. -/
theorem leavesTxs_of_calm {p : OpsM α} (h : Calm p) : LeavesTxs p := by
  intro s l
  refine wp_mono _ _ (seqSpec_mono reliable) ?_ ?_ (Does.calm h)
  · rintro a g ⟨ds, -, -, -, hsame, -⟩
    exact hsame.xrplTxs
  · rintro e g ⟨ds, -, ⟨a, ha⟩, -⟩
    cases ha

/-- The dispute that is resolved leaves them. -/
theorem resolveLinkedDispute_leavesTxs (row : XrplTransaction) : LeavesTxs (resolveLinkedDispute row) := by
  unfold resolveLinkedDispute
  -- without a dispute to resolve there is nothing to write
  cases row.resolves with
  | none => exact .pure ()
  | some id =>
    refine .bind (leavesTxs_of_calm (.call rfl)) fun found => ?_
    cases found with
    -- nor when the dispute is gone
    | none => exact .pure ()
    | some d =>
      dsimp only
      -- only a dispute that waits for this transaction is written
      split
      · refine .bind (leavesTxs_of_calm (.call rfl)) fun t => ?_
        refine .bind (fun s => returns_invoke rfl fun _ => rfl) fun _ => ?_
        exact leavesTxs_of_calm (.bind (.writeAudit _ _ _ _ _ _ _) fun _ =>
          .bind (.emitEvent _ _ _ _) fun _ => .notifyParties _ _ _)
      · exact .pure ()

/-- `applyLiveTxStatus` under the hash of a stored row: that row is reconciled, the others stay. -/
theorem applyLiveTxStatus_returns {h : String} {row : XrplTransaction} (live : LiveTxStatus)
    (hrow : s.xrplTxs.get? h = some row) :
    Returns reliable (applyLiveTxStatus h live)
      (fun _ s' => ∃ t, s'.xrplTxs = s.xrplTxs.set (row.reconciled live t)) s := by
  unfold applyLiveTxStatus
  refine Returns.bind (R := fun found s₁ => found = some row ∧ s₁ = s)
    (returns_invoke rfl fun c => ⟨hrow, rfl⟩) fun found s₁ hread => ?_
  obtain ⟨rfl, rfl⟩ := hread
  dsimp only
  refine Returns.bind (R := fun _ s₂ => s₂ = s₁) (returns_invoke rfl fun _ => rfl) fun now s₂ hclock => ?_
  subst hclock
  refine Returns.bind (R := fun _ s₃ => s₃.xrplTxs = s₂.xrplTxs.set (row.reconciled live now))
    (returns_invoke rfl fun _ => rfl) fun _ s₃ hsaved => ?_
  refine Returns.bind (resolveLinkedDispute_leavesTxs _ s₃) fun _ s₄ hsame => ?_
  exact Returns.pure ⟨now, hsame.trans hsaved⟩

end Returns

/-! ## One pass -/

/-- The row after a pass: simulated at `t`, then reconciled with what was simulated at `t'`. -/
def XrplTransaction.passed (row : XrplTransaction) (body : BackfillBody) (t t' : Time) :
    XrplTransaction :=
  (row.simulated body t).reconciled (row.simulated body t).asAnswer t'

/-- What a pass leaves of a row. -/
def Passed (body : BackfillBody) (row : XrplTransaction) (s : Store) : Prop :=
  if row.validated then s.xrplTxs.get? row.txHash = some row
  else ∃ t t', s.xrplTxs.get? row.txHash = some (row.passed body t t')

/-- What the loop has done to the rows `rows` when `rest` are left. -/
structure PassState (body : BackfillBody) (rows rest : List XrplTransaction) (s : Store) : Prop where
  suffix : rest <:+ rows
  done : ∀ row ∈ rows, row ∉ rest → Passed body row s
  left : ∀ row ∈ rest, s.xrplTxs.get? row.txHash = some row

section Pass

variable {body : BackfillBody} {rows rest : List XrplTransaction} {tx : XrplTransaction} {s s' : Store}

/-- Another row is not affected. -/
theorem Passed.congr {row : XrplTransaction} (h : Passed body row s)
    (hsame : s'.xrplTxs.get? row.txHash = s.xrplTxs.get? row.txHash) : Passed body row s' := by
  unfold Passed at h ⊢
  rw [hsame]
  exact h

/-- A pass goes on to its next row. -/
theorem PassState.next (hnodup : (rows.map XrplTransaction.txHash).Nodup)
    (h : PassState body rows (tx :: rest) s) (htx : Passed body tx s')
    (hsame : ∀ k, k ≠ tx.txHash → s'.xrplTxs.get? k = s.xrplTxs.get? k) :
    PassState body rows rest s' := by
  have hrest : ((tx :: rest).map XrplTransaction.txHash).Nodup := h.suffix.sublist.map _ |>.nodup hnodup
  rw [List.map_cons, List.nodup_cons] at hrest
  refine ⟨(List.suffix_cons tx rest).trans h.suffix, fun row hrow hnot => ?_, fun row hrow => ?_⟩
  · by_cases heq : row = tx
    · rw [heq]
      exact htx
    · have hne : row.txHash ≠ tx.txHash := by
        intro hhash
        -- rows with the same hash are the same row
        have hmem : tx ∈ rows := h.suffix.subset List.mem_cons_self
        exact heq (List.inj_on_of_nodup_map hnodup hrow hmem hhash)
      refine Passed.congr (h.done row hrow ?_) (hsame _ hne)
      simp [heq, hnot]
  · have hne : row.txHash ≠ tx.txHash := by
      intro hhash
      exact hrest.1 (hhash ▸ List.mem_map_of_mem hrow)
    rw [hsame _ hne]
    exact h.left row (List.mem_cons_of_mem _ hrow)

/-- One row of a pass. -/
theorem backfillSimulatedRow_passes (hnodup : (rows.map XrplTransaction.txHash).Nodup) (updated : Nat)
    (h : PassState body rows (tx :: rest) s) :
    Returns reliable (backfillSimulatedRow body updated tx) (fun _ => PassState body rows rest) s := by
  have hget := h.left tx List.mem_cons_self
  unfold backfillSimulatedRow
  split
  · rename_i hvalidated
    -- a validated row is skipped
    refine Returns.pure (h.next hnodup ?_ fun _ _ => rfl)
    unfold Passed
    rw [if_pos hvalidated]
    exact hget
  · rename_i hvalidated
    refine Returns.bind (R := fun _ s₁ => s₁ = s) (returns_invoke rfl fun _ => rfl) fun t s₁ hclock => ?_
    subst hclock
    refine Returns.bind (R := fun _ s₂ => s₂.xrplTxs = s₁.xrplTxs.set (tx.simulated body t))
      (returns_invoke rfl fun _ => rfl) fun _ s₂ hsaved => ?_
    -- the loop has saved its own version, which `applyLiveTxStatus` then reads
    have hread : s₂.xrplTxs.get? tx.txHash = some (tx.simulated body t) := by
      rw [hsaved]
      exact Table.get?_set_self _ (tx.simulated body t)
    refine Returns.bind (applyLiveTxStatus_returns _ hread) fun _ s₃ hrec => ?_
    obtain ⟨t', hrec⟩ := hrec
    refine Returns.pure (h.next hnodup ?_ fun k hk => ?_)
    · unfold Passed
      rw [if_neg hvalidated]
      refine ⟨t, t', ?_⟩
      rw [hrec]
      exact Table.get?_set_self _ (tx.passed body t t')
    · have hk₁ : k ≠ (tx.passed body t t').txHash := hk
      have hk₂ : k ≠ (tx.simulated body t).txHash := hk
      rw [hrec, hsaved, Table.get?_set, Table.get?_set]
      exact (if_neg hk₁).trans (if_neg hk₂)

/-- The request passes the guards of the route. -/
def backfillAdmitted (config : Config) (auth : Option BluesafeAuth) : Bool :=
  (blockAuditorWriteOperations config auth).isNone && (requireRoles config reviewerRoles auth).isNone

/-- What a backfill request does to the rows: a pass, or nothing when it is refused. -/
def BackfillDone (config : Config) (auth : Option BluesafeAuth) (body : BackfillBody) (s s' : Store) :
    Prop :=
  if backfillAdmitted config auth then ∀ row ∈ s.xrplTxs.rows, Passed body row s'
  else s'.xrplTxs = s.xrplTxs

/-- A whole backfill, without the ledger, is one pass over its rows. -/
theorem backfill_passes {config : Config} (hoff : config.xrplEnabled = false)
    (auth : Option BluesafeAuth) (body : BackfillBody) (s : Store) :
    Returns reliable (backfill config auth body) (fun _ => BackfillDone config auth body s) s := by
  unfold backfill writeRoute
  cases hauditor : blockAuditorWriteOperations config auth with
  | some reply =>
    refine Returns.pure ?_
    simp [BackfillDone, backfillAdmitted, hauditor]
  | none =>
    dsimp only
    cases hroles : requireRoles config reviewerRoles auth with
    | some reply =>
      refine Returns.pure ?_
      simp [BackfillDone, backfillAdmitted, hauditor, hroles]
    | none =>
      have hadmitted : backfillAdmitted config auth = true := by
        simp [backfillAdmitted, hauditor, hroles]
      dsimp only
      rw [if_neg (by simp [hoff])]
      unfold backfillSimulated
      refine Returns.bind (R := fun rows s₁ => rows = s.xrplTxs.rows ∧ s₁ = s)
        (returns_invoke rfl fun _ => ⟨rfl, rfl⟩) fun rows s₁ hread => ?_
      obtain ⟨rfl, rfl⟩ := hread
      -- the loop runs over the rows that were listed at its start
      have hstart : PassState body s₁.xrplTxs.rows s₁.xrplTxs.rows s₁ :=
        ⟨List.suffix_refl _, fun row hrow hnot => absurd hrow hnot, fun row hrow => Table.get?_of_mem hrow⟩
      have hstep : ∀ updated tx rest s₂, PassState body s₁.xrplTxs.rows (tx :: rest) s₂ →
          Returns reliable (backfillSimulatedRow body updated tx)
            (fun _ => PassState body s₁.xrplTxs.rows rest) s₂ :=
        fun updated tx rest s₂ h₂ => backfillSimulatedRow_passes s₁.xrplTxs.nodup updated h₂
      refine Returns.bind (Returns.foldlM hstep hstart 0) fun updated s₂ hpassed => ?_
      refine Returns.mono (leavesTxs_of_calm
        (.bind (.writeAudit _ _ _ _ _ _ _) fun _ => .pure _) s₂) fun _ s₃ hsame => ?_
      unfold BackfillDone
      rw [if_pos hadmitted]
      intro row hrow
      refine Passed.congr (hpassed.done row hrow (by simp)) ?_
      rw [hsame]

end Pass

/-! ## Result codes -/

/-- The two kinds of passes. -/
inductive PassKind
  | ter
  | tes
  deriving DecidableEq, Repr

/-- The result code of the request is of the kind; without one it is `tesSUCCESS`. -/
def PassKind.fits (kind : PassKind) (body : BackfillBody) : Bool :=
  match kind with
  | ter => body.resultCode.any fun code => startsWith code "ter"
  | tes => startsWith (body.resultCode.getD "tesSUCCESS") "tes"

/-- A result that begins with `ter` may be tried again. -/
theorem classify_of_ter {code : String} (h : startsWith code "ter" = true) :
    classifyXrplResultCode (some code) = .retryable := by
  have hne : code ≠ "" := by
    rintro rfl
    exact absurd h (by decide)
  have htes : startsWith code "tes" = false := by
    unfold startsWith at h ⊢
    obtain ⟨rest, hrest⟩ := List.isPrefixOf_iff_prefix.mp h
    rw [← hrest]
    rfl
  unfold classifyXrplResultCode
  rw [truthy_eq_some.mpr ⟨rfl, hne⟩]
  simp [h, htes]

section Codes

variable {row : XrplTransaction} {body : BackfillBody}

/-- The first pass, and every pass with a `ter` code, simulates a retry. -/
theorem simulatedCode_retryable (h : row.retries = 0 ∨ PassKind.ter.fits body = true) :
    classifyXrplResultCode (some (row.simulatedCode body)) = .retryable := by
  unfold XrplTransaction.simulatedCode
  split
  · rename_i hretries
    have hfits := h.resolve_left (by omega)
    obtain ⟨code, hcode, hter⟩ := (Option.any_eq_true _ _).mp hfits
    rw [hcode]
    exact classify_of_ter hter
  · exact classify_of_ter (by decide)

/-- From the second pass on a `tes` code is simulated. -/
theorem simulatedCode_success (hretries : 1 ≤ row.retries) (h : PassKind.tes.fits body = true) :
    classifyXrplResultCode (some (row.simulatedCode body)) = .success := by
  unfold XrplTransaction.simulatedCode
  rw [if_pos (by omega)]
  exact classify_eq_success.mpr ⟨_, rfl, h⟩

/-- Such a result validates nothing. -/
theorem simulated_validated_retryable (hrow : row.validated = false)
    (hcode : classifyXrplResultCode (some (row.simulatedCode body)) = .retryable) (t : Time) :
    (row.simulated body t).validated = false := by
  show (row.simulatedStep body).1 = false
  unfold XrplTransaction.simulatedStep
  simp only [hcode, reduceCtorEq, if_false, true_and, if_true]
  split
  · exact hrow
  · rfl

/-- A success does. -/
theorem simulated_validated_success
    (hcode : classifyXrplResultCode (some (row.simulatedCode body)) = .success) (t : Time) :
    (row.simulated body t).validated = true := by
  show (row.simulatedStep body).1 = true
  unfold XrplTransaction.simulatedStep
  simp [hcode]

/-- A pass that simulates a retry leaves the row pending. -/
theorem passed_retryable (hrow : row.validated = false)
    (hcode : classifyXrplResultCode (some (row.simulatedCode body)) = .retryable) (t t' : Time) :
    (row.passed body t t').retries = row.retries + 1 ∧ (row.passed body t t').validated = false ∧
      (row.passed body t t').trackingStatus = .pendingValidation := by
  have hvalidated := simulated_validated_retryable hrow hcode t
  refine ⟨rfl, hvalidated, ?_⟩
  show (if (row.simulated body t).validated = true ∧ _ then _
    else if (row.simulated body t).validated then _ else _) = _
  simp [hvalidated]

/-- A row that has succeeded is validated, and is no candidate any more. -/
theorem passed_success
    (hcode : classifyXrplResultCode (some (row.simulatedCode body)) = .success) (t t' : Time) :
    (row.passed body t t').validated = true ∧
      (row.passed body t t').trackingStatus = .validatedSuccess := by
  have hvalidated := simulated_validated_success hcode t
  refine ⟨hvalidated, ?_⟩
  show (if (row.simulated body t).validated = true ∧
    classifyXrplResultCode (some (row.simulatedCode body)) = .success then _
    else if (row.simulated body t).validated then _ else _) = _
  simp [hvalidated, hcode]

end Codes

/-! ## Runs of passes -/

section Runs

variable {config : Config} {kind : PassKind} {h : String} {s s' : Store}

/-- The move is a backfill request that is not refused, with a code of the kind. -/
def IsPass (config : Config) (kind : PassKind) (m : Move Store (Request × List Choice)) : Prop :=
  ∃ auth body, m.label.1 = .backfill auth body ∧ backfillAdmitted config auth = true ∧
    kind.fits body = true

/-- The move is a backfill request. -/
def IsBackfill (m : Move Store (Request × List Choice)) : Prop :=
  ∃ auth body, m.label.1 = .backfill auth body

/-- The row of `h` is in the state that the retry policy gives it after `n` passes. -/
def RetryPolicy (config : Config) (kind : PassKind) (h : String) (n : Nat) (s : Store) : Prop :=
  ∃ row, s.xrplTxs.get? h = some row ∧
    match kind with
    | .ter => row.retries = n ∧ row.validated = false ∧
      row.trackingStatus = if n < 3 then .retryScheduled else .validatedFail
    | .tes => 2 ≤ n → row.trackingStatus = .validatedSuccess ∧
      ∀ ms' s', Run (opsStep config) s ms' s' → (∀ m ∈ ms', IsBackfill m) →
        s'.xrplTxs.get? h = some row

/-- What the row is after `n` passes. -/
structure PassedRow (kind : PassKind) (n : Nat) (row : XrplTransaction) : Prop where
  early : kind = .ter ∨ n < 2 → row.retries = n ∧ row.validated = false ∧
    (1 ≤ n → row.trackingStatus = .pendingValidation)
  late : kind = .tes → 2 ≤ n → row.validated = true ∧ row.trackingStatus = .validatedSuccess

/-- What a step with a backfill request does to the rows. -/
theorem backfill_step (hoff : config.xrplEnabled = false) {m : Move Store (Request × List Choice)}
    (hstep : opsStep config m.before m.label = some m.after) {auth : Option BluesafeAuth}
    {body : BackfillBody} (hreq : m.label.1 = .backfill auth body) :
    BackfillDone config auth body m.before m.after := by
  have hreturns : Returns reliable (handle config m.label.1)
      (fun _ => BackfillDone config auth body m.before) m.before := by
    rw [hreq]
    exact Returns.map (backfill_passes hoff auth body m.before)
  exact Returns.seqStep hreturns hstep

/-- A backfill request keeps a validated row. -/
theorem backfill_keeps_validated (hoff : config.xrplEnabled = false)
    {m : Move Store (Request × List Choice)} (hstep : opsStep config m.before m.label = some m.after)
    (hm : IsBackfill m) {row : XrplTransaction} (hget : m.before.xrplTxs.get? h = some row)
    (hrow : row.validated = true) : m.after.xrplTxs.get? h = some row := by
  obtain ⟨auth, body, hreq⟩ := hm
  have hpass := backfill_step hoff hstep hreq
  unfold BackfillDone at hpass
  have hhash : row.txHash = h := Table.key_of_get? hget
  split at hpass
  · have hkept := hpass row (Table.mem_of_get? hget)
    unfold Passed at hkept
    rw [if_pos hrow, hhash] at hkept
    exact hkept
  · rw [hpass]
    exact hget

/-- What a pass does to a row that is not validated. -/
theorem passed_of_step (hoff : config.xrplEnabled = false) {m : Move Store (Request × List Choice)}
    (hstep : opsStep config m.before m.label = some m.after) (hm : IsPass config kind m)
    {row : XrplTransaction} (hget : m.before.xrplTxs.get? h = some row) (hrow : row.validated = false) :
    ∃ body t t', kind.fits body = true ∧ m.after.xrplTxs.get? h = some (row.passed body t t') := by
  obtain ⟨auth, body, hreq, hadmitted, hfits⟩ := hm
  have hpass := backfill_step hoff hstep hreq
  unfold BackfillDone at hpass
  rw [if_pos hadmitted] at hpass
  have hdone := hpass row (Table.mem_of_get? hget)
  unfold Passed at hdone
  rw [if_neg (by simp [hrow]), (Table.key_of_get? hget : row.txHash = h)] at hdone
  obtain ⟨t, t', hget'⟩ := hdone
  exact ⟨body, t, t', hfits, hget'⟩

/-- A pass is a backfill. -/
theorem IsPass.isBackfill {m : Move Store (Request × List Choice)} (h : IsPass config kind m) :
    IsBackfill m := by
  obtain ⟨auth, body, hreq, -⟩ := h
  exact ⟨auth, body, hreq⟩

/-- A row after a number of passes. -/
theorem passedRow_run (hoff : config.xrplEnabled = false) {row₀ : XrplTransaction}
    (hget : s.xrplTxs.get? h = some row₀) (hretries : row₀.retries = 0) (hvalidated : row₀.validated = false)
    {ms : List (Move Store (Request × List Choice))} (run : Run (opsStep config) s ms s')
    (hpasses : ∀ m ∈ ms, IsPass config kind m) :
    ∃ row, s'.xrplTxs.get? h = some row ∧ PassedRow kind ms.length row := by
  -- induction on the passes, the latest last
  induction run with
  | nil =>
    -- before the first pass the row is as it was
    exact ⟨row₀, hget, fun _ => ⟨hretries, hvalidated, fun hn => absurd hn (by simp)⟩,
      fun _ hn => absurd hn (by simp)⟩
  | @cons ms t u a run hstep ih =>
    obtain ⟨row, hrow, hpassed⟩ := ih fun m hm => hpasses m (List.mem_cons_of_mem _ hm)
    have hpass := hpasses _ List.mem_cons_self
    rw [List.length_cons]
    by_cases hearly : kind = .ter ∨ ms.length < 2
    · -- the row is not validated yet
      obtain ⟨hcount, hopen, -⟩ := hpassed.early hearly
      obtain ⟨body, t₁, t₂, hfits, hnext⟩ := passed_of_step hoff hstep hpass hrow hopen
      refine ⟨_, hnext, ?_⟩
      by_cases hretry : kind = .ter ∨ ms.length = 0
      -- the pass answers with a code that is retried
      · have hcode : classifyXrplResultCode (some (row.simulatedCode body)) = .retryable := by
          apply simulatedCode_retryable
          rcases hretry with rfl | hzero
          · exact .inr hfits
          -- the first answer of a payment is retried too
          · exact .inl (hcount.trans hzero)
        obtain ⟨hretries', hvalidated', hstatus'⟩ := passed_retryable hopen hcode t₁ t₂
        refine ⟨fun _ => ⟨by omega, hvalidated', fun _ => hstatus'⟩, fun htes hn => ?_⟩
        rcases hretry with rfl | hzero
        · cases htes
        · omega
      -- the pass that confirms: a second one, of a payment that succeeds
      · rw [not_or] at hretry
        have htes : kind = .tes := by
          cases kind with
          | ter => exact absurd rfl hretry.1
          | tes => rfl
        subst htes
        -- its code is the successful one
        have hcode : classifyXrplResultCode (some (row.simulatedCode body)) = .success :=
          simulatedCode_success (by omega) hfits
        refine ⟨fun hlt => ?_, fun _ _ => passed_success hcode t₁ t₂⟩
        exfalso
        rcases hlt with hter | hlt
        · cases hter
        · omega
    -- from then on a pass skips the row
    · rw [not_or] at hearly
      have htes : kind = .tes := by
        cases kind with
        | ter => exact absurd rfl hearly.1
        | tes => rfl
      obtain ⟨hfinal, hstatus⟩ := hpassed.late htes (by omega)
      refine ⟨row, backfill_keeps_validated hoff hstep hpass.isBackfill hrow hfinal, fun hlt => ?_,
        fun _ _ => ⟨hfinal, hstatus⟩⟩
      exfalso
      rcases hlt with hter | hlt
      · exact hearly.1 hter
      · omega

/-- Later backfill requests keep a validated row. -/
theorem validated_run (hoff : config.xrplEnabled = false) {row : XrplTransaction}
    (hget : s.xrplTxs.get? h = some row) (hrow : row.validated = true)
    {ms : List (Move Store (Request × List Choice))} (run : Run (opsStep config) s ms s')
    (hbackfills : ∀ m ∈ ms, IsBackfill m) : s'.xrplTxs.get? h = some row := by
  refine run.invariant (P := fun s => s.xrplTxs.get? h = some row) hbackfills hget ?_
  exact fun m hstep hm hbefore => backfill_keeps_validated hoff hstep hm hbefore hrow

/-- After any number of passes the row is as the retry policy says exactly when the passes are
    of the `tes` kind: with a `ter` code the status is `pending_validation` after every pass. -/
theorem simulated_retry_policy_iff (hoff : config.xrplEnabled = false) {row₀ : XrplTransaction}
    (hget : s.xrplTxs.get? h = some row₀) (hretries : row₀.retries = 0)
    (hvalidated : row₀.validated = false) {ms : List (Move Store (Request × List Choice))}
    (run : Run (opsStep config) s ms s') (hpasses : ∀ m ∈ ms, IsPass config kind m)
    (hsome : 1 ≤ ms.length) : RetryPolicy config kind h ms.length s' ↔ kind = .tes := by
  -- what the row looks like after these passes
  obtain ⟨row, hrow, hpassed⟩ := passedRow_run hoff hget hretries hvalidated run hpasses
  constructor
  · rintro ⟨row', hrow', hpolicy⟩
    rw [hrow] at hrow'
    cases hrow'
    -- a `ter` row stays pending, which the policy does not say
    cases kind with
    | tes => rfl
    | ter =>
      have hpending := (hpassed.early (.inl rfl)).2.2 hsome
      have hstatus := hpolicy.2.2
      rw [hpending] at hstatus
      split at hstatus <;> cases hstatus
  -- a `tes` row is validated, and stays so
  · rintro rfl
    refine ⟨row, hrow, fun hn => ?_⟩
    obtain ⟨hfinal, hstatus⟩ := hpassed.late rfl hn
    exact ⟨hstatus, fun ms' s'' run' hlater => validated_run hoff hrow hfinal run' hlater⟩

end Runs

/-! ## Concrete runs -/

/-- A deployment without a ledger. -/
def offlineConfig : Config := { sampleConfig with xrplEnabled := false }

/-- One tracked transaction. -/
def offlineStore : Store :=
  { Store.empty with
    xrplTxs := Table.empty.set (freshTrackedTx "xrt_1" "AB12CD34" ⟨"EscrowFinish", none, none, .testnet⟩ 0) }

/-- `n` passes with the result code. -/
def passLabels (resultCode : Option String) (n : Nat) : List (Request × List Choice) :=
  oracleLabels reliable (handle offlineConfig)
    (List.replicate n (.backfill none { sampleBackfill with resultCode := resultCode },
      sampleOracle "1" 0 none)) offlineStore

/-- The move is a pass, as a check. -/
def isPassCheck (kind : PassKind) (m : Move Store (Request × List Choice)) : Bool :=
  match m.label.1 with
  | .backfill auth body => backfillAdmitted offlineConfig auth && kind.fits body
  | _ => false

/-- Whether a move is a pass can be computed. -/
theorem isPass_of_check {kind : PassKind} {m : Move Store (Request × List Choice)}
    (h : isPassCheck kind m = true) : IsPass offlineConfig kind m := by
  unfold isPassCheck at h
  split at h
  · rename_i auth body hreq
    rw [Bool.and_eq_true] at h
    exact ⟨auth, body, hreq, h.1, h.2⟩
  · cases h

/-- Two passes with the default code validate the row. -/
theorem simulated_retry_policy_iff_default :
    ∃ ms s, Run (opsStep offlineConfig) offlineStore ms s ∧ ms.length = 2 ∧
      RetryPolicy offlineConfig .tes "AB12CD34" 2 s := by
  obtain ⟨ms, s, run, hp⟩ := exists_run_of_replay (passLabels none 2)
    (fun r => decide (r.1.length = 2) && r.1.all (isPassCheck .tes))
    (by decide +kernel : (replay (opsStep offlineConfig) offlineStore _ []).any _ = true)
  simp only [Bool.and_eq_true, List.all_eq_true, decide_eq_true_eq] at hp
  obtain ⟨hlength, hpasses⟩ := hp
  have hget : offlineStore.xrplTxs.get? "AB12CD34" = some (freshTrackedTx "xrt_1" "AB12CD34"
      ⟨"EscrowFinish", none, none, .testnet⟩ 0) := rfl
  have hpass : ∀ m ∈ ms, IsPass offlineConfig .tes m := fun m hm => isPass_of_check (hpasses m hm)
  have hpolicy := (simulated_retry_policy_iff rfl hget rfl rfl run hpass (by omega)).mpr rfl
  rw [hlength] at hpolicy
  exact ⟨ms, s, run, hlength, hpolicy⟩

/-- The row is pending after the passes. -/
def pendingAfter (r : List (Move Store (Request × List Choice)) × Store) : Bool :=
  decide (r.1.length = 1) && r.1.all (isPassCheck .ter) &&
    (r.2.xrplTxs.get? "AB12CD34").all fun row => decide (row.trackingStatus = .pendingValidation)

/-- One pass with `terQUEUED` leaves the row pending: no retry is scheduled. -/
theorem retry_not_scheduled :
    ¬ ∀ (config : Config) (kind : PassKind) (h : String) (s s' : Store) (row₀ : XrplTransaction)
      (ms : List (Move Store (Request × List Choice))), config.xrplEnabled = false →
      s.xrplTxs.get? h = some row₀ → row₀.retries = 0 → row₀.validated = false →
      Run (opsStep config) s ms s' → (∀ m ∈ ms, IsPass config kind m) → 1 ≤ ms.length →
      RetryPolicy config kind h ms.length s' := by
  intro h
  obtain ⟨ms, s, run, hp⟩ := exists_run_of_replay (passLabels (some "terQUEUED") 1) pendingAfter
    (by decide +kernel : (replay (opsStep offlineConfig) offlineStore _ []).any _ = true)
  simp only [pendingAfter, Bool.and_eq_true, List.all_eq_true, decide_eq_true_eq] at hp
  obtain ⟨⟨hlength, hpasses⟩, hpending⟩ := hp
  obtain ⟨row, hrow, hpolicy⟩ := h offlineConfig .ter "AB12CD34" offlineStore s _ ms rfl rfl rfl rfl run
    (fun m hm => isPass_of_check (hpasses m hm)) (by omega)
  rw [hrow, Option.all_some, decide_eq_true_eq] at hpending
  have hstatus := hpolicy.2.2
  rw [hpending, hlength] at hstatus
  cases hstatus

end Bluesafe.Ops
