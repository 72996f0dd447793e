import Bluesafe.Spec.RowInvariant

/-!
# The policy worker sees every pending transaction

`isPolicyCandidate` reads `validated`, `trackingStatus` and `outcomeClass`. A row that is
pending but under manual review is invisible to the worker for ever.
`applyLiveTxStatus` writes such a row exactly when an unvalidated answer carries no code
that `classifyXrplResultCode` knows; as long as no such answer arrives, every pending
row stays a candidate, in every interleaving and under every failure.
-/

namespace Bluesafe.Ops

open Async Transition

/-- The row waits for the policy worker. -/
def XrplTransaction.awaitsProbe (row : XrplTransaction) : Prop :=
  row.validated = false ∧
    (row.trackingStatus = .pendingValidation ∨ row.trackingStatus = .retryScheduled)

/-- A row that waits for the worker is a candidate. -/
def XrplTransaction.Visible (row : XrplTransaction) : Prop :=
  row.awaitsProbe → isPolicyCandidate row = true

theorem visible_iff {row : XrplTransaction} :
    row.Visible ↔ (row.awaitsProbe → row.outcomeClass ≠ some .manualReview) := by
  unfold XrplTransaction.Visible isPolicyCandidate
  constructor
  · intro h hwait hreview
    have hcand := h hwait
    simp [hreview] at hcand
  · intro h hwait
    have hclass := h hwait
    obtain ⟨hv, hstatus⟩ := hwait
    rcases hstatus with hstatus | hstatus <;> simp [hv, hstatus, hclass]

/-- An answer that is not validated carries a code that is not for manual review. -/
def LiveTxStatus.Classified (live : LiveTxStatus) : Prop :=
  live.validated = false → classifyXrplResultCode live.resultCode ≠ .manualReview

instance (live : LiveTxStatus) : Decidable live.Classified :=
  inferInstanceAs (Decidable (_ → _))

/-- The ledger answers of a choice are classified. -/
def Choice.Classified (c : Choice) : Prop :=
  (∀ live ∈ c.live, live.Classified) ∧ ∀ p ∈ c.accountTx, p.2.Classified

instance (c : Choice) : Decidable c.Classified :=
  inferInstanceAs (Decidable (_ ∧ _))

/-- A step that makes no call, or whose choice is classified. -/
def ClassifiedStep : Act Request Choice → Prop
  | .spawn _ => True
  | .advance _ c => c.Classified

instance (a : Act Request Choice) : Decidable (ClassifiedStep a) :=
  match a with
  | .spawn _ => inferInstanceAs (Decidable True)
  | .advance _ c => inferInstanceAs (Decidable c.Classified)

/-- The answers of the ledger in a call are classified. -/
def ClassifiedEvent (_ : Request) (ev : Event calls String) : Prop :=
  (∀ h live, ev = ⟨.getTxStatus h, .ok (some live)⟩ → live.Classified) ∧
  ∀ account map h live, ev = ⟨.getAccountTxResults account, .ok map⟩ →
    map.lookup h = some live → live.Classified

theorem Reported.classified {req : Request} {l : OpsLog} {h : String} {live : LiveTxStatus}
    (hr : Reported req l h live) (hev : ∀ ev ∈ l, ClassifiedEvent req ev) : live.Classified := by
  cases hr with
  | tx hget => exact (hev _ hget).1 h live rfl
  | accountTx account map hget hlook => exact (hev _ hget).2 account map h live rfl hlook
  | stream msg throttled i hreq hacc hlive =>
    subst hlive
    intro hv
    exact nomatch hv

/-- A simulated row that is not validated is retryable. -/
theorem simulated_retryable {tx : XrplTransaction} {body : BackfillBody}
    (hf : (tx.simulatedStep body).1 = false) :
    classifyXrplResultCode (some (tx.simulatedCode body)) = .retryable := by
  by_contra hne
  have hv : (tx.simulatedStep body).1 = true := by
    unfold XrplTransaction.simulatedStep
    dsimp only
    by_cases hs : classifyXrplResultCode (some (tx.simulatedCode body)) = .success
    · rw [if_pos hs]
    · rw [if_neg hs, if_neg (fun hr => hne hr.1), if_neg hne]
  rw [hv] at hf
  exact nomatch hf

theorem Applied.classified {config : Config} {req : Request} {l : OpsLog} {h : String}
    {live : LiveTxStatus} (ha : Applied config req l h live)
    (hev : ∀ ev ∈ l, ClassifiedEvent req ev) : live.Classified := by
  cases ha with
  | ledger hr => exact hr.classified hev
  | simulated body tx now hs hh hlive =>
    subst hlive
    intro hv hreview
    have hretry := simulated_retryable hv
    have hcode : classifyXrplResultCode (some (tx.simulatedCode body)) = .manualReview := hreview
    rw [hretry] at hcode
    exact nomatch hcode

/-- Every justified write of a tracked transaction keeps it visible. -/
theorem TxWrite.visible {config : Config} {req : Request} {l : OpsLog} {row : XrplTransaction}
    (hw : TxWrite config req l row) (hev : ∀ ev ∈ l, ClassifiedEvent req ev)
    (hread : ∀ row', ReadRow l row' → row'.Visible) : row.Visible := by
  rw [visible_iff]
  -- one case for each reason to write a row
  cases hw with
  | fresh id h p now ht hget => exact fun _ hreview => nomatch hreview
  | retracked h row p now ht hget => exact visible_iff.mp (hread row (.byHash h hget))
  -- the answer of the ledger was classified by hypothesis
  | reconciled h row live now ha hget =>
    intro hwait hreview
    exact ha.classified hev hwait.1 (Option.some.inj hreview)
  -- the simulated answer to a waiting row is retried, not reviewed
  | simulated body tx now hs =>
    intro hwait hreview
    have hcode := Option.some.inj hreview
    rw [simulated_retryable hwait.1] at hcode
    exact nomatch hcode
  | account row a now hr => exact visible_iff.mp (hread row hr)
  | probed row now hr => exact visible_iff.mp (hread row hr)
  -- a row that was given up waits for no probe
  | exhausted row now hr =>
    intro hwait
    rcases hwait.2 with h | h <;> exact nomatch h

theorem mem_of_lookup {map : List (String × LiveTxStatus)} {h : String} {live : LiveTxStatus}
    (hlook : map.lookup h = some live) : (h, live) ∈ map := by
  -- induction on the pairs of the map
  induction map with
  | nil => exact nomatch hlook
  | cons p rest ih =>
    obtain ⟨h', live'⟩ := p
    rw [List.lookup_cons] at hlook
    split at hlook
    · rename_i heq
      have hh : h = h' := by simpa using heq
      cases hlook
      rw [hh]
      exact List.mem_cons_self
    · exact List.mem_cons_of_mem _ (ih hlook)

/-- The answers in the log are those of the choices. -/
theorem stepOk_of_classified {m : Move OpsPool (Act Request Choice)}
    (h : ClassifiedStep m.label) : StepOk (fun _ => True) ClassifiedEvent m := by
  -- the monitor sees the event of the move
  refine ⟨fun _ _ => trivial, ?_⟩
  intro req l ev hev
  obtain ⟨i, c, th, op, k, hlabel, -, -, -, -, rfl⟩ := stepEvent_cases hev
  rw [hlabel] at h
  generalize hr : (world.serve op c m.before.store).1 = r
  constructor
  -- the answer for a transaction, and that for an account
  · intro hash live heq
    cases heq
    exact h.1 live (live_of_serve hr)
  · intro account map hash live heq hlook
    cases heq
    exact h.2 _ (accountTx_of_serve hr ▸ mem_of_lookup hlook)

/-- The invariant in the form of `rows_good`. -/
def VisibleRow (_ : OpsPool) : Row → Prop
  | .tx row => row.Visible
  | _ => True

theorem writesGood_visible {config : Config} :
    WritesGood config VisibleRow (fun _ => True) ClassifiedEvent := by
  intro P th op res r w _ _ hw
  cases r with
  | tx row => exact TxWrite.visible hw w.events fun row' hread => w.readRow hread
  | dispute d => trivial
  | contract c => trivial

/-- In every run in which each unvalidated ledger answer carries a `tes`, `ter` or `tem`
    code, every pending row is a policy candidate in every state reached. -/
theorem pending_rows_stay_candidates {config : Config} {s₀ : Store} {P : OpsPool}
    {ms : List (Move OpsPool (Act Request Choice))}
    (h₀ : ∀ row ∈ s₀.xrplTxs.rows, row.Visible)
    (run : Run (opsPoolStep config) ⟨s₀, []⟩ ms P)
    (hok : ∀ m ∈ ms, ClassifiedStep m.label) :
    ∀ row ∈ P.store.xrplTxs.rows, row.Visible := by
  -- the rows of the first store are visible by hypothesis
  have hstart : ∀ r, s₀.Has r → VisibleRow ⟨s₀, []⟩ r := by
    intro r hr
    cases r with
    | tx row => exact h₀ row hr
    | dispute d => trivial
    | contract c => trivial
  have hgood := rows_good (fun _ _ r _ h => by cases r <;> exact h) writesGood_visible hstart run
    fun m hm => stepOk_of_classified (hok m hm)
  intro row hrow
  exact hgood.stored (.tx row) hrow

/-- A track request whose lookup is answered by `live`, completed. -/
def trackedOnce (live : LiveTxStatus) : List (Act Request Choice) :=
  scheduleActs world (handle sampleConfig)
    [.start (.track none sampleTrack), .run 0 20 (sampleOracle "1" 0 (some live))] ⟨Store.empty, []⟩

/-- With an answer `terQUEUED` the tracked row is pending and stays a candidate. -/
theorem pending_rows_stay_candidates_queued :
    ∃ ms P, Run (opsPoolStep sampleConfig) ⟨Store.empty, []⟩ ms P ∧
      (∃ row ∈ P.store.xrplTxs.rows, row.awaitsProbe ∧ isPolicyCandidate row = true) := by
  obtain ⟨ms, P, run, hp⟩ := exists_run_of_replay
    (trackedOnce { txHash := "AB12CD34", validated := false, resultCode := some "terQUEUED" })
    (fun r => (r.1.all fun m => decide (ClassifiedStep m.label)) &&
      r.2.store.xrplTxs.rows.any fun row =>
        !row.validated && decide (row.trackingStatus = .pendingValidation))
    (by decide +kernel : (replay (opsPoolStep sampleConfig) ⟨Store.empty, []⟩ _ []).any _ = true)
  simp only [Bool.and_eq_true, List.all_eq_true, decide_eq_true_eq, List.any_eq_true,
    Bool.not_eq_true'] at hp
  obtain ⟨hok, row, hrow, hv, hstatus⟩ := hp
  -- the waiting row of the replay
  have hwait : row.awaitsProbe := ⟨hv, .inl hstatus⟩
  have hstart : ∀ row ∈ Store.empty.xrplTxs.rows, row.Visible := fun _ h => nomatch h
  exact ⟨ms, P, run, row, hrow, hwait, pending_rows_stay_candidates hstart run hok row hrow hwait⟩

/-- With an unvalidated answer that carries no result code, the tracked row is pending
    and the policy worker never looks at it again. -/
theorem pending_row_dropped :
    ∃ ms P, Run (opsPoolStep sampleConfig) ⟨Store.empty, []⟩ ms P ∧
      ∃ row ∈ P.store.xrplTxs.rows, row.validated = false ∧
        row.trackingStatus = .pendingValidation ∧ isPolicyCandidate row = false := by
  obtain ⟨ms, P, run, hp⟩ := exists_run_of_replay
    (trackedOnce { txHash := "AB12CD34", validated := false })
    (fun r => r.2.store.xrplTxs.rows.any fun row =>
      !row.validated && decide (row.trackingStatus = .pendingValidation) &&
        !isPolicyCandidate row)
    (by decide +kernel : (replay (opsPoolStep sampleConfig) ⟨Store.empty, []⟩ _ []).any _ = true)
  simp only [List.any_eq_true, Bool.and_eq_true, Bool.not_eq_true', decide_eq_true_eq] at hp
  obtain ⟨row, hrow, ⟨hv, hstatus⟩, hcand⟩ := hp
  exact ⟨ms, P, run, row, hrow, hv, hstatus, hcand⟩

end Bluesafe.Ops
