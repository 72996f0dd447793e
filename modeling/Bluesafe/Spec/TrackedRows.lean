import Bluesafe.Spec.LedgerTruth

/-!
# Consistency of tracked rows

Five writers update `trackingStatus`, `validated`, `outcomeClass` and `resultCode`. Each of them
either keeps all four of the row it has read or sets them together, so a row is consistent
whatever copy it was computed from. The invariant therefore holds for interleaved requests with
any rejections (`rows_consistent`), and not only for sequences of completed ones.
-/

namespace Bluesafe.Ops

open Async Transition

/-- The four columns of a tracked row fit together. -/
structure XrplTransaction.Consistent (row : XrplTransaction) : Prop where
  success : row.trackingStatus = .validatedSuccess ↔
    row.validated = true ∧ row.outcomeClass = some .success
  final : row.validated = true →
    row.trackingStatus = .validatedSuccess ∨ row.trackingStatus = .validatedFail
  classified : row.validated = true → row.outcomeClass = some (classifyXrplResultCode row.resultCode)
  pending : row.trackingStatus = .pendingValidation ∨ row.trackingStatus = .retryScheduled →
    row.validated = false

namespace XrplTransaction.Consistent

variable {row : XrplTransaction}

/-- A writer that keeps the four columns. -/
theorem congr {row' : XrplTransaction} (h : row.Consistent)
    (hstatus : row'.trackingStatus = row.trackingStatus) (hvalidated : row'.validated = row.validated)
    (houtcome : row'.outcomeClass = row.outcomeClass) (hcode : row'.resultCode = row.resultCode) :
    row'.Consistent := by
  constructor <;> rw [hvalidated]
  · rw [hstatus, houtcome]
    exact h.success
  · rw [hstatus]
    exact h.final
  · rw [houtcome, hcode]
    exact h.classified
  · rw [hstatus]
    exact h.pending

/-- A row that is not validated and not a success. -/
theorem of_unvalidated (hstatus : row.trackingStatus ≠ .validatedSuccess)
    (hvalidated : row.validated = false) : row.Consistent := by
  constructor
  · simp [hstatus, hvalidated]
  · simp [hvalidated]
  · simp [hvalidated]
  · simp [hvalidated]

/-- A validated row whose status follows from its outcome. -/
theorem of_validated (hvalidated : row.validated = true)
    (houtcome : row.outcomeClass = some (classifyXrplResultCode row.resultCode))
    (hstatus : row.trackingStatus =
      if row.outcomeClass = some .success then .validatedSuccess else .validatedFail) :
    row.Consistent := by
  by_cases hsuccess : row.outcomeClass = some .success
  · rw [if_pos hsuccess] at hstatus
    exact ⟨by simp [hstatus, hvalidated, hsuccess], fun _ => .inl hstatus, fun _ => houtcome,
      by simp [hstatus]⟩
  · rw [if_neg hsuccess] at hstatus
    exact ⟨by simp [hstatus, hsuccess], fun _ => .inr hstatus, fun _ => houtcome,
      by simp [hstatus]⟩

theorem fresh (id h : String) (p : TrackParams) (now : Time) :
    (freshTrackedTx id h p now).Consistent :=
  of_unvalidated (fun h => by cases h) rfl

/-- Every answer leaves a consistent row, whatever the row was before. -/
theorem reconciled (row : XrplTransaction) (live : LiveTxStatus) (now : Time) :
    (row.reconciled live now).Consistent := by
  cases hv : live.validated with
  | false =>
    -- an answer without validation leaves the row pending
    refine of_unvalidated ?_ hv
    show (if live.validated = true ∧ _ then _ else if live.validated then _ else _) ≠ _
    simp [hv]
  | true =>
    refine of_validated hv rfl ?_
    show (if live.validated = true ∧ classifyXrplResultCode live.resultCode = .success then _
      else if live.validated then _ else _) =
      if some (classifyXrplResultCode live.resultCode) = some .success then _ else _
    simp [hv]

/-- The simulated loop starts from rows that are not validated. -/
theorem simulated (hrow : row.validated = false) (body : BackfillBody) (now : Time) :
    (row.simulated body now).Consistent := by
  have hvalidated : (row.simulated body now).validated = (row.simulatedStep body).1 := rfl
  -- the two fields come from one step, so its branches are split once for both
  have hstatus : (row.simulated body now).trackingStatus = (row.simulatedStep body).2.1 := rfl
  have houtcome : (row.simulated body now).outcomeClass =
      some (classifyXrplResultCode (some (row.simulatedCode body))) := rfl
  unfold simulatedStep at hvalidated hstatus
  dsimp only at hvalidated hstatus
  split at hvalidated
  · -- the code is a success
    rename_i hsuccess
    rw [if_pos hsuccess] at hstatus
    refine of_validated hvalidated houtcome ?_
    rw [hstatus, houtcome, hsuccess, if_pos rfl]
  · rename_i hsuccess
    rw [if_neg hsuccess] at hstatus
    split at hvalidated
    · -- another try is scheduled: the row stays as it is
      rename_i hretry
      rw [if_pos hretry] at hstatus
      refine of_unvalidated ?_ (hvalidated.trans hrow)
      rw [hstatus]
      exact fun h => by cases h
    · rename_i hretry
      rw [if_neg hretry] at hstatus
      split at hvalidated
      · rename_i hlast
        rw [if_pos hlast] at hstatus
        refine of_unvalidated ?_ hvalidated
        rw [hstatus]
        exact fun h => by cases h
      · rename_i hlast
        rw [if_neg hlast] at hstatus
        refine of_validated hvalidated houtcome ?_
        rw [hstatus, houtcome, if_neg fun h => hsuccess (Option.some.inj h)]

theorem exhausted (row : XrplTransaction) (now : Time) : (row.exhausted now).Consistent :=
  of_unvalidated (fun h => by cases h) rfl

end XrplTransaction.Consistent

/-- The invariant in the form of `rows_good`. -/
def ConsistentRow (_ : OpsPool) : Row → Prop
  | .tx row => row.Consistent
  | _ => True

theorem writesGood_consistent (config : Config) :
    WritesGood config ConsistentRow (fun _ => True) (fun _ _ => True) := by
  intro P th op res r w _ _ hwrite
  cases r with
  | dispute d => trivial
  | contract c => trivial
  | tx row =>
    -- rows that were read were consistent when they were stored
    have hread : ∀ {row}, ReadRow th.log row → row.Consistent := fun h => w.readRow h
    cases (hwrite : TxWrite config th.req th.log row) with
    | fresh id h p now _ _ => exact .fresh id h p now
    | retracked h row p now _ hget => exact (hread (.byHash h hget)).congr rfl rfl rfl rfl
    | reconciled h row live now _ _ => exact .reconciled row live now
    | simulated body tx now hs => exact .simulated hs.unvalidated body now
    | account row a now h => exact (hread h).congr rfl rfl rfl rfl
    | probed row now h => exact (hread h).congr rfl rfl rfl rfl
    | exhausted row now _ => exact .exhausted row now

/-- Whatever the interleaving and the rejections, every tracked row is consistent. -/
theorem rows_consistent {config : Config} {s₀ : Store} {P : OpsPool}
    {ms : List (Move OpsPool (Act Request Choice))} (h₀ : ∀ row ∈ s₀.xrplTxs.rows, row.Consistent)
    (run : Run (opsPoolStep config) ⟨s₀, []⟩ ms P) : ∀ row ∈ P.store.xrplTxs.rows, row.Consistent := by
  have hstart : ∀ r, s₀.Has r → ConsistentRow ⟨s₀, []⟩ r := by
    intro r hr
    cases r with
    | tx row => exact h₀ row hr
    | dispute d => trivial
    | contract c => trivial
  have hgood := rows_good (fun _ _ r _ h => by cases r <;> exact h) (writesGood_consistent config)
    hstart run fun _ _ => ⟨fun _ _ => trivial, fun _ _ _ _ => trivial⟩
  exact fun row hrow => hgood.stored (.tx row) hrow

/-- What `reliable` allows is allowed when any call may be rejected. -/
theorem allow_of_reliable (op : Call) (c : Choice) (s : Store) (h : reliable.allow op c s = true) :
    world.allow op c s = true := by
  simp only [reliable, world, Bool.and_eq_true, Bool.or_eq_true] at h ⊢
  obtain ⟨hfail, hid⟩ := h
  constructor
  · refine hfail.imp id fun hledger => ?_
    cases op <;> first | rfl | cases hledger
  · cases op with
    | randomId tag =>
      simp only [Bool.and_eq_true] at hid
      exact hid.1.1.1
    | _ => rfl

/-- Tracked rows are consistent in every state that completed requests reach one after the
    other, and in every state that interleaved requests reach. -/
theorem tracked_rows_consistent {config : Config} {s₀ : Store}
    (h₀ : ∀ row ∈ s₀.xrplTxs.rows, row.Consistent) :
    (∀ ms s, Run (opsStep config) s₀ ms s → ∀ row ∈ s.xrplTxs.rows, row.Consistent) ∧
    ∀ ms P, Run (opsPoolStep config) ⟨s₀, []⟩ ms P → ∀ row ∈ P.store.xrplTxs.rows, row.Consistent := by
  refine ⟨fun ms s run => ?_, fun ms P run => rows_consistent h₀ run⟩
  -- handling requests one after the other is one way to interleave them
  have hpool : ∃ ms' threads, Run (opsPoolStep config) ⟨s₀, []⟩ ms' ⟨s, threads⟩ :=
    exists_run_of_seqRun (W := reliable) allow_of_reliable rfl run
  obtain ⟨ms', threads, run'⟩ := hpool
  exact rows_consistent h₀ run'

/-- With live mode off a transaction is tracked and simulated twice. -/
theorem tracked_rows_consistent_simulated :
    ∃ ms s, Run (opsStep { sampleConfig with xrplEnabled := false }) Store.empty ms s ∧
      ∃ row ∈ s.xrplTxs.rows, row.trackingStatus = .validatedSuccess ∧ row.Consistent := by
  obtain ⟨ms, s, run, hp⟩ := exists_run_of_replay
    (oracleLabels reliable (handle { sampleConfig with xrplEnabled := false })
      [(.track none sampleTrack, sampleOracle "1" 0 none),
        (.backfill none sampleBackfill, sampleOracle "2" 0 none),
        (.backfill none sampleBackfill, sampleOracle "3" 0 none)] Store.empty)
    (fun r => r.2.xrplTxs.rows.any fun row : XrplTransaction =>
      decide (row.trackingStatus = .validatedSuccess))
    (by decide +kernel : (replay (opsStep { sampleConfig with xrplEnabled := false })
      Store.empty _ []).any _ = true)
  simp only [List.any_eq_true, decide_eq_true_eq] at hp
  obtain ⟨row, hrow, hstatus⟩ := hp
  have h₀ : ∀ row ∈ Store.empty.xrplTxs.rows, row.Consistent := by
    intro row hrow
    cases hrow
  exact ⟨ms, s, run, row, hrow, hstatus, (tracked_rows_consistent h₀).1 ms s run row hrow⟩

end Bluesafe.Ops
