import Bluesafe.Spec.SimulatedBackfill

/-!
# Tracking a hash again

`POST /v1/xrpl/track` and an execution request both call `upsertTrackedTx`, which merges their
parameters into the stored row. The columns that only the ledger fills are kept. The type and
the account are not: the parameters win, so what a ledger answer had stored is replaced by what
the caller says (`applyLiveTxStatus` and the policy worker never replace a stored account), and
so is the link to another dispute. `retracking_keeps_iff` says exactly when nothing is lost.
-/

namespace Bluesafe.Ops

open Async Transition

/-- The row still has what ledger answers and an execution request stored in it. -/
structure XrplTransaction.KeptIn (before after : XrplTransaction) : Prop where
  txType : after.txType = before.txType
  account : after.account = before.account
  validated : after.validated = before.validated
  resultCode : after.resultCode = before.resultCode
  outcomeClass : after.outcomeClass = before.outcomeClass
  ledgerIndex : after.ledgerIndex = before.ledgerIndex
  trackingStatus : after.trackingStatus = before.trackingStatus
  escrowOwner : after.escrowOwner = before.escrowOwner
  escrowDestination : after.escrowDestination = before.escrowDestination
  escrowOfferSequence : after.escrowOfferSequence = before.escrowOfferSequence
  escrowSubmitterAccount : after.escrowSubmitterAccount = before.escrowSubmitterAccount
  disputeId : ∀ id, before.disputeId = some id → after.disputeId = some id

/-- The parameters repeat what the row says, or leave it out. -/
structure TrackParams.Repeats (p : TrackParams) (row : XrplTransaction) : Prop where
  txType : p.txType = row.txType
  account : ∀ a, p.account = some a → row.account = some a
  disputeId : ∀ id id', p.disputeId = some id → row.disputeId = some id' → id = id'

instance (p : TrackParams) (row : XrplTransaction) : Decidable (p.Repeats row) :=
  decidable_of_iff (p.txType = row.txType ∧ (∀ a ∈ p.account, row.account = some a) ∧
      ∀ id ∈ p.disputeId, ∀ id' ∈ row.disputeId, id = id')
    ⟨fun h => ⟨h.1, h.2.1, fun id id' hid hid' => h.2.2 id hid id' hid'⟩,
      fun h => ⟨h.txType, h.account, fun id hid id' hid' => h.disputeId id id' hid hid'⟩⟩

section Row

variable {row : XrplTransaction} {h : String} {p : TrackParams} {now : Time}

/-- `given ?? stored` is the stored value exactly if nothing else is given. -/
theorem or_eq_right_iff {α : Type} {given stored : Option α} :
    given.or stored = stored ↔ ∀ a, given = some a → stored = some a := by
  cases given with
  | none => simp
  | some a => simp [eq_comm]

theorem kept_retracked_iff : row.KeptIn (row.retracked h p now) ↔ p.Repeats row := by
  constructor
  · intro hk
    refine ⟨hk.txType, or_eq_right_iff.mp hk.account, fun id id' hid hid' => ?_⟩
    have hlink : p.disputeId.or row.disputeId = some id' := hk.disputeId id' hid'
    rw [hid] at hlink
    exact Option.some.inj hlink
  · intro hp
    refine ⟨hp.txType, or_eq_right_iff.mpr hp.account, rfl, rfl, rfl, rfl, rfl, rfl, rfl, rfl, rfl,
      fun id hid => ?_⟩
    show p.disputeId.or row.disputeId = some id
    cases hgiven : p.disputeId with
    | none => exact hid
    | some given => rw [hp.disputeId given id hgiven hid, Option.some_or]

end Row

/-- What `upsertTrackedTx` does to a store that tracks the hash: the row is rewritten, nothing
    else changes. -/
theorem upsertTrackedTx_returns {s : Store} {h : String} {row : XrplTransaction}
    (hrow : s.xrplTxs.get? h = some row) (p : TrackParams) :
    Returns reliable (upsertTrackedTx h p)
      (fun _ s' => ∃ now, s' = { s with xrplTxs := s.xrplTxs.set (row.retracked h p now) }) s := by
  unfold upsertTrackedTx
  refine Returns.bind (R := fun _ s₁ => s₁ = s) (returns_invoke rfl fun _ => rfl) fun now s₁ hclock => ?_
  subst hclock
  refine Returns.bind (R := fun found s₂ => found = some row ∧ s₂ = s₁)
    (returns_invoke rfl fun _ => ⟨hrow, rfl⟩) fun found s₂ hread => ?_
  obtain ⟨rfl, rfl⟩ := hread
  exact returns_invoke rfl fun _ => ⟨now, rfl⟩

/-- The store after a hash was tracked again with the parameters `p`. -/
def Retracks (s : Store) (h : String) (p : TrackParams) (s' : Store) : Prop :=
  ∃ cs l, exec reliable (upsertTrackedTx h p) cs [] s = some (l, .ok (), s')

/-- Tracking a stored hash again changes no other row, and it keeps what the row says exactly
    if the request repeats the type and, where it gives them, the account and the link. -/
theorem retracking_keeps_iff {s s' : Store} {h : String} {row : XrplTransaction} {p : TrackParams}
    (hrow : s.xrplTxs.get? h = some row) (hrun : Retracks s h p s') :
    (∀ h', h' ≠ h → s'.xrplTxs.get? h' = s.xrplTxs.get? h') ∧
    ((∃ after, s'.xrplTxs.get? h = some after ∧ row.KeptIn after) ↔ p.Repeats row) := by
  obtain ⟨cs, l, hexec⟩ := hrun
  have hpost := exec_sound (upsertTrackedTx_returns hrow p []) hexec
  rw [post_ok] at hpost
  obtain ⟨now, rfl⟩ := hpost
  have hget : ∀ h', (s.xrplTxs.set (row.retracked h p now)).get? h' =
      if h' = h then some (row.retracked h p now) else s.xrplTxs.get? h' :=
    fun h' => Table.get?_set _ _ _
  constructor
  · intro h' hne
    exact (hget h').trans (if_neg hne)
  · dsimp only
    rw [hget h, if_pos rfl]
    simp only [Option.some.injEq, exists_eq_left']
    exact kept_retracked_iff

/-! ## Concrete requests -/

/-- A call that is answered, and the rest of the program. -/
theorem exec_invoke {α : Type} {op : Call} {f : op.Res → OpsM α} {c : Choice} {cs : List Choice}
    {l : OpsLog} {s : Store} (hallow : reliable.allow op c s = true) (hc : c.failure = none) :
    exec reliable (invoke op >>= f) (c :: cs) l s =
      exec reliable (f (perform op c s).1) cs (⟨op, .ok (perform op c s).1⟩ :: l)
        (perform op c s).2 := by
  have hserve : reliable.serve op c s = (.ok (perform op c s).1, (perform op c s).2) :=
    serve_performed hc
  show exec reliable (.await op _) (c :: cs) l s = _
  rw [exec, if_pos hallow, hserve]
  rfl

/-- A stored hash can always be tracked again. -/
theorem retracks {s : Store} {h : String} {row : XrplTransaction}
    (hrow : s.xrplTxs.get? h = some row) (p : TrackParams) :
    Retracks s h p { s with xrplTxs := s.xrplTxs.set (row.retracked h p 0) } := by
  refine ⟨[{}, {}, {}], [⟨.saveXrplTx (row.retracked h p 0), .ok ()⟩, ⟨.getXrplTx h, .ok (some row)⟩,
    ⟨.clock, .ok 0⟩], ?_⟩
  unfold upsertTrackedTx
  rw [exec_invoke rfl rfl, exec_invoke rfl rfl]
  have hread : (perform (.getXrplTx h) {} (perform .clock {} s).2).1 = some row := hrow
  rw [hread]
  rfl

/-- The first request for a hash says nothing about its account. -/
def firstTrack : TrackBody := { sampleTrack with txType := "Unknown", txType_min := by decide }

/-- The ledger's answer names the type and the account. -/
def ledgerAnswer : LiveTxStatus where
  txHash := "AB12CD34"
  validated := true
  ledgerIndex := some 90
  resultCode := some "tesSUCCESS"
  transactionType := some "EscrowFinish"
  account := some "rOwnerOwnerOwnerOwner"

/-- A later request of somebody else for the same hash. -/
def otherTrack : TrackBody :=
  { sampleTrack with
    txType := "Payment"
    account := some "rOtherOtherOtherOther"
    txType_min := by decide
    account_min := by decide }

/-- The row after the first request: its type and its account come from the answer. -/
theorem answered_row :
    ∃ ms s row, Run (opsStep sampleConfig) Store.empty ms s ∧
      s.xrplTxs.get? "AB12CD34" = some row ∧ row.validated = true ∧
      row.txType = "EscrowFinish" ∧ row.account = some "rOwnerOwnerOwnerOwner" := by
  obtain ⟨ms, s, run, hp⟩ := exists_run_of_replay
    (oracleLabels reliable (handle sampleConfig)
      [(.track none firstTrack, sampleOracle "1" 0 (some ledgerAnswer))] Store.empty)
    (fun r => (r.2.xrplTxs.get? "AB12CD34").any fun row => row.validated &&
      decide (row.txType = "EscrowFinish" ∧ row.account = some "rOwnerOwnerOwnerOwner"))
    (by decide +kernel : (replay (opsStep sampleConfig) Store.empty _ []).any _ = true)
  obtain ⟨row, hrow, hfields⟩ := (Option.any_eq_true _ _).mp hp
  rw [Bool.and_eq_true, decide_eq_true_eq] at hfields
  exact ⟨ms, s, row, run, hrow, hfields⟩

/-- The answered row is tracked again with the type and the account it has: nothing is lost. -/
theorem retracking_keeps_iff_repeated :
    ∃ ms s row s', Run (opsStep sampleConfig) Store.empty ms s ∧
      s.xrplTxs.get? "AB12CD34" = some row ∧ row.validated = true ∧
      Retracks s "AB12CD34" ⟨"EscrowFinish", some "rOwnerOwnerOwnerOwner", none, .testnet⟩ s' ∧
      ∃ after, s'.xrplTxs.get? "AB12CD34" = some after ∧ row.KeptIn after := by
  obtain ⟨ms, s, row, run, hrow, hvalid, htype, haccount⟩ := answered_row
  have hrun := retracks hrow ⟨"EscrowFinish", some "rOwnerOwnerOwnerOwner", none, .testnet⟩
  refine ⟨ms, s, row, _, run, hrow, hvalid, hrun, (retracking_keeps_iff hrow hrun).2.mpr ?_⟩
  refine ⟨htype.symm, fun a ha => ?_, fun id id' hid _ => ?_⟩
  · rw [haccount, ← ha]
  · cases hid

/-- Another caller tracks the answered hash with a type and an account of its own: the type and
    the account that the ledger had given are gone. -/
theorem retracking_overwrites :
    ∃ ms s row s', Run (opsStep sampleConfig) Store.empty ms s ∧
      s.xrplTxs.get? otherTrack.txHash = some row ∧ row.validated = true ∧
      row.txType = "EscrowFinish" ∧ row.account = some "rOwnerOwnerOwnerOwner" ∧
      Retracks s otherTrack.txHash otherTrack.params s' ∧
      ∀ after, s'.xrplTxs.get? otherTrack.txHash = some after →
        after.txType = "Payment" ∧ after.account = some "rOtherOtherOtherOther" ∧
        ¬ row.KeptIn after := by
  obtain ⟨ms, s, row, run, hrow, hvalid, htype, haccount⟩ := answered_row
  refine ⟨ms, s, row, _, run, hrow, hvalid, htype, haccount, retracks hrow otherTrack.params, ?_⟩
  intro after hafter
  have hset : (s.xrplTxs.set (row.retracked "AB12CD34" otherTrack.params 0)).get? "AB12CD34" =
      some (row.retracked "AB12CD34" otherTrack.params 0) := Table.get?_set_self _ _
  have heq : after = row.retracked "AB12CD34" otherTrack.params 0 :=
    Option.some.inj (hafter.symm.trans hset)
  subst heq
  refine ⟨rfl, rfl, fun hkept => ?_⟩
  have hsame : otherTrack.txType = row.txType := hkept.txType
  rw [htype] at hsame
  exact absurd hsame (by decide)

end Bluesafe.Ops
