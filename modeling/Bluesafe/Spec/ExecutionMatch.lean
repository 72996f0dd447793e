import Bluesafe.Spec.LedgerTruth

/-!
# What an executed dispute says about the transaction

The execution handler compares the type of the transaction with the type of the request
when the hash is ledger-backed and the ledger already knows the transaction. Nothing
else is compared, at that moment or later: neither the owner and the offer sequence nor
the recorded decision, and not the type of an answer that arrives after the request.
-/

namespace Bluesafe.Ops

open Async Transition

variable {config : Config}

/-- A typed answer that does not make the request fail has the requested type. -/
theorem typeMismatch_eq_none {chosen : ExecutionHash} {body : ExecutionBody}
    {looked : Option LiveTxStatus} {t : String} (h : typeMismatch chosen body looked = none)
    (hbacked : chosen.ledgerBacked = true)
    (ht : truthy (looked.bind LiveTxStatus.transactionType) = some t) :
    t = body.txType.text := by
  unfold typeMismatch at h
  rw [if_pos hbacked, ht] at h
  dsimp only at h
  split at h
  · exact nomatch h
  · rename_i heq
    exact not_not.mp heq

/-- The ledger gives one type to each hash in all its answers of the run. -/
def LedgerTypes (typeOf : String → String) (P : OpsPool) : Prop :=
  ∀ th ∈ P.threads, ∀ h live t, Reported th.req th.log h live →
    truthy live.transactionType = some t → t = typeOf h

/-- In live mode, for a ledger that gives each hash one type: an executed dispute rests on
    a successful answer for a hash that one of its execution requests tracks, and if that
    hash was ledger-backed and the request's own lookup was answered with a type, the
    transaction has the type the request asked for. -/
theorem executed_matches_checked_request {s₀ : Store} {P : OpsPool}
    {ms : List (Move OpsPool (Act Request Choice))} {typeOf : String → String}
    (hlive : config.xrplEnabled = true) (h₀ : s₀.Initial)
    (run : Run (opsPoolStep config) ⟨s₀, []⟩ ms P) (hledger : LedgerTypes typeOf P) :
    ∀ d ∈ P.store.disputes.rows, d.status = .executed →
      ∃ th ∈ P.threads, ∃ dc body chosen looked live,
        Executes config th.req th.log dc body chosen ∧ dc.id = d.id ∧
        Answered th.log (.getTxStatus chosen.txHash) looked ∧
        AnsweredOrSimulated P chosen.txHash live ∧ live.succeeded ∧
        (chosen.ledgerBacked = true →
          (truthy (looked.bind LiveTxStatus.transactionType)).isSome →
          ∀ t, truthy live.transactionType = some t → t = body.txType.text) := by
  intro d hd hx
  obtain ⟨h, live, ⟨th, hth, dc, body, chosen, hexec, rfl, hid⟩, hconf, hs⟩ :=
    ((rows_true h₀ run).stored (.dispute d) hd : DisputeTrue config P d) hx
  obtain ⟨looked, hlooked, hmis⟩ := hexec.lookup hlive
  refine ⟨th, hth, dc, body, chosen, looked, live, hexec, hid, hlooked,
    hconf.answeredOrSimulated hlive, classify_eq_success.mp hs, ?_⟩
  intro hbacked htyped t ht
  obtain ⟨t₀, ht₀⟩ := Option.isSome_iff_exists.mp htyped
  have hreq : t₀ = body.txType.text := typeMismatch_eq_none hmis hbacked ht₀
  -- The lookup itself is an answer of the ledger about the hash.
  have hlook : t₀ = typeOf chosen.txHash := by
    cases looked with
    | none => exact nomatch ht₀
    | some l => exact hledger th hth _ l t₀ (.tx hlooked) ht₀
  obtain ⟨-, th', hth', ha⟩ := hconf
  cases ha with
  | ledger hr => rw [hledger th' hth' _ live t hr ht, ← hlook, hreq]
  | simulated body' tx now hsim hh hl =>
    rw [hl] at ht
    exact nomatch ht

/-! ## Concrete runs -/

/-- The execution requests that were accepted, with their dispute. -/
def acceptedExecutions (P : OpsPool) : List (String × ExecutionBody) :=
  P.threads.filterMap fun th =>
    match th.req, th.prog with
    | .execution _ id body, .done (some reply) =>
      if reply.status = 202 then some (id, body) else none
    | _, _ => none

/-- The validated answer of a `tx` call. -/
def validatedAnswer : Event calls String → Option (String × LiveTxStatus)
  | ⟨.getTxStatus h, .ok (some live)⟩ => if live.validated then some (h, live) else none
  | _ => none

/-- The validated answers of `tx` calls. -/
def validatedAnswers (P : OpsPool) : List (String × LiveTxStatus) :=
  P.threads.flatMap fun th => th.log.filterMap validatedAnswer

/-- A dispute was executed on an accepted request, a ledger answer for the hash the request
    names, and a recorded decision that together have the property `bad`. -/
abbrev ExecutedOn (P : OpsPool)
    (bad : ExecutionBody → LiveTxStatus → CaseDecision → Bool) : Prop :=
  ∃ d ∈ P.store.disputes.rows, d.status = .executed ∧
    ∃ x ∈ acceptedExecutions P, x.1 = d.id ∧
    ∃ a ∈ validatedAnswers P, x.2.txHash.map toUpperCase = some a.1 ∧
    ∃ dec ∈ P.store.decisions.rows, dec.disputeId = d.id ∧ bad x.2 a.2 dec = true

/-- Decide a dispute, request its execution while the ledger answers `first`, and refresh
    the transaction when the ledger answers `later`. -/
def decideExecuteRefresh (decision : DisputeDecisionChoice) (body : ExecutionBody) (h : String)
    (first later : Option LiveTxStatus) : List (Act Request Choice) :=
  scheduleActs world (handle sampleConfig)
    [.start (.decision none "dsp_1" (sampleDecision decision)),
      .run 0 30 (sampleOracle "1" 0 none),
      .start (.execution none "dsp_1" body), .run 1 60 (sampleOracle "2" 0 first),
      .start (.refresh none h), .run 2 60 (sampleOracle "3" 0 later)]
    ⟨sampleStore [sampleDispute "dsp_1" .filed], []⟩

/-- The hash of the concrete runs. -/
def hashA : String := sampleHash 'A'

/-- A request for an `EscrowFinish` of `rOwnerOwnerOwnerOwner` with sequence 7. -/
def finishA : ExecutionBody := sampleExecution .escrowFinish hashA (by decide +kernel)

/-- A ledger answer for the hash of the concrete runs. -/
def answerA (validated : Bool) (type owner : String) (sequence : Int) : LiveTxStatus where
  txHash := hashA
  validated := validated
  ledgerIndex := some 100
  resultCode := some "tesSUCCESS"
  transactionType := some type
  account := some owner
  escrowOwner := some owner
  escrowOfferSequence := some sequence
  escrowSubmitterAccount := some owner

theorem sampleStore_initial : (sampleStore [sampleDispute "dsp_1" .filed]).Initial := by
  refine ⟨rfl, ?_⟩
  decide +kernel

/-- The answers of a thread to `tx` calls have the type of their hash; it has no others. -/
def typedThread (typeOf : String → String) (th : OpsThread) : Bool :=
  (match th.req with
    | .streamTransaction _ _ => false
    | _ => true) &&
  th.log.all fun
    | ⟨.getTxStatus h, .ok (some live)⟩ =>
      decide (∀ t ∈ truthy live.transactionType, t = typeOf h)
    | ⟨.getAccountTxResults _, .ok (_ :: _)⟩ => false
    | _ => true

theorem ledgerTypes_of_typed {typeOf : String → String} {P : OpsPool}
    (h : ∀ th ∈ P.threads, typedThread typeOf th = true) : LedgerTypes typeOf P := by
  intro th hth hash live t hr ht
  have hs := h th hth
  simp only [typedThread, Bool.and_eq_true, List.all_eq_true] at hs
  have hget := hr.answered (fun msg throttled hreq => by rw [hreq] at hs; cases hs.1)
    fun account p rest hmap => by cases hs.2 _ hmap
  exact of_decide_eq_true (hs.2 _ hget) t ht

/-- A dispute that is executed by the transaction its request named: the ledger knew the
    type when the execution was requested. -/
theorem executed_matches_checked_request_finish :
    ∃ ms P, Run (opsPoolStep sampleConfig) ⟨sampleStore [sampleDispute "dsp_1" .filed], []⟩ ms P ∧
      ∃ d ∈ P.store.disputes.rows, d.status = .executed ∧
        ∃ th ∈ P.threads, ∃ dc body chosen live,
          Executes sampleConfig th.req th.log dc body chosen ∧ dc.id = d.id ∧
          AnsweredOrSimulated P chosen.txHash live ∧ live.succeeded := by
  obtain ⟨ms, P, run, hp⟩ := exists_run_of_replay
    (decideExecuteRefresh .finishToTenant finishA hashA
      (some (answerA false "EscrowFinish" "rOwnerOwnerOwnerOwner" 7))
      (some (answerA true "EscrowFinish" "rOwnerOwnerOwnerOwner" 7)))
    (fun r => (r.2.threads.all (typedThread fun _ => "EscrowFinish")) &&
      r.2.store.disputes.rows.any fun d => decide (d.status = .executed))
    (by decide +kernel : (replay (opsPoolStep sampleConfig)
      ⟨sampleStore [sampleDispute "dsp_1" .filed], []⟩ _ []).any _ = true)
  simp only [Bool.and_eq_true, List.all_eq_true, List.any_eq_true, decide_eq_true_eq] at hp
  obtain ⟨htyped, d, hd, hx⟩ := hp
  obtain ⟨th, hth, dc, body, chosen, looked, live, hexec, hid, -, ha, hs, -⟩ :=
    executed_matches_checked_request rfl sampleStore_initial run (ledgerTypes_of_typed htyped) d hd hx
  exact ⟨ms, P, run, d, hd, hx, th, hth, dc, body, chosen, live, hexec, hid, ha, hs⟩

/-- Three executed disputes: the type that arrived after the request is not the requested
    one; owner and sequence are not those of the request although the ledger knew the
    transaction when it was requested; the decision asks for the other transaction type. -/
theorem executed_on_other_transaction :
    (∃ ms P, Run (opsPoolStep sampleConfig) ⟨sampleStore [sampleDispute "dsp_1" .filed], []⟩ ms P ∧
      ExecutedOn P fun body live _ =>
        decide (live.transactionType ≠ some body.txType.text)) ∧
    (∃ ms P, Run (opsPoolStep sampleConfig) ⟨sampleStore [sampleDispute "dsp_1" .filed], []⟩ ms P ∧
      ExecutedOn P fun body live _ =>
        decide (live.escrowOwner ≠ some body.owner ∧ live.escrowOfferSequence = some 99 ∧
          body.offerSequence = .num 7)) ∧
    ∃ ms P, Run (opsPoolStep sampleConfig) ⟨sampleStore [sampleDispute "dsp_1" .filed], []⟩ ms P ∧
      ExecutedOn P fun _ live dec =>
        decide (live.transactionType = some "EscrowFinish" ∧ dec.decision = .cancelToOwner) := by
  refine ⟨?_, ?_, ?_⟩
  · obtain ⟨ms, P, run, hp⟩ := exists_run_of_replay
      (decideExecuteRefresh .finishToTenant finishA hashA none
        (some (answerA true "EscrowCancel" "rOwnerOwnerOwnerOwner" 7)))
      (fun r => decide (ExecutedOn r.2 fun body live _ =>
        decide (live.transactionType ≠ some body.txType.text)))
      (by decide +kernel : (replay (opsPoolStep sampleConfig)
        ⟨sampleStore [sampleDispute "dsp_1" .filed], []⟩ _ []).any _ = true)
    exact ⟨ms, P, run, of_decide_eq_true hp⟩
  · obtain ⟨ms, P, run, hp⟩ := exists_run_of_replay
      (decideExecuteRefresh .finishToTenant finishA hashA
        (some (answerA false "EscrowFinish" "rStrangerStrangerStran" 99))
        (some (answerA true "EscrowFinish" "rStrangerStrangerStran" 99)))
      (fun r => decide (ExecutedOn r.2 fun body live _ =>
        decide (live.escrowOwner ≠ some body.owner ∧ live.escrowOfferSequence = some 99 ∧
          body.offerSequence = .num 7)))
      (by decide +kernel : (replay (opsPoolStep sampleConfig)
        ⟨sampleStore [sampleDispute "dsp_1" .filed], []⟩ _ []).any _ = true)
    exact ⟨ms, P, run, of_decide_eq_true hp⟩
  · obtain ⟨ms, P, run, hp⟩ := exists_run_of_replay
      (decideExecuteRefresh .cancelToOwner finishA hashA none
        (some (answerA true "EscrowFinish" "rOwnerOwnerOwnerOwner" 7)))
      (fun r => decide (ExecutedOn r.2 fun _ live dec =>
        decide (live.transactionType = some "EscrowFinish" ∧ dec.decision = .cancelToOwner)))
      (by decide +kernel : (replay (opsPoolStep sampleConfig)
        ⟨sampleStore [sampleDispute "dsp_1" .filed], []⟩ _ []).any _ = true)
    exact ⟨ms, P, run, of_decide_eq_true hp⟩

end Bluesafe.Ops
