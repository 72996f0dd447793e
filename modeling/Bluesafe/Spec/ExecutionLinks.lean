import Bluesafe.Spec.BookHandlers
import Bluesafe.Spec.ExecutionMatch
import Mathlib.Data.List.Infix

/-!
# Executions and their transactions

Two properties of runs in which requests are handled one after the other. A dispute in
`execution_pending` has a linked transaction and none that is validated
(`pending_transactions_unvalidated`), and a transaction resolves at most one dispute
(`one_dispute_per_transaction`).

Neither holds of every run. The execution request takes any hash: one the ledger has
validated already, one that another dispute waits for, one that has resolved another
dispute. The conditions below say that it does not, for the row and the ledger's answer
it finds.
-/

namespace Bluesafe.Ops

open Async Transition

variable {config : Config}

/-- The move is an execution request that reads the row of `h`. -/
def ExecutesAt (config : Config) (m : Move Store (Request × List Choice)) (h : String) : Prop :=
  (∃ auth id body, m.label.1 = .execution auth id body) ∧
    ∃ found, Answered (opsLog config m) (.getXrplTx h) found

theorem executesAt_of_executed {m : Move Store (Request × List Choice)} {auth : Option BluesafeAuth}
    {id h : String} {body : ExecutionBody} {answer : Option (Bool × Bool)}
    (hreq : m.label.1 = .execution auth id body)
    (hx : Executed m.before.book (opsLog config m) id h answer) : ExecutesAt config m h :=
  ⟨⟨auth, id, body, hreq⟩, hx.read⟩

/-- The dispute a tracked hash is linked to, in the store. -/
theorem linked_of_book {s : Store} {h id : String} {e : Entry} {status : DisputeStatus}
    (he : s.book.entry h = some e) (hlink : e.link = some id)
    (hs : s.book.status id = some status) :
    ∃ row d, s.xrplTxs.get? h = some row ∧ d ∈ s.disputes.rows ∧ row.disputeId = some d.id ∧
      d.status = status ∧ row.validated = e.validated := by
  obtain ⟨row, hrow, rfl⟩ := row_of_entry he
  obtain ⟨d, hd, rfl⟩ := Option.map_eq_some_iff.mp hs
  have hid : d.id = id := Table.key_of_get? hd
  refine ⟨row, d, hrow, Table.mem_of_get? hd, ?_, rfl, rfl⟩
  rw [hid]
  exact hlink

/-! ## Pending executions -/

/-- The transaction of an execution request is still open: the ledger does not report it as
    validated; a stored row that is validated is not taken for an answer the ledger did not
    give; and no dispute waits for it. -/
def TakesOpen (config : Config) (m : Move Store (Request × List Choice)) : Prop :=
  ∀ h, ExecutesAt config m h →
    (∀ live, Answered (opsLog config m) (.getTxStatus h) (some live) → live.validated = false) ∧
    ∀ row, m.before.xrplTxs.get? h = some row →
      (row.validated = true → ∃ live, Answered (opsLog config m) (.getTxStatus h) (some live)) ∧
      ∀ d ∈ m.before.disputes.rows, row.disputeId = some d.id → d.status ≠ .executionPending

/-- The condition in the terms of the book. -/
theorem clean_of_takesOpen {m : Move Store (Request × List Choice)} {auth : Option BluesafeAuth}
    {id h : String} {body : ExecutionBody} {answer : Option (Bool × Bool)}
    (hC : TakesOpen config m) (hreq : m.label.1 = .execution auth id body)
    (hx : Executed m.before.book (opsLog config m) id h answer) :
    m.before.book.Clean (.execute id h answer) := by
  obtain ⟨hlive, hrow⟩ := hC h (executesAt_of_executed hreq hx)
  refine ⟨?_, fun e id' he hlink hpending => ?_⟩
  · cases answer with
    | some a =>
      obtain ⟨live, hanswer, rfl⟩ := hx.answered a rfl
      exact hlive live hanswer
    | none =>
      -- The flag is the one of the stored row, and the ledger had no answer.
      show (m.before.book.entry h).any Entry.validated = false
      cases he : m.before.book.entry h with
      | none => rfl
      | some e =>
        obtain ⟨row, hget, rfl⟩ := row_of_entry he
        show row.validated = false
        by_contra hv
        obtain ⟨live, hanswer⟩ := (hrow row hget).1 (by simpa using hv)
        exact hx.unanswered rfl live hanswer
  · obtain ⟨row, d, hget, hd, hd', hstatus, -⟩ := linked_of_book he hlink hpending
    exact (hrow row hget).2 d hd hd' hstatus

/-- One request keeps the book sound. -/
theorem sound_move {m : Move Store (Request × List Choice)}
    (hstep : opsStep config m.before m.label = some m.after)
    (hreq : m.label.1.inExecution = true) (hC : TakesOpen config m)
    (hsound : m.before.book.Sound) : m.after.book.Sound := by
  obtain ⟨ds, href, hdeeds⟩ := opsStep_deeds hstep hreq
  rw [href.book]
  rcases hdeeds with hplain | ⟨auth, id, body, hexec, hdone⟩
  · exact Book.sound_run hsound hplain
  · rcases hdone with rfl | ⟨h, answer, rfl, hx⟩
    · exact hsound
    · exact Book.sound_step hsound (clean_of_takesOpen hC hexec hx)

/-- At the start nothing is linked. -/
theorem sound_of_initial {s : Store} (hs : s.Initial)
    (hids : ∀ d ∈ s.disputes.rows, idAllowed "dsp" d.id = true) : s.book.Sound := by
  -- nothing is tracked and no execution is pending, so three of the parts are empty
  have hentry : ∀ h e, s.book.entry h ≠ some e := by
    intro h e he
    obtain ⟨row, hrow, -⟩ := row_of_entry he
    have hmem := Table.mem_of_get? hrow
    rw [hs.untracked] at hmem
    exact nomatch hmem
  have hpending : ∀ id, s.book.status id ≠ some .executionPending := by
    intro id hp
    obtain ⟨d, hd, hstatus⟩ := Option.map_eq_some_iff.mp hp
    rcases hs.unexecuted d (Table.mem_of_get? hd) with h | h | h <;>
      rw [hstatus] at h <;> exact nomatch h
  refine ⟨?_, ?_, ?_, ?_⟩
  · intro h e id he
    exact absurd he (hentry h e)
  · intro id hp
    exact absurd hp (hpending id)
  · intro h e id he
    exact absurd he (hentry h e)
  · rintro id hstatus rfl
    obtain ⟨st, hst⟩ := Option.ne_none_iff_exists'.mp hstatus
    obtain ⟨d, hd, -⟩ := Option.map_eq_some_iff.mp hst
    have hallowed := hids d (Table.mem_of_get? hd)
    have hid : d.id = "" := Table.key_of_get? hd
    rw [hid] at hallowed
    exact absurd hallowed (by decide)

/-- In every run whose execution requests take open transactions, a dispute in
    `execution_pending` has a linked transaction and none that is validated. -/
theorem pending_transactions_unvalidated {s₀ s : Store} {ms : List (Move Store (Request × List Choice))}
    (h₀ : s₀.Initial) (hids : ∀ d ∈ s₀.disputes.rows, idAllowed "dsp" d.id = true)
    (run : Run (opsStep config) s₀ ms s) (hreq : ∀ m ∈ ms, m.label.1.inExecution = true)
    (hopen : ∀ m ∈ ms, TakesOpen config m) :
    ∀ d ∈ s.disputes.rows, d.status = .executionPending →
      (∃ row ∈ s.xrplTxs.rows, row.disputeId = some d.id) ∧
      -- the invariant of the book, kept by every move that meets the condition
      ∀ row ∈ s.xrplTxs.rows, row.disputeId = some d.id → row.validated = false := by
  have hsound : s.book.Sound :=
    run.invariant (P := fun s => s.book.Sound)
      (C := fun m => m.label.1.inExecution = true ∧ TakesOpen config m)
      (fun m hm => ⟨hreq m hm, hopen m hm⟩) (sound_of_initial h₀ hids)
      (fun m hstep hC hsound => sound_move hstep hC.1 hC.2 hsound)
  intro d hd hpending
  -- read at this dispute: its status is pending in the book
  have hstatus : s.book.status d.id = some .executionPending := by
    rw [book_status (Table.get?_of_mem hd), hpending]
  -- its transaction is tracked, and none of its rows is validated
  constructor
  · obtain ⟨h, e, he, hlink⟩ := hsound.pending d.id hstatus
    obtain ⟨row, hrow, rfl⟩ := row_of_entry he
    exact ⟨row, Table.mem_of_get? hrow, hlink⟩
  · intro row hrow hlink
    exact hsound.unvalidated row.txHash row.asEntry d.id (book_entry (Table.get?_of_mem hrow))
      hlink hstatus

/-- Every lookup of the move that was answered found an unvalidated transaction, and nothing
    was tracked before it. -/
def takesOpenCheck (config : Config) (m : Move Store (Request × List Choice)) : Bool :=
  m.before.xrplTxs.rows.isEmpty &&
    (opsLog config m).all fun
      | ⟨.getTxStatus _, .ok (some live)⟩ => !live.validated
      | _ => true

theorem takesOpen_of_check {m : Move Store (Request × List Choice)}
    (h : takesOpenCheck config m = true) : TakesOpen config m := by
  simp only [takesOpenCheck, Bool.and_eq_true, List.isEmpty_iff, List.all_eq_true] at h
  intro hash _
  refine ⟨fun live hlive => ?_, fun row hrow => ?_⟩
  · have hnot : (!live.validated) = true := h.2 _ hlive
    simpa using hnot
  · have hmem := Table.mem_of_get? hrow
    rw [h.1] at hmem
    exact nomatch hmem

/-- Requests handled one after the other, each with its environment. -/
def sampleLabels (s : Store) (reqs : List (Request × (Call → Choice))) :
    List (Request × List Choice) :=
  oracleLabels reliable (handle sampleConfig) reqs s

/-- A dispute that waits for its execution after the ledger had no final answer: it has a
    linked transaction, which is not validated. -/
theorem pending_transactions_unvalidated_waiting :
    ∃ ms s, Run (opsStep sampleConfig) (sampleStore [sampleDispute "dsp_1" .filed]) ms s ∧
      ∃ d ∈ s.disputes.rows, d.status = .executionPending ∧
        (∃ row ∈ s.xrplTxs.rows, row.disputeId = some d.id) ∧
        ∀ row ∈ s.xrplTxs.rows, row.disputeId = some d.id → row.validated = false := by
  obtain ⟨ms, s, run, hp⟩ := exists_run_of_replay
    (sampleLabels (sampleStore [sampleDispute "dsp_1" .filed])
      [(.decision none "dsp_1" (sampleDecision .finishToTenant),
          sampleOracle "1" 0 none),
        (.execution none "dsp_1" finishA, sampleOracle "2" 0
          (some (answerA false "EscrowFinish" "rOwnerOwnerOwnerOwner" 7)))])
    (fun r => (r.1.all fun m => m.label.1.inExecution && takesOpenCheck sampleConfig m) &&
      r.2.disputes.rows.any fun d => decide (d.status = .executionPending))
    (by decide +kernel : (replay (opsStep sampleConfig)
      (sampleStore [sampleDispute "dsp_1" .filed]) _ []).any _ = true)
  -- the moves of the replay meet the condition, so the theorem applies
  simp only [Bool.and_eq_true, List.all_eq_true, List.any_eq_true, decide_eq_true_eq] at hp
  obtain ⟨hmoves, d, hd, hpending⟩ := hp
  have hlinked := pending_transactions_unvalidated sampleStore_initial (by decide +kernel) run
    (fun m hm => (hmoves m hm).1) (fun m hm => takesOpen_of_check (hmoves m hm).2) d hd hpending
  exact ⟨ms, s, run, d, hd, hpending, hlinked⟩

/-- Two runs that break it. The ledger has validated the transaction when its execution is
    requested: the answer is applied while the dispute is still decided, and the dispute
    waits for a transaction that is validated already. Two disputes are executed with one
    hash: the first one waits for no transaction at all. -/
theorem pending_with_validated_transaction :
    (∃ ms s, Run (opsStep sampleConfig) (sampleStore [sampleDispute "dsp_1" .filed]) ms s ∧
      (∀ m ∈ ms, m.label.1.inExecution = true) ∧
      ∃ d ∈ s.disputes.rows, d.status = .executionPending ∧
        ∃ row ∈ s.xrplTxs.rows, row.disputeId = some d.id ∧ row.validated = true) ∧
    ∃ ms s, Run (opsStep sampleConfig)
        (sampleStore [sampleDispute "dsp_1" .decided, sampleDispute "dsp_2" .decided]) ms s ∧
      (∀ m ∈ ms, m.label.1.inExecution = true) ∧
      ∃ d ∈ s.disputes.rows, d.status = .executionPending ∧
        ∀ row ∈ s.xrplTxs.rows, row.disputeId ≠ some d.id := by
  -- first a row that is validated when it is linked, then a row that is taken over
  constructor
  · obtain ⟨ms, s, run, hp⟩ := exists_run_of_replay
      (sampleLabels (sampleStore [sampleDispute "dsp_1" .filed])
        [(.decision none "dsp_1" (sampleDecision .finishToTenant),
            sampleOracle "1" 0 none),
          (.execution none "dsp_1" finishA, sampleOracle "2" 0
            (some (answerA true "EscrowFinish" "rOwnerOwnerOwnerOwner" 7)))])
      (fun r => (r.1.all fun m => m.label.1.inExecution) && r.2.disputes.rows.any fun d =>
        decide (d.status = .executionPending) && r.2.xrplTxs.rows.any fun row =>
          decide (row.disputeId = some d.id) && row.validated)
      (by decide +kernel : (replay (opsStep sampleConfig)
        (sampleStore [sampleDispute "dsp_1" .filed]) _ []).any _ = true)
    simp only [Bool.and_eq_true, List.all_eq_true, List.any_eq_true, decide_eq_true_eq] at hp
    exact ⟨ms, s, run, hp⟩
  · obtain ⟨ms, s, run, hp⟩ := exists_run_of_replay
      (sampleLabels (sampleStore [sampleDispute "dsp_1" .decided, sampleDispute "dsp_2" .decided])
        [(.execution none "dsp_1" finishA, sampleOracle "1" 0 none),
          (.execution none "dsp_2" finishA, sampleOracle "2" 0 none)])
      (fun r => (r.1.all fun m => m.label.1.inExecution) && r.2.disputes.rows.any fun d =>
        decide (d.status = .executionPending) && r.2.xrplTxs.rows.all fun row =>
          decide (row.disputeId ≠ some d.id))
      (by decide +kernel : (replay (opsStep sampleConfig)
        (sampleStore [sampleDispute "dsp_1" .decided, sampleDispute "dsp_2" .decided]) _
          []).any _ = true)
    simp only [Bool.and_eq_true, List.all_eq_true, List.any_eq_true, decide_eq_true_eq] at hp
    exact ⟨ms, s, run, hp⟩

/-! ## Resolved disputes -/

/-- The transaction of an execution request has not resolved another dispute: the row that is
    stored for it is not linked to a dispute in `executed` or `rejected`. -/
def TakesUnused (config : Config) (m : Move Store (Request × List Choice)) : Prop :=
  ∀ h, ExecutesAt config m h → ∀ row, m.before.xrplTxs.get? h = some row →
    ∀ d ∈ m.before.disputes.rows, row.disputeId = some d.id →
      d.status ≠ .executed ∧ d.status ≠ .rejected

theorem unused_of_takesUnused {m : Move Store (Request × List Choice)}
    {auth : Option BluesafeAuth} {id h : String} {body : ExecutionBody}
    {answer : Option (Bool × Bool)} (hC : TakesUnused config m)
    (hreq : m.label.1 = .execution auth id body)
    (hx : Executed m.before.book (opsLog config m) id h answer) :
    m.before.book.Unused (.execute id h answer) := by
  have hrow := hC h (executesAt_of_executed hreq hx)
  intro e id' he hlink hended
  rcases hended with hended | hended
  · obtain ⟨row, d, hget, hd, hd', hstatus, -⟩ := linked_of_book he hlink hended
    exact (hrow row hget d hd hd').1 hstatus
  · obtain ⟨row, d, hget, hd, hd', hstatus, -⟩ := linked_of_book he hlink hended
    exact (hrow row hget d hd hd').2 hstatus

/-- One request keeps settled transactions settled, and settles the ones that resolve a
    dispute while it is handled. -/
theorem settled_move {m : Move Store (Request × List Choice)}
    (hstep : opsStep config m.before m.label = some m.after)
    (hreq : m.label.1.inExecution = true) (hC : TakesUnused config m) (h id : String) :
    (m.before.book.Settled h id → m.after.book.Settled h id) ∧
      (MovedBy (opsLog config m) h id → m.after.book.Settled h id) := by
  obtain ⟨ds, href, hdeeds⟩ := opsStep_deeds hstep hreq
  have hmoved : MovedBy (opsLog config m) h id → (h, id) ∈ m.before.book.resolutions ds := by
    intro hm
    rcases href.moved h id hm with hnil | hres
    · exact absurd hnil not_movedBy_nil
    · exact hres
  rw [href.book]
  rcases hdeeds with hplain | ⟨auth, id', body, hexec, hdone⟩
  · exact ⟨fun hs => hs.run hplain, fun hm => Book.settled_of_resolutions hplain (hmoved hm)⟩
  · rcases hdone with rfl | ⟨h', answer, rfl, hx⟩
    · exact ⟨fun hs => hs, fun hm => nomatch hmoved hm⟩
    · have hunused := unused_of_takesUnused hC hexec hx
      exact ⟨fun hs => hs.step hunused, fun hm => nomatch hmoved hm⟩

/-- At the end of a run every transaction that resolved a dispute is settled. -/
theorem settled_of_movedBy {s₀ s : Store} {ms : List (Move Store (Request × List Choice))}
    (run : Run (opsStep config) s₀ ms s) (hreq : ∀ m ∈ ms, m.label.1.inExecution = true)
    (hunused : ∀ m ∈ ms, TakesUnused config m) {m : Move Store (Request × List Choice)}
    (hm : m ∈ ms) {h id : String} (hmoved : MovedBy (opsLog config m) h id) :
    s.book.Settled h id := by
  induction run with
  | nil => exact nomatch hm
  | cons run hstep ih =>
    have hreq' := hreq _ List.mem_cons_self
    have hunused' := hunused _ List.mem_cons_self
    obtain ⟨hkeep, hnew⟩ := settled_move hstep hreq' hunused' h id
    rcases List.mem_cons.mp hm with rfl | hm
    · exact hnew hmoved
    · exact hkeep (ih (fun m hm => hreq m (List.mem_cons_of_mem _ hm))
        (fun m hm => hunused m (List.mem_cons_of_mem _ hm)) hm)

/-- In every run whose execution requests name unused transactions, a transaction resolves at
    most one dispute. -/
theorem one_dispute_per_transaction {s₀ s : Store}
    {ms : List (Move Store (Request × List Choice))} (run : Run (opsStep config) s₀ ms s)
    (hreq : ∀ m ∈ ms, m.label.1.inExecution = true)
    (hunused : ∀ m ∈ ms, TakesUnused config m) :
    ∀ m₁ ∈ ms, ∀ m₂ ∈ ms, ∀ h A B, MovedBy (opsLog config m₁) h A →
      MovedBy (opsLog config m₂) h B → A = B := by
  intro m₁ hm₁ m₂ hm₂ h A B hA hB
  have hsettled := settled_of_movedBy run hreq hunused hm₁ hA
  exact hsettled.unique (settled_of_movedBy run hreq hunused hm₂ hB)

/-- The resolution the newest calls of a log make. -/
def newestResolution : OpsLog → Option (String × String)
  | ⟨.saveDispute d, .ok _⟩ :: ⟨.clock, .ok _⟩ :: ⟨.getDispute id, .ok _⟩ ::
      ⟨.saveXrplTx row, .ok _⟩ :: _ =>
    if d.id = id ∧ (d.status = .executed ∨ d.status = .rejected) then some (row.txHash, id)
    else none
  | _ => none

/-- The hash has resolved the dispute in one of the moves. -/
def resolvedIn (config : Config) (ms : List (Move Store (Request × List Choice)))
    (h id : String) : Bool :=
  ms.any fun m => (opsLog config m).tails.any fun l => decide (newestResolution l = some (h, id))

theorem movedBy_of_newest {l l' : OpsLog} {h id : String} (hl : l' <:+ l)
    (hnew : newestResolution l' = some (h, id)) : MovedBy l h id := by
  unfold newestResolution at hnew
  split at hnew
  · rename_i d _ t id' found row _ rest
    split at hnew
    · rename_i hd
      simp only [Option.some.injEq, Prod.mk.injEq] at hnew
      obtain ⟨rfl, rfl⟩ := hnew
      exact ⟨d, row, t, found, rest, hl, rfl, hd.1, hd.2⟩
    · exact nomatch hnew
  · exact nomatch hnew

theorem exists_movedBy {ms : List (Move Store (Request × List Choice))} {h id : String}
    (hres : resolvedIn config ms h id = true) : ∃ m ∈ ms, MovedBy (opsLog config m) h id := by
  simp only [resolvedIn, List.any_eq_true, List.mem_tails, decide_eq_true_eq] at hres
  obtain ⟨m, hm, l, hl, hnew⟩ := hres
  exact ⟨m, hm, movedBy_of_newest hl hnew⟩

/-- The check of `TakesUnused` for a run in which no dispute is resolved before an execution
    request is handled. -/
def takesUnusedCheck (m : Move Store (Request × List Choice)) : Bool :=
  (match m.label.1 with
    | .execution _ _ _ => false
    | _ => true) ||
  m.before.disputes.rows.all fun d => decide (d.status ≠ .executed ∧ d.status ≠ .rejected)

theorem takesUnused_of_check {m : Move Store (Request × List Choice)}
    (h : takesUnusedCheck m = true) : TakesUnused config m := by
  rintro hash ⟨⟨auth, id, body, hreq⟩, -⟩ row - d hd -
  simp only [takesUnusedCheck, hreq, Bool.false_or, List.all_eq_true, decide_eq_true_eq] at h
  exact h d hd

/-- A run in which a transaction resolves a dispute, and no other. -/
theorem one_dispute_per_transaction_executed :
    ∃ ms s, Run (opsStep sampleConfig)
        (sampleStore [sampleDispute "dsp_1" .decided, sampleDispute "dsp_2" .decided]) ms s ∧
      (∃ m ∈ ms, MovedBy (opsLog sampleConfig m) hashA "dsp_1") ∧
      ∀ m ∈ ms, ∀ id, MovedBy (opsLog sampleConfig m) hashA id → id = "dsp_1" := by
  obtain ⟨ms, s, run, hp⟩ := exists_run_of_replay
    (sampleLabels (sampleStore [sampleDispute "dsp_1" .decided, sampleDispute "dsp_2" .decided])
      [(.execution none "dsp_1" finishA, sampleOracle "1" 0 none),
        (.refresh none hashA, sampleOracle "2" 0
          (some (answerA true "EscrowFinish" "rOwnerOwnerOwnerOwner" 7)))])
    (fun r => (r.1.all fun m => m.label.1.inExecution && takesUnusedCheck m) &&
      resolvedIn sampleConfig r.1 hashA "dsp_1")
    (by decide +kernel : (replay (opsStep sampleConfig)
      (sampleStore [sampleDispute "dsp_1" .decided, sampleDispute "dsp_2" .decided]) _
        []).any _ = true)
  simp only [Bool.and_eq_true, List.all_eq_true] at hp
  -- both moves are in the run, so the theorem names one dispute for them
  obtain ⟨m₁, hm₁, hmoved⟩ := exists_movedBy hp.2
  refine ⟨ms, s, run, ⟨m₁, hm₁, hmoved⟩, fun m hm id hm' => ?_⟩
  exact one_dispute_per_transaction run (fun m hm => (hp.1 m hm).1)
    (fun m hm => takesUnused_of_check (hp.1 m hm).2) m hm m₁ hm₁ hashA id "dsp_1" hm' hmoved

/-- A transaction that resolves two disputes: the execution of the second one names the hash
    that has executed the first one, and the refresh applies the ledger's answer again. -/
theorem transaction_resolves_two_disputes :
    ∃ ms s, Run (opsStep sampleConfig)
        (sampleStore [sampleDispute "dsp_1" .decided, sampleDispute "dsp_2" .decided]) ms s ∧
      (∀ m ∈ ms, m.label.1.inExecution = true) ∧
      (∃ m ∈ ms, MovedBy (opsLog sampleConfig m) hashA "dsp_1") ∧
      ∃ m ∈ ms, MovedBy (opsLog sampleConfig m) hashA "dsp_2" := by
  obtain ⟨ms, s, run, hp⟩ := exists_run_of_replay
    (sampleLabels (sampleStore [sampleDispute "dsp_1" .decided, sampleDispute "dsp_2" .decided])
      [(.execution none "dsp_1" finishA, sampleOracle "1" 0 none),
        (.refresh none hashA, sampleOracle "2" 0
          (some (answerA true "EscrowFinish" "rOwnerOwnerOwnerOwner" 7))),
        (.execution none "dsp_2" finishA, sampleOracle "3" 0
          (some (answerA true "EscrowFinish" "rOwnerOwnerOwnerOwner" 7))),
        (.refresh none hashA, sampleOracle "4" 0
          (some (answerA true "EscrowFinish" "rOwnerOwnerOwnerOwner" 7)))])
    (fun r => (r.1.all fun m => m.label.1.inExecution) &&
      resolvedIn sampleConfig r.1 hashA "dsp_1" && resolvedIn sampleConfig r.1 hashA "dsp_2")
    (by decide +kernel : (replay (opsStep sampleConfig)
      (sampleStore [sampleDispute "dsp_1" .decided, sampleDispute "dsp_2" .decided]) _
        []).any _ = true)
  -- the second execution takes the row over, and the refresh resolves it again
  simp only [Bool.and_eq_true, List.all_eq_true] at hp
  exact ⟨ms, s, run, hp.1.1, exists_movedBy hp.1.2, exists_movedBy hp.2⟩

end Bluesafe.Ops
