import Bluesafe.Spec.RowInvariant

/-!
# Disputes under concurrent requests

Every handler of a dispute reads a copy, checks its status and later writes the whole row
back; a decision and a submission to the ledger come before the write of the status they
belong to. Nothing in the repository prevents two requests from doing this at the same
time.

`OnTurn` says what must hold at the three calls that matter: the copy the request has
read is current, and nobody else is between a decision (or a submission) and its status
write. In every run whose steps are on turn, whatever else is interleaved and whichever
calls fail, a dispute gets at most one decision, one accepted execution and one
submission, and its status follows the life cycle (`dispute_lifecycle`).
-/

namespace Bluesafe.Ops

open Async Transition

variable {config : Config}

/-! ## The life cycle -/

/-- The changes of a stored status. -/
inductive DisputeEdge : DisputeStatus → DisputeStatus → Prop
  | review : DisputeEdge .filed .underReview
  | refile : DisputeEdge .underReview .filed
  | decideFiled : DisputeEdge .filed .decided
  | decideReviewed : DisputeEdge .underReview .decided
  | request : DisputeEdge .decided .executionPending
  | succeed : DisputeEdge .executionPending .executed
  | fail : DisputeEdge .executionPending .rejected

/-- How far a dispute has come; only the review goes back and forth. -/
def DisputeStatus.rank : DisputeStatus → Nat
  | .filed => 0
  | .underReview => 0
  | .decided => 1
  | .executionPending => 2
  | .executed => 3
  | .rejected => 3
  | .closed => 3

/-- A dispute does not go back. -/
theorem DisputeEdge.rank_le {s t : DisputeStatus} (h : DisputeEdge s t) : s.rank ≤ t.rank := by
  cases h <;> decide

/-- It awaits its decision at the lowest rank. -/
theorem awaitsDecision_iff_rank {s : DisputeStatus} :
    s.awaitsDecision = true ↔ s.rank = 0 := by
  cases s <;> decide

/-- Nothing follows on the end. -/
theorem DisputeEdge.not_ended {s t : DisputeStatus} (h : DisputeEdge s t) :
    s ≠ .executed ∧ s ≠ .rejected := by
  cases h <;> decide

/-- The request creates a dispute. -/
def Request.filesDispute : Request → Bool
  | .fileDispute _ _ => true
  | _ => false

/-- Every write of a dispute is an edge from a copy the request has read, or keeps the
    status of the copy. -/
theorem DisputeWrite.edge {req : Request} {l : OpsLog} {d : DisputeCase}
    (hw : DisputeWrite config req l d) (hreq : req.filesDispute = false) :
    ∃ copy, copy.id = d.id ∧ ReadDispute l copy ∧
      (d.status = copy.status ∨ DisputeEdge copy.status d.status) := by
  cases hw with
  | filed d auth body hreq' hid hstatus =>
    rw [hreq'] at hreq
    exact nomatch hreq
  | reviewStarted auth id next d t deadline hreq' hget hstatus =>
    refine ⟨d, rfl, .byId id hget, .inr ?_⟩
    rw [hstatus]
    exact .review
  | refiled auth id next d t hreq' hget hstatus =>
    refine ⟨d, rfl, .byId id hget, .inr ?_⟩
    rw [hstatus]
    exact .refile
  | escalated d t hreq' hread => exact ⟨d, rfl, hread, .inl rfl⟩
  | decided auth id body d record t hreq' hget hstatus hrec hdispute =>
    refine ⟨d, rfl, .byId id hget, .inr ?_⟩
    show DisputeEdge d.status .decided
    -- a decision is possible in two states
    cases hs : d.status <;> rw [hs] at hstatus
    · exact .decideFiled
    · exact .decideReviewed
    all_goals exact nomatch hstatus
  | pending d body chosen row t hx hrow hhash hlink =>
    obtain ⟨auth, id, -, hget⟩ := hx.isExecution
    refine ⟨d, rfl, .byId id hget, .inr ?_⟩
    rw [hx.decided]
    exact .request
  | resolved id d row t hget hstatus hrow hres =>
    refine ⟨d, rfl, .byId id hget, .inr ?_⟩
    rw [hstatus]
    show DisputeEdge .executionPending (executionResult row.outcomeClass)
    unfold executionResult
    split
    · exact .succeed
    · exact .fail

/-! ## Requests on turn -/

/-- Every copy of the dispute `id` the request has read has the stored status. -/
def Current (s : Store) (l : OpsLog) (id : String) : Prop :=
  ∀ copy, ReadDispute l copy → copy.id = id →
    ∃ stored, s.disputes.get? id = some stored ∧ stored.status = copy.status

/-- The request has stored the dispute `id` in the given status. -/
def StoredAs (id : String) (status : DisputeStatus) (th : OpsThread) : Prop :=
  ∃ d : DisputeCase, d.id = id ∧ d.status = status ∧ Answered th.log (.saveDispute d) ()

/-- The request has sent a decision for the dispute `id` to the repository. -/
def Records (id : String) (th : OpsThread) : Prop :=
  ∃ ev ∈ th.log, ∃ record, ev.op = .saveDecision record ∧ record.disputeId = id

/-- A call that hands a transaction to the ledger. -/
def Call.isSubmit : Call → Bool
  | .submitAndWaitFromWallet _ => true
  | _ => false

/-- The request asks for the execution of the dispute `id`. -/
def Request.executes (id : String) : Request → Bool
  | .execution _ id' _ => id' = id
  | _ => false

/-- The request has handed a transaction for the dispute `id` to the ledger. -/
def Submits (id : String) (th : OpsThread) : Prop :=
  th.req.executes id = true ∧ ∃ ev ∈ th.log, ev.op.isSubmit = true

/-- The execution request was accepted: it has stored the dispute as `execution_pending`. -/
def Accepts (id : String) (th : OpsThread) : Prop :=
  th.req.executes id = true ∧ StoredAs id .executionPending th

/-- The move is made while nobody else is in the way. A save needs current copies; a
    decision and a submission also need that every request that has already recorded a
    decision, or submitted, for the dispute has stored the status that goes with it. -/
structure OnTurn (m : Move OpsPool (Act Request Choice)) : Prop where
  save : ∀ req l ev d, stepEvent world m.before m.label = some (req, l, ev) →
    ev.op = .saveDispute d → Current m.before.store l d.id
  decide : ∀ req l ev record, stepEvent world m.before m.label = some (req, l, ev) →
    ev.op = .saveDecision record → Current m.before.store l record.disputeId ∧
      ∀ th ∈ m.before.threads, Records record.disputeId th → StoredAs record.disputeId .decided th
  submit : ∀ req l ev id, stepEvent world m.before m.label = some (req, l, ev) →
    ev.op.isSubmit = true → req.executes id = true → Current m.before.store l id ∧
      ∀ th ∈ m.before.threads, Submits id th → StoredAs id .executionPending th

/-! ## What the pools keep -/

/-- Two decisions for one dispute are the same. -/
def OneDecision (s : Store) : Prop :=
  ∀ r ∈ s.decisions.rows, ∀ r' ∈ s.decisions.rows, r.disputeId = r'.disputeId → r = r'

/-- What a run whose steps are on turn keeps. -/
structure DisputePool (config : Config) (P : OpsPool) : Prop where
  base : RowsGood config (fun _ _ => True) (fun req => req.filesDispute = false)
    (fun _ _ => True) P
  /-- No dispute has fallen behind a status that was stored. -/
  saved : ∀ th ∈ P.threads, ∀ d, Answered th.log (.saveDispute d) () →
    ∃ stored, P.store.disputes.get? d.id = some stored ∧ d.status.rank ≤ stored.status.rank
  /-- A decision was sent by a request of this run, or its dispute awaits none. -/
  recorded : ∀ r ∈ P.store.decisions.rows, (∃ th ∈ P.threads, Records r.disputeId th) ∨
    ∀ stored, P.store.disputes.get? r.disputeId = some stored → 1 ≤ stored.status.rank
  decisions : OneDecision P.store
  accepted : ∀ id, AtMostOne (Accepts id) P.threads
  submitted : ∀ id, AtMostOne (Submits id) P.threads
  submits : ∀ th ∈ P.threads, th.log.countP (fun ev => ev.op.isSubmit) ≤ 1

/-- What a run of the life cycle assumes about its steps. -/
structure DisputeStep (m : Move OpsPool (Act Request Choice)) : Prop where
  request : ∀ req, m.label = .spawn req → req.filesDispute = false
  onTurn : OnTurn m

section Move

variable {P : OpsPool} {th : OpsThread} {s' : Store}

/-- A save on turn: the stored dispute makes an edge or keeps its status, and it exists. -/
theorem saveDispute_edge {x : DisputeCase} (hP : DisputePool config P) (hth : th ∈ P.threads)
    (hjust : DisputeWrite config th.req th.log x) (hcur : Current P.store th.log x.id) :
    ∃ stored, P.store.disputes.get? x.id = some stored ∧
      (x.status = stored.status ∨ DisputeEdge stored.status x.status) := by
  obtain ⟨copy, hid, hread, hedge⟩ := hjust.edge (hP.base.requests th hth)
  obtain ⟨stored, hstored, hstatus⟩ := hcur copy hread hid
  refine ⟨stored, hstored, ?_⟩
  rw [hstatus]
  exact hedge

/-- One move: no dispute appears or vanishes, and every stored dispute keeps its status or
    follows an edge. -/
theorem dispute_move {m : Move OpsPool (Act Request Choice)}
    (hstep : opsPoolStep config m.before m.label = some m.after) (hok : DisputeStep m)
    (hP : DisputePool config m.before) (id : String) :
    (m.before.store.disputes.get? id = none ∧ m.after.store.disputes.get? id = none) ∨
    ∃ d d', m.before.store.disputes.get? id = some d ∧ m.after.store.disputes.get? id = some d' ∧
      (d'.status = d.status ∨ DisputeEdge d.status d'.status) := by
  obtain ⟨P, a, P'⟩ := m
  dsimp only at hstep hP ⊢
  -- every move but the save of this dispute keeps its row
  have hkept : ∀ t : Table DisputeCase.id, t.get? id = P.store.disputes.get? id →
      (P.store.disputes.get? id = none ∧ t.get? id = none) ∨
      ∃ d d', P.store.disputes.get? id = some d ∧ t.get? id = some d' ∧
        (d'.status = d.status ∨ DisputeEdge d.status d'.status) := by
    intro t ht
    rw [ht]
    cases P.store.disputes.get? id with
    | none => exact .inl ⟨rfl, rfl⟩
    | some d => exact .inr ⟨d, d, rfl, rfl, .inl rfl⟩
  obtain ⟨req, rfl, rfl⟩ | ⟨i, c, th, op, k, rfl, hth, hprog, -, rfl⟩ := poolStep_cases hstep
  · exact hkept _ rfl
  · have hmem : th ∈ P.threads := List.mem_of_getElem? hth
    rcases (framed_serve op c P.store).disputes with hsame | ⟨x, rfl, hset⟩
    · exact hkept _ (congrArg (fun t => t.get? id) hsame)
    · have hget : (serve (.saveDispute x) c P.store).2.disputes.get? id =
          if id = x.id then some x else P.store.disputes.get? id := by
        rw [hset, Table.get?_set]
      by_cases hid : id = x.id
      · subst hid
        rw [if_pos rfl] at hget
        -- the saved dispute follows the copy it was made from, which is still the stored one
        obtain ⟨stored, hstored, hedge⟩ := saveDispute_edge hP hmem
          ((hP.base.safe th hmem).ok_of_await hprog)
          (hok.onTurn.save _ _ _ x (stepEvent_advance hth hprog) rfl)
        exact .inr ⟨stored, x, hstored, hget, hedge⟩
      · rw [if_neg hid] at hget
        exact hkept _ hget

/-- No dispute falls behind. -/
theorem rank_move {m : Move OpsPool (Act Request Choice)}
    (hstep : opsPoolStep config m.before m.label = some m.after) (hok : DisputeStep m)
    (hP : DisputePool config m.before) {id : String} {d : DisputeCase}
    (hd : m.before.store.disputes.get? id = some d) :
    ∃ d', m.after.store.disputes.get? id = some d' ∧ d.status.rank ≤ d'.status.rank := by
  obtain ⟨hnone, -⟩ | ⟨e, d', he, hd', hchange⟩ := dispute_move hstep hok hP id
  · rw [hd] at hnone
    exact nomatch hnone
  · rw [hd, Option.some.injEq] at he
    subst he
    refine ⟨d', hd', ?_⟩
    rcases hchange with hsame | hedge
    · rw [hsame]
    · exact hedge.rank_le

/-- A dispute that was just stored with a successful answer is in the store. -/
theorem stored_of_saveDispute {d : DisputeCase} {op : Call} {c : Choice} {s : Store}
    (h : (⟨.saveDispute d, .ok ()⟩ : Event calls String) = ⟨op, (serve op c s).1⟩) :
    (serve op c s).2.disputes.get? d.id = some d := by
  obtain ⟨-, -, hstore⟩ := performed_of_event h
  rw [hstore]
  exact Table.get?_set_self s.disputes d

/-- A dispute that is saved was advanced along an edge. -/
theorem saved_after {m : Move OpsPool (Act Request Choice)}
    (hstep : opsPoolStep config m.before m.label = some m.after) (hok : DisputeStep m)
    (hP : DisputePool config m.before) : ∀ th ∈ m.after.threads, ∀ d,
      Answered th.log (.saveDispute d) () → ∃ stored,
        m.after.store.disputes.get? d.id = some stored ∧ d.status.rank ≤ stored.status.rank := by
  intro th hth d hsave
  obtain ⟨u, hu, -, hold⟩ | ⟨i, c, u, op, k, -, -, -, -, hev, hstore⟩ :=
    mem_log_step hstep hth hsave
  · obtain ⟨stored, hstored, hrank⟩ := hP.saved u hu d hold
    obtain ⟨stored', hstored', hrank'⟩ := rank_move hstep hok hP hstored
    exact ⟨stored', hstored', by omega⟩
  · rw [hstore]
    exact ⟨d, stored_of_saveDispute hev, Nat.le_refl _⟩

/-! ### Decisions -/

/-- A decision that was recorded stays recorded. -/
theorem Records.extend {P P' : OpsPool} (hext : P.Extends P') {id : String}
    (h : ∃ th ∈ P.threads, Records id th) : ∃ th ∈ P'.threads, Records id th := by
  obtain ⟨th, hth, ev, hev, hrec⟩ := h
  obtain ⟨th', hth', -, hlog⟩ := hext th hth
  exact ⟨th', hth', ev, hlog.subset hev, hrec⟩

/-- A decision on turn is the first one for its dispute. -/
theorem saveDecision_first (hP : DisputePool config P) {record : CaseDecision}
    (hjust : DecisionWrite th.req th.log record)
    (hcur : Current P.store th.log record.disputeId)
    (hturn : ∀ u ∈ P.threads, Records record.disputeId u → StoredAs record.disputeId .decided u) :
    ∀ r ∈ P.store.decisions.rows, r.disputeId ≠ record.disputeId := by
  intro r hr hsame
  obtain ⟨auth, id, body, d, hreq, hget, hstatus, hid, -, -⟩ := hjust
  obtain ⟨stored, hstored, hcopy⟩ := hcur d (.byId id hget) hid.symm
  have hrank : stored.status.rank = 0 := by
    rw [hcopy]
    exact awaitsDecision_iff_rank.mp hstatus
  -- Whoever recorded `r` has moved the dispute on.
  rcases hP.recorded r hr with ⟨u, hu, hrec⟩ | hpast
  · rw [hsame] at hrec
    obtain ⟨d', hid', hdecided, hsave⟩ := hturn u hu hrec
    obtain ⟨stored', hstored', hle⟩ := hP.saved u hu d' hsave
    rw [hid', hstored, Option.some.injEq] at hstored'
    rw [hdecided, ← hstored', hrank] at hle
    exact nomatch hle
  · rw [hsame] at hpast
    have hle := hpast stored hstored
    omega

/-- Every decision belongs to a request that has recorded it. -/
theorem recorded_after {m : Move OpsPool (Act Request Choice)}
    (hstep : opsPoolStep config m.before m.label = some m.after) (hok : DisputeStep m)
    (hP : DisputePool config m.before) : ∀ r ∈ m.after.store.decisions.rows,
      (∃ th ∈ m.after.threads, Records r.disputeId th) ∨
      ∀ stored, m.after.store.disputes.get? r.disputeId = some stored →
        1 ≤ stored.status.rank := by
  intro r hr
  -- an older decision: its dispute has been decided, and the status never falls behind
  have hold : r ∈ m.before.store.decisions.rows →
      (∃ th ∈ m.after.threads, Records r.disputeId th) ∨
      ∀ stored, m.after.store.disputes.get? r.disputeId = some stored →
        1 ≤ stored.status.rank := by
    intro hmem
    rcases hP.recorded r hmem with hrec | hpast
    · exact .inl (Records.extend (poolStep_extends hstep) hrec)
    · right
      intro stored hstored
      obtain ⟨-, hnone⟩ | ⟨d, d', hd, hd', hchange⟩ := dispute_move hstep hok hP r.disputeId
      · rw [hstored] at hnone
        exact nomatch hnone
      · rw [hstored, Option.some.injEq] at hd'
        subst hd'
        have hle := hpast d hd
        rcases hchange with hsame | hedge
        · rw [hsame]
          exact hle
        · exact hle.trans hedge.rank_le
  obtain ⟨P, a, P'⟩ := m
  dsimp only at hstep hr hold ⊢
  obtain ⟨req, rfl, rfl⟩ | ⟨i, c, th, op, k, rfl, hth, hprog, -, rfl⟩ := poolStep_cases hstep
  · exact hold hr
  · rcases (framed_serve op c P.store).decisions with hsame | ⟨x, rfl, hset⟩
    · exact hold (hsame ▸ hr)
    · have hmem : r ∈ (P.store.decisions.set x).rows := hset ▸ hr
      rcases Table.mem_rows_set.mp hmem with rfl | hmem
      · -- a new decision: its request is among those that recorded one
        have hi : i < P.threads.length := (List.getElem?_eq_some_iff.mp hth).1
        exact .inl ⟨_, List.mem_set hi _, _, List.mem_cons_self, r, rfl, rfl⟩
      · exact hold hmem.1

/-- No dispute has two decisions. -/
theorem decisions_after {m : Move OpsPool (Act Request Choice)}
    (hstep : opsPoolStep config m.before m.label = some m.after) (hok : DisputeStep m)
    (hP : DisputePool config m.before) : OneDecision m.after.store := by
  obtain ⟨P, a, P'⟩ := m
  dsimp only at hstep hP ⊢
  obtain ⟨req, rfl, rfl⟩ | ⟨i, c, th, op, k, rfl, hth, hprog, -, rfl⟩ := poolStep_cases hstep
  · exact hP.decisions
  · have hmem : th ∈ P.threads := List.mem_of_getElem? hth
    have hev := stepEvent_advance (W := world) (c := c) hth hprog
    rcases (framed_serve op c P.store).decisions with hsame | ⟨x, rfl, hset⟩
    · intro r hr r' hr'
      exact hP.decisions r (hsame ▸ hr) r' (hsame ▸ hr')
    · obtain ⟨hcur, hturn⟩ := hok.onTurn.decide _ _ _ x hev rfl
      -- on its turn, a request records the first decision of its dispute
      have hfirst := saveDecision_first hP ((hP.base.safe th hmem).ok_of_await hprog) hcur hturn
      intro r hr r' hr' heq
      have hr : r ∈ (P.store.decisions.set x).rows := hset ▸ hr
      have hr' : r' ∈ (P.store.decisions.set x).rows := hset ▸ hr'
      rcases Table.mem_rows_set.mp hr with rfl | ⟨hold, -⟩ <;>
        rcases Table.mem_rows_set.mp hr' with rfl | ⟨hold', -⟩
      · rfl
      · exact absurd heq.symm (hfirst r' hold')
      · exact absurd heq (hfirst r hold)
      · exact hP.decisions r hold r' hold' heq

/-! ### Executions -/

/-- An execution request that stores `execution_pending` has read a decided copy. -/
theorem DisputeWrite.pending_source {req : Request} {l : OpsLog} {d : DisputeCase} {id : String}
    (hw : DisputeWrite config req l d) (hreq : req.executes id = true)
    (hstatus : d.status = .executionPending) :
    ∃ copy, copy.id = d.id ∧ ReadDispute l copy ∧ copy.status = .decided := by
  -- only the execution writes this status; each other write has one of its own
  cases hw with
  | filed d auth body hreq' hid hfiled =>
    rw [hfiled] at hstatus
    exact nomatch hstatus
  | reviewStarted auth id next d t deadline hreq' hget hfiled => exact nomatch hstatus
  | refiled auth id next d t hreq' hget hreview => exact nomatch hstatus
  | escalated d t hreq' hread =>
    cases req <;> simp_all [Request.executes, Request.escalates]
  | decided auth id body d record t hreq' hget hawaits hrec hdispute => exact nomatch hstatus
  | pending d body chosen row t hx hrow hhash hlink =>
    obtain ⟨auth, id, -, hget⟩ := hx.isExecution
    exact ⟨d, rfl, .byId id hget, hx.decided⟩
  -- a resolution ends the execution
  | resolved id d row t hget hpending hrow hres =>
    have hresult : executionResult row.outcomeClass = .executionPending := hstatus
    unfold executionResult at hresult
    split at hresult <;> exact nomatch hresult

/-- While a copy that is current says `decided`, no request has stored a later status. -/
theorem not_storedAs_of_current (hP : DisputePool config P) {id : String} {copy : DisputeCase}
    (hcur : Current P.store th.log id) (hread : ReadDispute th.log copy) (hid : copy.id = id)
    (hdecided : copy.status = .decided) : ∀ u ∈ P.threads, ¬ StoredAs id .executionPending u := by
  rintro u hu ⟨d, hd, hpending, hsave⟩
  obtain ⟨stored, hstored, hcopy⟩ := hcur copy hread hid
  obtain ⟨stored', hstored', hle⟩ := hP.saved u hu d hsave
  rw [hd, hstored, Option.some.injEq] at hstored'
  rw [hpending, ← hstored', hcopy, hdecided] at hle
  exact absurd hle (by decide)

/-- A dispute is decided with its decision. -/
theorem accepted_after {m : Move OpsPool (Act Request Choice)}
    (hstep : opsPoolStep config m.before m.label = some m.after) (hok : DisputeStep m)
    (hP : DisputePool config m.before) (id : String) :
    AtMostOne (Accepts id) m.after.threads := by
  obtain ⟨P, a, P'⟩ := m
  dsimp only at hstep hP ⊢
  obtain ⟨req, rfl, rfl⟩ | ⟨i, c, th, op, k, rfl, hth, hprog, -, rfl⟩ := poolStep_cases hstep
  · refine (hP.accepted id).append ?_
    rintro ⟨-, d, -, -, hsave⟩
    exact nomatch hsave
  -- a thread moves; the others have accepted what they had
  · have hmem : th ∈ P.threads := List.mem_of_getElem? hth
    have hev := stepEvent_advance (W := world) (c := c) hth hprog
    have hjust : justified config th.req th.log op := (hP.base.safe th hmem).ok_of_await hprog
    refine (hP.accepted id).set hth ?_
    rintro ⟨hreq, d, hid, hpending, hsave⟩
    rcases List.mem_cons.mp hsave with heq | hold
    · -- The request is being accepted now: its copy says `decided` and is current.
      right
      have hop : op = .saveDispute d := (congrArg Event.op heq).symm
      subst hop
      subst hid
      have hcur := hok.onTurn.save _ _ _ d hev rfl
      obtain ⟨copy, hcopy, hread, hdecided⟩ :=
        DisputeWrite.pending_source hjust hreq hpending
      intro u hu hacc
      exact not_storedAs_of_current hP hcur hread hcopy hdecided u hu hacc.2
    -- it was accepted before
    · exact .inl ⟨hreq, d, hid, hpending, hold⟩

/-- A submission on turn is the first one for its dispute, and the first of its request. -/
theorem submit_first (hP : DisputePool config P) (hth : th ∈ P.threads) {id : String}
    {tx : EscrowExecutionTx} (hjust : SubmitWrite th.req th.log tx)
    (hreq : th.req.executes id = true) (hcur : Current P.store th.log id)
    (hturn : ∀ u ∈ P.threads, Submits id u → StoredAs id .executionPending u) :
    ∀ u ∈ P.threads, ¬ Submits id u := by
  intro u hu hsub
  obtain ⟨auth, id', body, d, hreq', hget, hdecided, -, -⟩ := hjust
  have hid : id' = id := by
    rw [hreq'] at hreq
    simpa [Request.executes] using hreq
  subst hid
  have hkey : d.id = id' := (hP.base.keyed th hth _ hget).2.1 id' d rfl
  exact not_storedAs_of_current hP hcur (.byId id' hget) hkey hdecided u hu (hturn u hu hsub)

/-- An execution is submitted for a decided dispute. -/
theorem submitted_after {m : Move OpsPool (Act Request Choice)}
    (hstep : opsPoolStep config m.before m.label = some m.after) (hok : DisputeStep m)
    (hP : DisputePool config m.before) (id : String) :
    AtMostOne (Submits id) m.after.threads := by
  obtain ⟨P, a, P'⟩ := m
  dsimp only at hstep hP ⊢
  obtain ⟨req, rfl, rfl⟩ | ⟨i, c, th, op, k, rfl, hth, hprog, -, rfl⟩ := poolStep_cases hstep
  · refine (hP.submitted id).append ?_
    rintro ⟨-, ev, hev, -⟩
    exact nomatch hev
  · have hmem : th ∈ P.threads := List.mem_of_getElem? hth
    have hev := stepEvent_advance (W := world) (c := c) hth hprog
    have hjust : justified config th.req th.log op := (hP.base.safe th hmem).ok_of_await hprog
    refine (hP.submitted id).set hth ?_
    rintro ⟨hreq, ev, hmem', hsub⟩
    rcases List.mem_cons.mp hmem' with rfl | hold
    -- the submission is this call, for a dispute that is read as decided, in its turn
    · right
      obtain ⟨hcur, hturn⟩ := hok.onTurn.submit _ _ _ id hev hsub hreq
      cases op with
      | submitAndWaitFromWallet tx => exact submit_first hP hmem hjust hreq hcur hturn
      | _ => exact nomatch hsub
    · exact .inl ⟨hreq, ev, hold, hsub⟩

/-- And for one that its request has read. -/
theorem submits_after {m : Move OpsPool (Act Request Choice)}
    (hstep : opsPoolStep config m.before m.label = some m.after)
    (hP : DisputePool config m.before) :
    ∀ th ∈ m.after.threads, th.log.countP (fun ev => ev.op.isSubmit) ≤ 1 := by
  obtain ⟨P, a, P'⟩ := m
  dsimp only at hstep hP ⊢
  intro u hu
  obtain ⟨req, rfl, rfl⟩ | ⟨i, c, th, op, k, rfl, hth, hprog, -, rfl⟩ := poolStep_cases hstep
  · rcases mem_started hu with hu | hnil
    · exact hP.submits u hu
    · rw [hnil]
      exact Nat.zero_le 1
  · rcases mem_set_resume hu with rfl | hu
    · have hmem : th ∈ P.threads := List.mem_of_getElem? hth
      have hold := hP.submits th hmem
      show List.countP _ (⟨op, _⟩ :: th.log) ≤ 1
      rw [List.countP_cons]
      by_cases hsub : op.isSubmit = true
      · rw [if_pos hsub]
        have hjust : justified config th.req th.log op := (hP.base.safe th hmem).ok_of_await hprog
        cases op with
        | submitAndWaitFromWallet tx =>
          obtain ⟨-, -, -, -, -, -, -, -, huntouched⟩ := hjust
          -- a request that submits has made no exclusive call before
          have hzero : th.log.countP (fun ev => ev.op.isSubmit) = 0 := by
            rw [List.countP_eq_zero]
            intro ev hev hsub'
            have hno := huntouched ev hev
            cases hop : ev.op <;> simp_all [Call.isSubmit, Call.isExclusive]
          omega
        | _ => exact nomatch hsub
      · rw [if_neg hsub]
        exact hold
    · exact hP.submits u hu

end Move

/-! ## Runs -/

/-- Every step keeps the invariant of the pool. -/
theorem disputePool_step (m : Move OpsPool (Act Request Choice))
    (hstep : opsPoolStep config m.before m.label = some m.after) (hok : DisputeStep m)
    (hP : DisputePool config m.before) : DisputePool config m.after where
  base := rowsGood_step (fun _ _ _ _ _ => trivial) (fun _ _ _ _ _ _ _ _ _ => trivial) m hstep
    ⟨hok.request, fun _ _ _ _ => trivial⟩ hP.base
  saved := saved_after hstep hok hP
  recorded := recorded_after hstep hok hP
  decisions := decisions_after hstep hok hP
  accepted := accepted_after hstep hok hP
  submitted := submitted_after hstep hok hP
  submits := submits_after hstep hP

/-- The start of a run: at most one decision for each dispute, and none for a dispute that
    awaits one. -/
structure Store.DecisionsSettled (s : Store) : Prop where
  one : OneDecision s
  past : ∀ r ∈ s.decisions.rows, ∀ d, s.disputes.get? r.disputeId = some d →
    d.status.awaitsDecision = false

/-- A settled store keeps it at the start. -/
theorem disputePool_start {s₀ : Store} (h₀ : s₀.DecisionsSettled) :
    DisputePool config ⟨s₀, []⟩ where
  base := by
    refine ⟨fun _ _ => trivial, ?_, ?_, ?_, ?_, ?_⟩ <;> intro th hth <;> exact nomatch hth
  saved := fun _ h => nomatch h
  recorded := by
    intro r hr
    right
    -- a decision of the start is past for its dispute
    intro stored hstored
    have hpast := h₀.past r hr stored hstored
    rw [Nat.one_le_iff_ne_zero]
    intro hzero
    rw [awaitsDecision_iff_rank.mpr hzero] at hpast
    exact nomatch hpast
  decisions := h₀.one
  accepted := fun _ => atMostOne_nil _
  submitted := fun _ => atMostOne_nil _
  submits := fun _ h => nomatch h

/-- In every interleaving of requests (filing apart) whose steps are on turn, with any calls
    failing: at most one decision record for each dispute, at most one accepted execution
    request, at most one submission, every change of a stored status an edge of the life
    cycle, and `executed` and `rejected` never left. -/
theorem dispute_lifecycle {s₀ : Store} {P : OpsPool}
    {ms : List (Move OpsPool (Act Request Choice))} (h₀ : s₀.DecisionsSettled)
    (run : Run (opsPoolStep config) ⟨s₀, []⟩ ms P)
    (hreq : ∀ m ∈ ms, ∀ req, m.label = .spawn req → req.filesDispute = false)
    (hturn : ∀ m ∈ ms, OnTurn m) :
    OneDecision P.store ∧
    (∀ id, AtMostOne (Accepts id) P.threads) ∧
    (∀ id, AtMostOne (Submits id) P.threads) ∧
    (∀ th ∈ P.threads, th.log.countP (fun ev => ev.op.isSubmit) ≤ 1) ∧
    ∀ m ∈ ms, ∀ id d, m.before.store.disputes.get? id = some d →
      ∃ d', m.after.store.disputes.get? id = some d' ∧
        (d'.status = d.status ∨ DisputeEdge d.status d'.status) ∧
        (d.status = .executed ∨ d.status = .rejected → d'.status = d.status) := by
  have hok : ∀ m ∈ ms, DisputeStep m := fun m hm => ⟨hreq m hm, hturn m hm⟩
  have hstart : DisputePool config ⟨s₀, []⟩ := disputePool_start h₀
  have hend : DisputePool config P := run.invariant hok hstart disputePool_step
  -- the invariant of the pool gives the claims about its end
  refine ⟨hend.decisions, hend.accepted, hend.submitted, hend.submits, ?_⟩
  -- and each move starts from a pool with the invariant
  intro m hm id d hd
  have hP : DisputePool config m.before := run.invariant_before hok hstart disputePool_step hm
  obtain ⟨hnone, -⟩ | ⟨e, d', he, hd', hchange⟩ :=
    dispute_move (run.step_of_mem hm) (hok m hm) hP id
  · rw [hd] at hnone
    exact nomatch hnone
  · rw [hd, Option.some.injEq] at he
    subst he
    refine ⟨d', hd', hchange, fun hended => ?_⟩
    rcases hchange with hsame | hedge
    · exact hsame
    · -- no edge leaves an ended dispute
      obtain ⟨hx, hr⟩ := hedge.not_ended
      rcases hended with h | h
      · exact absurd h hx
      · exact absurd h hr

/-! ## Concrete runs -/

/-- The copy has the status stored for the dispute `id`, if it is a copy of it. -/
def currentCopy (s : Store) (id : String) (copy : DisputeCase) : Bool :=
  copy.id != id || (s.disputes.get? id).any fun stored => decide (stored.status = copy.status)

/-- A decidable form of `Current`. -/
def currentCheck (s : Store) (l : OpsLog) (id : String) : Bool :=
  l.all fun
    | ⟨.getDispute _, .ok (some copy)⟩ => currentCopy s id copy
    | ⟨.listDisputesPage _ _ _, .ok items⟩ => items.all (currentCopy s id)
    | _ => true

/-- Whether a reading is current can be computed. -/
theorem current_of_check {s : Store} {l : OpsLog} {id : String}
    (h : currentCheck s l id = true) : Current s l id := by
  intro copy hread hid
  have hall := List.all_eq_true.mp h
  have hcopy : currentCopy s id copy = true := by
    cases hread with
    | byId id' hget => exact hall _ hget
    | listed status limit offset items hlist hmem =>
      exact List.all_eq_true.mp (hall _ hlist) copy hmem
  unfold currentCopy at hcopy
  simp only [hid, bne_self_eq_false, Bool.false_or, Option.any_eq_true, decide_eq_true_eq] at hcopy
  exact hcopy

/-- A decidable form of `StoredAs`. -/
def storedAsCheck (id : String) (status : DisputeStatus) (th : OpsThread) : Bool :=
  th.log.any fun
    | ⟨.saveDispute d, .ok _⟩ => decide (d.id = id ∧ d.status = status)
    | _ => false

/-- So can the status that a request stores. -/
theorem storedAs_of_check {id : String} {status : DisputeStatus} {th : OpsThread}
    (h : storedAsCheck id status th = true) : StoredAs id status th := by
  obtain ⟨ev, hev, hcheck⟩ := List.any_eq_true.mp h
  split at hcheck
  · rename_i d r
    obtain ⟨hid, hstatus⟩ := of_decide_eq_true hcheck
    exact ⟨d, hid, hstatus, hev⟩
  · exact nomatch hcheck

/-- The call sends a decision for the dispute `id`. -/
def Call.records (id : String) : Call → Bool
  | .saveDecision record => record.disputeId = id
  | _ => false

/-- A decidable form of `OnTurn`. -/
def onTurnCheck (m : Move OpsPool (Act Request Choice)) : Bool :=
  match stepEvent world m.before m.label with
  | some (_, l, ⟨.saveDispute d, _⟩) => currentCheck m.before.store l d.id
  | some (_, l, ⟨.saveDecision record, _⟩) =>
    currentCheck m.before.store l record.disputeId && m.before.threads.all fun th =>
      th.log.all (fun ev => !ev.op.records record.disputeId) ||
        storedAsCheck record.disputeId .decided th
  | some (_, _, ⟨.submitAndWaitFromWallet _, _⟩) => false
  | _ => true

/-- And whether a move is in its turn. -/
theorem onTurn_of_check {m : Move OpsPool (Act Request Choice)} (h : onTurnCheck m = true) :
    OnTurn m := by
  unfold onTurnCheck at h
  refine ⟨?_, ?_, ?_⟩
  -- the copy that is saved is current
  · rintro req l ⟨op, res⟩ d hev rfl
    rw [hev] at h
    exact current_of_check h
  -- a decision is recorded while its dispute is current, and by one thread only
  · rintro req l ⟨op, res⟩ record hev rfl
    rw [hev] at h
    simp only [Bool.and_eq_true, List.all_eq_true] at h
    refine ⟨current_of_check h.1, fun th hth hrec => ?_⟩
    have hone := h.2 th hth
    rw [Bool.or_eq_true] at hone
    rcases hone with hnone | hstored
    · obtain ⟨ev, hmem, r, hop, hid⟩ := hrec
      have hno := List.all_eq_true.mp hnone ev hmem
      rw [hop] at hno
      simp [Call.records, hid] at hno
    · exact storedAs_of_check hstored
  -- a check that refuses every submission accepts none
  · rintro req l ⟨op, res⟩ id hev hsub hreq
    cases op with
    | submitAndWaitFromWallet tx => rw [hev] at h; exact nomatch h
    | _ => exact nomatch hsub

/-- A decision for `dsp_1`. -/
def decideFinish : Request :=
  .decision none "dsp_1" (sampleDecision .finishToTenant)

/-- An execution request for `dsp_1` at 64 times the digit `c`. -/
def executeAt (c : Char) (hc : (sampleHash c).toList.length = 64 ∧
    (sampleHash c).toList.all isHexDigit = true) : Request :=
  .execution none "dsp_1" (sampleExecution .escrowFinish (sampleHash c) hc)

/-- The validated, successful answer for the hash of `executeAt c`. -/
def finishedAt (c : Char) : LiveTxStatus where
  txHash := sampleHash c
  validated := true
  ledgerIndex := some 100
  resultCode := some "tesSUCCESS"
  transactionType := some "EscrowFinish"

/-- The store with one dispute `dsp_1`. -/
def disputeStore (status : DisputeStatus) : Store :=
  sampleStore [sampleDispute "dsp_1" status]

/-- The sample store is settled. -/
theorem disputeStore_settled (status : DisputeStatus) :
    (disputeStore status).DecisionsSettled :=
  ⟨(fun _ h => nomatch h), (fun _ h => nomatch h)⟩

/-- A dispute that is decided, executed and resolved one request after the other. -/
theorem dispute_lifecycle_executed :
    ∃ ms P, Run (opsPoolStep sampleConfig) ⟨disputeStore .filed, []⟩ ms P ∧
      (∃ d ∈ P.store.disputes.rows, d.status = .executed) ∧
      (∃ r ∈ P.store.decisions.rows, r.disputeId = "dsp_1") ∧ OneDecision P.store ∧
      AtMostOne (Accepts "dsp_1") P.threads := by
  obtain ⟨ms, P, run, hp⟩ := exists_run_of_replay
    (scheduleActs world (handle sampleConfig)
      [.start decideFinish, .run 0 30 (sampleOracle "1" 0 none),
        .start (executeAt 'A' (by decide +kernel)), .run 1 60 (sampleOracle "2" 0 none),
        .start (.refresh none (sampleHash 'A')),
        .run 2 60 (sampleOracle "3" 0 (some (finishedAt 'A')))] ⟨disputeStore .filed, []⟩)
    (fun r => (r.1.all onTurnCheck) && (r.1.all (spawnCheck fun req => !req.filesDispute)) &&
      (r.2.store.disputes.rows.any fun d => decide (d.status = .executed)) &&
      r.2.store.decisions.rows.any fun r => decide (r.disputeId = "dsp_1"))
    (by decide +kernel :
      (replay (opsPoolStep sampleConfig) ⟨disputeStore .filed, []⟩ _ []).any _ = true)
  simp only [Bool.and_eq_true, List.all_eq_true, List.any_eq_true, decide_eq_true_eq] at hp
  obtain ⟨⟨⟨hturn, hspawn⟩, hexecuted⟩, hdecided⟩ := hp
  have hfiles : ∀ m ∈ ms, ∀ req, m.label = .spawn req → req.filesDispute = false := by
    intro m hm req hreq
    simpa using spawn_of_check (hspawn m hm) req hreq
  obtain ⟨hone, haccepted, -⟩ := dispute_lifecycle (disputeStore_settled .filed) run hfiles
    (fun m hm => onTurn_of_check (hturn m hm))
  exact ⟨ms, P, run, hexecuted, hdecided, hone, haccepted "dsp_1"⟩

/-- The move takes the dispute `dsp_1` from status `s` to status `t`. -/
def MovesDispute (s t : DisputeStatus) (m : Move OpsPool (Act Request Choice)) : Prop :=
  ((m.before.store.disputes.get? "dsp_1").map DisputeCase.status) = some s ∧
    ((m.after.store.disputes.get? "dsp_1").map DisputeCase.status) = some t

instance (s t : DisputeStatus) (m : Move OpsPool (Act Request Choice)) :
    Decidable (MovesDispute s t m) :=
  inferInstanceAs (Decidable (_ ∧ _))

/-- The thread is an execution request for `dsp_1` that was accepted. -/
def acceptsCheck (th : OpsThread) : Bool :=
  th.req.executes "dsp_1" && storedAsCheck "dsp_1" .executionPending th

/-- Three interleavings on one dispute: two requests record a decision each; two execution
    requests are accepted; an escalation brings an executed dispute back. -/
theorem dispute_written_twice :
    (∃ ms P, Run (opsPoolStep sampleConfig) ⟨disputeStore .filed, []⟩ ms P ∧
      ¬ OneDecision P.store) ∧
    (∃ ms P, Run (opsPoolStep sampleConfig) ⟨disputeStore .decided, []⟩ ms P ∧
      ¬ AtMostOne (Accepts "dsp_1") P.threads) ∧
    ∃ ms P, Run (opsPoolStep sampleConfig) ⟨disputeStore .decided, []⟩ ms P ∧
      ∃ m ∈ ms, MovesDispute .executed .executionPending m := by
  refine ⟨?_, ?_, ?_⟩
  · -- the second decision is made between the look-up and the write of the first
    obtain ⟨ms, P, run, hp⟩ := exists_run_of_replay
      (scheduleActs world (handle sampleConfig)
        [.start decideFinish, .run 0 2 (sampleOracle "1" 0 none),
          .start decideFinish, .run 1 30 (sampleOracle "2" 0 none),
          .run 0 30 (sampleOracle "1" 0 none)] ⟨disputeStore .filed, []⟩)
      (fun r => r.2.store.decisions.rows.any fun d => r.2.store.decisions.rows.any fun d' =>
        decide (d.disputeId = d'.disputeId ∧ d.id ≠ d'.id))
      (by decide +kernel :
        (replay (opsPoolStep sampleConfig) ⟨disputeStore .filed, []⟩ _ []).any _ = true)
    simp only [List.any_eq_true, decide_eq_true_eq] at hp
    obtain ⟨d, hd, d', hd', hsame, hne⟩ := hp
    exact ⟨ms, P, run, fun hone => hne (congrArg CaseDecision.id (hone d hd d' hd' hsame))⟩
  · -- both executions have read the dispute before one of them writes it
    obtain ⟨ms, P, run, hp⟩ := exists_run_of_replay
      (scheduleActs world (handle sampleConfig)
        [.start (executeAt 'A' (by decide +kernel)), .run 0 2 (sampleOracle "1" 0 none),
          .start (executeAt 'B' (by decide +kernel)), .run 1 60 (sampleOracle "2" 0 none),
          .run 0 60 (sampleOracle "1" 0 none)] ⟨disputeStore .decided, []⟩)
      (fun r => r.2.threads[0]?.any acceptsCheck && r.2.threads[1]?.any acceptsCheck)
      (by decide +kernel :
        (replay (opsPoolStep sampleConfig) ⟨disputeStore .decided, []⟩ _ []).any _ = true)
    simp only [Bool.and_eq_true, Option.any_eq_true, acceptsCheck] at hp
    obtain ⟨⟨th, hth, hreq, hstored⟩, u, hu, hreq', hstored'⟩ := hp
    refine ⟨ms, P, run, fun hone => ?_⟩
    have heq := hone 0 1 th u hth hu ⟨hreq, storedAs_of_check hstored⟩
      ⟨hreq', storedAs_of_check hstored'⟩
    exact nomatch heq
  · -- the escalation writes back the dispute it has read before the execution was confirmed
    obtain ⟨ms, P, run, hp⟩ := exists_run_of_replay
      (scheduleActs world (handle sampleConfig)
        [.start (executeAt 'A' (by decide +kernel)), .run 0 60 (sampleOracle "1" 0 none),
          .start (.escalate none "dsp_1"), .run 1 2 (sampleOracle "2" 0 none),
          .start (.refresh none (sampleHash 'A')),
          .run 2 60 (sampleOracle "3" 0 (some (finishedAt 'A'))),
          .run 1 30 (sampleOracle "2" 0 none)] ⟨disputeStore .decided, []⟩)
      (fun r => r.1.any fun m => decide (MovesDispute .executed .executionPending m))
      (by decide +kernel :
        (replay (opsPoolStep sampleConfig) ⟨disputeStore .decided, []⟩ _ []).any _ = true)
    simp only [List.any_eq_true, decide_eq_true_eq] at hp
    exact ⟨ms, P, run, hp⟩

end Bluesafe.Ops
