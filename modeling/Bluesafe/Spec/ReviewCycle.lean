import Bluesafe.Spec.RowInvariant
import Bluesafe.Async.Monitored

/-!
# The review cycle of a dispute

`reviewDeadlineAt` and `escalatedAt` belong to one review: the patch to `under_review` sets the
deadline, the patch back to `filed` clears both, and the scan escalates what is under review.
The escalation by hand is the exception. It looks at no status, so a filed dispute can be
escalated, and its next review starts escalated, which keeps the scan from escalating it
(`filed_dispute_escalated`). Requests are handled one after the other; as long as none of them
escalates a filed dispute, the columns follow the review (`review_cycle_runs`).
-/

namespace Bluesafe.Ops

open Async Transition

/-- The columns of a dispute fit its status. -/
structure DisputeCase.ReviewOk (d : DisputeCase) : Prop where
  filed : d.status = .filed → d.reviewDeadlineAt = none ∧ d.escalatedAt = none
  review : d.status = .underReview → d.reviewDeadlineAt ≠ none

/-- A dispute while a request is handled that started in `s`: it has the status it had, it is
    not escalated when its review starts, or it is past its review. A request that escalates
    starts no review. -/
def Evolved (req : Request) (s : Store) (d : DisputeCase) : Prop :=
  (∃ d₀, s.disputes.get? d.id = some d₀ ∧ d₀.status = d.status) ∨
  (req.escalates = false ∧ (d.status = .underReview → d.escalatedAt = none)) ∨
  (d.status ≠ .filed ∧ d.status ≠ .underReview)

/-! ## What the requests write -/

/-- The escalation by hand passes the guards of its route. -/
def escalateAdmitted (config : Config) (auth : Option BluesafeAuth) : Bool :=
  (blockAuditorWriteOperations config auth).isNone && (requireRoles config [.operator] auth).isNone

/-- What is not in `DisputeWrite`: the columns of a new dispute, and the disputes that are
    escalated. -/
def reviewWrite (config : Config) (req : Request) (l : OpsLog) : Call → Prop
  | .saveDispute d =>
    match req with
    | .fileDispute _ _ => d.reviewDeadlineAt = none ∧ d.escalatedAt = none
    | .escalate auth id => escalateAdmitted config auth = true ∧
      ∃ d₀ t, Answered l (.getDispute id) (some d₀) ∧ d = d₀.escalated t
    | .reviewSlaScan _ => ∃ limit offset items d₀ t,
      Answered l (.listDisputesPage .underReview limit offset) items ∧ d₀ ∈ items ∧ d = d₀.escalated t
    | _ => True
  | _ => True

section Handlers

variable {config : Config} {req : Request} {l : OpsLog}

/-- Quiet calls write no dispute. -/
theorem quiet_reviewWrite : Quiet (reviewWrite config req) := by
  intro l op hop
  cases op <;> trivial

/-- A dispute that is filed is new. -/
theorem fileDispute_review (auth : Option BluesafeAuth) (body : CreateDisputeBody) :
    Safe (I := calls) (reviewWrite config (.fileDispute auth body)) (fileDispute config auth body) l := by
  have hq : Quiet (reviewWrite config (.fileDispute auth body)) := quiet_reviewWrite
  unfold fileDispute
  -- the contract must be there and accessible
  refine writeRoute_guarded fun _ _ => Gives.call_then trivial fun contract l₁ _ => ?_
  cases contract with
  | none => exact Gives.pure trivial
  | some c =>
    dsimp only
    split
    -- the evidence it names is checked before anything is stored
    · refine Gives.bind (hq.checkEvidences _ _) fun refused l₂ _ _ => ?_
      cases refused with
      | some reply => exact Gives.pure trivial
      | none =>
        unfold storeFiledDispute
        refine Gives.call_then trivial fun id l₃ _ => Gives.call_then trivial fun now l₄ _ => ?_
        -- the dispute that is stored is a new one, and filed
        refine Gives.call_then ⟨rfl, rfl⟩ fun _ l₅ _ => ?_
        refine Gives.bind (hq.writeAudit _ _ _ _ _ _ _) fun _ l₆ _ _ => ?_
        refine Gives.bind (hq.emitEvent _ _ _ _) fun _ l₇ _ _ => ?_
        exact Gives.call_then trivial fun _ l₈ _ => Gives.pure trivial
    · exact Gives.pure trivial

/-- The opening of the handlers of one dispute: the rest runs with the dispute that was read. -/
theorem withDispute_safe {ok : OpsLog → Call → Prop} {auth : Option BluesafeAuth}
    {id forbidden : String} {handler : DisputeCase → OpsM Reply} (hget : ∀ l, ok l (.getDispute id))
    (hcontract : ∀ l contractId, ok l (.getContract contractId))
    (hbody : ∀ d l', Answered l' (.getDispute id) (some d) → Safe (I := calls) ok (handler d) l') :
    Safe (I := calls) ok (withDispute config auth id forbidden handler) l := by
  -- the dispute is read, then the access to its contract
  unfold withDispute canAccessDispute
  refine Gives.call_read (hget l) fun found l₁ _ hread => ?_
  cases found with
  | none => exact Gives.pure trivial
  | some d =>
    refine Gives.bind (R := fun _ l' => Answered l' (.getDispute id) (some d)) ?_
      fun allowed l₂ _ hread₂ => ?_
    · refine Gives.call_then (hcontract l₁ _) fun contract l₂ hl₂ => ?_
      cases contract with
      | none => exact Gives.pure (Answered.mono hread hl₂)
      | some c => exact Gives.pure (Answered.mono hread hl₂)
    · split
      · exact hbody d l₂ hread₂
      · exact Gives.pure trivial

/-- An escalation writes a dispute that was read. -/
theorem escalate_review (auth : Option BluesafeAuth) (id : String) :
    Safe (I := calls) (reviewWrite config (.escalate auth id)) (escalate config auth id) l := by
  have hq : Quiet (reviewWrite config (.escalate auth id)) := quiet_reviewWrite
  unfold escalate
  refine writeRoute_guarded fun hauditor hroles => ?_
  have hadmitted : escalateAdmitted config auth = true := by
    simp [escalateAdmitted, hauditor, hroles]
  refine withDispute_safe (fun _ => trivial) (fun _ _ => trivial) fun d l₁ hget => ?_
  -- the dispute that is saved is the one that was read, with the time of the escalation
  refine Gives.call_then trivial fun t l₂ hl₂ => ?_
  refine Gives.call_then ⟨hadmitted, d, t, hget.mono hl₂, rfl⟩ fun _ l₃ _ => ?_
  refine Gives.bind (hq.writeAudit _ _ _ _ _ _ _) fun _ l₄ _ _ => ?_
  refine Gives.bind (hq.emitEvent _ _ _ _) fun _ l₅ _ _ => ?_
  exact Gives.bind (hq.notifyParties _ _ _) fun _ l₆ _ _ => Gives.pure trivial

/-- So does the scan. -/
theorem scanDispute_review {auth : Option BluesafeAuth} {limit offset : Nat} {items : List DisputeCase}
    {d : DisputeCase} (hlist : Answered l (.listDisputesPage .underReview limit offset) items)
    (hd : d ∈ items) (nowMs : Time) (n : SlaCounters) :
    Safe (I := calls) (reviewWrite config (.reviewSlaScan auth)) (scanDispute config nowMs n d) l := by
  have hq : Quiet (reviewWrite config (.reviewSlaScan auth)) := quiet_reviewWrite
  unfold scanDispute
  -- a dispute that is over, one that is in time, and one that is late
  split
  · exact Gives.pure trivial
  · split
    · exact Gives.pure trivial
    · split
      · split
        · refine Gives.bind (R := fun _ _ => True) ?_ fun _ _ _ _ => Gives.pure trivial
          -- only the late one is escalated, as it was listed
          unfold autoEscalate
          refine Gives.call_then trivial fun t l₁ hl₁ => ?_
          refine Gives.call_then ⟨limit, offset, items, d, t, hlist.mono hl₁, hd, rfl⟩ fun _ l₂ _ => ?_
          refine Gives.bind (hq.writeAudit _ _ _ _ _ _ _) fun _ l₃ _ _ => ?_
          exact Gives.bind (hq.emitEvent _ _ _ _) fun _ l₄ _ _ => hq.notifyParties _ _ _
        · exact Gives.pure trivial
      -- a warning writes no dispute
      · refine Gives.bind (R := fun _ _ => True) ?_ fun _ _ _ _ => Gives.pure trivial
        exact Gives.bind (hq.emitEvent _ _ _ _) fun _ l₁ _ _ => hq.notifyParties _ _ _

/-- For every dispute of its page. -/
theorem reviewSlaScan_review (auth : Option BluesafeAuth) :
    Safe (I := calls) (reviewWrite config (.reviewSlaScan auth)) (reviewSlaScan config auth) l := by
  unfold reviewSlaScan
  refine writeRoute_guarded fun _ _ => Gives.call_then trivial fun nowMs l₁ _ => ?_
  refine Gives.call_read trivial fun items l₂ _ hlist => ?_
  refine Gives.bind (R := fun _ _ => True) (Gives.foldlM trivial fun n d l₃ hd hl₃ _ => ?_)
    fun n l₃ _ _ => Gives.pure trivial
  exact scanDispute_review (Answered.mono hlist hl₃) hd nowMs n

/-- Every request writes disputes in its own way. -/
theorem handle_review (config : Config) (req : Request) :
    Safe (I := calls) (reviewWrite config req) (handle config req) [] := by
  cases req with
  | fileDispute auth body => exact Gives.map (fileDispute_review auth body)
  | escalate auth id => exact Gives.map (escalate_review auth id)
  | reviewSlaScan auth => exact Gives.map (reviewSlaScan_review auth)
  | _ =>
    refine safe_of_forall (fun l op => ?_) _ _
    cases op <;> trivial

end Handlers

/-! ## Stored and read disputes -/

/-- After the calls `l` the stored disputes and those that were read meet `P`. -/
structure DisputesMeet (P : DisputeCase → Prop) (l : OpsLog) (t : Store) : Prop where
  stored : ∀ d ∈ t.disputes.rows, P d
  read : ∀ d, ReadDispute l d → P d

section DisputesMeet

variable {P : DisputeCase → Prop} {l : OpsLog} {t : Store}

/-- At the start of a request nothing was read. -/
theorem DisputesMeet.start (h : ∀ d ∈ t.disputes.rows, P d) : DisputesMeet P [] t := by
  refine ⟨h, fun d hd => ?_⟩
  cases hd with
  | byId id hget => cases hget
  | listed status limit offset items hlist => cases hlist

/-- A call, where a dispute that it saves meets `P`. -/
theorem DisputesMeet.call (h : DisputesMeet P l t) (op : Call) (c : Choice)
    (hsave : ∀ d, op = .saveDispute d → P d) :
    DisputesMeet P (⟨op, (serve op c t).1⟩ :: l) (serve op c t).2 := by
  have hrow : ∀ d, (serve op c t).2.Has (.dispute d) ∨ Shows ⟨op, (serve op c t).1⟩ (.dispute d) →
      P d := by
    intro d hd
    -- the row was there before, or the call saves it
    have hcases : t.Has (.dispute d) ∨ op.writes = some (.dispute d) := hd.elim has_serve shows_serve
    rcases hcases with hold | hnew
    · exact h.stored d hold
    · cases op with
      | saveDispute d' =>
        cases hnew
        exact hsave _ rfl
      | _ => cases hnew
  refine ⟨fun d hd => hrow d (.inl hd), fun d hd => ?_⟩
  cases hd with
  | byId id hget =>
    rcases List.mem_cons.mp hget with heq | hold
    · exact hrow d (.inr (heq ▸ Shows.getDispute))
    · exact h.read d (.byId id hold)
  | listed status limit offset items hlist hmem =>
    rcases List.mem_cons.mp hlist with heq | hold
    · exact hrow d (.inr (heq ▸ Shows.listDisputesPage hmem))
    · exact h.read d (.listed status limit offset items hold hmem)

end DisputesMeet

/-! ## One request -/

/-- What holds while the request `req` is handled that started in `s`, with the calls `l` so far
    and the store `t`: the disputes that are stored or were read fit. -/
structure Reviewing (req : Request) (s : Store) (l : OpsLog) (t : Store) : Prop where
  stored : ∀ d ∈ t.disputes.rows, d.ReviewOk ∧ Evolved req s d
  read : ∀ d, ReadDispute l d → d.ReviewOk ∧ Evolved req s d
  keyed : ∀ id d, Answered l (.getDispute id) (some d) → d.id = id
  listed : ∀ status limit offset items, Answered l (.listDisputesPage status limit offset) items →
    ∀ d ∈ items, d.status = status

section Step

variable {config : Config} {req : Request} {s t : Store} {l : OpsLog}

/-- The start of a request. -/
theorem Reviewing.start (h : ∀ d ∈ s.disputes.rows, d.ReviewOk) : Reviewing req s [] s := by
  have hmeet : DisputesMeet (fun d => d.ReviewOk ∧ Evolved req s d) [] s :=
    .start fun d hd => ⟨h d hd, .inl ⟨d, Table.get?_of_mem hd, rfl⟩⟩
  refine ⟨hmeet.stored, hmeet.read, ?_, ?_⟩
  · intro id d h
    cases h
  · intro status limit offset items h
    cases h

/-- No admitted escalation by hand of a filed dispute. -/
def SparesFiled (config : Config) (req : Request) (s : Store) : Prop :=
  ∀ auth id d, req = .escalate auth id → escalateAdmitted config auth = true →
    s.disputes.get? id = some d → d.status ≠ .filed

/-- An escalated dispute fits if it is not filed. -/
theorem fits_escalated {d : DisputeCase} (hreq : req.escalates = true)
    (hd : d.ReviewOk ∧ Evolved req s d) (hfiled : d.status ≠ .filed) (time : Time) :
    (d.escalated time).ReviewOk ∧ Evolved req s (d.escalated time) := by
  obtain ⟨hok, hevolved⟩ := hd
  refine ⟨⟨fun h => absurd h hfiled, hok.review⟩, ?_⟩
  rcases hevolved with hsame | ⟨hno, -⟩ | hpast
  · exact .inl hsame
  · rw [hreq] at hno
    cases hno
  · exact .inr (.inr hpast)

/-- A dispute past its review fits. -/
theorem fits_past {d : DisputeCase} (hfiled : d.status ≠ .filed) (hreview : d.status ≠ .underReview) :
    d.ReviewOk ∧ Evolved req s d :=
  ⟨⟨fun h => absurd h hfiled, fun h => absurd h hreview⟩, .inr (.inr ⟨hfiled, hreview⟩)⟩

/-- The result of an execution is past the review. -/
theorem executionResult_past (outcome : Option OutcomeClass) :
    executionResult outcome ≠ .filed ∧ executionResult outcome ≠ .underReview := by
  by_cases h : outcome = some .success
  · simp [executionResult, h]
  · simp [executionResult, h]

/-- Every dispute that is saved fits. -/
theorem fits_write (hspare : SparesFiled config req s) (h : Reviewing req s l t) {d : DisputeCase}
    (hwrite : DisputeWrite config req l d) (hdetail : reviewWrite config req l (.saveDispute d)) :
    d.ReviewOk ∧ Evolved req s d := by
  cases hwrite with
  | filed _ auth body hreq _ hstatus =>
    subst hreq
    obtain ⟨hdeadline, hescalated⟩ := hdetail
    refine ⟨⟨fun _ => ⟨hdeadline, hescalated⟩, fun hreview => ?_⟩, .inr (.inl ⟨rfl, fun _ => hescalated⟩)⟩
    rw [hstatus] at hreview
    cases hreview
  | reviewStarted auth id next old time deadline hreq hget hstatus =>
    -- a filed dispute has no escalation that the review could inherit
    have hold := (h.read old (.byId id hget)).1.filed hstatus
    subst hreq
    refine ⟨⟨fun hfiled => ?_, fun _ => ?_⟩, .inr (.inl ⟨rfl, fun _ => hold.2⟩)⟩
    · cases hfiled
    · simp [DisputeCase.reviewStarted]
  | refiled auth id next old time hreq hget hstatus =>
    subst hreq
    refine ⟨⟨fun _ => ⟨rfl, rfl⟩, fun hreview => ?_⟩, .inr (.inl ⟨rfl, fun _ => rfl⟩)⟩
    cases hreview
  | escalated old time hreq hread =>
    cases req with
    | escalate auth id =>
      obtain ⟨hadmitted, d₀, t₀, hget, heq⟩ := hdetail
      have hfit := h.read d₀ (.byId id hget)
      rw [heq]
      refine fits_escalated rfl hfit ?_ t₀
      -- the dispute is as it was at the start, new (not in this request), or past its review
      rcases hfit.2 with ⟨d₁, hget₁, hstatus⟩ | ⟨hno, -⟩ | hpast
      · rw [h.keyed id d₀ hget] at hget₁
        rw [← hstatus]
        exact hspare auth id d₁ rfl hadmitted hget₁
      · cases hno
      · exact hpast.1
    | reviewSlaScan auth =>
      obtain ⟨limit, offset, items, d₀, t₀, hlist, hmem, heq⟩ := hdetail
      -- the scan lists disputes under review only
      have hreview := h.listed _ _ _ items hlist d₀ hmem
      rw [heq]
      refine fits_escalated rfl (h.read d₀ (.listed _ _ _ items hlist hmem)) ?_ t₀
      rw [hreview]
      decide
    | _ => cases hreq
  | decided auth id body old record time => exact fits_past (fun h => by cases h) fun h => by cases h
  | pending old body chosen row time => exact fits_past (fun h => by cases h) fun h => by cases h
  | resolved id old row time =>
    have hpast := executionResult_past row.outcomeClass
    exact fits_past hpast.1 hpast.2

/-- A call that the monitors accept. -/
theorem Reviewing.call (hspare : SparesFiled config req s) (h : Reviewing req s l t) (op : Call)
    (c : Choice) (hjust : justified config req l op) (hdetail : reviewWrite config req l op) :
    Reviewing req s (⟨op, (serve op c t).1⟩ :: l) (serve op c t).2 := by
  have hmeet : DisputesMeet (fun d => d.ReviewOk ∧ Evolved req s d) l t := ⟨h.stored, h.read⟩
  have hnext := hmeet.call op c fun d hop => by
    subst hop
    exact fits_write hspare h hjust hdetail
  refine ⟨hnext.stored, hnext.read, fun id d hget => ?_, fun status limit offset items hlist d hd => ?_⟩
  · rcases List.mem_cons.mp hget with heq | hold
    · exact (keyed_serve op c t).2.1 id d heq.symm
    · exact h.keyed id d hold
  · rcases List.mem_cons.mp hlist with heq | hold
    · obtain ⟨-, rfl, -⟩ := performed_of_event heq
      exact (mem_disputesPage hd).2
    · exact h.listed status limit offset items hold d hd

/-- What a request leaves. -/
theorem reviewing_step {a : Request × List Choice} (hstep : opsStep config s a = some t)
    (hspare : SparesFiled config a.1 s) (hs : ∀ d ∈ s.disputes.rows, d.ReviewOk) :
    ∀ d ∈ t.disputes.rows, d.ReviewOk ∧ Evolved a.1 s d := by
  have hsafe : Safe (I := calls)
      (fun l op => justified config a.1 l op ∧ reviewWrite config a.1 l op) (handle config a.1) [] :=
    Safe.and (handle_justified config a.1) (handle_review config a.1)
  have hdone : Reviewing a.1 s (seqLog reliable (handle config) s a) t :=
    seqStep_monitored (G := Reviewing a.1 s)
      (fun op c l u hop hG _ => hG.call hspare op c hop.1 hop.2) hsafe (Reviewing.start hs) hstep
  exact hdone.stored

end Step

/-! ## Runs -/

/-- The review cycle over a run: the disputes at its end, and those that enter a review. -/
structure ReviewCycle (ms : List (Move Store (Request × List Choice))) (s : Store) : Prop where
  disputes : ∀ d ∈ s.disputes.rows, d.ReviewOk
  enters : ∀ m ∈ ms, ∀ id d', m.after.disputes.get? id = some d' → d'.status = .underReview →
    (∀ d, m.before.disputes.get? id = some d → d.status ≠ .underReview) → d'.escalatedAt = none

/-- Requests handled one after the other, in any order: as long as no filed dispute is
    escalated by hand, the columns of every dispute follow its review. -/
theorem review_cycle_runs {config : Config} {s₀ s : Store}
    {ms : List (Move Store (Request × List Choice))} (h₀ : ∀ d ∈ s₀.disputes.rows, d.ReviewOk)
    (run : Run (opsStep config) s₀ ms s)
    (hspare : ∀ m ∈ ms, SparesFiled config m.label.1 m.before) : ReviewCycle ms s := by
  -- the step lemma keeps what the reviewed disputes satisfy
  have hstep : ∀ m : Move Store (Request × List Choice),
      opsStep config m.before m.label = some m.after → SparesFiled config m.label.1 m.before →
      (∀ d ∈ m.before.disputes.rows, d.ReviewOk) → ∀ d ∈ m.after.disputes.rows, d.ReviewOk :=
    fun m h hm hs d hd => (reviewing_step h hm hs d hd).1
  refine ⟨run.invariant (P := fun s => ∀ d ∈ s.disputes.rows, d.ReviewOk) hspare h₀ hstep, ?_⟩
  -- what a review was entered from
  intro m hm id d' hget hreview hbefore
  have hs := run.invariant_before (P := fun s => ∀ d ∈ s.disputes.rows, d.ReviewOk) hspare h₀ hstep hm
  have hd' := Table.mem_of_get? hget
  have hid : d'.id = id := Table.key_of_get? hget
  -- the dispute was in review before, entered it now, or is past it
  rcases (reviewing_step (run.step_of_mem hm) (hspare m hm) hs d' hd').2 with
    ⟨d, hd, hstatus⟩ | ⟨-, hentered⟩ | hpast
  · rw [hid] at hd
    exact absurd (hstatus.trans hreview) (hbefore d hd)
  · exact hentered hreview
  · exact absurd hreview hpast.2

/-! ## Concrete runs -/

/-- Requests on the dispute `dsp_1`, with their choices. -/
def reviewLabels (reqs : List Request) : List (Request × List Choice) :=
  oracleLabels reliable (handle sampleConfig) (reqs.map fun req => (req, sampleOracle "1" 0 none))
    (sampleStore [sampleDispute "dsp_1" .filed])

/-- The condition, as a check. -/
def sparesFiledCheck (m : Move Store (Request × List Choice)) : Bool :=
  match m.label.1 with
  | .escalate _ id => (m.before.disputes.get? id).all fun d => decide (d.status ≠ .filed)
  | _ => true

/-- Whether a move spares filed disputes can be computed. -/
theorem sparesFiled_of_check {config : Config} {m : Move Store (Request × List Choice)}
    (h : sparesFiledCheck m = true) : SparesFiled config m.label.1 m.before := by
  intro auth id d hreq _ hget
  unfold sparesFiledCheck at h
  rw [hreq] at h
  dsimp only at h
  rw [hget] at h
  simpa using h

/-- The disputes of the sample are in order. -/
theorem sampleStore_reviewOk :
    ∀ d ∈ (sampleStore [sampleDispute "dsp_1" .filed]).disputes.rows, d.ReviewOk := by
  intro d hd
  have heq : d = sampleDispute "dsp_1" .filed := List.mem_singleton.mp hd
  rw [heq]
  exact ⟨fun _ => ⟨rfl, rfl⟩, fun h => by cases h⟩

/-- The dispute is under review again, after an escalated review. -/
theorem review_cycle_runs_twice :
    ∃ ms s, Run (opsStep sampleConfig) (sampleStore [sampleDispute "dsp_1" .filed]) ms s ∧
      ((s.disputes.get? "dsp_1").map DisputeCase.status) = some .underReview ∧ ReviewCycle ms s := by
  obtain ⟨ms, s, run, hp⟩ := exists_run_of_replay
    (reviewLabels [.patchDisputeStatus none "dsp_1" .underReview, .escalate none "dsp_1",
      .patchDisputeStatus none "dsp_1" .filed, .patchDisputeStatus none "dsp_1" .underReview])
    (fun r => r.1.all sparesFiledCheck &&
      decide ((r.2.disputes.get? "dsp_1").map DisputeCase.status = some .underReview))
    (by decide +kernel : (replay (opsStep sampleConfig)
      (sampleStore [sampleDispute "dsp_1" .filed]) _ []).any _ = true)
  simp only [Bool.and_eq_true, List.all_eq_true, decide_eq_true_eq] at hp
  exact ⟨ms, s, run, hp.2,
    review_cycle_runs sampleStore_reviewOk run fun m hm => sparesFiled_of_check (hp.1 m hm)⟩

/-- In some move the dispute enters its review escalated. -/
def entersEscalated (r : List (Move Store (Request × List Choice)) × Store) : Bool :=
  r.1.any fun m =>
    (m.after.disputes.get? "dsp_1").any (fun d =>
      decide (d.status = .underReview ∧ d.escalatedAt ≠ none)) &&
    (m.before.disputes.get? "dsp_1").all fun d => decide (d.status ≠ .underReview)

/-- The filed dispute is escalated, and its review starts escalated. -/
theorem filed_dispute_escalated :
    ¬ ∀ (config : Config) (s₀ s : Store) (ms : List (Move Store (Request × List Choice))),
      (∀ d ∈ s₀.disputes.rows, d.ReviewOk) → Run (opsStep config) s₀ ms s → ReviewCycle ms s := by
  intro h
  obtain ⟨ms, s, run, hp⟩ := exists_run_of_replay
    (reviewLabels [.escalate none "dsp_1", .patchDisputeStatus none "dsp_1" .underReview])
    entersEscalated
    (by decide +kernel : (replay (opsStep sampleConfig)
      (sampleStore [sampleDispute "dsp_1" .filed]) _ []).any _ = true)
  simp only [entersEscalated, List.any_eq_true, Bool.and_eq_true, Option.any_eq_true,
    decide_eq_true_eq] at hp
  obtain ⟨m, hm, ⟨d', hget, hreview, hescalated⟩, hbefore⟩ := hp
  have hcycle := h sampleConfig _ s ms sampleStore_reviewOk run
  -- were the cycle right, the filed dispute could not be escalated
  refine hescalated (hcycle.enters m hm "dsp_1" d' hget hreview fun d hd => ?_)
  rw [hd] at hbefore
  simpa using hbefore

end Bluesafe.Ops
