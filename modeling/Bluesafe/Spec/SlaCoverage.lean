import Bluesafe.Async.Progress
import Bluesafe.ForStd.Page
import Bluesafe.Spec.ReviewCycle
import Bluesafe.Spec.SimulatedBackfill

/-!
# What an SLA scan covers

A scan reads one page of the disputes under review, the newest updates first, and walks over
it. So it processes the overdue disputes that have fewer than 500 disputes under review ahead
of them, and no others (`sla_scan_iff`). A dispute behind the page stays behind it: the scan
announces the same page again, or puts the disputes that it escalates in front.

Scans that follow each other escalate a review once, whatever other requests come in between
(`escalated_once`): an escalation stays as long as the dispute is under review.
-/

namespace Bluesafe.Ops

open Async Transition

/-! ## The disputes of a scan -/

/-- A dispute that a scan at `now` has to process. -/
structure DisputeCase.Due (config : Config) (now : Time) (d : DisputeCase) : Prop where
  review : d.status = .underReview
  expired : ∃ deadline, d.reviewDeadlineAt = some deadline ∧ deadline ≤ now
  pending : config.slaAutoEscalate = true → d.escalatedAt = none

/-- The event that announces a dispute in a scan. -/
def slaEvent (config : Config) : String :=
  if config.slaAutoEscalate then "dispute.escalated" else "dispute.review_deadline_expired"

/-- The events of a dispute, newest first. -/
def Store.disputeEvents (s : Store) (id : String) : List EventEnvelope :=
  s.events.filter fun e => decide (e.entityType = "dispute" ∧ e.entityId = id)

/-- From `s` to `s'` the dispute is processed: it is escalated where the deployment says so, and
    one event is emitted for it. -/
structure Processed (config : Config) (s : Store) (d : DisputeCase) (s' : Store) : Prop where
  escalated : config.slaAutoEscalate = true → ∃ t, s'.disputes.get? d.id = some (d.escalated t)
  announced : ∃ e, s'.disputeEvents d.id = e :: s.disputeEvents d.id ∧ e.eventType = slaEvent config

/-- From `s` to `s'` the dispute is left alone. -/
structure Skipped (s : Store) (d : DisputeCase) (s' : Store) : Prop where
  stored : s'.disputes.get? d.id = some d
  events : s'.disputeEvents d.id = s.disputeEvents d.id

/-- A scan at `now` that leads from `s` to `s'` processes everything that is due. -/
def ScanCovers (config : Config) (now : Time) (s s' : Store) : Prop :=
  ∀ d ∈ s.disputes.rows, d.Due config now → Processed config s d s'

/-- Later updates first: the order of the page. -/
abbrev updatedAfter (a b : DisputeCase) : Prop := b.updatedAt ≤ a.updatedAt

instance : Std.Total updatedAfter := ⟨fun a b => Nat.le_total b.updatedAt a.updatedAt⟩

instance : IsTrans DisputeCase updatedAfter := ⟨fun _ _ _ hab hbc => Nat.le_trans hbc hab⟩

def DisputeCase.underReview (d : DisputeCase) : Bool := decide (d.status = .underReview)

/-- How many disputes under review are ahead of `d`: those that were stored before it and have no
    earlier update, and those that were stored after it and have a later one. -/
def Store.reviewsAhead (s : Store) (d : DisputeCase) : Nat :=
  s.disputes.rows.ahead DisputeCase.id updatedAfter DisputeCase.underReview d

/-- A dispute is on the page of the scan when fewer than a page are ahead of it. -/
theorem mem_slaPage_iff {s : Store} {d : DisputeCase} (hd : d ∈ s.disputes.rows)
    (hreview : d.status = .underReview) :
    d ∈ s.disputesPage .underReview 500 0 ↔ s.reviewsAhead d < 500 := by
  -- the page is the front of the sorted list, so its members are counted by what is ahead
  have hpage : s.disputesPage .underReview 500 0 =
      s.disputes.rows.firstBy updatedAfter DisputeCase.underReview 500 := rfl
  rw [hpage]
  exact List.mem_firstBy_iff s.disputes.nodup hd (decide_eq_true hreview)

/-- A dispute that was processed was not skipped. -/
theorem Processed.not_skipped {config : Config} {s s' : Store} {d : DisputeCase}
    (h : Processed config s d s') : ¬ Skipped s d s' := by
  intro hskip
  obtain ⟨e, hevents, -⟩ := h.announced
  have hlength := congrArg List.length (hevents.symm.trans hskip.events)
  simp at hlength

/-! ## One dispute -/

/-- What the scan of one overdue dispute does to the store. -/
structure Scanned (config : Config) (d : DisputeCase) (s s' : Store) : Prop where
  escalates : config.slaAutoEscalate = true → ∃ t, s'.disputes = s.disputes.set (d.escalated t)
  keeps : config.slaAutoEscalate = false → s'.disputes = s.disputes
  emits : ∃ e, s'.events = e :: s.events ∧ e.entityType = "dispute" ∧ e.entityId = d.id ∧
    e.eventType = slaEvent config

section Recording

variable {s : Store}

/-- An audit entry returns, and changes no dispute. -/
theorem returns_writeAudit (entityType entityId action actor : String)
    (before after metadata : Option JsonObject) :
    Returns reliable (writeAudit entityType entityId action actor before after metadata)
      (fun _ s' => s'.disputes = s.disputes ∧ s'.events = s.events) s := by
  unfold writeAudit
  refine Returns.bind (R := fun _ s₁ => s₁ = s) (returns_invoke rfl fun _ => rfl) fun id s₁ hid => ?_
  refine Returns.bind (R := fun _ s₂ => s₂ = s) (returns_invoke rfl fun _ => hid) fun t s₂ ht => ?_
  subst ht
  exact returns_invoke rfl fun _ => ⟨rfl, rfl⟩

/-- So does an event. -/
theorem returns_emitEvent (eventType entityType entityId : String) (payload : JsonObject) :
    Returns reliable (emitEvent eventType entityType entityId payload)
      (fun _ s' => s'.disputes = s.disputes ∧ ∃ e, s'.events = e :: s.events ∧
        e.entityType = entityType ∧ e.entityId = entityId ∧ e.eventType = eventType) s := by
  unfold emitEvent
  refine Returns.bind (R := fun _ s₁ => s₁ = s) (returns_invoke rfl fun _ => rfl) fun id s₁ hid => ?_
  refine Returns.bind (R := fun _ s₂ => s₂ = s) (returns_invoke rfl fun _ => hid) fun trace s₂ htr => ?_
  refine Returns.bind (R := fun _ s₃ => s₃ = s) (returns_invoke rfl fun _ => htr) fun t s₃ ht => ?_
  subst ht
  exact returns_invoke rfl fun _ => ⟨rfl, _, rfl, rfl, rfl, rfl⟩

/-- And a notice to the parties. -/
theorem returns_notifyParties (contractId eventType : String) (payload : JsonObject) :
    Returns reliable (notifyParties contractId eventType payload)
      (fun _ s' => s'.disputes = s.disputes ∧ s'.events = s.events) s := by
  unfold notifyParties
  refine Returns.bind (R := fun _ s₁ => s₁ = s) (returns_invoke rfl fun _ => rfl) fun found s₁ hread => ?_
  subst hread
  cases found with
  | none => exact Returns.pure ⟨rfl, rfl⟩
  | some c => exact returns_invoke rfl fun _ => ⟨rfl, rfl⟩

end Recording

section Scan

variable {config : Config} {now : Time} {d : DisputeCase} {s s' : Store}

/-- With automatic escalation a dispute that is due is escalated. -/
theorem autoEscalate_returns (hauto : config.slaAutoEscalate = true) :
    Returns reliable (autoEscalate d) (fun _ => Scanned config d s) s := by
  unfold autoEscalate
  refine Returns.bind (R := fun _ s₁ => s₁ = s) (returns_invoke rfl fun _ => rfl) fun t s₁ hclock => ?_
  subst hclock
  refine Returns.bind
    (R := fun _ s₂ => s₂.disputes = s₁.disputes.set (d.escalated t) ∧ s₂.events = s₁.events)
    (returns_invoke rfl fun _ => ⟨rfl, rfl⟩) fun _ s₂ hsave => ?_
  refine Returns.bind (returns_writeAudit _ _ _ _ _ _ _) fun _ s₃ haudit => ?_
  refine Returns.bind (returns_emitEvent _ _ _ _) fun _ s₄ hemit => ?_
  refine Returns.mono (returns_notifyParties _ _ _) fun _ s₅ hnotify => ?_
  -- the audit entry and the message to the parties do not touch disputes or events
  obtain ⟨e, hevents, hentity, hid, htype⟩ := hemit.2
  have hdisputes : s₅.disputes = s₁.disputes.set (d.escalated t) := by
    rw [hnotify.1, hemit.1, haudit.1, hsave.1]
  refine ⟨fun _ => ⟨t, hdisputes⟩, fun hno => ?_, e, ?_, hentity, hid, ?_⟩
  · rw [hauto] at hno
    cases hno
  · rw [hnotify.2, hevents, haudit.2, hsave.2]
  · rw [htype, slaEvent, if_pos hauto]

/-- Without it the expiry is announced. -/
theorem announceDeadlineExpired_returns (hauto : config.slaAutoEscalate = false) :
    Returns reliable (announceDeadlineExpired d) (fun _ => Scanned config d s) s := by
  unfold announceDeadlineExpired
  refine Returns.bind (returns_emitEvent _ _ _ _) fun _ s₁ hemit => ?_
  refine Returns.mono (returns_notifyParties _ _ _) fun _ s₂ hnotify => ?_
  obtain ⟨e, hevents, hentity, hid, htype⟩ := hemit.2
  refine ⟨fun hyes => ?_, fun _ => hnotify.1.trans hemit.1, e, hnotify.2.trans hevents, hentity, hid, ?_⟩
  · rw [hauto] at hyes
    cases hyes
  · simp [htype, slaEvent, hauto]

/-- One iteration: a dispute that is due is processed, any other is skipped. -/
theorem scanDispute_returns (hreview : d.status = .underReview) (n : SlaCounters) :
    Returns reliable (scanDispute config now n d)
      (fun _ s' => (d.Due config now → Scanned config d s s') ∧ (¬ d.Due config now → s' = s)) s := by
  have hskip : ¬ d.Due config now → Returns reliable (pure n : OpsM SlaCounters)
      (fun _ s' => (d.Due config now → Scanned config d s s') ∧ (¬ d.Due config now → s' = s)) s :=
    fun hnot => Returns.pure ⟨fun hdue => absurd hdue hnot, fun _ => rfl⟩
  unfold scanDispute
  cases hdeadline : d.reviewDeadlineAt with
  | none =>
    refine hskip fun hdue => ?_
    obtain ⟨deadline, hsome, -⟩ := hdue.expired
    rw [hdeadline] at hsome
    cases hsome
  | some deadline =>
    dsimp only
    by_cases hlate : deadline > now
    · rw [if_pos hlate]
      refine hskip fun hdue => ?_
      obtain ⟨deadline', hsome, hle⟩ := hdue.expired
      rw [hdeadline, Option.some.injEq] at hsome
      exact absurd (hsome ▸ hle) (Nat.not_le_of_lt hlate)
    · rw [if_neg hlate]
      have hexpired : ∃ t, d.reviewDeadlineAt = some t ∧ t ≤ now := ⟨deadline, hdeadline, Nat.le_of_not_lt hlate⟩
      -- with escalation a dispute is processed once, without it on every scan
      cases hauto : config.slaAutoEscalate with
      | true =>
        rw [if_pos rfl]
        cases hescalated : d.escalatedAt with
        | none =>
          have hdue : d.Due config now := ⟨hreview, hexpired, fun _ => hescalated⟩
          rw [if_pos Option.isNone_none]
          refine Returns.bind (autoEscalate_returns hauto) fun _ s₁ hscanned => ?_
          exact Returns.pure ⟨fun _ => hscanned, fun hnot => absurd hdue hnot⟩
        | some t =>
          rw [if_neg (by simp)]
          refine hskip fun hdue => ?_
          have hnone := hdue.pending hauto
          rw [hescalated] at hnone
          cases hnone
      | false =>
        have hdue : d.Due config now := ⟨hreview, hexpired, fun hyes => by simp [hauto] at hyes⟩
        rw [if_neg (by simp)]
        refine Returns.bind (announceDeadlineExpired_returns hauto) fun _ s₁ hscanned => ?_
        exact Returns.pure ⟨fun _ => hscanned, fun hnot => absurd hdue hnot⟩

end Scan

/-! ## The page -/

/-- What the loop over the page `items` has done when `rest` is left. -/
structure ScanState (config : Config) (now : Time) (s : Store) (items rest : List DisputeCase)
    (s' : Store) : Prop where
  suffix : rest <:+ items
  done : ∀ d ∈ s.disputes.rows, d ∈ items → d ∉ rest → d.Due config now → Processed config s d s'
  others : ∀ d ∈ s.disputes.rows, d ∉ items ∨ d ∈ rest ∨ ¬ d.Due config now → Skipped s d s'

section Loop

variable {config : Config} {now : Time} {d e : DisputeCase} {s s₁ s₂ : Store}
  {items rest : List DisputeCase}

/-- A dispute that was left alone so far and is scanned now is processed. -/
theorem Skipped.scanned (hskip : Skipped s d s₁) (h : Scanned config d s₁ s₂) :
    Processed config s d s₂ := by
  obtain ⟨e, hevents, hentity, hid, htype⟩ := h.emits
  refine ⟨fun hauto => ?_, e, ?_, htype⟩
  · obtain ⟨t, hset⟩ := h.escalates hauto
    refine ⟨t, ?_⟩
    rw [hset]
    exact Table.get?_set_self _ (d.escalated t)
  · rw [← hskip.events, Store.disputeEvents, hevents, List.filter_cons, if_pos (by simp [hentity, hid])]
    rfl

/-- The scan of one dispute does not touch the others. -/
theorem Scanned.frame (h : Scanned config d s₁ s₂) (hne : e.id ≠ d.id) :
    s₂.disputes.get? e.id = s₁.disputes.get? e.id ∧ s₂.disputeEvents e.id = s₁.disputeEvents e.id := by
  -- the scan of a dispute writes its own row and one event
  obtain ⟨ev, hevents, hentity, hid, htype⟩ := h.emits
  constructor
  -- the row of another dispute stays
  · cases hauto : config.slaAutoEscalate with
    | true =>
      obtain ⟨t, hset⟩ := h.escalates hauto
      rw [hset, Table.get?_set]
      exact if_neg hne
    | false => rw [h.keeps hauto]
  -- and the event is none of the other dispute's
  · have hother : ¬ (ev.entityType = "dispute" ∧ ev.entityId = e.id) := by
      rintro ⟨-, heq⟩
      exact hne (heq.symm.trans hid)
    rw [Store.disputeEvents, hevents, List.filter_cons, if_neg (by simpa using hother)]
    rfl

/-- A scan begins with its whole page to do. -/
theorem ScanState.start : ScanState config now s items items s := by
  refine ⟨List.suffix_refl _, fun d _ hmem hnot => absurd hmem hnot, fun d hd _ => ?_⟩
  exact ⟨Table.get?_of_mem hd, rfl⟩

/-- One iteration of the loop. -/
theorem ScanState.next (hitems : ∀ d ∈ items, d ∈ s.disputes.rows) (hnodup : items.Nodup)
    (h : ScanState config now s items (d :: rest) s₁)
    (hdue : d.Due config now → Scanned config d s₁ s₂) (hskip : ¬ d.Due config now → s₂ = s₁) :
    ScanState config now s items rest s₂ := by
  have hd : d ∈ items := h.suffix.subset List.mem_cons_self
  have hrest : d ∉ rest := (List.nodup_cons.mp (h.suffix.sublist.nodup hnodup)).1
  have hsuffix : rest <:+ items := (List.suffix_cons d rest).trans h.suffix
  -- `d` is due: it is processed now, and nothing else is touched
  by_cases hcase : d.Due config now
  · have hscanned := hdue hcase
    have hne : ∀ e ∈ s.disputes.rows, e ≠ d → e.id ≠ d.id := by
      intro e he hne hid
      exact hne (List.inj_on_of_nodup_map s.disputes.nodup he (hitems d hd) hid)
    refine ⟨hsuffix, fun e he hmem hnot hedue => ?_, fun e he hcases => ?_⟩
    · by_cases heq : e = d
      · subst heq
        exact (h.others e he (.inr (.inl List.mem_cons_self))).scanned hscanned
      · obtain ⟨hget, hevents⟩ := hscanned.frame (hne e he heq)
        have hold := h.done e he hmem (by simp [heq, hnot]) hedue
        refine ⟨fun hauto => ?_, ?_⟩
        · rw [hget]
          exact hold.escalated hauto
        · rw [hevents]
          exact hold.announced
    · have heq : e ≠ d := by
        rintro rfl
        rcases hcases with hout | hin | hnot
        · exact hout hd
        · exact hrest hin
        · exact hnot hcase
      obtain ⟨hget, hevents⟩ := hscanned.frame (hne e he heq)
      have hold := h.others e he (hcases.imp id (Or.imp (List.mem_cons_of_mem d) id))
      exact ⟨hget.trans hold.stored, hevents.trans hold.events⟩
  · -- the store is as it was
    rw [hskip hcase]
    refine ⟨hsuffix, fun e he hmem hnot hedue => ?_, fun e he hcases => ?_⟩
    · refine h.done e he hmem (fun hin => ?_) hedue
      rcases List.mem_cons.mp hin with rfl | hin
      · exact hcase hedue
      · exact hnot hin
    · exact h.others e he (hcases.imp id (Or.imp (List.mem_cons_of_mem d) id))

end Loop

/-! ## One scan -/

/-- The guards of the route let the scan through. -/
def scanAdmitted (config : Config) (auth : Option BluesafeAuth) : Bool :=
  (blockAuditorWriteOperations config auth).isNone && (requireRoles config [.operator] auth).isNone

/-- The reading of the clock at the start of a scan: the environment's first choice. -/
def scanClock (cs : List Choice) : Time := (cs.head?.map Choice.now).getD 0

/-- The scan behind its guards and its reading of the clock. -/
def scanFrom (config : Config) (nowMs : Time) : OpsM Reply := do
  let items ← listDisputesPage .underReview 500 0
  let n ← items.foldlM (scanDispute config nowMs) ⟨0, 0⟩
  return ⟨200, [("scanned", .num items.length), ("deadlineExpired", .num n.deadlineExpired),
    ("autoEscalated", .num n.autoEscalated), ("flagged", .num n.deadlineExpired)]⟩

/-- A scan that is admitted reads the clock first. -/
theorem handle_scan {config : Config} {auth : Option BluesafeAuth}
    (hadmitted : scanAdmitted config auth = true) :
    handle config (.reviewSlaScan auth) =
      dateNow >>= fun nowMs => some <$> scanFrom config nowMs := by
  simp only [scanAdmitted, Bool.and_eq_true, Option.isNone_iff_eq_none] at hadmitted
  show some <$> reviewSlaScan config auth = _
  unfold reviewSlaScan writeRoute
  rw [hadmitted.1, hadmitted.2]
  exact map_bind some dateNow (scanFrom config)

section OneScan

variable {config : Config} {now : Time} {auth : Option BluesafeAuth} {cs : List Choice} {s s' : Store}
  {d : DisputeCase}

/-- What the scan has done at its end. -/
def ScanDone (config : Config) (now : Time) (s s' : Store) : Prop :=
  ScanState config now s (s.disputesPage .underReview 500 0) [] s'

/-- No dispute is twice on a page. -/
theorem nodup_disputesPage (s : Store) (status : DisputeStatus) (limit offset : Nat) :
    (s.disputesPage status limit offset).Nodup := by
  -- sorting and cutting a list without repetitions brings in none
  have hrows : s.disputes.rows.Nodup := List.Nodup.of_map _ s.disputes.nodup
  have hsorted := (List.perm_insertionSort (fun a b : DisputeCase => b.updatedAt ≤ a.updatedAt) _).nodup_iff.mpr
    (hrows.filter fun d => decide (d.status = status))
  exact hsorted.sublist ((List.take_sublist _ _).trans (List.drop_sublist _ _))

/-- A whole scan: it processes its page, and no other dispute. -/
theorem scanFrom_returns (config : Config) (now : Time) (s : Store) :
    Returns reliable (scanFrom config now) (fun _ => ScanDone config now s) s := by
  unfold scanFrom
  refine Returns.bind
    (R := fun items s₁ => items = s.disputesPage .underReview 500 0 ∧ s₁ = s)
    (returns_invoke rfl fun _ => ⟨rfl, rfl⟩) fun items s₁ hread => ?_
  obtain ⟨rfl, rfl⟩ := hread
  have hitems : ∀ d ∈ s₁.disputesPage .underReview 500 0, d ∈ s₁.disputes.rows :=
    fun d hd => (mem_disputesPage hd).1
  -- the invariant of the loop says what is done when `rest` is left
  have hstep : ∀ n d rest s₂, ScanState config now s₁ (s₁.disputesPage .underReview 500 0) (d :: rest) s₂ →
      Returns reliable (scanDispute config now n d)
        (fun _ => ScanState config now s₁ (s₁.disputesPage .underReview 500 0) rest) s₂ := by
    intro n d rest s₂ h₂
    have hreview := (mem_disputesPage (h₂.suffix.subset List.mem_cons_self)).2
    refine Returns.mono (scanDispute_returns hreview n) fun _ s₃ hone => ?_
    exact h₂.next hitems (nodup_disputesPage _ _ _ _) hone.1 hone.2
  exact Returns.bind (Returns.foldlM hstep ScanState.start _) fun n s₂ hdone => Returns.pure hdone

/-- What a scan that is let through leaves. -/
theorem scan_done (hadmitted : scanAdmitted config auth = true)
    (hstep : opsStep config s (.reviewSlaScan auth, cs) = some s') :
    ScanDone config (scanClock cs) s s' := by
  refine Returns.seqStep_call (handle_scan hadmitted) hstep fun c hhead hallow => ?_
  -- the deadline is compared with this one reading of the clock in the whole scan
  have hserve : reliable.serve .clock c s = (.ok c.now, s) := serve_performed (failure_none rfl hallow)
  have hnow : scanClock cs = c.now := by simp [scanClock, hhead]
  rw [hserve, hnow]
  exact ⟨c.now, rfl, Returns.map (scanFrom_returns config c.now s)⟩

/-- A scan processes what is due and has fewer than 500 disputes ahead, and skips the rest. -/
theorem processed_or_skipped (hadmitted : scanAdmitted config auth = true)
    (hstep : opsStep config s (.reviewSlaScan auth, cs) = some s') (hd : d ∈ s.disputes.rows) :
    (d.Due config (scanClock cs) → s.reviewsAhead d < 500 → Processed config s d s') ∧
      (¬ (d.Due config (scanClock cs) ∧ s.reviewsAhead d < 500) → Skipped s d s') := by
  have hdone := scan_done hadmitted hstep
  constructor
  · intro hdue hahead
    exact hdone.done d hd ((mem_slaPage_iff hd hdue.review).mpr hahead) (by simp) hdue
  · intro hnot
    by_cases hdue : d.Due config (scanClock cs)
    · refine hdone.others d hd (.inl fun hpage => ?_)
      exact hnot ⟨hdue, (mem_slaPage_iff hd hdue.review).mp hpage⟩
    · exact hdone.others d hd (.inr (.inr hdue))

/-- A scan covers what is due exactly if none of it has 500 disputes ahead. -/
theorem scanCovers_iff (hadmitted : scanAdmitted config auth = true)
    (hstep : opsStep config s (.reviewSlaScan auth, cs) = some s') :
    ScanCovers config (scanClock cs) s s' ↔
      ∀ d ∈ s.disputes.rows, d.Due config (scanClock cs) → s.reviewsAhead d < 500 := by
  constructor
  · intro hcovers d hd hdue
    -- a dispute with 500 others ahead is not on the page, so it is skipped
    by_contra hahead
    refine (hcovers d hd hdue).not_skipped ?_
    exact (processed_or_skipped hadmitted hstep hd).2 fun hboth => hahead hboth.2
  · intro hahead d hd hdue
    exact (processed_or_skipped hadmitted hstep hd).1 hdue (hahead d hd hdue)

end OneScan

/-! ## Reviews that stay escalated

Between two scans any requests may be handled. Of those only the patch of the status takes an
escalation away, and it ends the review. -/

/-- The request starts a review. -/
def Request.startsReview : Request → Bool
  | .patchDisputeStatus _ _ .underReview => true
  | _ => false

/-- The status that `PATCH status` saves. -/
def patchWrite (req : Request) (_ : OpsLog) : Call → Prop
  | .saveDispute d => ∀ auth id next, req = .patchDisputeStatus auth id next → d.status = next.toStatus
  | _ => True

/-- A dispute while a request is handled, when it was under review and escalated at the start of
    it: it is still so, or its review is over and not started again. -/
def StaysEscalated (req : Request) (d : DisputeCase) : Prop :=
  (d.status = .underReview ∧ d.escalatedAt ≠ none) ∨
  (d.status = .filed ∧ req.startsReview = false) ∨
  (d.status ≠ .filed ∧ d.status ≠ .underReview)

section Patch

variable {config : Config} {req : Request} {l : OpsLog}

/-- Quiet calls patch no dispute. -/
theorem quiet_patchWrite : Quiet (patchWrite req) := by
  intro l op hop
  cases op <;> trivial

/-- A patch of the status writes the status it was asked for. -/
theorem patchDisputeStatus_patch (auth : Option BluesafeAuth) (id : String) (next : ReviewStatus) :
    Safe (I := calls) (patchWrite (.patchDisputeStatus auth id next))
      (patchDisputeStatus config auth id next) l := by
  have hq : Quiet (patchWrite (.patchDisputeStatus auth id next)) := quiet_patchWrite
  -- every save of this route has the status of the request
  have hsave : ∀ d l₁, d.status = next.toStatus →
      patchWrite (.patchDisputeStatus auth id next) l₁ (.saveDispute d) := by
    intro d l₁ hstatus auth' id' next' heq
    cases heq
    exact hstatus
  unfold patchDisputeStatus
  refine writeRoute_guarded fun _ _ => ?_
  refine withDispute_safe (fun _ => trivial) (fun _ _ => trivial) fun d l₁ _ => ?_
  split
  -- the edge is not allowed, or the row is stored
  · split
    · exact Gives.pure trivial
    · unfold storeReviewStatus
      refine Gives.call_then trivial fun t l₂ _ => ?_
      cases next with
      | underReview =>
        -- a review starts with a deadline
        refine Gives.call_then trivial fun due l₃ _ => ?_
        refine Gives.call_then (hsave _ _ rfl) fun _ l₄ _ => ?_
        refine Gives.bind (hq.writeAudit _ _ _ _ _ _ _) fun _ l₅ _ _ => ?_
        refine Gives.bind (hq.emitEvent _ _ _ _) fun _ l₆ _ _ => ?_
        exact Gives.bind (hq.notifyParties _ _ _) fun _ l₇ _ _ => Gives.pure trivial
      | filed =>
        refine Gives.call_then (hsave _ _ rfl) fun _ l₃ _ => ?_
        exact Gives.bind (hq.writeAudit _ _ _ _ _ _ _) fun _ l₄ _ _ => Gives.pure trivial
  · exact Gives.pure trivial

/-- Every request writes a dispute in its own way. -/
theorem handle_patch (config : Config) (req : Request) :
    Safe (I := calls) (patchWrite req) (handle config req) [] := by
  cases req with
  | patchDisputeStatus auth id next => exact Gives.map (patchDisputeStatus_patch auth id next)
  | _ =>
    refine safe_of_forall (fun l op => ?_) _ _
    cases op with
    | saveDispute d =>
      intro auth id next heq
      cases heq
    | _ => trivial

end Patch

section Kept

variable {config : Config} {req : Request} {id : String} {s s' : Store} {l : OpsLog} {d : DisputeCase}

/-- Neither filed nor under review, a dispute is not escalated. -/
theorem staysEscalated_past (hfiled : d.status ≠ .filed) (hreview : d.status ≠ .underReview) :
    StaysEscalated req d :=
  .inr (.inr ⟨hfiled, hreview⟩)

/-- Every version of the dispute that is saved. -/
theorem staysEscalated_write (hread : ∀ e, ReadDispute l e → e.id = d.id → StaysEscalated req e)
    (hwrite : DisputeWrite config req l d) (hpatch : patchWrite req l (.saveDispute d)) :
    StaysEscalated req d := by
  cases hwrite with
  | filed _ auth body hreq _ hstatus =>
    subst hreq
    exact .inr (.inl ⟨hstatus, rfl⟩)
  | reviewStarted auth id' next old time deadline hreq hget hstatus =>
    -- the request starts a review, so no filed version of the dispute can have been read
    have hnext : ReviewStatus.toStatus next = .underReview := (hpatch auth id' next hreq).symm
    have hstarts : req.startsReview = true := by
      subst hreq
      cases next with
      | underReview => rfl
      | filed => cases hnext
    rcases hread old (.byId id' hget) rfl with ⟨hreview, -⟩ | ⟨-, hno⟩ | ⟨hnot, -⟩
    · rw [hstatus] at hreview
      cases hreview
    · rw [hstarts] at hno
      cases hno
    · exact absurd hstatus hnot
  | refiled auth id' next old time hreq hget hstatus =>
    have hnext : ReviewStatus.toStatus next = .filed := (hpatch auth id' next hreq).symm
    subst hreq
    cases next with
    | underReview => cases hnext
    | filed => exact .inr (.inl ⟨rfl, rfl⟩)
  | escalated old time hreq hold =>
    rcases hread old hold rfl with ⟨hreview, -⟩ | hfiled | hpast
    · exact .inl ⟨hreview, by simp [DisputeCase.escalated]⟩
    · exact .inr (.inl hfiled)
    · exact .inr (.inr hpast)
  | decided => exact staysEscalated_past (fun h => by cases h) fun h => by cases h
  | pending => exact staysEscalated_past (fun h => by cases h) fun h => by cases h
  | resolved id' old row time =>
    have hpast := executionResult_past row.outcomeClass
    exact staysEscalated_past hpast.1 hpast.2

/-- A request keeps the escalation of a dispute that is under review before and after it. -/
theorem escalation_kept {a : Request × List Choice} (hstep : opsStep config s a = some s')
    {d d' : DisputeCase} (hget : s.disputes.get? id = some d) (hreview : d.status = .underReview)
    (hescalated : d.escalatedAt ≠ none) (hget' : s'.disputes.get? id = some d')
    (hreview' : d'.status = .underReview) : d'.escalatedAt ≠ none := by
  have hsafe : Safe (I := calls) (fun l op => justified config a.1 l op ∧ patchWrite a.1 l op)
      (handle config a.1) [] :=
    Safe.and (handle_justified config a.1) (handle_patch config a.1)
  -- every stored or read version of the dispute stays escalated through the whole request
  have hstart : DisputesMeet (fun e => e.id = id → StaysEscalated a.1 e) [] s := by
    refine .start fun e he hid => ?_
    have hsame := Table.get?_of_mem he
    rw [hid, hget, Option.some.injEq] at hsame
    subst hsame
    exact .inl ⟨hreview, hescalated⟩
  have hdone : DisputesMeet (fun e => e.id = id → StaysEscalated a.1 e)
      (seqLog reliable (handle config) s a) s' := by
    refine seqStep_monitored (G := DisputesMeet fun e => e.id = id → StaysEscalated a.1 e)
      (fun op c l u hop hG _ => hG.call op c fun e heq hid => ?_) hsafe hstart hstep
    subst heq
    exact staysEscalated_write (fun k hk hkid => hG.read k hk (hkid.trans hid)) hop.1 hop.2
  -- of the three ways to go on only one leaves the dispute under review
  rcases hdone.stored d' (Table.mem_of_get? hget') (Table.key_of_get? hget') with
    ⟨-, hkept⟩ | ⟨hfiled, -⟩ | ⟨-, hnot⟩
  · exact hkept
  · rw [hreview'] at hfiled
    cases hfiled
  · exact absurd hreview' hnot

end Kept

/-! ## Runs with several scans -/

def Store.UnderReview (s : Store) (id : String) : Prop :=
  ∃ d, s.disputes.get? id = some d ∧ d.status = .underReview

/-- How many escalations of the dispute were announced. -/
def Store.escalations (s : Store) (id : String) : Nat :=
  (s.disputeEvents id).countP fun e => decide (e.eventType = "dispute.escalated")

def Request.isScan : Request → Bool
  | .reviewSlaScan _ => true
  | _ => false

/-- The move is a scan that escalates the dispute. -/
def scanEscalates (id : String) (m : Move Store (Request × List Choice)) : Bool :=
  m.label.1.isScan && decide (m.before.escalations id < m.after.escalations id)

section Runs

variable {config : Config} {id : String} {s s' : Store} {d : DisputeCase}

/-- A scan that the guards refuse does nothing. -/
theorem scan_refused {auth : Option BluesafeAuth} {cs : List Choice}
    (hadmitted : scanAdmitted config auth = false)
    (hstep : opsStep config s (.reviewSlaScan auth, cs) = some s') : s' = s := by
  -- a caller who is refused leaves the store
  have hreturns : Returns reliable (reviewSlaScan config auth) (fun _ t => t = s) s := by
    unfold reviewSlaScan writeRoute
    split
    · exact Returns.pure rfl
    · rename_i hauditor
      split
      · exact Returns.pure rfl
      · rename_i hroles
        simp [scanAdmitted, hauditor, hroles] at hadmitted
  -- the reply is no write
  have hhandle : Returns reliable (handle config (.reviewSlaScan auth)) (fun _ t => t = s) s :=
    Returns.map hreturns
  exact Returns.seqStep (Q := fun t => t = s) hhandle hstep

/-- A scan escalates what was not escalated, and it is escalated afterwards. -/
theorem escalates_of_scan {m : Move Store (Request × List Choice)}
    (hstep : opsStep config m.before m.label = some m.after) (h : scanEscalates id m = true)
    (hget : m.before.disputes.get? id = some d) :
    d.escalatedAt = none ∧ ∃ t, m.after.disputes.get? id = some (d.escalated t) := by
  obtain ⟨s, ⟨req, cs⟩, s'⟩ := m
  simp only [scanEscalates, Bool.and_eq_true, decide_eq_true_eq] at h
  dsimp only at hstep hget h ⊢
  obtain ⟨hscan, hmore⟩ := h
  cases req with
  | reviewSlaScan auth =>
    have hid : d.id = id := Table.key_of_get? hget
    subst hid
    cases hadmitted : scanAdmitted config auth with
    | false =>
      rw [scan_refused hadmitted hstep] at hmore
      exact absurd hmore (Nat.lt_irrefl _)
    | true =>
      have hone := processed_or_skipped hadmitted hstep (Table.mem_of_get? hget)
      by_cases hboth : d.Due config (scanClock cs) ∧ s.reviewsAhead d < 500
      · have hprocessed := hone.1 hboth.1 hboth.2
        obtain ⟨e, hevents, htype⟩ := hprocessed.announced
        cases hauto : config.slaAutoEscalate with
        | true => exact ⟨hboth.1.pending hauto, hprocessed.escalated hauto⟩
        | false =>
          -- the event announces the deadline, so there is no new escalation
          have hother : e.eventType ≠ "dispute.escalated" := by
            rw [htype, slaEvent, hauto]
            decide
          simp [Store.escalations, hevents, hother] at hmore
      · have hskipped := hone.2 hboth
        rw [Store.escalations, Store.escalations, hskipped.events] at hmore
        exact absurd hmore (Nat.lt_irrefl _)
  | _ => cases hscan

/-- As long as a dispute is under review, at most one scan escalates it, and then it stays
    escalated. -/
theorem escalated_once {ms : List (Move Store (Request × List Choice))}
    (run : Run (opsStep config) s ms s')
    (hreview : ∀ m ∈ ms, m.before.UnderReview id ∧ m.after.UnderReview id) :
    ms.countP (scanEscalates id) ≤ 1 ∧
      (1 ≤ ms.countP (scanEscalates id) →
        ∃ d, s'.disputes.get? id = some d ∧ d.escalatedAt ≠ none) := by
  induction run with
  | nil => exact ⟨Nat.zero_le 1, fun h => absurd h (by simp)⟩
  | @cons ms t u a run hstep ih =>
    -- the moves are listed newest first: `ms` is the run before the last move
    obtain ⟨hcount, hescalated⟩ := ih fun m hm => hreview m (List.mem_cons_of_mem _ hm)
    obtain ⟨⟨d, hget, hstatus⟩, d', hget', hstatus'⟩ := hreview _ List.mem_cons_self
    have hkeep : d.escalatedAt ≠ none → d'.escalatedAt ≠ none :=
      fun hd => escalation_kept hstep hget hstatus hd hget' hstatus'
    rw [List.countP_cons]
    by_cases hscan : scanEscalates id ⟨t, a, u⟩ = true
    · obtain ⟨hnone, time, hafter⟩ := escalates_of_scan hstep hscan hget
      have hzero : ms.countP (scanEscalates id) = 0 := by
        by_contra hne
        -- an earlier scan would have left the dispute escalated
        obtain ⟨d₁, hget₁, hsome⟩ := hescalated (by omega)
        dsimp only at hget
        rw [hget, Option.some.injEq] at hget₁
        exact hsome (hget₁ ▸ hnone)
      rw [if_pos hscan, hzero]
      exact ⟨Nat.le_refl 1, fun _ => ⟨_, hafter, by simp [DisputeCase.escalated]⟩⟩
    · rw [if_neg hscan, Nat.add_zero]
      refine ⟨hcount, fun hone => ?_⟩
      obtain ⟨d₁, hget₁, hsome⟩ := hescalated hone
      dsimp only at hget
      rw [hget, Option.some.injEq] at hget₁
      exact ⟨d', hget', hkeep (hget₁ ▸ hsome)⟩

end Runs

/-- A scan processes everything that is due if and only if each of it has fewer than 500
    disputes under review ahead. However many scans and other requests follow each other while
    a dispute is under review, at most one of them is a scan that escalates it. -/
theorem sla_scan_iff (config : Config) :
    (∀ auth cs s s', scanAdmitted config auth = true →
      opsStep config s (.reviewSlaScan auth, cs) = some s' →
      (ScanCovers config (scanClock cs) s s' ↔
        ∀ d ∈ s.disputes.rows, d.Due config (scanClock cs) → s.reviewsAhead d < 500)) ∧
    ∀ id s s' ms, Run (opsStep config) s ms s' →
      (∀ m ∈ ms, m.before.UnderReview id ∧ m.after.UnderReview id) →
      ms.countP (scanEscalates id) ≤ 1 :=
  ⟨fun _ _ _ _ hadmitted hstep => scanCovers_iff hadmitted hstep,
    fun _ _ _ _ run hreview => (escalated_once run hreview).1⟩

/-! ## Concrete scans -/

/-- An overdue dispute whose identifier has `i` letters. -/
def overdue (i : Nat) : DisputeCase :=
  { sampleDispute (String.ofList (List.replicate i 'd')) .underReview with reviewDeadlineAt := some 0 }

/-- The overdue disputes of the sample are different. -/
theorem overdue_id_injective : Function.Injective fun i => (overdue i).id := by
  intro i j h
  have hlist : List.replicate i 'd' = List.replicate j 'd' := String.ofList_injective h
  simpa using congrArg List.length hlist

/-- A store with `n` overdue disputes, all updated at the same time. -/
def crowded (n : Nat) : Store :=
  { Store.empty with
    disputes := ⟨(List.range n).map overdue, by
      rw [List.map_map]
      exact List.nodup_range.map overdue_id_injective⟩ }

/-- They are due. -/
theorem overdue_due (config : Config) (i : Nat) (now : Time) : (overdue i).Due config now :=
  ⟨rfl, ⟨0, rfl, Nat.zero_le now⟩, fun _ => rfl⟩

/-- And they stand in the crowded store. -/
theorem overdue_mem_crowded {i n : Nat} (h : i < n) : overdue i ∈ (crowded n).disputes.rows :=
  List.mem_map_of_mem (List.mem_range.mpr h)

/-- The disputes that were stored before are ahead of the last one. -/
theorem reviewsAhead_crowded (n : Nat) : (crowded (n + 1)).reviewsAhead (overdue n) = n := by
  have hrows : (crowded (n + 1)).disputes.rows = (List.range n).map overdue ++ [overdue n] := by
    show (List.range (n + 1)).map overdue = _
    rw [List.range_succ, List.map_append]
    rfl
  -- the identifiers have different lengths
  have hnot : (overdue n).id ∉ ((List.range n).map overdue).map DisputeCase.id := by
    rw [List.map_map, List.mem_map]
    rintro ⟨i, hi, heq⟩
    have hsame := overdue_id_injective heq
    rw [hsame, List.mem_range] at hi
    exact absurd hi (Nat.lt_irrefl n)
  rw [Store.reviewsAhead, hrows, List.ahead_append_cons hnot, List.countP_map]
  have hall : ((List.range n).countP
      ((fun e => e.underReview && decide (updatedAfter e (overdue n))) ∘ overdue)) = n := by
    rw [List.countP_eq_length.mpr fun i _ => by rfl, List.length_range]
  rw [hall]
  rfl

/-- Some string is longer than finitely many others. -/
theorem exists_longer (ids : List String) : ∃ n, ∀ x ∈ ids, x.toList.length < n := by
  induction ids with
  | nil => exact ⟨0, fun x hx => by cases hx⟩
  | cons y ids ih =>
    obtain ⟨n, hn⟩ := ih
    refine ⟨n + y.toList.length + 1, fun x hx => ?_⟩
    rcases List.mem_cons.mp hx with rfl | hx
    · omega
    · have hlt := hn x hx
      omega

/-- The generator can always return an identifier that is not in use. -/
theorem exists_unused_id (tag : String) (s : Store) :
    ∃ id, idAllowed tag id = true ∧ s.disputes.get? id = none ∧ s.contracts.get? id = none ∧
      s.decisions.get? id = none := by
  -- all identifiers of the store are shorter than some text
  obtain ⟨n, hn⟩ := exists_longer (s.disputes.rows.map DisputeCase.id ++
    s.contracts.rows.map Contract.id ++ s.decisions.rows.map CaseDecision.id)
  have hlong : ∀ k : List Char, n ≤ k.length → String.ofList k ∉ s.disputes.rows.map DisputeCase.id ++
      s.contracts.rows.map Contract.id ++ s.decisions.rows.map CaseDecision.id := by
    intro k hk hmem
    have hlt := hn _ hmem
    rw [String.toList_ofList] at hlt
    omega
  -- such a text behind the tag is unused
  have hunused := hlong ((tag ++ "_").toList ++ List.replicate n 'x') (by simp; omega)
  simp only [List.mem_append, not_or] at hunused
  refine ⟨String.ofList ((tag ++ "_").toList ++ List.replicate n 'x'), ?_, ?_, ?_, ?_⟩
  · unfold idAllowed startsWith
    rw [String.toList_ofList, List.isPrefixOf_iff_prefix]
    exact List.prefix_append _ _
  · exact Table.get?_eq_none_iff.mpr hunused.1.1
  · exact Table.get?_eq_none_iff.mpr hunused.1.2
  · exact Table.get?_eq_none_iff.mpr hunused.2

/-- No call of a program is ever stuck. -/
theorem reliable_progress (op : Call) (s : Store) : ∃ c, reliable.allow op c s = true := by
  cases op with
  | randomId tag =>
    obtain ⟨id, hid, hdispute, hcontract, hdecision⟩ := exists_unused_id tag s
    exact ⟨{ id := id }, by simp [reliable, hid, hdispute, hcontract, hdecision]⟩
  | _ => exact ⟨{}, rfl⟩

/-- A scan at time 0 can be handled to its end in every store. -/
theorem exists_scan (config : Config) {auth : Option BluesafeAuth}
    (hadmitted : scanAdmitted config auth = true) (s : Store) :
    ∃ cs s', opsStep config s (.reviewSlaScan auth, {} :: cs) = some s' :=
  exists_seqStep_call reliable_progress (handle_scan hadmitted) rfl rfl

/-- `sampleConfig` with `slaAutoEscalate`. -/
def autoConfig : Config := { sampleConfig with slaAutoEscalate := true }

/-- A dispute under review whose deadline is at time 1000. -/
def waiting : DisputeCase :=
  { sampleDispute "waiting" .underReview with reviewDeadlineAt := some 1000 }

/-- A dispute that nobody reviews yet, with a deadline that has passed. -/
def filedLate : DisputeCase := { sampleDispute "filed" .filed with reviewDeadlineAt := some 0 }

/-- The disputes of the mixed sample are different. -/
theorem mixedScan_nodup :
    ([overdue 1, waiting, filedLate, overdue 2].map DisputeCase.id).Nodup := by decide

/-- Two overdue disputes, one that waits and one that nobody reviews. -/
def mixedScan : Store :=
  { Store.empty with disputes := ⟨[overdue 1, waiting, filedLate, overdue 2], mixedScan_nodup⟩ }

/-- A scan at time 0 escalates both overdue disputes, and no scan escalated them before; the others
    are not due. -/
theorem sla_scan_iff_mixed :
    ∃ cs s', opsStep autoConfig mixedScan (.reviewSlaScan none, cs) = some s' ∧
      (∀ d ∈ [overdue 1, overdue 2], Processed autoConfig mixedScan d s' ∧
        [(⟨mixedScan, (.reviewSlaScan none, cs), s'⟩ : Move Store (Request × List Choice))].countP
          (scanEscalates d.id) ≤ 1) ∧
      ∀ d ∈ [waiting, filedLate], ¬ d.Due autoConfig (scanClock cs) := by
  have hadmitted : scanAdmitted autoConfig none = true := rfl
  obtain ⟨cs, s', hstep⟩ := exists_scan autoConfig hadmitted mixedScan
  -- no store of four disputes has 500 of them ahead of one
  have hcovers : ScanCovers autoConfig (scanClock ({} :: cs)) mixedScan s' := by
    refine ((sla_scan_iff autoConfig).1 none _ mixedScan s' hadmitted hstep).mpr fun d hd _ => ?_
    have hall : ∀ d ∈ mixedScan.disputes.rows, mixedScan.reviewsAhead d < 500 := by decide +kernel
    exact hall d hd
  have hdue : ∀ d ∈ [waiting, filedLate], ¬ d.Due autoConfig 0 := by
    intro d hd
    simp only [List.mem_cons, List.not_mem_nil, or_false] at hd
    rcases hd with rfl | rfl
    · rintro ⟨-, ⟨t, ht, hpast⟩, -⟩
      cases ht
      exact absurd hpast (by decide)
    · rintro ⟨hreview, -⟩
      cases hreview
  refine ⟨_, s', hstep, fun d hd => ?_, hdue⟩
  have hoverdue : ∃ i, d = overdue i ∧ overdue i ∈ mixedScan.disputes.rows ∧
      mixedScan.disputes.get? (overdue i).id = some (overdue i) := by
    simp only [List.mem_cons, List.not_mem_nil, or_false] at hd
    rcases hd with rfl | rfl
    · exact ⟨1, rfl, by simp [mixedScan], rfl⟩
    · exact ⟨2, rfl, by simp [mixedScan], rfl⟩
  obtain ⟨i, rfl, hmem, hget⟩ := hoverdue
  have hprocessed := hcovers (overdue i) hmem (overdue_due _ i _)
  obtain ⟨t, hescalated⟩ := hprocessed.escalated rfl
  refine ⟨hprocessed, (sla_scan_iff autoConfig).2 _ mixedScan s' _ (.cons .nil hstep) fun m hm => ?_⟩
  rw [List.mem_singleton.mp hm]
  exact ⟨⟨overdue i, hget, rfl⟩, ⟨_, hescalated, rfl⟩⟩

/-- Of 501 overdue disputes the last one is not announced. -/
theorem crowded_scan_misses :
    ¬ ∀ (config : Config) (auth : Option BluesafeAuth) (cs : List Choice) (s s' : Store),
      scanAdmitted config auth = true → opsStep config s (.reviewSlaScan auth, cs) = some s' →
      ScanCovers config (scanClock cs) s s' := by
  intro h
  have hadmitted : scanAdmitted sampleConfig none = true := rfl
  obtain ⟨cs, s', hstep⟩ := exists_scan sampleConfig hadmitted (crowded (500 + 1))
  have hcovers := h sampleConfig none _ _ s' hadmitted hstep
  have hlast := overdue_mem_crowded (Nat.lt_succ_self 500)
  have hahead := (scanCovers_iff hadmitted hstep).mp hcovers _ hlast (overdue_due _ 500 _)
  rw [reviewsAhead_crowded] at hahead
  exact absurd hahead (Nat.lt_irrefl 500)

end Bluesafe.Ops
