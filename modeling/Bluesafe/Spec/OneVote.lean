import Bluesafe.Api.Votes
import Bluesafe.Async.Keeps
import Bluesafe.Async.Monitored
import Mathlib.Data.List.Dedup

/-!
# One vote per verifier

The handler of a vote checks the votes it has listed and appends its own one in a later call.
Two requests of the same verifier that both list before either appends both pass the check.
As long as no request appends after such a listing has become outdated for its verifier
(`ReadsCurrent`), the votes of a dispute have different verifiers in every state of every run,
and the tally of `review-state` counts verifiers.

## Key results

- `postVerifierVote_checked`: what is appended was looked for
- `oneVote_step`: one step of the pool
- `quorumMet_iff`: the tally counts verifiers
- `one_vote_per_verifier`: runs
-/

namespace Bluesafe.Api

open Bluesafe.Ops (DisputeDecisionChoice OpsLog)
open Async Transition

/-! ## Stored votes -/

/-- The votes of a dispute have different verifiers. -/
def OneVoteEach (s : Store) : Prop :=
  ∀ disputeId, ((s.votes.filter fun v => decide (v.disputeId = disputeId)).map
    VerifierVote.verifierId).Nodup

/-- A call appends one vote or leaves them. -/
theorem votes_serve (rt : Runtime) (op : calls.Op) (c : Choice) (s : Store) :
    (serve rt op c s).2.votes = s.votes ∨
      ∃ v, op = .inr (.appendDisputeVerifierVote v) ∧ (serve rt op c s).2.votes = s.votes ++ [v] := by
  -- a call of the other routes appends no vote
  cases op with
  | inl op => exact .inl rfl
  | inr op =>
    -- of the calls of this module only one does
    have hperform : (perform rt op c s).2.votes = s.votes ∨
        ∃ v, op = .appendDisputeVerifierVote v ∧ (perform rt op c s).2.votes = s.votes ++ [v] := by
      cases op with
      | appendDisputeVerifierVote v => exact .inr ⟨v, rfl, rfl⟩
      | _ => exact .inl rfl
    -- a call that throws may have taken effect
    rcases serve_inr_state rt op c s with hstate | hstate <;> rw [hstate]
    · rcases hperform with heq | ⟨v, rfl, heq⟩
      · exact .inl heq
      · exact .inr ⟨v, rfl, heq⟩
    · exact .inl rfl

/-- A vote of a verifier who has not voted. -/
theorem oneVoteEach_append {s s' : Store} {v : VerifierVote} (h : OneVoteEach s)
    (hnew : ∀ w ∈ s.votes, w.disputeId = v.disputeId → w.verifierId ≠ v.verifierId)
    (hs' : s'.votes = s.votes ++ [v]) : OneVoteEach s' := by
  intro disputeId
  rw [hs', List.filter_append, List.map_append, List.nodup_append]
  refine ⟨h disputeId, ?_, ?_⟩
  · by_cases hv : v.disputeId = disputeId <;> simp [hv]
  · intro a ha b hb hab
    by_cases hv : v.disputeId = disputeId
    · simp only [List.filter_cons, hv, decide_true, if_true, List.filter_nil, List.map_cons, List.map_nil,
        List.mem_singleton] at hb
      obtain ⟨w, hw, rfl⟩ := List.mem_map.mp ha
      rw [List.mem_filter, decide_eq_true_eq] at hw
      exact hnew w hw.1 (hw.2.trans hv.symm) (hab.trans hb)
    · simp [hv] at hb

/-! ## The handler -/

/-- The vote is the one of the request, and none of its verifier was listed. -/
def checksVote (req : VoteRequest) (l : ApiLog) : calls.Op → Prop
  | .inr (.appendDisputeVerifierVote v) =>
    v.disputeId = req.disputeId ∧
      ∃ prior, (⟨.inr (.listDisputeVerifierVotes v.disputeId), .ok prior⟩ : Event calls String) ∈ l ∧
        ∀ w ∈ prior, w.verifierId ≠ v.verifierId
  | _ => True

/-- The handlers of the book store no vote. -/
theorem ofOps_checked {α : Type} (req : VoteRequest) (p : Ops.OpsM α) (l : ApiLog) :
    Safe (checksVote req) (ofOps p) l :=
  safe_inl_of_forall (fun _ _ => trivial) p l

/-- A vote is stored behind a list without one of this verifier. -/
theorem storeVote_checked {req : VoteRequest} {l : ApiLog} {prior : List VerifierVote}
    (hlist : (⟨.inr (.listDisputeVerifierVotes req.disputeId), .ok prior⟩ : Event calls String) ∈ l)
    (hnone : ∀ w ∈ prior, w.verifierId ≠ req.body.verifierId) :
    Safe (checksVote req) (storeVote req.disputeId req.body) l := by
  unfold storeVote
  refine Gives.bind (ofOps_checked req _ _) fun id l₁ hl₁ _ => ?_
  refine Gives.bind (ofOps_checked req _ _) fun createdAt l₂ hl₂ _ => ?_
  refine Gives.call_then ⟨rfl, prior, (hl₁.trans hl₂).subset hlist, hnone⟩ fun _ l₃ _ => ?_
  refine Gives.bind (ofOps_checked req _ _) fun _ l₄ _ _ => ?_
  refine Gives.bind (ofOps_checked req _ _) fun _ l₅ _ _ => ?_
  exact Gives.pure trivial

/-- What a request appends it has looked for. -/
theorem postVerifierVote_checked (config : Config) (req : VoteRequest) :
    Safe (checksVote req) (postVerifierVote config req.caller req.disputeId req.body) [] := by
  -- the request is refused before anything is read, or the dispute is read
  unfold postVerifierVote writeRoute route
  split
  · exact Gives.pure trivial
  · split
    · exact Gives.pure trivial
    · refine Gives.bind (ofOps_checked req _ _) fun dispute l₁ _ _ => ?_
      cases dispute with
      | none => exact Gives.pure trivial
      | some dispute =>
        -- the access of the caller is decided without a call that matters
        refine Gives.bind (R := fun _ _ => True) ?_ fun accessible l₂ _ _ => ?_
        · refine Gives.bind (ofOps_checked req _ _) fun contract l₃ _ _ => ?_
          cases contract with
          | none => exact Gives.pure trivial
          | some c => exact Gives.pure trivial
        · split
          · split
            -- the votes are listed, and the vote is stored only when none is by this verifier
            · refine Gives.call_read trivial fun prior l₃ _ hlist => ?_
              split
              · exact Gives.pure trivial
              · rename_i hnone
                refine storeVote_checked hlist fun w hw heq => hnone ?_
                exact List.any_eq_true.mpr ⟨w, hw, decide_eq_true heq⟩
            · exact Gives.pure trivial
          · exact Gives.pure trivial

/-! ## The pool -/

/-- When a request appends its vote, every stored vote of its verifier for the dispute is
    among those it has listed. -/
def ReadsCurrent (m : Move VotesPool (Act VoteRequest Choice)) : Prop :=
  ∀ i c th v k, m.label = .advance i c → m.before.threads[i]? = some th →
    th.prog = await (I := calls) (.inr (.appendDisputeVerifierVote v)) k →
    ∀ prior, (⟨.inr (.listDisputeVerifierVotes v.disputeId), .ok prior⟩ : Event calls String) ∈ th.log →
      ∀ w ∈ m.before.store.votes, w.disputeId = v.disputeId → w.verifierId = v.verifierId → w ∈ prior

/-- The invariant of the pool. -/
structure VotesInv (P : VotesPool) : Prop where
  safe : ∀ th ∈ P.threads, th.Safe checksVote
  once : OneVoteEach P.store

/-- One step of the pool. -/
theorem oneVote_step {config : Config} (m : Move VotesPool (Act VoteRequest Choice))
    (h : votesStep config m.before m.label = some m.after) (hcur : ReadsCurrent m)
    (hP : VotesInv m.before) : VotesInv m.after := by
  -- what a thread may call, and that no vote is doubled
  refine ⟨poolStep_safe (postVerifierVote_checked config) h hP.safe, ?_⟩
  obtain ⟨P, a, P'⟩ := m
  dsimp only at h hP ⊢
  -- a request starts, or one call is served
  obtain ⟨req, -, rfl⟩ | ⟨i, c, th, op, k, rfl, hth, hprog, -, rfl⟩ := poolStep_cases h
  · exact hP.once
  -- the call appends no vote, or it is the vote of this thread
  · rcases votes_serve config.runtime op c P.store with heq | ⟨v, rfl, heq⟩
    · intro disputeId
      have hsame : ((world config.runtime).serve op c P.store).2.votes = P.store.votes := heq
      rw [hsame]
      exact hP.once disputeId
    · -- the verifier was not among the listed votes, which are all there are
      obtain ⟨-, prior, hlist, hnone⟩ := (hP.safe th (List.mem_of_getElem? hth)).ok_of_await hprog
      refine oneVoteEach_append hP.once (fun w hw hdispute hverifier => ?_) heq
      exact hnone w (hcur i c th v k rfl hth hprog prior hlist w hw hdispute hverifier) hverifier

/-! ## The tally -/

/-- What the accumulator of `countBy` says about the keys before. -/
structure Counts (acc : List (String × Nat)) (keys : List String) : Prop where
  counted : ∀ e ∈ acc, e.2 = keys.count e.1
  present : ∀ k ∈ keys, ∃ n, (k, n) ∈ acc

/-- Counting one more key. -/
theorem Counts.bump {acc : List (String × Nat)} {keys : List String} (h : Counts acc keys) (key : String) :
    Counts (countBy.bump acc key) (keys ++ [key]) := by
  unfold countBy.bump
  split
  · rename_i hany
    simp only [List.any_eq_true, decide_eq_true_eq] at hany
    obtain ⟨e, he, rfl⟩ := hany
    -- the key has an entry: its count goes up, and the other entries stay
    constructor
    · intro e' he'
      obtain ⟨e₀, he₀, rfl⟩ := List.mem_map.mp he'
      have hcount := h.counted e₀ he₀
      split
      · rename_i heq
        simp [heq, hcount]
      · rename_i hne
        simp [Ne.symm hne, hcount]
    · intro k hk
      have hold : ∃ n, (k, n) ∈ acc := by
        rcases List.mem_append.mp hk with hk | hk
        · exact h.present k hk
        · rw [List.mem_singleton.mp hk]
          exact ⟨e.2, he⟩
      obtain ⟨n, hn⟩ := hold
      by_cases hke : k = e.1
      · exact ⟨n + 1, List.mem_map.mpr ⟨(k, n), hn, by simp [hke]⟩⟩
      · exact ⟨n, List.mem_map.mpr ⟨(k, n), hn, by simp [hke]⟩⟩
  · rename_i hany
    -- the first occurrence of the key: nothing was counted for it
    have hnew : key ∉ keys := by
      intro hmem
      obtain ⟨n, hn⟩ := h.present key hmem
      apply hany
      exact List.any_eq_true.mpr ⟨(key, n), hn, by simp⟩
    constructor
    · intro e he
      rcases List.mem_append.mp he with he | he
      · have hne : key ≠ e.1 := fun heq => hany (List.any_eq_true.mpr ⟨e, he, by simp [heq]⟩)
        simp [h.counted e he, hne]
      · rw [List.mem_singleton.mp he]
        simp [List.count_eq_zero_of_not_mem hnew]
    · intro k hk
      rcases List.mem_append.mp hk with hk | hk
      · obtain ⟨n, hn⟩ := h.present k hk
        exact ⟨n, List.mem_append_left _ hn⟩
      · rw [List.mem_singleton.mp hk]
        exact ⟨1, List.mem_append_right _ List.mem_cons_self⟩

/-- The counts of all keys. -/
theorem counts_countBy (keys : List String) : Counts (countBy keys) keys := by
  unfold countBy
  -- induction on the keys, over the table that was filled before
  have hfold : ∀ (rest seen : List String) (acc : List (String × Nat)), Counts acc seen →
      Counts (rest.foldl countBy.bump acc) (seen ++ rest) := by
    intro rest
    induction rest with
    | nil =>
      intro seen acc h
      simpa using h
    | cons key rest ih =>
      intro seen acc h
      have hrest := ih (seen ++ [key]) _ (h.bump key)
      simpa using hrest
  -- the empty table counts the empty list
  have hempty : Counts [] [] := ⟨by simp, by simp⟩
  simpa using hfold keys [] [] hempty

/-- The largest count. -/
theorem le_foldl_max {l : List (String × Nat)} {k m : Nat} :
    k ≤ l.foldl (fun m e => max m e.2) m ↔ k ≤ m ∨ ∃ e ∈ l, k ≤ e.2 := by
  induction l generalizing m with
  | nil => simp
  | cons e l ih =>
    have hmax : k ≤ max m e.2 ↔ k ≤ m ∨ k ≤ e.2 := by omega
    rw [List.foldl_cons, ih, hmax]
    simp only [List.mem_cons, exists_eq_or_imp, or_assoc]

/-- Different choices have different texts. -/
theorem text_injective {a b : DisputeDecisionChoice} (h : a.text = b.text) : a = b := by
  cases a <;> cases b <;> first | rfl | exact absurd h (by decide)

/-- The verifiers who recommended the outcome, each of them once. -/
def recommenders (votes : List VerifierVote) (outcome : DisputeDecisionChoice) : List String :=
  ((votes.filter fun v => decide (v.recommendation = outcome)).map VerifierVote.verifierId).dedup

/-- Among votes of different verifiers the count of an outcome is the number of verifiers who
    recommended it. -/
theorem length_recommenders {votes : List VerifierVote}
    (h : (votes.map VerifierVote.verifierId).Nodup) (outcome : DisputeDecisionChoice) :
    (recommenders votes outcome).length =
      (votes.map fun v => v.recommendation.text).count outcome.text := by
  have hnodup : ((votes.filter fun v => decide (v.recommendation = outcome)).map
      VerifierVote.verifierId).Nodup :=
    h.sublist ((List.filter_sublist).map _)
  unfold recommenders
  rw [List.dedup_eq_self.mpr hnodup, List.length_map, List.count_eq_countP, List.countP_map,
    List.countP_eq_length_filter]
  congr 1
  apply List.filter_congr
  intro v _
  rw [Bool.eq_iff_iff, decide_eq_true_eq, Function.comp_apply, beq_iff_eq]
  exact ⟨fun heq => by rw [heq], text_injective⟩

/-- `quorumMet` of the tally. -/
theorem quorumMet_iff {votes : List VerifierVote} (h : (votes.map VerifierVote.verifierId).Nodup)
    (k : Nat) :
    k ≤ (countBy (votes.map fun v => v.recommendation.text)).foldl (fun m e => max m e.2) 0 ↔
      ∃ outcome, k ≤ (recommenders votes outcome).length := by
  have hcounts := counts_countBy (votes.map fun v => v.recommendation.text)
  rw [le_foldl_max]
  constructor
  · rintro (hzero | ⟨e, he, hle⟩)
    · exact ⟨.finishToTenant, Nat.le_trans hzero (Nat.zero_le _)⟩
    · rw [hcounts.counted e he] at hle
      -- an entry of a text that nobody voted for counts nothing
      by_cases hpos : e.1 ∈ votes.map fun v => v.recommendation.text
      · obtain ⟨v, -, hv⟩ := List.mem_map.mp hpos
        rw [← hv, ← length_recommenders h] at hle
        exact ⟨v.recommendation, hle⟩
      · rw [List.count_eq_zero_of_not_mem hpos] at hle
        exact ⟨.finishToTenant, Nat.le_trans hle (Nat.zero_le _)⟩
  · rintro ⟨outcome, hle⟩
    rw [length_recommenders h] at hle
    by_cases hpos : outcome.text ∈ votes.map fun v => v.recommendation.text
    · obtain ⟨n, hn⟩ := hcounts.present _ hpos
      refine .inr ⟨_, hn, ?_⟩
      rw [hcounts.counted _ hn]
      exact hle
    · rw [List.count_eq_zero_of_not_mem hpos] at hle
      exact .inl hle

/-! ## `review-state` -/

/-- The field `quorumMet` of a reply. -/
def Response.quorumMet (r : Response) : Option Bool :=
  match r.body with
  | .json (.obj fields) =>
    (fields.find? fun f => decide (f.1 = "quorumMet")).bind fun
      | (_, .json (.bool b)) => some b
      | _ => none
  | _ => none

/-- The reply reports a quorum of `k` verifiers for one outcome. -/
def ReportsQuorum (k : Nat) (votes : List VerifierVote) (r : Response) : Prop :=
  r.status = 200 →
    ∃ met, r.quorumMet = some met ∧ (met = true ↔ ∃ outcome, k ≤ (recommenders votes outcome).length)

/-- The handlers of the book keep the votes. -/
theorem ofOps_keepsVotes {α : Type} (rt : Runtime) (votes : List VerifierVote) (p : Ops.OpsM α) :
    Keeps (world rt) (fun g => g.2.votes = votes) (ofOps p) fun _ => True := by
  have honly : Only (I := calls) (fun op => ∀ c s, (serve rt op c s).2.votes = s.votes) (ofOps p) :=
    Only.inl (Only.of_forall (fun _ _ _ => rfl) p)
  exact .of_only honly fun op c _ s hop h _ => (hop c s).trans h

/-- So does the look-up of a dispute. -/
theorem withDispute_keepsVotes {rt : Runtime} {config : Config} {auth : Option Ops.BluesafeAuth}
    {disputeId : String} {votes : List VerifierVote} {handler : Ops.DisputeCase → ApiM Response}
    {R : Response → Prop} (hnotFound : R (notFound "Dispute not found"))
    (hforbidden : R (forbidden "Not allowed to read this dispute"))
    (h : ∀ d, Keeps (world rt) (fun g => g.2.votes = votes) (handler d) R) :
    Keeps (world rt) (fun g => g.2.votes = votes) (withDispute config auth disputeId handler) R := by
  -- the dispute is read, then its contract; only then is anything stored
  unfold withDispute contractAccessible
  refine .bind (ofOps_keepsVotes rt votes _) fun dispute _ => ?_
  cases dispute with
  | none => exact .pure hnotFound
  | some dispute =>
    refine .bind (S := fun _ => True) ?_ fun accessible _ => ?_
    · refine .bind (ofOps_keepsVotes rt votes _) fun contract _ => ?_
      cases contract with
      | none => exact .pure trivial
      | some c => exact .pure trivial
    · split
      · exact h dispute
      · exact .pure hforbidden

/-- A request without a role of the route is refused. -/
theorem requireRoles_status {config : Ops.Config} {allowed : List Ops.BluesafeRole}
    {auth : Option Ops.BluesafeAuth} {reply : Ops.Reply}
    (h : Ops.requireRoles config allowed auth = some reply) : reply.status = 403 := by
  unfold Ops.requireRoles at h
  split at h
  · cases h
  · split at h
    · split at h
      · cases h
      · cases h
        rfl
    · cases h
      rfl

/-- The answer of `review-state` in a store with one vote of each verifier. -/
theorem reviewState_reports (config : Config) (auth : Option Ops.BluesafeAuth) (disputeId : String)
    {s : Store} (h : OneVoteEach s) :
    Keeps (world config.runtime) (fun g => g.2.votes = s.votes) (reviewState config auth disputeId)
      (ReportsQuorum config.verifierQuorumK
        (s.votes.filter fun v => decide (v.disputeId = disputeId))) := by
  unfold reviewState route
  split
  · rename_i reply hreply
    apply Keeps.pure
    intro hstatus
    have hrefused : reply.status = 200 := hstatus
    rw [requireRoles_status hreply] at hrefused
    cases hrefused
  · apply withDispute_keepsVotes
    · intro hstatus
      cases hstatus
    · intro hstatus
      cases hstatus
    intro dispute
    refine .bind (S := fun votes => votes = s.votes.filter fun v => decide (v.disputeId = disputeId))
      (.call fun l t c hvotes _ => ?_) fun votes hvotes => ?_
    · have hlisted : (serve config.runtime (.inr (.listDisputeVerifierVotes disputeId)) c t).2 = t := by
        rcases serve_inr_state config.runtime (.listDisputeVerifierVotes disputeId) c t with
          heq | heq <;> rw [heq]
        rfl
      refine ⟨(congrArg Store.votes hlisted).trans hvotes, fun votes hans => ?_⟩
      have hlist : t.votes.filter (fun v => decide (v.disputeId = disputeId)) = votes :=
        (answer_inr hans).1
      rw [← hlist, hvotes]
    · subst hvotes
      apply Keeps.pure
      intro _
      -- with one vote a verifier, counting votes is counting verifiers
      refine ⟨decide (config.verifierQuorumK ≤ (countBy ((s.votes.filter fun v =>
        decide (v.disputeId = disputeId)).map fun v => v.recommendation.text)).foldl
          (fun m e => max m e.2) 0), ?_, ?_⟩
      · cases dispute.reviewDeadlineAt <;> cases dispute.escalatedAt <;> rfl
      · rw [decide_eq_true_iff]
        exact quorumMet_iff (h disputeId) config.verifierQuorumK

/-! ## Runs -/

/-- While requests append only with a current listing, the votes of a dispute have different
    verifiers, and `review-state` reports a quorum exactly when enough of them agree. -/
theorem one_vote_per_verifier {config : Config} {s₀ : Store} {P : VotesPool}
    {ms : List (Move VotesPool (Act VoteRequest Choice))} (h₀ : OneVoteEach s₀)
    (run : Run (votesStep config) ⟨s₀, []⟩ ms P) (hms : ∀ m ∈ ms, ReadsCurrent m) :
    OneVoteEach P.store ∧
      ∀ auth disputeId cs l r s',
        exec (world config.runtime) (reviewState config auth disputeId) cs [] P.store =
          some (l, .ok r, s') →
        ReportsQuorum config.verifierQuorumK
          (P.store.votes.filter fun v => decide (v.disputeId = disputeId)) r := by
  have hstart : VotesInv ⟨s₀, []⟩ := ⟨fun th hth => absurd hth List.not_mem_nil, h₀⟩
  have honce := (run.invariant hms hstart oneVote_step).once
  refine ⟨honce, fun auth disputeId cs l r s' hexec => ?_⟩
  exact (exec_sound ((reviewState_reports config auth disputeId honce).toWp rfl) hexec).2

/-! ## Concrete runs -/

/-- The vote that an action appends. -/
def nextVote (P : VotesPool) : Act VoteRequest Choice → Option VerifierVote
  | .spawn _ => none
  | .advance i _ => P.threads[i]?.bind fun th =>
    match th.prog with
    | .await (.inr (.appendDisputeVerifierVote v)) _ => some v
    | _ => none

/-- No vote of the same verifier is stored. -/
def firstVoteCheck (m : Move VotesPool (Act VoteRequest Choice)) : Bool :=
  (nextVote m.before m.label).all fun v =>
    m.before.store.votes.all fun w => !(w.disputeId = v.disputeId && w.verifierId = v.verifierId)

/-- Whether a request reads the current votes can be computed. -/
theorem readsCurrent_of_check {m : Move VotesPool (Act VoteRequest Choice)}
    (h : firstVoteCheck m = true) : ReadsCurrent m := by
  intro i c th v k hlabel hth hprog prior _ w hw hdispute hverifier
  have hnext : nextVote m.before m.label = some v := by
    rw [hlabel, nextVote, hth, Option.bind_some, hprog]
  unfold firstVoteCheck at h
  rw [hnext, Option.all_some] at h
  have hnot := List.all_eq_true.mp h w hw
  simp [hdispute, hverifier] at hnot

/-- A filed dispute of the contract `ctr_1`. -/
def disputedStore : Store :=
  { contractStore with
    ops := { contractStore.ops with
      disputes := Table.empty.set (Ops.sampleDispute "dsp_1" .filed) } }

/-- A recommendation for the tenant. -/
def sampleVote (verifierId : String) (h : verifierId ≠ "") : VoteRequest :=
  ⟨openCaller, "dsp_1", ⟨verifierId, .finishToTenant, h⟩⟩

def voteActs (ts : List (Turn calls VoteRequest Choice)) : List (Act VoteRequest Choice) :=
  scheduleActs (world sampleRuntime) (fun req =>
    postVerifierVote (openConfig sampleRuntime) req.caller req.disputeId req.body) ts ⟨disputedStore, []⟩

/-- The number of stored votes of `vrf_1`, and of all votes. -/
def votesAre (mine total : Nat) (P : VotesPool) : Bool :=
  decide ((P.store.votes.filter fun v => decide (v.verifierId = "vrf_1")).length = mine) &&
    decide (P.store.votes.length = total)

/-- A verifier votes twice, one request after the other, and another one votes at the same
    time: two votes are stored. -/
theorem one_vote_per_verifier_twice :
    ∃ ms P, Run (votesStep (openConfig sampleRuntime)) ⟨disputedStore, []⟩ ms P ∧
      P.store.votes.length = 2 ∧ OneVoteEach P.store ∧
      ∀ auth disputeId cs l r s',
        exec (world (openConfig sampleRuntime).runtime)
          (reviewState (openConfig sampleRuntime) auth disputeId) cs [] P.store = some (l, .ok r, s') →
        ReportsQuorum (openConfig sampleRuntime).verifierQuorumK
          (P.store.votes.filter fun v => decide (v.disputeId = disputeId)) r := by
  obtain ⟨ms, P, run, hp⟩ := exists_run_of_replay
    (voteActs [.start (sampleVote "vrf_1" (by decide)), .start (sampleVote "vrf_2" (by decide)),
      .run 0 3 (sampleEvidenceOracle "1" 0), .run 1 20 (sampleEvidenceOracle "2" 0),
      .run 0 20 (sampleEvidenceOracle "3" 0), .start (sampleVote "vrf_1" (by decide)),
      .run 2 20 (sampleEvidenceOracle "4" 0)])
    (fun r => r.1.all firstVoteCheck && votesAre 1 2 r.2)
    (by decide +kernel : (replay (votesStep (openConfig sampleRuntime)) ⟨disputedStore, []⟩ _ []).any _
      = true)
  simp only [votesAre, Bool.and_eq_true, List.all_eq_true, decide_eq_true_eq] at hp
  obtain ⟨hfirst, -, htotal⟩ := hp
  have hempty : OneVoteEach disputedStore := fun _ => List.nodup_nil
  have honce := one_vote_per_verifier hempty run fun m hm => readsCurrent_of_check (hfirst m hm)
  exact ⟨ms, P, run, htotal, honce⟩

/-- Two votes are stored, both of `vrf_1` for `dsp_1`. -/
def votedTwice (P : VotesPool) : Bool :=
  decide (P.store.votes.map VerifierVote.verifierId = ["vrf_1", "vrf_1"]) &&
    decide (P.store.votes.map VerifierVote.disputeId = ["dsp_1", "dsp_1"])

/-- Two requests of one verifier list the votes before either of them appends. -/
theorem vote_counted_twice :
    ¬ ∀ (config : Config) (s₀ : Store) (P : VotesPool)
      (ms : List (Move VotesPool (Act VoteRequest Choice))), OneVoteEach s₀ →
      Run (votesStep config) ⟨s₀, []⟩ ms P → OneVoteEach P.store := by
  intro h
  obtain ⟨ms, P, run, hp⟩ := exists_run_of_replay
    (voteActs [.start (sampleVote "vrf_1" (by decide)), .start (sampleVote "vrf_1" (by decide)),
      .run 0 3 (sampleEvidenceOracle "1" 0), .run 1 20 (sampleEvidenceOracle "2" 0),
      .run 0 20 (sampleEvidenceOracle "3" 0)])
    (fun r => votedTwice r.2)
    (by decide +kernel : (replay (votesStep (openConfig sampleRuntime)) ⟨disputedStore, []⟩ _ []).any _
      = true)
  -- both votes are by one verifier, on the one dispute
  simp only [votedTwice, Bool.and_eq_true, decide_eq_true_eq] at hp
  obtain ⟨hverifiers, hdisputes⟩ := hp
  have honce := h (openConfig sampleRuntime) disputedStore P ms (fun _ => List.nodup_nil) run "dsp_1"
  -- all votes are on that dispute
  have hall : P.store.votes.filter (fun v => decide (v.disputeId = "dsp_1")) = P.store.votes := by
    apply List.filter_eq_self.mpr
    intro v hv
    have hmem : v.disputeId ∈ P.store.votes.map VerifierVote.disputeId := List.mem_map_of_mem hv
    rw [hdisputes] at hmem
    simpa using hmem
  rw [hall, hverifiers] at honce
  exact absurd honce (by decide)

end Bluesafe.Api
