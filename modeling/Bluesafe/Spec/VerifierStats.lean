import Bluesafe.Async.Monitored
import Bluesafe.Spec.Judgment

/-!
# The statistics of the verifiers

`collectVote` counts a case for the verifier in the same piece in which it records the
vote, and `executeJudgment` counts the votes for the ruling in its last piece, after
every transaction has gone through. The counters of one verifier are thus spread over all
disputes on whose panel it sits, and over judgments that may never reach their end.

`serve_consistent` says that every call keeps the number of cases equal to the number of
votes cast. For the second counter the invariant `Tallied` keeps the list of the judgments
that have reached their last piece: each belongs to one method call, which reaches that
piece once, so the list has no repetition, and the votes of its disputes are among all
votes.
-/

namespace Bluesafe.Judge

open Async Transition

/-! ## Consistent memories -/

/-- The number of votes the verifier has cast over all disputes. -/
def Memory.votesCast (s : Memory) (address : String) : Nat :=
  (s.objects.flatMap DisputeSubmission.votes).countP fun v => v.1 = address

/-- The voters are on the panel, the parties of the lease are not. -/
structure SoundPanel (d : DisputeSubmission) : Prop where
  voters : ∀ v ∈ d.votes, v.1 ∈ d.panel
  tenant : d.disputeMeta.parties.tenant ∉ d.panel
  landlord : d.disputeMeta.parties.landlord ∉ d.panel

/-- The addresses of the registered verifiers. -/
def Memory.addresses (s : Memory) : List String :=
  s.verifiers.map VerifierEntry.address

/-- What holds of the panels and of the counted cases in every state of the service. -/
structure Memory.Consistent (s : Memory) : Prop where
  distinct : s.addresses.Nodup
  panels : ∀ d ∈ s.objects, SoundPanel d
  registered : ∀ d ∈ s.objects, ∀ a ∈ d.panel, a ∈ s.addresses
  handled : ∀ v ∈ s.verifiers, v.casesHandled = s.votesCast v.address

/-- The empty registry is consistent. -/
theorem consistent_empty : Memory.empty.Consistent where
  distinct := List.nodup_nil
  panels := by simp [Memory.empty]
  registered := by simp [Memory.empty]
  handled := by simp [Memory.empty]

/-- Nobody votes who is not registered. -/
theorem Memory.Consistent.votesCast_eq_zero {s : Memory} (h : s.Consistent) {address : String}
    (hnew : address ∉ s.addresses) : s.votesCast address = 0 := by
  refine List.countP_eq_zero.mpr fun v hv => ?_
  obtain ⟨d, hd, hvote⟩ := List.mem_flatMap.mp hv
  have hpanel : v.1 ∈ s.addresses := h.registered d hd v.1 ((h.panels d hd).voters v hvote)
  intro heq
  rw [decide_eq_true_eq] at heq
  exact hnew (heq ▸ hpanel)

/-! ## Changes of the two maps -/

/-- The dispute keeps its votes, its panel and its parties. -/
def SameBallot (d d' : DisputeSubmission) : Prop :=
  d'.votes = d.votes ∧ d'.panel = d.panel ∧ d'.disputeMeta = d.disputeMeta

/-- A panel stays sound while its ballot is kept. -/
theorem SoundPanel.of_same {d d' : DisputeSubmission} (h : SoundPanel d) (hsame : SameBallot d d') :
    SoundPanel d' := by
  obtain ⟨hvotes, hpanel, hmeta⟩ := hsame
  refine ⟨?_, ?_, ?_⟩
  · rw [hvotes, hpanel]
    exact h.voters
  · rw [hpanel, hmeta]
    exact h.tenant
  · rw [hpanel, hmeta]
    exact h.landlord

/-- The objects of the heap after a change of one of them. -/
theorem mem_update {s : Memory} {ref : Nat} {f : DisputeSubmission → DisputeSubmission}
    {d' : DisputeSubmission} (h : d' ∈ (s.update ref f).objects) :
    d' ∈ s.objects ∨ ∃ d, s.objects[ref]? = some d ∧ d' = f d := by
  obtain ⟨i, hi⟩ := List.mem_iff_getElem?.mp h
  simp only [Memory.update, List.getElem?_modify, Option.map_eq_map,
    Option.map_eq_some_iff] at hi
  obtain ⟨d, hd, rfl⟩ := hi
  by_cases href : ref = i
  · subst href
    rw [if_pos rfl]
    exact .inr ⟨d, hd, rfl⟩
  · rw [if_neg href]
    exact .inl (List.mem_of_getElem? hd)

/-- A change that leaves votes, panel and parties alone keeps a memory consistent. -/
theorem Memory.Consistent.update {s : Memory} (h : s.Consistent) {ref : Nat}
    {f : DisputeSubmission → DisputeSubmission} (hf : ∀ d, SameBallot d (f d)) :
    (s.update ref f).Consistent := by
  have hvotes : ∀ address, (s.update ref f).votesCast address = s.votesCast address := by
    intro address
    unfold Memory.votesCast Memory.update
    -- a reference outside the heap changes nothing, any other keeps the votes it has
    cases hd : s.objects[ref]? with
    | none =>
      rw [List.modify_eq_self (List.getElem?_eq_none_iff.mp hd)]
    | some d =>
      have hcount := List.countP_flatMap_modify hd f DisputeSubmission.votes
        (fun v => decide (v.1 = address))
      rw [(hf d).1] at hcount
      dsimp only
      omega
  refine ⟨h.distinct, ?_, ?_, ?_⟩
  · intro d' hd'
    rcases mem_update hd' with hold | ⟨d, hd, rfl⟩
    · exact h.panels d' hold
    · exact (h.panels d (List.mem_of_getElem? hd)).of_same (hf d)
  · intro d' hd' a ha
    rcases mem_update hd' with hold | ⟨d, hd, rfl⟩
    · exact h.registered d' hold a ha
    · rw [(hf d).2.1] at ha
      exact h.registered d (List.mem_of_getElem? hd) a ha
  · intro v hv
    rw [hvotes]
    exact h.handled v hv

/-- A change of the verifiers that keeps addresses and counted cases. -/
theorem Memory.Consistent.of_verifiers {s s' : Memory} (h : s.Consistent)
    (hobjects : s'.objects = s.objects) {f : VerifierEntry → VerifierEntry}
    (hverifiers : s'.verifiers = s.verifiers.map f)
    (hf : ∀ v, (f v).address = v.address ∧ (f v).casesHandled = v.casesHandled) :
    s'.Consistent := by
  -- the accounts stay, since a statistic does not change one
  have haddresses : s'.addresses = s.addresses := by
    unfold Memory.addresses
    rw [hverifiers, List.map_map]
    exact List.map_congr_left fun v _ => (hf v).1
  refine ⟨by rw [haddresses]; exact h.distinct, ?_, ?_, ?_⟩
  · rw [hobjects]
    exact h.panels
  · rw [hobjects, haddresses]
    exact h.registered
  -- a counter that grew by the votes that were added
  · intro v' hv'
    rw [hverifiers] at hv'
    obtain ⟨v, hv, rfl⟩ := List.mem_map.mp hv'
    unfold Memory.votesCast
    rw [(hf v).1, (hf v).2, hobjects]
    exact h.handled v hv

/-- The ledger is no part of the registry. -/
theorem Memory.Consistent.of_ledger {s : Memory} (h : s.Consistent) (tx : Tx) :
    (s.applyTx tx).Consistent :=
  ⟨h.distinct, h.panels, h.registered, h.handled⟩

/-! ## The panel -/

/-- The shuffle moves addresses around. `n` positions from `i` down are drawn. -/
theorem mem_shuffleTail {arr : List String} {n i : Nat} {picks : List Nat}
    (h : n = 0 ∨ (n ≤ i + 1 ∧ i < arr.length)) {a : String}
    (ha : a ∈ shuffleTail arr n i picks) : a ∈ arr := by
  -- induction on the number of swaps
  induction n generalizing arr i picks with
  | zero => exact ha
  | succ n ih =>
    -- both positions of the swap are in the list
    have hi : i < arr.length := by omega
    have hj : picks.headD 0 % (i + 1) < arr.length :=
      Nat.lt_of_lt_of_le (Nat.mod_lt _ (Nat.succ_pos i)) hi
    have hget : ∀ k < arr.length, arr.getD k "" ∈ arr := by
      intro k hk
      rw [List.getD_eq_getElem?_getD, List.getElem?_eq_getElem hk]
      exact List.getElem_mem hk
    have hswapped := ih (by simp only [List.length_set]; omega) ha
    -- a member of the swapped list is at one of the two places, or where it was
    rcases List.mem_or_eq_of_mem_set hswapped with hmem | rfl
    · rcases List.mem_or_eq_of_mem_set hmem with hmem | rfl
      · exact hmem
      · exact hget _ hj
    · exact hget _ hi

/-- A selected address is that of a registered verifier who is not excluded. -/
theorem selectVerifiers_ok {s : Memory} {opts : PanelSelectionParams} {picks : List Nat}
    {panel : List String} (h : selectVerifiers s opts picks = .ok panel) {a : String}
    (ha : a ∈ panel) : a ∈ s.addresses ∧ a ∉ opts.excludeAddresses.getD [] := by
  -- a pool that is too small selects nobody
  unfold selectVerifiers at h
  dsimp only at h
  split at h
  · cases h
  · rename_i hsize
    cases h
    have harr := mem_shuffleTail (by rw [List.length_map]; omega) (List.mem_of_mem_drop ha)
    -- a verifier of the panel came from the eligible ones
    obtain ⟨v, hv, rfl⟩ := List.mem_map.mp harr
    obtain ⟨hmem, heligible⟩ := List.mem_filter.mp hv
    refine ⟨List.mem_map.mpr ⟨v, hmem, rfl⟩, fun hexcluded => ?_⟩
    -- an excluded one is not eligible
    unfold isEligible at heligible
    rw [if_pos (by simp [hexcluded])] at heligible
    cases heligible

/-- A new dispute has no votes, and a panel of registered verifiers without the parties. -/
theorem submitDispute_ok {s s' : Memory} {args : SubmitDisputeArgs} {id : String}
    {nowUnix ref : Nat} {picks : List Nat}
    (h : submitDispute s args id nowUnix picks = .ok (ref, s')) :
    ∃ d, s'.objects = s.objects ++ [d] ∧ s'.verifiers = s.verifiers ∧ d.votes = [] ∧
      SoundPanel d ∧ ∀ a ∈ d.panel, a ∈ s.addresses := by
  obtain ⟨panel, hpanel, -, rfl⟩ := submitDispute_cases h
  have hselected := fun a ha => selectVerifiers_ok hpanel (a := a) ha
  have hvotes : (args.opened id nowUnix panel).votes = [] := rfl
  refine ⟨_, rfl, rfl, hvotes, ⟨by simp [hvotes], ?_, ?_⟩, fun a ha => (hselected a ha).1⟩
  · intro htenant
    exact (hselected _ htenant).2 (by simp [SubmitDisputeArgs.panelOptions, SubmitDisputeArgs.opened])
  · intro hlandlord
    exact (hselected _ hlandlord).2 (by simp [SubmitDisputeArgs.panelOptions, SubmitDisputeArgs.opened])

/-! ## Every call keeps the memory consistent -/

/-- A registration keeps the registry consistent. -/
theorem registerVerifier_consistent {s s' : Memory} {v : VerifierInput}
    (h : registerVerifier s v = .ok s') (hs : s.Consistent) : s'.Consistent := by
  unfold registerVerifier at h
  split at h
  · cases h
  · rename_i hany
    cases h
    -- the guard has looked the address up
    have hnew : v.address ∉ s.addresses := by
      intro hmem
      obtain ⟨w, hw, heq⟩ := List.mem_map.mp hmem
      exact hany (List.any_eq_true.mpr ⟨w, hw, by simpa using heq⟩)
    refine ⟨?_, hs.panels, ?_, ?_⟩
    · unfold Memory.addresses
      rw [List.map_append]
      exact List.nodup_append.mpr ⟨hs.distinct, by simp, fun a ha b hb => by
        simp only [List.map_cons, List.map_nil, List.mem_singleton] at hb
        exact fun heq => hnew (hb ▸ heq ▸ ha)⟩
    · intro d hd a ha
      have hold := hs.registered d hd a ha
      unfold Memory.addresses at hold ⊢
      rw [List.map_append]
      exact List.mem_append_left _ hold
    · intro w hw
      rcases List.mem_append.mp hw with hw | hw
      · exact hs.handled w hw
      · rw [List.mem_singleton] at hw
        subst hw
        -- nobody has voted under an address that was not registered
        exact (hs.votesCast_eq_zero hnew).symm

/-- So does a deactivation. -/
theorem deactivateVerifier_consistent {s s' : Memory} {address : String}
    (h : deactivateVerifier s address = .ok s') (hs : s.Consistent) : s'.Consistent := by
  unfold deactivateVerifier at h
  split at h
  · cases h
    refine hs.of_verifiers rfl rfl fun v => ?_
    split
    · exact ⟨rfl, rfl⟩
    · exact ⟨rfl, rfl⟩
  · cases h

/-- A dispute gets a panel of active verifiers. -/
theorem submitDispute_consistent {s s' : Memory} {args : SubmitDisputeArgs} {id : String}
    {nowUnix ref : Nat} {picks : List Nat}
    (h : submitDispute s args id nowUnix picks = .ok (ref, s')) (hs : s.Consistent) :
    s'.Consistent := by
  obtain ⟨d, hobjects, hverifiers, hvotes, hsound, hregistered⟩ := submitDispute_ok h
  have haddresses : s'.addresses = s.addresses := by
    unfold Memory.addresses
    rw [hverifiers]
  -- the heap has one more object, whose panel was selected and which has no votes
  refine ⟨by rw [haddresses]; exact hs.distinct, ?_, ?_, ?_⟩
  · intro d' hd'
    rw [hobjects] at hd'
    rcases List.mem_append.mp hd' with hd' | hd'
    · exact hs.panels d' hd'
    · rw [List.mem_singleton] at hd'
      subst hd'
      exact hsound
  · intro d' hd' a ha
    rw [hobjects] at hd'
    rw [haddresses]
    rcases List.mem_append.mp hd' with hd' | hd'
    · exact hs.registered d' hd' a ha
    · rw [List.mem_singleton] at hd'
      subst hd'
      exact hregistered a ha
  · intro v hv
    rw [hverifiers] at hv
    rw [hs.handled v hv]
    simp [Memory.votesCast, hobjects, hvotes]

/-- A vote is counted once for its verifier. -/
theorem collectVote_consistent {s s' : Memory} {disputeId verifier : String}
    {ruling : DisputeRuling} (h : collectVote s disputeId verifier ruling = .ok s')
    (hs : s.Consistent) : s'.Consistent := by
  obtain ⟨ref, d, hopen, hpanel, hobjects, hverifiers⟩ := collectVote_ok h
  obtain ⟨hd, -, -⟩ := requireOpen_ok hopen
  have haddresses : s'.addresses = s.addresses := by
    unfold Memory.addresses
    rw [hverifiers, List.map_map]
    refine List.map_congr_left fun v _ => ?_
    show (if v.address = verifier then { v with casesHandled := v.casesHandled + 1 }
      else v).address = v.address
    split
    · rfl
    · rfl
  -- The vote counts for the verifier and for nobody else.
  have hcast : ∀ address, s'.votesCast address =
      s.votesCast address + if address = verifier then 1 else 0 := by
    intro address
    unfold Memory.votesCast
    have hcount := List.countP_flatMap_modify hd
      (fun d => { d with votes := d.votes ++ [(verifier, ruling)] }) DisputeSubmission.votes
      (fun v => decide (v.1 = address))
    rw [← hobjects, List.countP_append, List.countP_singleton] at hcount
    simp only [decide_eq_true_eq, eq_comm (a := verifier)] at hcount
    omega
  have hmem : ∀ d' ∈ s'.objects, d' ∈ s.objects ∨
      d' = { d with votes := d.votes ++ [(verifier, ruling)] } := by
    intro d' hd'
    rw [hobjects] at hd'
    rcases mem_update hd' with hold | ⟨d₀, hd₀, rfl⟩
    · exact .inl hold
    · rw [hd, Option.some.injEq] at hd₀
      subst hd₀
      exact .inr rfl
  have hd : d ∈ s.objects := List.mem_of_getElem? hd
  refine ⟨by rw [haddresses]; exact hs.distinct, ?_, ?_, ?_⟩
  · intro d' hd'
    rcases hmem d' hd' with hold | rfl
    · exact hs.panels d' hold
    · refine ⟨fun v hv => ?_, (hs.panels d hd).tenant, (hs.panels d hd).landlord⟩
      rcases List.mem_append.mp hv with hv | hv
      · exact (hs.panels d hd).voters v hv
      · rw [List.mem_singleton] at hv
        subst hv
        exact hpanel
  · intro d' hd' a ha
    rw [haddresses]
    rcases hmem d' hd' with hold | rfl
    · exact hs.registered d' hold a ha
    · exact hs.registered d hd a ha
  · intro v' hv'
    rw [hverifiers] at hv'
    obtain ⟨v, hv, rfl⟩ := List.mem_map.mp hv'
    have hhandled := hs.handled v hv
    rw [hcast]
    by_cases heq : v.address = verifier
    · simp only [if_pos heq, hhandled]
    · simp only [if_neg heq, hhandled, Nat.add_zero]

/-- A withdrawal counts nothing. -/
theorem withdrawDispute_consistent {s s' : Memory} {disputeId claimant : String}
    (h : withdrawDispute s disputeId claimant = .ok s') (hs : s.Consistent) : s'.Consistent := by
  obtain ⟨ref, d, -, rfl⟩ := withdrawDispute_ok h
  exact hs.update fun d => ⟨rfl, rfl, rfl⟩

/-- The verifiers after the accuracy was tracked. -/
theorem trackAccuracy_verifiers {s : Memory} {ref : Nat} {d : DisputeSubmission}
    (hd : s.objects[ref]? = some d) (ruling : DisputeRuling) :
    (trackAccuracy s ref ruling).verifiers = s.verifiers.map fun e =>
      { e with votesWithMajority := e.votesWithMajority +
          (d.votes.filter fun v => v.2 = ruling).countP fun v => v.1 = e.address } := by
  unfold trackAccuracy
  rw [hd]
  dsimp only
  generalize d.votes.filter _ = votes
  clear hd
  -- Each vote changes one entry; the counts of an entry add up over the votes.
  induction votes generalizing s with
  | nil => simp
  | cons v votes ih =>
    rw [List.foldl_cons, ih]
    unfold Memory.updateVerifier
    rw [List.map_map]
    refine List.map_congr_left fun e _ => ?_
    by_cases heq : e.address = v.1
    · simp only [Function.comp_apply, heq, if_true, List.countP_cons, decide_true]
      congr 1
      omega
    · simp [heq, Ne.symm heq]

/-- The accuracy is counted for the votes of the dispute. -/
theorem trackAccuracy_consistent {s : Memory} (hs : s.Consistent) (ref : Nat)
    (ruling : DisputeRuling) : (trackAccuracy s ref ruling).Consistent := by
  cases hd : s.objects[ref]? with
  | none =>
    unfold trackAccuracy
    rw [hd]
    exact hs
  | some d =>
    exact hs.of_verifiers (trackAccuracy_frame s ref ruling).1 (trackAccuracy_verifiers hd ruling)
      fun v => ⟨rfl, rfl⟩

/-- A hash that is noted counts nothing. -/
theorem pushHash_consistent {s : Memory} (hs : s.Consistent) (ref : Nat) (res : TxResponse) :
    (pushHash s ref res).Consistent := by
  unfold pushHash
  split
  · exact hs
  · exact hs.update fun d => ⟨rfl, rfl, rfl⟩

/-- Every call of the service keeps the memory consistent. -/
theorem serve_consistent (op : Call) (c : Choice) {s : Memory} (hs : s.Consistent) :
    (serve op c s).2.Consistent := by
  cases op with
  | registerVerifier v => exact settled_snd hs fun _ h => registerVerifier_consistent h hs
  | deactivateVerifier address =>
    exact settled_snd hs fun _ h => deactivateVerifier_consistent h hs
  | submitDispute args => exact settledWith_snd hs fun _ _ h => submitDispute_consistent h hs
  | collectVote disputeId verifier ruling =>
    exact settled_snd hs fun _ h => collectVote_consistent h hs
  | withdrawDispute disputeId claimant =>
    exact settled_snd hs fun _ h => withdrawDispute_consistent h hs
  | openJudgment disputeId =>
    show (settledWith s (openJudgment s disputeId c.nowUnix)).2.Consistent
    refine settledWith_snd hs fun o s' h => ?_
    obtain ⟨-, -, -, rfl⟩ := openJudgment_ok h
    exact hs.update fun d => ⟨rfl, rfl, rfl⟩
  | pushHash ref res => exact pushHash_consistent hs ref res
  | trackAccuracy ref ruling => exact trackAccuracy_consistent hs ref ruling
  | autofill tx =>
    simp only [serve]
    split
    · exact hs
    · exact hs
  -- the ledger is beside the heap, whether the transaction is applied or rejected
  | submitAndWait tx =>
    simp only [serve]
    split <;> dsimp only <;> split
    · exact hs.of_ledger tx
    · exact hs
    · exact hs.of_ledger tx
    · exact hs

/-! ## The last piece of a judgment -/

/-- The method call has tracked the accuracy of a judgment. -/
def Tracks (l : JudgeLog) : Prop :=
  ∃ ref ruling r, (⟨.trackAccuracy ref ruling, r⟩ : Event calls String) ∈ l

/-- The accuracy is tracked once, for the judgment the method call has opened. -/
def tracksOnce (l : JudgeLog) : Call → Prop
  | .trackAccuracy ref _ => Judges ref l ∧ ¬ Tracks l
  | _ => True

/-- The call is not the last piece of a judgment. -/
def isPayout : Call → Bool
  | .trackAccuracy _ _ => false
  | _ => true

/-- A submission counts nothing. -/
theorem tracksOnce_of_isPayout {op : Call} (h : isPayout op = true) (l : JudgeLog) :
    tracksOnce l op := by
  cases op with
  | trackAccuracy ref ruling => cases h
  | _ => trivial

/-- And adds no count to the log. -/
theorem not_tracks_cons {op : Call} {r : Except String op.Res} {l : JudgeLog}
    (h : isPayout op = true) (hl : ¬ Tracks l) : ¬ Tracks (⟨op, r⟩ :: l) := by
  rintro ⟨ref, ruling, r', hmem⟩
  rcases List.mem_cons.mp hmem with heq | hmem
  · obtain ⟨rfl, -⟩ := Event.mk.inj heq
    cases h
  · exact hl ⟨ref, ruling, r', hmem⟩

/-- A list of submissions only submits. -/
theorem submitAll_only (ref : Nat) (txs : List Tx) :
    Only (fun op : calls.Op => isPayout op = true) (submitAll ref txs) := by
  induction txs with
  | nil => exact Only.pure
  | cons tx txs ih =>
    refine Only.bind ?_ fun _ => ih
    exact Only.bind (Only.bind (Only.call rfl) fun _ => Only.call rfl) fun _ => Only.call rfl

/-- So does a plan. -/
theorem submit_only (ref : Nat) (p : Plan) :
    Only (fun op : calls.Op => isPayout op = true) (p.submit ref) := by
  refine Only.bind (submitAll_only ref p.txs) fun _ => ?_
  cases p.failure with
  | none => exact Only.pure
  | some e => exact Only.throw

/-- A judgment counts the accuracy once, at its end. -/
theorem executeJudgment_tracksOnce (config : Config) (args : ExecuteArgs) :
    Safe tracksOnce (executeJudgment config args) [] := by
  rw [executeJudgment_eq]
  refine Gives.call_bind trivial fun r => ?_
  refine Gives.bind (R := fun o l => Judges o.ref l ∧ ¬ Tracks l)
    (orThrow_gives fun o ho => ⟨⟨args.disputeId, o, ?_, rfl⟩, ?_⟩) fun o l _ h => ?_
  · rw [ho]
    exact List.mem_cons_self
  · exact not_tracks_cons rfl (by simp [Tracks])
  · refine Gives.bind (R := fun _ l => Judges o.ref l ∧ ¬ Tracks l) ?_ fun _ l' _ h' => ?_
    · exact (submit_only o.ref _).gives (fun l' _ hop _ => tracksOnce_of_isPayout hop l')
        (fun l' op r hop hl => ⟨hl.1.grow (List.suffix_cons _ _), not_tracks_cons hop hl.2⟩) h
    · exact Gives.call_then h' fun _ _ _ => trivial

/-- So does every request. -/
theorem handle_tracksOnce (config : Config) (req : Request) :
    Safe tracksOnce (handle config req) [] := by
  cases req with
  | executeJudgment args =>
    exact Gives.bind (executeJudgment_tracksOnce config args) fun _ _ _ _ => trivial
  | submitDispute args =>
    exact Gives.call_then trivial fun _ _ _ =>
      Gives.bind (R := fun _ _ => True) (orThrow_gives fun _ _ => trivial) fun _ _ _ _ => trivial
  | _ => exact Gives.call_then trivial fun _ _ _ => orThrow_gives fun _ _ => trivial

/-! ## Votes with the majority -/

/-- The verifiers have the scores they had; a new one has none. -/
def SameScores (s s' : Memory) : Prop :=
  ∀ v' ∈ s'.verifiers, v'.votesWithMajority = 0 ∨
    ∃ v ∈ s.verifiers, v.address = v'.address ∧ v.votesWithMajority = v'.votesWithMajority

theorem SameScores.refl (s : Memory) : SameScores s s :=
  fun v hv => .inr ⟨v, hv, rfl, rfl⟩

/-- Scores are kept when every verifier keeps its own. -/
theorem sameScores_of_verifiers {s s' : Memory} {f : VerifierEntry → VerifierEntry}
    (hverifiers : s'.verifiers = s.verifiers.map f)
    (hf : ∀ v, (f v).address = v.address ∧ (f v).votesWithMajority = v.votesWithMajority) :
    SameScores s s' := by
  intro v' hv'
  rw [hverifiers] at hv'
  obtain ⟨v, hv, rfl⟩ := List.mem_map.mp hv'
  exact .inr ⟨v, hv, (hf v).1.symm, (hf v).2.symm⟩

/-- They are kept with the registry. -/
theorem sameScores_of_eq {s s' : Memory} (h : s'.verifiers = s.verifiers) : SameScores s s' :=
  fun v hv => .inr ⟨v, h ▸ hv, rfl, rfl⟩

/-- Only the last piece of a judgment changes scores. -/
theorem serve_sameScores {op : Call} (hop : isPayout op = true) (c : Choice) (s : Memory) :
    SameScores s (serve op c s).2 := by
  cases op with
  | registerVerifier v =>
    refine settled_snd (Q := SameScores s) (.refl s) fun s' h => ?_
    unfold registerVerifier at h
    split at h
    · cases h
    · cases h
      intro v' hv'
      rcases List.mem_append.mp hv' with hv' | hv'
      · exact .inr ⟨v', hv', rfl, rfl⟩
      · rw [List.mem_singleton] at hv'
        subst hv'
        exact .inl rfl
  | deactivateVerifier address =>
    refine settled_snd (Q := SameScores s) (.refl s) fun s' h => ?_
    unfold deactivateVerifier at h
    split at h
    · cases h
      refine sameScores_of_verifiers rfl fun v => ?_
      split
      · exact ⟨rfl, rfl⟩
      · exact ⟨rfl, rfl⟩
    · cases h
  | submitDispute args =>
    refine settledWith_snd (Q := SameScores s) (.refl s) fun _ _ h => ?_
    obtain ⟨d, -, hverifiers, -⟩ := submitDispute_ok h
    exact sameScores_of_eq hverifiers
  | collectVote disputeId verifier ruling =>
    refine settled_snd (Q := SameScores s) (.refl s) fun _ h => ?_
    obtain ⟨ref, d, -, -, -, hverifiers⟩ := collectVote_ok h
    refine sameScores_of_verifiers hverifiers fun v => ?_
    split
    · exact ⟨rfl, rfl⟩
    · exact ⟨rfl, rfl⟩
  | withdrawDispute disputeId claimant =>
    refine settled_snd (Q := SameScores s) (.refl s) fun _ h => ?_
    obtain ⟨ref, d, -, rfl⟩ := withdrawDispute_ok h
    exact sameScores_of_eq rfl
  | openJudgment disputeId =>
    refine settledWith_snd (Q := SameScores s) (.refl s) fun o s' h => ?_
    obtain ⟨-, -, -, rfl⟩ := openJudgment_ok h
    exact sameScores_of_eq rfl
  | pushHash ref res =>
    refine sameScores_of_eq ?_
    simp only [serve, pushHash]
    split
    · rfl
    · rfl
  -- the call that the condition excludes
  | trackAccuracy ref ruling => cases hop
  | autofill tx =>
    simp only [serve]
    split
    · exact .refl s
    · exact .refl s
  | submitAndWait tx =>
    refine sameScores_of_eq ?_
    simp only [serve]
    split <;> dsimp only <;> split <;> rfl

/-- The votes of the verifier in the disputes at the given places. -/
def Memory.votesIn (s : Memory) (refs : List Nat) (address : String) : Nat :=
  (refs.flatMap (s.objects.flatAt DisputeSubmission.votes)).countP fun v => v.1 = address

/-- The judgments at the given places have been tracked: no verifier has been with the
    majority more often than it has voted there. -/
structure Memory.Scored (s : Memory) (tracked : List Nat) : Prop where
  nodup : tracked.Nodup
  judged : ∀ ref ∈ tracked, s.Judged ref
  majority : ∀ v ∈ s.verifiers, v.votesWithMajority ≤ s.votesIn tracked v.address

/-- A registry without verifiers has no scores. -/
theorem scored_nil {s : Memory} (h : s.verifiers = []) : s.Scored [] where
  nodup := List.nodup_nil
  judged := by simp
  majority := by simp [h]

/-- The tracked disputes are judged, so their votes no longer change. -/
theorem Memory.Scored.keeps {s s' : Memory} {tracked : List Nat} (h : s.Scored tracked)
    (hkeeps : s.Keeps s') (hscores : SameScores s s') : s'.Scored tracked := by
  have hvotes : ∀ ref ∈ tracked, s'.objects.flatAt DisputeSubmission.votes ref =
      s.objects.flatAt DisputeSubmission.votes ref := by
    intro ref href
    obtain ⟨d, hd, -, hruling⟩ := h.judged ref href
    obtain ⟨d', hd', hfrozen⟩ := hkeeps ref d hd
    rw [List.flatAt_of_getElem? hd, List.flatAt_of_getElem? hd']
    exact (hfrozen hruling).1
  refine ⟨h.nodup, fun ref href => (h.judged ref href).keeps hkeeps, ?_⟩
  intro v' hv'
  unfold Memory.votesIn
  rw [List.flatMap_congr hvotes]
  rcases hscores v' hv' with hzero | ⟨v, hv, haddress, hscore⟩
  · rw [hzero]
    exact Nat.zero_le _
  · rw [← haddress, ← hscore]
    exact h.majority v hv

/-- A further judgment is tracked. -/
theorem Memory.Scored.track {s : Memory} {tracked : List Nat} (h : s.Scored tracked) {ref : Nat}
    (hjudged : s.Judged ref) (hnew : ref ∉ tracked) (ruling : DisputeRuling) :
    (trackAccuracy s ref ruling).Scored (ref :: tracked) := by
  -- the counting changes the verifiers only, not the disputes
  have hobjects := (trackAccuracy_frame s ref ruling).1
  have hkeeps : s.Keeps (trackAccuracy s ref ruling) := .of_objects hobjects
  have hstill := hjudged.keeps hkeeps
  obtain ⟨d, hd, -⟩ := hjudged
  refine ⟨List.nodup_cons.mpr ⟨hnew, h.nodup⟩, ?_, ?_⟩
  -- the disputes counted so far, this one included, are judged
  · intro ref' href'
    rcases List.mem_cons.mp href' with rfl | href'
    · exact hstill
    · exact (h.judged ref' href').keeps hkeeps
  -- the counters grow by the votes of this dispute
  · intro v' hv'
    rw [trackAccuracy_verifiers hd ruling] at hv'
    obtain ⟨v, hv, rfl⟩ := List.mem_map.mp hv'
    have hold := h.majority v hv
    -- the votes of the majority are among the votes
    have hle : (d.votes.filter fun w => w.2 = ruling).countP (fun w => decide (w.1 = v.address)) ≤
        d.votes.countP fun w => decide (w.1 = v.address) :=
      List.filter_sublist.countP_le
    unfold Memory.votesIn at hold ⊢
    rw [hobjects, List.flatMap_cons, List.countP_append, List.flatAt_of_getElem? hd]
    dsimp only
    omega

/-- In a consistent memory the second counter stays below the first. -/
theorem Memory.Scored.le_casesHandled {s : Memory} {tracked : List Nat} (h : s.Scored tracked)
    (hs : s.Consistent) {v : VerifierEntry} (hv : v ∈ s.verifiers) :
    v.votesWithMajority ≤ v.casesHandled := by
  have hlt : ∀ ref ∈ tracked, ref < s.objects.length := by
    intro ref href
    obtain ⟨d, hd, -⟩ := h.judged ref href
    exact (List.getElem?_eq_some_iff.mp hd).1
  have hle : s.votesIn tracked v.address ≤ s.votesCast v.address :=
    List.countP_flatMap_flatAt_le h.nodup hlt _ _
  have hmajority := h.majority v hv
  rw [hs.handled v hv]
  omega

/-! ## Every interleaving -/

/-- The method call has opened the judgment at `ref` and tracked it. -/
def Completes (ref : Nat) (l : JudgeLog) : Prop :=
  Judges ref l ∧ Tracks l

/-- A judgment that is complete stays complete. -/
theorem Completes.grow {ref : Nat} {l : JudgeLog} (h : Completes ref l) (ev : Event calls String) :
    Completes ref (ev :: l) := by
  obtain ⟨hjudges, ref', ruling, r, hmem⟩ := h
  exact ⟨hjudges.grow (List.suffix_cons _ _), ref', ruling, r, List.mem_cons_of_mem _ hmem⟩

/-- What holds in every state of the service; each tracked judgment belongs to a method call
    that has completed it. -/
structure Tallied (P : JudgePool) : Prop where
  exclusive : Exclusive P
  safe : ∀ th ∈ P.threads, th.Safe fun _ => tracksOnce
  consistent : P.store.Consistent
  scored : ∃ tracked, P.store.Scored tracked ∧
    ∀ ref ∈ tracked, ∃ th ∈ P.threads, Completes ref th.log

/-- At the start nothing is counted. -/
theorem tallied_nil : Tallied ⟨Memory.empty, []⟩ where
  exclusive := exclusive_nil _
  safe := by simp
  consistent := consistent_empty
  scored := ⟨[], scored_nil rfl, by simp⟩

/-- A call of a method call: it tracks a judgment of its own, or it leaves the scores alone. -/
theorem Tallied.scored_advance {P : JudgePool} (h : Tallied P) {i : Nat} {th : JudgeThread}
    {op : Call} {c : Choice} {k : Except String op.Res → JudgeM Unit}
    (hth : P.threads[i]? = some th) (hprog : th.prog = .await op k) :
    ∃ tracked, (serve op c P.store).2.Scored tracked ∧ ∀ ref ∈ tracked,
      ∃ u ∈ P.threads.set i (th.resume op (serve op c P.store).1 k), Completes ref u.log := by
  have hmem : th ∈ P.threads := List.mem_of_getElem? hth
  have hok := (h.safe th hmem).ok_of_await hprog
  obtain ⟨tracked, hscored, hcomplete⟩ := h.scored
  have hnext : th.resume op (serve op c P.store).1 k ∈
      P.threads.set i (th.resume op (serve op c P.store).1 k) :=
    List.mem_set (List.getElem?_eq_some_iff.mp hth).1 _
  -- A method call that has completed a judgment has still completed it.
  have hstill : ∀ ref ∈ tracked,
      ∃ u ∈ P.threads.set i (th.resume op (serve op c P.store).1 k), Completes ref u.log := by
    intro ref href
    obtain ⟨u, hu, hdone⟩ := hcomplete ref href
    rcases mem_set_of_mem hth hu (th.resume op (serve op c P.store).1 k) with rfl | hu
    · exact ⟨_, hnext, hdone.grow _⟩
    · exact ⟨u, hu, hdone⟩
  by_cases hop : isPayout op = true
  · exact ⟨tracked, hscored.keeps (serve_keeps op c P.store) (serve_sameScores hop c P.store),
      hstill⟩
  · cases op with
    | trackAccuracy ref ruling =>
      obtain ⟨hjudges, huntracked⟩ := hok
      have hnew : ref ∉ tracked := by
        intro href
        obtain ⟨u, hu, hdone⟩ := hcomplete ref href
        obtain ⟨j, hj⟩ := List.mem_iff_getElem?.mp hu
        have hij : i = j := h.exclusive.one ref i j th u hth hj hjudges hdone.1
        subst hij
        rw [hth, Option.some.injEq] at hj
        subst hj
        exact huntracked hdone.2
      have hjudged := h.exclusive.judged th hmem ref hjudges
      refine ⟨ref :: tracked, hscored.track hjudged hnew ruling, ?_⟩
      intro ref' href'
      rcases List.mem_cons.mp href' with rfl | href'
      · exact ⟨_, hnext, hjudges.grow (List.suffix_cons _ _), ref', ruling, _,
          List.mem_cons_self⟩
      · exact hstill ref' href'
    | _ => exact absurd rfl hop

/-- Every step keeps the tally. -/
theorem tallied_step {config : Config} {P P' : JudgePool} {a : Act Request Choice}
    (h : judgeStep config P a = some P') (hP : Tallied P) : Tallied P' := by
  have hexclusive := exclusive_step h hP.exclusive
  have hsafe := poolStep_safe (handle_tracksOnce config) h hP.safe
  obtain ⟨req, -, rfl⟩ | ⟨i, c, th, op, k, -, hth, hprog, -, rfl⟩ := poolStep_cases h
  · obtain ⟨tracked, hscored, hcomplete⟩ := hP.scored
    refine ⟨hexclusive, hsafe, hP.consistent, tracked, hscored, fun ref href => ?_⟩
    obtain ⟨th, hth, hdone⟩ := hcomplete ref href
    exact ⟨th, List.mem_append_left _ hth, hdone⟩
  · exact ⟨hexclusive, hsafe, serve_consistent op c hP.consistent, hP.scored_advance hth hprog⟩

/-- And so does every run. -/
theorem tallied_run {config : Config} {ms : List (Move JudgePool (Act Request Choice))}
    {P : JudgePool} (run : Run (judgeStep config) ⟨Memory.empty, []⟩ ms P) : Tallied P :=
  run.invariant (C := fun _ => True) (fun _ _ => trivial) tallied_nil
    fun _ hstep _ hP => tallied_step hstep hP

/-- In every state the service can reach, whatever calls are in progress and wherever a
    judgment was rejected: no verifier has been with the majority more often than it handled
    cases, its cases are the votes it has cast over all disputes, the voters of a dispute are
    on its panel, and neither party of the lease is. -/
theorem verifier_statistics (config : Config) (ms : List (Move JudgePool (Act Request Choice)))
    (P : JudgePool) (run : Run (judgeStep config) ⟨Memory.empty, []⟩ ms P) :
    (∀ v ∈ P.store.verifiers, v.votesWithMajority ≤ v.casesHandled ∧
      v.casesHandled = P.store.votesCast v.address) ∧
    ∀ d ∈ P.store.objects, (∀ vote ∈ d.votes, vote.1 ∈ d.panel) ∧
      d.disputeMeta.parties.tenant ∉ d.panel ∧ d.disputeMeta.parties.landlord ∉ d.panel := by
  have hP := tallied_run run
  obtain ⟨tracked, hscored, -⟩ := hP.scored
  constructor
  · intro v hv
    exact ⟨hscored.le_casesHandled hP.consistent hv, hP.consistent.handled v hv⟩
  · intro d hd
    have hsound := hP.consistent.panels d hd
    exact ⟨hsound.voters, hsound.tenant, hsound.landlord⟩

/-- The only verifier of a dispute votes, and its judgment is requested. -/
def votedSchedule : List (Act Request Choice) :=
  (sampleRequests.take 4).map Act.spawn ++
    [.advance 0 {}, .advance 1 { id := "d1" }, .advance 2 {}]

/-- The judgment then runs to its end. -/
def trackedSchedule : List (Act Request Choice) :=
  votedSchedule ++ List.replicate 11 (.advance 3 { response := ⟨some "H", some "tesSUCCESS"⟩ })

/-- The verifier has handled one case and was with the majority. -/
def trackedOutcome (P : JudgePool) : Bool :=
  decide (P.store.verifiers = [⟨"rVerifier", true, none, none, 1, 1⟩])

theorem verifier_statistics_tracked :
    ∃ ms P, Run (judgeStep sampleConfig) ⟨Memory.empty, []⟩ ms P ∧
      P.store.verifiers = [⟨"rVerifier", true, none, none, 1, 1⟩] ∧
      (∀ v ∈ P.store.verifiers, v.casesHandled = P.store.votesCast v.address) := by
  obtain ⟨ms, P, run, hp⟩ := exists_run_of_replay trackedSchedule
    (fun r => trackedOutcome r.2)
    (by decide +kernel : (replay (judgeStep sampleConfig) ⟨Memory.empty, []⟩ _ []).any _ = true)
  simp only [trackedOutcome, decide_eq_true_eq] at hp
  have hstats := (verifier_statistics sampleConfig ms P run).1
  exact ⟨ms, P, run, hp, fun v hv => (hstats v hv).2⟩

end Bluesafe.Judge
