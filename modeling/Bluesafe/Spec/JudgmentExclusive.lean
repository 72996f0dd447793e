import Bluesafe.Judge.Service
import Bluesafe.Async.Safe
import Bluesafe.ForStd.Except

/-!
# Judgments exclude each other

`executeJudgment` sets the ruling in the same synchronous piece in which it finds the
dispute open, before its first await. From then on `requireOpen` refuses the dispute, so
no other call votes on it, withdraws it or judges it.

`serve_keeps` says what one call does to the disputes of the heap: a dispute stays in its
place, and one that has a ruling keeps its votes, its flag and its ruling. The invariant
`Exclusive` follows the calls that opened a judgment through every interleaving.
-/

namespace Bluesafe.Judge

open Async Transition

/-! ## What a call does to a dispute -/

/-- The votes, the flag and the ruling of a dispute are those of another. -/
def SameVerdict (d d' : DisputeSubmission) : Prop :=
  d'.votes = d.votes ∧ d'.withdrawn = d.withdrawn ∧ d'.ruling = d.ruling

/-- A dispute with a ruling keeps its votes, its flag and its ruling. -/
def Frozen (d d' : DisputeSubmission) : Prop :=
  d.ruling.isSome → SameVerdict d d'

theorem Frozen.refl (d : DisputeSubmission) : Frozen d d := fun _ => ⟨rfl, rfl, rfl⟩

theorem Frozen.trans {d d' d'' : DisputeSubmission} (h : Frozen d d') (h' : Frozen d' d'') :
    Frozen d d'' := by
  intro hruled
  obtain ⟨hvotes, hwithdrawn, hruling⟩ := h hruled
  have hruled' : d'.ruling.isSome := by rw [hruling]; exact hruled
  obtain ⟨hvotes', hwithdrawn', hruling'⟩ := h' hruled'
  exact ⟨hvotes'.trans hvotes, hwithdrawn'.trans hwithdrawn, hruling'.trans hruling⟩

/-- Every dispute stays in its place, and those with a ruling keep their verdict. -/
def Memory.Keeps (s s' : Memory) : Prop :=
  ∀ (ref : Nat) d, s.objects[ref]? = some d → ∃ d', s'.objects[ref]? = some d' ∧ Frozen d d'

theorem Memory.Keeps.refl (s : Memory) : s.Keeps s := fun _ d h => ⟨d, h, .refl d⟩

theorem Memory.Keeps.trans {s s' s'' : Memory} (h : s.Keeps s') (h' : s'.Keeps s'') :
    s.Keeps s'' := by
  intro ref d hd
  obtain ⟨d', hd', hfrozen⟩ := h ref d hd
  obtain ⟨d'', hd'', hfrozen'⟩ := h' ref d' hd'
  exact ⟨d'', hd'', hfrozen.trans hfrozen'⟩

/-- A step that writes no dispute keeps them all. -/
theorem Memory.Keeps.of_objects {s s' : Memory} (h : s'.objects = s.objects) : s.Keeps s' := by
  intro ref d hd
  exact ⟨d, h ▸ hd, .refl d⟩

/-- A change of one dispute keeps the others, and itself where it does not touch a verdict. -/
theorem Memory.keeps_update {s : Memory} {ref : Nat} {f : DisputeSubmission → DisputeSubmission}
    (h : ∀ d, s.objects[ref]? = some d → Frozen d (f d)) : s.Keeps (s.update ref f) := by
  intro i d hd
  simp only [Memory.update, List.getElem?_modify, hd, Option.map_eq_map, Option.map_some]
  by_cases hi : ref = i
  · subst hi
    rw [if_pos rfl]
    exact ⟨f d, rfl, h d hd⟩
  · rw [if_neg hi]
    exact ⟨d, rfl, .refl d⟩

/-- `requireOpen` returns an object of the heap that is neither withdrawn nor judged. -/
theorem requireOpen_ok {s : Memory} {id : String} {ref : Nat} {d : DisputeSubmission}
    (h : requireOpen s id = .ok (ref, d)) :
    s.objects[ref]? = some d ∧ d.withdrawn = false ∧ d.ruling = none := by
  -- the three refusals: no such dispute, withdrawn, or already ruled
  unfold requireOpen at h
  split at h
  · exact nomatch h
  · rename_i ref' d' hget
    split at h
    · exact nomatch h
    · rename_i hwithdrawn
      split at h
      · exact nomatch h
      · rename_i hruling
        cases h
        simp only [Memory.getDispute, Option.bind_eq_bind, Option.bind_eq_some_iff,
          Option.pure_def, Option.some.injEq, Prod.mk.injEq] at hget
        obtain ⟨ref'', -, d'', hd, rfl, rfl⟩ := hget
        -- none of them was taken, so the dispute is open
        exact ⟨hd, by simpa using hwithdrawn, by simpa using hruling⟩

/-- An open dispute may be changed in any way. -/
theorem Memory.keeps_update_open {s : Memory} {id : String} {ref : Nat} {d : DisputeSubmission}
    {f : DisputeSubmission → DisputeSubmission} (h : requireOpen s id = .ok (ref, d)) :
    s.Keeps (s.update ref f) := by
  obtain ⟨hd, -, hruling⟩ := requireOpen_ok h
  refine Memory.keeps_update fun d' hd' hruled => ?_
  rw [hd, Option.some.injEq] at hd'
  subst hd'
  simp [hruling] at hruled

/-- The panel of a dispute is selected without the parties. -/
def SubmitDisputeArgs.panelOptions (args : SubmitDisputeArgs) : PanelSelectionParams :=
  let opts := args.panelSelection.getD {}
  { opts with
    excludeAddresses := some (opts.excludeAddresses.getD [] ++
      [args.disputeMeta.parties.tenant, args.disputeMeta.parties.landlord]) }

/-- A dispute when it is opened. -/
def SubmitDisputeArgs.opened (args : SubmitDisputeArgs) (id : String) (nowUnix : Nat)
    (panel : List String) : DisputeSubmission where
  disputeId := id
  claimant := args.claimant
  evidenceHashHex := args.evidenceHashHex
  openedAtUnix := nowUnix
  votingDeadlineUnix := nowUnix + votingPeriodSeconds
  panel := panel
  votes := []
  withdrawn := false
  ruling := none
  executedTxs := none
  disputeMeta := args.disputeMeta

/-- A submission puts a dispute with a selected panel behind the others. -/
theorem submitDispute_cases {s s' : Memory} {args : SubmitDisputeArgs} {id : String}
    {nowUnix ref : Nat} {picks : List Nat}
    (h : submitDispute s args id nowUnix picks = .ok (ref, s')) :
    ∃ panel, selectVerifiers s args.panelOptions picks = .ok panel ∧ ref = s.objects.length ∧
      s' = { s with
        objects := s.objects ++ [args.opened id nowUnix panel]
        disputes := (id, s.objects.length) :: s.disputes } := by
  unfold submitDispute at h
  dsimp only at h
  split at h
  · cases h
  · obtain ⟨panel, hpanel, h⟩ := Except.exists_of_bind_eq_ok h
    cases h
    exact ⟨panel, hpanel, rfl, rfl⟩

/-- A new dispute leaves the others. -/
theorem submitDispute_keeps {s s' : Memory} {args : SubmitDisputeArgs} {id : String}
    {nowUnix ref : Nat} {picks : List Nat}
    (h : submitDispute s args id nowUnix picks = .ok (ref, s')) : s.Keeps s' := by
  obtain ⟨panel, -, -, rfl⟩ := submitDispute_cases h
  intro i d hd
  have hi : i < s.objects.length := (List.getElem?_eq_some_iff.mp hd).1
  exact ⟨d, by rw [List.getElem?_append_left hi]; exact hd, .refl d⟩

/-- What a vote changes: the votes of one open dispute and the cases of one verifier. -/
theorem collectVote_ok {s s' : Memory} {disputeId verifier : String} {ruling : DisputeRuling}
    (h : collectVote s disputeId verifier ruling = .ok s') :
    ∃ ref d, requireOpen s disputeId = .ok (ref, d) ∧ verifier ∈ d.panel ∧
      s'.objects = s.objects.modify ref (fun d =>
        { d with votes := d.votes ++ [(verifier, ruling)] }) ∧
      s'.verifiers = s.verifiers.map fun v =>
        if v.address = verifier then { v with casesHandled := v.casesHandled + 1 } else v := by
  obtain ⟨⟨ref, d⟩, hopen, h⟩ := Except.exists_of_bind_eq_ok h
  dsimp only at h
  split at h
  · cases h
  · rename_i hpanel
    split at h
    · cases h
    · cases h
      exact ⟨ref, d, hopen, by simpa using hpanel, rfl, rfl⟩

/-- A vote leaves what a judgment has frozen. -/
theorem collectVote_keeps {s s' : Memory} {disputeId verifier : String} {ruling : DisputeRuling}
    (h : collectVote s disputeId verifier ruling = .ok s') : s.Keeps s' := by
  obtain ⟨ref, d, hopen, -, hobjects, -⟩ := collectVote_ok h
  exact (Memory.keeps_update_open hopen).trans (.of_objects hobjects)

/-- A withdrawal marks an open dispute. -/
theorem withdrawDispute_ok {s s' : Memory} {disputeId claimant : String}
    (h : withdrawDispute s disputeId claimant = .ok s') :
    ∃ ref d, requireOpen s disputeId = .ok (ref, d) ∧
      s' = s.update ref fun d => { d with withdrawn := true } := by
  obtain ⟨⟨ref, d⟩, hopen, h⟩ := Except.exists_of_bind_eq_ok h
  dsimp only at h
  split at h
  · cases h
  · cases h
    exact ⟨ref, d, hopen, rfl⟩

/-- So does a withdrawal. -/
theorem withdrawDispute_keeps {s s' : Memory} {disputeId claimant : String}
    (h : withdrawDispute s disputeId claimant = .ok s') : s.Keeps s' := by
  obtain ⟨ref, d, hopen, rfl⟩ := withdrawDispute_ok h
  exact Memory.keeps_update_open hopen

/-- What the first piece of a judgment finds and leaves. -/
theorem openJudgment_ok {s s' : Memory} {disputeId : String} {nowUnix : Nat} {o : Opened}
    (h : openJudgment s disputeId nowUnix = .ok (o, s')) :
    requireOpen s disputeId = .ok (o.ref, o.dispute) ∧
    computeRuling o.dispute nowUnix = .ok o.ruling ∧ o.tally = countVotes o.dispute ∧
    s' = s.update o.ref fun d => { d with ruling := some o.ruling, executedTxs := some [] } := by
  obtain ⟨⟨ref, d⟩, hopen, h⟩ := Except.exists_of_bind_eq_ok h
  obtain ⟨ruling, hruling, h⟩ := Except.exists_of_bind_eq_ok h
  cases h
  exact ⟨hopen, hruling, rfl, rfl⟩

/-- Pushing a hash touches no verdict. -/
theorem pushHash_keeps (s : Memory) (ref : Nat) (res : TxResponse) :
    s.Keeps (pushHash s ref res) := by
  unfold pushHash
  split
  · exact .refl s
  · exact Memory.keeps_update fun d _ _ => ⟨rfl, rfl, rfl⟩

/-- Tracking the accuracy changes verifiers only. -/
theorem trackAccuracy_frame (s : Memory) (ref : Nat) (ruling : DisputeRuling) :
    (trackAccuracy s ref ruling).objects = s.objects ∧
    (trackAccuracy s ref ruling).disputes = s.disputes ∧
    (trackAccuracy s ref ruling).ledger = s.ledger := by
  unfold trackAccuracy
  split
  · exact ⟨rfl, rfl, rfl⟩
  · rename_i d hd
    clear hd
    generalize d.votes.filter _ = votes
    induction votes generalizing s with
    | nil => exact ⟨rfl, rfl, rfl⟩
    | cons v votes ih => exact ih _

/-- A method that throws leaves the memory as it was. -/
theorem settled_snd {Q : Memory → Prop} {s : Memory} {r : Except String Memory} (hs : Q s)
    (h : ∀ s', r = .ok s' → Q s') : Q (settled s r).2 := by
  cases r with
  | error e => exact hs
  | ok s' => exact h s' rfl

/-- An operation that fails changes nothing. -/
theorem settledWith_snd {α : Type} {Q : Memory → Prop} {s : Memory}
    {r : Except String (α × Memory)} (hs : Q s) (h : ∀ a s', r = .ok (a, s') → Q s') :
    Q (settledWith s r).2 := by
  cases r with
  | error e => exact hs
  | ok x => exact h x.1 x.2 rfl

/-- What every call of the service does to the disputes. -/
theorem serve_keeps (op : Call) (c : Choice) (s : Memory) : s.Keeps (serve op c s).2 := by
  cases op with
  | registerVerifier v =>
    refine settled_snd (Q := s.Keeps) (.refl s) fun s' h => .of_objects ?_
    unfold registerVerifier at h
    split at h
    · exact nomatch h
    · cases h
      rfl
  | deactivateVerifier address =>
    refine settled_snd (Q := s.Keeps) (.refl s) fun s' h => .of_objects ?_
    unfold deactivateVerifier at h
    split at h
    · cases h
      rfl
    · exact nomatch h
  | submitDispute args =>
    exact settledWith_snd (Q := s.Keeps) (.refl s) fun _ _ h => submitDispute_keeps h
  | collectVote disputeId verifier ruling =>
    exact settled_snd (Q := s.Keeps) (.refl s) fun _ h => collectVote_keeps h
  | withdrawDispute disputeId claimant =>
    exact settled_snd (Q := s.Keeps) (.refl s) fun _ h => withdrawDispute_keeps h
  | openJudgment disputeId =>
    refine settledWith_snd (Q := s.Keeps) (.refl s) fun o s' h => ?_
    obtain ⟨hopen, -, -, rfl⟩ := openJudgment_ok h
    exact Memory.keeps_update_open hopen
  | pushHash ref res => exact pushHash_keeps s ref res
  | trackAccuracy ref ruling => exact .of_objects (trackAccuracy_frame s ref ruling).1
  | autofill tx =>
    simp only [serve]
    split
    · exact .refl s
    · exact .refl s
  | submitAndWait tx =>
    -- The ledger is not part of the heap.
    refine .of_objects ?_
    simp only [serve]
    split <;> dsimp only <;> split <;> rfl

/-! ## The judgment a call has opened -/

/-- The method call has opened the judgment of the dispute at `ref`. -/
def Judges (ref : Nat) (l : JudgeLog) : Prop :=
  ∃ id o, (⟨.openJudgment id, .ok (.ok o)⟩ : Event calls String) ∈ l ∧ o.ref = ref

/-- The method call has submitted a transaction. -/
def Submits (l : JudgeLog) : Prop :=
  ∃ tx r, (⟨.submitAndWait tx, r⟩ : Event calls String) ∈ l

/-- A transaction is submitted only by a method call that has opened a judgment. -/
def submitsOpened (l : JudgeLog) : Call → Prop
  | .submitAndWait _ => ∃ ref, Judges ref l
  | _ => True

/-- A request that judges a dispute goes on judging it. -/
theorem Judges.grow {ref : Nat} {l l' : JudgeLog} (h : Judges ref l) (hl : l <:+ l') :
    Judges ref l' := by
  obtain ⟨id, o, hmem, href⟩ := h
  exact ⟨id, o, hl.mem hmem, href⟩

/-- The rule for a result that may be an error. -/
theorem orThrow_gives {ok : JudgeLog → Call → Prop} {α : Type} {r : Except String α}
    {R : α → JudgeLog → Prop} {l : JudgeLog} (h : ∀ a, r = .ok a → R a l) :
    Gives ok (orThrow r) R l := by
  cases r with
  | error e => exact Gives.throw
  | ok a => exact h a rfl

/-- A submission is for the dispute that was opened. -/
theorem submitAndPush_safe {ref₀ ref : Nat} {tx : Tx} {l : JudgeLog} (h : Judges ref₀ l) :
    Safe submitsOpened (submitAndPush ref tx) l := by
  unfold submitAndPush signAndSubmit
  refine Gives.bind (R := fun _ _ => True) ?_ fun res l' _ _ => ?_
  · refine Gives.call_then trivial fun _ l' hl => ?_
    exact Gives.call (show ∃ ref, Judges ref l' from ⟨ref₀, h.grow hl⟩) fun _ => trivial
  · exact Gives.call trivial fun _ => trivial

/-- Finishing the stake. -/
theorem finishStake_safe {config : Config} {o : Opened} {signer : String} {ref₀ : Nat}
    {l : JudgeLog} (h : Judges ref₀ l) : Safe submitsOpened (finishStake config o signer) l := by
  unfold finishStake
  refine Gives.bind (R := fun _ _ => True) (orThrow_gives fun _ _ => trivial) ?_
  intro tx l' hl _
  exact submitAndPush_safe (h.grow hl)

/-- Slashing it. -/
theorem slashStake_safe {config : Config} {o : Opened} {funder : String} {ref₀ : Nat}
    {l : JudgeLog} (h : Judges ref₀ l) : Safe submitsOpened (slashStake config o funder) l := by
  unfold slashStake
  split
  · exact Gives.throw
  · refine Gives.bind (finishStake_safe h) fun _ l₁ hl₁ _ => ?_
    split
    · exact Gives.throw
    · refine Gives.bind (submitAndPush_safe (h.grow hl₁)) fun _ l₂ hl₂ _ => ?_
      exact submitAndPush_safe (h.grow (hl₁.trans hl₂))

/-- Finishing the deposit. -/
theorem finishDeposit_safe {config : Config} {o : Opened} {signer : String} {ref₀ : Nat}
    {l : JudgeLog} (h : Judges ref₀ l) : Safe submitsOpened (finishDeposit config o signer) l := by
  unfold finishDeposit
  refine Gives.bind (R := fun _ _ => True) (orThrow_gives fun _ _ => trivial) ?_
  intro tx l' hl _
  exact submitAndPush_safe (h.grow hl)

/-- Settling both escrows. -/
theorem settleEscrows_safe {config : Config} {args : ExecuteArgs} {o : Opened} {ref₀ : Nat}
    {l : JudgeLog} (h : Judges ref₀ l) : Safe submitsOpened (settleEscrows config args o) l := by
  unfold settleEscrows
  split
  · exact Gives.bind (submitAndPush_safe h) fun _ l' hl _ => slashStake_safe (h.grow hl)
  · exact Gives.bind (finishDeposit_safe h) fun _ l' hl _ => finishStake_safe (h.grow hl)
  · exact Gives.bind (submitAndPush_safe h) fun _ l' hl _ => finishStake_safe (h.grow hl)

/-- Minting the mark. -/
theorem mintJudgment_safe {args : ExecuteArgs} {o : Opened} {ref₀ : Nat} {l : JudgeLog}
    (h : Judges ref₀ l) : Safe submitsOpened (mintJudgment args o) l := by
  unfold mintJudgment
  refine Gives.bind (R := fun _ _ => True) (orThrow_gives fun _ _ => trivial) ?_
  intro nft l' hl _
  exact submitAndPush_safe (h.grow hl)

/-- Every submission of `executeJudgment` comes after the judgment was opened. -/
theorem executeJudgment_safe (config : Config) (args : ExecuteArgs) (l : JudgeLog) :
    Safe submitsOpened (executeJudgment config args) l := by
  unfold executeJudgment
  refine Gives.call_read trivial fun r l₁ _ hr => ?_
  refine Gives.bind (R := fun o l => Judges o.ref l)
    (orThrow_gives fun o ho => ⟨args.disputeId, o, ho ▸ hr, rfl⟩) fun o l₂ _ h => ?_
  refine Gives.bind (settleEscrows_safe h) fun _ l₃ hl₃ _ => ?_
  refine Gives.bind (mintJudgment_safe (h.grow hl₃)) fun _ l₄ _ _ => ?_
  exact Gives.call_then trivial fun _ _ _ => trivial

/-- Every request submits for a dispute that it has opened. -/
theorem handle_safe (config : Config) (req : Request) :
    Safe submitsOpened (handle config req) [] := by
  cases req with
  | executeJudgment args =>
    exact Gives.bind (executeJudgment_safe config args []) fun _ _ _ _ => trivial
  | submitDispute args =>
    exact Gives.call_then trivial fun _ _ _ =>
      Gives.bind (R := fun _ _ => True) (orThrow_gives fun _ _ => trivial) fun _ _ _ _ => trivial
  | _ => exact Gives.call_then trivial fun _ _ _ => orThrow_gives fun _ _ => trivial

/-! ## Every interleaving -/

/-- The dispute at `ref` has a ruling and is not withdrawn. -/
def Memory.Judged (s : Memory) (ref : Nat) : Prop :=
  ∃ d, s.objects[ref]? = some d ∧ d.withdrawn = false ∧ d.ruling.isSome

/-- A judged dispute stays judged. -/
theorem Memory.Judged.keeps {s s' : Memory} {ref : Nat} (h : s.Judged ref) (hk : s.Keeps s') :
    s'.Judged ref := by
  obtain ⟨d, hd, hwithdrawn, hruling⟩ := h
  obtain ⟨d', hd', hfrozen⟩ := hk ref d hd
  obtain ⟨-, hw, hr⟩ := hfrozen hruling
  exact ⟨d', hd', hw.trans hwithdrawn, by rw [hr]; exact hruling⟩

/-- A judgment that is opened finds the dispute without a ruling and leaves it judged. -/
theorem serve_opens {op : Call} {c : Choice} {s : Memory} {id : String} {o : Opened}
    (h : (⟨op, (serve op c s).1⟩ : Event calls String) = ⟨.openJudgment id, .ok (.ok o)⟩) :
    ¬ s.Judged o.ref ∧ (serve op c s).2.Judged o.ref := by
  -- the answer of the call decides: an error opens nothing
  obtain ⟨rfl, hres⟩ := Event.mk.inj h
  have hanswer := eq_of_heq hres
  simp only [serve, Except.ok.injEq] at hanswer
  cases hopened : openJudgment s id c.nowUnix with
  | error e => rw [hopened] at hanswer; exact nomatch hanswer
  | ok x =>
    obtain ⟨o', s'⟩ := x
    simp only [hopened, settledWith, Except.ok.injEq] at hanswer
    subst hanswer
    -- what was opened is the dispute that is in the memory
    obtain ⟨hopen, -, -, rfl⟩ := openJudgment_ok hopened
    obtain ⟨hd, hwithdrawn, hruling⟩ := requireOpen_ok hopen
    -- it was open before, and carries its ruling afterwards
    constructor
    · intro hjudged
      obtain ⟨d, hd', -, hsome⟩ := hjudged
      rw [hd, Option.some.injEq] at hd'
      subst hd'
      simp [hruling] at hsome
    · refine ⟨{ o'.dispute with ruling := some o'.ruling, executedTxs := some [] }, ?_,
        hwithdrawn, rfl⟩
      simp [serve, hopened, settledWith, Memory.update, hd]

/-- A dispute is judged by the call that opens it, and by no other. -/
theorem judges_cons {ref : Nat} {ev : Event calls String} {l : JudgeLog}
    (h : Judges ref (ev :: l)) :
    Judges ref l ∨ ∃ id o, ev = ⟨.openJudgment id, .ok (.ok o)⟩ ∧ o.ref = ref := by
  obtain ⟨id, o, hmem, href⟩ := h
  rcases List.mem_cons.mp hmem with heq | hmem
  · exact .inr ⟨id, o, heq.symm, href⟩
  · exact .inl ⟨id, o, hmem, href⟩

/-- What holds in every state of the service: submissions come from judgments, a judged
    dispute has its ruling and is not withdrawn, and no two calls judge one dispute. -/
structure Exclusive (P : JudgePool) : Prop where
  safe : ∀ th ∈ P.threads, th.Safe fun _ => submitsOpened
  opened : ∀ th ∈ P.threads, Submits th.log → ∃ ref, Judges ref th.log
  judged : ∀ th ∈ P.threads, ∀ ref, Judges ref th.log → P.store.Judged ref
  one : ∀ ref, AtMostOne (fun th => Judges ref th.log) P.threads

/-- Without requests there is nothing to exclude. -/
theorem exclusive_nil (s : Memory) : Exclusive ⟨s, []⟩ where
  safe := by simp
  opened := by simp
  judged := by simp
  one := fun _ => atMostOne_nil _

/-- A step of the service changes its disputes as one call does. -/
theorem judgeStep_keeps {config : Config} {P P' : JudgePool} {a : Act Request Choice}
    (h : judgeStep config P a = some P') : P.store.Keeps P'.store := by
  obtain ⟨req, -, rfl⟩ | ⟨i, c, th, op, k, -, -, -, -, rfl⟩ := poolStep_cases h
  · exact .refl P.store
  · exact serve_keeps op c P.store

/-- A request that arrives judges nothing yet. -/
theorem Exclusive.spawn {config : Config} {P : JudgePool} (h : Exclusive P) (req : Request)
    (hsafe : ∀ th ∈ P.threads ++ [⟨req, [], handle config req⟩], th.Safe fun _ => submitsOpened) :
    Exclusive ⟨P.store, P.threads ++ [⟨req, [], handle config req⟩]⟩ := by
  -- a request that starts has made no call, so it submits and judges nothing
  refine ⟨hsafe, ?_, ?_, fun ref => (h.one ref).append ?_⟩
  · intro th hth hsubmits
    rcases List.mem_append.mp hth with hth | hth
    · exact h.opened th hth hsubmits
    · rw [List.mem_singleton] at hth
      subst hth
      simp [Submits] at hsubmits
  · intro th hth ref hjudges
    rcases List.mem_append.mp hth with hth | hth
    · exact h.judged th hth ref hjudges
    · rw [List.mem_singleton] at hth
      subst hth
      simp [Judges] at hjudges
  · simp [Judges]

/-- A call opens a dispute that no other request judges. -/
theorem Exclusive.advance {P : JudgePool} (h : Exclusive P) {i : Nat} {th : JudgeThread}
    {op : Call} {c : Choice} {k : Except String op.Res → JudgeM Unit}
    (hth : P.threads[i]? = some th) (hprog : th.prog = .await op k)
    (hsafe : ∀ u ∈ P.threads.set i (th.resume op (serve op c P.store).1 k),
      u.Safe fun _ => submitsOpened) :
    Exclusive ⟨(serve op c P.store).2,
      P.threads.set i (th.resume op (serve op c P.store).1 k)⟩ := by
  have hmem : th ∈ P.threads := List.mem_of_getElem? hth
  -- a judged dispute stays judged under every call
  have hkeeps : P.store.Keeps (serve op c P.store).2 := serve_keeps op c P.store
  refine ⟨hsafe, ?_, ?_, fun ref => (h.one ref).set hth ?_⟩
  · intro u hu hsubmits
    -- the thread that moved, or another
    rcases mem_set_resume hu with rfl | hu
    · -- A new submission was accepted by the monitor, so the judgment is in the log.
      have hrefs : ∃ ref, Judges ref th.log := by
        obtain ⟨tx, r, hev⟩ := hsubmits
        rcases List.mem_cons.mp hev with heq | hev
        · obtain ⟨rfl, -⟩ := Event.mk.inj heq
          exact (h.safe th hmem).ok_of_await hprog
        · exact h.opened th hmem ⟨tx, r, hev⟩
      obtain ⟨ref, hjudges⟩ := hrefs
      exact ⟨ref, hjudges.grow (List.suffix_cons _ _)⟩
    · exact h.opened u hu hsubmits
  · intro u hu ref hjudges
    rcases mem_set_resume hu with rfl | hu
    -- the log grew by the call that opened the judgment, or it judges as before
    · rcases judges_cons hjudges with hjudges | ⟨id, o, hev, rfl⟩
      · exact (h.judged th hmem ref hjudges).keeps hkeeps
      · exact (serve_opens hev).2
    · exact (h.judged u hu ref hjudges).keeps hkeeps
  · -- The judgment that is opened now was open: nobody judges its dispute yet.
    intro hjudges
    rcases judges_cons hjudges with hjudges | ⟨id, o, hev, rfl⟩
    · exact .inl hjudges
    · exact .inr fun u hu hother => (serve_opens hev).1 (h.judged u hu o.ref hother)

/-- Every step keeps the requests apart. -/
theorem exclusive_step {config : Config} {P P' : JudgePool} {a : Act Request Choice}
    (h : judgeStep config P a = some P') (hP : Exclusive P) : Exclusive P' := by
  have hsafe := poolStep_safe (handle_safe config) h hP.safe
  obtain ⟨req, -, rfl⟩ | ⟨i, c, th, op, k, -, hth, hprog, -, rfl⟩ := poolStep_cases h
  · exact hP.spawn req hsafe
  · exact hP.advance hth hprog hsafe

/-- And so does every run. -/
theorem exclusive_run {config : Config} {s₀ : Memory}
    {ms : List (Move JudgePool (Act Request Choice))} {P : JudgePool}
    (run : Run (judgeStep config) ⟨s₀, []⟩ ms P) : Exclusive P :=
  run.invariant (C := fun _ => True) (fun _ _ => trivial) (exclusive_nil s₀)
    fun _ hstep _ hP => exclusive_step hstep hP

/-- From every state of a run to its end the disputes are kept. -/
theorem keeps_of_run {config : Config} {P₀ P : JudgePool}
    {ms : List (Move JudgePool (Act Request Choice))} (run : Run (judgeStep config) P₀ ms P)
    {m : Move JudgePool (Act Request Choice)} (hm : m ∈ ms) :
    m.before.store.Keeps P.store := by
  induction run with
  | nil => cases hm
  | cons run hstep ih =>
    have hlast := judgeStep_keeps hstep
    rcases List.mem_cons.mp hm with rfl | hm
    · exact hlast
    · exact (ih hm).trans hlast

/-- In every interleaving of the methods of the service: a transaction is submitted only in
    the judgment of a dispute, at most one call submits transactions for a dispute, that
    dispute is not withdrawn, then or later, and once a ruling is set the votes, the flag and
    the ruling of the dispute never change. -/
theorem judgment_exclusive (config : Config) (s₀ : Memory)
    (ms : List (Move JudgePool (Act Request Choice))) (P : JudgePool)
    (run : Run (judgeStep config) ⟨s₀, []⟩ ms P) :
    (∀ th ∈ P.threads, Submits th.log → ∃ ref, Judges ref th.log) ∧
    (∀ ref, AtMostOne (fun th => Submits th.log ∧ Judges ref th.log) P.threads) ∧
    (∀ th ∈ P.threads, ∀ ref, Submits th.log → Judges ref th.log →
      ∃ d, P.store.objects[ref]? = some d ∧ d.withdrawn = false) ∧
    (∀ m ∈ ms, ∀ (ref : Nat) d, m.before.store.objects[ref]? = some d → d.ruling.isSome →
      ∃ d', P.store.objects[ref]? = some d' ∧ SameVerdict d d') := by
  have hinv := exclusive_run run
  refine ⟨hinv.opened, fun ref => (hinv.one ref).mono fun _ h => h.2, ?_, ?_⟩
  · intro th hth ref _ hjudges
    obtain ⟨d, hd, hwithdrawn, -⟩ := hinv.judged th hth ref hjudges
    exact ⟨d, hd, hwithdrawn⟩
  · intro m hm ref d hd hruling
    obtain ⟨d', hd', hfrozen⟩ := keeps_of_run run hm ref d hd
    exact ⟨d', hd', hfrozen hruling⟩

/-! ## A concrete interleaving -/

def sampleConfig : Config := ⟨"rPool", fun _ => []⟩

def sampleMeta (stakeAmountDrops : Option String) : DisputeMeta where
  leaseId := "lease"
  parties := ⟨"rTenant", "rLandlord", "rBluesafe"⟩
  depositEscrow := { owner := "rTenant", sequence := 1 }
  stakeEscrow := ⟨"rLandlord", 2⟩
  stakeAmountDrops := stakeAmountDrops
  evidenceUris := []

def sampleArgs : ExecuteArgs where
  disputeId := "d1"
  bluesafeWallet := "rBluesafe"
  issuerWallet := "rIssuer"
  poolFunderWallet := "rFunder"
  judgmentUri := "u"
  panelAnonymizedHashes := []

/-- One verifier, one dispute, one vote: two judgments are requested at once. -/
def sampleRequests : List Request :=
  [.registerVerifier { address := "rVerifier" },
    .submitDispute { claimant := "rTenant", evidenceHashHex := "", disputeMeta := sampleMeta none,
                     panelSelection := some { panelSize := some 1 } },
    .collectVote "d1" "rVerifier" .landlordWins,
    .executeJudgment sampleArgs, .executeJudgment sampleArgs,
    .withdrawDispute "d1" "rTenant"]

/-- The first judgment submits its first transaction; before that the second judgment and
    the withdrawal run against the dispute. -/
def sampleSchedule : List (Act Request Choice) :=
  sampleRequests.map Act.spawn ++
    [.advance 0 {}, .advance 1 { id := "d1" }, .advance 2 {}, .advance 3 {}, .advance 4 {},
      .advance 3 {}, .advance 5 {}, .advance 3 { response := ⟨some "H1", some "tesSUCCESS"⟩ }]

/-- The log holds a submission and the judgment of the dispute at `ref`. -/
def submitsFor (ref : Nat) (l : JudgeLog) : Bool :=
  (l.any fun ev => match ev.op with
    | .submitAndWait _ => true
    | _ => false) &&
  l.any fun
    | ⟨.openJudgment _, .ok (.ok o)⟩ => o.ref = ref
    | _ => false

/-- A submission for a dispute, as it can be computed. -/
theorem submits_of_submitsFor {ref : Nat} {l : JudgeLog} (h : submitsFor ref l = true) :
    Submits l ∧ Judges ref l := by
  simp only [submitsFor, Bool.and_eq_true, List.any_eq_true] at h
  -- the log shows a submission and an opened judgment for this dispute
  obtain ⟨⟨⟨op, r⟩, hmem, hop⟩, ⟨⟨op', r'⟩, hmem', hop'⟩⟩ := h
  constructor
  · cases op with
    | submitAndWait tx => exact ⟨tx, r, hmem⟩
    | _ => exact nomatch hop
  · cases op' with
    | openJudgment id =>
      cases r' with
      | error e => exact nomatch hop'
      | ok answer =>
        -- an opening that was refused is no judgment
        cases answer with
        | error e => exact nomatch hop'
        | ok o => exact ⟨id, o, hmem', by simpa using hop'⟩
    | _ => exact nomatch hop'

/-- The fourth of the six method calls has submitted for the dispute at position 0. -/
def sampleOutcome (P : JudgePool) : Bool :=
  (P.threads[3]?.any fun th => submitsFor 0 th.log) && decide (P.threads.length = 6)

/-- The judgment of one thread submits; the second judgment and the withdrawal are refused. -/
theorem judgment_exclusive_concurrent :
    ∃ ms P, Run (judgeStep sampleConfig) ⟨Memory.empty, []⟩ ms P ∧
      (∃ th, P.threads[3]? = some th ∧ Submits th.log ∧ Judges 0 th.log) ∧
      P.threads.length = 6 ∧
      (∀ ref, AtMostOne (fun th => Submits th.log ∧ Judges ref th.log) P.threads) ∧
      (∃ d, P.store.objects[0]? = some d ∧ d.withdrawn = false) := by
  obtain ⟨ms, P, run, hp⟩ := exists_run_of_replay sampleSchedule
    (fun r => sampleOutcome r.2)
    (by decide +kernel : (replay (judgeStep sampleConfig) ⟨Memory.empty, []⟩ _ []).any _ = true)
  simp only [sampleOutcome, Bool.and_eq_true, decide_eq_true_eq, Option.any_eq_true] at hp
  obtain ⟨⟨th, hth, hsubmits⟩, hlength⟩ := hp
  obtain ⟨hsubmits, hjudges⟩ := submits_of_submitsFor hsubmits
  obtain ⟨-, hone, hopen, -⟩ := judgment_exclusive sampleConfig Memory.empty ms P run
  exact ⟨ms, P, run, ⟨th, hth, hsubmits, hjudges⟩, hlength, hone,
    hopen th (List.mem_of_getElem? hth) 0 hsubmits hjudges⟩

end Bluesafe.Judge
