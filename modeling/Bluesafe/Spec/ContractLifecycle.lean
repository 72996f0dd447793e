import Bluesafe.Spec.RowInvariant

/-!
# Contracts

Two results about the handlers that write contracts.

A contract that became `escrow_validated` through the escrow anchor, and what follows
from that status, has a hash the ledger reported as a validated, successful
`EscrowCreate` (`anchored_contracts_confirmed`).

`PATCH status` and `PATCH escrow-anchor` check a copy and then overwrite the row. As long
as the stored status is still the one the request read, every change follows the
transition table, final states are never left and the hash of a running contract is
frozen (`contract_lifecycle`).
-/

namespace Bluesafe.Ops

open Async Transition

variable {config : Config}

/-! ## Validated anchors -/

/-- The statuses from `escrow_validated` on, cancellation apart. -/
def ContractStatus.isAnchored (s : ContractStatus) : Bool :=
  s ∈ [ContractStatus.escrowValidated, .active, .closed]

/-- The ledger has reported `h` as a validated, successful `EscrowCreate`. -/
def AnchorReported (P : OpsPool) (h : String) : Prop :=
  ∃ th ∈ P.threads, ∃ live, Reported th.req th.log h live ∧ live.anchors = true

/-- An anchored contract has a reported hash. -/
def Contract.AnchorTrue (P : OpsPool) (c : Contract) : Prop :=
  c.status.isAnchored = true →
    ∃ h, c.escrowCreateTxHash = some h ∧ h ≠ "" ∧ AnchorReported P h

/-- A hash that was reported stays so as the pool goes on. -/
theorem AnchorReported.extend {P P' : OpsPool} {h : String} (hr : AnchorReported P h)
    (hext : P.Extends P') : AnchorReported P' h := by
  obtain ⟨th, hth, live, hrep, hanchors⟩ := hr
  obtain ⟨th', hth', hreq, hlog⟩ := hext th hth
  refine ⟨th', hth', live, ?_, hanchors⟩
  rw [hreq]
  exact hrep.mono hlog

/-- The calls of the runs considered: no accepted `PATCH status` to `escrow_validated`, and
    no ledger answer about the empty hash. -/
structure AnchorEvent (req : Request) (ev : Event calls String) : Prop where
  unpatched : ∀ c auth id, ev.op = .saveContract c →
    req ≠ .patchContractStatus auth id .escrowValidated
  noEmptyTx : ∀ live, ev ≠ ⟨.getTxStatus "", .ok (some live)⟩
  noEmptyAccountTx : ∀ account map live, ev = ⟨.getAccountTxResults account, .ok map⟩ →
    map.lookup "" ≠ some live

/-- The invariant in the form of `rows_good`. -/
def AnchorRow (P : OpsPool) : Row → Prop
  | .contract c => c.AnchorTrue P
  | _ => True

/-- No thread has an answer about the empty hash. -/
theorem not_reported_empty {req : Request} {l : OpsLog} {live : LiveTxStatus}
    (hev : ∀ ev ∈ l, AnchorEvent req ev) : ¬ Reported req l "" live := by
  -- a hash is reported by one of three reads
  intro hr
  cases hr with
  | tx hget => exact (hev _ hget).noEmptyTx live rfl
  | accountTx account map hget hlook =>
    exact (hev _ hget).noEmptyAccountTx account map live rfl hlook
  | stream msg throttled i hreq hacc hlive =>
    -- the stream hands over only a message with a hash
    unfold TransactionStream.accepted at hacc
    split at hacc
    · split at hacc
      · rename_i hash _ hhash _
        split at hacc
        · exact nomatch hacc
        -- and a hash has a positive length
        · cases hacc
          have hlen := msg.hash_min "" hhash
          exact absurd hlen (by decide)
      · exact nomatch hacc
    · exact nomatch hacc

/-- An anchor that is not rejected on a validated contract repeats its hash. -/
theorem anchorRejected_validated {c : Contract} {h txHash : String}
    (hfree : anchorRejected c txHash = none) (hstatus : c.status = .escrowValidated)
    (hhash : c.escrowCreateTxHash = some h) (hne : h ≠ "") : h = txHash := by
  unfold anchorRejected at hfree
  split at hfree
  · exact nomatch hfree
  · split at hfree
    · exact nomatch hfree
    · rename_i hsame
      by_contra hdiff
      apply hsame
      refine ⟨hstatus, ?_⟩
      rw [hhash, truthy_eq_some.mpr ⟨rfl, hne⟩]
      simpa using hdiff

/-- An anchor is refused once the contract runs or has ended. -/
theorem anchorRejected_open {c : Contract} {txHash : String}
    (hfree : anchorRejected c txHash = none) :
    c.status = .draft ∨ c.status = .escrowPending ∨ c.status = .escrowValidated := by
  unfold anchorRejected at hfree
  split at hfree
  · exact nomatch hfree
  · rename_i hopen
    cases hs : c.status <;> simp_all

/-- A contract that is written has an anchor the ledger has reported. -/
theorem ContractWrite.anchorTrue {P : OpsPool} {th : OpsThread} {c : Contract}
    (w : Writer AnchorRow (fun _ => True) AnchorEvent P th)
    (hpatch : ∀ auth id, th.req ≠ .patchContractStatus auth id .escrowValidated)
    (hw : ContractWrite config th.req th.log c) : c.AnchorTrue P := by
  cases hw with
  | created auth body id now hreq hid => exact fun hs => nomatch hs
  | patched auth id status c now hreq hget hallowed =>
    intro hs
    have hc : c.AnchorTrue P := (w.getContract hget).1
    -- The only way into the anchored statuses is `PATCH status` to `escrow_validated`.
    have hsource : c.status.isAnchored = true := by
      have hs' : status.isAnchored = true := hs
      have hne : status ≠ .escrowValidated := by
        intro heq
        rw [heq] at hreq
        exact hpatch auth id hreq
      cases hst : c.status <;> rw [hst] at hallowed <;> cases status <;>
        simp_all [isContractStatusTransitionAllowed, allowedTransitions,
          ContractStatus.isAnchored]
    exact hc hsource
  | anchored auth id body c confirmed now hreq hget hfree hconf =>
    intro hs
    have hc : c.AnchorTrue P := (w.getContract hget).1
    by_cases hval : c.status = .escrowValidated
    · obtain ⟨h, hhash, hne, hrep⟩ := hc (by rw [hval]; rfl)
      have heq := anchorRejected_validated hfree hval hhash hne
      exact ⟨trim body.txHash, rfl, heq ▸ hne, heq ▸ hrep⟩
    · have htrue : confirmed = true := by
        by_contra hno
        have hstatus : (anchoredStatus c.status confirmed).isAnchored = true := hs
        rcases anchorRejected_open hfree with h | h | h
        · simp [anchoredStatus, h, hno, ContractStatus.isAnchored] at hstatus
        · simp [anchoredStatus, h, hno, ContractStatus.isAnchored] at hstatus
        · exact hval h
      obtain ⟨live, hrep, hanchors⟩ := hconf htrue
      have hne : trim body.txHash ≠ "" := by
        intro hempty
        rw [hempty] at hrep
        exact not_reported_empty w.events hrep
      exact ⟨trim body.txHash, rfl, hne, th, w.mem, live, hrep, hanchors⟩

/-- Every write keeps the anchors true. -/
theorem writesGood_anchor : WritesGood config AnchorRow (fun _ => True) AnchorEvent := by
  intro P th op res r w hev hwrites hw
  cases r with
  | tx row => trivial
  | dispute d => trivial
  | contract c =>
    have hop : op = .saveContract c := by
      cases op <;> simp only [Call.writes, Option.some.injEq, reduceCtorEq, Row.contract.injEq] at hwrites
      rw [hwrites]
    refine ContractWrite.anchorTrue w (fun auth id => ?_) hw
    exact hev.unpatched c auth id hop

/-- In every interleaving in which no `PATCH status` to `escrow_validated` is accepted, every
    contract in `escrow_validated`, `active` or `closed` has a hash that the ledger has
    reported as a validated `tesSUCCESS` `EscrowCreate`. -/
theorem anchored_contracts_confirmed {s₀ : Store} {P : OpsPool}
    {ms : List (Move OpsPool (Act Request Choice))}
    (h₀ : ∀ c ∈ s₀.contracts.rows, c.status.isAnchored = false)
    (run : Run (opsPoolStep config) ⟨s₀, []⟩ ms P)
    (hok : ∀ m ∈ ms, StepOk (fun _ => True) AnchorEvent m) :
    ∀ c ∈ P.store.contracts.rows, c.status.isAnchored = true →
      ∃ h, c.escrowCreateTxHash = some h ∧ AnchorReported P h := by
  have hstart : ∀ r, s₀.Has r → AnchorRow ⟨s₀, []⟩ r := by
    intro r hr
    cases r with
    | tx row => trivial
    | dispute d => trivial
    | contract c =>
      intro hs
      rw [h₀ c hr] at hs
      exact nomatch hs
  -- reports stay in the logs
  have hmono : ∀ (P P' : OpsPool) (r : Row), P.Extends P' → AnchorRow P r → AnchorRow P' r := by
    intro P P' r hext hr
    cases r with
    | tx row => trivial
    | dispute d => trivial
    | contract c =>
      intro hs
      obtain ⟨h, hhash, hne, hrep⟩ := hr hs
      exact ⟨h, hhash, hne, hrep.extend hext⟩
  intro c hc hs
  obtain ⟨h, hhash, -, hrep⟩ :=
    ((rows_good hmono writesGood_anchor hstart run hok).stored (.contract c) hc :
      c.AnchorTrue P) hs
  exact ⟨h, hhash, hrep⟩

/-- A decidable form of `AnchorEvent`. -/
def anchorEventOk (req : Request) : Event calls String → Bool
  | ⟨.saveContract _, _⟩ =>
    match req with
    | .patchContractStatus _ _ status => decide (status ≠ .escrowValidated)
    | _ => true
  | ⟨.getTxStatus h, .ok (some _)⟩ => decide (h ≠ "")
  | ⟨.getAccountTxResults _, .ok map⟩ => (map.lookup "").isNone
  | _ => true

/-- Whether an event is in order can be computed. -/
theorem anchorEvent_of_ok (req : Request) (ev : Event calls String)
    (h : anchorEventOk req ev = true) : AnchorEvent req ev := by
  refine ⟨?_, ?_, ?_⟩
  · intro c auth id hop hreq
    obtain ⟨op, res⟩ := ev
    subst hop
    subst hreq
    exact nomatch h
  · rintro live rfl
    exact nomatch h
  · rintro account map live rfl hlook
    have hnone : (map.lookup "").isNone = true := h
    rw [hlook] at hnone
    exact nomatch hnone

/-- The ledger answer that confirms an anchor. -/
def escrowCreateAnswer : LiveTxStatus where
  txHash := "AB12CD34"
  validated := true
  ledgerIndex := some 90
  resultCode := some "tesSUCCESS"
  transactionType := some "EscrowCreate"

/-- A contract that is created and anchored at a confirmed hash. -/
theorem anchored_contracts_confirmed_created :
    ∃ ms P, Run (opsPoolStep sampleConfig) ⟨Store.empty, []⟩ ms P ∧
      ∃ c ∈ P.store.contracts.rows, c.status = .escrowValidated ∧
        ∃ h, c.escrowCreateTxHash = some h ∧ AnchorReported P h := by
  obtain ⟨ms, P, run, hp⟩ := exists_run_of_replay
    (scheduleActs world (handle sampleConfig)
      [.start (.createContract none { tenantId := "tenant_1", landlordId := "landlord_1" }),
        .run 0 20 (sampleOracle "1" 0 none),
        .start (.patchEscrowAnchor none "ctr_1" { txHash := "AB12CD34" }),
        .run 1 30 (sampleOracle "2" 0 (some escrowCreateAnswer))] ⟨Store.empty, []⟩)
    (fun r => (r.1.all (stepCheck anchorEventOk)) &&
      r.2.store.contracts.rows.any fun c => decide (c.status = .escrowValidated))
    (by decide +kernel : (replay (opsPoolStep sampleConfig) ⟨Store.empty, []⟩ _ []).any _ = true)
  simp only [Bool.and_eq_true, List.all_eq_true, List.any_eq_true, decide_eq_true_eq] at hp
  -- the replay ends with a contract that is validated
  obtain ⟨hok, c, hc, hs⟩ := hp
  have hanchored : c.status.isAnchored = true := by rw [hs]; rfl
  have hstart : ∀ c ∈ Store.empty.contracts.rows, c.status.isAnchored = false :=
    fun _ h => nomatch h
  -- its anchoring is what the theorem asks for
  exact ⟨ms, P, run, c, hc, hs, anchored_contracts_confirmed hstart run
    (fun m hm => stepOk_of_check anchorEvent_of_ok (hok m hm)) c hc hanchored⟩

/-- Two `PATCH status` requests bring a new contract to `escrow_validated` without a hash. -/
theorem validated_without_anchor :
    ∃ ms P, Run (opsPoolStep sampleConfig) ⟨Store.empty, []⟩ ms P ∧
      ∃ c ∈ P.store.contracts.rows, c.status = .escrowValidated ∧
        c.escrowCreateTxHash = none := by
  obtain ⟨ms, P, run, hp⟩ := exists_run_of_replay
    (scheduleActs world (handle sampleConfig)
      [.start (.createContract none { tenantId := "tenant_1", landlordId := "landlord_1" }),
        .run 0 20 (sampleOracle "1" 0 none),
        .start (.patchContractStatus none "ctr_1" .escrowPending),
        .run 1 20 (sampleOracle "2" 0 none),
        .start (.patchContractStatus none "ctr_1" .escrowValidated),
        .run 2 20 (sampleOracle "3" 0 none)] ⟨Store.empty, []⟩)
    (fun r => r.2.store.contracts.rows.any fun c =>
      decide (c.status = .escrowValidated ∧ c.escrowCreateTxHash = none))
    (by decide +kernel : (replay (opsPoolStep sampleConfig) ⟨Store.empty, []⟩ _ []).any _ = true)
  simp only [List.any_eq_true, decide_eq_true_eq] at hp
  obtain ⟨c, hc, hs, hnone⟩ := hp
  exact ⟨ms, P, run, c, hc, hs, hnone⟩

/-! ## Life cycle under concurrent requests -/

/-- The requests the life cycle is about. -/
def Request.patchesContract : Request → Bool
  | .patchContractStatus _ _ _ => true
  | .patchEscrowAnchor _ _ _ => true
  | _ => false

/-- The hash of the contract no longer changes. -/
def ContractStatus.isFrozen (s : ContractStatus) : Bool :=
  s ∈ [ContractStatus.active, .closed, .cancelled]

/-- An edge of the transition table. -/
def ContractEdge (source target : ContractStatus) : Prop :=
  isContractStatusTransitionAllowed source target = true

/-- When a request saves a contract, the stored status is the one it has read. -/
def UnchangedSinceRead (m : Move OpsPool (Act Request Choice)) : Prop :=
  ∀ req l ev c, stepEvent world m.before m.label = some (req, l, ev) → ev.op = .saveContract c →
    ∀ copy stored, Answered l (.getContract c.id) (some copy) →
      m.before.store.contracts.get? c.id = some stored → stored.status = copy.status

/-- The request sets the escrow anchor. -/
def Request.isAnchor : Request → Bool
  | .patchEscrowAnchor _ _ _ => true
  | _ => false

/-- What the request `req` may make of a contract: one edge of the table, or a path of edges
    inside an escrow-anchor request, and nothing for the hash of a frozen contract. -/
structure ContractStep (req : Request) (source target : Contract) : Prop where
  status : target.status = source.status ∨ ContractEdge source.status target.status ∨
    (req.isAnchor = true ∧ Relation.TransGen ContractEdge source.status target.status)
  frozen : source.status.isFrozen = true →
    target.status.isFrozen = true ∧ target.escrowCreateTxHash = source.escrowCreateTxHash

/-- A patch that is allowed is a step of the contract. -/
theorem patched_step {req : Request} {c : Contract} {status : ContractStatus} {now : Time}
    (h : isContractStatusTransitionAllowed c.status status = true) :
    ContractStep req c (c.withStatus status now) := by
  refine ⟨.inr (.inl h), fun hf => ⟨?_, rfl⟩⟩
  show status.isFrozen = true
  cases hs : c.status <;> rw [hs] at h hf <;> cases status <;>
    simp_all [isContractStatusTransitionAllowed, allowedTransitions, ContractStatus.isFrozen]

/-- So is an anchor. -/
theorem anchored_step {req : Request} {c : Contract} {h : String} {confirmed : Bool} {now : Time}
    (hreq : req.isAnchor = true) (hfree : anchorRejected c h = none) :
    ContractStep req c (c.anchored h confirmed now) := by
  have hpending : ContractEdge .escrowPending .escrowValidated := by
    unfold ContractEdge
    decide
  have hdraft : ContractEdge .draft .escrowPending := by
    unfold ContractEdge
    decide
  refine ⟨?_, ?_⟩
  · show anchoredStatus c.status confirmed = c.status ∨
      ContractEdge c.status (anchoredStatus c.status confirmed) ∨
      (req.isAnchor = true ∧
        Relation.TransGen ContractEdge c.status (anchoredStatus c.status confirmed))
    -- an accepted anchor finds a contract that is a draft, pending or validated
    rcases anchorRejected_open hfree with hs | hs | hs <;> rw [hs] <;> cases confirmed
    · exact .inr (.inl hdraft)
    · exact .inr (.inr ⟨hreq, .tail (.single hdraft) hpending⟩)
    · exact .inl rfl
    · exact .inr (.inl hpending)
    · exact .inl rfl
    · exact .inl rfl
  · intro hf
    rcases anchorRejected_open hfree with hs | hs | hs <;> rw [hs] at hf <;> exact nomatch hf

/-- A justified save of a patch request is a step from the copy it has read. -/
theorem ContractWrite.step {req : Request} {l : OpsLog} {c : Contract}
    (hw : ContractWrite config req l c) (hreq : req.patchesContract = true)
    (hkeyed : ∀ ev ∈ l, Keyed ev) :
    ∃ copy, copy.id = c.id ∧ Answered l (.getContract c.id) (some copy) ∧
      ContractStep req copy c := by
  cases hw with
  | created auth body id now hreq' hid =>
    rw [hreq'] at hreq
    exact nomatch hreq
  | patched auth id status c now hreq' hget hallowed =>
    have hid : c.id = id := (hkeyed _ hget).2.2 id c rfl
    subst hid
    exact ⟨c, rfl, hget, patched_step hallowed⟩
  | anchored auth id body c confirmed now hreq' hget hfree hconf =>
    have hid : c.id = id := (hkeyed _ hget).2.2 id c rfl
    subst hid
    exact ⟨c, rfl, hget, anchored_step (by rw [hreq']; rfl) hfree⟩

/-- The copies the requests hold: the contract still exists, and a frozen copy has the
    stored hash. -/
def CopiesAgree (P : OpsPool) : Prop :=
  ∀ th ∈ P.threads, ∀ id copy, Answered th.log (.getContract id) (some copy) →
    ∃ stored, P.store.contracts.get? copy.id = some stored ∧
      (copy.status.isFrozen = true → stored.status.isFrozen = true ∧
        stored.escrowCreateTxHash = copy.escrowCreateTxHash)

/-- What the pools of the life cycle keep. -/
structure LifecyclePool (config : Config) (P : OpsPool) : Prop where
  base : RowsGood config (fun _ _ => True) (fun req => req.patchesContract = true)
    (fun _ _ => True) P
  copies : CopiesAgree P

/-- What a run of the life cycle assumes about its steps. -/
structure LifecycleStep (m : Move OpsPool (Act Request Choice)) : Prop where
  request : ∀ req, m.label = .spawn req → req.patchesContract = true
  unchanged : UnchangedSinceRead m

/-- One save: the stored contract makes a step of the request that saves. -/
theorem saved_step {P : OpsPool} (hP : LifecyclePool config P) {th : OpsThread}
    (hth : th ∈ P.threads) {x stored : Contract}
    (hjust : ContractWrite config th.req th.log x)
    (hsame : ∀ copy stored, Answered th.log (.getContract x.id) (some copy) →
      P.store.contracts.get? x.id = some stored → stored.status = copy.status)
    (hstored : P.store.contracts.get? x.id = some stored) : ContractStep th.req stored x := by
  obtain ⟨copy, hid, hget, hstep⟩ :=
    hjust.step (hP.base.requests th hth) (hP.base.keyed th hth)
  have hstatus := hsame copy stored hget hstored
  refine ⟨hstatus ▸ hstep.status, fun hf => ?_⟩
  have hcopy : copy.status.isFrozen = true := hstatus ▸ hf
  obtain ⟨stored', hstored', hagree⟩ := hP.copies th hth _ copy hget
  rw [hid, hstored, Option.some.injEq] at hstored'
  subst hstored'
  obtain ⟨hfr, hhash⟩ := hstep.frozen hcopy
  exact ⟨hfr, hhash.trans (hagree hcopy).2.symm⟩

/-- The request whose call an action makes. -/
def stepRequest (m : Move OpsPool (Act Request Choice)) : Option Request :=
  (stepEvent world m.before m.label).map fun x => x.1

/-- One move: every stored contract makes a step of the request that moves. -/
theorem lifecycle_move {m : Move OpsPool (Act Request Choice)}
    (hstep : opsPoolStep config m.before m.label = some m.after) (hok : LifecycleStep m)
    (hP : LifecyclePool config m.before) {id : String} {c : Contract}
    (hc : m.before.store.contracts.get? id = some c) :
    ∃ c', m.after.store.contracts.get? id = some c' ∧
      (c' = c ∨ ∃ req, stepRequest m = some req ∧ ContractStep req c c') := by
  obtain ⟨P, a, P'⟩ := m
  dsimp only at hstep hP hc ⊢
  obtain ⟨req, rfl, rfl⟩ | ⟨i, ch, th, op, k, rfl, hth, hprog, -, rfl⟩ := poolStep_cases hstep
  · exact ⟨c, hc, .inl rfl⟩
  · have hmem : th ∈ P.threads := List.mem_of_getElem? hth
    have hev := stepEvent_advance (W := world) (c := ch) hth hprog
    rcases (framed_serve op ch P.store).contracts with hsame | ⟨x, rfl, hset⟩
    · exact ⟨c, by rw [← hc]; exact congrArg (fun t => t.get? id) hsame, .inl rfl⟩
    · have hget : ((serve (.saveContract x) ch P.store).2.contracts).get? id =
          if id = x.id then some x else P.store.contracts.get? id := by
        rw [hset, Table.get?_set]
      by_cases hid : id = x.id
      · subst hid
        rw [if_pos rfl] at hget
        -- the contract is saved, from a copy that is still the stored one
        have hjust : ContractWrite config th.req th.log x := (hP.base.safe th hmem).ok_of_await hprog
        refine ⟨x, hget, .inr ⟨th.req, ?_, ?_⟩⟩
        · simp only [stepRequest, hev, Option.map_some]
        · exact saved_step hP hmem hjust (hok.unchanged _ _ _ x hev rfl) hc
      · rw [if_neg hid] at hget
        exact ⟨c, hget.trans hc, .inl rfl⟩

/-- A frozen contract stays frozen, with its hash. -/
theorem frozen_move {m : Move OpsPool (Act Request Choice)}
    (hstep : opsPoolStep config m.before m.label = some m.after) (hok : LifecycleStep m)
    (hP : LifecyclePool config m.before) {id : String} {c : Contract}
    (hc : m.before.store.contracts.get? id = some c) :
    ∃ c', m.after.store.contracts.get? id = some c' ∧
      (c.status.isFrozen = true → c'.status.isFrozen = true ∧
        c'.escrowCreateTxHash = c.escrowCreateTxHash) := by
  obtain ⟨c', hc', rfl | ⟨req, -, hmove⟩⟩ := lifecycle_move hstep hok hP hc
  · exact ⟨c', hc', fun hf => ⟨hf, rfl⟩⟩
  · exact ⟨c', hc', hmove.frozen⟩

/-- A copy that was just read is the stored contract. -/
theorem stored_of_getContract {id : String} {copy : Contract} {op : Call} {ch : Choice}
    {s : Store} (h : (⟨.getContract id, .ok (some copy)⟩ : Event calls String) =
      ⟨op, (serve op ch s).1⟩) : (serve op ch s).2.contracts.get? copy.id = some copy := by
  obtain ⟨-, hanswer, hstore⟩ := performed_of_event h
  have hget : s.contracts.get? id = some copy := hanswer
  have hid : copy.id = id := Table.key_of_get? hget
  rw [hstore, hid]
  exact hget

/-- Every step keeps the copies in line with the store. -/
theorem copiesAgree_step (m : Move OpsPool (Act Request Choice))
    (hstep : opsPoolStep config m.before m.label = some m.after) (hok : LifecycleStep m)
    (hP : LifecyclePool config m.before) : CopiesAgree m.after := by
  -- Old copies follow the stored contract; a new copy is the stored contract.
  have hold : ∀ th ∈ m.before.threads, ∀ id copy, Answered th.log (.getContract id) (some copy) →
      ∃ stored, m.after.store.contracts.get? copy.id = some stored ∧
        (copy.status.isFrozen = true → stored.status.isFrozen = true ∧
          stored.escrowCreateTxHash = copy.escrowCreateTxHash) := by
    intro th hth id copy hcopy
    obtain ⟨stored, hstored, hagree⟩ := hP.copies th hth id copy hcopy
    obtain ⟨stored', hstored', hfrozen⟩ := frozen_move hstep hok hP hstored
    refine ⟨stored', hstored', fun hf => ?_⟩
    obtain ⟨hs, hh⟩ := hagree hf
    obtain ⟨hs', hh'⟩ := hfrozen hs
    exact ⟨hs', hh'.trans hh⟩
  obtain ⟨P, a, P'⟩ := m
  dsimp only at hstep hold ⊢
  obtain ⟨req, rfl, rfl⟩ | ⟨i, ch, th, op, k, rfl, hth, hprog, -, rfl⟩ := poolStep_cases hstep
  · intro u hu id copy hcopy
    exact hold u (mem_of_mem_log hu hcopy) id copy hcopy
  · intro u hu id copy hcopy
    rcases mem_set_resume hu with rfl | hu
    · rcases List.mem_cons.mp hcopy with heq | hcopy
      · exact ⟨copy, stored_of_getContract heq, fun hf => ⟨hf, rfl⟩⟩
      · exact hold th (List.mem_of_getElem? hth) id copy hcopy
    · exact hold u hu id copy hcopy

/-- Every step keeps the life cycle. -/
theorem lifecyclePool_step (m : Move OpsPool (Act Request Choice))
    (hstep : opsPoolStep config m.before m.label = some m.after) (hok : LifecycleStep m)
    (hP : LifecyclePool config m.before) : LifecyclePool config m.after := by
  refine ⟨?_, copiesAgree_step m hstep hok hP⟩
  refine rowsGood_step (fun _ _ _ _ _ => trivial) ?_ m hstep ⟨hok.request, ?_⟩ hP.base
  · intro P th op res r w hev hwrites hw
    trivial
  · intro req l ev hev
    trivial

/-- The edges do not leave `closed` and `cancelled`. -/
theorem not_edge_of_ended {s t : ContractStatus} (hs : s = .closed ∨ s = .cancelled) :
    ¬ ContractEdge s t := by
  unfold ContractEdge isContractStatusTransitionAllowed
  rcases hs with rfl | rfl <;> simp [allowedTransitions]

/-- A contract that is closed or cancelled stays so. -/
theorem ContractStep.ended {req : Request} {c c' : Contract} (h : ContractStep req c c')
    (hs : c.status = .closed ∨ c.status = .cancelled) : c'.status = c.status := by
  rcases h.status with hsame | hedge | ⟨-, hpath⟩
  · exact hsame
  · exact absurd hedge (not_edge_of_ended hs)
  · obtain ⟨t, hfirst, -⟩ := Relation.TransGen.head'_iff.mp hpath
    exact absurd hfirst (not_edge_of_ended hs)

/-- In every interleaving of `PATCH status` and `PATCH escrow-anchor` requests whose saves
    find the status they have read, every change of a stored status is an edge of the
    transition table, or a path of edges inside one escrow-anchor request; `closed` and
    `cancelled` are never left, and the hash of a frozen contract never changes. -/
theorem contract_lifecycle {s₀ : Store} {P : OpsPool}
    {ms : List (Move OpsPool (Act Request Choice))}
    (run : Run (opsPoolStep config) ⟨s₀, []⟩ ms P)
    (hreq : ∀ m ∈ ms, ∀ req, m.label = .spawn req → req.patchesContract = true)
    (hsaves : ∀ m ∈ ms, UnchangedSinceRead m) :
    ∀ m ∈ ms, ∀ id c, m.before.store.contracts.get? id = some c →
      ∃ c', m.after.store.contracts.get? id = some c' ∧
        (c'.status = c.status ∨ ContractEdge c.status c'.status ∨
          -- at the start no request is under way
          ∃ req, stepRequest m = some req ∧ req.isAnchor = true ∧
            Relation.TransGen ContractEdge c.status c'.status) ∧
        -- what each move of the run satisfies
        (c.status = .closed ∨ c.status = .cancelled → c'.status = c.status) ∧
        (c.status.isFrozen = true → c'.escrowCreateTxHash = c.escrowCreateTxHash) := by
  -- so the invariant holds before the move
  intro m hm id c hc
  have hstart : LifecyclePool config ⟨s₀, []⟩ := by
    -- either nothing is saved for this contract, or a request saves it
    refine ⟨⟨fun _ _ => trivial, ?_, ?_, ?_, ?_, ?_⟩, ?_⟩ <;> intro th hth <;> exact nomatch hth
  have hok : ∀ m ∈ ms, LifecycleStep m := fun m hm => ⟨hreq m hm, hsaves m hm⟩
  have hP : LifecyclePool config m.before :=
    -- the status stays, takes one edge, or goes through the whole anchor path
    run.invariant_before hok hstart lifecyclePool_step hm
  obtain ⟨c', hc', rfl | ⟨req, hby, hmove⟩⟩ :=
    lifecycle_move (run.step_of_mem hm) (hok m hm) hP hc
  · exact ⟨c', hc', .inl rfl, fun _ => rfl, fun _ => rfl⟩
  · refine ⟨c', hc', ?_, hmove.ended, fun hf => (hmove.frozen hf).2⟩
    rcases hmove.status with hsame | hedge | ⟨hanchor, hpath⟩
    · exact .inl hsame
    · exact .inr (.inl hedge)
    · exact .inr (.inr ⟨req, hby, hanchor, hpath⟩)

/-- A decidable form of `UnchangedSinceRead`. -/
def unchangedCheck (m : Move OpsPool (Act Request Choice)) : Bool :=
  match stepEvent world m.before m.label with
  | some (_, l, ⟨.saveContract c, _⟩) =>
    l.all fun
      | ⟨.getContract id, .ok (some copy)⟩ =>
        id != c.id || (m.before.store.contracts.get? c.id).all fun stored =>
          decide (stored.status = copy.status)
      | _ => true
  | _ => true

/-- Whether a contract was changed since it was read can be computed. -/
theorem unchangedSinceRead_of_check {m : Move OpsPool (Act Request Choice)}
    (h : unchangedCheck m = true) : UnchangedSinceRead m := by
  intro req l ev c hev hop copy stored hcopy hstored
  obtain ⟨op, res⟩ := ev
  subst hop
  unfold unchangedCheck at h
  rw [hev] at h
  have hread := List.all_eq_true.mp h _ hcopy
  simpa [hstored] using hread

/-- A store with the contract of the concrete runs. -/
def contractStore (status : ContractStatus) : Store :=
  { Store.empty with contracts := Table.empty.set (sampleContract status) }

/-- The move takes the contract `ctr_1` from status `s` to status `t`. -/
def Moves (s t : ContractStatus) (m : Move OpsPool (Act Request Choice)) : Prop :=
  ((m.before.store.contracts.get? "ctr_1").map Contract.status) = some s ∧
    ((m.after.store.contracts.get? "ctr_1").map Contract.status) = some t

instance (s t : ContractStatus) (m : Move OpsPool (Act Request Choice)) :
    Decidable (Moves s t m) :=
  inferInstanceAs (Decidable (_ ∧ _))

/-- An anchor request that takes a draft to `escrow_validated`, with a refused `PATCH status`
    between its read and its save. -/
theorem contract_lifecycle_anchored :
    ∃ ms P, Run (opsPoolStep sampleConfig) ⟨contractStore .draft, []⟩ ms P ∧
      ∃ m ∈ ms, Moves .draft .escrowValidated m ∧
        ∃ req, stepRequest m = some req ∧ req.isAnchor = true ∧
          Relation.TransGen ContractEdge .draft .escrowValidated := by
  obtain ⟨ms, P, run, hp⟩ := exists_run_of_replay
    (scheduleActs world (handle sampleConfig)
      [.start (.patchEscrowAnchor none "ctr_1" { txHash := "AB12CD34" }),
        .run 0 1 (sampleOracle "1" 0 none),
        .start (.patchContractStatus none "ctr_1" .closed),
        .run 1 20 (sampleOracle "2" 0 none),
        .run 0 20 (sampleOracle "1" 0 (some escrowCreateAnswer))] ⟨contractStore .draft, []⟩)
    (fun r => (r.1.all unchangedCheck) && (r.1.all (spawnCheck Request.patchesContract)) &&
      r.1.any fun m => decide (Moves .draft .escrowValidated m))
    (by decide +kernel :
      (replay (opsPoolStep sampleConfig) ⟨contractStore .draft, []⟩ _ []).any _ = true)
  simp only [Bool.and_eq_true, List.all_eq_true, List.any_eq_true, decide_eq_true_eq] at hp
  obtain ⟨⟨hsaves, hspawn⟩, m, hm, hmoves⟩ := hp
  refine ⟨ms, P, run, m, hm, hmoves, ?_⟩
  obtain ⟨c, hc, hs⟩ := Option.map_eq_some_iff.mp hmoves.1
  obtain ⟨c', hc', hchange, -⟩ := contract_lifecycle run
    (fun m hm => spawn_of_check (hspawn m hm))
    (fun m hm => unchangedSinceRead_of_check (hsaves m hm)) m hm "ctr_1" c hc
  have hs' : c'.status = .escrowValidated := by
    have hafter := hmoves.2
    rw [hc'] at hafter
    exact Option.some.inj hafter
  -- from a draft to a validated anchor in one step is a path, not an edge
  rw [hs, hs'] at hchange
  rcases hchange with hsame | hedge | hpath
  · exact nomatch hsame
  · exact absurd hedge (by unfold ContractEdge; decide)
  · exact hpath

/-- A `PATCH status` to `cancelled` between the read and the save of an anchor request: the
    anchor brings the cancelled contract back to `escrow_pending` and changes its hash. -/
theorem cancelled_contract_left :
    ∃ ms P, Run (opsPoolStep sampleConfig) ⟨contractStore .escrowPending, []⟩ ms P ∧
      (∀ m ∈ ms, ∀ req, m.label = .spawn req → req.patchesContract = true) ∧
      ∃ m ∈ ms, Moves .cancelled .escrowPending m ∧
        ((m.before.store.contracts.get? "ctr_1").map Contract.escrowCreateTxHash) ≠
          ((m.after.store.contracts.get? "ctr_1").map Contract.escrowCreateTxHash) := by
  obtain ⟨ms, P, run, hp⟩ := exists_run_of_replay
    (scheduleActs world (handle sampleConfig)
      [.start (.patchEscrowAnchor none "ctr_1" { txHash := "AB12CD34" }),
        .run 0 1 (sampleOracle "1" 0 none),
        .start (.patchContractStatus none "ctr_1" .cancelled),
        .run 1 20 (sampleOracle "2" 0 none),
        .run 0 20 (sampleOracle "1" 0 none)] ⟨contractStore .escrowPending, []⟩)
    (fun r => (r.1.all (spawnCheck Request.patchesContract)) &&
      r.1.any fun m => decide (Moves .cancelled .escrowPending m ∧
        ((m.before.store.contracts.get? "ctr_1").map Contract.escrowCreateTxHash) ≠
          ((m.after.store.contracts.get? "ctr_1").map Contract.escrowCreateTxHash)))
    (by decide +kernel :
      (replay (opsPoolStep sampleConfig) ⟨contractStore .escrowPending, []⟩ _ []).any _ = true)
  simp only [Bool.and_eq_true, List.all_eq_true, List.any_eq_true, decide_eq_true_eq] at hp
  obtain ⟨hspawn, m, hm, hmoves⟩ := hp
  exact ⟨ms, P, run, fun m hm => spawn_of_check (hspawn m hm), m, hm, hmoves⟩

end Bluesafe.Ops
