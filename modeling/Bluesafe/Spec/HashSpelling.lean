import Bluesafe.Spec.BookRefinement
import Bluesafe.Spec.LedgerTruth
import Bluesafe.Async.Keeps

/-!
# Spellings of a transaction hash

The ledger spells a hash in upper case, and so do the execution request and the wallet;
tracking and refreshing take the hash as it is given, and rows, jobs and answers are found
by comparing exactly. A hash that is tracked in lower case is therefore a second row, which
the stream and `account_tx` never reach (`tracked_under_two_spellings`).

As long as the callers of these two routes spell in upper case, spelling does not matter: in
every run the rows have different hashes ignoring case, a request deals with the row of the
hash it names, and the row follows the ledger (`spelling_settled_runs`).
-/

namespace Bluesafe.Ops

open Async Transition

/-! ## Upper case -/

/-- A letter is put in upper case once. -/
theorem toUpper_toUpper (c : Char) : c.toUpper.toUpper = c.toUpper := by
  unfold Char.toUpper
  split
  · rename_i h
    have hlow : 97 ≤ c.toNat := h.1
    have hhigh : c.toNat ≤ 122 := h.2
    -- The shifted character stands before the lower-case letters.
    rw [dif_neg]
    rintro ⟨hshift, -⟩
    have hshift : 97 ≤ (c.val + ('A'.val - 'a'.val)).toNat := hshift
    have hoffset : ('A'.val - 'a'.val).toNat = 4294967264 := by decide
    have hval : c.val.toNat = c.toNat := rfl
    rw [UInt32.toNat_add, hval, hoffset] at hshift
    omega
  · rfl

/-- So is a text. -/
theorem toUpperCase_toUpperCase (s : String) : toUpperCase (toUpperCase s) = toUpperCase s := by
  unfold toUpperCase
  rw [String.toList_ofList, List.map_map]
  congr 1
  exact List.map_congr_left fun c _ => toUpper_toUpper c

/-- The hash a request is about, as its caller spells it. -/
def Request.givenHash : Request → Option String
  | .track _ body => some body.txHash
  | .execution _ _ body => truthy body.txHash
  | .refresh _ txHash => some txHash
  | _ => none

/-- Where the handler does not change the spelling, the caller uses the ledger's. -/
def Request.spelledUpper : Request → Bool
  | .track _ body => decide (toUpperCase body.txHash = body.txHash)
  | .refresh _ txHash => decide (toUpperCase txHash = txHash)
  | _ => true

/-- The hash under which a call reads, asks about or saves a transaction. -/
def Call.txHash : Call → Option String
  | .getXrplTx h => some h
  | .saveXrplTx row => some row.txHash
  | .getTxStatus h => some h
  | _ => none

/-! ## The rows of a run -/

/-- The row has the spelling of the ledger. -/
def UpperRow (_ : OpsPool) : Row → Prop
  | .tx row => toUpperCase row.txHash = row.txHash
  | .dispute _ => True
  | .contract _ => True

/-- The wallet's answers are in upper case. -/
def UpperEvent (_ : Request) (ev : Event calls String) : Prop :=
  ∀ tx h, ev = ⟨.submitAndWaitFromWallet tx, .ok h⟩ → toUpperCase h = h

/-- The ledger names hashes in upper case. -/
theorem upperEvent_serve (req : Request) (op : Call) (c : Choice) (s : Store) :
    UpperEvent req ⟨op, (serve op c s).1⟩ := by
  intro tx h heq
  obtain ⟨-, rfl, -⟩ := performed_of_event heq.symm
  exact toUpperCase_toUpperCase c.submitted

section Writes

variable {config : Config} {req : Request} {l : OpsLog}

/-- The hash that was chosen for an execution is in upper case. -/
theorem Chosen.upper {body : ExecutionBody} {chosen : ExecutionHash} (h : Chosen config l body chosen)
    (hev : ∀ ev ∈ l, UpperEvent req ev) : toUpperCase chosen.txHash = chosen.txHash := by
  cases h with
  | named h hbody => exact toUpperCase_toUpperCase h
  | submitted h hbody hsub => exact hev _ hsub _ h rfl
  | synthetic d now hbody heff => exact toUpperCase_toUpperCase _

/-- A hash that is tracked by a request in upper case is, too. -/
theorem TrackedBy.upper {h : String} {p : TrackParams} (ht : TrackedBy config req l h p)
    (hreq : req.spelledUpper = true) (hev : ∀ ev ∈ l, UpperEvent req ev) : toUpperCase h = h := by
  cases ht with
  | track auth body heq =>
    subst heq
    exact of_decide_eq_true hreq
  | execution d body chosen hx => exact hx.source.upper hev

/-- A new row has the hash of its request, every other write keeps the hash. -/
theorem writesGood_upper :
    WritesGood config UpperRow (fun req => req.spelledUpper = true) UpperEvent := by
  intro P th op res r w _ _ hw
  cases r with
  | dispute d => trivial
  | contract c => trivial
  | tx row =>
    have hw : TxWrite config th.req th.log row := hw
    -- a new row has the hash it is tracked under; every other write keeps the hash of a row
    cases hw with
    | fresh id h p now ht hget => exact ht.upper w.request w.events
    | retracked h row p now ht hget => exact ht.upper w.request w.events
    | reconciled h row live now ha hget => exact (w.getXrplTx hget).1
    | simulated body tx now hs =>
      obtain ⟨rows, hrows, hmem⟩ := hs.read
      have hrow : UpperRow P (.tx tx) := w.readRow (.listed rows hrows hmem)
      exact hrow
    | account row a now hread =>
      have hrow : UpperRow P (.tx row) := w.readRow hread
      exact hrow
    | probed row now hread =>
      have hrow : UpperRow P (.tx row) := w.readRow hread
      exact hrow
    | exhausted row now hread =>
      have hrow : UpperRow P (.tx row) := w.readRow hread
      exact hrow

end Writes

/-! ## The calls of a request -/

/-- While the rows read so far have the hashes they were read under, a call about a
    transaction is about `g`. -/
def about (g : String) (l : OpsLog) (op : Call) : Prop :=
  (∀ ev ∈ l, Keyed ev) → ∀ h, op.txHash = some h → h = g

/-- A call that names no hash is about any. -/
theorem about_of_none {g : String} {l : OpsLog} {op : Call} (h : op.txHash = none) : about g l op := by
  intro _ h' hh
  rw [h] at hh
  cases hh

/-- A call is about the hash it names. -/
theorem about_self {g : String} {l : OpsLog} {op : Call} (h : op.txHash = some g) : about g l op := by
  intro _ h' hh
  rw [h] at hh
  exact (Option.some.inj hh).symm

/-- A row that was read under `g` is saved under `g`. -/
theorem about_save {g : String} {l : OpsLog} {row row' : XrplTransaction}
    (hget : Answered l (.getXrplTx g) (some row)) (hhash : row'.txHash = row.txHash) :
    about g l (.saveXrplTx row') := by
  intro hkeyed h hh
  have hrow : row.txHash = g := (hkeyed _ hget).1 g row rfl
  rw [← Option.some.inj hh, hhash, hrow]

section About

variable {g : String} {l : OpsLog}

/-- Audit entries name no hash of a row. -/
theorem writeAudit_about (entityType entityId action actor : String)
    (before after metadata : Option JsonObject) :
    Safe (I := calls) (about g) (writeAudit entityType entityId action actor before after metadata) l :=
  Gives.call_then (about_of_none rfl) fun _ _ _ =>
    Gives.call_then (about_of_none rfl) fun _ _ _ => Gives.call (about_of_none rfl) fun _ => trivial

/-- Nor do events. -/
theorem emitEvent_about (eventType entityType entityId : String) (payload : JsonObject) :
    Safe (I := calls) (about g) (emitEvent eventType entityType entityId payload) l :=
  Gives.call_then (about_of_none rfl) fun _ _ _ => Gives.call_then (about_of_none rfl) fun _ _ _ =>
    Gives.call_then (about_of_none rfl) fun _ _ _ => Gives.call (about_of_none rfl) fun _ => trivial

/-- Nor do notifications. -/
theorem notifyParties_about (contractId eventType : String) (payload : JsonObject) :
    Safe (I := calls) (about g) (notifyParties contractId eventType payload) l := by
  refine Gives.call_then (about_of_none rfl) fun contract l₁ _ => ?_
  cases contract with
  | none => exact Gives.pure trivial
  | some c => exact Gives.call (about_of_none rfl) fun _ => trivial

/-- Nor does the dispute that is resolved. -/
theorem resolveLinkedDispute_about (row : XrplTransaction) :
    Safe (I := calls) (about g) (resolveLinkedDispute row) l := by
  unfold resolveLinkedDispute
  -- the dispute, its audit, its event and its notice: none of them names a hash
  cases row.resolves with
  | none => exact Gives.pure trivial
  | some id =>
    refine Gives.call_then (about_of_none rfl) fun found l₁ _ => ?_
    cases found with
    | none => exact Gives.pure trivial
    | some d =>
      dsimp only
      split
      · unfold resolveExecution
        refine Gives.call_then (about_of_none rfl) fun _ l₂ _ => ?_
        refine Gives.call_then (about_of_none rfl) fun _ l₃ _ => ?_
        refine Gives.bind (writeAudit_about _ _ _ _ _ _ _) fun _ l₄ _ _ => ?_
        refine Gives.bind (emitEvent_about _ _ _ _) fun _ l₅ _ _ => ?_
        exact notifyParties_about _ _ _
      · exact Gives.pure trivial

/-- An answer is applied to the row of its hash. -/
theorem applyLiveTxStatus_about (live : LiveTxStatus) :
    Safe (I := calls) (about g) (applyLiveTxStatus g live) l := by
  unfold applyLiveTxStatus
  refine Gives.call_read (about_self rfl) fun found l₁ _ hget => ?_
  cases found with
  | none => exact Gives.pure trivial
  | some row =>
    refine Gives.call_then (about_of_none rfl) fun now l₂ hl₂ => ?_
    refine Gives.call_then (about_save (Answered.mono hget hl₂) rfl) fun _ l₃ _ => ?_
    exact Gives.bind (resolveLinkedDispute_about _) fun _ _ _ _ => Gives.pure trivial

/-- Tracking writes the row of its hash. -/
theorem upsertTrackedTx_about (p : TrackParams) :
    Safe (I := calls) (about g) (upsertTrackedTx g p) l := by
  unfold upsertTrackedTx
  refine Gives.call_then (about_of_none rfl) fun now l₁ _ => ?_
  refine Gives.call_then (about_self rfl) fun existing l₂ _ => ?_
  cases existing with
  | none => exact Gives.call_then (about_of_none rfl) fun id l₃ _ => Gives.call (about_self rfl) fun _ => trivial
  | some row => exact Gives.call (about_self rfl) fun _ => trivial

/-- A lookup applies its answer to the hash it asked for. -/
theorem lookupAndApply_about : Safe (I := calls) (about g) (lookupAndApply g) l := by
  unfold lookupAndApply
  refine Gives.call_then (about_self rfl) fun found l₁ _ => ?_
  cases found with
  | none => exact Gives.pure trivial
  | some live => exact Gives.bind (applyLiveTxStatus_about live) fun _ _ _ _ => Gives.pure trivial

/-- A request that tracks is about the hash it names. -/
theorem track_about (config : Config) (auth : Option BluesafeAuth) (body : TrackBody) :
    Safe (I := calls) (about body.txHash) (track config auth body) l := by
  have hannounce : ∀ l₁, Safe (I := calls) (about body.txHash) (announceTracked body) l₁ := by
    intro l₁
    unfold announceTracked
    refine Gives.call_then (about_self rfl) fun _ l₂ _ => ?_
    refine Gives.bind (writeAudit_about _ _ _ _ _ _ _) fun _ l₃ _ _ => ?_
    exact Gives.bind (emitEvent_about _ _ _ _) fun _ _ _ _ => Gives.pure trivial
  unfold track
  refine writeRoute_guarded fun _ _ => (Gives.bind (upsertTrackedTx_about _) fun _ l₁ _ _ => ?_)
  split
  · exact Gives.bind lookupAndApply_about fun _ l₂ _ _ => hannounce l₂
  · exact hannounce l₁

/-- A refresh is about the hash in its path. -/
theorem refresh_about (config : Config) (auth : Option BluesafeAuth) :
    Safe (I := calls) (about g) (refresh config auth g) l := by
  -- the reply reads the row of the same hash
  have hreply : ∀ l₁, Safe (I := calls) (about g) (replyRefreshed g) l₁ := by
    intro l₁
    unfold replyRefreshed
    refine Gives.call_then (about_self rfl) fun found l₂ _ => ?_
    cases found with
    | none => exact Gives.throw
    | some latest => exact Gives.pure trivial
  unfold refresh
  refine writeRoute_guarded fun _ _ => (Gives.call_then (about_self rfl) fun found l₁ _ => ?_)
  cases found with
  | none => exact Gives.pure trivial
  | some row =>
    dsimp only
    split
    · refine Gives.call_then (about_self rfl) fun answer l₂ _ => ?_
      cases answer with
      | none => exact Gives.pure trivial
      | some live => exact Gives.bind (applyLiveTxStatus_about live) fun _ l₃ _ _ => hreply l₃
    · exact Gives.pure trivial

/-- An execution tracks the hash that was chosen. -/
theorem trackExecution_about (config : Config) (d : DisputeCase) (body : ExecutionBody)
    {chosen : ExecutionHash} (hchosen : chosen.txHash = g) :
    Safe (I := calls) (about g) (trackExecution config d body chosen) l := by
  subst hchosen
  unfold trackExecution
  split
  · refine Gives.call_then (about_self rfl) fun live l₁ _ => ?_
    cases typeMismatch chosen body live with
    | some t => exact Gives.pure trivial
    | none =>
      refine Gives.bind (upsertTrackedTx_about _) fun _ l₂ _ _ => ?_
      cases live with
      | none => exact Gives.pure trivial
      | some live => exact Gives.bind (applyLiveTxStatus_about live) fun _ _ _ _ => Gives.pure trivial
  · exact Gives.bind (upsertTrackedTx_about _) fun _ _ _ _ => Gives.pure trivial

/-- And it is stored under this hash. -/
theorem acceptExecution_about (auth : Option BluesafeAuth) (d : DisputeCase) (body : ExecutionBody)
    (chosen : ExecutionHash) (now : Time) :
    Safe (I := calls) (about g) (acceptExecution auth d body chosen now) l := by
  unfold acceptExecution
  refine Gives.call_then (about_of_none rfl) fun _ l₁ _ => ?_
  refine Gives.bind (writeAudit_about _ _ _ _ _ _ _) fun _ l₂ _ _ => ?_
  refine Gives.bind (emitEvent_about _ _ _ _) fun _ l₃ _ _ => ?_
  refine Gives.bind (notifyParties_about _ _ _) fun _ l₄ _ _ => ?_
  exact Gives.call_then (about_of_none rfl) fun _ _ _ => Gives.pure trivial

/-- An execution request with a hash deals with it in upper case. -/
theorem execution_about (config : Config) (auth : Option BluesafeAuth) (disputeId : String)
    {body : ExecutionBody} (hbody : truthy body.txHash = some g) :
    Safe (I := calls) (about (toUpperCase g)) (execution config auth disputeId body) l := by
  -- the body names the hash, so nothing is submitted
  have hchoose : ∀ d, chooseExecutionHash config d body = pure (.ok ⟨toUpperCase g, true, false⟩) := by
    intro d
    unfold chooseExecutionHash
    rw [hbody]
  unfold execution withDispute canAccessDispute
  refine writeRoute_guarded fun _ _ => (Gives.call_then (about_of_none rfl) fun found l₁ _ => ?_)
  cases found with
  | none => exact Gives.pure trivial
  | some d =>
    have haccess : Safe (I := calls) (about (toUpperCase g)) (canAccessDispute config auth d) l₁ := by
      unfold canAccessDispute
      refine Gives.call_then (about_of_none rfl) fun contract l₂ _ => ?_
      cases contract <;> exact Gives.pure trivial
    refine Gives.bind haccess fun access l₂ _ _ => ?_
    dsimp only
    split
    · split
      · rw [hchoose]
        refine Gives.call_then (about_of_none rfl) fun now l₃ _ => ?_
        refine Gives.bind (trackExecution_about config d body rfl) fun reply l₄ _ _ => ?_
        cases reply with
        | some reply => exact Gives.pure trivial
        | none => exact acceptExecution_about auth d body _ now
      · exact Gives.pure trivial
    · exact Gives.pure trivial

end About

/-- The calls that a request with a given hash makes about transactions are about that hash,
    in upper case. -/
def namesGiven (req : Request) (l : OpsLog) (op : Call) : Prop :=
  ∀ g, req.givenHash = some g → req.spelledUpper = true → about (toUpperCase g) l op

/-- Every request is about the hashes it was given. -/
theorem handle_names (config : Config) (req : Request) :
    Safe (I := calls) (namesGiven req) (handle config req) [] := by
  -- A request without a hash, or with another spelling, may make any call.
  have hfree : (∀ g, req.givenHash = some g → req.spelledUpper = true → False) →
      Safe (I := calls) (namesGiven req) (handle config req) [] := fun hnone =>
    safe_of_forall (fun _ _ g hg hupper => (hnone g hg hupper).elim) _ _
  have hgiven : ∀ g, req.givenHash = some g → Safe (I := calls) (about (toUpperCase g)) (handle config req) [] →
      Safe (I := calls) (namesGiven req) (handle config req) [] := by
    intro g hg hsafe
    refine wp_monitor_weaken (fun l op hop g' hg' _ => ?_) hsafe
    rw [hg] at hg'
    cases hg'
    exact hop
  by_cases hupper : req.spelledUpper = true
  · cases req with
    | track auth body =>
      have heq : toUpperCase body.txHash = body.txHash := of_decide_eq_true hupper
      refine hgiven body.txHash rfl (Gives.map ?_)
      rw [heq]
      exact track_about config auth body
    | refresh auth txHash =>
      have heq : toUpperCase txHash = txHash := of_decide_eq_true hupper
      refine hgiven txHash rfl (Gives.map ?_)
      rw [heq]
      exact refresh_about config auth
    | execution auth id body =>
      cases hbody : truthy body.txHash with
      | none =>
        refine hfree fun g hg _ => ?_
        rw [show Request.givenHash (.execution auth id body) = truthy body.txHash from rfl, hbody] at hg
        cases hg
      | some g => exact hgiven g hbody (Gives.map (execution_about config auth id hbody))
    | _ => exact hfree fun g hg _ => by cases hg
  · exact hfree fun _ _ h => hupper h

/-- What a run keeps while the callers spell in upper case. -/
structure SpellingInv (config : Config) (P : OpsPool) : Prop where
  rows : RowsGood config UpperRow (fun req => req.spelledUpper = true) UpperEvent P
  safe : ∀ th ∈ P.threads, th.Safe namesGiven
  named : ∀ th ∈ P.threads, ∀ g, th.req.givenHash = some g →
    ∀ ev ∈ th.log, ∀ h, ev.op.txHash = some h → h = toUpperCase g

/-- Every step keeps the spelling of the rows. -/
theorem spellingInv_step {config : Config} (m : Move OpsPool (Act Request Choice))
    (hstep : opsPoolStep config m.before m.label = some m.after)
    (hspawn : ∀ req, m.label = .spawn req → req.spelledUpper = true)
    (hP : SpellingInv config m.before) : SpellingInv config m.after := by
  have hok : StepOk (fun req => req.spelledUpper = true) UpperEvent m := by
    refine ⟨hspawn, fun req l ev hev => ?_⟩
    obtain ⟨i, c, th, op, k, -, -, -, -, -, rfl⟩ := stepEvent_cases hev
    exact upperEvent_serve req op c m.before.store
  refine ⟨rowsGood_step (fun _ _ _ _ h => ?_) writesGood_upper m hstep hok hP.rows,
    poolStep_safe (handle_names config) hstep hP.safe, ?_⟩
  -- what is known about the rows carries over by the general lemma for them
  · exact h
  · intro u hu g hg ev hev h hh
    -- a call of before, or the one that is made now
    rcases mem_log_step hstep hu hev with ⟨v, hv, hreq, hev⟩ | ⟨i, c, th, op, k, -, hth, hprog, hreq, rfl, -⟩
    · exact hP.named v hv g (hreq ▸ hg) ev hev h hh
    · have hmem : th ∈ m.before.threads := List.mem_of_getElem? hth
      have hcall := (hP.safe th hmem).ok_of_await hprog
      rw [hreq] at hg
      exact hcall g hg (hP.rows.requests th hmem) (hP.rows.keyed th hmem) h hh

/-- And so does every run. -/
theorem spellingInv_run {config : Config} {s₀ : Store} {P : OpsPool}
    {ms : List (Move OpsPool (Act Request Choice))} (h₀ : s₀.Initial)
    (run : Run (opsPoolStep config) ⟨s₀, []⟩ ms P)
    (hspawn : ∀ m ∈ ms, ∀ req, m.label = .spawn req → req.spelledUpper = true) :
    SpellingInv config P := by
  refine run.invariant hspawn ⟨⟨?_, ?_, ?_, ?_, ?_, ?_⟩, ?_, ?_⟩ spellingInv_step
  · intro r hr
    cases r with
    | tx row =>
      have hmem : row ∈ s₀.xrplTxs.rows := hr
      rw [h₀.untracked] at hmem
      cases hmem
    | dispute d => trivial
    | contract c => trivial
  all_goals
    intro th hth
    cases hth

/-! ## The ledger's answers -/

/-- The answer is in the row. -/
def Reconciled (row : XrplTransaction) (live : LiveTxStatus) (s : Store) : Prop :=
  ∃ now, s.xrplTxs.get? row.txHash = some (row.reconciled live now)

/-- Every run of `p` alone leaves the answer in the row. -/
def Updates {α : Type} (W : World calls String Store Choice) (p : OpsM α) (s : Store)
    (row : XrplTransaction) (live : LiveTxStatus) : Prop :=
  ∀ l, wp (seqSpec W) p (fun _ g => Reconciled row live g.2) (fun _ g => Reconciled row live g.2) (l, s)

/-- What the ledger answers: `live` to `tx`, and `found` to a lookup of `h` in `account_tx`. -/
def ledgerSays (h : String) (live found : Option LiveTxStatus) (c : Choice) : Bool :=
  c.failure.isNone && decide (c.live = live) && decide (c.accountTx.lookup h = found)

section Updates

variable {s : Store} {row : XrplTransaction} {live : LiveTxStatus}

/-- The calls that leave the tracked transactions alone. -/
def Call.keepsTxs : Call → Bool
  | .saveXrplTx _ => false
  | _ => true

/-- A program without a save of a tracked transaction. -/
abbrev KeepsTxs {α : Type} (p : OpsM α) : Prop := Only (fun op : Call => op.keepsTxs = true) p

/-- A call that writes no transaction keeps the rows. -/
theorem keepsTxs_serve {op : Call} (h : op.keepsTxs = true) (c : Choice) (s : Store) :
    (serve op c s).2.xrplTxs = s.xrplTxs := by
  rcases (framed_serve op c s).xrplTxs with hsame | ⟨row, rfl, -⟩
  · exact hsame
  · cases h

/-- Such a program keeps whatever depends on the tracked transactions only. -/
theorem KeepsTxs.toWp {α : Type} {p : OpsM α} (hp : KeepsTxs p) {Q : Store → Prop}
    (hQ : ∀ s', s'.xrplTxs = s.xrplTxs → Q s') (l : OpsLog) :
    wp (seqSpec reliable) p (fun _ g => Q g.2) (fun _ g => Q g.2) (l, s) := by
  have hkeeps : Async.Keeps reliable (fun g => g.2.xrplTxs = s.xrplTxs) p fun _ => True := by
    refine .of_only hp fun op c l s' hop hs' _ => ?_
    exact (keepsTxs_serve hop c s').trans hs'
  exact wp_mono _ _ (seqSpec_mono reliable) (fun _ g h => hQ g.2 h.1) (fun _ g h => hQ g.2 h)
    (hkeeps.toWp rfl)

/-- The dispute that is resolved keeps them, too. -/
theorem resolveLinkedDispute_keepsTxs (row : XrplTransaction) : KeepsTxs (resolveLinkedDispute row) := by
  -- the resolution writes the dispute, and what is announced about it
  have hresolve : ∀ d, KeepsTxs (resolveExecution d row) := by
    intro d
    have haudit : ∀ a b c d e f g, KeepsTxs (writeAudit a b c d e f g) := fun _ _ _ _ _ _ _ =>
      .bind (.call rfl) fun _ => .bind (.call rfl) fun _ => .call rfl
    have hevent : ∀ a b c d, KeepsTxs (emitEvent a b c d) := fun _ _ _ _ =>
      .bind (.call rfl) fun _ => .bind (.call rfl) fun _ => .bind (.call rfl) fun _ => .call rfl
    have hnotify : ∀ a b c, KeepsTxs (notifyParties a b c) := by
      intro a b c
      refine .bind (.call rfl) fun contract => ?_
      cases contract with
      | none => exact .pure
      | some _ => exact .call rfl
    refine .bind (.call rfl) fun _ => .bind (.call rfl) fun _ => .bind (haudit _ _ _ _ _ _ _) fun _ => ?_
    exact .bind (hevent _ _ _ _) fun _ => hnotify _ _ _
  unfold resolveLinkedDispute
  cases row.resolves with
  | none => exact .pure
  | some id =>
    refine .bind (.call rfl) fun found => ?_
    cases found with
    | none => exact .pure
    | some d => exact .ite (hresolve d) .pure

/-- A stored row is found under its hash. -/
theorem perform_getXrplTx (hrow : row ∈ s.xrplTxs.rows) (c : Choice) :
    perform (.getXrplTx row.txHash) c s = (some row, s) :=
  Prod.ext (Table.get?_of_mem hrow) rfl

/-- `applyLiveTxStatus` under the hash of a stored row. -/
theorem applyLiveTxStatus_updates (hrow : row ∈ s.xrplTxs.rows) :
    Updates reliable (applyLiveTxStatus row.txHash live) s row live := by
  intro l
  unfold applyLiveTxStatus
  rw [wp_bind]
  refine wp_invoke rfl fun c => ?_
  rw [perform_getXrplTx hrow]
  dsimp only
  rw [wp_bind]
  refine wp_invoke rfl fun c₁ => ?_
  rw [wp_bind]
  refine wp_invoke rfl fun c₂ => ?_
  rw [wp_bind]
  -- The saved row stays: what follows saves no other.
  have hsaved : Reconciled row live (s.withRow (row.reconciled live c₁.now)) :=
    ⟨c₁.now, Table.get?_set_self s.xrplTxs (row.reconciled live c₁.now)⟩
  refine KeepsTxs.toWp (resolveLinkedDispute_keepsTxs _) (fun s' hs' => ?_) _
  obtain ⟨now, hnow⟩ := hsaved
  refine ⟨now, ?_⟩
  rw [hs']
  exact hnow

/-- A message of the stream updates the row of its hash. -/
theorem streamTransaction_updates (hrow : row ∈ s.xrplTxs.rows) {msg : TransactionStream} {i : Int}
    (hacc : msg.accepted = some (row.txHash, i))
    (hnew : (⟨i, row.txHash, "xrpl_subscribe_transaction"⟩ : IngestionKey) ∉ s.ingestions) :
    Updates reliable (handleTransaction msg false) s row (msg.asAnswer row.txHash i) := by
  intro l
  unfold handleTransaction
  rw [if_neg Bool.false_ne_true, hacc]
  dsimp only
  rw [wp_bind]
  refine wp_invoke rfl fun c => ?_
  rw [perform_getXrplTx hrow]
  dsimp only
  rw [wp_bind]
  refine wp_invoke rfl fun c₁ => ?_
  -- the record is new, so the handler goes on
  have hinserted : perform (.tryRecordXrplIngestionEvent ⟨i, row.txHash, "xrpl_subscribe_transaction"⟩) c₁ s =
      (true, { s with ingestions := ⟨i, row.txHash, "xrpl_subscribe_transaction"⟩ :: s.ingestions }) :=
    if_neg hnew
  rw [hinserted]
  dsimp only
  rw [if_pos rfl, wp_bind]
  simp only [wp_pure]
  have hrow' : row ∈ (perform (.tryRecordXrplIngestionEvent
      ⟨i, row.txHash, "xrpl_subscribe_transaction"⟩) c₁ s).2.xrplTxs.rows := by
    rw [hinserted]
    exact hrow
  rw [hinserted] at hrow'
  exact applyLiveTxStatus_updates hrow' _

/-- The backfill updates a row with the answer of the map. -/
theorem backfillLiveRow_updates (hrow : row ∈ s.xrplTxs.rows) {account : String}
    {map : List (String × LiveTxStatus)} (n : Nat)
    (haccount : ∀ a, truthy row.account = some a → a = account)
    (hfound : map.lookup row.txHash = some live) :
    Updates reliable (backfillLiveRow account map n row) s row live := by
  -- with the answer in the map, it is applied to the row
  have happly : Updates reliable (backfillLiveRow.applyRow map n row) s row live := by
    intro l
    unfold backfillLiveRow.applyRow liveStatusFor
    rw [hfound]
    dsimp only
    rw [wp_bind]
    refine wp_mono _ _ (seqSpec_mono reliable) (fun b g h => ?_) (fun _ _ h => h)
      (applyLiveTxStatus_updates hrow l)
    cases b <;> exact h
  unfold backfillLiveRow
  -- a row with an account has to have this one
  cases hacc : truthy row.account with
  | none => exact happly
  | some a =>
    have heq := haccount a hacc
    dsimp only
    rw [if_neg (fun hne => hne heq)]
    exact happly

/-- A call that the ledger answers as given. -/
theorem wp_says {h : String} {live found : Option LiveTxStatus} {op : Call} {l : OpsLog}
    {Q : op.Res → OpsLog × Store → Prop} {E : String → OpsLog × Store → Prop}
    (hQ : ∀ c : Choice, c.live = live → c.accountTx.lookup h = found →
      Q (perform op c s).1 (⟨op, .ok (perform op c s).1⟩ :: l, (perform op c s).2)) :
    wp (seqSpec (reliable.restrict (ledgerSays h live found))) (invoke op) Q E (l, s) := by
  intro c hc
  have hsays := (allow_restrict.mp hc).2
  simp only [ledgerSays, Bool.and_eq_true, Option.isNone_iff_eq_none, decide_eq_true_eq] at hsays
  obtain ⟨⟨hnone, hlive⟩, hfound⟩ := hsays
  have hserve : (reliable.restrict (ledgerSays h live found)).serve op c s =
      (.ok (perform op c s).1, (perform op c s).2) := serve_performed hnone
  rw [hserve]
  exact hQ c hlive hfound

/-- A lookup updates the row it asked for. -/
theorem lookupAndApply_updates (hrow : row ∈ s.xrplTxs.rows) (h : String) (found : Option LiveTxStatus) :
    Updates (reliable.restrict (ledgerSays h (some live) found)) (lookupAndApply row.txHash) s row live := by
  intro l
  unfold lookupAndApply
  rw [wp_bind]
  refine wp_says fun c hlive _ => ?_
  rw [show (perform (.getTxStatus row.txHash) c s).1 = some live from hlive]
  dsimp only
  rw [wp_bind]
  exact wp_restrict (applyLiveTxStatus_updates hrow _)

/-- So does a job of the policy worker. -/
theorem runPolicyJob_updates (hrow : row ∈ s.xrplTxs.rows) (policy : PolicyConfig) (job : DelayedJob)
    (hcand : isPolicyCandidate row = true) (hacc : (truthy row.account).isSome = true) :
    Updates (reliable.restrict (ledgerSays row.txHash none (some live)))
      (runPolicyJob policy job row.txHash) s row live := by
  intro l
  obtain ⟨account, haccount⟩ := Option.isSome_iff_exists.mp hacc
  unfold runPolicyJob
  rw [wp_bind]
  refine wp_says fun c _ _ => ?_
  rw [perform_getXrplTx hrow]
  dsimp only
  rw [if_pos hcand, wp_bind]
  -- `tx` does not know the transaction, `account_tx` does.
  unfold probeLedger
  rw [wp_bind]
  refine wp_says fun c₁ hlive _ => ?_
  rw [show perform (.getTxStatus row.txHash) c₁ s = (none, s) from Prod.ext hlive rfl]
  dsimp only
  rw [haccount]
  dsimp only
  rw [wp_bind]
  refine wp_says fun c₂ _ hfound => ?_
  have hmap : liveStatusFor c₂.accountTx row.txHash = some live := hfound
  rw [show perform (.getAccountTxResults account) c₂ s = (c₂.accountTx, s) from rfl, wp_pure, hmap]
  dsimp only
  rw [wp_bind]
  refine wp_mono _ _ (seqSpec_mono _) (fun b g hg => ?_) (fun _ _ h => h)
    (wp_restrict (applyLiveTxStatus_updates hrow _))
  exact wp_restrict (KeepsTxs.toWp (.call rfl) (fun s' hs' => by
    obtain ⟨now, hnow⟩ := hg
    exact ⟨now, hs' ▸ hnow⟩) _)

end Updates

/-- The stored row takes in what the ledger says about its hash, which it spells in upper
    case: on the stream, in `account_tx` (for a backfill and for the policy worker) and in
    answer to `tx`. -/
structure FollowsLedger (s : Store) (row : XrplTransaction) : Prop where
  stream : ∀ (msg : TransactionStream) (i : Int), msg.accepted = some (toUpperCase row.txHash, i) →
    (⟨i, toUpperCase row.txHash, "xrpl_subscribe_transaction"⟩ : IngestionKey) ∉ s.ingestions →
    Updates reliable (handleTransaction msg false) s row (msg.asAnswer (toUpperCase row.txHash) i)
  backfill : ∀ (account : String) (map : List (String × LiveTxStatus)) (n : Nat) (live : LiveTxStatus),
    (∀ a, truthy row.account = some a → a = account) →
    map.lookup (toUpperCase row.txHash) = some live →
    Updates reliable (backfillLiveRow account map n row) s row live
  policy : ∀ (policy : PolicyConfig) (job : DelayedJob) (live : LiveTxStatus),
    isPolicyCandidate row = true → (truthy row.account).isSome = true →
    Updates (reliable.restrict (ledgerSays (toUpperCase row.txHash) none (some live)))
      (runPolicyJob policy job row.txHash) s row live
  tx : ∀ (live : LiveTxStatus) (found : Option LiveTxStatus),
    Updates (reliable.restrict (ledgerSays (toUpperCase row.txHash) (some live) found))
      (lookupAndApply row.txHash) s row live

/-- A row in upper case follows every way in which the ledger answers. -/
theorem followsLedger {s : Store} {row : XrplTransaction} (hrow : row ∈ s.xrplTxs.rows)
    (hupper : toUpperCase row.txHash = row.txHash) : FollowsLedger s row where
  stream msg i hacc hnew := by
    rw [hupper] at hacc hnew ⊢
    exact streamTransaction_updates hrow hacc hnew
  backfill account map n live haccount hfound := by
    rw [hupper] at hfound
    exact backfillLiveRow_updates hrow n haccount hfound
  policy policy job live hcand hacc := by
    rw [hupper]
    exact runPolicyJob_updates hrow policy job hcand hacc
  tx live found := lookupAndApply_updates hrow _ found

/-! ## Spelling does not matter -/

/-- Rows have different hashes ignoring case; the calls that a request makes about
    transactions are about the hash it was given, in the one spelling that rows have; and the
    rows follow the ledger. -/
structure SpellingSettled (P : OpsPool) : Prop where
  unique : ∀ row ∈ P.store.xrplTxs.rows, ∀ row' ∈ P.store.xrplTxs.rows,
    toUpperCase row.txHash = toUpperCase row'.txHash → row = row'
  denotes : ∀ th ∈ P.threads, ∀ g, th.req.givenHash = some g →
    (∀ ev ∈ th.log, ∀ h, ev.op.txHash = some h → h = toUpperCase g) ∧
    ∀ row ∈ P.store.xrplTxs.rows, toUpperCase row.txHash = toUpperCase g → row.txHash = toUpperCase g
  follows : ∀ row ∈ P.store.xrplTxs.rows, FollowsLedger P.store row

/-- In every run in which the callers of `track` and `refresh` spell hashes in upper case,
    whatever the interleaving and the failures, spelling does not matter. -/
theorem spelling_settled_runs {config : Config} {s₀ : Store} {P : OpsPool}
    {ms : List (Move OpsPool (Act Request Choice))} (h₀ : s₀.Initial)
    (run : Run (opsPoolStep config) ⟨s₀, []⟩ ms P)
    (hspawn : ∀ m ∈ ms, ∀ req, m.label = .spawn req → req.spelledUpper = true) :
    SpellingSettled P := by
  have hinv := spellingInv_run h₀ run hspawn
  have hupper : ∀ row ∈ P.store.xrplTxs.rows, toUpperCase row.txHash = row.txHash :=
    fun row hrow => hinv.rows.stored (.tx row) hrow
  refine ⟨?_, ?_, fun row hrow => followsLedger hrow (hupper row hrow)⟩
  · intro row hrow row' hrow' heq
    rw [hupper row hrow, hupper row' hrow'] at heq
    have hget := Table.get?_of_mem hrow
    have hget' := Table.get?_of_mem hrow'
    rw [heq, hget'] at hget
    exact (Option.some.inj hget).symm
  · intro th hth g hg
    refine ⟨hinv.named th hth g hg, fun row hrow heq => ?_⟩
    rw [← hupper row hrow, heq]

theorem spelling_settled_runs_tracked :
    ∃ ms P, Run (opsPoolStep sampleConfig) ⟨Store.empty, []⟩ ms P ∧
      (∀ m ∈ ms, ∀ req, m.label = .spawn req → req.spelledUpper = true) ∧
      P.store.xrplTxs.rows ≠ [] ∧ SpellingSettled P := by
  obtain ⟨ms, P, run, hp⟩ := exists_run_of_replay
    (scheduleActs world (handle sampleConfig)
      [.start (.track none sampleTrack), .run 0 20 (sampleOracle "1" 0 none),
        .start (.refresh none sampleTrack.txHash), .run 1 20 (sampleOracle "1" 0 none)]
      ⟨Store.empty, []⟩)
    (fun r => r.1.all (spawnCheck Request.spelledUpper) && !r.2.store.xrplTxs.rows.isEmpty)
    (by decide +kernel : (replay (opsPoolStep sampleConfig) ⟨Store.empty, []⟩ _ []).any _ = true)
  simp only [Bool.and_eq_true, List.all_eq_true, Bool.not_eq_true', List.isEmpty_eq_false_iff] at hp
  have hspawn : ∀ m ∈ ms, ∀ req, m.label = .spawn req → req.spelledUpper = true :=
    fun m hm => spawn_of_check (hp.1 m hm)
  exact ⟨ms, P, run, hspawn, hp.2, spelling_settled_runs empty_initial run hspawn⟩

/-- The transaction of `sampleTrack` in lower case. -/
def lowerTrack : TrackBody := { sampleTrack with txHash := "ab12cd34", txHash_min := by decide }

/-- Tracked in lower case and then in upper case, the transaction has two rows. -/
theorem tracked_under_two_spellings :
    ∃ ms P, Run (opsPoolStep sampleConfig) ⟨Store.empty, []⟩ ms P ∧
      (∃ row ∈ P.store.xrplTxs.rows, ∃ row' ∈ P.store.xrplTxs.rows,
        row.txHash = "ab12cd34" ∧ row'.txHash = "AB12CD34" ∧
          toUpperCase row.txHash = toUpperCase row'.txHash) ∧
      ¬ SpellingSettled P := by
  obtain ⟨ms, P, run, hp⟩ := exists_run_of_replay
    (scheduleActs world (handle sampleConfig)
      [.start (.track none lowerTrack), .run 0 20 (sampleOracle "1" 0 none),
        .start (.track none sampleTrack), .run 1 20 (sampleOracle "2" 0 none)]
      ⟨Store.empty, []⟩)
    (fun r => r.2.store.xrplTxs.rows.any (fun row => decide (row.txHash = "ab12cd34")) &&
      r.2.store.xrplTxs.rows.any fun row => decide (row.txHash = "AB12CD34"))
    (by decide +kernel : (replay (opsPoolStep sampleConfig) ⟨Store.empty, []⟩ _ []).any _ = true)
  simp only [Bool.and_eq_true, List.any_eq_true, decide_eq_true_eq] at hp
  obtain ⟨⟨row, hrow, hlower⟩, row', hrow', hupper⟩ := hp
  -- both spellings have one upper case
  have hsame : toUpperCase row.txHash = toUpperCase row'.txHash := by
    rw [hlower, hupper]
    decide +kernel
  refine ⟨ms, P, run, ⟨row, hrow, row', hrow', hlower, hupper, hsame⟩, fun hsettled => ?_⟩
  have heq := hsettled.unique row hrow row' hrow' hsame
  rw [heq, hupper] at hlower
  revert hlower
  decide

end Bluesafe.Ops
