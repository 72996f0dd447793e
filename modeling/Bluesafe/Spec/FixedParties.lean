import Bluesafe.Async.Attributes
import Bluesafe.Spec.AccessControl
import Bluesafe.Spec.Delivery
import Bluesafe.Spec.DisputeEvidence

/-!
# The parties of a contract never change

Contracts, disputes and evidence files are rows in the sense of `Async.RowKind`: the parties of
a contract, the contract of a dispute and the contract of an evidence file are fixed when the
row is created. The access rules of `Bluesafe.Spec.AccessControl` imply the monitor of the
library, so in every run, with old copies written back by concurrent requests and with calls
that fail, no row ever changes hands (`identity_kept`).
-/

namespace Bluesafe.Backend

open Async Transition
open Bluesafe.Ops (Contract DisputeCase)
open Bluesafe.Api (Runtime EvidenceFile)

/-! ## What a call does to the store -/

/-- A call of `Bluesafe.Api` does what it does there; the others leave the records alone. -/
theorem serve_records (rt : Runtime) (op : calls.Op) (c : Choice) (s : Store) :
    (∃ op', op = .inl (.inl op') ∧
      (serve rt op c s).2.api = (Api.serve rt op' c.toApi s.api).2) ∨
    ((serve rt op c s).2.api.ops.contracts = s.api.ops.contracts ∧
      (serve rt op c s).2.api.ops.disputes = s.api.ops.disputes ∧
      (serve rt op c s).2.api.evidenceFiles = s.api.evidenceFiles) := by
  match op with
  | .inl (.inl op) => exact .inl ⟨op, rfl, rfl⟩
  | .inl (.inr op) => exact .inr ⟨rfl, rfl, rfl⟩
  | .inr op =>
    right
    simp only [serve]
    split
    · cases op <;> exact ⟨rfl, rfl, rfl⟩
    · split
      · cases op <;> exact ⟨rfl, rfl, rfl⟩
      · exact ⟨rfl, rfl, rfl⟩

/-- The tables of `Bluesafe.Ops` after a call of `Bluesafe.Api`. -/
theorem framed_api (rt : Runtime) (op : Api.calls.Op) (c : Api.Choice) (s : Api.Store) :
    (∃ op', op = .inl op' ∧ Ops.Framed op' s.ops (Api.serve rt op c s).2.ops) ∨
      (Api.serve rt op c s).2.ops.contracts = s.ops.contracts ∧
        (Api.serve rt op c s).2.ops.disputes = s.ops.disputes := by
  cases op with
  | inl op => exact .inl ⟨op, rfl, Ops.framed_serve op c.toChoice s.ops⟩
  | inr op =>
    right
    rcases Api.serve_inr_state rt op c s with heq | heq <;> rw [heq]
    · cases op <;> exact ⟨rfl, rfl⟩
    · exact ⟨rfl, rfl⟩

/-- An identifier that was issued stays issued. -/
theorem mem_issued_serve {rt : Runtime} {op : calls.Op} {c : Choice} {s : Store} {k : String}
    (h : k ∈ s.issued) : k ∈ (serve rt op c s).2.issued := by
  match op with
  | .inl (.inl op) => exact List.mem_append_right _ h
  | .inl (.inr op) => exact Notify.mem_issued_serve (s := s.notify) h
  | .inr op =>
    have hperform : (perform op s).2.issued = s.issued := by cases op <;> rfl
    simp only [serve]
    split
    · rw [hperform]
      exact h
    · split
      · rw [hperform]
        exact h
      · exact h

/-! ## Tables with an attribute -/

/-- A table of the backend: how a row is found, which calls save one, which answers show some,
    and the attribute that is fixed. -/
structure TableKind (ν V : Type) where
  find : Store → String → Option ν
  key : ν → String
  attr : ν → V
  saved : calls.Op → Option ν
  shown : Event calls String → List ν

/-- The answer of the generator. -/
def Issues (ev : Event calls String) (k : String) : Prop :=
  ∃ tag, ev = ⟨.inl (.inl (.inl (.randomId tag))), .ok k⟩

/-- An identifier is new when it is issued. -/
theorem issues_new {rt : Runtime} {op : calls.Op} {c : Choice} {s : Store} {k : String}
    (hc : (world rt).allow op c s = true) (h : Issues ⟨op, (serve rt op c s).1⟩ k) :
    k ∉ s.issued ∧ k ∈ (serve rt op c s).2.issued := by
  obtain ⟨tag, heq⟩ := h
  obtain rfl : op = .inl (.inl (.inl (.randomId tag))) := congrArg Event.op heq
  simp only [Event.mk.injEq, heq_eq_eq, true_and] at heq
  obtain rfl : c.id = k := Ops.answer_of_serve heq
  have hfresh : s.isFresh c.id = true := (Bool.and_eq_true_iff.mp hc).1
  refine ⟨fun hmem => ?_, List.mem_append_left _ (List.mem_singleton.mpr rfl)⟩
  simp [Store.isFresh, hmem] at hfresh

namespace TableKind

variable {ν V : Type} {T : TableKind ν V} {rt : Runtime}

/-- The rows of the table. -/
def rows (T : TableKind ν V) : RowKind calls String Store V where
  stored s k v := ∃ r, T.find s k = some r ∧ T.attr r = v
  shows ev k v := ∃ r ∈ T.shown ev, T.key r = k ∧ T.attr r = v
  saves op k v := ∃ r, T.saved op = some r ∧ T.key r = k ∧ T.attr r = v
  issues := Issues
  issued s k := k ∈ s.issued

/-- A call changes the table by saving one row or by removing one, and an answer shows rows of
    the table. -/
structure Served (T : TableKind ν V) (rt : Runtime) : Prop where
  effect : ∀ op c s k, T.find (serve rt op c s).2 k = T.find s k ∨
    T.find (serve rt op c s).2 k = none ∨
    ∃ r, T.saved op = some r ∧ T.key r = k ∧ T.find (serve rt op c s).2 k = some r
  answer : ∀ op c s r, r ∈ T.shown ⟨op, (serve rt op c s).1⟩ → T.find s (T.key r) = some r
  generator : ∀ tag, T.saved (.inl (.inl (.inl (.randomId tag)))) = none

/-- A kind of row that the store serves obeys the laws of a table. -/
theorem Served.lawful (h : T.Served rt) : T.rows.Lawful (world rt) where
  stored_serve := by
    rintro op c s k v ⟨r, hr, hv⟩
    -- the row is as it was, has gone, or was saved by this call
    rcases h.effect op c s k with heq | hnone | ⟨r', hsaved, hk, hr'⟩
    · exact .inl ⟨r, heq.symm.trans hr, hv⟩
    · exact nomatch hnone.symm.trans hr
    · cases hr'.symm.trans hr
      exact .inr ⟨r, hsaved, hk, hv⟩
  stored_unique := by
    rintro s k v v' ⟨r, hr, rfl⟩ ⟨r', hr', rfl⟩
    cases hr.symm.trans hr'
    rfl
  saves_unique := by
    rintro op k k' v v' ⟨r, hr, rfl, rfl⟩ ⟨r', hr', rfl, rfl⟩
    cases hr.symm.trans hr'
    exact ⟨rfl, rfl⟩
  shown := by
    rintro op c s k v ⟨r, hr, rfl, rfl⟩
    exact ⟨r, h.answer op c s r hr, rfl⟩
  issued_serve := fun hk => mem_issued_serve hk
  issues_new := fun hc hissue => issues_new hc hissue
  issues_saves := by
    rintro op r k k' v ⟨tag, heq⟩ ⟨row, hrow, -⟩
    obtain rfl : op = .inl (.inl (.inl (.randomId tag))) := congrArg Event.op heq
    exact nomatch (h.generator tag).symm.trans hrow

end TableKind

/-! ## The three tables -/

/-- The contracts with their parties. -/
def contractKind : TableKind Contract (String × String) where
  find s k := s.api.ops.contracts.get? k
  key := Contract.id
  attr c := (c.tenantId, c.landlordId)
  saved
    | .inl (.inl (.inl (.saveContract c))) => some c
    | _ => none
  shown
    | ⟨.inl (.inl (.inl (.getContract _))), .ok (some c)⟩ => [c]
    | _ => []

/-- The disputes with their contract. -/
def disputeKind : TableKind DisputeCase String where
  find s k := s.api.ops.disputes.get? k
  key := DisputeCase.id
  attr := DisputeCase.contractId
  saved
    | .inl (.inl (.inl (.saveDispute d))) => some d
    | _ => none
  shown
    | ⟨.inl (.inl (.inl (.getDispute _))), .ok (some d)⟩ => [d]
    | ⟨.inl (.inl (.inl (.listDisputesPage _ _ _))), .ok ds⟩ => ds
    | _ => []

/-- The evidence files with their contract. -/
def evidenceKind : TableKind EvidenceFile String where
  find s k := s.api.evidenceFiles.get? k
  key := EvidenceFile.id
  attr := EvidenceFile.contractId
  saved
    | .inl (.inl op) => Api.savedEvidence op
    | _ => none
  shown
    | ⟨.inl (.inl (.inr (.getEvidence _))), .ok (some e)⟩ => [e]
    | _ => []

section Saved

variable {op : calls.Op}

/-- A contract is saved by its own call. -/
theorem saveContract_of_saved {c : Contract} (h : contractKind.saved op = some c) :
    op = .inl (.inl (.inl (.saveContract c))) := by
  simp only [contractKind] at h
  split at h
  · cases h
    rfl
  · exact nomatch h

/-- So is a dispute. -/
theorem saveDispute_of_saved {d : DisputeCase} (h : disputeKind.saved op = some d) :
    op = .inl (.inl (.inl (.saveDispute d))) := by
  simp only [disputeKind] at h
  split at h
  · cases h
    rfl
  · exact nomatch h

/-- And evidence. -/
theorem saveEvidence_of_saved {e : EvidenceFile} (h : evidenceKind.saved op = some e) :
    op = .inl (.inl (.inr (.saveEvidence e))) := by
  simp only [evidenceKind] at h
  split at h
  · rw [Api.saveEvidence_of_saved h]
  · exact nomatch h

end Saved

section Served

variable (rt : Runtime)

/-- Lookup in a table in which one row was stored. -/
private theorem get?_of_set {ν : Type} {key : ν → String} {t t' : Table key} {v : ν}
    (h : t' = t.set v) (k : String) :
    t'.get? k = t.get? k ∨ key v = k ∧ t'.get? k = some v := by
  rw [h, Table.get?_set]
  split
  · rename_i hk
    exact .inr ⟨hk.symm, rfl⟩
  · exact .inl rfl

/-- The answer to a call of `Bluesafe.Ops`. -/
theorem answer_ops {op op' : Ops.Call} {a : op'.Res} {c : Choice} {s : Store}
    (h : (⟨.inl (.inl (.inl op)), (serve rt (.inl (.inl (.inl op))) c s).1⟩ : Event calls String) =
      ⟨.inl (.inl (.inl op')), .ok a⟩) :
    (Ops.perform op' c.toChoice s.api.ops).1 = a := by
  have hop : op = op' := by
    have := congrArg Event.op h
    simpa using this
  subst hop
  simp only [Event.mk.injEq, heq_eq_eq, true_and] at h
  exact Ops.answer_of_serve h

/-- A call stores a contract, or it leaves what is found under a key. -/
theorem contractKind_effect (op : calls.Op) (c : Choice) (s : Store) (k : String) :
    contractKind.find (serve rt op c s).2 k = contractKind.find s k ∨
      ∃ r, contractKind.saved op = some r ∧ contractKind.key r = k ∧
        contractKind.find (serve rt op c s).2 k = some r := by
  rcases serve_records rt op c s with ⟨op, rfl, heq⟩ | ⟨heq, -⟩
  · rcases framed_api rt op c.toApi s.api with ⟨op, rfl, hframe⟩ | ⟨hsame, -⟩
    · rw [← heq] at hframe
      rcases hframe.contracts with hsame | ⟨x, rfl, hset⟩
      · exact .inl (congrArg (·.get? k) hsame)
      · rcases get?_of_set hset k with h | ⟨hk, h⟩
        · exact .inl h
        · exact .inr ⟨x, rfl, hk, h⟩
    · exact .inl (congrArg (·.get? k) (heq ▸ hsame))
  · exact .inl (congrArg (·.get? k) heq)

/-- A call stores a dispute, or it leaves what is found under a key. -/
theorem disputeKind_effect (op : calls.Op) (c : Choice) (s : Store) (k : String) :
    disputeKind.find (serve rt op c s).2 k = disputeKind.find s k ∨
      ∃ r, disputeKind.saved op = some r ∧ disputeKind.key r = k ∧
        disputeKind.find (serve rt op c s).2 k = some r := by
  rcases serve_records rt op c s with ⟨op, rfl, heq⟩ | ⟨-, heq, -⟩
  · rcases framed_api rt op c.toApi s.api with ⟨op, rfl, hframe⟩ | ⟨-, hsame⟩
    · rw [← heq] at hframe
      rcases hframe.disputes with hsame | ⟨x, rfl, hset⟩
      · exact .inl (congrArg (·.get? k) hsame)
      · rcases get?_of_set hset k with h | ⟨hk, h⟩
        · exact .inl h
        · exact .inr ⟨x, rfl, hk, h⟩
    · exact .inl (congrArg (·.get? k) (heq ▸ hsame))
  · exact .inl (congrArg (·.get? k) heq)

/-- The store serves contracts. -/
theorem contractKind_served : contractKind.Served rt where
  effect op c s k := (contractKind_effect rt op c s k).imp_right .inr
  answer op c s r hr := by
    show s.api.ops.contracts.get? r.id = some r
    simp only [contractKind] at hr
    split at hr
    · rename_i heq
      obtain rfl := List.mem_singleton.mp hr
      obtain ⟨op, rfl⟩ : ∃ op', op = .inl (.inl (.inl op')) := ⟨_, congrArg Event.op heq⟩
      have hget : s.api.ops.contracts.get? _ = some _ := answer_ops rt heq
      rw [Table.key_of_get? hget]
      exact hget
    · exact nomatch hr
  generator _ := rfl

/-- It serves disputes. -/
theorem disputeKind_served : disputeKind.Served rt where
  effect op c s k := (disputeKind_effect rt op c s k).imp_right .inr
  answer op c s r hr := by
    show s.api.ops.disputes.get? r.id = some r
    simp only [disputeKind] at hr
    split at hr
    -- a dispute that was looked up
    · rename_i heq
      obtain rfl := List.mem_singleton.mp hr
      obtain ⟨op, rfl⟩ : ∃ op', op = .inl (.inl (.inl op')) := ⟨_, congrArg Event.op heq⟩
      have hget : s.api.ops.disputes.get? _ = some _ := answer_ops rt heq
      rw [Table.key_of_get? hget]
      exact hget
    -- and one that stands on a page
    · rename_i heq
      obtain ⟨op, rfl⟩ : ∃ op', op = .inl (.inl (.inl op')) := ⟨_, congrArg Event.op heq⟩
      rw [← answer_ops rt heq] at hr
      exact Table.get?_of_mem (Ops.mem_disputesPage hr).1
    · exact nomatch hr
  generator _ := rfl

/-- A call stores a file, deletes the one under a key, or leaves what is found there. -/
theorem evidenceKind_effect (op : calls.Op) (c : Choice) (s : Store) (k : String) :
    evidenceKind.find (serve rt op c s).2 k = evidenceKind.find s k ∨
      (op = .inl (.inl (.inr (.deleteEvidence k))) ∧ evidenceKind.find (serve rt op c s).2 k = none) ∨
      ∃ r, evidenceKind.saved op = some r ∧ evidenceKind.key r = k ∧
        evidenceKind.find (serve rt op c s).2 k = some r := by
  rcases serve_records rt op c s with ⟨op, rfl, heq⟩ | ⟨-, -, heq⟩
  -- evidence that is saved, and evidence that is purged
  · rcases Api.evidenceFiles_serve rt op c.toApi s.api with hsame | ⟨e, he, -, hset⟩ |
      ⟨id, hid, -, herase⟩
    · exact .inl (congrArg (·.get? k) (heq ▸ hsame))
    · rw [← heq] at hset
      rcases get?_of_set hset k with h | ⟨hk, h⟩
      · exact .inl h
      · exact .inr (.inr ⟨e, he, hk, h⟩)
    · have hfind : (serve rt (.inl (.inl op)) c s).2.api.evidenceFiles.get? k =
          if k = id then none else s.api.evidenceFiles.get? k := by
        rw [heq, herase, Table.get?_erase]
      split at hfind
      · rename_i hk
        subst hk
        unfold Api.deletedEvidence at hid
        split at hid
        · cases hid
          exact .inr (.inl ⟨rfl, hfind⟩)
        · exact nomatch hid
      · exact .inl hfind
  · exact .inl (congrArg (·.get? k) heq)

/-- And evidence. -/
theorem evidenceKind_served : evidenceKind.Served rt where
  effect op c s k :=
    (evidenceKind_effect rt op c s k).imp_right fun h => h.imp_left And.right
  answer op c s r hr := by
    show s.api.evidenceFiles.get? r.id = some r
    simp only [evidenceKind] at hr
    split at hr
    -- evidence that was looked up; no other call shows any
    · rename_i id _ heq
      obtain rfl := List.mem_singleton.mp hr
      obtain rfl : op = .inl (.inl (.inr (.getEvidence id))) := congrArg Event.op heq
      simp only [Event.mk.injEq, heq_eq_eq, true_and] at heq
      have hget : s.api.evidenceFiles.get? id = some _ := (Api.answer_inr heq).1
      rw [Table.key_of_get? hget]
      exact hget
    · exact nomatch hr
  generator _ := rfl

end Served

/-! ## The access rules fix the attributes -/

section Keeps

variable {settings : Settings} {req : Request} {l : BackendLog} {op : calls.Op}

/-- A call of `Bluesafe.Ops` in the log of a request. -/
theorem mem_ops {op : Ops.Call} {r : Except String op.Res}
    (h : (⟨op, r⟩ : Event Ops.calls String) ∈ lefts (lefts (lefts l))) :
    (⟨.inl (.inl (.inl op)), r⟩ : Event calls String) ∈ l :=
  mem_lefts.mp (mem_lefts.mp (mem_lefts.mp h))

/-- A call of `Bluesafe.Api` in the log of a request. -/
theorem mem_api {op : Api.calls.Op} {r : Except String (Api.calls.Res op)}
    (h : (⟨op, r⟩ : Event Api.calls String) ∈ lefts (lefts l)) :
    (⟨.inl (.inl op), r⟩ : Event calls String) ∈ l :=
  mem_lefts.mp (mem_lefts.mp h)

/-- A request that may save a contract keeps its parties. -/
theorem contractKind_keeps (h : allowed settings req l op) : contractKind.rows.keeps l op := by
  rintro k v ⟨c, hsaved, rfl, rfl⟩
  obtain rfl := saveContract_of_saved hsaved
  -- only requests save contracts
  cases req with
  | http headers entry =>
    obtain ⟨auth, -, -, hgrant⟩ := h
    cases hgrant with
    -- a new contract, under an identifier that is the request's own
    | created hid hfirst hacc =>
      refine .inr ⟨⟨_, mem_ops hid, "ctr", rfl⟩, ?_⟩
      rintro ⟨⟨op, r⟩, hmem, k', v', c', hsaved', -⟩
      obtain rfl := saveContract_of_saved hsaved'
      exact hfirst _ r (mem_lefts.mpr (mem_lefts.mpr (mem_lefts.mpr hmem)))
    -- a contract that was read keeps its parties
    | updated id copy hread hsame hacc =>
      refine .inl ⟨_, mem_ops hread, copy, List.mem_singleton.mpr rfl, hsame.1.symm, ?_⟩
      exact Prod.ext hsame.2.1.symm hsame.2.2.symm
  | message msg => exact h.elim
  | policyTick => exact h.elim
  | notificationTick => exact h.elim
  | fanoutTick => exact h.elim
  | exportJobTick => exact h.elim

/-- A dispute that was read is shown by the log. -/
theorem shows_readDispute {copy d : DisputeCase}
    (hread : Ops.ReadDispute (lefts (lefts (lefts l))) copy) (hsame : d.SameCase copy) :
    ∃ ev ∈ l, disputeKind.rows.shows ev d.id d.contractId := by
  cases hread with
  | byId id hget =>
    exact ⟨_, mem_ops hget, copy, List.mem_singleton.mpr rfl, hsame.1.symm, hsame.2.symm⟩
  | listed status limit offset items hlist hmem =>
    exact ⟨_, mem_ops hlist, copy, hmem, hsame.1.symm, hsame.2.symm⟩

/-- One that may save a dispute keeps its contract. -/
theorem disputeKind_keeps (h : allowed settings req l op) : disputeKind.rows.keeps l op := by
  rintro k v ⟨d, hsaved, rfl, rfl⟩
  obtain rfl := saveDispute_of_saved hsaved
  -- whatever a worker saves it has read, and keeps as it is
  have hworked : worked l (.inl (.inl (.inl (.saveDispute d)))) →
      ∃ ev ∈ l, disputeKind.rows.shows ev d.id d.contractId :=
    fun ⟨copy, hread, hsame, _⟩ => shows_readDispute hread hsame
  cases req with
  | http headers entry =>
    obtain ⟨auth, -, hgrant⟩ := h
    cases hgrant with
    -- a new dispute, under an identifier that is the request's own
    | filed hid hfirst =>
      refine .inr ⟨⟨_, mem_ops hid, "dsp", rfl⟩, ?_⟩
      rintro ⟨⟨op, r⟩, hmem, k', v', d', hsaved', -⟩
      obtain rfl := saveDispute_of_saved hsaved'
      exact hfirst _ r (mem_lefts.mpr (mem_lefts.mpr (mem_lefts.mpr hmem)))
    -- every other write is of a dispute that was read
    | reviewed copy hread hsame => exact .inl (shows_readDispute hread hsame)
    | judged copy hread hsame => exact .inl (shows_readDispute hread hsame)
    | escalated copy t hread hrole hd =>
      subst hd
      exact .inl (shows_readDispute hread ⟨rfl, rfl⟩)
    | resolved copy hread hsame => exact .inl (shows_readDispute hread hsame)
  | message msg => exact .inl (hworked h)
  | policyTick => exact .inl (hworked h)
  | notificationTick => exact .inl (hworked h)
  | fanoutTick => exact .inl (hworked h)
  | exportJobTick => exact .inl (hworked h)

/-- And one that may save evidence keeps where it belongs. -/
theorem evidenceKind_keeps (h : allowed settings req l op) : evidenceKind.rows.keeps l op := by
  rintro k v ⟨e, hsaved, rfl, rfl⟩
  obtain rfl := saveEvidence_of_saved hsaved
  cases req with
  | http headers entry =>
    obtain ⟨auth, -, hgrant⟩ := h
    cases hgrant with
    | uploaded hid hfirst =>
      refine .inr ⟨⟨_, mem_api hid, "evd", rfl⟩, ?_⟩
      rintro ⟨⟨op, r⟩, hmem, k', v', e', hsaved', -⟩
      obtain rfl := saveEvidence_of_saved hsaved'
      exact hfirst _ r (mem_lefts.mpr (mem_lefts.mpr hmem))
    | patched id copy hread hid hcontract =>
      exact .inl ⟨_, mem_api hread, copy, List.mem_singleton.mpr rfl, hid.symm, hcontract.symm⟩
  | message msg => exact nomatch h
  | policyTick => exact nomatch h
  | notificationTick => exact nomatch h
  | fanoutTick => exact nomatch h
  | exportJobTick => exact nomatch h

end Keeps

/-! ## Runs -/

/-- The keys of the rows were issued by the generator. -/
structure Store.Issued (s : Store) : Prop where
  contracts : ∀ c ∈ s.api.ops.contracts.rows, c.id ∈ s.issued
  disputes : ∀ d ∈ s.api.ops.disputes.rows, d.id ∈ s.issued
  evidence : ∀ e ∈ s.api.evidenceFiles.rows, e.id ∈ s.issued

/-- The empty store has issued nothing. -/
theorem Store.empty_issued : Store.empty.Issued :=
  ⟨fun _ h => (nomatch h), fun _ h => (nomatch h), fun _ h => (nomatch h)⟩

section Runs

variable {ν V : Type} {T : TableKind ν V} {settings : Settings} {s : Store} {P P' : BackendPool}
  {ms : List (Move BackendPool (Act Request Choice))}

/-- Every request meets the monitor of a table that the access rules imply. -/
theorem handle_keeps (hkeeps : ∀ req l op, allowed settings req l op → T.rows.keeps l op)
    (req : Request) : Safe T.rows.keeps (handle settings req) [] :=
  wp_monitor_weaken (hkeeps req) (handle_allowed req)

/-- A pool of the backend whose requests meet the monitors of the three tables. -/
structure Orderly (P : BackendPool) : Prop where
  contracts : contractKind.rows.Orderly P
  disputes : disputeKind.rows.Orderly P
  evidence : evidenceKind.rows.Orderly P

/-- In every run identifiers are issued in order. -/
theorem orderly_run (hs : s.Issued) (run : Run (backendStep settings) ⟨s, []⟩ ms P) : Orderly P := by
  refine ⟨RowKind.orderly_run (contractKind_served _).lawful
      (handle_keeps fun _ _ _ => contractKind_keeps) ?_ run,
    RowKind.orderly_run (disputeKind_served _).lawful
      (handle_keeps fun _ _ _ => disputeKind_keeps) ?_ run,
    RowKind.orderly_run (evidenceKind_served _).lawful
      (handle_keeps fun _ _ _ => evidenceKind_keeps) ?_ run⟩
  · rintro k v ⟨c, hc, -⟩
    exact Table.key_of_get? hc ▸ hs.contracts c (Table.mem_of_get? hc)
  · rintro k v ⟨d, hd, -⟩
    exact Table.key_of_get? hd ▸ hs.disputes d (Table.mem_of_get? hd)
  · rintro k v ⟨e, he, -⟩
    exact Table.key_of_get? he ▸ hs.evidence e (Table.mem_of_get? he)

/-- Where no call removes a row, a key that is found once is found later. -/
theorem TableKind.found_run (hT : ∀ op c s k, (T.find s k).isSome →
      (T.find (serve settings.api.runtime op c s).2 k).isSome)
    (run : Run (backendStep settings) P ms P') {k : String} (h : (T.find P.store k).isSome) :
    (T.find P'.store k).isSome := by
  refine run.invariant (P := fun P => (T.find P.store k).isSome) (C := fun _ => True)
    (fun _ _ => trivial) h fun m hm _ h => ?_
  obtain ⟨req, -, heq⟩ | ⟨i, c, th, op, next, -, -, -, -, heq⟩ := poolStep_cases hm
  · rw [heq]
    exact h
  · rw [heq]
    exact hT op c m.before.store k h

/-- A contract that is found stays found. -/
theorem contractKind_found (rt : Runtime) (op : calls.Op) (c : Choice) (s : Store) (k : String)
    (h : (contractKind.find s k).isSome) : (contractKind.find (serve rt op c s).2 k).isSome := by
  rcases contractKind_effect rt op c s k with heq | ⟨r, -, -, heq⟩ <;> rw [heq]
  · exact h
  · rfl

/-- So does a dispute. -/
theorem disputeKind_found (rt : Runtime) (op : calls.Op) (c : Choice) (s : Store) (k : String)
    (h : (disputeKind.find s k).isSome) : (disputeKind.find (serve rt op c s).2 k).isSome := by
  rcases disputeKind_effect rt op c s k with heq | ⟨r, -, -, heq⟩ <;> rw [heq]
  · exact h
  · rfl

end Runs

/-- In every run, from a store whose keys were issued, with requests of all callers and the
    workers interleaved and with any failures: a contract that is stored once stays stored with
    its parties, a dispute stays stored with its contract, and an evidence file belongs to the
    same contract whenever it is stored again. -/
theorem identity_kept (settings : Settings) {s : Store} (hs : s.Issued) {P : BackendPool}
    {ms : List (Move BackendPool (Act Request Choice))}
    (run : Run (backendStep settings) ⟨s, []⟩ ms P) :
    ∀ m ∈ ms, ∀ id,
      (∀ c, m.before.store.api.ops.contracts.get? id = some c →
        ∃ c', P.store.api.ops.contracts.get? id = some c' ∧ c'.SameParties c) ∧
      (∀ d, m.before.store.api.ops.disputes.get? id = some d →
        ∃ d', P.store.api.ops.disputes.get? id = some d' ∧ d'.SameCase d) ∧
      ∀ e e', m.before.store.api.evidenceFiles.get? id = some e →
        P.store.api.evidenceFiles.get? id = some e' → e'.contractId = e.contractId := by
  intro m hm id
  obtain ⟨ms₁, ms₂, run₁, run₂⟩ := run.split hm
  have horderly := orderly_run hs run₁
  refine ⟨fun c hc => ?_, fun d hd => ?_, fun e e' he he' => ?_⟩
  · obtain ⟨c', hc'⟩ := Option.isSome_iff_exists.mp (TableKind.found_run
      (contractKind_found settings.api.runtime) run₂ (Option.isSome_of_eq_some hc))
    have hattr := RowKind.fixed_run (contractKind_served settings.api.runtime).lawful
      (handle_keeps fun _ _ _ => contractKind_keeps) horderly.contracts run₂ ⟨c, hc, rfl⟩ ⟨c', hc', rfl⟩
    exact ⟨c', hc', (Table.key_of_get? hc').trans (Table.key_of_get? hc).symm,
      congrArg Prod.fst hattr, congrArg Prod.snd hattr⟩
  · obtain ⟨d', hd'⟩ := Option.isSome_iff_exists.mp (TableKind.found_run
      (disputeKind_found settings.api.runtime) run₂ (Option.isSome_of_eq_some hd))
    have hattr := RowKind.fixed_run (disputeKind_served settings.api.runtime).lawful
      (handle_keeps fun _ _ _ => disputeKind_keeps) horderly.disputes run₂ ⟨d, hd, rfl⟩ ⟨d', hd', rfl⟩
    exact ⟨d', hd', (Table.key_of_get? hd').trans (Table.key_of_get? hd).symm, hattr⟩
  · exact RowKind.fixed_run (evidenceKind_served settings.api.runtime).lawful
      (handle_keeps fun _ _ _ => evidenceKind_keeps) horderly.evidence run₂ ⟨e, he, rfl⟩ ⟨e', he', rfl⟩

/-- The contract of the concrete run keeps its parties while it is moved on. -/
theorem identity_kept_sample :
    ∃ ms P, Run (backendStep sampleSettings) ⟨.empty, []⟩ ms P ∧
      sampleStatus P = some .escrowPending ∧
      ∀ m ∈ ms, ∀ id c, m.before.store.api.ops.contracts.get? id = some c →
        ∃ c', P.store.api.ops.contracts.get? id = some c' ∧ c'.SameParties c := by
  obtain ⟨ms, P, run, hp⟩ := exists_run_of_replay (sampleActs sampleSchedule)
    (fun r => decide (sampleStatus r.2 = some .escrowPending))
    (by decide +kernel : (replay (backendStep sampleSettings) ⟨.empty, []⟩ _ []).any _ = true)
  exact ⟨ms, P, run, of_decide_eq_true hp,
    fun m hm id => (identity_kept sampleSettings Store.empty_issued run m hm id).1⟩

end Bluesafe.Backend
