import Bluesafe.Async.Facts
import Bluesafe.Spec.FixedParties
import Bluesafe.Spec.JournalHandlers
import Bluesafe.Spec.OneVote
import Bluesafe.Spec.SettlementCounters
import Bluesafe.Spec.TouchAgreement

/-!
# The references of the rows resolve

The database declares foreign keys: a dispute, an evidence file and a settlement name a contract,
a decision and a vote name a dispute. The repository in memory checks none of them, and no
handler looks at the tables again before it saves. Still no row ever points to nothing, because
every request has read the parent of the row that it saves, contracts and disputes are never
removed, and a settlement is saved only as a patch of one that was read (`references_resolve`).
-/

/-! ## Programs that leave the settlements alone -/

namespace Bluesafe.Api

open Async

variable {config : Config} {caller : Caller} {α : Type}

/-- The program saves no settlement and touches none. -/
abbrev KeepsSettlements (p : ApiM α) : Prop := Only (fun op : calls.Op => keepsSettlements op = true) p

/-- A program that only reads writes no settlement. -/
theorem ReadsOnly.keepsSettlements {p : ApiM α} (h : ReadsOnly p) : KeepsSettlements p := by
  refine h.mono fun op hop => ?_
  cases op with
  | inl op => rfl
  | inr op => cases op <;> first | rfl | exact nomatch hop

/-- The guards of a writing route write no settlement. -/
theorem writeRoute_keepsSettlements {allowed : List Ops.BluesafeRole} {handler : ApiM Response}
    (h : KeepsSettlements handler) : KeepsSettlements (writeRoute config allowed caller handler) := by
  unfold writeRoute route
  split
  · exact .pure
  · split
    · exact .pure
    · exact h

/-- Nor do the guards of an operator's route. -/
theorem operatorRoute_keepsSettlements {scope : OperatorConsoleScope} {handler : ApiM Response}
    (h : KeepsSettlements handler) : KeepsSettlements (operatorRoute config scope caller handler) := by
  refine writeRoute_keepsSettlements ?_
  split
  · exact .pure
  · exact h

/-- A read, or a refresh of a transaction. -/
theorem read_keepsSettlements {auth : Option Ops.BluesafeAuth} (q : Query) (r : Route) :
    KeepsSettlements (read config auth q r) := by
  by_cases h : ∀ txHash, r = .xrplTransaction txHash →
      (shouldRefresh q && config.ops.xrplEnabled) = false
  · exact (read_reads h).keepsSettlements
  · obtain ⟨txHash, rfl⟩ : ∃ txHash, r = .xrplTransaction txHash := by
      by_contra hne
      exact h fun txHash heq => absurd ⟨txHash, heq⟩ hne
    exact .bind (ofOps_keepsSettlements _) fun _ => .pure

/-- Evidence that is stored. -/
theorem storeEvidence_keepsSettlements (vault : EvidenceVault) (file : UploadedFile)
    (form : EvidenceUploadForm) (hash : String) (encrypted : Bool) (uploaded : UploadToIpfsResult) :
    KeepsSettlements (storeEvidence vault file form hash encrypted uploaded) := by
  unfold storeEvidence announceUpload
  refine .bind (ofOps_keepsSettlements _) fun id => .bind (.call rfl) fun existing => ?_
  refine .bind (ofOps_keepsSettlements _) fun createdAt => ?_
  refine .bind (uploadRetention_reads _ _).keepsSettlements fun retainUntil => ?_
  refine .bind (.call rfl) fun _ => .bind ?_ fun _ => .pure
  exact .bind (ofOps_keepsSettlements _) fun _ => ofOps_keepsSettlements _

/-- An upload, with its checks. -/
theorem postEvidence_keepsSettlements (vault : EvidenceVault) (file : Option UploadedFile)
    (form : EvidenceUploadForm) : KeepsSettlements (postEvidence config vault caller file form) := by
  unfold postEvidence
  refine writeRoute_keepsSettlements ?_
  cases file with
  -- a file, its size, its contract, and the dispute it is meant for, in this order
  | none => exact .pure
  | some file =>
    refine .ite .pure (.bind (ofOps_keepsSettlements _) fun found => ?_)
    cases found with
    | none => exact .pure
    | some contract =>
      refine .ite (.bind (disputeOfContract_reads _ _).keepsSettlements fun ok => ?_) .pure
      refine .ite ?_ .pure
      split
      · exact .pure
      -- the key and the upload, none of which writes a settlement
      · unfold uploadEvidence uploadFile
        refine .bind resolveDataKey_reads.keepsSettlements fun key => ?_
        cases key with
        | error reply => exact .pure
        | ok key =>
          refine .bind (.tryCatch (.map (.call rfl)) fun _ => .pure) fun result => ?_
          cases result with
          | error reply => exact .pure
          | ok uploaded => exact storeEvidence_keepsSettlements ..

/-- A body is parsed before the handler runs. -/
theorem withRequest_keepsSettlements {β : Type} {request : Except Response β}
    {handler : β → ApiM Response} (h : ∀ b, KeepsSettlements (handler b)) :
    KeepsSettlements (withRequest request handler) := by
  cases request with
  | error reply => exact .pure
  | ok b => exact h b

/-- Evidence that is verified. -/
theorem verifyEvidence_keepsSettlements (cid expectedSha256 : String) :
    KeepsSettlements (verifyEvidence config caller cid expectedSha256) := by
  unfold verifyEvidence
  refine writeRoute_keepsSettlements (withRequest_keepsSettlements fun ⟨cid, sha⟩ => ?_)
  refine .bind (.call rfl) fun found => ?_
  cases found with
  | none => exact .pure
  | some e =>
    refine .bind (contractAccessible_reads e.contractId).keepsSettlements fun ok => .ite ?_ .pure
    exact .bind (ofOps_keepsSettlements _) fun _ => .pure

/-- The patch of its metadata. -/
theorem patchEvidenceMetadata_keepsSettlements (evidenceId : String) (body : MetadataPatch) :
    KeepsSettlements (patchEvidenceMetadata config caller evidenceId body) := by
  unfold patchEvidenceMetadata withEvidence
  refine operatorRoute_keepsSettlements (.bind (.call rfl) fun found => ?_)
  cases found with
  | none => exact .pure
  | some e =>
    refine .bind (contractAccessible_reads e.contractId).keepsSettlements fun ok => .ite ?_ .pure
    dsimp only
    split
    · exact .pure
    · refine .bind (.call rfl) fun _ => .bind (ofOps_keepsSettlements _) fun _ => ?_
      exact .bind (ofOps_keepsSettlements _) fun _ => .pure

/-- A retention run. -/
theorem retentionRun_keepsSettlements : KeepsSettlements (retentionRun config caller) := by
  refine operatorRoute_keepsSettlements (.bind (ofOps_keepsSettlements _) fun now => ?_)
  refine .bind (.call rfl) fun past => .bind ?_ fun _ => .pure
  induction past with
  | nil => exact .pure
  | cons ev rest ih =>
    refine .bind (.bind (.tryCatch (.call rfl) fun _ => .pure) fun _ => .bind (.call rfl) fun _ => ?_)
      fun _ => ih
    exact .bind (ofOps_keepsSettlements _) fun _ => ofOps_keepsSettlements _

/-- A vote. -/
theorem postVerifierVote_keepsSettlements (disputeId : String) (body : DisputeVerifierVoteBody) :
    KeepsSettlements (postVerifierVote config caller disputeId body) := by
  unfold postVerifierVote
  refine writeRoute_keepsSettlements (.bind (ofOps_keepsSettlements _) fun found => ?_)
  cases found with
  | none => exact .pure
  | some d =>
    refine .bind (contractAccessible_reads d.contractId).keepsSettlements fun ok => .ite ?_ .pure
    refine .ite (.bind (.call rfl) fun prior => .ite .pure ?_) .pure
    refine .bind (ofOps_keepsSettlements _) fun id => .bind (ofOps_keepsSettlements _) fun t => ?_
    refine .bind (.call rfl) fun _ => .bind (ofOps_keepsSettlements _) fun _ => ?_
    exact .bind (ofOps_keepsSettlements _) fun _ => .pure

/-! ## The rows after a touch -/

/-- A touch makes rows for contracts only. -/
theorem contractId_of_touched {p : TouchParams} {cs : List Ops.Contract}
    {acc : Table SettlementRecord.id × Nat} {r : SettlementRecord}
    (h : r ∈ (cs.foldl (touchOne p) acc).1.rows) :
    (∃ r' ∈ acc.1.rows, r'.contractId = r.contractId) ∨ ∃ c ∈ cs, c.id = r.contractId := by
  -- induction on the contracts: a row was there, or belongs to one of them
  induction cs generalizing acc with
  | nil => exact .inl ⟨r, h, rfl⟩
  | cons c cs ih =>
    rcases ih h with ⟨r', hr', heq⟩ | ⟨c', hc', heq⟩
    · rcases touchOne_cases p acc.1 acc.2 c with ⟨-, htouch⟩ | ⟨_, -, -, htouch⟩ |
        ⟨old, hget, -, htouch⟩ <;> rw [htouch] at hr'
      · rcases Table.mem_rows_set.mp hr' with rfl | ⟨hr', -⟩
        · exact .inr ⟨c, List.mem_cons_self, heq⟩
        · exact .inl ⟨r', hr', heq⟩
      · exact .inl ⟨r', hr', heq⟩
      · rcases Table.mem_rows_set.mp hr' with rfl | ⟨hr', -⟩
        · exact .inl ⟨old, Table.mem_of_get? hget, heq⟩
        · exact .inl ⟨r', hr', heq⟩
    · exact .inr ⟨c', List.mem_cons_of_mem _ hc', heq⟩

/-- What one call does to the decisions. -/
theorem decisions_serve (rt : Runtime) (op : calls.Op) (c : Choice) (s : Store) :
    (serve rt op c s).2.ops.decisions = s.ops.decisions ∨
      ∃ record, op = .inl (.saveDecision record) ∧
        (serve rt op c s).2.ops.decisions = s.ops.decisions.set record := by
  cases op with
  | inl op =>
    refine (Ops.framed_serve op c.toChoice s.ops).decisions.imp_right ?_
    rintro ⟨record, rfl, hset⟩
    exact ⟨record, rfl, hset⟩
  | inr op =>
    left
    rcases serve_inr_state rt op c s with heq | heq <;> rw [heq]
    cases op <;> rfl

end Bluesafe.Api

namespace Bluesafe.Backend

open Async Transition
open Bluesafe.Ops (Contract DisputeCase)
open Bluesafe.Api (Runtime SettlementRecord keepsSettlements)

/-! ## What a row rests on -/

/-- A row that others refer to. -/
inductive Parent
  | contract (id : String)
  | dispute (id : String)

/-- The parent is stored. -/
def Parent.In (s : Api.Store) : Parent → Prop
  | .contract id => (s.ops.contracts.get? id).isSome
  | .dispute id => (s.ops.disputes.get? id).isSome

/-- The foreign keys of `db/migrations`. -/
structure Resolved (s : Api.Store) : Prop where
  disputes : ∀ d ∈ s.ops.disputes.rows, (Parent.contract d.contractId).In s
  evidence : ∀ e ∈ s.evidenceFiles.rows, (Parent.contract e.contractId).In s
  settlements : ∀ r ∈ s.settlements.rows, (Parent.contract r.contractId).In s
  decisions : ∀ r ∈ s.ops.decisions.rows, (Parent.dispute r.disputeId).In s
  votes : ∀ v ∈ s.votes, (Parent.dispute v.disputeId).In s

/-- The empty store has nothing to resolve. -/
theorem Resolved.empty : Resolved .empty :=
  ⟨fun _ h => (nomatch h), fun _ h => (nomatch h), fun _ h => (nomatch h), fun _ h => (nomatch h),
    fun _ h => nomatch h⟩

/-- The parents of a dispute that was read, and the dispute itself. -/
def parentsOf (d : DisputeCase) : List Parent := [.dispute d.id, .contract d.contractId]

/-- The parents that an answer shows. -/
def shown : Event calls String → List Parent
  | ⟨.inl (.inl (.inl (.getContract id))), .ok (some _)⟩ => [.contract id]
  | ⟨.inl (.inl (.inl (.getDispute id))), .ok (some d)⟩ => .dispute id :: parentsOf d
  | ⟨.inl (.inl (.inl (.listDisputesPage _ _ _))), .ok ds⟩ => ds.flatMap parentsOf
  | ⟨.inl (.inl (.inr (.getSettlement _))), .ok (some r)⟩ => [.contract r.contractId]
  | _ => []

/-- The parents of the row that a call saves. -/
def needed : calls.Op → List Parent
  | .inl (.inl (.inl (.saveDispute d))) => [.contract d.contractId]
  | .inl (.inl (.inl (.saveDecision record))) => [.dispute record.disputeId]
  | .inl (.inl (.inr (.saveEvidence e))) => [.contract e.contractId]
  | .inl (.inl (.inr (.saveSettlement r))) => [.contract r.contractId]
  | .inl (.inl (.inr (.appendDisputeVerifierVote v))) => [.dispute v.disputeId]
  | _ => []

/-- Parents as facts: they stay, and requests learn of them. -/
def parents : Facts calls String Store Parent where
  holds s f := f.In s.api
  shows ev f := f ∈ shown ev
  needs op f := f ∈ needed op

section Served

variable {rt : Runtime} {s : Store} {c : Choice} {op : calls.Op} {f : Parent}

/-- No call removes a parent. -/
theorem In_serve (h : f.In s.api) : f.In (serve rt op c s).2.api := by
  cases f with
  | contract id => exact contractKind_found rt op c s id h
  | dispute id => exact disputeKind_found rt op c s id h

/-- A dispute that is stored has both parents. -/
theorem In_of_mem_parentsOf (hs : Resolved s.api) {d : DisputeCase}
    (hd : s.api.ops.disputes.get? d.id = some d) (hf : f ∈ parentsOf d) : f.In s.api := by
  rcases List.mem_cons.mp hf with rfl | hf
  · exact Option.isSome_of_eq_some hd
  · rw [List.mem_singleton.mp hf]
    exact hs.disputes d (Table.mem_of_get? hd)

/-- An answer shows parents that are stored. -/
theorem In_of_shown (hs : Resolved s.api) (hf : f ∈ shown ⟨op, (serve rt op c s).1⟩) : f.In s.api := by
  unfold shown at hf
  split at hf
  -- one case for each call that shows a parent
  · rename_i heq
    obtain ⟨op, rfl⟩ : ∃ op', op = .inl (.inl (.inl op')) := ⟨_, congrArg Event.op heq⟩
    have hget : s.api.ops.contracts.get? _ = some _ := answer_ops rt heq
    rw [List.mem_singleton.mp hf]
    exact Option.isSome_of_eq_some hget
  · rename_i heq
    obtain ⟨op, rfl⟩ : ∃ op', op = .inl (.inl (.inl op')) := ⟨_, congrArg Event.op heq⟩
    have hget : s.api.ops.disputes.get? _ = some _ := answer_ops rt heq
    rcases List.mem_cons.mp hf with rfl | hf
    · exact Option.isSome_of_eq_some hget
    · exact In_of_mem_parentsOf hs (by rw [Table.key_of_get? hget]; exact hget) hf
  -- a page of disputes shows the parents of each
  · rename_i heq
    obtain ⟨op, rfl⟩ : ∃ op', op = .inl (.inl (.inl op')) := ⟨_, congrArg Event.op heq⟩
    obtain ⟨d, hd, hf⟩ := List.mem_flatMap.mp hf
    rw [← answer_ops rt heq] at hd
    exact In_of_mem_parentsOf hs (Table.get?_of_mem (Ops.mem_disputesPage hd).1) hf
  -- a settlement shows its contract, which the store has
  · rename_i id r heq
    obtain rfl : op = .inl (.inl (.inr (.getSettlement id))) := congrArg Event.op heq
    simp only [Event.mk.injEq, heq_eq_eq, true_and] at heq
    have hget : s.api.settlements.get? id = some r := (Api.answer_inr heq).1
    rw [List.mem_singleton.mp hf]
    exact hs.settlements r (Table.mem_of_get? hget)
  · exact nomatch hf

/-- The rows of a table in which one row was stored. -/
theorem forall_mem_of_set {ν : Type} {key : ν → String} {t t' : Table key} {v : ν} {p p' : ν → Prop}
    (h : t' = t.set v) (hold : ∀ w ∈ t.rows, p w) (hp : ∀ w, p w → p' w) (hv : p' v) :
    ∀ w ∈ t'.rows, p' w := by
  intro w hw
  rw [h] at hw
  rcases Table.mem_rows_set.mp hw with rfl | ⟨hw, -⟩
  · exact hv
  · exact hp w (hold w hw)

section Rows

variable {op : Api.calls.Op} (hs : Resolved s.api) (hneed : ∀ f ∈ needed (.inl (.inl op)), f.In s.api)

/-- No call of `Bluesafe.Api` removes a parent. -/
theorem In_api (op : Api.calls.Op) (h : f.In s.api) : f.In (Api.serve rt op c.toApi s.api).2 := by
  have hserve : f.In (serve rt (.inl (.inl op)) c s).2.api := In_serve h
  exact hserve

include hs hneed

/-- A dispute is filed under a contract that its request has found. -/
theorem disputes_resolved : ∀ d ∈ (Api.serve rt op c.toApi s.api).2.ops.disputes.rows,
    (Parent.contract d.contractId).In (Api.serve rt op c.toApi s.api).2 := by
  rcases framed_api rt op c.toApi s.api with ⟨op, rfl, hframe⟩ | ⟨-, hsame⟩
  · rcases hframe.disputes with hsame | ⟨x, rfl, hset⟩
    · rw [hsame]
      exact fun d hd => In_api _ (hs.disputes d hd)
    · exact forall_mem_of_set hset hs.disputes (fun _ => In_api _)
        (In_api _ (hneed _ (List.mem_singleton.mpr rfl)))
  · rw [hsame]
    exact fun d hd => In_api _ (hs.disputes d hd)

/-- Evidence is stored under such a contract. -/
theorem evidence_resolved : ∀ e ∈ (Api.serve rt op c.toApi s.api).2.evidenceFiles.rows,
    (Parent.contract e.contractId).In (Api.serve rt op c.toApi s.api).2 := by
  rcases Api.evidenceFiles_serve rt op c.toApi s.api with hsame | ⟨e, he, -, hset⟩ |
    ⟨id, -, -, herase⟩
  · rw [hsame]
    exact fun e he => In_api _ (hs.evidence e he)
  · obtain rfl := Api.saveEvidence_of_saved he
    exact forall_mem_of_set hset hs.evidence (fun _ => In_api _)
      (In_api _ (hneed _ (List.mem_singleton.mpr rfl)))
  · rw [herase]
    exact fun e he => In_api _ (hs.evidence e (Table.mem_rows_erase.mp he).1)

/-- A settlement, too. -/
theorem settlements_resolved : ∀ r ∈ (Api.serve rt op c.toApi s.api).2.settlements.rows,
    (Parent.contract r.contractId).In (Api.serve rt op c.toApi s.api).2 := by
  rcases Api.settlements_serve rt op c.toApi s.api with hsame | ⟨p, -, -, htouch⟩ |
    ⟨row, rfl, -, hset⟩
  · rw [hsame]
    exact fun r hr => In_api _ (hs.settlements r hr)
  · rw [htouch]
    intro r hr
    -- a row that the touch makes belongs to a contract that it found in the store
    rcases Api.contractId_of_touched hr with ⟨r', hr', heq⟩ | ⟨contract, hcontract, heq⟩
    · exact heq ▸ In_api _ (hs.settlements r' hr')
    · have hstored := Table.get?_of_mem (List.mem_filter.mp hcontract).1
      rw [heq] at hstored
      have hin : (Parent.contract r.contractId).In s.api := Option.isSome_of_eq_some hstored
      exact In_api _ hin
  · exact forall_mem_of_set hset hs.settlements (fun _ => In_api _)
      (In_api _ (hneed _ (List.mem_singleton.mpr rfl)))

/-- A decision belongs to a dispute that its request has read. -/
theorem decisions_resolved : ∀ r ∈ (Api.serve rt op c.toApi s.api).2.ops.decisions.rows,
    (Parent.dispute r.disputeId).In (Api.serve rt op c.toApi s.api).2 := by
  rcases Api.decisions_serve rt op c.toApi s.api with hsame | ⟨record, rfl, hset⟩
  · rw [hsame]
    exact fun r hr => In_api _ (hs.decisions r hr)
  · exact forall_mem_of_set hset hs.decisions (fun _ => In_api _)
      (In_api _ (hneed _ (List.mem_singleton.mpr rfl)))

/-- So does a vote. -/
theorem votes_resolved : ∀ v ∈ (Api.serve rt op c.toApi s.api).2.votes,
    (Parent.dispute v.disputeId).In (Api.serve rt op c.toApi s.api).2 := by
  rcases Api.votes_serve rt op c.toApi s.api with hsame | ⟨v, rfl, hset⟩
  · rw [hsame]
    exact fun v hv => In_api _ (hs.votes v hv)
  · rw [hset]
    intro v' hv'
    rcases List.mem_append.mp hv' with hv' | hv'
    · exact In_api _ (hs.votes v' hv')
    · rw [List.mem_singleton.mp hv']
      exact In_api _ (hneed _ (List.mem_singleton.mpr rfl))

/-- A call of `Bluesafe.Api` whose parents are stored keeps the references. -/
theorem resolved_api : Resolved (Api.serve rt op c.toApi s.api).2 where
  disputes := disputes_resolved hs hneed
  evidence := evidence_resolved hs hneed
  settlements := settlements_resolved hs hneed
  decisions := decisions_resolved hs hneed
  votes := votes_resolved hs hneed

end Rows

/-- A call whose parents are stored keeps the references. -/
theorem resolved_serve (hs : Resolved s.api) (hneed : ∀ f ∈ needed op, f.In s.api) :
    Resolved (serve rt op c s).2.api := by
  match op with
  | .inl (.inl op) => exact resolved_api hs hneed
  | .inl (.inr op) => exact ⟨hs.disputes, hs.evidence, hs.settlements, hs.decisions, hs.votes⟩
  | .inr op =>
    have hperform : Resolved (perform op s).2.api := by
      cases op <;> exact ⟨hs.disputes, hs.evidence, hs.settlements, hs.decisions, hs.votes⟩
    simp only [serve]
    split
    · exact hperform
    · split
      · exact hperform
      · exact hs

/-- The store accepts an object only under a parent it has. -/
theorem parents_lawful : parents.Lawful (world rt) fun s => Resolved s.api :=
  ⟨In_serve, In_of_shown, resolved_serve⟩

end Served

/-! ## Every request has read the parents -/

section Requests

variable {settings : Settings} {req : Request} {l : BackendLog} {op : calls.Op} {α : Type}

/-- A settlement that is saved belongs to the contract of one that was read. -/
def patchesRead (l : BackendLog) : calls.Op → Prop
  | .inl (.inl (.inr (.saveSettlement r))) => ∃ ev ∈ l, Parent.contract r.contractId ∈ shown ev
  | _ => True

/-- What the patch of a settlement has read, seen from its own part. -/
def partPatchesRead (l : Log (Api.calls.sum Notify.calls) String) :
    (Api.calls.sum Notify.calls).Op → Prop
  | .inl op => Api.counterOk (lefts l) op
  | .inr _ => True

/-- A patch of the API is a patch of the backend. -/
theorem patchesRead_of_part {l : BackendLog} {op : (Api.calls.sum Notify.calls).Op}
    (h : partPatchesRead (lefts l) op) : patchesRead l (.inl op) := by
  match op with
  | .inl (.inl _) => trivial
  | .inr _ => trivial
  | .inl (.inr op) =>
    cases op with
    | saveSettlement row =>
      obtain ⟨id, r, body, t, hread, rfl⟩ := h
      exact ⟨_, mem_api hread, List.mem_singleton.mpr rfl⟩
    | _ => trivial

/-- A handler of the API patches what it has read. -/
theorem settled_ofApi {p : Api.ApiM α} (hp : Safe Api.counterOk p (lefts (lefts l))) :
    Safe patchesRead (ofApi p) l := by
  have hpart : Safe partPatchesRead (Async.inl p) (lefts l) := wp_monitor_inl (fun _ _ h => h) hp
  exact wp_monitor_inl (fun _ _ h => patchesRead_of_part h) hpart

/-- A program that writes no settlement patches none. -/
theorem settled_keeps {p : Api.ApiM α} (hp : Api.KeepsSettlements p) : Safe patchesRead (ofApi p) l :=
  settled_ofApi (Api.keeps_safe hp)

/-- The handlers of the book write no settlement. -/
theorem settled_ofOps (p : Ops.OpsM α) : Safe patchesRead (ofOps p) l :=
  settled_keeps (Api.ofOps_keepsSettlements p)

/-- Nor do those of the notifications. -/
theorem settled_ofNotify (p : Notify.NotifyM α) : Safe patchesRead (ofNotify p) l := by
  have hpart : Safe partPatchesRead (Async.inr p) (lefts l) :=
    safe_inr (fun _ _ _ => trivial) (.of_forall (fun _ => trivial) p) _
  exact wp_monitor_inl (fun _ _ h => patchesRead_of_part h) hpart

/-- The guards of a route patch nothing. -/
theorem settled_guarded {config : Api.Config} {roles : List Ops.BluesafeRole}
    {scope : Option Api.OperatorConsoleScope} {caller : Api.Caller} {handler : BackendM Api.Response}
    (h : Safe patchesRead handler l) : Safe patchesRead (guarded config roles scope caller handler) l := by
  unfold guarded
  split
  · exact Gives.pure trivial
  · exact h

/-- The registry of verifiers. -/
theorem upsertRegistry_settled {config : Api.Config} {caller : Api.Caller} (body : RegistryUpsertBody) :
    Safe patchesRead (upsertRegistry config caller body) l := by
  refine settled_guarded (Gives.bind (settled_keeps (.call rfl)) fun items _ _ _ => ?_)
  refine Gives.bind (settled_ofOps _) fun t _ _ _ => ?_
  refine Gives.bind (R := fun _ _ => True) ?_ fun id _ _ _ => ?_
  · unfold registryId
    split
    · exact Gives.pure trivial
    · exact settled_ofOps _
  refine Gives.call_then trivial fun _ _ _ => ?_
  exact Gives.bind (settled_ofOps _) fun _ _ _ _ => Gives.pure trivial

/-- An export job. -/
theorem createExportJob_settled {config : Api.Config} {caller : Api.Caller} (body : CreateExportJobBody) :
    Safe patchesRead (createExportJob config caller body) l := by
  refine settled_guarded (Gives.bind (settled_ofOps _) fun t _ _ _ => ?_)
  refine Gives.bind (settled_ofOps _) fun id _ _ _ => ?_
  exact Gives.call_then trivial fun _ _ _ => Gives.pure trivial

/-- Every route patches only settlements that it has read. -/
theorem serveEntry_settled (caller : Api.Caller) (entry : Entry) :
    Safe patchesRead (serveEntry settings caller entry) [] := by
  cases entry with
  -- the routes that write settlements, and the others
  | read route query => exact settled_keeps (Api.read_keepsSettlements query route)
  | uploadEvidence file form => exact settled_keeps (Api.postEvidence_keepsSettlements _ _ _)
  | verifyEvidence cid sha => exact settled_keeps (Api.verifyEvidence_keepsSettlements _ _)
  | patchEvidenceMetadata evidenceId body =>
    exact settled_keeps (Api.patchEvidenceMetadata_keepsSettlements _ _)
  | retentionRun => exact settled_keeps Api.retentionRun_keepsSettlements
  | verifierVote disputeId body => exact settled_keeps (Api.postVerifierVote_keepsSettlements _ _)
  | escalate disputeId => exact settled_guarded (Gives.map (settled_ofOps _))
  | reviewSlaScan => exact settled_guarded (Gives.map (settled_ofOps _))
  | sendNotification body channel => exact settled_guarded (Gives.map (settled_ofNotify _))
  | dispatchNotifications body channels => exact settled_guarded (Gives.map (settled_ofNotify _))
  | retryOutbox outboxId => exact settled_guarded (Gives.map (settled_ofNotify _))
  | patchSettlementStatus settlementId body =>
    exact settled_ofApi (Api.patchSettlementStatus_counters _ _ _ settlementId body)
  | upsertRegistry body => exact upsertRegistry_settled body
  | createExportJob body => exact createExportJob_settled body
  | _ => exact Gives.map (settled_ofOps _)

/-- Workers save no settlement. -/
theorem patchesRead_of_worked (h : worked l op) : patchesRead l op := by
  match op with
  | .inl (.inl (.inl _)) => trivial
  | .inl (.inr _) => trivial
  | .inr _ => trivial
  | .inl (.inl (.inr op)) =>
    cases op with
    | saveSettlement row => exact nomatch h
    | _ => trivial

/-- Before the notifications are carried out. -/
theorem program_settled (req : Request) : Safe patchesRead (program settings req) [] := by
  have hallowed : Safe (allowed settings req) (program settings req) [] := program_allowed req
  cases req with
  | http headers entry =>
    refine Gives.map ?_
    unfold serveHttp
    split
    · exact Gives.pure trivial
    · exact serveEntry_settled _ entry
  | _ => exact wp_monitor_weaken (fun _ _ h => patchesRead_of_worked h) hallowed

/-- A call for notifications shows no parent. -/
theorem staysCall_of_shown {ev : Event calls String} {f : Parent} (h : f ∈ shown ev) :
    staysCall ev.op := by
  obtain ⟨op, r⟩ := ev
  rcases op with ((op | op) | op) | op
  · cases op with
    | enqueueDomainNotifications n => cases h
    | _ => rfl
  · rfl
  · trivial
  · trivial

/-- What was read before a call is carried out was read after it, too. -/
theorem patchesRead_carried {l l' : BackendLog} (hl : CarriedLog l l') (h : patchesRead l op) :
    patchesRead l' op := by
  match op with
  | .inl (.inl (.inl op)) => trivial
  | .inl (.inr op) => trivial
  | .inr op => trivial
  | .inl (.inl (.inr op)) =>
    cases op with
    | saveSettlement row =>
      obtain ⟨ev, hev, hshown⟩ := h
      exact ⟨ev, hl.kept ev hev (staysCall_of_shown hshown), hshown⟩
    | _ => trivial

/-- The calls that carry out an enqueue patch nothing. -/
theorem patchesRead_added {l : BackendLog} (h : addedCall op) : patchesRead l op := by
  match op with
  | .inl (.inr op) => trivial
  | .inl (.inl op) => exact h.elim
  | .inr op => exact h.elim

/-- The backend as it is, with its notifications. -/
theorem handle_settled (req : Request) : Safe patchesRead (handle settings req) [] := by
  have hstays : ∀ (l l' : BackendLog) op, CarriedLog l l' → staysCall op → patchesRead l op →
      patchesRead l' op := fun _ _ _ hl _ h => patchesRead_carried hl h
  have hadded : ∀ (l : BackendLog) op, addedCall op → patchesRead l op :=
    fun _ _ h => patchesRead_added h
  exact Safe.carried (fun _ => carryOut_stays settings) (fun _ => carryOut_added settings) hstays hadded
    (program_settled req) .nil

/-- A dispute that was read shows its parents. -/
theorem shown_readDispute {d copy : DisputeCase} (h : Ops.ReadDispute (lefts (lefts (lefts l))) copy)
    (hsame : d.contractId = copy.contractId) : ∃ ev ∈ l, Parent.contract d.contractId ∈ shown ev := by
  have hf : Parent.contract d.contractId ∈ parentsOf copy := by simp [parentsOf, hsame]
  cases h with
  | byId id hget => exact ⟨_, mem_ops hget, List.mem_cons_of_mem _ hf⟩
  | listed status limit offset items hlist hmem =>
    exact ⟨_, mem_ops hlist, List.mem_flatMap.mpr ⟨copy, hmem, hf⟩⟩

/-- A contract whose access was checked was read. -/
theorem shown_accessed {config : Ops.Config} {auth : Option Ops.BluesafeAuth} {id : String}
    (h : Ops.Accessed config auth (lefts (lefts (lefts l))) id) :
    ∃ ev ∈ l, Parent.contract id ∈ shown ev := by
  obtain ⟨contract, hread, -⟩ := h
  exact ⟨_, mem_ops hread, List.mem_singleton.mpr rfl⟩

/-- A parent that a request may access was shown to it. -/
theorem shown_mayAccess {config : Api.Config} {auth : Option Ops.BluesafeAuth} {id : String}
    (h : Api.MayAccess config auth (lefts (lefts l)) id) :
    ∃ ev ∈ l, Parent.contract id ∈ shown ev := by
  obtain ⟨contract, hread, -⟩ := h
  exact ⟨_, mem_api hread, List.mem_singleton.mpr rfl⟩

/-- A request has read the contract of a dispute that it saves. -/
theorem shown_of_saveDispute {d : DisputeCase} (h : allowed settings req l (.inl (.inl (.inl (.saveDispute d))))) :
    ∃ ev ∈ l, Parent.contract d.contractId ∈ shown ev := by
  have hworked : worked l (.inl (.inl (.inl (.saveDispute d)))) →
      ∃ ev ∈ l, Parent.contract d.contractId ∈ shown ev :=
    fun ⟨copy, hread, hsame, _⟩ => shown_readDispute hread hsame.2
  cases req with
  | http headers entry =>
    obtain ⟨auth, -, hgrant⟩ := h
    cases hgrant with
    | filed hid hfirst hacc => exact shown_accessed hacc
    | reviewed copy hread hsame hacc => exact shown_accessed hacc
    | judged copy hread hsame hacc => exact shown_accessed hacc
    | escalated copy t hread hrole hd => exact shown_readDispute hread (hd ▸ rfl)
    | resolved copy hread hsame => exact shown_readDispute hread hsame.2
  | _ => exact hworked h

/-- The access rules and the rule for settlements: a request has read the parents of every row
    that it saves. -/
theorem rests_of_allowed (h : allowed settings req l op) (hsettled : patchesRead l op) :
    parents.rests l op := by
  intro f hf
  change f ∈ needed op at hf
  unfold needed at hf
  split at hf
  -- one case for each call that needs a parent
  · rw [List.mem_singleton.mp hf]
    exact shown_of_saveDispute h
  · rw [List.mem_singleton.mp hf]
    cases req with
    | http headers entry =>
      obtain ⟨auth, -, -, id, d, hread, hdispute, -⟩ := h
      refine ⟨_, mem_ops hread, List.mem_cons_of_mem _ ?_⟩
      rw [hdispute]
      exact List.mem_cons_self
    | _ => exact h.elim
  · rw [List.mem_singleton.mp hf]
    cases req with
    | http headers entry =>
      obtain ⟨auth, -, hgrant⟩ := h
      cases hgrant with
      | uploaded hid hfirst hacc => exact shown_mayAccess hacc
      | patched id copy hread hid hcontract hacc => exact shown_mayAccess hacc
    | _ => exact nomatch h
  -- a patch of a settlement has read it
  · rw [List.mem_singleton.mp hf]
    exact hsettled
  · rw [List.mem_singleton.mp hf]
    cases req with
    | http headers entry =>
      obtain ⟨auth, -, -, d, hread, -⟩ := h
      exact ⟨_, mem_api hread, List.mem_cons_self⟩
    | _ => exact nomatch h
  · exact nomatch hf

/-- Every request rests its writes on parents it was shown. -/
theorem handle_rests (req : Request) : Safe parents.rests (handle settings req) [] :=
  wp_monitor_weaken (fun _ _ h => rests_of_allowed h.1 h.2)
    (Safe.and (handle_allowed req) (handle_settled req))

end Requests

/-! ## Runs -/

/-- In every run of the backend, from a store whose references resolve, with requests of all
    callers and the workers interleaved and with any failures: the references resolve in the
    store, and so do those of every copy that a request has read. -/
theorem references_resolve (settings : Settings) {s : Store} (hs : Resolved s.api) {P : BackendPool}
    {ms : List (Move BackendPool (Act Request Choice))}
    (run : Run (backendStep settings) ⟨s, []⟩ ms P) :
    Resolved P.store.api ∧ ∀ th ∈ P.threads, ∀ ev ∈ th.log, ∀ f ∈ shown ev, f.In P.store.api := by
  have hfounded := Facts.founded_run parents_lawful handle_rests hs run
  exact ⟨hfounded.inv, hfounded.seen⟩

theorem contract_ne_empty : "ctr_1" ≠ "" := by decide

theorem no_dispute : ∀ d : String, none = some d → d ≠ "" := fun _ h => nomatch h

theorem no_retention : ∀ n : Nat, none = some n → 0 < n := fun _ h => nomatch h

/-- A photo for the contract `ctr_1`. -/
def disputePhoto : Api.EvidenceUploadForm where
  contractId := "ctr_1"
  disputeId := none
  category := .photo
  uploaderId := none
  retentionDays := none
  contractId_min := contract_ne_empty
  disputeId_min := no_dispute
  retentionDays_positive := no_retention

/-- `tenant_1` creates a contract, and then adds a photo and files a dispute while its landlord
    moves the contract on. -/
def disputeSchedule : List (Async.Turn calls Request Choice) :=
  [.start sampleCreate, .run 0 20 (sampleOracle "1"), .start (samplePatch "landlord" "landlord_1"),
    .start (.http (sampleHeaders "tenant" "tenant_1")
      (.uploadEvidence (some ⟨[1, 2, 3], "photo.png", "image/png", 3⟩) disputePhoto)),
    .run 1 2 (sampleOracle "2"), .run 2 20 (sampleOracle "3"),
    .start (.http (sampleHeaders "tenant" "tenant_1") (.fileDispute (Ops.filedBody "evd_3"))),
    .run 3 13 (sampleOracle "4")] ++
  -- the filing is notified to both parties on two channels
  ["5", "6", "7", "8"].map (fun n => .run 3 6 (sampleOracle n)) ++ [.run 1 20 (sampleOracle "2")]

/-- The contracts that the disputes and the evidence files name. -/
def namedContracts (P : BackendPool) : List String × List String :=
  (P.store.api.ops.disputes.rows.map DisputeCase.contractId,
    P.store.api.evidenceFiles.rows.map (·.contractId))

/-- The dispute and the photo of the concrete run name its contract, and the outbox has a row for each
    notification. -/
theorem references_resolve_sample :
    ∃ ms P, Run (backendStep sampleSettings) ⟨.empty, []⟩ ms P ∧
      namedContracts P = (["ctr_1"], ["ctr_1"]) ∧ P.store.api.outbox.rows.length = 4 ∧
      Resolved P.store.api := by
  obtain ⟨ms, P, run, hp⟩ := exists_run_of_replay (sampleActs disputeSchedule)
    (fun r => decide (namedContracts r.2 = (["ctr_1"], ["ctr_1"]) ∧
      r.2.store.api.outbox.rows.length = 4))
    (by decide +kernel : (replay (backendStep sampleSettings) ⟨.empty, []⟩ _ []).any _ = true)
  obtain ⟨hnamed, houtbox⟩ := of_decide_eq_true hp
  exact ⟨ms, P, run, hnamed, houtbox, (references_resolve sampleSettings Resolved.empty run).1⟩

end Bluesafe.Backend
