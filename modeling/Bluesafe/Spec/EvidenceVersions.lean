import Bluesafe.Spec.DisputeEvidence

/-!
# The versions of evidence

An upload counts the stored rows of its group (contract, dispute and category) and takes the
next number as its version. The count and the save are two calls, and a retention run makes
the count smaller, so a version can be handed out twice.

Where the count is still right when the row is saved, and no row of the group goes between two
uploads, every version is larger than those handed out before it. The versions of a group are
then bounded by the number of its rows (`VersionsInv`). Patches keep this number: they
save a row with the group of the row that they have read, and an identifier never changes its
group (`IdsInv`).

## Key results

- `handleEvidence_versions`: what the requests save
- `idsInv_step`: rows with one identifier have one group
- `versions_increase`: runs
-/

namespace Bluesafe.Api

open Async Transition

/-! ## Groups -/

/-- What the versions count. -/
structure EvidenceGroup where
  contractId : String
  disputeId : Option String
  category : EvidenceCategory
  deriving DecidableEq

def EvidenceFile.group (e : EvidenceFile) : EvidenceGroup := ⟨e.contractId, e.disputeId, e.category⟩

def EvidenceUploadForm.group (form : EvidenceUploadForm) : EvidenceGroup :=
  ⟨form.contractId, form.disputeId, form.category⟩

/-- The number of stored rows of a group. -/
def Store.inGroup (s : Store) (g : EvidenceGroup) : Nat :=
  s.evidenceFiles.rows.countP fun e => decide (e.group = g)

/-! ## What the requests save -/

/-- The generator has answered the identifier. -/
def Generated (l : ApiLog) (id : String) : Prop :=
  (⟨.inl (.randomId "evd"), .ok id⟩ : Event calls String) ∈ l

/-- The row has been read. -/
def Reads (l : ApiLog) (e : EvidenceFile) : Prop :=
  ∃ id, (⟨.inr (.getEvidence id), .ok (some e)⟩ : Event calls String) ∈ l

/-- The rows of the group have been counted. -/
def CountedAs (l : ApiLog) (g : EvidenceGroup) (n : Nat) : Prop :=
  (⟨.inr (.countEvidenceVersions g.contractId g.disputeId g.category), .ok n⟩ : Event calls String) ∈ l

/-- No row has been saved. -/
def NoSave (l : ApiLog) : Prop := ∀ ev ∈ l, savedEvidence ev.op = none

/-- The monitor: an upload saves one row, under an identifier of the generator and with the
    version that follows its count; a patch saves a row that it has read. -/
def versionOk (req : EvidenceRequest) (l : ApiLog) (op : calls.Op) : Prop :=
  ∀ e, savedEvidence op = some e →
    match req with
    | .upload _ _ form => e.group = form.group ∧ Generated l e.id ∧ NoSave l ∧
        ∃ n, CountedAs l e.group n ∧ e.version = n + 1
    | .patchMetadata _ _ _ => ∃ e₀, Reads l e₀ ∧ e₀.id = e.id ∧ e₀.group = e.group
    | _ => False

section Requests

variable {req : EvidenceRequest} {l : ApiLog} {α : Type}

/-- A call that saves no evidence gives no version. -/
theorem versionOk_of_none {op : calls.Op} (h : savedEvidence op = none) : versionOk req l op := by
  intro e he
  rw [h] at he
  cases he

/-- It leaves the log without a save. -/
theorem NoSave.cons (h : NoSave l) {op : calls.Op} (hop : savedEvidence op = none)
    (r : Except String (calls.Res op)) : NoSave (⟨op, r⟩ :: l) := by
  intro ev hev
  rcases List.mem_cons.mp hev with rfl | hev
  · exact hop
  · exact h ev hev

/-- A program that saves nothing. -/
theorem quiet_gives {p : ApiM α} (hp : Only (fun op : calls.Op => savedEvidence op = none) p)
    (h : NoSave l) : Gives (versionOk req) p (fun _ l' => NoSave l') l :=
  hp.gives (fun _ _ hop _ => versionOk_of_none hop) (fun _ _ r hop hl => hl.cons hop r) h

/-- A program that saves nothing is safe. -/
theorem quiet_safe {p : ApiM α} (hp : Only (fun op : calls.Op => savedEvidence op = none) p) :
    Safe (versionOk req) p l :=
  hp.safe (fun _ _ hop => versionOk_of_none hop) l

/-- The handlers of the book save no evidence. -/
theorem ofOps_quiet (p : Ops.OpsM α) :
    Only (fun op : calls.Op => savedEvidence op = none) (ofOps p : ApiM α) :=
  Only.inl (Only.of_forall (fun _ => rfl) p)

/-- Nor does the announcement of an upload. -/
theorem announceUpload_quiet (vault : EvidenceVault) (e : EvidenceFile) :
    Only (fun op : calls.Op => savedEvidence op = none) (announceUpload vault e) := by
  unfold announceUpload
  exact (ofOps_quiet _).bind fun _ => ofOps_quiet _

/-- Nor the look-up of its retention. -/
theorem uploadRetention_quiet (vault : EvidenceVault) (days : Option Nat) :
    Only (fun op : calls.Op => savedEvidence op = none) (uploadRetention vault days) := by
  cases days with
  | none => exact Only.pure
  | some n => exact (ofOps_quiet _).bind fun _ => Only.pure

/-- Nor that of its dispute. -/
theorem disputeOfContract_quiet (contractId : String) (disputeId : Option String) :
    Only (fun op : calls.Op => savedEvidence op = none) (disputeOfContract contractId disputeId) := by
  cases disputeId with
  | none => exact Only.pure
  | some d =>
    refine (ofOps_quiet _).bind fun dispute => ?_
    cases dispute with
    | none => exact Only.pure
    | some dispute => exact Only.pure

/-- The row of an upload: its identifier is generated and its group is counted before. -/
theorem storeEvidence_versions (vault : EvidenceVault) (caller : Caller) (upload : Option UploadedFile)
    (file : UploadedFile) (form : EvidenceUploadForm) (hash : String) (encrypted : Bool)
    (uploaded : UploadToIpfsResult) (h : NoSave l) :
    Safe (versionOk (.upload caller upload form))
      (storeEvidence vault file form hash encrypted uploaded) l := by
  unfold storeEvidence
  rw [ofOps_invoke (.randomId "evd")]
  refine Gives.call_bind (versionOk_of_none rfl) fun id => ?_
  have h₁ : NoSave (⟨.inl (.randomId "evd"), .ok id⟩ :: l) := h.cons rfl _
  refine Gives.call_bind (versionOk_of_none rfl) fun existing => ?_
  refine Gives.bind (quiet_gives (ofOps_quiet _) (h₁.cons rfl _)) fun createdAt l₃ hl₃ h₃ => ?_
  refine Gives.bind (quiet_gives (uploadRetention_quiet vault _) h₃) fun retainUntil l₄ hl₄ h₄ => ?_
  -- the identifier and the count are still in the log when the row is saved
  have hgrow := (hl₃.trans hl₄).subset
  refine Gives.call_then ?_ fun _ l₅ _ => ?_
  · intro e he
    cases he
    exact ⟨rfl, hgrow (List.mem_cons_of_mem _ List.mem_cons_self), h₄, existing,
      hgrow List.mem_cons_self, rfl⟩
  · exact quiet_safe ((announceUpload_quiet vault _).bind fun _ => Only.pure)

/-- An upload takes the number after those it has counted. -/
theorem uploadEvidence_versions (config : Config) (vault : EvidenceVault) (caller : Caller)
    (upload : Option UploadedFile) (file : UploadedFile) (form : EvidenceUploadForm) (h : NoSave l) :
    Safe (versionOk (.upload caller upload form)) (uploadEvidence config vault file form) l := by
  unfold uploadEvidence
  -- the key is looked up, and the bytes uploaded, without a save
  have hkey : Only (fun op : calls.Op => savedEvidence op = none) resolveDataKey := by
    refine Only.tryCatch (Only.map (Only.call ?_)) fun _ => Only.pure
    rfl
  have hupload : ∀ input, Only (fun op : calls.Op => savedEvidence op = none) (uploadFile input) := by
    intro input
    refine Only.tryCatch (Only.map (Only.call ?_)) fun _ => Only.pure
    rfl
  refine Gives.bind (quiet_gives hkey h) fun key l₁ _ h₁ => ?_
  cases key with
  | error reply => exact Gives.pure trivial
  | ok key =>
    refine Gives.bind (quiet_gives (hupload _) h₁) fun uploaded l₂ _ h₂ => ?_
    cases uploaded with
    | error reply => exact Gives.pure trivial
    | ok result => exact storeEvidence_versions vault caller upload file form _ _ result h₂

/-- So does an upload with its checks. -/
theorem postEvidence_versions (config : Config) (vault : EvidenceVault) (caller : Caller)
    (file : Option UploadedFile) (form : EvidenceUploadForm) (h : NoSave l) :
    Safe (versionOk (.upload caller file form)) (postEvidence config vault caller file form) l := by
  unfold postEvidence
  apply writeRoute_ok
  -- the checks of an upload save nothing either
  cases file with
  | none => exact Gives.pure trivial
  | some file =>
    dsimp only
    split
    · exact Gives.pure trivial
    · refine Gives.bind (quiet_gives (ofOps_quiet _) h) fun contract l₁ _ h₁ => ?_
      cases contract with
      | none => exact Gives.pure trivial
      | some contract =>
        dsimp only
        split
        · refine Gives.bind (quiet_gives (disputeOfContract_quiet _ _) h₁) fun ofContract l₂ _ h₂ => ?_
          split
          · split
            · exact Gives.pure trivial
            · exact uploadEvidence_versions config vault caller _ file form h₂
          · exact Gives.pure trivial
        · exact Gives.pure trivial

/-- A patch keeps the version. -/
theorem patchEvidenceMetadata_versions (config : Config) (caller : Caller) (evidenceId : String)
    (body : MetadataPatch) :
    Safe (versionOk (.patchMetadata caller evidenceId body))
      (patchEvidenceMetadata config caller evidenceId body) l := by
  unfold patchEvidenceMetadata storeMetadata
  apply operatorRoute_ok
  refine withEvidence_safe (fun _ => versionOk_of_none rfl) (fun _ _ => versionOk_of_none rfl)
    fun evidence l₁ hget => ?_
  split
  · exact Gives.pure trivial
  · rename_i next hnext
    refine Gives.call_then ?_ fun _ l₂ _ => ?_
    · intro e he
      cases he
      -- the patch keeps the identifier and the group of what it has read
      refine ⟨evidence, ⟨evidenceId, hget⟩, ?_, ?_⟩
      · rw [patch_keeps hnext]
      · rw [patch_keeps hnext]
        rfl
    · refine quiet_safe ((ofOps_quiet _).bind fun _ => ?_)
      exact (ofOps_quiet _).bind fun _ => Only.pure

/-- A retention run gives no version. -/
theorem retentionRun_quiet (config : Config) (caller : Caller) :
    Safe (versionOk (.retentionRun caller)) (retentionRun config caller) l := by
  unfold retentionRun
  apply operatorRoute_ok
  refine Gives.bind (quiet_safe (ofOps_quiet _)) fun now l₁ _ _ => ?_
  refine Gives.call_then (versionOk_of_none rfl) fun past l₂ _ => ?_
  refine Gives.bind (Gives.forM fun ev _ _ _ => ?_) fun _ _ _ _ => Gives.pure trivial
  unfold purgeEvidence
  refine quiet_safe (Only.bind (Only.tryCatch (Only.call ?_) fun _ => Only.pure) fun _ => ?_)
  · rfl
  · refine Only.bind (Only.call ?_) fun _ => ?_
    · rfl
    · exact (ofOps_quiet _).bind fun _ => ofOps_quiet _

/-- Every request meets the monitor. -/
theorem handleEvidence_versions (config : Config) (vault : EvidenceVault) (req : EvidenceRequest) :
    Safe (versionOk req) (handleEvidence config vault req) [] := by
  have hnone : NoSave [] := fun ev hev => absurd hev List.not_mem_nil
  cases req with
  | upload caller file form => exact Gives.map (postEvidence_versions config vault caller file form hnone)
  | patchMetadata caller evidenceId body =>
    exact Gives.map (patchEvidenceMetadata_versions config caller evidenceId body)
  | retentionRun caller => exact Gives.map (retentionRun_quiet config caller)
  | other r => exact quiet_safe (ofOps_quiet _).map

end Requests

/-! ## Identifiers -/

/-- The row is stored, or some request has read it. -/
def Knows (P : EvidencePool) (e : EvidenceFile) : Prop :=
  e ∈ P.store.evidenceFiles.rows ∨ ∃ th ∈ P.threads, Reads th.log e

/-- The generator answers identifiers that the store did not have at the start and that it has
    not answered before. -/
def NewIds (config : Config) (s₀ : Store) (m : Move EvidencePool (Act EvidenceRequest Choice)) : Prop :=
  ∀ req l id, stepEvent (world config.runtime) m.before m.label =
      some (req, l, ⟨.inl (.randomId "evd"), .ok id⟩) →
    s₀.evidenceFiles.get? id = none ∧ ∀ th ∈ m.before.threads, ¬ Generated th.log id

/-- Rows with one identifier have one group, and the identifier that an upload has generated is
    of no row until it saves one. -/
structure IdsInv (s₀ : Store) (P : EvidencePool) : Prop where
  safe : ∀ th ∈ P.threads, th.Safe versionOk
  grouped : ∀ e e', Knows P e → Knows P e' → e.id = e'.id → e.group = e'.group
  origin : ∀ e, Knows P e →
    s₀.evidenceFiles.get? e.id ≠ none ∨ ∃ th ∈ P.threads, Generated th.log e.id
  reserved : ∀ th ∈ P.threads, ∀ id, Generated th.log id → NoSave th.log →
    ∀ e, Knows P e → e.id ≠ id
  own : ∀ id, AtMostOne (fun th => Generated th.log id) P.threads

/-- At the start no identifier was handed out. -/
theorem idsInv_start (s₀ : Store) : IdsInv s₀ ⟨s₀, []⟩ where
  safe th hth := absurd hth List.not_mem_nil
  -- at the start what is known is what is stored
  grouped e e' he he' hid := by
    have hstored : ∀ e, Knows ⟨s₀, []⟩ e → s₀.evidenceFiles.get? e.id = some e := by
      rintro e (he | ⟨th, hth, -⟩)
      · exact Table.get?_of_mem he
      · cases hth
    have hsame := (hstored e he).symm.trans ((congrArg _ hid).trans (hstored e' he'))
    rw [Option.some.inj hsame]
  origin e he := by
    rcases he with he | ⟨th, hth, -⟩
    · left
      rw [Table.get?_of_mem he]
      exact Option.some_ne_none e
    · cases hth
  reserved th hth := absurd hth List.not_mem_nil
  own id := atMostOne_nil _

section Ids

variable {config : Config} {s₀ : Store} {P : EvidencePool} {i : Nat} {c : Choice} {th : EvidenceThread}
  {op : calls.Op} {k : Except String (calls.Res op) → ApiM (Option Response)}

/-- The pool after a call of thread `i`. -/
def afterCall (config : Config) (P : EvidencePool) (i : Nat) (c : Choice) (th : EvidenceThread)
    (op : calls.Op) (k : Except String (calls.Res op) → ApiM (Option Response)) : EvidencePool :=
  ⟨((world config.runtime).serve op c P.store).2,
    P.threads.set i (th.resume op ((world config.runtime).serve op c P.store).1 k)⟩

/-- A call makes known what it saves, and nothing else. -/
theorem knows_afterCall (hth : P.threads[i]? = some th) {e : EvidenceFile}
    (h : Knows (afterCall config P i c th op k) e) : Knows P e ∨ savedEvidence op = some e := by
  -- what is known after the call was known before, or is saved by it
  rcases h with hrow | ⟨u, hu, id, hread⟩
  · rcases evidenceFiles_serve config.runtime op c P.store with heq | ⟨e', hsave, -, heq⟩ | ⟨id, -, -, heq⟩
    · exact .inl (.inl (heq ▸ hrow))
    · have hrow' : e ∈ (P.store.evidenceFiles.set e').rows := heq ▸ hrow
      rcases Table.mem_rows_set.mp hrow' with rfl | ⟨hold, -⟩
      · exact .inr hsave
      · exact .inl (.inl hold)
    · have hrow' : e ∈ (P.store.evidenceFiles.erase id).rows := heq ▸ hrow
      exact .inl (.inl (Table.mem_rows_erase.mp hrow').1)
  -- or it was read by a request, now or before
  · left
    rcases mem_set_resume hu with rfl | hu
    · rcases List.mem_cons.mp hread with heq | hread
      · -- a row that is read now is stored
        generalize hr : ((world config.runtime).serve op c P.store).1 = r at heq
        cases heq
        exact .inl (Table.mem_of_get? (getEvidence_answer hr))
      · exact .inr ⟨th, List.mem_of_getElem? hth, id, hread⟩
    · exact .inr ⟨u, hu, id, hread⟩

/-- Where a saved row comes from. -/
theorem IdsInv.saved (h : IdsInv s₀ P) (hth : P.threads[i]? = some th) (hprog : th.prog = await op k)
    {e : EvidenceFile} (hsave : savedEvidence op = some e) :
    (Generated th.log e.id ∧ NoSave th.log) ∨
      ∃ e₀, Knows P e₀ ∧ e₀.id = e.id ∧ e₀.group = e.group := by
  have hmem := List.mem_of_getElem? hth
  have hok := (h.safe th hmem).ok_of_await hprog e hsave
  -- an upload saves a new row, a patch one that it has read, and no other request saves
  cases hreq : th.req with
  | upload caller file form =>
    rw [hreq] at hok
    exact .inl ⟨hok.2.1, hok.2.2.1⟩
  | patchMetadata caller evidenceId body =>
    rw [hreq] at hok
    obtain ⟨e₀, hread, hid, hgroup⟩ := hok
    exact .inr ⟨e₀, .inr ⟨th, hmem, hread⟩, hid, hgroup⟩
  | retentionRun caller =>
    rw [hreq] at hok
    exact hok.elim
  | other r =>
    rw [hreq] at hok
    exact hok.elim

/-- A saved row has the group of the rows with its identifier. -/
theorem IdsInv.group_saved (h : IdsInv s₀ P) (hth : P.threads[i]? = some th)
    (hprog : th.prog = await op k) {e e' : EvidenceFile} (hsave : savedEvidence op = some e)
    (he' : Knows P e') (hid : e.id = e'.id) : e.group = e'.group := by
  rcases h.saved hth hprog hsave with ⟨hgen, hnone⟩ | ⟨e₀, hknown, hid₀, hgroup⟩
  · exact absurd hid.symm (h.reserved th (List.mem_of_getElem? hth) e.id hgen hnone e' he')
  · exact hgroup.symm.trans (h.grouped e₀ e' hknown he' (hid₀.trans hid))

/-- The identifier that a call generates is new. -/
theorem generated_resume
    (hnew : NewIds config s₀ ⟨P, .advance i c, afterCall config P i c th op k⟩)
    (hth : P.threads[i]? = some th) (hprog : th.prog = await op k) {id : String}
    (h : Generated (th.resume op ((world config.runtime).serve op c P.store).1 k).log id) :
    Generated th.log id ∨ savedEvidence op = none ∧ s₀.evidenceFiles.get? id = none ∧
      ∀ u ∈ P.threads, ¬ Generated u.log id := by
  rcases List.mem_cons.mp h with heq | h
  · have hstep := stepEvent_advance (W := world config.runtime) (c := c) hth hprog
    rw [← heq] at hstep
    refine .inr ⟨?_, hnew _ _ _ hstep⟩
    have hop : op = .inl (.randomId "evd") := (congrArg Event.op heq).symm
    rw [hop]
    rfl
  · exact .inl h

/-- A call keeps the invariant. -/
theorem IdsInv.call (h : IdsInv s₀ P) (vault : EvidenceVault)
    (hstep : evidencePoolStep config vault P (.advance i c) = some (afterCall config P i c th op k))
    (hnew : NewIds config s₀ ⟨P, .advance i c, afterCall config P i c th op k⟩)
    (hth : P.threads[i]? = some th) (hprog : th.prog = await op k) :
    IdsInv s₀ (afterCall config P i c th op k) := by
  have hmem := List.mem_of_getElem? hth
  -- an identifier that was generated before the call is in a log after it
  have hgrow : ∀ id, (∃ u ∈ P.threads, Generated u.log id) →
      ∃ u ∈ (afterCall config P i c th op k).threads, Generated u.log id := by
    rintro id ⟨u, hu, hgen⟩
    obtain ⟨u', hu', -, hsuffix⟩ := poolStep_extends hstep u hu
    exact ⟨u', hu', hsuffix.subset hgen⟩
  refine ⟨poolStep_safe (handleEvidence_versions config vault) hstep h.safe, fun e e' he he' hid => ?_,
    fun e he => ?_, fun u hu id hgen hnone e he => ?_, fun id => ?_⟩
  · rcases knows_afterCall hth he with he | hsave
    · rcases knows_afterCall hth he' with he' | hsave'
      · exact h.grouped e e' he he' hid
      · exact (h.group_saved hth hprog hsave' he hid.symm).symm
    · rcases knows_afterCall hth he' with he' | hsave'
      · exact h.group_saved hth hprog hsave he' hid
      · rw [hsave] at hsave'
        rw [Option.some.inj hsave']
  · rcases knows_afterCall hth he with he | hsave
    · exact (h.origin e he).imp_right (hgrow e.id)
    · rcases h.saved hth hprog hsave with ⟨hgen, -⟩ | ⟨e₀, hknown, hid, -⟩
      · exact .inr (hgrow e.id ⟨th, hmem, hgen⟩)
      · rw [← hid]
        exact (h.origin e₀ hknown).imp_right (hgrow e₀.id)
  · rcases mem_set_cases hu with rfl | ⟨j, hij, hj⟩
    · -- the thread itself has saved nothing, so the call makes nothing known
      have hquiet : savedEvidence op = none := hnone _ List.mem_cons_self
      have hknown : Knows P e := by
        rcases knows_afterCall hth he with he | hsave
        · exact he
        · rw [hquiet] at hsave
          cases hsave
      rcases generated_resume hnew hth hprog hgen with hgen | ⟨-, hstart, hfresh⟩
      · exact h.reserved th hmem id hgen (fun ev hev => hnone ev (List.mem_cons_of_mem _ hev)) e hknown
      · rintro rfl
        rcases h.origin e hknown with hne | ⟨v, hv, hgen'⟩
        · exact hne hstart
        · exact hfresh v hv hgen'
    · rcases knows_afterCall hth he with he | hsave
      · exact h.reserved u (List.mem_of_getElem? hj) id hgen hnone e he
      · rcases h.saved hth hprog hsave with ⟨hgen', -⟩ | ⟨e₀, hknown, hid, -⟩
        · rintro rfl
          exact hij (h.own e.id i j th u hth hj hgen' hgen)
        · rw [← hid]
          exact h.reserved u (List.mem_of_getElem? hj) id hgen hnone e₀ hknown
  · refine (h.own id).set hth fun hgen => ?_
    exact (generated_resume hnew hth hprog hgen).imp_right fun hfresh => hfresh.2.2

/-- One step of the pool. -/
theorem idsInv_step {vault : EvidenceVault} {m : Move EvidencePool (Act EvidenceRequest Choice)}
    (hstep : evidencePoolStep config vault m.before m.label = some m.after)
    (hnew : NewIds config s₀ m) (h : IdsInv s₀ m.before) : IdsInv s₀ m.after := by
  obtain ⟨P, a, P'⟩ := m
  dsimp only at hstep h ⊢
  obtain ⟨req, rfl, rfl⟩ | ⟨i, c, th, op, k, rfl, hth, hprog, -, rfl⟩ := poolStep_cases hstep
  · -- a new request has read and generated nothing
    have hknows : ∀ e, Knows ⟨P.store, P.threads ++ [⟨req, [], handleEvidence config vault req⟩]⟩ e →
        Knows P e := by
      rintro e (hrow | ⟨u, hu, id, hread⟩)
      · exact .inl hrow
      · exact .inr ⟨u, mem_of_mem_log hu hread, id, hread⟩
    refine ⟨poolStep_safe (handleEvidence_versions config vault) hstep h.safe,
      fun e e' he he' => h.grouped e e' (hknows e he) (hknows e' he'), fun e he => ?_,
      fun u hu id hgen hnone e he => ?_, fun id => (h.own id).append (by intro hgen; cases hgen)⟩
    · refine (h.origin e (hknows e he)).imp_right ?_
      rintro ⟨u, hu, hgen⟩
      exact ⟨u, List.mem_append_left _ hu, hgen⟩
    · exact h.reserved u (mem_of_mem_log hu hgen) id hgen hnone e (hknows e he)
  · exact h.call vault hstep hnew hth hprog

end Ids

/-! ## Versions -/

/-- The request uploads a file. -/
def EvidenceRequest.uploads : EvidenceRequest → Bool
  | .upload _ _ _ => true
  | _ => false

/-- The row that an upload stores with the move. -/
def stored (m : Move EvidencePool (Act EvidenceRequest Choice)) : Option EvidenceFile :=
  (stepCall m.before m.label).bind fun call =>
    if call.1.req.uploads && call.2.2.effective then savedEvidence call.2.1 else none

/-- The version that the move hands out to an upload of the group. -/
def handedOut (g : EvidenceGroup) (m : Move EvidencePool (Act EvidenceRequest Choice)) : Option Nat :=
  (stored m).bind fun e => if e.group = g then some e.version else none

/-- The versions that a run hands out, the last one first. -/
def versions (g : EvidenceGroup) (ms : List (Move EvidencePool (Act EvidenceRequest Choice))) : List Nat :=
  ms.filterMap (handedOut g)

/-- The move deletes a row of the group. -/
def deletesFrom (g : EvidenceGroup) (m : Move EvidencePool (Act EvidenceRequest Choice)) : Bool :=
  (stepCall m.before m.label).any fun call =>
    call.2.2.effective && (deletedEvidence call.2.1).any fun id =>
      (m.before.store.evidenceFiles.get? id).any fun e => decide (e.group = g)

/-- When an upload stores a row of the group, there are as many rows of it as the upload has
    counted. -/
def CountCurrent (g : EvidenceGroup) (m : Move EvidencePool (Act EvidenceRequest Choice)) : Prop :=
  ∀ call e, stepCall m.before m.label = some call → stored m = some e → e.group = g →
    ∀ n, CountedAs call.1.log g n → n = m.before.store.inGroup g

/-- No row of the group is deleted after one upload and before another. -/
def NoneDeletedBetween (g : EvidenceGroup)
    (ms : List (Move EvidencePool (Act EvidenceRequest Choice))) : Prop :=
  ∀ later m earlier, ms = later ++ m :: earlier → deletesFrom g m = true →
    versions g later = [] ∨ versions g earlier = []

section Versions

variable {config : Config} {vault : EvidenceVault} {g : EvidenceGroup} {s₀ : Store}
  {m : Move EvidencePool (Act EvidenceRequest Choice)}

/-- What an upload stores, and what it hands out. -/
theorem stored_cases {e : EvidenceFile} (h : stored m = some e) :
    ∃ call, stepCall m.before m.label = some call ∧ call.1.req.uploads = true ∧
      call.2.2.effective = true ∧ savedEvidence call.2.1 = some e := by
  obtain ⟨call, hcall, hif⟩ := Option.bind_eq_some_iff.mp h
  split at hif
  · rename_i hboth
    rw [Bool.and_eq_true] at hboth
    exact ⟨call, hcall, hboth.1, hboth.2, hif⟩
  · cases hif

/-- What a save hands out is the version of the evidence it stores. -/
theorem handedOut_eq_some {v : Nat} :
    handedOut g m = some v ↔ ∃ e, stored m = some e ∧ e.group = g ∧ e.version = v := by
  unfold handedOut
  rw [Option.bind_eq_some_iff]
  constructor
  · rintro ⟨e, hstored, hif⟩
    split at hif
    · exact ⟨e, hstored, ‹_›, Option.some.inj hif⟩
    · cases hif
  · rintro ⟨e, hstored, hgroup, rfl⟩
    exact ⟨e, hstored, if_pos hgroup⟩

/-- An upload stores its row under a new key, with the version after its count. -/
theorem stored_upload (hstep : evidencePoolStep config vault m.before m.label = some m.after)
    (h : IdsInv s₀ m.before) {e : EvidenceFile} (hstored : stored m = some e) :
    (∃ call n, stepCall m.before m.label = some call ∧ CountedAs call.1.log e.group n ∧
      e.version = n + 1) ∧
    m.before.store.evidenceFiles.get? e.id = none ∧
    m.after.store.evidenceFiles = m.before.store.evidenceFiles.set e := by
  -- a save hands out a version only when an upload has made it
  obtain ⟨call, hcall, hup, heff, hsave⟩ := stored_cases hstored
  obtain ⟨P, a, P'⟩ := m
  dsimp only at hstep h hcall ⊢
  obtain ⟨req, rfl, rfl⟩ | ⟨i, c, th, op, k, rfl, hth, hprog, -, rfl⟩ := poolStep_cases hstep
  · cases hcall
  · have heq := hcall
    rw [stepCall_advance hth hprog, Option.some.injEq] at heq
    subst heq
    have hmem := List.mem_of_getElem? hth
    have hok := (h.safe th hmem).ok_of_await hprog e hsave
    dsimp only at hup heff hsave
    -- the request behind the save is the upload
    cases hreq : th.req with
    | upload caller file form =>
      rw [hreq] at hok
      obtain ⟨-, hgen, hnone, n, hcounted, hversion⟩ := hok
      refine ⟨⟨_, n, hcall, hcounted, hversion⟩, ?_, ?_⟩
      · -- the generated identifier is of no stored row
        cases hget : P.store.evidenceFiles.get? e.id with
        | none => rfl
        | some w =>
          have hne := h.reserved th hmem e.id hgen hnone w (.inl (Table.mem_of_get? hget))
          exact absurd (Table.key_of_get? hget) hne
      · show (serve config.runtime op c P.store).2.evidenceFiles = _
        rw [saveEvidence_of_saved hsave, serve_inr, if_pos heff]
        rfl
    | patchMetadata caller evidenceId body =>
      rw [hreq] at hup
      cases hup
    | retentionRun caller =>
      rw [hreq] at hup
      cases hup
    | other r =>
      rw [hreq] at hup
      cases hup

/-- A version that is handed out is the number of rows of the group after the step. -/
theorem inGroup_of_handedOut (hstep : evidencePoolStep config vault m.before m.label = some m.after)
    (h : IdsInv s₀ m.before) (hcount : CountCurrent g m) {v : Nat} (hv : handedOut g m = some v) :
    v = m.before.store.inGroup g + 1 ∧ m.after.store.inGroup g = m.before.store.inGroup g + 1 := by
  obtain ⟨e, hstored, hgroup, rfl⟩ := handedOut_eq_some.mp hv
  obtain ⟨⟨call, n, hcall, hcounted, hversion⟩, hfresh, hset⟩ := stored_upload hstep h hstored
  constructor
  · rw [hversion, hcount call e hcall hstored hgroup n (hgroup ▸ hcounted)]
  · unfold Store.inGroup
    rw [hset, Table.countP_rows_set_of_none hfresh, if_pos (by simpa using hgroup)]

/-- Only a deletion makes a group smaller. -/
theorem inGroup_le (hstep : evidencePoolStep config vault m.before m.label = some m.after)
    (h : IdsInv s₀ m.before) (hdel : deletesFrom g m = false) :
    m.before.store.inGroup g ≤ m.after.store.inGroup g := by
  obtain ⟨P, a, P'⟩ := m
  dsimp only at hstep h ⊢
  obtain ⟨req, rfl, rfl⟩ | ⟨i, c, th, op, k, rfl, hth, hprog, -, rfl⟩ := poolStep_cases hstep
  · exact Nat.le_refl _
  · unfold Store.inGroup
    rcases evidenceFiles_serve config.runtime op c P.store with heq | ⟨e, hsave, -, heq⟩ |
      ⟨id, hid, heff, heq⟩
    · have hsame : ((world config.runtime).serve op c P.store).2.evidenceFiles = P.store.evidenceFiles := heq
      rw [hsame]
    · have hset : ((world config.runtime).serve op c P.store).2.evidenceFiles =
          P.store.evidenceFiles.set e := heq
      rw [hset]
      cases hget : P.store.evidenceFiles.get? e.id with
      | none =>
        rw [Table.countP_rows_set_of_none hget]
        exact Nat.le_add_right _ _
      | some w =>
        -- the row in place has the same group
        have hgroup := h.group_saved hth hprog hsave (.inl (Table.mem_of_get? hget))
          (Table.key_of_get? hget).symm
        rw [Table.countP_rows_set_of_some hget (by rw [hgroup])]
    · have herase : ((world config.runtime).serve op c P.store).2.evidenceFiles =
          P.store.evidenceFiles.erase id := heq
      have hother : ∀ v, P.store.evidenceFiles.get? id = some v → decide (v.group = g) = false := by
        intro v hv
        simpa [deletesFrom, stepCall_advance hth hprog, heff, hid, hv] using hdel
      rw [herase, Table.countP_rows_erase hother]

/-! ## Runs -/

/-- The versions of a run, behind a save. -/
theorem versions_cons_of_some {ms : List (Move EvidencePool (Act EvidenceRequest Choice))} {v : Nat}
    (h : handedOut g m = some v) : versions g (m :: ms) = v :: versions g ms :=
  List.filterMap_cons_some h

/-- And behind any other step. -/
theorem versions_cons_of_none {ms : List (Move EvidencePool (Act EvidenceRequest Choice))}
    (h : handedOut g m = none) : versions g (m :: ms) = versions g ms :=
  List.filterMap_cons_none h

/-- The condition holds for the earlier part of a run. -/
theorem NoneDeletedBetween.tail {ms : List (Move EvidencePool (Act EvidenceRequest Choice))}
    (h : NoneDeletedBetween g (m :: ms)) : NoneDeletedBetween g ms := by
  intro later m' earlier hms hdel
  refine (h (m :: later) m' earlier (by rw [hms]; rfl) hdel).imp_left fun hnil => ?_
  cases hv : handedOut g m with
  | none => rwa [versions_cons_of_none hv] at hnil
  | some v =>
    rw [versions_cons_of_some hv] at hnil
    cases hnil

/-- No row of the group is deleted after an upload. -/
def NoneDeletedSince (g : EvidenceGroup)
    (ms : List (Move EvidencePool (Act EvidenceRequest Choice))) : Prop :=
  ∀ later m earlier, ms = later ++ m :: earlier → deletesFrom g m = true → versions g earlier = []

/-- What holds of a run holds of its beginning. -/
theorem NoneDeletedSince.tail {ms : List (Move EvidencePool (Act EvidenceRequest Choice))}
    (h : NoneDeletedSince g (m :: ms)) : NoneDeletedSince g ms := by
  intro later m' earlier hms hdel
  exact h (m :: later) m' earlier (by rw [hms]; rfl) hdel

/-- At an upload, no row has been deleted since the first one. -/
theorem NoneDeletedBetween.since {ms : List (Move EvidencePool (Act EvidenceRequest Choice))} {v : Nat}
    (h : NoneDeletedBetween g (m :: ms)) (hv : handedOut g m = some v) : NoneDeletedSince g ms := by
  intro later m' earlier hms hdel
  rcases h (m :: later) m' earlier (by rw [hms]; rfl) hdel with hnil | hnil
  · rw [versions_cons_of_some hv] at hnil
    cases hnil
  · exact hnil

/-- The invariant of a run: the versions decrease towards the past, and while no row of the
    group is deleted none is larger than the group. -/
structure VersionsInv (g : EvidenceGroup) (s₀ : Store)
    (ms : List (Move EvidencePool (Act EvidenceRequest Choice))) (P : EvidencePool) : Prop where
  ids : IdsInv s₀ P
  ordered : (versions g ms).Pairwise (· > ·)
  le_inGroup : NoneDeletedSince g ms → ∀ v ∈ versions g ms, v ≤ P.store.inGroup g

/-- One step of a run. -/
theorem versionsInv_step {ms : List (Move EvidencePool (Act EvidenceRequest Choice))}
    (hstep : evidencePoolStep config vault m.before m.label = some m.after)
    (hnew : NewIds config s₀ m) (hcount : CountCurrent g m) (hdel : NoneDeletedBetween g (m :: ms))
    (h : VersionsInv g s₀ ms m.before) : VersionsInv g s₀ (m :: ms) m.after := by
  have hids := idsInv_step hstep hnew h.ids
  cases hv : handedOut g m with
  | none =>
    refine ⟨hids, ?_, fun hsince v hmem => ?_⟩
    · rw [versions_cons_of_none hv]
      exact h.ordered
    · rw [versions_cons_of_none hv] at hmem
      have hnot : deletesFrom g m = false := by
        -- a deletion now means that there is no version yet
        by_contra hdeletes
        have hnil := hsince [] m ms rfl (by simpa using hdeletes)
        rw [hnil] at hmem
        cases hmem
      exact Nat.le_trans (h.le_inGroup hsince.tail v hmem) (inGroup_le hstep h.ids hnot)
  | some v =>
    obtain ⟨hversion, hafter⟩ := inGroup_of_handedOut hstep h.ids hcount hv
    have hle := h.le_inGroup (hdel.since hv)
    refine ⟨hids, ?_, fun _ w hmem => ?_⟩
    · rw [versions_cons_of_some hv, List.pairwise_cons]
      refine ⟨fun w hw => ?_, h.ordered⟩
      have hbound := hle w hw
      omega
    · rw [versions_cons_of_some hv] at hmem
      rcases List.mem_cons.mp hmem with rfl | hmem
      · omega
      · have hbound := hle w hmem
        omega

/-- Where every upload of the group stores its row while its count is right, and no row of the
    group is deleted between two of them, each gets a larger version than all before it. -/
theorem versions_increase {P : EvidencePool}
    {ms : List (Move EvidencePool (Act EvidenceRequest Choice))}
    (run : Run (evidencePoolStep config vault) ⟨s₀, []⟩ ms P) (hnew : ∀ m ∈ ms, NewIds config s₀ m)
    (hcount : ∀ m ∈ ms, CountCurrent g m) (hdel : NoneDeletedBetween g ms) :
    (versions g ms).Pairwise (· > ·) := by
  have hinv : VersionsInv g s₀ ms P := by
    induction run with
    | nil => exact ⟨idsInv_start s₀, List.Pairwise.nil, fun _ v hv => absurd hv List.not_mem_nil⟩
    | cons run hstep ih =>
      have hrest := ih (fun m hm => hnew m (List.mem_cons_of_mem _ hm))
        (fun m hm => hcount m (List.mem_cons_of_mem _ hm)) hdel.tail
      exact versionsInv_step hstep (hnew _ List.mem_cons_self) (hcount _ List.mem_cons_self) hdel hrest
  exact hinv.ordered

end Versions

/-! ## Concrete runs -/

/-- The group of `sampleUpload`. -/
def photoGroup : EvidenceGroup := ⟨"ctr_1", none, .photo⟩

/-- The identifier is not one that the call has generated. -/
def notGenerated (id : String) : Event calls String → Bool
  | ⟨.inl (.randomId "evd"), .ok id'⟩ => decide (id' ≠ id)
  | _ => true

/-- No call of a request has generated an identifier that the move generates. -/
def newIdsCheck (m : Move EvidencePool (Act EvidenceRequest Choice)) : Bool :=
  match stepEvent (world sampleRuntime) m.before m.label with
  | some (_, _, ⟨.inl (.randomId "evd"), .ok id⟩) =>
    m.before.threads.all fun th => th.log.all (notGenerated id)
  | _ => true

/-- Whether identifiers are new can be computed. -/
theorem newIds_of_check {m : Move EvidencePool (Act EvidenceRequest Choice)}
    (h : newIdsCheck m = true) : NewIds (openConfig sampleRuntime) contractStore m := by
  intro req l id hstep
  have hevent : stepEvent (world sampleRuntime) m.before m.label =
      some (req, l, ⟨.inl (.randomId "evd"), .ok id⟩) := hstep
  unfold newIdsCheck at h
  rw [hevent] at h
  refine ⟨rfl, fun th hth hgen => ?_⟩
  have hnot : notGenerated id ⟨.inl (.randomId "evd"), .ok id⟩ = true :=
    List.all_eq_true.mp (List.all_eq_true.mp h th hth) _ hgen
  simp [notGenerated] at hnot

/-- The answer to a count is the number of rows of the group. -/
def countsRows (s : Store) : Event calls String → Bool
  | ⟨.inr (.countEvidenceVersions contractId disputeId category), .ok n⟩ =>
    decide (n = s.inGroup ⟨contractId, disputeId, category⟩)
  | _ => true

/-- What an upload has counted when it stores its row. -/
def countCheck (m : Move EvidencePool (Act EvidenceRequest Choice)) : Bool :=
  (stored m).isNone ||
    (stepCall m.before m.label).all fun call => call.1.log.all (countsRows m.before.store)

/-- Whether a count is current, too. -/
theorem countCurrent_of_check {m : Move EvidencePool (Act EvidenceRequest Choice)}
    (h : countCheck m = true) (g : EvidenceGroup) : CountCurrent g m := by
  intro call e hcall hstored hgroup n hcounted
  unfold countCheck at h
  rw [hstored, hcall, Option.all_some, Option.isNone_some, Bool.false_or] at h
  have hrows : countsRows m.before.store
      ⟨.inr (.countEvidenceVersions g.contractId g.disputeId g.category), .ok n⟩ = true :=
    List.all_eq_true.mp h _ hcounted
  simpa [countsRows] using hrows

/-- And whether nothing was deleted in between. -/
theorem noneDeletedBetween_of_check {g : EvidenceGroup}
    {ms : List (Move EvidencePool (Act EvidenceRequest Choice))}
    (h : ∀ m ∈ ms, deletesFrom g m = false) : NoneDeletedBetween g ms := by
  intro later m earlier hms hdel
  have hmem : m ∈ ms := by
    rw [hms]
    simp
  rw [h m hmem] at hdel
  cases hdel

def evidenceActs (ts : List (Turn calls EvidenceRequest Choice)) : List (Act EvidenceRequest Choice) :=
  scheduleActs (world sampleRuntime) (handleEvidence (openConfig sampleRuntime) sampleVault) ts
    ⟨contractStore, []⟩

/-- The second upload starts while the first one waits for IPFS, and counts after the first
    one has stored its row. -/
theorem versions_increase_overlapping :
    ∃ ms P, Run (evidencePoolStep (openConfig sampleRuntime) sampleVault) ⟨contractStore, []⟩ ms P ∧
      versions photoGroup ms = [2, 1] ∧ (versions photoGroup ms).Pairwise (· > ·) := by
  obtain ⟨ms, P, run, hp⟩ := exists_run_of_replay
    (evidenceActs [.start sampleUpload, .run 0 2 (sampleEvidenceOracle "1" 1764547200000),
      .start sampleUpload, .run 1 3 (sampleEvidenceOracle "2" 1764547200000),
      .run 0 20 (sampleEvidenceOracle "1" 1764547200000),
      .run 1 20 (sampleEvidenceOracle "2" 1764547200000)])
    (fun r => r.1.all newIdsCheck && r.1.all countCheck &&
      r.1.all (fun m => !deletesFrom photoGroup m) && decide (versions photoGroup r.1 = [2, 1]))
    (by decide +kernel : (replay (evidencePoolStep (openConfig sampleRuntime) sampleVault)
      ⟨contractStore, []⟩ _ []).any _ = true)
  simp only [Bool.and_eq_true, List.all_eq_true, decide_eq_true_eq, Bool.not_eq_true'] at hp
  obtain ⟨⟨⟨hnew, hcount⟩, hdel⟩, hversions⟩ := hp
  exact ⟨ms, P, run, hversions, versions_increase run (fun m hm => newIds_of_check (hnew m hm))
    (fun m hm => countCurrent_of_check (hcount m hm) _) (noneDeletedBetween_of_check hdel)⟩

/-- Two uploads count before either of them stores its row, or a retention run comes between
    them: both get the version 1. -/
theorem version_handed_out_twice :
    (¬ ∀ (config : Config) (vault : EvidenceVault) (g : EvidenceGroup) (s₀ : Store) (P : EvidencePool)
      (ms : List (Move EvidencePool (Act EvidenceRequest Choice))),
      Run (evidencePoolStep config vault) ⟨s₀, []⟩ ms P → (∀ m ∈ ms, NewIds config s₀ m) →
      NoneDeletedBetween g ms → (versions g ms).Nodup) ∧
    ¬ ∀ (config : Config) (vault : EvidenceVault) (g : EvidenceGroup) (s₀ : Store) (P : EvidencePool)
      (ms : List (Move EvidencePool (Act EvidenceRequest Choice))),
      Run (evidencePoolStep config vault) ⟨s₀, []⟩ ms P → (∀ m ∈ ms, NewIds config s₀ m) →
      (∀ m ∈ ms, CountCurrent g m) → (versions g ms).Nodup := by
  constructor
  · intro h
    -- two uploads count the versions before either of them is stored
    obtain ⟨ms, P, run, hp⟩ := exists_run_of_replay
      (evidenceActs [.start sampleUpload, .start sampleUpload,
        .run 0 5 (sampleEvidenceOracle "1" 1764547200000),
        .run 1 20 (sampleEvidenceOracle "2" 1764547200000),
        .run 0 20 (sampleEvidenceOracle "3" 1764547200000)])
      (fun r => r.1.all newIdsCheck && r.1.all (fun m => !deletesFrom photoGroup m) &&
        decide (versions photoGroup r.1 = [1, 1]))
      (by decide +kernel : (replay (evidencePoolStep (openConfig sampleRuntime) sampleVault)
        ⟨contractStore, []⟩ _ []).any _ = true)
    simp only [Bool.and_eq_true, List.all_eq_true, decide_eq_true_eq, Bool.not_eq_true'] at hp
    obtain ⟨⟨hnew, hdel⟩, hversions⟩ := hp
    have hnodup := h _ _ photoGroup _ P ms run (fun m hm => newIds_of_check (hnew m hm))
      (noneDeletedBetween_of_check hdel)
    rw [hversions] at hnodup
    exact absurd hnodup (by decide)
  · intro h
    -- the only version is deleted between two uploads
    obtain ⟨ms, P, run, hp⟩ := exists_run_of_replay
      (evidenceActs [.start sampleUpload, .run 0 20 (sampleEvidenceOracle "1" 1764547200000),
        .start (.retentionRun openCaller), .run 1 20 (sampleEvidenceOracle "2" 1767236400000),
        .start sampleUpload, .run 2 20 (sampleEvidenceOracle "3" 1767236400000)])
      (fun r => r.1.all newIdsCheck && r.1.all countCheck &&
        decide (versions photoGroup r.1 = [1, 1]))
      (by decide +kernel : (replay (evidencePoolStep (openConfig sampleRuntime) sampleVault)
        ⟨contractStore, []⟩ _ []).any _ = true)
    simp only [Bool.and_eq_true, List.all_eq_true, decide_eq_true_eq] at hp
    obtain ⟨⟨hnew, hcount⟩, hversions⟩ := hp
    have hnodup := h _ _ photoGroup _ P ms run (fun m hm => newIds_of_check (hnew m hm))
      (fun m hm => countCurrent_of_check (hcount m hm) _)
    rw [hversions] at hnodup
    exact absurd hnodup (by decide)

end Bluesafe.Api
