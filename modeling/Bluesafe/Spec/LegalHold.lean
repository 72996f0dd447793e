import Bluesafe.Api.Evidence
import Bluesafe.Async.Keeps
import Bluesafe.Spec.TimeWindows

/-!
# Legal holds and the retention run

The retention run deletes the evidence that `listEvidencesPastRetention` selects. Whether a
hold or a retention has ended is decided on texts in memory and on instants in the
database. Both agree on deadlines whose text stands where the text of their instant stands
(`DeadlineExact`), as `toISOString` writes it. When all deadlines that are stored are of this
kind, the two selections are the same (`pastRetention_eq`) and nothing that is protected is
deleted.

## Key results

- `pastRetention_eq`: the two selections agree
- `holdStep_exact`: the requests keep the deadlines exact
- `retentionRun_spares`: what a retention run deletes is not protected
-/

namespace Bluesafe.Api

open Bluesafe.Ops (Time truthy)
open Bluesafe.Notify (isoString utf16Units)
open Async Transition

attribute [local irreducible] isoString year10000

/-! ## Deadlines -/

/-- A deadline whose text stands where the text of its instant stands. -/
structure DeadlineExact (instant : String → Option Int) (u : String) : Prop where
  given : u ≠ ""
  parses : (instant u).isSome = true
  stands : WindowExact instant none (some u)

/-- An upper bound alone compares texts. -/
theorem inWindow_upper {u : String} (hu : u ≠ "") (t : Time) :
    inWindow none (some u) t = !textLt u (isoString t) := by
  have htruthy : truthy (some u) = some u := Ops.truthy_eq_some.mpr ⟨rfl, hu⟩
  have hnone : truthy none = none := rfl
  rw [inWindow, htruthy, hnone, Option.all_none, Option.all_some, Bool.true_and]

/-- The instants are compared as numbers. -/
theorem betweenInstants_upper {instant : String → Option Int} {u : String} {d : Int} (hu : u ≠ "")
    (hd : instant u = some d) (t : Time) :
    betweenInstants instant none (some u) t = decide ((t : Int) ≤ d) := by
  have htruthy : truthy (some u) = some u := Ops.truthy_eq_some.mpr ⟨rfl, hu⟩
  have hnone : truthy none = none := rfl
  rw [betweenInstants, htruthy, hnone, Option.bind_none, Option.all_none, Option.bind_some, hd,
    Option.all_some, Bool.true_and]

/-- Such a deadline is compared as its instant is. -/
theorem DeadlineExact.textLt_eq {instant : String → Option Int} {u : String}
    (h : DeadlineExact instant u) {now : Time} (hnow : now < year10000) :
    textLt u (isoString now) = (instant u).any fun d => decide (d < (now : Int)) := by
  have hwindow := (inWindow_eq_iff instant none (some u)).mpr h.stands now hnow
  obtain ⟨d, hd⟩ := Option.isSome_iff_exists.mp h.parses
  rw [inWindow_upper h.given, betweenInstants_upper h.given hd] at hwindow
  rw [hd, Option.any_some, ← Bool.not_not (textLt u (isoString now)), hwindow, ← decide_not]
  simp only [Int.not_le]

/-- The text `toISOString` writes. -/
theorem DeadlineExact.canonical {instant : String → Option Int} {t : Time}
    (h : instant (isoString t) = some (t : Int)) (ht : t < year10000) :
    DeadlineExact instant (isoString t) where
  given := isoString_ne t
  parses := by rw [h]; rfl
  stands := by
    apply (inWindow_eq_iff instant _ _).mp
    intro now hnow
    rw [inWindow_upper (isoString_ne t), betweenInstants_upper (isoString_ne t) h, Bool.eq_iff_iff,
      Bool.not_eq_true', ← Bool.not_eq_true, textLt_isoString ht hnow, decide_eq_true_eq, Nat.not_lt,
      Int.ofNat_le]

/-- All deadlines of a file are exact. -/
def FileExact (instant : String → Option Int) (e : EvidenceFile) : Prop :=
  ∀ u, e.legalHoldUntil = some u ∨ e.retainUntil = some u → DeadlineExact instant u

/-- All deadlines that are stored are exact. -/
def StoreExact (instant : String → Option Int) (s : Store) : Prop :=
  ∀ e ∈ s.evidenceFiles.rows, FileExact instant e

/-! ## The two selections -/

/-- The negated condition of the query: `legal_hold` with no end or with one that has not
    passed, or another class with an end that has not passed. -/
def pgBlocked (instant : String → Option Int) (e : EvidenceFile) (now : Time) : Bool :=
  let hold := e.legalHoldUntil.bind instant
  if e.retentionClass = .legalHold then hold.all fun t => decide ((now : Int) ≤ t)
  else hold.any fun t => decide ((now : Int) ≤ t)

/-- `listEvidencesPastRetention` of the database. -/
def Store.pgEvidencesPastRetention (s : Store) (instant : String → Option Int) (now : Time) :
    List EvidenceFile :=
  s.evidenceFiles.rows.filter fun e =>
    (e.retainUntil.bind instant).any (fun t => decide (t < (now : Int))) && !pgBlocked instant e now

/-- What a retention run at `now` may not delete. -/
def Protected (instant : String → Option Int) (e : EvidenceFile) (now : Time) : Prop :=
  (∃ u t, e.legalHoldUntil = some u ∧ instant u = some t ∧ (now : Int) ≤ t) ∨
    (e.retentionClass = .legalHold ∧ e.legalHoldUntil = none) ∨
    ∃ u t, e.retainUntil = some u ∧ instant u = some t ∧ (now : Int) ≤ t

section Selection

variable {instant : String → Option Int} {e : EvidenceFile} {now : Time}

/-- A deadline has passed, by texts and by instants. -/
theorem FileExact.passed {d : Option String} (h : ∀ u, d = some u → DeadlineExact instant u)
    (hnow : now < year10000) :
    (truthy d).any (fun t => textLt t (isoString now)) =
      (d.bind instant).any fun t => decide (t < (now : Int)) := by
  cases d with
  | none => rfl
  | some u =>
    have hu := h u rfl
    have htruthy : truthy (some u) = some u := Ops.truthy_eq_some.mpr ⟨rfl, hu.given⟩
    rw [htruthy, Option.any_some, Option.bind_some, hu.textLt_eq hnow]

/-- An optional text without a value passes. -/
theorem match_eq_all (o : Option String) (f : String → Bool) :
    (match o with | none => true | some t => f t) = o.all f := by
  cases o <;> rfl

/-- The purge is blocked by a hold that has not ended, for `legal_hold` also by one without
    an end. -/
theorem evidenceBlocked_eq (e : EvidenceFile) (now : Time) :
    evidenceBlockedFromRetentionPurge e now =
      if e.retentionClass = .legalHold then
        (truthy e.legalHoldUntil).all fun t => !textLt t (isoString now)
      else e.legalHoldUntil.any fun t => !textLt t (isoString now) := by
  rw [← match_eq_all]
  rfl

/-- The same when the answers of the comparison are known. -/
theorem blocked_eq_of_held {held : String → Bool} (hheld : ∀ u, e.legalHoldUntil = some u →
      u ≠ "" ∧ ∃ d, instant u = some d ∧ held u = decide ((now : Int) ≤ d)) :
    (if e.retentionClass = .legalHold then (truthy e.legalHoldUntil).all held
      else e.legalHoldUntil.any held) = pgBlocked instant e now := by
  unfold pgBlocked
  cases hhold : e.legalHoldUntil with
  | none => simp [truthy]
  | some u =>
    obtain ⟨hne, d, hd, hcmp⟩ := hheld u hhold
    have htruthy : truthy (some u) = some u := Ops.truthy_eq_some.mpr ⟨rfl, hne⟩
    simp only [htruthy, Option.any_some, Option.bind_some, hd, Option.all_some, hcmp]

/-- With exact deadlines the two queries agree. -/
theorem FileExact.blocked (h : FileExact instant e) (hnow : now < year10000) :
    evidenceBlockedFromRetentionPurge e now = pgBlocked instant e now := by
  rw [evidenceBlocked_eq]
  apply blocked_eq_of_held
  intro u hhold
  have hu := h u (.inl hhold)
  obtain ⟨d, hd⟩ := Option.isSome_iff_exists.mp hu.parses
  refine ⟨hu.given, d, hd, ?_⟩
  rw [hu.textLt_eq hnow, hd, Option.any_some, ← decide_not]
  simp only [Int.not_lt]

/-- The two repositories select the same rows. -/
theorem pastRetention_eq {s : Store} (h : StoreExact instant s) (hnow : now < year10000) :
    s.evidencesPastRetention now = s.pgEvidencesPastRetention instant now := by
  unfold Store.evidencesPastRetention Store.pgEvidencesPastRetention
  apply List.filter_congr
  intro e he
  rw [FileExact.passed (fun u hu => h e he u (.inr hu)) hnow, (h e he).blocked hnow]

/-- The query selects nothing that is protected. -/
theorem not_protected_of_mem {s : Store} (h : e ∈ s.pgEvidencesPastRetention instant now) :
    ¬ Protected instant e now := by
  obtain ⟨-, hsel⟩ := List.mem_filter.mp h
  rw [Bool.and_eq_true, Bool.not_eq_true'] at hsel
  obtain ⟨hpassed, hfree⟩ := hsel
  rintro (⟨u, t, hu, ht, hle⟩ | ⟨hclass, hnone⟩ | ⟨u, t, hu, ht, hle⟩)
  · simp [pgBlocked, hu, ht, hle] at hfree
  · simp [pgBlocked, hclass, hnone] at hfree
  · rw [hu, Option.bind_some, ht, Option.any_some, decide_eq_true_eq] at hpassed
    omega

end Selection

/-! ## What the calls do to the evidence -/

/-- The call saves a row of evidence. -/
def savedEvidence : calls.Op → Option EvidenceFile
  | .inr (.saveEvidence e) => some e
  | _ => none

/-- The call deletes a row of evidence. -/
def deletedEvidence : calls.Op → Option String
  | .inr (.deleteEvidence id) => some id
  | _ => none

/-- A saved file comes from the call that saves it. -/
theorem saveEvidence_of_saved {op : calls.Op} {e : EvidenceFile} (h : savedEvidence op = some e) :
    op = .inr (.saveEvidence e) := by
  unfold savedEvidence at h
  split at h
  · cases h
    rfl
  · cases h

/-- A call saves one row of evidence, deletes one, or leaves them all. -/
theorem evidenceFiles_serve (rt : Runtime) (op : calls.Op) (c : Choice) (s : Store) :
    (serve rt op c s).2.evidenceFiles = s.evidenceFiles ∨
    (∃ e, savedEvidence op = some e ∧ c.effective = true ∧
      (serve rt op c s).2.evidenceFiles = s.evidenceFiles.set e) ∨
    ∃ id, deletedEvidence op = some id ∧ c.effective = true ∧
      (serve rt op c s).2.evidenceFiles = s.evidenceFiles.erase id := by
  cases op with
  | inl op => exact .inl rfl
  | inr op =>
    rw [serve_inr]
    by_cases heff : c.effective = true
    · rw [if_pos heff]
      cases op with
      | saveEvidence e => exact .inr (.inl ⟨e, rfl, heff, rfl⟩)
      | deleteEvidence id => exact .inr (.inr ⟨id, rfl, heff, rfl⟩)
      | _ => exact .inl rfl
    · rw [if_neg heff]
      exact .inl rfl

/-- Other calls leave the files alone. -/
theorem evidenceFiles_serve_same (rt : Runtime) {op : calls.Op} (c : Choice) (s : Store)
    (hsave : savedEvidence op = none) (hdel : deletedEvidence op = none) :
    (serve rt op c s).2.evidenceFiles = s.evidenceFiles := by
  rcases evidenceFiles_serve rt op c s with heq | ⟨e, he, -⟩ | ⟨id, hid, -⟩
  · exact heq
  · rw [hsave] at he
    cases he
  · rw [hdel] at hid
    cases hid

/-- A call that saves only exact deadlines keeps all of them exact. -/
theorem storeExact_serve {instant : String → Option Int} (rt : Runtime) {op : calls.Op} (c : Choice)
    {s : Store} (hop : ∀ e, savedEvidence op = some e → FileExact instant e)
    (h : StoreExact instant s) : StoreExact instant (serve rt op c s).2 := by
  intro e he
  rcases evidenceFiles_serve rt op c s with heq | ⟨e', hsave, -, heq⟩ | ⟨id, -, -, heq⟩
  · rw [heq] at he
    exact h e he
  · rw [heq] at he
    rcases Table.mem_rows_set.mp he with rfl | ⟨he, -⟩
    · exact hop e hsave
    · exact h e he
  · rw [heq] at he
    exact h e (Table.mem_rows_erase.mp he).1

/-! ## Requests -/

/-- What a request keeps to: an upload does not retain beyond the year 9999, the deadlines of
    a patch stand where their instants stand, and a retention run reads a clock of four-digit
    years. -/
def KeepsDeadlines (instant : String → Option Int) (vault : EvidenceVault)
    (a : EvidenceRequest × List Choice) : Prop :=
  match a.1 with
  | .upload _ _ form => ∀ days, form.retentionDays = some days →
      ∀ c ∈ a.2, c.now + min days vault.maxRetentionDays * 86400000 < year10000
  | .patchMetadata _ _ body => ∀ u, body.legalHoldUntil = some (some u) ∨
      body.retainUntil = some (some u) → (instant u).isSome = true → WindowExact instant none (some u)
  | .retentionRun _ => ∀ c ∈ a.2, c.now < year10000
  | .other _ => True

section Requests

variable {config : Config} {vault : EvidenceVault} {instant : String → Option Int}
  {P : Choice → Bool}

/-- The program keeps the stored deadlines exact, where the choices have the property `P`. -/
abbrev KeepsExact {α : Type} (config : Config) (instant : String → Option Int) (P : Choice → Bool)
    (p : ApiM α) (R : α → Prop) : Prop :=
  Keeps ((world config.runtime).restrict P) (fun g => StoreExact instant g.2) p R

/-- A call that saves no row of evidence. -/
theorem call_exact {op : calls.Op} (hop : ∀ e, savedEvidence op = some e → FileExact instant e) :
    KeepsExact config instant P (Async.call op) fun _ => True :=
  .call fun _ _ c h _ => ⟨storeExact_serve config.runtime c hop h, fun _ _ => trivial⟩

/-- A program that saves exact files only keeps all deadlines exact. -/
theorem only_exact {α : Type} {p : ApiM α}
    (hp : Only (fun op => ∀ e, savedEvidence op = some e → FileExact instant e) p) :
    KeepsExact config instant P p fun _ => True :=
  .of_only hp fun _ c _ _ hop h _ => storeExact_serve config.runtime c hop h

/-- A program of `Bluesafe.Ops`. -/
theorem ofOps_exact {α : Type} (p : Ops.OpsM α) :
    KeepsExact config instant P (ofOps p) fun _ => True := by
  apply only_exact
  apply Only.inl
  apply Only.of_forall
  intro op e h
  cases h

/-- The guards of a writing route save nothing. -/
theorem writeRoute_exact {allowed : List Ops.BluesafeRole} {caller : Caller} {handler : ApiM Response}
    (h : KeepsExact config instant P handler fun _ => True) :
    KeepsExact config instant P (writeRoute config allowed caller handler) fun _ => True := by
  unfold writeRoute route
  split
  · exact .pure trivial
  · split
    · exact .pure trivial
    · exact h

/-- Nor do those of an operator route. -/
theorem operatorRoute_exact {scope : OperatorConsoleScope} {caller : Caller}
    {handler : ApiM Response} (h : KeepsExact config instant P handler fun _ => True) :
    KeepsExact config instant P (operatorRoute config scope caller handler) fun _ => True := by
  unfold operatorRoute
  apply writeRoute_exact
  split
  · exact .pure trivial
  · exact h

/-- The clock answers what the environment has chosen. -/
theorem clock_answer (rt : Runtime) {c : Choice} {s : Store} {now : Time}
    (h : (serve rt (.inl .clock) c s).1 = .ok now) : c.now = now :=
  Ops.answer_of_serve h

/-- The clock answers with a choice of the environment. -/
theorem clock_exact : KeepsExact config instant P (ofOps Ops.dateNow) fun now =>
    ∃ c, P c = true ∧ now = c.now := by
  rw [ofOps_invoke]
  apply Keeps.call
  intro l s c h hallow
  refine ⟨storeExact_serve config.runtime c (by intro e he; cases he) h, fun now hnow => ?_⟩
  exact ⟨c, (allow_restrict.mp hallow).2, (clock_answer config.runtime hnow).symm⟩

/-- The retention an upload asks for ends at an exact deadline. -/
theorem uploadRetention_exact (hiso : ∀ t < year10000, instant (isoString t) = some (t : Int))
    {days : Option Nat} (hP : ∀ c, P c = true → ∀ n, days = some n →
      c.now + min n vault.maxRetentionDays * 86400000 < year10000) :
    KeepsExact config instant P (uploadRetention vault days) fun r =>
      ∀ u, r = some u → DeadlineExact instant u := by
  cases days with
  | none =>
    apply Keeps.pure
    intro u hu
    cases hu
  | some n =>
    refine .bind clock_exact fun now hnow => ?_
    obtain ⟨c, hc, rfl⟩ := hnow
    apply Keeps.pure
    intro u hu
    rw [← Option.some.inj hu]
    have hlt := hP c hc n rfl
    exact .canonical (hiso _ hlt) hlt

/-- The announcement of a file changes no deadline. -/
theorem announceUpload_exact (e : EvidenceFile) :
    KeepsExact config instant P (announceUpload vault e) fun _ => True := by
  unfold announceUpload
  exact .bind (ofOps_exact _) fun _ _ => ofOps_exact _

/-- The deadline of a new file is a text of the clock. -/
theorem storeEvidence_exact (hiso : ∀ t < year10000, instant (isoString t) = some (t : Int))
    {file : UploadedFile} {form : EvidenceUploadForm} (hP : ∀ c, P c = true → ∀ n, form.retentionDays = some n →
      c.now + min n vault.maxRetentionDays * 86400000 < year10000) (hash : String) (encrypted : Bool)
    (uploaded : UploadToIpfsResult) :
    KeepsExact config instant P (storeEvidence vault file form hash encrypted uploaded) fun _ => True := by
  unfold storeEvidence
  refine .bind (ofOps_exact _) fun id _ => ?_
  refine .bind (call_exact (by intro e he; cases he)) fun existing _ => ?_
  refine .bind (ofOps_exact _) fun createdAt _ => ?_
  refine .bind (uploadRetention_exact hiso hP) fun retainUntil hretain => ?_
  refine .bind (call_exact ?_) fun _ _ => ?_
  · intro e he
    rw [← Option.some.inj he]
    rintro u (hu | hu)
    · cases hu
    · exact hretain u hu
  · exact .bind (announceUpload_exact _) fun _ _ => .pure trivial

/-- The key of a file is no part of its deadlines. -/
theorem resolveDataKey_exact : KeepsExact config instant P resolveDataKey fun _ => True := by
  unfold resolveDataKey
  refine .tryCatch (.map ?_) fun e => .pure trivial
  exact (call_exact (by intro e he; cases he)).mono fun _ _ => trivial

/-- The upload to the storage saves no file. -/
theorem uploadFile_exact (input : UploadToIpfsInput) :
    KeepsExact config instant P (uploadFile input) fun _ => True := by
  unfold uploadFile
  refine .tryCatch (.map ?_) fun e => .pure trivial
  exact (call_exact (by intro e he; cases he)).mono fun _ _ => trivial

/-- A stored upload has an exact deadline. -/
theorem uploadEvidence_exact (hiso : ∀ t < year10000, instant (isoString t) = some (t : Int))
    {file : UploadedFile} {form : EvidenceUploadForm} (hP : ∀ c, P c = true → ∀ n, form.retentionDays = some n →
      c.now + min n vault.maxRetentionDays * 86400000 < year10000) :
    KeepsExact config instant P (uploadEvidence config vault file form) fun _ => True := by
  unfold uploadEvidence
  refine .bind resolveDataKey_exact fun key _ => ?_
  cases key with
  | error reply => exact .pure trivial
  | ok key =>
    refine .bind (uploadFile_exact _) fun uploaded _ => ?_
    cases uploaded with
    | error reply => exact .pure trivial
    | ok result => exact storeEvidence_exact hiso hP _ _ _

/-- The dispute of an upload is only read. -/
theorem disputeOfContract_exact (contractId : String) (disputeId : Option String) :
    KeepsExact config instant P (disputeOfContract contractId disputeId) fun _ => True := by
  cases disputeId with
  | none => exact .pure trivial
  | some d =>
    refine .bind (ofOps_exact _) fun dispute _ => ?_
    cases dispute with
    | none => exact .pure trivial
    | some dispute => exact .pure trivial

/-- The same for the whole request. -/
theorem postEvidence_exact (hiso : ∀ t < year10000, instant (isoString t) = some (t : Int))
    {caller : Caller} {file : Option UploadedFile} {form : EvidenceUploadForm}
    (hP : ∀ c, P c = true → ∀ n, form.retentionDays = some n →
      c.now + min n vault.maxRetentionDays * 86400000 < year10000) :
    KeepsExact config instant P (postEvidence config vault caller file form) fun _ => True := by
  unfold postEvidence
  apply writeRoute_exact
  -- a request without a file is refused before anything is read
  cases file with
  | none => exact .pure trivial
  | some file =>
    dsimp only
    -- so is one whose form is not accepted
    split
    · exact .pure trivial
    -- the contract must exist and be accessible
    · refine .bind (ofOps_exact _) fun contract _ => ?_
      cases contract with
      | none => exact .pure trivial
      | some contract =>
        dsimp only
        split
        -- so must the dispute the form names; only then is the row written
        · refine .bind (disputeOfContract_exact _ _) fun ok _ => ?_
          split
          · split
            · exact .pure trivial
            · exact uploadEvidence_exact hiso hP
          · exact .pure trivial
        · exact .pure trivial

/-- A deadline that is patched is one that parses, or the old one. -/
theorem patchDeadline_exact (hparse : ∀ s, config.runtime.dateParses s = (instant s).isSome)
    {name : String} {current r : Option String} {d : Option (Option String)}
    (hcurrent : ∀ u, current = some u → DeadlineExact instant u)
    (hd : ∀ u, d = some (some u) → (instant u).isSome = true → WindowExact instant none (some u))
    (h : patchDeadline config.runtime name current d = .ok r) :
    ∀ u, r = some u → DeadlineExact instant u := by
  intro u hu
  cases d with
  | none =>
    cases h
    exact hcurrent u hu
  | some d =>
    cases d with
    | none =>
      cases h
      cases hu
    | some t =>
      -- the body names a deadline: an empty text clears it, any other must parse
      rw [patchDeadline, parseOptionalIso] at h
      cases htext : truthy (some t) with
      | none =>
        rw [htext] at h
        cases h
        cases hu
      | some v =>
        obtain ⟨heq, hne⟩ := Ops.truthy_eq_some.mp htext
        rw [htext] at h
        dsimp only at h
        split at h
        · rename_i hparses
          cases h
          rw [Option.some.inj hu] at heq hne hparses
          rw [hparse] at hparses
          exact ⟨hne, hparses, hd u (by rw [heq]) hparses⟩
        · cases h

/-- A patch with exact deadlines. -/
theorem patch_exact (hparse : ∀ s, config.runtime.dateParses s = (instant s).isSome)
    {body : MetadataPatch} (hbody : ∀ u, body.legalHoldUntil = some (some u) ∨
      body.retainUntil = some (some u) → (instant u).isSome = true → WindowExact instant none (some u))
    {e next : EvidenceFile} (he : FileExact instant e) (h : body.patch config.runtime e = .ok next) :
    FileExact instant next := by
  unfold MetadataPatch.patch at h
  split at h
  · cases h
  · rename_i hold hhold
    split at h
    · cases h
    · rename_i retain hretain
      cases h
      rintro u (hu | hu)
      · exact patchDeadline_exact hparse (fun v hv => he v (.inl hv)) (fun v hv => hbody v (.inl hv))
          hhold u hu
      · exact patchDeadline_exact hparse (fun v hv => he v (.inr hv)) (fun v hv => hbody v (.inr hv))
          hretain u hu

/-- A row that is read has exact deadlines. -/
theorem getEvidence_exact (id : String) :
    KeepsExact config instant P (invoke (.getEvidence id)) fun e? =>
      ∀ e, e? = some e → FileExact instant e := by
  apply Keeps.call
  intro l s c h _
  refine ⟨storeExact_serve config.runtime c (by intro e he; cases he) h, fun e? hans e he => ?_⟩
  have hread : s.evidenceFiles.get? id = e? := (answer_inr hans).1
  exact h e (Table.mem_of_get? (hread.trans he))

/-- The contract of a file is only read. -/
theorem contractAccessible_exact (auth : Option Ops.BluesafeAuth) (contractId : String) :
    KeepsExact config instant P (contractAccessible config auth contractId) fun _ => True := by
  refine .bind (ofOps_exact _) fun contract _ => ?_
  cases contract with
  | none => exact .pure trivial
  | some c => exact .pure trivial

/-- A patched file is saved with exact deadlines. -/
theorem storeMetadata_exact {caller : Caller} {evidenceId : String} {evidence next : EvidenceFile}
    (hnext : FileExact instant next) :
    KeepsExact config instant P (storeMetadata caller evidenceId evidence next) fun _ => True := by
  unfold storeMetadata
  refine .bind (call_exact ?_) fun _ _ => ?_
  · intro e he
    rw [← Option.some.inj he]
    exact hnext
  · exact .bind (ofOps_exact _) fun _ _ => .bind (ofOps_exact _) fun _ _ => .pure trivial

/-- The same for the whole request. -/
theorem patchEvidenceMetadata_exact
    (hparse : ∀ s, config.runtime.dateParses s = (instant s).isSome) {caller : Caller}
    {evidenceId : String} {body : MetadataPatch} (hbody : ∀ u, body.legalHoldUntil = some (some u) ∨
      body.retainUntil = some (some u) → (instant u).isSome = true → WindowExact instant none (some u)) :
    KeepsExact config instant P (patchEvidenceMetadata config caller evidenceId body) fun _ => True := by
  unfold patchEvidenceMetadata
  apply operatorRoute_exact
  -- the row as it was read satisfies the invariant
  refine .bind (getEvidence_exact evidenceId) fun e? he => ?_
  cases e? with
  | none => exact .pure trivial
  | some evidence =>
    refine .bind (contractAccessible_exact _ _) fun ok _ => ?_
    dsimp only
    split
    -- a patch that is not accepted stores nothing
    · split
      · exact .pure trivial
      · rename_i next hnext
        exact storeMetadata_exact (patch_exact hparse hbody (he evidence rfl) hnext)
    · exact .pure trivial

/-- A purge deletes. -/
theorem purgeEvidence_exact (caller : Caller) (ev : EvidenceFile) :
    KeepsExact config instant P (purgeEvidence caller ev) fun _ => True := by
  unfold purgeEvidence
  refine .bind (.tryCatch (call_exact (by intro e he; cases he)) fun _ => .pure trivial) fun _ _ => ?_
  refine .bind (call_exact (by intro e he; cases he)) fun _ _ => ?_
  exact .bind (ofOps_exact _) fun _ _ => ofOps_exact _

/-- So does a retention run. -/
theorem retentionRun_exact (caller : Caller) :
    KeepsExact config instant P (retentionRun config caller) fun _ => True := by
  unfold retentionRun
  apply operatorRoute_exact
  refine .bind (ofOps_exact _) fun now _ => ?_
  refine .bind (call_exact (by intro e he; cases he)) fun past _ => ?_
  exact .bind (.forM fun ev _ => purgeEvidence_exact caller ev) fun _ _ => .pure trivial

/-- The choices whose clock `f` takes below `bound`, for the number that is given. -/
def staysBelow (bound : Nat) (days : Option Nat) (f : Choice → Nat → Nat) (c : Choice) : Bool :=
  days.all fun n => decide (f c n < bound)

/-- The bound of a choice, as a statement. -/
theorem staysBelow_iff {bound : Nat} {days : Option Nat} {f : Choice → Nat → Nat} {c : Choice} :
    staysBelow bound days f c = true ↔ ∀ n, days = some n → f c n < bound := by
  cases days <;> simp [staysBelow]

/-- A request that keeps to its condition keeps the stored deadlines exact. -/
theorem holdStep_exact (hparse : ∀ s, config.runtime.dateParses s = (instant s).isSome)
    (hiso : ∀ t < year10000, instant (isoString t) = some (t : Int)) {s s' : Store}
    {a : EvidenceRequest × List Choice} (ha : KeepsDeadlines instant vault a)
    (hs : StoreExact instant s) (h : evidenceStep config vault s a = some s') :
    StoreExact instant s' := by
  obtain ⟨req, cs⟩ := a
  -- each request comes with the part of the clock readings that its deadlines need
  have hkeeps : ∃ P : Choice → Bool, (∀ c ∈ cs, P c = true) ∧
      KeepsExact config instant P (handleEvidence config vault req) fun _ => True := by
    cases req with
    -- an upload reads the clock, and the deadline stays below the year 10000
    | upload caller file form =>
      refine ⟨staysBelow year10000 form.retentionDays fun c n =>
        c.now + min n vault.maxRetentionDays * 86400000, ?_, ?_⟩
      · intro c hc
        exact staysBelow_iff.mpr fun n hn => ha n hn c hc
      · exact .map (postEvidence_exact hiso fun c hc => staysBelow_iff.mp hc)
    -- a patch takes its deadline from the body, whatever the clock says
    | patchMetadata caller evidenceId body =>
      exact ⟨fun _ => true, fun _ _ => rfl, .map (patchEvidenceMetadata_exact hparse ha)⟩
    | retentionRun caller =>
      exact ⟨fun _ => true, fun _ _ => rfl, .map (retentionRun_exact caller)⟩
    | other req => exact ⟨fun _ => true, fun _ _ => rfl, .map (ofOps_exact _)⟩
  obtain ⟨P, hP, hkeeps⟩ := hkeeps
  unfold evidenceStep at h
  -- the step is one of the restricted clock, for which the route keeps the invariant
  rw [← seqStep_restrict hP] at h
  exact hkeeps.seqStep hs h

end Requests

/-! ## The retention run -/

section Retention

variable {config : Config} {vault : EvidenceVault} {instant : String → Option Int}
  {P : Choice → Bool}

/-- What is missing in `s'` was in `past`, and the oldest call read the clock `now`. -/
def OnlyPast (s : Store) (now : Time) (past : List EvidenceFile) (g : ApiLog × Store) : Prop :=
  g.1.getLast? = some ⟨.inl .clock, .ok now⟩ ∧
    ∀ id e, s.evidenceFiles.get? id = some e → g.2.evidenceFiles.get? id = none → e ∈ past

/-- A list keeps its last element. -/
theorem getLast?_cons_of_some {α : Type} {l : List α} {x : α} (y : α) (h : l.getLast? = some x) :
    (y :: l).getLast? = some x := by
  rw [List.getLast?_cons, h, Option.getD_some]

/-- A call that deletes no row of evidence. -/
theorem OnlyPast.serve {s s' : Store} {now : Time} {past : List EvidenceFile} {l : ApiLog}
    {op : calls.Op} {c : Choice} (hop : deletedEvidence op = none)
    (h : OnlyPast s now past (l, s')) :
    OnlyPast s now past (⟨op, (serve config.runtime op c s').1⟩ :: l,
      (serve config.runtime op c s').2) := by
  refine ⟨getLast?_cons_of_some _ h.1, fun id e hget hnone => h.2 id e hget ?_⟩
  dsimp only at hnone
  rcases evidenceFiles_serve config.runtime op c s' with heq | ⟨e', -, -, heq⟩ | ⟨id', hdel, -⟩
  · rwa [heq] at hnone
  · rw [heq, Table.get?_set] at hnone
    split at hnone
    · cases hnone
    · exact hnone
  · rw [hop] at hdel
    cases hdel

/-- Calls of the other part delete nothing. -/
theorem ofOps_onlyPast {α : Type} (s : Store) (now : Time) (past : List EvidenceFile)
    (p : Ops.OpsM α) :
    Keeps ((world config.runtime).restrict P) (OnlyPast s now past) (ofOps p) fun _ => True := by
  refine Keeps.of_only (P := fun op => deletedEvidence op = none) ?_ fun op c l s' hop h _ => h.serve hop
  apply Only.inl
  exact Only.of_forall (fun _ => rfl) p

/-- One iteration deletes a row of `past`. -/
theorem purgeEvidence_onlyPast (caller : Caller) {s : Store} {now : Time} {past : List EvidenceFile}
    (hpast : ∀ e ∈ past, e ∈ s.evidenceFiles.rows) {ev : EvidenceFile} (hev : ev ∈ past) :
    Keeps ((world config.runtime).restrict P) (OnlyPast s now past) (purgeEvidence caller ev) fun _ => True := by
  have hcall : ∀ op : calls.Op, deletedEvidence op = none →
      Keeps ((world config.runtime).restrict P) (OnlyPast s now past) (Async.call op) fun _ => True :=
    fun op hop => .call fun l s' c h _ => ⟨h.serve hop, fun _ _ => trivial⟩
  unfold purgeEvidence
  refine .bind (.tryCatch (hcall _ rfl) fun _ => .pure trivial) fun _ _ => ?_
  refine .bind (S := fun _ => True) (.call fun l s' c h _ => ⟨?_, fun _ _ => trivial⟩) fun _ _ => ?_
  · refine ⟨getLast?_cons_of_some _ h.1, fun id e hget hnone => ?_⟩
    dsimp only at hnone
    -- the row of `id` was missing before, or `id` is the one that is deleted now
    by_cases hmissing : s'.evidenceFiles.get? id = none
    · exact h.2 id e hget hmissing
    · have hid : id = ev.id := by
        rcases evidenceFiles_serve config.runtime (.inr (.deleteEvidence ev.id)) c s' with
          heq | ⟨e', hsave, -⟩ | ⟨id', hdel, -, heq⟩
        · exact absurd (heq ▸ hnone) hmissing
        · cases hsave
        · cases hdel
          by_contra hne
          apply hmissing
          have hnone' : (serve config.runtime (.inr (.deleteEvidence ev.id)) c s').2.evidenceFiles.get? id
            = none := hnone
          rwa [heq, Table.get?_erase, if_neg hne] at hnone'
      have hrow := Table.get?_of_mem (hpast ev hev)
      rw [hid] at hget
      have heq : ev = e := Option.some.inj (hrow.symm.trans hget)
      exact heq ▸ hev
  · exact .bind (ofOps_onlyPast s now past _) fun _ _ => ofOps_onlyPast s now past _

/-- What a retention run deletes has been selected at the time it read, a choice of the
    environment. -/
def DeletesSelected (P : Choice → Bool) (s : Store) (g : ApiLog × Store) : Prop :=
  ∀ id e, s.evidenceFiles.get? id = some e → g.2.evidenceFiles.get? id = none →
    ∃ c, P c = true ∧ g.1.getLast? = some ⟨.inl .clock, .ok c.now⟩ ∧
      e ∈ s.evidencesPastRetention c.now

/-- A program that keeps the files deletes none. -/
theorem deletesSelected_of_eq {s s' : Store} (l : ApiLog) (h : s'.evidenceFiles = s.evidenceFiles) :
    DeletesSelected P s (l, s') := by
  intro id e hget hnone
  dsimp only at hnone
  rw [h, hget] at hnone
  cases hnone

/-- What a run deletes was past its retention when it read the clock. -/
theorem OnlyPast.deletesSelected {s : Store} {c : Choice} {g : ApiLog × Store} (hc : P c = true)
    (h : OnlyPast s c.now (s.evidencesPastRetention c.now) g) : DeletesSelected P s g :=
  fun id e hget hnone => ⟨c, hc, h.1, h.2 id e hget hnone⟩

/-- The handler: the clock, the selection, and the loop. -/
theorem retentionRun_selected (caller : Caller) (s : Store) :
    wp (seqSpec ((world config.runtime).restrict P)) (retentionRun config caller)
      (fun _ => DeletesSelected P s) (fun _ => DeletesSelected P s) ([], s) := by
  have hnothing : DeletesSelected P s ([], s) := deletesSelected_of_eq [] rfl
  unfold retentionRun operatorRoute writeRoute route
  split
  · exact hnothing
  split
  · exact hnothing
  split
  · exact hnothing
  rw [ofOps_invoke, wp_bind]
  refine wp_call (fun c now hallow hnow => ?_) fun c e _ _ => deletesSelected_of_eq _ rfl
  have hP := (allow_restrict.mp hallow).2
  obtain rfl : c.now = now := clock_answer config.runtime hnow
  have hsame : (((world config.runtime).restrict P).serve (.inl .clock) c s).2.evidenceFiles = s.evidenceFiles := rfl
  generalize (((world config.runtime).restrict P).serve (.inl .clock) c s).2 = s₁ at hsame ⊢
  rw [wp_bind]
  refine wp_call (fun c₂ past _ hpast => ?_) fun c₂ e _ _ => deletesSelected_of_eq _ ?_
  · have hsame₂ : (serve config.runtime (.inr (.listEvidencesPastRetention c.now)) c₂ s₁).2.evidenceFiles =
        s₁.evidenceFiles := evidenceFiles_serve_same config.runtime c₂ s₁ rfl rfl
    -- the clock and the list leave the evidence alone: what is selected is selected in `s`
    have hsel : past = s.evidencesPastRetention c.now := by
      have hlist : s₁.evidencesPastRetention c.now = past := (answer_inr hpast).1
      rw [← hlist, Store.evidencesPastRetention, hsame, Store.evidencesPastRetention]
    have hloop : Keeps ((world config.runtime).restrict P) (OnlyPast s c.now past)
        (past.forM (purgeEvidence caller)) fun _ => True :=
      .forM fun ev hev => purgeEvidence_onlyPast caller
        (fun e he => (List.mem_filter.mp (hsel ▸ he)).1) hev
    rw [wp_bind]
    refine wp_mono _ _ (seqSpec_mono _) (fun _ g h => ?_) (fun _ g h => ?_) (hloop.toWp ⟨rfl, ?_⟩)
    · exact OnlyPast.deletesSelected hP (hsel ▸ h.1)
    · exact OnlyPast.deletesSelected hP (hsel ▸ h)
    · intro id e hget hnone
      have hnone' : s.evidenceFiles.get? id = none := by rwa [← hsame, ← hsame₂]
      rw [hget] at hnone'
      cases hnone'
  · exact (evidenceFiles_serve_same config.runtime c₂ s₁ rfl rfl).trans hsame

/-- What is missing after a retention run has been selected by it. -/
theorem selected_of_missing {s s' : Store} {caller : Caller} {cs : List Choice}
    (hP : ∀ c ∈ cs, P c = true)
    (h : evidenceStep config vault s (.retentionRun caller, cs) = some s') {id : String}
    {e : EvidenceFile} (hget : s.evidenceFiles.get? id = some e)
    (hnone : s'.evidenceFiles.get? id = none) :
    ∃ c, P c = true ∧ (evidenceLog config vault ⟨s, (.retentionRun caller, cs), s'⟩).getLast? =
      some ⟨.inl .clock, .ok c.now⟩ ∧ e ∈ s.evidencesPastRetention c.now := by
  have hwp : wp (seqSpec ((world config.runtime).restrict P))
      (handleEvidence config vault (.retentionRun caller))
      (fun _ => DeletesSelected P s) (fun _ => DeletesSelected P s) ([], s) := by
    rw [handleEvidence, wp_map]
    exact retentionRun_selected caller s
  unfold evidenceStep at h
  unfold evidenceLog
  rw [← seqStep_restrict hP] at h
  rw [← seqLog_restrict hP]
  exact seqStep_sound hwp h id e hget hnone

def clockBelow (bound : Nat) (c : Choice) : Bool := decide (c.now < bound)

/-- The bound of the clock, as a statement. -/
theorem clockBelow_iff {bound : Nat} {c : Choice} : clockBelow bound c = true ↔ c.now < bound :=
  decide_eq_true_iff

/-- A retention run whose clock has four-digit years deletes nothing that is protected. -/
theorem retentionRun_spares {s s' : Store} {caller : Caller} {cs : List Choice}
    (hs : StoreExact instant s) (hcs : ∀ c ∈ cs, c.now < year10000)
    (h : evidenceStep config vault s (.retentionRun caller, cs) = some s') {id : String}
    {e : EvidenceFile} (hget : s.evidenceFiles.get? id = some e)
    (hnone : s'.evidenceFiles.get? id = none) :
    ∃ now, (evidenceLog config vault ⟨s, (.retentionRun caller, cs), s'⟩).getLast? =
      some ⟨.inl .clock, .ok now⟩ ∧ ¬ Protected instant e now := by
  have hP : ∀ c ∈ cs, clockBelow year10000 c = true := fun c hc => clockBelow_iff.mpr (hcs c hc)
  obtain ⟨c, hc, hlog, hmem⟩ := selected_of_missing hP h hget hnone
  rw [pastRetention_eq hs (clockBelow_iff.mp hc)] at hmem
  exact ⟨c.now, hlog, not_protected_of_mem hmem⟩

end Retention

/-! ## Runs -/

/-- A retention run deletes nothing that is protected at the time it read. -/
def SparesProtected (config : Config) (vault : EvidenceVault) (instant : String → Option Int)
    (m : Move Store (EvidenceRequest × List Choice)) : Prop :=
  ∀ caller, m.label.1 = .retentionRun caller →
    ∀ id e, m.before.evidenceFiles.get? id = some e → m.after.evidenceFiles.get? id = none →
      ∃ now, (evidenceLog config vault m).getLast? = some ⟨.inl .clock, .ok now⟩ ∧
        ¬ Protected instant e now

/-- In every run whose requests keep to their condition, retention runs spare what is
    protected, and the two repositories select the same rows. -/
theorem legal_hold_runs {config : Config} {vault : EvidenceVault} {instant : String → Option Int}
    (hparse : ∀ s, config.runtime.dateParses s = (instant s).isSome)
    (hiso : ∀ t < year10000, instant (isoString t) = some (t : Int)) {s₀ s : Store}
    {ms : List (Move Store (EvidenceRequest × List Choice))} (hs₀ : StoreExact instant s₀)
    (run : Run (evidenceStep config vault) s₀ ms s)
    (hms : ∀ m ∈ ms, KeepsDeadlines instant vault m.label) :
    (∀ m ∈ ms, SparesProtected config vault instant m) ∧
      ∀ now < year10000, s.evidencesPastRetention now = s.pgEvidencesPastRetention instant now := by
  -- the step lemma, with the condition of one move
  have hstep : ∀ m : Move Store (EvidenceRequest × List Choice),
      evidenceStep config vault m.before m.label = some m.after →
      KeepsDeadlines instant vault m.label → StoreExact instant m.before →
      StoreExact instant m.after :=
    fun m hm hkeeps hexact => holdStep_exact hparse hiso hkeeps hexact hm
  -- what a purge spares, and what is past its retention at the end
  constructor
  · intro m hm
    -- the invariant before the move is that of the run up to it
    have hexact := run.invariant_before hms hs₀ hstep hm
    have hmove := run.step_of_mem hm
    have hkeeps := hms m hm
    obtain ⟨before, ⟨req, cs⟩, after⟩ := m
    rintro caller rfl id e hget hnone
    exact retentionRun_spares hexact hkeeps hmove hget hnone
  · intro now hnow
    exact pastRetention_eq (run.invariant hms hs₀ hstep) hnow

/-! ## Concrete runs -/

/-- The greatest number from `lo` on and below `hi` at which `le` holds, by bisection. -/
def bisect (le : Nat → Bool) : Nat → Nat → Nat → Nat
  | 0, lo, _ => lo
  | fuel + 1, lo, hi =>
    if le ((lo + hi) / 2) then bisect le fuel ((lo + hi) / 2) hi
    else bisect le fuel lo ((lo + hi) / 2)

/-- A search by halves finds the number where the comparison turns. -/
theorem bisect_eq {le : Nat → Bool} {t : Nat} (hle : ∀ u, le u = decide (u ≤ t)) {fuel lo hi : Nat}
    (hlo : lo ≤ t) (hhi : t < hi) (hfuel : hi ≤ lo + (1 <<< fuel)) : bisect le fuel lo hi = t := by
  induction fuel generalizing lo hi with
  | zero =>
    simp only [bisect, Nat.shiftLeft_zero] at *
    omega
  | succ fuel ih =>
    have hdouble : 1 <<< (fuel + 1) = 2 * (1 <<< fuel) := Nat.shiftLeft_succ 1 fuel
    rw [hdouble] at hfuel
    simp only [bisect, hle, decide_eq_true_eq]
    split
    · rename_i h
      exact ih h hhi (by omega)
    · rename_i h
      exact ih hlo (by omega) (by omega)

/-- The instant is before `bound` and its text is not after `s`. -/
def notAfter (bound : Nat) (s : String) (u : Time) : Bool := decide (u < bound) && !textLt s (isoString u)

/-- The order of the texts of the clock is that of their instants. -/
theorem notAfter_isoString {t : Time} (ht : t < year10000) (u : Nat) :
    notAfter year10000 (isoString t) u = decide (u ≤ t) := by
  unfold notAfter
  by_cases hu : u < year10000
  · have htext : textLt (isoString t) (isoString u) = decide (t < u) := by
      rw [Bool.eq_iff_iff, textLt_isoString ht hu, decide_eq_true_iff]
    rw [htext, decide_eq_true hu, Bool.true_and, ← decide_not]
    simp only [Nat.not_lt]
  · have hle : ¬ u ≤ t := fun h => hu (Nat.lt_of_le_of_lt h ht)
    rw [decide_eq_false hu, decide_eq_false hle, Bool.false_and]

/-- `Date.parse` on the texts `toISOString` writes, and on one with an offset. -/
def sampleInstant (s : String) : Option Int :=
  if s = "2026-01-01T00:00:00-05:00" then some 1767243600000
  else
    let t := bisect (notAfter year10000 s) 48 0 year10000
    if isoString t = s then some t else none

/-- The concrete reader reads the texts of the clock. -/
theorem sampleInstant_isoString (t : Time) (ht : t < year10000) :
    sampleInstant (isoString t) = some (t : Int) := by
  have hfuel : year10000 ≤ 0 + (1 <<< 48) := by
    unfold year10000
    decide
  have hfound := bisect_eq (notAfter_isoString ht) (Nat.zero_le t) ht hfuel
  have hne : isoString t ≠ "2026-01-01T00:00:00-05:00" := by
    intro heq
    have hlast := getLast?_isoString ht
    rw [heq] at hlast
    exact absurd hlast (by decide +kernel)
  unfold sampleInstant
  rw [if_neg hne, hfound, if_pos rfl]

/-- A runtime that reads these dates. -/
def instantRuntime : Runtime := { sampleRuntime with dateParses := fun s => (sampleInstant s).isSome }

/-- A photo is uploaded and held until `hold`, and a retention run comes a month later. -/
def holdRun (hold : String) (hmin : 8 ≤ (utf16Units hold).length) :
    List (EvidenceRequest × List Choice) :=
  evidenceLabels (openConfig instantRuntime) contractStore
    [(sampleUpload, sampleEvidenceOracle "1" 1764547200000),
      (.patchMetadata openCaller "evd_1"
        { retentionClass := none
          jurisdiction := none
          legalHoldUntil := some (some hold)
          retainUntil := none
          jurisdiction_size := by intro t h; cases h
          legalHoldUntil_min := by intro t h; cases h; exact hmin
          retainUntil_min := by intro t h; cases h }, sampleEvidenceOracle "2" 1764547200000),
      (.retentionRun openCaller, sampleEvidenceOracle "3" 1767236400000)]

/-- All choices of the move read a clock before the year 2100, and the only deadline it sets
    is `hold`. -/
def setsOnly (hold : String) (m : Move Store (EvidenceRequest × List Choice)) : Bool :=
  m.label.2.all (clockBelow 4102444800000) &&
    match m.label.1 with
    | .patchMetadata _ _ body => decide (body.legalHoldUntil = some (some hold) ∧ body.retainUntil = none)
    | _ => true

/-- A retention of at most ten years ends before the year 10000. -/
theorem ends_before {now n limit : Nat} (hnow : now < 4102444800000) (hlimit : limit ≤ 3650) :
    now + min n limit * 86400000 < 253402300800000 := by
  have hmin : min n limit ≤ limit := Nat.min_le_right n limit
  omega

/-- The check of a move can be computed. -/
theorem keepsDeadlines_of_setsOnly {hold : String}
    {m : Move Store (EvidenceRequest × List Choice)} (hhold : DeadlineExact sampleInstant hold)
    (h : setsOnly hold m = true) : KeepsDeadlines sampleInstant sampleVault m.label := by
  obtain ⟨before, ⟨req, cs⟩, after⟩ := m
  simp only [setsOnly, Bool.and_eq_true, List.all_eq_true, clockBelow_iff] at h
  obtain ⟨hclock, hreq⟩ := h
  cases req with
  -- the clock of the sample is far below the year 10000
  | upload caller file form =>
    intro days _ c hc
    unfold year10000
    exact ends_before (hclock c hc) (Nat.le_refl 3650)
  -- the patch sets the one hold that was asked for
  | patchMetadata caller evidenceId body =>
    obtain ⟨hset, hnone⟩ := of_decide_eq_true hreq
    rintro u (hu | hu) _
    · rw [hset] at hu
      rw [← Option.some.inj (Option.some.inj hu)]
      exact hhold.stands
    · rw [hnone] at hu
      cases hu
  -- a purge reads the clock of the sample too
  | retentionRun caller =>
    intro c hc
    unfold year10000
    have hlt : ∀ n : Nat, n < 4102444800000 → n < 253402300800000 := fun n h => by omega
    exact hlt _ (hclock c hc)
  -- the other requests set no deadline
  | other req => trivial

/-- The hold is given as `toISOString` writes it: the photo is still there. -/
theorem legal_hold_runs_canonical :
    ∃ ms s, Run (evidenceStep (openConfig instantRuntime) sampleVault) contractStore ms s ∧
      ms.length = 3 ∧ (s.evidenceFiles.get? "evd_1").isSome = true ∧
      (∀ m ∈ ms, SparesProtected (openConfig instantRuntime) sampleVault sampleInstant m) ∧
      ∀ now < year10000,
        s.evidencesPastRetention now = s.pgEvidencesPastRetention sampleInstant now := by
  obtain ⟨ms, s, run, hp⟩ := exists_run_of_replay
    (holdRun "2026-01-01T05:00:00.000Z" (by decide))
    (fun r => decide (r.1.length = 3) && (r.2.evidenceFiles.get? "evd_1").isSome &&
      r.1.all (setsOnly "2026-01-01T05:00:00.000Z"))
    (by decide +kernel : (replay (evidenceStep (openConfig instantRuntime) sampleVault)
      contractStore _ []).any _ = true)
  simp only [Bool.and_eq_true, List.all_eq_true, decide_eq_true_eq] at hp
  obtain ⟨⟨hlength, hkept⟩, hsets⟩ := hp
  -- the hold is in the form in which deadlines are stored, so it is exact
  have htext : isoString 1767243600000 = "2026-01-01T05:00:00.000Z" := by decide +kernel
  have hyear : (1767243600000 : Nat) < year10000 := by
    unfold year10000
    decide
  have hhold : DeadlineExact sampleInstant "2026-01-01T05:00:00.000Z" :=
    htext ▸ .canonical (sampleInstant_isoString _ hyear) hyear
  have hparse : ∀ s, (openConfig instantRuntime).runtime.dateParses s = (sampleInstant s).isSome :=
    fun _ => rfl
  have hspares := legal_hold_runs hparse sampleInstant_isoString
    (fun e he => absurd he List.not_mem_nil) run
    (fun m hm => keepsDeadlines_of_setsOnly hhold (hsets m hm))
  exact ⟨ms, s, run, hlength, hkept, hspares⟩

/-- The retention run reads 3:00 and deletes the photo, although its hold ends at 5:00. -/
def holdBroken (r : List (Move Store (EvidenceRequest × List Choice)) × Store) : Bool :=
  r.1.any fun m =>
    (match m.label.1 with | .retentionRun _ => true | _ => false) &&
      (m.before.evidenceFiles.get? "evd_1").any (fun e =>
        decide (e.legalHoldUntil = some "2026-01-01T00:00:00-05:00")) &&
      (m.after.evidenceFiles.get? "evd_1").isNone &&
      (match (evidenceLog (openConfig instantRuntime) sampleVault m).getLast? with
      | some ⟨.inl .clock, .ok now⟩ => decide (now = (1767236400000 : Nat))
      | _ => false)

/-- A run that breaks a hold spares not all that is protected. -/
theorem not_spares_of_holdBroken {ms : List (Move Store (EvidenceRequest × List Choice))} {s : Store}
    (h : holdBroken (ms, s) = true) (hinstant : sampleInstant "2026-01-01T00:00:00-05:00" = some 1767243600000) :
    ∃ m ∈ ms, ¬ SparesProtected (openConfig instantRuntime) sampleVault sampleInstant m := by
  simp only [holdBroken, List.any_eq_true, Bool.and_eq_true, Option.any_eq_true,
    decide_eq_true_eq, Option.isNone_iff_eq_none] at h
  obtain ⟨m, hm, ⟨⟨hreq, e, hget, hhold⟩, hnone⟩, hlog⟩ := h
  refine ⟨m, hm, fun hspares => ?_⟩
  split at hreq
  · rename_i caller hlabel
    obtain ⟨now, hlast, hfree⟩ := hspares caller hlabel "evd_1" e hget hnone
    rw [hlast] at hlog
    apply hfree
    refine .inl ⟨_, _, hhold, hinstant, ?_⟩
    rw [of_decide_eq_true hlog]
    decide
  · cases hreq

/-- A hold with an offset is compared by its text, and ends too early. -/
theorem hold_with_offset_purged :
    ¬ ∀ (config : Config) (vault : EvidenceVault) (instant : String → Option Int),
      (∀ s, config.runtime.dateParses s = (instant s).isSome) →
      (∀ t < year10000, instant (isoString t) = some (t : Int)) →
      ∀ (s₀ s : Store) (ms : List (Move Store (EvidenceRequest × List Choice))),
        StoreExact instant s₀ → Run (evidenceStep config vault) s₀ ms s →
        ∀ m ∈ ms, SparesProtected config vault instant m := by
  intro h
  obtain ⟨ms, s, run, hp⟩ := exists_run_of_replay
    (holdRun "2026-01-01T00:00:00-05:00" (by decide)) holdBroken
    (by decide +kernel : (replay (evidenceStep (openConfig instantRuntime) sampleVault)
      contractStore _ []).any _ = true)
  obtain ⟨m, hm, hbroken⟩ := not_spares_of_holdBroken hp (by decide +kernel)
  exact hbroken (h (openConfig instantRuntime) sampleVault sampleInstant (fun _ => rfl)
    sampleInstant_isoString contractStore s ms (fun e he => absurd he List.not_mem_nil) run m hm)

end Bluesafe.Api
