import Bluesafe.Ops.Disputes
import Mathlib.Logic.Function.Basic

/-!
# The book of executions

What the backend is for, as far as executions are concerned: a book that says for each
transaction hash which dispute it is linked to and whether it is validated, and for each
dispute its status. `Deed` lists what can happen to the book when requests are handled
one after the other, and `Book.step` is what each deed does.

Two properties of books: `Book.Sound`, in which a dispute that waits for its execution
has a linked transaction and none that is validated, and `Book.Settled`, in which a
transaction belongs for good to the dispute it has resolved. Each is kept by all deeds
except executions, and by the executions that meet a condition on the book before.
-/

namespace Bluesafe.Ops

/-- A tracked transaction: the dispute it is linked to, and whether it is validated. -/
structure Entry where
  link : Option String
  validated : Bool

/-- The book: tracked hashes and disputes. -/
structure Book where
  entry : String → Option Entry
  status : String → Option DisputeStatus

/-- What happens to the book. `apply` brings the ledger's word about a hash; `execute`
    accepts an execution of a dispute at a hash, with the word the ledger had for it. -/
inductive Deed
  | decide (id : String)
  | track (h : String)
  | apply (h : String) (validated success : Bool)
  | execute (id h : String) (answer : Option (Bool × Bool))

namespace Book

/-- Write one entry. -/
def setEntry (b : Book) (h : String) (e : Entry) : Book :=
  { b with entry := Function.update b.entry h (some e) }

/-- Write one status. -/
def setStatus (b : Book) (id : String) (s : DisputeStatus) : Book :=
  { b with status := Function.update b.status id (some s) }

@[simp] theorem setEntry_status (b : Book) (h : String) (e : Entry) :
    (b.setEntry h e).status = b.status := rfl

@[simp] theorem setStatus_entry (b : Book) (id : String) (s : DisputeStatus) :
    (b.setStatus id s).entry = b.entry := rfl

@[simp] theorem setEntry_entry_self (b : Book) (h : String) (e : Entry) :
    (b.setEntry h e).entry h = some e :=
  Function.update_self ..

@[simp] theorem setStatus_status_self (b : Book) (id : String) (s : DisputeStatus) :
    (b.setStatus id s).status id = some s :=
  Function.update_self ..

/-- Other entries stay. -/
theorem setEntry_entry_ne (b : Book) {h h' : String} (e : Entry) (hne : h' ≠ h) :
    (b.setEntry h e).entry h' = b.entry h' :=
  Function.update_of_ne hne ..

/-- Other statuses stay. -/
theorem setStatus_status_ne (b : Book) {id id' : String} (s : DisputeStatus) (hne : id' ≠ id) :
    (b.setStatus id s).status id' = b.status id' :=
  Function.update_of_ne hne ..

/-- Link a hash: a new entry is not validated, an old one keeps its flag and, without a new
    link, its link. -/
def track (b : Book) (h : String) (link : Option String) : Book :=
  match b.entry h with
  | none => b.setEntry h ⟨link, false⟩
  | some e => b.setEntry h ⟨link.or e.link, e.validated⟩

/-- The dispute that the ledger's word about `h` moves. -/
def moved (b : Book) (h : String) (validated : Bool) : Option String :=
  if validated then
    match (b.entry h).bind fun e => truthy e.link with
    | some id => if b.status id = some .executionPending then some id else none
    | none => none
  else none

/-- Where a validated transaction moves its dispute. -/
def result (success : Bool) : DisputeStatus :=
  if success then .executed else .rejected

/-- Bring the ledger's word about `h`. -/
def apply (b : Book) (h : String) (validated success : Bool) : Book :=
  match b.entry h with
  | none => b
  | some e =>
    match b.moved h validated with
    | none => b.setEntry h ⟨e.link, validated⟩
    | some id => (b.setEntry h ⟨e.link, validated⟩).setStatus id (result success)

/-- Accept the execution of a decided dispute at `h`: link the hash, bring the word the
    ledger had for it, and only then wait. -/
def execute (b : Book) (id h : String) (answer : Option (Bool × Bool)) : Book :=
  let linked := b.track h (some id)
  let applied := match answer with
    | none => linked
    | some (validated, success) => linked.apply h validated success
  applied.setStatus id .executionPending

/-- What a deed does to the book. -/
def step (b : Book) : Deed → Book
  | .decide id => if (b.status id).any DisputeStatus.awaitsDecision then b.setStatus id .decided else b
  | .track h => b.track h none
  | .apply h validated success => b.apply h validated success
  | .execute id h answer => if b.status id = some .decided then b.execute id h answer else b

/-- The deeds of a sequence, oldest first. -/
def run (b : Book) (ds : List Deed) : Book := ds.foldl step b

/-- The dispute a deed resolves, with the hash that resolves it. -/
def resolution (b : Book) : Deed → List (String × String)
  | .apply h validated _ => (b.moved h validated).toList.map fun id => (h, id)
  | _ => []

/-- Everything that is resolved along a sequence. -/
def resolutions (b : Book) : List Deed → List (String × String)
  | [] => []
  | d :: ds => b.resolution d ++ (b.step d).resolutions ds

/-- Deeds one after the other. -/
theorem run_append (b : Book) (ds ds' : List Deed) : b.run (ds ++ ds') = (b.run ds).run ds' :=
  List.foldl_append

/-- Their resolutions one after the other. -/
theorem resolutions_append (b : Book) (ds ds' : List Deed) :
    b.resolutions (ds ++ ds') = b.resolutions ds ++ (b.run ds).resolutions ds' := by
  induction ds generalizing b with
  | nil => rfl
  | cons d ds ih =>
    show b.resolution d ++ (b.step d).resolutions (ds ++ ds') = _
    rw [ih, ← List.append_assoc]
    rfl

/-! ## Deeds, one by one -/

/-- An answer moves a dispute if it is validated, the dispute waits, and the entry is linked to it.
    -/
theorem moved_eq_some {b : Book} {h id : String} {validated : Bool} :
    b.moved h validated = some id ↔ validated = true ∧ b.status id = some .executionPending ∧
      ∃ e, b.entry h = some e ∧ e.link = some id ∧ id ≠ "" := by
  unfold moved
  cases validated with
  | false => simp
  | true =>
    simp only [if_true, true_and]
    constructor
    · intro hm
      split at hm
      · rename_i id' hlink
        split at hm
        · rename_i hpending
          cases hm
          obtain ⟨e, he, htruthy⟩ := Option.bind_eq_some_iff.mp hlink
          obtain ⟨hsome, hne⟩ := truthy_eq_some.mp htruthy
          exact ⟨hpending, e, he, hsome, hne⟩
        · exact nomatch hm
      · exact nomatch hm
    · rintro ⟨hpending, e, he, hlink, hne⟩
      have hbind : ((b.entry h).bind fun e => truthy e.link) = some id := by
        rw [he]
        exact truthy_eq_some.mpr ⟨hlink, hne⟩
      rw [hbind]
      exact if_pos hpending

/-- After `apply` the entry of the hash has its old link and the new flag. -/
theorem apply_entry {b : Book} {h : String} {e : Entry} (he : b.entry h = some e)
    (validated success : Bool) :
    (b.apply h validated success).entry h = some ⟨e.link, validated⟩ := by
  unfold apply
  rw [he]
  dsimp only
  split
  · exact setEntry_entry_self ..
  · rw [setStatus_entry]
    exact setEntry_entry_self ..

/-- An answer changes the entry of its hash only. -/
theorem apply_entry_ne {b : Book} {h h' : String} (hne : h' ≠ h) (validated success : Bool) :
    (b.apply h validated success).entry h' = b.entry h' := by
  unfold apply
  split
  · rfl
  · split
    · exact setEntry_entry_ne b _ hne
    · rw [setStatus_entry]
      exact setEntry_entry_ne b _ hne

/-- `apply` changes a status only of the dispute it moves. -/
theorem apply_status {b : Book} {h : String} (validated success : Bool) (id : String) :
    (b.apply h validated success).status id =
      if b.moved h validated = some id then some (result success) else b.status id := by
  unfold apply
  split
  · rename_i hnone
    rw [if_neg]
    intro hm
    obtain ⟨-, -, e, he, -⟩ := moved_eq_some.mp hm
    rw [hnone] at he
    exact nomatch he
  · split
    · rename_i hm
      rw [hm, setEntry_status]
      rfl
    · rename_i id' hm
      rw [hm]
      by_cases hid : id = id'
      · subst hid
        rw [if_pos rfl, setStatus_status_self]
      · -- another dispute is moved
        have hne : ¬ some id' = some id := fun heq => hid (Option.some.inj heq).symm
        rw [if_neg hne, setStatus_status_ne _ _ hid, setEntry_status]

/-- Tracking moves no dispute. -/
@[simp] theorem track_status (b : Book) (h : String) (link : Option String) :
    (b.track h link).status = b.status := by
  unfold track
  split <;> rfl

/-- It changes the entry of its hash only. -/
theorem track_entry_ne (b : Book) {h h' : String} (link : Option String) (hne : h' ≠ h) :
    (b.track h link).entry h' = b.entry h' := by
  unfold track
  split <;> exact setEntry_entry_ne b _ hne

/-- The flag of a tracked hash; a hash that is not tracked counts as not validated. -/
def flag (b : Book) (h : String) : Bool :=
  (b.entry h).any Entry.validated

/-- It links the hash. -/
theorem track_entry_some (b : Book) (h id : String) :
    (b.track h (some id)).entry h = some ⟨some id, b.flag h⟩ := by
  unfold track flag
  split
  · rename_i hnone
    rw [hnone, setEntry_entry_self]
    rfl
  · rename_i e he
    rw [he, setEntry_entry_self]
    rfl

/-- Without a dispute the old link stays. -/
theorem track_entry_none (b : Book) (h : String) :
    (b.track h none).entry h = some ((b.entry h).getD ⟨none, false⟩) := by
  unfold track
  split
  · rename_i hnone
    rw [hnone, setEntry_entry_self]
    rfl
  · rename_i e he
    rw [he, setEntry_entry_self]
    rfl

/-- The flag of the hash after an execution: the ledger's word, or the old flag. -/
def executedFlag (b : Book) (h : String) (answer : Option (Bool × Bool)) : Bool :=
  match answer with
  | none => b.flag h
  | some (validated, _) => validated

/-- An execution links its hash. -/
theorem execute_entry (b : Book) (id h : String) (answer : Option (Bool × Bool)) :
    (b.execute id h answer).entry h = some ⟨some id, b.executedFlag h answer⟩ := by
  unfold execute
  rw [setStatus_entry]
  cases answer with
  | none => exact track_entry_some b h id
  | some a => exact apply_entry (track_entry_some b h id) _ _

/-- It changes the entry of its hash only. -/
theorem execute_entry_ne (b : Book) {h h' : String} (id : String) (hne : h' ≠ h)
    (answer : Option (Bool × Bool)) : (b.execute id h answer).entry h' = b.entry h' := by
  unfold execute
  rw [setStatus_entry]
  cases answer with
  | none => exact track_entry_ne b _ hne
  | some a =>
    dsimp only
    rw [apply_entry_ne hne]
    exact track_entry_ne b _ hne

/-- An execution changes only the status of its dispute. -/
theorem execute_status {b : Book} {id : String} (hid : b.status id = some .decided)
    (h : String) (answer : Option (Bool × Bool)) (id' : String) :
    (b.execute id h answer).status id' =
      if id' = id then some .executionPending else b.status id' := by
  unfold execute
  by_cases heq : id' = id
  · subst heq
    rw [if_pos rfl, setStatus_status_self]
  · rw [if_neg heq, setStatus_status_ne _ _ heq]
    cases answer with
    | none => exact congrFun (track_status b h (some id)) id'
    | some a =>
      dsimp only
      rw [apply_status, track_status, if_neg]
      -- The hash is linked to `id`, which is still only decided.
      intro hm
      obtain ⟨-, hpending, e, he, hlink, -⟩ := moved_eq_some.mp hm
      rw [track_entry_some, Option.some.injEq] at he
      subst he
      exact heq (Option.some.inj hlink).symm

/-- Only the link of an entry matters for what `apply` does. -/
theorem moved_setEntry {b : Book} {h : String} {e : Entry} (he : b.entry h = some e)
    (flag validated : Bool) :
    (b.setEntry h ⟨e.link, flag⟩).moved h validated = b.moved h validated := by
  unfold moved
  rw [setEntry_entry_self, he, setEntry_status]
  rfl

/-- The flag that an answer finds does not matter. -/
theorem apply_setEntry {b : Book} {h : String} {e : Entry} (he : b.entry h = some e)
    (flag validated success : Bool) :
    (b.setEntry h ⟨e.link, flag⟩).apply h validated success = b.apply h validated success := by
  have hset : (b.setEntry h ⟨e.link, flag⟩).setEntry h ⟨e.link, validated⟩ =
      b.setEntry h ⟨e.link, validated⟩ := by
    unfold setEntry
    rw [Function.update_idem]
  unfold apply
  rw [setEntry_entry_self, he, moved_setEntry he]
  dsimp only
  rw [hset]

/-- A hash that is linked to a decided dispute moves nothing. -/
theorem moved_track_decided {b : Book} {id : String} (hid : b.status id = some .decided)
    (h : String) (validated : Bool) : (b.track h (some id)).moved h validated = none := by
  rw [Option.eq_none_iff_forall_ne_some]
  intro id' hm
  obtain ⟨-, hpending, e, he, hlink, -⟩ := moved_eq_some.mp hm
  rw [track_entry_some, Option.some.injEq] at he
  subst he
  cases hlink
  rw [track_status, hid] at hpending
  exact nomatch hpending

/-! ## Sound books -/

/-- The dispute was resolved. -/
def Ended (b : Book) (id : String) : Prop :=
  b.status id = some .executed ∨ b.status id = some .rejected

/-- A dispute waits for its execution exactly as long as it has a linked transaction and none
    of them is validated; a link never points to a dispute that was not executed. -/
structure Sound (b : Book) : Prop where
  linked : ∀ h e id, b.entry h = some e → e.link = some id →
    b.status id = some .executionPending ∨ b.Ended id
  pending : ∀ id, b.status id = some .executionPending → ∃ h e, b.entry h = some e ∧ e.link = some id
  unvalidated : ∀ h e id, b.entry h = some e → e.link = some id →
    b.status id = some .executionPending → e.validated = false
  named : ∀ id, b.status id ≠ none → id ≠ ""

/-- An execution that keeps a sound book sound: the hash is not validated, neither by the
    ledger's word nor in the book, and no other dispute waits for it. -/
def Clean (b : Book) : Deed → Prop
  | .execute _ h answer => b.executedFlag h answer = false ∧
    ∀ e id, b.entry h = some e → e.link = some id → b.status id ≠ some .executionPending
  | _ => True

/-- The result of an answer is final. -/
theorem result_ended (success : Bool) :
    result success = .executed ∨ result success = .rejected := by
  cases success
  · exact .inr rfl
  · exact .inl rfl

/-- A dispute that is moved has ended. -/
theorem ended_of_moved {b : Book} {h id : String} {validated : Bool} (success : Bool)
    (hm : b.moved h validated = some id) : (b.apply h validated success).Ended id := by
  unfold Ended
  rw [apply_status, if_pos hm]
  rcases result_ended success with hr | hr
  · exact .inl (congrArg some hr)
  · exact .inr (congrArg some hr)

/-- An answer that moves nothing sets the flag. -/
theorem apply_of_moved_none {b : Book} {h : String} {e : Entry} (he : b.entry h = some e)
    {validated : Bool} (hm : b.moved h validated = none) (success : Bool) :
    b.apply h validated success = b.setEntry h ⟨e.link, validated⟩ := by
  unfold apply
  rw [he]
  dsimp only
  rw [hm]

/-- One that moves a dispute sets its status, too. -/
theorem apply_of_moved_some {b : Book} {h id : String} {e : Entry} (he : b.entry h = some e)
    {validated : Bool} (hm : b.moved h validated = some id) (success : Bool) :
    b.apply h validated success =
      (b.setEntry h ⟨e.link, validated⟩).setStatus id (result success) := by
  unfold apply
  rw [he]
  dsimp only
  rw [hm]

/-- An answer for an unknown hash changes nothing. -/
theorem apply_of_entry_none {b : Book} {h : String} (he : b.entry h = none)
    (validated success : Bool) : b.apply h validated success = b := by
  unfold apply
  rw [he]

/-- A status that `apply` does not change, or a dispute it ends. -/
theorem apply_status_cases (b : Book) (h : String) (validated success : Bool) (id : String) :
    (b.apply h validated success).status id = b.status id ∨
      (b.moved h validated = some id ∧ (b.apply h validated success).Ended id) := by
  by_cases hm : b.moved h validated = some id
  · exact .inr ⟨hm, ended_of_moved success hm⟩
  · left
    rw [apply_status, if_neg hm]

/-- A dispute that has ended does not wait. -/
theorem Ended.not_pending {b : Book} {id : String} (h : b.Ended id) :
    b.status id ≠ some .executionPending := by
  intro hp
  rcases h with h | h <;> rw [hp] at h <;> exact nomatch h

/-- A dispute that still waits after `apply` was not moved and waited before. -/
theorem pending_of_apply {b : Book} {h : String} {validated success : Bool} {id : String}
    (hp : (b.apply h validated success).status id = some .executionPending) :
    b.status id = some .executionPending ∧ b.moved h validated ≠ some id := by
  rcases apply_status_cases b h validated success id with hsame | ⟨-, hended⟩
  · refine ⟨hsame ▸ hp, fun hm => ?_⟩
    exact (ended_of_moved success hm).not_pending hp
  · exact absurd hp hended.not_pending

/-- An entry after `apply` has the link of an entry before, under the same hash. -/
theorem entry_of_apply {b : Book} {h h' : String} {validated success : Bool} {e : Entry}
    (he : (b.apply h validated success).entry h' = some e) :
    ∃ e', b.entry h' = some e' ∧ e.link = e'.link ∧
      (e.validated = e'.validated ∨ (h' = h ∧ e.validated = validated)) := by
  by_cases hh : h' = h
  · subst hh
    cases hb : b.entry h' with
    | none =>
      rw [apply_of_entry_none hb, hb] at he
      exact nomatch he
    | some e' =>
      rw [apply_entry hb, Option.some.injEq] at he
      subst he
      exact ⟨e', rfl, rfl, .inr ⟨rfl, rfl⟩⟩
  · rw [apply_entry_ne hh] at he
    exact ⟨e, he, rfl, .inl rfl⟩

/-- Answers keep the book sound. -/
theorem sound_apply {b : Book} (hb : b.Sound) (h : String) (validated success : Bool) :
    (b.apply h validated success).Sound where
  linked := by
    -- a link is left as it was, and its dispute ended or as before
    intro h' e id he hlink
    obtain ⟨e', he', hsame, -⟩ := entry_of_apply he
    rcases apply_status_cases b h validated success id with heq | ⟨-, hended⟩
    · unfold Ended
      rw [heq]
      exact hb.linked h' e' id he' (hsame ▸ hlink)
    · exact .inr hended
  -- what is still pending waits for the same transaction
  pending := by
    intro id hp
    obtain ⟨hp', -⟩ := pending_of_apply hp
    obtain ⟨h', e, he, hlink⟩ := hb.pending id hp'
    by_cases hh : h' = h
    · subst hh
      exact ⟨h', _, apply_entry he _ _, hlink⟩
    · exact ⟨h', e, by rw [apply_entry_ne hh, he], hlink⟩
  unvalidated := by
    intro h' e id he hlink hp
    obtain ⟨hp', hnot⟩ := pending_of_apply hp
    obtain ⟨e', he', hsame, hflag⟩ := entry_of_apply he
    have hlink' : e'.link = some id := hsame ▸ hlink
    rcases hflag with hflag | ⟨rfl, hflag⟩
    · rw [hflag]
      exact hb.unvalidated h' e' id he' hlink' hp'
    · -- A validated word would have moved the dispute.
      rw [hflag]
      by_contra hv
      have hne : id ≠ "" := hb.named id (by rw [hp']; exact nofun)
      exact hnot (moved_eq_some.mpr ⟨by simpa using hv, hp', e', he', hlink', hne⟩)
  -- no new dispute gets a status
  named := by
    intro id hs
    rcases apply_status_cases b h validated success id with heq | ⟨hm, -⟩
    · exact hb.named id (heq ▸ hs)
    · obtain ⟨-, hp, -⟩ := moved_eq_some.mp hm
      exact hb.named id (by rw [hp]; exact nofun)

/-- Tracking without a link adds at most an entry without a link. -/
theorem sound_track {b : Book} (hb : b.Sound) (h : String) : (b.track h none).Sound := by
  -- a linked entry of the new book was there before: tracking adds entries without a link
  have hentry : ∀ h' e id, (b.track h none).entry h' = some e → e.link = some id →
      b.entry h' = some e := by
    intro h' e id he hlink
    by_cases hh : h' = h
    · subst hh
      rw [track_entry_none, Option.some.injEq] at he
      cases hb' : b.entry h' with
      | none =>
        rw [hb'] at he
        rw [← he] at hlink
        exact nomatch hlink
      | some e' =>
        rw [hb'] at he
        exact congrArg some he
    · rwa [track_entry_ne b _ hh] at he
  refine ⟨?_, ?_, ?_, ?_⟩
  · intro h' e id he hlink
    unfold Ended
    rw [track_status]
    exact hb.linked h' e id (hentry h' e id he hlink) hlink
  · intro id hp
    rw [track_status] at hp
    obtain ⟨h', e, he, hlink⟩ := hb.pending id hp
    refine ⟨h', e, ?_, hlink⟩
    by_cases hh : h' = h
    · subst hh
      rw [track_entry_none, he]
      rfl
    · rw [track_entry_ne b _ hh, he]
  · intro h' e id he hlink hp
    rw [track_status] at hp
    exact hb.unvalidated h' e id (hentry h' e id he hlink) hlink hp
  · intro id hs
    rw [track_status] at hs
    exact hb.named id hs

/-- A dispute that was never executed has no link. -/
theorem Sound.unlinked {b : Book} (hb : b.Sound) {id : String} {s : DisputeStatus}
    (hs : b.status id = some s) (hrank : s = .filed ∨ s = .underReview ∨ s = .decided) :
    ∀ h e, b.entry h = some e → e.link ≠ some id := by
  intro h e he hlink
  have hcase := hb.linked h e id he hlink
  unfold Ended at hcase
  rw [hs] at hcase
  rcases hrank with rfl | rfl | rfl <;> simp at hcase

/-- So do decisions. -/
theorem sound_decide {b : Book} (hb : b.Sound) {id : String}
    (hs : (b.status id).any DisputeStatus.awaitsDecision = true) :
    (b.setStatus id .decided).Sound := by
  obtain ⟨s, hstatus, hawaits⟩ := (Option.any_eq_true _ _).mp hs
  have hrank : s = .filed ∨ s = .underReview ∨ s = .decided := by
    cases s <;> simp_all [DisputeStatus.awaitsDecision]
  -- a dispute that awaits its decision has no linked entry, so only `named` is about it
  have hunlinked := hb.unlinked hstatus hrank
  have hother : ∀ {id'}, id' ≠ id → (b.setStatus id .decided).status id' = b.status id' :=
    fun hne => setStatus_status_ne b _ hne
  have hpending : ∀ id', (b.setStatus id .decided).status id' = some .executionPending →
      b.status id' = some .executionPending := by
    intro id' hp
    by_cases hid : id' = id
    · subst hid
      rw [setStatus_status_self] at hp
      exact nomatch hp
    · rwa [hother hid] at hp
  refine ⟨?_, ?_, ?_, ?_⟩
  · intro h e id' he hlink
    have hne : id' ≠ id := fun heq => hunlinked h e he (heq ▸ hlink)
    unfold Ended
    rw [hother hne]
    exact hb.linked h e id' he hlink
  · intro id' hp
    exact hb.pending id' (hpending id' hp)
  · intro h e id' he hlink hp
    exact hb.unvalidated h e id' he hlink (hpending id' hp)
  · intro id' hs'
    by_cases hid : id' = id
    · subst hid
      exact hb.named id' (by rw [hstatus]; exact nofun)
    · exact hb.named id' (hother hid ▸ hs')

/-- So does an execution whose hash is free. -/
theorem sound_execute {b : Book} (hb : b.Sound) {id h : String}
    {answer : Option (Bool × Bool)} (hid : b.status id = some .decided)
    (hflag : b.executedFlag h answer = false)
    (hfree : ∀ e id', b.entry h = some e → e.link = some id' →
      b.status id' ≠ some .executionPending) : (b.execute id h answer).Sound := by
  -- the dispute was not linked before its execution
  have hunlinked := hb.unlinked hid (.inr (.inr rfl))
  have hself : (b.execute id h answer).status id = some .executionPending := by
    rw [execute_status hid, if_pos rfl]
  have hother : ∀ {id'}, id' ≠ id → (b.execute id h answer).status id' = b.status id' := by
    intro id' hne
    rw [execute_status hid, if_neg hne]
  refine ⟨?_, ?_, ?_, ?_⟩
  -- a link of another hash is a link of before
  · intro h' e id' he hlink
    by_cases hh : h' = h
    · subst hh
      rw [execute_entry, Option.some.injEq] at he
      subst he
      cases hlink
      exact .inl hself
    · rw [execute_entry_ne b _ hh] at he
      have hne : id' ≠ id := fun heq => hunlinked h' e he (heq ▸ hlink)
      unfold Ended
      rw [hother hne]
      exact hb.linked h' e id' he hlink
  · intro id' hp
    by_cases hne : id' = id
    · exact ⟨h, _, execute_entry b id h answer, congrArg some hne.symm⟩
    · -- The transaction another dispute waits for is not the one that is linked now.
      rw [hother hne] at hp
      obtain ⟨h', e, he, hlink⟩ := hb.pending id' hp
      have hh : h' ≠ h := by
        rintro rfl
        exact hfree e id' he hlink hp
      exact ⟨h', e, by rw [execute_entry_ne b _ hh, he], hlink⟩
  -- the flag of the new link is that of its answer
  · intro h' e id' he hlink hp
    by_cases hh : h' = h
    · subst hh
      rw [execute_entry, Option.some.injEq] at he
      subst he
      exact hflag
    · rw [execute_entry_ne b _ hh] at he
      have hne : id' ≠ id := fun heq => hunlinked h' e he (heq ▸ hlink)
      rw [hother hne] at hp
      exact hb.unvalidated h' e id' he hlink hp
  · intro id' hs
    by_cases hne : id' = id
    · subst hne
      exact hb.named id' (by rw [hid]; exact nofun)
    · exact hb.named id' (hother hne ▸ hs)

/-- Every clean deed keeps the book sound. -/
theorem sound_step {b : Book} (hb : b.Sound) {d : Deed} (hd : b.Clean d) : (b.step d).Sound := by
  -- one case for each deed; two of them depend on the status
  cases d with
  | decide id =>
    simp only [step]
    split
    · rename_i hs
      exact sound_decide hb hs
    · exact hb
  | track h => exact sound_track hb h
  | apply h validated success => exact sound_apply hb h validated success
  | execute id h answer =>
    simp only [step]
    split
    · rename_i hid
      exact sound_execute hb hid hd.1 hd.2
    · exact hb

/-! ## Settled transactions -/

/-- The transaction is linked to a dispute that was resolved. -/
def Settled (b : Book) (h id : String) : Prop :=
  (∃ e, b.entry h = some e ∧ e.link = some id) ∧ b.Ended id

/-- An execution does not name a transaction that is linked to a resolved dispute. -/
def Unused (b : Book) : Deed → Prop
  | .execute _ h _ => ∀ e id, b.entry h = some e → e.link = some id → ¬ b.Ended id
  | _ => True

/-- A hash settles one dispute. -/
theorem Settled.unique {b : Book} {h id id' : String} (hs : b.Settled h id)
    (hs' : b.Settled h id') : id = id' := by
  obtain ⟨⟨e, he, hlink⟩, -⟩ := hs
  obtain ⟨⟨e', he', hlink'⟩, -⟩ := hs'
  rw [he, Option.some.injEq] at he'
  subst he'
  rw [hlink, Option.some.injEq] at hlink'
  exact hlink'

/-- A dispute that has ended stays so. -/
theorem Ended.step {b : Book} {id : String} (h : b.Ended id) (d : Deed) : (b.step d).Ended id := by
  have hsame : ∀ b' : Book, b'.status id = b.status id → b'.Ended id := by
    intro b' heq
    unfold Ended
    rw [heq]
    exact h
  -- decisions and executions are taken on other statuses
  have hnot : ∀ s, b.status id = some s → s = .executed ∨ s = .rejected := by
    intro s hs
    rcases h with h | h <;> rw [hs, Option.some.injEq] at h <;> simp [h]
  cases d with
  | decide id' =>
    simp only [Book.step]
    split
    · rename_i hs
      apply hsame
      rw [setStatus_status_ne]
      rintro rfl
      obtain ⟨s, hstatus, hawaits⟩ := (Option.any_eq_true _ _).mp hs
      rcases hnot s hstatus with rfl | rfl <;> exact nomatch hawaits
    · exact h
  | track h' => exact hsame _ (congrFun (track_status b h' none) id)
  | apply h' validated success =>
    rcases apply_status_cases b h' validated success id with heq | ⟨-, hended⟩
    · exact hsame _ heq
    · exact hended
  | execute id' h' answer =>
    simp only [Book.step]
    split
    · rename_i hid
      apply hsame
      rw [execute_status hid, if_neg]
      rintro rfl
      rcases hnot _ hid with heq | heq <;> exact nomatch heq
    · exact h

/-- A link changes only when an execution names its hash. -/
theorem link_step {b : Book} {h : String} {e : Entry} (he : b.entry h = some e) {d : Deed}
    (hd : ∀ id answer, d ≠ .execute id h answer) :
    ∃ e', (b.step d).entry h = some e' ∧ e'.link = e.link := by
  -- a deed keeps the link of every hash it does not execute with
  cases d with
  | decide id =>
    simp only [step]
    split <;> exact ⟨e, he, rfl⟩
  | track h' =>
    by_cases hh : h = h'
    · subst hh
      refine ⟨e, ?_, rfl⟩
      show (b.track h none).entry h = some e
      rw [track_entry_none, he]
      rfl
    · exact ⟨e, (track_entry_ne b none hh).trans he, rfl⟩
  | apply h' validated success =>
    by_cases hh : h = h'
    · subst hh
      exact ⟨_, apply_entry he validated success, rfl⟩
    · exact ⟨e, (apply_entry_ne hh validated success).trans he, rfl⟩
  | execute id h' answer =>
    have hh : h ≠ h' := by
      rintro rfl
      exact hd id answer rfl
    simp only [step]
    split
    · exact ⟨e, (execute_entry_ne b id hh answer).trans he, rfl⟩
    · exact ⟨e, he, rfl⟩

/-- A settled transaction stays settled unless an execution names it. -/
theorem Settled.step {b : Book} {h id : String} (hs : b.Settled h id) {d : Deed}
    (hd : b.Unused d) : (b.step d).Settled h id := by
  obtain ⟨⟨e, he, hlink⟩, hended⟩ := hs
  have hnot : ∀ id' answer, d ≠ .execute id' h answer := by
    rintro id' answer rfl
    exact hd e id he hlink hended
  obtain ⟨e', he', hlink'⟩ := link_step he hnot
  exact ⟨⟨e', he', hlink'.trans hlink⟩, hended.step d⟩

/-- A transaction that resolves a dispute is settled by that. -/
theorem settled_of_resolution {b : Book} {d : Deed} {h id : String}
    (hr : (h, id) ∈ b.resolution d) : (b.step d).Settled h id := by
  cases d with
  | apply h' validated success =>
    obtain ⟨id', hid', heq⟩ := List.mem_map.mp hr
    rw [Prod.mk.injEq] at heq
    obtain ⟨rfl, rfl⟩ := heq
    have hm : b.moved h' validated = some id' := Option.mem_toList.mp hid'
    obtain ⟨-, -, e, he, hlink, -⟩ := moved_eq_some.mp hm
    exact ⟨⟨_, apply_entry he validated success, hlink⟩, ended_of_moved success hm⟩
  | decide id' => exact nomatch hr
  | track h' => exact nomatch hr
  | execute id' h' answer => exact nomatch hr

/-! ## Sequences -/

/-- Every deed but an execution. -/
def Plain (ds : List Deed) : Prop :=
  ∀ d ∈ ds, ∀ id h answer, d ≠ .execute id h answer

/-- Plain deeds one after the other are plain. -/
theorem Plain.append {ds ds' : List Deed} (h : Plain ds) (h' : Plain ds') : Plain (ds ++ ds') := by
  intro d hd
  rcases List.mem_append.mp hd with hd | hd
  · exact h d hd
  · exact h' d hd

theorem plain_nil : Plain [] :=
  fun _ hd => nomatch hd

/-- A deed that is no execution is plain. -/
theorem plain_singleton {d : Deed} (h : ∀ id h answer, d ≠ .execute id h answer) : Plain [d] := by
  intro d' hd'
  rw [List.mem_singleton.mp hd']
  exact h

/-- A plain deed is clean, whatever the book. -/
theorem Plain.head {d : Deed} {ds : List Deed} (h : Plain (d :: ds)) (b : Book) :
    b.Clean d ∧ b.Unused d := by
  cases d with
  | execute id h' answer => exact absurd rfl (h _ List.mem_cons_self id h' answer)
  | decide id => exact ⟨trivial, trivial⟩
  | track h' => exact ⟨trivial, trivial⟩
  | apply h' validated success => exact ⟨trivial, trivial⟩

/-- The rest of plain deeds is plain. -/
theorem Plain.tail {d : Deed} {ds : List Deed} (h : Plain (d :: ds)) : Plain ds :=
  fun d' hd' => h d' (List.mem_cons_of_mem _ hd')

/-- Plain deeds keep the book sound. -/
theorem sound_run {b : Book} (hb : b.Sound) {ds : List Deed} (hds : Plain ds) :
    (b.run ds).Sound := by
  induction ds generalizing b with
  | nil => exact hb
  | cons d ds ih => exact ih (sound_step hb (hds.head b).1) hds.tail

/-- What is settled stays settled. -/
theorem Settled.run {b : Book} {h id : String} (hs : b.Settled h id) {ds : List Deed}
    (hds : Plain ds) : (b.run ds).Settled h id := by
  induction ds generalizing b with
  | nil => exact hs
  | cons d ds ih => exact ih (hs.step (hds.head b).2) hds.tail

/-- Plain deeds keep every link. -/
theorem link_run {b : Book} {h : String} {e : Entry} (he : b.entry h = some e) {ds : List Deed}
    (hds : Plain ds) : ∃ e', (b.run ds).entry h = some e' ∧ e'.link = e.link := by
  induction ds generalizing b e with
  | nil => exact ⟨e, he, rfl⟩
  | cons d ds ih =>
    obtain ⟨e', he', hlink⟩ :=
      link_step he fun id answer => hds d List.mem_cons_self id h answer
    obtain ⟨e'', he'', hlink'⟩ := ih he' hds.tail
    exact ⟨e'', he'', hlink'.trans hlink⟩

/-- Whatever is resolved along a plain sequence is settled at its end. -/
theorem settled_of_resolutions {b : Book} {ds : List Deed} (hds : Plain ds) {h id : String}
    (hr : (h, id) ∈ b.resolutions ds) : (b.run ds).Settled h id := by
  induction ds generalizing b with
  | nil => exact nomatch hr
  | cons d ds ih =>
    rcases List.mem_append.mp hr with hr | hr
    · exact (settled_of_resolution hr).run hds.tail
    · exact ih hds.tail hr

end Book

end Bluesafe.Ops
