import Bluesafe.Spec.Book
import Bluesafe.Spec.RowInvariant

/-!
# The backend keeps the book

With requests handled one after the other, every request changes the book of
`Spec/Book` by a list of deeds, and every dispute it resolves is a resolution of one of
these deeds. `Does p R` states this for a program: it is `wp` over the sequential
semantics, with the deeds as a ghost result, and its rules follow those of `wp`.
-/

namespace Bluesafe.Ops

open Async

variable {α β : Type}

/-! ## The book of a store -/

/-- The entry of a tracked transaction. -/
def XrplTransaction.asEntry (row : XrplTransaction) : Entry := ⟨row.disputeId, row.validated⟩

/-- The book a store keeps. -/
def Store.book (s : Store) : Book where
  entry := fun h => (s.xrplTxs.get? h).map XrplTransaction.asEntry
  status := fun id => (s.disputes.get? id).map DisputeCase.status

/-- A row that is saved replaces its entry of the book. -/
theorem book_setRow (s : Store) (row : XrplTransaction) :
    ({ s with xrplTxs := s.xrplTxs.set row } : Store).book =
      s.book.setEntry row.txHash row.asEntry := by
  unfold Store.book Book.setEntry
  congr 1
  funext h
  dsimp only
  rw [Table.get?_set, Function.update_apply]
  split <;> rfl

/-- A dispute that is saved sets its status in the book. -/
theorem book_setDispute (s : Store) (d : DisputeCase) :
    ({ s with disputes := s.disputes.set d } : Store).book = s.book.setStatus d.id d.status := by
  unfold Store.book Book.setStatus
  congr 1
  funext id
  dsimp only
  rw [Table.get?_set, Function.update_apply]
  split <;> rfl

/-- A write that keeps the entry keeps the book. -/
theorem Book.setEntry_eq_self {b : Book} {h : String} {e : Entry} (he : b.entry h = some e) :
    b.setEntry h e = b := by
  unfold Book.setEntry
  rw [← he, Function.update_eq_self]

/-! ## Resolutions in a log -/

/-- The request has resolved the dispute `id` because of the transaction `h`: it saved the
    row, read the dispute, read the clock and saved the dispute, in this order. -/
def MovedBy (l : OpsLog) (h id : String) : Prop :=
  ∃ (d : DisputeCase) (row : XrplTransaction) (t : Time) (found : Option DisputeCase)
    (rest : OpsLog),
    (⟨.saveDispute d, .ok ()⟩ :: ⟨.clock, .ok t⟩ :: ⟨.getDispute id, .ok found⟩ ::
      ⟨.saveXrplTx row, .ok ()⟩ :: rest) <:+ l ∧ row.txHash = h ∧ d.id = id ∧
    (d.status = .executed ∨ d.status = .rejected)

/-- No deed moves nothing. -/
theorem not_movedBy_nil {h id : String} : ¬ MovedBy [] h id := by
  rintro ⟨d, row, t, found, rest, hs, -⟩
  exact nomatch List.suffix_nil.mp hs

/-- Only the save of a resolved dispute adds a resolution. -/
theorem movedBy_cons {ev : Event calls String} {l : OpsLog} {h id : String}
    (hev : ∀ d, ev.op = .saveDispute d → d.status ≠ .executed ∧ d.status ≠ .rejected)
    (hm : MovedBy (ev :: l) h id) : MovedBy l h id := by
  obtain ⟨d, row, t, found, rest, hs, hhash, hid, hstatus⟩ := hm
  rcases List.suffix_cons_iff.mp hs with heq | hs
  · rw [List.cons.injEq] at heq
    obtain ⟨hne, hnr⟩ := hev d (congrArg Event.op heq.1).symm
    rcases hstatus with h | h
    · exact absurd h hne
    · exact absurd h hnr
  · exact ⟨d, row, t, found, rest, hs, hhash, hid, hstatus⟩

/-! ## Programs and their deeds -/

/-- From `(l, s)` to `(l', s')` the deeds `ds` happened. -/
structure Refines (l : OpsLog) (s : Store) (l' : OpsLog) (s' : Store) (ds : List Deed) : Prop where
  grows : l <:+ l'
  book : s'.book = s.book.run ds
  moved : ∀ h id, MovedBy l' h id → MovedBy l h id ∨ (h, id) ∈ s.book.resolutions ds

theorem Refines.refl (l : OpsLog) (s : Store) : Refines l s l s [] :=
  ⟨List.suffix_refl l, rfl, fun _ _ h => .inl h⟩

/-- The deeds of two parts, one after the other. -/
theorem Refines.trans {l l' l'' : OpsLog} {s s' s'' : Store} {ds ds' : List Deed}
    (h : Refines l s l' s' ds) (h' : Refines l' s' l'' s'' ds') :
    Refines l s l'' s'' (ds ++ ds') := by
  refine ⟨h.grows.trans h'.grows, ?_, ?_⟩
  · rw [Book.run_append, ← h.book]
    exact h'.book
  · intro hash id hm
    rw [Book.resolutions_append, List.mem_append]
    rcases h'.moved hash id hm with hm | hm
    · rcases h.moved hash id hm with hm | hm
      · exact .inl hm
      · exact .inr (.inl hm)
    · rw [h.book] at hm
      exact .inr (.inr hm)

/-- A second part without deeds. -/
theorem Refines.trans_nil {l l' l'' : OpsLog} {s s' s'' : Store} {ds : List Deed}
    (h : Refines l s l' s' ds) (h' : Refines l' s' l'' s'' []) : Refines l s l'' s'' ds :=
  List.append_nil ds ▸ h.trans h'

/-- A call that changes neither the book nor the resolutions. -/
theorem Refines.call {l : OpsLog} {s s' : Store} {ev : Event calls String}
    (hev : ∀ d, ev.op = .saveDispute d → d.status ≠ .executed ∧ d.status ≠ .rejected)
    (hbook : s'.book = s.book) : Refines l s (ev :: l) s' [] :=
  ⟨List.suffix_cons _ _, hbook, fun _ _ hm => .inl (movedBy_cons hev hm)⟩

/-- Every run of `p` from `(l, s)`, alone and with a repository that answers, does some deeds
    `ds` and ends with `R` of its result, the deeds, the log and the store. -/
def Does (p : OpsM α) (R : Except String α → List Deed → OpsLog → Store → Prop) (l : OpsLog)
    (s : Store) : Prop :=
  wp (seqSpec reliable) p (fun a g => ∃ ds, Refines l s g.1 g.2 ds ∧ R (.ok a) ds g.1 g.2)
    (fun e g => ∃ ds, Refines l s g.1 g.2 ds ∧ R (.error e) ds g.1 g.2) (l, s)

namespace Does

variable {l : OpsLog} {s : Store} {p : OpsM α}
  {R R' : Except String α → List Deed → OpsLog → Store → Prop}

/-- What is said of the deeds may be weakened. -/
theorem mono (h : Does p R l s)
    (hR : ∀ r ds l' s', Refines l s l' s' ds → R r ds l' s' → R' r ds l' s') :
    Does p R' l s := by
  refine wp_mono _ _ (seqSpec_mono reliable) ?_ ?_ h
  · rintro a g ⟨ds, href, hr⟩
    exact ⟨ds, href, hR _ _ _ _ href hr⟩
  · rintro e g ⟨ds, href, hr⟩
    exact ⟨ds, href, hR _ _ _ _ href hr⟩

/-- A value does nothing. -/
theorem pure {a : α} (h : R (.ok a) [] l s) : Does (Pure.pure a) R l s :=
  ⟨[], Refines.refl l s, h⟩

/-- Nor does an error. -/
theorem throw {e : String} (h : R (.error e) [] l s) : Does (MonadExcept.throw e) R l s :=
  ⟨[], Refines.refl l s, h⟩

/-- Continue after a part of the program that has done `ds`. -/
theorem after {l₀ : OpsLog} {s₀ : Store} {ds : List Deed} (href : Refines l₀ s₀ l s ds)
    (h : Does p (fun r ds' => R r (ds ++ ds')) l s) :
    wp (seqSpec reliable) p (fun a g => ∃ ds, Refines l₀ s₀ g.1 g.2 ds ∧ R (.ok a) ds g.1 g.2)
      (fun e g => ∃ ds, Refines l₀ s₀ g.1 g.2 ds ∧ R (.error e) ds g.1 g.2) (l, s) := by
  refine wp_mono _ _ (seqSpec_mono reliable) ?_ ?_ h
  · rintro a g ⟨ds', href', hr⟩
    exact ⟨ds ++ ds', href.trans href', hr⟩
  · rintro e g ⟨ds', href', hr⟩
    exact ⟨ds ++ ds', href.trans href', hr⟩

/-- The deeds of two programs come one after the other. -/
theorem bind {f : α → OpsM β} {R₂ : Except String β → List Deed → OpsLog → Store → Prop}
    (hp : Does p R l s)
    (hf : ∀ a ds l' s', Refines l s l' s' ds → R (.ok a) ds l' s' →
      Does (f a) (fun r ds' => R₂ r (ds ++ ds')) l' s')
    (he : ∀ e ds l' s', Refines l s l' s' ds → R (.error e) ds l' s' → R₂ (.error e) ds l' s') :
    Does (p >>= f) R₂ l s := by
  unfold Does
  rw [wp_bind]
  refine wp_mono _ _ (seqSpec_mono reliable) ?_ ?_ hp
  · rintro a ⟨l', s'⟩ ⟨ds, href, hr⟩
    exact after href (hf a ds l' s' href hr)
  · rintro e ⟨l', s'⟩ ⟨ds, href, hr⟩
    exact ⟨ds, href, he e ds l' s' href hr⟩

/-- The result is of no account. -/
theorem map {f : α → β} {R₂ : Except String β → List Deed → OpsLog → Store → Prop}
    (hp : Does p R l s)
    (hok : ∀ a ds l' s', R (.ok a) ds l' s' → R₂ (.ok (f a)) ds l' s')
    (he : ∀ e ds l' s', R (.error e) ds l' s' → R₂ (.error e) ds l' s') :
    Does (f <$> p) R₂ l s := by
  unfold Does
  rw [wp_map]
  refine wp_mono _ _ (seqSpec_mono reliable) ?_ ?_ hp
  · rintro a g ⟨ds, href, hr⟩
    exact ⟨ds, href, hok _ _ _ _ hr⟩
  · rintro e g ⟨ds, href, hr⟩
    exact ⟨ds, href, he _ _ _ _ hr⟩

/-- A program and its handler, both of plain deeds. -/
theorem tryCatch {h : String → OpsM α} (hp : Does p R l s)
    (hok : ∀ a ds l' s', R (.ok a) ds l' s' → R' (.ok a) ds l' s')
    (hh : ∀ e ds l' s', Refines l s l' s' ds → R (.error e) ds l' s' →
      Does (h e) (fun r ds' => R' r (ds ++ ds')) l' s') :
    Does (MonadExcept.tryCatch p h) R' l s := by
  unfold Does
  rw [wp_tryCatch]
  refine wp_mono _ _ (seqSpec_mono reliable) ?_ ?_ hp
  · rintro a g ⟨ds, href, hr⟩
    exact ⟨ds, href, hok _ _ _ _ hr⟩
  · rintro e ⟨l', s'⟩ ⟨ds, href, hr⟩
    exact after href (hh e ds l' s' href hr)

end Does

/-! ## Calls -/

section Calls

variable {l : OpsLog} {s : Store} {op : Call}

/-- Only the ledger may fail here. -/
theorem failure_none (hop : op.isLedger = false) {c : Choice}
    (hallow : reliable.allow op c s = true) : c.failure = none := by
  have hand : ((c.failure.isNone || op.isLedger) && _) = true := hallow
  rw [Bool.and_eq_true, hop, Bool.or_false, Option.isNone_iff_eq_none] at hand
  exact hand.1

/-- A repository call is answered. -/
theorem wp_invoke (hop : op.isLedger = false) {Q : op.Res → OpsLog × Store → Prop}
    {E : String → OpsLog × Store → Prop}
    (h : ∀ c, Q (perform op c s).1 (⟨op, .ok (perform op c s).1⟩ :: l, (perform op c s).2)) :
    wp (seqSpec reliable) (invoke op) Q E (l, s) := by
  intro c hallow
  have hserve : reliable.serve op c s = (.ok (perform op c s).1, (perform op c s).2) :=
    serve_performed (failure_none hop hallow)
  show post _ _ (reliable.serve op c s).1 _
  rw [hserve]
  exact h c

/-- A ledger call is answered or rejected, and leaves the store alone. -/
theorem wp_ledger (hop : op.isLedger = true) {Q : op.Res → OpsLog × Store → Prop}
    {E : String → OpsLog × Store → Prop}
    (hok : ∀ a, Q a (⟨op, .ok a⟩ :: l, s)) (he : ∀ e, E e (⟨op, .error e⟩ :: l, s)) :
    wp (seqSpec reliable) (invoke op) Q E (l, s) := by
  intro c hallow
  have hsame : (perform op c s).2 = s := by
    cases op <;> first | rfl | exact nomatch hop
  have hstore : (serve op c s).2 = s := by
    rcases serve_state op c s with heq | heq <;> rw [heq]
    exact hsame
  show post _ _ (serve op c s).1 (⟨op, (serve op c s).1⟩ :: l, (serve op c s).2)
  rw [hstore]
  cases (serve op c s).1 with
  | ok a => exact hok a
  | error e => exact he e

end Calls

/-- The two tables of the book are the same. -/
structure Same (s s' : Store) : Prop where
  xrplTxs : s'.xrplTxs = s.xrplTxs
  disputes : s'.disputes = s.disputes

theorem Same.refl (s : Store) : Same s s := ⟨rfl, rfl⟩

theorem Same.trans {s s' s'' : Store} (h : Same s s') (h' : Same s' s'') : Same s s'' :=
  ⟨h'.xrplTxs.trans h.xrplTxs, h'.disputes.trans h.disputes⟩

/-- A store with the same rows and disputes has the same book. -/
theorem Same.book {s s' : Store} (h : Same s s') : s'.book = s.book := by
  unfold Store.book
  rw [h.xrplTxs, h.disputes]

/-- A quiet call changes neither rows nor disputes. -/
theorem same_perform {op : Call} (hop : op.isQuiet = true) (c : Choice) (s : Store) :
    Same s (perform op c s).2 := by
  have hframe := framed_perform op c s
  refine ⟨?_, ?_⟩
  · rcases hframe.xrplTxs with h | ⟨x, rfl, -⟩
    · exact h
    · exact nomatch hop
  · rcases hframe.disputes with h | ⟨x, rfl, -⟩
    · exact h
    · exact nomatch hop

/-- A quiet call does not go to the ledger. -/
theorem not_ledger_of_quiet {op : Call} (hop : op.isQuiet = true) : op.isLedger = false := by
  cases op <;> first | rfl | exact nomatch hop

/-- A quiet call resolves no dispute. -/
theorem not_resolving_of_quiet {op : Call} (hop : op.isQuiet = true) {d : DisputeCase} :
    op = .saveDispute d → d.status ≠ .executed ∧ d.status ≠ .rejected := by
  rintro rfl
  exact nomatch hop

/-- What a quiet program leaves: the tables are the same and the new calls are quiet. -/
def Silent (l : OpsLog) (s : Store) (ds : List Deed) (l' : OpsLog) (s' : Store) : Prop :=
  ds = [] ∧ Same s s' ∧ ∀ ev ∈ l', ev ∈ l ∨ ev.op.isQuiet = true

/-- A quiet call in front of a silent part. -/
theorem Silent.cons {l l' : OpsLog} {s s₁ s' : Store} {ds : List Deed} {ev : Event calls String}
    (h : Silent (ev :: l) s₁ ds l' s') (hev : ev.op.isQuiet = true) (hsame : Same s s₁) :
    Silent l s ds l' s' := by
  obtain ⟨hds, hsame', hquiet⟩ := h
  refine ⟨hds, hsame.trans hsame', fun ev' hmem => ?_⟩
  rcases hquiet ev' hmem with hold | hnew
  · rcases List.mem_cons.mp hold with rfl | hold
    · exact .inr hev
    · exact .inl hold
  · exact .inr hnew

namespace Does

variable {l : OpsLog} {s : Store} {op : Call} {f : op.Res → OpsM β}
  {R : Except String β → List Deed → OpsLog → Store → Prop}

/-- A call that leaves the book as it is, and what follows it. -/
theorem call_bind (hop : op.isLedger = false)
    (hev : ∀ d, op = .saveDispute d → d.status ≠ .executed ∧ d.status ≠ .rejected)
    (hbook : ∀ c, (perform op c s).2.book = s.book)
    (h : ∀ c, Does (f (perform op c s).1) R (⟨op, .ok (perform op c s).1⟩ :: l) (perform op c s).2) :
    Does (invoke op >>= f) R l s := by
  unfold Does
  rw [wp_bind]
  refine wp_invoke hop fun c => ?_
  exact after (Refines.call hev (hbook c)) (h c)

/-- A quiet call and what follows it. -/
theorem quiet_bind (hop : op.isQuiet = true)
    (h : ∀ c, Does (f (perform op c s).1) R (⟨op, .ok (perform op c s).1⟩ :: l) (perform op c s).2) :
    Does (invoke op >>= f) R l s :=
  call_bind (not_ledger_of_quiet hop) (fun _ => not_resolving_of_quiet hop)
    (fun c => (same_perform hop c s).book) h

/-- A ledger call and what follows it. -/
theorem ledger_bind (hop : op.isLedger = true)
    (h : ∀ a, Does (f a) R (⟨op, .ok a⟩ :: l) s)
    (he : ∀ e, R (.error e) [] (⟨op, .error e⟩ :: l) s) : Does (invoke op >>= f) R l s := by
  have hnot : ∀ d, op = .saveDispute d → d.status ≠ .executed ∧ d.status ≠ .rejected := by
    rintro d rfl
    exact nomatch hop
  unfold Does
  rw [wp_bind]
  refine wp_ledger hop (fun a => ?_) (fun e => ?_)
  · exact after (Refines.call hnot rfl) (h a)
  · exact ⟨[], Refines.call hnot rfl, he e⟩

end Does

/-! ## Recording -/

/-- The call specification in which quiet calls, and no others, are answered. -/
def answering : CallSpec calls String Unit :=
  fun op K _ g => op.isQuiet = true ∧ ∀ a, K a g

/-- The answers of the repository respect weakening. -/
theorem answering_mono : CallSpec.Mono answering :=
  fun _ _ _ _ _ _ hK _ h => ⟨h.1, fun a => hK a _ (h.2 a)⟩

/-- The program makes quiet calls only and, when they are answered, returns. -/
def Calm (p : OpsM α) : Prop :=
  wp answering p (fun _ _ => True) (fun _ _ => False) ()

namespace Calm

variable {p : OpsM α}

/-- A value is calm. -/
theorem pure (a : α) : Calm (Pure.pure a) := trivial

/-- So is a quiet call. -/
theorem call {op : Call} (hop : op.isQuiet = true) : Calm (invoke op) := ⟨hop, fun _ => trivial⟩

/-- Two calm programs are calm. -/
theorem bind {f : α → OpsM β} (hp : Calm p) (hf : ∀ a, Calm (f a)) : Calm (p >>= f) := by
  unfold Calm
  rw [wp_bind]
  exact wp_mono _ _ answering_mono (fun a _ _ => hf a) (fun _ _ h => h) hp

/-- And so is a loop of them. -/
theorem forM {xs : List α} {f : α → OpsM PUnit} (hf : ∀ x ∈ xs, Calm (f x)) :
    Calm (ForM.forM xs f) := by
  induction xs with
  | nil => exact pure ()
  | cons x xs ih =>
    rw [List.forM_cons]
    refine bind (hf x List.mem_cons_self) fun _ => ?_
    exact ih fun y hy => hf y (List.mem_cons_of_mem _ hy)

/-- An audit entry is quiet. -/
theorem writeAudit (entityType entityId action actor : String)
    (before after metadata : Option JsonObject) :
    Calm (writeAudit entityType entityId action actor before after metadata) :=
  bind (call rfl) fun _ => bind (call rfl) fun _ => call rfl

/-- An event is quiet. -/
theorem emitEvent (eventType entityType entityId : String) (payload : JsonObject) :
    Calm (emitEvent eventType entityType entityId payload) :=
  bind (call rfl) fun _ => bind (call rfl) fun _ => bind (call rfl) fun _ => call rfl

/-- The notification of the parties is quiet. -/
theorem notifyParties (contractId eventType : String) (payload : JsonObject) :
    Calm (notifyParties contractId eventType payload) := by
  refine bind (call rfl) fun contract => ?_
  cases contract with
  | none => exact pure ()
  | some c => exact call rfl

end Calm

/-- A calm program returns and does nothing. -/
theorem Does.calm {p : OpsM α} {l : OpsLog} {s : Store} (h : Calm p) :
    Does p (fun r ds l' s' => (∃ a, r = .ok a) ∧ Silent l s ds l' s') l s := by
  induction p generalizing l s with
  | done a => exact Does.pure ⟨⟨a, rfl⟩, rfl, Same.refl s, fun _ hev => .inl hev⟩
  | fail e => exact False.elim h
  | await op k ih =>
    have hop : op.isQuiet = true := h.1
    intro c hallow
    have hserve : reliable.serve op c s = (.ok (perform op c s).1, (perform op c s).2) :=
      serve_performed (failure_none (not_ledger_of_quiet hop) hallow)
    rw [hserve]
    have hsame := same_perform hop c s
    refine after (R := fun r ds l' s' => (∃ a, r = .ok a) ∧ Silent l s ds l' s')
      (Refines.call (fun d => not_resolving_of_quiet hop) hsame.book) ?_
    refine (ih (.ok _) (h.2 _)).mono ?_
    rintro r ds l' s' - ⟨hok, hsilent⟩
    exact ⟨hok, hsilent.cons hop hsame⟩

/-! ## `applyLiveTxStatus` -/

/-- The answer is a success. -/
def LiveTxStatus.success (live : LiveTxStatus) : Bool :=
  classifyXrplResultCode live.resultCode = .success

/-- The deed of an answer for the hash `h`. -/
def LiveTxStatus.deed (live : LiveTxStatus) (h : String) : Deed :=
  .apply h live.validated live.success

/-- The result of a dispute is the one that the book computes from the answer. -/
theorem executionResult_reconciled (row : XrplTransaction) (live : LiveTxStatus) (now : Time) :
    executionResult (row.reconciled live now).outcomeClass = Book.result live.success := by
  show executionResult (some (classifyXrplResultCode live.resultCode)) = _
  unfold executionResult Book.result LiveTxStatus.success
  simp only [Option.some.injEq, decide_eq_true_eq]

/-- The entry of a stored row. -/
theorem book_entry {s : Store} {h : String} {row : XrplTransaction}
    (hrow : s.xrplTxs.get? h = some row) : s.book.entry h = some row.asEntry := by
  show (s.xrplTxs.get? h).map _ = _
  rw [hrow]
  rfl

/-- The status of a stored dispute. -/
theorem book_status {s : Store} {id : String} {d : DisputeCase}
    (hd : s.disputes.get? id = some d) : s.book.status id = some d.status := by
  show (s.disputes.get? id).map _ = _
  rw [hd]
  rfl

/-- A dispute that is not stored has no status. -/
theorem book_status_none {s : Store} {id : String} (hd : s.disputes.get? id = none) :
    s.book.status id = none := by
  show (s.disputes.get? id).map _ = _
  rw [hd]
  rfl

section Apply

variable {s : Store} {h : String} {row : XrplTransaction} {live : LiveTxStatus} {now : Time}

/-- The store after the row was saved. -/
def Store.withRow (s : Store) (row : XrplTransaction) : Store :=
  { s with xrplTxs := s.xrplTxs.set row }

/-- The store after the dispute was saved. -/
def Store.withDispute (s : Store) (d : DisputeCase) : Store :=
  { s with disputes := s.disputes.set d }

/-- When nothing is resolved, the saved row is the whole deed. -/
theorem book_reconciled (hrow : s.xrplTxs.get? h = some row)
    (hm : s.book.moved h live.validated = none) :
    (s.withRow (row.reconciled live now)).book = s.book.run [live.deed h] := by
  have hhash : row.txHash = h := Table.key_of_get? hrow
  show _ = s.book.apply h live.validated live.success
  rw [Book.apply_of_moved_none (book_entry hrow) hm]
  unfold Store.withRow
  rw [book_setRow]
  show s.book.setEntry row.txHash _ = _
  rw [hhash]
  rfl

/-- When a dispute is resolved, the row and the dispute are the deed. -/
theorem book_resolved {d : DisputeCase} {id : String} {t : Time} {s' : Store}
    (hrow : s.xrplTxs.get? h = some row) (hd : s.disputes.get? id = some d)
    (hm : s.book.moved h live.validated = some id)
    (hs' : s' = (s.withRow (row.reconciled live now)).withDispute
      { d with
        status := executionResult (row.reconciled live now).outcomeClass
        updatedAt := t }) :
    s'.book = s.book.run [live.deed h] := by
  have hhash : row.txHash = h := Table.key_of_get? hrow
  have hid : d.id = id := Table.key_of_get? hd
  show _ = s.book.apply h live.validated live.success
  rw [Book.apply_of_moved_some (book_entry hrow) hm, hs']
  unfold Store.withDispute Store.withRow
  rw [book_setDispute, book_setRow, executionResult_reconciled]
  show (s.book.setEntry row.txHash _).setStatus d.id _ = _
  rw [hhash, hid]
  rfl

/-- The dispute the saved row may resolve, in terms of the book. -/
theorem moved_of_resolves (hrow : s.xrplTxs.get? h = some row)
    (hres : (row.reconciled live now).resolves = none) :
    s.book.moved h live.validated = none := by
  rw [Option.eq_none_iff_forall_ne_some]
  intro id hm
  obtain ⟨hv, -, e, he, hlink, hne⟩ := Book.moved_eq_some.mp hm
  rw [book_entry hrow, Option.some.injEq] at he
  subst he
  have hsome : (row.reconciled live now).resolves = some id := by
    show (if live.validated = true then truthy row.disputeId else none) = some id
    rw [if_pos hv]
    exact truthy_eq_some.mpr ⟨hlink, hne⟩
  rw [hres] at hsome
  exact nomatch hsome

/-- The book moves the dispute that the row names if and only if it waits for its execution. -/
theorem moved_iff_of_resolves {id : String} (hrow : s.xrplTxs.get? h = some row)
    (hres : (row.reconciled live now).resolves = some id) :
    s.book.moved h live.validated =
      if s.book.status id = some .executionPending then some id else none := by
  have hres' : (if live.validated = true then truthy row.disputeId else none) = some id := hres
  split at hres'
  · rename_i hv
    unfold Book.moved
    rw [if_pos hv, book_entry hrow]
    have hlink : (some row.asEntry).bind (fun e => truthy e.link) = some id := hres'
    rw [hlink]
  · cases hres'

end Apply

/-- The three calls before the save of a resolved dispute, and the resolution they make. -/
theorem refines_resolution {l l' : OpsLog} {s s' : Store} {ds : List Deed} {row : XrplTransaction}
    {d : DisputeCase} {id : String} {t : Time} {found : Option DisputeCase}
    (hl : l' = ⟨.clock, .ok t⟩ :: ⟨.getDispute id, .ok found⟩ :: ⟨.saveXrplTx row, .ok ()⟩ :: l)
    (hbook : s'.book = s.book.run ds)
    (hmoved : (row.txHash, id) ∈ s.book.resolutions ds) :
    Refines l s (⟨.saveDispute d, .ok ()⟩ :: l') s' ds := by
  subst hl
  refine ⟨?_, hbook, ?_⟩
  · exact (((List.suffix_cons _ _).trans (List.suffix_cons _ _)).trans
      (List.suffix_cons _ _)).trans (List.suffix_cons _ _)
  · intro h id' hm
    obtain ⟨d', row', t', found', rest, hs, hhash, hid, hstatus⟩ := hm
    rcases List.suffix_cons_iff.mp hs with heq | hs
    · -- The new resolution is the one of the three calls.
      simp only [List.cons.injEq, Event.mk.injEq, Call.getDispute.injEq, Call.saveXrplTx.injEq]
        at heq
      obtain ⟨-, -, ⟨rfl, -⟩, ⟨rfl, -⟩, -⟩ := heq
      subst hhash
      exact .inr hmoved
    · left
      have hm' : MovedBy _ h id' := ⟨d', row', t', found', rest, hs, hhash, hid, hstatus⟩
      have hm₁ := movedBy_cons (by intro d hd; exact nomatch hd) hm'
      have hm₂ := movedBy_cons (by intro d hd; exact nomatch hd) hm₁
      exact movedBy_cons (by intro d hd; exact nomatch hd) hm₂

/-- A call in front of a log adds no resolution unless it saves a resolved dispute. -/
theorem Refines.cons {l l' : OpsLog} {s s' s'' : Store} {ds : List Deed}
    {ev : Event calls String} (href : Refines l s l' s' ds)
    (hev : ∀ d, ev.op = .saveDispute d → d.status ≠ .executed ∧ d.status ≠ .rejected)
    (hbook : s''.book = s.book.run ds) : Refines l s (ev :: l') s'' ds :=
  ⟨href.grows.trans (List.suffix_cons _ _), hbook,
    fun h id hm => href.moved h id (movedBy_cons hev hm)⟩

/-- The rest of `applyLiveTxStatus` after the row was saved. -/
theorem resolveLinkedDispute_does {h : String} {live : LiveTxStatus} {row : XrplTransaction}
    {now : Time} {l l₁ : OpsLog} {s : Store} (hrow : s.xrplTxs.get? h = some row)
    (href : Refines l s l₁ s []) :
    wp (seqSpec reliable) (resolveLinkedDispute (row.reconciled live now))
      (fun _ g => ∃ ds, Refines l s g.1 g.2 ds ∧ ds = [live.deed h]) (fun _ _ => False)
      (⟨.saveXrplTx (row.reconciled live now), .ok ()⟩ :: l₁,
        s.withRow (row.reconciled live now)) := by
  -- Without a resolution the saved row is the whole deed.
  have hsaved : s.book.moved h live.validated = none →
      Refines l s (⟨.saveXrplTx (row.reconciled live now), .ok ()⟩ :: l₁)
        (s.withRow (row.reconciled live now)) [live.deed h] := by
    intro hm
    refine ⟨href.grows.trans (List.suffix_cons _ _), book_reconciled hrow hm, fun h' id hmoved => ?_⟩
    have hold := href.moved h' id (movedBy_cons (by intro d hd; exact nomatch hd) hmoved)
    rcases hold with hold | hold
    · exact .inl hold
    · exact nomatch hold
  unfold resolveLinkedDispute
  cases hres : (row.reconciled live now).resolves with
  | none => exact ⟨_, hsaved (moved_of_resolves hrow hres), rfl⟩
  | some id =>
    have hmoved := moved_iff_of_resolves hrow hres
    have hunmoved : s.book.status id ≠ some .executionPending →
        s.book.moved h live.validated = none := fun hne => hmoved.trans (if_neg hne)
    dsimp only
    rw [wp_bind]
    refine wp_invoke rfl fun c => ?_
    have hfound : (perform (.getDispute id) c (s.withRow (row.reconciled live now))).1 =
        s.disputes.get? id := rfl
    rw [hfound]
    have hread : s.book.moved h live.validated = none →
        Refines l s (⟨.getDispute id, .ok (s.disputes.get? id)⟩ ::
          ⟨.saveXrplTx (row.reconciled live now), .ok ()⟩ :: l₁)
          (s.withRow (row.reconciled live now)) [live.deed h] :=
      fun hm => (hsaved hm).cons (by intro d hd; exact nomatch hd) (book_reconciled hrow hm)
    cases hd : s.disputes.get? id with
    | none =>
      rw [hd] at hread
      refine ⟨_, hread (hunmoved ?_), rfl⟩
      rw [book_status_none hd]
      exact nofun
    | some d =>
      rw [hd] at hread
      have hstatus := book_status hd
      dsimp only
      split
      · rename_i hpending
        rw [hpending] at hstatus
        rw [if_pos hstatus] at hmoved
        unfold resolveExecution
        dsimp only
        rw [wp_bind]
        refine wp_invoke rfl fun c => ?_
        rw [wp_bind]
        refine wp_invoke rfl fun c' => ?_
        have hresolution : ((row.reconciled live now).txHash, id) ∈
            s.book.resolutions [live.deed h] := by
          have hhash : (row.reconciled live now).txHash = h :=
            (Table.key_of_get? hrow : row.txHash = h)
          show _ ∈ (s.book.moved h live.validated).toList.map (fun id => (h, id)) ++ []
          rw [hmoved, hhash]
          exact List.mem_cons_self
        refine wp_mono _ _ (seqSpec_mono reliable) ?_ ?_ (Does.calm ?_)
        · rintro _ g ⟨ds, href', -, rfl, -⟩
          refine ⟨[live.deed h], href.trans (Refines.trans_nil ?_ href'), rfl⟩
          exact refines_resolution rfl (book_resolved hrow hd hmoved rfl) hresolution
        · rintro e g ⟨ds, -, ⟨a, ha⟩, -⟩
          exact nomatch ha
        · exact Calm.bind (Calm.writeAudit _ _ _ _ _ _ _) fun _ =>
            Calm.bind (Calm.emitEvent _ _ _ _) fun _ => Calm.notifyParties _ _ _
      · rename_i hpending
        refine ⟨_, hread (hunmoved ?_), rfl⟩
        rw [hstatus]
        exact fun heq => hpending (Option.some.inj heq)

/-- `applyLiveTxStatus` brings the ledger's word to the book. -/
theorem applyLiveTxStatus_does (h : String) (live : LiveTxStatus) (l : OpsLog) (s : Store) :
    Does (applyLiveTxStatus h live) (fun r ds _ _ => (∃ b, r = .ok b) ∧ ds = [live.deed h])
      l s := by
  unfold Does applyLiveTxStatus
  rw [wp_bind]
  refine wp_invoke rfl fun c => ?_
  have href : Refines l s (⟨.getXrplTx h, .ok (s.xrplTxs.get? h)⟩ :: l) s [] :=
    Refines.call (by intro d hd; exact nomatch hd) rfl
  have hfound : (perform (.getXrplTx h) c s).1 = s.xrplTxs.get? h := rfl
  rw [hfound]
  cases hrow : s.xrplTxs.get? h with
  | none =>
    have hentry : s.book.entry h = none := by
      show (s.xrplTxs.get? h).map _ = _
      rw [hrow]
      rfl
    rw [hrow] at href
    -- no such row: the deed is a no-op on a book without the entry
    refine ⟨[live.deed h], ⟨href.grows, ?_, fun h' id hm => ?_⟩, ⟨_, rfl⟩, rfl⟩
    · exact (Book.apply_of_entry_none hentry _ _).symm
    · rcases href.moved h' id hm with hm | hm
      · exact .inl hm
      · exact nomatch hm
  | some row =>
    rw [hrow] at href
    dsimp only
    rw [wp_bind]
    refine wp_invoke rfl fun c => ?_
    rw [wp_bind]
    refine wp_invoke rfl fun c => ?_
    rw [wp_bind]
    refine wp_mono _ _ (seqSpec_mono reliable) ?_ (fun _ _ h => False.elim h)
      (resolveLinkedDispute_does hrow (href.cons (by intro d hd; exact nomatch hd) rfl))
    rintro _ g ⟨ds, hrefs, rfl⟩
    exact ⟨_, hrefs, ⟨_, rfl⟩, rfl⟩

/-! ## `upsertTrackedTx` -/

/-- What `upsertTrackedTx` leaves: the hash is tracked with the given link. -/
structure Links (l : OpsLog) (s : Store) (l' : OpsLog) (s' : Store) (h : String)
    (link : Option String) : Prop where
  grows : l <:+ l'
  book : s'.book = s.book.track h link
  moved : ∀ h' id, MovedBy l' h' id → MovedBy l h' id
  read : ∃ found, Answered l' (.getXrplTx h) found
  asked : ∀ ev ∈ l', ev ∈ l ∨ ev.op.isLedger = false

/-- A row that is tracked again is linked as the book links it. -/
theorem book_retracked {s : Store} {h : String} {row : XrplTransaction} (p : TrackParams)
    (now : Time) (hrow : s.xrplTxs.get? h = some row) :
    (s.withRow (row.retracked h p now)).book = s.book.track h p.disputeId := by
  unfold Store.withRow Book.track
  rw [book_setRow, book_entry hrow]
  rfl

/-- So is a new row. -/
theorem book_fresh {s : Store} {h : String} (id : String) (p : TrackParams) (now : Time)
    (hrow : s.xrplTxs.get? h = none) :
    (s.withRow (freshTrackedTx id h p now)).book = s.book.track h p.disputeId := by
  have hentry : s.book.entry h = none := by
    show (s.xrplTxs.get? h).map _ = _
    rw [hrow]
    rfl
  unfold Store.withRow Book.track
  rw [book_setRow, hentry]
  rfl

/-- Tracking links the hash to the dispute, whatever was stored. -/
theorem upsertTrackedTx_wp {h : String} {p : TrackParams} {l : OpsLog} {s : Store}
    {Q : Unit → OpsLog × Store → Prop} {E : String → OpsLog × Store → Prop}
    (hQ : ∀ l' s', Links l s l' s' h p.disputeId → Q () (l', s')) :
    wp (seqSpec reliable) (upsertTrackedTx h p) Q E (l, s) := by
  have hcons : ∀ {ev : Event calls String} {l' : OpsLog}, (∀ d, ev.op ≠ .saveDispute d) →
      (∀ h' id, MovedBy l' h' id → MovedBy l h' id) →
      ∀ h' id, MovedBy (ev :: l') h' id → MovedBy l h' id := by
    intro ev l' hev hm h' id hmoved
    exact hm h' id (movedBy_cons (fun d hd => absurd hd (hev d)) hmoved)
  unfold upsertTrackedTx
  rw [wp_bind]
  refine wp_invoke rfl fun c => ?_
  rw [wp_bind]
  refine wp_invoke rfl fun c' => ?_
  have hfound : (perform (.getXrplTx h) c' (perform .clock c s).2).1 = s.xrplTxs.get? h := rfl
  rw [hfound]
  cases hrow : s.xrplTxs.get? h with
  | some row =>
    -- the row is there: read, clock and save
    refine wp_invoke rfl fun c'' => hQ _ _ ⟨?_, book_retracked p _ hrow, ?_, ?_, ?_⟩
    · exact ((List.suffix_cons _ _).trans (List.suffix_cons _ _)).trans (List.suffix_cons _ _)
    · exact hcons (by intro d hd; exact nomatch hd) (hcons (by intro d hd; exact nomatch hd)
        (hcons (by intro d hd; exact nomatch hd) fun _ _ hm => hm))
    · exact ⟨some row, List.mem_cons_of_mem _ List.mem_cons_self⟩
    · intro ev hev
      simp only [List.mem_cons] at hev
      rcases hev with rfl | rfl | rfl | hev
      · exact .inr rfl
      · exact .inr rfl
      · exact .inr rfl
      · exact .inl hev
  | none =>
    dsimp only
    rw [wp_bind]
    -- a new row takes an identifier before it is saved
    refine wp_invoke rfl fun c'' => ?_
    refine wp_invoke rfl fun c₃ => hQ _ _ ⟨?_, book_fresh _ p _ hrow, ?_, ?_, ?_⟩
    · exact (((List.suffix_cons _ _).trans (List.suffix_cons _ _)).trans
        (List.suffix_cons _ _)).trans (List.suffix_cons _ _)
    · exact hcons (by intro d hd; exact nomatch hd) (hcons (by intro d hd; exact nomatch hd)
        (hcons (by intro d hd; exact nomatch hd) (hcons (by intro d hd; exact nomatch hd)
          fun _ _ hm => hm)))
    · exact ⟨none, List.mem_cons_of_mem _ (List.mem_cons_of_mem _ List.mem_cons_self)⟩
    · intro ev hev
      simp only [List.mem_cons] at hev
      rcases hev with rfl | rfl | rfl | rfl | hev
      · exact .inr rfl
      · exact .inr rfl
      · exact .inr rfl
      · exact .inr rfl
      · exact .inl hev

/-! ## Requests without an execution -/

/-- The program does only plain deeds. -/
abbrev DoesPlain (p : OpsM α) (l : OpsLog) (s : Store) : Prop :=
  Does p (fun _ ds _ _ => Book.Plain ds) l s

namespace DoesPlain

variable {l : OpsLog} {s : Store} {p : OpsM α}

/-- A value does nothing to the book. -/
theorem pure (a : α) : DoesPlain (Pure.pure a) l s := Does.pure Book.plain_nil

/-- Nor does an error. -/
theorem throw (e : String) : DoesPlain (MonadExcept.throw e : OpsM α) l s :=
  Does.throw Book.plain_nil

/-- A program that is quiet throughout does nothing to the book. -/
theorem of_calm (h : Calm p) : DoesPlain p l s := by
  refine (Does.calm h).mono ?_
  rintro r ds l' s' - ⟨-, rfl, -⟩
  exact Book.plain_nil

/-- Sequencing: the second part starts after plain deeds. -/
theorem bind {f : α → OpsM β} (hp : DoesPlain p l s)
    (hf : ∀ a ds l' s', s'.book = s.book.run ds → Book.Plain ds → DoesPlain (f a) l' s') :
    DoesPlain (p >>= f) l s := by
  refine Does.bind hp ?_ fun e ds l' s' _ hplain => hplain
  intro a ds l' s' href hplain
  refine (hf a ds l' s' href.book hplain).mono ?_
  intro r ds' l'' s'' _ hplain'
  exact hplain.append hplain'

/-- A handler goes on with the book as it is. -/
theorem tryCatch {h : String → OpsM α} (hp : DoesPlain p l s)
    (hh : ∀ e ds l' s', s'.book = s.book.run ds → Book.Plain ds → DoesPlain (h e) l' s') :
    DoesPlain (MonadExcept.tryCatch p h) l s := by
  refine Does.tryCatch hp (fun _ _ _ _ h => h) ?_
  intro e ds l' s' href hplain
  refine (hh e ds l' s' href.book hplain).mono ?_
  intro r ds' l'' s'' _ hplain'
  exact hplain.append hplain'

/-- A ledger call and what follows it. -/
theorem ledger_bind {op : Call} {f : op.Res → OpsM β} (hop : op.isLedger = true)
    (h : ∀ a l', DoesPlain (f a) l' s) : DoesPlain (invoke op >>= f) l s :=
  Does.ledger_bind hop (fun a => h a _) fun _ => Book.plain_nil

/-- A property of books that plain deeds keep. -/
def Stable (J : Book → Prop) : Prop :=
  ∀ b ds, Book.Plain ds → J b → J (b.run ds)

/-- Loop with an accumulator, under a property that plain deeds keep. -/
theorem foldlM {J : Book → Prop} (hJ : Stable J) {xs : List α} {f : β → α → OpsM β} {b : β}
    (h₀ : J s.book) (hstep : ∀ b x l s, x ∈ xs → J s.book → DoesPlain (f b x) l s) :
    DoesPlain (xs.foldlM f b) l s := by
  induction xs generalizing b l s with
  | nil => exact pure b
  | cons x xs ih =>
    rw [List.foldlM_cons]
    refine bind (hstep b x l s List.mem_cons_self h₀) fun b' ds l' s' hbook hplain => ?_
    refine ih ?_ fun b y l s hy => hstep b y l s (List.mem_cons_of_mem _ hy)
    rw [hbook]
    exact hJ _ ds hplain h₀

/-- Loop without accumulator. -/
theorem forM {J : Book → Prop} (hJ : Stable J) {xs : List α} {f : α → OpsM PUnit}
    (h₀ : J s.book) (hstep : ∀ x l s, x ∈ xs → J s.book → DoesPlain (f x) l s) :
    DoesPlain (ForM.forM xs f) l s := by
  induction xs generalizing l s with
  | nil => exact pure ()
  | cons x xs ih =>
    rw [List.forM_cons]
    refine bind (hstep x l s List.mem_cons_self h₀) fun _ ds l' s' hbook hplain => ?_
    refine ih ?_ fun y l s hy => hstep y l s (List.mem_cons_of_mem _ hy)
    rw [hbook]
    exact hJ _ ds hplain h₀

end DoesPlain

/-- The deed of an answer is plain. -/
theorem deed_plain (live : LiveTxStatus) (h : String) : Book.Plain [live.deed h] :=
  Book.plain_singleton fun _ _ _ heq => nomatch heq

/-- An answer that is applied does plain deeds only. -/
theorem applyLiveTxStatus_plain (h : String) (live : LiveTxStatus) (l : OpsLog) (s : Store) :
    DoesPlain (applyLiveTxStatus h live) l s := by
  refine (applyLiveTxStatus_does h live l s).mono ?_
  rintro r ds l' s' - ⟨-, rfl⟩
  exact deed_plain live h

/-- Tracking a hash without a dispute. -/
theorem upsertTrackedTx_plain {h : String} {p : TrackParams} (hp : p.disputeId = none)
    (l : OpsLog) (s : Store) : DoesPlain (upsertTrackedTx h p) l s := by
  refine upsertTrackedTx_wp fun l' s' hlinks => ?_
  refine ⟨[.track h], ⟨hlinks.grows, ?_, fun h' id hm => .inl (hlinks.moved h' id hm)⟩, ?_⟩
  · rw [hlinks.book, hp]
    rfl
  · exact Book.plain_singleton fun _ _ _ heq => nomatch heq

end Bluesafe.Ops
