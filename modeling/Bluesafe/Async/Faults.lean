import Bluesafe.Async.Expands

/-!
# Where an error comes from

A program throws the rejection of a call, or an error of its own. `Faults R P p Q` says that `p`,
whose answers meet `R`, throws only the rejection of the call it has made last or an error that
meets `P`, and returns only values that meet `Q`. A trace keeps the last rejection
(`lastRejection`), so this can be read off every trace (`Faults.of_traces`).

`Smooth R p evs x` is a trace whose calls are all answered, by values that meet `R`. An error at its
end is one of the program's own (`Smooth.lastRejection_eq`). `Reaches` says that there is such a
trace.
-/

namespace Async

variable {I J : Interface} {ε α β : Type}

/-- The rejection of a call, if it was rejected. -/
def rejection (ev : Event I ε) : Option ε :=
  match ev.res with
  | .ok _ => none
  | .error e => some e

/-- The rejection of the last call, after events that follow `last`. -/
def rejectionAfter (last : Option ε) (evs : List (Event I ε)) : Option ε :=
  evs.foldl (fun _ ev => rejection ev) last

/-- The rejection of the last call. -/
def lastRejection (evs : List (Event I ε)) : Option ε := rejectionAfter none evs

/-- The last rejection of two logs, one after the other. -/
theorem rejectionAfter_append (last : Option ε) (evs evs' : List (Event I ε)) :
    rejectionAfter last (evs ++ evs') = rejectionAfter (rejectionAfter last evs) evs' := by
  unfold rejectionAfter
  rw [List.foldl_append]

/-- What was known of the answers is known of the event. -/
def AnsweredAs (R : (op : I.Op) → I.Res op → Prop) (ev : Event I ε) : Prop :=
  ∀ a, ev.res = .ok a → R ev.op a

/-- Calls answered by values that meet `R`, or rejected; the state is the last rejection. -/
def answerSpec (R : (op : I.Op) → I.Res op → Prop) : CallSpec I ε (Option ε) :=
  fun op K F _ => (∀ a, R op a → K a none) ∧ ∀ e, F e (some e)

/-- The specification of answers is monotone. -/
theorem answerSpec_mono (R : (op : I.Op) → I.Res op → Prop) :
    CallSpec.Mono (answerSpec R : CallSpec I ε (Option ε)) :=
  fun _ _ _ _ _ _ hK hF h => ⟨fun a ha => hK a _ (h.1 a ha), fun e => hF e _ (h.2 e)⟩

variable {R : (op : I.Op) → I.Res op → Prop} {P : ε → Prop} {Q : α → Prop}

/-- The program ends a trace as its specification says. -/
theorem post_of_traces {p : Async I ε α} {Q : α → Option ε → Prop} {E : ε → Option ε → Prop}
    {last : Option ε} (hwp : wp (answerSpec R) p Q E last) {evs : List (Event I ε)} {x : Except ε α}
    (h : Traces p evs x) (hans : ∀ ev ∈ evs, AnsweredAs R ev) :
    post Q E x (rejectionAfter last evs) := by
  induction p generalizing last evs with
  | done a =>
    obtain ⟨rfl, rfl⟩ := h
    exact hwp
  | fail e =>
    obtain ⟨rfl, rfl⟩ := h
    exact hwp
  | await op k ih =>
    obtain ⟨r, rest, rfl, hk⟩ := h
    have hrest : ∀ ev ∈ rest, AnsweredAs R ev := fun ev hev => hans ev (List.mem_cons_of_mem _ hev)
    cases r with
    | ok a => exact ih (.ok a) (hwp.1 a (hans _ List.mem_cons_self a rfl)) hk hrest
    | error e => exact ih (.error e) (hwp.2 e) hk hrest

/-- The program throws the rejection of its last call or an error with `P`. -/
structure Faults (R : (op : I.Op) → I.Res op → Prop) (P : ε → Prop) (p : Async I ε α)
    (Q : α → Prop) : Prop where
  ends : ∀ last, wp (answerSpec R) p (fun a _ => Q a) (fun e last => last = some e ∨ P e) last

namespace Faults

/-- A value that is as expected does not fail. -/
theorem pure {a : α} (h : Q a) : Faults R P (Pure.pure a) Q := ⟨fun _ => h⟩

/-- An error is one of those that are named. -/
theorem throw {e : ε} (h : P e) : Faults R P (MonadExcept.throw e : Async I ε α) Q :=
  ⟨fun _ => .inr h⟩

/-- A call fails with an error of the world, or answers as the relation says. -/
theorem call {op : I.Op} {Q : I.Res op → Prop} (h : ∀ a, R op a → Q a) :
    Faults R P (Async.call op) Q :=
  ⟨fun _ => ⟨fun a ha => h a ha, fun _ => .inl rfl⟩⟩

/-- One program after the other. -/
theorem bind {p : Async I ε β} {f : β → Async I ε α} {T : β → Prop} (hp : Faults R P p T)
    (hf : ∀ b, T b → Faults R P (f b) Q) : Faults R P (p >>= f) Q := by
  constructor
  intro last
  rw [wp_bind]
  exact wp_mono _ _ (answerSpec_mono R) (fun b last hb => (hf b hb).ends last) (fun _ _ he => he)
    (hp.ends last)

/-- A handler that sees a rejection makes the next call itself. -/
theorem tryCatch {p : Async I ε α} {h : ε → Async I ε α} {T : ε → Prop} (hp : Faults R T p Q)
    (hh : ∀ e, Faults R P (h e) Q) : Faults R P (MonadExcept.tryCatch p h) Q := by
  constructor
  intro last
  rw [wp_tryCatch]
  exact wp_mono _ _ (answerSpec_mono R) (fun _ _ ha => ha) (fun e last _ => (hh e).ends last)
    (hp.ends last)

/-- What is said of the result may be weakened. -/
theorem mono {p : Async I ε α} {T : α → Prop} (h : Faults R P p Q) (hT : ∀ a, Q a → T a) :
    Faults R P p T :=
  ⟨fun last =>
    wp_mono _ _ (answerSpec_mono R) (fun a _ ha => hT a ha) (fun _ _ he => he) (h.ends last)⟩

/-- Every error is allowed. -/
theorem of_forall (h : ∀ e, P e) {p : Async I ε α} : Faults R P p (fun _ => True) := by
  constructor
  intro last
  induction p generalizing last with
  | done a => trivial
  | fail e => exact .inr (h e)
  | await op k ih => exact ⟨fun a _ => ih (.ok a) none, fun e => ih (.error e) (some e)⟩

/-- A left program among programs of both interfaces. -/
theorem inl {R : (op : (I.sum J).Op) → (I.sum J).Res op → Prop} {p : Async I ε α}
    (h : Faults (fun op => R (.inl op)) P p Q) :
    Faults R P (Async.inl p : Async (I.sum J) ε α) Q := by
  constructor
  intro last
  have hwp := h.ends last
  clear h
  induction p generalizing last with
  | done a => exact hwp
  | fail e => exact hwp
  | await op k ih => exact ⟨fun a ha => ih (.ok a) _ (hwp.1 a ha), fun e => ih (.error e) _ (hwp.2 e)⟩

/-- The end of a trace. -/
theorem of_traces {p : Async I ε α} (hp : Faults R P p Q) (last : Option ε)
    {evs : List (Event I ε)} {e : ε} (h : Traces p evs (.error e))
    (hans : ∀ ev ∈ evs, AnsweredAs R ev) : rejectionAfter last evs = some e ∨ P e :=
  post_of_traces (hp.ends last) h hans

/-- The value a trace ends with. -/
theorem value_of_traces (hp : Faults R P p Q) {evs : List (Event I ε)} {a : α}
    (h : Traces p evs (.ok a)) (hans : ∀ ev ∈ evs, AnsweredAs R ev) : Q a :=
  post_of_traces (hp.ends none) h hans

end Faults

/-- A trace of calls that are all answered, as `R` says. -/
structure Smooth (R : (op : I.Op) → I.Res op → Prop) (p : Async I ε α) (evs : List (Event I ε))
    (x : Except ε α) : Prop where
  traces : Traces p evs x
  answers : ∀ ev ∈ evs, ∃ a, ev.res = .ok a ∧ R ev.op a

namespace Smooth

variable {p : Async I ε β} {f : β → Async I ε α} {evs evs' : List (Event I ε)} {x : Except ε α}

/-- A value is the result of no calls. -/
theorem pure {a : α} : Smooth R (Pure.pure a : Async I ε α) [] (.ok a) := by
  constructor
  · exact ⟨rfl, rfl⟩
  · simp

/-- So is an error. -/
theorem throw {e : ε} : Smooth R (MonadExcept.throw e : Async I ε α) [] (.error e) := by
  constructor
  · exact ⟨rfl, rfl⟩
  · simp

/-- A call with an answer that the relation allows. -/
theorem call {op : I.Op} {a : I.Res op} (h : R op a) :
    Smooth R (Async.call op : Async I ε _) [⟨op, .ok a⟩] (.ok a) := by
  constructor
  · exact traces_call.mpr rfl
  · intro ev hev
    rw [List.mem_singleton.mp hev]
    exact ⟨a, rfl, h⟩

/-- The first part returns and the rest follows. -/
theorem bind {b : β} (hp : Smooth R p evs (.ok b)) (hf : Smooth R (f b) evs' x) :
    Smooth R (p >>= f) (evs ++ evs') x := by
  constructor
  · exact traces_bind.mpr (.inr ⟨b, evs, evs', rfl, hp.traces, hf.traces⟩)
  · intro ev hev
    rcases List.mem_append.mp hev with hev | hev
    · exact hp.answers ev hev
    · exact hf.answers ev hev

/-- The first part throws. -/
theorem bind_error {e : ε} (hp : Smooth R p evs (.error e)) :
    Smooth R (p >>= f) evs (.error e) := by
  constructor
  · exact traces_bind.mpr (.inl ⟨e, rfl, hp.traces⟩)
  · exact hp.answers

/-- The body of a `try` returns. -/
theorem tryCatch {p : Async I ε α} {h : ε → Async I ε α} {a : α} (hp : Smooth R p evs (.ok a)) :
    Smooth R (MonadExcept.tryCatch p h) evs (.ok a) := by
  constructor
  · exact traces_tryCatch.mpr (.inl ⟨a, rfl, hp.traces⟩)
  · exact hp.answers

/-- A run on the left side of a sum. -/
theorem inl {R : (op : (I.sum J).Op) → (I.sum J).Res op → Prop} {p : Async I ε α}
    (hp : Smooth (fun op => R (.inl op)) p evs x) :
    Smooth R (Async.inl p : Async (I.sum J) ε α) (evs.map Event.inl) x := by
  constructor
  · have htraces := hp.traces
    clear hp
    induction p generalizing evs with
    | done a =>
      obtain ⟨rfl, rfl⟩ := htraces
      exact ⟨rfl, rfl⟩
    | fail e =>
      obtain ⟨rfl, rfl⟩ := htraces
      exact ⟨rfl, rfl⟩
    | await op k ih =>
      obtain ⟨r, rest, rfl, hk⟩ := htraces
      exact ⟨r, rest.map Event.inl, rfl, ih r hk⟩
  · intro ev hev
    obtain ⟨ev₀, hev₀, rfl⟩ := List.mem_map.mp hev
    exact hp.answers ev₀ hev₀

/-- Every call of a smooth run is answered as the relation says. -/
theorem answered {p : Async I ε α} (hp : Smooth R p evs x) : ∀ ev ∈ evs, AnsweredAs R ev := by
  intro ev hev a ha
  obtain ⟨a', ha', hR⟩ := hp.answers ev hev
  rw [ha] at ha'
  cases ha'
  exact hR

/-- No call was rejected. -/
theorem lastRejection_eq {p : Async I ε α} (hp : Smooth R p evs x) : lastRejection evs = none := by
  have hanswers := hp.answers
  clear hp
  unfold lastRejection rejectionAfter
  induction evs with
  | nil => rfl
  | cons ev evs ih =>
    obtain ⟨a, ha, -⟩ := hanswers ev List.mem_cons_self
    rw [List.foldl_cons, rejection, ha]
    exact ih fun ev hev => hanswers ev (List.mem_cons_of_mem _ hev)

end Smooth

/-- Some run with answers as `R` says ends as `x` says. -/
def Reaches (R : (op : I.Op) → I.Res op → Prop) (p : Async I ε α) (x : Except ε α) : Prop :=
  ∃ evs, Smooth R p evs x

namespace Reaches

variable {p : Async I ε β} {f : β → Async I ε α} {x : Except ε α}

/-- A value is reached. -/
theorem pure {a : α} : Reaches R (Pure.pure a : Async I ε α) (.ok a) := ⟨[], Smooth.pure⟩

/-- So is an error. -/
theorem throw {e : ε} : Reaches R (MonadExcept.throw e : Async I ε α) (.error e) :=
  ⟨[], Smooth.throw⟩

/-- Every answer that the relation allows is reached. -/
theorem call {op : I.Op} {a : I.Res op} (h : R op a) : Reaches R (Async.call op : Async I ε _) (.ok a) :=
  ⟨_, Smooth.call h⟩

/-- A result is reached through an intermediate one. -/
theorem bind {b : β} (hp : Reaches R p (.ok b)) (hf : Reaches R (f b) x) : Reaches R (p >>= f) x := by
  obtain ⟨evs, hp⟩ := hp
  obtain ⟨evs', hf⟩ := hf
  exact ⟨evs ++ evs', hp.bind hf⟩

/-- An error of the first program is an error of both. -/
theorem bind_error {e : ε} (hp : Reaches R p (.error e)) : Reaches R (p >>= f) (.error e) := by
  obtain ⟨evs, hp⟩ := hp
  exact ⟨evs, hp.bind_error⟩

/-- A value that is reached is not caught. -/
theorem tryCatch {p : Async I ε α} {h : ε → Async I ε α} {a : α} (hp : Reaches R p (.ok a)) :
    Reaches R (MonadExcept.tryCatch p h) (.ok a) := by
  obtain ⟨evs, hp⟩ := hp
  exact ⟨evs, hp.tryCatch⟩

/-- A result on the left side of a sum. -/
theorem inl {R : (op : (I.sum J).Op) → (I.sum J).Res op → Prop} {p : Async I ε α}
    (hp : Reaches (fun op => R (.inl op)) p x) :
    Reaches R (Async.inl p : Async (I.sum J) ε α) x := by
  obtain ⟨evs, hp⟩ := hp
  exact ⟨evs.map Event.inl, hp.inl⟩

end Reaches

end Async
