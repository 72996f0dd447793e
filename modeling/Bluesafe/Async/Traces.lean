import Bluesafe.Async.Only

/-!
# Traces

`Traces p evs x` says that `p`, answered by the events `evs` (oldest first), ends as `x` says. No
world is involved: any answers are possible. What a program does to an event is then read off
its parts: the trace of a sequence is a trace of its first part followed by one of the rest
(`traces_bind`), and a program that is answered by two traces of one list of events ends in the
same way at the same place (`Traces.unique`).
-/

namespace Async

variable {I : Interface} {ε σ κ α β : Type}

/-- Answered by the events, the program ends as `x` says. -/
def Traces : Async I ε α → List (Event I ε) → Except ε α → Prop
  | done a, evs, x => evs = [] ∧ x = .ok a
  | fail e, evs, x => evs = [] ∧ x = .error e
  | await op k, evs, x => ∃ r rest, evs = ⟨op, r⟩ :: rest ∧ Traces (k r) rest x

section Rules

variable {evs : List (Event I ε)} {x : Except ε α}

theorem traces_pure {a : α} : Traces (pure a : Async I ε α) evs x ↔ evs = [] ∧ x = .ok a := Iff.rfl

theorem traces_throw {e : ε} :
    Traces (throw e : Async I ε α) evs x ↔ evs = [] ∧ x = .error e := Iff.rfl

/-- One call: its answer. -/
theorem traces_call {op : I.Op} {x : Except ε (I.Res op)} :
    Traces (call op) evs x ↔ evs = [⟨op, x⟩] := by
  constructor
  · rintro ⟨r, rest, rfl, h⟩
    -- the answer ends the program, as a value or as an error
    cases r with
    | ok a =>
      obtain ⟨rfl, rfl⟩ := h
      rfl
    | error e =>
      obtain ⟨rfl, rfl⟩ := h
      rfl
  · rintro rfl
    refine ⟨x, [], rfl, ?_⟩
    cases x with
    | ok a => exact ⟨rfl, rfl⟩
    | error e => exact ⟨rfl, rfl⟩

/-- A sequence: the first part throws, or it returns and the rest follows. -/
theorem traces_bind {p : Async I ε β} {f : β → Async I ε α} :
    Traces (p >>= f) evs x ↔ (∃ e, x = .error e ∧ Traces p evs (.error e)) ∨
      ∃ b first rest, evs = first ++ rest ∧ Traces p first (.ok b) ∧ Traces (f b) rest x := by
  show Traces (p.bind f) evs x ↔ _
  -- induction on the program: an error of the first part is an error of the whole
  induction p generalizing evs with
  | done b =>
    constructor
    · exact fun h => .inr ⟨b, [], evs, rfl, ⟨rfl, rfl⟩, h⟩
    · rintro (⟨e, -, -, he⟩ | ⟨b', first, rest, rfl, ⟨rfl, hb⟩, h⟩)
      · cases he
      · cases hb
        exact h
  | fail e =>
    constructor
    · rintro ⟨rfl, rfl⟩
      exact .inl ⟨e, rfl, rfl, rfl⟩
    · rintro (⟨e', rfl, rfl, he⟩ | ⟨b', first, rest, -, ⟨-, hb⟩, -⟩)
      · cases he
        exact ⟨rfl, rfl⟩
      · cases hb
  | await op k ih =>
    constructor
    -- the first call is the same on both sides; the rest is the hypothesis for its answer
    · rintro ⟨r, rest, rfl, h⟩
      rcases (ih r).mp h with ⟨e, rfl, he⟩ | ⟨b, first, rest', rfl, hb, hrest⟩
      · exact .inl ⟨e, rfl, r, rest, rfl, he⟩
      · exact .inr ⟨b, ⟨op, r⟩ :: first, rest', rfl, ⟨r, first, rfl, hb⟩, hrest⟩
    · rintro (⟨e, rfl, r, rest, rfl, he⟩ | ⟨b, first, rest', rfl, ⟨r, first', rfl, hb⟩, hrest⟩)
      · exact ⟨r, rest, rfl, (ih r).mpr (.inl ⟨e, rfl, he⟩)⟩
      · exact ⟨r, first' ++ rest', rfl, (ih r).mpr (.inr ⟨b, first', rest', rfl, hb, hrest⟩)⟩

/-- `try`: the body returns, or it throws and the handler follows. -/
theorem traces_tryCatch {p : Async I ε α} {h : ε → Async I ε α} :
    Traces (tryCatch p h) evs x ↔ (∃ a, x = .ok a ∧ Traces p evs (.ok a)) ∨
      ∃ e first rest, evs = first ++ rest ∧ Traces p first (.error e) ∧ Traces (h e) rest x := by
  show Traces (p.tryCatch h) evs x ↔ _
  -- induction on the program: an error of it begins the handler
  induction p generalizing evs with
  | done a =>
    constructor
    · rintro ⟨rfl, rfl⟩
      exact .inl ⟨a, rfl, rfl, rfl⟩
    · rintro (⟨a', rfl, rfl, ha⟩ | ⟨e, first, rest, -, ⟨-, he⟩, -⟩)
      · exact ⟨rfl, ha⟩
      · cases he
  | fail e =>
    constructor
    · exact fun hh => .inr ⟨e, [], evs, rfl, ⟨rfl, rfl⟩, hh⟩
    · rintro (⟨a, -, -, ha⟩ | ⟨e', first, rest, rfl, ⟨rfl, he⟩, hh⟩)
      · cases ha
      · cases he
        exact hh
  | await op k ih =>
    constructor
    · rintro ⟨r, rest, rfl, hk⟩
      rcases (ih r).mp hk with ⟨a, rfl, ha⟩ | ⟨e, first, rest', rfl, he, hrest⟩
      · exact .inl ⟨a, rfl, r, rest, rfl, ha⟩
      · exact .inr ⟨e, ⟨op, r⟩ :: first, rest', rfl, ⟨r, first, rfl, he⟩, hrest⟩
    · rintro (⟨a, rfl, r, rest, rfl, ha⟩ | ⟨e, first, rest', rfl, ⟨r, first', rfl, he⟩, hrest⟩)
      · exact ⟨r, rest, rfl, (ih r).mpr (.inl ⟨a, rfl, ha⟩)⟩
      · exact ⟨r, first' ++ rest', rfl, (ih r).mpr (.inr ⟨e, first', rest', rfl, he, hrest⟩)⟩

/-- A call and what follows it. -/
theorem traces_call_bind {op : I.Op} {f : I.Res op → Async I ε α} :
    Traces (call op >>= f) evs x ↔ (∃ e, x = .error e ∧ evs = [⟨op, .error e⟩]) ∨
      ∃ a rest, evs = ⟨op, .ok a⟩ :: rest ∧ Traces (f a) rest x := by
  simp only [traces_bind, traces_call]
  constructor
  · rintro (h | ⟨a, first, rest, rfl, rfl, h⟩)
    · exact .inl h
    · exact .inr ⟨a, rest, rfl, h⟩
  · rintro (h | ⟨a, rest, rfl, h⟩)
    · exact .inl h
    · exact .inr ⟨a, [_], rest, rfl, rfl, h⟩

end Rules

namespace Traces

/-- Two traces of one list of events end in the same way at the same place. -/
theorem unique {p : Async I ε α} {evs evs' rest rest' : List (Event I ε)} {x x' : Except ε α}
    (h : Traces p evs x) (h' : Traces p evs' x') (heq : evs ++ rest = evs' ++ rest') :
    evs = evs' ∧ x = x' := by
  -- induction on the program; the first call and its answer are the same in both traces
  induction p generalizing evs evs' with
  | done a =>
    obtain ⟨rfl, rfl⟩ := h
    obtain ⟨rfl, rfl⟩ := h'
    exact ⟨rfl, rfl⟩
  | fail e =>
    obtain ⟨rfl, rfl⟩ := h
    obtain ⟨rfl, rfl⟩ := h'
    exact ⟨rfl, rfl⟩
  | await op k ih =>
    obtain ⟨r, tail, rfl, hk⟩ := h
    obtain ⟨r', tail', rfl, hk'⟩ := h'
    simp only [List.cons_append, List.cons.injEq] at heq
    obtain ⟨hev, htails⟩ := heq
    cases hev
    obtain ⟨rfl, rfl⟩ := ih r hk hk' htails
    exact ⟨rfl, rfl⟩

/-- The calls of a trace are calls of the program. -/
theorem forall_of_only {P : I.Op → Prop} {p : Async I ε α} (hp : Only P p)
    {evs : List (Event I ε)} {x : Except ε α} (h : Traces p evs x) : ∀ ev ∈ evs, P ev.op := by
  -- induction on the program; each of its calls is allowed, whatever it is answered
  induction p generalizing evs with
  | done a =>
    obtain ⟨rfl, -⟩ := h
    simp
  | fail e =>
    obtain ⟨rfl, -⟩ := h
    simp
  | await op k ih =>
    rw [Only.await_iff] at hp
    obtain ⟨r, rest, rfl, hk⟩ := h
    intro ev hev
    rcases List.mem_cons.mp hev with rfl | hev
    · exact hp.1
    · exact ih r (hp.2 r) hk ev hev

/-- Every execution is a trace. -/
theorem of_exec {W : World I ε σ κ} {p : Async I ε α} {cs : List κ} {l l' : Log I ε} {s s' : σ}
    {x : Except ε α} (h : exec W p cs l s = some (l', x, s')) :
    ∃ evs, l' = evs.reverse ++ l ∧ Traces p evs x := by
  -- induction on the program; each call takes one choice
  induction p generalizing cs l s with
  | done a =>
    cases cs with
    | cons c cs => cases h
    | nil =>
      cases h
      exact ⟨[], rfl, rfl, rfl⟩
  | fail e =>
    cases cs with
    | cons c cs => cases h
    | nil =>
      cases h
      exact ⟨[], rfl, rfl, rfl⟩
  | await op k ih =>
    cases cs with
    | nil => cases h
    | cons c cs =>
      simp only [exec] at h
      -- a call that the world does not allow is no execution
      split at h
      · obtain ⟨evs, hl, ht⟩ := ih _ h
        refine ⟨⟨op, (W.serve op c s).1⟩ :: evs, ?_, _, evs, rfl, ht⟩
        rw [hl]
        simp
      · cases h

end Traces

end Async
