import Bluesafe.Async.Interp
import Bluesafe.Async.Traces

/-!
# Traces of interpreted programs

`interp h p` runs a program in place of each call of `p`. Its traces are those of `p` with every
event replaced by a trace of its program (`traces_interp`), so what `p` does to its events is
known before one looks into the programs.
-/

/-- The event in the left summand. -/
def Event.inl {I J : Interface} {ε : Type} (ev : Event I ε) : Event (I.sum J) ε := ⟨.inl ev.op, ev.res⟩

/-- The event in the right summand. -/
def Event.inr {I J : Interface} {ε : Type} (ev : Event J ε) : Event (I.sum J) ε := ⟨.inr ev.op, ev.res⟩

theorem Event.inr_injective {I J : Interface} {ε : Type} :
    Function.Injective (Event.inr : Event J ε → Event (I.sum J) ε) := by
  rintro ⟨op, res⟩ ⟨op', res'⟩ h
  simp only [Event.inr, Event.mk.injEq, Sum.inr.injEq] at h
  obtain ⟨rfl, hres⟩ := h
  rw [eq_of_heq hres]

namespace Async

variable {I J : Interface} {ε α : Type}

/-- The events `evs`, each replaced by a trace of the program in its place. -/
inductive Expands (h : (op : I.Op) → Async J ε (I.Res op)) :
    List (Event I ε) → List (Event J ε) → Prop
  | nil : Expands h [] []
  | cons {op : I.Op} {r : Except ε (I.Res op)} {seg evs' : List (Event J ε)}
      {evs : List (Event I ε)} (hseg : Traces (h op) seg r) (hrest : Expands h evs evs') :
      Expands h (⟨op, r⟩ :: evs) (seg ++ evs')

theorem traces_attempt_bind {β : Type} {p : Async J ε β} {f : Except ε β → Async J ε α}
    {evs : List (Event J ε)} {x : Except ε α} :
    Traces ((attempt p).bind f) evs x ↔
      ∃ r seg rest, evs = seg ++ rest ∧ Traces p seg r ∧ Traces (f r) rest x := by
  -- induction on the program that is attempted
  induction p generalizing evs with
  | done b =>
    constructor
    · exact fun h => ⟨.ok b, [], evs, rfl, ⟨rfl, rfl⟩, h⟩
    · rintro ⟨r, seg, rest, rfl, ⟨rfl, rfl⟩, h⟩
      exact h
  | fail e =>
    constructor
    · exact fun h => ⟨.error e, [], evs, rfl, ⟨rfl, rfl⟩, h⟩
    · rintro ⟨r, seg, rest, rfl, ⟨rfl, rfl⟩, h⟩
      exact h
  -- a call comes first, and the induction goes through its answer
  | await op k ih =>
    constructor
    · rintro ⟨a, tail, rfl, h⟩
      obtain ⟨r, seg, rest, rfl, hseg, hrest⟩ := (ih a).mp h
      exact ⟨r, ⟨op, a⟩ :: seg, rest, rfl, ⟨a, seg, rfl, hseg⟩, hrest⟩
    · rintro ⟨r, seg, rest, rfl, ⟨a, seg', rfl, hseg⟩, hrest⟩
      exact ⟨a, seg' ++ rest, rfl, (ih a).mpr ⟨r, seg', rest, rfl, hseg, hrest⟩⟩

/-- The traces of an interpreted program. -/
theorem traces_interp {h : (op : I.Op) → Async J ε (I.Res op)} {p : Async I ε α}
    {evs' : List (Event J ε)} {x : Except ε α} :
    Traces (interp h p) evs' x ↔ ∃ evs, Traces p evs x ∧ Expands h evs evs' := by
  -- induction on the program over the abstract calls
  induction p generalizing evs' with
  | done a =>
    constructor
    · rintro ⟨rfl, rfl⟩
      exact ⟨[], ⟨rfl, rfl⟩, .nil⟩
    · rintro ⟨evs, ⟨rfl, rfl⟩, hexp⟩
      cases hexp
      exact ⟨rfl, rfl⟩
  | fail e =>
    constructor
    · rintro ⟨rfl, rfl⟩
      exact ⟨[], ⟨rfl, rfl⟩, .nil⟩
    · rintro ⟨evs, ⟨rfl, rfl⟩, hexp⟩
      cases hexp
      exact ⟨rfl, rfl⟩
  -- one abstract call is a segment of concrete ones
  | await op k ih =>
    show Traces ((attempt (h op)).bind fun r => interp h (k r)) evs' x ↔ _
    rw [traces_attempt_bind]
    constructor
    · rintro ⟨r, seg, rest, rfl, hseg, hrest⟩
      obtain ⟨evs, hk, hexp⟩ := (ih r).mp hrest
      exact ⟨⟨op, r⟩ :: evs, ⟨r, evs, rfl, hk⟩, .cons hseg hexp⟩
    · rintro ⟨evs, ⟨r, rest, rfl, hk⟩, hexp⟩
      -- the segment of the first call ends where the next begins
      cases hexp with
      | cons hseg hexp => exact ⟨r, _, _, rfl, hseg, (ih r).mpr ⟨rest, hk, hexp⟩⟩

namespace Expands

variable {h : (op : I.Op) → Async J ε (I.Res op)} {evs : List (Event I ε)} {evs' : List (Event J ε)}

/-- An event of the expansion belongs to one of the programs. -/
theorem of_mem (hexp : Expands h evs evs') {ev' : Event J ε} (hmem : ev' ∈ evs') :
    ∃ op r seg, (⟨op, r⟩ : Event I ε) ∈ evs ∧ Traces (h op) seg r ∧ ev' ∈ seg := by
  induction hexp with
  | nil => cases hmem
  | cons hseg hrest ih =>
    rcases List.mem_append.mp hmem with hmem | hmem
    · exact ⟨_, _, _, List.mem_cons_self, hseg, hmem⟩
    · obtain ⟨op, r, seg, hev, htraces, hin⟩ := ih hmem
      exact ⟨op, r, seg, List.mem_cons_of_mem _ hev, htraces, hin⟩

/-- The trace of an event's program is in the expansion. -/
theorem exists_of_mem (hexp : Expands h evs evs') {op : I.Op} {r : Except ε (I.Res op)}
    (hmem : (⟨op, r⟩ : Event I ε) ∈ evs) :
    ∃ seg, Traces (h op) seg r ∧ ∀ ev' ∈ seg, ev' ∈ evs' := by
  induction hexp with
  | nil => cases hmem
  | cons hseg hrest ih =>
    rcases List.mem_cons.mp hmem with heq | hmem
    · cases heq
      exact ⟨_, hseg, fun ev' hev' => List.mem_append_left _ hev'⟩
    · obtain ⟨seg, htraces, hin⟩ := ih hmem
      exact ⟨seg, htraces, fun ev' hev' => List.mem_append_right _ (hin ev' hev')⟩

end Expands

/-- A program in the right summand has the traces it has alone. -/
theorem traces_inr {p : Async J ε α} {evs : List (Event (I.sum J) ε)} {x : Except ε α} :
    Traces (inr p) evs x ↔ ∃ evs₀, evs = evs₀.map Event.inr ∧ Traces p evs₀ x := by
  -- the same induction, for a program of the right summand alone
  induction p generalizing evs with
  | done a =>
    constructor
    · rintro ⟨rfl, rfl⟩
      exact ⟨[], rfl, rfl, rfl⟩
    · rintro ⟨evs₀, rfl, rfl, rfl⟩
      exact ⟨rfl, rfl⟩
  | fail e =>
    constructor
    · rintro ⟨rfl, rfl⟩
      exact ⟨[], rfl, rfl, rfl⟩
    · rintro ⟨evs₀, rfl, rfl, rfl⟩
      exact ⟨rfl, rfl⟩
  | await op k ih =>
    constructor
    · rintro ⟨r, rest, rfl, hk⟩
      obtain ⟨evs₀, rfl, hk₀⟩ := (ih r).mp hk
      exact ⟨⟨op, r⟩ :: evs₀, rfl, r, evs₀, rfl, hk₀⟩
    · rintro ⟨evs₀, rfl, r, rest, rfl, hk⟩
      exact ⟨r, rest.map Event.inr, rfl, (ih r).mpr ⟨rest, rfl, hk⟩⟩

end Async
