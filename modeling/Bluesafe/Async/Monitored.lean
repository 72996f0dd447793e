import Bluesafe.Async.Interp
import Bluesafe.Async.Only
import Bluesafe.Async.Safe

/-!
# Monitored programs and the state

A monitor accepts calls by looking at the calls before. Where every call that it accepts
keeps a relation `G` between the log and the state, a program that meets the monitor keeps
`G` to its end (`wp_of_monitor`), and so does a step of the sequential system
(`seqStep_monitored`).

A program of the left interface that meets a monitor meets it inside a larger program too,
where the monitor looks at the left calls of the log only (`wp_monitor_inl`).
-/

namespace Async

variable {I J : Interface} {ε σ κ ρ α : Type}

/-- A right program makes right calls. -/
theorem Only.inr {P : (I.sum J).Op → Prop} {p : Async J ε α} (hp : Only (fun op => P (.inr op)) p) :
    Only P (Async.inr p : Async (I.sum J) ε α) := by
  induction p with
  | done a => exact .pure
  | fail e => exact .throw
  | await op k ih =>
    rw [Only.await_iff] at hp
    exact Only.await_iff.mpr ⟨hp.1, fun r => ih r (hp.2 r)⟩

/-- A program meets a monitor that accepts all its calls. -/
theorem Only.safe {P : I.Op → Prop} {ok : Log I ε → I.Op → Prop} {p : Async I ε α} (hp : Only P p)
    (h : ∀ l op, P op → ok l op) (l : Log I ε) : Safe ok p l := by
  induction p generalizing l with
  | done a => trivial
  | fail e => trivial
  | await op k ih =>
    rw [Only.await_iff] at hp
    refine ⟨h l op hp.1, fun r => ?_⟩
    cases r with
    | ok a => exact ih (.ok a) (hp.2 _) _
    | error e => exact ih (.error e) (hp.2 _) _

/-- The same for a monitor that needs a property of the log, which the calls keep; it holds at
    both exits. -/
theorem Only.meets {P : I.Op → Prop} {ok : Log I ε → I.Op → Prop} {G : Log I ε → Prop}
    {p : Async I ε α} (hp : Only P p) (hok : ∀ l op, P op → G l → ok l op)
    (hkeep : ∀ l op r, P op → G l → G (⟨op, r⟩ :: l)) {l : Log I ε} (h : G l) :
    wp (monitor ok) p (fun _ => G) (fun _ => G) l := by
  induction p generalizing l with
  | done a => exact h
  | fail e => exact h
  | await op k ih =>
    rw [Only.await_iff] at hp
    refine ⟨hok l op hp.1 h, fun r => ?_⟩
    have hnext := hkeep l op r hp.1 h
    cases r with
    | ok a => exact ih (.ok a) (hp.2 _) hnext
    | error e => exact ih (.error e) (hp.2 _) hnext

/-- The same where the rejection plays no part. -/
theorem Only.gives {P : I.Op → Prop} {ok : Log I ε → I.Op → Prop} {G : Log I ε → Prop}
    {p : Async I ε α} (hp : Only P p) (hok : ∀ l op, P op → G l → ok l op)
    (hkeep : ∀ l op r, P op → G l → G (⟨op, r⟩ :: l)) {l : Log I ε} (h : G l) :
    Gives ok p (fun _ l' => G l') l :=
  wp_mono _ _ (monitor_mono ok) (fun _ _ h => h) (fun _ _ _ => trivial) (hp.meets hok hkeep h)

/-! ## The left calls of a log -/

/-- The calls of the left interface. -/
def lefts : Log (I.sum J) ε → Log I ε
  | [] => []
  | ⟨.inl op, r⟩ :: l => ⟨op, r⟩ :: lefts l
  | ⟨.inr _, _⟩ :: l => lefts l

/-- The answers of the left calls. -/
theorem mem_lefts {l : Log (I.sum J) ε} {ev : Event I ε} :
    ev ∈ lefts l ↔ (⟨.inl ev.op, ev.res⟩ : Event (I.sum J) ε) ∈ l := by
  induction l with
  | nil => simp [lefts]
  | cons x l ih =>
    obtain ⟨op, r⟩ := x
    cases op with
    | inl op =>
      simp only [lefts, List.mem_cons, ih]
      refine or_congr_left ⟨fun h => by rw [h], fun h => ?_⟩
      cases h
      rfl
    | inr op =>
      simp only [lefts, List.mem_cons, ih]
      refine ⟨.inr, fun h => h.resolve_left fun h => ?_⟩
      cases h

/-- A program of the left interface as part of a larger one. -/
theorem wp_monitor_inl {ok : Log I ε → I.Op → Prop} {ok' : Log (I.sum J) ε → (I.sum J).Op → Prop}
    (hok : ∀ l op, ok (lefts l) op → ok' l (.inl op)) {p : Async I ε α}
    {Q : α → Log I ε → Prop} {E : ε → Log I ε → Prop} {l : Log (I.sum J) ε}
    (hp : wp (monitor ok) p Q E (lefts l)) :
    wp (monitor ok') (inl p : Async (I.sum J) ε α) (fun a l' => Q a (lefts l'))
      (fun e l' => E e (lefts l')) l := by
  induction p generalizing l with
  | done a => exact hp
  | fail e => exact hp
  | await op k ih =>
    refine ⟨hok l op hp.1, fun r => ?_⟩
    have hrest := hp.2 r
    cases r with
    | ok a => exact ih (.ok a) (l := ⟨.inl op, .ok a⟩ :: l) hrest
    | error e => exact ih (.error e) (l := ⟨.inl op, .error e⟩ :: l) hrest

/-- The monitor of the left calls, for programs that make no others. -/
def onLefts (ok : Log I ε → I.Op → Prop) (l : Log (I.sum J) ε) : (I.sum J).Op → Prop
  | .inl op => ok (lefts l) op
  | .inr _ => False

theorem safe_inl {ok : Log I ε → I.Op → Prop} {p : Async I ε α} (hp : Safe ok p []) :
    Safe (onLefts ok) (inl p : Async (I.sum J) ε α) [] :=
  wp_monitor_inl (l := []) (fun _ _ h => h) hp

/-- A monitor that accepts all left calls. -/
theorem safe_inl_of_forall {ok : Log (I.sum J) ε → (I.sum J).Op → Prop} (h : ∀ l op, ok l (.inl op))
    (p : Async I ε α) (l : Log (I.sum J) ε) : Safe ok (inl p : Async (I.sum J) ε α) l := by
  induction p generalizing l with
  | done a => trivial
  | fail e => trivial
  | await op k ih =>
    refine ⟨h l op, fun r => ?_⟩
    cases r with
    | ok a => exact ih (.ok a) _
    | error e => exact ih (.error e) _

/-- A program of the right interface, for a monitor that accepts its calls after every log. -/
theorem safe_inr {P : J.Op → Prop} {ok : Log (I.sum J) ε → (I.sum J).Op → Prop}
    (hok : ∀ l op, P op → ok l (.inr op)) {p : Async J ε α} (hp : Only P p) (l : Log (I.sum J) ε) :
    Safe ok (inr p : Async (I.sum J) ε α) l := by
  induction p generalizing l with
  | done a => trivial
  | fail e => trivial
  | await op k ih =>
    rw [Only.await_iff] at hp
    refine ⟨hok l op hp.1, fun r => ?_⟩
    cases r with
    | ok a => exact ih (.ok a) (hp.2 _) _
    | error e => exact ih (.error e) (hp.2 _) _

/-! ## Relations between the log and the state -/

section State

variable {W : World I ε σ κ} {ok : Log I ε → I.Op → Prop} {G : Log I ε → σ → Prop}

/-- A program that meets the monitor keeps what the accepted calls keep. -/
theorem wp_of_monitor
    (hstep : ∀ op c l s, ok l op → G l s → W.allow op c s = true →
      G (⟨op, (W.serve op c s).1⟩ :: l) (W.serve op c s).2)
    {p : Async I ε α} {Q : α → Log I ε → Prop} {E : ε → Log I ε → Prop} {l : Log I ε} {s : σ}
    (hp : wp (monitor ok) p Q E l) (hG : G l s) :
    wp (seqSpec W) p (fun a g => G g.1 g.2 ∧ Q a g.1) (fun e g => G g.1 g.2 ∧ E e g.1) (l, s) := by
  induction p generalizing l s with
  | done a => exact ⟨hG, hp⟩
  | fail e => exact ⟨hG, hp⟩
  | await op k ih =>
    intro c hc
    have hnext := hstep op c l s hp.1 hG hc
    have hrest := hp.2 (W.serve op c s).1
    dsimp only at hnext hrest ⊢
    generalize (W.serve op c s).1 = r at hnext hrest ⊢
    cases r with
    | ok a => exact ih (.ok a) hrest hnext
    | error e => exact ih (.error e) hrest hnext

/-- What a step of the sequential system leaves. -/
theorem seqStep_monitored
    (hstep : ∀ op c l s, ok l op → G l s → W.allow op c s = true →
      G (⟨op, (W.serve op c s).1⟩ :: l) (W.serve op c s).2)
    {handle : ρ → Async I ε α} {s s' : σ} {a : ρ × List κ} (hp : Safe ok (handle a.1) [])
    (hG : G [] s) (h : seqStep W handle s a = some s') : G (seqLog W handle s a) s' := by
  refine seqStep_sound (Q := fun g => G g.1 g.2) ?_ h
  exact wp_mono _ _ (seqSpec_mono W) (fun _ _ h => h.1) (fun _ _ h => h.1)
    (wp_of_monitor hstep hp hG)

end State

end Async
