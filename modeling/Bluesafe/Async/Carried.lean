import Bluesafe.Async.Interp
import Bluesafe.Async.Monitored

/-!
# Monitored programs with some calls replaced

A program that meets a monitor, with programs in the place of some of its calls. The calls that stay
are made after a log that has all calls of the old one that stay, and in between the calls of the
replacing programs (`Carried`). Where the monitor accepts a call after such a log too, the new program
meets it (`Safe.carried`).
-/

namespace Async

variable {I : Interface} {ε α : Type} {stays added : I.Op → Prop}

/-- `l'` has the calls of `l` that stay, and beside the calls of `l` only ones that were added. -/
structure Carried (stays added : I.Op → Prop) (l l' : Log I ε) : Prop where
  kept : ∀ ev ∈ l, stays ev.op → ev ∈ l'
  new : ∀ ev ∈ l', ev ∈ l ∨ added ev.op

namespace Carried

variable {l l' : Log I ε}

theorem nil : Carried stays added ([] : Log I ε) [] :=
  ⟨fun _ h _ => h, fun _ h => .inl h⟩

/-- A call that stays. -/
theorem both (h : Carried stays added l l') (ev : Event I ε) :
    Carried stays added (ev :: l) (ev :: l') := by
  constructor
  · intro x hx hstays
    rcases List.mem_cons.mp hx with rfl | hx
    · exact List.mem_cons_self
    · exact List.mem_cons_of_mem _ (h.kept x hx hstays)
  · intro x hx
    rcases List.mem_cons.mp hx with rfl | hx
    · exact .inl List.mem_cons_self
    · exact (h.new x hx).imp_left (List.mem_cons_of_mem _)

/-- The end of a replacing program: its call is in the old log only. -/
theorem replaced (h : Carried stays added l l') {ev : Event I ε} (hgone : ¬ stays ev.op) :
    Carried stays added (ev :: l) l' := by
  refine ⟨fun x hx hstays => ?_, fun x hx => (h.new x hx).imp_left (List.mem_cons_of_mem _)⟩
  rcases List.mem_cons.mp hx with rfl | hx
  · exact absurd hstays hgone
  · exact h.kept x hx hstays

/-- A call of a replacing program. -/
theorem add (h : Carried stays added l l') {ev : Event I ε} (hadded : added ev.op) :
    Carried stays added l (ev :: l') := by
  refine ⟨fun x hx hstays => List.mem_cons_of_mem _ (h.kept x hx hstays), fun x hx => ?_⟩
  rcases List.mem_cons.mp hx with rfl | hx
  · exact .inr hadded
  · exact h.new x hx

end Carried

section Programs

variable {h : (op : I.Op) → Async I ε (I.Res op)} {ok ok' : Log I ε → I.Op → Prop}

/-- A program whose rejection is returned as a value: both exits go on. -/
theorem wp_attempt_bind {γ β : Type} (Φ : CallSpec I ε γ) (Q : α → γ → Prop) (E : ε → γ → Prop)
    (p : Async I ε β) (f : Except ε β → Async I ε α) :
    wp Φ ((attempt p).bind f) Q E =
      wp Φ p (fun b => wp Φ (f (.ok b)) Q E) (fun e => wp Φ (f (.error e)) Q E) := by
  induction p with
  | done b => rfl
  | fail e => rfl
  | await op k ih =>
    funext g
    simp only [attempt, Async.bind, wp, ih]

/-- The calls that stay are accepted where they were accepted before, and the programs in the place of
    the others make calls that are always accepted. -/
theorem Safe.carried (hcall : ∀ op, stays op → h op = call op)
    (hprogram : ∀ op, ¬ stays op → Only added (h op))
    (hok : ∀ l l' op, Carried stays added l l' → stays op → ok l op → ok' l' op)
    (hadded : ∀ l' op, added op → ok' l' op) {p : Async I ε α} {l l' : Log I ε} (hp : Safe ok p l)
    (hl : Carried stays added l l') : Safe ok' (interp h p) l' := by
  induction p generalizing l l' with
  | done a => trivial
  | fail e => trivial
  | await op k ih =>
    have hrest : ∀ r l'', Carried stays added (⟨op, r⟩ :: l) l'' → Safe ok' (interp h (k r)) l'' := by
      intro r l'' hl''
      refine ih r ?_ hl''
      have hnext := hp.2 r
      cases r with
      | ok a => exact hnext
      | error e => exact hnext
    show wp (monitor ok') ((attempt (h op)).bind fun r => interp h (k r)) _ _ l'
    rw [wp_attempt_bind]
    by_cases hop : stays op
    · rw [hcall op hop]
      exact wp_monitor_call (hok l l' op hl hop hp.1) (fun a => hrest (.ok a) _ (hl.both _))
        fun e => hrest (.error e) _ (hl.both _)
    · -- the replacing program adds its calls, and then the replaced one is done
      have hprog : wp (monitor ok') (h op) (fun _ => Carried stays added l)
          (fun _ => Carried stays added l) l' :=
        (hprogram op hop).meets (fun l'' op' hop' _ => hadded l'' op' hop')
          (fun _ _ _ hop' hl'' => hl''.add hop') hl
      exact wp_mono _ _ (monitor_mono ok') (fun a l'' hl'' => hrest (.ok a) l'' (hl''.replaced hop))
        (fun e l'' hl'' => hrest (.error e) l'' (hl''.replaced hop)) hprog

end Programs

end Async
