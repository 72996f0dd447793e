import Bluesafe.Async.Recorded
import Bluesafe.Async.Sum

/-!
# Programs in place of calls

`interp h p` runs the program `h op` where `p` makes the call `op`. This takes a program that
leaves a service to one call to the program in which the service makes its own calls.
`interp` commutes with sequencing, and a single call becomes its program.

`World.sum` answers the calls of two interfaces on two states, and a program of the right one
does there what it does alone (`returns_inr`).
-/

namespace Async

variable {I J : Interface} {ε α β : Type}

/-! ## Interpretation -/

/-- The program that returns its own rejection. -/
def attempt : Async I ε α → Async I ε (Except ε α)
  | done a => done (.ok a)
  | fail e => done (.error e)
  | await op k => await op fun r => attempt (k r)

/-- The program with `h op` in place of each call `op`. -/
def interp (h : (op : I.Op) → Async J ε (I.Res op)) : Async I ε α → Async J ε α
  | done a => done a
  | fail e => fail e
  | await op k => (attempt (h op)).bind fun r => interp h (k r)

variable {h : (op : I.Op) → Async J ε (I.Res op)}

@[simp] theorem interp_pure (a : α) : interp h (pure a) = pure a := rfl

@[simp] theorem interp_bind (p : Async I ε β) (f : β → Async I ε α) :
    interp h (p >>= f) = interp h p >>= fun b => interp h (f b) := by
  show interp h (p.bind f) = (interp h p).bind _
  induction p with
  | done a => rfl
  | fail e => rfl
  | await op k ih => simp only [Async.bind, interp, ih, Async.bind_assoc]

@[simp] theorem interp_map (p : Async I ε β) (f : β → α) :
    interp h (f <$> p) = f <$> interp h p :=
  interp_bind p fun b => pure (f b)

/-- A rejection that is returned and thrown again. -/
theorem attempt_bind_rethrow (p : Async J ε α) {f : Except ε α → Async J ε α}
    (hok : ∀ a, f (.ok a) = done a) (herror : ∀ e, f (.error e) = fail e) : (attempt p).bind f = p := by
  induction p with
  | done a => exact hok a
  | fail e => exact herror e
  | await op k ih =>
    show Async.await op (fun r => (attempt (k r)).bind f) = _
    rw [funext ih]

@[simp] theorem interp_call (op : I.Op) : interp h (call op) = h op :=
  attempt_bind_rethrow (h op) (fun _ => rfl) fun _ => rfl

namespace Clean

/-- A program that makes only calls in `P`, whose continuation does so after every value. -/
theorem attempt_bind {P : J.Op → Prop} {p : Async J ε β} {f : Except ε β → Async J ε α}
    (hp : Clean P p) (hf : ∀ b, Clean P (f (.ok b))) : Clean P ((attempt p).bind f) := by
  induction p with
  | done b => exact hf b
  | fail e => exact hp.elim
  | await op k ih => exact ⟨hp.1, fun a => ih (.ok a) (hp.2 a)⟩

/-- The calls of the programs that stand for the calls in `P`. -/
theorem interp {P : I.Op → Prop} {P' : J.Op → Prop} {p : Async I ε α} (hp : Clean P p)
    (hh : ∀ op, P op → Clean P' (h op)) : Clean P' (interp h p) := by
  induction p with
  | done a => trivial
  | fail e => exact hp.elim
  | await op k ih => exact attempt_bind (hh op hp.1) fun a => ih (.ok a) (hp.2 a)

/-- A program of the left summand makes its calls. -/
theorem inl {P : I.Op → Prop} {p : Async I ε α} (hp : Clean P p) :
    Clean (Sum.elim P fun _ => False) (inl p : Async (I.sum J) ε α) := by
  induction p with
  | done a => trivial
  | fail e => exact hp.elim
  | await op k ih => exact ⟨hp.1, fun a => ih (.ok a) (hp.2 a)⟩

end Clean

/-! ## The right summand -/

/-- The program with its calls in the right summand. -/
def inr : Async J ε α → Async (I.sum J) ε α
  | done a => done a
  | fail e => fail e
  | await op k => await (.inr op) fun r => inr (k r)

end Async

/-- Two worlds side by side; a call is answered by its own. -/
def World.sum {I J : Interface} {ε σ σ' κ κ' : Type} (W : World I ε σ κ) (W' : World J ε σ' κ') :
    World (I.sum J) ε (σ × σ') (κ × κ') where
  allow
    | .inl op, c, g => W.allow op c.1 g.1
    | .inr op, c, g => W'.allow op c.2 g.2
  serve
    | .inl op, c, g => ((W.serve op c.1 g.1).1, (W.serve op c.1 g.1).2, g.2)
    | .inr op, c, g => ((W'.serve op c.2 g.2).1, g.1, (W'.serve op c.2 g.2).2)

namespace Async

variable {I J : Interface} {ε σ σ' κ κ' α : Type} {W : World I ε σ κ} {W' : World J ε σ' κ'}

/-- A program of the right summand returns there as it does alone, and leaves the left state
    alone. -/
theorem returns_inr {p : Async J ε α} {Q : α → σ' → Prop} {g : σ × σ'} (hp : Returns W' p Q g.2) :
    Returns (W.sum W') (inr p : Async (I.sum J) ε α) (fun a g' => g'.1 = g.1 ∧ Q a g'.2) g := by
  have hwp := hp []
  clear hp
  generalize ([] : Log J ε) = l at hwp
  intro l'
  induction p generalizing g l l' with
  | done a => exact ⟨rfl, hwp⟩
  | fail e => exact hwp
  | await op k ih =>
    intro c hc
    have hstep := hwp c.2 hc
    -- the same answer on both sides
    have hnext : ∀ r (g' : σ × σ') l l', g'.1 = g.1 →
        wp (seqSpec W') (k r) (fun a g => Q a g.2) (fun _ _ => False) (l, g'.2) →
        wp (seqSpec (W.sum W')) (inr (k r) : Async (I.sum J) ε α)
          (fun a g' => g'.2.1 = g.1 ∧ Q a g'.2.2) (fun _ _ => False) (l', g') := by
      intro r g' l l' hg hk
      have hih := ih r l hk l'
      rwa [hg] at hih
    show post _ _ (W'.serve op c.2 g.2).1 _
    cases hr : (W'.serve op c.2 g.2).1 with
    | ok a =>
      rw [hr] at hstep
      exact hnext (.ok a) _ _ _ rfl hstep
    | error e =>
      rw [hr] at hstep
      exact hnext (.error e) _ _ _ rfl hstep

end Async
