import Bluesafe.Async.Exec

/-!
# Recorded runs

The log of a run shows the answers of its calls, not the choices of the environment behind
them. `World.recorded` keeps, next to the state, every call with its choice. Recording changes
nothing (`exec_recorded`), so a property of a recorded run is a property of the run with its
trace (`seqStep_recorded`).

`Ends` is `Returns` for programs that may throw, and `Clean` names the programs that only make
certain calls and return when these are answered.
-/

/-- The same world, where the choices are given in another form. -/
def World.withChoices {I : Interface} {ε σ κ κ' : Type} (W : World I ε σ κ) (f : κ' → κ) :
    World I ε σ κ' where
  allow op c s := W.allow op (f c) s
  serve op c s := W.serve op (f c) s

/-- The world that notes each call with its choice, newest first. -/
def World.recorded {I : Interface} {ε σ κ : Type} (W : World I ε σ κ) :
    World I ε (σ × List (I.Op × κ)) κ where
  allow op c g := W.allow op c g.1
  serve op c g := ((W.serve op c g.1).1, (W.serve op c g.1).2, (op, c) :: g.2)

namespace Async

variable {I : Interface} {ε σ κ ρ α β : Type} {W : World I ε σ κ}

/-- The state without its trace. -/
def dropTrace (x : Log I ε × Except ε α × σ × List (I.Op × κ)) : Log I ε × Except ε α × σ :=
  (x.1, x.2.1, x.2.2.1)

/-- Recording does not change what a program does. -/
theorem exec_recorded (p : Async I ε α) (cs : List κ) (l : Log I ε) (s : σ)
    (tr : List (I.Op × κ)) :
    (exec W.recorded p cs l (s, tr)).map dropTrace = exec W p cs l s := by
  induction p generalizing cs l s tr with
  | done a => cases cs <;> rfl
  | fail e => cases cs <;> rfl
  | await op k ih =>
    cases cs with
    | nil => rfl
    | cons c cs =>
      have hallow : W.recorded.allow op c (s, tr) = W.allow op c s := rfl
      simp only [exec, hallow]
      by_cases hc : W.allow op c s = true
      · rw [if_pos hc, if_pos hc]
        exact ih _ _ _ _ _
      · rw [if_neg hc, if_neg hc]
        rfl

/-- The calls of a request with their choices, newest first. -/
def seqTrace (W : World I ε σ κ) (handle : ρ → Async I ε α) (s : σ) (a : ρ × List κ) :
    List (I.Op × κ) :=
  ((exec W.recorded (handle a.1) a.2 [] (s, [])).map fun x => x.2.2.2).getD []

/-! ## Programs that may throw -/

/-- From state `s` every run of `p` returns and meets `Q`, or throws and meets `E`. -/
def Ends (W : World I ε σ κ) (p : Async I ε α) (Q : α → σ → Prop) (E : ε → σ → Prop) (s : σ) : Prop :=
  ∀ l, wp (seqSpec W) p (fun a g => Q a g.2) (fun e g => E e g.2) (l, s)

namespace Ends

variable {Q : α → σ → Prop} {E : ε → σ → Prop} {s : σ}

theorem pure {a : α} (h : Q a s) : Ends W (Pure.pure a) Q E s := fun _ => h

theorem mono {Q' : α → σ → Prop} {E' : ε → σ → Prop} {p : Async I ε α} (hp : Ends W p Q E s)
    (hQ : ∀ a s', Q a s' → Q' a s') (hE : ∀ e s', E e s' → E' e s') : Ends W p Q' E' s :=
  fun l => wp_mono _ _ (seqSpec_mono W) (fun a g h => hQ a g.2 h) (fun e g h => hE e g.2 h) (hp l)

/-- A program that returns. -/
theorem of_returns {p : Async I ε α} (hp : Returns W p Q s) : Ends W p Q E s :=
  fun l => wp_mono _ _ (seqSpec_mono W) (fun _ _ h => h) (fun _ _ h => h.elim) (hp l)

theorem bind {p : Async I ε β} {f : β → Async I ε α} {R : β → σ → Prop} (hp : Ends W p R E s)
    (hf : ∀ b s', R b s' → Ends W (f b) Q E s') : Ends W (p >>= f) Q E s := by
  intro l
  rw [wp_bind]
  exact wp_mono _ _ (seqSpec_mono W) (fun b g hR => hf b g.2 hR g.1) (fun _ _ h => h) (hp l)

/-- `try`: the handler returns from every state in which the program throws. -/
theorem tryCatch {p : Async I ε α} {h : ε → Async I ε α} (hp : Ends W p Q E s)
    (hh : ∀ e s', E e s' → Returns W (h e) Q s') : Returns W (MonadExcept.tryCatch p h) Q s := by
  intro l
  rw [wp_tryCatch]
  exact wp_mono _ _ (seqSpec_mono W) (fun _ _ h => h) (fun e g he => hh e g.2 he g.1) (hp l)

end Ends

/-- What every recorded run of a request meets holds of the request with its trace. -/
theorem seqStep_recorded {handle : ρ → Async I ε α} {s s' : σ} {a : ρ × List κ}
    {Q : σ × List (I.Op × κ) → Prop}
    (hp : Ends W.recorded (handle a.1) (fun _ => Q) (fun _ => Q) (s, []))
    (h : seqStep W handle s a = some s') : Q (s', seqTrace W handle s a) := by
  unfold seqStep at h
  unfold seqTrace
  rw [← exec_recorded _ _ _ _ []] at h
  cases hx : exec W.recorded (handle a.1) a.2 [] (s, []) with
  | none =>
    rw [hx] at h
    cases h
  | some x =>
    obtain ⟨l, r, t, tr⟩ := x
    rw [hx] at h
    cases h
    have hq := exec_sound (hp []) hx
    cases r with
    | ok a => exact hq
    | error e => exact hq

/-! ## Programs that throw nothing of their own -/

/-- The program makes only calls in `P` and, when they are answered, returns. -/
def Clean (P : I.Op → Prop) : Async I ε α → Prop
  | done _ => True
  | fail _ => False
  | await op k => P op ∧ ∀ a, Clean P (k (.ok a))

namespace Clean

variable {P : I.Op → Prop}

theorem pure (a : α) : Clean P (Pure.pure a : Async I ε α) := trivial

theorem call {op : I.Op} (h : P op) : Clean P (Async.call op : Async I ε (I.Res op)) :=
  ⟨h, fun _ => trivial⟩

theorem bind {p : Async I ε β} {f : β → Async I ε α} (hp : Clean P p) (hf : ∀ b, Clean P (f b)) :
    Clean P (p >>= f) := by
  show Clean P (p.bind f)
  induction p with
  | done b => exact hf b
  | fail e => exact hp.elim
  | await op k ih => exact ⟨hp.1, fun a => ih (.ok a) (hp.2 a)⟩

/-- Where the calls in `P` are answered and keep the invariant, the program returns and
    keeps it. -/
theorem returns {Inv : σ → Prop} {p : Async I ε α} (hp : Clean P p)
    (hcall : ∀ op c s, P op → Inv s → W.allow op c s = true →
      (∃ a, (W.serve op c s).1 = .ok a) ∧ Inv (W.serve op c s).2) {s : σ} (h : Inv s) :
    Returns W p (fun _ => Inv) s := by
  induction p generalizing s with
  | done a => exact fun _ => h
  | fail e => exact hp.elim
  | await op k ih =>
    intro l c hc
    obtain ⟨⟨a, ha⟩, hnext⟩ := hcall op c s hp.1 h hc
    dsimp only
    rw [ha]
    exact ih (.ok a) (hp.2 a) hnext _

end Clean

end Async
