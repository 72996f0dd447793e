import Bluesafe.Async.Only

/-!
# Invariants of one request

`Keeps W Inv p R` says that `p`, run alone in the world `W`, keeps the invariant `Inv` of its
log and of the state, however it ends, and that a value it returns meets `R`. Unlike a
monitor it looks at the state, so an answer can be known to come from a state with the
invariant; unlike `wp` it needs no postcondition at each step.
-/

/-- The world whose environment makes only choices with the property `P`. -/
def World.restrict {I : Interface} {ε σ κ : Type} (W : World I ε σ κ) (P : κ → Bool) :
    World I ε σ κ where
  allow op c s := W.allow op c s && P c
  serve := W.serve

namespace Async

variable {I : Interface} {ε σ κ ρ α β : Type}

section Restrict

variable {W : World I ε σ κ} {P : κ → Bool}

/-- A restricted world allows what the world and the restriction do. -/
theorem allow_restrict {op : I.Op} {c : κ} {s : σ} :
    (W.restrict P).allow op c s = true ↔ W.allow op c s = true ∧ P c = true := by
  simp [World.restrict]

/-- Choices within the restriction run as before. -/
theorem exec_restrict {p : Async I ε α} {cs : List κ} (h : ∀ c ∈ cs, P c = true) (l : Log I ε) (s : σ) :
    exec (W.restrict P) p cs l s = exec W p cs l s := by
  induction p generalizing cs l s with
  | done a => cases cs <;> rfl
  | fail e => cases cs <;> rfl
  | await op k ih =>
    cases cs with
    | nil => rfl
    | cons c cs =>
      have hc : P c = true := h c List.mem_cons_self
      have hallow : (W.restrict P).allow op c s = W.allow op c s := by simp [World.restrict, hc]
      have hserve : (W.restrict P).serve = W.serve := rfl
      simp only [exec, hallow, hserve, ih _ fun c' hc' => h c' (List.mem_cons_of_mem _ hc')]

/-- So does a step of a sequential run. -/
theorem seqStep_restrict {handle : ρ → Async I ε α} {s : σ} {a : ρ × List κ}
    (h : ∀ c ∈ a.2, P c = true) :
    seqStep (W.restrict P) handle s a = seqStep W handle s a := by
  unfold seqStep
  rw [exec_restrict h]

/-- And its log is the same. -/
theorem seqLog_restrict {handle : ρ → Async I ε α} {s : σ} {a : ρ × List κ}
    (h : ∀ c ∈ a.2, P c = true) :
    seqLog (W.restrict P) handle s a = seqLog W handle s a := by
  unfold seqLog
  rw [exec_restrict h]

/-- With fewer choices fewer runs have to be considered. -/
theorem wp_restrict {p : Async I ε α} {Q : α → Log I ε × σ → Prop} {E : ε → Log I ε × σ → Prop}
    {g : Log I ε × σ} (h : wp (seqSpec W) p Q E g) : wp (seqSpec (W.restrict P)) p Q E g := by
  induction p generalizing g with
  | done a => exact h
  | fail e => exact h
  | await op k ih =>
    intro c hc
    have hstep := h c (allow_restrict.mp hc).1
    show post _ _ (W.serve op c g.2).1 (⟨op, (W.serve op c g.2).1⟩ :: g.1, (W.serve op c g.2).2)
    generalize (W.serve op c g.2).1 = r at hstep ⊢
    cases r with
    | ok a => exact ih (.ok a) hstep
    | error e => exact ih (.error e) hstep

end Restrict

/-- A call of a program that runs alone: its answers and its rejections. -/
theorem wp_call {W : World I ε σ κ} {op : I.Op} {Q : I.Res op → Log I ε × σ → Prop}
    {E : ε → Log I ε × σ → Prop} {l : Log I ε} {s : σ}
    (hok : ∀ c a, W.allow op c s = true → (W.serve op c s).1 = .ok a →
      Q a (⟨op, .ok a⟩ :: l, (W.serve op c s).2))
    (herr : ∀ c e, W.allow op c s = true → (W.serve op c s).1 = .error e →
      E e (⟨op, .error e⟩ :: l, (W.serve op c s).2)) :
    wp (seqSpec W) (call op) Q E (l, s) := by
  intro c hc
  have hok := hok c
  have herr := herr c
  dsimp only at hok herr ⊢
  generalize (W.serve op c s).1 = r at hok herr ⊢
  cases r with
  | ok a => exact hok a hc rfl
  | error e => exact herr e hc rfl

/-- What holds in every state holds at the end. -/
theorem wp_of_forall {W : World I ε σ κ} {p : Async I ε α} {Q : α → Log I ε × σ → Prop}
    {E : ε → Log I ε × σ → Prop} (hQ : ∀ a g, Q a g) (hE : ∀ e g, E e g) (g : Log I ε × σ) :
    wp (seqSpec W) p Q E g := by
  induction p generalizing g with
  | done a => exact hQ a g
  | fail e => exact hE e g
  | await op k ih =>
    intro c _
    show post _ _ (W.serve op c g.2).1 (⟨op, (W.serve op c g.2).1⟩ :: g.1, (W.serve op c g.2).2)
    generalize (W.serve op c g.2).1 = r
    cases r with
    | ok a => exact ih (.ok a) _
    | error e => exact ih (.error e) _

/-- Two postconditions hold together. -/
theorem wp_and {W : World I ε σ κ} {p : Async I ε α} {Q Q' : α → Log I ε × σ → Prop}
    {E E' : ε → Log I ε × σ → Prop} {g : Log I ε × σ} (h : wp (seqSpec W) p Q E g)
    (h' : wp (seqSpec W) p Q' E' g) :
    wp (seqSpec W) p (fun a g => Q a g ∧ Q' a g) (fun e g => E e g ∧ E' e g) g := by
  induction p generalizing g with
  | done a => exact ⟨h, h'⟩
  | fail e => exact ⟨h, h'⟩
  | await op k ih =>
    intro c hc
    have hstep := h c hc
    have hstep' := h' c hc
    show post _ _ (W.serve op c g.2).1 (⟨op, (W.serve op c g.2).1⟩ :: g.1, (W.serve op c g.2).2)
    generalize (W.serve op c g.2).1 = r at hstep hstep' ⊢
    cases r with
    | ok a => exact ih (.ok a) hstep hstep'
    | error e => exact ih (.error e) hstep hstep'

/-- The program keeps the invariant, and what it returns meets `R`. -/
def Keeps (W : World I ε σ κ) (Inv : Log I ε × σ → Prop) (p : Async I ε α) (R : α → Prop) : Prop :=
  ∀ g, Inv g → wp (seqSpec W) p (fun a g => Inv g ∧ R a) (fun _ => Inv) g

namespace Keeps

variable {W : World I ε σ κ} {Inv : Log I ε × σ → Prop} {R : α → Prop}

theorem pure {a : α} (h : R a) : Keeps W Inv (Pure.pure a) R := fun _ hg => ⟨hg, h⟩

/-- A call: the state it leaves has the invariant, and its answer meets `R`. -/
theorem call {op : I.Op} {R : I.Res op → Prop}
    (h : ∀ l s c, Inv (l, s) → W.allow op c s = true →
      Inv (⟨op, (W.serve op c s).1⟩ :: l, (W.serve op c s).2) ∧
        ∀ a, (W.serve op c s).1 = .ok a → R a) :
    Keeps W Inv (Async.call op) R := by
  rintro ⟨l, s⟩ hg c hc
  obtain ⟨hinv, hans⟩ := h l s c hg hc
  dsimp only at hinv hans ⊢
  generalize (W.serve op c s).1 = r at hinv hans
  cases r with
  | ok a => exact ⟨hinv, hans a rfl⟩
  | error e => exact hinv

/-- What is said of the result may be weakened. -/
theorem mono {p : Async I ε α} {R' : α → Prop} (hp : Keeps W Inv p R) (hR : ∀ a, R a → R' a) :
    Keeps W Inv p R' :=
  fun g hg => wp_mono _ _ (seqSpec_mono W) (fun a _ h => ⟨h.1, hR a h.2⟩) (fun _ _ h => h) (hp g hg)

/-- One program after the other keeps the invariant. -/
theorem bind {p : Async I ε β} {f : β → Async I ε α} {S : β → Prop} (hp : Keeps W Inv p S)
    (hf : ∀ b, S b → Keeps W Inv (f b) R) : Keeps W Inv (p >>= f) R := by
  intro g hg
  rw [wp_bind]
  exact wp_mono _ _ (seqSpec_mono W) (fun b g' h => hf b h.2 g' h.1) (fun _ _ h => h) (hp g hg)

theorem map {p : Async I ε β} {f : β → α} (hp : Keeps W Inv p fun b => R (f b)) :
    Keeps W Inv (f <$> p) R :=
  bind hp fun _ h => pure h

/-- The handler goes on under the invariant. -/
theorem tryCatch {p : Async I ε α} {h : ε → Async I ε α} (hp : Keeps W Inv p R)
    (hh : ∀ e, Keeps W Inv (h e) R) : Keeps W Inv (MonadExcept.tryCatch p h) R := by
  intro g hg
  rw [wp_tryCatch]
  exact wp_mono _ _ (seqSpec_mono W) (fun _ _ h => h) (fun e g' h => hh e g' h) (hp g hg)

/-- A loop, one element after the other. -/
theorem forM {xs : List β} {f : β → Async I ε PUnit}
    (h : ∀ x ∈ xs, Keeps W Inv (f x) fun _ => True) : Keeps W Inv (ForM.forM xs f) fun _ => True := by
  induction xs with
  | nil => exact pure trivial
  | cons x xs ih =>
    rw [List.forM_cons]
    exact bind (h x List.mem_cons_self) fun _ _ => ih fun y hy => h y (List.mem_cons_of_mem _ hy)

/-- A program all of whose calls keep the invariant. -/
theorem of_only {P : I.Op → Prop} {p : Async I ε α} (hp : Only P p)
    (h : ∀ op c l s, P op → Inv (l, s) → W.allow op c s = true →
      Inv (⟨op, (W.serve op c s).1⟩ :: l, (W.serve op c s).2)) :
    Keeps W Inv p fun _ => True := by
  induction p with
  | done a => exact fun _ hg => ⟨hg, trivial⟩
  | fail e => exact fun _ hg => hg
  | await op k ih =>
    rw [Only.await_iff] at hp
    rintro ⟨l, s⟩ hg c hc
    have hstep := h op c l s hp.1 hg hc
    dsimp only
    generalize (W.serve op c s).1 = r at hstep ⊢
    cases r with
    | ok a => exact ih _ (hp.2 _) _ hstep
    | error e => exact ih _ (hp.2 _) _ hstep

/-- The rules of `wp` take over from a state with the invariant. -/
theorem toWp {p : Async I ε α} (hp : Keeps W Inv p R) {g : Log I ε × σ} (hg : Inv g) :
    wp (seqSpec W) p (fun a g => Inv g ∧ R a) (fun _ => Inv) g :=
  hp g hg

/-- What a step of the sequential system leaves. -/
theorem seqStep {handle : ρ → Async I ε α} {s s' : σ} {a : ρ × List κ} {R : α → Prop}
    (hp : Keeps W Inv (handle a.1) R) (hinit : Inv ([], s))
    (h : Async.seqStep W handle s a = some s') : Inv (seqLog W handle s a, s') :=
  seqStep_sound (wp_mono _ _ (seqSpec_mono W) (fun _ _ h => h.1) (fun _ _ h => h) (hp _ hinit)) h

end Keeps

-- As for `Only`, proofs about programs use the rules.
attribute [irreducible] Keeps

end Async
