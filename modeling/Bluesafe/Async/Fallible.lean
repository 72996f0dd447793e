import Bluesafe.Async.Keeps

/-!
# Worlds that answer or reject

In many worlds a call is either answered, with the effect that `perform` computes, or rejected by
the choice of the environment, with the effect of `rejected`; calls that are not awaited are
always answered. `World.fallible` is that world. A call that is not awaited has one outcome
(`wp_atOnce`), and an awaited one has two (`wp_awaited`).
-/

namespace World

variable {I : Interface} {ε σ κ : Type}

/-- The calls in `isAwaited` are rejected when the choice says so. -/
def fallible (isAwaited : I.Op → Bool) (failure : κ → Option ε)
    (perform : (op : I.Op) → κ → σ → I.Res op × σ) (rejected : I.Op → σ → σ) : World I ε σ κ where
  allow op c _ := isAwaited op || (failure c).isNone
  serve op c s :=
    match failure c with
    | none => (.ok (perform op c s).1, (perform op c s).2)
    | some e => (.error e, rejected op s)

end World

namespace Async

variable {I : Interface} {ε σ κ : Type} {isAwaited : I.Op → Bool} {failure : κ → Option ε}
  {perform : (op : I.Op) → κ → σ → I.Res op × σ} {rejected : I.Op → σ → σ} {op : I.Op}
  {Q : I.Res op → Log I ε × σ → Prop} {E : ε → Log I ε × σ → Prop} {l : Log I ε} {s : σ}

/-- A call that is not awaited is answered. -/
theorem wp_atOnce (hop : isAwaited op = false)
    (h : ∀ c, Q (perform op c s).1 (⟨op, .ok (perform op c s).1⟩ :: l, (perform op c s).2)) :
    wp (seqSpec (World.fallible isAwaited failure perform rejected)) (call op) Q E (l, s) := by
  apply wp_call
  · intro c a hallow hans
    cases hf : failure c with
    | none =>
      simp only [World.fallible, hf, Except.ok.injEq] at hans ⊢
      rw [← hans]
      exact h c
    | some e => simp [World.fallible, hf] at hans
  · intro c e hallow herr
    have hnone : failure c = none := by simpa [World.fallible, hop] using hallow
    simp [World.fallible, hnone] at herr

/-- An awaited call is answered or rejected. -/
theorem wp_awaited
    (h : ∀ c, Q (perform op c s).1 (⟨op, .ok (perform op c s).1⟩ :: l, (perform op c s).2))
    (herr : ∀ e, E e (⟨op, .error e⟩ :: l, rejected op s)) :
    wp (seqSpec (World.fallible isAwaited failure perform rejected)) (call op) Q E (l, s) := by
  apply wp_call
  · intro c a hallow hans
    cases hf : failure c with
    | none =>
      simp only [World.fallible, hf, Except.ok.injEq] at hans ⊢
      rw [← hans]
      exact h c
    | some e => simp [World.fallible, hf] at hans
  · intro c e hallow he
    cases hf : failure c with
    | none => simp [World.fallible, hf] at he
    | some e' =>
      simp only [World.fallible, hf]
      exact herr e

end Async
