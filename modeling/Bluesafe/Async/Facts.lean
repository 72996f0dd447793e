import Bluesafe.Async.Safe

/-!
# Facts that answers show

A fact about the store that stays true once it is true can be learned from an answer and used
much later: whatever other requests do in between, it still holds. `Facts` names such facts,
the events that show them, and the facts that each call rests on. When every request makes a
call only after answers that show what the call rests on (`Facts.rests`), an invariant that each
well-founded call keeps holds in every run (`Facts.founded_run`).
-/

namespace Async

open Transition

variable {I : Interface} {ε σ κ ρ α φ : Type}

/-- Facts about a store: when one holds, which events show it, and which calls rest on it. -/
structure Facts (I : Interface) (ε σ φ : Type) where
  holds : σ → φ → Prop
  shows : Event I ε → φ → Prop
  needs : I.Op → φ → Prop

namespace Facts

/-- What the world must do: no call refutes a fact, an answer shows only facts that hold, and a
    call whose facts hold keeps the invariant. -/
structure Lawful (F : Facts I ε σ φ) (W : World I ε σ κ) (Inv : σ → Prop) : Prop where
  stable : ∀ {op c s f}, F.holds s f → F.holds (W.serve op c s).2 f
  shown : ∀ {op c s f}, Inv s → F.shows ⟨op, (W.serve op c s).1⟩ f → F.holds s f
  kept : ∀ {op c s}, Inv s → (∀ f, F.needs op f → F.holds s f) → Inv (W.serve op c s).2

/-- The request has seen everything that the call rests on. -/
def rests (F : Facts I ε σ φ) (l : Log I ε) (op : I.Op) : Prop :=
  ∀ f, F.needs op f → ∃ ev ∈ l, F.shows ev f

/-- The invariant holds, and so does everything that the requests have seen. -/
structure Founded (F : Facts I ε σ φ) (Inv : σ → Prop) (P : Pool I ε σ ρ α) : Prop where
  inv : Inv P.store
  seen : ∀ th ∈ P.threads, ∀ ev ∈ th.log, ∀ f, F.shows ev f → F.holds P.store f
  safe : ∀ th ∈ P.threads, th.Safe fun _ => F.rests

variable {F : Facts I ε σ φ} {W : World I ε σ κ} {Inv : σ → Prop} {P P' : Pool I ε σ ρ α}
  {handle : ρ → Async I ε α}

theorem founded_start {s : σ} (hs : Inv s) : F.Founded Inv (⟨s, []⟩ : Pool I ε σ ρ α) :=
  ⟨hs, fun _ hth => (nomatch hth), fun _ hth => nomatch hth⟩

theorem Founded.step (h : F.Founded Inv P) (hF : F.Lawful W Inv)
    (hsafe : ∀ req, Async.Safe F.rests (handle req) []) {a : Act ρ κ}
    (hstep : poolStep W handle P a = some P') : F.Founded Inv P' := by
  have hnext := poolStep_safe hsafe hstep h.safe
  have hcases := poolStep_cases hstep
  refine ⟨?_, fun u hu ev hev f hshow => ?_, hnext⟩
  · obtain ⟨req, -, rfl⟩ | ⟨i, c, th, op, k, -, hth, hprog, -, rfl⟩ := hcases
    · exact h.inv
    · -- what the call rests on was seen, so it holds now
      have hmem := List.mem_of_getElem? hth
      refine hF.kept h.inv fun f hneed => ?_
      obtain ⟨ev, hev, hshow⟩ := (h.safe th hmem).ok_of_await hprog f hneed
      exact h.seen th hmem ev hev f hshow
  · have hholds : F.holds P.store f := by
      rcases mem_log_step hstep hu hev with ⟨v, hv, -, hev⟩ | ⟨i, c, th, op, k, -, -, -, -, rfl, -⟩
      · exact h.seen v hv ev hev f hshow
      · exact hF.shown h.inv hshow
    obtain ⟨req, -, rfl⟩ | ⟨i, c, th, op, k, -, hth, hprog, -, rfl⟩ := hcases
    · exact hholds
    · exact hF.stable hholds

/-- In every run the invariant holds, and so does everything that the requests have seen. -/
theorem founded_run (hF : F.Lawful W Inv) (hsafe : ∀ req, Async.Safe F.rests (handle req) [])
    {s : σ} (hs : Inv s) {ms : List (Move (Pool I ε σ ρ α) (Act ρ κ))}
    (run : Run (poolStep W handle) ⟨s, []⟩ ms P) : F.Founded Inv P :=
  run.invariant (P := F.Founded Inv) (C := fun _ => True) (fun _ _ => trivial) (founded_start hs)
    fun _ hm _ h => h.step hF hsafe hm

end Facts

end Async
