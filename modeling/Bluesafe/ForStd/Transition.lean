import Mathlib.Data.List.Basic

/-!
# Labelled transition systems

A system is given by its transition function `step : σ → ℓ → Option σ`: in state `s`
the label `a` is either refused (`none`) or leads to one next state. All nondeterminism
is in the choice of labels, so a concrete run is a list of labels and can be evaluated
(`replay`), while `Run` ranges over all of them.

A run keeps its moves, newest first, so that a property of a run can speak about the
state in which each label was taken. `Run.invariant` is the induction principle behind
every safety theorem: a condition on the moves may be assumed at each step.
-/

namespace Transition

variable {σ ℓ : Type}

/-- One step of a run: the state before it, its label, the state after it. -/
structure Move (σ ℓ : Type) where
  before : σ
  label : ℓ
  after : σ

/-- `Run step s ms t`: the moves `ms` (newest first) lead from `s` to `t`. -/
inductive Run (step : σ → ℓ → Option σ) (s : σ) : List (Move σ ℓ) → σ → Prop
  | nil : Run step s [] s
  | cons {ms : List (Move σ ℓ)} {t u : σ} {a : ℓ} (run : Run step s ms t)
      (h : step t a = some u) : Run step s (⟨t, a, u⟩ :: ms) u

variable {step : σ → ℓ → Option σ} {s t : σ} {ms : List (Move σ ℓ)}

/-- Every move of a run is a step of the system. -/
theorem Run.step_of_mem (run : Run step s ms t) {m : Move σ ℓ} (hm : m ∈ ms) :
    step m.before m.label = some m.after := by
  induction run with
  | nil => cases hm
  | cons _ h ih =>
    rcases List.mem_cons.mp hm with rfl | hm
    · exact h
    · exact ih hm

/-- A property of the start that every move meeting `C` preserves holds at the end of
    every run whose moves all meet `C`. -/
theorem Run.invariant {P : σ → Prop} {C : Move σ ℓ → Prop} (run : Run step s ms t)
    (hC : ∀ m ∈ ms, C m) (h₀ : P s)
    (hstep : ∀ m : Move σ ℓ, step m.before m.label = some m.after → C m →
      P m.before → P m.after) : P t := by
  induction run with
  | nil => exact h₀
  | cons _ h ih =>
    have hm := hC _ List.mem_cons_self
    have hrest : P _ := ih fun m hmem => hC m (List.mem_cons_of_mem _ hmem)
    exact hstep _ h hm hrest

/-- The states a run passes through satisfy the invariant as well. -/
theorem Run.invariant_before {P : σ → Prop} {C : Move σ ℓ → Prop} (run : Run step s ms t)
    (hC : ∀ m ∈ ms, C m) (h₀ : P s)
    (hstep : ∀ m : Move σ ℓ, step m.before m.label = some m.after → C m →
      P m.before → P m.after) {m : Move σ ℓ} (hm : m ∈ ms) : P m.before := by
  induction run with
  | nil => cases hm
  | cons run _ ih =>
    have hrest : ∀ m ∈ _, C m := fun m hmem => hC m (List.mem_cons_of_mem _ hmem)
    rcases List.mem_cons.mp hm with rfl | hm
    · exact run.invariant hrest h₀ hstep
    · exact ih hrest hm

/-- A run stopped before one of its moves, and the rest of it. -/
theorem Run.split (run : Run step s ms t) {m : Move σ ℓ} (hm : m ∈ ms) :
    ∃ ms₁ ms₂, Run step s ms₁ m.before ∧ Run step m.before ms₂ t := by
  induction run with
  | nil => cases hm
  | cons run h ih =>
    rcases List.mem_cons.mp hm with rfl | hm
    · exact ⟨_, _, run, .cons .nil h⟩
    · obtain ⟨ms₁, ms₂, run₁, run₂⟩ := ih hm
      exact ⟨ms₁, _, run₁, .cons run₂ h⟩

/-- A property that no move takes away holds at the end once it held before a move. -/
theorem Run.kept {Q : σ → Prop} (run : Run step s ms t)
    (hkeep : ∀ m ∈ ms, Q m.before → Q m.after) {m : Move σ ℓ} (hm : m ∈ ms) (h : Q m.before) :
    Q t := by
  induction run with
  | nil => cases hm
  | cons run _ ih =>
    have hlast := hkeep _ List.mem_cons_self
    rcases List.mem_cons.mp hm with rfl | hm
    · exact hlast h
    · exact hlast (ih (fun m hmem => hkeep m (List.mem_cons_of_mem _ hmem)) hm)

/-- Evaluate a list of labels, oldest first. -/
def replay (step : σ → ℓ → Option σ) : σ → List ℓ → List (Move σ ℓ) →
    Option (List (Move σ ℓ) × σ)
  | s, [], ms => some (ms, s)
  | s, a :: as, ms =>
    match step s a with
    | none => none
    | some t => replay step t as (⟨s, a, t⟩ :: ms)

private theorem run_of_replay_acc {as : List ℓ} {ms ms' : List (Move σ ℓ)} {u : σ}
    (run : Run step s ms t) (h : replay step t as ms = some (ms', u)) :
    Run step s ms' u := by
  induction as generalizing t ms with
  | nil =>
    simp only [replay, Option.some.injEq, Prod.mk.injEq] at h
    obtain ⟨rfl, rfl⟩ := h
    exact run
  | cons a as ih =>
    simp only [replay] at h
    split at h
    · exact nomatch h
    · rename_i v hv
      exact ih (run.cons hv) h

/-- What `replay` computes is a run. -/
theorem run_of_replay {as : List ℓ} (h : replay step s as [] = some (ms, t)) :
    Run step s ms t :=
  run_of_replay_acc .nil h

private theorem map_label_replay_acc {as : List ℓ} {ms ms' : List (Move σ ℓ)} {u : σ}
    (h : replay step t as ms = some (ms', u)) :
    ms'.map Move.label = as.reverse ++ ms.map Move.label := by
  induction as generalizing t ms with
  | nil =>
    simp only [replay, Option.some.injEq, Prod.mk.injEq] at h
    obtain ⟨rfl, rfl⟩ := h
    rfl
  | cons a as ih =>
    simp only [replay] at h
    split at h
    · exact nomatch h
    · rw [ih h]
      simp

/-- The labels of the moves that `replay` computes. -/
theorem map_label_replay {as : List ℓ} (h : replay step s as [] = some (ms, t)) :
    ms.map Move.label = as.reverse := by
  simpa using map_label_replay_acc h

/-- A run found by evaluation, with a decidable property of its moves and its end. -/
theorem exists_run_of_replay (as : List ℓ) (p : List (Move σ ℓ) × σ → Bool)
    (h : (replay step s as []).any p = true) :
    ∃ ms t, Run step s ms t ∧ p (ms, t) = true := by
  cases hr : replay step s as [] with
  | none => rw [hr] at h; exact nomatch h
  | some r =>
    rw [hr] at h
    exact ⟨r.1, r.2, run_of_replay hr, h⟩

/-- The same with the labels of the run. -/
theorem exists_run_of_replay_labels (as : List ℓ) (p : List (Move σ ℓ) × σ → Bool)
    (h : (replay step s as []).any p = true) :
    ∃ ms t, Run step s ms t ∧ ms.map Move.label = as.reverse ∧ p (ms, t) = true := by
  cases hr : replay step s as [] with
  | none => rw [hr] at h; exact nomatch h
  | some r =>
    rw [hr] at h
    exact ⟨r.1, r.2, run_of_replay hr, map_label_replay hr, h⟩

end Transition
