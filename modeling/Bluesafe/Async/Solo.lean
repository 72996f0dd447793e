import Bluesafe.Async.Pool
import Bluesafe.Async.Recorded

/-!
# Pools without overlap

A pool in which a request starts only when no other is in progress handles its requests one
after the other, although each of them still makes its calls step by step. An invariant of the
state that every request keeps when it runs alone then holds whenever the pool is idle
(`Solo.run_invariant`).
-/

namespace Async

open Transition

variable {I : Interface} {ε σ κ ρ α : Type}

/-- The thread has returned or thrown. -/
def Thread.isFinished (th : Thread I ε ρ α) : Bool :=
  match th.prog with
  | done _ => true
  | fail _ => true
  | await _ _ => false

theorem Thread.ne_await_of_isFinished {th : Thread I ε ρ α} (h : th.isFinished = true) {op : I.Op}
    {k : Except ε (I.Res op) → Async I ε α} : th.prog ≠ await op k := by
  intro hprog
  rw [isFinished, hprog] at h
  cases h

/-- No request is in progress. -/
def Pool.Idle (P : Pool I ε σ ρ α) : Prop := ∀ th ∈ P.threads, th.isFinished = true

/-- A request starts only when no other is in progress. -/
def StartsAlone (m : Move (Pool I ε σ ρ α) (Act ρ κ)) : Prop :=
  ∀ req, m.label = .spawn req → m.before.Idle

/-- The same, evaluated. -/
def startsAloneCheck (m : Move (Pool I ε σ ρ α) (Act ρ κ)) : Bool :=
  match m.label with
  | .spawn _ => m.before.threads.all Thread.isFinished
  | .advance _ _ => true

theorem startsAlone_of_check {m : Move (Pool I ε σ ρ α) (Act ρ κ)} (h : startsAloneCheck m = true) :
    StartsAlone m := by
  intro req hlabel
  rw [startsAloneCheck, hlabel] at h
  exact List.all_eq_true.mp h

variable {W : World I ε σ κ} {handle : ρ → Async I ε α} {Inv : σ → Prop}

/-- At most the last thread is in progress, and what is left of it keeps the invariant. -/
def Solo (W : World I ε σ κ) (Inv : σ → Prop) (P : Pool I ε σ ρ α) : Prop :=
  (P.threads = [] ∧ Inv P.store) ∨
    ∃ front th, P.threads = front ++ [th] ∧ (∀ u ∈ front, u.isFinished = true) ∧
      wp (seqSpec W) th.prog (fun _ g => Inv g.2) (fun _ g => Inv g.2) (th.log, P.store)

namespace Solo

theorem inv_of_idle {P : Pool I ε σ ρ α} (h : Solo W Inv P) (hidle : P.Idle) : Inv P.store := by
  rcases h with ⟨-, hinv⟩ | ⟨front, th, hthreads, -, hwp⟩
  · exact hinv
  · have hfinished : th.isFinished = true := hidle th (by simp [hthreads])
    cases hprog : th.prog with
    | done a => rwa [hprog] at hwp
    | fail e => rwa [hprog] at hwp
    | await op k => exact absurd hprog (Thread.ne_await_of_isFinished hfinished)

/-- The new thread becomes the last one. -/
theorem spawn (hkeeps : ∀ req s, Inv s → Ends W (handle req) (fun _ => Inv) (fun _ => Inv) s)
    {P : Pool I ε σ ρ α} (h : Solo W Inv P) (hidle : P.Idle) (req : ρ) :
    Solo W Inv ⟨P.store, P.threads ++ [⟨req, [], handle req⟩]⟩ :=
  .inr ⟨P.threads, _, rfl, hidle, hkeeps req _ (h.inv_of_idle hidle) []⟩

/-- Only the last thread can make a call. -/
theorem advance {P : Pool I ε σ ρ α} (h : Solo W Inv P) {i : Nat} {c : κ} {th : Thread I ε ρ α}
    {op : I.Op} {k : Except ε (I.Res op) → Async I ε α} (hth : P.threads[i]? = some th)
    (hprog : th.prog = await op k) (hallow : W.allow op c P.store = true) :
    Solo W Inv ⟨(W.serve op c P.store).2,
      P.threads.set i (th.resume op (W.serve op c P.store).1 k)⟩ := by
  rcases h with ⟨hnil, -⟩ | ⟨front, last, hthreads, hfront, hwp⟩
  · rw [hnil] at hth
    cases hth
  · rw [hthreads] at hth ⊢
    by_cases hi : i < front.length
    · -- the threads in front of the last one are finished
      rw [List.getElem?_append_left hi] at hth
      exact absurd hprog (Thread.ne_await_of_isFinished (hfront th (List.mem_of_getElem? hth)))
    · rw [List.getElem?_append_right (by omega)] at hth
      have hlast : i - front.length = 0 ∧ last = th := by
        cases hj : i - front.length with
        | zero =>
          rw [hj] at hth
          exact ⟨rfl, Option.some.inj hth⟩
        | succ j =>
          rw [hj] at hth
          cases hth
      obtain ⟨hzero, rfl⟩ := hlast
      refine .inr ⟨front, last.resume op (W.serve op c P.store).1 k, ?_, hfront, ?_⟩
      · show (front ++ [last]).set i _ = _
        rw [List.set_append_right i _ (by omega), hzero]
        rfl
      · rw [hprog] at hwp
        have hnext := hwp c hallow
        show wp _ (k (W.serve op c P.store).1) _ _ (⟨op, (W.serve op c P.store).1⟩ :: last.log, _)
        dsimp only at hnext
        generalize (W.serve op c P.store).1 = r at hnext ⊢
        cases r with
        | ok a => exact hnext
        | error e => exact hnext

/-- What every request keeps when it runs alone holds whenever the pool is idle. -/
theorem run_invariant
    (hkeeps : ∀ req s, Inv s → Ends W (handle req) (fun _ => Inv) (fun _ => Inv) s) {s : σ}
    {ms : List (Move (Pool I ε σ ρ α) (Act ρ κ))} {P : Pool I ε σ ρ α}
    (run : Run (poolStep W handle) ⟨s, []⟩ ms P) (halone : ∀ m ∈ ms, StartsAlone m) (h : Inv s)
    (hidle : P.Idle) : Inv P.store := by
  have hsolo : Solo W Inv P := by
    apply run.invariant halone (.inl ⟨rfl, h⟩)
    intro m hstep hm hbefore
    obtain ⟨req, hlabel, hafter⟩ | ⟨i, c, th, op, k, -, hth, hprog, hallow, hafter⟩ :=
      poolStep_cases hstep
    · rw [hafter]
      exact hbefore.spawn hkeeps (hm req hlabel) req
    · rw [hafter]
      exact hbefore.advance hth hprog hallow
  exact hsolo.inv_of_idle hidle

end Solo

end Async
