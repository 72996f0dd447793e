import Bluesafe.Async.Exec

/-!
# First calls and progress

What a request does may depend on the environment's first choice, a clock reading for example.
`Returns.seqStep_call` opens a step of the sequential system at its first call, so that the
rest can be described for the choice that was made.

Where some choice is allowed at every call, every program can be run to its end from every
state (`exists_exec`), and a first choice that is allowed can be completed to a step
(`exists_seqStep_call`).
-/

namespace Async

variable {I : Interface} {ε σ κ ρ α : Type} {W : World I ε σ κ}

section FirstCall

variable {op : I.Op} {f : I.Res op → Async I ε α} {c : κ} {cs : List κ} {l : Log I ε} {s s' : σ}

/-- A call that is answered, and the rest of the program. -/
theorem exec_call_ok {a : I.Res op} (hallow : W.allow op c s = true)
    (hans : (W.serve op c s).1 = .ok a) :
    exec W (call op >>= f) (c :: cs) l s =
      exec W (f a) cs (⟨op, .ok a⟩ :: l) (W.serve op c s).2 := by
  show exec W (.await op _) (c :: cs) l s = _
  rw [exec, if_pos hallow, hans]
  rfl

/-- The first call is made with a choice that is allowed. -/
theorem allow_of_exec {x : Log I ε × Except ε α × σ}
    (h : exec W (call op >>= f) cs l s = some x) :
    ∃ c rest, cs = c :: rest ∧ W.allow op c s = true := by
  cases cs with
  | nil => cases h
  | cons c rest =>
    by_cases hallow : W.allow op c s = true
    · exact ⟨c, rest, rfl, hallow⟩
    · change exec W (.await op _) (c :: rest) l s = some x at h
      rw [exec, if_neg hallow] at h
      cases h

variable {handle : ρ → Async I ε α} {req : ρ}

/-- A step of a handler that starts with the call `op`: the rest runs from the answer to the
    first choice. -/
theorem Returns.seqStep_call {Q : σ → Prop} (hprog : handle req = Async.call op >>= f)
    (hstep : Async.seqStep W handle s (req, cs) = some s')
    (hf : ∀ c, cs.head? = some c → W.allow op c s = true →
      ∃ a, (W.serve op c s).1 = .ok a ∧ Returns W (f a) (fun _ => Q) (W.serve op c s).2) : Q s' := by
  obtain ⟨x, hx, hafter⟩ := Option.map_eq_some_iff.mp hstep
  change exec W (handle req) cs [] s = some x at hx
  rw [hprog] at hx
  obtain ⟨c, rest, rfl, hallow⟩ := allow_of_exec hx
  obtain ⟨a, hans, hrest⟩ := hf c rfl hallow
  rw [exec_call_ok hallow hans] at hx
  obtain ⟨l', r, t⟩ := x
  have hpost := exec_sound (hrest _) hx
  cases r with
  | ok b => exact hafter ▸ hpost
  | error e => exact hpost.elim

end FirstCall

section Progress

variable (hprogress : ∀ op s, ∃ c, W.allow op c s = true)

include hprogress

/-- Every program can be run to its end. -/
theorem exists_exec (p : Async I ε α) (l : Log I ε) (s : σ) :
    ∃ cs x, exec W p cs l s = some x := by
  induction p generalizing l s with
  | done a => exact ⟨[], _, rfl⟩
  | fail e => exact ⟨[], _, rfl⟩
  | await op k ih =>
    obtain ⟨c, hc⟩ := hprogress op s
    obtain ⟨cs, x, hx⟩ := ih (W.serve op c s).1 (⟨op, (W.serve op c s).1⟩ :: l) (W.serve op c s).2
    refine ⟨c :: cs, x, ?_⟩
    rw [exec, if_pos hc]
    exact hx

/-- A step with a given choice for the first call. -/
theorem exists_seqStep_call {handle : ρ → Async I ε α} {req : ρ} {op : I.Op}
    {f : I.Res op → Async I ε α} (hprog : handle req = call op >>= f) {c : κ} {s : σ} {a : I.Res op}
    (hallow : W.allow op c s = true) (hans : (W.serve op c s).1 = .ok a) :
    ∃ cs s', seqStep W handle s (req, c :: cs) = some s' := by
  obtain ⟨cs, x, hx⟩ := exists_exec hprogress (f a) [⟨op, .ok a⟩] (W.serve op c s).2
  refine ⟨cs, x.2.2, Option.map_eq_some_iff.mpr ⟨x, ?_, rfl⟩⟩
  show exec W (handle req) (c :: cs) [] s = some x
  rw [hprog, exec_call_ok hallow hans]
  exact hx

end Progress

end Async
