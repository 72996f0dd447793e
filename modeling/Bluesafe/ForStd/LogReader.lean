import Bluesafe.ForStd.Transition

/-!
# Reading a value off a log

A log is a list of entries, newest first. A `LogReader` says what an entry does to a value
(`apply`) and what it claims about the value before it (`Agrees`); `replay` applies a whole
log. `Accounts` relates two states of a system whose log grew from the one to the other: the
new entries, replayed from the value of the first state, give the value of the second, and
each of them agrees with the entries before it.

`Accounts` is a preorder, so what every step accounts for a whole run accounts for
(`accounts_run`).
-/

open Transition

/-- How a value is read off a log. -/
structure LogReader (α β : Type) where
  apply : β → α → β
  Agrees : β → α → Prop

namespace LogReader

variable {α β σ ℓ : Type} (R : LogReader α β)

/-- The value after the entries. -/
def replay (b : β) (l : List α) : β :=
  l.foldr (fun a b => R.apply b a) b

/-- Every entry agrees with the ones before it. -/
def Follows (b : β) : List α → Prop
  | [] => True
  | a :: older => Follows b older ∧ R.Agrees (R.replay b older) a

/-- An entry that does nothing and claims nothing. -/
def Unread (a : α) : Prop :=
  ∀ b, R.apply b a = b ∧ R.Agrees b a

@[simp] theorem replay_nil (b : β) : R.replay b [] = b := rfl

@[simp] theorem replay_cons (b : β) (a : α) (l : List α) :
    R.replay b (a :: l) = R.apply (R.replay b l) a := rfl

/-- The replay of two parts of a log, the older one first. -/
theorem replay_append (b : β) (l l' : List α) :
    R.replay b (l ++ l') = R.replay (R.replay b l') l :=
  List.foldr_append

/-- A log is followed in two parts. -/
theorem follows_append {b : β} {l l' : List α} :
    R.Follows b (l ++ l') ↔ R.Follows b l' ∧ R.Follows (R.replay b l') l := by
  induction l with
  | nil => simp [Follows]
  | cons a l ih =>
    simp only [List.cons_append, Follows, ih, replay_append]
    exact and_assoc

/-! ## States with a log -/

variable (log : σ → List α) (view : σ → β)

/-- The log of `t` continues the log of `s` and accounts for the change. -/
def Accounts (s t : σ) : Prop :=
  ∃ new, log t = new ++ log s ∧ view t = R.replay (view s) new ∧ R.Follows (view s) new

variable {R log view} {s t u : σ}

/-- A step without an entry keeps the view. -/
theorem Accounts.same (hlog : log t = log s) (hview : view t = view s) :
    R.Accounts log view s t :=
  ⟨[], hlog, hview, trivial⟩

theorem Accounts.refl (s : σ) : R.Accounts log view s s := .same rfl rfl

/-- Two steps are accounted for by both entries. -/
theorem Accounts.trans (h : R.Accounts log view s t) (h' : R.Accounts log view t u) :
    R.Accounts log view s u := by
  obtain ⟨new, hlog, hview, hfollows⟩ := h
  obtain ⟨new', hlog', hview', hfollows'⟩ := h'
  refine ⟨new' ++ new, ?_, ?_, ?_⟩
  · rw [hlog', hlog, List.append_assoc]
  · rw [hview', hview, replay_append]
  · rw [hview] at hfollows'
    exact R.follows_append.mpr ⟨hfollows, hfollows'⟩

/-- One entry that does what the state did. -/
theorem Accounts.entry {a : α} (hlog : log t = a :: log s) (hview : view t = R.apply (view s) a)
    (hagrees : R.Agrees (view s) a) : R.Accounts log view s t :=
  ⟨[a], hlog, hview, trivial, hagrees⟩

/-- What every step of a run accounts for, the run accounts for. -/
theorem accounts_run {step : σ → ℓ → Option σ} {ms : List (Move σ ℓ)} (run : Run step s ms t)
    (hstep : ∀ m : Move σ ℓ, step m.before m.label = some m.after →
      R.Accounts log view m.before m.after) : R.Accounts log view s t :=
  run.invariant (P := R.Accounts log view s) (C := fun _ => True) (fun _ _ => trivial) (.refl s)
    fun m hm _ h => h.trans (hstep m hm)

end LogReader
