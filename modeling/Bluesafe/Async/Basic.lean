import Mathlib.Data.List.Basic

/-!
# Asynchronous programs

An `Async I ε α` is an `async` function that is suspended at its next `await`: it has
returned (`done`), thrown (`fail`), or waits for the answer of one call of the interface
`I` (`await`), and everything it does until the following call is in the continuation.
A call may reject, and a rejection that no `try` catches ends the function.

The tree is inductive, so every run of a program is finite and functions on programs
are defined by structural recursion. What a call *means* is left open here: `wp` takes
a predicate transformer for each call (a `CallSpec`) and lifts it to programs. Running
a program alone against a store and running many programs interleaved are two choices
of `CallSpec`, and the rules for sequencing, `try` and loops are proved once.
-/

/-- The calls a program may wait for, and the type of the answer to each. -/
structure Interface where
  Op : Type
  Res : Op → Type

/-- A program suspended at its next call. -/
inductive Async (I : Interface) (ε α : Type) : Type
  | done (a : α)
  | fail (e : ε)
  | await (op : I.Op) (k : Except ε (I.Res op) → Async I ε α)

namespace Async

variable {I : Interface} {ε α β γ : Type}

/-! ## Programs as a monad -/

protected def bind : Async I ε α → (α → Async I ε β) → Async I ε β
  | done a, f => f a
  | fail e, _ => fail e
  | await op k, f => await op fun r => (k r).bind f

/-- `try p catch e => h e`: the handler sees every rejection `p` does not catch itself. -/
protected def tryCatch : Async I ε α → (ε → Async I ε α) → Async I ε α
  | done a, _ => done a
  | fail e, h => h e
  | await op k, h => await op fun r => (k r).tryCatch h

instance : Monad (Async I ε) where
  pure := done
  bind := Async.bind

instance : MonadExceptOf ε (Async I ε) where
  throw := fail
  tryCatch := Async.tryCatch

protected theorem bind_done (p : Async I ε α) : p.bind done = p := by
  induction p with
  | done a => rfl
  | fail e => rfl
  | await op k ih => simp only [Async.bind, ih]

protected theorem bind_assoc (p : Async I ε α) (f : α → Async I ε β) (g : β → Async I ε γ) :
    (p.bind f).bind g = p.bind fun a => (f a).bind g := by
  induction p with
  | done a => rfl
  | fail e => rfl
  | await op k ih => simp only [Async.bind, ih]

instance : LawfulMonad (Async I ε) :=
  LawfulMonad.mk' _ Async.bind_done (fun _ _ => rfl) Async.bind_assoc

/-- Await one call and rethrow its rejection. -/
def call (op : I.Op) : Async I ε (I.Res op) :=
  await op fun
    | .ok a => done a
    | .error e => fail e

/-! ## Weakest preconditions -/

/-- The postcondition that fits the way a call or a run ended. -/
def post (Q : α → γ → Prop) (E : ε → γ → Prop) : Except ε α → γ → Prop
  | .ok a => Q a
  | .error e => E e

@[simp] theorem post_ok (Q : α → γ → Prop) (E : ε → γ → Prop) (a : α) :
    post Q E (.ok a) = Q a := rfl

theorem post_mono {Q Q' : α → γ → Prop} {E E' : ε → γ → Prop} {r : Except ε α} {g : γ}
    (hQ : ∀ a g, Q a g → Q' a g) (hE : ∀ e g, E e g → E' e g) (h : post Q E r g) :
    post Q' E' r g := by
  cases r with
  | ok a => exact hQ a g h
  | error e => exact hE e g h

/-- What one call may do to a state of type `γ`: a transformer of the two postconditions,
    one for an answer and one for a rejection. -/
abbrev CallSpec (I : Interface) (ε γ : Type) : Type :=
  (op : I.Op) → (I.Res op → γ → Prop) → (ε → γ → Prop) → γ → Prop

/-- The call specification respects weakening of the postconditions. -/
def CallSpec.Mono (Φ : CallSpec I ε γ) : Prop :=
  ∀ (op : I.Op) (K K' : I.Res op → γ → Prop) (F F' : ε → γ → Prop) (g : γ),
    (∀ a g, K a g → K' a g) → (∀ e g, F e g → F' e g) → Φ op K F g → Φ op K' F' g

/-- `wp Φ p Q E g`: from state `g` every run of `p` that answers its calls as `Φ` says
    ends in `Q` when it returns and in `E` when it throws. -/
def wp (Φ : CallSpec I ε γ) : Async I ε α → (α → γ → Prop) → (ε → γ → Prop) → γ → Prop
  | done a, Q, _, g => Q a g
  | fail e, _, E, g => E e g
  | await op k, Q, E, g =>
    Φ op (fun a => wp Φ (k (.ok a)) Q E) (fun e => wp Φ (k (.error e)) Q E) g

section Rules

variable (Φ : CallSpec I ε γ) (Q : α → γ → Prop) (E : ε → γ → Prop)

@[simp] theorem wp_pure (a : α) : wp Φ (pure a) Q E = Q a := rfl

@[simp] theorem wp_done (a : α) : wp Φ (done a) Q E = Q a := rfl

/-- Sequencing: the rest of the program is the postcondition of its first part. -/
@[simp] theorem wp_bind (p : Async I ε β) (f : β → Async I ε α) :
    wp Φ (p >>= f) Q E = wp Φ p (fun a => wp Φ (f a) Q E) E := by
  show wp Φ (p.bind f) Q E = _
  induction p with
  | done a => rfl
  | fail e => rfl
  | await op k ih =>
    funext g
    simp only [Async.bind, wp, ih]

@[simp] theorem wp_map (p : Async I ε β) (f : β → α) :
    wp Φ (f <$> p) Q E = wp Φ p (fun a => Q (f a)) E :=
  wp_bind Φ Q E p (fun a => pure (f a))

/-- `try`: the handler is the exceptional postcondition of the body. -/
@[simp] theorem wp_tryCatch (p : Async I ε α) (h : ε → Async I ε α) :
    wp Φ (tryCatch p h) Q E = wp Φ p Q (fun e => wp Φ (h e) Q E) := by
  show wp Φ (p.tryCatch h) Q E = _
  induction p with
  | done a => rfl
  | fail e => rfl
  | await op k ih =>
    funext g
    simp only [Async.tryCatch, wp, ih]

variable {Φ}

/-- Weaker postconditions have weaker preconditions. -/
theorem wp_mono (hΦ : CallSpec.Mono Φ) {Q' : α → γ → Prop} {E' : ε → γ → Prop}
    {p : Async I ε α} {g : γ} (hQ : ∀ a g, Q a g → Q' a g) (hE : ∀ e g, E e g → E' e g)
    (h : wp Φ p Q E g) : wp Φ p Q' E' g := by
  induction p generalizing g with
  | done a => exact hQ a g h
  | fail e => exact hE e g h
  | await op k ih => exact hΦ op _ _ _ _ g (fun a _ => ih (.ok a)) (fun e _ => ih (.error e)) h

/-- Loop rule: an invariant that every iteration keeps holds after the loop; an iteration may
    throw into `E`. -/
theorem wp_forM_inv (hΦ : CallSpec.Mono Φ) {Inv : γ → Prop} (xs : List α)
    (f : α → Async I ε PUnit)
    (hstep : ∀ x ∈ xs, ∀ g, Inv g → wp Φ (f x) (fun _ => Inv) E g) (g : γ) (h₀ : Inv g) :
    wp Φ (forM xs f) (fun _ => Inv) E g := by
  induction xs generalizing g with
  | nil => exact h₀
  | cons x xs ih =>
    rw [List.forM_cons, wp_bind]
    refine wp_mono _ _ hΦ (fun _ g' hinv => ?_) (fun _ _ h => h)
      (hstep x List.mem_cons_self g h₀)
    exact ih (fun y hy => hstep y (List.mem_cons_of_mem _ hy)) g' hinv

end Rules

end Async
