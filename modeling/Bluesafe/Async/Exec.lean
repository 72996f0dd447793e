import Bluesafe.Async.Basic
import Bluesafe.ForStd.Transition

/-!
# Running one program at a time

A `World` answers calls: given the environment's choice it returns an answer (or a
rejection) and the next state. Everything the program cannot know (clock readings, fresh
identifiers, replies of a remote service, which calls fail) is in the choice, and
`allow` says which choices the environment may make.

`exec` runs a program to its end against a world and keeps the log of its calls, newest
first. `seqStep` is the system in which every request is handled to its end before the
next one starts. `exec_sound` turns a `wp` proof for `seqSpec` into a fact about every
execution.
-/

/-- One call of a run together with its answer. -/
structure Event (I : Interface) (ε : Type) where
  op : I.Op
  res : Except ε (I.Res op)

/-- The calls of a run, newest first. -/
abbrev Log (I : Interface) (ε : Type) : Type := List (Event I ε)

/-- How calls are answered: `serve` computes the answer and the next state from the
    environment's choice, and `allow` restricts the choices. -/
structure World (I : Interface) (ε σ κ : Type) where
  allow : I.Op → κ → σ → Bool
  serve : (op : I.Op) → κ → σ → Except ε (I.Res op) × σ

namespace Async

variable {I : Interface} {ε σ κ ρ α : Type}

/-- Run a program to its end, one choice for each call; `none` when the choices do not
    match the calls or are not allowed. -/
def exec (W : World I ε σ κ) : Async I ε α → List κ → Log I ε → σ →
    Option (Log I ε × Except ε α × σ)
  | done a, [], l, s => some (l, .ok a, s)
  | done _, _ :: _, _, _ => none
  | fail e, [], l, s => some (l, .error e, s)
  | fail _, _ :: _, _, _ => none
  | await _ _, [], _, _ => none
  | await op k, c :: cs, l, s =>
    if W.allow op c s then
      exec W (k (W.serve op c s).1) cs (⟨op, (W.serve op c s).1⟩ :: l) (W.serve op c s).2
    else none

/-- The end of a run: its calls, how it ended, and the state it left. -/
structure Outcome (I : Interface) (ε σ α : Type) where
  log : Log I ε
  result : Except ε α
  state : σ

/-- Continue a run that returned. -/
def Outcome.andThen {β : Type} (x : Outcome I ε σ β)
    (f : β → Log I ε → σ → Outcome I ε σ α) : Outcome I ε σ α :=
  match x.result with
  | .ok b => f b x.log x.state
  | .error e => ⟨x.log, .error e, x.state⟩

/-- Run a program to its end; the environment's choice for the `n`-th call is `oracle n`. -/
def runWith (W : World I ε σ κ) (oracle : Nat → κ) : Async I ε α → Log I ε → σ →
    Outcome I ε σ α
  | done a, l, s => ⟨l, .ok a, s⟩
  | fail e, l, s => ⟨l, .error e, s⟩
  | await op k, l, s =>
    runWith W oracle (k (W.serve op (oracle l.length) s).1)
      (⟨op, (W.serve op (oracle l.length) s).1⟩ :: l) (W.serve op (oracle l.length) s).2

section RunWith

variable (W : World I ε σ κ) (oracle : Nat → κ)

@[simp] theorem runWith_pure (a : α) (l : Log I ε) (s : σ) :
    runWith W oracle (pure a) l s = ⟨l, .ok a, s⟩ := rfl

@[simp] theorem runWith_throw (e : ε) (l : Log I ε) (s : σ) :
    runWith W oracle (throw e : Async I ε α) l s = ⟨l, .error e, s⟩ := rfl

/-- A run of two parts is a run of the second part from where the first one returned. -/
theorem runWith_bind {β : Type} (p : Async I ε β) (f : β → Async I ε α) (l : Log I ε) (s : σ) :
    runWith W oracle (p >>= f) l s =
      (runWith W oracle p l s).andThen fun b => runWith W oracle (f b) := by
  show runWith W oracle (p.bind f) l s = _
  induction p generalizing l s with
  | done a => rfl
  | fail e => rfl
  | await op k ih =>
    simp only [Async.bind, runWith]
    exact ih _ _ _

/-- A call that is answered. -/
theorem runWith_call_ok {op : I.Op} {a : I.Res op} {l : Log I ε} {s : σ}
    (h : (W.serve op (oracle l.length) s).1 = .ok a) :
    runWith W oracle (call op) l s =
      ⟨⟨op, .ok a⟩ :: l, .ok a, (W.serve op (oracle l.length) s).2⟩ := by
  simp only [call, runWith, h]

/-- A call that is rejected. -/
theorem runWith_call_error {op : I.Op} {e : ε} {l : Log I ε} {s : σ}
    (h : (W.serve op (oracle l.length) s).1 = .error e) :
    runWith W oracle (call op) l s =
      ⟨⟨op, .error e⟩ :: l, .error e, (W.serve op (oracle l.length) s).2⟩ := by
  simp only [call, runWith, h]

/-- A call whose answer is the result, up to a function. -/
theorem runWith_call_pure {op : I.Op} (f : I.Res op → α) (l : Log I ε) (s : σ) :
    (runWith W oracle (call op >>= fun a => pure (f a)) l s).result =
      (W.serve op (oracle l.length) s).1.map f := by
  cases h : (W.serve op (oracle l.length) s).1 with
  | ok a =>
    rw [runWith_bind, runWith_call_ok W oracle h]
    rfl
  | error e =>
    rw [runWith_bind, runWith_call_error W oracle h]
    rfl

end RunWith

/-- The call specification of `exec`: every allowed choice must lead to the postcondition
    of its answer. The state is paired with the log. -/
def seqSpec (W : World I ε σ κ) : CallSpec I ε (Log I ε × σ) :=
  fun op K F g => ∀ c, W.allow op c g.2 = true →
    post K F (W.serve op c g.2).1
      (⟨op, (W.serve op c g.2).1⟩ :: g.1, (W.serve op c g.2).2)

theorem seqSpec_mono (W : World I ε σ κ) : CallSpec.Mono (seqSpec W) :=
  fun _ _ _ _ _ _ hK hF h c hc => post_mono hK hF (h c hc)

/-- The postconditions of a program hold at the end of every execution. -/
theorem exec_sound {W : World I ε σ κ} {p : Async I ε α} {Q : α → Log I ε × σ → Prop}
    {E : ε → Log I ε × σ → Prop} {cs : List κ} {l l' : Log I ε} {s s' : σ} {r : Except ε α}
    (hwp : wp (seqSpec W) p Q E (l, s)) (h : exec W p cs l s = some (l', r, s')) :
    post Q E r (l', s') := by
  induction p generalizing cs l s with
  | done a =>
    cases cs with
    | nil =>
      simp only [exec, Option.some.injEq, Prod.mk.injEq] at h
      obtain ⟨rfl, rfl, rfl⟩ := h
      exact hwp
    | cons _ _ => exact nomatch h
  | fail e =>
    cases cs with
    | nil =>
      simp only [exec, Option.some.injEq, Prod.mk.injEq] at h
      obtain ⟨rfl, rfl, rfl⟩ := h
      exact hwp
    | cons _ _ => exact nomatch h
  | await op k ih =>
    cases cs with
    | nil => exact nomatch h
    | cons c cs =>
      simp only [exec] at h
      split at h
      · rename_i hallow
        -- the answer that was chosen is one of those that `wp` quantifies over
        have hstep := hwp c hallow
        refine ih _ ?_ h
        generalize (W.serve op c s).1 = r' at hstep ⊢
        cases r' with
        | ok a => exact hstep
        | error e => exact hstep
      · exact nomatch h

/-- The same for a run with an oracle whose choices are allowed. -/
theorem runWith_sound {W : World I ε σ κ} {oracle : Nat → κ} {p : Async I ε α}
    {Q : α → Log I ε × σ → Prop} {E : ε → Log I ε × σ → Prop} {l : Log I ε} {s : σ}
    (hallow : ∀ op n s, W.allow op (oracle n) s = true) (hwp : wp (seqSpec W) p Q E (l, s)) :
    post Q E (runWith W oracle p l s).result
      ((runWith W oracle p l s).log, (runWith W oracle p l s).state) := by
  induction p generalizing l s with
  | done a => exact hwp
  | fail e => exact hwp
  | await op k ih =>
    have hstep := hwp (oracle l.length) (hallow op l.length s)
    simp only [runWith]
    refine ih _ ?_
    generalize (W.serve op (oracle l.length) s).1 = r at hstep ⊢
    cases r with
    | ok a => exact hstep
    | error e => exact hstep

/-- The sequential system: a label is a request with the choices made while it is
    handled, and a step handles the request to its end. -/
def seqStep (W : World I ε σ κ) (handle : ρ → Async I ε α) (s : σ) (a : ρ × List κ) :
    Option σ :=
  (exec W (handle a.1) a.2 [] s).map fun x => x.2.2

/-- The calls made while the request `a` is handled in state `s`, newest first. -/
def seqLog (W : World I ε σ κ) (handle : ρ → Async I ε α) (s : σ) (a : ρ × List κ) :
    Log I ε :=
  ((exec W (handle a.1) a.2 [] s).map fun x => x.1).getD []

/-- The choices an oracle makes while a program runs. -/
def oracleChoices (W : World I ε σ κ) (oracle : I.Op → κ) : Async I ε α → σ → List κ
  | done _, _ => []
  | fail _, _ => []
  | await op k, s =>
    oracle op :: oracleChoices W oracle (k (W.serve op (oracle op) s).1)
      (W.serve op (oracle op) s).2

/-- The labels of a sequence of requests, each handled with the choices of an oracle. -/
def oracleLabels (W : World I ε σ κ) (handle : ρ → Async I ε α) :
    List (ρ × (I.Op → κ)) → σ → List (ρ × List κ)
  | [], _ => []
  | (req, oracle) :: rest, s =>
    let a := (req, oracleChoices W oracle (handle req) s)
    match seqStep W handle s a with
    | none => [a]
    | some t => a :: oracleLabels W handle rest t

/-- A step of the sequential system satisfies every postcondition of its handler. -/
theorem seqStep_sound {W : World I ε σ κ} {handle : ρ → Async I ε α} {s s' : σ}
    {a : ρ × List κ} {Q : Log I ε × σ → Prop}
    (hwp : wp (seqSpec W) (handle a.1) (fun _ => Q) (fun _ => Q) ([], s))
    (h : seqStep W handle s a = some s') : Q (seqLog W handle s a, s') := by
  unfold seqStep seqLog at *
  cases hx : exec W (handle a.1) a.2 [] s with
  | none => rw [hx] at h; exact nomatch h
  | some x =>
    obtain ⟨l, r, t⟩ := x
    rw [hx] at h
    simp only [Option.map_some, Option.some.injEq] at h
    subst h
    have hq := exec_sound hwp hx
    cases r with
    | ok a => exact hq
    | error e => exact hq

/-! ## Runs that return

Where no call is rejected, a program does not throw, and what it does to the state can be
said without its log. -/

/-- From state `s` every run of `p` returns, with a value and a state that meet `Q`. -/
def Returns (W : World I ε σ κ) (p : Async I ε α) (Q : α → σ → Prop) (s : σ) : Prop :=
  ∀ l, wp (seqSpec W) p (fun a g => Q a g.2) (fun _ _ => False) (l, s)

namespace Returns

variable {W : World I ε σ κ} {β : Type} {s : σ}

theorem pure {a : α} {Q : α → σ → Prop} (h : Q a s) : Returns W (Pure.pure a) Q s := fun _ => h

theorem mono {p : Async I ε α} {Q Q' : α → σ → Prop} (hp : Returns W p Q s)
    (hQ : ∀ a s', Q a s' → Q' a s') : Returns W p Q' s :=
  fun l => wp_mono _ _ (seqSpec_mono W) (fun a g h => hQ a g.2 h) (fun _ _ h => h) (hp l)

/-- A call: every allowed choice answers it. -/
theorem call {op : I.Op} {Q : I.Res op → σ → Prop}
    (h : ∀ c, W.allow op c s = true →
      ∃ a, (W.serve op c s).1 = .ok a ∧ Q a (W.serve op c s).2) :
    Returns W (Async.call op) Q s := by
  intro l c hc
  obtain ⟨a, hans, hQ⟩ := h c hc
  rw [hans]
  exact hQ

theorem bind {p : Async I ε β} {f : β → Async I ε α} {R : β → σ → Prop} {Q : α → σ → Prop}
    (hp : Returns W p R s) (hf : ∀ b s', R b s' → Returns W (f b) Q s') :
    Returns W (p >>= f) Q s := by
  intro l
  rw [wp_bind]
  exact wp_mono _ _ (seqSpec_mono W) (fun b g hR => hf b g.2 hR g.1) (fun _ _ h => h) (hp l)

theorem map {p : Async I ε β} {f : β → α} {Q : α → σ → Prop}
    (hp : Returns W p (fun b => Q (f b)) s) : Returns W (f <$> p) Q s := by
  intro l
  rw [wp_map]
  exact hp l

/-- `try`: the handler is not entered. -/
theorem tryCatch {p : Async I ε α} {h : ε → Async I ε α} {Q : α → σ → Prop}
    (hp : Returns W p Q s) : Returns W (MonadExcept.tryCatch p h) Q s := by
  intro l
  rw [wp_tryCatch]
  exact wp_mono _ _ (seqSpec_mono W) (fun _ _ h => h) (fun _ _ h => h.elim) (hp l)

/-- Loop: the invariant knows the elements that are left. -/
theorem forM {Inv : List β → σ → Prop} {f : β → Async I ε PUnit}
    (hstep : ∀ x xs s, Inv (x :: xs) s → Returns W (f x) (fun _ => Inv xs) s) {xs : List β}
    (h : Inv xs s) : Returns W (ForM.forM xs f) (fun _ => Inv []) s := by
  induction xs generalizing s with
  | nil => exact pure h
  | cons x xs ih =>
    rw [List.forM_cons]
    exact bind (hstep x xs s h) fun _ s' h' => ih h'

/-- The same for a loop with an accumulator. -/
theorem foldlM {γ : Type} {Inv : List β → σ → Prop} {f : γ → β → Async I ε γ}
    (hstep : ∀ b x xs s, Inv (x :: xs) s → Returns W (f b x) (fun _ => Inv xs) s) {xs : List β}
    (h : Inv xs s) (b : γ) : Returns W (xs.foldlM f b) (fun _ => Inv []) s := by
  induction xs generalizing s b with
  | nil => exact pure h
  | cons x xs ih =>
    rw [List.foldlM_cons]
    exact bind (hstep b x xs s h) fun b' s' h' => ih h' b'

/-- What a step of the sequential system leaves. -/
theorem seqStep {handle : ρ → Async I ε α} {a : ρ × List κ} {s' : σ} {Q : σ → Prop}
    (hp : Returns W (handle a.1) (fun _ => Q) s) (h : Async.seqStep W handle s a = some s') :
    Q s' :=
  seqStep_sound (Q := fun g => Q g.2)
    (wp_mono _ _ (seqSpec_mono W) (fun _ _ h => h) (fun _ _ h => h.elim) (hp [])) h

end Returns

end Async
