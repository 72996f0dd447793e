import Bluesafe.Async.Exec
import Bluesafe.Async.Sum

/-!
# The calls a program can make

`Only P p` says that every call `p` can make satisfies `P`, whatever the answers are. Unlike a
monitor it does not look at the calls made before, so its rules need no log. A relation
between states that every such call keeps holds between the two ends of every run
(`Only.runWith`).
-/

namespace Async

variable {I J : Interface} {ε σ κ α β : Type}

/-- Every call of the program satisfies `P`. -/
def Only (P : I.Op → Prop) : Async I ε α → Prop
  | done _ => True
  | fail _ => True
  | await op k => P op ∧ ∀ r, Only P (k r)

namespace Only

variable {P : I.Op → Prop}

theorem await_iff {op : I.Op} {k : Except ε (I.Res op) → Async I ε α} :
    Only P (await op k) ↔ P op ∧ ∀ r, Only P (k r) := Iff.rfl

theorem pure {a : α} : Only P (Pure.pure a : Async I ε α) := trivial

theorem throw {e : ε} : Only P (MonadExcept.throw e : Async I ε α) := trivial

theorem call {op : I.Op} (h : P op) : Only P (Async.call op : Async I ε (I.Res op)) := by
  refine ⟨h, fun r => ?_⟩
  cases r with
  | ok a => trivial
  | error e => trivial

/-- The calls of two programs. -/
theorem bind {p : Async I ε β} {f : β → Async I ε α} (hp : Only P p) (hf : ∀ b, Only P (f b)) :
    Only P (p >>= f) := by
  show Only P (p.bind f)
  induction p with
  | done a => exact hf a
  | fail e => trivial
  | await op k ih => exact ⟨hp.1, fun r => ih r (hp.2 r)⟩

/-- The result is of no account. -/
theorem map {p : Async I ε β} {f : β → α} (hp : Only P p) : Only P (f <$> p) :=
  bind hp fun _ => pure

/-- The calls of a program and of its handler. -/
theorem tryCatch {p : Async I ε α} {h : ε → Async I ε α} (hp : Only P p)
    (hh : ∀ e, Only P (h e)) : Only P (MonadExcept.tryCatch p h) := by
  show Only P (p.tryCatch h)
  induction p with
  | done a => trivial
  | fail e => exact hh e
  | await op k ih => exact ⟨hp.1, fun r => ih r (hp.2 r)⟩

/-- The calls of both branches. -/
theorem ite {c : Prop} [Decidable c] {p q : Async I ε α} (hp : Only P p) (hq : Only P q) :
    Only P (if c then p else q) := by
  split
  · exact hp
  · exact hq

/-- A loop makes the calls of its iterations. -/
theorem forM {xs : List β} {f : β → Async I ε PUnit} (hf : ∀ x ∈ xs, Only P (f x)) :
    Only P (ForM.forM xs f) := by
  induction xs with
  | nil => exact pure
  | cons x xs ih =>
    rw [List.forM_cons]
    exact bind (hf x List.mem_cons_self) fun _ => ih fun y hy => hf y (List.mem_cons_of_mem _ hy)

/-- What is said of the calls may be weakened. -/
theorem mono {Q : I.Op → Prop} {p : Async I ε α} (hp : Only P p) (h : ∀ op, P op → Q op) :
    Only Q p := by
  induction p with
  | done a => trivial
  | fail e => trivial
  | await op k ih => exact ⟨h op hp.1, fun r => ih r (hp.2 r)⟩

/-- A property of all calls. -/
theorem of_forall (h : ∀ op, P op) (p : Async I ε α) : Only P p := by
  induction p with
  | done a => trivial
  | fail e => trivial
  | await op k ih => exact ⟨h op, ih⟩

/-- A left program makes left calls. -/
theorem inl {P : (I.sum J).Op → Prop} {p : Async I ε α} (hp : Only (fun op => P (.inl op)) p) :
    Only P (Async.inl p : Async (I.sum J) ε α) := by
  induction p with
  | done a => trivial
  | fail e => trivial
  | await op k ih => exact ⟨hp.1, fun r => ih r (hp.2 r)⟩

/-- A preorder on states that every such call keeps holds between the ends of a run. -/
theorem runWith {W : World I ε σ κ} {R : σ → σ → Prop} (hrefl : ∀ s, R s s)
    (htrans : ∀ s t u, R s t → R t u → R s u)
    (hcall : ∀ op c s, P op → R s (W.serve op c s).2) {p : Async I ε α} (hp : Only P p)
    (oracle : Nat → κ) (l : Log I ε) (s : σ) : R s (Async.runWith W oracle p l s).state := by
  induction p generalizing l s with
  | done a => exact hrefl s
  | fail e => exact hrefl s
  | await op k ih => exact htrans _ _ _ (hcall op _ s hp.1) (ih _ (hp.2 _) _ _)

end Only

-- The rules are all that proofs about concrete programs need; unfolding would run the program.
attribute [irreducible] Only

end Async
