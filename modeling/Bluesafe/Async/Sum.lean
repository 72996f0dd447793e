import Bluesafe.Async.Basic

/-!
# Programs over two interfaces

A program of an interface `I` is also a program of `I.sum J`: `inl` sends each of its calls
through the left summand. Sequencing and single calls commute with `inl`.
-/

/-- The calls of two interfaces. -/
@[reducible] def Interface.sum (I J : Interface) : Interface :=
  ⟨I.Op ⊕ J.Op, fun
    | .inl op => I.Res op
    | .inr op => J.Res op⟩

namespace Async

variable {I J : Interface} {ε α β : Type}

/-- The program with its calls in the left summand. -/
def inl : Async I ε α → Async (I.sum J) ε α
  | done a => done a
  | fail e => fail e
  | await op k => await (.inl op) fun r => inl (k r)

@[simp] theorem inl_pure (a : α) : inl (pure a : Async I ε α) = (pure a : Async (I.sum J) ε α) := rfl

@[simp] theorem inl_bind (p : Async I ε β) (f : β → Async I ε α) :
    inl (p >>= f) = (inl p >>= fun b => inl (f b) : Async (I.sum J) ε α) := by
  show inl (p.bind f) = Async.bind (inl p) _
  induction p with
  | done a => rfl
  | fail e => rfl
  | await op k ih => simp only [Async.bind, inl, ih]

@[simp] theorem inl_call (op : I.Op) :
    inl (call op : Async I ε (I.Res op)) = (call (I := I.sum J) (.inl op) : Async _ ε _) := by
  unfold call
  simp only [inl]
  congr
  funext r
  cases r with
  | ok a => rfl
  | error e => rfl

end Async
