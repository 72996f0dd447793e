import Bluesafe.Async.Pool

/-!
# Checking programs against a monitor

A monitor is an obligation `ok` on calls: a call must be `ok` after the calls in the log,
and the program continues from every answer. `Gives ok p R l` says that every call of `p`
is accepted when `p` is resumed after the log `l`, and that a value `p` returns meets `R`
together with the log at that moment. Nothing is said about a rejection that leaves `p`.

Logs only grow while a program runs. A fact found in the log at one point, the answer to
a call that was made, is therefore still there later; the rules below hand each part of
a program a log that extends the log of the part before.

What a thread gives it still gives after every step of a pool (`poolStep_gives`): that is
all a pool proof needs from the programs.
-/

namespace Async

variable {I : Interface} {ε σ κ ρ α β : Type}
variable {ok : Log I ε → I.Op → Prop}

/-- The call specification of a monitor. -/
def monitor (ok : Log I ε → I.Op → Prop) : CallSpec I ε (Log I ε) :=
  fun op K F l => ok l op ∧ ∀ r, post K F r (⟨op, r⟩ :: l)

/-- The monitor of a rule is monotone. -/
theorem monitor_mono (ok : Log I ε → I.Op → Prop) :
    CallSpec.Mono (monitor (I := I) (ε := ε) ok) :=
  fun _ _ _ _ _ _ hK hF h => ⟨h.1, fun r => post_mono hK hF (h.2 r)⟩

/-- Every call of `p` is accepted after `l`; a returned value meets `R`. -/
def Gives (ok : Log I ε → I.Op → Prop)
    (p : Async I ε α) (R : α → Log I ε → Prop) (l : Log I ε) : Prop :=
  wp (monitor ok) p R (fun _ _ => True) l

/-- Every call of `p` is accepted after `l`. -/
abbrev Safe (ok : Log I ε → I.Op → Prop)
    (p : Async I ε α) (l : Log I ε) : Prop :=
  Gives ok p (fun _ _ => True) l

/-- The log at the end of a run extends the log at its start. -/
theorem wp_monitor_grows {p : Async I ε α} {Q : α → Log I ε → Prop} {E : ε → Log I ε → Prop}
    {l₀ l : Log I ε} (hl : l₀ <:+ l) (h : wp (monitor ok) p Q E l) :
    wp (monitor ok) p (fun a l' => Q a l' ∧ l₀ <:+ l')
      (fun e l' => E e l' ∧ l₀ <:+ l') l := by
  induction p generalizing l with
  | done a => exact ⟨h, hl⟩
  | fail e => exact ⟨h, hl⟩
  | await op k ih =>
    refine ⟨h.1, fun r => ?_⟩
    have hgrow : l₀ <:+ ⟨op, r⟩ :: l := hl.trans (List.suffix_cons _ _)
    have hrest := h.2 r
    cases r with
    | ok a => exact ih (.ok a) hgrow hrest
    | error e => exact ih (.error e) hgrow hrest

/-- A program that meets a monitor meets every weaker one. -/
theorem wp_monitor_weaken {ok' : Log I ε → I.Op → Prop} (hok : ∀ l op, ok l op → ok' l op)
    {p : Async I ε α} {Q : α → Log I ε → Prop} {E : ε → Log I ε → Prop} {l : Log I ε}
    (h : wp (monitor ok) p Q E l) : wp (monitor ok') p Q E l := by
  induction p generalizing l with
  | done a => exact h
  | fail e => exact h
  | await op k ih =>
    refine ⟨hok l op h.1, fun r => ?_⟩
    have hrest := h.2 r
    cases r with
    | ok a => exact ih (.ok a) hrest
    | error e => exact ih (.error e) hrest

/-- A program that meets two monitors meets both of them together. -/
theorem Safe.and {ok' : Log I ε → I.Op → Prop} {p : Async I ε α} {l : Log I ε} (h : Safe ok p l)
    (h' : Safe ok' p l) : Safe (fun l op => ok l op ∧ ok' l op) p l := by
  induction p generalizing l with
  | done a => trivial
  | fail e => trivial
  | await op k ih =>
    refine ⟨⟨h.1, h'.1⟩, fun r => ?_⟩
    have hrest := h.2 r
    have hrest' := h'.2 r
    cases r with
    | ok a => exact ih (.ok a) hrest hrest'
    | error e => exact ih (.error e) hrest hrest'

/-- A monitor that accepts every call. -/
theorem safe_of_forall (h : ∀ l op, ok l op) (p : Async I ε α) (l : Log I ε) : Safe ok p l := by
  induction p generalizing l with
  | done a => trivial
  | fail e => trivial
  | await op k ih =>
    refine ⟨h l op, fun r => ?_⟩
    cases r with
    | ok a => exact ih (.ok a) _
    | error e => exact ih (.error e) _

/-! ## Both exits

Where a handler continues after a rejection, the log at that moment matters too. The rules
of this section keep both postconditions. -/

/-- A call that the rule accepts goes on with its answer in the log. -/
theorem wp_monitor_call {op : I.Op} {R : I.Res op → Log I ε → Prop} {E : ε → Log I ε → Prop}
    {l : Log I ε} (hok : ok l op) (hR : ∀ a, R a (⟨op, .ok a⟩ :: l))
    (hE : ∀ e, E e (⟨op, .error e⟩ :: l)) : wp (monitor ok) (call op) R E l := by
  refine ⟨hok, fun r => ?_⟩
  cases r with
  | ok a => exact hR a
  | error e => exact hE e

/-- Sequencing: the rest runs from a longer log, with what the first part gives. -/
theorem wp_monitor_bind {p : Async I ε β} {f : β → Async I ε α} {R : β → Log I ε → Prop}
    {Q : α → Log I ε → Prop} {E : ε → Log I ε → Prop} {l : Log I ε}
    (hp : wp (monitor ok) p R E l)
    (hf : ∀ b l', l <:+ l' → R b l' → wp (monitor ok) (f b) Q E l') :
    wp (monitor ok) (p >>= f) Q E l := by
  have hgrow := wp_monitor_grows (List.suffix_refl l) hp
  rw [wp_bind]
  exact wp_mono _ _ (monitor_mono ok) (fun b l' hq => hf b l' hq.2 hq.1)
    (fun _ _ hq => hq.1) hgrow

/-- `try`: the handler runs from a longer log, with what the rejection leaves. -/
theorem wp_monitor_tryCatch {p : Async I ε α} {h : ε → Async I ε α} {Q : α → Log I ε → Prop}
    {F E : ε → Log I ε → Prop} {l : Log I ε} (hp : wp (monitor ok) p Q F l)
    (hh : ∀ e l', l <:+ l' → F e l' → wp (monitor ok) (h e) Q E l') :
    wp (monitor ok) (tryCatch p h) Q E l := by
  have hgrow := wp_monitor_grows (List.suffix_refl l) hp
  rw [wp_tryCatch]
  exact wp_mono _ _ (monitor_mono ok) (fun _ _ hq => hq.1) (fun e l' hq => hh e l' hq.2 hq.1) hgrow

namespace Gives

/-- What is said of the result may be weakened. -/
theorem mono {p : Async I ε α} {R R' : α → Log I ε → Prop} {l : Log I ε}
    (h : Gives ok p R l) (hR : ∀ a l', l <:+ l' → R a l' → R' a l') :
    Gives ok p R' l := by
  have hgrow := wp_monitor_grows (List.suffix_refl l) h
  exact wp_mono _ _ (monitor_mono ok) (fun a l' hq => hR a l' hq.2 hq.1)
    (fun _ _ _ => trivial) hgrow

/-- A value calls nothing. -/
theorem pure {R : α → Log I ε → Prop} {l : Log I ε} {a : α} (h : R a l) :
    Gives ok (Pure.pure a) R l := h

/-- Nor does an error. -/
theorem throw {R : α → Log I ε → Prop} {l : Log I ε} {e : ε} :
    Gives ok (MonadExcept.throw e) R l := trivial

/-- Sequencing: the rest runs from a longer log, with what the first part gives. -/
theorem bind {p : Async I ε β} {f : β → Async I ε α} {R : β → Log I ε → Prop}
    {R' : α → Log I ε → Prop} {l : Log I ε} (hp : Gives ok p R l)
    (hf : ∀ b l', l <:+ l' → R b l' → Gives ok (f b) R' l') :
    Gives ok (p >>= f) R' l := by
  exact wp_monitor_bind hp hf

/-- A call: it must be accepted, and the rest finds its answer in the log. -/
theorem call {op : I.Op} {R : I.Res op → Log I ε → Prop} {l : Log I ε} (hok : ok l op)
    (hR : ∀ a, R a (⟨op, .ok a⟩ :: l)) :
    Gives ok (Async.call op) R l := by
  exact wp_monitor_call hok hR fun _ => trivial

/-- A call and what follows it. -/
theorem call_bind {op : I.Op} {f : I.Res op → Async I ε α} {R : α → Log I ε → Prop}
    {l : Log I ε} (hok : ok l op)
    (hf : ∀ a, Gives ok (f a) R (⟨op, .ok a⟩ :: l)) :
    Gives ok (Async.call op >>= f) R l := by
  unfold Gives
  rw [wp_bind]
  exact call hok hf

/-- A call and what follows it: the rest runs from a longer log that holds the answer. -/
theorem call_read {op : I.Op} {f : I.Res op → Async I ε α} {R : α → Log I ε → Prop}
    {l : Log I ε} (hok : ok l op)
    (hf : ∀ a l', l <:+ l' → (⟨op, .ok a⟩ : Event I ε) ∈ l' → Gives ok (f a) R l') :
    Gives ok (Async.call op >>= f) R l :=
  call_bind hok fun a => hf a _ (List.suffix_cons _ _) List.mem_cons_self

/-- A call whose answer plays no part in what follows. -/
theorem call_then {op : I.Op} {f : I.Res op → Async I ε α} {R : α → Log I ε → Prop}
    {l : Log I ε} (hok : ok l op) (hf : ∀ a l', l <:+ l' → Gives ok (f a) R l') :
    Gives ok (Async.call op >>= f) R l :=
  call_bind hok fun a => hf a _ (List.suffix_cons _ _)

/-- The result is mapped behind the calls. -/
theorem map {p : Async I ε β} {f : β → α} {R : α → Log I ε → Prop} {l : Log I ε}
    (hp : Gives ok p (fun b => R (f b)) l) : Gives ok (f <$> p) R l := by
  unfold Gives
  rw [wp_map]
  exact hp

/-- `try`: the handler runs from a longer log. -/
theorem tryCatch {p : Async I ε α} {h : ε → Async I ε α} {R : α → Log I ε → Prop}
    {l : Log I ε} (hp : Gives ok p R l)
    (hh : ∀ e l', l <:+ l' → Gives ok (h e) R l') :
    Gives ok (MonadExcept.tryCatch p h) R l := by
  exact wp_monitor_tryCatch hp fun e l' hl _ => hh e l' hl

/-- Loop with an accumulator: every iteration starts from a longer log. -/
theorem foldlM {Inv : β → Log I ε → Prop} {xs : List α} {f : β → α → Async I ε β} {b : β}
    {l : Log I ε} (h₀ : Inv b l)
    (hstep : ∀ b x l', x ∈ xs → l <:+ l' → Inv b l' → Gives ok (f b x) Inv l') :
    Gives ok (xs.foldlM f b) Inv l := by
  induction xs generalizing b l with
  | nil => exact h₀
  | cons x xs ih =>
    rw [List.foldlM_cons]
    refine bind (hstep b x l List.mem_cons_self (List.suffix_refl l) h₀) ?_
    intro b' l' hl hinv
    exact ih hinv fun b y l'' hy hl' => hstep b y l'' (List.mem_cons_of_mem _ hy) (hl.trans hl')

/-- Loop without accumulator. -/
theorem forM {xs : List α} {f : α → Async I ε PUnit} {l : Log I ε}
    (hstep : ∀ x l', x ∈ xs → l <:+ l' → Safe ok (f x) l') :
    Safe ok (ForM.forM xs f) l := by
  induction xs generalizing l with
  | nil => trivial
  | cons x xs ih =>
    rw [List.forM_cons]
    refine bind (hstep x l List.mem_cons_self (List.suffix_refl l)) ?_
    intro _ l' hl _
    exact ih fun y l'' hy hl' => hstep y l'' (List.mem_cons_of_mem _ hy) (hl.trans hl')

end Gives

/-! ## Pools of safe threads -/

section Pool

variable {ok : ρ → Log I ε → I.Op → Prop} {R : ρ → α → Log I ε → Prop}
  {E : ρ → ε → Log I ε → Prop} {W : World I ε σ κ} {handle : ρ → Async I ε α}

/-- The rest of the thread makes only calls the monitor accepts; what it returns meets `R`,
    and a rejection that leaves it meets `E`. -/
def Thread.Meets (ok : ρ → Log I ε → I.Op → Prop) (R : ρ → α → Log I ε → Prop)
    (E : ρ → ε → Log I ε → Prop) (th : Thread I ε ρ α) : Prop :=
  wp (monitor (ok th.req)) th.prog (R th.req) (E th.req) th.log

/-- A request that awaits a call may make it. -/
theorem Thread.Meets.ok_of_await {th : Thread I ε ρ α} (h : th.Meets ok R E) {op : I.Op}
    {k : Except ε (I.Res op) → Async I ε α} (hp : th.prog = await op k) :
    ok th.req th.log op := by
  unfold Thread.Meets at h
  rw [hp] at h
  exact h.1

/-- One that is done meets its condition. -/
theorem Thread.Meets.of_done {th : Thread I ε ρ α} (h : th.Meets ok R E) {a : α}
    (hp : th.prog = done a) : R th.req a th.log := by
  unfold Thread.Meets at h
  rw [hp] at h
  exact h

/-- So does one that has failed. -/
theorem Thread.Meets.of_fail {th : Thread I ε ρ α} (h : th.Meets ok R E) {e : ε}
    (hp : th.prog = fail e) : E th.req e th.log := by
  unfold Thread.Meets at h
  rw [hp] at h
  exact h

/-- An answer keeps what the rest of the program meets. -/
theorem Thread.Meets.resume {th : Thread I ε ρ α} (h : th.Meets ok R E) {op : I.Op}
    {k : Except ε (I.Res op) → Async I ε α} (hp : th.prog = await op k)
    (r : Except ε (I.Res op)) : (th.resume op r k).Meets ok R E := by
  unfold Thread.Meets at h
  rw [hp] at h
  have hrest := h.2 r
  cases r with
  | ok a => exact hrest
  | error e => exact hrest

/-- A step of the pool keeps what every thread meets. -/
theorem poolStep_meets (hmeets : ∀ req, wp (monitor (ok req)) (handle req) (R req) (E req) [])
    {P P' : Pool I ε σ ρ α} {a : Act ρ κ} (h : poolStep W handle P a = some P')
    (hP : ∀ th ∈ P.threads, th.Meets ok R E) : ∀ th ∈ P'.threads, th.Meets ok R E := by
  intro u hu
  obtain ⟨req, -, rfl⟩ | ⟨i, c, th, op, k, -, hth, hprog, -, rfl⟩ := poolStep_cases h
  · rcases List.mem_append.mp hu with hu | hu
    · exact hP u hu
    · rw [List.mem_singleton] at hu
      subst hu
      exact hmeets req
  · rcases mem_set_resume hu with rfl | hu
    · exact (hP th (List.mem_of_getElem? hth)).resume hprog _
    · exact hP u hu

/-- The rest of the thread makes only calls the monitor accepts, and what it returns meets
    `R`. -/
def Thread.Gives (ok : ρ → Log I ε → I.Op → Prop) (R : ρ → α → Log I ε → Prop)
    (th : Thread I ε ρ α) : Prop :=
  Async.Gives (ok th.req) th.prog (R th.req) th.log

/-- The rest of the thread makes only calls the monitor accepts. -/
abbrev Thread.Safe (ok : ρ → Log I ε → I.Op → Prop) (th : Thread I ε ρ α) : Prop :=
  th.Gives ok fun _ _ _ => True

/-- What a program gives is met, errors aside. -/
theorem Thread.Gives.meets {th : Thread I ε ρ α} (h : th.Gives ok R) :
    th.Meets ok R fun _ _ _ => True := h

/-- A request that awaits a call may make it. -/
theorem Thread.Gives.ok_of_await {th : Thread I ε ρ α} (h : th.Gives ok R) {op : I.Op}
    {k : Except ε (I.Res op) → Async I ε α} (hp : th.prog = await op k) :
    ok th.req th.log op :=
  h.meets.ok_of_await hp

/-- One that is done gives what was promised. -/
theorem Thread.Gives.of_done {th : Thread I ε ρ α} (h : th.Gives ok R) {a : α}
    (hp : th.prog = done a) : R th.req a th.log :=
  h.meets.of_done hp

/-- A step of the pool keeps what every thread gives. -/
theorem poolStep_gives (hgives : ∀ req, Async.Gives (ok req) (handle req) (R req) [])
    {P P' : Pool I ε σ ρ α} {a : Act ρ κ} (h : poolStep W handle P a = some P')
    (hP : ∀ th ∈ P.threads, th.Gives ok R) : ∀ th ∈ P'.threads, th.Gives ok R :=
  poolStep_meets hgives h fun th hth => (hP th hth).meets

/-- A step of the pool keeps every thread safe. -/
theorem poolStep_safe (hsafe : ∀ req, Async.Safe (ok req) (handle req) [])
    {P P' : Pool I ε σ ρ α} {a : Act ρ κ} (h : poolStep W handle P a = some P')
    (hP : ∀ th ∈ P.threads, th.Safe ok) : ∀ th ∈ P'.threads, th.Safe ok :=
  poolStep_gives hsafe h hP

end Pool

end Async
