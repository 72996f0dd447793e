import Bluesafe.Async.Exec
import Bluesafe.ForStd.Count

/-!
# Interleaved programs

A `Pool` is a shared state and a list of threads. A thread handles one request: it knows
the request, the log of the calls it has made (newest first) and the rest of its
program. A step of the pool either starts a thread or lets one thread make its next
call; between two calls of a thread any number of steps of the others may happen, which
is exactly the interleaving of `async` functions at their awaits.
-/

namespace Async

variable {I : Interface} {ε σ κ ρ α : Type}

/-- One request in progress. -/
structure Thread (I : Interface) (ε ρ α : Type) where
  req : ρ
  log : Log I ε
  prog : Async I ε α

/-- The shared state and the threads, in the order in which they were started. -/
structure Pool (I : Interface) (ε σ ρ α : Type) where
  store : σ
  threads : List (Thread I ε ρ α)

/-- Start a request, or let thread `i` make its next call with the choice `c`. -/
inductive Act (ρ κ : Type)
  | spawn (req : ρ)
  | advance (i : Nat) (c : κ)

/-- The thread after its call `op` was answered by `r`. -/
def Thread.resume (th : Thread I ε ρ α) (op : I.Op) (r : Except ε (I.Res op))
    (k : Except ε (I.Res op) → Async I ε α) : Thread I ε ρ α :=
  ⟨th.req, ⟨op, r⟩ :: th.log, k r⟩

/-- The transition function of the pool. -/
def poolStep (W : World I ε σ κ) (handle : ρ → Async I ε α) (P : Pool I ε σ ρ α) :
    Act ρ κ → Option (Pool I ε σ ρ α)
  | .spawn req => some { P with threads := P.threads ++ [⟨req, [], handle req⟩] }
  | .advance i c =>
    match P.threads[i]? with
    | none => none
    | some th =>
      match th.prog with
      | done _ => none
      | fail _ => none
      | await op k =>
        if W.allow op c P.store then
          some ⟨(W.serve op c P.store).2,
            P.threads.set i (th.resume op (W.serve op c P.store).1 k)⟩
        else none

/-- What a step of the pool can be: a start, or one allowed call of one thread. -/
theorem poolStep_cases {W : World I ε σ κ} {handle : ρ → Async I ε α}
    {P P' : Pool I ε σ ρ α} {a : Act ρ κ} (h : poolStep W handle P a = some P') :
    (∃ req, a = .spawn req ∧
      P' = ⟨P.store, P.threads ++ [⟨req, [], handle req⟩]⟩) ∨
    (∃ i c th op k, a = .advance i c ∧ P.threads[i]? = some th ∧ th.prog = await op k ∧
      W.allow op c P.store = true ∧
      P' = ⟨(W.serve op c P.store).2,
        P.threads.set i (th.resume op (W.serve op c P.store).1 k)⟩) := by
  cases a with
  | spawn req => exact .inl ⟨req, rfl, by simpa [poolStep] using h.symm⟩
  | advance i c =>
    simp only [poolStep] at h
    split at h
    · exact nomatch h
    · rename_i th hth
      split at h
      · exact nomatch h
      · exact nomatch h
      · rename_i op k hprog
        split at h
        · rename_i hallow
          exact .inr ⟨i, c, th, op, k, rfl, hth, hprog, hallow, by simpa using h.symm⟩
        · exact nomatch h

/-- After a step of thread `i` every other thread is unchanged. -/
theorem mem_set_resume {threads : List (Thread I ε ρ α)} {i : Nat}
    {th u : Thread I ε ρ α} (hu : u ∈ threads.set i th) : u = th ∨ u ∈ threads := by
  rcases List.mem_or_eq_of_mem_set hu with h | h
  · exact .inr h
  · exact .inl h

/-- The same with the place of the thread that is unchanged. -/
theorem mem_set_cases {threads : List (Thread I ε ρ α)} {i : Nat} {th u : Thread I ε ρ α}
    (hu : u ∈ threads.set i th) : u = th ∨ ∃ j, i ≠ j ∧ threads[j]? = some u := by
  obtain ⟨j, hj⟩ := List.mem_iff_getElem?.mp hu
  by_cases hij : i = j
  · subst hij
    rw [List.getElem?_set_self'] at hj
    obtain ⟨_, -, rfl⟩ := Option.map_eq_some_iff.mp hj
    exact .inl rfl
  · rw [List.getElem?_set_ne hij] at hj
    exact .inr ⟨j, hij, hj⟩

/-- Every thread but the one that takes the step is still there. -/
theorem mem_set_of_mem {threads : List (Thread I ε ρ α)} {i : Nat} {th u : Thread I ε ρ α}
    (hth : threads[i]? = some th) (hu : u ∈ threads) (th' : Thread I ε ρ α) :
    u = th ∨ u ∈ threads.set i th' := by
  obtain ⟨j, hj⟩ := List.mem_iff_getElem?.mp hu
  by_cases hij : i = j
  · subst hij
    rw [hth, Option.some.injEq] at hj
    exact .inl hj.symm
  · refine .inr (List.mem_iff_getElem?.mpr ⟨j, ?_⟩)
    rw [List.getElem?_set_ne hij, hj]

/-- After a start a thread was there before, or it has made no call. -/
theorem mem_started {threads : List (Thread I ε ρ α)} {req : ρ} {p : Async I ε α}
    {u : Thread I ε ρ α} (hu : u ∈ threads ++ [⟨req, [], p⟩]) : u ∈ threads ∨ u.log = [] := by
  rcases List.mem_append.mp hu with hu | hu
  · exact .inl hu
  · rw [List.mem_singleton.mp hu]
    exact .inr rfl

/-- A thread that has made a call was there before the start. -/
theorem mem_of_mem_log {threads : List (Thread I ε ρ α)} {req : ρ} {p : Async I ε α}
    {u : Thread I ε ρ α} (hu : u ∈ threads ++ [⟨req, [], p⟩]) {ev : Event I ε} (hev : ev ∈ u.log) :
    u ∈ threads := by
  rcases mem_started hu with hu | hnil
  · exact hu
  · rw [hnil] at hev
    cases hev

/-- The call an action makes: the request it is made for, the calls of that request so
    far, and the call with its answer. -/
def stepEvent (W : World I ε σ κ) (P : Pool I ε σ ρ α) :
    Act ρ κ → Option (ρ × Log I ε × Event I ε)
  | .spawn _ => none
  | .advance i c =>
    match P.threads[i]? with
    | none => none
    | some th =>
      match th.prog with
      | done _ => none
      | fail _ => none
      | await op _ => some (th.req, th.log, ⟨op, (W.serve op c P.store).1⟩)

/-- The event of a step that answers a call. -/
theorem stepEvent_advance {W : World I ε σ κ} {P : Pool I ε σ ρ α} {i : Nat} {c : κ}
    {th : Thread I ε ρ α} {op : I.Op} {k : Except ε (I.Res op) → Async I ε α}
    (hth : P.threads[i]? = some th) (hprog : th.prog = await op k) :
    stepEvent W P (.advance i c) = some (th.req, th.log, ⟨op, (W.serve op c P.store).1⟩) := by
  simp only [stepEvent, hth, hprog]

/-- What the call of an action is. -/
theorem stepEvent_cases {W : World I ε σ κ} {P : Pool I ε σ ρ α} {a : Act ρ κ} {req : ρ}
    {l : Log I ε} {ev : Event I ε} (h : stepEvent W P a = some (req, l, ev)) :
    ∃ i c th op k, a = .advance i c ∧ P.threads[i]? = some th ∧ th.prog = await op k ∧
      req = th.req ∧ l = th.log ∧ ev = ⟨op, (W.serve op c P.store).1⟩ := by
  cases a with
  | spawn r => exact nomatch h
  | advance i c =>
    simp only [stepEvent] at h
    split at h
    · exact nomatch h
    · rename_i th hth
      split at h
      · exact nomatch h
      · exact nomatch h
      · rename_i op k hprog
        simp only [Option.some.injEq, Prod.mk.injEq] at h
        obtain ⟨rfl, rfl, rfl⟩ := h
        exact ⟨i, c, th, op, k, rfl, hth, hprog, rfl, rfl, rfl⟩

/-! ## Schedules -/

/-- A turn of a schedule: start a request, or let thread `i` make its next `n` calls with
    the choices of an oracle. -/
inductive Turn (I : Interface) (ρ κ : Type)
  | start (req : ρ)
  | run (i n : Nat) (oracle : I.Op → κ)

/-- The choice the oracle makes for the next call of thread `i`. -/
def nextChoice (oracle : I.Op → κ) (P : Pool I ε σ ρ α) (i : Nat) : Option κ :=
  match P.threads[i]? with
  | none => none
  | some th =>
    match th.prog with
    | done _ => none
    | fail _ => none
    | await op _ => some (oracle op)

/-- The actions of a turn: a thread that ends early takes fewer than `n`. -/
def turnActs (W : World I ε σ κ) (handle : ρ → Async I ε α) (i : Nat) (oracle : I.Op → κ) :
    Nat → Pool I ε σ ρ α → List (Act ρ κ)
  | 0, _ => []
  | n + 1, P =>
    match nextChoice oracle P i with
    | none => []
    | some c =>
      match poolStep W handle P (.advance i c) with
      | none => [.advance i c]
      | some P' => .advance i c :: turnActs W handle i oracle n P'

/-- The actions of a schedule, from the pool it starts in. -/
def scheduleActs (W : World I ε σ κ) (handle : ρ → Async I ε α) :
    List (Turn I ρ κ) → Pool I ε σ ρ α → List (Act ρ κ)
  | [], _ => []
  | .start req :: ts, P =>
    .spawn req ::
      scheduleActs W handle ts ⟨P.store, P.threads ++ [⟨req, [], handle req⟩]⟩
  | .run i n oracle :: ts, P =>
    let acts := turnActs W handle i oracle n P
    match Transition.replay (poolStep W handle) P acts [] with
    | none => acts
    | some r => acts ++ scheduleActs W handle ts r.2

/-! ## Growth -/

/-- Every thread of `P` is still in `P'`, with a log that extends its old one. -/
def Pool.Extends (P P' : Pool I ε σ ρ α) : Prop :=
  ∀ th ∈ P.threads, ∃ th' ∈ P'.threads, th'.req = th.req ∧ th.log <:+ th'.log

/-- A step only adds to the pool. -/
theorem poolStep_extends {W : World I ε σ κ} {handle : ρ → Async I ε α}
    {P P' : Pool I ε σ ρ α} {a : Act ρ κ} (h : poolStep W handle P a = some P') :
    P.Extends P' := by
  intro u hu
  obtain ⟨req, -, rfl⟩ | ⟨i, c, th, op, k, -, hth, hprog, -, rfl⟩ := poolStep_cases h
  · exact ⟨u, List.mem_append_left _ hu, rfl, List.suffix_refl _⟩
  · rcases mem_set_of_mem hth hu (th.resume op (W.serve op c P.store).1 k) with rfl | hu
    · have hi : i < P.threads.length := (List.getElem?_eq_some_iff.mp hth).1
      exact ⟨_, List.mem_set hi _, rfl, List.suffix_cons _ _⟩
    · exact ⟨u, hu, rfl, List.suffix_refl _⟩

/-- A call in a log after a step was there before, or it is the call of the step. -/
theorem mem_log_step {W : World I ε σ κ} {handle : ρ → Async I ε α} {P P' : Pool I ε σ ρ α}
    {a : Act ρ κ} (h : poolStep W handle P a = some P') {u : Thread I ε ρ α}
    (hu : u ∈ P'.threads) {ev : Event I ε} (hev : ev ∈ u.log) :
    (∃ v ∈ P.threads, v.req = u.req ∧ ev ∈ v.log) ∨
    ∃ i c th op k, a = .advance i c ∧ P.threads[i]? = some th ∧ th.prog = await op k ∧
      u.req = th.req ∧ ev = ⟨op, (W.serve op c P.store).1⟩ ∧
      P'.store = (W.serve op c P.store).2 := by
  obtain ⟨req, -, rfl⟩ | ⟨i, c, th, op, k, rfl, hth, hprog, -, rfl⟩ := poolStep_cases h
  · exact .inl ⟨u, mem_of_mem_log hu hev, rfl, hev⟩
  · rcases mem_set_resume hu with rfl | hu
    · rcases List.mem_cons.mp hev with rfl | hev
      · exact .inr ⟨i, c, th, op, k, rfl, hth, hprog, rfl, rfl, rfl⟩
      · exact .inl ⟨th, List.mem_of_getElem? hth, rfl, hev⟩
    · exact .inl ⟨u, hu, rfl, hev⟩

/-- The requests a run starts, newest first. -/
def spawned (ms : List (Transition.Move (Pool I ε σ ρ α) (Act ρ κ))) : List ρ :=
  ms.filterMap fun m =>
    match m.label with
    | .spawn req => some req
    | .advance _ _ => none

/-- A request that arrives is among those of the run. -/
theorem mem_spawned {ms : List (Transition.Move (Pool I ε σ ρ α) (Act ρ κ))}
    {m : Transition.Move (Pool I ε σ ρ α) (Act ρ κ)} (hm : m ∈ ms) {req : ρ}
    (hreq : m.label = .spawn req) : req ∈ spawned ms := by
  refine List.mem_filterMap.mpr ⟨m, hm, ?_⟩
  rw [hreq]

/-- Every request a run starts has a thread. -/
theorem exists_thread_of_spawned {W : World I ε σ κ} {handle : ρ → Async I ε α}
    {P₀ P : Pool I ε σ ρ α} {ms : List (Transition.Move (Pool I ε σ ρ α) (Act ρ κ))}
    (run : Transition.Run (poolStep W handle) P₀ ms P) {req : ρ} (h : req ∈ spawned ms) :
    ∃ th ∈ P.threads, th.req = req := by
  induction run with
  | nil => exact nomatch h
  | @cons ms t u a run hstep ih =>
    -- A thread that exists before the step exists after it, with the same request.
    have hold : (∃ th ∈ t.threads, th.req = req) → ∃ th ∈ u.threads, th.req = req := by
      rintro ⟨th, hth, hreq⟩
      obtain ⟨th', hth', hreq', -⟩ := poolStep_extends hstep th hth
      exact ⟨th', hth', hreq'.trans hreq⟩
    cases a with
    | spawn r =>
      rcases List.mem_cons.mp h with rfl | h
      · simp only [poolStep, Option.some.injEq] at hstep
        subst hstep
        exact ⟨_, List.mem_append_right _ (List.mem_singleton.mpr rfl), rfl⟩
      · exact hold (ih h)
    | advance i c => exact hold (ih h)

/-- Every thread of a run that starts without threads handles a request that was started. -/
theorem req_mem_spawned {W : World I ε σ κ} {handle : ρ → Async I ε α} {s : σ}
    {P : Pool I ε σ ρ α} {ms : List (Transition.Move (Pool I ε σ ρ α) (Act ρ κ))}
    (run : Transition.Run (poolStep W handle) ⟨s, []⟩ ms P) {th : Thread I ε ρ α}
    (hth : th ∈ P.threads) : th.req ∈ spawned ms := by
  induction run generalizing th with
  | nil => exact nomatch hth
  | @cons ms t u a run hstep ih =>
    have hold : ∀ v ∈ t.threads, v.req ∈ spawned (⟨t, a, u⟩ :: ms) := by
      intro v hv
      exact ((List.sublist_cons_self _ ms).filterMap _).mem (ih hv)
    obtain ⟨req, rfl, rfl⟩ | ⟨i, c, v, op, k, rfl, hv, hprog, -, rfl⟩ := poolStep_cases hstep
    · rcases List.mem_append.mp hth with hth | hth
      · exact hold th hth
      · rw [List.mem_singleton.mp hth]
        exact mem_spawned List.mem_cons_self rfl
    · rcases mem_set_resume hth with rfl | hth
      · exact hold v (List.mem_of_getElem? hv)
      · exact hold th hth

/-- The move lets the thread `th` make the call `op`, with the choice `c` of the
    environment. -/
def MakesCall (m : Transition.Move (Pool I ε σ ρ α) (Act ρ κ)) (th : Thread I ε ρ α) (op : I.Op)
    (c : κ) : Prop :=
  ∃ (i : Nat) (k : Except ε (I.Res op) → Async I ε α),
    m.label = .advance i c ∧ m.before.threads[i]? = some th ∧ th.prog = await op k

/-- The call an action makes: the thread that makes it, the call, and the choice of the
    environment. -/
def stepCall (P : Pool I ε σ ρ α) : Act ρ κ → Option (Thread I ε ρ α × I.Op × κ)
  | .spawn _ => none
  | .advance i c =>
    match P.threads[i]? with
    | none => none
    | some th =>
      match th.prog with
      | done _ => none
      | fail _ => none
      | await op _ => some (th, op, c)

/-- The call of such a step. -/
theorem stepCall_advance {P : Pool I ε σ ρ α} {i : Nat} {c : κ} {th : Thread I ε ρ α} {op : I.Op}
    {k : Except ε (I.Res op) → Async I ε α} (hth : P.threads[i]? = some th)
    (hprog : th.prog = await op k) : stepCall P (.advance i c) = some (th, op, c) := by
  simp only [stepCall, hth, hprog]

/-- All the calls that the threads have made. -/
def Pool.calls (P : Pool I ε σ ρ α) : Log I ε :=
  P.threads.flatMap Thread.log

/-- A step of a thread adds its call. -/
theorem countP_calls_set {threads : List (Thread I ε ρ α)} {i : Nat} {th th' : Thread I ε ρ α}
    {ev : Event I ε} (hi : threads[i]? = some th) (hlog : th'.log = ev :: th.log)
    (p : Event I ε → Bool) :
    ((threads.set i th').flatMap Thread.log).countP p =
      (threads.flatMap Thread.log).countP p + if p ev then 1 else 0 := by
  have hcount := List.countP_flatMap_set hi th' Thread.log p
  rw [hlog, List.countP_cons] at hcount
  omega

/-! ## Two states

A pool over a richer state is a pool over what `f` leaves of it, where the calls cannot tell
the difference. -/

/-- The pool with the shared state seen through `f`. -/
def Pool.mapStore {τ : Type} (f : σ → τ) (P : Pool I ε σ ρ α) : Pool I ε τ ρ α :=
  ⟨f P.store, P.threads⟩

/-- A pool may be run over the image of its store. -/
theorem poolStep_mapStore {τ : Type} {W : World I ε σ κ} {W' : World I ε τ κ}
    {handle : ρ → Async I ε α} {f : σ → τ} {P P' : Pool I ε σ ρ α} {a : Act ρ κ}
    (hallow : ∀ op c, W.allow op c P.store = true → W'.allow op c (f P.store) = true)
    (hserve : ∀ op c, W'.serve op c (f P.store) =
      ((W.serve op c P.store).1, f (W.serve op c P.store).2))
    (h : poolStep W handle P a = some P') :
    poolStep W' handle (P.mapStore f) a = some (P'.mapStore f) := by
  obtain ⟨req, rfl, rfl⟩ | ⟨i, c, th, op, k, rfl, hth, hprog, hok, rfl⟩ := poolStep_cases h
  · rfl
  · simp only [poolStep, Pool.mapStore, hth, hprog, hallow op c hok, if_true, hserve]

/-! ## One request after the other

Handling requests one after the other is one way to schedule them, so what holds in every
run of the pool holds in every sequential run. -/

section Sequential

open Transition

variable {W W' : World I ε σ κ} {handle : ρ → Async I ε α}

/-- The last thread of a pool runs to its end. -/
theorem run_of_exec (hallow : ∀ op c s, W.allow op c s = true → W'.allow op c s = true)
    (hserve : W'.serve = W.serve) {p : Async I ε α} {cs : List κ} {l l' : Log I ε} {s s' : σ}
    {r : Except ε α} (h : exec W p cs l s = some (l', r, s')) {P : Pool I ε σ ρ α}
    {ms : List (Move (Pool I ε σ ρ α) (Act ρ κ))} {threads : List (Thread I ε ρ α)} {req : ρ}
    (run : Run (poolStep W' handle) P ms ⟨s, threads ++ [⟨req, l, p⟩]⟩) :
    ∃ ms' th, Run (poolStep W' handle) P ms' ⟨s', threads ++ [th]⟩ := by
  induction p generalizing cs l s ms with
  | done a =>
    cases cs with
    | nil =>
      cases h
      exact ⟨_, _, run⟩
    | cons _ _ => cases h
  | fail e =>
    cases cs with
    | nil =>
      cases h
      exact ⟨_, _, run⟩
    | cons _ _ => cases h
  | await op k ih =>
    cases cs with
    | nil => cases h
    | cons c cs =>
      simp only [exec] at h
      split at h
      · rename_i hc
        -- the new thread is the last one
        refine ih _ h (run.cons (a := .advance threads.length c) ?_)
        simp [poolStep, hallow op c s hc, hserve, Thread.resume]
      · cases h

/-- A sequential run is a run of the pool. -/
theorem exists_run_of_seqRun (hallow : ∀ op c s, W.allow op c s = true → W'.allow op c s = true)
    (hserve : W'.serve = W.serve) {s t : σ} {ms : List (Move σ (ρ × List κ))}
    (run : Run (seqStep W handle) s ms t) :
    ∃ ms' threads, Run (poolStep W' handle) ⟨s, []⟩ ms' ⟨t, threads⟩ := by
  induction run with
  | nil => exact ⟨[], [], .nil⟩
  | @cons ms t u a run hstep ih =>
    obtain ⟨ms', threads, run'⟩ := ih
    unfold seqStep at hstep
    obtain ⟨⟨l, r, u'⟩, hexec, rfl⟩ := Option.map_eq_some_iff.mp hstep
    obtain ⟨ms'', th, run''⟩ := run_of_exec hallow hserve hexec
      (run'.cons (a := .spawn a.1) rfl)
    exact ⟨ms'', _, run''⟩

end Sequential

/-! ## At most one thread -/

/-- At most one of the threads has the property `Q`. -/
def AtMostOne (Q : Thread I ε ρ α → Prop) (threads : List (Thread I ε ρ α)) : Prop :=
  ∀ (i j : Nat) th u, threads[i]? = some th → threads[j]? = some u → Q th → Q u → i = j

theorem atMostOne_nil (Q : Thread I ε ρ α → Prop) : AtMostOne Q [] := by
  intro i j th u hi
  exact nomatch hi

/-- Fewer threads may satisfy a stronger condition. -/
theorem AtMostOne.mono {Q Q' : Thread I ε ρ α → Prop} {threads : List (Thread I ε ρ α)}
    (h : AtMostOne Q threads) (hQ : ∀ th, Q' th → Q th) : AtMostOne Q' threads := by
  intro i j th u hi hj hth hu
  exact h i j th u hi hj (hQ th hth) (hQ u hu)

/-- A thread that does not have the property may start. -/
theorem AtMostOne.append {Q : Thread I ε ρ α → Prop} {threads : List (Thread I ε ρ α)}
    (h : AtMostOne Q threads) {th : Thread I ε ρ α} (hth : ¬ Q th) :
    AtMostOne Q (threads ++ [th]) := by
  have hold : ∀ (i : Nat) u, (threads ++ [th])[i]? = some u → Q u → threads[i]? = some u := by
    intro i u hi hu
    rcases Nat.lt_or_ge i threads.length with hlt | hge
    · rwa [List.getElem?_append_left hlt] at hi
    · rw [List.getElem?_append_right hge] at hi
      have hmem := List.mem_of_getElem? hi
      rw [List.mem_singleton] at hmem
      exact absurd (hmem ▸ hu) hth
  intro i j u v hi hj hu hv
  exact h i j u v (hold i u hi hu) (hold j v hj hv) hu hv

/-- A thread that takes a step may acquire the property when no thread has it. -/
theorem AtMostOne.set {Q : Thread I ε ρ α → Prop} {threads : List (Thread I ε ρ α)}
    (h : AtMostOne Q threads) {i : Nat} {th th' : Thread I ε ρ α} (hi : threads[i]? = some th)
    (hnew : Q th' → Q th ∨ ∀ u ∈ threads, ¬ Q u) : AtMostOne Q (threads.set i th') := by
  -- Another thread with the property excludes that the changed one has it.
  have hother : ∀ j u, i ≠ j → threads[j]? = some u → Q th' → Q u → False := by
    intro j u hij hj hth' hu
    rcases hnew hth' with hth | hnone
    · exact hij (h i j th u hi hj hth hu)
    · exact hnone u (List.mem_of_getElem? hj) hu
  intro j k u v hj hk hu hv
  rw [List.getElem?_set] at hj hk
  by_cases hij : i = j
  · by_cases hik : i = k
    · rw [← hij, ← hik]
    · rw [if_neg hik] at hk
      rw [if_pos hij] at hj
      split at hj
      · cases hj
        exact (hother k v hik hk hu hv).elim
      · exact nomatch hj
  · rw [if_neg hij] at hj
    by_cases hik : i = k
    · rw [if_pos hik] at hk
      split at hk
      · cases hk
        exact (hother j u hij hj hv hu).elim
      · exact nomatch hk
    · rw [if_neg hik] at hk
      exact h j k u v hj hk hu hv

end Async
