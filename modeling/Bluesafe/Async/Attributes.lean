import Bluesafe.Async.Safe

/-!
# Attributes that are fixed when a row is created

Rows are stored under identifiers that a generator has issued, and a save overwrites a whole
row. An attribute of a row is fixed when every save either keeps the value that its request has
read, or is the first save of a request under an identifier that it was issued itself
(`RowKind.keeps`). Requests run interleaved, and a copy may be old when it is written back; but
no two requests are issued the same identifier, so nobody knows a row before the request that
creates it has saved it. Therefore all copies of a row, the stored one and those in the logs,
agree on the attribute in every reachable pool (`RowKind.Coherent.step`).
-/

namespace Async

open Transition

variable {I : Interface} {ε σ κ ρ α V : Type}

/-- A kind of rows: where they are stored, which events show one, which calls save one, and
    which events issue an identifier. -/
structure RowKind (I : Interface) (ε σ V : Type) where
  stored : σ → String → V → Prop
  shows : Event I ε → String → V → Prop
  saves : I.Op → String → V → Prop
  issues : Event I ε → String → Prop
  issued : σ → String → Prop

namespace RowKind

/-- What the world must do: rows come from saves, answers from the store, and an identifier is
    new when it is issued. -/
structure Lawful (K : RowKind I ε σ V) (W : World I ε σ κ) : Prop where
  stored_serve : ∀ {op c s k v}, K.stored (W.serve op c s).2 k v → K.stored s k v ∨ K.saves op k v
  stored_unique : ∀ {s k v v'}, K.stored s k v → K.stored s k v' → v = v'
  saves_unique : ∀ {op k k' v v'}, K.saves op k v → K.saves op k' v' → k = k' ∧ v = v'
  shown : ∀ {op c s k v}, K.shows ⟨op, (W.serve op c s).1⟩ k v → K.stored s k v
  issued_serve : ∀ {op c s k}, K.issued s k → K.issued (W.serve op c s).2 k
  issues_new : ∀ {op c s k}, W.allow op c s = true → K.issues ⟨op, (W.serve op c s).1⟩ k →
    ¬ K.issued s k ∧ K.issued (W.serve op c s).2 k
  issues_saves : ∀ {op r k k' v}, K.issues ⟨op, r⟩ k → ¬ K.saves op k' v

/-- The request has saved a row. -/
def Saved (K : RowKind I ε σ V) (l : Log I ε) : Prop := ∃ ev ∈ l, ∃ k v, K.saves ev.op k v

/-- A save keeps the attribute that was read, or is the first one, under an identifier that the
    request was issued. -/
def keeps (K : RowKind I ε σ V) (l : Log I ε) (op : I.Op) : Prop :=
  ∀ k v, K.saves op k v →
    (∃ ev ∈ l, K.shows ev k v) ∨ (∃ ev ∈ l, K.issues ev k) ∧ ¬ K.Saved l

/-- Somebody knows a row with this attribute: it is stored, or a request has read it. -/
def Known (K : RowKind I ε σ V) (P : Pool I ε σ ρ α) (k : String) (v : V) : Prop :=
  K.stored P.store k v ∨ ∃ th ∈ P.threads, ∃ ev ∈ th.log, K.shows ev k v

/-- All copies of a row agree. The other fields are what the proof carries along: known keys and
    keys in the logs were issued, each to one request only, and a row is known only after the
    request that its key was issued to has saved. -/
structure Coherent (K : RowKind I ε σ V) (P : Pool I ε σ ρ α) : Prop where
  agree : ∀ {k v v'}, K.Known P k v → K.Known P k v' → v = v'
  known_issued : ∀ {k v}, K.Known P k v → K.issued P.store k
  log_issued : ∀ {th ev k}, th ∈ P.threads → ev ∈ th.log → K.issues ev k → K.issued P.store k
  once : ∀ {i j : Nat} {th u ev ev' k}, P.threads[i]? = some th → P.threads[j]? = some u →
    ev ∈ th.log → ev' ∈ u.log → K.issues ev k → K.issues ev' k → i = j
  source : ∀ {i : Nat} {th ev k v}, P.threads[i]? = some th → ev ∈ th.log → K.issues ev k →
    K.Known P k v → K.Saved th.log

variable {K : RowKind I ε σ V} {W : World I ε σ κ} {P : Pool I ε σ ρ α}

/-- In the beginning only the store knows rows. -/
theorem coherent_start (hK : K.Lawful W) {s : σ} (hs : ∀ k v, K.stored s k v → K.issued s k) :
    K.Coherent (⟨s, []⟩ : Pool I ε σ ρ α) := by
  have hknown : ∀ {k v}, K.Known (⟨s, []⟩ : Pool I ε σ ρ α) k v → K.stored s k v := by
    rintro k v (hst | ⟨th, hth, -⟩)
    · exact hst
    · exact nomatch hth
  refine ⟨fun h h' => hK.stored_unique (hknown h) (hknown h'), fun h => hs _ _ (hknown h),
    fun h => (nomatch h), fun h => (nomatch h), fun h => (nomatch h)⟩

/-- A thread that makes a call has, after it, the same events and the one of the call. -/
private theorem mem_log_cases {threads : List (Thread I ε ρ α)} {i j : Nat} {th u : Thread I ε ρ α}
    {op : I.Op} {r : Except ε (I.Res op)} {k : Except ε (I.Res op) → Async I ε α}
    (hth : threads[i]? = some th) (hu : (threads.set i (th.resume op r k))[j]? = some u)
    {ev : Event I ε} (hev : ev ∈ u.log) :
    (∃ v, threads[j]? = some v ∧ v.log <:+ u.log ∧ ev ∈ v.log) ∨ (j = i ∧ ev = ⟨op, r⟩) := by
  by_cases hij : i = j
  · subst hij
    rw [List.getElem?_set_self' , hth] at hu
    cases hu
    rcases List.mem_cons.mp hev with rfl | hev
    · exact .inr ⟨rfl, rfl⟩
    · exact .inl ⟨th, hth, List.suffix_cons _ _, hev⟩
  · rw [List.getElem?_set_ne hij] at hu
    exact .inl ⟨u, hu, List.suffix_refl _, hev⟩

namespace Coherent

/-- What a save of the next call writes agrees with what is known. -/
theorem agree_saves (h : K.Coherent P) {i : Nat} {th : Thread I ε ρ α} {op : I.Op}
    (hth : P.threads[i]? = some th) (hok : K.keeps th.log op) {k : String} {v v' : V}
    (hsave : K.saves op k v) (hknown : K.Known P k v') : v = v' := by
  rcases hok k v hsave with ⟨ev, hev, hshow⟩ | ⟨⟨ev, hev, hissue⟩, hfirst⟩
  · exact h.agree (.inr ⟨th, List.mem_of_getElem? hth, ev, hev, hshow⟩) hknown
  · exact absurd (h.source hth hev hissue hknown) hfirst

/-- A key that the next call issues is unknown. -/
theorem not_known (h : K.Coherent P) (hK : K.Lawful W) {op : I.Op} {c : κ}
    (hc : W.allow op c P.store = true) {k : String}
    (hissue : K.issues ⟨op, (W.serve op c P.store).1⟩ k) (v : V) : ¬ K.Known P k v :=
  fun hknown => (hK.issues_new hc hissue).1 (h.known_issued hknown)

/-- What is known after a call was known before, or the call has saved it. -/
theorem known_cases (hK : K.Lawful W) {i : Nat} {th : Thread I ε ρ α} {op : I.Op} {c : κ}
    {next : Except ε (I.Res op) → Async I ε α} (hth : P.threads[i]? = some th) {k : String} {v : V}
    (hknown : K.Known (⟨(W.serve op c P.store).2,
      P.threads.set i (th.resume op (W.serve op c P.store).1 next)⟩ : Pool I ε σ ρ α) k v) :
    K.Known P k v ∨ K.saves op k v := by
  rcases hknown with hst | ⟨u, hu, ev, hev, hshow⟩
  · rcases hK.stored_serve hst with hst | hsave
    · exact .inl (.inl hst)
    · exact .inr hsave
  · obtain ⟨j, hj⟩ := List.mem_iff_getElem?.mp hu
    rcases mem_log_cases hth hj hev with ⟨w, hw, -, hev⟩ | ⟨-, rfl⟩
    · exact .inl (.inr ⟨w, List.mem_of_getElem? hw, ev, hev, hshow⟩)
    · exact .inl (.inl (hK.shown hshow))

/-- A start changes nothing that is known. -/
theorem spawn (h : K.Coherent P) (req : ρ) (p : Async I ε α) :
    K.Coherent ⟨P.store, P.threads ++ [⟨req, [], p⟩]⟩ := by
  have hlog : ∀ {th : Thread I ε ρ α} {ev}, th ∈ P.threads ++ [⟨req, [], p⟩] → ev ∈ th.log →
      th ∈ P.threads := fun hth hev => mem_of_mem_log hth hev
  have hplace : ∀ {i : Nat} {th : Thread I ε ρ α} {ev},
      (P.threads ++ [⟨req, [], p⟩])[i]? = some th → ev ∈ th.log → P.threads[i]? = some th := by
    intro i th ev hi hev
    rw [List.getElem?_append] at hi
    split at hi
    · exact hi
    · rw [List.mem_singleton.mp (List.mem_of_getElem? hi)] at hev
      exact nomatch hev
  have hknown : ∀ {k v}, K.Known (⟨P.store, P.threads ++ [⟨req, [], p⟩]⟩ : Pool I ε σ ρ α) k v →
      K.Known P k v := by
    rintro k v (hst | ⟨th, hth, ev, hev, hshow⟩)
    · exact .inl hst
    · exact .inr ⟨th, hlog hth hev, ev, hev, hshow⟩
  exact ⟨fun hv hv' => h.agree (hknown hv) (hknown hv'), fun hv => h.known_issued (hknown hv),
    fun hth hev => h.log_issued (hlog hth hev) hev,
    fun hi hj hev hev' => h.once (hplace hi hev) (hplace hj hev') hev hev',
    fun hi hev hissue hv => h.source (hplace hi hev) hev hissue (hknown hv)⟩

/-- The call of one request, which the monitor accepts. -/
theorem advance (h : K.Coherent P) (hK : K.Lawful W) {i : Nat} {th : Thread I ε ρ α} {op : I.Op}
    {c : κ} {next : Except ε (I.Res op) → Async I ε α} (hth : P.threads[i]? = some th)
    (hc : W.allow op c P.store = true) (hok : K.keeps th.log op) :
    K.Coherent ⟨(W.serve op c P.store).2,
      P.threads.set i (th.resume op (W.serve op c P.store).1 next)⟩ := by
  have hcases : ∀ {k v}, K.Known (⟨(W.serve op c P.store).2,
      P.threads.set i (th.resume op (W.serve op c P.store).1 next)⟩ : Pool I ε σ ρ α) k v →
      K.Known P k v ∨ K.saves op k v := fun hv => known_cases hK hth hv
  -- A key that is saved was issued: its request has read the row, or was issued the key.
  have hissued : ∀ {k v}, K.saves op k v → K.issued P.store k := by
    intro k v hsave
    have hmem := List.mem_of_getElem? hth
    rcases hok k v hsave with ⟨ev, hev, hshow⟩ | ⟨⟨ev, hev, hissue⟩, -⟩
    · exact h.known_issued (.inr ⟨th, hmem, ev, hev, hshow⟩)
    · exact h.log_issued hmem hev hissue
  -- An identifier that was issued before is not issued by the call.
  have hnew : ∀ {k}, K.issued P.store k → ¬ K.issues ⟨op, (W.serve op c P.store).1⟩ k :=
    fun hold hissue => (hK.issues_new hc hissue).1 hold
  refine ⟨fun {k v v'} hv hv' => ?_, fun {k v} hv => ?_, fun {u ev k} hu hev hissue => ?_,
    fun {a b u w ev ev' k} ha hb hev hev' hissue hissue' => ?_,
    fun {a u ev k v} ha hev hissue hv => ?_⟩
  · rcases hcases hv with hv | hsave
    · rcases hcases hv' with hv' | hsave'
      · exact h.agree hv hv'
      · exact (h.agree_saves hth hok hsave' hv).symm
    · rcases hcases hv' with hv' | hsave'
      · exact h.agree_saves hth hok hsave hv'
      · exact (hK.saves_unique hsave hsave').2
  · rcases hcases hv with hv | hsave
    · exact hK.issued_serve (h.known_issued hv)
    · exact hK.issued_serve (hissued hsave)
  · obtain ⟨j, hj⟩ := List.mem_iff_getElem?.mp hu
    rcases mem_log_cases hth hj hev with ⟨w, hw, -, hev⟩ | ⟨-, rfl⟩
    · exact hK.issued_serve (h.log_issued (List.mem_of_getElem? hw) hev hissue)
    · exact (hK.issues_new hc hissue).2
  · rcases mem_log_cases hth ha hev with ⟨x, hx, -, hev⟩ | ⟨rfl, rfl⟩
    · rcases mem_log_cases hth hb hev' with ⟨y, hy, -, hev'⟩ | ⟨rfl, rfl⟩
      · exact h.once hx hy hev hev' hissue hissue'
      · exact absurd hissue' (hnew (h.log_issued (List.mem_of_getElem? hx) hev hissue))
    · rcases mem_log_cases hth hb hev' with ⟨y, hy, -, hev'⟩ | ⟨rfl, -⟩
      · exact absurd hissue (hnew (h.log_issued (List.mem_of_getElem? hy) hev' hissue'))
      · rfl
  · rcases mem_log_cases hth ha hev with ⟨x, hx, hgrow, hevx⟩ | ⟨rfl, rfl⟩
    · rcases hcases hv with hv | hsave
      · obtain ⟨ev', hev', hsaved⟩ := h.source hx hevx hissue hv
        exact ⟨ev', hgrow.subset hev', hsaved⟩
      · -- The request that saves is the one that the key was issued to, unless it has read it.
        rcases hok k v hsave with ⟨ev', hev', hshow⟩ | ⟨⟨ev', hev', hissue'⟩, -⟩
        · obtain ⟨ev'', hev'', hsaved⟩ := h.source hx hevx hissue
            (.inr ⟨th, List.mem_of_getElem? hth, ev', hev', hshow⟩)
          exact ⟨ev'', hgrow.subset hev'', hsaved⟩
        · obtain rfl := h.once hx hth hevx hev' hissue hissue'
          rw [List.getElem?_set_self', hth] at ha
          cases ha
          exact ⟨_, List.mem_cons_self, k, v, hsave⟩
    · rcases hcases hv with hv | hsave
      · exact absurd hv (h.not_known hK hc hissue v)
      · exact absurd hsave (hK.issues_saves hissue)

/-- A step of a pool whose requests meet the monitor. -/
theorem step (h : K.Coherent P) (hK : K.Lawful W) {handle : ρ → Async I ε α}
    (hsafe : ∀ th ∈ P.threads, th.Safe fun _ => K.keeps) {P' : Pool I ε σ ρ α} {a : Act ρ κ}
    (hstep : poolStep W handle P a = some P') : K.Coherent P' := by
  obtain ⟨req, -, rfl⟩ | ⟨i, c, th, op, next, -, hth, hprog, hc, rfl⟩ := poolStep_cases hstep
  · exact h.spawn req (handle req)
  · exact h.advance hK hth hc ((hsafe th (List.mem_of_getElem? hth)).ok_of_await hprog)

end Coherent

section Run

variable {handle : ρ → Async I ε α} {s : σ} {ms : List (Move (Pool I ε σ ρ α) (Act ρ κ))}

/-- What a pool keeps whose requests meet the monitor. -/
def Orderly (K : RowKind I ε σ V) (P : Pool I ε σ ρ α) : Prop :=
  K.Coherent P ∧ ∀ th ∈ P.threads, th.Safe fun _ => K.keeps

theorem Orderly.step (h : K.Orderly P) (hK : K.Lawful W)
    (hsafe : ∀ req, Async.Safe K.keeps (handle req) []) {P' : Pool I ε σ ρ α} {a : Act ρ κ}
    (hstep : poolStep W handle P a = some P') : K.Orderly P' :=
  ⟨h.1.step hK h.2 hstep, poolStep_safe hsafe hstep h.2⟩

theorem orderly_start (hK : K.Lawful W) (hs : ∀ k v, K.stored s k v → K.issued s k) :
    K.Orderly (⟨s, []⟩ : Pool I ε σ ρ α) :=
  ⟨coherent_start hK hs, fun _ hth => nomatch hth⟩

/-- In every run all copies of a row agree. -/
theorem orderly_run (hK : K.Lawful W) (hsafe : ∀ req, Async.Safe K.keeps (handle req) [])
    (hs : ∀ k v, K.stored s k v → K.issued s k) (run : Run (poolStep W handle) ⟨s, []⟩ ms P) :
    K.Orderly P :=
  run.invariant (P := K.Orderly) (C := fun _ => True) (fun _ _ => trivial) (orderly_start hK hs)
    fun _ hm _ h => h.step hK hsafe hm

/-- The key is taken: it was issued, to nobody or to a request that has saved, and everybody who
    knows its row knows this attribute. -/
structure Fixed (K : RowKind I ε σ V) (k : String) (v : V) (P : Pool I ε σ ρ α) : Prop where
  known : ∀ v', K.Known P k v' → v' = v
  issued : K.issued P.store k
  saved : ∀ {i : Nat} {th ev}, P.threads[i]? = some th → ev ∈ th.log → K.issues ev k → K.Saved th.log

theorem Coherent.fixed (h : K.Coherent P) {k : String} {v : V} (hst : K.stored P.store k v) :
    K.Fixed k v P :=
  ⟨fun _ hv => h.agree hv (.inl hst), h.known_issued (.inl hst),
    fun hth hev hissue => h.source hth hev hissue (.inl hst)⟩

theorem Fixed.step {k : String} {v : V} (h : K.Fixed k v P) (hK : K.Lawful W)
    (hsafe : ∀ th ∈ P.threads, th.Safe fun _ => K.keeps) {P' : Pool I ε σ ρ α} {a : Act ρ κ}
    (hstep : poolStep W handle P a = some P') : K.Fixed k v P' := by
  obtain ⟨req, -, rfl⟩ | ⟨i, c, th, op, next, -, hth, hprog, hc, rfl⟩ := poolStep_cases hstep
  · refine ⟨fun v' hv => h.known v' ?_, h.issued, fun {j u ev} hu hev hissue => ?_⟩
    · rcases hv with hst | ⟨u, hu, ev, hev, hshow⟩
      · exact .inl hst
      · exact .inr ⟨u, mem_of_mem_log hu hev, ev, hev, hshow⟩
    · obtain ⟨j', hj'⟩ := List.mem_iff_getElem?.mp (mem_of_mem_log (List.mem_of_getElem? hu) hev)
      exact h.saved hj' hev hissue
  · have hok := (hsafe th (List.mem_of_getElem? hth)).ok_of_await hprog
    refine ⟨fun v' hv => ?_, hK.issued_serve h.issued, fun {j u ev} hu hev hissue => ?_⟩
    · rcases Coherent.known_cases hK hth hv with hv | hsave
      · exact h.known v' hv
      · rcases hok k v' hsave with ⟨ev, hev, hshow⟩ | ⟨⟨ev, hev, hissue⟩, hfirst⟩
        · exact h.known v' (.inr ⟨th, List.mem_of_getElem? hth, ev, hev, hshow⟩)
        · exact absurd (h.saved hth hev hissue) hfirst
    · rcases mem_log_cases hth hu hev with ⟨w, hw, hgrow, hev⟩ | ⟨-, rfl⟩
      · obtain ⟨ev', hev', hsaved⟩ := h.saved hw hev hissue
        exact ⟨ev', hgrow.subset hev', hsaved⟩
      · exact absurd h.issued (hK.issues_new hc hissue).1

/-- A row that is stored at one time of a run has the same attribute whenever it is stored later. -/
theorem fixed_run (hK : K.Lawful W) (hsafe : ∀ req, Async.Safe K.keeps (handle req) [])
    {P₀ : Pool I ε σ ρ α} (h₀ : K.Orderly P₀) (run : Run (poolStep W handle) P₀ ms P) {k : String}
    {v v' : V} (hst : K.stored P₀.store k v) (hst' : K.stored P.store k v') : v' = v := by
  have hfixed := run.invariant (P := fun P => K.Orderly P ∧ K.Fixed k v P) (C := fun _ => True)
    (fun _ _ => trivial) ⟨h₀, h₀.1.fixed hst⟩
    fun _ hm _ h => ⟨h.1.step hK hsafe hm, h.2.step hK h.1.2 hm⟩
  exact hfixed.2.known v' (.inl hst')

/-- Where no call removes a row, a row that was read is still stored. -/
theorem stored_of_shown (hK : K.Lawful W)
    (hkeep : ∀ {op c s k v}, K.stored s k v → ∃ v', K.stored (W.serve op c s).2 k v')
    (run : Run (poolStep W handle) ⟨s, []⟩ ms P) {th : Thread I ε ρ α} (hth : th ∈ P.threads)
    {ev : Event I ε} (hev : ev ∈ th.log) {k : String} {v : V} (hshow : K.shows ev k v) :
    ∃ v', K.stored P.store k v' := by
  have hinv := run.invariant (P := fun P => ∀ th ∈ P.threads, ∀ ev ∈ th.log, ∀ k v,
      K.shows ev k v → ∃ v', K.stored P.store k v') (C := fun _ => True)
    (fun _ _ => trivial) (fun th hth => nomatch hth) fun m hm _ h th hth ev hev k v hshow => ?_
  · exact hinv th hth ev hev k v hshow
  obtain ⟨req, -, heq⟩ | ⟨i, c, u, op, next, -, hu, hprog, hc, heq⟩ := poolStep_cases hm
  · rw [heq] at hth ⊢
    exact h th (mem_of_mem_log hth hev) ev hev k v hshow
  · rw [heq] at hth ⊢
    obtain ⟨j, hj⟩ := List.mem_iff_getElem?.mp hth
    rcases mem_log_cases hu hj hev with ⟨w, hw, -, hev⟩ | ⟨-, rfl⟩
    · obtain ⟨v', hst⟩ := h w (List.mem_of_getElem? hw) ev hev k v hshow
      exact hkeep hst
    · exact hkeep (hK.shown hshow)

end Run

end RowKind

end Async
