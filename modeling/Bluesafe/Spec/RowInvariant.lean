import Bluesafe.Spec.Justified

/-!
# Invariants of stored rows

The induction behind every statement of the form "whatever the interleaving and the
failures, each stored row is good": a property of rows that every justified write
establishes, given that the rows the writer has seen are good, holds of all stored rows
in every run (`rows_good`).

The property may depend on the pool, for example on what the ledger has reported to any
request so far, as long as it survives growth of the logs.
-/

namespace Bluesafe.Ops

open Async Transition

/-- A row of one of the tables that requests change. -/
inductive Row
  | tx (row : XrplTransaction)
  | dispute (d : DisputeCase)
  | contract (c : Contract)

/-- The row is stored. -/
def Store.Has (s : Store) : Row → Prop
  | .tx row => row ∈ s.xrplTxs.rows
  | .dispute d => d ∈ s.disputes.rows
  | .contract c => c ∈ s.contracts.rows

/-- The row a call saves. -/
def Call.writes : Call → Option Row
  | .saveXrplTx row => some (.tx row)
  | .saveDispute d => some (.dispute d)
  | .saveContract c => some (.contract c)
  | _ => none

/-- The row occurs in the call or in its answer. -/
inductive Shows : Event calls String → Row → Prop
  | write {op : Call} {res : Except String op.Res} {r : Row} (h : op.writes = some r) :
    Shows ⟨op, res⟩ r
  | getXrplTx {h : String} {row : XrplTransaction} :
    Shows ⟨.getXrplTx h, .ok (some row)⟩ (.tx row)
  | listXrplTxs {rows : List XrplTransaction} {row : XrplTransaction} (hmem : row ∈ rows) :
    Shows ⟨.listXrplTxs, .ok rows⟩ (.tx row)
  | getDispute {id : String} {d : DisputeCase} :
    Shows ⟨.getDispute id, .ok (some d)⟩ (.dispute d)
  | listDisputesPage {status : DisputeStatus} {limit offset : Nat} {items : List DisputeCase}
      {d : DisputeCase} (hmem : d ∈ items) :
    Shows ⟨.listDisputesPage status limit offset, .ok items⟩ (.dispute d)
  | getContract {id : String} {c : Contract} :
    Shows ⟨.getContract id, .ok (some c)⟩ (.contract c)

/-- A justified write of a row. -/
def RowWrite (config : Config) (req : Request) (l : OpsLog) : Row → Prop
  | .tx row => TxWrite config req l row
  | .dispute d => DisputeWrite config req l d
  | .contract c => ContractWrite config req l c

/-- A justified write is one of the ways to write a row. -/
theorem rowWrite_of_justified {config : Config} {req : Request} {l : OpsLog} {op : Call} {r : Row}
    (h : justified config req l op) (hw : op.writes = some r) : RowWrite config req l r := by
  cases op <;> simp only [Call.writes, Option.some.injEq, reduceCtorEq] at hw <;> subst hw <;>
    exact h

/-- A dispute on a page is stored with the status of the page. -/
theorem mem_disputesPage {s : Store} {status : DisputeStatus} {limit offset : Nat}
    {d : DisputeCase} (h : d ∈ s.disputesPage status limit offset) :
    d ∈ s.disputes.rows ∧ d.status = status := by
  have hsort := List.mem_of_mem_drop (List.mem_of_mem_take h)
  rw [List.mem_insertionSort, List.mem_filter] at hsort
  exact ⟨hsort.1, by simpa using hsort.2⟩

/-- What the call `op` may change: each table is as before, or `op` saves a row in it. -/
structure Framed (op : Call) (s s' : Store) : Prop where
  contracts : s'.contracts = s.contracts ∨
    ∃ x, op = .saveContract x ∧ s'.contracts = s.contracts.set x
  disputes : s'.disputes = s.disputes ∨
    ∃ x, op = .saveDispute x ∧ s'.disputes = s.disputes.set x
  decisions : s'.decisions = s.decisions ∨
    ∃ x, op = .saveDecision x ∧ s'.decisions = s.decisions.set x
  xrplTxs : s'.xrplTxs = s.xrplTxs ∨
    ∃ x, op = .saveXrplTx x ∧ s'.xrplTxs = s.xrplTxs.set x

theorem framed_refl (op : Call) (s : Store) : Framed op s s :=
  ⟨.inl rfl, .inl rfl, .inl rfl, .inl rfl⟩

/-- A call changes the row it writes, and no other. -/
theorem framed_perform (op : Call) (c : Choice) (s : Store) : Framed op s (perform op c s).2 := by
  cases op with
  | saveContract x => exact ⟨.inr ⟨x, rfl, rfl⟩, .inl rfl, .inl rfl, .inl rfl⟩
  | saveDispute x => exact ⟨.inl rfl, .inr ⟨x, rfl, rfl⟩, .inl rfl, .inl rfl⟩
  | saveDecision x => exact ⟨.inl rfl, .inl rfl, .inr ⟨x, rfl, rfl⟩, .inl rfl⟩
  | saveXrplTx x => exact ⟨.inl rfl, .inl rfl, .inl rfl, .inr ⟨x, rfl, rfl⟩⟩
  | tryRecordXrplIngestionEvent key =>
    simp only [perform]
    split <;> exact ⟨.inl rfl, .inl rfl, .inl rfl, .inl rfl⟩
  | createDelayedJobIfAbsent job =>
    simp only [perform]
    split <;> exact ⟨.inl rfl, .inl rfl, .inl rfl, .inl rfl⟩
  | bumpDelayedJob p =>
    simp only [perform]
    split <;> exact ⟨.inl rfl, .inl rfl, .inl rfl, .inl rfl⟩
  | _ => exact ⟨.inl rfl, .inl rfl, .inl rfl, .inl rfl⟩

/-- The same for the call as the world answers it, rejected or not. -/
theorem framed_serve (op : Call) (c : Choice) (s : Store) : Framed op s (serve op c s).2 := by
  rcases serve_state op c s with heq | heq <;> rw [heq]
  · exact framed_perform op c s
  · exact framed_refl op s

/-- A row that is stored after a call was stored before, or the call saves it. -/
theorem has_serve {op : Call} {c : Choice} {s : Store} {r : Row}
    (h : (serve op c s).2.Has r) : s.Has r ∨ op.writes = some r := by
  have hframe := framed_serve op c s
  cases r with
  | tx row =>
    have hmem : row ∈ (serve op c s).2.xrplTxs.rows := h
    rcases hframe.xrplTxs with heq | ⟨x, rfl, heq⟩ <;> rw [heq] at hmem
    · exact .inl hmem
    · rcases Table.mem_rows_set.mp hmem with rfl | hold
      · exact .inr rfl
      · exact .inl hold.1
  | dispute d =>
    have hmem : d ∈ (serve op c s).2.disputes.rows := h
    rcases hframe.disputes with heq | ⟨x, rfl, heq⟩ <;> rw [heq] at hmem
    · exact .inl hmem
    · rcases Table.mem_rows_set.mp hmem with rfl | hold
      · exact .inr rfl
      · exact .inl hold.1
  | contract k =>
    have hmem : k ∈ (serve op c s).2.contracts.rows := h
    rcases hframe.contracts with heq | ⟨x, rfl, heq⟩ <;> rw [heq] at hmem
    · exact .inl hmem
    · rcases Table.mem_rows_set.mp hmem with rfl | hold
      · exact .inr rfl
      · exact .inl hold.1

/-- A row that a call shows was stored before it, or the call saves it. -/
theorem shows_serve {op : Call} {c : Choice} {s : Store} {r : Row}
    (h : Shows ⟨op, (serve op c s).1⟩ r) : s.Has r ∨ op.writes = some r := by
  generalize hres : (serve op c s).1 = res at h
  cases h with
  | write h => exact .inr h
  | getXrplTx => exact .inl (Table.mem_of_get? (answer_of_serve hres))
  | listXrplTxs hmem =>
    rw [← answer_of_serve hres] at hmem
    exact .inl hmem
  | getDispute => exact .inl (Table.mem_of_get? (answer_of_serve hres))
  | listDisputesPage hmem =>
    rw [← answer_of_serve hres] at hmem
    exact .inl (mem_disputesPage hmem).1
  | getContract => exact .inl (Table.mem_of_get? (answer_of_serve hres))

/-- A row read by its key has that key. -/
def Keyed (ev : Event calls String) : Prop :=
  (∀ h row, ev = ⟨.getXrplTx h, .ok (some row)⟩ → row.txHash = h) ∧
  (∀ id d, ev = ⟨.getDispute id, .ok (some d)⟩ → d.id = id) ∧
  ∀ id c, ev = ⟨.getContract id, .ok (some c)⟩ → c.id = id

/-- What is found under a key has this key. -/
theorem keyed_serve (op : Call) (c : Choice) (s : Store) : Keyed ⟨op, (serve op c s).1⟩ := by
  refine ⟨?_, ?_, ?_⟩
  · intro h row heq
    exact Table.key_of_get? (performed_of_event heq.symm).2.1
  · intro id d heq
    exact Table.key_of_get? (performed_of_event heq.symm).2.1
  · intro id k heq
    exact Table.key_of_get? (performed_of_event heq.symm).2.1

/-- A ledger answer is the one the environment chose. -/
theorem live_of_serve {h : String} {c : Choice} {s : Store} {live : Option LiveTxStatus}
    (hr : (serve (.getTxStatus h) c s).1 = .ok live) : c.live = live :=
  answer_of_serve hr

/-- The map of an account is what the ledger has answered. -/
theorem accountTx_of_serve {account : String} {c : Choice} {s : Store}
    {map : List (String × LiveTxStatus)}
    (hr : (serve (.getAccountTxResults account) c s).1 = .ok map) : c.accountTx = map :=
  answer_of_serve hr

/-! ## The induction -/

section

variable {config : Config} {Good : OpsPool → Row → Prop}
  {ReqOk : Request → Prop} {EvOk : Request → Event calls String → Prop}

/-- What a run keeps: stored rows and the rows the requests have seen are good, and
    requests and calls are as the run assumes. -/
structure RowsGood (config : Config) (Good : OpsPool → Row → Prop) (ReqOk : Request → Prop)
    (EvOk : Request → Event calls String → Prop) (P : OpsPool) : Prop where
  stored : ∀ r, P.store.Has r → Good P r
  shown : ∀ th ∈ P.threads, ∀ ev ∈ th.log, ∀ r, Shows ev r → Good P r
  requests : ∀ th ∈ P.threads, ReqOk th.req
  events : ∀ th ∈ P.threads, ∀ ev ∈ th.log, EvOk th.req ev
  keyed : ∀ th ∈ P.threads, ∀ ev ∈ th.log, Keyed ev
  safe : ∀ th ∈ P.threads, th.Safe (justified config)

/-- The assumption a run makes about its steps: about the requests that start and about
    the calls that are answered. -/
structure StepOk (ReqOk : Request → Prop) (EvOk : Request → Event calls String → Prop)
    (m : Move OpsPool (Act Request Choice)) : Prop where
  request : ∀ req, m.label = .spawn req → ReqOk req
  event : ∀ req l ev, stepEvent world m.before m.label = some (req, l, ev) → EvOk req ev

/-- A thread that is about to make a call: it has seen only good rows, and its request
    and its calls are as the run assumes. -/
structure Writer (Good : OpsPool → Row → Prop) (ReqOk : Request → Prop)
    (EvOk : Request → Event calls String → Prop) (P : OpsPool) (th : OpsThread) : Prop where
  mem : th ∈ P.threads
  shown : ∀ ev ∈ th.log, ∀ r, Shows ev r → Good P r
  request : ReqOk th.req
  events : ∀ ev ∈ th.log, EvOk th.req ev
  keyed : ∀ ev ∈ th.log, Keyed ev

/-- A justified write by such a thread is good. -/
def WritesGood (config : Config) (Good : OpsPool → Row → Prop) (ReqOk : Request → Prop)
    (EvOk : Request → Event calls String → Prop) : Prop :=
  ∀ (P : OpsPool) (th : OpsThread) (op : Call) (res : Except String op.Res) (r : Row),
    Writer Good ReqOk EvOk P th → EvOk th.req ⟨op, res⟩ → op.writes = some r →
    RowWrite config th.req th.log r → Good P r

namespace Writer

variable {P : OpsPool} {th : OpsThread} (w : Writer Good ReqOk EvOk P th)
include w

/-- A row that was read is good. -/
theorem readRow {row : XrplTransaction} (h : ReadRow th.log row) : Good P (.tx row) := by
  cases h with
  | byHash h hget => exact w.shown _ hget (.tx row) .getXrplTx
  | listed rows hlist hmem => exact w.shown _ hlist (.tx row) (.listXrplTxs hmem)

/-- A row that was looked up is good, and has the hash. -/
theorem getXrplTx {h : String} {row : XrplTransaction}
    (hget : Answered th.log (.getXrplTx h) (some row)) : Good P (.tx row) ∧ row.txHash = h :=
  ⟨w.readRow (.byHash h hget), (w.keyed _ hget).1 h row rfl⟩

/-- A row that was saved is good. -/
theorem savedRow {row : XrplTransaction} (h : Answered th.log (.saveXrplTx row) ()) :
    Good P (.tx row) :=
  w.shown _ h (.tx row) (.write rfl)

/-- So is a dispute that was read. -/
theorem readDispute {d : DisputeCase} (h : ReadDispute th.log d) : Good P (.dispute d) := by
  cases h with
  | byId id hget => exact w.shown _ hget (.dispute d) .getDispute
  | listed status limit offset items hlist hmem =>
    exact w.shown _ hlist (.dispute d) (.listDisputesPage hmem)

/-- One that was looked up is good, and has the identifier. -/
theorem getDispute {id : String} {d : DisputeCase}
    (hget : Answered th.log (.getDispute id) (some d)) : Good P (.dispute d) ∧ d.id = id :=
  ⟨w.readDispute (.byId id hget), (w.keyed _ hget).2.1 id d rfl⟩

/-- So has a contract. -/
theorem getContract {id : String} {c : Contract}
    (hget : Answered th.log (.getContract id) (some c)) : Good P (.contract c) ∧ c.id = id :=
  ⟨w.shown _ hget (.contract c) .getContract, (w.keyed _ hget).2.2 id c rfl⟩

end Writer

/-- A decidable form of the assumption about the calls of a run. -/
def stepCheck (ok : Request → Event calls String → Bool)
    (m : Move OpsPool (Act Request Choice)) : Bool :=
  match stepEvent world m.before m.label with
  | none => true
  | some (req, _, ev) => ok req ev

/-- Whether a step is in order can be computed. -/
theorem stepOk_of_check {ok : Request → Event calls String → Bool}
    (hok : ∀ req ev, ok req ev = true → EvOk req ev) {m : Move OpsPool (Act Request Choice)}
    (h : stepCheck ok m = true) : StepOk (fun _ => True) EvOk m := by
  refine ⟨fun _ _ => trivial, ?_⟩
  intro req l ev hev
  unfold stepCheck at h
  rw [hev] at h
  exact hok req ev h

/-- A decidable form of the assumption about the requests of a run. -/
def spawnCheck (ok : Request → Bool) (m : Move OpsPool (Act Request Choice)) : Bool :=
  match m.label with
  | .spawn req => ok req
  | .advance _ _ => true

/-- So can the condition on the requests that arrive. -/
theorem spawn_of_check {ok : Request → Bool} {m : Move OpsPool (Act Request Choice)}
    (h : spawnCheck ok m = true) : ∀ req, m.label = .spawn req → ok req = true := by
  intro req hreq
  unfold spawnCheck at h
  rw [hreq] at h
  exact h

/-- What every write keeps is kept by every step. -/
theorem rowsGood_step
    (hmono : ∀ P P' r, P.Extends P' → Good P r → Good P' r)
    (hwrite : WritesGood config Good ReqOk EvOk) (m : Move OpsPool (Act Request Choice))
    (hstep : opsPoolStep config m.before m.label = some m.after)
    (hok : StepOk ReqOk EvOk m) (hP : RowsGood config Good ReqOk EvOk m.before) :
    RowsGood config Good ReqOk EvOk m.after := by
  have hext := poolStep_extends hstep
  have hsafe := poolStep_safe (handle_justified config) hstep hP.safe
  obtain ⟨P, a, P'⟩ := m
  dsimp only at hstep hP hext hsafe ⊢
  obtain ⟨req, rfl, rfl⟩ | ⟨i, c, th, op, k, rfl, hth, hprog, -, rfl⟩ := poolStep_cases hstep
  · -- A new thread has an empty log.
    refine ⟨fun r hr => hmono _ _ r hext (hP.stored r hr), ?_, ?_, ?_, ?_, hsafe⟩
    · intro u hu ev hev r hr
      exact hmono _ _ r hext (hP.shown u (mem_of_mem_log hu hev) ev hev r hr)
    · intro u hu
      rcases List.mem_append.mp hu with hu | hu
      · exact hP.requests u hu
      · rw [List.mem_singleton.mp hu]
        exact hok.request req rfl
    · intro u hu ev hev
      exact hP.events u (mem_of_mem_log hu hev) ev hev
    · intro u hu ev hev
      exact hP.keyed u (mem_of_mem_log hu hev) ev hev
  · have hmem : th ∈ P.threads := List.mem_of_getElem? hth
    have hev : EvOk th.req ⟨op, (serve op c P.store).1⟩ :=
      hok.event _ _ _ (stepEvent_advance hth hprog)
    have hjust : justified config th.req th.log op := (hP.safe th hmem).ok_of_await hprog
    -- The only new row is the one the call saves.
    have hnew : ∀ r, op.writes = some r → Good P r := fun r hr =>
      hwrite P th op _ r ⟨hmem, hP.shown th hmem, hP.requests th hmem, hP.events th hmem,
        hP.keyed th hmem⟩ hev hr (rowWrite_of_justified hjust hr)
    refine ⟨?_, ?_, ?_, ?_, ?_, hsafe⟩
    · intro r hr
      rcases has_serve hr with hr | hr
      · exact hmono _ _ r hext (hP.stored r hr)
      · exact hmono _ _ r hext (hnew r hr)
    · intro u hu ev hmem' r hr
      rcases mem_set_resume hu with rfl | hu
      · rcases List.mem_cons.mp hmem' with rfl | hmem'
        · rcases shows_serve hr with hr | hr
          · exact hmono _ _ r hext (hP.stored r hr)
          · exact hmono _ _ r hext (hnew r hr)
        · exact hmono _ _ r hext (hP.shown th hmem ev hmem' r hr)
      · exact hmono _ _ r hext (hP.shown u hu ev hmem' r hr)
    · intro u hu
      rcases mem_set_resume hu with rfl | hu
      · exact hP.requests th hmem
      · exact hP.requests u hu
    · intro u hu ev hmem'
      rcases mem_set_resume hu with rfl | hu
      · rcases List.mem_cons.mp hmem' with rfl | hmem'
        · exact hev
        · exact hP.events th hmem ev hmem'
      · exact hP.events u hu ev hmem'
    · intro u hu ev hmem'
      rcases mem_set_resume hu with rfl | hu
      · rcases List.mem_cons.mp hmem' with rfl | hmem'
        · exact keyed_serve op c P.store
        · exact hP.keyed th hmem ev hmem'
      · exact hP.keyed u hu ev hmem'

/-- The rows of every reachable pool are good. -/
theorem rows_good (hmono : ∀ P P' r, P.Extends P' → Good P r → Good P' r)
    (hwrite : WritesGood config Good ReqOk EvOk) {s₀ : Store} {P : OpsPool}
    {ms : List (Move OpsPool (Act Request Choice))}
    (h₀ : ∀ r, s₀.Has r → Good ⟨s₀, []⟩ r)
    (run : Run (opsPoolStep config) ⟨s₀, []⟩ ms P) (hok : ∀ m ∈ ms, StepOk ReqOk EvOk m) :
    RowsGood config Good ReqOk EvOk P := by
  refine run.invariant hok ?_ (rowsGood_step hmono hwrite)
  refine ⟨h₀, ?_, ?_, ?_, ?_, ?_⟩ <;> intro th hth <;> exact nomatch hth

end

end Bluesafe.Ops
