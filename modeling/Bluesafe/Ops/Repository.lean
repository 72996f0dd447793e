import Bluesafe.Ops.Utils
import Bluesafe.ForStd.Table
import Bluesafe.Async.Pool
import Mathlib.Data.List.Sort

/-!
# The calls of the operations backend

Everything a handler or a worker of `be2-ops` reads or changes outside its own memory is
one of the calls of this module: the repository (`repository/app-repository.ts`, with
the semantics of `PostgresRepository`: a read returns a copy, a save overwrites the
whole row), the XRPL service, the clock and the identifier generator.

`MemoryRepository` hands out the objects that it stores. A handler that changes such an object
before its next `await` has then changed the stored row without a save, and a second request sees
the change. What is proved about requests that overlap is about a repository of copies; one request
after the other does the same on both, unless one of them is rejected between the change and the
save.

`Store` is what the repository keeps, `perform` is the effect of a call, and a `Choice`
is what the environment decides at a call: the clock reading, the generated identifier,
the answer of the ledger, and whether the call is rejected. A rejected write may have
been applied (the connection is lost after the commit).

The clock and the generator are synchronous in the source. They neither read nor write
the store, so the interleavings in which a thread is interrupted at such a call reach no
state that is not reached without the interruption.
-/

namespace Bluesafe.Ops

/-- The transaction `trySubmitDisputeExecution` hands to `submitAndWait`. -/
structure EscrowExecutionTx where
  transactionType : EscrowTxType
  account : String
  owner : String
  offerSequence : OfferSequence
  deriving DecidableEq, Repr

/-- The parameters of `bumpDelayedJob`. -/
structure DelayedJobBump where
  id : String
  runAfter : Time
  attempts : Nat
  lastError : Option String
  updatedAt : Time

/-- The awaited calls. -/
inductive Call
  | clock
  | randomId (tag : String)
  | getContract (id : String)
  | saveContract (c : Contract)
  | getEvidence (id : String)
  | getDispute (id : String)
  | saveDispute (d : DisputeCase)
  | listDisputesPage (status : DisputeStatus) (limit offset : Nat)
  | saveDecision (d : CaseDecision)
  | getXrplTx (txHash : String)
  | saveXrplTx (tx : XrplTransaction)
  | listXrplTxs
  | tryRecordXrplIngestionEvent (key : IngestionKey)
  | createDelayedJobIfAbsent (job : DelayedJob)
  | claimDueDelayedJobs (kind : String) (now : Time) (limit lockTtlMs : Nat)
  | deleteDelayedJob (id : String)
  | bumpDelayedJob (params : DelayedJobBump)
  | appendAudit (log : AuditLog)
  | appendEvent (event : EventEnvelope)
  | enqueueDomainNotifications (n : DomainNotification)
  | getTxStatus (txHash : String)
  | getAccountTxResults (account : String)
  | submitAndWaitFromWallet (tx : EscrowExecutionTx)

/-- The answer type of each call. -/
@[reducible] def Call.Res : Call → Type
  | .clock => Time
  | .randomId _ => String
  | .getContract _ => Option Contract
  | .saveContract _ => Unit
  | .getEvidence _ => Option EvidenceFile
  | .getDispute _ => Option DisputeCase
  | .saveDispute _ => Unit
  | .listDisputesPage _ _ _ => List DisputeCase
  | .saveDecision _ => Unit
  | .getXrplTx _ => Option XrplTransaction
  | .saveXrplTx _ => Unit
  | .listXrplTxs => List XrplTransaction
  | .tryRecordXrplIngestionEvent _ => Bool
  | .createDelayedJobIfAbsent _ => Bool
  | .claimDueDelayedJobs _ _ _ _ => List DelayedJob
  | .deleteDelayedJob _ => Unit
  | .bumpDelayedJob _ => Unit
  | .appendAudit _ => Unit
  | .appendEvent _ => Unit
  | .enqueueDomainNotifications _ => Unit
  | .getTxStatus _ => Option LiveTxStatus
  | .getAccountTxResults _ => List (String × LiveTxStatus)
  | .submitAndWaitFromWallet _ => String

/-- The interface of the backend's programs. -/
@[reducible] def calls : Interface := ⟨Call, Call.Res⟩

/-- An `async` function of the backend; a rejection carries the error message. -/
abbrev OpsM (α : Type) : Type := Async calls String α

/-- The calls one request has made, newest first. -/
abbrev OpsLog : Type := Log calls String

/-! ## The calls as functions -/

/-- Await one call. -/
abbrev invoke (op : Call) : OpsM op.Res := Async.call (I := calls) op


abbrev nowIso : OpsM Time := invoke .clock
abbrev dateNow : OpsM Time := invoke .clock
abbrev randomId (tag : String) : OpsM String := invoke (.randomId tag)
abbrev getContract (id : String) : OpsM (Option Contract) := invoke (.getContract id)
abbrev saveContract (c : Contract) : OpsM Unit := invoke (.saveContract c)
abbrev getEvidence (id : String) : OpsM (Option EvidenceFile) := invoke (.getEvidence id)
abbrev getDispute (id : String) : OpsM (Option DisputeCase) := invoke (.getDispute id)
abbrev saveDispute (d : DisputeCase) : OpsM Unit := invoke (.saveDispute d)
abbrev listDisputesPage (status : DisputeStatus) (limit offset : Nat) :
    OpsM (List DisputeCase) := invoke (.listDisputesPage status limit offset)
abbrev saveDecision (d : CaseDecision) : OpsM Unit := invoke (.saveDecision d)
abbrev getXrplTx (txHash : String) : OpsM (Option XrplTransaction) :=
  invoke (.getXrplTx txHash)
abbrev saveXrplTx (tx : XrplTransaction) : OpsM Unit := invoke (.saveXrplTx tx)
abbrev listXrplTxs : OpsM (List XrplTransaction) := invoke .listXrplTxs
abbrev tryRecordXrplIngestionEvent (key : IngestionKey) : OpsM Bool :=
  invoke (.tryRecordXrplIngestionEvent key)
abbrev createDelayedJobIfAbsent (job : DelayedJob) : OpsM Bool :=
  invoke (.createDelayedJobIfAbsent job)
abbrev claimDueDelayedJobs (kind : String) (now : Time) (limit lockTtlMs : Nat) :
    OpsM (List DelayedJob) := invoke (.claimDueDelayedJobs kind now limit lockTtlMs)
abbrev deleteDelayedJob (id : String) : OpsM Unit := invoke (.deleteDelayedJob id)
abbrev bumpDelayedJob (params : DelayedJobBump) : OpsM Unit :=
  invoke (.bumpDelayedJob params)
abbrev appendAudit (log : AuditLog) : OpsM Unit := invoke (.appendAudit log)
abbrev appendEvent (event : EventEnvelope) : OpsM Unit := invoke (.appendEvent event)
abbrev maybeEnqueueDomainNotifications (n : DomainNotification) : OpsM Unit :=
  invoke (.enqueueDomainNotifications n)
abbrev getTxStatus (txHash : String) : OpsM (Option LiveTxStatus) :=
  invoke (.getTxStatus txHash)
abbrev getAccountTxResults (account : String) : OpsM (List (String × LiveTxStatus)) :=
  invoke (.getAccountTxResults account)
abbrev submitAndWaitFromWallet (tx : EscrowExecutionTx) : OpsM String :=
  invoke (.submitAndWaitFromWallet tx)

/-! ## The store -/

/-- What the repository keeps. `audits`, `events` and `notifications` are newest first. -/
structure Store where
  contracts : Table Contract.id
  evidences : Table EvidenceFile.id
  disputes : Table DisputeCase.id
  decisions : Table CaseDecision.id
  xrplTxs : Table XrplTransaction.txHash
  ingestions : List IngestionKey
  delayedJobs : Table DelayedJob.id
  audits : List AuditLog
  events : List EventEnvelope
  notifications : List DomainNotification

def Store.empty : Store where
  contracts := .empty
  evidences := .empty
  disputes := .empty
  decisions := .empty
  xrplTxs := .empty
  ingestions := []
  delayedJobs := .empty
  audits := []
  events := []
  notifications := []

/-- What the environment decides at a call. -/
structure Choice where
  failure : Option String := none
  /-- Whether a rejected write took effect. -/
  applied : Bool := false
  now : Time := 0
  id : String := ""
  live : Option LiveTxStatus := none
  accountTx : List (String × LiveTxStatus) := []
  submitted : String := ""

/-- `listDisputesPage`: newest update first. -/
def Store.disputesPage (s : Store) (status : DisputeStatus) (limit offset : Nat) :
    List DisputeCase :=
  ((((s.disputes.rows.filter fun d => decide (d.status = status)).insertionSort
    fun a b => b.updatedAt ≤ a.updatedAt).drop offset).take limit)

/-- `claimDueDelayedJobs`: due and not leased, earliest first. -/
def Store.dueJobs (s : Store) (kind : String) (now : Time) (limit : Nat) : List DelayedJob :=
  ((s.delayedJobs.rows.filter fun j =>
      decide (j.kind = kind ∧ j.runAfter ≤ now ∧ ∀ t ∈ j.lockedUntil, t ≤ now)).insertionSort
    fun a b => a.runAfter ≤ b.runAfter).take limit

/-- The lease `claimDueDelayedJobs` puts on a job. -/
def DelayedJob.leased (now : Time) (lockTtlMs : Nat) (j : DelayedJob) : DelayedJob :=
  { j with lockedUntil := some (now + lockTtlMs), updatedAt := now }

/-- The answer and the effect of a call that is not rejected. -/
def perform : (op : Call) → Choice → Store → op.Res × Store
  | .clock, c, s => (c.now, s)
  | .randomId _, c, s => (c.id, s)
  | .getContract id, _, s => (s.contracts.get? id, s)
  | .saveContract c, _, s => ((), { s with contracts := s.contracts.set c })
  | .getEvidence id, _, s => (s.evidences.get? id, s)
  | .getDispute id, _, s => (s.disputes.get? id, s)
  | .saveDispute d, _, s => ((), { s with disputes := s.disputes.set d })
  | .listDisputesPage status limit offset, _, s => (s.disputesPage status limit offset, s)
  | .saveDecision d, _, s => ((), { s with decisions := s.decisions.set d })
  | .getXrplTx txHash, _, s => (s.xrplTxs.get? txHash, s)
  | .saveXrplTx tx, _, s => ((), { s with xrplTxs := s.xrplTxs.set tx })
  | .listXrplTxs, _, s => (s.xrplTxs.rows, s)
  | .tryRecordXrplIngestionEvent key, _, s =>
    if key ∈ s.ingestions then (false, s)
    else (true, { s with ingestions := key :: s.ingestions })
  | .createDelayedJobIfAbsent job, _, s =>
    match s.delayedJobs.get? job.id with
    | some _ => (false, s)
    | none => (true, { s with delayedJobs := s.delayedJobs.set job })
  | .claimDueDelayedJobs kind now limit lockTtlMs, _, s =>
    let claimed := (s.dueJobs kind now limit).map (DelayedJob.leased now lockTtlMs)
    (claimed, { s with delayedJobs := claimed.foldl Table.set s.delayedJobs })
  | .deleteDelayedJob id, _, s => ((), { s with delayedJobs := s.delayedJobs.erase id })
  | .bumpDelayedJob p, _, s =>
    match s.delayedJobs.get? p.id with
    | none => ((), s)
    | some j =>
      ((), { s with delayedJobs := s.delayedJobs.set { j with
        runAfter := p.runAfter, attempts := p.attempts, lastError := p.lastError,
        updatedAt := p.updatedAt, lockedUntil := none } })
  | .appendAudit log, _, s => ((), { s with audits := log :: s.audits })
  | .appendEvent event, _, s => ((), { s with events := event :: s.events })
  | .enqueueDomainNotifications n, _, s => ((), { s with notifications := n :: s.notifications })
  | .getTxStatus _, c, s => (c.live, s)
  | .getAccountTxResults _, c, s => (c.accountTx, s)
  | .submitAndWaitFromWallet _, c, s => (toUpperCase c.submitted, s)

/-- The answer to a call, rejected or not. -/
def serve (op : Call) (c : Choice) (s : Store) : Except String op.Res × Store :=
  match c.failure with
  | none => (.ok (perform op c s).1, (perform op c s).2)
  | some e => (.error e, if c.applied then (perform op c s).2 else s)

section Serve

variable {op : Call} {c : Choice} {s : Store}

/-- A call that is not rejected is performed. -/
theorem serve_performed (h : c.failure = none) :
    serve op c s = (.ok (perform op c s).1, (perform op c s).2) := by
  unfold serve
  rw [h]

/-- A call takes effect, or it is rejected before. -/
theorem serve_state (op : Call) (c : Choice) (s : Store) :
    (serve op c s).2 = (perform op c s).2 ∨ (serve op c s).2 = s := by
  cases hfail : c.failure with
  | none =>
    rw [serve_performed hfail]
    exact .inl rfl
  | some e =>
    unfold serve
    rw [hfail]
    by_cases happlied : c.applied = true
    · exact .inl (if_pos happlied)
    · exact .inr (if_neg happlied)

theorem failure_of_serve {a : op.Res} (h : (serve op c s).1 = .ok a) : c.failure = none := by
  cases hfail : c.failure with
  | none => rfl
  | some e =>
    unfold serve at h
    rw [hfail] at h
    cases h

/-- A successful answer is the one of the call. -/
theorem answer_of_serve {a : op.Res} (h : (serve op c s).1 = .ok a) : (perform op c s).1 = a := by
  rw [serve_performed (failure_of_serve h)] at h
  exact Except.ok.inj h

/-- A successful answer in a log comes from its call, which took effect. -/
theorem performed_of_event {op' : Call} {a : op'.Res}
    (h : (⟨op', .ok a⟩ : Event calls String) = ⟨op, (serve op c s).1⟩) :
    op = op' ∧ (perform op' c s).1 = a ∧ (serve op c s).2 = (perform op' c s).2 := by
  generalize hres : (serve op c s).1 = res at h
  cases h
  refine ⟨rfl, answer_of_serve hres, ?_⟩
  rw [serve_performed (failure_of_serve hres)]

end Serve

/-- An identifier the generator may return: the tag, an underscore, and more. -/
def idAllowed (tag id : String) : Bool :=
  startsWith id (tag ++ "_")

/-- The calls of the XRPL service. -/
def Call.isLedger : Call → Bool
  | .getTxStatus _ => true
  | .getAccountTxResults _ => true
  | .submitAndWaitFromWallet _ => true
  | _ => false

/-- Calls without an upstream that could fail. -/
def Call.isLocal : Call → Bool
  | .clock => true
  | .randomId _ => true
  | _ => false

/-- Any repository or ledger call may be rejected. -/
def world : World calls String Store Choice where
  allow := fun op c _ =>
    (c.failure.isNone || !op.isLocal) &&
      match op with
      | .randomId tag => idAllowed tag c.id
      | _ => true
  serve := serve

/-- The repository answers every call and generated identifiers are not in use; ledger
    calls may be rejected. -/
def reliable : World calls String Store Choice where
  allow := fun op c s =>
    (c.failure.isNone || op.isLedger) &&
      match op with
      | .randomId tag =>
        idAllowed tag c.id && (s.disputes.get? c.id).isNone && (s.contracts.get? c.id).isNone
          && (s.decisions.get? c.id).isNone
      | _ => true
  serve := serve

end Bluesafe.Ops
