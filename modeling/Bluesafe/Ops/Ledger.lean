import Bluesafe.Async.Recorded
import Bluesafe.Ops.System

/-!
# The requests behind `getTxStatus`

`getTxStatus` (`services/xrpl.service.ts`) first connects (`getClient`, outside its `try`) and
then sends a `tx` request; whatever this request is rejected with, `catch { return null }` turns
it into the answer for a transaction that does not exist. `LedgerChoice` says what the request
did, and `LedgerChoice.seen` what the caller of `getTxStatus` sees of it.

`policyStep` is the policy worker over a sequence of ticks: the repository answers, a connection
or a request to the ledger may fail, and between two ticks other paths may change the store.
-/

namespace Bluesafe.Ops

open Async Transition

/-- What the request `{ command: "tx" }` does. -/
inductive TxResponse
  /-- It answers with a transaction. -/
  | found (live : LiveTxStatus)
  /-- The server knows no such transaction. -/
  | txnNotFound
  /-- It is rejected with any other error: a timeout, a lost connection, a busy server. -/
  | failed (message : String)

/-- The value of `getTxStatus` after the connection is there. -/
def TxResponse.status : TxResponse → Option LiveTxStatus
  | .found live => some live
  | .txnNotFound => none
  | .failed _ => none

/-- What the environment decides at a call of the worker: for `getTxStatus`, `failure` is a
    rejection by `getClient` and `tx` what the request does. -/
structure LedgerChoice extends Choice where
  tx : TxResponse := .txnNotFound

/-- The choice as the caller of `getTxStatus` sees it. -/
def LedgerChoice.seen (c : LedgerChoice) : Choice := { c.toChoice with live := c.tx.status }

/-- The repository answers every call; connections and requests may fail. -/
def ledgerWorld : World calls String Store LedgerChoice := reliable.withChoices LedgerChoice.seen

/-- The calls of a tick with their choices, newest first. -/
abbrev Trace : Type := List (Call × LedgerChoice)

/-- A tick of the worker, or a change of the store by another path. -/
inductive PolicyLabel
  | tick (cs : List LedgerChoice)
  | elsewhere (s : Store)

/-- The worker and the other paths. -/
def policyStep (config : Config) (s : Store) : PolicyLabel → Option Store
  | .tick cs => seqStep ledgerWorld (fun _ : Unit => policyTick config) s ((), cs)
  | .elsewhere s' => some s'

/-- The calls of a move; other paths are not recorded. -/
def policyTrace (config : Config) (m : Move Store PolicyLabel) : Trace :=
  match m.label with
  | .tick cs => seqTrace ledgerWorld (fun _ : Unit => policyTick config) m.before ((), cs)
  | .elsewhere _ => []

/-! ## Probes -/

/-- The two requests of a probe: `tx`, and `account_tx` if it is sent. -/
structure Probe where
  txHash : String
  tx : Except String TxResponse
  accountTx : Option (Except String (List (String × LiveTxStatus)))

/-- `account_tx` is not sent, or answers without the transaction. -/
def Probe.unlisted (p : Probe) : Bool :=
  match p.accountTx with
  | none => true
  | some (.ok map) => (liveStatusFor map p.txHash).isNone
  | some (.error _) => false

/-- The ledger says that there is no such transaction. -/
def Probe.notFound (p : Probe) : Bool :=
  match p.tx with
  | .ok .txnNotFound => p.unlisted
  | _ => false

/-- The `tx` request fails, and `account_tx` neither fails nor finds the transaction. -/
def Probe.misread (p : Probe) : Bool :=
  match p.tx with
  | .ok (.failed _) => p.unlisted
  | _ => false

/-- What `getTxStatus` meets: the connection fails, or the request is sent. -/
def LedgerChoice.txAnswer (c : LedgerChoice) : Except String TxResponse :=
  match c.failure with
  | none => .ok c.tx
  | some e => .error e

/-- What `getAccountTxResults` meets. -/
def LedgerChoice.accountAnswer (c : LedgerChoice) : Except String (List (String × LiveTxStatus)) :=
  match c.failure with
  | none => .ok c.accountTx
  | some e => .error e

/-- The probes after one more call: the lookups before the jobs are claimed are those of the
    account loop, and `account_tx` belongs to the probe before it. -/
def observe (x : Call × LedgerChoice) (ps : List Probe) : List Probe :=
  match x.1 with
  | .claimDueDelayedJobs _ _ _ _ => []
  | .getTxStatus txHash => ⟨txHash, x.2.txAnswer, none⟩ :: ps
  | .getAccountTxResults _ =>
    match ps with
    | [] => []
    | p :: ps => { p with accountTx := some x.2.accountAnswer } :: ps
  | _ => ps

/-- The probes of the jobs in a trace, newest first. -/
def probesOf (tr : Trace) : List Probe := tr.foldr observe []

/-- The jobs that the calls of a trace ask to create. -/
def createdIn (tr : Trace) : List DelayedJob :=
  tr.filterMap fun x =>
    match x.1 with
    | .createDelayedJobIfAbsent job => some job
    | _ => none

end Bluesafe.Ops
