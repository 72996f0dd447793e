import Bluesafe.Async.Fallible
import Bluesafe.Async.Pool

/-!
# The subscriptions of the ledger connection

`syncSubscriptions` of `services/xrpl-subscribe.worker.ts`: it subscribes one connection to the
accounts that are listed and to the streams, and remembers in three variables what it has
subscribed to. The first sync of a connection is followed by one at every tick of a timer.

The rippled connection is the environment. Its subscription is changed by the requests that
succeed and by no others, and `sent` remembers the requests with their outcomes.
-/

namespace Bluesafe.Api.Subscriptions

inductive Stream
  | ledger
  | transactions
  deriving DecidableEq, Repr

/-- The requests of the connection; an empty list of accounts or streams is not sent. -/
inductive SubscribeRequest
  | subscribe (streams : List Stream) (accounts : List String)
  | unsubscribe (accounts : List String) (streams : List Stream)
  deriving DecidableEq, Repr

def SubscribeRequest.isSubscribe : SubscribeRequest → Bool
  | subscribe _ _ => true
  | unsubscribe _ _ => false

/-- The options that a sync reads. -/
structure Options where
  maxSubscribeAccounts : Nat
  transactionsStream : Option Bool := none

/-- `ledgerStreams()`. -/
def ledgerStreams (opts : Options) : List Stream :=
  if opts.transactionsStream.getD false then [.ledger, .transactions] else [.ledger]

/-- The variables of the worker. -/
structure Prev where
  prevAccounts : List String
  prevLedgerSubscribed : Bool
  prevTransactionsSubscribed : Bool
  deriving DecidableEq, Repr

/-! ## Calls -/

inductive Call
  /-- `stopped || !connected.isConnected()` -/
  | isOver
  | listXrplSubscribeAccounts (max : Nat)
  | readPrev
  | writePrev (prev : Prev)
  | request (r : SubscribeRequest)
  | setXrplSubscribeSyncSnapshot (accountsSubscribed : Nat) (ledgerStreamSubscribed : Bool)

@[reducible] def Call.Res : Call → Type
  | isOver => Bool
  | listXrplSubscribeAccounts _ => List String
  | readPrev => Prev
  | _ => Unit

def calls : Interface := ⟨Call, Call.Res⟩

abbrev SyncM : Type → Type := Async calls String

def invoke (op : Call) : SyncM op.Res := Async.call (I := calls) op

/-- The streams of the unsubscribe request. -/
def Prev.streams (prev : Prev) : List Stream :=
  (if prev.prevLedgerSubscribed then [.ledger] else []) ++
    if prev.prevTransactionsSubscribed then [.transactions] else []

/-- `syncSubscriptions` where the subscription has to change. -/
def resubscribe (opts : Options) (accounts : List String) (prev : Prev) : SyncM Unit := do
  if prev.prevAccounts ≠ [] ∨ prev.prevLedgerSubscribed = true ∨
      prev.prevTransactionsSubscribed = true then
    invoke (.request (.unsubscribe prev.prevAccounts prev.streams))
  invoke (.writePrev ⟨accounts, true, opts.transactionsStream.getD false⟩)
  invoke (.request (.subscribe (ledgerStreams opts) accounts))
  invoke (.setXrplSubscribeSyncSnapshot accounts.length true)

/-- `syncSubscriptions`. -/
def syncSubscriptions (opts : Options) : SyncM Unit := do
  if ← invoke .isOver then pure ()
  else
    let accounts ← invoke (.listXrplSubscribeAccounts opts.maxSubscribeAccounts)
    let wantTx := opts.transactionsStream.getD false
    let prev ← invoke .readPrev
    let sameAccounts := accounts = prev.prevAccounts
    if sameAccounts ∧ prev.prevLedgerSubscribed = true ∧ prev.prevTransactionsSubscribed = wantTx then
      pure ()
    else resubscribe opts accounts prev

/-! ## The connection -/

/-- What the connection is subscribed to; the list of accounts is used as a set. -/
structure Subscription where
  accounts : List String
  ledger : Bool
  transactions : Bool
  deriving DecidableEq, Repr

/-- A request that succeeds. -/
def Subscription.apply (sub : Subscription) : SubscribeRequest → Subscription
  | .subscribe streams accounts =>
    { accounts := accounts ++ sub.accounts
      ledger := sub.ledger || decide (.ledger ∈ streams)
      transactions := sub.transactions || decide (.transactions ∈ streams) }
  | .unsubscribe accounts streams =>
    { accounts := sub.accounts.filter fun a => decide (a ∉ accounts)
      ledger := sub.ledger && decide (.ledger ∉ streams)
      transactions := sub.transactions && decide (.transactions ∉ streams) }

/-- The variables of the worker, the subscription of the connection, the requests with their
    outcomes (newest first), and the snapshot for the health check. -/
structure State where
  prev : Prev
  sub : Subscription
  sent : List (SubscribeRequest × Bool)
  snapshot : Nat × Bool

/-- A connection that has just been made. -/
def State.connected : State := ⟨⟨[], false, false⟩, ⟨[], false, false⟩, [], 0, false⟩

/-- What the environment chooses at a call: whether the connection is over, the accounts that are
    listed, or a rejection. -/
structure Choice where
  isOver : Bool := false
  accounts : List String := []
  failure : Option String := none

/-- The calls that are awaited and may be rejected. -/
def Call.isAwaited : Call → Bool
  | listXrplSubscribeAccounts _ => true
  | request _ => true
  | _ => false

/-- The answer and the effect of a call that is not rejected. -/
def perform : (op : Call) → Choice → State → op.Res × State
  | .isOver, c, s => (c.isOver, s)
  | .listXrplSubscribeAccounts _, c, s => (c.accounts, s)
  | .readPrev, _, s => (s.prev, s)
  | .writePrev prev, _, s => ((), { s with prev := prev })
  | .request r, _, s => ((), { s with sub := s.sub.apply r, sent := (r, true) :: s.sent })
  | .setXrplSubscribeSyncSnapshot n flag, _, s => ((), { s with snapshot := (n, flag) })

/-- What a rejected call leaves: a request is remembered. -/
def rejected : Call → State → State
  | .request r, s => { s with sent := (r, false) :: s.sent }
  | _, s => s

def world : World calls String State Choice :=
  .fallible Call.isAwaited Choice.failure perform rejected

/-- The syncs of one connection, interleaved at their calls. -/
abbrev SyncPool : Type := Async.Pool calls String State Unit Unit

def syncStep (opts : Options) : SyncPool → Async.Act Unit Choice → Option SyncPool :=
  Async.poolStep world fun _ => syncSubscriptions opts

end Bluesafe.Api.Subscriptions
