import Bluesafe.Ops.Contracts
import Bluesafe.Ops.Disputes
import Bluesafe.Ops.Xrpl

/-!
# The operations backend as a system

A `Request` is one entry into the backend: an HTTP request that passed its body schema,
a stream message or a tick of the policy worker. The backend runs either one request at
a time (`opsStep`) or any number of them interleaved at their calls (`opsPoolStep`).
-/

namespace Bluesafe.Ops

open Async Transition

/-- The entries into the backend. -/
inductive Request
  | createContract (auth : Option BluesafeAuth) (body : CreateContractBody)
  | patchContractStatus (auth : Option BluesafeAuth) (contractId : String)
      (status : ContractStatus)
  | patchEscrowAnchor (auth : Option BluesafeAuth) (contractId : String)
      (body : EscrowAnchorBody)
  | fileDispute (auth : Option BluesafeAuth) (body : CreateDisputeBody)
  | patchDisputeStatus (auth : Option BluesafeAuth) (disputeId : String) (next : ReviewStatus)
  | escalate (auth : Option BluesafeAuth) (disputeId : String)
  | reviewSlaScan (auth : Option BluesafeAuth)
  | decision (auth : Option BluesafeAuth) (disputeId : String) (body : DecisionBody)
  | execution (auth : Option BluesafeAuth) (disputeId : String) (body : ExecutionBody)
  | track (auth : Option BluesafeAuth) (body : TrackBody)
  | getTransaction (auth : Option BluesafeAuth) (txHash : String) (shouldRefresh : Bool)
  | refresh (auth : Option BluesafeAuth) (txHash : String)
  | backfill (auth : Option BluesafeAuth) (body : BackfillBody)
  | streamTransaction (stream : TransactionStream) (throttled : Bool)
  | policyTick

/-- The program of each entry; a worker sends no reply. -/
def handle (config : Config) : Request → OpsM (Option Reply)
  | .createContract auth body => some <$> createContract config auth body
  | .patchContractStatus auth id status => some <$> patchContractStatus config auth id status
  | .patchEscrowAnchor auth id body => some <$> patchEscrowAnchor config auth id body
  | .fileDispute auth body => some <$> fileDispute config auth body
  | .patchDisputeStatus auth id next => some <$> patchDisputeStatus config auth id next
  | .escalate auth id => some <$> escalate config auth id
  | .reviewSlaScan auth => some <$> reviewSlaScan config auth
  | .decision auth id body => some <$> decision config auth id body
  | .execution auth id body => some <$> execution config auth id body
  | .track auth body => some <$> track config auth body
  | .getTransaction auth txHash fresh => some <$> getTransaction config auth txHash fresh
  | .refresh auth txHash => some <$> refresh config auth txHash
  | .backfill auth body => some <$> backfill config auth body
  | .streamTransaction stream throttled => (fun _ => none) <$> handleTransaction stream throttled
  | .policyTick => (fun _ => none) <$> policyTick config

/-- The settings of `config.ts` when only `XRPL_WSS_URL` is set; the two library functions
    are given. -/
def liveDefaults (walletFromSeed : String → Except String String) (sha256 : String → String) :
    Config where
  authEnabled := false
  xrplEnabled := true
  execution := ⟨true, .dev, false, "", walletFromSeed, sha256⟩
  reviewDeadlineDays := 14
  slaAutoEscalate := false
  policy := {
    intervalMs := 30000
    pendingTimeoutMs := 120000
    batchSize := 10
    maxNotFoundProbes := 5
    lockTtlMs := 120000
    maxBackoffMs := 300000
    accountBackfillPerTick := 8 }

/-- A concrete deployment with `liveDefaults`; no seed is configured and no hash is
    synthesised in the runs it is used for. -/
def sampleConfig : Config :=
  liveDefaults (fun _ => .error "invalid seed") (fun s => s)

/-- An environment for concrete runs: identifiers end in `n`, the clock stands at `now`, the
    ledger answers `live` to `tx` and nothing to `account_tx`. -/
def sampleOracle (n : String) (now : Time) (live : Option LiveTxStatus) : Call → Choice
  | .randomId tag => { id := tag ++ "_" ++ n }
  | .clock => { now := now }
  | .getTxStatus _ => { live := live }
  | _ => {}

/-- A dispute of the contract `ctr_1` in the given status. -/
def sampleDispute (id : String) (status : DisputeStatus) : DisputeCase where
  id := id
  contractId := "ctr_1"
  raisedBy := .tenant
  reasonCode := "deposit_not_returned"
  status := status
  evidenceBundle := ["evd_1"]
  createdAt := 0
  updatedAt := 0
  reviewDeadlineAt := none
  escalatedAt := none

/-- The contract of the concrete runs. -/
def sampleContract (status : ContractStatus) : Contract where
  id := "ctr_1"
  tenantId := "tenant_1"
  landlordId := "landlord_1"
  status := status
  escrowCreateTxHash := none
  depositAmount := some "1000000"
  stakeAmount := none
  startsAt := none
  endsAt := none
  createdAt := 0
  updatedAt := 0

/-- A store with one active contract and the given disputes. -/
def sampleStore (disputes : List DisputeCase) : Store :=
  { Store.empty with
    contracts := Table.empty.set (sampleContract .active)
    disputes := disputes.foldl Table.set .empty }

/-- A caller's transaction hash: 64 times the same hexadecimal digit. -/
def sampleHash (c : Char) : String := String.ofList (List.replicate 64 c)

/-- An execution request for a transaction of `rOwnerOwnerOwnerOwner`. -/
def sampleExecution (txType : EscrowTxType) (h : String)
    (hhex : h.toList.length = 64 ∧ h.toList.all isHexDigit = true) : ExecutionBody where
  txType := txType
  owner := "rOwnerOwnerOwnerOwner"
  offerSequence := .num 7
  txHash := some h
  txHash_hex := by
    intro h' heq
    cases heq
    exact hhex

/-- A decision without a memo. -/
def sampleDecision (decision : DisputeDecisionChoice) : DecisionBody where
  decision := decision
  memo := none
  memo_max := by
    intro m hm
    cases hm

/-- The transaction of the concrete track requests. -/
def sampleTrack : TrackBody := { txHash := "AB12CD34", txType := "EscrowFinish" }

/-- A backfill of the account of `sampleExecution`. -/
def sampleBackfill : BackfillBody := { account := "rOwnerOwnerOwnerOwner" }

/-- A thread of the backend. -/
abbrev OpsThread : Type := Thread calls String Request (Option Reply)

/-- The backend with its requests in progress. -/
abbrev OpsPool : Type := Pool calls String Store Request (Option Reply)

/-- The start of a run: nothing is tracked yet, so no dispute waits for an execution or has
    been resolved by one. Contracts, evidence and disputes under review are arbitrary. -/
structure Store.Initial (s : Store) : Prop where
  untracked : s.xrplTxs.rows = []
  unexecuted : ∀ d ∈ s.disputes.rows,
    d.status = .filed ∨ d.status = .underReview ∨ d.status = .decided

/-- The backend handling one request after the other: every request is completed, the
    repository answers, the ledger may not. -/
def opsStep (config : Config) : Store → Request × List Choice → Option Store :=
  seqStep reliable (handle config)

/-- The calls of one completed request, newest first. -/
def opsLog (config : Config) (m : Move Store (Request × List Choice)) : OpsLog :=
  seqLog reliable (handle config) m.before m.label

/-- The backend with interleaved requests, any of whose calls may fail. -/
def opsPoolStep (config : Config) : OpsPool → Act Request Choice → Option OpsPool :=
  poolStep world (handle config)

end Bluesafe.Ops
