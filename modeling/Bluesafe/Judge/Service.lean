import Bluesafe.Judge.Types
import Bluesafe.Async.Pool

/-!
# The dispute service

`DisputeService` keeps its disputes and verifiers in memory. Its methods are synchronous,
except `executeJudgment`, which hands the transactions of a judgment to
`XrplClient.signAndSubmit`. A synchronous method, and each piece of `executeJudgment`
between two awaits that touches the memory, is one call of this module; between two calls
any other method may run.

A dispute is an object: `objects` is the heap, the position of an object is its identity,
and `disputes` is the map from identifiers to objects. A second submission under an
identifier in use replaces the entry of the map, not the object.
-/

namespace Bluesafe.Judge

open Bluesafe.Ops (truthy)

/-! ## The memory -/

/-- The two maps of the service and the transactions the ledger has applied, newest first. -/
structure Memory where
  objects : List DisputeSubmission
  disputes : List (String × Nat)
  verifiers : List VerifierEntry
  ledger : List Tx

/-- A new service. -/
def Memory.empty : Memory := ⟨[], [], [], []⟩

/-- `this.disputes.get(id)`, with the position of the object. -/
def Memory.getDispute (s : Memory) (id : String) : Option (Nat × DisputeSubmission) := do
  let ref ← s.disputes.lookup id
  let d ← s.objects[ref]?
  return (ref, d)

/-- Change an object in place. -/
def Memory.update (s : Memory) (ref : Nat) (f : DisputeSubmission → DisputeSubmission) : Memory :=
  { s with objects := s.objects.modify ref f }

/-- Change the entry of a verifier, if there is one. -/
def Memory.updateVerifier (s : Memory) (address : String) (f : VerifierEntry → VerifierEntry) :
    Memory :=
  { s with verifiers := s.verifiers.map fun v => if v.address = address then f v else v }

/-- `requireOpen`. -/
def requireOpen (s : Memory) (id : String) : Except String (Nat × DisputeSubmission) :=
  match s.getDispute id with
  | none => .error "dispute not found"
  | some (ref, d) =>
    if d.withdrawn then .error "dispute withdrawn"
    else if d.ruling.isSome then .error "dispute already executed"
    else .ok (ref, d)

/-! ## Synchronous methods -/

/-- The argument of `registerVerifier`. -/
structure VerifierInput where
  address : String
  region : Option String := none
  brokerages : Option (List String) := none

/-- `registerVerifier`. -/
def registerVerifier (s : Memory) (v : VerifierInput) : Except String Memory :=
  if s.verifiers.any fun w => w.address = v.address then .error "verifier already registered"
  else .ok { s with verifiers := s.verifiers ++ [⟨v.address, true, v.region, v.brokerages, 0, 0⟩] }

/-- `deactivateVerifier`. -/
def deactivateVerifier (s : Memory) (address : String) : Except String Memory :=
  if s.verifiers.any fun w => w.address = address then
    .ok (s.updateVerifier address fun v => { v with active := false })
  else .error "verifier not found"

/-- The filter of `selectVerifiers`. -/
def isEligible (opts : PanelSelectionParams) (v : VerifierEntry) : Bool :=
  if !v.active || (opts.excludeAddresses.getD []).contains v.address then false
  else if (truthy opts.excludeRegion).isSome && v.region = opts.excludeRegion then false
  else match opts.excludeBrokerages with
    | some excluded => !(v.brokerages.getD []).any excluded.contains
    | none => true

/-- The partial shuffle: `picks` are the random positions, one for each `i` from `i` down. -/
def shuffleTail (arr : List String) : Nat → Nat → List Nat → List String
  | 0, _, _ => arr
  | n + 1, i, picks =>
    let j := picks.headD 0 % (i + 1)
    let swapped := (arr.set i (arr.getD j "")).set j (arr.getD i "")
    shuffleTail swapped n (i - 1) picks.tail

/-- `selectVerifiers`. -/
def selectVerifiers (s : Memory) (opts : PanelSelectionParams) (picks : List Nat) :
    Except String (List String) :=
  let panelSize := opts.panelSize.getD 5
  let eligible := s.verifiers.filter (isEligible opts)
  if eligible.length < panelSize then
    .error ("not enough eligible verifiers: have " ++ toString eligible.length ++ ", need " ++
      toString panelSize)
  else
    let arr := eligible.map VerifierEntry.address
    .ok ((shuffleTail arr panelSize (arr.length - 1) picks).drop (arr.length - panelSize))

/-- The argument of `submitDispute`. -/
structure SubmitDisputeArgs where
  claimant : String
  evidenceHashHex : String
  disputeMeta : DisputeMeta
  panelSelection : Option PanelSelectionParams := none

/-- `votingPeriodSeconds`. -/
def votingPeriodSeconds : Nat := 7 * 24 * 60 * 60

/-- `submitDispute`; `id` is `randomDisputeId()`. Returns the new object. -/
def submitDispute (s : Memory) (args : SubmitDisputeArgs) (id : String) (nowUnix : Nat)
    (picks : List Nat) : Except String (Nat × Memory) :=
  let parties := args.disputeMeta.parties
  if args.claimant ≠ parties.tenant ∧ args.claimant ≠ parties.landlord then
    .error "claimant must be a lease party"
  else do
    let opts := args.panelSelection.getD {}
    let panel ← selectVerifiers s { opts with
      excludeAddresses :=
        some (opts.excludeAddresses.getD [] ++ [parties.tenant, parties.landlord]) } picks
    let submission : DisputeSubmission := {
      disputeId := id
      claimant := args.claimant
      evidenceHashHex := args.evidenceHashHex
      openedAtUnix := nowUnix
      votingDeadlineUnix := nowUnix + votingPeriodSeconds
      panel := panel
      votes := []
      withdrawn := false
      ruling := none
      executedTxs := none
      disputeMeta := args.disputeMeta }
    return (s.objects.length, { s with
      objects := s.objects ++ [submission]
      disputes := (id, s.objects.length) :: s.disputes })

/-- `collectVote`. -/
def collectVote (s : Memory) (disputeId verifier : String) (ruling : DisputeRuling) :
    Except String Memory := do
  let (ref, d) ← requireOpen s disputeId
  if !d.panel.contains verifier then throw "not on panel"
  else if (d.votes.lookup verifier).isSome then throw "already voted"
  else
    let voted := s.update ref fun d => { d with votes := d.votes ++ [(verifier, ruling)] }
    return voted.updateVerifier verifier fun v => { v with casesHandled := v.casesHandled + 1 }

/-- `withdrawDispute`. -/
def withdrawDispute (s : Memory) (disputeId claimant : String) : Except String Memory := do
  let (ref, d) ← requireOpen s disputeId
  if d.claimant ≠ claimant then throw "not the claimant"
  else return s.update ref fun d => { d with withdrawn := true }

/-! ## The pieces of `executeJudgment` -/

/-- What the first piece of `executeJudgment` leaves for the rest. -/
structure Opened where
  ref : Nat
  dispute : DisputeSubmission
  ruling : DisputeRuling
  tally : Tally
  deriving DecidableEq, Repr

/-- The first piece: `requireOpen`, `computeRuling`, and the ruling is set. -/
def openJudgment (s : Memory) (disputeId : String) (nowUnix : Nat) :
    Except String (Opened × Memory) := do
  let (ref, d) ← requireOpen s disputeId
  let ruling ← computeRuling d nowUnix
  return (⟨ref, d, ruling, countVotes d⟩,
    s.update ref fun d => { d with ruling := some ruling, executedTxs := some [] })

/-- `pushHash`. -/
def pushHash (s : Memory) (ref : Nat) (res : TxResponse) : Memory :=
  match truthy res.hash with
  | none => s
  | some hash =>
    s.update ref fun d => { d with executedTxs := some (d.executedTxs.getD [] ++ [hash]) }

/-- The last piece: the accuracy of the verifiers who voted for the ruling. -/
def trackAccuracy (s : Memory) (ref : Nat) (ruling : DisputeRuling) : Memory :=
  match s.objects[ref]? with
  | none => s
  | some d =>
    (d.votes.filter fun v => v.2 = ruling).foldl (fun s v =>
      s.updateVerifier v.1 fun e => { e with votesWithMajority := e.votesWithMajority + 1 }) s

/-! ## Calls -/

/-- The synchronous pieces and the two awaited calls of `signAndSubmit`. -/
inductive Call
  | registerVerifier (v : VerifierInput)
  | deactivateVerifier (address : String)
  | submitDispute (args : SubmitDisputeArgs)
  | collectVote (disputeId verifier : String) (ruling : DisputeRuling)
  | withdrawDispute (disputeId claimant : String)
  | openJudgment (disputeId : String)
  | pushHash (ref : Nat) (res : TxResponse)
  | trackAccuracy (ref : Nat) (ruling : DisputeRuling)
  | autofill (tx : Tx)
  | submitAndWait (tx : Tx)

/-- The answer type of each call; a method that throws answers with its error. -/
@[reducible] def Call.Res : Call → Type
  | .registerVerifier _ => Except String Unit
  | .deactivateVerifier _ => Except String Unit
  | .submitDispute _ => Except String Nat
  | .collectVote _ _ _ => Except String Unit
  | .withdrawDispute _ _ => Except String Unit
  | .openJudgment _ => Except String Opened
  | .pushHash _ _ => Unit
  | .trackAccuracy _ _ => Unit
  | .autofill _ => Unit
  | .submitAndWait _ => TxResponse

/-- The interface of the service's programs. -/
@[reducible] def calls : Interface := ⟨Call, Call.Res⟩

/-- A method of the service; a rejection carries the error message. -/
abbrev JudgeM (α : Type) : Type := Async calls String α

/-- The calls one method call has made, newest first. -/
abbrev JudgeLog : Type := Log calls String

/-- Make one call. -/
abbrev invoke (op : Call) : JudgeM op.Res := Async.call (I := calls) op

/-- What the environment decides at a call: the clock, the random numbers, the answer of the
    ledger, and whether a ledger call is rejected and has taken effect all the same. -/
structure Choice where
  failure : Option String := none
  applied : Bool := false
  nowUnix : Nat := 0
  id : String := ""
  picks : List Nat := []
  response : TxResponse := ⟨none, none⟩

/-- The answer and the memory after a synchronous method. -/
def settled (s : Memory) : Except String Memory → Except String Unit × Memory
  | .ok s' => (.ok (), s')
  | .error e => (.error e, s)

/-- The same for a method with a result. -/
def settledWith {α : Type} (s : Memory) : Except String (α × Memory) → Except String α × Memory
  | .ok (a, s') => (.ok a, s')
  | .error e => (.error e, s)

/-- A transaction on the ledger. -/
def Memory.applyTx (s : Memory) (tx : Tx) : Memory := { s with ledger := tx :: s.ledger }

/-- The answer and the effect of a call. Only the ledger may reject one: autofilling and
    signing change nothing, and a submission without an answer may have been applied. -/
def serve : (op : Call) → Choice → Memory → Except String op.Res × Memory
  | .registerVerifier v, _, s =>
    (.ok (settled s (registerVerifier s v)).1, (settled s (registerVerifier s v)).2)
  | .deactivateVerifier address, _, s =>
    (.ok (settled s (deactivateVerifier s address)).1,
      (settled s (deactivateVerifier s address)).2)
  | .submitDispute args, c, s =>
    (.ok (settledWith s (submitDispute s args c.id c.nowUnix c.picks)).1,
      (settledWith s (submitDispute s args c.id c.nowUnix c.picks)).2)
  | .collectVote disputeId verifier ruling, _, s =>
    (.ok (settled s (collectVote s disputeId verifier ruling)).1,
      (settled s (collectVote s disputeId verifier ruling)).2)
  | .withdrawDispute disputeId claimant, _, s =>
    (.ok (settled s (withdrawDispute s disputeId claimant)).1,
      (settled s (withdrawDispute s disputeId claimant)).2)
  | .openJudgment disputeId, c, s =>
    (.ok (settledWith s (openJudgment s disputeId c.nowUnix)).1,
      (settledWith s (openJudgment s disputeId c.nowUnix)).2)
  | .pushHash ref res, _, s => (.ok (), pushHash s ref res)
  | .trackAccuracy ref ruling, _, s => (.ok (), trackAccuracy s ref ruling)
  | .autofill _, c, s =>
    match c.failure with
    | none => (.ok (), s)
    | some e => (.error e, s)
  | .submitAndWait tx, c, s =>
    match c.failure with
    | none => (.ok c.response, if c.response.succeeded then s.applyTx tx else s)
    | some e => (.error e, if c.applied then s.applyTx tx else s)

/-- The service with its ledger. -/
def world : World calls String Memory Choice where
  allow := fun _ _ _ => true
  serve := serve

/-! ## `executeJudgment` -/

/-- Continue with the value of a synchronous function, or throw its error. -/
def orThrow {α : Type} : Except String α → JudgeM α
  | .ok a => pure a
  | .error e => throw e

/-- The settings of the service: the insurance pool and the SHA-256 digest. -/
structure Config where
  insurancePoolAccount : String
  sha256 : List UInt8 → List UInt8

/-- The argument of `executeJudgment`; a wallet is its classic address. -/
structure ExecuteArgs where
  disputeId : String
  bluesafeWallet : String
  issuerWallet : String
  poolFunderWallet : String
  judgmentUri : String
  panelAnonymizedHashes : List String
  deriving DecidableEq, Repr

/-- `XrplClient.signAndSubmit`: autofill, sign, submit. A wallet that cannot sign rejects as
    the autofill does. -/
def signAndSubmit (tx : Tx) : JudgeM TxResponse := do
  invoke (.autofill tx)
  invoke (.submitAndWait tx)

/-- `pushHash(d, await this.xrpl.signAndSubmit(tx, signer))`. -/
def submitAndPush (ref : Nat) (tx : Tx) : JudgeM Unit := do
  let res ← signAndSubmit tx
  invoke (.pushHash ref res)

/-- `cancelDeposit`. -/
def cancelDeposit (o : Opened) (signer : String) : JudgeM Unit :=
  let escrow := o.dispute.disputeMeta.depositEscrow
  submitAndPush o.ref (buildCancel signer escrow.owner escrow.sequence)

/-- `finishDeposit`. -/
def finishDeposit (config : Config) (o : Opened) (signer : String) : JudgeM Unit := do
  let escrow := o.dispute.disputeMeta.depositEscrow
  let tx ← orThrow (buildFinish config.sha256 signer escrow.owner escrow.sequence
    escrow.fulfillment)
  submitAndPush o.ref tx

/-- `finishStake`. -/
def finishStake (config : Config) (o : Opened) (signer : String) : JudgeM Unit := do
  let escrow := o.dispute.disputeMeta.stakeEscrow
  let tx ← orThrow (buildFinish config.sha256 signer escrow.owner escrow.sequence none)
  submitAndPush o.ref tx

/-- `slashStake`. -/
def slashStake (config : Config) (o : Opened) (funder : String) : JudgeM Unit := do
  match truthy o.dispute.disputeMeta.stakeAmountDrops with
  | none => throw "slashStake requires meta.stakeAmountDrops (XRP drops as string)"
  | some stakeAmountDrops =>
    finishStake config o funder
    match bigInt stakeAmountDrops with
    | none => throw ("Cannot convert " ++ stakeAmountDrops ++ " to a BigInt")
    | some total =>
      submitAndPush o.ref (buildPayment funder o.dispute.disputeMeta.parties.tenant
        (toString (slashToTenant total)))
      submitAndPush o.ref (buildPayment funder config.insurancePoolAccount
        (toString (slashToInsurance total)))

/-- The first step of `executeJudgment`: settle the escrows according to the ruling. -/
def settleEscrows (config : Config) (args : ExecuteArgs) (o : Opened) : JudgeM Unit :=
  match o.ruling with
  | .tenantWins => do
    cancelDeposit o args.bluesafeWallet
    slashStake config o args.poolFunderWallet
  | .landlordWins => do
    finishDeposit config o args.bluesafeWallet
    finishStake config o args.bluesafeWallet
  | .systemFault => do
    cancelDeposit o args.bluesafeWallet
    finishStake config o args.bluesafeWallet

/-- The second step: mint the judgment NFT. -/
def mintJudgment (args : ExecuteArgs) (o : Opened) : JudgeM Unit := do
  let disputeNft ← orThrow (buildDisputeNFT args.issuerWallet o.dispute.disputeId o.ruling o.tally
    args.panelAnonymizedHashes o.dispute.disputeMeta.evidenceUris args.judgmentUri)
  submitAndPush o.ref disputeNft

/-- `executeJudgment`. The returned dispute is given by its position. -/
def executeJudgment (config : Config) (args : ExecuteArgs) : JudgeM Nat := do
  let o ← orThrow (← invoke (.openJudgment args.disputeId))
  settleEscrows config args o
  mintJudgment args o
  invoke (.trackAccuracy o.ref o.ruling)
  return o.ref

/-! ## The service as a system -/

/-- The method calls of the service. -/
inductive Request
  | registerVerifier (v : VerifierInput)
  | deactivateVerifier (address : String)
  | submitDispute (args : SubmitDisputeArgs)
  | collectVote (disputeId verifier : String) (ruling : DisputeRuling)
  | withdrawDispute (disputeId claimant : String)
  | executeJudgment (args : ExecuteArgs)

/-- The program of each method call. -/
def handle (config : Config) : Request → JudgeM Unit
  | .registerVerifier v => do orThrow (← invoke (.registerVerifier v))
  | .deactivateVerifier address => do orThrow (← invoke (.deactivateVerifier address))
  | .submitDispute args => do
    let _ ← orThrow (← invoke (.submitDispute args))
  | .collectVote disputeId verifier ruling => do
    orThrow (← invoke (.collectVote disputeId verifier ruling))
  | .withdrawDispute disputeId claimant => do
    orThrow (← invoke (.withdrawDispute disputeId claimant))
  | .executeJudgment args => do
    let _ ← executeJudgment config args

/-- A method call in progress. -/
abbrev JudgeThread : Type := Async.Thread calls String Request Unit

/-- The service with its method calls in progress. -/
abbrev JudgePool : Type := Async.Pool calls String Memory Request Unit

/-- The service: method calls are interleaved at their calls. -/
def judgeStep (config : Config) : JudgePool → Async.Act Request Choice → Option JudgePool :=
  Async.poolStep world (handle config)

end Bluesafe.Judge
