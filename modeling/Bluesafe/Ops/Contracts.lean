import Bluesafe.Ops.Http

/-!
# Contract handlers

The handlers of `index.ts` that write contracts: creation, `PATCH status` and
`PATCH escrow-anchor`.
-/

namespace Bluesafe.Ops

/-- `createContractSchema`. -/
structure CreateContractBody where
  tenantId : String
  landlordId : String
  depositAmount : Option String := none
  stakeAmount : Option String := none
  startsAt : Option String := none
  endsAt : Option String := none
  tenantId_min : 1 ≤ tenantId.toList.length := by decide
  landlordId_min : 1 ≤ landlordId.toList.length := by decide

/-- `contractEscrowAnchorSchema`. -/
structure EscrowAnchorBody where
  txHash : String
  txHash_min : 8 ≤ txHash.toList.length := by decide
  txHash_max : txHash.toList.length ≤ 128 := by decide

/-- `assertCreateContractAllowed`. -/
def assertCreateContractAllowed (config : Config) (auth : Option BluesafeAuth)
    (tenantId landlordId : String) : Bool :=
  if !config.authEnabled then true
  else match auth with
    | none => false
    | some a =>
      match a.role with
      | .auditor => false
      | .operator => true
      | .verifier => true
      | .tenant => a.tenantId = some tenantId
      | .landlord => a.landlordId = some landlordId

/-- The table of `isContractStatusTransitionAllowed`. -/
def allowedTransitions : ContractStatus → List ContractStatus
  | .draft => [.escrowPending, .cancelled]
  | .escrowPending => [.escrowValidated, .cancelled]
  | .escrowValidated => [.active, .cancelled]
  | .active => [.closed, .cancelled]
  | .closed => []
  | .cancelled => []

/-- `isContractStatusTransitionAllowed`. -/
def isContractStatusTransitionAllowed (source target : ContractStatus) : Bool :=
  target ∈ allowedTransitions source

/-- The JSON form of a contract. -/
def Contract.json (c : Contract) : JsonObject :=
  [("id", .str c.id), ("tenantId", .str c.tenantId), ("landlordId", .str c.landlordId),
    ("status", .str c.status.text)]
    ++ JsonObject.opt "escrowCreateTxHash" (c.escrowCreateTxHash.map .str)
    ++ JsonObject.opt "depositAmount" (c.depositAmount.map .str)
    ++ JsonObject.opt "stakeAmount" (c.stakeAmount.map .str)
    ++ JsonObject.opt "startsAt" (c.startsAt.map .str)
    ++ JsonObject.opt "endsAt" (c.endsAt.map .str)
    ++ [("createdAt", .time c.createdAt), ("updatedAt", .time c.updatedAt)]

/-- A new contract. -/
def CreateContractBody.toContract (body : CreateContractBody) (id : String) (now : Time) :
    Contract where
  id := id
  tenantId := body.tenantId
  landlordId := body.landlordId
  status := .draft
  escrowCreateTxHash := none
  depositAmount := body.depositAmount
  stakeAmount := body.stakeAmount
  startsAt := body.startsAt
  endsAt := body.endsAt
  createdAt := now
  updatedAt := now

/-- `POST /v1/contracts`. -/
def createContract (config : Config) (auth : Option BluesafeAuth) (body : CreateContractBody) :
    OpsM Reply :=
  writeRoute config allRoles auth do
    if assertCreateContractAllowed config auth body.tenantId body.landlordId then
      let now ← nowIso
      let id ← randomId "ctr"
      saveContract (body.toContract id now)
      writeAudit "contract" id "contract.created" "operator_local" none
        (some ([("tenantId", .str body.tenantId), ("landlordId", .str body.landlordId),
          ("status", .str "draft")]
          ++ JsonObject.opt "depositAmount" (body.depositAmount.map .str)
          ++ JsonObject.opt "stakeAmount" (body.stakeAmount.map .str)
          ++ JsonObject.opt "startsAt" (body.startsAt.map .str)
          ++ JsonObject.opt "endsAt" (body.endsAt.map .str))) none
      emitEvent "contract.created" "contract" id [("status", .str "draft")]
      let created ← getContract id
      return ⟨201, (created.map Contract.json).getD []⟩
    else
      return .error 403 "B2_FORBIDDEN"
        "Cannot create contract for another party with the current role"

/-- The opening of both patch handlers: read the contract, check the access. -/
def withContract (config : Config) (auth : Option BluesafeAuth) (contractId : String)
    (handler : Contract → OpsM Reply) : OpsM Reply := do
  match ← getContract contractId with
  | none => return .error 404 "B2_NOT_FOUND" "Contract not found"
  | some contract =>
    if canAccessContract config auth contract then handler contract
    else return .error 403 "B2_FORBIDDEN" "Not allowed to update this contract"

/-! ## `PATCH status` -/

/-- The notification after a contract was closed or cancelled. -/
def notifyContractEnd (contract : Contract) (status : ContractStatus) : OpsM Unit := do
  match ← getContract contract.id with
  | none => pure ()
  | some c =>
    if status = .closed then
      maybeEnqueueDomainNotifications ⟨"contract.lifecycle_closed", contractPartyRecipientIds c,
        [("contractId", .str contract.id), ("status", .str status.text)]⟩
    else if status = .cancelled then
      maybeEnqueueDomainNotifications ⟨"refund.contract_cancelled", contractPartyRecipientIds c,
        [("contractId", .str contract.id), ("status", .str status.text)]⟩
    else pure ()

/-- The contract after `PATCH status`. -/
def Contract.withStatus (contract : Contract) (status : ContractStatus) (now : Time) : Contract :=
  { contract with status := status, updatedAt := now }

/-- `PATCH /v1/contracts/:contractId/status`. -/
def patchContractStatus (config : Config) (auth : Option BluesafeAuth) (contractId : String)
    (status : ContractStatus) : OpsM Reply :=
  writeRoute config allRoles auth <|
  withContract config auth contractId fun contract => do
    if isContractStatusTransitionAllowed contract.status status then
      let now ← nowIso
      saveContract (contract.withStatus status now)
      writeAudit "contract" contract.id "contract.status_changed" "operator_local"
        (some [("status", .str contract.status.text)]) (some [("status", .str status.text)]) none
      emitEvent "contract.status_changed" "contract" contract.id
        [("before", .str contract.status.text), ("after", .str status.text)]
      notifyContractEnd contract status
      return ⟨200, (contract.withStatus status now).json⟩
    else
      return .error 409 "B2_VALIDATION_ERROR"
        ("Invalid contract status transition: " ++ contract.status.text ++ " -> " ++ status.text)

/-! ## `PATCH escrow-anchor` -/

/-- The ledger's answer for the anchor: `tx`, then `account_tx` of the tenant, then of the
    landlord. -/
def anchorAnswer (contract : Contract) (txHash : String) : OpsM (Option LiveTxStatus) := do
  let live ← getTxStatus txHash
  let live ← lookIn live contract.tenantId
  lookIn live contract.landlordId
where
  /-- Ask `account_tx` when there is no answer yet and the account is not empty. -/
  lookIn (live : Option LiveTxStatus) (account : String) : OpsM (Option LiveTxStatus) := do
    if live.isNone && account ≠ "" then
      let map ← getAccountTxResults account
      return map.lookup txHash
    else return live

/-- A validated, successful `EscrowCreate`. -/
def LiveTxStatus.anchors (live : LiveTxStatus) : Bool :=
  live.validated && live.resultCode = some "tesSUCCESS" &&
    live.transactionType = some "EscrowCreate"

/-- Whether the ledger confirms the anchor; an exception counts as no. -/
def anchorConfirmed (config : Config) (contract : Contract) (txHash : String) : OpsM Bool :=
  if config.xrplEnabled then
    tryCatch (do
      let live ← anchorAnswer contract txHash
      return (live.map LiveTxStatus.anchors).getD false) fun _ => pure false
  else pure false

/-- The status after the hash was set and, if `confirmed`, reconciled. -/
def anchoredStatus (status : ContractStatus) (confirmed : Bool) : ContractStatus :=
  let pending := if status = .draft then .escrowPending else status
  if confirmed = true ∧ pending = .escrowPending then .escrowValidated else pending

/-- The contract after `PATCH escrow-anchor`. -/
def Contract.anchored (contract : Contract) (txHash : String) (confirmed : Bool) (now : Time) :
    Contract :=
  { contract with
    escrowCreateTxHash := some txHash
    status := anchoredStatus contract.status confirmed
    updatedAt := now }

/-- The rejection of an anchor, from the copy the handler read. -/
def anchorRejected (contract : Contract) (txHash : String) : Option Reply :=
  if contract.status = .active ∨ contract.status = .closed ∨ contract.status = .cancelled then
    some (.error 409 "B2_VALIDATION_ERROR"
      ("Escrow anchor cannot be updated in status " ++ contract.status.text))
  else if contract.status = .escrowValidated ∧
      (truthy contract.escrowCreateTxHash).any (· ≠ txHash) = true then
    some (.error 409 "B2_VALIDATION_ERROR"
      "Escrow tx hash is already validated; changing tx hash is not allowed")
  else none

/-- `PATCH /v1/contracts/:contractId/escrow-anchor`. The handler also asks the transition
    table for `draft -> escrow_pending` and `escrow_pending -> escrow_validated`, which
    are in the table. -/
def patchEscrowAnchor (config : Config) (auth : Option BluesafeAuth) (contractId : String)
    (body : EscrowAnchorBody) : OpsM Reply :=
  writeRoute config allRoles auth <|
  withContract config auth contractId fun contract => do
    let txHash := trim body.txHash
    match anchorRejected contract txHash with
    | some reply => return reply
    | none =>
      let confirmed ← anchorConfirmed config contract txHash
      let now ← nowIso
      let next := contract.anchored txHash confirmed now
      let reconciledToValidated := decide (next.status = .escrowValidated) &&
        !decide (contract.status = .escrowValidated)
      saveContract next
      writeAudit "contract" contract.id "contract.escrow_anchor_updated" "operator_local"
        (some ([("status", .str contract.status.text)]
          ++ JsonObject.opt "escrowCreateTxHash" (contract.escrowCreateTxHash.map .str)))
        (some [("status", .str next.status.text), ("escrowCreateTxHash", .str txHash),
          ("reconciledToValidated", .bool reconciledToValidated)]) none
      emitEvent "contract.escrow_anchor_updated" "contract" contract.id
        [("txHash", .str txHash), ("status", .str next.status.text),
          ("reconciledToValidated", .bool reconciledToValidated)]
      return ⟨200, next.json⟩

end Bluesafe.Ops
