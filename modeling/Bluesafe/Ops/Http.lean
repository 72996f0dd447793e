import Bluesafe.Ops.Reconcile

/-!
# Requests and replies

The reply a handler sends, the two role guards that run before it (`auth.ts`) and the
access check shared by the handlers of one dispute. A request whose body the schema
rejects, or that an earlier guard rejects, makes no call at all.
-/

namespace Bluesafe.Ops

/-- `res.status(status).json(body)`. -/
structure Reply where
  status : Nat
  body : JsonObject

/-- An error reply. -/
def Reply.error (status : Nat) (errorCode message : String) : Reply :=
  ⟨status, [("errorCode", .str errorCode), ("message", .str message)]⟩

/-- `allowed.join(", ")`. -/
def joinRoles : List BluesafeRole → String
  | [] => ""
  | [r] => r.text
  | r :: rs => r.text ++ ", " ++ joinRoles rs

/-- `requireRoles`: the rejection, or `none` to continue. -/
def requireRoles (config : Config) (allowed : List BluesafeRole) (auth : Option BluesafeAuth) :
    Option Reply :=
  if !config.authEnabled then none
  else match auth with
    | some a =>
      if a.role ∈ allowed then none
      else some (.error 403 "B2_FORBIDDEN"
        ("Role not allowed for this operation (need one of: " ++ joinRoles allowed ++ ")"))
    | none => some (.error 403 "B2_FORBIDDEN"
        ("Role not allowed for this operation (need one of: " ++ joinRoles allowed ++ ")"))

/-- `blockAuditorWriteOperations` for a request that is not `GET` or `HEAD`. -/
def blockAuditorWriteOperations (config : Config) (auth : Option BluesafeAuth) : Option Reply :=
  if config.authEnabled && (auth.map BluesafeAuth.role == some .auditor) then
    some (.error 403 "B2_FORBIDDEN" "Auditor role is read-only (GET/HEAD only on /v1)")
  else none

/-- A writing route: both guards, then the handler. -/
def writeRoute (config : Config) (allowed : List BluesafeRole) (auth : Option BluesafeAuth)
    (handler : OpsM Reply) : OpsM Reply :=
  match blockAuditorWriteOperations config auth with
  | some reply => pure reply
  | none =>
    match requireRoles config allowed auth with
    | some reply => pure reply
    | none => handler

/-- A reading route. -/
def readRoute (config : Config) (allowed : List BluesafeRole) (auth : Option BluesafeAuth)
    (handler : OpsM Reply) : OpsM Reply :=
  match requireRoles config allowed auth with
  | some reply => pure reply
  | none => handler

/-- Every role. -/
def allRoles : List BluesafeRole := [.tenant, .landlord, .operator, .verifier, .auditor]

/-- The roles of the review and execution routes. -/
def reviewerRoles : List BluesafeRole := [.operator, .verifier, .auditor]

/-- `req.bluesafeAuth?.role ?? fallback` as an actor id. -/
def actorId (auth : Option BluesafeAuth) (fallback : String) : String :=
  match auth with
  | some a => a.role.text
  | none => fallback

/-- `canAccessDispute`. -/
def canAccessDispute (config : Config) (auth : Option BluesafeAuth) (dispute : DisputeCase) :
    OpsM Bool := do
  match ← getContract dispute.contractId with
  | none => return false
  | some contract => return canAccessContract config auth contract

/-- The opening of every handler of one dispute: read it, check the access. -/
def withDispute (config : Config) (auth : Option BluesafeAuth) (disputeId forbidden : String)
    (handler : DisputeCase → OpsM Reply) : OpsM Reply := do
  match ← getDispute disputeId with
  | none => return .error 404 "B2_NOT_FOUND" "Dispute not found"
  | some dispute =>
    if ← canAccessDispute config auth dispute then handler dispute
    else return .error 403 "B2_FORBIDDEN" forbidden

end Bluesafe.Ops
