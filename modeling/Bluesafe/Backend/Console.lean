import Bluesafe.Backend.Repository

/-!
# The registry of the verifiers and the export jobs

`POST /v1/operator/dispute-verifier-registry` and `POST /v1/reports/export-jobs` of `index.ts`,
and the guards that stand before the writing routes: the block on auditors, the roles of the
route and, on some routes, a scope of the operator console.

A request whose body its schema rejects makes no call and is left out.
-/

namespace Bluesafe.Backend

open Bluesafe.Ops (BluesafeRole actorId writeAudit nowIso randomId requireRoles
  blockAuditorWriteOperations JsonObject)
open Bluesafe.Api (Config Caller Response Value RegistryEntry ExportJob AuditFilter
  OperatorConsoleScope requireOperatorScopes)
open Bluesafe.Notify (utf16Units)

/-! ## Guards -/

/-- The guards of a writing route: the first rejection, or `none` to continue. -/
def guards (config : Config) (allowed : List BluesafeRole) (scope : Option OperatorConsoleScope)
    (caller : Caller) : Option Response :=
  match blockAuditorWriteOperations config.ops caller.auth with
  | some reply => some (.ofReply reply)
  | none =>
    match requireRoles config.ops allowed caller.auth with
    | some reply => some (.ofReply reply)
    | none => scope.bind fun scope => requireOperatorScopes config scope caller

/-- A writing route. -/
def guarded (config : Config) (allowed : List BluesafeRole) (scope : Option OperatorConsoleScope)
    (caller : Caller) (handler : BackendM Response) : BackendM Response :=
  match guards config allowed scope caller with
  | some reply => return reply
  | none => handler

/-! ## The registry of the verifiers -/

/-- `disputeVerifierRegistryUpsertSchema`. -/
structure RegistryUpsertBody where
  verifierId : String
  displayLabel : Option String := none
  active : Bool := true
  verifierId_size : 1 ≤ (utf16Units verifierId).length ∧ (utf16Units verifierId).length ≤ 256
  displayLabel_size : ∀ t, displayLabel = some t →
    1 ≤ (utf16Units t).length ∧ (utf16Units t).length ≤ 256

/-- The entry that is stored: identifier and creation time of the existing one are kept. -/
def RegistryUpsertBody.entry (body : RegistryUpsertBody) (existing : Option RegistryEntry)
    (id : String) (t : Ops.Time) : RegistryEntry where
  id := id
  verifierId := body.verifierId
  displayLabel := body.displayLabel
  active := body.active
  createdAt := (existing.map RegistryEntry.createdAt).getD t

/-- `existing?.id ?? randomId("dvr")`. -/
def registryId : Option RegistryEntry → BackendM String
  | some e => return e.id
  | none => ofOps (randomId "dvr")

/-- `POST /v1/operator/dispute-verifier-registry`. -/
def upsertRegistry (config : Config) (caller : Caller) (body : RegistryUpsertBody) :
    BackendM Response :=
  guarded config [.operator] (some .registry) caller do
    let items ← ofApi (Api.invoke .listDisputeVerifierRegistry)
    let existing := items.find? fun e => decide (e.verifierId = body.verifierId)
    let t ← ofOps nowIso
    let id ← registryId existing
    let entry := body.entry existing id t
    invoke (.upsertDisputeVerifierRegistryEntry entry)
    ofOps (writeAudit "dispute_verifier_registry" id "dispute_verifier_registry.upsert"
      (actorId caller.auth "operator") none
      (some ([("verifierId", .str entry.verifierId), ("active", .bool entry.active)]
        ++ JsonObject.opt "displayLabel" (entry.displayLabel.map .str))) none)
    return .json (if existing.isSome then 200 else 201) entry.json

/-! ## Export jobs -/

/-- `createExportJobSchema`. Its `kind` has the one value `audits_ndjson`. -/
structure CreateExportJobBody where
  filter : AuditFilter
  maxExport : Nat := 25000
  entityType_min : filter.entityType ≠ some ""
  entityId_min : filter.entityId ≠ some ""
  maxExport_range : 1 ≤ maxExport ∧ maxExport ≤ 100000

/-- A new job. -/
def CreateExportJobBody.job (body : CreateExportJobBody) (id : String) (t : Ops.Time) : ExportJob where
  id := id
  status := .pending
  filter := body.filter
  maxExport := body.maxExport
  resultNdjson := none
  error := none
  createdAt := t
  updatedAt := t

/-- `POST /v1/reports/export-jobs`. -/
def createExportJob (config : Config) (caller : Caller) (body : CreateExportJobBody) :
    BackendM Response :=
  guarded config [.operator, .verifier] (some .exports) caller do
    let t ← ofOps nowIso
    let id ← ofOps (randomId "exp")
    invoke (.createExportJob (body.job id t))
    return .json 202 (.obj [("jobId", .str id), ("status", .str "pending")])

end Bluesafe.Backend
