import Bluesafe.Api.Repository

/-!
# Query schemas

The list schemas of `schemas.ts` and what the handlers make of a query before their first
call: the schema, then `parseOptionalIso` on the bounds. A query is either rejected with a
reply (`.error`) or turned into the filter and the page the repository is asked for.

A schema checks all its fields and reports the issues of all of them. The texts of the
issues are those of the schema library and are represented by the kind of the issue.
-/

namespace Bluesafe.Api

open Bluesafe.Ops (ContractStatus DisputeStatus Network trim truthy)
open Bluesafe.Notify (OutboxStatus utf16Units)

/-! ## Fields -/

/-- Why a field is rejected. -/
inductive Issue
  | invalidType
  | invalidValue
  | tooSmall
  | tooBig
  deriving DecidableEq, Repr

def Issue.text : Issue → String
  | invalidType => "invalid_type"
  | invalidValue => "invalid_value"
  | tooSmall => "too_small"
  | tooBig => "too_big"

/-- The outcome of a schema: a value, or the issues of its fields. -/
structure Parsed (α : Type) where
  run : Except (List (String × Issue)) α

/-- One rejected field. -/
def Parsed.issue {α : Type} (name : String) (issue : Issue) : Parsed α := ⟨.error [(name, issue)]⟩

/-- Two schemas are both checked. -/
instance : Applicative Parsed where
  pure a := ⟨.ok a⟩
  seq f x := ⟨match f.run, (x ()).run with
    | .ok g, .ok a => .ok (g a)
    | .ok _, .error e => .error e
    | .error e, .ok _ => .error e
    | .error e, .error e' => .error (e ++ e')⟩

/-- `z.string().min(n).optional()`. -/
def optText (q : Query) (name : String) (min : Nat) : Parsed (Option String) :=
  match q name with
  | none => pure none
  | some (.list _) => .issue name .invalidType
  | some (.text s) =>
    if (utf16Units s).length < min then .issue name .tooSmall else pure (some s)

/-- `z.string().min(n)` of a field of a request body. -/
def minText (name : String) (min : Nat) (s : String) : Parsed String :=
  if (utf16Units s).length < min then .issue name .tooSmall else pure s

/-- `z.coerce.number().int().min(lo).max(hi).optional()`. -/
def optInt (rt : Runtime) (q : Query) (name : String) (lo hi : Nat) : Parsed (Option Nat) :=
  match q name with
  | none => pure none
  | some v =>
    match rt.number v with
    | none => .issue name .invalidType
    | some n =>
      if n < lo then .issue name .tooSmall
      else if n > hi then .issue name .tooBig
      else pure (some n.toNat)

/-- `z.enum([...]).optional()`; the table gives the value of each option. -/
def optEnum {α : Type} (q : Query) (name : String) (table : List (String × α)) :
    Parsed (Option α) :=
  match q name with
  | none => pure none
  | some (.list _) => .issue name .invalidValue
  | some (.text s) =>
    match table.lookup s with
    | none => .issue name .invalidValue
    | some a => pure (some a)

/-- The fields `limit` and `offset` of every list, with their defaults. -/
def listParams (rt : Runtime) (q : Query) : Parsed ListParams :=
  (fun limit offset => ⟨limit.getD 50, offset.getD 0⟩) <$> optInt rt q "limit" 1 200
    <*> optInt rt q "offset" 0 1000000

def contractStatusTable : List (String × ContractStatus) :=
  [.draft, .escrowPending, .escrowValidated, .active, .closed, .cancelled].map fun s => (s.text, s)

def disputeStatusTable : List (String × DisputeStatus) :=
  [.filed, .underReview, .decided, .executionPending, .executed, .closed, .rejected].map
    fun s => (s.text, s)

def settlementStatusTable : List (String × SettlementStatus) :=
  [.collecting, .accrued, .confirmed, .archived].map fun s => (s.text, s)

def networkTable : List (String × Network) := [.testnet, .mainnet].map fun n => (n.text, n)

def outboxStatusTable : List (String × OutboxStatus) :=
  [("pending", .pending), ("processing", .processing), ("dispatched", .dispatched),
    ("dead", .dead)]

/-! ## Replies to a rejected query -/

/-- `res.status(400)` with `parsed.error.flatten()`. -/
def schemaReply (issues : List (String × Issue)) : Response :=
  .json 400 (.obj [("errorCode", .str "B2_VALIDATION_ERROR"),
    ("message", .obj [("formErrors", .arr []),
      ("fieldErrors", .obj (issues.map fun i => (i.1, .arr [.str i.2.text])))])])

/-- A rejection with a text. -/
def validationReply (message : String) : Response := .error 400 "B2_VALIDATION_ERROR" message

/-- The value of a schema, or the reply. -/
def Parsed.orReply {α : Type} (p : Parsed α) : Except Response α :=
  match p.run with
  | .ok a => .ok a
  | .error issues => .error (schemaReply issues)

/-- `parseOptionalIso`, with the reply for its exception. -/
def parseOptionalIso (rt : Runtime) (name : String) (value : Option String) :
    Except Response (Option String) :=
  match truthy value with
  | none => .ok none
  | some v =>
    if rt.dateParses v then .ok (some v)
    else .error (validationReply (name ++ " must be a valid ISO 8601 timestamp"))

/-! ## What the list handlers ask for -/

/-- `GET /v1/contracts`, before the filter is narrowed to the caller. -/
def contractListRequest (rt : Runtime) (q : Query) :
    Except Response (ContractListFilter × ListParams) := do
  let (page, f) ← ((fun page status tenantId landlordId updatedFrom updatedTo =>
      (page, ContractListFilter.mk status tenantId landlordId updatedFrom updatedTo))
    <$> listParams rt q <*> optEnum q "status" contractStatusTable <*> optText q "tenantId" 1
    <*> optText q "landlordId" 1 <*> optText q "updatedFrom" 4 <*> optText q "updatedTo" 4).orReply
  let updatedFrom ← parseOptionalIso rt "updatedFrom" f.updatedFrom
  let updatedTo ← parseOptionalIso rt "updatedTo" f.updatedTo
  return ({ f with updatedFrom := updatedFrom, updatedTo := updatedTo }, page)

/-- `GET /v1/disputes`. -/
def disputeListRequest (rt : Runtime) (q : Query) :
    Except Response (DisputeListFilter × ListParams) := do
  let (page, f) ← ((fun page contractId status updatedFrom updatedTo =>
      (page, DisputeListFilter.mk contractId status updatedFrom updatedTo))
    <$> listParams rt q <*> optText q "contractId" 1 <*> optEnum q "status" disputeStatusTable
    <*> optText q "updatedFrom" 4 <*> optText q "updatedTo" 4).orReply
  let updatedFrom ← parseOptionalIso rt "updatedFrom" f.updatedFrom
  let updatedTo ← parseOptionalIso rt "updatedTo" f.updatedTo
  return ({ f with updatedFrom := updatedFrom, updatedTo := updatedTo }, page)

/-- `GET /v1/settlements`. -/
def settlementListRequest (rt : Runtime) (q : Query) :
    Except Response (SettlementListFilter × ListParams) :=
  ((fun page contractId status periodYear periodMonth =>
      (SettlementListFilter.mk contractId status periodYear periodMonth, page))
    <$> listParams rt q <*> optText q "contractId" 1 <*> optEnum q "status" settlementStatusTable
    <*> optInt rt q "periodYear" 2000 2100 <*> optInt rt q "periodMonth" 1 12).orReply

/-- `GET /v1/events`. -/
def eventListRequest (q : Query) : Except Response EventFilter :=
  (EventFilter.mk <$> optText q "entityType" 1 <*> optText q "entityId" 1
    <*> optText q "eventType" 1).orReply

/-- The table of `validated` in `xrplTxListQuerySchema`. -/
def validatedTable : List (String × Bool) := [("true", true), ("false", false)]

/-- `GET /v1/xrpl/transactions`. -/
def xrplTxListRequest (rt : Runtime) (q : Query) :
    Except Response (XrplTxListFilter × ListParams) :=
  ((fun page account trackingStatus validated network =>
      (XrplTxListFilter.mk account trackingStatus validated network, page))
    <$> listParams rt q <*> optText q "account" 20 <*> optText q "trackingStatus" 1
    <*> optEnum q "validated" validatedTable <*> optEnum q "network" networkTable).orReply

/-- `GET /v1/operator/notifications/outbox`. -/
def outboxListRequest (rt : Runtime) (q : Query) :
    Except Response (Option OutboxStatus × ListParams) :=
  ((fun status page => (status, page)) <$> optEnum q "status" outboxStatusTable
    <*> listParams rt q).orReply

/-- `parsed.data.from?.trim() || undefined`. -/
def trimmed (value : Option String) : Option String := truthy (value.map trim)

/-- The bounds `from` and `to` of the reports. -/
def parseFromTo (rt : Runtime) (fromIso toIso : Option String) :
    Except Response (Option String × Option String) := do
  let lo ← parseOptionalIso rt "from" (trimmed fromIso)
  let hi ← parseOptionalIso rt "to" (trimmed toIso)
  return (lo, hi)

/-- `GET /v1/reports/summary`. -/
def reportSummaryRequest (rt : Runtime) (q : Query) : Except Response ReportSummaryParams := do
  let p ← (ReportSummaryParams.mk <$> optText q "from" 0 <*> optText q "to" 0
    <*> optText q "tenantId" 1 <*> optText q "landlordId" 1).orReply
  let (lo, hi) ← parseFromTo rt p.fromIso p.toIso
  return { p with fromIso := lo, toIso := hi }

/-- `GET /v1/reports/audits.ndjson` and `GET /v1/reports/audits.csv`: the filter and the
    number of rows to export. -/
def reportAuditsRequest (rt : Runtime) (q : Query) : Except Response (AuditFilter × Nat) := do
  let (f, limit) ← ((fun fromIso toIso entityType entityId limit =>
      (AuditFilter.mk entityType entityId fromIso toIso, limit.getD 50000))
    <$> optText q "from" 0 <*> optText q "to" 0 <*> optText q "entityType" 1
    <*> optText q "entityId" 1 <*> optInt rt q "limit" 1 100000).orReply
  let (lo, hi) ← parseFromTo rt f.fromIso f.toIso
  return ({ f with fromIso := lo, toIso := hi }, limit)

/-- The parsed query of `GET /v1/audits`: the filter, the limit and the cursor. -/
def auditsListRequest (rt : Runtime) (q : Query) :
    Except Response (AuditFilter × Option Nat × Option String) := do
  let (f, limit, cursor) ← ((fun entityType entityId fromIso toIso limit cursor =>
      (AuditFilter.mk entityType entityId fromIso toIso, limit, cursor))
    <$> optText q "entityType" 1 <*> optText q "entityId" 1 <*> optText q "from" 0
    <*> optText q "to" 0 <*> optInt rt q "limit" 1 2000 <*> optText q "cursor" 0).orReply
  let (lo, hi) ← parseFromTo rt f.fromIso f.toIso
  return ({ f with fromIso := lo, toIso := hi }, limit, trimmed cursor)

/-- `accountEscrowsQuerySchema`: the limit and the marker. -/
def accountEscrowsRequest (rt : Runtime) (q : Query) : Except Response (Nat × Option String) :=
  ((fun limit marker => (limit.getD 50, marker)) <$> optInt rt q "limit" 10 200
    <*> optText q "marker" 0).orReply

/-- `parseRippledMarker`. -/
def parseRippledMarker (rt : Runtime) (raw : Option String) : Option Value :=
  (truthy raw).map fun s => (rt.jsonParse s).getD (.str s)

end Bluesafe.Api
