import Bluesafe.Ops.Http
import Bluesafe.Notify.Types

/-!
# Data model of the `/v1` reads and of the ledger stream

The records of `services/be2-ops/src/types.ts` and `repository/app-repository.ts` that only
the `GET` handlers and the ledger stream use: settlements, the full evidence files, the
votes and the registry of the verifiers, export jobs, and the filters of the list calls.
Contracts, disputes, tracked transactions, audit entries and events are those of
`Bluesafe.Ops`, notifications and outbox rows those of `Bluesafe.Notify`.

A reply is a status with a JSON value, an exported text or the bytes of a download.
`Value` adds arrays to `Ops.Json`.
-/

namespace Bluesafe.Api

open Bluesafe.Ops (Time Json JsonObject Contract DisputeCase XrplTransaction AuditLog
  EventEnvelope ContractStatus DisputeStatus DisputeDecisionChoice Network)
open Bluesafe.Notify (NotificationEvent NotificationOutboxRecord OutboxStatus NotificationStatus)

/-! ## Replies -/

/-- A JSON value with arrays. -/
inductive Value
  | json (j : Json)
  | arr (items : List Value)
  | obj (fields : List (String × Value))

namespace Value

def str (s : String) : Value := .json (.str s)
def num (n : Int) : Value := .json (.num n)
def bool (b : Bool) : Value := .json (.bool b)
def time (t : Time) : Value := .json (.time t)
def null : Value := .json .null

/-- An object payload. -/
def ofObject (o : JsonObject) : Value := .json (.obj o)

/-- A field whose value may be `undefined`: such a field is not sent. -/
def opt (name : String) : Option Value → List (String × Value)
  | some v => [(name, v)]
  | none => []

/-- `x ?? null`. -/
def orNull : Option Value → Value
  | some v => v
  | none => null

end Value

/-- What is sent after the status line. -/
inductive Body
  | json (v : Value)
  | text (contentType fileName : String) (chunks : List String)
  | bytes (contentType fileName : String) (content : List UInt8)

structure Response where
  status : Nat
  body : Body

/-- `res.status(status).json(value)`. -/
def Response.json (status : Nat) (v : Value) : Response := ⟨status, .json v⟩

/-- `res.json(...)` of an object. -/
def Response.ok (fields : List (String × Value)) : Response := .json 200 (.obj fields)

/-- An error reply. -/
def Response.error (status : Nat) (errorCode message : String) : Response :=
  .json status (.obj [("errorCode", .str errorCode), ("message", .str message)])

/-- A reply of one of the handlers of `Bluesafe.Ops`. -/
def Response.ofReply (r : Ops.Reply) : Response := .json r.status (.ofObject r.body)

/-! ## Settlements -/

/-- `SettlementStatus`. -/
inductive SettlementStatus
  | collecting
  | accrued
  | confirmed
  | archived
  deriving DecidableEq, Repr

def SettlementStatus.text : SettlementStatus → String
  | collecting => "collecting"
  | accrued => "accrued"
  | confirmed => "confirmed"
  | archived => "archived"

/-- `SettlementRecord`. Its `periodMode` has the one value `calendar_utc`. -/
structure SettlementRecord where
  id : String
  contractId : String
  periodYear : Nat
  periodMonth : Nat
  status : SettlementStatus
  lastLedgerIndex : Option Int
  ledgerCloseCount : Nat
  createdAt : Time
  updatedAt : Time
  amountMinor : Option Nat
  currencyCode : String
  batchId : Option String
  confirmedAt : Option Time

def SettlementRecord.json (s : SettlementRecord) : Value :=
  .obj ([("id", .str s.id), ("contractId", .str s.contractId),
      ("periodYear", .num s.periodYear), ("periodMonth", .num s.periodMonth),
      ("status", .str s.status.text)]
    ++ Value.opt "lastLedgerIndex" (s.lastLedgerIndex.map .num)
    ++ [("ledgerCloseCount", .num s.ledgerCloseCount), ("createdAt", .time s.createdAt),
      ("updatedAt", .time s.updatedAt)]
    ++ Value.opt "amountMinor" (s.amountMinor.map fun n => .num n)
    ++ [("currencyCode", .str s.currencyCode)]
    ++ Value.opt "batchId" (s.batchId.map .str)
    ++ [("periodMode", .str "calendar_utc")]
    ++ Value.opt "confirmedAt" (s.confirmedAt.map .time))

/-- `TouchSettlementsOnLedgerCloseParams`. -/
structure TouchParams where
  periodYear : Nat
  periodMonth : Nat
  ledgerIndex : Int
  now : Time
  deriving DecidableEq, Repr

/-- `settlementDeterministicId`: a character other than `[a-zA-Z0-9_]` becomes one underscore
    for each of its UTF-16 code units. -/
def settlementDeterministicId (contractId : String) (year month : Nat) : String :=
  let safe := contractId.toList.flatMap fun c =>
    if c.isAlphanum || c = '_' then [c]
    else if c.toNat < 0x10000 then ['_'] else ['_', '_']
  "stl_" ++ String.ofList safe ++ "_" ++ toString year ++ "_" ++ toString month

/-! ## Evidence files -/

/-- `EvidenceFile["category"]`. -/
inductive EvidenceCategory
  | contractPdf
  | utilityBill
  | photo
  | receipt
  | other
  deriving DecidableEq, Repr

def EvidenceCategory.text : EvidenceCategory → String
  | contractPdf => "contract_pdf"
  | utilityBill => "utility_bill"
  | photo => "photo"
  | receipt => "receipt"
  | other => "other"

/-- `EvidenceRetentionClass`. -/
inductive RetentionClass
  | standard
  | regulated
  | legalHold
  deriving DecidableEq, Repr

def RetentionClass.text : RetentionClass → String
  | standard => "standard"
  | regulated => "regulated"
  | legalHold => "legal_hold"

/-- `EvidenceFile["storageProvider"]`. -/
inductive StorageProvider
  | mock
  | pinata
  deriving DecidableEq, Repr

def StorageProvider.text : StorageProvider → String
  | mock => "mock"
  | pinata => "pinata"

/-- `EvidenceFile`; `encrypted` says that `encryptionScheme` is `aes-256-gcm-v1`. The two
    deadlines are kept as they were given. -/
structure EvidenceFile where
  id : String
  contractId : String
  disputeId : Option String
  uploaderId : String
  category : EvidenceCategory
  cid : String
  sha256 : String
  mimeType : String
  sizeBytes : Nat
  version : Nat
  isEncrypted : Bool
  encrypted : Bool
  retainUntil : Option String
  retentionClass : RetentionClass
  jurisdiction : Option String
  legalHoldUntil : Option String
  storageProvider : StorageProvider
  createdAt : Time

/-- The JSON form without `localContentHashSeed`. -/
def EvidenceFile.json (e : EvidenceFile) : Value :=
  .obj ([("id", .str e.id), ("contractId", .str e.contractId)]
    ++ Value.opt "disputeId" (e.disputeId.map .str)
    ++ [("uploaderId", .str e.uploaderId), ("category", .str e.category.text),
      ("cid", .str e.cid), ("sha256", .str e.sha256), ("mimeType", .str e.mimeType),
      ("sizeBytes", .num e.sizeBytes), ("version", .num e.version),
      ("isEncrypted", .bool e.isEncrypted)]
    ++ (if e.encrypted then [("encryptionScheme", .str "aes-256-gcm-v1")] else [])
    ++ Value.opt "retainUntil" (e.retainUntil.map .str)
    ++ [("retentionClass", .str e.retentionClass.text)]
    ++ Value.opt "jurisdiction" (e.jurisdiction.map .str)
    ++ Value.opt "legalHoldUntil" (e.legalHoldUntil.map .str)
    ++ [("storageProvider", .str e.storageProvider.text), ("createdAt", .time e.createdAt)])

/-- The bytes that are uploaded: the file, or its encryption under a data key. -/
inductive UploadPayload
  | plain (content : List UInt8)
  | encrypted (content key : List UInt8)

/-- `UploadToIpfsInput`. -/
structure UploadToIpfsInput where
  buffer : UploadPayload
  fileName : String
  mimeType : String
  sha256 : String

/-- `UploadToIpfsResult`. -/
structure UploadToIpfsResult where
  cid : String := ""
  provider : StorageProvider := .mock

/-! ## Verifiers and export jobs -/

/-- `DisputeVerifierVoteRecord`. -/
structure VerifierVote where
  id : String
  disputeId : String
  verifierId : String
  recommendation : DisputeDecisionChoice
  createdAt : Time

/-- `DisputeVerifierRegistryEntry`. -/
structure RegistryEntry where
  id : String
  verifierId : String
  displayLabel : Option String
  active : Bool
  createdAt : Time

def RegistryEntry.json (e : RegistryEntry) : Value :=
  .obj ([("id", .str e.id), ("verifierId", .str e.verifierId)]
    ++ Value.opt "displayLabel" (e.displayLabel.map .str)
    ++ [("active", .bool e.active), ("createdAt", .time e.createdAt)])

/-- `AuditFilter`; the bounds are compared with the stored timestamps as texts. -/
structure AuditFilter where
  entityType : Option String
  entityId : Option String
  fromIso : Option String
  toIso : Option String

def AuditFilter.json (f : AuditFilter) : Value :=
  .obj (Value.opt "entityType" (f.entityType.map .str)
    ++ Value.opt "entityId" (f.entityId.map .str)
    ++ Value.opt "from" (f.fromIso.map .str) ++ Value.opt "to" (f.toIso.map .str))

/-- `ExportJobStatus`. -/
inductive ExportJobStatus
  | pending
  | running
  | completed
  | failed
  deriving DecidableEq, Repr

def ExportJobStatus.text : ExportJobStatus → String
  | pending => "pending"
  | running => "running"
  | completed => "completed"
  | failed => "failed"

/-- `ExportJobRecord`. Its `kind` has the one value `audits_ndjson`. -/
structure ExportJob where
  id : String
  status : ExportJobStatus
  filter : AuditFilter
  maxExport : Nat
  resultNdjson : Option String
  error : Option String
  createdAt : Time
  updatedAt : Time

/-! ## Filters and pages -/

/-- `ListParams`. -/
structure ListParams where
  limit : Nat
  offset : Nat

/-- `Paginated<T>`. -/
structure Page (α : Type) where
  items : List α
  total : Nat
  limit : Nat
  offset : Nat

/-- `rows.slice(offset, offset + limit)` with the number of all rows. -/
def Page.of {α : Type} (rows : List α) (p : ListParams) : Page α :=
  ⟨(rows.drop p.offset).take p.limit, rows.length, p.limit, p.offset⟩

/-- `res.json(page)`. -/
def Page.json {α : Type} (item : α → Value) (page : Page α) : Response :=
  .ok [("items", .arr (page.items.map item)), ("total", .num page.total),
    ("limit", .num page.limit), ("offset", .num page.offset)]

/-- `ContractListFilter`. -/
structure ContractListFilter where
  status : Option ContractStatus
  tenantId : Option String
  landlordId : Option String
  updatedFrom : Option String
  updatedTo : Option String

/-- `DisputeListFilter`. -/
structure DisputeListFilter where
  contractId : Option String
  status : Option DisputeStatus
  updatedFrom : Option String
  updatedTo : Option String

/-- `XrplTxListFilter`. -/
structure XrplTxListFilter where
  account : Option String
  trackingStatus : Option String
  validated : Option Bool
  network : Option Network

/-- `SettlementListFilter`. -/
structure SettlementListFilter where
  contractId : Option String
  status : Option SettlementStatus
  periodYear : Option Nat
  periodMonth : Option Nat

/-- `EventFilter`. -/
structure EventFilter where
  entityType : Option String
  entityId : Option String
  eventType : Option String

/-- `ReportSummaryParams`. -/
structure ReportSummaryParams where
  fromIso : Option String
  toIso : Option String
  tenantId : Option String
  landlordId : Option String

/-- `AccountEscrowsPage`: the escrow objects of an account as the XRPL service returns them. -/
structure AccountEscrowsPage where
  escrows : List Value := []
  ledgerHash : Option String := none
  ledgerIndex : Option Int := none
  nextMarker : Option Value := none

/-! ## Requests and settings -/

/-- A value of `req.query`: a parameter given once, or several times. -/
inductive QueryValue
  | text (s : String)
  | list (ss : List String)
  deriving DecidableEq, Repr

/-- `req.query`. -/
abbrev Query : Type := String → Option QueryValue

/-- The functions of the language runtime and of its libraries that the reads call. -/
structure Runtime where
  /-- `Number(value)`, when it is an integer. -/
  number : QueryValue → Option Int
  /-- `Date.parse(value)` is not `NaN`. -/
  dateParses : String → Bool
  /-- `a.localeCompare(b) <= 0`. -/
  localeLe : String → String → Bool
  /-- `JSON.parse`; `none` when it throws. -/
  jsonParse : String → Option Value
  /-- `Buffer.from(text, "utf8").toString("base64url")` and its inverse. -/
  base64url : String → String
  fromBase64url : String → String
  /-- HMAC-SHA256 of a text in base64url. -/
  hmac : (secret text : String) → String
  encodeURIComponent : String → String
  /-- The hexadecimal SHA-256 of bytes. -/
  sha256 : List UInt8 → String
  /-- `decryptEvidenceBuffer`, with the message of its error. -/
  decryptEvidenceBuffer : (content key : List UInt8) → Except String (List UInt8)
  /-- The UTF-8 bytes of a text. -/
  utf8 : String → List UInt8

/-- `config.xrpl.topologyProfile`. -/
inductive TopologyProfile
  | publicHub
  | dedicated
  | clio
  deriving DecidableEq, Repr

def TopologyProfile.text : TopologyProfile → String
  | publicHub => "public_hub"
  | dedicated => "dedicated"
  | clio => "clio"

/-- The settings of `config.ts` that the guards and the reads use. -/
structure Config where
  ops : Ops.Config
  runtime : Runtime
  v1BearerToken : String
  mtlsClientCertSubjectHeader : String
  operatorConsoleScopesEnabled : Bool
  oidcIssuerUrl : String
  verifierQuorumK : Nat
  artifactSigningSecret : String
  artifactUrlTtlSec : Nat
  topologyProfile : TopologyProfile
  wssUrl : String
  drRunbookUrl : String

end Bluesafe.Api
