import Bluesafe.Api.Reads
import Bluesafe.Ops.System

/-!
# Evidence: uploads, metadata and the retention run

The handlers of `index.ts` that write evidence rows: `POST /v1/evidences`,
`PATCH /v1/operator/evidences/:evidenceId/metadata` and
`POST /v1/operator/evidences/retention-run`, with the mime check of
`services/evidence-mime.ts` and the scope guard of `auth.ts`. A request whose body its schema
rejects makes no call and is left out. `POST /v1/evidences/verify`, which reads a row by its
content identifier, is here too.

`EvidenceRequest` adds them to the requests of `Bluesafe.Ops`; `evidenceStep` handles one
request after the other.
-/

namespace Bluesafe.Api

open Bluesafe.Ops (Time Json JsonObject Contract BluesafeAuth BluesafeRole requireRoles allRoles
  canAccessContract blockAuditorWriteOperations actorId writeAudit emitEvent trim truthy sliceTo)
open Bluesafe.Notify (isoString utf16Units toLowerCase)

/-- `split` at a character. -/
def splitAt (sep : Char) (s : String) : List String := (s.toList.splitOn sep).map String.ofList

/-! ## The scopes of the operator console -/

/-- `OperatorConsoleScope`. -/
inductive OperatorConsoleScope
  | all
  | exports
  | purge
  | registry
  | sla
  | outbox
  | evidence
  | dispatch
  | settlements
  | disputes
  deriving DecidableEq, Repr

def OperatorConsoleScope.text : OperatorConsoleScope → String
  | all => "all"
  | exports => "export"
  | purge => "purge"
  | registry => "registry"
  | sla => "sla"
  | outbox => "outbox"
  | evidence => "evidence"
  | dispatch => "dispatch"
  | settlements => "settlements"
  | disputes => "disputes"

/-- `KNOWN`. -/
def knownScopes : List OperatorConsoleScope :=
  [.all, .exports, .purge, .registry, .sla, .outbox, .evidence, .dispatch, .settlements, .disputes]

/-- Who makes a request: `req.bluesafeAuth` and the header `x-bluesafe-operator-scopes`. -/
structure Caller where
  auth : Option BluesafeAuth
  operatorScopes : Option String

/-- `parseOperatorConsoleScopes`; `none` stands for every scope. -/
def parseOperatorConsoleScopes (header : Option String) : Option (List OperatorConsoleScope) :=
  (truthy (header.map trim)).map fun raw =>
    (splitAt ',' raw).filterMap fun part =>
      knownScopes.find? fun scope => scope.text = toLowerCase (trim part)

/-- `operatorHasConsoleScope`. -/
def operatorHasConsoleScope (granted : Option (List OperatorConsoleScope))
    (required : OperatorConsoleScope) : Bool :=
  granted.all fun scopes => scopes.contains .all || scopes.contains required

/-- `requireOperatorScopes`: the rejection, or `none` to continue. -/
def requireOperatorScopes (config : Config) (required : OperatorConsoleScope) (caller : Caller) :
    Option Response :=
  if !config.ops.authEnabled || !config.operatorConsoleScopesEnabled then none
  else if caller.auth.map BluesafeAuth.role ≠ some .operator then none
  else if operatorHasConsoleScope (parseOperatorConsoleScopes caller.operatorScopes) required then none
  else some (forbidden ("Operator console scope '" ++ required.text ++
    "' required (send X-Bluesafe-Operator-Scopes including '" ++ required.text ++ "' or 'all')"))

/-- A writing route: the guard of the auditors, then that of the roles. -/
def writeRoute (config : Config) (allowed : List BluesafeRole) (caller : Caller)
    (handler : ApiM Response) : ApiM Response :=
  match blockAuditorWriteOperations config.ops caller.auth with
  | some reply => return .ofReply reply
  | none => route config allowed caller.auth handler

/-- A route of the operator console. -/
def operatorRoute (config : Config) (scope : OperatorConsoleScope) (caller : Caller)
    (handler : ApiM Response) : ApiM Response :=
  writeRoute config [.operator] caller <|
    match requireOperatorScopes config scope caller with
    | some reply => return reply
    | none => handler

/-! ## Uploads -/

/-- The settings of `config.evidenceVault` that uploads use; `dekSource` is the `source` of
    the data key. -/
structure EvidenceVault where
  maxRetentionDays : Nat
  kmsKeyRef : String
  dekSource : String

/-- `req.file`. -/
structure UploadedFile where
  buffer : List UInt8
  originalname : String
  mimetype : String
  size : Nat

/-- `evidenceUploadFormSchema`. -/
structure EvidenceUploadForm where
  contractId : String
  disputeId : Option String
  category : EvidenceCategory
  uploaderId : Option String
  retentionDays : Option Nat
  contractId_min : contractId ≠ ""
  disputeId_min : ∀ d, disputeId = some d → d ≠ ""
  retentionDays_positive : ∀ n, retentionDays = some n → 0 < n

/-- `byCategory`. -/
def allowedMimeTypes : EvidenceCategory → List String
  | .contractPdf => ["application/pdf"]
  | .utilityBill => ["application/pdf", "image/jpeg", "image/png"]
  | .photo => ["image/jpeg", "image/png", "image/webp"]
  | .receipt => ["application/pdf", "image/jpeg", "image/png"]
  | .other => ["application/pdf", "image/jpeg", "image/png", "image/webp", "text/plain",
      "text/markdown", "application/octet-stream"]

/-- `file.mimetype || "application/octet-stream"`. -/
def UploadedFile.mimeType (file : UploadedFile) : String :=
  if file.mimetype = "" then "application/octet-stream" else file.mimetype

/-- `assertMimeAllowedForEvidenceCategory`: its error message, or `none`. -/
def assertMimeAllowedForEvidenceCategory (mimeType : String) (category : EvidenceCategory) :
    Option String :=
  let normalized := toLowerCase (trim ((splitAt ';' mimeType).headD ""))
  if (allowedMimeTypes category).contains normalized then none
  else some ("MIME type \"" ++ normalized ++ "\" is not allowed for evidence category \"" ++
    category.text ++ "\"")

/-- `generateCidFromHash`. -/
def generateCidFromHash (hashValue : String) : String := "bafy" ++ sliceTo 32 hashValue

/-- A text field of an audit entry, `null` when it is absent. -/
def textOrNull (name : String) : Option String → String × Json
  | some s => (name, .str s)
  | none => (name, .null)

/-- The audit and the event of an upload. -/
def announceUpload (vault : EvidenceVault) (e : EvidenceFile) : ApiM Unit := do
  let disputeField := (e.disputeId.map fun d => ("disputeId", Json.str d)).toList
  ofOps (writeAudit "evidence" e.id "evidence.uploaded" e.uploaderId none
    (some ([("cid", .str e.cid), ("version", .num e.version), ("contractId", .str e.contractId)]
      ++ disputeField
      ++ [("category", .str e.category.text), ("provider", .str e.storageProvider.text),
        textOrNull "encryptionScheme" (if e.encrypted then some "aes-256-gcm-v1" else none),
        textOrNull "retainUntil" e.retainUntil]
      ++ (if vault.kmsKeyRef = "" then [] else [("kmsKeyRef", .str vault.kmsKeyRef)])
      ++ (if e.encrypted then [("dekSource", .str vault.dekSource)] else []))) none)
  ofOps (emitEvent "evidence.uploaded" "evidence" e.id
    ([("contractId", .str e.contractId)] ++ disputeField
      ++ [("cid", .str e.cid), ("version", .num e.version)]))

/-- The reply to an upload. -/
def uploadReply (e : EvidenceFile) : Response :=
  .json 201 (.obj ([("evidenceId", .str e.id), ("cid", .str e.cid), ("sha256", .str e.sha256),
      ("version", .num e.version), ("createdAt", .time e.createdAt)]
    ++ (if e.encrypted then [("encryptionScheme", .str "aes-256-gcm-v1")] else [])
    ++ Value.opt "retainUntil" (e.retainUntil.map .str)
    ++ [("retentionClass", .str e.retentionClass.text)]))

/-- The end of the retention that an upload asks for. -/
def uploadRetention (vault : EvidenceVault) : Option Nat → ApiM (Option String)
  | none => return none
  | some days => do
    let now ← ofOps Ops.dateNow
    return some (isoString (now + min days vault.maxRetentionDays * 86400000))

/-- Store the row of a file that was uploaded. -/
def storeEvidence (vault : EvidenceVault) (file : UploadedFile) (form : EvidenceUploadForm)
    (hash : String) (encrypted : Bool) (uploaded : UploadToIpfsResult) : ApiM Response := do
  let evidenceId ← ofOps (Ops.randomId "evd")
  let existing ← invoke (.countEvidenceVersions form.contractId form.disputeId form.category)
  let createdAt ← ofOps Ops.nowIso
  let retainUntil ← uploadRetention vault form.retentionDays
  let evidence : EvidenceFile := {
    id := evidenceId
    contractId := form.contractId
    disputeId := form.disputeId
    uploaderId := (truthy (form.uploaderId.map trim)).getD "operator_local"
    category := form.category
    cid := if uploaded.cid = "" then generateCidFromHash hash else uploaded.cid
    sha256 := hash
    mimeType := file.mimeType
    sizeBytes := file.size
    version := existing + 1
    isEncrypted := encrypted
    encrypted := encrypted
    retainUntil := retainUntil
    retentionClass := .standard
    jurisdiction := none
    legalHoldUntil := none
    storageProvider := uploaded.provider
    createdAt := createdAt }
  invoke (.saveEvidence evidence)
  announceUpload vault evidence
  return uploadReply evidence

/-- `ipfsService.upload`, with the reply when it fails. -/
def uploadFile (input : UploadToIpfsInput) : ApiM (Except Response UploadToIpfsResult) :=
  tryCatch (.ok <$> invoke (.ipfsUpload input)) fun e =>
    return .error (.error 502 "B2_IPFS_UPLOAD_FAILED" e)

/-- Encrypt and upload a file, then store its row. -/
def uploadEvidence (config : Config) (vault : EvidenceVault) (file : UploadedFile)
    (form : EvidenceUploadForm) : ApiM Response := do
  let hash := config.runtime.sha256 file.buffer
  match ← resolveDataKey with
  | .error reply => return reply
  | .ok key =>
    let payload := match key with
      | some key => UploadPayload.encrypted file.buffer key
      | none => .plain file.buffer
    let fileName := if file.originalname = "" then "evidence.bin" else file.originalname
    match ← uploadFile ⟨payload, fileName, file.mimeType, hash⟩ with
    | .error reply => return reply
    | .ok result => storeEvidence vault file form hash key.isSome result

/-- The dispute of an upload, when one is named, is a dispute of its contract. -/
def disputeOfContract (contractId : String) : Option String → ApiM Bool
  | none => return true
  | some disputeId => do
    match ← ofOps (Ops.getDispute disputeId) with
    | none => return false
    | some dispute => return decide (dispute.contractId = contractId)

/-- `POST /v1/evidences`. -/
def postEvidence (config : Config) (vault : EvidenceVault) (caller : Caller)
    (file : Option UploadedFile) (form : EvidenceUploadForm) : ApiM Response :=
  writeRoute config allRoles caller <|
  match file with
  | none => return validationReply "file is required"
  | some file =>
    if form.retentionDays.any fun n => decide (vault.maxRetentionDays < n) then
      return validationReply ("retentionDays must be <= " ++ toString vault.maxRetentionDays)
    else do
      match ← ofOps (Ops.getContract form.contractId) with
      | none => return notFound "Contract not found"
      | some contract =>
        if canAccessContract config.ops caller.auth contract then
          if ← disputeOfContract form.contractId form.disputeId then
            match assertMimeAllowedForEvidenceCategory file.mimeType form.category with
            | some message => return .error 400 "B2_EVIDENCE_MIME_NOT_ALLOWED" message
            | none => uploadEvidence config vault file form
          else return validationReply "disputeId must refer to a dispute on the given contractId"
        else return forbidden "Not allowed to upload evidence for this contract"

/-! ## Verification -/

/-- `verifyEvidenceSchema`. -/
def verifyEvidenceSchema (cid expectedSha256 : String) : Parsed (String × String) :=
  Prod.mk <$> minText "cid" 8 cid <*> minText "expectedSha256" 32 expectedSha256

/-- Compare the digest of the row with a content identifier. -/
def verifyByCid (config : Config) (caller : Caller) (cid expectedSha256 : String) :
    ApiM Response := do
  match ← invoke (.findEvidenceByCid cid) with
  | none => return notFound "Evidence by cid not found"
  | some evidence =>
    if ← contractAccessible config caller.auth evidence.contractId then
      let verified := decide (evidence.sha256 = expectedSha256)
      ofOps (writeAudit "evidence" evidence.id "evidence.verified" "system" none none
        (some [("verified", .bool verified)]))
      return .ok [("verified", .bool verified), ("cid", .str cid),
        ("actualSha256", .str evidence.sha256)]
    else return forbidden "Not allowed to verify this evidence"

/-- `POST /v1/evidences/verify`. -/
def verifyEvidence (config : Config) (caller : Caller) (cid expectedSha256 : String) :
    ApiM Response :=
  writeRoute config allRoles caller <|
  withRequest (verifyEvidenceSchema cid expectedSha256).orReply fun (cid, expectedSha256) =>
    verifyByCid config caller cid expectedSha256

/-! ## Metadata -/

/-- `evidenceMetadataPatchSchema`: a field is absent, `null` or given. -/
structure MetadataPatch where
  retentionClass : Option RetentionClass
  jurisdiction : Option (Option String)
  legalHoldUntil : Option (Option String)
  retainUntil : Option (Option String)
  jurisdiction_size : ∀ t, jurisdiction = some (some t) →
    1 ≤ (utf16Units t).length ∧ (utf16Units t).length ≤ 128
  legalHoldUntil_min : ∀ t, legalHoldUntil = some (some t) → 8 ≤ (utf16Units t).length
  retainUntil_min : ∀ t, retainUntil = some (some t) → 8 ≤ (utf16Units t).length

/-- A deadline after a patch. -/
def patchDeadline (rt : Runtime) (name : String) (current : Option String) :
    Option (Option String) → Except Response (Option String)
  | none => .ok current
  | some none => .ok none
  | some (some t) => parseOptionalIso rt name (some t)

/-- The row after a patch, or the reply. -/
def MetadataPatch.patch (rt : Runtime) (body : MetadataPatch) (e : EvidenceFile) :
    Except Response EvidenceFile :=
  match patchDeadline rt "legalHoldUntil" e.legalHoldUntil body.legalHoldUntil with
  | .error reply => .error reply
  | .ok legalHoldUntil =>
    match patchDeadline rt "retainUntil" e.retainUntil body.retainUntil with
    | .error reply => .error reply
    | .ok retainUntil => .ok { e with
        retentionClass := body.retentionClass.getD e.retentionClass
        jurisdiction := body.jurisdiction.getD e.jurisdiction
        legalHoldUntil := legalHoldUntil
        retainUntil := retainUntil }

/-- The four fields in the audit of a patch. -/
def metadataFields (e : EvidenceFile) : JsonObject :=
  [("retentionClass", .str e.retentionClass.text), textOrNull "jurisdiction" e.jurisdiction,
    textOrNull "legalHoldUntil" e.legalHoldUntil, textOrNull "retainUntil" e.retainUntil]

/-- Store a patched row. -/
def storeMetadata (caller : Caller) (evidenceId : String) (evidence next : EvidenceFile) :
    ApiM Response := do
  invoke (.saveEvidence next)
  ofOps (writeAudit "evidence" evidenceId "evidence.metadata_updated" (actorId caller.auth "operator")
    (some (metadataFields evidence)) (some (metadataFields next)) none)
  ofOps (emitEvent "evidence.metadata_updated" "evidence" evidenceId
    [("contractId", .str next.contractId)])
  return .json 200 next.json

/-- `PATCH /v1/operator/evidences/:evidenceId/metadata`. -/
def patchEvidenceMetadata (config : Config) (caller : Caller) (evidenceId : String)
    (body : MetadataPatch) : ApiM Response :=
  operatorRoute config .evidence caller <|
  withEvidence config caller.auth evidenceId "Not allowed to update this evidence" fun evidence =>
    match body.patch config.runtime evidence with
    | .error reply => return reply
    | .ok next => storeMetadata caller evidenceId evidence next

/-! ## The retention run -/

/-- One iteration of the retention run; a failing unpin is only logged. -/
def purgeEvidence (caller : Caller) (ev : EvidenceFile) : ApiM PUnit := do
  tryCatch (invoke (.unpinIfPinata ev.cid ev.storageProvider)) fun _ => return ()
  invoke (.deleteEvidence ev.id)
  ofOps (writeAudit "evidence" ev.id "evidence.retention_purged" (actorId caller.auth "operator")
    none none (some ((ev.retainUntil.map fun t => ("retainUntil", Json.str t)).toList
      ++ [("contractId", .str ev.contractId), ("retentionClass", .str ev.retentionClass.text),
        textOrNull "legalHoldUntil" ev.legalHoldUntil])))
  ofOps (emitEvent "evidence.retention_purged" "evidence" ev.id
    [("contractId", .str ev.contractId)])

/-- `POST /v1/operator/evidences/retention-run`. -/
def retentionRun (config : Config) (caller : Caller) : ApiM Response :=
  operatorRoute config .purge caller do
    let now ← ofOps Ops.nowIso
    let past ← invoke (.listEvidencesPastRetention now)
    past.forM (purgeEvidence caller)
    return .ok [("scanned", .num past.length), ("purgedCount", .num past.length),
      ("purgedIds", .arr (past.map fun e => .str e.id))]

/-! ## The system -/

/-- The entries that write evidence, and those of `Bluesafe.Ops`. -/
inductive EvidenceRequest
  | upload (caller : Caller) (file : Option UploadedFile) (form : EvidenceUploadForm)
  | patchMetadata (caller : Caller) (evidenceId : String) (body : MetadataPatch)
  | retentionRun (caller : Caller)
  | other (req : Ops.Request)

/-- The program of each entry; a worker sends no reply. -/
def handleEvidence (config : Config) (vault : EvidenceVault) :
    EvidenceRequest → ApiM (Option Response)
  | .upload caller file form => some <$> postEvidence config vault caller file form
  | .patchMetadata caller evidenceId body =>
    some <$> patchEvidenceMetadata config caller evidenceId body
  | .retentionRun caller => some <$> retentionRun config caller
  | .other req => Option.map Response.ofReply <$> ofOps (Ops.handle config.ops req)

/-- One request after the other, any of whose calls may fail. -/
def evidenceStep (config : Config) (vault : EvidenceVault) :
    Store → EvidenceRequest × List Choice → Option Store :=
  Async.seqStep (world config.runtime) (handleEvidence config vault)

/-- The calls of one request, newest first. -/
def evidenceLog (config : Config) (vault : EvidenceVault)
    (m : Transition.Move Store (EvidenceRequest × List Choice)) : ApiLog :=
  Async.seqLog (world config.runtime) (handleEvidence config vault) m.before m.label

/-- A request in progress. -/
abbrev EvidenceThread : Type := Async.Thread calls String EvidenceRequest (Option Response)

/-- The store and the requests in progress. -/
abbrev EvidencePool : Type := Async.Pool calls String Store EvidenceRequest (Option Response)

/-- The requests of the server, interleaved at their calls. -/
def evidencePoolStep (config : Config) (vault : EvidenceVault) :
    EvidencePool → Async.Act EvidenceRequest Choice → Option EvidencePool :=
  Async.poolStep (world config.runtime) (handleEvidence config vault)

/-! ## Concrete runs -/

/-- A vault that keeps a file for ten years at most. -/
def sampleVault : EvidenceVault := ⟨3650, "", "env"⟩

/-- A deployment without authentication. -/
def openConfig (rt : Runtime) : Config where
  ops := Ops.sampleConfig
  runtime := rt
  v1BearerToken := ""
  mtlsClientCertSubjectHeader := ""
  operatorConsoleScopesEnabled := false
  oidcIssuerUrl := ""
  verifierQuorumK := 2
  artifactSigningSecret := ""
  artifactUrlTtlSec := 300
  topologyProfile := .publicHub
  wssUrl := "wss://localhost"
  drRunbookUrl := ""

/-- A caller of such a deployment. -/
def openCaller : Caller := ⟨none, none⟩

/-- A photo for the contract `ctr_1`, kept for a day. -/
def sampleUpload : EvidenceRequest :=
  .upload openCaller (some ⟨[1, 2, 3], "photo.png", "image/png", 3⟩)
    { contractId := "ctr_1"
      disputeId := none
      category := .photo
      uploaderId := none
      retentionDays := some 1
      contractId_min := by decide
      disputeId_min := by intro d h; cases h
      retentionDays_positive := by intro n h; cases h; decide }

/-- The environment of `Bluesafe.Ops`, with an upload that always succeeds. -/
def sampleEvidenceOracle (n : String) (now : Time) : calls.Op → Choice
  | .inl op => { toChoice := Ops.sampleOracle n now none op }
  | .inr _ => { uploaded := { cid := "bafyphoto", provider := .pinata } }

/-- Requests handled one after the other, each with its environment. -/
def evidenceLabels (config : Config) (s : Store) (reqs : List (EvidenceRequest × (calls.Op → Choice))) :
    List (EvidenceRequest × List Choice) :=
  Async.oracleLabels (world config.runtime) (handleEvidence config sampleVault) reqs s

/-- A store with one active contract. -/
def contractStore : Store :=
  { Store.empty with
    ops := { Ops.Store.empty with
      contracts := Table.empty.set
        ⟨"ctr_1", "tenant_1", "landlord_1", .active, none, none, none, none, none, 0, 0⟩ } }

end Bluesafe.Api
