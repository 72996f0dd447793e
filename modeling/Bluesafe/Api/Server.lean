import Bluesafe.Api.Reads
import Bluesafe.Ops.System

/-!
# The middleware chain and the routes of `/v1`

`index.ts` registers three guards for `/v1` before its routes: the transport guard, the role
headers and the block on writes of auditors (`auth.ts`). A request is answered by the first
guard that rejects it, or by the handler of its route. `OPTIONS` is answered before them.

The router selects the route from the path: a `Route` is its choice, with the decoded
parameters. `HEAD` is answered by the `GET` handlers, as the router does where no `HEAD`
handler is registered. The handlers of the writing methods are a parameter here (`other`);
those of them that the other parts of this development need are modelled there.

A promise that a handler rejects reaches the error handler at the end of `index.ts`.
-/

namespace Bluesafe.Api

open Bluesafe.Ops (BluesafeAuth BluesafeRole trim truthy truthy_eq_some requireRoles allRoles)
open Bluesafe.Notify (toLowerCase)

/-! ## Requests -/

/-- `req.method`. -/
inductive Method
  | get
  | head
  | options
  | post
  | put
  | patch
  | delete
  | other (name : String)
  deriving DecidableEq, Repr

/-- The `GET` route that the path matches; `unmatched` when it matches none of them. -/
inductive Route
  | contracts
  | contract (contractId : String)
  | evidence (evidenceId : String)
  | evidenceContent (evidenceId : String)
  | retentionDue
  | disputes
  | dispute (disputeId : String)
  | reviewState (disputeId : String)
  | verifierRegistry
  | xrplTransactions
  | xrplTransaction (txHash : String)
  | accountEscrows (account : String)
  | outbox
  | notification (notificationId : String)
  | events
  | settlements
  | settlement (settlementId : String)
  | statsSummary
  | executionPolicy
  | xrplOperations
  | authProviders
  | reportsSummary
  | auditsNdjson
  | auditsCsv
  | exportJob (jobId : String)
  | artifactUrl (jobId : String)
  | audits
  | unmatched (path : String)
  deriving DecidableEq, Repr

/-- The header of a lower-case name. -/
abbrev Headers : Type := String → Option String

/-- A request whose body `express.json` accepted. -/
structure Request where
  method : Method
  route : Route
  headers : Headers
  query : Query

/-! ## Guards -/

def unauthorized (message : String) : Response := .error 401 "B2_UNAUTHORIZED" message

/-- `v1ApiTransportGuard`: the rejection, or `none` to continue. -/
def v1ApiTransportGuard (config : Config) (headers : Headers) : Option Response :=
  let bearer := trim config.v1BearerToken
  let mtlsHeader := trim config.mtlsClientCertSubjectHeader
  if bearer = "" ∧ mtlsHeader = "" then none
  else
    let bearerOk := bearer ≠ "" ∧ headers "authorization" = some ("Bearer " ++ bearer)
    let mtlsOk := mtlsHeader ≠ "" ∧
      (truthy ((headers (toLowerCase mtlsHeader)).map trim)).isSome = true
    if bearerOk ∨ mtlsOk then none
    else some (unauthorized "Bearer API token or mTLS proxy subject header required for /v1")

/-- `parseRole`. -/
def parseRole (raw : Option String) : Option BluesafeRole :=
  (truthy raw).bind fun s =>
    let r := trim (toLowerCase s)
    Ops.allRoles.find? fun role => role.text = r

/-- `bluesafeAuthMiddleware`: the rejection, or `req.bluesafeAuth`. -/
def bluesafeAuthMiddleware (config : Config) (headers : Headers) :
    Except Response (Option BluesafeAuth) :=
  if !config.ops.authEnabled then .ok none
  else
    match parseRole (headers "x-bluesafe-role") with
    | none => .error (unauthorized
        "Missing or invalid X-Bluesafe-Role (tenant|landlord|operator|verifier|auditor)")
    | some role =>
      let tenantId := truthy ((headers "x-bluesafe-tenant-id").map trim)
      let landlordId := truthy ((headers "x-bluesafe-landlord-id").map trim)
      if role = .tenant ∧ tenantId = none then
        .error (unauthorized "X-Bluesafe-Tenant-Id is required when role is tenant")
      else if role = .landlord ∧ landlordId = none then
        .error (unauthorized "X-Bluesafe-Landlord-Id is required when role is landlord")
      else .ok (some ⟨role, tenantId, landlordId⟩)

/-- The first two guards. -/
def authenticate (config : Config) (headers : Headers) : Except Response (Option BluesafeAuth) :=
  match v1ApiTransportGuard config headers with
  | some reply => .error reply
  | none => bluesafeAuthMiddleware config headers

/-- `GET` and `HEAD`. -/
def Method.isRead : Method → Bool
  | .get => true
  | .head => true
  | _ => false

/-! ## Routes -/

/-- The `GET` handler of a route. -/
def read (config : Config) (auth : Option BluesafeAuth) (q : Query) : Route → ApiM Response
  | .contracts => listContracts config auth q
  | .contract contractId => readContract config auth contractId
  | .evidence evidenceId => readEvidence config auth evidenceId
  | .evidenceContent evidenceId => readEvidenceContent config auth evidenceId
  | .retentionDue => retentionDue config auth
  | .disputes => listDisputes config auth q
  | .dispute disputeId => readDispute config auth disputeId
  | .reviewState disputeId => reviewState config auth disputeId
  | .verifierRegistry => verifierRegistry config auth
  | .xrplTransactions => listXrplTransactions config auth q
  | .xrplTransaction txHash => readXrplTransaction config auth txHash q
  | .accountEscrows account => accountEscrows config auth account q
  | .outbox => listOutbox config auth q
  | .notification notificationId => readNotification config auth notificationId
  | .events => listEvents config auth q
  | .settlements => listSettlements config auth q
  | .settlement settlementId => readSettlement config auth settlementId
  | .statsSummary => statsSummary config auth
  | .executionPolicy => executionPolicy config auth
  | .xrplOperations => xrplOperations config auth
  | .authProviders => authProviders config auth
  | .reportsSummary => reportsSummary config auth q
  | .auditsNdjson => auditsNdjson config auth q
  | .auditsCsv => auditsCsv config auth q
  | .exportJob jobId => readExportJob config auth jobId
  | .artifactUrl jobId => artifactUrl config auth jobId
  | .audits => listAudits config auth q
  | .unmatched path => return ⟨404, .text "text/html; charset=utf-8" "" ["Cannot GET ", path]⟩

/-- What follows the first two guards: reads are routed, writes of auditors are blocked. -/
def dispatch (config : Config) (other : Request → Option BluesafeAuth → ApiM Response)
    (req : Request) (auth : Option BluesafeAuth) : ApiM Response :=
  if req.method.isRead then read config auth req.query req.route
  else
    match Ops.blockAuditorWriteOperations config.ops auth with
    | some reply => return .ofReply reply
    | none => other req auth

/-- A request to `/v1`. -/
def handle (config : Config) (other : Request → Option BluesafeAuth → ApiM Response)
    (req : Request) : ApiM Response :=
  if req.method = .options then return ⟨204, .text "" "" []⟩
  else
    match authenticate config req.headers with
    | .error reply => return reply
    | .ok auth => dispatch config other req auth

/-- The reply to a request: what its handler returns, or the reply of the error handler. -/
def answer : Except String Response → Response
  | .ok reply => reply
  | .error message => .error 500 "B2_INTERNAL_ERROR" message

/-- A request handled to its end; `oracle` holds the choices of the environment. -/
def run (config : Config) (other : Request → Option BluesafeAuth → ApiM Response)
    (oracle : Nat → Choice) (s : Store) (req : Request) :
    Async.Outcome calls String Store Response :=
  Async.runWith (world config.runtime) oracle (handle config other req) [] s

/-- The reply to a request. -/
def respond (config : Config) (other : Request → Option BluesafeAuth → ApiM Response)
    (oracle : Nat → Choice) (s : Store) (req : Request) : Response :=
  answer (run config other oracle s req).result

/-! ## From a request to its handler -/

section Guards

variable {config : Config} {headers : Headers} {a : BluesafeAuth}

/-- A caller that passed the guards: authentication is on, and a party has an identifier. -/
theorem authenticate_eq_some (h : authenticate config headers = .ok (some a)) :
    config.ops.authEnabled = true ∧
      (a.role = .tenant → ∃ t, a.tenantId = some t ∧ t ≠ "") ∧
      (a.role = .landlord → ∃ t, a.landlordId = some t ∧ t ≠ "") := by
  unfold authenticate at h
  split at h
  · cases h
  · unfold bluesafeAuthMiddleware at h
    split at h
    · cases h
    · rename_i henabled
      have hon : config.ops.authEnabled = true := by simpa using henabled
      -- An identifier of the headers is never empty.
      have hid : ∀ o : Option String, truthy o ≠ none → ∃ t, truthy o = some t ∧ t ≠ "" := by
        intro o ho
        obtain ⟨t, ht⟩ := Option.ne_none_iff_exists'.mp ho
        exact ⟨t, ht, (truthy_eq_some.mp ht).2⟩
      split at h
      · cases h
      · dsimp only at h
        split at h
        · cases h
        · rename_i htenant
          split at h
          · cases h
          · rename_i hlandlord
            cases h
            refine ⟨hon, fun hrole => hid _ fun hnone => htenant ⟨hrole, hnone⟩,
              fun hrole => hid _ fun hnone => hlandlord ⟨hrole, hnone⟩⟩

theorem requireRoles_allRoles (config : Ops.Config) (a : BluesafeAuth) :
    requireRoles config allRoles (some a) = none := by
  have hmem : a.role ∈ allRoles := by
    cases a.role <;> decide
  simp [requireRoles, hmem]

/-- Every authenticated caller passes the role guard of the lists. -/
theorem route_allRoles (config : Config) (a : BluesafeAuth) (handler : ApiM Response) :
    route config allRoles (some a) handler = handler := by
  rw [route, requireRoles_allRoles]

variable {other : Request → Option BluesafeAuth → ApiM Response} {req : Request}

/-- A read that passes the guards is handled by the handler of its route. -/
theorem run_read (hread : req.method.isRead = true)
    (hauth : authenticate config req.headers = .ok (some a)) (oracle : Nat → Choice) (s : Store) :
    run config other oracle s req =
      Async.runWith (world config.runtime) oracle (read config (some a) req.query req.route) [] s := by
  have hmethod : req.method ≠ .options := by
    intro h
    rw [h] at hread
    cases hread
  simp [run, handle, hmethod, hauth, dispatch, hread]

/-- A `GET` request that passes the guards is answered by the handler of its route. -/
theorem respond_get (hget : req.method = .get)
    (hauth : authenticate config req.headers = .ok (some a)) (oracle : Nat → Choice) (s : Store) :
    respond config other oracle s req =
      answer (Async.runWith (world config.runtime) oracle
        (read config (some a) req.query req.route) [] s).result := by
  rw [respond, run_read (by rw [hget]; rfl) hauth]

end Guards

/-! ## Concrete requests -/

/-- A deployment with authentication and without a transport guard. -/
def sampleConfig : Config where
  ops := { Ops.sampleConfig with authEnabled := true }
  runtime := sampleRuntime
  v1BearerToken := ""
  mtlsClientCertSubjectHeader := ""
  operatorConsoleScopesEnabled := false
  oidcIssuerUrl := ""
  verifierQuorumK := 2
  artifactSigningSecret := ""
  artifactUrlTtlSec := 300
  topologyProfile := .publicHub
  wssUrl := "wss://localhost"
  drRunbookUrl := ""

/-- No concrete request writes. -/
def sampleWrites : Request → Option BluesafeAuth → ApiM Response :=
  fun _ _ => return .ok []

/-- A request without parameters; a tenant or landlord calls itself `tenant_2` or
    `landlord_2`. -/
def sampleRequest (method : Method) (route : Route) (role : String) : Request where
  method := method
  route := route
  headers name :=
    if name = "x-bluesafe-role" then some role
    else if name = "x-bluesafe-tenant-id" ∧ role = "tenant" then some "tenant_2"
    else if name = "x-bluesafe-landlord-id" ∧ role = "landlord" then some "landlord_2"
    else none
  query _ := none

end Bluesafe.Api
