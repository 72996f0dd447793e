import Bluesafe.Api.Answered
import Bluesafe.Api.Server

/-!
# Verification by content identifier

`POST /v1/evidences/verify` looks a file up by its content identifier and then checks whether
the caller may see the contract of the row it has found. The same content has the same
identifier for every contract it was uploaded for, and the lookup returns the row that was
inserted first: who has uploaded the content earlier decides what another party is told.
`verify_complete_iff` says exactly which requests are answered with `verified=true`.
-/

namespace Bluesafe.Api

open Async
open Bluesafe.Ops (BluesafeRole allRoles blockAuditorWriteOperations requireRoles canAccessContract)
open Bluesafe.Notify (utf16Units)

/-- The reply to a request that names the stored digest. -/
def verifiedReply (cid sha256 : String) : Response :=
  .ok [("verified", .bool true), ("cid", .str cid), ("actualSha256", .str sha256)]

/-- What a request for `cid` and `sha256` has to meet: its two texts have the lengths that the
    schema asks for, the guard of the auditors lets it pass, and the first row with the
    identifier belongs to a contract of the caller and has the digest. -/
structure Verifiable (config : Config) (caller : Caller) (s : Store) (cid sha256 : String) :
    Prop where
  cid_min : 8 ≤ (utf16Units cid).length
  sha256_min : 32 ≤ (utf16Units sha256).length
  notAuditor : config.ops.authEnabled = true →
    caller.auth.map Ops.BluesafeAuth.role ≠ some .auditor
  first : ∃ earlier e later, s.evidenceFiles.rows = earlier ++ e :: later ∧
    (∀ x ∈ earlier, x.cid ≠ cid) ∧ e.cid = cid ∧ e.sha256 = sha256 ∧
    caller.mayAccess config s e.contractId = true

/-! ## Lookup -/

theorem Store.findEvidenceByCid_eq_some {s : Store} {cid : String} {e : EvidenceFile} :
    s.findEvidenceByCid cid = some e ↔ e.cid = cid ∧
      ∃ earlier later, s.evidenceFiles.rows = earlier ++ e :: later ∧ ∀ x ∈ earlier, x.cid ≠ cid := by
  unfold Store.findEvidenceByCid
  simp only [List.find?_eq_some_iff_append, decide_eq_true_eq, Bool.not_eq_true',
    decide_eq_false_iff_not]

/-- The condition on the first row, in terms of the lookup. -/
theorem first_iff {config : Config} {caller : Caller} {s : Store} {cid sha256 : String} :
    (∃ earlier e later, s.evidenceFiles.rows = earlier ++ e :: later ∧
      (∀ x ∈ earlier, x.cid ≠ cid) ∧ e.cid = cid ∧ e.sha256 = sha256 ∧
      caller.mayAccess config s e.contractId = true) ↔
    ∃ e, s.findEvidenceByCid cid = some e ∧ e.sha256 = sha256 ∧
      caller.mayAccess config s e.contractId = true := by
  simp only [Store.findEvidenceByCid_eq_some]
  constructor
  · rintro ⟨earlier, e, later, hrows, hearlier, hcid, hsha, haccess⟩
    exact ⟨e, ⟨hcid, earlier, later, hrows, hearlier⟩, hsha, haccess⟩
  · rintro ⟨e, ⟨hcid, earlier, later, hrows, hearlier⟩, hsha, haccess⟩
    exact ⟨earlier, e, later, hrows, hearlier, hcid, hsha, haccess⟩

/-! ## Guards -/

section Guards

variable {config : Config} {caller : Caller} {s : Store} {cid sha256 : String}

/-- A refusal is not the reply `verified=true`. -/
theorem error_ne_verifiedReply {status : Nat} {code message : String} (h : status ≠ 200) :
    Response.error status code message ≠ verifiedReply cid sha256 := by
  intro heq
  exact h (congrArg Response.status heq)

theorem ofReply_ne_verifiedReply {r : Ops.Reply} (h : r.status ≠ 200) :
    Response.ofReply r ≠ verifiedReply cid sha256 := by
  intro heq
  exact h (congrArg Response.status heq)

/-- The schema admits exactly the texts that are long enough. -/
theorem verifyEvidenceSchema_orReply (cid sha256 : String) :
    (verifyEvidenceSchema cid sha256).orReply = .ok (cid, sha256) ∧
        8 ≤ (utf16Units cid).length ∧ 32 ≤ (utf16Units sha256).length ∨
      (∃ issues, (verifyEvidenceSchema cid sha256).orReply = .error (schemaReply issues)) ∧
        ¬(8 ≤ (utf16Units cid).length ∧ 32 ≤ (utf16Units sha256).length) := by
  unfold verifyEvidenceSchema minText
  by_cases hcid : (utf16Units cid).length < 8
  · right
    rw [if_pos hcid]
    refine ⟨?_, fun h => absurd h.1 (Nat.not_le.mpr hcid)⟩
    by_cases hsha : (utf16Units sha256).length < 32
    · rw [if_pos hsha]
      exact ⟨_, rfl⟩
    · rw [if_neg hsha]
      exact ⟨_, rfl⟩
  · rw [if_neg hcid]
    by_cases hsha : (utf16Units sha256).length < 32
    · rw [if_pos hsha]
      exact .inr ⟨⟨_, rfl⟩, fun h => absurd h.2 (Nat.not_le.mpr hsha)⟩
    · rw [if_neg hsha]
      exact .inl ⟨rfl, Nat.not_lt.mp hcid, Nat.not_lt.mp hsha⟩

theorem blockAuditor_eq_none (h : blockAuditorWriteOperations config.ops caller.auth = none) :
    config.ops.authEnabled = true → caller.auth.map Ops.BluesafeAuth.role ≠ some .auditor := by
  unfold blockAuditorWriteOperations at h
  split at h
  · cases h
  · rename_i hpass
    intro henabled hrole
    simp [henabled, hrole] at hpass

end Guards

/-! ## The handler -/

section Handler

variable {config : Config} {caller : Caller} {s : Store} {cid sha256 : String}

/-- The handler behind its guards and its schema. -/
theorem verifyByCid_returns :
    Returns (answered config.runtime) (verifyByCid config caller cid sha256)
      (fun reply _ => reply = verifiedReply cid sha256 ↔
        ∃ e, s.findEvidenceByCid cid = some e ∧ e.sha256 = sha256 ∧
          caller.mayAccess config s e.contractId = true) s := by
  unfold verifyByCid
  refine Returns.bind (R := fun found s₁ => found = s.findEvidenceByCid cid ∧ s₁ = s)
    (returns_invoke fun _ => ⟨rfl, rfl⟩) fun found s₁ hread => ?_
  obtain ⟨rfl, rfl⟩ := hread
  -- only the first row counts: the lookup does not ask whose contract it belongs to
  cases hfound : s₁.findEvidenceByCid cid with
  | none =>
    refine .pure ⟨fun h => absurd h (error_ne_verifiedReply (by decide)), ?_⟩
    rintro ⟨e, he, -⟩
    cases he
  | some e =>
    dsimp only
    have honly : (∃ e', some e = some e' ∧ e'.sha256 = sha256 ∧
        caller.mayAccess config s₁ e'.contractId = true) ↔
        e.sha256 = sha256 ∧ caller.mayAccess config s₁ e.contractId = true := by simp
    rw [honly]
    refine Returns.bind (returns_contractAccessible config caller.auth e.contractId)
      fun accessible s₂ hcheck => ?_
    obtain ⟨haccess, rfl⟩ := hcheck
    -- a row of a contract that the caller may not see is answered with `403`
    by_cases hmay : accessible = true
    · rw [if_pos hmay]
      have hmay' : caller.mayAccess config s₂ e.contractId = true := haccess.symm.trans hmay
      refine Returns.bind (returns_writeAudit _ _ _ _ _ _ _) fun _ s₃ _ => .pure ?_
      by_cases hsha : e.sha256 = sha256
      · rw [hsha]
        simp [verifiedReply, hmay']
      · -- the digest is another one: the reply says `verified=false`
        simp [verifiedReply, Response.ok, Response.json, hsha, Value.str]
    · rw [if_neg hmay]
      have hmay' : ¬caller.mayAccess config s₂ e.contractId = true := fun h => hmay (haccess.trans h)
      exact .pure ⟨fun h => absurd h (error_ne_verifiedReply (by decide)), fun h => absurd h.2 hmay'⟩

/-- Verification by content identifier: whatever is stored and whoever asks, the request is
    answered with `verified=true` exactly if it is `Verifiable`. In particular, the party that
    has stored `e` for a contract of its own is refused when the content was stored earlier for
    a contract it may not see. -/
theorem verify_complete_iff (config : Config) (caller : Caller) (s : Store) (e : EvidenceFile) :
    Returns (answered config.runtime) (verifyEvidence config caller e.cid e.sha256)
      (fun reply _ => reply = verifiedReply e.cid e.sha256 ↔
        Verifiable config caller s e.cid e.sha256) s := by
  unfold verifyEvidence writeRoute
  -- the route asks for the role of an auditor before it asks for any role
  cases hblock : blockAuditorWriteOperations config.ops caller.auth with
  | some r =>
    obtain ⟨hstatus, henabled, hrole⟩ := blockAuditor_eq_some hblock
    refine .pure ⟨fun h => absurd h (ofReply_ne_verifiedReply (by omega)), fun h => ?_⟩
    exact absurd hrole (h.notAuditor henabled)
  | none =>
    have hpass := blockAuditor_eq_none hblock
    dsimp only
    unfold route
    cases hroles : requireRoles config.ops allRoles caller.auth with
    | some r =>
      have hstatus : r.status = 403 := status_of_requireRoles hroles
      refine .pure ⟨fun h => absurd h (ofReply_ne_verifiedReply (by omega)), fun h => ?_⟩
      -- a caller without a role has no access to the contract of the row either
      obtain ⟨-, first, -, -, -, -, -, haccess⟩ := h.first
      rw [mayAccess_of_requireRoles hroles] at haccess
      cases haccess
    | none =>
      dsimp only
      -- behind the guards the schema admits the request or answers `400`
      rcases verifyEvidenceSchema_orReply e.cid e.sha256 with
        ⟨hok, hcid, hsha⟩ | ⟨⟨issues, hissues⟩, hshort⟩
      · rw [hok]
        refine Returns.mono verifyByCid_returns fun reply s' hreply => hreply.trans ?_
        rw [← first_iff]
        exact ⟨fun hfirst => ⟨hcid, hsha, hpass, hfirst⟩, Verifiable.first⟩
      · rw [hissues]
        refine .pure ⟨fun h => ?_, fun h => absurd ⟨h.cid_min, h.sha256_min⟩ hshort⟩
        have hstatus : 400 = 200 := congrArg Response.status h
        omega

end Handler

/-! ## A concrete store -/

/-- The same photo under a contract. -/
def sharedPhoto (id contractId : String) : EvidenceFile where
  id := id
  contractId := contractId
  disputeId := none
  uploaderId := "operator_local"
  category := .photo
  cid := "bafy0123456789abcdef0123456789abcdef"
  sha256 := "0123456789abcdef0123456789abcdef"
  mimeType := "image/png"
  sizeBytes := 3
  version := 1
  isEncrypted := false
  encrypted := false
  retainUntil := none
  retentionClass := .standard
  jurisdiction := none
  legalHoldUntil := none
  storageProvider := .mock
  createdAt := 0

/-- A contract of the tenant with the same number. -/
def contractOf (n : String) : Ops.Contract :=
  ⟨"ctr_" ++ n, "tenant_" ++ n, "landlord_" ++ n, .active, none, none, none, none, none, 0, 0⟩

/-- Two contracts of different tenants; the photo was uploaded for the first one, then for the
    second one. -/
def sharedStore : Store :=
  let s : Store := { Store.empty with
    ops := { Ops.Store.empty with
      contracts := (Table.empty.set (contractOf "1")).set (contractOf "2") } }
  (s.saveEvidence (sharedPhoto "evd_1" "ctr_1")).saveEvidence (sharedPhoto "evd_2" "ctr_2")

/-- The tenant of the second contract. -/
def tenantTwo : Caller := ⟨some ⟨.tenant, some "tenant_2", none⟩, none⟩

/-- The second tenant asks for the file of its own contract and is refused. -/
theorem own_file_refused :
    sharedPhoto "evd_2" "ctr_2" ∈ sharedStore.evidenceFiles.rows ∧
      tenantTwo.mayAccess sampleConfig sharedStore "ctr_2" = true ∧
      (runWith (world sampleRuntime) (fun _ => {})
        (verifyEvidence sampleConfig tenantTwo (sharedPhoto "evd_2" "ctr_2").cid
          (sharedPhoto "evd_2" "ctr_2").sha256) [] sharedStore).result =
        .ok (forbidden "Not allowed to verify this evidence") := by
  refine ⟨?_, by decide, rfl⟩
  exact List.mem_cons_of_mem _ List.mem_cons_self

end Bluesafe.Api
