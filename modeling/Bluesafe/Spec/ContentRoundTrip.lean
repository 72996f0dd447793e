import Bluesafe.Api.Vault

/-!
# Upload and download

An upload decides with the data key whether a file is encrypted, and the storage decides where
it goes; the download makes both decisions again from the row. `upload_returns` says what a
successful upload leaves in the row and in the pins, `download_returns` what a download makes of
it. The two agree except in one case: the mode `mock` keeps no content, the download answers
with a placeholder, and where encryption is on that placeholder is passed to the decryption.
-/

namespace Bluesafe.Api

open Async
open Bluesafe.Ops (sliceTo truthy allRoles)

/-- The bytes of a download. -/
def Response.download (r : Response) : Option (List UInt8) :=
  match r.body with
  | .bytes _ _ content => if r.status = 200 then some content else none
  | _ => none

/-- What a download of the row should answer: the uploaded bytes, or the placeholder of the
    mode `mock`. -/
def VaultSetup.expected (V : VaultSetup) (rt : Runtime) (e : EvidenceFile) (content : List UInt8) :
    List UInt8 :=
  match V.provider with
  | .pinata => content
  | .mock => rt.utf8 ("mock-evidence:" ++ e.id ++ ":" ++ sliceTo 48 e.sha256)

/-- The row of `e` is still stored, with the columns that a download reads, and what was pinned
    for it is still pinned. -/
structure StillStored (e : EvidenceFile) (g g' : VaultStore) : Prop where
  row : ∃ r, g'.1.evidenceFiles.get? e.id = some r ∧ r.contractId = e.contractId ∧ r.cid = e.cid ∧
    r.sha256 = e.sha256 ∧ r.encrypted = e.encrypted ∧ r.storageProvider = e.storageProvider
  pins : ∀ content, g.2.lookup e.cid = some content → g'.2.lookup e.cid = some content

/-- What an upload of `content` stores in the columns that a download reads. -/
structure HoldsContent (V : VaultSetup) (rt : Runtime) (contractId : String) (content : List UInt8)
    (e : EvidenceFile) (pins : Pins) : Prop where
  contractId : e.contractId = contractId
  sha256 : e.sha256 = rt.sha256 content
  encrypted : e.encrypted = V.key.isSome
  provider : e.storageProvider = V.provider
  pinned : V.provider = .pinata → ∃ iv, iv.length = 12 ∧ pins.lookup e.cid = some (
    match V.key with
    | some key => encryptEvidenceBuffer V.cipher iv content key
    | none => content)

/-! ## Upload -/

section Upload

variable {V : VaultSetup} {rt : Runtime} {config : Config} {vault : EvidenceVault}
  {file : UploadedFile} {form : EvidenceUploadForm} {s : Store} {g : VaultStore}

/-- The announcement keeps what was recorded. -/
theorem announceUpload_recorded (e : EvidenceFile) :
    Returns (answered rt) (announceUpload vault e) (fun _ => Recorded s) s := by
  unfold announceUpload
  refine Returns.bind (audit_recorded _ _ _ _ _ _ _) fun _ s₁ hs₁ => ?_
  exact Returns.mono (event_recorded _ _ _ _) fun _ _ hs₂ => hs₁.trans hs₂

/-- It does not go to the vault. -/
theorem announceUpload_local (e : EvidenceFile) : Local (announceUpload vault e) := by
  unfold announceUpload
  exact .bind (.inl (.of_forall (fun _ => rfl) _)) fun _ => .inl (.of_forall (fun _ => rfl) _)

/-- The retention is looked up, and nothing changes. -/
theorem uploadRetention_returns (days : Option Nat) :
    Returns (answered rt) (uploadRetention vault days) (fun _ s' => s' = s) s := by
  cases days with
  | none => exact .pure rfl
  | some n =>
    refine Returns.bind (R := fun _ s₁ => s₁ = s) (returns_opsInvoke fun _ => rfl) fun now s₁ hs₁ => ?_
    exact .pure hs₁

/-- This does not go to the vault, either. -/
theorem uploadRetention_local (days : Option Nat) : Local (uploadRetention vault days) := by
  cases days with
  | none => exact .pure
  | some n => exact .bind (.inl (.of_forall (fun _ => rfl) _)) fun _ => .pure

/-- The row of an upload is stored, and no contract is touched. -/
theorem storeEvidence_returns (hash : String) (encrypted : Bool) (uploaded : UploadToIpfsResult) :
    Returns (answered rt) (storeEvidence vault file form hash encrypted uploaded)
      (fun reply s' => ∃ e, reply = uploadReply e ∧ s'.evidenceFiles.get? e.id = some e ∧
        s'.ops.contracts = s.ops.contracts ∧ e.contractId = form.contractId ∧ e.sha256 = hash ∧
        e.encrypted = encrypted ∧ e.storageProvider = uploaded.provider ∧
        (uploaded.cid ≠ "" → e.cid = uploaded.cid)) s := by
  unfold storeEvidence
  refine Returns.bind (R := fun _ s₁ => s₁ = s) (returns_opsInvoke fun _ => rfl) fun id s₁ hid => ?_
  subst hid
  refine Returns.bind (R := fun _ s₂ => s₂ = s₁) (returns_invoke fun _ => rfl)
    fun existing s₂ hcount => ?_
  subst hcount
  refine Returns.bind (R := fun _ s₃ => s₃ = s₂) (returns_opsInvoke fun _ => rfl)
    fun createdAt s₃ hclock => ?_
  subst hclock
  refine Returns.bind (uploadRetention_returns form.retentionDays) fun retainUntil s₄ hretain => ?_
  subst hretain
  dsimp only
  -- audit and event come after the row and leave it alone
  generalize he : ({ id := id, contractId := form.contractId, .. } : EvidenceFile) = e
  refine Returns.bind (R := fun _ s₅ => s₅ = s₄.saveEvidence e) (returns_invoke fun _ => rfl)
    fun _ s₅ hsave => ?_
  subst hsave
  refine Returns.bind (announceUpload_recorded e) fun _ s₆ hrecorded => .pure ?_
  obtain ⟨audits, events, rfl⟩ := hrecorded
  refine ⟨e, rfl, Table.get?_set_self _ e, rfl, ?_⟩
  subst he
  exact ⟨rfl, rfl, rfl, rfl, fun hcid => if_neg hcid⟩

/-- Nor does the row of an upload. -/
theorem storeEvidence_local (hash : String) (encrypted : Bool) (uploaded : UploadToIpfsResult) :
    Local (storeEvidence vault file form hash encrypted uploaded) := by
  unfold storeEvidence
  refine .bind (.inl (.of_forall (fun _ => rfl) _)) fun id => ?_
  refine .bind (.call rfl) fun existing => ?_
  refine .bind (.inl (.of_forall (fun _ => rfl) _)) fun createdAt => ?_
  refine .bind (uploadRetention_local _) fun retainUntil => ?_
  exact .bind (.call rfl) fun _ => .bind (announceUpload_local _) fun _ => .pure

/-- What a successful upload leaves: the row of the file, with the content pinned for it where
    the storage keeps content. The contracts are those before the upload. -/
def Uploaded (V : VaultSetup) (rt : Runtime) (file : UploadedFile) (form : EvidenceUploadForm)
    (g : VaultStore) (reply : Response) (g' : VaultStore) : Prop :=
  reply.status = 201 → ∃ e, reply = uploadReply e ∧ g'.1.evidenceFiles.get? e.id = some e ∧
    g'.1.ops.contracts = g.1.ops.contracts ∧
    HoldsContent V rt form.contractId file.buffer e g'.2

/-- A refused upload. -/
theorem uploaded_of_status {reply : Response} {g' : VaultStore} (h : reply.status ≠ 201) :
    Uploaded V rt file form g reply g' := fun h' => absurd h' h

/-- An upload ends with its bytes pinned and its row stored. -/
theorem uploadEvidence_returns :
    Returns (V.world config.runtime) (uploadEvidence config vault file form)
      (Uploaded V config.runtime file form g) g := by
  unfold uploadEvidence
  dsimp only
  -- the key service does not fail in this world: the handler goes on with the key of the setup
  have hkey : Returns (V.world config.runtime) resolveDataKey
      (fun key g' => key = .ok V.key ∧ g' = g) g := by
    refine .tryCatch (.map (Returns.mono returns_resolveEvidenceDataKey fun key g' h => ?_))
    exact ⟨congrArg Except.ok h.1, h.2⟩
  refine Returns.bind hkey fun key g₁ h => ?_
  obtain ⟨rfl, rfl⟩ := h
  dsimp only
  -- the payload is fixed before the upload; `hinput` remembers that it is this file
  generalize hinput : (UploadToIpfsInput.mk _ _ _ _) = input
  have hupload : Returns (V.world config.runtime) (uploadFile input)
      (fun result g' => ∃ r, result = .ok r ∧ g'.1 = g₁.1 ∧ r.provider = V.provider ∧
        (V.provider = .pinata → r.cid ≠ "" ∧ ∃ iv, iv.length = 12 ∧
          g'.2.lookup r.cid = some (input.buffer.bytes V.cipher iv))) g₁ :=
    .tryCatch (.map (Returns.mono (returns_ipfsUpload input) fun r g' h => ⟨r, rfl, h⟩))
  refine Returns.bind hupload fun result g₂ h => ?_
  obtain ⟨r, rfl, hstore, hprovider, hpinned⟩ := h
  dsimp only
  refine Returns.mono (returns_vault (storeEvidence_local _ _ r) (storeEvidence_returns _ _ r))
    fun reply g₃ h _ => ?_
  obtain ⟨⟨e, hreply, hrow, hcontracts, hcontract, hsha, hencrypted, hprovider', hcid⟩, hpins⟩ := h
  refine ⟨e, hreply, hrow, hcontracts.trans (congrArg (fun s => s.ops.contracts) hstore), hcontract,
    hsha, hencrypted, hprovider'.trans hprovider, fun hpinata => ?_⟩
  obtain ⟨hne, iv, hiv, hlookup⟩ := hpinned hpinata
  refine ⟨iv, hiv, ?_⟩
  -- storing the row makes no remote call, so the pins are those of the upload
  rw [hpins, hcid hne, hlookup, ← hinput]
  cases V.key with
  | none => rfl
  | some key => rfl

/-- A call of `Bluesafe.Ops` or of the repository that only reads. -/
theorem returns_read {α : Type} {p : ApiM α} {a : α} (hp : Local p)
    (h : Returns (answered rt) p (fun b s' => b = a ∧ s' = g.1) g.1) :
    Returns (V.world rt) p (fun b g' => b = a ∧ g' = g) g :=
  Returns.mono (returns_vault hp h) fun _ _ h => ⟨h.1.1, Prod.ext h.1.2 h.2⟩

/-- The dispute is looked up, and nothing changes. -/
theorem disputeOfContract_returns (contractId : String) (disputeId : Option String) :
    Returns (answered rt) (disputeOfContract contractId disputeId) (fun _ s' => s' = s) s := by
  cases disputeId with
  | none => exact .pure rfl
  | some id =>
    refine Returns.bind (R := fun _ s₁ => s₁ = s) (returns_opsInvoke fun _ => rfl) fun found s₁ hs₁ => ?_
    cases found with
    | none => exact .pure hs₁
    | some d => exact .pure hs₁

/-- Without the vault. -/
theorem disputeOfContract_local (contractId : String) (disputeId : Option String) :
    Local (disputeOfContract contractId disputeId) := by
  cases disputeId with
  | none => exact .pure
  | some id =>
    refine .bind (.inl (.of_forall (fun _ => rfl) _)) fun found => ?_
    cases found with
    | none => exact .pure
    | some d => exact .pure

/-- Every upload is refused or leaves its content. -/
theorem upload_returns (config : Config) (caller : Caller) :
    Returns (V.world config.runtime) (postEvidence config vault caller (some file) form)
      (fun reply g' => Uploaded V config.runtime file form g reply g' ∧
        (reply.status = 201 → caller.mayAccess config g.1 form.contractId = true)) g := by
  have hrefused : ∀ {reply : Response} {g' : VaultStore}, reply.status ≠ 201 →
      Uploaded V config.runtime file form g reply g' ∧
        (reply.status = 201 → caller.mayAccess config g.1 form.contractId = true) :=
    fun h => ⟨uploaded_of_status h, fun h' => absurd h' h⟩
  unfold postEvidence
  refine returns_writeRoute (fun reply h => hrefused (by omega)) ?_
  dsimp only
  split
  · exact .pure (hrefused (by show 400 ≠ 201; decide))
  · refine Returns.bind (returns_read (a := g.1.ops.contracts.get? form.contractId)
      (.inl (.of_forall (fun _ => rfl) _)) (returns_opsInvoke fun _ => ⟨rfl, rfl⟩)) fun found g₁ h => ?_
    obtain ⟨rfl, rfl⟩ := h
    cases hcontract : g₁.1.ops.contracts.get? form.contractId with
    | none => exact .pure (hrefused (by show 404 ≠ 201; decide))
    | some contract =>
      dsimp only
      by_cases hmay : Ops.canAccessContract config.ops caller.auth contract = true
      · rw [if_pos hmay]
        have haccess : caller.mayAccess config g₁.1 form.contractId = true := by
          unfold Caller.mayAccess
          rw [hcontract]
          exact hmay
        refine Returns.bind (returns_vault (disputeOfContract_local _ _) (disputeOfContract_returns _ _))
          fun ok g₂ h => ?_
        -- the check of the dispute only reads
        have hg₂ : g₂ = g₁ := Prod.ext h.1 h.2
        subst hg₂
        cases ok with
        | false => exact .pure (hrefused (by show 400 ≠ 201; decide))
        | true =>
          rw [if_pos rfl]
          cases assertMimeAllowedForEvidenceCategory file.mimeType form.category with
          | some message => exact .pure (hrefused (by show 400 ≠ 201; decide))
          | none => exact Returns.mono uploadEvidence_returns fun _ _ h => ⟨h, fun _ => haccess⟩
      · rw [if_neg hmay]
        exact .pure (hrefused (by show 403 ≠ 201; decide))

end Upload

/-! ## Download -/

section Download

variable {V : VaultSetup} {config : Config} {rt : Runtime} {g : VaultStore}

/-- Whether a contract may be accessed does not ask the vault. -/
theorem contractAccessible_local (auth : Option Ops.BluesafeAuth) (contractId : String) :
    Local (contractAccessible config auth contractId) := by
  refine .bind (.inl (.of_forall (fun _ => rfl) _)) fun found => ?_
  cases found with
  | none => exact .pure
  | some c => exact .pure

/-- The stored bytes of a row: the placeholder, or what is pinned. -/
theorem fetchEvidence_returns {row : EvidenceFile} {stored : List UInt8}
    (hmock : row.storageProvider = .mock →
      stored = config.runtime.utf8 ("mock-evidence:" ++ row.id ++ ":" ++ sliceTo 48 row.sha256))
    (hpinata : row.storageProvider = .pinata → g.2.lookup row.cid = some stored) :
    Returns (V.world rt) (fetchEvidence config row) (fun body g' => body = .ok stored ∧ g' = g) g := by
  unfold fetchEvidence
  cases hprovider : row.storageProvider with
  | mock => exact .pure ⟨congrArg Except.ok (hmock hprovider).symm, rfl⟩
  | pinata =>
    refine .tryCatch (.map (Returns.mono (returns_fetch (hpinata hprovider)) fun body g' h => ?_))
    exact ⟨congrArg Except.ok h.1, h.2⟩

/-- What the stored bytes become: they are decrypted where encryption is on. -/
def VaultSetup.opened (V : VaultSetup) (stored : List UInt8) : Except Response (List UInt8) :=
  match V.key with
  | none => .ok stored
  | some key =>
    match decryptEvidenceBuffer V.cipher stored key with
    | .ok plain => .ok plain
    | .error e => .error (.error 502 "B2_EVIDENCE_DECRYPT_FAILED" e)

/-- Bytes that cannot be opened are not downloaded. -/
theorem download_of_opened_error {stored : List UInt8} {reply : Response}
    (h : V.opened stored = .error reply) : reply.download = none := by
  unfold VaultSetup.opened at h
  split at h
  · cases h
  · split at h <;> cases h
    rfl

/-- Stored bytes are opened under the key of the vault. -/
theorem decryptEvidence_returns {row : EvidenceFile} (hencrypted : row.encrypted = V.key.isSome)
    (stored : List UInt8) :
    Returns (V.world rt) (decryptEvidence (config.withCipher V.cipher) row stored)
      (fun body g' => body = V.opened stored ∧ g' = g) g := by
  unfold decryptEvidence VaultSetup.opened
  rw [hencrypted]
  cases hkey : V.key with
  | none => exact .pure ⟨rfl, rfl⟩
  | some key =>
    have hresolve : Returns (V.world rt) resolveDataKey
        (fun r g' => r = .ok (some key) ∧ g' = g) g := by
      refine .tryCatch (.map (Returns.mono returns_resolveEvidenceDataKey fun k g' h => ?_))
      exact ⟨congrArg Except.ok (h.1.trans hkey), h.2⟩
    refine Returns.bind hresolve fun r g₁ h => ?_
    obtain ⟨rfl, rfl⟩ := h
    have hdecrypt : (config.withCipher V.cipher).runtime.decryptEvidenceBuffer stored key =
        decryptEvidenceBuffer V.cipher stored key := rfl
    dsimp only
    rw [hdecrypt]
    cases decryptEvidenceBuffer V.cipher stored key with
    | ok plain => exact .pure ⟨rfl, rfl⟩
    | error e => exact .pure ⟨rfl, rfl⟩

/-- The download of a stored row: what its stored bytes become, if they have the stored
    digest. -/
theorem download_returns {reader : Caller} {row : EvidenceFile} {stored : List UInt8} {id : String}
    (hrow : g.1.evidenceFiles.get? id = some row)
    (haccess : reader.mayAccess config g.1 row.contractId = true)
    (hmock : row.storageProvider = .mock →
      stored = config.runtime.utf8 ("mock-evidence:" ++ row.id ++ ":" ++ sliceTo 48 row.sha256))
    (hpinata : row.storageProvider = .pinata → g.2.lookup row.cid = some stored)
    (hencrypted : row.encrypted = V.key.isSome) :
    Returns (V.world rt) (readEvidenceContent (config.withCipher V.cipher) reader.auth id)
      (fun answer _ => ∀ body, answer.download = some body ↔ V.opened stored = .ok body ∧
        (row.storageProvider = .mock ∨ config.runtime.sha256 body = row.sha256)) g := by
  unfold readEvidenceContent route
  have hroles : Ops.requireRoles (config.withCipher V.cipher).ops allRoles reader.auth = none :=
    requireRoles_of_mayAccess haccess
  rw [hroles]
  dsimp only
  unfold withEvidence
  refine Returns.bind (returns_read (a := some row) (.call rfl) (returns_invoke fun _ => ⟨hrow, rfl⟩))
    fun found g₁ h => ?_
  obtain ⟨rfl, rfl⟩ := h
  have hcheck : Returns (V.world rt)
      (contractAccessible (config.withCipher V.cipher) reader.auth row.contractId)
      (fun b g' => b = true ∧ g' = g₁) g₁ :=
    returns_read (contractAccessible_local _ _)
      (Returns.mono (returns_contractAccessible _ _ _) fun b s' h => ⟨h.1.trans haccess, h.2⟩)
  refine Returns.bind hcheck fun accessible g₂ h => ?_
  obtain ⟨rfl, rfl⟩ := h
  rw [if_pos rfl]
  refine Returns.bind (fetchEvidence_returns hmock hpinata) fun fetched g₃ h => ?_
  obtain ⟨rfl, rfl⟩ := h
  refine Returns.bind (decryptEvidence_returns hencrypted stored) fun opened g₄ h => ?_
  obtain ⟨rfl, rfl⟩ := h
  -- a failed decryption is answered before the digest is looked at
  cases hopened : V.opened stored with
  | error reply =>
    refine .pure fun body => ?_
    constructor
    · intro h
      rw [download_of_opened_error hopened] at h
      cases h
    · intro h
      cases h.1
  | ok content =>
    dsimp only
    have hsha : (config.withCipher V.cipher).runtime.sha256 = config.runtime.sha256 := rfl
    rw [hsha]
    split
    · -- the digest differs, and the row is not one of the mode `mock`
      rename_i hbad
      refine .pure fun body => ?_
      constructor
      · intro h
        cases h
      · intro h
        obtain ⟨hbody, hdigest⟩ := h
        cases hbody
        exact absurd hdigest (not_or.mpr hbad)
    · rename_i hgood
      have hdigest : row.storageProvider = .mock ∨ config.runtime.sha256 content = row.sha256 := by
        by_cases hprovider : row.storageProvider = .mock
        · exact .inl hprovider
        · exact .inr (Classical.not_not.mp fun h => hgood ⟨hprovider, h⟩)
      refine Returns.bind (returns_vault (Q := fun _ => Recorded g₄.1) (.inl (.of_forall (fun _ => rfl) _))
        (audit_recorded _ _ _ _ _ _ _)) fun _ g₅ _ => .pure fun body => ⟨fun h => ?_, fun h => ?_⟩
      · cases h
        exact ⟨rfl, hdigest⟩
      · cases h.1
        rfl

end Download

/-! ## The round trip -/

section RoundTrip

variable {V : VaultSetup} {rt : Runtime} {content : List UInt8} {e : EvidenceFile}

/-- What the storage has for a file: the placeholder, or what was pinned. -/
theorem stored_exists {contractId : String} {pins : Pins}
    (he : HoldsContent V rt contractId content e pins) :
    ∃ stored, (V.provider = .mock →
        stored = rt.utf8 ("mock-evidence:" ++ e.id ++ ":" ++ sliceTo 48 e.sha256)) ∧
      (V.provider = .pinata → pins.lookup e.cid = some stored) := by
  cases hprovider : V.provider with
  | mock => exact ⟨_, fun _ => rfl, fun h => by cases h⟩
  | pinata =>
    obtain ⟨iv, -, hlookup⟩ := he.pinned hprovider
    exact ⟨_, fun h => (by cases h), fun _ => hlookup⟩

/-- What the stored bytes of an upload become is what should be downloaded, unless the
    placeholder is decrypted. -/
theorem opened_iff {contractId : String} {pins : Pins} {stored : List UInt8}
    (he : HoldsContent V rt contractId content e pins)
    (hmock : V.provider = .mock →
      stored = rt.utf8 ("mock-evidence:" ++ e.id ++ ":" ++ sliceTo 48 e.sha256))
    (hpinata : V.provider = .pinata → pins.lookup e.cid = some stored) :
    V.opened stored = .ok (V.expected rt e content) ↔ V.provider = .pinata ∨ V.key = none := by
  unfold VaultSetup.opened VaultSetup.expected
  cases hprovider : V.provider with
  | mock =>
    have hstored := hmock hprovider
    cases hkey : V.key with
    | none => simp [hstored]
    | some key =>
      -- whatever the placeholder decrypts to, it is not the placeholder
      have hne : decryptEvidenceBuffer V.cipher stored key ≠ .ok stored := decrypt_ne_self
      simp only [← hstored, reduceCtorEq, or_self, iff_false]
      intro h
      split at h
      · rename_i plain hplain
        cases h
        exact hne hplain
      · cases h
  | pinata =>
    obtain ⟨iv, hiv, hlookup⟩ := he.pinned hprovider
    have hstored := Option.some.inj ((hpinata hprovider).symm.trans hlookup)
    cases hkey : V.key with
    | none =>
      rw [hkey] at hstored
      simp [hstored]
    | some key =>
      rw [hkey] at hstored
      have hplain : decryptEvidenceBuffer V.cipher stored key = .ok content := by
        rw [hstored]
        exact decrypt_encrypt V.cipher hiv content key
      simp [hplain]

end RoundTrip

/-- Upload, then download. In every run in which the calls are answered and the setup does not
    change, a successful upload stores its row and may be downloaded by its own caller. As long
    as the row stays stored, a download by a caller who may access the contract answers with
    what was uploaded (the placeholder, in the mode `mock`) exactly if the provider is
    `pinata` or encryption is off. The packed form of an encryption is always taken apart
    again. -/
theorem content_round_trip_iff (V : VaultSetup) (config : Config) (vault : EvidenceVault)
    (caller : Caller) (file : UploadedFile) (form : EvidenceUploadForm) (g : VaultStore) :
    (∀ iv plaintext key : List UInt8, iv.length = 12 →
      decryptEvidenceBuffer V.cipher (encryptEvidenceBuffer V.cipher iv plaintext key) key =
        .ok plaintext) ∧
    Returns (V.world config.runtime) (postEvidence (config.withCipher V.cipher) vault caller (some file) form)
      (fun reply g₁ => reply.status = 201 → ∃ e, reply = uploadReply e ∧ StillStored e g₁ g₁ ∧
        caller.mayAccess config g₁.1 e.contractId = true ∧
        ∀ (reader : Caller) g₂, StillStored e g₁ g₂ → reader.mayAccess config g₂.1 e.contractId = true →
          Returns (V.world config.runtime)
            (readEvidenceContent (config.withCipher V.cipher) reader.auth e.id)
            (fun answer _ => answer.download = some (V.expected config.runtime e file.buffer) ↔
              V.provider = .pinata ∨ V.key = none) g₂) g := by
  refine ⟨fun iv plaintext key hiv => decrypt_encrypt V.cipher hiv plaintext key, ?_⟩
  refine Returns.mono (upload_returns (config.withCipher V.cipher) caller)
    fun reply g₁ h hstatus => ?_
  obtain ⟨e, hreply, hrow, hcontracts, hheld⟩ := h.1 hstatus
  have he : HoldsContent V config.runtime form.contractId file.buffer e g₁.2 :=
    ⟨hheld.contractId, hheld.sha256, hheld.encrypted, hheld.provider, hheld.pinned⟩
  refine ⟨e, hreply, ⟨⟨e, hrow, rfl, rfl, rfl, rfl, rfl⟩, fun _ h => h⟩, ?_, ?_⟩
  · have haccess := h.2 hstatus
    unfold Caller.mayAccess at haccess ⊢
    rw [hcontracts, he.contractId]
    exact haccess
  · intro reader g₂ hstill haccess
    obtain ⟨row, hrow', hcontract, hcid, hsha, hencrypted, hprovider⟩ := hstill.row
    have hid : row.id = e.id := Table.key_of_get? hrow'
    -- the row may have changed in other columns; what the download reads is as it was
    obtain ⟨stored, hmock, hpinata⟩ := stored_exists he
    refine Returns.mono (@download_returns V config _ _ _ _ stored _ hrow' ?_ ?_ ?_ ?_)
      fun answer g₃ hanswer => ?_
    · rw [hcontract]
      exact haccess
    · rw [hprovider, he.provider, hid, hsha]
      exact hmock
    · rw [hprovider, he.provider, hcid]
      exact fun h => hstill.pins stored (hpinata h)
    · rw [hencrypted, he.encrypted]
    · rw [hanswer, ← opened_iff he hmock hpinata]
      -- the digest of what is expected is the stored one, or the mode `mock` does not compare it
      refine and_iff_left ?_
      rw [hprovider, he.provider, hsha, he.sha256]
      unfold VaultSetup.expected
      cases V.provider with
      | mock => exact .inl rfl
      | pinata => exact .inr rfl

/-! ## A concrete deployment -/

/-- A cipher for concrete runs: the tag is sixteen zeros. -/
def zeroTagCipher : Cipher where
  encrypt _ _ plain := (plain, List.replicate 16 0)
  decrypt _ _ ciphertext tag := if tag = List.replicate 16 0 then some ciphertext else none
  length_ciphertext _ _ _ := rfl
  length_tag _ _ _ := rfl
  decrypt_eq_some _ _ ciphertext tag plain := by
    simp only [Option.ite_none_right_eq_some, Option.some.injEq, Prod.mk.injEq]
    constructor
    · rintro ⟨htag, hplain⟩
      exact ⟨hplain.symm, htag.symm⟩
    · rintro ⟨hplain, htag⟩
      exact ⟨htag.symm, hplain.symm⟩

/-- A runtime that writes ASCII texts and knows the digest of one file. -/
def asciiRuntime : Runtime :=
  { sampleRuntime with
    utf8 := fun s => s.toList.map fun c => UInt8.ofNat c.toNat
    sha256 := fun _ => "039058c6f2c0cb492c533b0a4d14ef77cc0f78abccced5287d84a1a2011cfb81" }

/-- The mode `mock` with a data key. -/
def mockVault : VaultSetup := ⟨zeroTagCipher, some (List.replicate 32 7), .mock⟩

/-- No dispute is named. -/
theorem disputeId_absent (d : String) (h : none = some d) : d ≠ "" := by cases h

/-- And no retention. -/
theorem retentionDays_absent (n : Nat) (h : none = some n) : 0 < n := by cases h

/-- A photo for the contract `ctr_9`. -/
def photoForm : EvidenceUploadForm where
  contractId := "ctr_9"
  disputeId := none
  category := .photo
  uploaderId := none
  retentionDays := none
  contractId_min := by decide
  disputeId_min := disputeId_absent
  retentionDays_positive := retentionDays_absent

/-- A store with the contract of the photo. -/
def photoStore : VaultStore :=
  ({ Store.empty with
    ops := { Ops.Store.empty with
      contracts := Table.empty.set
        ⟨"ctr_9", "tenant_9", "landlord_9", .active, none, none, none, none, none, 0, 0⟩ } }, [])

/-- An environment that numbers what it generates. -/
def vaultOracle : calls.Op → VaultChoice :=
  fun op => { toApiChoice := sampleEvidenceOracle "1" 0 op }

/-- The photo is uploaded with success, and its download fails: the placeholder is no
    ciphertext. -/
theorem placeholder_not_decrypted :
    let W := mockVault.world asciiRuntime
    let config := (openConfig asciiRuntime).withCipher zeroTagCipher
    let upload := postEvidence config sampleVault openCaller
      (some ⟨[1, 2, 3], "photo.png", "image/png", 3⟩) photoForm
    let download := readEvidenceContent config none "evd_1"
    ∃ l reply g, exec W upload (oracleChoices W vaultOracle upload photoStore) [] photoStore =
        some (l, .ok reply, g) ∧ reply.status = 201 ∧
      ∃ l' g', exec W download (oracleChoices W vaultOracle download g) [] g =
        some (l', .ok (.error 502 "B2_EVIDENCE_DECRYPT_FAILED"
          "Unsupported state or unable to authenticate data"), g') :=
  ⟨_, _, _, rfl, rfl, _, _, rfl⟩

end Bluesafe.Api
