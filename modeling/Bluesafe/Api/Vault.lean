import Bluesafe.Api.Answered
import Bluesafe.Async.Only
import Bluesafe.ForStd.Aead

/-!
# The evidence vault

`services/evidence-crypto.ts` over an authenticated cipher, and the environment of uploads and
downloads: a data key that does not change, the two modes of `services/ipfs.service.ts`, and a
gateway that answers with the bytes that were pinned under an identifier. In the mode `mock`
nothing is pinned.

`VaultSetup.world` answers the remote calls from the setup and from the pins; all other calls
are those of the world `answered`. A program without remote calls does there what it does in
`answered` (`returns_vault`).
-/

namespace Bluesafe.Api

open Async
open Bluesafe.Ops (BluesafeAuth)

/-! ## Encryption -/

/-- AES-256-GCM: nonces of 12 bytes are given, tags have 16 bytes. -/
abbrev Cipher : Type := Aead UInt8 16

/-- `encryptEvidenceBuffer`; the nonce is `crypto.randomBytes(12)`. -/
def encryptEvidenceBuffer (cipher : Cipher) (iv plaintext key : List UInt8) : List UInt8 :=
  let (ciphertext, tag) := cipher.encrypt key iv plaintext
  iv ++ ciphertext ++ tag

/-- `decryptEvidenceBuffer`. -/
def decryptEvidenceBuffer (cipher : Cipher) (payload key : List UInt8) : Except String (List UInt8) :=
  if payload.length < 12 + 16 then .error "ciphertext too short"
  else
    let iv := payload.take 12
    let tag := payload.drop (payload.length - 16)
    let enc := (payload.take (payload.length - 16)).drop 12
    match cipher.decrypt key iv enc tag with
    | some plain => .ok plain
    | none => .error "Unsupported state or unable to authenticate data"

theorem decryptEvidenceBuffer_eq_ok {cipher : Cipher} {payload key plain : List UInt8} :
    decryptEvidenceBuffer cipher payload key = .ok plain ↔ cipher.unpack 12 key payload = some plain := by
  unfold decryptEvidenceBuffer Aead.unpack Aead.unframe
  split
  · simp
  · simp only [Option.bind_some]
    generalize cipher.decrypt key _ _ _ = opened
    cases opened with
    | none => simp
    | some plain' => simp

/-- What was encrypted is decrypted, whatever its length. -/
theorem decrypt_encrypt (cipher : Cipher) {iv : List UInt8} (hiv : iv.length = 12)
    (plaintext key : List UInt8) :
    decryptEvidenceBuffer cipher (encryptEvidenceBuffer cipher iv plaintext key) key = .ok plaintext :=
  decryptEvidenceBuffer_eq_ok.mpr (Aead.unpack_eq_some_iff.mpr ⟨iv, hiv, rfl⟩)

/-- A payload is longer than what it decrypts to. -/
theorem decrypt_ne_self {cipher : Cipher} {payload key : List UInt8} :
    decryptEvidenceBuffer cipher payload key ≠ .ok payload := by
  intro h
  have hlength := Aead.length_of_unpack (decryptEvidenceBuffer_eq_ok.mp h)
  omega

/-- The deployment whose downloads decrypt with the cipher. -/
def Config.withCipher (config : Config) (cipher : Cipher) : Config :=
  { config with
    runtime := { config.runtime with decryptEvidenceBuffer := decryptEvidenceBuffer cipher } }

/-- The bytes of an upload; the nonce is used when they are encrypted. -/
def UploadPayload.bytes (cipher : Cipher) (iv : List UInt8) : UploadPayload → List UInt8
  | .plain content => content
  | .encrypted content key => encryptEvidenceBuffer cipher iv content key

/-! ## The environment -/

/-- What does not change between an upload and a download: the cipher, the data key (`none`
    when encryption is off) and the storage provider of `config.ipfs.mode`. -/
structure VaultSetup where
  cipher : Cipher
  key : Option (List UInt8)
  provider : StorageProvider

/-- The bytes that are pinned, by content identifier. -/
abbrev Pins : Type := List (String × List UInt8)

/-- The repository and the pins. -/
abbrev VaultStore : Type := Store × Pins

/-- What the environment decides at a call; `iv` is the nonce of an encryption. -/
structure VaultChoice extends toApiChoice : Choice where
  iv : List UInt8 := List.replicate 12 0

/-- The calls that leave the backend for the key service, the storage or the gateway. -/
def isRemote : calls.Op → Bool
  | .inr .resolveEvidenceDataKey => true
  | .inr (.ipfsUpload _) => true
  | .inr (.fetchEvidenceBytesFromPublicGateway _) => true
  | _ => false

namespace VaultSetup

variable (V : VaultSetup) (rt : Runtime)

/-- `IpfsService.upload`. -/
def upload (input : UploadToIpfsInput) (c : VaultChoice) (pins : Pins) : UploadToIpfsResult × Pins :=
  match V.provider with
  | .mock => (⟨generateCidFromHash input.sha256, .mock⟩, pins)
  | .pinata => (⟨c.uploaded.cid, .pinata⟩, (c.uploaded.cid, input.buffer.bytes V.cipher c.iv) :: pins)

/-- The answers of the environment. -/
def serve : (op : calls.Op) → VaultChoice → VaultStore → Except String (calls.Res op) × VaultStore
  | .inr .resolveEvidenceDataKey, _, g => (.ok V.key, g)
  | .inr (.ipfsUpload input), c, g => (.ok (V.upload input c g.2).1, g.1, (V.upload input c g.2).2)
  | .inr (.fetchEvidenceBytesFromPublicGateway cid), _, g =>
    match g.2.lookup cid with
    | some content => (.ok content, g)
    | none => (.error "IPFS gateway HTTP 404 for cid", g)
  | op, c, g => ((Api.serve rt op c.toApiChoice g.1).1, (Api.serve rt op c.toApiChoice g.1).2, g.2)

/-- The identifier that the storage gives to an upload: it is not empty, and what is pinned
    under it already is the same content. -/
def admits (input : UploadToIpfsInput) (c : VaultChoice) (pins : Pins) : Bool :=
  decide (V.provider = .mock) ||
    decide (c.uploaded.cid ≠ "") && decide (c.iv.length = 12) &&
      (pins.lookup c.uploaded.cid).all fun content =>
        decide (content = input.buffer.bytes V.cipher c.iv)

/-- Uploads and downloads with an unchanged setup; no call of the repository is rejected. -/
def world : World calls String VaultStore VaultChoice where
  allow op c g := (answered rt).allow op c.toApiChoice g.1 &&
    match op with
    | .inr (.ipfsUpload input) => V.admits input c g.2
    | _ => true
  serve := V.serve rt

end VaultSetup

/-! ## Rules -/

section Rules

variable {V : VaultSetup} {rt : Runtime} {g : VaultStore} {α : Type}

theorem serve_of_not_remote {op : calls.Op} (h : isRemote op = false) (c : VaultChoice) :
    V.serve rt op c g = ((Api.serve rt op c.toApiChoice g.1).1, (Api.serve rt op c.toApiChoice g.1).2, g.2) := by
  cases op with
  | inl op => rfl
  | inr op => cases op <;> first | rfl | cases h

/-- The program makes no remote call. -/
abbrev Local (p : ApiM α) : Prop := Only (fun op => isRemote op = false) p

/-- A program without remote calls does what it does in the world `answered`. -/
theorem returns_vault {p : ApiM α} {Q : α → Store → Prop} (hp : Local p)
    (h : Returns (answered rt) p Q g.1) :
    Returns (V.world rt) p (fun a g' => Q a g'.1 ∧ g'.2 = g.2) g := by
  -- the two worlds keep different logs, so the run starts from any pair of them
  have hwp := h []
  clear h
  generalize ([] : ApiLog) = l at hwp
  intro l'
  induction p generalizing g l l' with
  | done a => exact ⟨hwp, rfl⟩
  | fail e => exact hwp
  | await op k ih =>
    intro c hc
    obtain ⟨hop, hk⟩ := Only.await_iff.mp hp
    have hallow : (answered rt).allow op c.toApiChoice g.1 = true := (Bool.and_eq_true_iff.mp hc).1
    have hstep := hwp c.toApiChoice hallow
    show post _ _ (V.serve rt op c g).1 (⟨op, (V.serve rt op c g).1⟩ :: l', (V.serve rt op c g).2)
    rw [serve_of_not_remote hop]
    -- after the call the pins are the same, and the induction hypothesis applies to what follows
    have hnext : ∀ r (g' : VaultStore) l l', g'.2 = g.2 →
        wp (seqSpec (answered rt)) (k r) (fun a g => Q a g.2) (fun _ _ => False) (l, g'.1) →
        wp (seqSpec (V.world rt)) (k r) (fun a g' => Q a g'.2.1 ∧ g'.2.2 = g.2) (fun _ _ => False)
          (l', g') := by
      intro r g' l l' hpins hr
      have hih := ih r (hk r) l hr l'
      rwa [hpins] at hih
    change post _ _ (Api.serve rt op c.toApiChoice g.1).1 _ at hstep
    cases hr : (Api.serve rt op c.toApiChoice g.1).1 with
    | ok a =>
      rw [hr] at hstep
      exact hnext (.ok a) _ _ _ rfl hstep
    | error e =>
      rw [hr] at hstep
      exact hnext (.error e) _ _ _ rfl hstep

/-- The data key is the one of the setup. -/
theorem returns_resolveEvidenceDataKey :
    Returns (V.world rt) (invoke .resolveEvidenceDataKey) (fun key g' => key = V.key ∧ g' = g) g :=
  .call fun _ _ => ⟨V.key, rfl, rfl, rfl⟩

/-- An upload: what is pinned under the new identifier is the payload. -/
theorem returns_ipfsUpload (input : UploadToIpfsInput) :
    Returns (V.world rt) (invoke (.ipfsUpload input))
      (fun r g' => g'.1 = g.1 ∧ r.provider = V.provider ∧ (V.provider = .pinata → r.cid ≠ "" ∧
        ∃ iv, iv.length = 12 ∧ g'.2.lookup r.cid = some (input.buffer.bytes V.cipher iv))) g := by
  refine .call fun c hc => ⟨(V.upload input c g.2).1, rfl, rfl, ?_⟩
  have hadmits : V.admits input c g.2 = true := (Bool.and_eq_true_iff.mp hc).2
  show (V.upload input c g.2).1.provider = V.provider ∧ (V.provider = .pinata →
    (V.upload input c g.2).1.cid ≠ "" ∧ ∃ iv, iv.length = 12 ∧
      (V.upload input c g.2).2.lookup (V.upload input c g.2).1.cid =
        some (input.buffer.bytes V.cipher iv))
  unfold VaultSetup.upload
  cases hprovider : V.provider with
  | mock => exact ⟨rfl, fun h => by cases h⟩
  | pinata =>
    unfold VaultSetup.admits at hadmits
    simp only [hprovider, Bool.or_eq_true, Bool.and_eq_true, decide_eq_true_eq] at hadmits
    -- the new pin stands in front of all earlier ones under the same identifier
    rcases hadmits with hmock | ⟨⟨hcid, hiv⟩, -⟩
    · cases hmock
    · exact ⟨rfl, fun _ => ⟨hcid, c.iv, hiv, List.lookup_cons_self⟩⟩

/-- The gateway answers with what is pinned. -/
theorem returns_fetch {cid : String} {content : List UInt8} (h : g.2.lookup cid = some content) :
    Returns (V.world rt) (invoke (.fetchEvidenceBytesFromPublicGateway cid))
      (fun body g' => body = content ∧ g' = g) g := by
  refine .call fun c _ => ⟨content, ?_⟩
  have hserve : V.serve rt (.inr (.fetchEvidenceBytesFromPublicGateway cid)) c g =
      (.ok content, g) := by
    simp only [VaultSetup.serve, h]
  show (V.serve rt (.inr (.fetchEvidenceBytesFromPublicGateway cid)) c g).1 = _ ∧ _ ∧
    (V.serve rt (.inr (.fetchEvidenceBytesFromPublicGateway cid)) c g).2 = g
  rw [hserve]
  exact ⟨rfl, rfl, rfl⟩

end Rules

end Bluesafe.Api
