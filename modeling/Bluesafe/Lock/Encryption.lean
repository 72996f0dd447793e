import Bluesafe.ForStd.Aead
import Bluesafe.ForStd.Base64
import Bluesafe.ForStd.Except
import Bluesafe.ForStd.Utf8
import Bluesafe.Lock.Service

/-!
# The encryption of the columns

`AesGcmEncryptionService` (`shared/crypto/aes-gcm-encryption.service.ts`). A master key that is
missing or has a wrong length is reported by every use of the service and not by its constructor,
so all encryptions of a process fail or none does (`encrypt_isOk`). A text comes out of the three
parts of a package only (`unpackageWith_ok`).
-/

namespace Bluesafe.Lock

open Bluesafe.Ops (truthy)

/-- AES-256-GCM, with tags of 16 bytes. -/
abbrev GcmCipher : Type := Aead UInt8 16

/-- `Buffer.from(s, 'base64')`. -/
def fromBase64 (s : String) : List UInt8 := (Base64.read s.toList).map UInt8.ofNat

/-- `buffer.toString('base64')`. -/
def toBase64 (bytes : List UInt8) : String :=
  String.ofList (Base64.encodePadded (bytes.map UInt8.toNat))

/-- `requireKey`, with the key or the error that the constructor has kept. -/
def requireKey (masterKey : Option String) : Except String (List UInt8) :=
  match truthy masterKey with
  | none => .error "ENCRYPTION_MASTER_KEY is not configured"
  | some masterKey =>
    let decoded := fromBase64 masterKey
    if decoded.length ≠ 32 then
      .error ("ENCRYPTION_MASTER_KEY must be 32 bytes base64 (got " ++ toString decoded.length ++
        " bytes)")
    else .ok decoded

/-- The bytes of an initialisation vector, one for each character. -/
def ivBytes (iv : String) : List UInt8 := iv.toList.map fun c => UInt8.ofNat c.toNat

/-- The package: the vector, the tag and the ciphertext. -/
def package (cipher : GcmCipher) (key iv : List UInt8) (plaintext : String) : String :=
  let sealed := cipher.encrypt key iv (plaintext.toList.flatMap String.utf8EncodeChar)
  toBase64 (iv ++ (sealed.2 ++ sealed.1))

/-- `encrypt`. -/
def encrypt (cipher : GcmCipher) (masterKey : Option String) (iv plaintext : String) :
    Except String String := do
  let key ← requireKey masterKey
  return package cipher key (ivBytes iv) plaintext

/-- The text of the bytes of a package. -/
def unpackage (cipher : GcmCipher) (key buf : List UInt8) : Except String String :=
  if buf.length < 12 + 16 then .error "ciphertext too short"
  else
    match cipher.decrypt key (buf.take 12) (buf.drop 28) ((buf.drop 12).take 16) with
    | some plaintext => .ok (String.ofList (Utf8.decode (plaintext.map UInt8.toNat)))
    | none => .error "Unsupported state or unable to authenticate data"

/-- `decrypt`. -/
def decrypt (cipher : GcmCipher) (masterKey : Option String) (packaged : String) :
    Except String String := do
  let key ← requireKey masterKey
  unpackage cipher key (fromBase64 packaged)

/-- `AesGcmEncryptionService`. -/
def aesGcmEncryptionService (cipher : GcmCipher) (masterKey : Option String) : Encryption where
  encrypt := encrypt cipher masterKey
  decrypt := decrypt cipher masterKey

/-! ## Any cipher -/

/-- How a cipher opens: from a key, a vector, a ciphertext and a tag. -/
abbrev Opener : Type := (key iv ciphertext tag : List UInt8) → Option (List UInt8)

/-- The text of decrypted bytes. -/
def textOf (plain : List UInt8) : String := String.ofList (Utf8.decode (plain.map UInt8.toNat))

/-- The text of the bytes of a package, by any cipher. -/
def unpackageWith (opens : Opener) (key buf : List UInt8) : Except String String :=
  if buf.length < 12 + 16 then .error "ciphertext too short"
  else
    match opens key (buf.take 12) (buf.drop 28) ((buf.drop 12).take 16) with
    | some plaintext => .ok (textOf plaintext)
    | none => .error "Unsupported state or unable to authenticate data"

variable {cipher : GcmCipher} {masterKey : Option String}

theorem unpackage_eq (cipher : GcmCipher) (key buf : List UInt8) :
    unpackage cipher key buf = unpackageWith cipher.decrypt key buf := rfl

/-- A text comes out of the three parts only. -/
theorem unpackageWith_ok {opens : Opener} {key buf : List UInt8} {s : String} :
    unpackageWith opens key buf = .ok s ↔ ∃ iv tag ciphertext plain,
      buf = iv ++ (tag ++ ciphertext) ∧ iv.length = 12 ∧ tag.length = 16 ∧
      opens key iv ciphertext tag = some plain ∧ s = textOf plain := by
  constructor
  · intro h
    unfold unpackageWith at h
    split at h
    · cases h
    · rename_i hlength
      split at h
      · rename_i plain hopen
        cases h
        have htail : buf.drop 28 = (buf.drop 12).drop 16 := by rw [List.drop_drop]
        refine ⟨buf.take 12, (buf.drop 12).take 16, buf.drop 28, plain, ?_, ?_, ?_, hopen, rfl⟩
        · rw [htail, List.take_append_drop, List.take_append_drop]
        · rw [List.length_take]
          omega
        · rw [List.length_take, List.length_drop]
          omega
      · cases h
  · rintro ⟨iv, tag, ciphertext, plain, rfl, hiv, htag, hopen, rfl⟩
    have hrest : (iv ++ (tag ++ ciphertext)).drop 12 = tag ++ ciphertext := List.drop_left' hiv
    have hbody : (iv ++ (tag ++ ciphertext)).drop 28 = ciphertext := by
      rw [← List.append_assoc]
      exact List.drop_left' (by rw [List.length_append, hiv, htag])
    unfold unpackageWith
    rw [if_neg (by simp; omega), List.take_left' hiv, hrest, List.take_left' htag, hbody, hopen]

/-- Only the key decides whether an encryption succeeds. -/
theorem encrypt_isOk (iv plaintext : String) :
    (encrypt cipher masterKey iv plaintext).isOk = (requireKey masterKey).isOk := by
  unfold encrypt
  cases requireKey masterKey with
  | ok key => rfl
  | error e => rfl

/-! ## Packages are read back -/

theorem fromBase64_toBase64 (bytes : List UInt8) : fromBase64 (toBase64 bytes) = bytes := by
  have hlt : ∀ b ∈ bytes.map UInt8.toNat, b < 256 := by
    intro b hb
    obtain ⟨u, -, rfl⟩ := List.mem_map.mp hb
    exact u.toNat_lt
  unfold fromBase64 toBase64
  rw [String.toList_ofList, Base64.read_encodePadded hlt, List.map_map]
  exact List.map_id'' (fun u => UInt8.ofNat_toNat) _

theorem textOf_utf8 (s : String) : textOf (s.toList.flatMap String.utf8EncodeChar) = s := by
  have hback : Utf8.decode ((s.toList.flatMap String.utf8EncodeChar).map UInt8.toNat) = s.toList :=
    Utf8.decode_encode s.toList
  unfold textOf
  rw [hback, String.ofList_toList]

theorem unpackage_package {key iv : List UInt8} (hiv : iv.length = 12) (plaintext : String) :
    unpackage cipher key (fromBase64 (package cipher key iv plaintext)) = .ok plaintext := by
  have htag := cipher.length_tag key iv (plaintext.toList.flatMap String.utf8EncodeChar)
  have hopen := (cipher.decrypt_eq_some key iv _ _ (plaintext.toList.flatMap String.utf8EncodeChar)).mpr
    rfl
  unfold package
  rw [fromBase64_toBase64, unpackage_eq]
  exact unpackageWith_ok.mpr ⟨iv, _, _, _, rfl, hiv, htag, hopen, (textOf_utf8 plaintext).symm⟩

/-- Decryption undoes encryption under the same key. -/
theorem decrypt_encrypt {iv plaintext packaged : String} (hiv : (ivBytes iv).length = 12)
    (h : encrypt cipher masterKey iv plaintext = .ok packaged) :
    decrypt cipher masterKey packaged = .ok plaintext := by
  unfold encrypt at h
  obtain ⟨key, hkey, h⟩ := Except.exists_of_bind_eq_ok h
  replace h : Except.ok (package cipher key (ivBytes iv) plaintext) = Except.ok packaged := h
  rw [Except.ok.injEq] at h
  unfold decrypt
  rw [hkey, ← h]
  simp only [bind, Except.bind]
  rw [unpackage_package hiv]

end Bluesafe.Lock
