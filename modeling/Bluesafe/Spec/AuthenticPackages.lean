import Bluesafe.ForStd.Sealing
import Bluesafe.ForStd.Utf16
import Bluesafe.Lock.Encryption

/-!
# Only authentic packages are decrypted

The package of a text is read back as that text, and nothing is read from a text that does not hold
the three parts of an authentic package (`unpackageWith_ok`). With a cipher that opens only what it has
encrypted, the accepted packages are the issued ones, and two of them differ in more than one byte
(`eq_of_set`). So a package of which a byte was changed is refused.

A text of Base64 has other spellings with the same bytes. It is the bytes that are authentic.
-/

namespace Bluesafe.Lock

open Bluesafe.Ops (truthy)

/-- The bytes of a key or a vector. -/
abbrev Bytes (n : ℕ) : Type := {bytes : List UInt8 // bytes.length = n}

/-- The bytes of a text. -/
def utf8 (s : String) : List UInt8 := s.toList.flatMap String.utf8EncodeChar

/-- The bytes of the package of a message. -/
def packageBytes (cipher : GcmCipher) (x : Sealing UInt8) : List UInt8 :=
  x.iv ++ (x.tag cipher ++ x.ciphertext cipher)

/-- `decrypt` by any cipher. -/
def decryptWith (opens : Opener) (masterKey : Option String) (packaged : String) :
    Except String String := do
  let key ← requireKey masterKey
  unpackageWith opens key (fromBase64 packaged)

/-- Decryption is that of the cipher. -/
theorem decrypt_eq (cipher : GcmCipher) (masterKey : Option String) :
    decrypt cipher masterKey = decryptWith cipher.decrypt masterKey := rfl

/-- The setting of a key. -/
def keyText (key : Bytes 32) : Option String := some (toBase64 key.val)

/-- The text of a vector. -/
def ivText (iv : Bytes 12) : String := String.ofList (iv.val.map fun b => Char.ofNat b.toNat)

/-! ## Keys and vectors -/

/-- A key of 32 bytes is accepted, and read back. -/
theorem requireKey_keyText (key : Bytes 32) : requireKey (keyText key) = .ok key.val := by
  have hread := fromBase64_toBase64 key.val
  -- an empty setting counts as missing, and 32 bytes are not written as an empty text
  have hne : toBase64 key.val ≠ "" := by
    intro hempty
    rw [hempty] at hread
    have hlength := key.property
    rw [← hread] at hlength
    cases hlength
  have htruthy : truthy (keyText key) = some (toBase64 key.val) := by
    simp [truthy, keyText, hne]
  unfold requireKey
  rw [htruthy]
  dsimp only
  rw [hread, if_neg (not_not.mpr key.property)]

/-- So are the bytes of a nonce. -/
theorem ivBytes_ivText (iv : Bytes 12) : ivBytes (ivText iv) = iv.val := by
  have hbyte : ∀ b : UInt8, UInt8.ofNat (Char.ofNat b.toNat).toNat = b := by
    intro b
    have hlt := b.toNat_lt
    rw [JsString.toNat_ofNat_of_valid (by omega), UInt8.ofNat_toNat]
  unfold ivBytes ivText
  rw [String.toList_ofList, List.map_map]
  exact List.map_id'' hbyte _

/-! ## The parts of a package -/

variable {cipher : GcmCipher} {opens : Opener} {key buf : List UInt8} {s : String}

/-- A package is opened with the bytes of the key. -/
theorem decryptWith_keyText (opens : Opener) (key : Bytes 32) (q : String) :
    decryptWith opens (keyText key) q = unpackageWith opens key.val (fromBase64 q) := by
  unfold decryptWith
  rw [requireKey_keyText]
  rfl

/-- What is too short for nonce and tag is refused. -/
theorem unpackageWith_short (opens : Opener) (key : List UInt8) (h : buf.length < 28) :
    unpackageWith opens key buf = .error "ciphertext too short" :=
  if_pos h

/-! ## Changed packages -/

/-- Of the packages that an ideal cipher has issued under a key, two differ in more than one byte. -/
theorem eq_of_set {log : cipher.Log} {x y : Sealing UInt8} (hx : x ∈ log.sealings)
    (hy : y ∈ log.sealings) (hkey : y.key = x.key) (hivx : x.iv.length = 12) (hivy : y.iv.length = 12)
    {i : ℕ} {b : UInt8} (h : packageBytes cipher y = (packageBytes cipher x).set i b) : y = x := by
  -- both tags have 16 bytes, so the parts of the two packages are at the same places
  have htags : (y.tag cipher).length = (x.tag cipher).length := by simp
  unfold packageBytes at h
  rw [List.set_append] at h
  split at h
  · -- the change is in the vector: the tags are equal
    obtain ⟨-, hrest⟩ := List.append_inj h (by rw [hivy, List.length_set, hivx])
    obtain ⟨htag, -⟩ := List.append_inj hrest htags
    exact log.tag_inj y hy x hx hkey htag
  · obtain ⟨hiv, hrest⟩ := List.append_inj h (by rw [hivy, hivx])
    rw [List.set_append] at hrest
    split at hrest
    · -- the change is in the tag: the vectors and the ciphertexts are equal
      obtain ⟨-, hciphertext⟩ := List.append_inj hrest (by rw [htags, List.length_set])
      exact log.ciphertext_inj y hy x hx hkey hiv hciphertext
    · -- the change is in the ciphertext: the tags are equal
      obtain ⟨htag, -⟩ := List.append_inj hrest htags
      exact log.tag_inj y hy x hx hkey htag

/-- What an ideal cipher accepts was issued. -/
theorem exists_sealing {log : cipher.Log} (h : unpackageWith log.opens key buf = .ok s) :
    ∃ x ∈ log.sealings, x.key = key ∧ x.iv.length = 12 ∧ buf = packageBytes cipher x ∧
      s = textOf x.plain := by
  obtain ⟨iv, tag, ciphertext, plain, rfl, hiv, -, hopen, rfl⟩ := unpackageWith_ok.mp h
  obtain ⟨hmem, hencrypt⟩ := Aead.Log.opens_eq_some.mp hopen
  refine ⟨⟨key, iv, plain⟩, hmem, rfl, hiv, ?_, rfl⟩
  unfold packageBytes Sealing.tag Sealing.ciphertext
  rw [hencrypt]

/-- A package of the log is opened. -/
theorem unpackageWith_packageBytes {log : cipher.Log} {x : Sealing UInt8} (hx : x ∈ log.sealings)
    (hiv : x.iv.length = 12) :
    unpackageWith log.opens x.key (packageBytes cipher x) = .ok (textOf x.plain) :=
  unpackageWith_ok.mpr ⟨x.iv, x.tag cipher, x.ciphertext cipher, x.plain, rfl, hiv, x.length_tag cipher,
    Aead.Log.opens_sealing hx, rfl⟩

example (cipher : GcmCipher) (key : Bytes 32) (iv : Bytes 12) :
    let x : Sealing UInt8 := ⟨key.val, iv.val, utf8 ""⟩
    unpackageWith (Aead.Log.single cipher x).opens key.val (packageBytes cipher x) = .ok "" :=
  unpackageWith_packageBytes List.mem_cons_self iv.property

/-- A package of which a byte was changed is refused. -/
theorem unpackageWith_set {log : cipher.Log} {x : Sealing UInt8} (hx : x ∈ log.sealings)
    (hiv : x.iv.length = 12) {i : ℕ} {b : UInt8}
    (hne : (packageBytes cipher x).set i b ≠ packageBytes cipher x) :
    ∃ e, unpackageWith log.opens x.key ((packageBytes cipher x).set i b) = .error e := by
  cases hresult : unpackageWith log.opens x.key ((packageBytes cipher x).set i b) with
  | error e => exact ⟨e, rfl⟩
  | ok s =>
    obtain ⟨y, hy, hkey, hivy, hset, -⟩ := exists_sealing hresult
    have heq := eq_of_set hx hy hkey hiv hivy hset.symm
    rw [heq] at hset
    exact absurd hset hne

/-! ## The service -/

/-- The package of a text holds the bytes of its message. -/
theorem encrypt_keyText (cipher : GcmCipher) (key : Bytes 32) (iv : Bytes 12) (s : String) :
    encrypt cipher (keyText key) (ivText iv) s =
      .ok (toBase64 (packageBytes cipher ⟨key.val, iv.val, utf8 s⟩)) := by
  unfold encrypt
  rw [requireKey_keyText, ivBytes_ivText]
  rfl

/-- Encrypted texts are read back, by the cipher and, once they are recorded, by an ideal one. What is
    accepted holds an authentic package, which for an ideal cipher is an issued one, so none with a
    changed byte; and what is shorter than a vector and a tag is refused. -/
theorem packages_authentic (cipher : GcmCipher) (log : cipher.Log) (key : Bytes 32) :
    (∀ (iv : Bytes 12) (s : String), ∃ packaged,
      encrypt cipher (keyText key) (ivText iv) s = .ok packaged ∧
      decrypt cipher (keyText key) packaged = .ok s ∧
      (⟨key.val, iv.val, utf8 s⟩ ∈ log.sealings →
        decryptWith log.opens (keyText key) packaged = .ok s ∧
        ∀ q i b, fromBase64 q = (fromBase64 packaged).set i b → fromBase64 q ≠ fromBase64 packaged →
          ∃ e, decryptWith log.opens (keyText key) q = .error e)) ∧
    (∀ q s, decrypt cipher (keyText key) q = .ok s → ∃ iv tag ciphertext plain,
      fromBase64 q = iv ++ (tag ++ ciphertext) ∧ iv.length = 12 ∧ tag.length = 16 ∧
      cipher.encrypt key.val iv plain = (ciphertext, tag) ∧ s = textOf plain) ∧
    (∀ q s, decryptWith log.opens (keyText key) q = .ok s → ∃ x ∈ log.sealings,
      x.key = key.val ∧ x.iv.length = 12 ∧ fromBase64 q = packageBytes cipher x ∧
      s = textOf x.plain) ∧
    ∀ q, (fromBase64 q).length < 28 →
      decrypt cipher (keyText key) q = .error "ciphertext too short" ∧
      decryptWith log.opens (keyText key) q = .error "ciphertext too short" := by
  rw [decrypt_eq]
  simp only [decryptWith_keyText, encrypt_keyText]
  refine ⟨?_, ?_, fun q s h => exists_sealing h,
    fun q h => ⟨unpackageWith_short _ _ h, unpackageWith_short _ _ h⟩⟩
  · intro iv s
    have htext : textOf (utf8 s) = s := textOf_utf8 s
    have hauthentic : unpackageWith cipher.decrypt key.val
        (packageBytes cipher ⟨key.val, iv.val, utf8 s⟩) = .ok s :=
      unpackageWith_ok.mpr ⟨iv.val, _, _, utf8 s, rfl, iv.property, Sealing.length_tag _ cipher,
        (cipher.decrypt_eq_some key.val iv.val _ _ _).mpr rfl, htext.symm⟩
    refine ⟨_, rfl, by rw [fromBase64_toBase64, hauthentic], fun hrecorded => ⟨?_, ?_⟩⟩
    · have hissued := unpackageWith_packageBytes hrecorded iv.property
      rw [htext] at hissued
      rw [fromBase64_toBase64]
      exact hissued
    · intro q i b hset hne
      rw [fromBase64_toBase64] at hset hne
      rw [hset] at hne ⊢
      exact unpackageWith_set hrecorded iv.property hne
  · intro q s h
    obtain ⟨iv, tag, ciphertext, plain, hq, hiv, htag, hopen, hs⟩ := unpackageWith_ok.mp h
    exact ⟨iv, tag, ciphertext, plain, hq, hiv, htag, (cipher.decrypt_eq_some _ _ _ _ _).mp hopen, hs⟩

/-! ## Two issued packages -/

/-- The tag of a vector: its first sixteen bytes, with zeros behind them. -/
def vectorTag (iv : List UInt8) : List UInt8 := (iv ++ List.replicate 16 0).take 16

/-- A tag has sixteen bytes. -/
theorem length_vectorTag (iv : List UInt8) : (vectorTag iv).length = 16 := by
  simp [vectorTag]

/-- A cipher that leaves the message alone and whose tag is that of the vector. -/
def plainCipher : GcmCipher where
  encrypt _ iv plain := (plain, vectorTag iv)
  decrypt _ iv ciphertext tag := if tag = vectorTag iv then some ciphertext else none
  length_ciphertext _ _ _ := rfl
  length_tag _ iv _ := length_vectorTag iv
  decrypt_eq_some _ iv ciphertext tag plain := by
    rw [Option.ite_none_right_eq_some, Option.some.injEq, Prod.mk.injEq]
    exact ⟨fun h => ⟨h.2.symm, h.1.symm⟩, fun h => ⟨h.2.symm, h.1.symm⟩⟩

def sampleKey : Bytes 32 := ⟨List.replicate 32 7, List.length_replicate⟩

def sampleVector (b : UInt8) : Bytes 12 := ⟨List.replicate 12 b, List.length_replicate⟩

/-- The message that holds a text, encrypted with the vector of `b`. -/
def sampleSealing (b : UInt8) (s : String) : Sealing UInt8 :=
  ⟨sampleKey.val, (sampleVector b).val, utf8 s⟩

/-- Two messages with the same key and different vectors. -/
def sampleSealings : List (Sealing UInt8) := [sampleSealing 1 "deposit", sampleSealing 2 "stake"]

/-- The tags of the sample are different. -/
theorem sampleSealings_tag : ∀ x ∈ sampleSealings, ∀ y ∈ sampleSealings, x.key = y.key →
    x.tag plainCipher = y.tag plainCipher → x = y := by decide +kernel

/-- So are its ciphertexts. -/
theorem sampleSealings_ciphertext : ∀ x ∈ sampleSealings, ∀ y ∈ sampleSealings, x.key = y.key →
    x.iv = y.iv → x.ciphertext plainCipher = y.ciphertext plainCipher → x = y := by decide +kernel

/-- The log of these messages. -/
def issued : plainCipher.Log := ⟨sampleSealings, sampleSealings_tag, sampleSealings_ciphertext⟩

/-- Changing one byte makes another package. -/
theorem packageBytes_changed : (packageBytes plainCipher (sampleSealing 2 "stake")).set 28 0 ≠
    packageBytes plainCipher (sampleSealing 2 "stake") := by decide +kernel

/-- The package of an issued text is read back; with a byte of the ciphertext changed it is refused, and
    so is a package of three bytes. -/
theorem packages_authentic_issued :
    ∃ packaged, encrypt plainCipher (keyText sampleKey) (ivText (sampleVector 2)) "stake" = .ok packaged ∧
      decrypt plainCipher (keyText sampleKey) packaged = .ok "stake" ∧
      decryptWith issued.opens (keyText sampleKey) packaged = .ok "stake" ∧
      (∃ e, decryptWith issued.opens (keyText sampleKey)
        (toBase64 ((fromBase64 packaged).set 28 0)) = .error e) ∧
      decryptWith issued.opens (keyText sampleKey) "AAAA" = .error "ciphertext too short" := by
  obtain ⟨hread, -, -, hshort⟩ := packages_authentic plainCipher issued sampleKey
  obtain ⟨packaged, hencrypt, hdecrypt, hissued⟩ := hread (sampleVector 2) "stake"
  have hmem : sampleSealing 2 "stake" ∈ issued.sealings := List.mem_cons_of_mem _ List.mem_cons_self
  obtain ⟨hopened, hchanged⟩ := hissued hmem
  have htext : packaged = toBase64 (packageBytes plainCipher (sampleSealing 2 "stake")) := by
    rw [encrypt_keyText] at hencrypt
    exact (Except.ok.inj hencrypt).symm
  have hbytes : fromBase64 packaged = packageBytes plainCipher (sampleSealing 2 "stake") := by
    rw [htext, fromBase64_toBase64]
  -- the changed byte is the first letter
  have hne : (fromBase64 packaged).set 28 0 ≠ fromBase64 packaged := by
    rw [hbytes]
    exact packageBytes_changed
  have hset := fromBase64_toBase64 ((fromBase64 packaged).set 28 0)
  have hthree : (fromBase64 "AAAA").length < 28 := by decide +kernel
  refine ⟨packaged, hencrypt, hdecrypt, hopened, ?_, (hshort _ hthree).2⟩
  exact hchanged _ 28 0 hset fun heq => hne (hset.symm.trans heq)

end Bluesafe.Lock
