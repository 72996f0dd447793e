import Mathlib.Data.List.Basic

/-!
# Authenticated encryption

`Aead` is a cipher whose decryption accepts exactly what its encryption produces. An encrypted
message is kept as the frame nonce, ciphertext, tag; `frame` and `unframe` put it together and take it
apart, and `unpack_eq_some_iff` says which frames open.
-/

namespace Aead

variable {β : Type} {ivLength tagLength : Nat}

/-! ## Frames -/

/-- The three parts of a frame, one after the other. -/
def frame (iv ciphertext tag : List β) : List β := iv ++ ciphertext ++ tag

/-- The parts of a frame: the first `ivLength` elements, the last `tagLength`, and what is
    between them. Nothing if the frame is shorter than the two. -/
def unframe (ivLength tagLength : Nat) (payload : List β) :
    Option (List β × List β × List β) :=
  if payload.length < ivLength + tagLength then none
  else some (payload.take ivLength,
    (payload.take (payload.length - tagLength)).drop ivLength,
    payload.drop (payload.length - tagLength))

@[simp] theorem length_frame (iv ciphertext tag : List β) :
    (frame iv ciphertext tag).length = iv.length + ciphertext.length + tag.length := by
  simp [frame, Nat.add_assoc]

/-- A frame splits into its parts, whatever their lengths. -/
theorem unframe_frame {iv ciphertext tag : List β} (hiv : iv.length = ivLength)
    (htag : tag.length = tagLength) :
    unframe ivLength tagLength (frame iv ciphertext tag) = some (iv, ciphertext, tag) := by
  have hlen : ¬(frame iv ciphertext tag).length < ivLength + tagLength := by
    rw [length_frame]
    omega
  have hcut : (frame iv ciphertext tag).length - tagLength = (iv ++ ciphertext).length := by
    rw [length_frame, List.length_append]
    omega
  unfold unframe
  rw [if_neg hlen, hcut]
  subst hiv
  refine congrArg some (Prod.ext ?_ (Prod.ext ?_ ?_))
  · simp [frame]
  · show ((iv ++ ciphertext ++ tag).take (iv ++ ciphertext).length).drop iv.length = ciphertext
    rw [List.take_left, List.drop_left]
  · exact List.drop_left

/-- What was taken apart is a frame again. -/
theorem eq_frame_of_unframe {payload iv ciphertext tag : List β}
    (h : unframe ivLength tagLength payload = some (iv, ciphertext, tag)) :
    payload = frame iv ciphertext tag ∧ iv.length = ivLength ∧ tag.length = tagLength := by
  unfold unframe at h
  split at h
  · cases h
  · rename_i hlen
    simp only [Option.some.injEq, Prod.mk.injEq] at h
    obtain ⟨rfl, rfl, rfl⟩ := h
    refine ⟨?_, ?_, ?_⟩
    · have hfront : payload.take ivLength =
          (payload.take (payload.length - tagLength)).take ivLength := by
        rw [List.take_take, Nat.min_eq_left (by omega)]
      unfold frame
      rw [hfront, List.take_append_drop, List.take_append_drop]
    · rw [List.length_take]
      omega
    · rw [List.length_drop]
      omega

end Aead

/-! ## Ciphers -/

/-- An authenticated cipher with nonces and tags of fixed lengths: the ciphertext is as long as
    the message, and exactly what was encrypted is decrypted. -/
structure Aead (β : Type) (tagLength : Nat) where
  encrypt : (key iv plain : List β) → List β × List β
  decrypt : (key iv ciphertext tag : List β) → Option (List β)
  length_ciphertext : ∀ key iv plain, (encrypt key iv plain).1.length = plain.length
  length_tag : ∀ key iv plain, (encrypt key iv plain).2.length = tagLength
  decrypt_eq_some : ∀ key iv ciphertext tag plain,
    decrypt key iv ciphertext tag = some plain ↔ encrypt key iv plain = (ciphertext, tag)

namespace Aead

variable {β : Type} {ivLength tagLength : Nat} {cipher : Aead β tagLength} {key iv plain payload : List β}

/-- The frame of an encrypted message. -/
def pack (cipher : Aead β tagLength) (key iv plain : List β) : List β :=
  frame iv (cipher.encrypt key iv plain).1 (cipher.encrypt key iv plain).2

/-- The message of a frame. -/
def unpack (cipher : Aead β tagLength) (ivLength : Nat) (key payload : List β) : Option (List β) :=
  (unframe ivLength tagLength payload).bind fun parts =>
    cipher.decrypt key parts.1 parts.2.1 parts.2.2

theorem length_pack : (cipher.pack key iv plain).length = iv.length + plain.length + tagLength := by
  rw [pack, length_frame, cipher.length_ciphertext, cipher.length_tag]

/-- Exactly the packed messages open. -/
theorem unpack_eq_some_iff :
    cipher.unpack ivLength key payload = some plain ↔
      ∃ iv, iv.length = ivLength ∧ payload = cipher.pack key iv plain := by
  constructor
  · intro h
    obtain ⟨⟨iv, ciphertext, tag⟩, hparts, hplain⟩ := Option.bind_eq_some_iff.mp h
    obtain ⟨hpayload, hiv, -⟩ := eq_frame_of_unframe hparts
    have hencrypt := (cipher.decrypt_eq_some key iv ciphertext tag plain).mp hplain
    refine ⟨iv, hiv, ?_⟩
    rw [hpayload, pack, hencrypt]
  · rintro ⟨iv, hiv, rfl⟩
    unfold unpack pack
    rw [unframe_frame hiv (cipher.length_tag key iv plain)]
    exact (cipher.decrypt_eq_some key iv _ _ plain).mpr rfl

/-- What opens is shorter than its frame. -/
theorem length_of_unpack (h : cipher.unpack ivLength key payload = some plain) :
    payload.length = ivLength + plain.length + tagLength := by
  obtain ⟨iv, hiv, rfl⟩ := unpack_eq_some_iff.mp h
  rw [length_pack, hiv]

end Aead
