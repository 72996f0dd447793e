import Bluesafe.ForStd.Der
import Bluesafe.ForStd.Sha256
import Bluesafe.Judge.Types

/-!
# Crypto-conditions

`packages/xrpl-core/src/lib/condition.ts`, and a strict reader of what it writes: a PREIMAGE-SHA-256
condition is an element of tag `a0` with the fingerprint (tag `80`, 32 octets) and the cost (tag
`81`, an INTEGER), and its fulfillment is one with the preimage (tag `80`).
-/

namespace Bluesafe.Escrow

open Bluesafe.Judge (bytesOfDigits bytesOfHex bytesToHex hexDigitValue)

/-! ## Hexadecimal -/

/-- The bytes of a text that is hexadecimal as a whole. -/
def hexBytes (cs : List Char) : Option (List UInt8) :=
  if cs.length = 2 * (bytesOfDigits cs).length then some (bytesOfDigits cs) else none

/-- A digit in either case. -/
theorem toUpper_eq_iff {c : Char} {n : ℕ} (hn : n < 16) :
    c.toUpper = Text.upperHexDigit n ↔ hexDigitValue c = some n := by
  by_cases hc : c.toNat < 128
  -- the ASCII characters are tried one by one
  · have hall : ∀ (k : Fin 128) (n : Fin 16), (Char.ofNat k).toUpper = Text.upperHexDigit n ↔
        hexDigitValue (Char.ofNat k) = some n.val := by decide +kernel
    have h := hall ⟨c.toNat, hc⟩ ⟨n, hn⟩
    -- the number of the character is its place in the table
    rw [Char.ofNat_toNat] at h
    exact h
  · -- a character that is not ASCII is neither
    -- such a character lies after `'f'`, so no range of digits contains it
    have hz : ¬ c ≤ 'f' := fun hle => hc (Nat.lt_of_le_of_lt (m := 102) hle (by omega))
    have hupper : c.toUpper = c := by
      unfold Char.toUpper
      rw [dif_neg]
      rintro ⟨-, hle⟩
      exact hc (Nat.lt_of_le_of_lt (m := 122) hle (by omega))
    have hdigit : ∀ n : Fin 16, (Text.upperHexDigit n).toNat < 128 := by decide
    have hvalue : hexDigitValue c = none := by
      unfold hexDigitValue
      rw [if_neg, if_neg, if_neg]
      · exact fun h => hz (Char.le_trans h.2 (by decide))
      · exact fun h => hz h.2
      · exact fun h => hz (Char.le_trans h.2 (by decide))
    rw [hupper, hvalue]
    constructor
    · rintro rfl
      exact absurd (hdigit ⟨n, hn⟩) hc
    · intro h
      cases h

/-- A digit is worth less than sixteen. -/
theorem hexDigitValue_lt {c : Char} {n : ℕ} (h : hexDigitValue c = some n) : n < 16 := by
  unfold hexDigitValue at h
  split at h
  -- a decimal digit
  · rename_i hc
    cases h
    have : c.toNat ≤ 57 := hc.2
    omega
  · split at h
    -- a lower-case letter
    · rename_i hc
      cases h
      have : c.toNat ≤ 102 := hc.2
      omega
    · split at h
      -- an upper-case one
      · rename_i hc
        cases h
        have : c.toNat ≤ 70 := hc.2
        omega
      · cases h

/-- A pair of digits in either case. -/
theorem map_toUpper_pair_iff {a b : Char} {byte : UInt8} :
    [a.toUpper, b.toUpper] = Text.hexByte byte ↔
      hexDigitValue a = some (byte.toNat / 16) ∧ hexDigitValue b = some (byte.toNat % 16) := by
  have hbyte := byte.toNat_lt
  unfold Text.hexByte
  rw [← toUpper_eq_iff (by omega), ← toUpper_eq_iff (by omega)]
  simp

/-- The first byte is read from the first two digits. -/
theorem bytesOfDigits_eq_cons_iff {a b : Char} {rest : List Char} {byte : UInt8} {bytes : List UInt8} :
    bytesOfDigits (a :: b :: rest) = byte :: bytes ↔
      (hexDigitValue a = some (byte.toNat / 16) ∧ hexDigitValue b = some (byte.toNat % 16)) ∧
        bytesOfDigits rest = bytes := by
  have hbyte := byte.toNat_lt
  rw [bytesOfDigits]
  -- the pair is a byte only when both of its characters are digits
  cases hhi : hexDigitValue a with
  | none => simp
  | some hi =>
    cases hlo : hexDigitValue b with
    | none => simp
    | some lo =>
      have hhi' := hexDigitValue_lt hhi
      have hlo' := hexDigitValue_lt hlo
      -- a byte is its two halves
      have hpair : UInt8.ofNat (16 * hi + lo) = byte ↔
          hi = byte.toNat / 16 ∧ lo = byte.toNat % 16 := by
        rw [← UInt8.toNat_inj, UInt8.toNat_ofNat']
        omega
      simp only [List.cons.injEq, hpair, Option.some.injEq]

/-- A text is hexadecimal as a whole iff every byte takes two of its characters. -/
theorem hexBytes_eq_some_iff {cs : List Char} {bytes : List UInt8} :
    hexBytes cs = some bytes ↔ cs.length = 2 * bytes.length ∧ bytesOfDigits cs = bytes := by
  -- the bytes are returned only when no character is left over
  unfold hexBytes
  split
  · rename_i hlength
    constructor
    · intro h
      cases h
      exact ⟨hlength, rfl⟩
    · rintro ⟨-, h⟩
      rw [h]
  · rename_i hlength
    constructor
    · intro h
      cases h
    · rintro ⟨h, hbytes⟩
      rw [hbytes] at hlength
      exact absurd h hlength

/-- A text is the hexadecimal of `bytes` up to the case of the digits iff it is read as `bytes`. -/
theorem map_toUpper_eq_iff {cs : List Char} {bytes : List UInt8} :
    cs.map Char.toUpper = bytes.flatMap Text.hexByte ↔ hexBytes cs = some bytes := by
  rw [hexBytes_eq_some_iff]
  -- every byte takes two characters
  induction bytes generalizing cs with
  | nil =>
    constructor
    · intro h
      rw [List.map_eq_nil_iff.mp h]
      exact ⟨rfl, rfl⟩
    · rintro ⟨hlength, -⟩
      rw [List.length_eq_zero_iff.mp hlength]
      rfl
  | cons byte bytes ih =>
    cases cs with
    | nil => simp [Text.hexByte]
    | cons a cs =>
      cases cs with
      | nil =>
        simp only [Text.hexByte, List.map_cons, List.map_nil, List.flatMap_cons, List.cons_append,
          List.cons.injEq, List.length_cons, List.length_nil]
        constructor
        · rintro ⟨-, h⟩
          cases h
        · rintro ⟨h, -⟩
          omega
      | cons b rest =>
        have hlength : (a :: b :: rest).length = 2 * (byte :: bytes).length ↔
            rest.length = 2 * bytes.length := by
          simp only [List.length_cons]
          omega
        have hmap : (a :: b :: rest).map Char.toUpper = (byte :: bytes).flatMap Text.hexByte ↔
            [a.toUpper, b.toUpper] = Text.hexByte byte ∧
              rest.map Char.toUpper = bytes.flatMap Text.hexByte := by
          simp [Text.hexByte, and_assoc]
        rw [hmap, hlength, map_toUpper_pair_iff, bytesOfDigits_eq_cons_iff, ih]
        tauto

/-- What is written is read back. -/
theorem hexBytes_bytesToHex (bytes : List UInt8) :
    hexBytes (bytesToHex bytes).toList = some bytes := by
  have hdigit : ∀ n : Fin 16, (Text.upperHexDigit n).toUpper = Text.upperHexDigit n := by decide
  have hhex : ∀ byte : UInt8, (Text.hexByte byte).map Char.toUpper = Text.hexByte byte := by
    intro byte
    have hbyte := byte.toNat_lt
    simp only [Text.hexByte, List.map_cons, List.map_nil]
    rw [hdigit ⟨byte.toNat / 16, by omega⟩, hdigit ⟨byte.toNat % 16, by omega⟩]
  rw [← map_toUpper_eq_iff]
  unfold bytesToHex
  rw [String.toList_ofList, List.map_flatMap]
  simp only [hhex]

/-- Only ASCII characters are digits. -/
theorem toNat_lt_of_hexDigit {c : Char} (h : (hexDigitValue c).isSome) : c.toNat < 128 := by
  unfold hexDigitValue at h
  split at h
  · rename_i hc
    exact Nat.lt_of_le_of_lt (m := 57) hc.2 (by omega)
  · split at h
    · rename_i hc
      exact Nat.lt_of_le_of_lt (m := 102) hc.2 (by omega)
    · split at h
      · rename_i hc
        exact Nat.lt_of_le_of_lt (m := 70) hc.2 (by omega)
      · cases h

/-- On digits the low bytes are the characters themselves. -/
theorem bytesOfHex_of_digits {cs : List Char} (h : ∀ c ∈ cs, (hexDigitValue c).isSome) :
    bytesOfHex cs = bytesOfDigits cs := by
  have hunits : (cs.flatMap Base64.lowBytes).map Char.ofNat = cs := by
    induction cs with
    | nil => rfl
    | cons c cs ih =>
      have hascii := toNat_lt_of_hexDigit (h c List.mem_cons_self)
      have hlow : Base64.lowBytes c = [c.toNat] := by
        rw [Base64.lowBytes, if_pos (by omega), Nat.mod_eq_of_lt (by omega)]
      rw [List.flatMap_cons, hlow, List.map_append, List.map_singleton, Char.ofNat_toNat,
        ih fun c' hc' => h c' (List.mem_cons_of_mem _ hc'), List.singleton_append]
  rw [bytesOfHex, hunits]

/-- Each character of a text that is hexadecimal as a whole is a digit. -/
theorem digits_of_bytesOfDigits {cs : List Char} {bytes : List UInt8}
    (hlength : cs.length = 2 * bytes.length) (hbytes : bytesOfDigits cs = bytes) :
    ∀ c ∈ cs, (hexDigitValue c).isSome := by
  -- induction on the bytes: each one takes two characters
  induction bytes generalizing cs with
  | nil =>
    rw [List.length_eq_zero_iff.mp hlength]
    exact fun c hc => nomatch hc
  | cons byte bytes ih =>
    -- the length excludes an empty text and a single character
    match cs with
    | [] => exact fun c hc => nomatch hc
    | [_] => simp only [List.length_cons, List.length_nil] at hlength; omega
    | a :: b :: rest =>
      obtain ⟨⟨ha, hb⟩, hrest⟩ := bytesOfDigits_eq_cons_iff.mp hbytes
      have hrestLength : rest.length = 2 * bytes.length := by
        simp only [List.length_cons] at hlength
        omega
      -- a character is one of the first two, or comes later
      intro c hc
      rcases List.mem_cons.mp hc with rfl | hc
      · exact Option.isSome_of_eq_some ha
      · rcases List.mem_cons.mp hc with rfl | hc
        · exact Option.isSome_of_eq_some hb
        · exact ih hrestLength hrest c hc

/-! ## The builder -/

/-- A digest in the place of SHA-256; its length is all that matters here. -/
structure Sha256 where
  digest : List UInt8 → List UInt8
  length_digest : ∀ bytes, (digest bytes).length = 32

/-- `createHash("sha256")`. -/
def sha256 : Sha256 := ⟨SecureHash.sha256, SecureHash.length_sha256⟩

/-- `PreimageCondition`. -/
structure PreimageCondition where
  preimage : List UInt8
  condition : String
  fulfillment : String
  deriving DecidableEq, Repr

/-- The bytes of the condition. -/
def conditionBytes (sha256 : List UInt8 → List UInt8) (preimage : List UInt8) : List UInt8 :=
  [0xa0, 0x25, 0x80, 0x20] ++ sha256 preimage ++ [0x81, 0x01, UInt8.ofNat preimage.length]

/-- The bytes of the fulfillment. -/
def fulfillmentBytes (preimage : List UInt8) : List UInt8 :=
  let inner := [0x80, UInt8.ofNat preimage.length] ++ preimage
  [0xa0, UInt8.ofNat inner.length] ++ inner

/-- `buildPreimageCondition`. -/
def buildPreimageCondition (sha256 : List UInt8 → List UInt8) (preimage : List UInt8) :
    Except String PreimageCondition :=
  if preimage.length = 0 ∨ preimage.length > 127 then .error "preimage must be 1..127 bytes"
  else .ok {
    preimage
    condition := bytesToHex (conditionBytes sha256 preimage)
    fulfillment := bytesToHex (fulfillmentBytes preimage) }

example : buildPreimageCondition sha256.digest [0xaa] = .ok ⟨[0xaa],
    "A0258020BCEEF655B5A034911F1C3718CE056531B45EF03B4C7B1F15629E867294011A7D810101",
    "A0038001AA"⟩ := by decide +kernel

/-- The condition that a judgment restores is the one that is built here. -/
theorem judge_buildPreimageCondition (sha256 : List UInt8 → List UInt8) (preimage : List UInt8) :
    Judge.buildPreimageCondition sha256 preimage =
      PreimageCondition.condition <$> buildPreimageCondition sha256 preimage := by
  unfold Judge.buildPreimageCondition buildPreimageCondition
  split
  · rfl
  · rfl

/-- A preimage that the builder accepts. -/
structure Preimage where
  bytes : List UInt8
  nonempty : 0 < bytes.length
  short : bytes.length ≤ 127
  deriving DecidableEq

theorem buildPreimageCondition_ok {sha256 : List UInt8 → List UInt8} {preimage : List UInt8}
    {built : PreimageCondition} : buildPreimageCondition sha256 preimage = .ok built ↔
      (0 < preimage.length ∧ preimage.length ≤ 127) ∧
        built = ⟨preimage, bytesToHex (conditionBytes sha256 preimage),
          bytesToHex (fulfillmentBytes preimage)⟩ := by
  unfold buildPreimageCondition
  split
  · constructor
    · intro h
      cases h
    · rintro ⟨hlength, -⟩
      omega
  · constructor
    · intro h
      cases h
      exact ⟨by omega, rfl⟩
    · rintro ⟨-, rfl⟩
      rfl

/-! ## The reader -/

/-- The fingerprint and the cost of a condition. -/
def readCondition (hex : String) : Option (List UInt8 × ℕ) := do
  let bytes ← hexBytes hex.toList
  let outer ← Der.readOnly bytes
  guard (outer.tag = 0xa0)
  let (fingerprint, rest) ← Der.readElement outer.contents
  guard (fingerprint.tag = 0x80 ∧ fingerprint.contents.length = 32)
  let cost ← Der.readOnly rest
  guard (cost.tag = 0x81)
  let n ← Der.readNatural cost.contents
  guard (n < 4294967296)
  return (fingerprint.contents, n)

/-- The preimage of a fulfillment. -/
def readFulfillment (hex : String) : Option (List UInt8) := do
  let bytes ← hexBytes hex.toList
  let outer ← Der.readOnly bytes
  guard (outer.tag = 0xa0)
  let preimage ← Der.readOnly outer.contents
  guard (preimage.tag = 0x80)
  return preimage.contents

end Bluesafe.Escrow
