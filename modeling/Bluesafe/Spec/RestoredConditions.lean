import Bluesafe.Spec.ConditionCodec

/-!
# Conditions restored from a fulfillment

`restoreConditionFromFulfillment` looks at two of the four octets in front of the preimage and takes
what is there of the slice that the fourth announces. It never compares the outer length, the end of
the text, or what of the text was read as hexadecimal. A text that passes its checks is a fulfillment
iff those three agree as well. Characters outside ASCII are read by the low byte of their code
units, so a text without a single digit of a preimage may pass for one.
-/

namespace Bluesafe.Escrow

open Bluesafe.Judge (bytesOfDigits bytesOfHex bytesToHex hexDigitValue restoreConditionFromFulfillment)

/-- Up to the case of the digits, `f` is the fulfillment of `preimage`. -/
def IsFulfillment (f : String) (preimage : Preimage) : Prop :=
  f.toList.map Char.toUpper = (bytesToHex (fulfillmentBytes preimage.bytes)).toList

/-- A condition is restored from `f` iff `f` is a fulfillment, and it is the condition of that
preimage. -/
def Inverts (sha256 : Sha256) (f : String) : Prop :=
  ∀ condition, restoreConditionFromFulfillment sha256.digest f = .ok condition ↔
    ∃ preimage, IsFulfillment f preimage ∧
      condition = bytesToHex (conditionBytes sha256.digest preimage.bytes)

/-- The length that the fourth octet announces. -/
def announced (fulfillment : List UInt8) : ℕ := (fulfillment[3]?.map UInt8.toNat).getD 0

/-- What is there of the preimage. -/
def slice (fulfillment : List UInt8) : List UInt8 := (fulfillment.drop 4).take (announced fulfillment)

/-- What the code checks. -/
structure Checked (fulfillment : List UInt8) : Prop where
  outerTag : fulfillment[0]? = some 0xa0
  innerTag : fulfillment[2]? = some 0x80
  nonempty : 0 < (slice fulfillment).length
  short : (slice fulfillment).length ≤ 127

/-- What the code does not check: the text consists of hexadecimal digits and all of it was read, the
outer length is that of the rest, and the announced octets are the rest. -/
structure Exact (f : String) (fulfillment : List UInt8) : Prop where
  digits : ∀ c ∈ f.toList, (hexDigitValue c).isSome
  hex : f.toList.length = 2 * fulfillment.length
  outer : fulfillment[1]? = some (UInt8.ofNat (announced fulfillment + 2))
  inner : fulfillment.length = announced fulfillment + 4

theorem exists_of_map_ok {built : Except String PreimageCondition} {condition : String}
    (h : PreimageCondition.condition <$> built = .ok condition) :
    ∃ b, built = .ok b ∧ b.condition = condition := by
  cases built with
  | error e => cases h
  | ok b => exact ⟨b, rfl, Except.ok.inj h⟩

theorem restore_ok {sha256 : List UInt8 → List UInt8} {f condition : String} :
    restoreConditionFromFulfillment sha256 f = .ok condition ↔
      Checked (bytesOfHex f.toList) ∧
        condition = bytesToHex (conditionBytes sha256 (slice (bytesOfHex f.toList))) := by
  -- the tags are checked first, then the preimage is taken out
  unfold restoreConditionFromFulfillment
  dsimp only
  rw [judge_buildPreimageCondition]
  constructor
  · intro h
    split at h
    · cases h
    -- both tags are right, so the condition is built from the slice
    · rename_i htags
      rw [not_or, not_not, not_not] at htags
      obtain ⟨built, hbuilt, rfl⟩ := exists_of_map_ok h
      obtain ⟨⟨hnonempty, hshort⟩, rfl⟩ := buildPreimageCondition_ok.mp hbuilt
      exact ⟨⟨htags.1, htags.2, hnonempty, hshort⟩, rfl⟩
  -- the checks of the builder are those of the statement
  · rintro ⟨hchecked, rfl⟩
    rw [if_neg (by rw [hchecked.outerTag, hchecked.innerTag]; simp)]
    have hbuilt := (@buildPreimageCondition_ok sha256 (slice (bytesOfHex f.toList)) _).mpr
      ⟨⟨hchecked.nonempty, hchecked.short⟩, rfl⟩
    exact congrArg (PreimageCondition.condition <$> ·) hbuilt

/-- The bytes of a fulfillment pass the checks, and are exact. -/
theorem checked_fulfillmentBytes (preimage : Preimage) :
    Checked (fulfillmentBytes preimage.bytes) ∧
      (fulfillmentBytes preimage.bytes)[1]? =
        some (UInt8.ofNat (announced (fulfillmentBytes preimage.bytes) + 2)) ∧
      (fulfillmentBytes preimage.bytes).length = announced (fulfillmentBytes preimage.bytes) + 4 ∧
      slice (fulfillmentBytes preimage.bytes) = preimage.bytes := by
  have hshort := preimage.short
  -- the announced length is the number of the bytes, since they are few
  have hannounced : announced (fulfillmentBytes preimage.bytes) = preimage.bytes.length := by
    show (UInt8.ofNat preimage.bytes.length).toNat = _
    rw [UInt8.toNat_ofNat']
    omega
  -- the slice takes exactly these
  have hslice : slice (fulfillmentBytes preimage.bytes) = preimage.bytes := by
    unfold slice
    rw [hannounced]
    exact List.take_length
  refine ⟨⟨rfl, rfl, ?_, ?_⟩, ?_, ?_, hslice⟩
  · rw [hslice]
    exact preimage.nonempty
  · rw [hslice]
    exact preimage.short
  · rw [hannounced]
    rfl
  · rw [hannounced]
    simp [fulfillmentBytes]

/-- Bytes that are checked and exact are those of a fulfillment. -/
theorem eq_fulfillmentBytes {bytes : List UInt8} (hchecked : Checked bytes)
    (houter : bytes[1]? = some (UInt8.ofNat (announced bytes + 2)))
    (hinner : bytes.length = announced bytes + 4) : bytes = fulfillmentBytes (slice bytes) := by
  -- fewer than four octets fail a check
  rcases bytes with _ | ⟨outerTag, _ | ⟨outerLength, _ | ⟨innerTag, _ | ⟨innerLength, rest⟩⟩⟩⟩
  · cases hchecked.outerTag
  · cases hchecked.innerTag
  · cases hchecked.innerTag
  · simp at hinner
  · have hannounced : announced (outerTag :: outerLength :: innerTag :: innerLength :: rest) =
        innerLength.toNat := rfl
    rw [hannounced] at houter hinner
    have hlength : rest.length = innerLength.toNat := by
      simp only [List.length_cons] at hinner
      omega
    have hslice : slice (outerTag :: outerLength :: innerTag :: innerLength :: rest) = rest :=
      List.take_of_length_le (Nat.le_of_eq hlength)
    rw [hslice]
    have houterTag : outerTag = 0xa0 := Option.some.inj hchecked.outerTag
    have hinnerTag : innerTag = 0x80 := Option.some.inj hchecked.innerTag
    have houterLength : outerLength = UInt8.ofNat (innerLength.toNat + 2) := Option.some.inj houter
    have hinnerLength : innerLength = UInt8.ofNat rest.length := by rw [hlength, UInt8.ofNat_toNat]
    rw [houterTag, hinnerTag, houterLength, ← hlength, hinnerLength]
    rfl

/-- A text is a fulfillment iff it passes the checks of the code and those that it leaves out. -/
theorem isFulfillment_iff {f : String} {preimage : Preimage} :
    IsFulfillment f preimage ↔ Checked (bytesOfHex f.toList) ∧ Exact f (bytesOfHex f.toList) ∧
      slice (bytesOfHex f.toList) = preimage.bytes := by
  -- `f` is read as the bytes of the fulfillment, and nothing of it is left out
  have hread : IsFulfillment f preimage ↔
      f.toList.length = 2 * (fulfillmentBytes preimage.bytes).length ∧
        bytesOfDigits f.toList = fulfillmentBytes preimage.bytes := by
    rw [← hexBytes_eq_some_iff, ← map_toUpper_eq_iff]
    unfold IsFulfillment bytesToHex
    rw [String.toList_ofList]
  rw [hread]
  constructor
  · rintro ⟨hlength, hbytes⟩
    have hdigits := digits_of_bytesOfDigits hlength hbytes
    obtain ⟨hchecked, houter, hinner, hslice⟩ := checked_fulfillmentBytes preimage
    rw [bytesOfHex_of_digits hdigits, hbytes]
    exact ⟨hchecked, ⟨hdigits, hlength, houter, hinner⟩, hslice⟩
  · rintro ⟨hchecked, hexact, hslice⟩
    have hbytes := eq_fulfillmentBytes hchecked hexact.outer hexact.inner
    rw [hslice] at hbytes
    rw [← hbytes, ← bytesOfHex_of_digits hexact.digits]
    exact ⟨hexact.hex, rfl⟩

/-- Exactly when a condition is restored only from a fulfillment. -/
theorem inverts_iff (sha256 : Sha256) (f : String) :
    Inverts sha256 f ↔ (Checked (bytesOfHex f.toList) → Exact f (bytesOfHex f.toList)) := by
  -- what is restored is right as soon as the whole text is checked
  constructor
  · intro h hchecked
    obtain ⟨preimage, hf, -⟩ := (h _).mp (restore_ok.mpr ⟨hchecked, rfl⟩)
    exact (isFulfillment_iff.mp hf).2.1
  -- a text that is checked is the fulfillment of its slice
  · intro h condition
    rw [restore_ok]
    constructor
    · rintro ⟨hchecked, rfl⟩
      exact ⟨⟨slice (bytesOfHex f.toList), hchecked.nonempty, hchecked.short⟩,
        isFulfillment_iff.mpr ⟨hchecked, h hchecked, rfl⟩, rfl⟩
    · rintro ⟨preimage, hf, rfl⟩
      obtain ⟨hchecked, -, hslice⟩ := isFulfillment_iff.mp hf
      exact ⟨hchecked, by rw [hslice]⟩

/-- A wrong outer length, and a character behind the end that is not hexadecimal: the condition of
the octet `aa` is restored all the same. -/
theorem inverts_malformed :
    bytesOfHex "A0FF8001AAg".toList = [0xa0, 0xff, 0x80, 0x01, 0xaa] ∧
    ∀ sha256 : Sha256,
      restoreConditionFromFulfillment sha256.digest "A0FF8001AAg" =
        .ok (bytesToHex (conditionBytes sha256.digest [0xaa])) ∧
      ¬ Inverts sha256 "A0FF8001AAg" := by
  have hbytes : bytesOfHex "A0FF8001AAg".toList = [0xa0, 0xff, 0x80, 0x01, 0xaa] := by decide
  -- the text is restored to the condition of its one byte
  refine ⟨hbytes, fun sha256 => ?_⟩
  have hchecked : Checked (bytesOfHex "A0FF8001AAg".toList) := by
    rw [hbytes]
    exact ⟨rfl, rfl, by decide, by decide⟩
  have hrestored : restoreConditionFromFulfillment sha256.digest "A0FF8001AAg" =
      .ok (bytesToHex (conditionBytes sha256.digest [0xaa])) := by
    rw [restore_ok, hbytes]
    rw [hbytes] at hchecked
    exact ⟨hchecked, rfl⟩
  refine ⟨hrestored, fun h => ?_⟩
  -- were the theorem right, the text would be in the form it is not
  obtain ⟨preimage, hf, -⟩ := (h _).mp hrestored
  have hexact := (isFulfillment_iff.mp hf).2.1
  rw [hbytes] at hexact
  exact absurd hexact.hex (by decide)

end Bluesafe.Escrow
