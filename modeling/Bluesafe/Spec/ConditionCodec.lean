import Bluesafe.Escrow.Conditions

/-!
# The encoding of a crypto-condition

A condition is one element for every preimage that is accepted. A fulfillment writes two lengths into
one octet each, that of the preimage and that of the element around it. The outer one is two larger,
so it leaves the short form at a preimage of 126 octets already.
-/

namespace Bluesafe.Escrow

open Bluesafe.Judge (bytesToHex)

/-- The condition and the fulfillment of a preimage are read back. -/
def ReadsBack (sha256 : Sha256) (preimage : Preimage) : Prop :=
  ∃ built, buildPreimageCondition sha256.digest preimage.bytes = .ok built ∧
    readCondition built.condition =
      some (sha256.digest preimage.bytes, preimage.bytes.length) ∧
    readFulfillment built.fulfillment = some preimage.bytes

theorem octets_length_le_one {n : ℕ} (h : n < 256) : (Der.octets n).length ≤ 1 := by
  unfold Der.octets
  rw [List.length_reverse, List.length_map]
  by_contra hlong
  rw [not_le] at hlong
  have hlt := (Nat.lt_digits_length_iff (b := 256) (by omega) n).mp hlong
  omega

/-- An element whose length is written into one octet. -/
theorem encode_short (tag : UInt8) {contents : List UInt8} (h : contents.length < 128) :
    (Der.Element.mk tag contents).encode = tag :: UInt8.ofNat contents.length :: contents := by
  unfold Der.Element.encode Der.encodeLength
  dsimp only
  rw [if_pos h]
  rfl

theorem readOnly_short {tag : UInt8} {contents : List UInt8} (htag : tag.toNat % 32 ≠ 31)
    (h : contents.length < 128) :
    Der.readOnly (tag :: UInt8.ofNat contents.length :: contents) = some ⟨tag, contents⟩ := by
  rw [← encode_short tag h]
  have hlength := octets_length_le_one (n := contents.length) (by omega)
  exact Der.readOnly_complete htag (Nat.lt_of_le_of_lt hlength (by omega))

theorem readElement_short {tag : UInt8} {contents : List UInt8} (htag : tag.toNat % 32 ≠ 31)
    (h : contents.length < 128) (rest : List UInt8) :
    Der.readElement (tag :: UInt8.ofNat contents.length :: (contents ++ rest)) =
      some (⟨tag, contents⟩, rest) := by
  have hlength := octets_length_le_one (n := contents.length) (by omega)
  have hread := Der.readElement_complete (e := ⟨tag, contents⟩) htag
    (Nat.lt_of_le_of_lt hlength (by omega)) rest
  rw [encode_short tag h] at hread
  exact hread

theorem toNat_ofNat_length {bytes : List UInt8} (h : bytes.length < 128) :
    (UInt8.ofNat bytes.length).toNat = bytes.length := by
  rw [UInt8.toNat_ofNat']
  omega

/-- The condition is read back for every preimage. -/
theorem readCondition_conditionBytes (sha256 : Sha256) {preimage : List UInt8}
    (h : preimage.length ≤ 127) :
    readCondition (bytesToHex (conditionBytes sha256.digest preimage)) =
      some (sha256.digest preimage, preimage.length) := by
  have hdigest := sha256.length_digest preimage
  have hvalue := @toNat_ofNat_length preimage (by omega)
  let costBytes : List UInt8 := [0x81, 0x01, UInt8.ofNat preimage.length]
  let inner : List UInt8 := 0x80 :: 0x20 :: (sha256.digest preimage ++ costBytes)
  have hinner : inner.length = 37 := by
    simp only [inner, costBytes, List.length_cons, List.length_append, List.length_nil, hdigest]
  -- the element, its two elements, and the integer in the second
  have houter := @readOnly_short 0xa0 inner (by decide) (by omega)
  have hfingerprint := @readElement_short 0x80 (sha256.digest preimage) (by decide) (by omega) costBytes
  have hcost := @readOnly_short 0x81 [UInt8.ofNat preimage.length] (by decide) (by simp)
  have hnatural := @Der.readNatural_singleton (UInt8.ofNat preimage.length) (by omega)
  rw [hinner] at houter
  rw [hdigest] at hfingerprint
  rw [hvalue] at hnatural
  have hbytes : conditionBytes sha256.digest preimage = 0xa0 :: 0x25 :: inner := rfl
  have houter' : Der.readOnly (0xa0 :: 0x25 :: inner) = some ⟨0xa0, inner⟩ := houter
  have hfingerprint' : Der.readElement inner = some (⟨0x80, sha256.digest preimage⟩, costBytes) :=
    hfingerprint
  have hcost' : Der.readOnly costBytes = some ⟨0x81, [UInt8.ofNat preimage.length]⟩ := hcost
  have hsmall : preimage.length < 4294967296 := by omega
  unfold readCondition
  simp [hexBytes_bytesToHex, hbytes, houter', hfingerprint', hcost', hnatural, hdigest, hsmall]

/-- The fulfillment is read back if the outer length is below 128. -/
theorem readFulfillment_fulfillmentBytes {preimage : List UInt8} (h : preimage.length ≤ 125) :
    readFulfillment (bytesToHex (fulfillmentBytes preimage)) = some preimage := by
  let inner : List UInt8 := 0x80 :: UInt8.ofNat preimage.length :: preimage
  have hlength : inner.length < 128 := by
    simp only [inner, List.length_cons]
    omega
  have houter := @readOnly_short 0xa0 inner (by decide) hlength
  have hpreimage : Der.readOnly inner = some ⟨0x80, preimage⟩ :=
    readOnly_short (by decide) (by omega)
  have hbytes : fulfillmentBytes preimage = 0xa0 :: UInt8.ofNat inner.length :: inner := rfl
  unfold readFulfillment
  simp [hexBytes_bytesToHex, hbytes, houter, hpreimage]

/-- What is read as the fulfillment of a preimage is the encoding of it. -/
theorem readFulfillment_sound {bytes preimage : List UInt8}
    (h : readFulfillment (bytesToHex bytes) = some preimage) :
    bytes = (Der.Element.mk 0xa0 (Der.Element.mk 0x80 preimage).encode).encode := by
  unfold readFulfillment at h
  rw [hexBytes_bytesToHex] at h
  simp only [Option.bind_eq_bind, Option.bind_some, Option.bind_eq_some_iff] at h
  obtain ⟨⟨tag, contents⟩, houter, _, htag, ⟨tag', contents'⟩, hinner, _, htag', hcontents⟩ := h
  obtain rfl : tag = 0xa0 := (Option.guard_eq_some' _).mp htag
  obtain rfl : tag' = 0x80 := (Option.guard_eq_some' _).mp htag'
  cases hcontents
  have hcontents : contents = (Der.Element.mk 0x80 contents').encode := Der.readOnly_sound hinner
  rw [Der.readOnly_sound houter, hcontents]

/-- The octet of the outer length is the encoding of it up to a preimage of 125 octets only. -/
theorem readFulfillment_fulfillmentBytes_iff {preimage : List UInt8} (h : preimage.length ≤ 127) :
    readFulfillment (bytesToHex (fulfillmentBytes preimage)) = some preimage ↔
      preimage.length ≤ 125 := by
  constructor
  · intro hread
    have hbytes := readFulfillment_sound hread
    let inner := (Der.Element.mk 0x80 preimage).encode
    by_cases hshort : inner.length < 128
    · -- an inner element below 128 octets leaves 125 for the preimage
      rw [encode_short 0xa0 hshort] at hbytes
      have hlength := congrArg List.length hbytes
      simp only [fulfillmentBytes, List.length_append, List.length_cons, List.length_nil] at hlength
      have : inner.length < 128 := hshort
      omega
    · -- the long form has at least two octets, so the length would be 128, and the contents would
      -- begin with the octet of the inner length
      have hencode : (Der.Element.mk 0xa0 inner).encode =
          0xa0 :: UInt8.ofNat (128 + (Der.octets inner.length).length) ::
            (Der.octets inner.length ++ inner) := by
        unfold Der.Element.encode Der.encodeLength
        dsimp only
        rw [if_neg hshort]
        rfl
      have hbytes : fulfillmentBytes preimage = _ := hbytes.trans hencode
      have hlength := congrArg List.length hbytes
      simp only [fulfillmentBytes, List.length_append, List.length_cons, List.length_nil] at hlength
      have hsome : (Der.octets inner.length).length ≠ 0 := by
        intro hnone
        have hvalue := Der.ofOctets_octets inner.length
        rw [List.length_eq_zero_iff.mp hnone] at hvalue
        have : Der.ofOctets [] = 0 := rfl
        omega
      have hinner : inner.length = 128 := by omega
      have hpreimage : preimage.length = 127 := by omega
      have hoctets : Der.octets 128 = [0x80] := by decide +kernel
      unfold fulfillmentBytes at hbytes
      rw [hinner, hoctets, hpreimage] at hbytes
      simp [inner, Der.Element.encode] at hbytes
  · exact readFulfillment_fulfillmentBytes

/-- Exactly when both halves are read back; the condition is for every preimage. -/
theorem readsBack_iff (sha256 : Sha256) (preimage : Preimage) :
    ReadsBack sha256 preimage ↔ preimage.bytes.length ≤ 125 := by
  rw [← readFulfillment_fulfillmentBytes_iff preimage.short]
  constructor
  · rintro ⟨built, hbuilt, -, hfulfillment⟩
    obtain ⟨-, rfl⟩ := buildPreimageCondition_ok.mp hbuilt
    exact hfulfillment
  · intro hfulfillment
    exact ⟨_, buildPreimageCondition_ok.mpr ⟨⟨preimage.nonempty, preimage.short⟩, rfl⟩,
      readCondition_conditionBytes sha256 preimage.short, hfulfillment⟩

/-- A preimage of 126 octets. -/
def longPreimage : Preimage where
  bytes := List.replicate 126 0
  nonempty := by rw [List.length_replicate]; omega
  short := by rw [List.length_replicate]; omega

/-- The octet behind its tag announces the indefinite form. -/
theorem readsBack_longPreimage :
    (fulfillmentBytes longPreimage.bytes).take 4 = [0xa0, 0x80, 0x80, 0x7e] ∧
      ∀ sha256, ¬ ReadsBack sha256 longPreimage := by
  refine ⟨by decide +kernel, fun sha256 h => ?_⟩
  obtain ⟨built, hbuilt, -, hfulfillment⟩ := h
  obtain ⟨-, rfl⟩ := buildPreimageCondition_ok.mp hbuilt
  have hlength := (readFulfillment_fulfillmentBytes_iff longPreimage.short).mp hfulfillment
  rw [longPreimage, List.length_replicate] at hlength
  omega

end Bluesafe.Escrow
