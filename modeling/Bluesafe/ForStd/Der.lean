import Mathlib

/-!
# Elements of DER

An element is a tag of one octet, the length of the contents, and the contents. DER has one encoding
for each length: definite, in the short form below 128, and otherwise in the long form with as few
octets as the length needs. The reader takes nothing else: what it reads is what the writer writes
(`readElement_sound`), and it reads everything the writer writes (`readElement_complete`).
-/

namespace Bluesafe.Der

/-- An element. -/
structure Element where
  tag : UInt8
  contents : List UInt8
  deriving DecidableEq

/-! ## Numbers -/

/-- The number that `bytes` spell, the most significant octet first. -/
def ofOctets (bytes : List UInt8) : ℕ := Nat.ofDigits 256 (bytes.reverse.map UInt8.toNat)

/-- The octets of a number, as few as it needs. -/
def octets (n : ℕ) : List UInt8 := ((Nat.digits 256 n).map UInt8.ofNat).reverse

theorem ofOctets_singleton (b : UInt8) : ofOctets [b] = b.toNat := by
  simp [ofOctets]

/-- A number is read back from its octets. -/
theorem ofOctets_octets (n : ℕ) : ofOctets (octets n) = n := by
  unfold ofOctets octets
  rw [List.reverse_reverse, List.map_map]
  have hdigits : (Nat.digits 256 n).map (UInt8.toNat ∘ UInt8.ofNat) = Nat.digits 256 n := by
    rw [List.map_congr_left (g := id), List.map_id]
    intro d hd
    have hlt : d < 256 := Nat.digits_lt_base (by omega) hd
    simp only [Function.comp_apply, UInt8.toNat_ofNat', id_eq]
    omega
  rw [hdigits, Nat.ofDigits_digits]

/-- A number whose first octet is not zero has no other octets. -/
theorem octets_ofOctets {bytes : List UInt8} (h : bytes.head? ≠ some 0) :
    octets (ofOctets bytes) = bytes := by
  unfold ofOctets octets
  rw [Nat.digits_ofDigits 256 (by omega), List.map_map]
  · have hbytes : bytes.reverse.map (UInt8.ofNat ∘ UInt8.toNat) = bytes.reverse := by
      simp [Function.comp_def]
    rw [hbytes, List.reverse_reverse]
  · intro d hd
    obtain ⟨b, -, rfl⟩ := List.mem_map.mp hd
    exact UInt8.toNat_lt b
  · intro hne
    -- the last digit is the first octet
    cases bytes with
    | nil => exact absurd rfl hne
    | cons b rest =>
      simp only [List.reverse_cons, List.map_append, List.map_cons, List.map_nil, List.getLast_append_singleton]
      intro hzero
      exact h (congrArg some (UInt8.toNat_inj.mp hzero))

/-- Octets have no leading zero. -/
theorem octets_head_ne_zero (n : ℕ) : (octets n).head? ≠ some 0 := by
  unfold octets
  rw [List.head?_reverse, List.getLast?_map]
  intro h
  obtain ⟨d, hd, hzero⟩ := Option.map_eq_some_iff.mp h
  obtain ⟨hne, rfl⟩ := List.mem_getLast?_eq_getLast hd
  have hlt := Nat.digits_lt_base (b := 256) (by omega) (List.getLast_mem hne)
  have hpos := Nat.getLast_digit_ne_zero 256 (Nat.digits_ne_nil_iff_ne_zero.mp hne)
  have hval := congrArg UInt8.toNat hzero
  simp only [UInt8.toNat_ofNat'] at hval
  have : (0 : UInt8).toNat = 0 := rfl
  omega

/-! ## Lengths -/

/-- The octets of a length. -/
def encodeLength (n : ℕ) : List UInt8 :=
  if n < 128 then [UInt8.ofNat n]
  else UInt8.ofNat (128 + (octets n).length) :: octets n

/-- A length, and what follows it. -/
def readLength : List UInt8 → Option (ℕ × List UInt8)
  | [] => none
  | first :: rest =>
    if first.toNat < 128 then some (first.toNat, rest)
    else
      let count := first.toNat - 128
      let long := rest.take count
      -- no octets is the indefinite form, 127 are reserved, and a leading zero or a length below
      -- 128 is not the shortest form
      if count = 127 ∨ long.length < count ∨ long.head? = some 0 ∨ ofOctets long < 128 then none
      else some (ofOctets long, rest.drop count)

/-- A length that is read was encoded so. -/
theorem readLength_sound {bytes rest : List UInt8} {n : ℕ} (h : readLength bytes = some (n, rest)) :
    bytes = encodeLength n ++ rest := by
  -- the short form is one octet; the long form is followed by its count
  cases bytes with
  | nil => cases h
  | cons first tail =>
    unfold readLength at h
    dsimp only at h
    split at h
    · rename_i hshort
      cases h
      simp [encodeLength, hshort]
    -- the long form: the count, the octets, and the refusals
    · rename_i hlong
      split at h
      · cases h
      · rename_i hform
        rw [not_or, not_or, not_or] at hform
        obtain ⟨-, hlength, hhead, hsize⟩ := hform
        -- what is read is the number of those octets
        obtain ⟨rfl, rfl⟩ := Prod.mk.inj (Option.some.inj h)
        have hoctets := octets_ofOctets hhead
        -- the octets that follow are exactly as many as the first one says
        have hcount : (tail.take (first.toNat - 128)).length = first.toNat - 128 := by
          rw [List.length_take] at hlength ⊢
          omega
        have hfirst : UInt8.ofNat (128 + (first.toNat - 128)) = first := by
          rw [show 128 + (first.toNat - 128) = first.toNat by omega, UInt8.ofNat_toNat]
        unfold encodeLength
        rw [if_neg hsize, hoctets, hcount, hfirst, List.cons_append, List.take_append_drop]

/-- And a length that was encoded is read back. -/
theorem readLength_complete {n : ℕ} (h : (octets n).length < 127) (rest : List UInt8) :
    readLength (encodeLength n ++ rest) = some (n, rest) := by
  unfold encodeLength
  -- a number below `128` takes the short form
  by_cases hshort : n < 128
  · have hval : (UInt8.ofNat n).toNat = n := by
      rw [UInt8.toNat_ofNat']
      omega
    rw [if_pos hshort]
    show (if (UInt8.ofNat n).toNat < 128 then some ((UInt8.ofNat n).toNat, rest) else _) = _
    rw [hval, if_pos hshort]
  · have hval : (UInt8.ofNat (128 + (octets n).length)).toNat = 128 + (octets n).length := by
      rw [UInt8.toNat_ofNat']
      omega
    rw [if_neg hshort, List.cons_append]
    unfold readLength
    dsimp only
    rw [hval, if_neg (by omega), show 128 + (octets n).length - 128 = (octets n).length by omega,
      List.take_left, List.drop_left, ofOctets_octets, if_neg]
    -- none of the refusals applies to what was written
    rintro (hcount | hlength | hhead | hsize)
    · omega
    · omega
    · exact octets_head_ne_zero n hhead
    · omega

/-! ## Elements -/

/-- The octets of an element. -/
def Element.encode (e : Element) : List UInt8 :=
  e.tag :: (encodeLength e.contents.length ++ e.contents)

/-- An element, and what follows it. A tag number of 31 announces a tag of more octets. -/
def readElement : List UInt8 → Option (Element × List UInt8)
  | [] => none
  | tag :: rest =>
    if tag.toNat % 32 = 31 then none
    else match readLength rest with
      | none => none
      | some (n, body) => if body.length < n then none else some (⟨tag, body.take n⟩, body.drop n)

/-- An element and nothing else. -/
def readOnly (bytes : List UInt8) : Option Element :=
  match readElement bytes with
  | some (e, []) => some e
  | _ => none

/-- An element that is read was encoded so. -/
theorem readElement_sound {bytes rest : List UInt8} {e : Element}
    (h : readElement bytes = some (e, rest)) : bytes = e.encode ++ rest := by
  -- the tag, the length, and as many bytes as the length says
  cases bytes with
  | nil => cases h
  | cons tag tail =>
    unfold readElement at h
    dsimp only at h
    split at h
    · cases h
    · split at h
      · cases h
      · rename_i n body hread
        split at h
        · cases h
        · rename_i hfits
          cases h
          -- the body has the length that was read
          have hlength : (body.take n).length = n := by
            rw [List.length_take]
            omega
          rw [readLength_sound hread, Element.encode, hlength, List.cons_append, List.append_assoc,
            List.take_append_drop]

/-- And one that was encoded is read back. -/
theorem readElement_complete {e : Element} (htag : e.tag.toNat % 32 ≠ 31)
    (hlength : (octets e.contents.length).length < 127) (rest : List UInt8) :
    readElement (e.encode ++ rest) = some (e, rest) := by
  unfold Element.encode readElement
  rw [List.cons_append, List.append_assoc]
  dsimp only
  rw [if_neg htag, readLength_complete hlength]
  dsimp only
  rw [if_neg (by simp), List.take_left, List.drop_left]

/-- The same for an element with nothing behind it. -/
theorem readOnly_sound {bytes : List UInt8} {e : Element} (h : readOnly bytes = some e) :
    bytes = e.encode := by
  unfold readOnly at h
  split at h
  · rename_i hread
    cases h
    rw [readElement_sound hread, List.append_nil]
  · cases h

/-- In both directions. -/
theorem readOnly_complete {e : Element} (htag : e.tag.toNat % 32 ≠ 31)
    (hlength : (octets e.contents.length).length < 127) : readOnly e.encode = some e := by
  unfold readOnly
  have hread := readElement_complete htag hlength []
  rw [List.append_nil] at hread
  rw [hread]

/-! ## Integers -/

/-- The contents of an INTEGER that is not negative, in the shortest form. -/
def readNatural : List UInt8 → Option ℕ
  | [] => none
  | first :: rest =>
    if 128 ≤ first.toNat ∨ first = 0 ∧ ∃ second ∈ rest.head?, second.toNat < 128 then none
    else some (ofOctets (first :: rest))

/-- A small number is one octet. -/
theorem readNatural_singleton {b : UInt8} (h : b.toNat < 128) : readNatural [b] = some b.toNat := by
  unfold readNatural
  dsimp only
  rw [if_neg, ofOctets_singleton]
  rintro (hneg | ⟨-, second, hsecond, -⟩)
  · omega
  · cases hsecond

end Bluesafe.Der
