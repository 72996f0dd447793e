import Bluesafe.ForStd.TextCut

/-!
# Decoding UTF-8

The decoder of the Encoding Standard. It accepts any bytes: a byte that begins no character, and
the beginning of a character that does not go on, become replacement characters. On the bytes of a
text it gives the text back (`decode_encode`).
-/

namespace Utf8

open Text (replacement)

/-- The UTF-8 bytes of a text. -/
def encode (cs : List Char) : List Nat := (cs.flatMap String.utf8EncodeChar).map UInt8.toNat

/-- A character that has begun: the number of bytes that are missing, the range of the next one,
    and the bits that are known. -/
structure Pending where
  missing : Nat
  low : Nat
  high : Nat
  bits : Nat

/-- A byte between two characters. -/
def first (b : Nat) : List Char × Option Pending :=
  if b < 0x80 then ([Char.ofNat b], none)
  else if 0xC2 ≤ b ∧ b < 0xE0 then ([], some ⟨1, 0x80, 0xBF, b - 0xC0⟩)
  else if 0xE0 ≤ b ∧ b < 0xF0 then
    -- no overlong forms, and no halves of surrogate pairs
    ([], some ⟨2, if b = 0xE0 then 0xA0 else 0x80, if b = 0xED then 0x9F else 0xBF, b - 0xE0⟩)
  else if 0xF0 ≤ b ∧ b < 0xF5 then
    ([], some ⟨3, if b = 0xF0 then 0x90 else 0x80, if b = 0xF4 then 0x8F else 0xBF, b - 0xF0⟩)
  else ([replacement], none)

/-- The text of the bytes after a character that has begun, or between two characters. -/
def decodeFrom : Option Pending → List Nat → List Char
  | none, [] => []
  | some _, [] => [replacement]
  | none, b :: bs => (first b).1 ++ decodeFrom (first b).2 bs
  | some p, b :: bs =>
    if p.low ≤ b ∧ b ≤ p.high then
      if p.missing = 1 then Char.ofNat (p.bits * 64 + (b - 0x80)) :: decodeFrom none bs
      else decodeFrom (some ⟨p.missing - 1, 0x80, 0xBF, p.bits * 64 + (b - 0x80)⟩) bs
    else replacement :: ((first b).1 ++ decodeFrom (first b).2 bs)

/-- `buffer.toString("utf8")`. -/
def decode (bytes : List Nat) : List Char := decodeFrom none bytes

/-- A continuation byte of the character that has begun. -/
theorem decodeFrom_next {p : Pending} {b : Nat} {bs : List Nat} (hlow : p.low ≤ b)
    (hhigh : b ≤ p.high) (hmissing : p.missing ≠ 1) :
    decodeFrom (some p) (b :: bs) =
      decodeFrom (some ⟨p.missing - 1, 0x80, 0xBF, p.bits * 64 + (b - 0x80)⟩) bs := by
  rw [decodeFrom, if_pos ⟨hlow, hhigh⟩, if_neg hmissing]

theorem decodeFrom_last {p : Pending} {b : Nat} {bs : List Nat} (hlow : p.low ≤ b)
    (hhigh : b ≤ p.high) (hmissing : p.missing = 1) :
    decodeFrom (some p) (b :: bs) =
      Char.ofNat (p.bits * 64 + (b - 0x80)) :: decodeFrom none bs := by
  rw [decodeFrom, if_pos ⟨hlow, hhigh⟩, if_pos hmissing]

theorem toNat_ofNat_of_lt {n : Nat} (h : n < 256) : (UInt8.ofNat n).toNat = n := by
  rw [UInt8.toNat_ofNat', Nat.mod_eq_of_lt h]

/-- The bytes of one character are decoded to it. -/
theorem decodeFrom_utf8EncodeChar (c : Char) (bs : List Nat) :
    decodeFrom none ((String.utf8EncodeChar c).map UInt8.toNat ++ bs) = c :: decodeFrom none bs := by
  have hvalid : c.val.toNat < 0xD800 ∨ (0xDFFF < c.val.toNat ∧ c.val.toNat < 0x110000) := c.valid
  have hback : ∀ n, n = c.val.toNat → Char.ofNat n = c := by
    intro n hn
    rw [hn]
    exact Char.ofNat_toNat c
  unfold String.utf8EncodeChar
  dsimp only
  generalize c.val.toNat = v at hvalid hback ⊢
  split
  · -- one byte
    rename_i hone
    simp only [List.map_cons, List.map_nil, List.cons_append, List.nil_append]
    rw [toNat_ofNat_of_lt (by omega), decodeFrom, first, if_pos (by omega)]
    simp [hback]
  · split
    · -- two bytes
      rename_i hone htwo
      simp only [List.map_cons, List.map_nil, List.cons_append, List.nil_append]
      rw [toNat_ofNat_of_lt (by omega), toNat_ofNat_of_lt (by omega), decodeFrom, first,
        if_neg (by omega), if_pos (by omega)]
      rw [List.nil_append, decodeFrom_last (by simp) (by simp; omega) rfl]
      rw [hback _ (by dsimp only; omega)]
    · split
      · -- three bytes
        rename_i hone htwo hthree
        simp only [List.map_cons, List.map_nil, List.cons_append, List.nil_append]
        rw [toNat_ofNat_of_lt (by omega), toNat_ofNat_of_lt (by omega), toNat_ofNat_of_lt (by omega),
          decodeFrom, first, if_neg (by omega), if_neg (by omega), if_pos (by omega)]
        rw [List.nil_append, decodeFrom_next (by dsimp only; split <;> omega)
          (by dsimp only; split <;> omega) (by simp)]
        rw [decodeFrom_last (by simp) (by simp; omega) rfl]
        rw [hback _ (by dsimp only; omega)]
      · -- four bytes
        rename_i hone htwo hthree
        simp only [List.map_cons, List.map_nil, List.cons_append, List.nil_append]
        rw [toNat_ofNat_of_lt (by omega), toNat_ofNat_of_lt (by omega), toNat_ofNat_of_lt (by omega),
          toNat_ofNat_of_lt (by omega), decodeFrom, first, if_neg (by omega), if_neg (by omega),
          if_neg (by omega), if_pos (by omega)]
        rw [List.nil_append, decodeFrom_next (by dsimp only; split <;> omega)
          (by dsimp only; split <;> omega) (by simp)]
        rw [decodeFrom_next (by simp) (by simp; omega) (by simp)]
        rw [decodeFrom_last (by simp) (by simp; omega) rfl]
        rw [hback _ (by dsimp only; omega)]

/-- Decoding undoes encoding. -/
theorem decode_encode (cs : List Char) : decode (encode cs) = cs := by
  unfold decode encode
  induction cs with
  | nil => rfl
  | cons c cs ih => rw [List.flatMap_cons, List.map_append, decodeFrom_utf8EncodeChar, ih]

theorem encode_lt (cs : List Char) : ∀ b ∈ encode cs, b < 256 := by
  intro b hb
  obtain ⟨u, -, rfl⟩ := List.mem_map.mp hb
  exact u.toNat_lt

end Utf8
