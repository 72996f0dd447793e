import Mathlib.Data.List.Basic

/-!
# Base64

The alphabet of base64url without padding, on the UTF-8 bytes of a text. Decoding undoes
encoding (`decodeText_encodeText`).

`read` is the decoder of Node.js, which accepts every text: it reads both alphabets, ends at a
padding character and skips what is in neither alphabet. It undoes both encodings (`read_encode`,
`read_encodePadded`).
-/

namespace Base64

/-- The character of a value below 64. -/
def digit (n : Nat) : Char :=
  if n < 26 then Char.ofNat (65 + n)
  else if n < 52 then Char.ofNat (71 + n)
  else if n < 62 then Char.ofNat (n - 4)
  else if n = 62 then '-' else '_'

/-- The value of a character. -/
def value (c : Char) : Nat :=
  if c = '-' then 62
  else if c = '_' then 63
  else if c.isDigit then c.toNat + 4
  else if c.isUpper then c.toNat - 65
  else c.toNat - 71

/-- A digit has the value it was written for. -/
theorem value_digit {n : Nat} (h : n < 64) : value (digit n) = n := by
  have hall : ∀ n : Fin 64, value (digit n) = n := by decide
  exact hall ⟨n, h⟩

/-- Three bytes become four characters; one or two bytes at the end two or three. -/
def encode : List Nat → List Char
  | [] => []
  | [a] => [digit (a / 4), digit (a % 4 * 16)]
  | [a, b] => [digit (a / 4), digit (a % 4 * 16 + b / 16), digit (b % 16 * 4)]
  | a :: b :: c :: rest =>
    digit (a / 4) :: digit (a % 4 * 16 + b / 16) :: digit (b % 16 * 4 + c / 64) ::
      digit (c % 64) :: encode rest

def decode : List Char → List Nat
  | [] => []
  | [_] => []
  | [x, y] => [value x * 4 + value y / 16]
  | [x, y, z] => [value x * 4 + value y / 16, value y % 16 * 16 + value z / 4]
  | x :: y :: z :: w :: rest =>
    (value x * 4 + value y / 16) :: (value y % 16 * 16 + value z / 4) ::
      (value z % 4 * 64 + value w) :: decode rest

/-- Bytes are read back. -/
theorem decode_encode (bytes : List Nat) (h : ∀ b ∈ bytes, b < 256) :
    decode (encode bytes) = bytes := by
  induction bytes using encode.induct with
  | case1 => rfl
  | case2 a =>
    have ha := h a (by simp)
    rw [encode, decode, value_digit (by omega), value_digit (by omega)]
    congr 1
    omega
  | case3 a b =>
    have ha := h a (by simp)
    have hb := h b (by simp)
    rw [encode, decode, value_digit (by omega), value_digit (by omega), value_digit (by omega)]
    congr 1
    · omega
    · congr 1
      omega
  | case4 a b c rest ih =>
    have ha := h a (by simp)
    have hb := h b (by simp)
    have hc := h c (by simp)
    rw [encode, decode, value_digit (by omega), value_digit (by omega), value_digit (by omega),
      value_digit (by omega), ih fun x hx => h x (by simp [hx])]
    congr 1
    · omega
    · congr 1
      · omega
      · congr 1
        omega

/-- The base64url of the UTF-8 bytes of a text. -/
def encodeText (s : String) : String :=
  String.ofList (encode (s.toByteArray.data.toList.map UInt8.toNat))

/-- The text of decoded bytes, when they are UTF-8. -/
def decodeText (s : String) : String :=
  (String.fromUTF8? ⟨((decode s.toList).map UInt8.ofNat).toArray⟩).getD ""

/-- So are texts. -/
theorem decodeText_encodeText (s : String) : decodeText (encodeText s) = s := by
  -- the bytes of the text are read back
  have hbytes : decode (encode (s.toByteArray.data.toList.map UInt8.toNat)) =
      s.toByteArray.data.toList.map UInt8.toNat := by
    apply decode_encode
    intro b hb
    obtain ⟨u, -, rfl⟩ := List.mem_map.mp hb
    exact u.toNat_lt
  -- and they make the text they came from
  have hback : (s.toByteArray.data.toList.map UInt8.toNat).map UInt8.ofNat =
      s.toByteArray.data.toList := by
    rw [List.map_map]
    exact List.map_id'' (fun u => UInt8.ofNat_toNat) _
  unfold decodeText encodeText
  rw [String.toList_ofList, hbytes, hback, Array.toArray_toList, String.fromUTF8?,
    dif_pos s.isValidUTF8]
  rfl

theorem decodeText_empty : decodeText "" = "" := decodeText_encodeText ""

/-! ## A decoder of any text -/

/-- The values of six bits that make up some bytes. -/
def sextets : List Nat → List Nat
  | [] => []
  | [a] => [a / 4, a % 4 * 16]
  | [a, b] => [a / 4, a % 4 * 16 + b / 16, b % 16 * 4]
  | a :: b :: c :: rest =>
    a / 4 :: (a % 4 * 16 + b / 16) :: (b % 16 * 4 + c / 64) :: c % 64 :: sextets rest

/-- The bytes of values of six bits; bits that make no byte are dropped. -/
def ofSextets : List Nat → List Nat
  | [] => []
  | [_] => []
  | [x, y] => [x * 4 + y / 16]
  | [x, y, z] => [x * 4 + y / 16, y % 16 * 16 + z / 4]
  | x :: y :: z :: w :: rest =>
    (x * 4 + y / 16) :: (y % 16 * 16 + z / 4) :: (z % 4 * 64 + w) :: ofSextets rest

/-- The value of a character of either alphabet, given by its code. -/
def sextet? (n : Nat) : Option Nat :=
  if 65 ≤ n ∧ n ≤ 90 then some (n - 65)
  else if 97 ≤ n ∧ n ≤ 122 then some (n - 71)
  else if 48 ≤ n ∧ n ≤ 57 then some (n + 4)
  else if n = 43 ∨ n = 45 then some 62
  else if n = 47 ∨ n = 95 then some 63
  else none

/-- The low bytes of the UTF-16 code units of a character. -/
def lowBytes (c : Char) : List Nat :=
  if c.toNat < 0x10000 then [c.toNat % 256]
  else [(0xD800 + (c.toNat - 0x10000) / 0x400) % 256, (0xDC00 + c.toNat % 0x400) % 256]

/-- `Buffer.from(s, "base64url")` and `Buffer.from(s, "base64")`, which are the same. -/
def read (cs : List Char) : List Nat :=
  ofSextets (((cs.flatMap lowBytes).takeWhile (· ≠ 61)).filterMap sextet?)

/-- The character of a value in the alphabet of plain base64. -/
def plainDigit (n : Nat) : Char := if n = 62 then '+' else if n = 63 then '/' else digit n

/-- `buffer.toString("base64")`: the characters are padded to a multiple of four. -/
def encodePadded (bytes : List Nat) : List Char :=
  (sextets bytes).map plainDigit ++ List.replicate ((3 - bytes.length % 3) % 3) '='

/-- The digits of the groups of six bits. -/
theorem encode_eq_map (bytes : List Nat) : encode bytes = (sextets bytes).map digit := by
  induction bytes using encode.induct with
  | case1 => rfl
  | case2 a => rfl
  | case3 a b => rfl
  | case4 a b c rest ih =>
    rw [encode, sextets, ih]
    rfl

/-- A group of six bits is less than 64. -/
theorem sextets_lt {bytes : List Nat} (h : ∀ b ∈ bytes, b < 256) : ∀ n ∈ sextets bytes, n < 64 := by
  -- one, two, or three bytes, and so on
  induction bytes using sextets.induct with
  | case1 => simp [sextets]
  | case2 a =>
    have ha := h a (by simp)
    intro n hn
    simp only [sextets, List.mem_cons, List.not_mem_nil, or_false] at hn
    omega
  | case3 a b =>
    have ha := h a (by simp)
    have hb := h b (by simp)
    intro n hn
    simp only [sextets, List.mem_cons, List.not_mem_nil, or_false] at hn
    omega
  | case4 a b c rest ih =>
    have ha := h a (by simp)
    have hb := h b (by simp)
    have hc := h c (by simp)
    intro n hn
    simp only [sextets, List.mem_cons] at hn
    rcases hn with hn | hn | hn | hn | hn
    · omega
    · omega
    · omega
    · omega
    · exact ih (fun x hx => h x (by simp [hx])) n hn

/-- Bytes are read back from their groups. -/
theorem ofSextets_sextets {bytes : List Nat} (h : ∀ b ∈ bytes, b < 256) :
    ofSextets (sextets bytes) = bytes := by
  -- each byte is put together again from the parts of its groups
  induction bytes using sextets.induct with
  | case1 => rfl
  | case2 a =>
    have ha := h a (by simp)
    rw [sextets, ofSextets]
    congr 1
    omega
  | case3 a b =>
    have ha := h a (by simp)
    have hb := h b (by simp)
    rw [sextets, ofSextets]
    congr 1
    · omega
    · congr 1
      omega
  | case4 a b c rest ih =>
    have ha := h a (by simp)
    have hb := h b (by simp)
    have hc := h c (by simp)
    rw [sextets, ofSextets, ih fun x hx => h x (by simp [hx])]
    congr 1
    · omega
    · congr 1
      · omega
      · congr 1
        omega

/-- An alphabet that is read back character by character. -/
theorem read_map {alphabet : Nat → Char} (halphabet : ∀ n < 64, lowBytes (alphabet n) = [(alphabet n).toNat] ∧
    (alphabet n).toNat ≠ 61 ∧ sextet? (alphabet n).toNat = some n) {bytes : List Nat}
    (h : ∀ b ∈ bytes, b < 256) {padding : List Char} (hpadding : ∀ c ∈ padding.head?, c = '=') :
    read ((sextets bytes).map alphabet ++ padding) = bytes := by
  -- padding ends the reading
  have hstop : (padding.flatMap lowBytes).takeWhile (· ≠ 61) = [] := by
    cases padding with
    | nil => rfl
    | cons c cs =>
      rw [hpadding c rfl]
      rfl
  -- up to there each character has the value of its group
  have hchars : ∀ ns : List Nat, (∀ n ∈ ns, n < 64) →
      (((ns.map alphabet ++ padding).flatMap lowBytes).takeWhile (· ≠ 61)).filterMap sextet? = ns := by
    intro ns hns
    induction ns with
    | nil =>
      rw [List.map_nil, List.nil_append, hstop]
      rfl
    | cons n ns ih =>
      obtain ⟨hlow, hne, hvalue⟩ := halphabet n (hns n List.mem_cons_self)
      rw [List.map_cons, List.cons_append, List.flatMap_cons, hlow, List.singleton_append,
        List.takeWhile_cons_of_pos (by simpa using hne), List.filterMap_cons, hvalue,
        ih fun m hm => hns m (List.mem_cons_of_mem _ hm)]
  unfold read
  rw [hchars _ (sextets_lt h), ofSextets_sextets h]

/-- Without padding. -/
theorem read_encode {bytes : List Nat} (h : ∀ b ∈ bytes, b < 256) : read (encode bytes) = bytes := by
  have halphabet : ∀ n : Fin 64, lowBytes (digit n) = [(digit n).toNat] ∧
      (digit n).toNat ≠ 61 ∧ sextet? (digit n).toNat = some n.val := by decide
  rw [encode_eq_map, ← List.append_nil (List.map digit _)]
  exact read_map (fun n hn => halphabet ⟨n, hn⟩) h (by simp)

/-- And with it. -/
theorem read_encodePadded {bytes : List Nat} (h : ∀ b ∈ bytes, b < 256) :
    read (encodePadded bytes) = bytes := by
  have halphabet : ∀ n : Fin 64, lowBytes (plainDigit n) = [(plainDigit n).toNat] ∧
      (plainDigit n).toNat ≠ 61 ∧ sextet? (plainDigit n).toNat = some n.val := by decide
  apply read_map (fun n hn => halphabet ⟨n, hn⟩) h
  intro c hc
  exact List.eq_of_mem_replicate (List.mem_of_mem_head? hc)

example : read "YW=Jj".toList = [97] := by decide

end Base64
