import Mathlib.Data.List.Basic

/-!
# Text encodings

What `JSON.stringify` makes of a string (`quote`) and of an object whose values are given
as text (`object`), and the length and the upper-case hexadecimal of the UTF-8 bytes of a
text (`byteLength`, `hexOf`). A text that is built here is a list of characters, which can
be taken apart and evaluated without decoding it.

A quoted string can be read back from the front of a longer text: `readChar` undoes one
`escape`, and a quotation mark ends the string (`readString`). This is what makes two objects
with the same keys and different strings different texts.
-/

namespace Text

/-! ## Hexadecimal digits -/

/-- A digit of a `\u` escape; `JSON.stringify` writes them in lower case. -/
def hexDigit (n : Nat) : Char :=
  Char.ofNat (if n < 10 then 48 + n else 87 + n)

/-- The value of a digit. -/
def hexValue (c : Char) : Nat :=
  if c.toNat < 58 then c.toNat - 48 else c.toNat - 87

/-- A hexadecimal digit has the value it was written for. -/
theorem hexValue_hexDigit {n : Nat} (h : n < 16) : hexValue (hexDigit n) = n := by
  have hall : ∀ n : Fin 16, hexValue (hexDigit n) = n := by decide
  exact hall ⟨n, h⟩

/-- A digit of the hexadecimal of a byte, in upper case. -/
def upperHexDigit (n : Nat) : Char :=
  Char.ofNat (if n < 10 then 48 + n else 55 + n)

/-- Different values have different digits. -/
theorem upperHexDigit_inj {n m : Nat} (hn : n < 16) (hm : m < 16)
    (h : upperHexDigit n = upperHexDigit m) : n = m := by
  have hall : ∀ n m : Fin 16, upperHexDigit n = upperHexDigit m → n = m := by decide
  exact congrArg Fin.val (hall ⟨n, hn⟩ ⟨m, hm⟩ h)

/-! ## Quoted strings -/

/-- One character inside a quoted string. -/
def escape (c : Char) : List Char :=
  if c = '"' then ['\\', '"']
  else if c = '\\' then ['\\', '\\']
  else if c = '\x08' then ['\\', 'b']
  else if c = '\x0c' then ['\\', 'f']
  else if c = '\n' then ['\\', 'n']
  else if c = '\r' then ['\\', 'r']
  else if c = '\t' then ['\\', 't']
  else if c.toNat < 32 then
    ['\\', 'u', '0', '0', hexDigit (c.toNat / 16), hexDigit (c.toNat % 16)]
  else [c]

/-- `JSON.stringify` of a string. -/
def quote (s : String) : List Char :=
  '"' :: (s.toList.flatMap escape ++ ['"'])

/-- The character a text inside a quoted string starts with, and what follows it; `none` at
    the closing quotation mark. -/
def readChar : List Char → Option (Char × List Char)
  | [] => none
  | '"' :: _ => none
  | '\\' :: 'u' :: '0' :: '0' :: a :: b :: rest =>
    some (Char.ofNat (16 * hexValue a + hexValue b), rest)
  | '\\' :: 'b' :: rest => some ('\x08', rest)
  | '\\' :: 'f' :: rest => some ('\x0c', rest)
  | '\\' :: 'n' :: rest => some ('\n', rest)
  | '\\' :: 'r' :: rest => some ('\r', rest)
  | '\\' :: 't' :: rest => some ('\t', rest)
  | '\\' :: c :: rest => some (c, rest)
  | c :: rest => some (c, rest)

/-- Reading a character undoes its escape. -/
theorem readChar_escape (c : Char) (rest : List Char) :
    readChar (escape c ++ rest) = some (c, rest) := by
  unfold escape
  split_ifs with h₁ h₂ h₃ h₄ h₅ h₆ h₇ h₈
  · rw [h₁]; rfl
  · rw [h₂]; rfl
  · rw [h₃]; rfl
  · rw [h₄]; rfl
  · rw [h₅]; rfl
  · rw [h₆]; rfl
  · rw [h₇]; rfl
  · -- The two digits give the code point back.
    have hhi : hexValue (hexDigit (c.toNat / 16)) = c.toNat / 16 := hexValue_hexDigit (by omega)
    have hlo : hexValue (hexDigit (c.toNat % 16)) = c.toNat % 16 := hexValue_hexDigit (by omega)
    show some (Char.ofNat (16 * hexValue _ + hexValue _), rest) = _
    rw [hhi, hlo, Nat.div_add_mod, Char.ofNat_toNat]
  · simp only [List.cons_append, List.nil_append]
    unfold readChar
    split <;> simp_all

/-- The body of a quoted string ends at its first quotation mark that is not escaped. -/
private theorem body_inj {cs cs' rest rest' : List Char}
    (h : cs.flatMap escape ++ '"' :: rest = cs'.flatMap escape ++ '"' :: rest') :
    cs = cs' ∧ rest = rest' := by
  induction cs generalizing cs' with
  | nil =>
    cases cs' with
    | nil => exact ⟨rfl, (List.cons.inj h).2⟩
    | cons c' cs' =>
      rw [List.flatMap_cons, List.append_assoc] at h
      have hread := congrArg readChar h
      rw [readChar_escape] at hread
      exact nomatch hread
  | cons c cs ih =>
    cases cs' with
    | nil =>
      rw [List.flatMap_cons, List.append_assoc] at h
      have hread := congrArg readChar h
      rw [readChar_escape] at hread
      exact nomatch hread
    | cons c' cs' =>
      rw [List.flatMap_cons, List.flatMap_cons, List.append_assoc, List.append_assoc] at h
      -- Both texts start with one escaped character: read it.
      have hread := congrArg readChar h
      rw [readChar_escape, readChar_escape, Option.some.injEq, Prod.mk.injEq] at hread
      obtain ⟨hcs, hrest⟩ := ih hread.2
      exact ⟨by rw [hread.1, hcs], hrest⟩

/-- A quoted string can be read off the front of a text. -/
theorem quote_append_inj {s s' : String} {rest rest' : List Char}
    (h : quote s ++ rest = quote s' ++ rest') : s = s' ∧ rest = rest' := by
  simp only [quote, List.cons_append, List.append_assoc, List.nil_append, List.cons.injEq,
    true_and] at h
  obtain ⟨hs, hrest⟩ := body_inj h
  exact ⟨String.toList_inj.mp hs, hrest⟩

/-- The characters up to the closing quotation mark, and what follows it. The number bounds
    the characters that are read. -/
def readBody : Nat → List Char → Option (List Char × List Char)
  | 0, _ => none
  | n + 1, cs =>
    match readChar cs with
    | some (c, rest) => (readBody n rest).map fun r => (c :: r.1, r.2)
    | none => if cs.head? = some '"' then some ([], cs.tail) else none

/-- A quoted string at the front of a text. -/
def readString : List Char → Option (String × List Char)
  | '"' :: body => (readBody (body.length + 1) body).map fun r => (String.ofList r.1, r.2)
  | _ => none

/-- An escaped text is read up to its closing quote. -/
theorem readBody_flatMap {cs rest : List Char} {n : Nat} (h : cs.length < n) :
    readBody n (cs.flatMap escape ++ '"' :: rest) = some (cs, rest) := by
  induction n generalizing cs with
  | zero => omega
  | succ n ih =>
    cases cs with
    | nil => rfl
    | cons c cs =>
      rw [List.flatMap_cons, List.append_assoc, readBody, readChar_escape]
      simp only [ih (Nat.lt_of_succ_lt_succ h), Option.map_some]

/-- Escaping does not shorten a text. -/
theorem length_le_flatMap_escape (cs : List Char) : cs.length ≤ (cs.flatMap escape).length := by
  induction cs with
  | nil => exact Nat.le_refl 0
  | cons c cs ih =>
    have hpos : 0 < (escape c).length := by
      unfold escape
      split_ifs <;> simp
    rw [List.flatMap_cons, List.length_append, List.length_cons]
    omega

/-- Reading a string undoes quoting it. -/
theorem readString_quote (s : String) (rest : List Char) :
    readString (quote s ++ rest) = some (s, rest) := by
  have hlen := length_le_flatMap_escape s.toList
  rw [quote, List.cons_append, List.append_assoc, List.singleton_append, readString,
    readBody_flatMap (by rw [List.length_append]; omega), Option.map_some, String.ofList_toList]

/-! ## Objects -/

/-- The members of an object, each a key with the text of its value. -/
def members : List (String × List Char) → List Char
  | [] => []
  | [m] => quote m.1 ++ ':' :: m.2
  | m :: ms => quote m.1 ++ ':' :: (m.2 ++ ',' :: members ms)

/-- `JSON.stringify` of an object. -/
def object (ms : List (String × List Char)) : List Char :=
  '{' :: (members ms ++ ['}'])

/-- `JSON.stringify` of an array whose values are given as text. -/
def array (vs : List (List Char)) : List Char :=
  '[' :: ((vs.intersperse [',']).flatten ++ [']'])

/-- The first of two or more members can be read off an object, when its value is a
    string. -/
theorem members_cons_inj {k v v' : String} {m m' : String × List Char}
    {ms ms' : List (String × List Char)} {rest rest' : List Char}
    (h : members ((k, quote v) :: m :: ms) ++ rest = members ((k, quote v') :: m' :: ms') ++ rest') :
    v = v' ∧ members (m :: ms) ++ rest = members (m' :: ms') ++ rest' := by
  simp only [members, List.append_assoc, List.cons_append] at h
  have hkey := (quote_append_inj h).2
  rw [List.cons.injEq] at hkey
  obtain ⟨hv, hrest⟩ := quote_append_inj hkey.2
  exact ⟨hv, (List.cons.inj hrest).2⟩

/-- Objects with one text have members with one text. -/
theorem object_inj {ms ms' : List (String × List Char)} (h : object ms = object ms') :
    members ms ++ ['}'] = members ms' ++ ['}'] :=
  (List.cons.inj h).2

/-! ## UTF-8 -/

/-- The number of UTF-8 bytes of a text. -/
def byteLength (cs : List Char) : Nat :=
  cs.foldl (fun n c => n + c.utf8Size) 0

/-- The two digits of a byte. -/
def hexByte (b : UInt8) : List Char :=
  [upperHexDigit (b.toNat / 16), upperHexDigit (b.toNat % 16)]

/-- The hexadecimal of the UTF-8 bytes of a text. -/
def hexOf (cs : List Char) : String :=
  String.ofList ((cs.flatMap String.utf8EncodeChar).flatMap hexByte)

/-- Different bytes have different digits. -/
private theorem hexBytes_inj {bs bs' : List UInt8}
    (h : bs.flatMap hexByte = bs'.flatMap hexByte) : bs = bs' := by
  induction bs generalizing bs' with
  | nil =>
    cases bs' with
    | nil => rfl
    | cons b' bs' => exact nomatch h
  | cons b bs ih =>
    cases bs' with
    | nil => exact nomatch h
    | cons b' bs' =>
      simp only [List.flatMap_cons, hexByte, List.cons_append, List.nil_append, List.cons.injEq]
        at h
      obtain ⟨hhi, hlo, hrest⟩ := h
      have hb : b.toNat < 256 := UInt8.toNat_lt b
      have hb' : b'.toNat < 256 := UInt8.toNat_lt b'
      have hdiv := upperHexDigit_inj (by omega) (by omega) hhi
      have hmod := upperHexDigit_inj (by omega) (by omega) hlo
      have hbyte : b = b' := UInt8.toNat_inj.mp (by omega)
      rw [hbyte, ih hrest]

/-- Different texts have different digits. -/
theorem hexOf_inj {cs cs' : List Char} (h : hexOf cs = hexOf cs') : cs = cs' := by
  have hbytes := hexBytes_inj (String.ofList_inj.mp h)
  have hutf8 : (String.ofList cs).toByteArray = (String.ofList cs').toByteArray := by
    rw [String.toByteArray_ofList, String.toByteArray_ofList, List.utf8Encode, List.utf8Encode,
      hbytes]
  exact String.ofList_inj.mp (String.toByteArray_inj.mp hutf8)

end Text
