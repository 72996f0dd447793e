import Bluesafe.ForStd.TextCut

/-!
# Strings of UTF-16 code units

A string of JavaScript is any list of code units. Two surrogates may make a character; a surrogate
that makes none is kept as it is (`flatMap_units_codePoints`), and becomes a replacement character
in UTF-8.
-/

/-- A string, by its code units. -/
abbrev JsString : Type := List UInt16

namespace JsString

/-- The code units of a character. -/
def charUnits (c : Char) : JsString :=
  if c.toNat < 0x10000 then [UInt16.ofNat c.toNat]
  else [UInt16.ofNat (0xD800 + (c.toNat - 0x10000) / 0x400), UInt16.ofNat (0xDC00 + c.toNat % 0x400)]

/-- The string of some characters. -/
def ofChars (cs : List Char) : JsString := cs.flatMap charUnits

/-- A character, or a surrogate without its other half. -/
inductive CodePoint
  | char (c : Char)
  | lone (u : UInt16)
  deriving DecidableEq

def CodePoint.units : CodePoint → JsString
  | char c => charUnits c
  | lone u => [u]

/-- A code unit that is no half of a character. -/
def single (u : UInt16) : CodePoint :=
  if 0xD800 ≤ u.toNat ∧ u.toNat < 0xE000 then .lone u else .char (Char.ofNat u.toNat)

/-- A high and a low surrogate. -/
def IsPair (u v : UInt16) : Prop :=
  (0xD800 ≤ u.toNat ∧ u.toNat < 0xDC00) ∧ 0xDC00 ≤ v.toNat ∧ v.toNat < 0xE000

instance : Decidable (IsPair u v) := inferInstanceAs (Decidable (_ ∧ _))

/-- The character of a high and a low surrogate. -/
def pairChar (u v : UInt16) : Char :=
  Char.ofNat (0x10000 + (u.toNat - 0xD800) * 0x400 + (v.toNat - 0xDC00))

/-- The characters of a string, and its surrogates that make none. -/
def codePoints : JsString → List CodePoint
  | [] => []
  | [u] => [single u]
  | u :: v :: us =>
    if IsPair u v then .char (pairChar u v) :: codePoints us else single u :: codePoints (v :: us)

theorem toNat_ofNat_of_valid {n : Nat} (h : n < 0xD800 ∨ (0xDFFF < n ∧ n < 0x110000)) :
    (Char.ofNat n).toNat = n := by
  have hvalid : n.isValidChar := by
    unfold Nat.isValidChar
    omega
  rw [Char.ofNat, dif_pos hvalid]
  rfl

theorem units_single (u : UInt16) : (single u).units = [u] := by
  have hlt : u.toNat < 0x10000 := u.toNat_lt
  unfold single
  split
  · rfl
  · rename_i hsurrogate
    have hchar : (Char.ofNat u.toNat).toNat = u.toNat := toNat_ofNat_of_valid (by omega)
    rw [CodePoint.units, charUnits, hchar, if_pos hlt, UInt16.ofNat_toNat]

theorem charUnits_pairChar {u v : UInt16} (h : IsPair u v) : charUnits (pairChar u v) = [u, v] := by
  obtain ⟨hu, hv⟩ := h
  have hchar : (pairChar u v).toNat =
      0x10000 + (u.toNat - 0xD800) * 0x400 + (v.toNat - 0xDC00) := toNat_ofNat_of_valid (by omega)
  have hhigh : 0xD800 + ((pairChar u v).toNat - 0x10000) / 0x400 = u.toNat := by omega
  have hlow : 0xDC00 + (pairChar u v).toNat % 0x400 = v.toNat := by omega
  rw [charUnits, if_neg (by omega), hhigh, hlow, UInt16.ofNat_toNat, UInt16.ofNat_toNat]

/-- Nothing is lost. -/
theorem flatMap_units_codePoints (us : JsString) : (codePoints us).flatMap CodePoint.units = us := by
  induction us using codePoints.induct with
  | case1 => rfl
  | case2 u =>
    rw [codePoints, List.flatMap_cons, units_single]
    rfl
  | case3 u v us hpair ih =>
    rw [codePoints, if_pos hpair, List.flatMap_cons, ih, CodePoint.units, charUnits_pairChar hpair]
    rfl
  | case4 u v us hpair ih =>
    rw [codePoints, if_neg hpair, List.flatMap_cons, ih, units_single]
    rfl

/-- A code unit that begins no pair is read alone. -/
theorem codePoints_cons {u : UInt16} (h : ¬ (0xD800 ≤ u.toNat ∧ u.toNat < 0xDC00)) (us : JsString) :
    codePoints (u :: us) = single u :: codePoints us := by
  cases us with
  | nil => rw [codePoints, codePoints]
  | cons v us => rw [codePoints, if_neg fun hpair => h hpair.1]

/-- A character is read back from its code units. -/
theorem codePoints_charUnits_append (c : Char) (us : JsString) :
    codePoints (charUnits c ++ us) = .char c :: codePoints us := by
  have hvalid : c.toNat < 0xD800 ∨ (0xDFFF < c.toNat ∧ c.toNat < 0x110000) := c.valid
  unfold charUnits
  split
  · rename_i hbmp
    have hunit : (UInt16.ofNat c.toNat).toNat = c.toNat := by
      rw [UInt16.toNat_ofNat', Nat.mod_eq_of_lt (by omega)]
    rw [List.singleton_append, codePoints_cons (by omega), single, if_neg (by omega), hunit,
      Char.ofNat_toNat]
  · rename_i hbmp
    have hhigh : (UInt16.ofNat (0xD800 + (c.toNat - 0x10000) / 0x400)).toNat =
        0xD800 + (c.toNat - 0x10000) / 0x400 := by
      rw [UInt16.toNat_ofNat', Nat.mod_eq_of_lt (by omega)]
    have hlow : (UInt16.ofNat (0xDC00 + c.toNat % 0x400)).toNat = 0xDC00 + c.toNat % 0x400 := by
      rw [UInt16.toNat_ofNat', Nat.mod_eq_of_lt (by omega)]
    -- the two halves are a pair, and its character is `c`
    rw [List.cons_append, List.singleton_append, codePoints, if_pos ⟨by omega, by omega⟩, pairChar,
      hhigh, hlow]
    have hchar : 0x10000 + (0xD800 + (c.toNat - 0x10000) / 0x400 - 0xD800) * 0x400 +
        (0xDC00 + c.toNat % 0x400 - 0xDC00) = c.toNat := by omega
    rw [hchar, Char.ofNat_toNat]

/-- A string of characters has no other code points. -/
theorem codePoints_ofChars (cs : List Char) : codePoints (ofChars cs) = cs.map .char := by
  induction cs with
  | nil => rfl
  | cons c cs ih =>
    have hofChars : ofChars (c :: cs) = charUnits c ++ ofChars cs := rfl
    rw [hofChars, codePoints_charUnits_append, ih, List.map_cons]

theorem ofChars_inj {cs cs' : List Char} (h : ofChars cs = ofChars cs') : cs = cs' := by
  have hpoints := congrArg codePoints h
  rw [codePoints_ofChars, codePoints_ofChars] at hpoints
  exact List.map_injective_iff.mpr (fun c c' hc => CodePoint.char.inj hc) hpoints

/-! ## Texts -/

/-- The character that a text of characters has in the place of a code point. -/
def CodePoint.toChar : CodePoint → Char
  | char c => c
  | lone _ => Text.replacement

/-- The string as a text of characters. A surrogate without its other half is no character and
    becomes the replacement character. -/
def toText (us : JsString) : String := String.ofList ((codePoints us).map CodePoint.toChar)

/-! ## UTF-8 -/

def CodePoint.utf8 : CodePoint → List UInt8
  | char c => String.utf8EncodeChar c
  | lone _ => String.utf8EncodeChar Text.replacement

/-- `Buffer.from(s, "utf8")`. -/
def utf8 (us : JsString) : List UInt8 := (codePoints us).flatMap CodePoint.utf8

theorem utf8EncodeChar_ascii {c : Char} (h : c.toNat < 128) :
    String.utf8EncodeChar c = [UInt8.ofNat c.toNat] := by
  have hone : c.val.toNat ≤ 0x7f := Nat.le_of_lt_succ h
  unfold String.utf8EncodeChar
  dsimp only
  rw [if_pos hone]
  rfl

/-- Other characters begin with a byte that is not ASCII. -/
theorem exists_mem_utf8EncodeChar {c : Char} (h : 128 ≤ c.toNat) :
    ∃ b ∈ String.utf8EncodeChar c, 128 ≤ b.toNat := by
  have hvalid : c.val.toNat < 0xD800 ∨ (0xDFFF < c.val.toNat ∧ c.val.toNat < 0x110000) := c.valid
  have hval : 128 ≤ c.val.toNat := h
  unfold String.utf8EncodeChar
  -- the number of the character decides how many bytes it takes
  dsimp only
  generalize c.val.toNat = v at hvalid hval ⊢
  rw [if_neg (by omega)]
  -- two, three or four bytes: the first of them is large
  split
  · refine ⟨_, List.mem_cons_self, ?_⟩
    rw [UInt8.toNat_ofNat']
    omega
  · split
    · refine ⟨_, List.mem_cons_self, ?_⟩
      rw [UInt8.toNat_ofNat']
      omega
    · refine ⟨_, List.mem_cons_self, ?_⟩
      rw [UInt8.toNat_ofNat']
      omega

/-- ASCII is one byte a code unit. -/
theorem utf8_ascii {us : JsString} (h : ∀ u ∈ us, u.toNat < 128) :
    utf8 us = us.map fun u => UInt8.ofNat u.toNat := by
  -- a unit below `128` is one character and one byte
  have hsingle : ∀ u : UInt16, u.toNat < 128 → (single u).utf8 = [UInt8.ofNat u.toNat] := by
    intro u hu
    have hchar : (Char.ofNat u.toNat).toNat = u.toNat := toNat_ofNat_of_valid (by omega)
    rw [single, if_neg (by omega), CodePoint.utf8, utf8EncodeChar_ascii (by omega), hchar]
  unfold utf8
  -- induction on the code points of the text
  induction us using codePoints.induct with
  | case1 => rfl
  | case2 u =>
    rw [codePoints, List.flatMap_cons, hsingle u (h u (by simp))]
    rfl
  -- a surrogate pair is above that range, so it does not occur
  | case3 u v us hpair ih =>
    have hu := h u (by simp)
    exact absurd hpair.1.1 (by omega)
  | case4 u v us hpair ih =>
    rw [codePoints, if_neg hpair, List.flatMap_cons, hsingle u (h u (by simp)),
      ih fun w hw => h w (List.mem_cons_of_mem _ hw)]
    rfl

/-- Only ASCII has these bytes. -/
theorem ascii_of_utf8 {us : JsString} (h : ∀ b ∈ utf8 us, b.toNat < 128) :
    ∀ u ∈ us, u.toNat < 128 := by
  -- the unit belongs to a code point, whose bytes are all small
  intro u hu
  rw [← flatMap_units_codePoints us] at hu
  obtain ⟨p, hp, hu⟩ := List.mem_flatMap.mp hu
  have hbytes : ∀ b ∈ p.utf8, b.toNat < 128 := fun b hb => h b (List.mem_flatMap.mpr ⟨p, hp, hb⟩)
  cases p with
  -- a lone surrogate would be replaced by a character with large bytes
  | lone v =>
    obtain ⟨b, hb, hlarge⟩ := exists_mem_utf8EncodeChar (show 128 ≤ Text.replacement.toNat by decide)
    have hsmall := hbytes b hb
    omega
  | char c =>
    by_cases hc : c.toNat < 128
    · rw [CodePoint.units, charUnits, if_pos (by omega), List.mem_singleton] at hu
      rw [hu, UInt16.toNat_ofNat']
      omega
    -- so would a character that is not ASCII
    · obtain ⟨b, hb, hlarge⟩ := exists_mem_utf8EncodeChar (Nat.le_of_not_lt hc)
      have hsmall := hbytes b hb
      omega

/-- A string with the bytes of an ASCII string is this string. -/
theorem eq_of_utf8_eq {us vs : JsString} (hvs : ∀ v ∈ vs, v.toNat < 128)
    (h : utf8 us = utf8 vs) : us = vs := by
  have hbytes : ∀ b ∈ utf8 us, b.toNat < 128 := by
    rw [h, utf8_ascii hvs]
    intro b hb
    obtain ⟨v, hv, rfl⟩ := List.mem_map.mp hb
    have hlt := hvs v hv
    rw [UInt8.toNat_ofNat']
    omega
  have hus := ascii_of_utf8 hbytes
  rw [utf8_ascii hvs, utf8_ascii hus] at h
  -- the bytes give the code units back
  have hback : ∀ ws : JsString, (∀ w ∈ ws, w.toNat < 128) →
      (ws.map fun w => UInt8.ofNat w.toNat).map (fun b => UInt16.ofNat b.toNat) = ws := by
    intro ws hws
    rw [List.map_map]
    apply (List.map_congr_left fun w hw => ?_).trans (List.map_id ws)
    have hlt := hws w hw
    rw [Function.comp_apply, UInt8.toNat_ofNat', Nat.mod_eq_of_lt (by omega), UInt16.ofNat_toNat]
    rfl
  rw [← hback us hus, ← hback vs hvs, h]

end JsString
