import Bluesafe.ForStd.NumberLiteral
import Bluesafe.ForStd.Utf16

/-!
# Parsing JSON

`JSON.parse` on any text: white space, the escapes of strings, number literals, nested arrays and
objects. A string is a list of code units, so an escaped surrogate without its other half is kept,
and a number has its exact value. The bound of the recursion is always enough (`JsValue.parse_eq_of_le`),
and parsing undoes `JSON.stringify` (`JsValue.parse_text`).
-/

open JsString (CodePoint)

/-- A JSON value with strings of code units; an object lists its members in order. -/
inductive JsValue
  | null
  | bool (b : Bool)
  | num (x : JsNumber)
  | str (s : JsString)
  | arr (items : List JsValue)
  | obj (members : List (JsString × JsValue))

namespace JsValue

/-! ## Texts -/

/-- The escape of a surrogate without its other half. -/
def escapeUnit (u : UInt16) : List Char :=
  ['\\', 'u', Text.hexDigit (u.toNat / 4096), Text.hexDigit (u.toNat / 256 % 16),
    Text.hexDigit (u.toNat / 16 % 16), Text.hexDigit (u.toNat % 16)]

def escape : CodePoint → List Char
  | .char c => Text.escape c
  | .lone u => escapeUnit u

/-- `JSON.stringify` of a string. -/
def quote (s : JsString) : List Char :=
  '"' :: ((JsString.codePoints s).flatMap escape ++ ['"'])

mutual

/-- `JSON.stringify`. -/
def text : JsValue → List Char
  | null => "null".toList
  | bool b => (if b then "true" else "false").toList
  | num x => x.text
  | str s => quote s
  | arr items => '[' :: itemsText items
  | obj members => '{' :: membersText members

/-- The items of an array, and its end. -/
def itemsText : List JsValue → List Char
  | [] => [']']
  | v :: vs => text v ++ moreItems vs

/-- The items after the first. -/
def moreItems : List JsValue → List Char
  | [] => [']']
  | v :: vs => ',' :: (text v ++ moreItems vs)

/-- The members of an object, and its end. -/
def membersText : List (JsString × JsValue) → List Char
  | [] => ['}']
  | (k, v) :: ms => quote k ++ ':' :: (text v ++ moreMembers ms)

/-- The members after the first. -/
def moreMembers : List (JsString × JsValue) → List Char
  | [] => ['}']
  | (k, v) :: ms => ',' :: (quote k ++ ':' :: (text v ++ moreMembers ms))

end

/-! ## Strings -/

/-- Where the reader of a string is: between two characters, behind a backslash, or in an escape
    of which some digits are missing. -/
inductive Place
  | plain
  | escaped
  | hex (missing value : Nat)

/-- The code unit of an escape of one character. -/
def unescape (c : Char) : Option UInt16 :=
  if c = '"' ∨ c = '\\' ∨ c = '/' then some (UInt16.ofNat c.toNat)
  else if c = 'b' then some 8
  else if c = 'f' then some 12
  else if c = 'n' then some 10
  else if c = 'r' then some 13
  else if c = 't' then some 9
  else none

/-- The value of a hexadecimal digit. -/
def hexValue? (c : Char) : Option Nat :=
  if c.isDigit then some (c.toNat - 48)
  else if 'a' ≤ c ∧ c ≤ 'f' then some (c.toNat - 87)
  else if 'A' ≤ c ∧ c ≤ 'F' then some (c.toNat - 55)
  else none

/-- Code units in front of what is read. -/
def prepend (us : JsString) (r : Option (JsString × List Char)) : Option (JsString × List Char) :=
  r.map fun r => (us ++ r.1, r.2)

/-- A string up to its closing quotation mark. -/
def readString : Place → List Char → Option (JsString × List Char)
  | _, [] => none
  | .plain, c :: cs =>
    if c = '"' then some ([], cs)
    else if c = '\\' then readString .escaped cs
    else if c.toNat < 32 then none
    else prepend (JsString.charUnits c) (readString .plain cs)
  | .escaped, c :: cs =>
    if c = 'u' then readString (.hex 4 0) cs
    else match unescape c with
      | none => none
      | some u => prepend [u] (readString .plain cs)
  | .hex missing value, c :: cs =>
    match hexValue? c with
    | none => none
    | some d =>
      if missing = 1 then prepend [UInt16.ofNat (value * 16 + d)] (readString .plain cs)
      else readString (.hex (missing - 1) (value * 16 + d)) cs

/-! ## Values -/

def isSpace (c : Char) : Bool := c = ' ' || c = '\t' || c = '\n' || c = '\r'

def skipSpace (cs : List Char) : List Char := cs.dropWhile isSpace

/-- The key of a member. -/
def readKey (cs : List Char) : Option (JsString × List Char) :=
  if (skipSpace cs).head? = some '"' then readString .plain (skipSpace cs).tail else none

/-- The colon behind a key. -/
def readColon (cs : List Char) : Option (List Char) :=
  if (skipSpace cs).head? = some ':' then some (skipSpace cs).tail else none

/-- A word, of which the first letter is read. -/
def readWord (letters : List Char) (v : JsValue) (cs : List Char) : Option (JsValue × List Char) :=
  if cs.take letters.length = letters then some (v, cs.drop letters.length) else none

mutual

/-- A value at the front of a text; the number bounds the depth of the recursion. -/
def readValue : Nat → List Char → Option (JsValue × List Char)
  | 0, _ => none
  | n + 1, cs =>
    match skipSpace cs with
    | [] => none
    | c :: cs =>
      if c = '"' then (readString .plain cs).map fun r => (str r.1, r.2)
      else if c = '[' then
        if (skipSpace cs).head? = some ']' then some (arr [], (skipSpace cs).tail)
        else (readItems n cs).map fun r => (arr r.1, r.2)
      else if c = '{' then
        if (skipSpace cs).head? = some '}' then some (obj [], (skipSpace cs).tail)
        else (readMembers n cs).map fun r => (obj r.1, r.2)
      else if c = 'n' then readWord ['u', 'l', 'l'] null cs
      else if c = 't' then readWord ['r', 'u', 'e'] (bool true) cs
      else if c = 'f' then readWord ['a', 'l', 's', 'e'] (bool false) cs
      else (JsNumber.readNumber (c :: cs)).map fun r => (num r.1, r.2)

/-- The items of an array, of which there is at least one, and its end. -/
def readItems : Nat → List Char → Option (List JsValue × List Char)
  | 0, _ => none
  | n + 1, cs => do
    let (v, cs) ← readValue n cs
    match skipSpace cs with
    | [] => none
    | c :: cs =>
      if c = ']' then some ([v], cs)
      else if c = ',' then (readItems n cs).map fun r => (v :: r.1, r.2)
      else none

/-- The members of an object, of which there is at least one, and its end. -/
def readMembers : Nat → List Char → Option (List (JsString × JsValue) × List Char)
  | 0, _ => none
  | n + 1, cs => do
    let (k, cs) ← readKey cs
    let cs ← readColon cs
    let (v, cs) ← readValue n cs
    match skipSpace cs with
    | [] => none
    | c :: cs =>
      if c = '}' then some ([(k, v)], cs)
      else if c = ',' then (readMembers n cs).map fun r => ((k, v) :: r.1, r.2)
      else none

end

/-- `JSON.parse`; a syntax error is `none`. -/
def parse (cs : List Char) : Option JsValue :=
  (readValue (2 * cs.length) cs).bind fun r => if skipSpace r.2 = [] then some r.1 else none

/-- `o[k]` on the members of a parsed object: of members with one key the last counts. -/
def field (ms : List (JsString × JsValue)) (k : JsString) : Option JsValue :=
  (ms.reverse.find? fun m => decide (m.1 = k)).map Prod.snd

/-! ## The bound -/

/-- A reader leaves no more than it was given. -/
def Leaves {α : Type} (read : List Char → Option (α × List Char)) : Prop :=
  ∀ cs r, read cs = some r → r.2.length ≤ cs.length

/-- Skipping spaces leaves no more than there was. -/
theorem length_skipSpace_le (cs : List Char) : (skipSpace cs).length ≤ cs.length :=
  (List.dropWhile_sublist _).length_le

/-- A string leaves the rest of its text. -/
theorem leaves_readString (place : Place) : Leaves (readString place) := by
  intro cs r h
  induction cs generalizing place r with
  | nil =>
    rw [readString] at h
    cases h
  | cons c cs ih =>
    -- a character that is read leaves what the rest of the string leaves
    have hprepend : ∀ us place', prepend us (readString place' cs) = some r → r.2.length ≤ cs.length := by
      intro us place' hr
      obtain ⟨r', hr', rfl⟩ := Option.map_eq_some_iff.mp hr
      exact ih place' r' hr'
    rw [List.length_cons]
    cases place with
    | plain =>
      rw [readString] at h
      split at h
      · cases h
        exact Nat.le_succ _
      · split at h
        · exact Nat.le_succ_of_le (ih _ _ h)
        · split at h
          · cases h
          · exact Nat.le_succ_of_le (hprepend _ _ h)
    | escaped =>
      rw [readString] at h
      split at h
      · exact Nat.le_succ_of_le (ih _ _ h)
      · split at h
        · cases h
        · exact Nat.le_succ_of_le (hprepend _ _ h)
    | hex missing value =>
      rw [readString] at h
      split at h
      · cases h
      · split at h
        · exact Nat.le_succ_of_le (hprepend _ _ h)
        · exact Nat.le_succ_of_le (ih _ _ h)

/-- A word leaves the rest. -/
theorem leaves_readWord (letters : List Char) (v : JsValue) : Leaves (readWord letters v) := by
  intro cs r h
  unfold readWord at h
  split at h
  · cases h
    rw [List.length_drop]
    omega
  · cases h

/-- The key of a member is shorter than the text in front of it. -/
theorem length_readKey {cs : List Char} {r : JsString × List Char} (h : readKey cs = some r) :
    r.2.length < cs.length := by
  have hskip := length_skipSpace_le cs
  unfold readKey at h
  split at h
  · rename_i hhead
    have hread := leaves_readString .plain _ _ h
    obtain ⟨rest, hrest⟩ := List.head?_eq_some_iff.mp hhead
    rw [hrest, List.tail_cons] at hread
    rw [hrest, List.length_cons] at hskip
    exact Nat.lt_of_le_of_lt hread hskip
  · cases h

/-- So does a colon. -/
theorem length_readColon {cs cs' : List Char} (h : readColon cs = some cs') :
    cs'.length ≤ cs.length := by
  have hskip := length_skipSpace_le cs
  unfold readColon at h
  split at h
  · cases h
    rw [List.length_tail]
    omega
  · cases h

/-- Digits that are dropped leave no more than there was. -/
theorem length_dropWhile_le (cs : List Char) : (cs.dropWhile Char.isDigit).length ≤ cs.length :=
  (List.dropWhile_sublist _).length_le

/-- An exponent leaves the rest. -/
theorem leaves_readPower (negative : Bool) : Leaves (JsNumber.readPower negative) := by
  intro cs r h
  unfold JsNumber.readPower at h
  split at h
  · cases h
  · cases h
    exact length_dropWhile_le cs

/-- A scale leaves the rest. -/
theorem leaves_readScale : Leaves JsNumber.readScale := by
  intro cs r h
  -- no character is read, or an `e` with what follows it
  unfold JsNumber.readScale at h
  split at h
  · cases h
    exact Nat.le_refl _
  · rename_i c cs
    -- an `e` may be followed by a sign, which is one character more
    have htail : cs.tail.length ≤ cs.length := by
      rw [List.length_tail]
      omega
    rw [List.length_cons]
    split_ifs at h
    · have hrest := leaves_readPower _ _ _ h
      omega
    · have hrest := leaves_readPower _ _ _ h
      omega
    · have hrest := leaves_readPower _ _ _ h
      omega
    · cases h
      exact Nat.le_refl _

/-- Decimals leave the rest. -/
theorem leaves_readPoint : Leaves JsNumber.readPoint := by
  intro cs r h
  unfold JsNumber.readPoint at h
  split at h
  · cases h
    exact Nat.le_refl _
  · rename_i c cs
    split_ifs at h
    · cases h
      exact Nat.le_succ_of_le (length_dropWhile_le cs)
    · cases h
      exact Nat.le_refl _

/-- A number without its sign leaves the rest. -/
theorem leaves_readUnsigned (negative : Bool) : Leaves (JsNumber.readUnsigned negative) := by
  intro cs r h
  unfold JsNumber.readUnsigned at h
  dsimp only at h
  split at h
  · cases h
  · obtain ⟨⟨frac, cs₁⟩, hpoint, h⟩ := Option.bind_eq_some_iff.mp h
    obtain ⟨⟨power, cs₂⟩, hscale, h⟩ := Option.bind_eq_some_iff.mp h
    cases h
    have hdigits := length_dropWhile_le cs
    have hpoint := leaves_readPoint _ _ hpoint
    have hscale := leaves_readScale _ _ hscale
    dsimp only at hpoint hscale ⊢
    omega

/-- So does a number. -/
theorem leaves_readNumber : Leaves JsNumber.readNumber := by
  intro cs r h
  have htail : cs.tail.length ≤ cs.length := by
    rw [List.length_tail]
    omega
  unfold JsNumber.readNumber at h
  split at h
  · exact Nat.le_trans (leaves_readUnsigned _ _ _ h) htail
  · exact leaves_readUnsigned _ _ _ h

/-- What the readers leave with a bound of `n`. -/
structure LeavesAll (n : Nat) : Prop where
  value : Leaves (readValue n)
  items : Leaves (readItems n)
  members : Leaves (readMembers n)

/-- A reader that is given less leaves less. -/
theorem Leaves.of_map {α β : Type} {read : List Char → Option (α × List Char)} (hread : Leaves read)
    {f : α × List Char → β} {cs cs' : List Char} {r : β × List Char}
    (h : (read cs').map (fun r => (f r, r.2)) = some r) (hlength : cs'.length ≤ cs.length) :
    r.2.length ≤ cs.length := by
  obtain ⟨r', hr', rfl⟩ := Option.map_eq_some_iff.mp h
  exact Nat.le_trans (hread cs' r' hr') hlength

/-- All three readers leave the rest, whatever the fuel. -/
theorem leavesAll (n : Nat) : LeavesAll n := by
  induction n with
  | zero =>
    constructor
    · intro cs r h
      rw [readValue] at h
      cases h
    · intro cs r h
      rw [readItems] at h
      cases h
    · intro cs r h
      rw [readMembers] at h
      cases h
  | succ n ih =>
    constructor
    · intro cs r h
      have hskip := length_skipSpace_le cs
      rw [readValue] at h
      split at h
      · cases h
      rename_i c cs' hcs
      rw [hcs, List.length_cons] at hskip
      have hrest := length_skipSpace_le cs'
      -- each branch hands the text behind the first character to one reader
      split_ifs at h
      · exact (leaves_readString .plain).of_map h (by omega)
      · cases h
        rw [List.length_tail]
        omega
      · exact ih.items.of_map h (by omega)
      · cases h
        rw [List.length_tail]
        omega
      · exact ih.members.of_map h (by omega)
      · exact Nat.le_trans (leaves_readWord _ _ _ _ h) (by omega)
      · exact Nat.le_trans (leaves_readWord _ _ _ _ h) (by omega)
      · exact Nat.le_trans (leaves_readWord _ _ _ _ h) (by omega)
      · exact leaves_readNumber.of_map h (by rw [List.length_cons]; omega)
    · intro cs r h
      rw [readItems] at h
      obtain ⟨⟨v, cs₁⟩, hv, h⟩ := Option.bind_eq_some_iff.mp h
      have hvalue := ih.value cs _ hv
      have hskip := length_skipSpace_le cs₁
      dsimp only at h hvalue
      split at h
      · cases h
      rename_i c cs' hcs
      rw [hcs, List.length_cons] at hskip
      split_ifs at h
      · cases h
        dsimp only
        omega
      · exact ih.items.of_map h (by omega)
    · intro cs r h
      rw [readMembers] at h
      obtain ⟨⟨k, cs₁⟩, hk, h⟩ := Option.bind_eq_some_iff.mp h
      obtain ⟨cs₂, hcolon, h⟩ := Option.bind_eq_some_iff.mp h
      obtain ⟨⟨v, cs₃⟩, hv, h⟩ := Option.bind_eq_some_iff.mp h
      have hkey := length_readKey hk
      have hcolon := length_readColon hcolon
      have hvalue := ih.value cs₂ _ hv
      have hskip := length_skipSpace_le cs₃
      dsimp only at h hvalue hkey
      split at h
      · cases h
      rename_i c cs' hcs
      rw [hcs, List.length_cons] at hskip
      split_ifs at h
      · cases h
        dsimp only
        omega
      · exact ih.members.of_map h (by omega)

/-- With a bound that is enough for a text, any larger one gives the same. -/
structure Enough (n : Nat) : Prop where
  value : ∀ cs m, 2 * cs.length ≤ n → n ≤ m → readValue m cs = readValue n cs
  items : ∀ cs m, 2 * cs.length + 1 ≤ n → n ≤ m → readItems m cs = readItems n cs
  members : ∀ cs m, 2 * cs.length + 1 ≤ n → n ≤ m → readMembers m cs = readMembers n cs

/-- Fuel beyond the length of the text changes nothing. -/
theorem enough (n : Nat) : Enough n := by
  induction n with
  | zero =>
    constructor
    · intro cs m hcs _
      have hnil : cs = [] := List.length_eq_zero_iff.mp (by omega)
      subst hnil
      cases m with
      | zero => rfl
      | succ m => rfl
    · intro cs m hcs _
      omega
    · intro cs m hcs _
      omega
  | succ n ih =>
    constructor
    · intro cs m hcs hm
      -- behind the first character the bound is still enough, and so is any larger one
      obtain ⟨m, rfl⟩ : ∃ k, m = k + 1 := ⟨m - 1, by omega⟩
      have hskip := length_skipSpace_le cs
      rw [readValue, readValue]
      split
      · rfl
      rename_i c cs' hc
      rw [hc, List.length_cons] at hskip
      rw [ih.items cs' m (by omega) (by omega), ih.members cs' m (by omega) (by omega)]
    · intro cs m hcs hm
      obtain ⟨m, rfl⟩ : ∃ k, m = k + 1 := ⟨m - 1, by omega⟩
      rw [readItems, readItems, ih.value cs m (by omega) (by omega)]
      cases hv : readValue n cs with
      | none => rfl
      | some r =>
        obtain ⟨v, cs₁⟩ := r
        -- the items after the first are read from a shorter text
        have hvalue := (leavesAll n).value cs _ hv
        have hskip := length_skipSpace_le cs₁
        dsimp only at hvalue
        simp only [bind, Option.bind]
        split
        · rfl
        rename_i c cs' hc
        rw [hc, List.length_cons] at hskip
        rw [ih.items cs' m (by omega) (by omega)]
    · intro cs m hcs hm
      obtain ⟨m, rfl⟩ : ∃ k, m = k + 1 := ⟨m - 1, by omega⟩
      rw [readMembers, readMembers]
      cases hk : readKey cs with
      | none => rfl
      | some r =>
        obtain ⟨k, cs₁⟩ := r
        have hkey := length_readKey hk
        dsimp only at hkey
        simp only [bind, Option.bind]
        cases hcolon : readColon cs₁ with
        | none => rfl
        | some cs₂ =>
          -- the key is not empty, so the bound of the value is enough
          have hlength := length_readColon hcolon
          dsimp only
          rw [ih.value cs₂ m (by omega) (by omega)]
          cases hv : readValue n cs₂ with
          | none => rfl
          | some r =>
            obtain ⟨v, cs₃⟩ := r
            have hvalue := (leavesAll n).value cs₂ _ hv
            have hskip := length_skipSpace_le cs₃
            dsimp only at hvalue ⊢
            split
            · rfl
            rename_i c cs' hc
            rw [hc, List.length_cons] at hskip
            rw [ih.members cs' m (by omega) (by omega)]

/-- A larger bound than the one of `parse` changes nothing. -/
theorem parse_eq_of_le {cs : List Char} {n : Nat} (h : 2 * cs.length ≤ n) :
    parse cs = (readValue n cs).bind fun r => if skipSpace r.2 = [] then some r.1 else none := by
  rw [parse, (enough (2 * cs.length)).value cs n (Nat.le_refl _) h]

/-! ## Parsing undoes writing -/

/-- A hexadecimal digit has the value it was written for. -/
theorem hexValue?_hexDigit {n : Nat} (h : n < 16) : hexValue? (Text.hexDigit n) = some n := by
  have hall : ∀ n : Fin 16, hexValue? (Text.hexDigit n) = some n.val := by decide
  exact hall ⟨n, h⟩

/-- The digits of an escape are read one by one. -/
theorem readString_hex {n missing value : Nat} (h : n < 16) (cs : List Char) :
    readString (.hex missing value) (Text.hexDigit n :: cs) =
      if missing = 1 then prepend [UInt16.ofNat (value * 16 + n)] (readString .plain cs)
      else readString (.hex (missing - 1) (value * 16 + n)) cs := by
  rw [readString, hexValue?_hexDigit h]

/-- Four digits. -/
theorem readString_escapeUnit (u : UInt16) (rest : List Char) :
    readString .plain (escapeUnit u ++ rest) = prepend [u] (readString .plain rest) := by
  have hlt : u.toNat < 65536 := u.toNat_lt
  have hvalue : (((0 * 16 + u.toNat / 4096) * 16 + u.toNat / 256 % 16) * 16 +
      u.toNat / 16 % 16) * 16 + u.toNat % 16 = u.toNat := by omega
  show readString (.hex 4 0) (Text.hexDigit _ :: Text.hexDigit _ :: Text.hexDigit _ ::
    Text.hexDigit _ :: rest) = _
  rw [readString_hex (by omega), if_neg (by decide), readString_hex (by omega), if_neg (by decide),
    readString_hex (by omega), if_neg (by decide), readString_hex (by omega), if_pos rfl, hvalue,
    UInt16.ofNat_toNat]

/-- An escaped character is read back. -/
theorem readString_escapeChar (c : Char) (rest : List Char) :
    readString .plain (Text.escape c ++ rest) =
      prepend (JsString.charUnits c) (readString .plain rest) := by
  unfold Text.escape
  -- one goal for each escape of the grammar, in its order
  split_ifs with h₁ h₂ h₃ h₄ h₅ h₆ h₇ h₈
  · rw [h₁]; rfl
  · rw [h₂]; rfl
  · rw [h₃]; rfl
  · rw [h₄]; rfl
  · rw [h₅]; rfl
  · rw [h₆]; rfl
  · rw [h₇]; rfl
  · -- a control character, with two digits that are not zero
    have hunit : escapeUnit (UInt16.ofNat c.toNat) =
        ['\\', 'u', '0', '0', Text.hexDigit (c.toNat / 16), Text.hexDigit (c.toNat % 16)] := by
      have hnat : (UInt16.ofNat c.toNat).toNat = c.toNat := by
        rw [UInt16.toNat_ofNat']
        omega
      have hfirst : c.toNat / 4096 = 0 := by omega
      have hsecond : c.toNat / 256 % 16 = 0 := by omega
      have hthird : c.toNat / 16 % 16 = c.toNat / 16 := by omega
      rw [escapeUnit, hnat, hfirst, hsecond, hthird]
      rfl
    rw [← hunit, readString_escapeUnit, JsString.charUnits, if_pos (by omega)]
  -- any other character stands for itself
  · rw [List.singleton_append, readString, if_neg h₁, if_neg h₂, if_neg h₈]

/-- A quoted string is read up to its end. -/
theorem readString_quote (s : JsString) (rest : List Char) :
    readString .plain ((JsString.codePoints s).flatMap escape ++ '"' :: rest) = some (s, rest) := by
  have hall : ∀ ps : List CodePoint, readString .plain (ps.flatMap escape ++ '"' :: rest) =
      some (ps.flatMap CodePoint.units, rest) := by
    -- induction on the code points: each is one character, or one lone unit
    intro ps
    induction ps with
    | nil => rfl
    | cons p ps ih =>
      rw [List.flatMap_cons, List.append_assoc, List.flatMap_cons]
      cases p with
      | char c =>
        rw [escape, readString_escapeChar, ih]
        rfl
      | lone u =>
        rw [escape, readString_escapeUnit, ih]
        rfl
  rw [hall, JsString.flatMap_units_codePoints]

/-- A character that is no space is not skipped. -/
theorem skipSpace_cons {c : Char} (hc : isSpace c = false) (cs : List Char) :
    skipSpace (c :: cs) = c :: cs := by
  rw [skipSpace, List.dropWhile_cons, hc]
  rfl

/-- The first character of a number. -/
theorem exists_number_cons (x : JsNumber) :
    ∃ c cs, x.text = c :: cs ∧ NumberText.NumberChar c := by
  obtain ⟨c, cs, hcs⟩ := List.exists_cons_of_ne_nil x.text_ne_nil
  exact ⟨c, cs, hcs, JsNumber.numberChar_of_mem (by rw [hcs]; exact List.mem_cons_self)⟩

/-- A character of a number begins nothing else. -/
theorem ne_of_numberChar {c : Char} (hc : NumberText.NumberChar c) :
    isSpace c = false ∧ c ≠ ']' ∧ c ≠ '"' ∧ c ≠ '[' ∧ c ≠ '{' ∧ c ≠ 'n' ∧ c ≠ 't' ∧ c ≠ 'f' := by
  have hnot : ∀ d, ¬ NumberText.NumberChar d → c ≠ d := fun d hd heq => hd (heq ▸ hc)
  refine ⟨?_, hnot _ (by decide), hnot _ (by decide), hnot _ (by decide), hnot _ (by decide),
    hnot _ (by decide), hnot _ (by decide), hnot _ (by decide)⟩
  simp [isSpace, hnot ' ' (by decide), hnot '\t' (by decide), hnot '\n' (by decide),
    hnot '\r' (by decide)]

/-- No text of a value begins with white space or a closing bracket. -/
theorem exists_text_cons (v : JsValue) : ∃ c cs, v.text = c :: cs ∧ isSpace c = false ∧ c ≠ ']' := by
  cases v with
  | null => exact ⟨'n', ['u', 'l', 'l'], by rw [text]; rfl, rfl, by decide⟩
  | bool b =>
    cases b with
    | false => exact ⟨'f', ['a', 'l', 's', 'e'], by rw [text]; rfl, rfl, by decide⟩
    | true => exact ⟨'t', ['r', 'u', 'e'], by rw [text]; rfl, rfl, by decide⟩
  | num x =>
    obtain ⟨c, cs, hcs, hc⟩ := exists_number_cons x
    exact ⟨c, cs, by rw [text, hcs], (ne_of_numberChar hc).1, (ne_of_numberChar hc).2.1⟩
  | str s => exact ⟨'"', _, by rw [text, quote], rfl, by decide⟩
  | arr items => exact ⟨'[', _, by rw [text], rfl, by decide⟩
  | obj members => exact ⟨'{', _, by rw [text], rfl, by decide⟩

/-- What the readers do with a bound of `n`. -/
structure Reads (n : Nat) : Prop where
  value : ∀ v rest, JsNumber.Ends rest → 2 * v.text.length ≤ n →
    readValue n (v.text ++ rest) = some (v, rest)
  items : ∀ v vs rest, 2 * (itemsText (v :: vs)).length ≤ n →
    readItems n (itemsText (v :: vs) ++ rest) = some (v :: vs, rest)
  members : ∀ m ms rest, 2 * (membersText (m :: ms)).length ≤ n →
    readMembers n (membersText (m :: ms) ++ rest) = some (m :: ms, rest)

/-- A word is read back. -/
theorem readWord_append (letters : List Char) (v : JsValue) (rest : List Char) :
    readWord letters v (letters ++ rest) = some (v, rest) := by
  rw [readWord, List.take_left, if_pos rfl, List.drop_left]

/-- A value is read back when its parts are. -/
theorem Reads.succ_value {n : Nat} (h : Reads n) {v : JsValue} {rest : List Char}
    (hrest : JsNumber.Ends rest) (hn : 2 * v.text.length ≤ n + 1) :
    readValue (n + 1) (v.text ++ rest) = some (v, rest) := by
  cases v with
  | null =>
    rw [text]
    exact readWord_append ['u', 'l', 'l'] null rest
  | bool b =>
    rw [text]
    cases b with
    | false => exact readWord_append ['a', 'l', 's', 'e'] (bool false) rest
    | true => exact readWord_append ['r', 'u', 'e'] (bool true) rest
  | num x =>
    obtain ⟨c, cs, hcs, hc⟩ := exists_number_cons x
    have hread := JsNumber.readNumber_text x hrest
    -- a number begins with none of the characters that the other branches look for
    obtain ⟨hspace, -, hquote, harr, hobj, hnull, htrue, hfalse⟩ := ne_of_numberChar hc
    rw [hcs, List.cons_append] at hread
    rw [text, hcs, List.cons_append, readValue, skipSpace_cons hspace]
    dsimp only
    rw [if_neg hquote, if_neg harr, if_neg hobj, if_neg hnull, if_neg htrue, if_neg hfalse, hread]
    rfl
  | str s =>
    have hread := readString_quote s rest
    rw [text, quote, List.cons_append, List.append_assoc, List.singleton_append, readValue,
      skipSpace_cons rfl]
    dsimp only
    rw [if_pos rfl, hread]
    rfl
  | arr items =>
    rw [text] at hn ⊢
    rw [List.length_cons] at hn
    rw [List.cons_append, readValue, skipSpace_cons rfl]
    dsimp only
    rw [if_neg (by decide), if_pos rfl]
    cases items with
    | nil =>
      rw [itemsText, List.singleton_append, skipSpace_cons rfl]
      rfl
    | cons v vs =>
      obtain ⟨c, cs, hcs, hspace, hclose⟩ := exists_text_cons v
      -- an item does not begin with the end of the array
      have hfirst : (skipSpace (itemsText (v :: vs) ++ rest)).head? ≠ some ']' := by
        rw [itemsText, hcs, List.cons_append, List.cons_append, skipSpace_cons hspace]
        exact fun heq => hclose (Option.some.inj heq)
      rw [if_neg hfirst, h.items v vs rest (by omega)]
      rfl
  | obj members =>
    rw [text] at hn ⊢
    rw [List.length_cons] at hn
    rw [List.cons_append, readValue, skipSpace_cons rfl]
    dsimp only
    rw [if_neg (by decide), if_neg (by decide), if_pos rfl]
    cases members with
    | nil =>
      rw [membersText, List.singleton_append, skipSpace_cons rfl]
      rfl
    | cons m ms =>
      -- a member begins with its key
      have hfirst : (skipSpace (membersText (m :: ms) ++ rest)).head? ≠ some '}' := by
        rw [membersText, quote, List.cons_append, List.cons_append, skipSpace_cons rfl]
        simp
      rw [if_neg hfirst, h.members m ms rest (by omega)]
      rfl

/-- So are the items of an array. -/
theorem Reads.succ_items {n : Nat} (h : Reads n) {v : JsValue} {vs : List JsValue} {rest : List Char}
    (hn : 2 * (itemsText (v :: vs)).length ≤ n + 1) :
    readItems (n + 1) (itemsText (v :: vs) ++ rest) = some (v :: vs, rest) := by
  -- the item first, then the comma or the closing bracket
  rw [itemsText, List.length_append] at hn
  rw [itemsText, List.append_assoc, readItems]
  cases vs with
  -- the last item is followed by the bracket
  | nil =>
    rw [moreItems, List.length_singleton] at hn
    have hends : JsNumber.Ends (']' :: rest) := fun c hc => .inr (.inl (Option.some.inj hc).symm)
    rw [moreItems, List.singleton_append, h.value v _ hends (by omega)]
    rfl
  -- another one by a comma, which ends the number of this item
  | cons w ws =>
    rw [moreItems, List.length_cons] at hn
    have hends : JsNumber.Ends (',' :: (itemsText (w :: ws) ++ rest)) :=
      fun c hc => .inl (Option.some.inj hc).symm
    have hmore : moreItems (w :: ws) ++ rest = ',' :: (itemsText (w :: ws) ++ rest) := by
      rw [moreItems, itemsText, List.cons_append]
    -- and the rest is read by the induction hypothesis
    have hrest := h.items w ws rest (by rw [itemsText]; omega)
    rw [hmore, h.value v _ hends (by omega)]
    simp only [bind, Option.bind]
    rw [skipSpace_cons rfl]
    dsimp only
    rw [if_neg (by decide), if_pos rfl, hrest]
    rfl

/-- And the members of an object. -/
theorem Reads.succ_members {n : Nat} (h : Reads n) {m : JsString × JsValue}
    {ms : List (JsString × JsValue)} {rest : List Char}
    (hn : 2 * (membersText (m :: ms)).length ≤ n + 1) :
    readMembers (n + 1) (membersText (m :: ms) ++ rest) = some (m :: ms, rest) := by
  obtain ⟨k, v⟩ := m
  rw [membersText, List.length_append, List.length_cons, List.length_append] at hn
  have hkey : ∀ cs, quote k ++ cs =
      '"' :: ((JsString.codePoints k).flatMap escape ++ '"' :: cs) := by
    intro cs
    rw [quote, List.cons_append, List.append_assoc, List.singleton_append]
  rw [membersText, List.append_assoc, hkey, List.cons_append, List.append_assoc, readMembers,
    readKey, skipSpace_cons rfl]
  -- the key and the colon
  rw [if_pos (by rfl), List.tail_cons, readString_quote]
  simp only [bind, Option.bind]
  rw [readColon, skipSpace_cons rfl, if_pos (by rfl), List.tail_cons]
  dsimp only
  cases ms with
  | nil =>
    rw [moreMembers, List.length_singleton] at hn
    have hends : JsNumber.Ends ('}' :: rest) := fun c hc => .inr (.inr (Option.some.inj hc).symm)
    rw [moreMembers, List.singleton_append, h.value v _ hends (by omega)]
    rfl
  | cons m ms =>
    obtain ⟨k', w⟩ := m
    rw [moreMembers, List.length_cons] at hn
    have hends : JsNumber.Ends (',' :: (membersText ((k', w) :: ms) ++ rest)) :=
      fun c hc => .inl (Option.some.inj hc).symm
    have hmore : moreMembers ((k', w) :: ms) ++ rest =
        ',' :: (membersText ((k', w) :: ms) ++ rest) := by
      rw [moreMembers, membersText, List.cons_append]
    have hrest := h.members (k', w) ms rest (by rw [membersText]; omega)
    rw [hmore, h.value v _ hends (by omega)]
    dsimp only
    rw [skipSpace_cons rfl]
    dsimp only
    rw [if_neg (by decide), if_pos rfl, hrest]
    rfl

/-- The bound that `parse` gives is enough. -/
theorem reads (n : Nat) : Reads n := by
  induction n with
  | zero =>
    -- no text is empty
    constructor
    · intro v rest _ hn
      obtain ⟨c, cs, hcs, -⟩ := exists_text_cons v
      rw [hcs, List.length_cons] at hn
      omega
    · intro v vs rest hn
      obtain ⟨c, cs, hcs, -⟩ := exists_text_cons v
      rw [itemsText, hcs, List.cons_append, List.length_cons] at hn
      omega
    · intro m ms rest hn
      rw [membersText, quote, List.cons_append, List.length_cons] at hn
      omega
  | succ n ih =>
    constructor
    · intro v rest hrest hn
      exact ih.succ_value hrest hn
    · intro v vs rest hn
      exact ih.succ_items hn
    · intro m ms rest hn
      exact ih.succ_members hn

/-- Parsing undoes writing. -/
theorem parse_text (v : JsValue) : parse v.text = some v := by
  have hends : JsNumber.Ends [] := fun c hc => absurd hc (by simp)
  have hread := (reads (2 * v.text.length)).value v [] hends (Nat.le_refl _)
  rw [List.append_nil] at hread
  rw [parse, hread]
  rfl

/-! ## Records of strings -/

/-- An object whose values are strings. -/
def record (ms : List (String × String)) : JsValue :=
  obj (ms.map fun m => (JsString.ofChars m.1.toList, str (JsString.ofChars m.2.toList)))

/-- Without surrogates, a string is quoted character by character. -/
theorem quote_ofChars (s : String) : quote (JsString.ofChars s.toList) = Text.quote s := by
  unfold quote Text.quote
  rw [JsString.codePoints_ofChars, List.flatMap_map]
  rfl

/-- The text of a record of strings. -/
theorem text_record (ms : List (String × String)) :
    (record ms).text = Text.object (ms.map fun m => (m.1, Text.quote m.2)) := by
  -- the members after the first are written behind a comma
  have hmore : ∀ ms : List (String × String), ∀ m : String × String,
      moreMembers ((m :: ms).map fun m => (JsString.ofChars m.1.toList, str (JsString.ofChars m.2.toList))) =
        ',' :: (Text.members ((m :: ms).map fun m => (m.1, Text.quote m.2)) ++ ['}']) := by
    intro ms
    induction ms with
    | nil =>
      intro m
      simp [moreMembers, text, quote_ofChars, Text.members]
    | cons m' ms ih =>
      intro m
      have hrest := ih m'
      rw [List.map_cons] at hrest ⊢
      rw [moreMembers, List.map_cons, hrest]
      simp [text, quote_ofChars, Text.members]
  unfold record Text.object
  rw [text]
  cases ms with
  | nil => rfl
  | cons m ms =>
    rw [List.map_cons, membersText]
    cases ms with
    | nil => simp [moreMembers, text, quote_ofChars, Text.members]
    | cons m' ms =>
      rw [hmore ms m']
      simp [text, quote_ofChars, Text.members]

/-- A record has the members it was made of. -/
theorem record_inj {ms ms' : List (String × String)} (h : record ms = record ms') : ms = ms' := by
  have hmember : Function.Injective fun m : String × String =>
      (JsString.ofChars m.1.toList, str (JsString.ofChars m.2.toList)) := by
    intro m m' hm
    simp only [Prod.mk.injEq, str.injEq] at hm
    exact Prod.ext (String.toList_inj.mp (JsString.ofChars_inj hm.1))
      (String.toList_inj.mp (JsString.ofChars_inj hm.2))
  exact List.map_injective_iff.mpr hmember (obj.inj h)

example : (parse " [1e2, \"\\u00e9\\ud83d\\ude00\", -0.50] ".toList).map text =
    some "[100,\"é😀\",-0.5]".toList := by
  decide +kernel

end JsValue
