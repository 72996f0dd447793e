import Bluesafe.Api.ExportToken

/-!
# Which export tokens are accepted

A token is accepted if and only if it is a text, a dot and the MAC of the text, and the text is the
base64url of a JSON object with a string `jobId` and a number `exp` that is not before the current
second (`Accepts`). A signed token is therefore accepted until it expires, with what was signed.
-/

namespace Bluesafe.ExportToken

variable {rt : Runtime} {secret : JsString}

/-! ## The alphabet -/

theorem digit_ascii {n : Nat} (h : n < 64) :
    (Base64.digit n).toNat < 128 ∧ (Base64.digit n).toNat ≠ 46 := by
  have hall : ∀ n : Fin 64, (Base64.digit n).toNat < 128 ∧ (Base64.digit n).toNat ≠ 46 := by decide
  exact hall ⟨n, h⟩

/-- A base64url text is ASCII and has no dot. -/
theorem mem_base64url {bytes : List UInt8} {u : UInt16} (hu : u ∈ base64url bytes) :
    u.toNat < 128 ∧ u ≠ dot := by
  have hbytes : ∀ b ∈ bytes.map UInt8.toNat, b < 256 := by
    intro b hb
    obtain ⟨x, -, rfl⟩ := List.mem_map.mp hb
    exact x.toNat_lt
  -- a unit of the text is a digit of base64, which is ASCII
  obtain ⟨c, hc, hu⟩ := List.mem_flatMap.mp hu
  rw [Base64.encode_eq_map] at hc
  obtain ⟨n, hn, rfl⟩ := List.mem_map.mp hc
  obtain ⟨hlt, hne⟩ := digit_ascii (Base64.sextets_lt hbytes n hn)
  -- so it is that character alone
  rw [JsString.charUnits, if_pos (by omega), List.mem_singleton] at hu
  have hnat : u.toNat = (Base64.digit n).toNat := by
    rw [hu, UInt16.toNat_ofNat']
    omega
  constructor
  · omega
  -- no digit is a dot
  · intro hdot
    rw [hdot] at hnat
    exact hne hnat.symm

/-- The decoder of code units is the one of characters. -/
theorem fromBase64url_ofChars (cs : List Char) :
    fromBase64url (JsString.ofChars cs) = Base64.read cs := by
  have hunits : ∀ c : Char, (JsString.charUnits c).map (fun u => u.toNat % 256) = Base64.lowBytes c := by
    intro c
    have hlow : ∀ n : Nat, n % 2 ^ 16 % 256 = n % 256 := by
      intro n
      omega
    unfold JsString.charUnits Base64.lowBytes
    split
    · simp only [List.map_cons, List.map_nil, UInt16.toNat_ofNat', hlow]
    · simp only [List.map_cons, List.map_nil, UInt16.toNat_ofNat', hlow]
  unfold fromBase64url Base64.read JsString.ofChars
  rw [List.map_flatMap]
  simp only [hunits]

/-- A payload is decoded to the text it was made from. -/
theorem decode_base64url (cs : List Char) :
    Utf8.decode (fromBase64url (base64url (cs.flatMap String.utf8EncodeChar))) = cs := by
  have hread : fromBase64url (base64url (cs.flatMap String.utf8EncodeChar)) = Utf8.encode cs := by
    unfold base64url
    rw [fromBase64url_ofChars]
    exact Base64.read_encode (Utf8.encode_lt cs)
  rw [hread, Utf8.decode_encode]

/-! ## The last dot -/

theorem lastIndexOf_append {p s : JsString} {u : UInt16} (hs : u ∉ s) :
    lastIndexOf (p ++ u :: s) u = some p.length := by
  have hmem : u ∈ p ++ u :: s := by simp
  have hindex : (p ++ u :: s).reverse.idxOf u = s.length := by
    rw [List.reverse_append, List.reverse_cons, List.append_assoc, List.singleton_append,
      List.idxOf_append_of_notMem (by simpa using hs), List.idxOf_cons_self, List.length_reverse]
    omega
  rw [lastIndexOf, if_pos hmem, hindex]
  congr 1
  simp only [List.length_append, List.length_cons]
  omega

theorem exists_of_lastIndexOf {t : JsString} {u : UInt16} {i : Nat} (h : lastIndexOf t u = some i) :
    ∃ p s, t = p ++ u :: s ∧ u ∉ s ∧ i = p.length := by
  unfold lastIndexOf at h
  split at h
  · rename_i hmem
    obtain ⟨back, front, hsplit, hback⟩ := List.eq_append_cons_of_mem (List.mem_reverse.mpr hmem)
    have ht : t = front.reverse ++ u :: back.reverse := by
      rw [← List.reverse_reverse t, hsplit]
      simp
    have hs : u ∉ back.reverse := by simpa using hback
    have hindex := lastIndexOf_append (p := front.reverse) hs
    rw [← ht, lastIndexOf, if_pos hmem] at hindex
    exact ⟨front.reverse, back.reverse, ht, hs, Option.some.inj (h.symm.trans hindex)⟩
  · cases h

/-! ## Acceptance -/

/-- The token is a text with its MAC, and the text stands for an object with these fields. -/
def Accepts (rt : Runtime) (secret : JsString) (dateNow : Int) (token : JsString)
    (r : ExportArtifactTokenPayload) : Prop :=
  ∃ payloadB64 rec x, payloadB64 ≠ [] ∧ token = payloadB64 ++ dot :: mac rt secret payloadB64 ∧
    parsePayload payloadB64 = some (.obj rec) ∧
    JsValue.field rec (key "jobId") = some (.str r.jobId) ∧
    JsValue.field rec (key "exp") = some (.num x) ∧ r.exp = rt.number x ∧
    r.exp.lt (dateNow / 1000) = false

theorem checkPayload_eq_some_iff {dateNow : Int} {parsed : JsValue} {r : ExportArtifactTokenPayload} :
    checkPayload rt dateNow parsed = some r ↔ ∃ rec x, parsed = .obj rec ∧
      JsValue.field rec (key "jobId") = some (.str r.jobId) ∧
      JsValue.field rec (key "exp") = some (.num x) ∧ r.exp = rt.number x ∧
      r.exp.lt (dateNow / 1000) = false := by
  -- each of the four guards of the code is one condition of the record
  constructor
  · intro h
    unfold checkPayload at h
    split at h
    · rename_i rec
      split at h
      · rename_i jobId x hjob hexp
        split at h
        · cases h
        · rename_i hlt
          cases h
          exact ⟨rec, x, rfl, hjob, hexp, rfl, Bool.eq_false_iff.mpr hlt⟩
      · cases h
    · cases h
  · rintro ⟨rec, x, rfl, hjob, hexp, hnumber, hlt⟩
    -- the number that is compared is the one that was read
    rw [hnumber] at hlt
    unfold checkPayload
    simp only [hjob, hexp]
    rw [if_neg (Bool.eq_false_iff.mp hlt), ← hnumber]

theorem dot_notMem_mac (p : JsString) : dot ∉ mac rt secret p :=
  fun h => (mem_base64url h).2 rfl

/-- A token without a text, or with another text behind its last dot, is not accepted. -/
theorem verify_append {dateNow : Int} {p s : JsString} (hs : dot ∉ s) :
    verifyExportArtifactToken rt secret dateNow (p ++ dot :: s) =
      if p ≠ [] ∧ s = mac rt secret p then (parsePayload p).bind (checkPayload rt dateNow)
      else none := by
  -- the part behind the last dot is the signature
  have hdrop : (p ++ dot :: s).drop (p.length + 1) = s := by
    rw [← List.drop_drop, List.drop_left]
    rfl
  unfold verifyExportArtifactToken
  rw [lastIndexOf_append hs]
  dsimp only
  rw [List.take_left, hdrop]
  -- an empty payload is refused before the comparison
  by_cases hp : p = []
  · rw [if_pos (by rw [hp]; rfl), if_neg fun h => h.1 hp]
  · have hlength : p.length ≠ 0 := mt List.length_eq_zero_iff.mp hp
    rw [if_neg hlength]
    -- the signature is the right one, or it differs as bytes too
    by_cases hmac : s = mac rt secret p
    · have hsame : ¬ (s.utf8.length ≠ (mac rt secret p).utf8.length ∨
          s.utf8 ≠ (mac rt secret p).utf8) := by
        rw [hmac]
        simp
      rw [if_neg hsame, if_pos ⟨hp, hmac⟩]
    · -- the same bytes would be the same text
      have hbytes : JsString.utf8 s ≠ JsString.utf8 (mac rt secret p) := fun h =>
        hmac (JsString.eq_of_utf8_eq (fun u hu => (mem_base64url hu).1) h)
      rw [if_pos (.inr hbytes), if_neg fun h => hmac h.2]

theorem verify_eq_some_iff {dateNow : Int} {token : JsString} {r : ExportArtifactTokenPayload} :
    verifyExportArtifactToken rt secret dateNow token = some r ↔ Accepts rt secret dateNow token r := by
  constructor
  · intro h
    -- the token is cut at its last dot
    cases hindex : lastIndexOf token dot with
    | none =>
      unfold verifyExportArtifactToken at h
      rw [hindex] at h
      cases h
    | some i =>
      obtain ⟨p, s, rfl, hs, -⟩ := exists_of_lastIndexOf hindex
      rw [verify_append hs] at h
      split at h
      -- the signature was the right one, so the payload was read
      · rename_i hboth
        obtain ⟨hp, rfl⟩ := hboth
        obtain ⟨parsed, hparsed, hcheck⟩ := Option.bind_eq_some_iff.mp h
        obtain ⟨rec, x, rfl, hfields⟩ := checkPayload_eq_some_iff.mp hcheck
        exact ⟨p, rec, x, hp, rfl, hparsed, hfields⟩
      · cases h
  -- the token of this payload is cut at the same dot
  · rintro ⟨p, rec, x, hp, rfl, hparsed, hfields⟩
    rw [verify_append (dot_notMem_mac p), if_pos ⟨hp, rfl⟩, hparsed]
    exact checkPayload_eq_some_iff.mpr ⟨rec, x, rfl, hfields⟩

/-- A signed payload is parsed to what was signed. -/
theorem parsePayload_base64url (v : JsValue) :
    parsePayload (base64url (v.text.flatMap String.utf8EncodeChar)) = some v := by
  rw [parsePayload, decode_base64url, JsValue.parse_text]

/-- A signed token is accepted exactly until it expires. -/
theorem verify_sign (dateNow : Int) (jobId : JsString) (exp : rt.Finite) :
    verifyExportArtifactToken rt secret dateNow
        (signExportArtifactToken rt secret jobId (.finite exp.val)) =
      if exp.val.AtLeast (dateNow / 1000) then some ⟨jobId, .finite exp.val⟩ else none := by
  have hnonempty : base64url ((JsValue.obj [(key "jobId", .str jobId),
      (key "exp", .num exp.val)]).text.flatMap String.utf8EncodeChar) ≠ [] := by
    intro hnil
    -- an empty payload would not be parsed
    have hparse := parsePayload_base64url
      (.obj [(key "jobId", .str jobId), (key "exp", .num exp.val)])
    rw [hnil] at hparse
    cases hparse
  have hnumber : rt.number exp.val = .finite exp.val := by
    rw [Runtime.number, exp.property]
  have hcheck : checkPayload rt dateNow
      (.obj [(key "jobId", .str jobId), (key "exp", .num exp.val)]) =
      if (rt.number exp.val).lt (dateNow / 1000) then none else some ⟨jobId, rt.number exp.val⟩ := rfl
  unfold signExportArtifactToken
  dsimp only [Number.json]
  rw [verify_append (dot_notMem_mac _), if_pos ⟨hnonempty, rfl⟩, parsePayload_base64url,
    Option.bind_some, hcheck, hnumber]
  by_cases hexp : exp.val.AtLeast (dateNow / 1000)
  · simp [Number.lt, hexp]
  · simp [Number.lt, hexp]

/-- Integer times: a signed token gives back what was signed, until the second that was signed is
    over. Any other token is accepted only if it has a MAC and the fields. -/
theorem export_token_accepted_iff (rt : Runtime) (secret : JsString) (dateNow : Int) :
    (∀ (jobId : JsString) (exp : rt.Integer),
      verifyExportArtifactToken rt secret dateNow
          (signExportArtifactToken rt secret jobId (.finite (.ofInt exp.val))) =
        if dateNow / 1000 ≤ exp.val then some ⟨jobId, .finite (.ofInt exp.val)⟩ else none) ∧
    ∀ token r, verifyExportArtifactToken rt secret dateNow token = some r ↔
      Accepts rt secret dateNow token r := by
  constructor
  · intro jobId exp
    have hsign := @verify_sign rt secret dateNow jobId ⟨.ofInt exp.val, exp.property⟩
    dsimp only at hsign
    simp only [JsNumber.atLeast_ofInt] at hsign
    exact hsign
  · intro token r
    exact verify_eq_some_iff

end Bluesafe.ExportToken
