import Bluesafe.ForStd.Base64
import Bluesafe.ForStd.JsonParse
import Bluesafe.ForStd.Utf8

/-!
# The token of an export artifact

`services/export-artifact-token.ts`: the payload `{jobId, exp}` as JSON in base64url, a dot, and
the MAC of the base64url text. Strings are lists of code units here, since a token comes from
outside.
-/

namespace Bluesafe.ExportToken

/-- A number: a finite one by its fewest digits, and those that no literal of it denotes. -/
inductive Number
  | finite (x : JsNumber)
  | infinite (negative : Bool)
  | nan

/-- `JSON.stringify` of a number. -/
def Number.json : Number → JsValue
  | finite x => .num x
  | infinite _ => .null
  | nan => .null

/-- `x < k` for an integer `k`. -/
def Number.lt (k : Int) : Number → Bool
  | finite x => !decide (x.AtLeast k)
  | infinite negative => negative
  | nan => false

/-- `ExportArtifactTokenPayload`. -/
structure ExportArtifactTokenPayload where
  jobId : JsString
  exp : Number

/-- HMAC-SHA256 by its key and the bytes of the message, and the rounding of an exact value to the
    number it denotes; a value that is too large denotes none that is finite. -/
structure Runtime where
  hmac : JsString → List UInt8 → List UInt8
  round : JsNumber → Option JsNumber

/-- The number that a literal with this value denotes. -/
def Runtime.number (rt : Runtime) (x : JsNumber) : Number :=
  match rt.round x with
  | some y => .finite y
  | none => .infinite x.negative

/-- The finite numbers: each is what its own text denotes. -/
def Runtime.Finite (rt : Runtime) : Type := {x : JsNumber // rt.round x = some x}

/-- The integers among them. -/
def Runtime.Integer (rt : Runtime) : Type :=
  {n : Int // rt.round (JsNumber.ofInt n) = some (JsNumber.ofInt n)}

/-- The key of a member, and other text of the source. -/
def key (s : String) : JsString := JsString.ofChars s.toList

/-- `'.'`. -/
def dot : UInt16 := 46

/-- `Buffer.from(bytes).toString("base64url")`. -/
def base64url (bytes : List UInt8) : JsString :=
  JsString.ofChars (Base64.encode (bytes.map UInt8.toNat))

/-- `Buffer.from(s, "base64url")`; the decoder looks at the low bytes of the code units. -/
def fromBase64url (s : JsString) : List Nat :=
  Base64.ofSextets (((s.map fun u => u.toNat % 256).takeWhile (· ≠ 61)).filterMap Base64.sextet?)

/-- `createHmac("sha256", secret).update(payloadB64).digest("base64url")`. -/
def mac (rt : Runtime) (secret payloadB64 : JsString) : JsString :=
  base64url (rt.hmac secret (JsString.utf8 payloadB64))

/-- `signExportArtifactToken`. -/
def signExportArtifactToken (rt : Runtime) (secret jobId : JsString) (expUnixSec : Number) : JsString :=
  let payloadJson := (JsValue.obj [(key "jobId", .str jobId), (key "exp", expUnixSec.json)]).text
  let payloadB64 := base64url (payloadJson.flatMap String.utf8EncodeChar)
  payloadB64 ++ dot :: mac rt secret payloadB64

/-- `s.lastIndexOf(u)`; `none` is `-1`. -/
def lastIndexOf (s : JsString) (u : UInt16) : Option Nat :=
  if u ∈ s then some (s.length - 1 - s.reverse.idxOf u) else none

/-- The parsed JSON of a payload. -/
def parsePayload (payloadB64 : JsString) : Option JsValue :=
  JsValue.parse (Utf8.decode (fromBase64url payloadB64))

/-- The last checks, on the parsed payload. An array has neither of the fields. -/
def checkPayload (rt : Runtime) (dateNow : Int) : JsValue → Option ExportArtifactTokenPayload
  | .obj rec =>
    match JsValue.field rec (key "jobId"), JsValue.field rec (key "exp") with
    | some (.str jobId), some (.num x) =>
      if (rt.number x).lt (dateNow / 1000) then none else some ⟨jobId, rt.number x⟩
    | _, _ => none
  | _ => none

/-- `verifyExportArtifactToken` at `Date.now()`. Of two buffers of equal length `timingSafeEqual`
    tells whether they are the same. -/
def verifyExportArtifactToken (rt : Runtime) (secret : JsString) (dateNow : Int) (token : JsString) :
    Option ExportArtifactTokenPayload :=
  match lastIndexOf token dot with
  | none => none
  | some i =>
    if i = 0 then none
    else
      let payloadB64 := token.take i
      let sig := token.drop (i + 1)
      let a := JsString.utf8 sig
      let b := JsString.utf8 (mac rt secret payloadB64)
      if a.length ≠ b.length ∨ a ≠ b then none
      else (parsePayload payloadB64).bind (checkPayload rt dateNow)

end Bluesafe.ExportToken
