import Bluesafe.Escrow.Conditions
import Bluesafe.ForStd.JsonParse
import Bluesafe.ForStd.Utf8
import Bluesafe.Settle.Types

/-!
# Reading a memo

`decodeReconcileMemo` (`payment-memo.builder.ts`). What it returns is the parsed value: the cast to a
payload checks nothing.
-/

namespace Bluesafe.Settle

/-- The conversions of the XRPL library: `convertHexToString` undoes `convertStringToHex`. A byte
    order mark in front of a text may get lost. -/
structure HexText where
  convertHexToString : String → Except String String
  undoes : ∀ cs : List Char, cs.head? ≠ some '\uFEFF' →
    convertHexToString (Text.hexOf cs) = .ok (String.ofList cs)

/-- Hexadecimal to bytes, and the bytes read as UTF-8. -/
def utf8OfHex (hex : String) : Except String String :=
  match Escrow.hexBytes hex.toList with
  | some bytes => .ok (String.ofList (Utf8.decode (bytes.map UInt8.toNat)))
  | none => .error "Invalid hex string"

theorem utf8OfHex_hexOf (cs : List Char) : utf8OfHex (Text.hexOf cs) = .ok (String.ofList cs) := by
  have hbytes : Escrow.hexBytes (Text.hexOf cs).toList = some (cs.flatMap String.utf8EncodeChar) :=
    Escrow.hexBytes_bytesToHex (cs.flatMap String.utf8EncodeChar)
  have hback : Utf8.decode ((cs.flatMap String.utf8EncodeChar).map UInt8.toNat) = cs :=
    Utf8.decode_encode cs
  unfold utf8OfHex
  rw [hbytes]
  dsimp only
  rw [hback]

/-- The conversions that lose nothing. -/
def HexText.utf8 : HexText where
  convertHexToString := utf8OfHex
  undoes := fun cs _ => utf8OfHex_hexOf cs

/-- The payload as a value of the language. -/
def ReconcileMemoPayload.value (payload : ReconcileMemoPayload) : JsValue :=
  .record [("contractId", payload.contractId),
    ("yearMonth", payload.yearMonth),
    ("kepcoUsageHash", payload.kepcoUsageHash),
    ("landlordClaimHash", payload.landlordClaimHash),
    ("calculatedAmountDrops", payload.calculatedAmountDrops)]

/-- `decodeReconcileMemo`. -/
def decodeReconcileMemo (xrpl : HexText) (memo : ReconcileMemo) : Except String JsValue := do
  let type ← xrpl.convertHexToString memo.memoType
  if type ≠ "reconcile/v1" then
    throw ("Unexpected MemoType: " ++ type ++ " (expected reconcile/v1)")
  let json ← xrpl.convertHexToString memo.memoData
  match JsValue.parse json.toList with
  | some payload => return payload
  | none => throw "SyntaxError"

end Bluesafe.Settle
