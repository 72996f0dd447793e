import Bluesafe.Ops.Xrpl

/-!
# Ledger messages

How the three ingestion paths read what rippled sends: `getTxStatus` and
`getAccountTxResults` of `services/xrpl.service.ts`, the unpacking of the stream in
`services/xrpl-subscribe.worker.ts`, and `mergeTxJsonLayers` and
`escrowProtocolFieldsFromTxJson` of `services/xrpl-escrow-protocol.ts`. `Bluesafe.Ops` takes
the answers of the first two from its environment and starts from an unpacked message of the
stream; this is what happens before.

`Number` on a text of digits is a parameter: all paths call the same function.
-/

namespace Bluesafe.Ops

/-! ## JSON values -/

/-- A JSON value; of two fields with one name the first one counts. -/
inductive Js
  | null
  | bool (b : Bool)
  | num (n : Int)
  | str (s : String)
  | arr (items : List Js)
  | obj (fields : List (String × Js))

/-- The fields of an object. -/
abbrev JsObject : Type := List (String × Js)

/-- `o.name`; `none` stands for `undefined`. -/
def JsObject.field (o : JsObject) (name : String) : Option Js :=
  (o.find? fun f => decide (f.1 = name)).map Prod.snd

namespace Js

/-- `typeof v === "string"`. -/
def asStr : Js → Option String
  | str s => some s
  | _ => none

/-- `typeof v === "number"`. -/
def asNum : Js → Option Int
  | num n => some n
  | _ => none

/-- `v && typeof v === "object"`; the entries of an array have no name that is looked up. -/
def asObject : Js → Option JsObject
  | obj fields => some fields
  | arr _ => some []
  | _ => none

def truthy : Js → Bool
  | null => false
  | bool b => b
  | num n => decide (n ≠ 0)
  | str s => decide (s ≠ "")
  | arr _ => true
  | obj _ => true

mutual

/-- `String(v)`. -/
def toText : Js → String
  | null => "null"
  | bool b => toString b
  | num n => toString n
  | str s => s
  | arr items => ",".intercalate (itemTexts items)
  | obj _ => "[object Object]"

/-- The texts `join` puts together; `null` has none. -/
def itemTexts : List Js → List String
  | [] => []
  | null :: items => "" :: itemTexts items
  | v :: items => toText v :: itemTexts items

end

end Js

/-- `a ?? b`. -/
def nullish (a b : Option Js) : Option Js :=
  match a with
  | none => b
  | some .null => b
  | some v => some v

/-! ## `xrpl-escrow-protocol.ts` -/

/-- `EscrowProtocolFields`. -/
structure EscrowProtocolFields where
  escrowOwner : Option String := none
  escrowDestination : Option String := none
  escrowOfferSequence : Option Int := none
  escrowSubmitterAccount : Option String := none

/-- `classicAddress`. -/
def classicAddress (v : Option Js) : Option String :=
  (v.bind Js.asStr).filter fun s => startsWith s "r"

/-- `sequenceNumber`. -/
def sequenceNumber (number : String → Int) (v : Option Js) : Option Int :=
  v.bind fun
    | .num n => some n
    | .str s => if s ≠ "" && s.toList.all Char.isDigit then some (number s) else none
    | _ => none

/-- `mergeTxJsonLayers`: the fields of the root stand before those under `tx_json`. -/
def mergeTxJsonLayers (root : JsObject) : JsObject :=
  match root.field "tx_json" with
  | some (.obj nested) => root ++ nested
  | _ => root

/-- `escrowProtocolFieldsFromTxJson`. -/
def escrowProtocolFieldsFromTxJson (number : String → Int) (tx : JsObject) : EscrowProtocolFields :=
  let submitter := classicAddress (tx.field "Account")
  match (tx.field "TransactionType").bind Js.asStr with
  | some "EscrowCreate" => {
      escrowOwner := classicAddress (tx.field "Account")
      escrowDestination := classicAddress (tx.field "Destination")
      escrowOfferSequence := sequenceNumber number (tx.field "Sequence")
      escrowSubmitterAccount := submitter }
  | some "EscrowFinish" => {
      escrowOwner := classicAddress (tx.field "Owner")
      escrowOfferSequence := sequenceNumber number (tx.field "OfferSequence")
      escrowSubmitterAccount := submitter }
  | some "EscrowCancel" => {
      escrowOwner := classicAddress (tx.field "Owner")
      escrowOfferSequence := sequenceNumber number (tx.field "OfferSequence")
      escrowSubmitterAccount := submitter }
  | _ => {}

/-- `x.meta?.TransactionResult`. -/
def metaResult (o : JsObject) : Option String :=
  (((o.field "meta").bind Js.asObject).bind fun m => m.field "TransactionResult").bind Js.asStr

/-- An answer with the escrow fields of the transaction. -/
def LiveTxStatus.withEscrow (live : LiveTxStatus) (e : EscrowProtocolFields) : LiveTxStatus :=
  { live with
    escrowOwner := e.escrowOwner
    escrowDestination := e.escrowDestination
    escrowOfferSequence := e.escrowOfferSequence
    escrowSubmitterAccount := e.escrowSubmitterAccount }

/-! ## `xrpl.service.ts` -/

/-- `getTxStatus`: the status in `result`, asked for under `txHash`. A ledger index is a number
    and a result code a text. -/
def txStatusOf (number : String → Int) (txHash : String) (result : JsObject) : LiveTxStatus :=
  let flat := mergeTxJsonLayers result
  let hash := match (flat.field "hash").bind Js.asStr with
    | some h => h
    | none => ((result.field "hash").filter Js.truthy).elim "" Js.toText
  { txHash := if hash = "" then txHash else hash
    validated := (result.field "validated").any Js.truthy
    ledgerIndex := (result.field "ledger_index").bind Js.asNum
    resultCode := metaResult result
    transactionType := (flat.field "TransactionType").bind Js.asStr
    account := classicAddress (flat.field "Account") : LiveTxStatus }.withEscrow
      (escrowProtocolFieldsFromTxJson number flat)

/-- One entry of `account_tx`; an entry without `tx.hash` is skipped. -/
def accountTxStatus (number : String → Int) (entry : JsObject) : Option LiveTxStatus :=
  ((entry.field "tx").bind Js.asObject).bind fun tx =>
    ((tx.field "hash").filter Js.truthy).map fun hash =>
      let flat := mergeTxJsonLayers tx
      { txHash := hash.toText
        validated := (entry.field "validated").any Js.truthy
        ledgerIndex := (entry.field "ledger_index").bind Js.asNum
        resultCode := metaResult entry
        transactionType := (flat.field "TransactionType").bind Js.asStr
        account := classicAddress (flat.field "Account") : LiveTxStatus }.withEscrow
          (escrowProtocolFieldsFromTxJson number flat)

/-- `out[status.txHash] = status`. -/
def recordStatus (out : List (String × LiveTxStatus)) (live : LiveTxStatus) :
    List (String × LiveTxStatus) :=
  (live.txHash, live) :: out.filter fun e => decide (e.1 ≠ live.txHash)

/-- `getAccountTxResults`: the map of the entries of `transactions`. -/
def accountTxResultsOf (number : String → Int) (transactions : List JsObject) :
    List (String × LiveTxStatus) :=
  (transactions.filterMap (accountTxStatus number)).foldl recordStatus []

/-! ## `xrpl-subscribe.worker.ts` -/

/-- `stream.transaction ?? stream.tx_json`. -/
def streamInner (stream : JsObject) : Option JsObject :=
  (nullish (stream.field "transaction") (stream.field "tx_json")).bind Js.asObject

/-- A text of at least eight characters. -/
def longHash (v : Option Js) : Option String :=
  (v.bind Js.asStr).filter fun h => decide (8 ≤ h.toList.length)

/-- `txHashFromStream`. -/
def txHashFromStream (stream : JsObject) : Option String :=
  (longHash (stream.field "hash")).or ((streamInner stream).bind fun inner => longHash (inner.field "hash"))

/-- `accountFromStream`. -/
def accountFromStream (stream : JsObject) : Option String :=
  (streamInner stream).bind fun inner => classicAddress (inner.field "Account")

theorem longHash_min {v : Option Js} {h : String} (hh : longHash v = some h) : 8 ≤ h.toList.length := by
  have hlong := (Option.filter_eq_some_iff.mp hh).2
  exact of_decide_eq_true hlong

theorem txHashFromStream_min (stream : JsObject) :
    ∀ h ∈ txHashFromStream stream, 8 ≤ h.toList.length := by
  intro h hh
  rcases Option.or_eq_some_iff.mp hh with hbeside | ⟨-, hinner⟩
  · exact longHash_min hbeside
  · obtain ⟨inner, -, hhash⟩ := Option.bind_eq_some_iff.mp hinner
    exact longHash_min hhash

/-- What `handleTransaction` finds in a message of the stream. -/
def unpackStream (number : String → Int) (stream : JsObject) : TransactionStream :=
  let flat := ((streamInner stream).map mergeTxJsonLayers).getD []
  let escrow := escrowProtocolFieldsFromTxJson number flat
  { validated := (stream.field "validated").any Js.truthy
    ledgerIndex := (stream.field "ledger_index").bind Js.asNum
    hash := txHashFromStream stream
    engineResult := (stream.field "engine_result").bind Js.asStr
    metaResult := metaResult stream
    account := accountFromStream stream
    transactionType := (flat.field "TransactionType").bind Js.asStr
    escrowOwner := escrow.escrowOwner
    escrowDestination := escrow.escrowDestination
    escrowOfferSequence := escrow.escrowOfferSequence
    escrowSubmitterAccount := escrow.escrowSubmitterAccount
    hash_min := txHashFromStream_min stream }

/-- The status that `handleTransaction` applies, unless it drops the message. -/
def streamStatusOf (number : String → Int) (stream : JsObject) : Option LiveTxStatus :=
  let unpacked := unpackStream number stream
  unpacked.accepted.map fun a => unpacked.asAnswer a.1 a.2

end Bluesafe.Ops
