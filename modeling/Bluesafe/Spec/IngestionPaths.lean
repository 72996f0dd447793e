import Bluesafe.Ops.Envelopes

/-!
# The three ingestion paths

A validated transaction reaches the service as the answer to `tx`, as an entry of
`account_tx` or on the stream, in the flat shape of API version 1 or with a nested `tx_json`
and the hash beside it, as in version 2. The answer to `tx` and the stream are read in both
shapes. `account_tx` looks for `tx`, so it drops every entry of version 2, and it looks for the
ledger index beside `tx` only.

## Key results

- `txStatusOf_message`, `streamStatusOf_message`: two paths read both shapes
- `accountTxResultsOf_flat`, `accountTxResultsOf_nested`: what `account_tx` finds on a page
- `ingestion_paths_agree_iff`: when the three paths agree
-/

namespace Bluesafe.Ops

/-! ## Transactions and their messages -/

/-- The names that the messages give to what stands around a transaction; the names of
    transaction fields start with an upper-case letter. -/
def envelopeNames : List String :=
  ["hash", "ledger_index", "meta", "validated", "engine_result", "tx", "transaction", "tx_json"]

/-- A validated transaction. -/
structure LedgerTx where
  hash : String
  ledgerIndex : Nat
  result : String
  fields : JsObject
  hash_length : hash.toList.length = 64
  fields_named : ∀ f ∈ fields, f.1 ∉ envelopeNames

/-- The shapes of rippled's API versions 1 and 2. -/
inductive Shape
  | flat
  | nested
  deriving DecidableEq, Repr

namespace LedgerTx

def hashField (t : LedgerTx) : JsObject := [("hash", .str t.hash)]

def indexField (t : LedgerTx) : JsObject := [("ledger_index", .num t.ledgerIndex)]

/-- What stands beside the transaction in every message. -/
def outcome (t : LedgerTx) : JsObject :=
  [("meta", .obj [("TransactionResult", .str t.result)]), ("validated", .bool true)]

/-- The result of `tx`. -/
def txResult (t : LedgerTx) : Shape → JsObject
  | .flat => t.fields ++ t.hashField ++ t.indexField ++ t.outcome
  | .nested => ("tx_json", .obj t.fields) :: (t.hashField ++ t.indexField ++ t.outcome)

/-- An entry of `account_tx`. In the flat shape the ledger index stands in `tx`, and some
    servers and the types of the client library have it beside `tx` as well. -/
def accountTxEntry (t : LedgerTx) (beside : Bool) : Shape → JsObject
  | .flat => ("tx", .obj (t.fields ++ t.hashField ++ t.indexField)) ::
      ((if beside then t.indexField else []) ++ t.outcome)
  | .nested => ("tx_json", .obj t.fields) :: (t.hashField ++ t.indexField ++ t.outcome)

/-- A message of the stream. -/
def streamMessage (t : LedgerTx) : Shape → JsObject
  | .flat => ("transaction", .obj (t.fields ++ t.hashField)) :: ("engine_result", .str t.result) ::
      (t.indexField ++ t.outcome)
  | .nested => ("tx_json", .obj t.fields) :: ("engine_result", .str t.result) ::
      (t.hashField ++ t.indexField ++ t.outcome)

/-- What the ledger says about the transaction. -/
def status (number : String → Int) (t : LedgerTx) : LiveTxStatus :=
  { txHash := t.hash
    validated := true
    ledgerIndex := some t.ledgerIndex
    resultCode := some t.result
    transactionType := (t.fields.field "TransactionType").bind Js.asStr
    account := classicAddress (t.fields.field "Account") : LiveTxStatus }.withEscrow
      (escrowProtocolFieldsFromTxJson number t.fields)

end LedgerTx

/-! ## Fields of messages -/

/-- The empty object has no field. -/
@[simp] theorem field_nil (name : String) : JsObject.field [] name = none := rfl

/-- The first field of a name is the one that is read. -/
@[simp] theorem field_cons (n : String) (v : Js) (o : JsObject) (name : String) :
    JsObject.field ((n, v) :: o) name = if n = name then some v else JsObject.field o name := by
  unfold JsObject.field
  by_cases h : n = name <;> simp [h]

/-- The fields of two objects, the first of them going first. -/
@[simp] theorem field_append (a b : JsObject) (name : String) :
    JsObject.field (a ++ b) name = (JsObject.field a name).or (JsObject.field b name) := by
  unfold JsObject.field
  rw [List.find?_append]
  cases List.find? (fun f => decide (f.1 = name)) a <;> rfl

/-- A name that no field has. -/
theorem field_eq_none {o : JsObject} {name : String} (h : ∀ f ∈ o, f.1 ≠ name) :
    JsObject.field o name = none := by
  unfold JsObject.field
  rw [Option.map_eq_none_iff, List.find?_eq_none]
  intro f hf heq
  exact h f hf (of_decide_eq_true heq)

/-- A transaction has no field with a name of the envelope. -/
theorem LedgerTx.field_envelope (t : LedgerTx) {name : String} (h : name ∈ envelopeNames) :
    t.fields.field name = none := by
  refine field_eq_none fun f hf heq => t.fields_named f hf ?_
  rw [heq]
  exact h

/-- The object has the fields of the transaction. -/
def HasFields (o : JsObject) (t : LedgerTx) : Prop :=
  ∀ name, name ∉ envelopeNames → o.field name = t.fields.field name

namespace HasFields

variable {o extra : JsObject} {t : LedgerTx}

/-- The escrow fields are computed from fields of the transaction. -/
theorem escrow (h : HasFields o t) (number : String → Int) :
    escrowProtocolFieldsFromTxJson number o = escrowProtocolFieldsFromTxJson number t.fields := by
  unfold escrowProtocolFieldsFromTxJson
  rw [h "Account" (by decide), h "TransactionType" (by decide), h "Destination" (by decide),
    h "Sequence" (by decide), h "Owner" (by decide), h "OfferSequence" (by decide)]

/-- The fields of a transaction are its own. -/
theorem refl (t : LedgerTx) : HasFields t.fields t := fun _ _ => rfl

/-- The envelope does not hide the fields of the transaction. -/
theorem append_left (h : HasFields o t) (hextra : ∀ f ∈ extra, f.1 ∈ envelopeNames) :
    HasFields (o ++ extra) t := by
  intro name hname
  have hnone : JsObject.field extra name = none :=
    field_eq_none fun f hf heq => hname (heq ▸ hextra f hf)
  rw [field_append, hnone, Option.or_none, h name hname]

/-- They are read behind those of an envelope. -/
theorem append_right (h : HasFields o t) (hextra : ∀ f ∈ extra, f.1 ∈ envelopeNames) :
    HasFields (extra ++ o) t := by
  intro name hname
  have hnone : JsObject.field extra name = none :=
    field_eq_none fun f hf heq => hname (heq ▸ hextra f hf)
  rw [field_append, hnone, Option.none_or, h name hname]

end HasFields

/-! ## The `tx` command and the stream -/

/-- The hash of a transaction is not empty. -/
theorem LedgerTx.hash_ne_empty (t : LedgerTx) : t.hash ≠ "" := by
  intro h
  have hlen := t.hash_length
  rw [h] at hlen
  simp at hlen

/-- With the fields of the transaction and the values beside it, `tx` gives its status. -/
theorem txStatusOf_eq {number : String → Int} {t : LedgerTx} {result : JsObject}
    (hfields : HasFields (mergeTxJsonLayers result) t)
    (hhash : (mergeTxJsonLayers result).field "hash" = some (.str t.hash))
    (hindex : result.field "ledger_index" = some (.num t.ledgerIndex))
    (hmeta : result.field "meta" = some (.obj [("TransactionResult", .str t.result)]))
    (hvalidated : result.field "validated" = some (.bool true)) (txHash : String) :
    txStatusOf number txHash result = t.status number := by
  unfold txStatusOf LedgerTx.status metaResult
  dsimp only
  rw [hfields.escrow, hfields "TransactionType" (by decide), hfields "Account" (by decide), hhash,
    hindex, hmeta, hvalidated]
  simp [Js.asStr, Js.asNum, Js.asObject, Js.truthy, t.hash_ne_empty]

namespace LedgerTx

variable (t : LedgerTx)

/-- What stands around the transaction in the answer to `tx`. -/
def envelope : JsObject := t.hashField ++ t.indexField ++ t.outcome

/-- The fields of an envelope have the names of an envelope. -/
theorem envelope_named : ∀ f ∈ t.envelope, f.1 ∈ envelopeNames := by
  simp [envelope, hashField, indexField, outcome, envelopeNames]

/-- So has the hash. -/
theorem hashField_named : ∀ f ∈ t.hashField, f.1 ∈ envelopeNames := by
  simp [hashField, envelopeNames]

/-- Fields without `tx_json` are all in one layer. -/
theorem mergeTxJsonLayers_flat {o : JsObject} (h : o.field "tx_json" = none) :
    mergeTxJsonLayers o = o := by
  unfold mergeTxJsonLayers
  rw [h]

/-- A nested transaction is laid over by its envelope. -/
theorem mergeTxJsonLayers_nested (o : JsObject) :
    mergeTxJsonLayers (("tx_json", .obj t.fields) :: o) = (("tx_json", .obj t.fields) :: o) ++ t.fields := by
  simp [mergeTxJsonLayers]

end LedgerTx

/-- `getTxStatus` reads both shapes, whatever hash it was asked for. -/
theorem txStatusOf_message (number : String → Int) (t : LedgerTx) (shape : Shape) (txHash : String) :
    txStatusOf number txHash (t.txResult shape) = t.status number := by
  -- the transaction has no field of the envelope, so the two never shadow each other
  have hhash := t.field_envelope (show "hash" ∈ envelopeNames by decide)
  have hindex := t.field_envelope (show "ledger_index" ∈ envelopeNames by decide)
  have hmeta := t.field_envelope (show "meta" ∈ envelopeNames by decide)
  have hvalidated := t.field_envelope (show "validated" ∈ envelopeNames by decide)
  have hnested := t.field_envelope (show "tx_json" ∈ envelopeNames by decide)
  cases shape with
  | flat =>
    have hmerge : mergeTxJsonLayers (t.txResult .flat) = t.fields ++ t.envelope := by
      rw [LedgerTx.mergeTxJsonLayers_flat]
      · simp [LedgerTx.txResult, LedgerTx.envelope]
      · simp [LedgerTx.txResult, LedgerTx.hashField, LedgerTx.indexField, LedgerTx.outcome, hnested]
    refine txStatusOf_eq ?_ ?_ ?_ ?_ ?_ txHash
    · rw [hmerge]
      exact (HasFields.refl t).append_left t.envelope_named
    · rw [hmerge]
      simp [LedgerTx.envelope, LedgerTx.hashField, hhash]
    all_goals
      simp [LedgerTx.txResult, LedgerTx.hashField, LedgerTx.indexField, LedgerTx.outcome, hindex, hmeta,
        hvalidated]
  | nested =>
    have hmerge : mergeTxJsonLayers (t.txResult .nested) =
        (("tx_json", .obj t.fields) :: t.envelope) ++ t.fields :=
      t.mergeTxJsonLayers_nested t.envelope
    refine txStatusOf_eq ?_ ?_ ?_ ?_ ?_ txHash
    · rw [hmerge]
      refine (HasFields.refl t).append_right fun f hf => ?_
      rcases List.mem_cons.mp hf with rfl | hf
      · simp [envelopeNames]
      · exact t.envelope_named f hf
    · rw [hmerge]
      simp [LedgerTx.envelope, LedgerTx.hashField]
    all_goals
      simp [LedgerTx.txResult, LedgerTx.hashField, LedgerTx.indexField, LedgerTx.outcome]

/-- The status that the stream gives for the fields of the transaction. -/
theorem streamStatusOf_eq {number : String → Int} {t : LedgerTx} {stream inner : JsObject}
    (hinner : streamInner stream = some inner) (hflat : inner.field "tx_json" = none)
    (hfields : HasFields inner t) (hhash : txHashFromStream stream = some t.hash)
    (hengine : stream.field "engine_result" = some (.str t.result))
    (hindex : stream.field "ledger_index" = some (.num t.ledgerIndex))
    (hvalidated : stream.field "validated" = some (.bool true)) :
    streamStatusOf number stream = some (t.status number) := by
  have hmerge := LedgerTx.mergeTxJsonLayers_flat hflat
  unfold streamStatusOf unpackStream TransactionStream.accepted TransactionStream.asAnswer
    LedgerTx.status accountFromStream
  dsimp only
  rw [hinner, Option.map_some, Option.getD_some, hmerge, hfields.escrow]
  simp only [hhash, hengine, hindex, hvalidated, Option.bind_some,
    hfields "TransactionType" (by decide), hfields "Account" (by decide), Js.asStr, Js.asNum,
    Option.any_some, Js.truthy, if_true, LiveTxStatus.withEscrow]
  have hnat : ¬ ((t.ledgerIndex : Int) < 0) := by omega
  rw [if_neg hnat]
  rfl

/-- The worker reads both shapes of the stream. -/
theorem streamStatusOf_message (number : String → Int) (t : LedgerTx) (shape : Shape) :
    streamStatusOf number (t.streamMessage shape) = some (t.status number) := by
  have hhash := t.field_envelope (show "hash" ∈ envelopeNames by decide)
  have hnested := t.field_envelope (show "tx_json" ∈ envelopeNames by decide)
  cases shape with
  | flat =>
    have hinner : streamInner (t.streamMessage .flat) = some (t.fields ++ t.hashField) := by
      simp [streamInner, LedgerTx.streamMessage, nullish, Js.asObject]
    refine streamStatusOf_eq hinner ?_ ((HasFields.refl t).append_left t.hashField_named) ?_ ?_ ?_ ?_
    · simp [LedgerTx.hashField, hnested]
    · unfold txHashFromStream
      rw [hinner]
      simp [LedgerTx.streamMessage, LedgerTx.hashField, LedgerTx.indexField, LedgerTx.outcome, hhash,
        longHash, Js.asStr, t.hash_length]
    all_goals simp [LedgerTx.streamMessage, LedgerTx.indexField, LedgerTx.outcome]
  | nested =>
    have hinner : streamInner (t.streamMessage .nested) = some t.fields := by
      simp [streamInner, LedgerTx.streamMessage, LedgerTx.hashField, LedgerTx.indexField,
        LedgerTx.outcome, nullish, Js.asObject]
    refine streamStatusOf_eq hinner hnested (HasFields.refl t) ?_ ?_ ?_ ?_
    · simp [txHashFromStream, LedgerTx.streamMessage, LedgerTx.hashField, longHash, Js.asStr, t.hash_length]
    all_goals simp [LedgerTx.streamMessage, LedgerTx.hashField, LedgerTx.indexField, LedgerTx.outcome]

/-! ## `account_tx` -/

/-- The status without the ledger index, unless it stands beside `tx`. -/
def LedgerTx.accountStatus (number : String → Int) (beside : Bool) (t : LedgerTx) : LiveTxStatus :=
  { t.status number with ledgerIndex := if beside then some (t.ledgerIndex : Int) else none }

/-- In the flat shape the transaction is found, with the ledger index if it stands beside `tx`. -/
theorem accountTxStatus_flat (number : String → Int) (t : LedgerTx) (beside : Bool) :
    accountTxStatus number (t.accountTxEntry beside .flat) =
      some (t.accountStatus number beside) := by
  have hhash := t.field_envelope (show "hash" ∈ envelopeNames by decide)
  have hnested := t.field_envelope (show "tx_json" ∈ envelopeNames by decide)
  have hfields : HasFields (t.fields ++ t.hashField ++ t.indexField) t :=
    ((HasFields.refl t).append_left t.hashField_named).append_left
      (by simp [LedgerTx.indexField, envelopeNames])
  have htx : ((t.accountTxEntry beside .flat).field "tx").bind Js.asObject =
      some (t.fields ++ t.hashField ++ t.indexField) := by
    simp [LedgerTx.accountTxEntry, Js.asObject]
  have hmerge := LedgerTx.mergeTxJsonLayers_flat
    (show (t.fields ++ t.hashField ++ t.indexField).field "tx_json" = none by
      simp [LedgerTx.hashField, LedgerTx.indexField, hnested])
  -- the hash is beside the fields of the transaction
  have hfound : JsObject.field (t.fields ++ t.hashField ++ t.indexField) "hash" = some (.str t.hash) := by
    simp [LedgerTx.hashField, hhash]
  unfold accountTxStatus LedgerTx.accountStatus LedgerTx.status
  rw [htx, Option.bind_some, hfound]
  dsimp only
  rw [hmerge, hfields.escrow, hfields "TransactionType" (by decide), hfields "Account" (by decide)]
  cases beside <;>
    simp [LedgerTx.accountTxEntry, LedgerTx.indexField, LedgerTx.outcome, metaResult, Js.truthy,
      Js.toText, Js.asNum, Js.asObject, Js.asStr, LiveTxStatus.withEscrow, t.hash_ne_empty]

/-- An entry of version 2 has no `tx`: the transaction is dropped. -/
theorem accountTxStatus_nested (number : String → Int) (t : LedgerTx) (beside : Bool) :
    accountTxStatus number (t.accountTxEntry beside .nested) = none := by
  simp [accountTxStatus, LedgerTx.accountTxEntry, LedgerTx.hashField, LedgerTx.indexField,
    LedgerTx.outcome]

/-- Removing one hash leaves the others. -/
theorem lookup_filter_ne (out : List (String × LiveTxStatus)) {h h' : String} (hne : h ≠ h') :
    (out.filter fun e => decide (e.1 ≠ h')).lookup h = out.lookup h := by
  induction out with
  | nil => rfl
  | cons e out ih =>
    by_cases he : e.1 = h'
    · have hskip : (h == e.1) = false := by simp [he, hne]
      rw [List.filter_cons_of_neg (by simp [he]), ih, List.lookup_cons, hskip]
    · rw [List.filter_cons_of_pos (by simp [he]), List.lookup_cons, List.lookup_cons, ih]

/-- A status is recorded under its own hash. -/
theorem lookup_recordStatus (out : List (String × LiveTxStatus)) (live : LiveTxStatus) (h : String) :
    (recordStatus out live).lookup h = if h = live.txHash then some live else out.lookup h := by
  unfold recordStatus
  by_cases heq : h = live.txHash
  · simp [heq]
  · have hskip : (h == live.txHash) = false := by simp [heq]
    rw [List.lookup_cons, hskip, lookup_filter_ne out heq, if_neg heq]

/-- Statuses of other hashes leave a look-up alone. -/
theorem lookup_foldl_recordStatus (lives : List LiveTxStatus) {h : String} :
    ∀ out : List (String × LiveTxStatus), h ∉ lives.map (·.txHash) →
      (lives.foldl recordStatus out).lookup h = out.lookup h := by
  induction lives with
  | nil => exact fun _ _ => rfl
  | cons live lives ih =>
    intro out hnot
    rw [List.map_cons, List.mem_cons, not_or] at hnot
    rw [List.foldl_cons, ih _ hnot.2, lookup_recordStatus, if_neg hnot.1]

/-- Of statuses with different hashes each one is found under its hash. -/
theorem lookup_foldl_recordStatus_of_mem {lives : List LiveTxStatus} (hnodup : (lives.map (·.txHash)).Nodup)
    {live : LiveTxStatus} (hlive : live ∈ lives) (out : List (String × LiveTxStatus)) :
    (lives.foldl recordStatus out).lookup live.txHash = some live := by
  obtain ⟨before, after, rfl⟩ := List.append_of_mem hlive
  rw [List.map_append, List.map_cons, List.nodup_append] at hnodup
  have hafter : live.txHash ∉ after.map (·.txHash) := (List.nodup_cons.mp hnodup.2.1).1
  rw [List.foldl_append, List.foldl_cons, lookup_foldl_recordStatus after _ hafter,
    lookup_recordStatus, if_pos rfl]

/-- On a page in the flat shape every transaction is found. -/
theorem accountTxResultsOf_flat (number : String → Int) {page : List LedgerTx}
    (hpage : (page.map (·.hash)).Nodup) {t : LedgerTx} (ht : t ∈ page) (beside : Bool) :
    (accountTxResultsOf number (page.map fun u => u.accountTxEntry beside .flat)).lookup t.hash =
      some (t.accountStatus number beside) := by
  have hlives : (page.map fun u => u.accountTxEntry beside .flat).filterMap (accountTxStatus number) =
      page.map (LedgerTx.accountStatus number beside) := by
    rw [List.filterMap_map, ← List.filterMap_eq_map]
    exact List.filterMap_congr fun u _ => accountTxStatus_flat number u beside
  have hnodup : ((page.map (LedgerTx.accountStatus number beside)).map (·.txHash)).Nodup := by
    rw [List.map_map]
    exact hpage
  unfold accountTxResultsOf
  rw [hlives]
  exact lookup_foldl_recordStatus_of_mem hnodup (List.mem_map_of_mem ht) []

/-- On a page of version 2 none is. -/
theorem accountTxResultsOf_nested (number : String → Int) (page : List LedgerTx) (beside : Bool) :
    accountTxResultsOf number (page.map fun u => u.accountTxEntry beside .nested) = [] := by
  have hnone : (page.map fun u => u.accountTxEntry beside .nested).filterMap (accountTxStatus number) = [] := by
    rw [List.filterMap_map, List.filterMap_eq_nil_iff]
    exact fun u _ => accountTxStatus_nested number u beside
  unfold accountTxResultsOf
  rw [hnone]
  rfl

/-! ## Agreement -/

/-- The three paths find the same status for `t`, the third on a page of `account_tx`. -/
def PathsAgree (number : String → Int) (shape : Shape) (beside : Bool) (page : List LedgerTx)
    (t : LedgerTx) (txHash : String) : Prop :=
  let live := txStatusOf number txHash (t.txResult shape)
  streamStatusOf number (t.streamMessage shape) = some live ∧
    (accountTxResultsOf number (page.map fun u => u.accountTxEntry beside shape)).lookup t.hash = some live

/-- The paths agree about the flat shape with the ledger index beside `tx`, and about nothing
    else. -/
theorem ingestion_paths_agree_iff (number : String → Int) (shape : Shape) (beside : Bool)
    {page : List LedgerTx} (hpage : (page.map (·.hash)).Nodup) {t : LedgerTx} (ht : t ∈ page)
    (txHash : String) :
    PathsAgree number shape beside page t txHash ↔ shape = .flat ∧ beside = true := by
  unfold PathsAgree
  rw [txStatusOf_message, streamStatusOf_message]
  cases shape with
  | nested =>
    rw [accountTxResultsOf_nested]
    simp
  | flat =>
    rw [accountTxResultsOf_flat number hpage ht]
    -- only the ledger index can differ
    cases beside <;> simp [LedgerTx.accountStatus, LedgerTx.status, LiveTxStatus.withEscrow]

/-- An `EscrowFinish` of a third account. -/
def sampleFinish : LedgerTx where
  hash := "A1B2C3D4E5F60718293A4B5C6D7E8F90A1B2C3D4E5F60718293A4B5C6D7E8F90"
  ledgerIndex := 90000001
  result := "tesSUCCESS"
  fields := [("TransactionType", .str "EscrowFinish"), ("Account", .str "rSubmitter"),
    ("Owner", .str "rOwner"), ("OfferSequence", .num 7)]
  hash_length := by decide
  fields_named := by decide

theorem ingestion_paths_agree_iff_finish :
    ([sampleFinish].map (·.hash)).Nodup ∧ sampleFinish ∈ [sampleFinish] ∧
      PathsAgree (fun _ => 0) .flat true [sampleFinish] sampleFinish sampleFinish.hash :=
  ⟨by decide, by simp,
    (ingestion_paths_agree_iff (fun _ => 0) .flat true (by decide) (by simp) sampleFinish.hash).mpr ⟨rfl, rfl⟩⟩

/-- In the shape of version 2 `tx` and the stream find the transaction and `account_tx` does not. -/
theorem account_tx_drops_nested :
    txStatusOf (fun _ => 0) sampleFinish.hash (sampleFinish.txResult .nested) =
        { txHash := sampleFinish.hash, validated := true, ledgerIndex := some 90000001,
          resultCode := some "tesSUCCESS", transactionType := some "EscrowFinish",
          account := some "rSubmitter", escrowOwner := some "rOwner", escrowOfferSequence := some 7,
          escrowSubmitterAccount := some "rSubmitter" } ∧
      (accountTxResultsOf (fun _ => 0) [sampleFinish.accountTxEntry true .nested]).lookup
        sampleFinish.hash = none ∧
      ¬ PathsAgree (fun _ => 0) .nested true [sampleFinish] sampleFinish sampleFinish.hash := by
  have hdropped : accountTxResultsOf (fun _ => 0) [sampleFinish.accountTxEntry true .nested] = [] :=
    accountTxResultsOf_nested (fun _ => 0) [sampleFinish] true
  refine ⟨by decide +kernel, by rw [hdropped]; rfl, ?_⟩
  rintro ⟨-, hfound⟩
  rw [List.map_cons, List.map_nil, hdropped] at hfound
  cases hfound

end Bluesafe.Ops
