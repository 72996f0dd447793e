import Bluesafe.Settle.Memo
import Bluesafe.Spec.MonthlyPayment

/-!
# The memo of a payment proves its payload

A memo is built from every payload whose JSON has at most 1024 bytes, in UTF-8. Reading it gives the
payload back (`decodeReconcileMemo_build`), because parsing undoes `JSON.stringify` and the decoders
undo UTF-8 and hexadecimal. So a payment shows one payload only (`payload_of_memoData`).
-/

namespace Bluesafe.Settle

variable {p p' : ReconcileMemoPayload} {memo memo' : ReconcileMemo}

theorem text_value (p : ReconcileMemoPayload) : p.value.text = p.json := by
  unfold ReconcileMemoPayload.value
  rw [JsValue.text_record]
  rfl

theorem value_inj (h : p.value = p'.value) : p = p' := by
  have hfields := JsValue.record_inj h
  simp only [List.cons.injEq, Prod.mk.injEq, true_and, and_true] at hfields
  obtain ⟨hcontract, hmonth, hkepco, hlandlord, hamount⟩ := hfields
  cases p
  cases p'
  simp_all

/-- The bytes that are counted are those of the UTF-8. -/
theorem length_encode (cs : List Char) : (Utf8.encode cs).length = Text.byteLength cs := by
  unfold Utf8.encode
  rw [List.length_map]
  induction cs with
  | nil => rfl
  | cons c cs ih =>
    rw [List.flatMap_cons, List.length_append, ih, String.length_utf8EncodeChar, Text.byteLength_cons]

theorem buildReconcileMemo_ok : buildReconcileMemo p = .ok memo ↔
    (Utf8.encode p.json).length ≤ 1024 ∧ memo = ⟨Text.hexOf "reconcile/v1".toList,
      Text.hexOf "application/json".toList, Text.hexOf p.json⟩ := by
  rw [length_encode]
  unfold buildReconcileMemo
  dsimp only
  split
  · constructor
    · intro h
      cases h
    · rintro ⟨hle, -⟩
      omega
  · constructor
    · intro h
      cases h
      exact ⟨by omega, rfl⟩
    · rintro ⟨-, rfl⟩
      rfl

/-- The bytes of the JSON decide whether there is a memo. -/
theorem buildReconcileMemo_error :
    (∃ e, buildReconcileMemo p = .error e) ↔ 1024 < (Utf8.encode p.json).length := by
  rw [length_encode]
  unfold buildReconcileMemo
  dsimp only
  split
  · rename_i hlong
    exact ⟨fun _ => hlong, fun _ => ⟨_, rfl⟩⟩
  · rename_i hshort
    constructor
    · rintro ⟨e, h⟩
      cases h
    · intro h
      exact absurd h hshort

/-- Reading a memo undoes building it. -/
theorem decodeReconcileMemo_build (xrpl : HexText) (h : buildReconcileMemo p = .ok memo) :
    decodeReconcileMemo xrpl memo = .ok p.value := by
  obtain ⟨-, rfl⟩ := buildReconcileMemo_ok.mp h
  -- neither text begins with a byte order mark
  have htype := xrpl.undoes "reconcile/v1".toList (by decide)
  rw [String.ofList_toList] at htype
  have hdata := xrpl.undoes p.json (by simp [ReconcileMemoPayload.json, Text.object])
  have hparse : JsValue.parse p.json = some p.value := by
    rw [← text_value]
    exact JsValue.parse_text p.value
  unfold decodeReconcileMemo
  dsimp only
  rw [htype, hdata]
  simp only [bind, Except.bind]
  rw [if_neg (not_not.mpr rfl), String.toList_ofList, hparse]
  rfl

/-- Payloads are told apart by their texts. -/
theorem payload_of_json (h : p.json = p'.json) : p = p' := by
  -- both texts are parsed, and the result is one value
  have hparse := JsValue.parse_text p.value
  rw [text_value, h, ← text_value, JsValue.parse_text] at hparse
  exact value_inj (Option.some.inj hparse).symm

/-- The data of a memo belong to one payload. -/
theorem payload_of_memoData (h : buildReconcileMemo p = .ok memo)
    (h' : buildReconcileMemo p' = .ok memo') (hdata : memo.memoData = memo'.memoData) : p = p' := by
  rw [memoData_of_build h, memoData_of_build h'] at hdata
  exact payload_of_json (Text.hexOf_inj hdata)

/-- A memo of another type is refused, and the error names the type. -/
theorem decodeReconcileMemo_otherType {xrpl : HexText} {type : String}
    (h : xrpl.convertHexToString memo.memoType = .ok type) (htype : type ≠ "reconcile/v1") :
    decodeReconcileMemo xrpl memo =
      .error ("Unexpected MemoType: " ++ type ++ " (expected reconcile/v1)") := by
  unfold decodeReconcileMemo
  rw [h]
  simp only [bind, Except.bind]
  rw [if_pos htype]
  rfl

/-- A memo that is accepted has the type of a settlement. -/
theorem decodeReconcileMemo_type {xrpl : HexText} {v : JsValue}
    (h : decodeReconcileMemo xrpl memo = .ok v) :
    xrpl.convertHexToString memo.memoType = .ok "reconcile/v1" := by
  cases htype : xrpl.convertHexToString memo.memoType with
  | error e =>
    unfold decodeReconcileMemo at h
    rw [htype] at h
    cases h
  | ok type =>
    by_cases heq : type = "reconcile/v1"
    · rw [heq]
    · rw [decodeReconcileMemo_otherType htype heq] at h
      cases h

/-- A memo is refused for its length only, is read back as its payload, and has data of its own;
    nothing is read from a memo of another type. -/
theorem memo_round_trip (xrpl : HexText) (p : ReconcileMemoPayload) :
    ((∃ e, buildReconcileMemo p = .error e) ↔ 1024 < (Utf8.encode p.json).length) ∧
    (∀ memo, buildReconcileMemo p = .ok memo →
      decodeReconcileMemo xrpl memo = .ok p.value ∧
      ∀ p' memo', buildReconcileMemo p' = .ok memo' → memo'.memoData = memo.memoData → p' = p) ∧
    ∀ memo, xrpl.convertHexToString memo.memoType ≠ .ok "reconcile/v1" →
      ∃ e, decodeReconcileMemo xrpl memo = .error e := by
  refine ⟨buildReconcileMemo_error, fun memo h => ⟨decodeReconcileMemo_build xrpl h, ?_⟩, ?_⟩
  · intro p' memo' h' hdata
    exact payload_of_memoData h' h hdata
  · intro memo htype
    cases hdecode : decodeReconcileMemo xrpl memo with
    | error e => exact ⟨e, rfl⟩
    | ok v => exact absurd (decodeReconcileMemo_type hdecode) htype

end Bluesafe.Settle
