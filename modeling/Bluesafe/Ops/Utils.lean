import Bluesafe.ForStd.Utf16
import Bluesafe.Ops.Types

/-!
# Small functions of the operations backend

The string operations of the source language that the handlers use, and the pure parts
of `utils.ts` and of the `xrpl-tx-policy` worker. Strings are handled as lists of
characters so that every function here evaluates in the kernel.
-/

namespace Bluesafe.Ops

/-! ## String operations -/

/-- `s.startsWith(lead)`. -/
def startsWith (s lead : String) : Bool :=
  lead.toList.isPrefixOf s.toList

/-- The characters `String.prototype.trim` removes. -/
def isTrimmed (c : Char) : Bool :=
  c.toNat ∈ [0x09, 0x0A, 0x0B, 0x0C, 0x0D, 0x20, 0xA0, 0x1680, 0x2028, 0x2029, 0x202F,
    0x205F, 0x3000, 0xFEFF] || (0x2000 ≤ c.toNat && c.toNat ≤ 0x200A)

/-- `s.trim()`. -/
def trim (s : String) : String :=
  String.ofList ((s.toList.dropWhile isTrimmed).reverse.dropWhile isTrimmed).reverse

/-- `s.toUpperCase()` on the hexadecimal strings it is applied to. -/
def toUpperCase (s : String) : String :=
  String.ofList (s.toList.map Char.toUpper)

/-- `s.slice(a, b)`: the cut counts code units, so it may halve a character. -/
def slice (a b : Nat) (s : String) : String :=
  JsString.toText (((JsString.ofChars s.toList).take b).drop a)

/-- `s.slice(0, n)`. -/
def sliceTo (n : Nat) (s : String) : String := slice 0 n s

-- The second code unit belongs to a character of two.
example : sliceTo 2 "a😀b" = "a�" := by decide +kernel

/-- A string that is present and not empty: the truthy values of an optional string. -/
def truthy : Option String → Option String
  | some s => if s = "" then none else some s
  | none => none

theorem truthy_eq_some {o : Option String} {s : String} :
    truthy o = some s ↔ o = some s ∧ s ≠ "" := by
  cases o with
  | none => simp [truthy]
  | some t =>
    by_cases ht : t = ""
    · simp only [truthy, ht, if_true, reduceCtorEq, Option.some.injEq, false_iff, not_and]
      intro h hne
      exact hne h.symm
    · simp only [truthy, ht, if_false, Option.some.injEq]
      constructor
      · intro h
        exact ⟨h, h ▸ ht⟩
      · intro h
        exact h.1

/-! ## Result codes -/

/-- `classifyXrplResultCode`. -/
def classifyXrplResultCode (resultCode : Option String) : OutcomeClass :=
  match truthy resultCode with
  | none => .manualReview
  | some code =>
    if startsWith code "tes" then .success
    else if startsWith code "ter" then .retryable
    else if startsWith code "tem" then .finalFail
    else if startsWith code "tec" then .manualReview
    else .manualReview

/-- A code is classified as a success exactly when it begins with `tes`. -/
theorem classify_eq_success {resultCode : Option String} :
    classifyXrplResultCode resultCode = .success ↔
      ∃ code, resultCode = some code ∧ startsWith code "tes" = true := by
  unfold classifyXrplResultCode
  constructor
  · intro h
    split at h
    · exact nomatch h
    · rename_i code hcode
      split at h
      · rename_i htes
        exact ⟨code, (truthy_eq_some.mp hcode).1, htes⟩
      · split at h
        · exact nomatch h
        · split at h
          · exact nomatch h
          · split at h <;> exact nomatch h
  · rintro ⟨code, rfl, htes⟩
    have hne : code ≠ "" := by
      rintro rfl
      exact absurd htes (by decide)
    rw [truthy_eq_some.mpr ⟨rfl, hne⟩]
    simp [htes]

/-- `xrplTxClientPolicyHint`: a code and a message for dashboards. -/
def xrplTxClientPolicyHint (trackingStatus : TxTrackingStatus) (validated : Bool)
    (outcomeClass : OutcomeClass) (resultCode : Option String) : String × String :=
  let rc := trim (resultCode.getD "")
  if rc = "not_found_after_policy" then
    ("B2_XRPL_TX_POLICY_EXHAUSTED",
      "This hash was not confirmed on ledger after repeated policy probes; " ++
        "have an operator verify the hash and network.")
  else if validated = true ∧ outcomeClass = .success ∧ trackingStatus = .validatedSuccess then
    ("B2_XRPL_TX_VALIDATED_SUCCESS",
      "Ledger-validated transaction with a successful engine result.")
  else if validated = true ∧ outcomeClass = .finalFail then
    ("B2_XRPL_TX_TERMINAL_FAILURE",
      "Validated failure (non-retryable / tem-class); do not expect automatic success.")
  else if outcomeClass = .retryable ∨ trackingStatus = .retryScheduled then
    ("B2_XRPL_TX_RETRYABLE",
      "Retryable XRPL outcome; Backend2 will re-probe on the policy schedule.")
  else if outcomeClass = .manualReview ∨ trackingStatus = .validatedFail then
    ("B2_XRPL_TX_MANUAL_REVIEW",
      "Human review recommended (tec-class, exhausted probes, or ambiguous engine result).")
  else
    ("B2_XRPL_TX_PENDING",
      "Reconciliation in progress (subscribe stream + tx / account_tx policy).")

/-! ## Policy worker -/

/-- `isPolicyCandidate`. -/
def isPolicyCandidate (tx : XrplTransaction) : Bool :=
  if tx.validated then false
  else if tx.trackingStatus ≠ .pendingValidation ∧ tx.trackingStatus ≠ .retryScheduled then false
  else if tx.outcomeClass = some .manualReview then false
  else true

/-- `policyJobBackoffMs`. -/
def policyJobBackoffMs (baseIntervalMs maxBackoffMs nextAttempts : Nat) : Nat :=
  let n := min nextAttempts 14
  let raw := baseIntervalMs * Nat.pow 2 n
  min maxBackoffMs (max baseIntervalMs raw)

/-! ## Parties -/

/-- `contractPartyRecipientIds`. -/
def contractPartyRecipientIds (contract : Contract) : List String :=
  [contract.tenantId, contract.landlordId]

/-- `canAccessContract`. -/
def canAccessContract (config : Config) (auth : Option BluesafeAuth) (contract : Contract) :
    Bool :=
  if !config.authEnabled then true
  else match auth with
    | none => false
    | some a =>
      match a.role with
      | .auditor => true
      | .operator => true
      | .verifier => true
      | .tenant => a.tenantId = some contract.tenantId
      | .landlord => a.landlordId = some contract.landlordId

end Bluesafe.Ops
