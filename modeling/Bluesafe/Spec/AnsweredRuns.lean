import Bluesafe.Spec.LocalChecks

/-!
# Answered requests

The runs of `POST /contracts` in which every call is answered in the way the request needs: lines
with a high enough limit, and transactions that succeed. They lead to the check of the sum, and
behind it to the checks of the dates and of the signers.
-/

namespace Bluesafe.Lock

open Async
open Bluesafe.Ops (truthy trim)

/-! ## The lock -/

section Lock

variable {cipher : GcmCipher} {masterKey : Option String} {input : LockTenantDepositInput}

/-- The calls of `lockTenantDeposit` may be answered by any value. -/
abbrev AnyAnswer : (op : Call) → op.Res → Prop := fun _ _ => True

/-- The answer to a transaction that succeeds. -/
def successResponse : TxResponse where
  hash := ""
  transactionResult := some "tesSUCCESS"
  txJson := some (some 0)
  sequence := none
  ledgerIndex := some 0
  validated := some true

/-- A result is reached without a call. -/
theorem reaches_orThrow {α : Type} {r : Except String α} {a : α} (h : r = .ok a) :
    Reaches (I := calls) AnyAnswer (orThrow r) (.ok a) := by
  rw [h]
  exact Reaches.pure

/-- So is an error. -/
theorem reaches_orThrow_error {α : Type} {r : Except String α} {e : String} (h : r = .error e) :
    Reaches (I := calls) AnyAnswer (orThrow r) (.error e) := by
  rw [h]
  exact Reaches.throw

/-- The calls of the lock are answered by this value. -/
theorem reaches_invoke (op : Call) (a : op.Res) : Reaches (I := calls) AnyAnswer (invoke op) (.ok a) :=
  Reaches.call trivial

/-- A contract can be saved. -/
theorem reaches_saveContract (draft : ContractDraft) :
    Reaches (I := calls) AnyAnswer (invoke (.saveContract draft)) (.ok (draft.toRow "")) :=
  reaches_invoke _ _

/-- With a key of the right length a seed can be encrypted. -/
theorem encryptFresh_reaches (cipher : GcmCipher) (hkey : (requireKey masterKey).isOk = true)
    (plaintext : String) :
    ∃ packaged, Reaches (I := calls) AnyAnswer
      (encryptFresh (aesGcmEncryptionService cipher masterKey) plaintext) (.ok packaged) ∧
      (aesGcmEncryptionService cipher masterKey).decrypt packaged = .ok plaintext := by
  have hiv : (ivBytes "000000000000").length = 12 := by decide
  cases hencrypt : encrypt cipher masterKey "000000000000" plaintext with
  | error e =>
    have hok := @encrypt_isOk cipher masterKey "000000000000" plaintext
    rw [hencrypt, hkey] at hok
    cases hok
  | ok packaged =>
    refine ⟨packaged, ?_, decrypt_encrypt hiv hencrypt⟩
    unfold encryptFresh
    apply Reaches.bind (reaches_invoke .randomBytes "000000000000")
    exact reaches_orThrow hencrypt

/-- A row without a seed is decrypted with its two texts. -/
theorem toDto_toRow {decrypt : String → Except String String} {draft : ContractDraft}
    {tenantPii landlordPii : String} (htenant : decrypt draft.tenantPiiCipher = .ok tenantPii)
    (hlandlord : decrypt draft.landlordPiiCipher = .ok landlordPii) (id : String) :
    (draft.toRow id).toDto decrypt = .ok ⟨draft.toRow id, none, tenantPii, landlordPii⟩ := by
  unfold ContractRow.toDto
  simp only [ContractDraft.toRow, LockColumns.empty, htenant, hlandlord, bind, Except.bind]
  rfl

/-- And the contract can be created. -/
theorem create_reaches (cipher : GcmCipher) (hkey : (requireKey masterKey).isOk = true)
    (hcurrency : (storedCurrency input.toCreateContractInput).isOk = true) :
    ∃ dto, Reaches (I := calls) AnyAnswer
      (create (aesGcmEncryptionService cipher masterKey) input.toCreateContractInput) (.ok dto) := by
  -- both seeds are encrypted, and read back from what was written
  obtain ⟨tenant, htenant, hopen⟩ := encryptFresh_reaches cipher hkey input.tenantPii
  obtain ⟨landlord, hlandlord, hopen'⟩ := encryptFresh_reaches cipher hkey input.landlordPii
  cases hstored : storedCurrency input.toCreateContractInput with
  | error e =>
    -- a currency that cannot be stored is excluded by the hypothesis
    rw [hstored] at hcurrency
    cases hcurrency
  | ok currency =>
    apply Exists.intro
    unfold create
    dsimp only
    apply Reaches.bind htenant
    apply Reaches.bind hlandlord
    apply Reaches.bind (reaches_orThrow hstored)
    apply Reaches.bind (reaches_saveContract _)
    exact reaches_orThrow (toDto_toRow hopen hopen' "")

/-- Escrow parameters are refused for their dates only. -/
theorem escrowParams_validate (input : LockTenantDepositInput) (destination : String)
    (amount : Amount) :
    (escrowParams input destination amount).validate =
      if input.cancelAfter.notAfter input.finishAfter then
        .error "cancelAfter must be later than finishAfter"
      else .ok () := by
  unfold CreateEscrowParams.validate escrowParams
  simp

/-- A valid date has a time on the ledger. -/
theorem time_ok {date : Date} (h : date.ms.isSome = true) :
    ∃ seconds, (some date).mapM isoTimeToRippleTime = (.ok (some seconds) : Except String _) := by
  obtain ⟨ms⟩ := date
  cases ms with
  | none => cases h
  | some ms => exact ⟨(ms + 500) / 1000 - 946684800, rfl⟩

/-- With valid dates the escrow can be created. -/
theorem createEscrow_reaches (hdates : input.cancelAfter.notAfter input.finishAfter = false)
    (hfinish : input.finishAfter.ms.isSome = true) (hcancel : input.cancelAfter.ms.isSome = true)
    (destination : String) (amount : Amount) :
    ∃ r, Reaches (I := calls) AnyAnswer (createEscrow (escrowParams input destination amount))
      (.ok r) := by
  obtain ⟨finishAfter, hfinish⟩ := time_ok hfinish
  obtain ⟨cancelAfter, hcancel⟩ := time_ok hcancel
  have hvalid := escrowParams_validate input destination amount
  rw [hdates, if_neg Bool.false_ne_true] at hvalid
  -- with both times given, the transaction is an `EscrowCreate` that carries them
  have htx : (escrowParams input destination amount).toTx = .ok (.escrowCreate
      input.contractWallet.classicAddress destination amount (some finishAfter) (some cancelAfter)
      none none) := by
    unfold CreateEscrowParams.toTx escrowParams
    rw [hfinish, hcancel]
    rfl
  -- what is read from a successful answer without a hash
  refine ⟨⟨"", 0, 0, true⟩, ?_⟩
  unfold createEscrow
  apply Reaches.bind (reaches_orThrow hvalid)
  apply Reaches.bind (reaches_orThrow htx)
  apply Reaches.bind (reaches_invoke _ successResponse)
  apply reaches_orThrow
  rfl

/-- The lock fails at the first check of the terms that does not hold. -/
theorem lockTenantDeposit_reaches (hkey : (requireKey masterKey).isOk = true)
    (hamounts : (escrowAmounts input).isOk = true)
    (hcurrency : (storedCurrency input.toCreateContractInput).isOk = true)
    (hfinish : input.finishAfter.ms.isSome = true) (hcancel : input.cancelAfter.ms.isSome = true)
    (hterms : input.cancelAfter.notAfter input.finishAfter = false →
      (signerListParams input).validate ≠ .ok ()) :
    ∃ e, LocalMessage e ∧ Reaches (I := calls) AnyAnswer
      (lockTenantDeposit (aesGcmEncryptionService cipher masterKey) input) (.error e) := by
  obtain ⟨contract, hcreate⟩ := create_reaches cipher hkey hcurrency
  cases hescrow : escrowAmounts input with
  | error e =>
    rw [hescrow] at hamounts
    cases hamounts
  | ok amounts =>
    obtain ⟨depositAmount, stakeAmount⟩ := amounts
    have hdeposit := escrowParams_validate input input.tenantAddress depositAmount
    unfold lockTenantDeposit
    -- the first escrow checks the dates, and the signers are checked behind the second
    cases hdates : input.cancelAfter.notAfter input.finishAfter with
    | true =>
      rw [hdates, if_pos rfl] at hdeposit
      refine ⟨_, localMessage_self (t := "cancelAfter must be later than finishAfter") (by decide), ?_⟩
      apply Reaches.bind (reaches_orThrow hescrow)
      apply Reaches.bind hcreate
      apply Reaches.bind_error
      unfold createEscrow
      exact Reaches.bind_error (reaches_orThrow_error hdeposit)
    | false =>
      obtain ⟨deposit, hdeposit⟩ :=
        createEscrow_reaches hdates hfinish hcancel input.tenantAddress depositAmount
      obtain ⟨stake, hstake⟩ :=
        createEscrow_reaches hdates hfinish hcancel input.landlordAddress stakeAmount
      cases hsigners : (signerListParams input).validate with
      | ok u => exact absurd hsigners (hterms hdates)
      | error e =>
        refine ⟨e, validate_signers_error hsigners, ?_⟩
        apply Reaches.bind (reaches_orThrow hescrow)
        apply Reaches.bind hcreate
        apply Reaches.bind hdeposit
        apply Reaches.bind hstake
        apply Reaches.bind_error
        unfold setSignerList
        exact Reaches.bind_error (reaches_orThrow_error hsigners)

end Lock

/-! ## What the validation of the body gives -/

section Accepted

variable {isEmail : String → Bool} {dto : CreateContractDto}

/-- A request that is accepted has valid dates. -/
theorem accepted_dates (h : dto.accepted isEmail = true) :
    dto.finishAfter.ms.isSome = true ∧ dto.cancelAfter.ms.isSome = true := by
  simp only [CreateContractDto.accepted, Bool.and_eq_true, List.all_cons, List.all_nil] at h
  obtain ⟨⟨⟨⟨-, -, -, hfinish, hcancel, -⟩, -⟩, -⟩, -⟩ := h
  exact ⟨hfinish, hcancel⟩

/-- And valid amounts, where they are issued. -/
theorem accepted_values (h : dto.accepted isEmail = true) (hmode : dto.mode = .iou) :
    isIouValue dto.depositAmount = true ∧ isIouValue dto.stakeAmount = true := by
  simp only [CreateContractDto.accepted, Bool.and_eq_true] at h
  have hshape : dto.depositStakeShape = true := h.1.1.1.1.1.1.2
  unfold CreateContractDto.depositStakeShape at hshape
  rw [hmode] at hshape
  exact Bool.and_eq_true_iff.mp hshape

end Accepted

/-! ## The trust lines -/

section Funding

variable {lib : Libraries} {config : Config} {dto : CreateContractDto} {operator : Wallet}

/-- A result is reached without a call of the ledger. -/
theorem reaches_orRaise {α : Type} {r : Except String α} {a : α} (h : r = .ok a) :
    Reaches (Generated dto operator) (orRaise r) (.ok a) := by
  rw [h]
  exact Reaches.pure

/-- So is an error. -/
theorem reaches_orRaise_error {α : Type} {r : Except String α} {e : String} (h : r = .error e) :
    Reaches (Generated dto operator) (orRaise r) (.error e) := by
  rw [h]
  exact Reaches.throw

/-- Every call but the generation of a key pair may be answered by any value. -/
theorem reaches_request {op : LedgerCall} (hop : op ≠ .generateWallet) (a : op.Res) :
    Reaches (Generated dto operator) (request op) (.ok a) := by
  apply Reaches.call
  cases op with
  | generateWallet => exact absurd rfl hop
  | _ => trivial

/-- The look-up of a line may find any line. -/
theorem findTrustLine_reaches {raw cur : String} (hcur : normalizeIouCurrencyCode raw = .ok cur)
    (account issuer limit balance : String) :
    Reaches (Generated dto operator) (findTrustLine account issuer cur)
      (.ok (some ⟨limit, balance, cur⟩)) := by
  have hupper : String.ofList (cur.toList.flatMap upperCase) = cur := by
    rw [flatMap_upperCase (code_chars hcur), String.ofList_toList]
  have hlines := @reaches_request dto operator (.accountLines account issuer) (by simp)
    [⟨some cur, some limit, some balance⟩]
  unfold findTrustLine
  apply Reaches.bind (reaches_orRaise (normalize_normalized hcur).1)
  apply Reaches.bind hlines
  rw [List.find?_cons_of_pos (by simpa using hupper)]
  exact Reaches.pure

/-- The faucet may do its work. -/
theorem ensureTestnetXrpForFees_reaches (wallet : Wallet) :
    Reaches (Generated dto operator) (ensureTestnetXrpForFees wallet) (.ok ()) := by
  unfold ensureTestnetXrpForFees
  apply Reaches.bind (reaches_request (by simp) ())
  apply Reaches.bind (b := true)
  · apply Reaches.tryCatch
    apply Reaches.bind (reaches_request (by simp) (10000000 : Nat))
    exact Reaches.pure
  · exact Reaches.pure

/-- A wallet for the funding can be had. -/
theorem fundingWallet_reaches (dto : CreateContractDto) (operator : Wallet) {raw cur : String}
    (hcur : normalizeIouCurrencyCode raw = .ok cur)
    {params : IouSetup} (hmatches : SeedMatches lib config params.issuer) (total : String) :
    ∃ wallet, Reaches (Generated dto operator)
      (fundingWallet lib config operator params cur total) (.ok wallet) := by
  unfold fundingWallet
  cases hseed : truthy (config.xrplIouIssuerSeed.map trim) with
  -- with an issuer seed, its wallet is the issuer of the currency
  | some issuerSeed =>
    obtain ⟨wallet, hwallet, hissuer⟩ := hmatches issuerSeed hseed
    have hfrom : lib.walletFromSeed issuerSeed = .ok wallet := by
      unfold Libraries.walletFromSeed
      rw [hwallet]
    refine ⟨wallet, ?_⟩
    dsimp only
    apply Reaches.bind (reaches_orRaise hfrom)
    rw [if_neg (not_not_intro hissuer)]
    apply Reaches.bind (ensureTestnetXrpForFees_reaches wallet)
    exact Reaches.pure
  | none =>
    -- without one, the operator pays from a trust line that it holds
    refine ⟨operator, ?_⟩
    dsimp only
    -- the line that is found covers the total, so the balance test passes
    apply Reaches.bind (findTrustLine_reaches hcur _ _ "0" total)
    rw [if_neg (by simp [lib.floats.lt_irrefl])]
    exact Reaches.pure

/-- A trust line can be set. -/
theorem submitTrustSet_reaches (owner : Wallet) (limitAmount : Amount) :
    Reaches (Generated dto operator) (submitTrustSet owner limitAmount) (.ok ()) := by
  unfold submitTrustSet
  apply Reaches.bind (reaches_request (by simp) ())
  apply Reaches.bind (reaches_request (by simp) successResponse)
  exact Reaches.pure

/-- A line that is too small can be widened, and is then large enough. -/
theorem ensureTrustLine_reaches {raw : String} {params : IouSetup} (wallet : Wallet)
    (hcur : normalizeIouCurrencyCode raw = .ok params.currency)
    (hsum : (sumIouValueStrings lib.floats params.depositValue params.stakeValue).isOk = true)
    (hmatches : SeedMatches lib config params.issuer) :
    Reaches (Generated dto operator)
      (ensureTrustLineAndFundFromOperator lib config wallet operator params) (.ok ()) := by
  cases htotal : sumIouValueStrings lib.floats params.depositValue params.stakeValue with
  | error e =>
    -- a sum that cannot be formed is excluded by the hypothesis
    rw [htotal] at hsum
    cases hsum
  | ok total =>
    obtain ⟨funding, hfunding⟩ := fundingWallet_reaches dto operator hcur hmatches total
    unfold ensureTrustLineAndFundFromOperator
    -- one line for each await or throw of the function, in its order
    apply Reaches.bind (reaches_request (by simp) ())
    apply Reaches.bind (reaches_orRaise (normalize_normalized hcur).1)
    apply Reaches.bind (reaches_orRaise htotal)
    apply Reaches.bind hfunding
    apply Reaches.bind (reaches_orRaise (buildIouAmount_normalized hcur _ _))
    apply Reaches.bind (submitTrustSet_reaches wallet _)
    apply Reaches.bind (reaches_orRaise (buildIouAmount_normalized hcur _ _))
    apply Reaches.bind (reaches_request (by simp) successResponse)
    exact reaches_orRaise rfl

/-- The sum is checked with the account funded. -/
theorem ensureTrustLine_reaches_error {raw e : String} {params : IouSetup} (wallet : Wallet)
    (hcur : normalizeIouCurrencyCode raw = .ok params.currency)
    (hsum : sumIouValueStrings lib.floats params.depositValue params.stakeValue = .error e) :
    Reaches (Generated dto operator)
      (ensureTrustLineAndFundFromOperator lib config wallet operator params) (.error e) := by
  unfold ensureTrustLineAndFundFromOperator
  apply Reaches.bind (reaches_request (by simp) ())
  apply Reaches.bind (reaches_orRaise (normalize_normalized hcur).1)
  exact Reaches.bind_error (reaches_orRaise_error hsum)

/-- Both counterparties can have their lines. -/
theorem assertCounterpartyTrustLines_reaches {raw : String} {params : IouSetup}
    (hcur : normalizeIouCurrencyCode raw = .ok params.currency)
    (hdeposit : isIouValue params.depositValue = true) (hstake : isIouValue params.stakeValue = true)
    (tenantAddress landlordAddress : String) :
    Reaches (Generated dto operator)
      (assertCounterpartyTrustLines lib tenantAddress landlordAddress params) (.ok ()) := by
  have hdeposit := lib.floats.ge_self _ hdeposit
  have hstake := lib.floats.ge_self _ hstake
  unfold assertCounterpartyTrustLines
  apply Reaches.bind (reaches_request (by simp) ())
  apply Reaches.bind (reaches_orRaise (normalize_normalized hcur).1)
  apply Reaches.bind (findTrustLine_reaches hcur _ _ params.depositValue "0")
  rw [if_neg (by simp [iouValueGte, hdeposit])]
  apply Reaches.bind (findTrustLine_reaches hcur _ _ params.stakeValue "0")
  rw [if_neg (by simp [iouValueGte, hstake])]
  exact Reaches.pure

/-- The checks in front of the funding can be passed. -/
theorem checkIou_reaches (lib : Libraries) (operator : Wallet) {isEmail : String → Bool}
    (haccepted : dto.accepted isEmail = true)
    {settings : Option (String × String)} (hchecked : Checked config dto settings) :
    Reaches (Generated dto operator) (checkIou lib config dto) (.ok settings) := by
  unfold checkIou
  cases settings with
  -- without IOU settings the request must be an XRP one
  | none =>
    have hmode : dto.mode = .xrp := hchecked
    rw [hmode]
    exact Reaches.pure
  | some settings =>
    -- with them, the lines of both parties are checked before anything is generated
    obtain ⟨hmode, hsettings⟩ := hchecked
    obtain ⟨-, raw, hcur⟩ := iouSettings_ok hsettings
    obtain ⟨hdeposit, hstake⟩ := accepted_values haccepted hmode
    have hlines : Reaches (Generated dto operator) (assertCounterpartyTrustLines lib
        dto.tenantAddress dto.landlordAddress (dto.iouSetup settings)) (.ok ()) := by
      apply assertCounterpartyTrustLines_reaches
      · exact hcur
      · exact hdeposit
      · exact hstake
    rw [hmode]
    dsimp only
    apply Reaches.bind (reaches_orRaise hsettings)
    apply Reaches.bind hlines
    exact Reaches.pure

/-! ## The new account -/

/-- A key pair whose address is longer than those of the parties together. -/
def freshWallet (dto : CreateContractDto) (operator : Wallet) : Wallet where
  classicAddress := dto.tenantAddress ++ dto.landlordAddress ++ operator.classicAddress ++ "x"
  seed := some "s"

/-- A fresh wallet is one that was generated. -/
theorem freshWallet_generated (dto : CreateContractDto) (operator : Wallet) :
    Generated dto operator (.inr .generateWallet) (freshWallet dto operator) := by
  constructor
  · rfl
  -- its address is longer than each address of the request, so it is none of them
  · have hne : ∀ address : String,
        address.length < (freshWallet dto operator).classicAddress.length →
          (freshWallet dto operator).classicAddress ≠ address := by
      intro address hlt heq
      rw [heq] at hlt
      omega
    have hlength : (freshWallet dto operator).classicAddress.length =
        dto.tenantAddress.length + dto.landlordAddress.length + operator.classicAddress.length + 1 := by
      simp only [freshWallet, String.length_append]
      rfl
    simp only [List.mem_cons, List.not_mem_nil, or_false, not_or]
    exact ⟨hne _ (by omega), hne _ (by omega), hne _ (by omega)⟩

/-- The funding is a submission. -/
theorem generateAndFundWallet_smooth (dto : CreateContractDto) (operator : Wallet) :
    ∃ evs, Smooth (Generated dto operator) generateAndFundWallet evs
        (.ok (freshWallet dto operator)) ∧ ∃ ev ∈ evs, Submits ev.op := by
  have hgenerate : Smooth (Generated dto operator) (request .generateWallet) _ _ :=
    Smooth.call (freshWallet_generated dto operator)
  have hfund : Smooth (Generated dto operator)
      (request (.fundWallet (freshWallet dto operator).classicAddress)) _ _ :=
    Smooth.call (a := ()) trivial
  obtain ⟨evs, hclient⟩ := @reaches_request dto operator .getClient (by simp) ()
  exact ⟨_, hclient.bind (hgenerate.bind (hfund.bind Smooth.pure)), _,
    List.mem_append_right _ (List.mem_append_right _ List.mem_cons_self), trivial⟩

end Funding

end Bluesafe.Lock
