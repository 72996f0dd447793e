import Bluesafe.Spec.AnsweredRuns

/-!
# Checks behind the funding of an account

The settings and the trust lines of `POST /contracts` are checked before a transaction is submitted.
The sum of the amounts is checked when the account of the contract has been funded, the order of the
dates after the IOU amounts have been paid in, and the signers after both escrows exist. So a request
that fails such a check has cost transactions, unless it does not get that far (`Harmless`).

A run is a trace: its calls may be answered or rejected in any way.
-/

namespace Bluesafe.Lock

open Async
open Bluesafe.Ops (truthy trim)

/-! ## Requests that meet the claim -/

/-- The events of a request. -/
abbrev CreateEvents : Type := List (Event (calls.sum ledgerCalls) String)

/-- The error at the end of these events is the one of a local check, and no call was rejected with
    it. -/
def FailsLocally (evs : CreateEvents) (e : String) : Prop :=
  LocalMessage e ∧ lastRejection evs ≠ some e

/-- The dates are in order, and the three signers are different. -/
def GoodTerms (dto : CreateContractDto) (operator : Wallet) : Prop :=
  dto.cancelAfter.notAfter dto.finishAfter = false ∧
    [dto.tenantAddress, dto.landlordAddress, operator.classicAddress].Nodup

/-- No check behind the funding fails: the sum of IOU amounts is a number, and the terms are good,
    unless the service stops earlier because of its own settings. -/
def Harmless (lib : Libraries) (config : Config) (dto : CreateContractDto) : Prop :=
  ∀ operator, operatorWallet lib config = .ok operator →
    match dto.mode with
    | .xrp => KeyConfigured config → GoodTerms dto operator
    | .iou => ∀ settings, iouSettings config dto = .ok settings →
      (sumIouValueStrings lib.floats dto.depositAmount dto.stakeAmount).isOk = true ∧
        (SeedMatches lib config settings.1 → KeyConfigured config → GoodTerms dto operator)

/-- A request that fails a local check has submitted nothing, in every run. -/
def CostsNothing (lib : Libraries) (config : Config) (dto : CreateContractDto) : Prop :=
  ∀ evs e, Traces (createContract lib config dto) evs (.error e) →
    (∀ operator, operatorWallet lib config = .ok operator →
      ∀ ev ∈ evs, AnsweredAs (Generated dto operator) ev) →
    FailsLocally evs e → ∀ ev ∈ evs, ¬ Submits ev.op

/-! ## Requests that cost nothing -/

section Harmless

variable {lib : Libraries} {config : Config} {dto : CreateContractDto} {operator : Wallet}

/-- What is done from the funding on throws no local message, if the request is harmless. -/
theorem fundAndLock_faults {settings : Option (String × String)}
    (hharmless : Harmless lib config dto) (hoperator : operatorWallet lib config = .ok operator)
    (hchecked : Checked config dto settings) :
    Faults (Generated dto operator) (¬ LocalMessage ·)
      (fundAndLock lib config dto operator settings) (fun _ => True) := by
  have hharmless := hharmless operator hoperator
  -- the wallet is new, so its address is none of the three parties
  unfold fundAndLock
  apply Faults.bind generateAndFundWallet_faults
  intro wallet hwallet
  obtain ⟨hseed, hfresh⟩ := hwallet
  -- then the funding, which is only needed for a token
  apply Faults.bind (T := fun _ => KeyConfigured config → GoodTerms dto operator)
  -- an XRP contract has no trust line to set
  · cases settings with
    | none =>
      have hmode : dto.mode = .xrp := hchecked
      rw [hmode] at hharmless
      exact Faults.pure hharmless
    -- a token is funded by the issuer, or from the line of the operator
    | some settings =>
      obtain ⟨hmode, hsettings⟩ := hchecked
      rw [hmode] at hharmless
      obtain ⟨-, raw, hcurrency⟩ := iouSettings_ok hsettings
      obtain ⟨hsum, hterms⟩ := hharmless settings hsettings
      exact (ensureTrustLine_faults wallet hcurrency hsum).mono fun _ => hterms
  intro _ hterms
  -- last the lock, with the same amounts and the same currency
  obtain ⟨hamounts, hcurrency⟩ := lockInput_ok hchecked wallet operator
  apply Faults.bind (T := fun _ => True)
  · apply Faults.inl
    apply lockTenantDeposit_faults hamounts hcurrency hseed
    -- its own checks are those that the harmless request passes
    intro hkey
    obtain ⟨hdates, hsigners⟩ := hterms hkey
    exact ⟨hdates, (validate_signers_iff hfresh).mpr hsigners⟩
  intro locked _
  exact Faults.pure trivial

theorem costsNothing_of_harmless (h : Harmless lib config dto) : CostsNothing lib config dto := by
  -- the trace of a run that fails locally, before an operator or behind it
  intro evs e htraces hgenerated hlocal
  unfold createContract at htraces
  cases hoperator : operatorWallet lib config with
  -- without an operator nothing is asked of the ledger
  | error e' =>
    rw [hoperator] at htraces
    obtain ⟨rfl, -⟩ := htraces
    simp
  | ok operator =>
    rw [hoperator] at htraces
    change Traces (checkIou lib config dto >>= _) evs _ at htraces
    rcases traces_bind.mp htraces with ⟨e', -, hcheck⟩ | ⟨settings, first, rest, rfl, hcheck, hlock⟩
    · exact hcheck.forall_of_only checkIou_only
    · -- behind the checks an error is the rejection of the last call, or not local
      exfalso
      -- the answers of the run are those of a ledger that answers
      have hanswers := hgenerated operator hoperator
      have hchecked := checkIou_checked.value_of_traces hcheck fun ev hev =>
        hanswers ev (List.mem_append_left _ hev)
      have hend := (fundAndLock_faults h hoperator hchecked).of_traces (lastRejection first) hlock
        fun ev hev => hanswers ev (List.mem_append_right _ hev)
      rw [lastRejection, ← rejectionAfter_append] at hend
      -- the error came from outside, or it is not one of the code
      rcases hend with hlast | hforeign
      · exact hlocal.2 hlast
      · exact hforeign hlocal.1

end Harmless

/-! ## Requests that do not -/

section Harmful

variable {lib : Libraries} {config : Config} {dto : CreateContractDto} {operator : Wallet}
  {isEmail : String → Bool} {settings : Option (String × String)} {e : String}

/-- Behind the funding, the setup of the trust line or the lock fails. -/
theorem fundAndLock_late
    (hlate : Reaches (Generated dto operator)
        (fundIou lib config dto (freshWallet dto operator) operator settings) (.error e) ∨
      Reaches (Generated dto operator)
        (fundIou lib config dto (freshWallet dto operator) operator settings) (.ok ()) ∧
      Reaches (I := calls) AnyAnswer
        (lockTenantDeposit (aesGcmEncryptionService lib.cipher config.encryptionMasterKey)
          (dto.lockInput settings (freshWallet dto operator) operator)) (.error e)) :
    ∃ evs, Smooth (Generated dto operator) (fundAndLock lib config dto operator settings) evs
      (.error e) ∧ ∃ ev ∈ evs, Submits ev.op := by
  -- the generated wallet is one of the run, and its funding is a submission
  obtain ⟨first, hfirst, ev, hev, hsubmits⟩ := generateAndFundWallet_smooth dto operator
  unfold fundAndLock
  -- the late error is that of the funding, or that of the lock behind it
  rcases hlate with hfund | ⟨hfund, hlock⟩
  · obtain ⟨rest, hrest⟩ := hfund
    exact ⟨first ++ rest, hfirst.bind hrest.bind_error, ev, List.mem_append_left _ hev, hsubmits⟩
  · obtain ⟨middle, hmiddle⟩ := hfund
    obtain ⟨rest, hrest⟩ := hlock
    have hinl := Smooth.inl (R := Generated dto operator) hrest
    exact ⟨first ++ (middle ++ rest.map Event.inl), hfirst.bind (hmiddle.bind hinl.bind_error), ev,
      List.mem_append_left _ hev, hsubmits⟩

/-- A run that fails so is a run of the request. -/
theorem not_costsNothing (haccepted : dto.accepted isEmail = true)
    (hoperator : operatorWallet lib config = .ok operator) (hchecked : Checked config dto settings)
    (he : LocalMessage e)
    (hlate : ∃ evs, Smooth (Generated dto operator) (fundAndLock lib config dto operator settings) evs
      (.error e) ∧ ∃ ev ∈ evs, Submits ev.op) : ¬ CostsNothing lib config dto := by
  -- the run that reaches the late error is one of the claim, with a submission in it
  intro hnothing
  obtain ⟨first, hfirst⟩ := checkIou_reaches lib operator haccepted hchecked
  obtain ⟨rest, hrest, ev, hev, hsubmits⟩ := hlate
  have hcreate : Smooth (Generated dto operator) (createContract lib config dto) (first ++ rest)
      (.error e) := by
    unfold createContract
    rw [hoperator]
    exact hfirst.bind hrest
  refine hnothing _ e hcreate.traces ?_ ⟨he, ?_⟩ ev (List.mem_append_right _ hev) hsubmits
  -- its answers are those of this operator
  · intro operator' hoperator'
    rw [hoperator] at hoperator'
    cases hoperator'
    exact hcreate.answered
  -- and its error is no rejection of the last call
  · rw [hcreate.lastRejection_eq]
    simp

/-- With bad terms the lock can fail on them. -/
theorem lock_late (lib : Libraries) (haccepted : dto.accepted isEmail = true)
    (hchecked : Checked config dto settings) (hkey : KeyConfigured config) (hterms : ¬ GoodTerms dto operator) :
    ∃ e, LocalMessage e ∧ Reaches (I := calls) AnyAnswer
      (lockTenantDeposit (aesGcmEncryptionService lib.cipher config.encryptionMasterKey)
        (dto.lockInput settings (freshWallet dto operator) operator)) (.error e) := by
  obtain ⟨hamounts, hcurrency⟩ := lockInput_ok hchecked (freshWallet dto operator) operator
  obtain ⟨hfinish, hcancel⟩ := accepted_dates haccepted
  apply lockTenantDeposit_reaches hkey hamounts hcurrency hfinish hcancel
  intro hdates hvalid
  have hfresh := (freshWallet_generated dto operator).2
  exact hterms ⟨hdates, (validate_signers_iff hfresh).mp hvalid⟩

theorem harmless_of_costsNothing (haccepted : dto.accepted isEmail = true)
    (h : CostsNothing lib config dto) : Harmless lib config dto := by
  intro operator hoperator
  cases hmode : dto.mode with
  | xrp =>
    intro hkey
    by_contra hterms
    have hchecked : Checked config dto none := hmode
    obtain ⟨e, he, hlock⟩ := lock_late lib haccepted hchecked hkey hterms
    exact not_costsNothing haccepted hoperator hchecked he
      (fundAndLock_late (.inr ⟨Reaches.pure, hlock⟩)) h
  | iou =>
    intro settings hsettings
    have hchecked : Checked config dto (some settings) := ⟨hmode, hsettings⟩
    obtain ⟨-, raw, hcur⟩ := iouSettings_ok hsettings
    have hsum : (sumIouValueStrings lib.floats dto.depositAmount dto.stakeAmount).isOk = true := by
      cases hsum : sumIouValueStrings lib.floats dto.depositAmount dto.stakeAmount with
      | ok total => rfl
      | error e =>
        -- the trust line is opened for the funded account, and the sum fails
        have hfund := @ensureTrustLine_reaches_error lib config dto operator raw e
          (dto.iouSetup settings) (freshWallet dto operator) hcur hsum
        exact absurd h (not_costsNothing haccepted hoperator hchecked (sum_error hsum)
          (fundAndLock_late (.inl hfund)))
    refine ⟨hsum, fun hmatches hkey => ?_⟩
    by_contra hterms
    have hfund := @ensureTrustLine_reaches lib config dto operator raw
      (dto.iouSetup settings) (freshWallet dto operator) hcur hsum hmatches
    obtain ⟨e, he, hlock⟩ := lock_late lib haccepted hchecked hkey hterms
    exact not_costsNothing haccepted hoperator hchecked he
      (fundAndLock_late (.inr ⟨hfund, hlock⟩)) h

end Harmful

/-- Of the requests that are accepted, exactly the harmless ones cost nothing when they fail a local
    check. -/
theorem bad_input_costs_nothing_iff (lib : Libraries) (config : Config) (isEmail : String → Bool)
    (dto : CreateContractDto) (haccepted : dto.accepted isEmail = true) :
    CostsNothing lib config dto ↔ Harmless lib config dto :=
  ⟨harmless_of_costsNothing haccepted, costsNothing_of_harmless⟩

/-! ## A request whose dates are reversed -/

/-- The number of a decimal text in units of the sixteenth decimal; `none` is `NaN`. -/
def readDecimal (s : String) : Option Nat :=
  let whole := s.toList.takeWhile Char.isDigit
  let fraction := ((s.toList.dropWhile Char.isDigit).drop 1).takeWhile Char.isDigit
  if whole = [] then none
  else
    some ((whole ++ (fraction ++ List.replicate 16 '0').take 16).foldl
      (fun n c => 10 * n + (c.toNat - 48)) 0)

theorem readDecimal_isSome {s : String} (h : isIouValue s = true) : (readDecimal s).isSome = true := by
  unfold isIouValue at h
  unfold readDecimal
  dsimp only
  split
  · rename_i hnil
    rw [hnil] at h
    simp at h
  · rfl

/-- Decimals of sixteen places. -/
def decimals : Floats where
  Number := Option Nat
  parseFloat := readDecimal
  add x y := x.bind fun m => y.map (m + ·)
  isFinite := Option.isSome
  lt x y := x.any fun m => y.any (m < ·)
  ge x y := x.any fun m => y.any (· ≤ m)
  zero := some 0
  toFixed x := x.elim "NaN" fun n =>
    toString (n / 10000000000000000) ++ "." ++
      String.ofList ((toString (1000000000000000 + n % 10000000000000000 / 10)).toList.drop 1)
  ge_self s h := by
    obtain ⟨n, hn⟩ := Option.isSome_iff_exists.mp (readDecimal_isSome h)
    simp [hn]
  lt_irrefl x := by
    cases x with
    | none => rfl
    | some n => simp

/-- A cipher whose tag is sixteen zeros. -/
def zeroTag : GcmCipher where
  encrypt _ _ plain := (plain, List.replicate 16 (UInt8.ofNat 0))
  decrypt _ _ ciphertext tag := if tag = List.replicate 16 (UInt8.ofNat 0) then some ciphertext else none
  length_ciphertext _ _ _ := rfl
  length_tag _ _ _ := rfl
  decrypt_eq_some _ _ ciphertext tag plain := by
    rw [Option.ite_none_right_eq_some, Option.some.injEq, Prod.mk.injEq]
    exact ⟨fun h => ⟨h.2.symm, h.1.symm⟩, fun h => ⟨h.2.symm, h.1.symm⟩⟩

def sampleLibraries : Libraries where
  fromSeed seed :=
    if seed = "sEdOperator" then some ⟨"rOperator1111111111111111111111", some seed⟩ else none
  floats := decimals
  cipher := zeroTag

/-- A server with the wallet of the operator and an encryption key. -/
def sampleConfig : Config where
  xrplOperatorSeed := some "sEdOperator"
  xrplIouIssuer := none
  xrplIouCurrency := none
  xrplIouIssuerSeed := none
  encryptionMasterKey := some "AAAAAAAAAAAAAAAAAAAAAAAAAAAAAAAAAAAAAAAAAAA="

/-- A request in XRP mode. -/
def sampleRequest (finishAfter cancelAfter : Int) : CreateContractDto where
  assetMode := none
  iouIssuer := none
  iouCurrency := none
  tenantAddress := "rTenant111111111111111111111111"
  landlordAddress := "rLandlord1111111111111111111111"
  depositAmount := "50000000"
  stakeAmount := "10000000"
  startsAt := ⟨some 0⟩
  endsAt := ⟨some 1000⟩
  finishAfter := ⟨some finishAfter⟩
  cancelAfter := ⟨some cancelAfter⟩
  tenantPii := "t"
  landlordPii := "l"
  tenantEmail := none

theorem sampleRequest_accepted (finishAfter cancelAfter : Int) :
    (sampleRequest finishAfter cancelAfter).accepted (fun _ => true) = true := by
  have haddresses : isAddress "rTenant111111111111111111111111" = true ∧
      isAddress "rLandlord1111111111111111111111" = true := by decide +kernel
  have hdrops : isDrops "50000000" = true ∧ isDrops "10000000" = true := by decide +kernel
  simp [CreateContractDto.accepted, CreateContractDto.depositStakeShape, CreateContractDto.mode,
    sampleRequest, haddresses, hdrops]

theorem sampleConfig_key : KeyConfigured sampleConfig := by
  unfold KeyConfigured
  decide +kernel

theorem bad_input_costs_nothing_iff_sample :
    CostsNothing sampleLibraries sampleConfig (sampleRequest 2000 3000) := by
  apply (bad_input_costs_nothing_iff sampleLibraries sampleConfig (fun _ => true)
    (sampleRequest 2000 3000) (sampleRequest_accepted 2000 3000)).mpr
  intro operator hoperator _
  cases hoperator
  exact ⟨by decide, by decide +kernel⟩

/-- An account is funded for a request that is to be cancelled before it can be finished. -/
theorem reversed_dates_cost :
    (sampleRequest 3000 2000).accepted (fun _ => true) = true ∧
      ¬ CostsNothing sampleLibraries sampleConfig (sampleRequest 3000 2000) := by
  refine ⟨sampleRequest_accepted 3000 2000, fun h => ?_⟩
  have hharmless := harmless_of_costsNothing (sampleRequest_accepted 3000 2000) h
  obtain ⟨hdates, -⟩ := hharmless ⟨"rOperator1111111111111111111111", some "sEdOperator"⟩ rfl
    sampleConfig_key
  cases hdates

end Bluesafe.Lock
