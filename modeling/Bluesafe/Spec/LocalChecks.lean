import Bluesafe.Async.Faults
import Bluesafe.Lock.Controller
import Bluesafe.Spec.LockDeposit
import Bluesafe.Spec.SignerLists

/-!
# Errors of a new contract

`POST /contracts` checks a request in several services. `LocalMessage` says that an error is the one
of a check that looks only at the request and at what the service holds itself: the order of the
dates, the signers, the seeds, the currency code, the sum of the amounts. For each function on the
way, `Faults` says when it throws none of these.
-/

namespace Bluesafe.Lock

open Async
open Bluesafe.Ops (truthy trim)

/-! ## Failures of local checks -/

/-- How the messages of the local checks begin: the order of the dates, the signers, the seeds, the
    currency code, and the sum of the amounts. -/
def localTexts : List String :=
  ["cancelAfter must be later than finishAfter",
    "owner account cannot be in its own SignerList", "duplicate signer account: ",
    "XRPL_OPERATOR_SEED 미설정 — 계약 생성 불가", "contractWallet must have a seed for persistence",
    "Invalid IOU currency code (use 3-letter code or 40-char hex): ",
    "IOU 모드: ", "IOU escrow requires iouIssuer and iouCurrency", "Invalid IOU amount sum"]

/-- The message of a local check. -/
def LocalMessage (e : String) : Prop := ∃ t ∈ localTexts, t.toList <+: e.toList

/-- A text that begins as one of the local messages is local. -/
theorem localMessage_of_mem {t : String} (ht : t ∈ localTexts) (rest : String) :
    LocalMessage (t ++ rest) := by
  refine ⟨t, ht, ?_⟩
  rw [String.toList_append]
  exact List.prefix_append _ _

/-- So is the message itself. -/
theorem localMessage_self {t : String} (ht : t ∈ localTexts) : LocalMessage t :=
  ⟨t, ht, List.prefix_rfl⟩

/-- How the other messages behind the funding begin. The text for a seed that cannot be read is the
    library's, and nothing looks at it. -/
def otherTexts : List String :=
  ["invalid seed", "XRPL_IOU_ISSUER_SEED 주소가 XRPL_IOU_ISSUER 와 일치하지 않습니다.",
    "XRPL_OPERATOR_SEED 지갑의 ", "TrustSet response meta missing or string", "TrustSet failed: ",
    "XRPL tx meta missing", "XRPL tx failed: ", "ENCRYPTION_MASTER_KEY is not configured",
    "ENCRYPTION_MASTER_KEY must be 32 bytes base64 (got ", "ciphertext too short",
    "Unsupported state or unable to authenticate data", "Invalid time value",
    "EscrowCreate not validated: meta missing or string", "EscrowCreate failed: ",
    "EscrowCreate response missing Sequence", "EscrowCreate response missing ledger_index",
    "SignerListSet not validated: meta missing or string", "SignerListSet failed: ",
    "SignerListSet response missing ledger_index", "Contract "]

/-- None of them begins like the message of a local check, or the other way round. -/
theorem not_prefix_other : ∀ p ∈ otherTexts, ∀ t ∈ localTexts,
    ¬ t.toList <+: p.toList ∧ ¬ p.toList <+: t.toList := by decide +kernel

/-- A text that begins otherwise is not. -/
theorem not_local {p : String} (hp : p ∈ otherTexts) (rest : String) : ¬ LocalMessage (p ++ rest) := by
  rintro ⟨t, ht, hprefix⟩
  have hother := not_prefix_other p hp t ht
  rw [String.toList_append] at hprefix
  rcases List.prefix_or_prefix_of_prefix hprefix (List.prefix_append p.toList rest.toList) with h | h
  · exact hother.1 h
  · exact hother.2 h

/-- Nor is this beginning alone. -/
theorem not_local_self {p : String} (hp : p ∈ otherTexts) : ¬ LocalMessage p := by
  have h := not_local hp ""
  rw [String.append_empty] at h
  exact h

/-! ## Currency codes -/

/-- Upper case and trimming leave the characters of a currency code alone. -/
theorem code_char {c : Char} (hc : isCodeChar c = true) :
    upperCase c = [c] ∧ Bluesafe.Ops.isTrimmed c = false := by
  -- the ASCII characters are tried one by one
  have hall : ∀ n : Fin 128, isCodeChar (Char.ofNat n) = true →
      upperCase (Char.ofNat n) = [Char.ofNat n] ∧
        Bluesafe.Ops.isTrimmed (Char.ofNat n) = false := by decide +kernel
  -- a character of a code is one of them
  have hlt : c.toNat < 128 := by
    simp only [isCodeChar, Bool.or_eq_true, Bool.and_eq_true, decide_eq_true_eq] at hc
    rcases hc with ⟨-, hle⟩ | ⟨-, hle⟩
    · exact Nat.lt_of_le_of_lt hle (by decide)
    · exact Nat.lt_of_le_of_lt hle (by decide)
  have hchar := hall ⟨c.toNat, hlt⟩
  dsimp only at hchar
  rw [Char.ofNat_toNat] at hchar
  exact hchar hc

/-- A hexadecimal digit may stand in a currency code. -/
theorem isCodeChar_of_isHexChar {c : Char} (hc : isHexChar c = true) : isCodeChar c = true := by
  simp only [isHexChar, isCodeChar, Bool.or_eq_true, Bool.and_eq_true, decide_eq_true_eq] at hc ⊢
  rcases hc with hdigit | ⟨hlow, hhigh⟩
  · exact .inr hdigit
  · exact .inl ⟨hlow, Char.le_trans hhigh (by decide)⟩

/-- So upper case leaves whole codes alone. -/
theorem flatMap_upperCase {cs : List Char} (hcs : ∀ c ∈ cs, isCodeChar c = true) :
    cs.flatMap upperCase = cs := by
  induction cs with
  | nil => rfl
  | cons c cs ih =>
    rw [List.flatMap_cons, (code_char (hcs c List.mem_cons_self)).1,
      ih fun d hd => hcs d (List.mem_cons_of_mem _ hd)]
    rfl

/-- A text of such characters is not trimmed. -/
theorem trim_code {cs : List Char} (hcs : ∀ c ∈ cs, isCodeChar c = true) :
    trim (String.ofList cs) = String.ofList cs := by
  have hdrop : ∀ ds : List Char, (∀ c ∈ ds, isCodeChar c = true) →
      ds.dropWhile Bluesafe.Ops.isTrimmed = ds := by
    intro ds hds
    cases ds with
    | nil => rfl
    | cons d ds => rw [List.dropWhile_cons, (code_char (hds d List.mem_cons_self)).2]; rfl
  unfold trim
  rw [String.toList_ofList, hdrop cs hcs, hdrop cs.reverse (by simpa using hcs), List.reverse_reverse]

/-- The normal form of a code has these characters only. -/
theorem code_chars {raw code : String} (h : normalizeIouCurrencyCode raw = .ok code) :
    ∀ c ∈ code.toList, isCodeChar c = true := by
  unfold normalizeIouCurrencyCode at h
  dsimp only at h
  -- the text after the trimming and the upper case
  generalize (trim raw).toList.flatMap upperCase = cs at h
  split at h
  · rename_i hshape
    cases h
    rw [String.toList_ofList]
    intro c hc
    -- three characters, or forty hexadecimal digits
    rcases hshape with ⟨-, hall⟩ | ⟨-, hall⟩
    · exact List.all_eq_true.mp hall c hc
    · exact isCodeChar_of_isHexChar (List.all_eq_true.mp hall c hc)
  · cases h

/-- The upper case of a normalized code. -/
theorem upperCase_code {raw code : String} (h : normalizeIouCurrencyCode raw = .ok code) :
    (trim code).toList.flatMap upperCase = code.toList := by
  have hchars := code_chars h
  have htrim := trim_code hchars
  rw [String.ofList_toList] at htrim
  rw [htrim, flatMap_upperCase hchars]

/-- A normalized code is normalized again to itself. -/
theorem normalize_normalized {raw code : String} (h : normalizeIouCurrencyCode raw = .ok code) :
    normalizeIouCurrencyCode code = .ok code ∧ truthy (some code) = some code := by
  have hupper := upperCase_code h
  unfold normalizeIouCurrencyCode at h
  dsimp only at h
  generalize (trim raw).toList.flatMap upperCase = cs at h
  split at h
  · rename_i hshape
    cases h
    rw [String.toList_ofList] at hupper
    -- normalising once more finds a text that is in upper case and has the shape
    constructor
    · unfold normalizeIouCurrencyCode
      dsimp only
      rw [hupper, if_pos hshape]
    -- the shape leaves no room for the empty text
    · refine Bluesafe.Ops.truthy_eq_some.mpr ⟨rfl, ?_⟩
      intro hempty
      have hnil := congrArg String.toList hempty
      rw [String.toList_ofList] at hnil
      subst hnil
      simp at hshape
  · cases h

/-- Of a code in normal form an amount can be built. -/
theorem buildIouAmount_normalized {raw code : String} (h : normalizeIouCurrencyCode raw = .ok code)
    (issuer value : String) :
    buildIouAmount issuer code value = .ok (.issued (trim issuer) code (trim value)) := by
  unfold buildIouAmount
  rw [(normalize_normalized h).1]
  rfl

/-! ## Settings and answers -/

/-- The key of the encryption service is configured. -/
def KeyConfigured (config : Config) : Prop :=
  (requireKey config.encryptionMasterKey).isOk = true

/-- The issuer's seed is not configured, or it is the seed of this issuer. -/
def SeedMatches (lib : Libraries) (config : Config) (issuer : String) : Prop :=
  ∀ seed, truthy (config.xrplIouIssuerSeed.map trim) = some seed →
    ∃ wallet, lib.fromSeed seed = some wallet ∧ wallet.classicAddress = issuer

/-- `Wallet.generate()` gives a key pair with a seed, and the address of nobody else. -/
def Generated (dto : CreateContractDto) (operator : Wallet) :
    (op : (calls.sum ledgerCalls).Op) → (calls.sum ledgerCalls).Res op → Prop
  | .inr .generateWallet, wallet =>
    (truthy wallet.seed).isSome = true ∧
      wallet.classicAddress ∉ [dto.tenantAddress, dto.landlordAddress, operator.classicAddress]
  | _, _ => True

/-! ## Errors of `lockTenantDeposit` -/

section Lock

variable {R : (op : Call) → op.Res → Prop} {cipher : GcmCipher} {masterKey : Option String}
  {input : LockTenantDepositInput}

/-- A value that is checked is returned, or its error is thrown. -/
theorem faults_orThrow {α : Type} {r : Except String α} {P : String → Prop} {Q : α → Prop}
    (hok : ∀ a, r = .ok a → Q a) (herr : ∀ e, r = .error e → P e) :
    Faults (I := calls) R P (orThrow r) Q := by
  cases r with
  | ok a => exact Faults.pure (hok a rfl)
  | error e => exact Faults.throw (herr e rfl)

/-- A missing or wrong key is not one of the local checks of the request. -/
theorem requireKey_error {e : String} (h : requireKey masterKey = .error e) : ¬ LocalMessage e := by
  -- no key at all, or a key of another length
  unfold requireKey at h
  split at h
  · cases h
    exact not_local_self (by simp [otherTexts])
  · dsimp only at h
    split at h
    · cases h
      rw [String.append_assoc]
      exact not_local (by simp [otherTexts]) _
    · cases h

/-- Encryption fails for its key only. -/
theorem encrypt_error {iv plaintext e : String}
    (h : (aesGcmEncryptionService cipher masterKey).encrypt iv plaintext = .error e) :
    ¬ LocalMessage e := by
  change encrypt cipher masterKey iv plaintext = .error e at h
  rcases Except.error_of_bind h with h | ⟨key, -, h⟩
  · exact requireKey_error h
  · cases h

/-- Decryption fails for its key or its package. -/
theorem decrypt_error {packaged e : String}
    (h : (aesGcmEncryptionService cipher masterKey).decrypt packaged = .error e) :
    ¬ LocalMessage e := by
  change decrypt cipher masterKey packaged = .error e at h
  -- the key is asked for before the package is opened
  rcases Except.error_of_bind h with h | ⟨key, -, h⟩
  · exact requireKey_error h
  · unfold unpackage at h
    split at h
    · cases h
      -- a package of another shape, or one that does not open
      exact not_local_self (by simp [otherTexts])
    · split at h
      · cases h
      · cases h
        exact not_local_self (by simp [otherTexts])

/-- A row that cannot be read fails for one of its columns. -/
theorem toDto_error {row : ContractRow} {e : String}
    (h : row.toDto (aesGcmEncryptionService cipher masterKey).decrypt = .error e) :
    ¬ LocalMessage e := by
  unfold ContractRow.toDto at h
  -- the first of the two texts that fails
  rcases Except.error_of_bind h with h | ⟨tenantPii, -, h⟩
  · exact decrypt_error h
  rcases Except.error_of_bind h with h | ⟨landlordPii, -, h⟩
  · exact decrypt_error h
  dsimp only at h
  split at h
  · rcases Except.error_of_bind h with h | ⟨seed, -, h⟩
    · rcases Except.error_of_bind h with h | ⟨seed, -, h⟩
      · exact decrypt_error h
      · cases h
    · cases h
  · cases h

/-- A result code of the ledger is no local check. -/
theorem assertCreateSuccess_error {response : TxResponse} {e : String}
    (h : assertCreateSuccess response = .error e) : ¬ LocalMessage e := by
  unfold assertCreateSuccess at h
  split at h
  · cases h
    exact not_local_self (by simp [otherTexts])
  · split at h
    · cases h
      exact not_local (by simp [otherTexts]) _
    · split at h
      · cases h
        exact not_local_self (by simp [otherTexts])
      · cases h
        exact not_local_self (by simp [otherTexts])
      · cases h

/-- The same for a signer list. -/
theorem assertSignerListSuccess_error {response : TxResponse} {e : String}
    (h : assertSignerListSuccess response = .error e) : ¬ LocalMessage e := by
  unfold assertSignerListSuccess at h
  split at h
  · cases h
    exact not_local_self (by simp [otherTexts])
  · split at h
    · cases h
      exact not_local (by simp [otherTexts]) _
    · split at h
      · cases h
        exact not_local_self (by simp [otherTexts])
      · cases h

/-- A date that is no date fails inside the builder, not in a check of the request. -/
theorem time_error {date : Option Date} {e : String}
    (h : date.mapM isoTimeToRippleTime = (.error e : Except String _)) : ¬ LocalMessage e := by
  cases date with
  | none => cases h
  | some date =>
    rcases Except.error_of_bind h with h | ⟨seconds, -, h⟩
    · unfold isoTimeToRippleTime at h
      split at h
      · cases h
        exact not_local_self (by simp [otherTexts])
      · cases h
    · cases h

/-- So does a transaction with such a date. -/
theorem toTx_error {params : CreateEscrowParams} {e : String} (h : params.toTx = .error e) :
    ¬ LocalMessage e := by
  rcases Except.error_of_bind h with h | ⟨finishAfter, -, h⟩
  · exact time_error h
  rcases Except.error_of_bind h with h | ⟨cancelAfter, -, h⟩
  · exact time_error h
  · cases h

/-- Encryption throws no local message. -/
theorem encryptFresh_faults (plaintext : String) :
    Faults (I := calls) R (¬ LocalMessage ·)
      (encryptFresh (aesGcmEncryptionService cipher masterKey) plaintext)
      (fun _ => (requireKey masterKey).isOk = true) := by
  unfold encryptFresh
  -- the nonce first, then the cipher, which asks for a key of the right length
  apply Faults.bind (Faults.call fun _ _ => trivial)
  intro iv _
  apply faults_orThrow
  · intro packaged hok
    have hkey := @encrypt_isOk cipher masterKey iv plaintext
    rw [← hkey]
    change encrypt cipher masterKey iv plaintext = .ok packaged at hok
    rw [hok]
    rfl
  · intro e he
    exact encrypt_error he

/-- A contract is created only with a key. -/
theorem create_faults (hcurrency : (storedCurrency input.toCreateContractInput).isOk = true) :
    Faults (I := calls) R (¬ LocalMessage ·)
      (create (aesGcmEncryptionService cipher masterKey) input.toCreateContractInput)
      (fun _ => (requireKey masterKey).isOk = true) := by
  unfold create
  apply Faults.bind (encryptFresh_faults _)
  intro tenantPiiCipher hkey
  apply Faults.bind (encryptFresh_faults _)
  intro landlordPiiCipher _
  -- the currency is normalised already, so it is not refused here
  apply Faults.bind (T := fun _ => True)
  · apply faults_orThrow
    · intro iouCurrency _
      trivial
    · intro e he
      rw [he] at hcurrency
      cases hcurrency
  intro iouCurrency _
  apply Faults.bind (Faults.call (Q := fun _ => True) fun _ _ => trivial)
  intro saved _
  exact faults_orThrow (fun _ _ => hkey) fun e he => toDto_error he

/-- With dates in order, the escrow throws no local message. -/
theorem createEscrow_faults {destination : String} {amount : Amount}
    (hdates : input.cancelAfter.notAfter input.finishAfter = false) :
    Faults (I := calls) R (¬ LocalMessage ·) (createEscrow (escrowParams input destination amount))
      (fun _ => True) := by
  -- what is left of the escrow's own checks are its dates
  have hvalid : (escrowParams input destination amount).validate = .ok () := by
    unfold CreateEscrowParams.validate escrowParams
    simp [hdates]
  unfold createEscrow
  rw [hvalid]
  apply Faults.bind (T := fun _ => True) (Faults.pure trivial)
  intro _ _
  apply Faults.bind (T := fun _ => True)
  · exact faults_orThrow (fun _ _ => trivial) fun e he => toTx_error he
  intro tx _
  apply Faults.bind (Faults.call (Q := fun _ => True) fun _ _ => trivial)
  intro response _
  exact faults_orThrow (fun _ _ => trivial) fun e he => assertCreateSuccess_error he

/-- A well-formed signer list fails only at the ledger. -/
theorem setSignerList_faults (hvalid : (signerListParams input).validate = .ok ()) :
    Faults (I := calls) R (¬ LocalMessage ·) (setSignerList (signerListParams input))
      (fun _ => True) := by
  unfold setSignerList
  rw [hvalid]
  apply Faults.bind (T := fun _ => True) (Faults.pure trivial)
  intro _ _
  apply Faults.bind (Faults.call (Q := fun _ => True) fun _ _ => trivial)
  intro response _
  exact faults_orThrow (fun _ _ => trivial) fun e he => assertSignerListSuccess_error he

/-- With a seed at hand, storing the lock fails only in the database. -/
theorem storeLock_faults (hseed : (truthy input.contractWallet.seed).isSome = true) {id : String}
    {deposit stake : EscrowCreatedResult} {signerList : SignerListSetResult} :
    Faults (I := calls) R (¬ LocalMessage ·)
      (storeLock (aesGcmEncryptionService cipher masterKey) input id deposit stake signerList)
      (fun _ => True) := by
  -- the seed of the wallet is there to be encrypted
  obtain ⟨seed, hseed⟩ := Option.isSome_iff_exists.mp hseed
  unfold storeLock
  rw [hseed]
  dsimp only
  apply Faults.bind (encryptFresh_faults seed)
  intro seedCipher _
  apply Faults.bind (Faults.call (Q := fun _ => True) fun _ _ => trivial)
  intro _ _
  -- the row is read back, as the answer of the request
  apply Faults.bind (T := fun _ => True)
  · unfold findById
    apply Faults.bind (Faults.call (Q := fun _ => True) fun _ _ => trivial)
    intro found _
    cases found with
    | none => exact Faults.pure trivial
    | some row =>
      apply Faults.bind (T := fun _ => True)
      · exact faults_orThrow (fun _ _ => trivial) fun e he => toDto_error he
      · intro dto _
        exact Faults.pure trivial
  intro found _
  cases found with
  | none =>
    -- its absence is reported in other words than those of a check
    apply Faults.throw
    rw [String.append_assoc]
    exact not_local (by simp [otherTexts]) _
  | some updated => exact Faults.pure trivial

/-- Where the amounts and the currency are known to be good, only the terms are left to check. -/
theorem lockTenantDeposit_faults (hamounts : (escrowAmounts input).isOk = true)
    (hcurrency : (storedCurrency input.toCreateContractInput).isOk = true)
    (hseed : (truthy input.contractWallet.seed).isSome = true)
    (hterms : (requireKey masterKey).isOk = true →
      input.cancelAfter.notAfter input.finishAfter = false ∧
        (signerListParams input).validate = .ok ()) :
    Faults (I := calls) R (¬ LocalMessage ·)
      (lockTenantDeposit (aesGcmEncryptionService cipher masterKey) input) (fun _ => True) := by
  unfold lockTenantDeposit
  -- the amounts can be built, by assumption
  apply Faults.bind (T := fun _ => True)
  · apply faults_orThrow (fun _ _ => trivial)
    intro e he
    rw [he] at hamounts
    cases hamounts
  intro amounts _
  obtain ⟨depositAmount, stakeAmount⟩ := amounts
  dsimp only
  apply Faults.bind (create_faults hcurrency)
  intro contract hkey
  -- with a key at hand the rest of the terms are in order
  obtain ⟨hdates, hsigners⟩ := hterms hkey
  apply Faults.bind (createEscrow_faults hdates)
  intro deposit _
  apply Faults.bind (createEscrow_faults hdates)
  intro stake _
  apply Faults.bind (setSignerList_faults hsigners)
  intro signerList _
  exact storeLock_faults hseed

end Lock

/-! ## The signers -/

section Signers

variable {input : LockTenantDepositInput}

/-- The accounts of the signer list. -/
def signerAccounts (input : LockTenantDepositInput) : List String :=
  [input.tenantAddress, input.landlordAddress, input.operatorAddress]

/-- For a new account the signer list is refused only because of equal signers. -/
theorem validate_signers_iff (hfresh : input.contractWallet.classicAddress ∉ signerAccounts input) :
    (signerListParams input).validate = .ok () ↔ (signerAccounts input).Nodup := by
  -- each of the three signers may sign for a wallet that is none of theirs
  have hown : ∀ s ∈ (signerListParams input).signers,
      Acceptable input.contractWallet.classicAddress [] s := by
    intro s hs
    simp only [signerListParams, List.mem_cons, List.not_mem_nil, or_false] at hs
    simp only [signerAccounts, List.mem_cons, List.not_mem_nil, or_false, not_or] at hfresh
    obtain ⟨htenant, hlandlord, hoperator⟩ := hfresh
    have hweight : (1 : Int) ≤ 1 ∧ (1 : Int) ≤ 65535 := by decide
    rcases hs with rfl | rfl | rfl
    · exact ⟨hweight, Ne.symm htenant, List.not_mem_nil⟩
    · exact ⟨hweight, Ne.symm hlandlord, List.not_mem_nil⟩
    · exact ⟨hweight, Ne.symm hoperator, List.not_mem_nil⟩
  rw [validate_eq_ok_iff]
  constructor
  -- the walk over the signers refuses the second of a name
  · intro h
    obtain ⟨-, -, total, htotal, -⟩ := h
    exact (checkSigners_eq_ok_iff.mp htotal).2.1
  · intro hnodup
    have hsize : 1 ≤ 3 ∧ 3 ≤ 32 := by decide
    have hquorum : (0 : Int) < 2 ∧ (2 : Int) ≤ 3 := by decide
    exact ⟨hsize, hquorum.1, 3, checkSigners_eq_ok_iff.mpr ⟨hown, hnodup, rfl⟩, hquorum.2⟩

/-- A signer list is refused by a local message. -/
theorem validate_signers_error {e : String} (h : (signerListParams input).validate = .error e) :
    LocalMessage e := by
  -- induction on the signers; both messages of the walk are local
  have hwalk : ∀ signers seen total, (∀ s ∈ signers, s.weight = 1) →
      checkSigners input.contractWallet.classicAddress signers seen total = .error e →
      LocalMessage e := by
    intro signers
    induction signers with
    | nil =>
      intro seen total _ h
      cases h
    | cons s signers ih =>
      intro seen total hweight h
      have hone := hweight s List.mem_cons_self
      rw [checkSigners, if_neg (by omega)] at h
      split at h
      · cases h
        exact localMessage_self (by decide)
      · split at h
        · cases h
          exact localMessage_of_mem (by decide) _
        · exact ih _ _ (fun s hs => hweight s (List.mem_cons_of_mem _ hs)) h
  -- all three have weight one
  have hone : ∀ s ∈ (signerListParams input).signers, s.weight = 1 := by
    intro s hs
    simp only [signerListParams, List.mem_cons, List.not_mem_nil, or_false] at hs
    rcases hs with rfl | rfl | rfl
    · rfl
    · rfl
    · rfl
  have hsize : ¬ (signerListParams input).signers.length = 0 ∧
      ¬ (signerListParams input).signers.length > 32 ∧ ¬ (signerListParams input).quorum ≤ 0 := by
    simp [signerListParams]
  unfold SetSignerListParams.validate at h
  rw [if_neg hsize.1, if_neg hsize.2.1, if_neg hsize.2.2] at h
  rcases Except.error_of_bind h with h | ⟨total, htotal, h⟩
  · exact hwalk _ _ _ hone h
  · -- the three weights are enough for the quorum
    have htotal : total = 3 := (checkSigners_eq_ok_iff.mp htotal).2.2
    rw [htotal, if_neg (by simp [signerListParams])] at h
    cases h

end Signers

/-! ## Errors behind the funding -/

section Funding

variable {R : (op : (calls.sum ledgerCalls).Op) → (calls.sum ledgerCalls).Res op → Prop}
  {lib : Libraries} {config : Config} {dto : CreateContractDto} {operator : Wallet}

/-- A result that is raised fails with its own message. -/
theorem faults_orRaise {α : Type} {r : Except String α} {P : String → Prop} {Q : α → Prop}
    (hok : ∀ a, r = .ok a → Q a) (herr : ∀ e, r = .error e → P e) : Faults R P (orRaise r) Q := by
  cases r with
  | ok a => exact Faults.pure (hok a rfl)
  | error e => exact Faults.throw (herr e rfl)

/-- A call of which only the answer counts. -/
theorem faults_request {P : String → Prop} (op : LedgerCall) :
    Faults R P (request op) (fun _ => True) := Faults.call fun _ _ => trivial

/-- With a normalised currency, the look-up of the line fails only at the ledger. -/
theorem findTrustLine_faults {raw cur : String} (hcur : normalizeIouCurrencyCode raw = .ok cur)
    (account issuer : String) :
    Faults R (¬ LocalMessage ·) (findTrustLine account issuer cur) (fun _ => True) := by
  unfold findTrustLine
  rw [(normalize_normalized hcur).1]
  apply Faults.bind (T := fun _ => True) (Faults.pure trivial)
  intro want _
  apply Faults.bind (faults_request _)
  intro lines _
  exact Faults.pure trivial

/-- The faucet gives no local message. -/
theorem ensureTestnetXrpForFees_faults (wallet : Wallet) :
    Faults R (¬ LocalMessage ·) (ensureTestnetXrpForFees wallet) (fun _ => True) := by
  unfold ensureTestnetXrpForFees
  apply Faults.bind (faults_request _)
  intro _ _
  apply Faults.bind (T := fun _ => True)
  -- a balance that cannot be read is taken for none
  · apply Faults.tryCatch (T := fun _ => True)
    · apply Faults.bind (faults_request _)
      intro drops _
      exact Faults.pure trivial
    · intro e
      exact Faults.pure trivial
  intro funded _
  split
  · exact Faults.pure trivial
  · exact faults_request _

/-- The library refuses a seed in its own words. -/
theorem walletFromSeed_error {seed e : String} (h : lib.walletFromSeed seed = .error e) :
    ¬ LocalMessage e := by
  unfold Libraries.walletFromSeed at h
  split at h
  · cases h
  · cases h
    exact not_local_self (by simp [otherTexts])

/-- Funding fails in the words of the ledger, or of the library. -/
theorem fundingWallet_faults {raw cur : String} (hcur : normalizeIouCurrencyCode raw = .ok cur)
    (params : IouSetup) (total : String) :
    Faults R (¬ LocalMessage ·) (fundingWallet lib config operator params cur total)
      (fun _ => SeedMatches lib config params.issuer) := by
  unfold fundingWallet SeedMatches
  -- the wallet is that of the seed in the settings, and its address has to be that of the issuer
  cases hseed : truthy (config.xrplIouIssuerSeed.map trim) with
  | some issuerSeed =>
    dsimp only
    apply Faults.bind (T := fun wallet => lib.fromSeed issuerSeed = some wallet)
    · apply faults_orRaise
      · intro wallet hwallet
        unfold Libraries.walletFromSeed at hwallet
        split at hwallet
        · cases hwallet
          assumption
        · cases hwallet
      · intro e he
        exact walletFromSeed_error he
    intro wallet hwallet
    split
    · exact Faults.throw (not_local_self (by simp [otherTexts]))
    · rename_i hissuer
      apply Faults.bind (ensureTestnetXrpForFees_faults wallet)
      intro _ _
      apply Faults.pure
      intro seed hsome
      cases hsome
      exact ⟨wallet, hwallet, Decidable.not_not.mp hissuer⟩
  | none =>
    dsimp only
    refine Faults.bind (findTrustLine_faults hcur _ _) ?_
    intro opLine _
    split
    · apply Faults.throw
      simp only [String.append_assoc]
      exact not_local (by simp [otherTexts]) _
    · apply Faults.pure
      intro seed hnone
      cases hnone

/-- A sum that cannot be taken is refused by a local message. -/
theorem sum_error {floats : Floats} {a b e : String} (h : sumIouValueStrings floats a b = .error e) :
    LocalMessage e := by
  unfold sumIouValueStrings at h
  dsimp only at h
  split at h
  · cases h
    exact localMessage_self (by decide)
  · cases h

/-- A trust line fails only at the ledger. -/
theorem submitTrustSet_faults (owner : Wallet) (limitAmount : Amount) :
    Faults R (¬ LocalMessage ·) (submitTrustSet owner limitAmount) (fun _ => True) := by
  unfold submitTrustSet
  apply Faults.bind (faults_request _)
  intro _ _
  apply Faults.bind (faults_request _)
  intro response _
  split
  · exact Faults.throw (not_local_self (by simp [otherTexts]))
  · split
    · exact Faults.throw (not_local (by simp [otherTexts]) _)
    · exact Faults.pure trivial

/-- A result code that is not a success is no local check. -/
theorem assertTxSuccess_error {response : TxResponse} {e : String}
    (h : assertTxSuccess response = .error e) : ¬ LocalMessage e := by
  unfold assertTxSuccess at h
  split at h
  · cases h
    exact not_local_self (by simp [otherTexts])
  · split at h
    · cases h
      exact not_local (by simp [otherTexts]) _
    · cases h

/-- Behind it the issuer's seed is known to match. -/
theorem ensureTrustLine_faults {raw : String} {params : IouSetup} (wallet : Wallet)
    (hcur : normalizeIouCurrencyCode raw = .ok params.currency)
    (hsum : (sumIouValueStrings lib.floats params.depositValue params.stakeValue).isOk = true) :
    Faults R (¬ LocalMessage ·)
      (ensureTrustLineAndFundFromOperator lib config wallet operator params)
      (fun _ => SeedMatches lib config params.issuer) := by
  unfold ensureTrustLineAndFundFromOperator
  apply Faults.bind (faults_request _)
  intro _ _
  -- the currency of the setup is normalised, so doing it again gives the same
  rw [(normalize_normalized hcur).1]
  apply Faults.bind (T := fun cur => cur = params.currency) (Faults.pure rfl)
  intro cur hparams
  subst hparams
  apply Faults.bind (T := fun _ => True)
  -- so is the sum of the two amounts
  · apply faults_orRaise (fun _ _ => trivial)
    intro e he
    rw [he] at hsum
    cases hsum
  intro total _
  apply Faults.bind (fundingWallet_faults hcur params total)
  intro funding hmatches
  rw [buildIouAmount_normalized hcur, buildIouAmount_normalized hcur]
  apply Faults.bind (T := fun _ => True) (Faults.pure trivial)
  intro limitAmount _
  apply Faults.bind (submitTrustSet_faults wallet limitAmount)
  intro _ _
  apply Faults.bind (T := fun _ => True) (Faults.pure trivial)
  intro amount _
  apply Faults.bind (faults_request _)
  intro payRes _
  exact faults_orRaise (fun _ _ => hmatches) fun e he => assertTxSuccess_error he

/-- The faucet fails before a wallet is generated. -/
theorem generateAndFundWallet_faults :
    Faults (Generated dto operator) (¬ LocalMessage ·) generateAndFundWallet
      (Generated dto operator (.inr .generateWallet)) := by
  have hgenerate : Faults (Generated dto operator) (¬ LocalMessage ·) (request .generateWallet)
      (Generated dto operator (.inr .generateWallet)) := Faults.call fun _ hwallet => hwallet
  unfold generateAndFundWallet
  apply Faults.bind (faults_request _)
  intro _ _
  apply Faults.bind hgenerate
  intro wallet hwallet
  apply Faults.bind (faults_request _)
  intro _ _
  exact Faults.pure hwallet

/-- The settings a request has passed the checks in front of the funding with. -/
def Checked (config : Config) (dto : CreateContractDto) : Option (String × String) → Prop
  | none => dto.mode = .xrp
  | some settings => dto.mode = .iou ∧ iouSettings config dto = .ok settings

/-- Settings that are accepted name an issuer and a currency that can be normalised. -/
theorem iouSettings_ok {settings : String × String} (h : iouSettings config dto = .ok settings) :
    settings.1 ≠ "" ∧ ∃ raw, normalizeIouCurrencyCode raw = .ok settings.2 := by
  unfold iouSettings at h
  dsimp only at h
  split at h
  · cases h
  · rename_i hset
    obtain ⟨currency, hcurrency, h⟩ := Except.exists_of_bind_eq_ok h
    cases h
    exact ⟨fun hissuer => hset (.inl hissuer), _, hcurrency⟩

/-- The amounts and the currency of a checked request are good. -/
theorem lockInput_ok {settings : Option (String × String)} (hchecked : Checked config dto settings)
    (wallet operator : Wallet) :
    (escrowAmounts (dto.lockInput settings wallet operator)).isOk = true ∧
      (storedCurrency (dto.lockInput settings wallet operator).toCreateContractInput).isOk = true := by
  cases settings with
  -- without settings the amounts are in drops
  | none =>
    have hmode : dto.mode = .xrp := hchecked
    constructor
    · simp [escrowAmounts, CreateContractDto.lockInput, hmode, Except.isOk, Except.toBool]
    · simp [storedCurrency, CreateContractDto.lockInput, hmode, Except.isOk, Except.toBool]
  | some settings =>
    obtain ⟨hmode, hsettings⟩ := hchecked
    obtain ⟨hissuer, raw, hcurrency⟩ := iouSettings_ok hsettings
    obtain ⟨hagain, htruthy⟩ := normalize_normalized hcurrency
    have hissuer : truthy (some settings.1) = some settings.1 :=
      Bluesafe.Ops.truthy_eq_some.mpr ⟨rfl, hissuer⟩
    constructor
    · unfold escrowAmounts CreateContractDto.lockInput
      simp only [hmode, Option.getD_some, Option.map_some, hissuer, htruthy, hagain, bind,
        Except.bind, buildIouAmount_normalized hcurrency]
      rfl
    · unfold storedCurrency CreateContractDto.lockInput
      simp only [hmode, Option.getD_some, Option.map_some, htruthy, hagain]
      rfl

/-! ## In front of the funding -/

/-- Raising an error calls nothing. -/
theorem only_orRaise {α : Type} {P : (calls.sum ledgerCalls).Op → Prop} (r : Except String α) :
    Only P (orRaise r) := by
  cases r with
  | ok a => exact Only.pure
  | error e => exact Only.throw

/-- The look-up of a line submits nothing. -/
theorem findTrustLine_only (account issuer currency : String) :
    Only (¬ Submits ·) (findTrustLine account issuer currency) := by
  unfold findTrustLine
  refine Only.bind (only_orRaise _) fun want => ?_
  refine Only.bind (Only.call id) fun lines => ?_
  exact Only.pure

/-- The trust lines are only looked up. -/
theorem checkIou_only : Only (¬ Submits ·) (checkIou lib config dto) := by
  unfold checkIou
  split
  · exact Only.pure
  · refine Only.bind (only_orRaise _) fun settings => ?_
    refine Only.bind ?_ fun _ => Only.pure
    unfold assertCounterpartyTrustLines
    refine Only.bind (Only.call id) fun _ => ?_
    refine Only.bind (only_orRaise _) fun cur => ?_
    refine Only.bind (findTrustLine_only _ _ _) fun tenantLine => ?_
    refine Only.ite Only.throw ?_
    refine Only.bind (findTrustLine_only _ _ _) fun landlordLine => ?_
    exact Only.ite Only.throw Only.pure

/-- The checks of an issued amount end with what the setup relies on. -/
theorem checkIou_checked : Faults R (fun _ => True) (checkIou lib config dto) (Checked config dto) := by
  unfold checkIou
  split
  · rename_i hmode
    exact Faults.pure hmode
  · rename_i hmode
    refine Faults.bind (T := fun settings => iouSettings config dto = .ok settings) ?_ ?_
    · exact faults_orRaise (fun _ h => h) fun _ _ => trivial
    intro settings hsettings
    refine Faults.bind (T := fun _ => True) ?_ fun _ _ => Faults.pure ⟨hmode, hsettings⟩
    exact Faults.of_forall fun _ => trivial
end Funding

end Bluesafe.Lock
