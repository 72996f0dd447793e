import Bluesafe.Async.Keeps
import Bluesafe.Lock.Encryption
import Bluesafe.Spec.LockDeposit

/-!
# What the responses of the ledger make of a contract

`lockTenantDeposit` submits three transactions, and each response may report success, report a
failure, lack a part, or never come. The contract becomes locked only in the one update at the end,
which takes the hashes and sequence numbers from the three responses, in their order; everywhere
else its row stays as it was inserted. With three complete responses the update is reached
(`locked_means_fully_locked`).

The ledger answers with any response here, so a response need not agree with what the ledger has
applied.
-/

namespace Bluesafe.Lock

open Async
open Bluesafe.Ops (truthy)

/-- The calls of a run, newest first. -/
abbrev LockLog : Type := Log calls String

/-- The database of `world`, and a ledger that answers with any response, or rejects. -/
def respondingWorld : World calls String Store (Choice × TxResponse) where
  allow := fun _ _ _ => true
  serve := fun op c s =>
    match op with
    | .submitAndWait _ =>
      (match c.1.failure with
        | none => .ok c.2
        | some e => .error e, s)
    | op => serve op c.1 s

/-! ## Responses -/

/-- A submitted transaction with its response. -/
def submission? : Event calls String → Option (Tx × Except String TxResponse)
  | ⟨.submitAndWait tx, res⟩ => some (tx, res)
  | _ => none

/-- The submitted transactions with their responses, newest first. -/
def submissions (l : LockLog) : List (Tx × Except String TxResponse) := l.filterMap submission?

/-- The response reports success. -/
def TxResponse.Succeeded (response : TxResponse) : Prop :=
  response.transactionResult = some "tesSUCCESS"

/-- A successful response with the numbers that are read from it. -/
def TxResponse.CompleteEscrow (response : TxResponse) : Prop :=
  response.Succeeded ∧ response.seq.isSome ∧ response.ledgerIndex.isSome

def TxResponse.CompleteSignerList (response : TxResponse) : Prop :=
  response.Succeeded ∧ response.ledgerIndex.isSome

/-- Where an `EscrowCreate` sends its amount. -/
def Tx.escrowDestination : Tx → Option String
  | .escrowCreate _ destination _ _ _ _ _ => some destination
  | .signerListSet _ _ _ => none

/-- The three transactions of the lock are answered by the three responses: the escrow to the
    tenant, the escrow to the landlord, and the signer list. -/
structure Answered (input : LockTenantDepositInput) (l : LockLog)
    (deposit stake signers : TxResponse) : Prop where
  answers : ∃ depositTx stakeTx signersTx, submissions l =
      [(signersTx, .ok signers), (stakeTx, .ok stake), (depositTx, .ok deposit)] ∧
    depositTx.escrowDestination = some input.tenantAddress ∧
    stakeTx.escrowDestination = some input.landlordAddress ∧ signersTx.escrowDestination = none

/-- The row is locked, with the columns of the wallet and of three successful responses. -/
def FullyLocked (encryption : Encryption) (input : LockTenantDepositInput) (l : LockLog)
    (row : ContractRow) : Prop :=
  ∃ deposit stake signers : TxResponse, Answered input l deposit stake signers ∧
    deposit.Succeeded ∧ stake.Succeeded ∧ signers.Succeeded ∧ row.status = .locked ∧
    row.contractAccountAddress = some input.contractWallet.classicAddress ∧
    StoresSeed encryption input row ∧
    (row.depositEscrowTxHash = some deposit.hash ∧ deposit.seq.isSome ∧
      row.depositEscrowSequence = deposit.seq) ∧
    (row.stakeEscrowTxHash = some stake.hash ∧ stake.seq.isSome ∧
      row.stakeEscrowSequence = stake.seq) ∧
    row.signerListTxHash = some signers.hash

/-- All three transactions are answered, completely and with success. -/
def AllComplete (input : LockTenantDepositInput) (l : LockLog) : Prop :=
  ∃ deposit stake signers : TxResponse, Answered input l deposit stake signers ∧
    deposit.CompleteEscrow ∧ stake.CompleteEscrow ∧ signers.CompleteSignerList

/-- An update of the row was rejected. -/
def UpdateRejected (l : LockLog) : Prop :=
  ∃ id patch e, (⟨.updateContract id patch, .error e⟩ : Event calls String) ∈ l

/-- A complete answer of the signer list is accepted. -/
theorem assertSignerListSuccess_of_complete {response : TxResponse}
    (h : response.CompleteSignerList) : ∃ r, assertSignerListSuccess response = .ok r := by
  obtain ⟨hsuccess, hledger⟩ := h
  obtain ⟨ledger, hledger⟩ := Option.isSome_iff_exists.mp hledger
  unfold assertSignerListSuccess
  rw [hsuccess, hledger]
  exact ⟨_, rfl⟩

/-! ## Programs that submit nothing -/

/-- The calls that neither submit a transaction nor update a row. -/
def Offline : Call → Prop
  | .submitAndWait _ => False
  | .updateContract _ _ => False
  | _ => True

/-- The log has grown by such calls. -/
def Quiet (l l' : LockLog) : Prop := ∃ seg, l' = seg ++ l ∧ ∀ ev ∈ seg, Offline ev.op

/-- A call that is offline submits nothing. -/
theorem submission?_of_offline {ev : Event calls String} (h : Offline ev.op) :
    submission? ev = none := by
  unfold submission?
  split
  · exact h.elim
  · rfl

/-- Offline calls leave the submissions. -/
theorem Quiet.submissions_eq {l l' : LockLog} (h : Quiet l l') : submissions l' = submissions l := by
  obtain ⟨seg, rfl, hseg⟩ := h
  unfold submissions
  rw [List.filterMap_append, List.filterMap_eq_nil_iff.mpr, List.nil_append]
  intro ev hev
  exact submission?_of_offline (hseg ev hev)

variable {encryption : Encryption} {input : LockTenantDepositInput}

/-- Without submissions both worlds are the same. -/
theorem wp_of_ensures {α : Type} {p : LockM α} {Q : α → Store → Prop} {E : Store → Prop} {s : Store}
    (hp : Only Offline p) (h : Ensures p Q E s) (l : LockLog) :
    wp (seqSpec respondingWorld) p (fun a g => Q a g.2 ∧ Quiet l g.1)
      (fun _ g => E g.2 ∧ Quiet l g.1) (l, s) := by
  obtain ⟨l₀, hl⟩ : ∃ l₀, wp (seqSpec world) p (fun a g => Q a g.2) (fun _ g => E g.2) (l₀, s) :=
    ⟨l, h l⟩
  clear h
  induction p generalizing l l₀ s with
  | done a => exact ⟨hl, [], rfl, by simp⟩
  | fail e => exact ⟨hl, [], rfl, by simp⟩
  | await op k ih =>
    rw [Only.await_iff] at hp
    intro c _
    -- the two worlds differ in the answers to submissions only
    have hserve : respondingWorld.serve op c s = world.serve op c.1 s := by
      cases op with
      | submitAndWait tx => exact hp.1.elim
      | _ => rfl
    have hstep := hl c.1 rfl
    rw [hserve]
    have hgrown : ∀ (r : Except String op.Res) l', Quiet (⟨op, r⟩ :: l) l' → Quiet l l' := by
      rintro r _ ⟨seg, rfl, hseg⟩
      refine ⟨seg ++ [⟨op, r⟩], by simp, ?_⟩
      intro ev hev
      rcases List.mem_append.mp hev with hev | hev
      · exact hseg ev hev
      · rw [List.mem_singleton.mp hev]
        exact hp.1
    dsimp only at hstep ⊢
    -- the rest of the program goes on with either answer
    generalize (world.serve op c.1 s).1 = r at hstep ⊢
    cases r with
    | ok a =>
      exact wp_mono _ _ (seqSpec_mono _) (fun _ g hg => ⟨hg.1, hgrown _ _ hg.2⟩)
        (fun _ g hg => ⟨hg.1, hgrown _ _ hg.2⟩) (ih (.ok a) (hp.2 _) _ _ hstep)
    | error e =>
      exact wp_mono _ _ (seqSpec_mono _) (fun _ g hg => ⟨hg.1, hgrown _ _ hg.2⟩)
        (fun _ g hg => ⟨hg.1, hgrown _ _ hg.2⟩) (ih (.error e) (hp.2 _) _ _ hstep)

/-- A result that may be an error makes no call. -/
theorem only_orThrow {α : Type} {P : Call → Prop} (r : Except String α) :
    Only (I := calls) P (orThrow r) := by
  cases r with
  | ok a => exact Only.pure
  | error e => exact Only.throw

/-- Encryption is offline. -/
theorem only_encryptFresh (plaintext : String) :
    Only (I := calls) Offline (encryptFresh encryption plaintext) := by
  unfold encryptFresh
  exact Only.bind (Only.call trivial) fun _ => only_orThrow _

/-- So is the creation of a contract. -/
theorem only_create (input : CreateContractInput) :
    Only (I := calls) Offline (create encryption input) := by
  unfold create
  apply Only.bind (only_encryptFresh _)
  intro tenantPiiCipher
  apply Only.bind (only_encryptFresh _)
  intro landlordPiiCipher
  apply Only.bind (only_orThrow _)
  intro iouCurrency
  exact Only.bind (Only.call trivial) fun _ => only_orThrow _

/-- And its look-up. -/
theorem only_findById (id : String) : Only (I := calls) Offline (findById encryption id) := by
  unfold findById
  apply Only.bind (Only.call trivial)
  intro found
  cases found with
  | none => exact Only.pure
  | some row => exact Only.map (only_orThrow _)

@[simp] theorem submissions_cons (tx : Tx) (res : Except String TxResponse) (l : LockLog) :
    submissions (⟨.submitAndWait tx, res⟩ :: l) = (tx, res) :: submissions l := rfl

/-! ## The submissions -/

section Submissions

variable {l : LockLog} {s : Store}

/-- The rule for a submission: it is answered, or rejected. -/
theorem wp_submitAndWait {tx : Tx} {Q : TxResponse → LockLog × Store → Prop}
    {E : String → LockLog × Store → Prop}
    (hok : ∀ response, Q response (⟨.submitAndWait tx, .ok response⟩ :: l, s))
    (herr : ∀ e, E e (⟨.submitAndWait tx, .error e⟩ :: l, s)) :
    wp (seqSpec respondingWorld) (invoke (.submitAndWait tx)) Q E (l, s) := by
  apply wp_call
  · intro c a _ hans
    cases hf : c.1.failure with
    | none =>
      simp only [respondingWorld, hf, Except.ok.injEq] at hans ⊢
      exact hok a
    | some e => simp [respondingWorld, hf] at hans
  · intro c e _ he
    cases hf : c.1.failure with
    | none => simp [respondingWorld, hf] at he
    | some e' =>
      simp only [respondingWorld, hf]
      exact herr e

/-- The rule for a result that may be an error. -/
theorem wp_orThrow {α : Type} {r : Except String α} {Q : α → LockLog × Store → Prop}
    {E : String → LockLog × Store → Prop} {g : LockLog × Store} (hok : ∀ a, r = .ok a → Q a g)
    (herr : ∀ e, r = .error e → E e g) : wp (seqSpec respondingWorld) (orThrow r) Q E g := by
  cases r with
  | ok a => exact hok a rfl
  | error e => exact herr e rfl

/-- `createEscrow` refuses its parameters, or it submits one transaction and reads the response. -/
theorem createEscrow_spec {params : CreateEscrowParams}
    {Q : EscrowCreatedResult → LockLog × Store → Prop} {E : String → LockLog × Store → Prop}
    (hok : ∀ tx response r, tx.escrowDestination = some params.destination →
      assertCreateSuccess response = .ok r → Q r (⟨.submitAndWait tx, .ok response⟩ :: l, s))
    (hrefused : ∀ e, E e (l, s))
    (herr : ∀ tx res e, E e (⟨.submitAndWait tx, res⟩ :: l, s)) :
    wp (seqSpec respondingWorld) (createEscrow params) Q E (l, s) := by
  unfold createEscrow
  -- the validation and the building of the transaction come before the submission
  rw [wp_bind]
  apply wp_orThrow _ fun e _ => hrefused e
  intro _ _
  rw [wp_bind]
  apply wp_orThrow _ fun e _ => hrefused e
  intro tx htx
  have hdestination : tx.escrowDestination = some params.destination := by
    -- both times of the transaction are optional, and neither changes its destination
    obtain ⟨finishAfter, -, htx⟩ := Except.exists_of_bind_eq_ok htx
    obtain ⟨cancelAfter, -, htx⟩ := Except.exists_of_bind_eq_ok htx
    cases htx
    rfl
  rw [wp_bind]
  -- then the one submission, whose answer decides
  apply wp_submitAndWait _ fun e => herr tx _ e
  intro response
  exact wp_orThrow (fun r hr => hok tx response r hdestination hr) fun e _ => herr tx _ e

/-- A signer list is submitted once, after its own check. -/
theorem setSignerList_spec {params : SetSignerListParams}
    {Q : SignerListSetResult → LockLog × Store → Prop} {E : String → LockLog × Store → Prop}
    (hok : ∀ tx response r, tx.escrowDestination = none →
      assertSignerListSuccess response = .ok r → Q r (⟨.submitAndWait tx, .ok response⟩ :: l, s))
    (hrefused : ∀ e, E e (l, s))
    (herr : ∀ tx res e, (∀ response, res = .ok response → ¬ response.CompleteSignerList) →
      E e (⟨.submitAndWait tx, res⟩ :: l, s)) :
    wp (seqSpec respondingWorld) (setSignerList params) Q E (l, s) := by
  unfold setSignerList
  rw [wp_bind]
  apply wp_orThrow _ fun e _ => hrefused e
  -- the parameters are refused before anything is submitted
  intro _ _
  rw [wp_bind]
  apply wp_submitAndWait _ fun e => herr _ _ e nofun
  intro response
  apply wp_orThrow fun r hr => hok _ response r rfl hr
  intro e he
  -- a complete answer is never refused here
  apply herr
  intro response' heq hcomplete
  rw [← Except.ok.inj heq] at hcomplete
  obtain ⟨r, hr⟩ := assertSignerListSuccess_of_complete hcomplete
  rw [hr] at he
  cases he

end Submissions

/-! ## The ends of a run -/

/-- Why a row is not locked although all responses are complete: the wallet has no seed, the seed
    is not encrypted although other columns were, or the update was rejected. -/
def NotReached (encryption : Encryption) (input : LockTenantDepositInput) (l : LockLog) : Prop :=
  truthy input.contractWallet.seed = none ∨
  ((∃ iv, (encryption.encrypt iv input.tenantPii).isOk = true) ∧
    ∃ iv seed, (encryption.encrypt iv seed).isOk = false) ∨
  UpdateRejected l

/-- How a run may end, whether it returns or throws. -/
inductive LockEnd (encryption : Encryption) (input : LockTenantDepositInput) (s : Store)
    (g : LockLog × Store) : Prop
  | nothing (h : g.2.contracts = s.contracts) (hnot : ¬ AllComplete input g.1)
  | bare (row : ContractRow) (hbare : Bare row) (hinserted : Inserted s row g.2)
      (hnot : AllComplete input g.1 → NotReached encryption input g.1)
  | locked (row : ContractRow) (hinserted : Inserted s row g.2)
      (hlocked : FullyLocked encryption input g.1 row)

/-- Three responses are needed. -/
theorem not_allComplete {l : LockLog} (h : (submissions l).length < 3) : ¬ AllComplete input l := by
  rintro ⟨deposit, stake, signers, ⟨depositTx, stakeTx, signersTx, hall, -⟩, -⟩
  simp [hall] at h

/-- The last response is not complete. -/
theorem not_allComplete_cons {l : LockLog} {tx : Tx} {res : Except String TxResponse}
    (hres : ∀ response, res = .ok response → ¬ response.CompleteSignerList) :
    ¬ AllComplete input (⟨.submitAndWait tx, res⟩ :: l) := by
  rintro ⟨deposit, stake, signers, ⟨depositTx, stakeTx, signersTx, hall, -⟩, -, -, hcomplete⟩
  rw [submissions_cons, List.cons.injEq, Prod.mk.injEq] at hall
  exact hres signers hall.1.2 hcomplete

/-- What `lockTenantDeposit` has read from the three responses. -/
structure Read (input : LockTenantDepositInput) (l : LockLog) (deposit stake : EscrowCreatedResult)
    (signerList : SignerListSetResult) : Prop where
  responses : ∃ depositResponse stakeResponse signersResponse : TxResponse,
    Answered input l depositResponse stakeResponse signersResponse ∧
    assertCreateSuccess depositResponse = .ok deposit ∧
    assertCreateSuccess stakeResponse = .ok stake ∧
    assertSignerListSuccess signersResponse = .ok signerList

/-- What was read off the answers depends on the submissions only. -/
theorem Read.congr {l l' : LockLog} {deposit stake : EscrowCreatedResult}
    {signerList : SignerListSetResult} (h : Read input l deposit stake signerList)
    (heq : submissions l' = submissions l) : Read input l' deposit stake signerList := by
  obtain ⟨depositResponse, stakeResponse, signersResponse, ⟨hall⟩, hread⟩ := h
  rw [← heq] at hall
  exact ⟨depositResponse, stakeResponse, signersResponse, ⟨hall⟩, hread⟩

/-- The update stores the wallet and the responses. -/
theorem fullyLocked_patch {l : LockLog} {deposit stake : EscrowCreatedResult}
    {signerList : SignerListSetResult} {seed iv cipher : String} {row : ContractRow}
    (h : Read input l deposit stake signerList) (hseed : input.contractWallet.seed = some seed)
    (hcipher : encryption.encrypt iv seed = .ok cipher) :
    FullyLocked encryption input l ((lockPatch input cipher deposit stake signerList).apply row) := by
  -- the three answers behind the three results, and what each result took from its own
  obtain ⟨depositResponse, stakeResponse, signersResponse, hall, hdeposit, hstake, hsigners⟩ := h
  obtain ⟨hdeposit, hdepositHash, hdepositSeq⟩ := assertCreateSuccess_ok hdeposit
  obtain ⟨hstake, hstakeHash, hstakeSeq⟩ := assertCreateSuccess_ok hstake
  obtain ⟨hsigners, hsignersHash⟩ := assertSignerListSuccess_ok hsigners
  refine ⟨depositResponse, stakeResponse, signersResponse, hall, hdeposit, hstake, hsigners, rfl, rfl,
    ⟨seed, iv, cipher, hseed, hcipher, rfl⟩, ⟨?_, ?_, ?_⟩, ⟨?_, ?_, ?_⟩, ?_⟩
  · exact congrArg some hdepositHash
  · rw [hdepositSeq]
    rfl
  · exact hdepositSeq.symm
  · exact congrArg some hstakeHash
  · rw [hstakeSeq]
    rfl
  · exact hstakeSeq.symm
  · exact congrArg some hsignersHash

/-- An update that is answered has changed the row, one that is rejected may have. -/
theorem updateContract_cases {id : String} {patch : ContractPatch} {c : Choice × TxResponse}
    {s : Store} :
    (respondingWorld.serve (.updateContract id patch) c s).2 =
      { s with contracts := updateRow s.contracts id patch } ∨
    ((respondingWorld.serve (.updateContract id patch) c s).2 = s ∧
      ∃ e, (respondingWorld.serve (.updateContract id patch) c s).1 = .error e) := by
  -- a call that fails may have taken effect all the same; only then does the row change
  cases hfailure : c.1.failure with
  | none =>
    left
    simp [respondingWorld, serve, Choice.rejection, hfailure, perform]
  | some e =>
    cases happlied : c.1.applied with
    | true =>
      left
      simp [respondingWorld, serve, Choice.rejection, hfailure, Choice.takesEffect, happlied, perform]
    | false =>
      right
      simp [respondingWorld, serve, Choice.rejection, hfailure, Choice.takesEffect, happlied]

/-- Whether the row is found and decrypted or not, reading it back changes nothing. -/
theorem readBack_spec {s s₁ : Store} {l : LockLog} {id : String}
    (h : ∀ l', Quiet l l' → LockEnd encryption input s (l', s₁)) :
    wp (seqSpec respondingWorld) (do
        match ← findById encryption id with
        | none => throw ("Contract " ++ id ++ " disappeared after lock update")
        | some updated => return updated)
      (fun _ => LockEnd encryption input s) (fun _ => LockEnd encryption input s) (l, s₁) := by
  -- nothing that is read back can change what the patch has stored
  have hend : ∀ g : LockLog × Store, g.2 = s₁ ∧ Quiet l g.1 → LockEnd encryption input s g := by
    intro g hg
    have hlocked := h g.1 hg.2
    rw [← hg.1] at hlocked
    exact hlocked
  rw [wp_bind]
  apply wp_mono _ _ (seqSpec_mono _) _ (fun _ g hg => hend g hg)
    (wp_of_ensures (only_findById id) (findById_ensures id (E := fun s' => s' = s₁) rfl) l)
  intro found g hg
  cases found with
  | none => exact hend g hg
  | some updated => exact hend g hg

/-- From the three responses on: the row is updated or stays as it is. -/
theorem storeLock_spec {s s₁ : Store} {l : LockLog} {row : ContractRow}
    {deposit stake : EscrowCreatedResult} {signerList : SignerListSetResult} (hbare : Bare row)
    (hinserted : Inserted s row s₁) (hread : Read input l deposit stake signerList)
    (hkey : ∃ iv, (encryption.encrypt iv input.tenantPii).isOk = true) :
    wp (seqSpec respondingWorld) (storeLock encryption input row.id deposit stake signerList)
      (fun _ => LockEnd encryption input s) (fun _ => LockEnd encryption input s) (l, s₁) := by
  unfold storeLock
  cases hseed : truthy input.contractWallet.seed with
  | none => exact .bare row hbare hinserted fun _ => .inl hseed
  | some seed =>
    have hwallet : input.contractWallet.seed = some seed := (Ops.truthy_eq_some.mp hseed).1
    dsimp only
    rw [wp_bind]
    unfold encryptFresh
    rw [wp_bind]
    apply wp_call
    · intro c iv _ hiv
      have hstate : (respondingWorld.serve .randomBytes c s₁).2 = s₁ := rfl
      rw [hstate]
      cases hcipher : encryption.encrypt iv seed with
      | error e =>
        refine LockEnd.bare row hbare hinserted fun _ => .inr (.inl ⟨hkey, iv, seed, ?_⟩)
        rw [hcipher]
        rfl
      | ok cipher =>
        -- from the update on, answered or not, the row is locked
        have hlocked : ∀ (l' : LockLog) (s' : Store), submissions l' = submissions l →
            s'.contracts = updateRow s₁.contracts row.id
              (lockPatch input cipher deposit stake signerList) →
            LockEnd encryption input s (l', s') := fun l' s' hl' hs' =>
          .locked _ (hinserted.update _ hs') (fullyLocked_patch (hread.congr hl') hwallet hcipher)
        apply wp_orThrow _ nofun
        intro a ha
        cases ha
        rw [wp_bind]
        apply wp_call
        · intro c' u _ hu
          apply readBack_spec
          intro l' hquiet
          rcases updateContract_cases with hstate | ⟨-, e, he⟩
          · apply hlocked _ _ hquiet.submissions_eq
            rw [hstate]
          · rw [hu] at he
            cases he
        · intro c' e _ he
          rcases updateContract_cases with hstate | ⟨hstate, -⟩
          · apply hlocked
            · rfl
            · rw [hstate]
          · rw [hstate]
            apply LockEnd.bare row hbare hinserted
            intro _
            exact .inr (.inr ⟨row.id, _, e, List.mem_cons_self ..⟩)
    · intro c e _ he
      cases he

/-! ## The whole call -/

/-- A contract is created only where its columns can be encrypted. -/
theorem create_encrypts {s : Store} :
    Ensures (create encryption input.toCreateContractInput)
      (fun _ _ => ∃ iv, (encryption.encrypt iv input.tenantPii).isOk = true) (fun _ => True) s := by
  unfold create
  apply Ensures.bind (encryptFresh_ensures _ trivial)
  intro tenantPiiCipher s' htenant l
  obtain ⟨-, iv, hcipher⟩ := htenant
  have hkey : (encryption.encrypt iv input.tenantPii).isOk = true := by
    rw [hcipher]
    rfl
  exact wp_of_forall (fun _ _ => ⟨iv, hkey⟩) (fun _ _ => trivial) _

/-- `create` submits nothing; where it throws, a row may have been inserted. -/
theorem create_spec {s : Store} :
    wp (seqSpec respondingWorld) (create encryption input.toCreateContractInput)
      (fun dto g => Bare dto.row ∧ Inserted s dto.row g.2 ∧
        (∃ iv, (encryption.encrypt iv input.tenantPii).isOk = true) ∧
        submissions g.1 = [])
      (fun _ g => (g.2.contracts = s.contracts ∨ ∃ row, Bare row ∧ Inserted s row g.2) ∧
        submissions g.1 = []) ([], s) := by
  have hcreate : Ensures (create encryption input.toCreateContractInput)
      (fun dto s' => Bare dto.row ∧ Inserted s dto.row s' ∧ s'.ledger = s.ledger)
      (fun s' => s'.contracts = s.contracts ∨ ∃ row, Bare row ∧ Inserted s row s') s := by
    apply create_ensures
    · exact .inl rfl
    · intro s' hpending
      obtain ⟨row, hbare, hinserted, -⟩ := hpending
      exact .inr ⟨row, hbare, hinserted⟩
  -- one walk for the row that is stored, another for the calls that were made
  apply wp_mono _ _ (seqSpec_mono _) _ _ (wp_and (wp_of_ensures (only_create _) hcreate [])
    (wp_of_ensures (only_create _) create_encrypts []))
  · intro dto g hg
    exact ⟨hg.1.1.1, hg.1.1.2.1, hg.2.1, hg.1.2.submissions_eq⟩
  · intro e g hg
    exact ⟨hg.1.1, hg.1.2.submissions_eq⟩

/-- The whole operation: where it ends, and what it has submitted by then. -/
theorem lockTenantDeposit_spec (s : Store) :
    wp (seqSpec respondingWorld) (lockTenantDeposit encryption input)
      (fun _ => LockEnd encryption input s) (fun _ => LockEnd encryption input s) ([], s) := by
  unfold lockTenantDeposit
  rw [wp_bind]
  apply wp_orThrow
  · intro amounts _
    obtain ⟨depositAmount, stakeAmount⟩ := amounts
    dsimp only
    rw [wp_bind]
    apply wp_mono _ _ (seqSpec_mono _) _ _ create_spec
    · intro contract g hcreated
      obtain ⟨l, s₁⟩ := g
      obtain ⟨hbare, hinserted, hkey, hnone⟩ := hcreated
      -- until the third response is read the row stays as it was inserted
      have hbareEnd : ∀ l' : LockLog, (submissions l').length < 3 →
          LockEnd encryption input s (l', s₁) := fun l' hl' =>
        .bare contract.row hbare hinserted fun hall => absurd hall (not_allComplete hl')
      rw [wp_bind]
      apply createEscrow_spec
      · intro depositTx depositResponse deposit hdepositTx hdeposit
        rw [wp_bind]
        apply createEscrow_spec
        · intro stakeTx stakeResponse stake hstakeTx hstake
          rw [wp_bind]
          apply setSignerList_spec
          · intro signersTx signersResponse signerList hsignersTx hsigners
            apply storeLock_spec hbare hinserted _ hkey
            refine ⟨depositResponse, stakeResponse, signersResponse,
              ⟨depositTx, stakeTx, signersTx, ?_, hdepositTx, hstakeTx, hsignersTx⟩,
              hdeposit, hstake, hsigners⟩
            simp [hnone]
          · intro e
            exact hbareEnd _ (by simp [hnone])
          · intro signersTx res e hres
            exact .bare contract.row hbare hinserted fun hall =>
              absurd hall (not_allComplete_cons hres)
        · intro e
          exact hbareEnd _ (by simp [hnone])
        · intro stakeTx res e
          exact hbareEnd _ (by simp [hnone])
      · intro e
        exact hbareEnd _ (by simp [hnone])
      · intro depositTx res e
        exact hbareEnd _ (by simp [hnone])
    · intro e g hg
      obtain ⟨hrows, hnone⟩ := hg
      have hnot : ¬ AllComplete input g.1 := not_allComplete (by simp [hnone])
      rcases hrows with hrows | ⟨row, hbare, hinserted⟩
      · exact .nothing hrows hnot
      · exact .bare row hbare hinserted fun hall => absurd hall hnot
  · intro e _
    exact .nothing rfl (not_allComplete (Nat.zero_lt_succ _))

/-- With the encryption service an update is missed for two reasons only. -/
theorem seed_or_update_of_notReached {cipher : GcmCipher} {masterKey : Option String} {l : LockLog}
    (h : NotReached (aesGcmEncryptionService cipher masterKey) input l) :
    truthy input.contractWallet.seed = none ∨ UpdateRejected l := by
  rcases h with hseed | ⟨⟨iv, htenant⟩, iv', seed, hfails⟩ | hrejected
  · exact .inl hseed
  · -- the columns of the row were encrypted under the same key
    have hok : (encrypt cipher masterKey iv input.tenantPii).isOk = true := htenant
    have hnot : (encrypt cipher masterKey iv' seed).isOk = false := hfails
    rw [encrypt_isOk] at hok hnot
    rw [hok] at hnot
    cases hnot
  · exact .inr hrejected

/-- What a run of `lockTenantDeposit` from `s` leaves, whether it returns or throws. -/
structure LockedFully (encryption : Encryption) (input : LockTenantDepositInput) (s : Store)
    (run : Outcome calls String Store ContractDto) : Prop where
  kept : ∀ id row, s.contracts.get? id = some row → run.state.contracts.get? id = some row
  single : ∀ row row', NewRow s run.state row → NewRow s run.state row' → row = row'
  /-- The row is locked with the columns of the responses, or as it was inserted. -/
  rows : ∀ row, NewRow s run.state row → FullyLocked encryption input run.log row ∨ Bare row
  reached : AllComplete input run.log → truthy input.contractWallet.seed ≠ none →
    ¬ UpdateRejected run.log → ∃ row, NewRow s run.state row ∧ row.status = .locked

/-- While the table is kept no row is new. -/
theorem not_newRow {s s' : Store} {row : ContractRow} (h : s'.contracts = s.contracts) :
    ¬ NewRow s s' row := by
  intro hnew
  obtain ⟨hnone, hsome⟩ := hnew
  rw [h, hnone] at hsome
  cases hsome

/-- At every end, a row that is locked is locked fully. -/
theorem LockEnd.lockedFully {cipher : GcmCipher} {masterKey : Option String} {s : Store}
    {run : Outcome calls String Store ContractDto}
    (h : LockEnd (aesGcmEncryptionService cipher masterKey) input s (run.log, run.state)) :
    LockedFully (aesGcmEncryptionService cipher masterKey) input s run := by
  cases h with
  | nothing hsame hnot =>
    -- no row was stored, so there is nothing to show of a new row
    constructor
    · intro id row hrow
      dsimp only at hsame
      rw [hsame]
      exact hrow
    · intro row row' hnew
      exact absurd hnew (not_newRow hsame)
    · intro row hnew
      exact absurd hnew (not_newRow hsame)
    · intro hall
      exact absurd hall hnot
  | bare row hbare hinserted hnot =>
    constructor
    · exact hinserted.kept_rows
    · intro row₁ row₂ h₁ h₂
      rw [hinserted.newRow_iff.mp h₁, hinserted.newRow_iff.mp h₂]
    · intro row' hnew
      rw [hinserted.newRow_iff.mp hnew]
      exact .inr hbare
    · intro hall hseed hupdate
      rcases seed_or_update_of_notReached (hnot hall) with hnone | hrejected
      · exact absurd hnone hseed
      · exact absurd hrejected hupdate
  | locked row hinserted hlocked =>
    constructor
    · intro id old hold
      exact hinserted.kept_rows id old hold
    · intro row₁ row₂ h₁ h₂
      rw [hinserted.newRow_iff.mp h₁, hinserted.newRow_iff.mp h₂]
    · intro row' hnew
      rw [hinserted.newRow_iff.mp hnew]
      exact .inl hlocked
    · intro _ _ _
      obtain ⟨-, -, -, -, -, -, -, hstatus, -⟩ := hlocked
      exact ⟨row, hinserted.newRow_iff.mpr rfl, hstatus⟩

/-- However the ledger and the database answer a run of `lockTenantDeposit`: other rows are
    kept, and the row of the contract, if there is one, is locked with the columns of the wallet and
    of three successful responses, or it is pending and knows nothing of them. If the responses are
    complete, the wallet has a seed and the update is answered, it is locked. -/
theorem locked_means_fully_locked (cipher : GcmCipher) (masterKey : Option String)
    (input : LockTenantDepositInput) (oracle : Nat → Choice × TxResponse) (s : Store) :
    LockedFully (aesGcmEncryptionService cipher masterKey) input s
      (runWith respondingWorld oracle
        (lockTenantDeposit (aesGcmEncryptionService cipher masterKey) input) [] s) := by
  apply LockEnd.lockedFully
  have hallow : ∀ op n s, respondingWorld.allow op (oracle n) s = true := fun _ _ _ => rfl
  have hwp : wp (seqSpec respondingWorld)
      (lockTenantDeposit (aesGcmEncryptionService cipher masterKey) input)
      (fun _ => LockEnd _ input s) (fun _ => LockEnd _ input s) ([], s) := lockTenantDeposit_spec s
  -- the walk of every failure point, read at the end that this run has reached
  have hpost := runWith_sound hallow hwp
  cases hresult : (runWith respondingWorld oracle
      (lockTenantDeposit (aesGcmEncryptionService cipher masterKey) input) [] s).result with
  | ok dto =>
    rw [hresult] at hpost
    exact hpost
  | error e =>
    rw [hresult] at hpost
    exact hpost

end Bluesafe.Lock
