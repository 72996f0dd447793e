import Bluesafe.ForStd.Except
import Bluesafe.Lock.Service

/-!
# What a deposit lock leaves behind

`lockTenantDeposit` writes the account, the seed and the escrows of a contract into its row
only at its end, in one update. A call that fails before leaves the row as it was inserted,
whatever the ledger has applied; a call whose update takes effect has stored everything.
`LockPost` is this dichotomy, and `lockTenantDeposit_wp` follows it through every point at
which a step may fail.
-/

namespace Bluesafe.Lock

open Async

/-! ## The two outcomes -/

section Outcomes

variable (encryption : Encryption) (input : LockTenantDepositInput)

/-- A row that was inserted since `s`. -/
def NewRow (s s' : Store) (row : ContractRow) : Prop :=
  s.contracts.get? row.id = none ∧ s'.contracts.get? row.id = some row

/-- The row stores the encrypted seed of the contract account. -/
def StoresSeed (row : ContractRow) : Prop :=
  ∃ seed iv cipher, input.contractWallet.seed = some seed ∧
    encryption.encrypt iv seed = .ok cipher ∧ row.contractAccountSeedCipher = some cipher

/-- The row stores the hash and the sequence number of an escrow. -/
def StoresEscrow (row : ContractRow) (t : LedgerTx) : Prop :=
  (row.depositEscrowTxHash = some t.hash ∧ row.depositEscrowSequence = some t.sequence) ∨
  (row.stakeEscrowTxHash = some t.hash ∧ row.stakeEscrowSequence = some t.sequence)

/-- The transactions the ledger has applied since `s`. -/
def appliedSince (s s' : Store) : List LedgerTx :=
  s'.ledger.take (s'.ledger.length - s.ledger.length)

/-- The row stores everything that is needed to finish or cancel the escrows the ledger has
    created since `s`. -/
structure StoresLock (s s' : Store) (row : ContractRow) : Prop where
  account : row.contractAccountAddress = some input.contractWallet.classicAddress
  seed : StoresSeed encryption input row
  escrows : ∀ t ∈ appliedSince s s', t.tx.isEscrowCreate = true → StoresEscrow row t
  status : row.status = .locked

/-- The row is as it was inserted: it is pending and knows no account, seed or escrow. -/
def Bare (row : ContractRow) : Prop :=
  row.status = .pending ∧ row.toLockColumns = LockColumns.empty

/-- What a call leaves behind, whether it returns or not. -/
structure LockPost (s : Store) (returned : Bool) (s' : Store) : Prop where
  kept : ∀ id row, s.contracts.get? id = some row → s'.contracts.get? id = some row
  rows : ∀ row, NewRow s s' row →
    StoresLock encryption input s s' row ∨ (returned = false ∧ Bare row)
  inserted : s'.ledger ≠ s.ledger → ∃ row, NewRow s s' row
  stored : returned = true → ∃ row, NewRow s s' row ∧ StoresLock encryption input s s' row

end Outcomes

variable {encryption : Encryption} {input : LockTenantDepositInput}

/-- A call that has done nothing. -/
theorem lockPost_start (s : Store) : LockPost encryption input s false s where
  kept := fun _ _ h => h
  rows := fun row h => by
    have hboth := h.1.symm.trans h.2
    exact nomatch hboth
  inserted := fun h => absurd rfl h
  stored := fun h => nomatch h

/-- The contracts with one more row, whose identifier is new. -/
structure Inserted (s : Store) (row : ContractRow) (s' : Store) : Prop where
  fresh : s.contracts.get? row.id = none
  kept : ∀ id, id ≠ row.id → s'.contracts.get? id = s.contracts.get? id
  found : s'.contracts.get? row.id = some row

/-- The row that was inserted is the only new one. -/
theorem Inserted.newRow_iff {s s' : Store} {row row' : ContractRow} (h : Inserted s row s') :
    NewRow s s' row' ↔ row' = row := by
  constructor
  · intro ⟨hnew, hfound⟩
    by_cases hid : row'.id = row.id
    · rw [hid, h.found, Option.some.injEq] at hfound
      exact hfound.symm
    · rw [h.kept _ hid, hnew] at hfound
      exact nomatch hfound
  · intro heq
    subst heq
    exact ⟨h.fresh, h.found⟩

/-- The other rows are kept. -/
theorem Inserted.kept_rows {s s' : Store} {row : ContractRow} (h : Inserted s row s')
    (id : String) (old : ContractRow) (hold : s.contracts.get? id = some old) :
    s'.contracts.get? id = some old := by
  have hne : id ≠ row.id := by
    intro heq
    rw [heq, h.fresh] at hold
    exact nomatch hold
  rw [h.kept id hne]
  exact hold

/-- A row that was inserted and not touched since. -/
theorem Inserted.lockPost {s s' : Store} {row : ContractRow} (h : Inserted s row s')
    (hbare : Bare row) : LockPost encryption input s false s' where
  kept := h.kept_rows
  rows := fun row' hnew => by
    rw [h.newRow_iff.mp hnew]
    exact .inr ⟨rfl, hbare⟩
  inserted := fun _ => ⟨row, h.newRow_iff.mpr rfl⟩
  stored := fun hret => nomatch hret

/-- A row that stores the lock. -/
theorem Inserted.lockPost_stored {s s' : Store} {row : ContractRow} (h : Inserted s row s')
    (hstores : StoresLock encryption input s s' row) (returned : Bool) :
    LockPost encryption input s returned s' where
  kept := h.kept_rows
  rows := fun row' hnew => by
    rw [h.newRow_iff.mp hnew]
    exact .inl hstores
  inserted := fun _ => ⟨row, h.newRow_iff.mpr rfl⟩
  stored := fun _ => ⟨row, h.newRow_iff.mpr rfl, hstores⟩

/-! ## Following the calls -/

/-- From `s` the program returns into `Q` or throws into `E`. -/
def Ensures {α : Type} (p : LockM α) (Q : α → Store → Prop) (E : Store → Prop) (s : Store) :
    Prop :=
  ∀ l, wp (seqSpec world) p (fun a g => Q a g.2) (fun _ g => E g.2) (l, s)

namespace Ensures

variable {α β : Type} {Q : α → Store → Prop} {E : Store → Prop} {s : Store}

/-- A value is ensured where the condition holds. -/
theorem pure {a : α} (h : Q a s) : Ensures (Pure.pure a) Q E s := fun _ => h

/-- An error, where the condition for errors does. -/
theorem throw {e : String} (h : E s) : Ensures (MonadExcept.throw e : LockM α) Q E s := fun _ => h

/-- One program after the other. -/
theorem bind {p : LockM β} {f : β → LockM α} {R : β → Store → Prop} (hp : Ensures p R E s)
    (hf : ∀ b s', R b s' → Ensures (f b) Q E s') : Ensures (p >>= f) Q E s := by
  intro l
  rw [wp_bind]
  exact wp_mono _ _ (seqSpec_mono world) (fun b g h => hf b g.2 h g.1) (fun _ _ h => h) (hp l)

/-- One call: it is answered, or rejected with or without effect. -/
theorem call {op : Call} {Q : op.Res → Store → Prop}
    (hok : ∀ c : Choice, c.rejection s op = none → Q (perform op c s).1 (perform op c s).2)
    (heffect : ∀ c : Choice, c.takesEffect s op = true → E (perform op c s).2) (hE : E s) :
    Ensures (invoke op) Q E s := by
  intro l c _
  simp only [world, serve]
  cases hrejection : c.rejection s op with
  | none => exact hok c hrejection
  | some e =>
    dsimp only [post]
    cases heff : c.takesEffect s op with
    | true => exact heffect c heff
    | false => exact hE

/-- A result that may be an error. -/
theorem orThrow {r : Except String α} (hok : ∀ a, r = .ok a → Q a s) (hE : E s) :
    Ensures (Lock.orThrow r) Q E s := by
  cases r with
  | ok a => exact pure (hok a rfl)
  | error e => exact throw hE

end Ensures

/-- The encryption of a seed changes no row. -/
theorem encryptFresh_ensures {E : Store → Prop} {s : Store} (plaintext : String) (hE : E s) :
    Ensures (encryptFresh encryption plaintext)
      (fun cipher s' => s' = s ∧ ∃ iv, encryption.encrypt iv plaintext = .ok cipher) E s := by
  refine Ensures.bind (R := fun _ s' => s' = s) (Ensures.call (fun _ _ => rfl) (fun _ _ => hE) hE)
    fun iv s' hs => ?_
  subst hs
  exact Ensures.orThrow (fun cipher hcipher => ⟨rfl, iv, hcipher⟩) hE

/-- The row of the contract is inserted, and nothing else happens. -/
def Pending (s : Store) (s' : Store) : Prop :=
  ∃ row, Bare row ∧ Inserted s row s' ∧ s'.ledger = s.ledger

/-- Under a fresh identifier a contract is inserted. -/
theorem inserted_perform {draft : ContractDraft} {c : Choice} {s : Store}
    (hfresh : s.contracts.get? c.id = none) :
    Inserted s (draft.toRow c.id) (perform (.saveContract draft) c s).2 := by
  refine ⟨hfresh, fun id hne => ?_, Table.get?_set_self _ _⟩
  show (s.contracts.set (draft.toRow c.id)).get? id = _
  rw [Table.get?_set, if_neg hne]

/-- The decrypted form of a row keeps the row. -/
theorem toDto_row {decrypt : String → Except String String} {c : ContractRow} {dto : ContractDto}
    (h : c.toDto decrypt = .ok dto) : dto.row = c := by
  obtain ⟨tenantPii, -, h⟩ := Except.exists_of_bind_eq_ok h
  obtain ⟨landlordPii, -, h⟩ := Except.exists_of_bind_eq_ok h
  dsimp only at h
  split at h
  · obtain ⟨seed, -, h⟩ := Except.exists_of_bind_eq_ok h
    cases h
    rfl
  · cases h
    rfl

/-- `create` inserts the row of the contract; a failure may come after that. -/
theorem create_ensures {E : Store → Prop} {s : Store} (hE : E s)
    (hpending : ∀ s', Pending s s' → E s') :
    Ensures (create encryption input.toCreateContractInput)
      (fun dto s' => Bare dto.row ∧ Inserted s dto.row s' ∧ s'.ledger = s.ledger) E s := by
  -- both seeds are encrypted first; a failure there leaves the store
  unfold create
  refine Ensures.bind (encryptFresh_ensures _ hE) fun tenant s' hs => ?_
  obtain ⟨rfl, -⟩ := hs
  refine Ensures.bind (encryptFresh_ensures _ hE) fun landlord s' hs => ?_
  obtain ⟨rfl, -⟩ := hs
  -- the currency is checked before anything is saved
  refine Ensures.bind (R := fun _ s'' => s'' = s') (Ensures.orThrow (fun _ _ => rfl) hE)
    fun currency s'' hs => ?_
  subst hs
  refine Ensures.bind (R := fun row s' => Bare row ∧ Inserted s'' row s' ∧ s'.ledger = s''.ledger)
    (Ensures.call (fun c hnone => ?_) (fun c heffect => ?_) hE) fun saved s' hsaved => ?_
  · -- The row is saved; its identifier is new.
    have hfresh : s''.contracts.get? c.id = none := by
      cases hold : s''.contracts.get? c.id with
      | none => rfl
      | some old => simp [Choice.rejection, hold] at hnone
    exact ⟨⟨rfl, rfl⟩, inserted_perform hfresh, rfl⟩
  · -- The save is rejected, but the row is there.
    have hfresh : s''.contracts.get? c.id = none := by
      simp only [Choice.takesEffect, Bool.and_eq_true, Option.isNone_iff_eq_none] at heffect
      exact heffect.2
    exact hpending _ ⟨_, ⟨rfl, rfl⟩, inserted_perform hfresh, rfl⟩
  -- what is returned is read from the saved row
  · refine Ensures.orThrow (fun dto hdto => ?_) (hpending s' ⟨saved, hsaved⟩)
    rw [toDto_row hdto]
    exact hsaved

/-- A transaction was applied, and nothing else happened. -/
def Applied (s : Store) (t : LedgerTx) (s' : Store) : Prop :=
  s'.contracts = s.contracts ∧ s'.ledger = t :: s.ledger

/-- An escrow counts when the ledger has answered with a success. -/
theorem assertCreateSuccess_ok {response : TxResponse} {r : EscrowCreatedResult}
    (h : assertCreateSuccess response = .ok r) :
    response.transactionResult = some "tesSUCCESS" ∧ r.txHash = response.hash ∧
    response.seq = some r.escrowSequence := by
  -- a response without a result, with another code, or without a sequence
  unfold assertCreateSuccess at h
  split at h
  · exact nomatch h
  · rename_i result hresult
    split at h
    · exact nomatch h
    · rename_i htes
      split at h
      · exact nomatch h
      · exact nomatch h
      · rename_i seq ledger hseq hledger
        cases h
        rw [hresult, hseq]
        -- what is left is a `tesSUCCESS` with its sequence
        exact ⟨by simpa using htes, rfl, rfl⟩

/-- So does a signer list. -/
theorem assertSignerListSuccess_ok {response : TxResponse} {r : SignerListSetResult}
    (h : assertSignerListSuccess response = .ok r) :
    response.transactionResult = some "tesSUCCESS" ∧ r.txHash = response.hash := by
  unfold assertSignerListSuccess at h
  split at h
  · exact nomatch h
  · rename_i result hresult
    split at h
    · exact nomatch h
    · rename_i htes
      split at h
      · exact nomatch h
      · cases h
        rw [hresult]
        exact ⟨by simpa using htes, rfl⟩

/-- Both forms of a response report the same number. -/
theorem Choice.seq_response (c : Choice) : c.response.seq = c.reported := by
  unfold Choice.response TxResponse.seq
  cases c.flat with
  | true => rfl
  | false => exact Option.or_none

/-- A submission that is answered `tesSUCCESS` has been applied. -/
theorem submit_ensures {E : Store → Prop} {s : Store} (tx : Tx)
    (hE : ∀ s', s'.contracts = s.contracts → E s') :
    Ensures (invoke (.submitAndWait tx)) (fun response s' => s'.contracts = s.contracts ∧
      (response.transactionResult = some "tesSUCCESS" → ∃ n,
        Applied s ⟨tx, response.hash, n⟩ s' ∧ ∀ m, response.seq = some m → m = n)) E s := by
  -- the call is answered, or it throws after the ledger has seen it
  refine Ensures.call (fun c hnone => ?_) (fun c _ => ?_) (hE s rfl)
  · have hfailure : c.failure = none := hnone
    refine ⟨?_, fun htes => ?_⟩
    -- whatever it answered, the rows of the contracts stay
    · simp only [perform]
      split
      · rfl
      · rfl
    · -- a success that is answered is one that the ledger applied
      have hresult : c.transactionResult = some "tesSUCCESS" := htes
      have haccepted : c.accepted = true := by simp [Choice.accepted, hfailure, hresult]
      refine ⟨c.sequence, ?_, fun m hm => ?_⟩
      · simp only [perform, haccepted, if_true]
        exact ⟨rfl, rfl⟩
      -- the sequence that is answered is that of the transaction
      · have hseq : c.response.seq = some m := hm
        rw [Choice.seq_response, Choice.reported] at hseq
        split at hseq
        · exact (Option.some.inj hseq).symm
        · exact nomatch hseq
  · refine hE _ ?_
    -- a call that throws may have been applied, which is a change of the ledger alone
    simp only [perform]
    split
    · rfl
    · rfl

/-- An escrow that `createEscrow` reports is on the ledger, under the reported hash and
    sequence number. -/
theorem createEscrow_ensures {E : Store → Prop} {s : Store} (params : CreateEscrowParams)
    (hE : ∀ s', s'.contracts = s.contracts → E s') :
    Ensures (createEscrow params) (fun r s' => ∃ tx, tx.isEscrowCreate = true ∧
      Applied s ⟨tx, r.txHash, r.escrowSequence⟩ s') E s := by
  unfold createEscrow
  -- the parameters are validated before the transaction is built
  refine Ensures.bind (R := fun _ s' => s' = s) (Ensures.orThrow (fun _ _ => rfl) (hE s rfl))
    fun _ s₁ hs => ?_
  subst hs
  refine Ensures.bind (R := fun tx s' => s' = s₁ ∧ tx.isEscrowCreate = true)
    (Ensures.orThrow (fun tx htx => ⟨rfl, ?_⟩) (hE s₁ rfl)) fun tx s₂ htx => ?_
  -- the destination and the times do not decide what kind of transaction it is
  · obtain ⟨finishAfter, -, htx⟩ := Except.exists_of_bind_eq_ok htx
    obtain ⟨cancelAfter, -, htx⟩ := Except.exists_of_bind_eq_ok htx
    cases htx
    rfl
  · obtain ⟨rfl, hescrow⟩ := htx
    -- then the submission, and the success that the result was read from
    refine Ensures.bind (submit_ensures tx hE) fun response s₃ hsubmit => ?_
    refine Ensures.orThrow (fun r hr => ?_) (hE s₃ hsubmit.1)
    obtain ⟨htes, hhash, hsequence⟩ := assertCreateSuccess_ok hr
    obtain ⟨n, happlied, hn⟩ := hsubmit.2 htes
    rw [hhash, hn r.escrowSequence hsequence]
    exact ⟨tx, hescrow, happlied⟩

/-- The signer list changes no row. -/
theorem setSignerList_ensures {E : Store → Prop} {s : Store} (params : SetSignerListParams)
    (hE : ∀ s', s'.contracts = s.contracts → E s') :
    Ensures (setSignerList params) (fun r s' => ∃ tx n, tx.isEscrowCreate = false ∧
      Applied s ⟨tx, r.txHash, n⟩ s') E s := by
  unfold setSignerList
  refine Ensures.bind (R := fun _ s' => s' = s) (Ensures.orThrow (fun _ _ => rfl) (hE s rfl))
    fun _ s₁ hs => ?_
  subst hs
  refine Ensures.bind (submit_ensures _ hE) fun response s₂ hsubmit => ?_
  refine Ensures.orThrow (fun r hr => ?_) (hE s₂ hsubmit.1)
  obtain ⟨htes, hhash⟩ := assertSignerListSuccess_ok hr
  obtain ⟨n, happlied, -⟩ := hsubmit.2 htes
  rw [hhash]
  exact ⟨_, n, rfl, happlied⟩

/-! ## The whole call -/

/-- A row stays inserted while the table is kept. -/
theorem Inserted.of_contracts {s s' s'' : Store} {row : ContractRow} (h : Inserted s row s')
    (heq : s''.contracts = s'.contracts) : Inserted s row s'' where
  fresh := h.fresh
  kept := fun id hne => by rw [heq]; exact h.kept id hne
  found := by rw [heq]; exact h.found

/-- The update of the row. -/
theorem Inserted.update {s s' s'' : Store} {row : ContractRow} (h : Inserted s row s')
    (patch : ContractPatch) (heq : s''.contracts = updateRow s'.contracts row.id patch) :
    Inserted s (patch.apply row) s'' := by
  have hset : s''.contracts = s'.contracts.set (patch.apply row) := by
    rw [heq, updateRow, h.found]
  refine ⟨h.fresh, fun id hne => ?_, ?_⟩
  · rw [hset, Table.get?_set, if_neg hne]
    exact h.kept id hne
  · rw [hset]
    exact Table.get?_set_self _ _

/-- A look-up changes nothing. -/
theorem findById_ensures {E : Store → Prop} {s : Store} (id : String) (hE : E s) :
    Ensures (findById encryption id) (fun _ s' => s' = s) E s := by
  unfold findById
  refine Ensures.bind (R := fun _ s' => s' = s) (Ensures.call (fun _ _ => rfl) (fun _ _ => hE) hE)
    fun found s' hs => ?_
  subst hs
  split
  · exact Ensures.pure rfl
  · refine Ensures.bind (R := fun _ s'' => s'' = s') (Ensures.orThrow (fun _ _ => rfl) hE)
      fun dto s'' hs => ?_
    subst hs
    exact Ensures.pure rfl

/-- The columns of the update store what the three transactions have left on the ledger. -/
theorem storesLock_patch {s s' : Store} {row : ContractRow} {seed iv cipher : String}
    {deposit stake : EscrowCreatedResult} {signerList : SignerListSetResult}
    {depositTx stakeTx signersTx : Tx} {n : Nat}
    (hseed : input.contractWallet.seed = some seed)
    (hcipher : encryption.encrypt iv seed = .ok cipher)
    (hsigners : signersTx.isEscrowCreate = false)
    (hledger : s'.ledger = ⟨signersTx, signerList.txHash, n⟩ ::
      ⟨stakeTx, stake.txHash, stake.escrowSequence⟩ ::
      ⟨depositTx, deposit.txHash, deposit.escrowSequence⟩ :: s.ledger) :
    StoresLock encryption input s s'
      ((lockPatch input cipher deposit stake signerList).apply row) := by
  refine ⟨rfl, ⟨seed, iv, cipher, hseed, hcipher, rfl⟩, fun t ht hescrow => ?_, rfl⟩
  -- The call has applied exactly these three.
  have hsince : (s'.ledger.length - s.ledger.length) = 3 := by
    rw [hledger]
    simp only [List.length_cons]
    omega
  unfold appliedSince at ht
  rw [hsince, hledger] at ht
  simp only [List.take_succ_cons, List.take_zero, List.mem_cons, List.not_mem_nil, or_false] at ht
  rcases ht with rfl | rfl | rfl
  · rw [hsigners] at hescrow
    exact nomatch hescrow
  · exact .inr ⟨rfl, rfl⟩
  · exact .inl ⟨rfl, rfl⟩

/-- The last step stores everything the ledger has confirmed. -/
theorem storeLock_ensures {s s₁ : Store} {row : ContractRow} {deposit stake : EscrowCreatedResult}
    {signerList : SignerListSetResult} {depositTx stakeTx signersTx : Tx} {n : Nat}
    (hbare : Bare row) (hinserted : Inserted s row s₁)
    (hsigners : signersTx.isEscrowCreate = false)
    (hledger : s₁.ledger = ⟨signersTx, signerList.txHash, n⟩ ::
      ⟨stakeTx, stake.txHash, stake.escrowSequence⟩ ::
      ⟨depositTx, deposit.txHash, deposit.escrowSequence⟩ :: s.ledger) :
    Ensures (storeLock encryption input row.id deposit stake signerList)
      (fun _ => LockPost encryption input s true) (LockPost encryption input s false) s₁ := by
  have hfailed : LockPost encryption input s false s₁ := hinserted.lockPost hbare
  unfold storeLock
  split
  · exact Ensures.throw hfailed
  · rename_i seed hseed
    have hwallet : input.contractWallet.seed = some seed :=
      (Bluesafe.Ops.truthy_eq_some.mp hseed).1
    refine Ensures.bind (encryptFresh_ensures seed hfailed) fun cipher s₂ hcipher => ?_
    obtain ⟨rfl, iv, hcipher⟩ := hcipher
    -- From the update on, answered or not, the row stores the lock.
    have hstored : ∀ s' : Store, s'.ledger = s₂.ledger →
        s'.contracts = updateRow s₂.contracts row.id
          (lockPatch input cipher deposit stake signerList) →
        ∀ returned, LockPost encryption input s returned s' := by
      intro s' hled hcon returned
      exact (hinserted.update _ hcon).lockPost_stored
        (storesLock_patch hwallet hcipher hsigners (hled.trans hledger)) returned
    refine Ensures.bind (R := fun _ s' => ∀ returned, LockPost encryption input s returned s')
      (Ensures.call (fun c _ => ?_) (fun c _ => ?_) hfailed) fun _ s₃ hpost => ?_
    · refine hstored _ ?_ ?_
      · rfl
      · rfl
    · refine hstored _ ?_ ?_ false
      · rfl
      · rfl
    · refine Ensures.bind (findById_ensures row.id (hpost false)) fun found s₄ hs => ?_
      subst hs
      split
      · exact Ensures.throw (hpost false)
      · exact Ensures.pure (hpost true)

/-- The whole operation, from either end. -/
theorem lockTenantDeposit_ensures (s : Store) :
    Ensures (lockTenantDeposit encryption input) (fun _ => LockPost encryption input s true)
      (LockPost encryption input s false) s := by
  unfold lockTenantDeposit
  refine Ensures.bind (R := fun _ s' => s' = s)
    (Ensures.orThrow (fun _ _ => rfl) (lockPost_start s)) fun amounts s' hs => ?_
  subst hs
  obtain ⟨depositAmount, stakeAmount⟩ := amounts
  refine Ensures.bind (create_ensures (lockPost_start s') ?_) fun contract s₁ hcreated => ?_
  · intro s₁ ⟨row, hbare, hinserted, _⟩
    exact hinserted.lockPost hbare
  obtain ⟨hbare, hinserted, hledger⟩ := hcreated
  -- Until the update the row stays as it was inserted.
  have hfailed : ∀ s'' : Store, s''.contracts = s₁.contracts →
      LockPost encryption input s' false s'' := fun s'' heq =>
    (hinserted.of_contracts heq).lockPost hbare
  refine Ensures.bind (createEscrow_ensures _ hfailed) fun deposit s₂ hdeposit => ?_
  obtain ⟨depositTx, -, hcon₂, hled₂⟩ := hdeposit
  refine Ensures.bind (createEscrow_ensures _ fun s'' heq => hfailed s'' (heq.trans hcon₂))
    fun stake s₃ hstake => ?_
  obtain ⟨stakeTx, -, hcon₃, hled₃⟩ := hstake
  refine Ensures.bind (setSignerList_ensures _ fun s'' heq =>
    hfailed s'' (heq.trans (hcon₃.trans hcon₂))) fun signerList s₄ hsigners => ?_
  obtain ⟨signersTx, n, hsigners, hcon₄, hled₄⟩ := hsigners
  rw [hled₃, hled₂, hledger] at hled₄
  exact storeLock_ensures hbare
    (hinserted.of_contracts (hcon₄.trans (hcon₃.trans hcon₂))) hsigners hled₄

/-- A call of `lockTenantDeposit`. -/
def lockRun (encryption : Encryption) (input : LockTenantDepositInput) (oracle : Nat → Choice)
    (s : Store) : Outcome calls String Store ContractDto :=
  runWith world oracle (lockTenantDeposit encryption input) [] s

/-- Wherever the steps of `lockTenantDeposit` fail: the rows of other contracts are kept, and
    the row of the contract, which exists as soon as a transaction was applied, either stores
    the account, its encrypted seed and the hash and sequence number of every escrow that was
    created, or the call throws and the row is as it was inserted, pending and with none of
    these. A call that returns has stored them. -/
theorem lock_stores_or_throws (encryption : Encryption) (input : LockTenantDepositInput)
    (oracle : Nat → Choice) (s : Store) :
    LockPost encryption input s (lockRun encryption input oracle s).result.isOk
      (lockRun encryption input oracle s).state := by
  have hwp : Ensures (lockTenantDeposit encryption input) _ _ s := lockTenantDeposit_ensures s
  have hallow : ∀ op n s, world.allow op (oracle n) s = true := fun _ _ _ => rfl
  have hpost := runWith_sound hallow (hwp [])
  unfold lockRun
  cases hresult : (runWith world oracle (lockTenantDeposit encryption input) [] s).result with
  | ok dto =>
    rw [hresult] at hpost
    exact hpost
  | error e =>
    rw [hresult] at hpost
    exact hpost

/-! ## Funds without a record -/

/-- As soon as a transaction was applied, the row stores the account, its encrypted seed and
    every escrow that was created, even if the call throws. -/
def NoStrandedFunds (encryption : Encryption) (input : LockTenantDepositInput)
    (oracle : Nat → Choice) (s : Store) : Prop :=
  (lockRun encryption input oracle s).state.ledger ≠ s.ledger →
    ∃ row, NewRow s (lockRun encryption input oracle s).state row ∧
      row.contractAccountAddress = some input.contractWallet.classicAddress ∧
      StoresSeed encryption input row ∧
      ∀ t ∈ appliedSince s (lockRun encryption input oracle s).state,
        t.tx.isEscrowCreate = true → StoresEscrow row t

def sampleEncryption : Encryption := ⟨fun iv plaintext => .ok (iv ++ plaintext), .ok⟩

def sampleInput : LockTenantDepositInput where
  tenantAddress := "rTenant"
  landlordAddress := "rLandlord"
  depositAmount := "50000000"
  stakeAmount := "10000000"
  startsAt := ⟨some 0⟩
  endsAt := ⟨some 1000⟩
  finishAfter := ⟨some 2000⟩
  cancelAfter := ⟨some 3000⟩
  tenantPii := "t"
  landlordPii := "l"
  tenantEmail := none
  assetMode := none
  iouIssuer := none
  iouCurrency := none
  contractWallet := ⟨"rContract", some "seed"⟩
  operatorAddress := "rOperator"

/-- The deposit is locked; the escrow of the stake is refused by the ledger. -/
def sampleOracle (n : Nat) : Choice :=
  if n = 3 then { hash := "A", sequence := 11, transactionResult := some "tesSUCCESS" }
  else { id := "c1", hash := "B", transactionResult := some "tecINSUF_RESERVE" }

/-- The escrow of the deposit exists, and the only row knows neither it nor its account. -/
theorem deposit_stranded :
    ¬ NoStrandedFunds sampleEncryption sampleInput sampleOracle ⟨Table.empty, []⟩ := by
  intro h
  have hledger : (lockRun sampleEncryption sampleInput sampleOracle
      ⟨Table.empty, []⟩).state.ledger.length = 1 := by decide +kernel
  have hrows : (lockRun sampleEncryption sampleInput sampleOracle
      ⟨Table.empty, []⟩).state.contracts.rows.all
        (fun row => row.contractAccountAddress = none) = true := by decide +kernel
  obtain ⟨row, hnew, haccount, -⟩ := h (by intro heq; rw [heq] at hledger; exact nomatch hledger)
  have hnone := List.all_eq_true.mp hrows row (Table.mem_of_get? hnew.2)
  rw [haccount] at hnone
  exact nomatch hnone

end Bluesafe.Lock
