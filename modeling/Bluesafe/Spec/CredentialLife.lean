import Bluesafe.Credential.Service

/-!
# The life of a credential

A credential is active when its subject has accepted it, its issuer has not revoked it
since, and it has not expired. `verifyCredential` searches the objects of the subject for
the issuer and the type, and looks at the expiration of the first it finds.

`current` reads the state of a credential off the applied transactions, and `Consistent`
says that the objects of the ledger agree with it after every run. The search then differs
from the definition in two ways: it does not look at `lsfAccepted`, and it does not look
at the subject, so that an account that verifies itself finds what it issued to others.
-/

namespace Bluesafe.Credential

open Async Transition

/-! ## The history of a credential -/

/-- The issuer, the subject and the type of the credential a transaction is about. -/
def Tx.key : Tx → String × String × String
  | .credentialCreate account subject credentialType _ _ => (account, subject, credentialType)
  | .credentialAccept account issuer credentialType => (issuer, account, credentialType)
  | .credentialDelete _ subject issuer credentialType => (issuer, subject, credentialType)

def Tx.isDelete : Tx → Bool
  | .credentialDelete _ _ _ _ => true
  | _ => false

/-- The transaction creates the credential, with this expiration. -/
def Tx.Creates (k : String × String × String) (expiration : Option Int) (tx : Tx) : Prop :=
  ∃ uri, tx = .credentialCreate k.1 k.2.1 k.2.2 expiration uri

/-- None of the transactions deletes the credential. -/
def Unrevoked (k : String × String × String) (txs : List Tx) : Prop :=
  ∀ tx ∈ txs, tx.isDelete = true → tx.key ≠ k

/-- The credential was created with this expiration and not deleted since. -/
def Issued (k : String × String × String) (expiration : Option Int) (applied : List Tx) : Prop :=
  ∃ newer create older, applied = newer ++ create :: older ∧ create.Creates k expiration ∧
    Unrevoked k newer

/-- The credential was created with this expiration, accepted afterwards, and not deleted
    since it was created. -/
def Accepted (k : String × String × String) (expiration : Option Int) (applied : List Tx) :
    Prop :=
  ∃ newer older, applied = newer ++ .credentialAccept k.2.1 k.1 k.2.2 :: older ∧
    Issued k expiration older ∧ Unrevoked k newer

/-- What a transaction makes of the expiration of its credential and of whether it was
    accepted. -/
def Tx.advance : Tx → Option (Option Int × Bool) → Option (Option Int × Bool)
  | .credentialCreate _ _ _ expiration _, _ => some (expiration, false)
  | .credentialAccept _ _ _, state => state.map fun s => (s.1, true)
  | .credentialDelete _ _ _ _, _ => none

/-- The expiration of the credential and whether it was accepted, if it was created and not
    deleted since. -/
def current (k : String × String × String) : List Tx → Option (Option Int × Bool)
  | [] => none
  | tx :: older => if tx.key = k then tx.advance (current k older) else current k older

/-- Every creation found no credential. -/
def WellFormed (k : String × String × String) : List Tx → Prop
  | [] => True
  | tx :: older =>
    WellFormed k older ∧ ∀ expiration, tx.Creates k expiration → current k older = none

section History

variable {k : String × String × String} {expiration : Option Int} {tx : Tx} {txs : List Tx}

/-- A transaction that creates a credential has its key. -/
theorem Tx.Creates.key (h : tx.Creates k expiration) : tx.key = k := by
  obtain ⟨uri, rfl⟩ := h
  rfl

/-- It deletes nothing. -/
theorem Tx.Creates.isDelete (h : tx.Creates k expiration) : tx.isDelete = false := by
  obtain ⟨uri, rfl⟩ := h
  rfl

/-- A credential is issued by the newest transaction, or before it. -/
theorem issued_cons (h : Issued k expiration (tx :: txs)) :
    tx.Creates k expiration ∨ (Issued k expiration txs ∧ (tx.isDelete = true → tx.key ≠ k)) := by
  obtain ⟨newer, create, older, heq, hcreate, hnewer⟩ := h
  cases newer with
  | nil =>
    cases heq
    exact .inl hcreate
  | cons _ newer =>
    cases heq
    exact .inr ⟨⟨newer, create, older, rfl, hcreate,
      fun tx' h' => hnewer tx' (List.mem_cons_of_mem _ h')⟩, hnewer tx List.mem_cons_self⟩

/-- It stays issued until it is deleted. -/
theorem Issued.cons (h : Issued k expiration txs) (htx : tx.isDelete = true → tx.key ≠ k) :
    Issued k expiration (tx :: txs) := by
  obtain ⟨newer, create, older, rfl, hcreate, hnewer⟩ := h
  refine ⟨tx :: newer, create, older, rfl, hcreate, fun tx' h' => ?_⟩
  rcases List.mem_cons.mp h' with rfl | h'
  · exact htx
  · exact hnewer tx' h'

/-- A credential is accepted by the newest transaction, or before it. -/
theorem accepted_cons (h : Accepted k expiration (tx :: txs)) :
    (tx = .credentialAccept k.2.1 k.1 k.2.2 ∧ Issued k expiration txs) ∨
      (Accepted k expiration txs ∧ (tx.isDelete = true → tx.key ≠ k)) := by
  obtain ⟨newer, older, heq, hissued, hnewer⟩ := h
  cases newer with
  | nil =>
    cases heq
    exact .inl ⟨rfl, hissued⟩
  | cons _ newer =>
    cases heq
    exact .inr ⟨⟨newer, older, rfl, hissued,
      fun tx' h' => hnewer tx' (List.mem_cons_of_mem _ h')⟩, hnewer tx List.mem_cons_self⟩

/-- It stays accepted until it is deleted. -/
theorem Accepted.cons (h : Accepted k expiration txs) (htx : tx.isDelete = true → tx.key ≠ k) :
    Accepted k expiration (tx :: txs) := by
  obtain ⟨newer, older, rfl, hissued, hnewer⟩ := h
  refine ⟨tx :: newer, older, rfl, hissued, fun tx' h' => ?_⟩
  rcases List.mem_cons.mp h' with rfl | h'
  · exact htx
  · exact hnewer tx' h'

/-- Transactions about other credentials change nothing. -/
theorem current_cons_of_ne (h : tx.key ≠ k) : current k (tx :: txs) = current k txs := by
  rw [current, if_neg h]

/-- A transaction about the credential is one of three. -/
theorem Tx.cases_of_key (h : tx.key = k) :
    (∃ expiration, tx.Creates k expiration) ∨ tx = .credentialAccept k.2.1 k.1 k.2.2 ∨
      tx.isDelete = true := by
  subst h
  cases tx with
  | credentialCreate account subject credentialType expiration uri =>
    exact .inl ⟨expiration, uri, rfl⟩
  | credentialAccept account issuer credentialType => exact .inr (.inl rfl)
  | credentialDelete account subject issuer credentialType => exact .inr (.inr rfl)

/-- A new credential is not accepted. -/
theorem current_cons_create (h : tx.Creates k expiration) :
    current k (tx :: txs) = some (expiration, false) := by
  rw [current, if_pos h.key]
  obtain ⟨uri, rfl⟩ := h
  rfl

/-- An acceptance keeps the expiry. -/
theorem current_cons_accept :
    current k (.credentialAccept k.2.1 k.1 k.2.2 :: txs) =
      (current k txs).map fun s => (s.1, true) := by
  have hkey : Tx.key (.credentialAccept k.2.1 k.1 k.2.2) = k := rfl
  rw [current, if_pos hkey]
  rfl

/-- A deletion leaves no credential. -/
theorem current_cons_delete (hdelete : tx.isDelete = true) (hkey : tx.key = k) :
    current k (tx :: txs) = none := by
  rw [current, if_pos hkey]
  cases tx with
  | credentialDelete account subject issuer credentialType => rfl
  | _ => cases hdelete

/-- A credential that was created and not deleted is current. -/
theorem issued_iff (hwf : WellFormed k txs) :
    Issued k expiration txs ↔ ∃ accepted, current k txs = some (expiration, accepted) := by
  -- induction on the transactions, the newest first
  induction txs with
  | nil =>
    constructor
    · rintro ⟨newer, create, older, heq, -⟩
      cases newer <;> cases heq
    · rintro ⟨accepted, h⟩
      cases h
  | cons tx txs ih =>
    have hrest := ih hwf.1
    by_cases hkey : tx.key = k
    -- a transaction about the credential creates it, accepts it, or deletes it
    · rcases Tx.cases_of_key hkey with ⟨e, hcreate⟩ | rfl | hdelete
      · rw [current_cons_create hcreate]
        constructor
        · intro h
          rcases issued_cons h with hcreate' | ⟨hissued, -⟩
          · obtain ⟨uri, rfl⟩ := hcreate
            obtain ⟨uri', heq⟩ := hcreate'
            cases heq
            exact ⟨false, rfl⟩
          · -- A creation finds no credential.
            obtain ⟨accepted, hcurrent⟩ := hrest.mp hissued
            rw [hwf.2 e hcreate] at hcurrent
            cases hcurrent
        · rintro ⟨accepted, heq⟩
          cases heq
          exact ⟨[], tx, txs, rfl, hcreate, by simp [Unrevoked]⟩
      -- an acceptance keeps the offer it was made for
      · rw [current_cons_accept]
        constructor
        · intro h
          rcases issued_cons h with ⟨uri, heq⟩ | ⟨hissued, -⟩
          · cases heq
          · obtain ⟨accepted, hcurrent⟩ := hrest.mp hissued
            exact ⟨true, by rw [hcurrent]; rfl⟩
        · rintro ⟨accepted, heq⟩
          obtain ⟨⟨e, b⟩, hcurrent, heq⟩ := Option.map_eq_some_iff.mp heq
          cases heq
          exact (hrest.mpr ⟨b, hcurrent⟩).cons (by simp [Tx.isDelete])
      -- a deletion leaves none
      · rw [current_cons_delete hdelete hkey]
        constructor
        · intro h
          rcases issued_cons h with hcreate | ⟨-, hne⟩
          · rw [hcreate.isDelete] at hdelete
            cases hdelete
          · exact absurd hkey (hne hdelete)
        · rintro ⟨accepted, heq⟩
          cases heq
    -- a transaction about another credential leaves this one
    · rw [current_cons_of_ne hkey, ← hrest]
      constructor
      · intro h
        rcases issued_cons h with hcreate | ⟨hissued, -⟩
        · exact absurd hcreate.key hkey
        · exact hissued
      · exact fun h => h.cons fun _ => hkey

/-- A credential that was accepted after its creation and not deleted is current and
    accepted. -/
theorem accepted_iff (hwf : WellFormed k txs) :
    Accepted k expiration txs ↔ current k txs = some (expiration, true) := by
  induction txs with
  | nil =>
    constructor
    · rintro ⟨newer, older, heq, -⟩
      cases newer <;> cases heq
    · intro h
      cases h
  | cons tx txs ih =>
    have hrest := ih hwf.1
    by_cases hkey : tx.key = k
    · rcases Tx.cases_of_key hkey with ⟨e, hcreate⟩ | rfl | hdelete
      · rw [current_cons_create hcreate]
        constructor
        · intro h
          rcases accepted_cons h with ⟨heq, -⟩ | ⟨haccepted, -⟩
          · obtain ⟨uri, rfl⟩ := hcreate
            cases heq
          · -- an accepted credential would still be there, and a creation finds none
            have hcurrent := hrest.mp haccepted
            rw [hwf.2 e hcreate] at hcurrent
            cases hcurrent
        · intro h
          cases h
      · rw [current_cons_accept]
        constructor
        · intro h
          rcases accepted_cons h with ⟨-, hissued⟩ | ⟨haccepted, -⟩
          · -- the acceptance is the newest transaction: the credential was issued before
            obtain ⟨accepted, hcurrent⟩ := (issued_iff hwf.1).mp hissued
            rw [hcurrent]
            rfl
          · rw [hrest.mp haccepted]
            rfl
        · intro h
          obtain ⟨⟨e, b⟩, hcurrent, heq⟩ := Option.map_eq_some_iff.mp h
          cases heq
          exact ⟨[], txs, rfl, (issued_iff hwf.1).mpr ⟨b, hcurrent⟩, by simp [Unrevoked]⟩
      · rw [current_cons_delete hdelete hkey]
        constructor
        · intro h
          rcases accepted_cons h with ⟨rfl, -⟩ | ⟨-, hne⟩
          · cases hdelete
          · exact absurd hkey (hne hdelete)
        · intro h
          cases h
    · rw [current_cons_of_ne hkey, ← hrest]
      constructor
      · intro h
        -- transactions of other keys do not matter
        rcases accepted_cons h with ⟨rfl, -⟩ | ⟨haccepted, -⟩
        · exact absurd rfl hkey
        · exact haccepted
      · exact fun h => h.cons fun _ => hkey

end History

/-! ## The objects agree with the history -/

/-- Setting the flag of an acceptance sets it. -/
theorem isAccepted_accept (c : CredentialLedgerEntry) :
    CredentialLedgerEntry.isAccepted { c with flags := c.flags ||| lsfAccepted } = true := by
  have hflag : (c.flags ||| lsfAccepted) &&& lsfAccepted = lsfAccepted := by
    apply Nat.eq_of_testBit_eq
    intro i
    rw [Nat.testBit_and, Nat.testBit_or]
    cases c.flags.testBit i <;> cases lsfAccepted.testBit i <;> rfl
  unfold CredentialLedgerEntry.isAccepted
  rw [hflag]
  rfl

/-- What `current` says about an object. -/
def CredentialLedgerEntry.state (c : CredentialLedgerEntry) : Option Int × Bool :=
  (c.expiration, c.isAccepted)

/-- The objects of the ledger are those its history asks for. -/
structure Ledger.Consistent (s : Ledger) : Prop where
  wellFormed : ∀ k, WellFormed k s.applied
  objects : ∀ k, (s.objects.get? k).map CredentialLedgerEntry.state = current k s.applied

/-- The empty ledger is consistent. -/
theorem consistent_empty : Ledger.empty.Consistent where
  wellFormed := fun _ => trivial
  objects := fun _ => rfl

/-- A transaction changes the credential it is about, and no other. -/
theorem Ledger.Consistent.cons {s : Ledger} (h : s.Consistent) {tx : Tx}
    {objects : Table CredentialLedgerEntry.key}
    (hcreate : ∀ expiration, tx.Creates tx.key expiration → s.objects.get? tx.key = none)
    (hown : (objects.get? tx.key).map CredentialLedgerEntry.state =
      tx.advance ((s.objects.get? tx.key).map CredentialLedgerEntry.state))
    (hother : ∀ k, k ≠ tx.key → objects.get? k = s.objects.get? k) :
    Ledger.Consistent ⟨tx :: s.applied, objects⟩ := by
  constructor
  · intro k
    refine ⟨h.wellFormed k, fun expiration hk => ?_⟩
    obtain rfl := hk.key
    rw [← h.objects, hcreate expiration hk]
    rfl
  · intro k
    rw [current]
    by_cases hk : tx.key = k
    · subst hk
      rw [if_pos rfl, ← h.objects]
      exact hown
    · rw [if_neg hk, ← h.objects, hother k (Ne.symm hk)]

/-- Every transaction that is applied keeps the objects consistent. -/
theorem apply_consistent {s s' : Ledger} {tx : Tx} (happly : s.apply tx = some s')
    (h : s.Consistent) : s'.Consistent := by
  -- one case for each kind of transaction; the ledger refuses what does not fit its objects
  cases tx with
  | credentialCreate account subject credentialType expiration uri =>
    simp only [Ledger.apply] at happly
    split at happly
    · cases happly
    · rename_i hnone
      cases happly
      refine h.cons (fun _ _ => hnone) ?_ fun k hk => ?_
      · -- the new object is an offer
        show Option.map _ ((s.objects.set _).get? (account, subject, credentialType)) = _
        rw [Table.get?_set, if_pos (by rfl)]
        simp [Tx.advance, CredentialLedgerEntry.state, CredentialLedgerEntry.isAccepted]
      · rw [Table.get?_set]
        exact if_neg hk
  | credentialAccept account issuer credentialType =>
    simp only [Ledger.apply] at happly
    split at happly
    · cases happly
    · rename_i c hc
      have hkey : (issuer, account, credentialType) =
          CredentialLedgerEntry.key { c with flags := c.flags ||| lsfAccepted } :=
        (Table.key_of_get? hc).symm
      split at happly
      · cases happly
      · cases happly
        refine h.cons (fun _ hcreate => ?_) ?_ fun k hk => ?_
        · obtain ⟨uri, heq⟩ := hcreate
          cases heq
        · -- the flag is set in place
          show Option.map _ ((s.objects.set _).get? (issuer, account, credentialType)) =
            Tx.advance _ (Option.map _ (s.objects.get? (issuer, account, credentialType)))
          rw [Table.get?_set, if_pos hkey, hc]
          simp only [Tx.advance, Option.map_some, CredentialLedgerEntry.state, isAccepted_accept]
        · rw [Table.get?_set]
          exact if_neg fun heq => hk (heq.trans hkey.symm)
  | credentialDelete account subject issuer credentialType =>
    simp only [Ledger.apply] at happly
    split at happly
    · cases happly
    · split at happly
      · cases happly
      · cases happly
        refine h.cons (fun _ hcreate => ?_) ?_ fun k hk => ?_
        · obtain ⟨uri, heq⟩ := hcreate
          cases heq
        · -- the object is gone, and so is the key of the history
          show Option.map _ ((s.objects.erase _).get? (issuer, subject, credentialType)) = none
          rw [Table.get?_erase, if_pos rfl]
          rfl
        · rw [Table.get?_erase]
          exact if_neg hk

/-- Every call keeps the ledger consistent. -/
theorem serve_consistent (op : Call) (c : Choice) {s : Ledger} (h : s.Consistent) :
    (serve op c s).2.Consistent := by
  -- a transaction that is submitted is applied, refused, or lost
  have hsubmit : ∀ tx, (s.submit tx c.applied).Consistent := by
    intro tx
    unfold Ledger.submit
    split
    · cases happly : s.apply tx with
      | none => exact h
      | some s' => exact apply_consistent happly h
    · exact h
  -- only a submission writes; the other calls read
  cases op with
  | submitAndWait tx =>
    simp only [serve]
    split
    · exact hsubmit tx
    · exact hsubmit tx
  | clock => exact h
  | _ =>
    simp only [serve]
    split
    · exact h
    · exact h

/-- And so does every run. -/
theorem consistent_of_run {ms : List (Move CredentialPool (Act Request Choice))}
    {P : CredentialPool} (run : Run credentialStep ⟨Ledger.empty, []⟩ ms P) :
    P.store.Consistent := by
  refine run.invariant (P := fun P => P.store.Consistent) (C := fun _ => True)
    (fun _ _ => trivial) consistent_empty fun m hstep _ hP => ?_
  obtain ⟨P, a, P'⟩ := m
  dsimp only at hstep hP ⊢
  obtain ⟨req, -, rfl⟩ | ⟨i, c, th, op, k, -, -, -, -, rfl⟩ := poolStep_cases hstep
  · exact hP
  · exact serve_consistent op c hP

/-! ## What `verifyCredential` returns -/

/-- The credential that is asked for. -/
def AcceptCredentialInput.key (p : AcceptCredentialInput) : String × String × String :=
  (p.issuer, p.subject, utf8ToHex p.credentialType)

/-- The expiration has been reached. -/
def isExpired (expiration : Option Int) (dateNow : Nat) : Bool :=
  expiration.any fun e => decide (e ≤ currentRippleEpoch dateNow)

/-- The credential was accepted by its subject, was not revoked since it was issued, and has
    not expired. -/
def Active (applied : List Tx) (p : AcceptCredentialInput) (dateNow : Nat) : Prop :=
  ∃ expiration, Accepted p.key expiration applied ∧ isExpired expiration dateNow = false

/-- The credential that is asked for is among the objects, accepted and not expired. -/
def OwnActive (objects : List LedgerEntry) (p : AcceptCredentialInput) (dateNow : Nat) : Prop :=
  ∃ own, .credential own ∈ objects ∧ own.key = p.key ∧ own.isAccepted = true ∧
    isExpired own.expiration dateNow = false

/-- The search of `verifyCredential`. -/
def AcceptCredentialInput.search (p : AcceptCredentialInput) (objects : List LedgerEntry) :
    Option CredentialLedgerEntry :=
  objects.findSome? (LedgerEntry.match? p.issuer (utf8ToHex p.credentialType))

/-- An answered search returns the first match unless it has expired. -/
theorem verifyCredential_result {oracle : Nat → Choice} {s : Ledger}
    (p : AcceptCredentialInput) (hanswered : (oracle 0).failure = none) :
    (runWith world oracle (verifyCredential p) [] s).result =
      .ok ((p.search (oracle 0).objects).bind fun c =>
        if isExpired c.expiration (oracle 1).dateNow then none else some c) := by
  have hobjects : (world.serve (.accountObjects p.subject) (oracle 0) s).1 =
      .ok (oracle 0).objects := by
    simp only [world, serve, hanswered]
  unfold verifyCredential AcceptCredentialInput.search
  rw [runWith_bind, runWith_call_ok world oracle (l := []) hobjects]
  dsimp only [Outcome.andThen]
  cases hsearch : (oracle 0).objects.findSome?
      (LedgerEntry.match? p.issuer (utf8ToHex p.credentialType)) with
  | none => rfl
  | some c =>
    dsimp only
    cases hexpiration : c.expiration with
    | none => simp [hexpiration, isExpired]
    | some e =>
      -- The clock is read only for a credential that expires.
      dsimp only
      rw [runWith_bind, runWith_call_ok world oracle (a := (oracle 1).dateNow) rfl]
      dsimp only [Outcome.andThen]
      by_cases hexpired : e ≤ currentRippleEpoch (oracle 1).dateNow
      · simp [hexpired, hexpiration, isExpired]
      · simp [hexpired, hexpiration, isExpired]

/-- The listed credentials are those of the account, each as it is stored. -/
theorem lists_iff {s : Ledger} {account : String} {objects : List LedgerEntry}
    (h : s.lists account objects = true) (c : CredentialLedgerEntry) :
    .credential c ∈ objects ↔
      s.objects.get? c.key = some c ∧ (c.issuer = account ∨ c.subject = account) := by
  simp only [Ledger.lists, Bool.and_eq_true, List.all_eq_true] at h
  constructor
  · intro hmem
    have hlisted := h.1 _ hmem
    simpa using hlisted
  · rintro ⟨hget, haccount⟩
    have hlisted := h.2 c (Table.mem_of_get? hget)
    simp only [Bool.or_eq_true, Bool.not_eq_true', Bool.or_eq_false_iff, decide_eq_false_iff_not,
      List.contains_eq_mem, decide_eq_true_eq] at hlisted
    rcases hlisted with ⟨hissuer, hsubject⟩ | hmem
    · exact absurd haccount (not_or.mpr ⟨hissuer, hsubject⟩)
    · exact hmem

/-- A credential the search accepts has the issuer and the type. -/
theorem match?_eq_some {issuer wantedType : String} {o : LedgerEntry} {c : CredentialLedgerEntry}
    (h : o.match? issuer wantedType = some c) :
    o = .credential c ∧ c.issuer = issuer ∧ c.credentialType = wantedType := by
  cases o with
  | credential c' =>
    simp only [LedgerEntry.match?] at h
    split at h
    · rename_i hmatch
      cases h
      exact ⟨rfl, hmatch⟩
    · cases h
  | other ledgerEntryType => cases h

/-- The credential is active exactly when the subject's objects hold it, accepted and not
    expired. -/
theorem active_iff {s : Ledger} (hs : s.Consistent) {p : AcceptCredentialInput}
    {objects : List LedgerEntry} (hlists : s.lists p.subject objects = true) (dateNow : Nat) :
    Active s.applied p dateNow ↔ OwnActive objects p dateNow := by
  -- the state of the history is the state of the object
  have hstate : ∀ expiration, Accepted p.key expiration s.applied ↔
      (s.objects.get? p.key).map CredentialLedgerEntry.state = some (expiration, true) := by
    intro expiration
    rw [hs.objects, accepted_iff (hs.wellFormed p.key)]
  constructor
  · rintro ⟨expiration, haccepted, hfresh⟩
    obtain ⟨own, hown, heq⟩ := Option.map_eq_some_iff.mp ((hstate expiration).mp haccepted)
    have hkey := Table.key_of_get? hown
    obtain ⟨rfl, hflag⟩ := Prod.mk.inj heq
    have hsubject : own.subject = p.subject := congrArg (fun k => k.2.1) hkey
    have hstored : s.objects.get? own.key = some own := by rw [hkey]; exact hown
    exact ⟨own, (lists_iff hlists own).mpr ⟨hstored, .inr hsubject⟩, hkey, hflag, hfresh⟩
  -- a listed object with the key is the one of the ledger
  · rintro ⟨own, hmem, hkey, hflag, hfresh⟩
    obtain ⟨hget, -⟩ := (lists_iff hlists own).mp hmem
    rw [hkey] at hget
    refine ⟨own.expiration, (hstate own.expiration).mpr ?_, hfresh⟩
    rw [hget]
    exact congrArg some (Prod.ext rfl hflag)

/-- The first credential of the issuer and the type among the objects, if there is one, is the
    subject's own and accepted or expired, or it is that of another subject and has expired
    exactly when the subject's own is not active. -/
def FirstDecides (objects : List LedgerEntry) (p : AcceptCredentialInput) (dateNow : Nat) : Prop :=
  ∀ before c after, objects = before ++ .credential c :: after →
    (∀ o ∈ before, o.match? p.issuer (utf8ToHex p.credentialType) = none) →
    c.issuer = p.issuer → c.credentialType = utf8ToHex p.credentialType →
    if c.subject = p.subject then c.isAccepted = true ∨ isExpired c.expiration dateNow = true
    else (isExpired c.expiration dateNow = true ↔ ¬ OwnActive objects p dateNow)

/-- The condition, about the first match. -/
theorem firstDecides_iff {objects : List LedgerEntry} {p : AcceptCredentialInput} {dateNow : Nat} :
    FirstDecides objects p dateNow ↔ ∀ c, p.search objects = some c →
      if c.subject = p.subject then c.isAccepted = true ∨ isExpired c.expiration dateNow = true
      else (isExpired c.expiration dateNow = true ↔ ¬ OwnActive objects p dateNow) := by
  constructor
  · intro h c hsearch
    obtain ⟨before, o, after, heq, hmatch, hbefore⟩ := List.findSome?_eq_some_iff.mp hsearch
    obtain ⟨rfl, hissuer, htype⟩ := match?_eq_some hmatch
    exact h before c after heq hbefore hissuer htype
  · intro h before c after heq hbefore hissuer htype
    refine h c (List.findSome?_eq_some_iff.mpr ⟨before, .credential c, after, heq, ?_, hbefore⟩)
    simp [LedgerEntry.match?, hissuer, htype]

/-- Where the search finds nothing there is nothing to find. -/
theorem not_ownActive_of_search {objects : List LedgerEntry} {p : AcceptCredentialInput}
    {dateNow : Nat} (h : p.search objects = none) : ¬ OwnActive objects p dateNow := by
  rintro ⟨own, hmem, hkey, -⟩
  have hnone := List.findSome?_eq_none_iff.mp h _ hmem
  obtain ⟨hissuer, hrest⟩ := Prod.mk.inj hkey
  obtain ⟨-, htype⟩ := Prod.mk.inj hrest
  simp [LedgerEntry.match?, hissuer, htype] at hnone

/-- After every run of the service, an answered `verifyCredential` returns an entry exactly
    when the credential is active, if and only if the first object it finds decides that. -/
theorem credential_life_cycle_iff (ms : List (Move CredentialPool (Act Request Choice)))
    (P : CredentialPool) (run : Run credentialStep ⟨Ledger.empty, []⟩ ms P)
    (p : AcceptCredentialInput) (oracle : Nat → Choice) (hanswered : (oracle 0).failure = none)
    (hlists : P.store.lists p.subject (oracle 0).objects = true) :
    ((∃ entry, (runWith world oracle (verifyCredential p) [] P.store).result = .ok (some entry)) ↔
      Active P.store.applied p (oracle 1).dateNow) ↔
    FirstDecides (oracle 0).objects p (oracle 1).dateNow := by
  have hs := consistent_of_run run
  rw [verifyCredential_result p hanswered, active_iff hs hlists, firstDecides_iff]
  -- the code decides on the first object its search finds
  cases hsearch : p.search (oracle 0).objects with
  | none =>
    have hown : ¬ OwnActive (oracle 0).objects p (oracle 1).dateNow :=
      not_ownActive_of_search hsearch
    simp [hown]
  | some c =>
    obtain ⟨before, o, after, heq, hmatch, -⟩ := List.findSome?_eq_some_iff.mp hsearch
    obtain ⟨rfl, hissuer, htype⟩ := match?_eq_some hmatch
    have hmem : .credential c ∈ (oracle 0).objects := by simp [heq]
    have hreturns : (∃ entry, (Except.ok ((some c).bind fun c =>
        if isExpired c.expiration (oracle 1).dateNow then none else some c) : Except String _) =
          .ok (some entry)) ↔ isExpired c.expiration (oracle 1).dateNow = false := by
      rw [Option.bind_some]
      cases isExpired c.expiration (oracle 1).dateNow <;> simp
    rw [hreturns]
    have hfirst : (∀ c', some c = some c' → if c'.subject = p.subject then
          c'.isAccepted = true ∨ isExpired c'.expiration (oracle 1).dateNow = true
        else (isExpired c'.expiration (oracle 1).dateNow = true ↔
          ¬ OwnActive (oracle 0).objects p (oracle 1).dateNow)) ↔
        if c.subject = p.subject then
          c.isAccepted = true ∨ isExpired c.expiration (oracle 1).dateNow = true
        else (isExpired c.expiration (oracle 1).dateNow = true ↔
          ¬ OwnActive (oracle 0).objects p (oracle 1).dateNow) := by
      simp
    rw [hfirst]
    by_cases hsubject : c.subject = p.subject
    · -- The match is the credential that is asked for, and the ledger holds only one.
      rw [if_pos hsubject]
      have hkey : c.key = p.key := by
        simp [CredentialLedgerEntry.key, AcceptCredentialInput.key, hissuer, hsubject, htype]
      have hown : OwnActive (oracle 0).objects p (oracle 1).dateNow ↔
          c.isAccepted = true ∧ isExpired c.expiration (oracle 1).dateNow = false := by
        constructor
        · rintro ⟨own, hownMem, hownKey, hflag, hfresh⟩
          have hget := ((lists_iff hlists c).mp hmem).1
          have hget' := ((lists_iff hlists own).mp hownMem).1
          rw [hownKey, ← hkey, hget, Option.some.injEq] at hget'
          subst hget'
          exact ⟨hflag, hfresh⟩
        · rintro ⟨hflag, hfresh⟩
          exact ⟨c, hmem, hkey, hflag, hfresh⟩
      rw [hown]
      cases c.isAccepted <;> cases isExpired c.expiration (oracle 1).dateNow <;> simp
    -- another subject: the match says nothing about the credential that is asked for
    · rw [if_neg hsubject]
      by_cases hown : OwnActive (oracle 0).objects p (oracle 1).dateNow <;>
        cases isExpired c.expiration (oracle 1).dateNow <;> simp [hown]

/-! ## Concrete runs -/

def sampleInput : AcceptCredentialInput := ⟨"rSubject", "rIssuer", "KYC"⟩

def sampleIssue : IssueCredentialInput where
  issuer := "rIssuer"
  subject := "rSubject"
  credentialType := "KYC"

/-- The credential of the sample, offered or accepted. -/
def sampleEntry (flags : Nat) : CredentialLedgerEntry :=
  ⟨"rIssuer", "rSubject", utf8ToHex "KYC", flags, none, none⟩

/-- The credential is issued. -/
def offerSchedule : List (Act Request Choice) :=
  [.spawn (.issue sampleIssue), .advance 0 {}, .advance 0 { applied := true }]

/-- The credential is issued and accepted. -/
def acceptSchedule : List (Act Request Choice) :=
  offerSchedule ++ [.spawn (.accept sampleInput), .advance 1 {}, .advance 1 { applied := true }]

/-- The ledger lists the credential under its subject. -/
def sampleOracle (flags : Nat) (_ : Nat) : Choice :=
  { objects := [.credential (sampleEntry flags)] }

/-- What the ledger has applied, and that it lists the credential. -/
def sampleLedger (flags : Nat) (applied : List Tx) (P : CredentialPool) : Bool :=
  decide (P.store.applied = applied) &&
    P.store.lists "rSubject" [.credential (sampleEntry flags)]

/-- The subject has accepted: the entry is returned, and the credential is active. -/
theorem credential_life_cycle_iff_accepted :
    ∃ ms P, Run credentialStep ⟨Ledger.empty, []⟩ ms P ∧
      P.store.applied = [buildAccept sampleInput, buildIssue sampleIssue] ∧
      FirstDecides (sampleOracle lsfAccepted 0).objects sampleInput 0 ∧
      ((∃ entry, (runWith world (sampleOracle lsfAccepted) (verifyCredential sampleInput) []
        P.store).result = .ok (some entry)) ↔ Active P.store.applied sampleInput 0) := by
  obtain ⟨ms, P, run, hp⟩ := exists_run_of_replay acceptSchedule
    (fun r => sampleLedger lsfAccepted [buildAccept sampleInput, buildIssue sampleIssue] r.2)
    (by decide +kernel : (replay credentialStep ⟨Ledger.empty, []⟩ _ []).any _ = true)
  simp only [sampleLedger, Bool.and_eq_true, decide_eq_true_eq] at hp
  -- the search finds the credential itself
  have hfirst : FirstDecides (sampleOracle lsfAccepted 0).objects sampleInput 0 := by
    rw [firstDecides_iff]
    intro c hc
    have hsearch : sampleInput.search (sampleOracle lsfAccepted 0).objects =
        some (sampleEntry lsfAccepted) := by decide
    rw [hsearch, Option.some.injEq] at hc
    subst hc
    exact .inl (by decide)
  exact ⟨ms, P, run, hp.1, hfirst,
    (credential_life_cycle_iff ms P run sampleInput (sampleOracle lsfAccepted) rfl hp.2).mpr hfirst⟩

/-- An offer that nobody has accepted is returned as a credential. -/
theorem offer_verified :
    ∃ ms P, Run credentialStep ⟨Ledger.empty, []⟩ ms P ∧
      P.store.applied = [buildIssue sampleIssue] ∧
      P.store.lists "rSubject" (sampleOracle 0 0).objects = true ∧
      (∃ entry, (runWith world (sampleOracle 0) (verifyCredential sampleInput) []
        P.store).result = .ok (some entry)) ∧ ¬ Active P.store.applied sampleInput 0 := by
  obtain ⟨ms, P, run, hp⟩ := exists_run_of_replay offerSchedule
    (fun r => sampleLedger 0 [buildIssue sampleIssue] r.2)
    (by decide +kernel : (replay credentialStep ⟨Ledger.empty, []⟩ _ []).any _ = true)
  simp only [sampleLedger, Bool.and_eq_true, decide_eq_true_eq] at hp
  refine ⟨ms, P, run, hp.1, hp.2, ⟨sampleEntry 0, ?_⟩, ?_⟩
  · have hsearch : sampleInput.search (sampleOracle 0 0).objects = some (sampleEntry 0) := by
      decide
    rw [verifyCredential_result sampleInput rfl, hsearch]
    rfl
  -- in the history the offer was never accepted
  · rintro ⟨expiration, haccepted, -⟩
    rw [accepted_iff ((consistent_of_run run).wellFormed _), hp.1] at haccepted
    have hcurrent : current sampleInput.key [buildIssue sampleIssue] = some (none, false) := by
      decide
    rw [hcurrent] at haccepted
    cases haccepted

end Bluesafe.Credential
