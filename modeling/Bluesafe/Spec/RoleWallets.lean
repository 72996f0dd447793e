import Bluesafe.Spec.WalletSpending

/-!
# One wallet for each role

`WalletService` generates the wallet of a role when it is first asked for one and keeps it.
Requests interleave at their calls to the ledger, so a request holds its wallets while others
ask for theirs. Every wallet that a request was given is the stored one (`Agree`), no two roles
have the same address, and so replies name one address for each role (`role_wallets`).
-/

namespace Bluesafe.Wallets

open Async Transition

/-- The answer shows the wallet of the role. -/
inductive ShowsWallet : Event calls Exception → WalletRole → Wallet → Prop
  | asked (role : WalletRole) (w : Wallet) : ShowsWallet ⟨.getWalletForRole role, .ok w⟩ role w
  | connected (role : WalletRole) (approve wasConnected : Bool) (w : Wallet) :
      ShowsWallet ⟨.connect role approve, .ok (w, wasConnected)⟩ role w

/-- Different roles have different addresses. -/
def Store.Distinct (s : Store) : Prop :=
  ∀ role role' w w', s.wallets role = some w → s.wallets role' = some w' →
    w.classicAddress = w'.classicAddress → role = role'

/-! ## The service -/

section Service

variable {s : Store} {role r : WalletRole} {generated w : Wallet}

/-- The wallet that is returned is the stored one. -/
theorem getOrCreateWallet_stored :
    (s.getOrCreateWallet role generated).2.wallets role =
      some (s.getOrCreateWallet role generated).1 := by
  unfold Store.getOrCreateWallet
  split
  · rename_i existing h
    exact h
  · exact if_pos rfl

/-- A stored wallet stays. -/
theorem getOrCreateWallet_keeps (h : s.wallets r = some w) :
    (s.getOrCreateWallet role generated).2.wallets r = some w := by
  unfold Store.getOrCreateWallet
  split
  · exact h
  · rename_i hnone
    have hne : r ≠ role := by
      rintro rfl
      exact nomatch h.symm.trans hnone
    exact (if_neg hne).trans h

/-- A stored wallet was stored before, or it is the generated one. -/
theorem getOrCreateWallet_cases (h : (s.getOrCreateWallet role generated).2.wallets r = some w) :
    s.wallets r = some w ∨ (r = role ∧ w = generated) := by
  unfold Store.getOrCreateWallet at h
  split at h
  · exact .inl h
  · dsimp only at h
    split at h
    · rename_i heq
      exact .inr ⟨heq, (Option.some.inj h).symm⟩
    · exact .inl h

/-- A generated wallet with a new address keeps the addresses apart. -/
theorem getOrCreateWallet_distinct (h : s.Distinct)
    (hnew : ∀ r w, s.wallets r = some w → w.classicAddress ≠ generated.classicAddress) :
    (s.getOrCreateWallet role generated).2.Distinct := by
  intro r r' w w' hr hr' haddress
  rcases getOrCreateWallet_cases hr with hold | ⟨rfl, rfl⟩
  · rcases getOrCreateWallet_cases hr' with hold' | ⟨rfl, rfl⟩
    · exact h r r' w w' hold hold' haddress
    · exact absurd haddress (hnew r w hold)
  · rcases getOrCreateWallet_cases hr' with hold' | ⟨rfl, -⟩
    · exact absurd haddress.symm (hnew r' w' hold')
    · rfl

end Service

/-! ## Calls -/

section Calls

variable {op : Call} {c : Choice} {s : Store} {role : WalletRole} {w : Wallet}

/-- What a call does to the wallets: nothing, or it asks for the wallet of a role. -/
theorem serve_wallets (op : Call) (c : Choice) (s : Store) :
    (serve op c s).2.wallets = s.wallets ∨
      ∃ role, (serve op c s).2.wallets = (s.getOrCreateWallet role c.generated).2.wallets := by
  unfold serve
  split
  · cases op with
    | getWalletForRole role => exact .inr ⟨role, rfl⟩
    | connect role approve => exact .inr ⟨role, rfl⟩
    | _ => exact .inl rfl
  · exact .inl rfl

theorem serve_keeps (h : s.wallets role = some w) : (serve op c s).2.wallets role = some w := by
  rcases serve_wallets op c s with hsame | ⟨r, hasked⟩
  · rw [hsame]
    exact h
  · rw [hasked]
    exact getOrCreateWallet_keeps h

theorem serve_distinct (hallow : world.allow op c s = true) (h : s.Distinct) :
    (serve op c s).2.Distinct := by
  have hnew : ∀ r w, s.wallets r = some w → w.classicAddress ≠ c.generated.classicAddress := by
    intro r w hw
    have hall := (Bool.and_eq_true_iff.mp hallow).2
    have hr := List.all_eq_true.mp hall r (by cases r <;> simp)
    rw [hw] at hr
    exact of_decide_eq_true hr
  rcases serve_wallets op c s with hsame | ⟨r, hasked⟩
  · unfold Store.Distinct
    rw [hsame]
    exact h
  · unfold Store.Distinct
    rw [hasked]
    exact getOrCreateWallet_distinct h hnew

/-- The wallet that an answer shows is the stored one. -/
theorem serve_shows (h : ShowsWallet ⟨op, (serve op c s).1⟩ role w) :
    (serve op c s).2.wallets role = some w := by
  unfold serve at h ⊢
  split at h
  · generalize hr : (Except.ok (perform op c s).1 : Except Exception op.Res) = r at h
    cases h with
    | asked =>
      cases hr
      exact getOrCreateWallet_stored
    | connected approve wasConnected =>
      cases hr
      exact getOrCreateWallet_stored
  · exact nomatch h

end Calls

/-! ## Runs -/

/-- The wallets in the logs are the stored ones, and different roles have different addresses. -/
structure Agree (P : WalletPool) : Prop where
  shown : ∀ th ∈ P.threads, ∀ ev ∈ th.log, ∀ role w, ShowsWallet ev role w →
    P.store.wallets role = some w
  distinct : P.store.Distinct

theorem Agree.step {lib : Libraries} {config : Config} {P P' : WalletPool} {a : Act Request Choice}
    (h : walletStep lib config P a = some P') (hP : Agree P) : Agree P' := by
  -- a step starts a request, or serves one call
  have hstore : P'.store = P.store ∨
      ∃ op c, world.allow op c P.store = true ∧ P'.store = (serve op c P.store).2 := by
    obtain ⟨req, -, rfl⟩ | ⟨i, c, th, op, k, -, -, -, hallow, rfl⟩ := poolStep_cases h
    · exact .inl rfl
    · exact .inr ⟨op, c, hallow, rfl⟩
  -- a wallet that is connected stays, since a role has only one
  have hkeep : ∀ {role w}, P.store.wallets role = some w → P'.store.wallets role = some w := by
    intro role w hw
    rcases hstore with heq | ⟨op, c, -, heq⟩
    · rw [heq]
      exact hw
    · rw [heq]
      exact serve_keeps hw
  -- what a thread was shown, and that roles have different wallets
  refine ⟨fun u hu ev hev role w hshow => ?_, ?_⟩
  -- the event was there before, or is the one of this step
  · obtain ⟨v, hv, -, hold⟩ | ⟨i, c, th, op, k, -, -, -, -, rfl, heq⟩ := mem_log_step h hu hev
    · exact hkeep (hP.shown v hv ev hold role w hshow)
    · rw [heq]
      exact serve_shows hshow
  · rcases hstore with heq | ⟨op, c, hallow, heq⟩
    · rw [heq]
      exact hP.distinct
    · rw [heq]
      exact serve_distinct hallow hP.distinct

/-- The reply names this address as the one of the role. -/
def Reply.Names : Reply → WalletRole → String → Prop
  | .connected _ role address _ _, r, a => r = role ∧ a = address
  | .funded reply, r, a => r = reply.role ∧ a = reply.address
  | .roundtrip reply, .tenant, a => a = reply.tenantAddress
  | .roundtrip reply, .landlord, a => a = reply.landlordAddress
  | _, _, _ => False

/-- A reply names only addresses of wallets that the request was given. -/
theorem shown_of_earned {lib : Libraries} {config : Config} {req : Request} {reply : Reply}
    {l : WalletLog} (h : earned lib config req reply l) {role : WalletRole} {address : String}
    (hnames : reply.Names role address) :
    ∃ ev ∈ l, ∃ w, ShowsWallet ev role w ∧ address = w.classicAddress := by
  -- which replies name a wallet, and which request each of them answers
  cases reply with
  | declined message => exact nomatch hnames
  | disconnected message r => exact nomatch hnames
  -- the reply of a connection names the wallet that was added
  | connected message r a publicKey network =>
    obtain ⟨rfl, rfl⟩ := hnames
    cases req with
    | connect r approve =>
      obtain ⟨⟨w, ⟨approve, wasConnected, hmem⟩, haddress⟩, -⟩ := h
      exact ⟨_, hmem, w, .connected .., haddress⟩
    | _ => exact nomatch h
  -- the funding reply names the wallet that signs the payment
  | funded reply =>
    obtain ⟨rfl, rfl⟩ := hnames
    cases req with
    | fundIou dto =>
      obtain ⟨plan, w, -, -, -, -, -, -, hw, -, -, -, -, -, hrole, haddress, -⟩ := h
      exact ⟨_, hw, w, hrole ▸ .asked .., haddress⟩
    | _ => exact nomatch h
  -- a roundtrip names both of its wallets
  | roundtrip reply =>
    cases req with
    | peerXrpRoundtrip amountDrops =>
      obtain ⟨tenant, landlord, -, -, htenant, hlandlord, -, -, hta, hla, -⟩ := h
      cases role with
      | tenant => exact ⟨_, htenant, tenant, .asked .., hnames.trans hta⟩
      | landlord => exact ⟨_, hlandlord, landlord, .asked .., hnames.trans hla⟩
    | _ => exact nomatch h

/-- In every run from the start of the process, whatever is in progress: two replies name the
    same address exactly when they name it for the same role. -/
theorem role_wallets (lib : Libraries) (config : Config) {P : WalletPool}
    {ms : List (Move WalletPool (Act Request Choice))}
    (run : Run (walletStep lib config) ⟨.empty, []⟩ ms P) {th th' : WalletThread}
    (hth : th ∈ P.threads) (hth' : th' ∈ P.threads) {reply reply' : Reply}
    (hdone : th.prog = .done reply) (hdone' : th'.prog = .done reply')
    {role role' : WalletRole} {address address' : String} (hnames : reply.Names role address)
    (hnames' : reply'.Names role' address') : address = address' ↔ role = role' := by
  -- the invariant over the run: the roles agree with what was shown
  have hagree : Agree P :=
    run.invariant (C := fun _ => True) (fun _ _ => trivial)
      ⟨fun u hu => (nomatch hu), fun _ _ _ _ h => (nomatch h)⟩ fun m hm _ h => h.step hm
  -- and every finished request has earned what its reply says
  have hspends : ∀ u ∈ P.threads, WalletThread.Spends lib config u :=
    run.invariant (P := fun P => ∀ u ∈ P.threads, WalletThread.Spends lib config u)
      (C := fun _ => True) (fun _ _ => trivial) (fun u hu => nomatch hu)
      fun m hm _ h => walletStep_spends hm h
  -- so each name was shown at some call, and the two roles are different
  obtain ⟨ev, hev, w, hshow, rfl⟩ := shown_of_earned ((hspends th hth).of_done hdone) hnames
  obtain ⟨ev', hev', w', hshow', rfl⟩ := shown_of_earned ((hspends th' hth').of_done hdone') hnames'
  have hw := hagree.shown th hth ev hev role w hshow
  have hw' := hagree.shown th' hth' ev' hev' role' w' hshow'
  constructor
  · exact hagree.distinct role role' w w' hw hw'
  · rintro rfl
    rw [Option.some.inj (hw.symm.trans hw')]

/-- Both requests of `sampleSchedule` have returned with the address of the tenant. -/
def sampleTenant (P : WalletPool) : Bool :=
  match P.threads.map Thread.prog with
  | [.done (.funded reply), .done (.roundtrip reply')] =>
    decide (reply.role = .tenant) && decide (reply.address = "tenant1") &&
      decide (reply'.tenantAddress = "tenant1") && decide (reply'.landlordAddress = "landlord2")
  | _ => false

theorem role_wallets_sample :
    ∃ ms P, Run (walletStep sampleLibraries sampleConfig) ⟨.empty, []⟩ ms P ∧
      ∃ th ∈ P.threads, ∃ th' ∈ P.threads, ∃ reply reply', th.prog = .done reply ∧
        th'.prog = .done reply' ∧ reply.Names .tenant "tenant1" ∧ reply'.Names .tenant "tenant1" ∧
        reply'.Names .landlord "landlord2" ∧ ("tenant1" = "tenant1" ↔ WalletRole.tenant = .tenant) ∧
        ("tenant1" = "landlord2" ↔ WalletRole.tenant = .landlord) := by
  obtain ⟨ms, P, run, hp⟩ := exists_run_of_replay
    (scheduleActs world (handle sampleLibraries sampleConfig) sampleSchedule ⟨.empty, []⟩)
    (fun r => sampleTenant r.2)
    (by decide +kernel :
      (replay (walletStep sampleLibraries sampleConfig) ⟨.empty, []⟩ _ []).any _ = true)
  -- the replay ends with the two replies; the rest is reading them
  unfold sampleTenant at hp
  split at hp
  · rename_i reply reply' hprogs
    obtain ⟨th, ths, hthreads, hdone, hrest⟩ := List.map_eq_cons_iff.mp hprogs
    obtain ⟨th', ths', hthreads', hdone', -⟩ := List.map_eq_cons_iff.mp hrest
    have hth : th ∈ P.threads := hthreads ▸ List.mem_cons_self
    have hth' : th' ∈ P.threads := hthreads ▸ List.mem_cons_of_mem _ (hthreads' ▸ List.mem_cons_self)
    simp only [Bool.and_eq_true, decide_eq_true_eq] at hp
    -- the addresses of the two replies
    obtain ⟨⟨⟨hrole, haddress⟩, htenant⟩, hlandlord⟩ := hp
    have hfunded : (Reply.funded reply).Names .tenant "tenant1" := ⟨hrole.symm, haddress.symm⟩
    have hsent : (Reply.roundtrip reply').Names .tenant "tenant1" := htenant.symm
    have hback : (Reply.roundtrip reply').Names .landlord "landlord2" := hlandlord.symm
    exact ⟨ms, P, run, th, hth, th', hth', _, _, hdone, hdone', hfunded, hsent, hback,
      role_wallets sampleLibraries sampleConfig run hth hth' hdone hdone' hfunded hsent,
      role_wallets sampleLibraries sampleConfig run hth hth' hdone hdone' hfunded hback⟩
  · exact nomatch hp

end Bluesafe.Wallets
