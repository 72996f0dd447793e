import Bluesafe.Spec.WalletSpending

/-!
# Paths on the exchange

A `path_find` subscription stays with the connection until it is closed, so
`buyIouWithXrpViaPathFind` closes it in a `finally`. `pathRules` is the monitor: between the
creation of a path and its close a request only pays along that path. Every request that has
ended, also one that has thrown, has asked to close what it opened (`paths_closed`).
-/

namespace Bluesafe.Wallets

open Async Transition
open Bluesafe.Lock (Amount)

-- As in the monitor of the spending, the checks of the currency decide nothing.
attribute [local irreducible] Lock.normalizeIouCurrencyCode

/-- A path was created and its close has not been requested since. -/
def pathOpen : WalletLog → Bool
  | [] => false
  | ⟨.pathFindCreate _ _ _, .ok _⟩ :: _ => true
  | ⟨.pathFindClose, _⟩ :: _ => false
  | _ :: l => pathOpen l

/-- While a path is open, a request pays along it, once and first, or closes it. -/
def pathRules (l : WalletLog) : Call → Prop
  | .submitAndWait (.payment account _ amount (some _)) _ =>
    ∃ source, l.head? = some ⟨.pathFindCreate account account amount, .ok source⟩
  | .pathFindClose => pathOpen l = true
  | _ => pathOpen l = false

/-- Calls that have nothing to do with paths. -/
def Call.isElsewhere : Call → Bool
  | .submitAndWait (.payment _ _ _ (some _)) _ => false
  | .pathFindCreate _ _ _ => false
  | .pathFindClose => false
  | _ => true

/-- Calls outside the path find it closed. -/
theorem pathRules_elsewhere {l : WalletLog} {op : Call} (h : op.isElsewhere = true)
    (hl : pathOpen l = false) : pathRules l op := by
  cases op with
  | submitAndWait tx w =>
    cases tx with
    | trustSet account limit => exact hl
    | payment account destination amount sendMax =>
      cases sendMax with
      | none => exact hl
      | some _ => exact nomatch h
  | pathFindCreate source destination amount => exact nomatch h
  | pathFindClose => exact nomatch h
  | _ => exact hl

/-- And leave it as it was. -/
theorem pathOpen_elsewhere {l : WalletLog} {op : Call} (h : op.isElsewhere = true)
    (r : Except Exception op.Res) : pathOpen (⟨op, r⟩ :: l) = pathOpen l := by
  cases op with
  | pathFindCreate source destination amount => exact nomatch h
  | pathFindClose => exact nomatch h
  | _ => rfl

section Programs

variable {lib : Libraries} {config : Config} {l : WalletLog} {α β : Type}

/-- The program obeys the rules from a log without an open path, and leaves none however it
    ends. -/
def Tidy (p : WalletM α) : Prop :=
  ∀ l, pathOpen l = false →
    wp (monitor pathRules) p (fun _ l' => pathOpen l' = false) (fun _ l' => pathOpen l' = false) l

/-- A value leaves the path closed. -/
theorem Tidy.pure (a : α) : Tidy (Pure.pure a) := fun _ h => h

/-- So does an error. -/
theorem Tidy.throw (e : Exception) : Tidy (MonadExcept.throw e : WalletM α) := fun _ h => h

/-- One program after the other. -/
theorem Tidy.bind {p : WalletM β} {f : β → WalletM α} (hp : Tidy p) (hf : ∀ b, Tidy (f b)) :
    Tidy (p >>= f) :=
  fun l h => wp_monitor_bind (hp l h) fun b l' _ h' => hf b l' h'

/-- The result is of no account. -/
theorem Tidy.map {p : WalletM β} {f : β → α} (hp : Tidy p) : Tidy (f <$> p) :=
  .bind hp fun b => .pure (f b)

/-- A program that makes no step of a path is tidy. -/
theorem tidy_of_only {p : WalletM α} (hp : Only (I := calls) (fun op => Call.isElsewhere op = true) p) :
    Tidy p := by
  intro l h
  refine hp.meets (G := fun l => pathOpen l = false) (fun l op hop hl => ?_) (fun l op r hop hl => ?_) h
  · exact pathRules_elsewhere hop hl
  · exact (pathOpen_elsewhere hop r).trans hl

/-- A result that may be an error makes no call. -/
theorem orThrow_only {P : Call → Prop} (x : Except Exception α) : Only (I := calls) P (orThrow x) := by
  cases x with
  | ok a => exact .pure
  | error e => exact .throw

/-- The faucet is off the path. -/
theorem ensureTestnetXrpForFees_only (w : Wallet) :
    Only (I := calls) (fun op => Call.isElsewhere op = true) (ensureTestnetXrpForFees w) := by
  refine .bind (.call rfl) fun _ => .bind ?_ fun funded => .ite .pure (.call rfl)
  exact .tryCatch (.bind (.call rfl) fun _ => .pure) fun _ => .pure

/-- So is a trust line. -/
theorem submitTrustSet_only (owner : Wallet) (limit : Amount) :
    Only (I := calls) (fun op => Call.isElsewhere op = true) (submitTrustSet owner limit) := by
  refine .bind (.call rfl) fun _ => .bind (.call rfl) fun response => ?_
  split
  · exact .throw
  · exact .ite .throw .pure

/-- And its look-up. -/
theorem findTrustLine_only (account issuer currency : String) :
    Only (I := calls) (fun op => Call.isElsewhere op = true) (findTrustLine account issuer currency) :=
  .bind (orThrow_only _) fun _ => .bind (.call rfl) fun _ => .pure

/-- The close comes with the path still open, and whatever it answers, the path is done with. -/
theorem closePath_closes (h : pathOpen l = true) :
    wp (monitor pathRules) closePath (fun _ l' => pathOpen l' = false)
      (fun _ l' => pathOpen l' = false) l :=
  wp_monitor_tryCatch (F := fun _ l' => pathOpen l' = false)
    (wp_monitor_call h (fun _ => rfl) fun _ => rfl) fun _ _ _ h => h

/-- The payment leaves the path open. -/
theorem payAlongPath_open {buyer : Wallet} {dest : Amount} {source : Option SourceAmount}
    (h : l.head? = some ⟨.pathFindCreate buyer.classicAddress buyer.classicAddress dest, .ok source⟩) :
    wp (monitor pathRules) (payAlongPath buyer dest source) (fun _ l' => pathOpen l' = true)
      (fun _ l' => pathOpen l' = true) l := by
  have hopen : pathOpen l = true := by
    obtain ⟨rest, rfl⟩ := List.head?_eq_some_iff.mp h
    rfl
  unfold payAlongPath
  cases hmax : sendMaxFor source with
  | error e => exact hopen
  | ok sendMax =>
    show wp (monitor _) (request _ >>= _) _ _ _
    refine wp_monitor_bind (R := fun _ l' => pathOpen l' = true) ?_ fun response l' _ h' => ?_
    · exact wp_monitor_call ⟨source, h⟩ (fun _ => hopen) fun _ => hopen
    · exact (orThrow_only (P := fun _ => False) (assertTxSuccess response)).meets
        (fun _ _ h => h.elim) (fun _ _ _ h => h.elim) h'

/-- A purchase closes its path, also when it throws. -/
theorem buyIouWithXrpViaPathFind_tidy (buyer : Wallet) (issuer currency iouValue : String) :
    Tidy (buyIouWithXrpViaPathFind buyer issuer currency iouValue) := by
  refine .bind (tidy_of_only (orThrow_only _)) fun dest l h => ?_
  -- a path that was not created needs no close
  refine wp_monitor_bind (R := fun source l' => l'.head? =
      some ⟨Call.pathFindCreate buyer.classicAddress buyer.classicAddress dest, .ok source⟩)
    (wp_monitor_call h (fun _ => rfl) fun _ => h) fun source l' _ hfound => ?_
  refine wp_monitor_bind (R := fun _ l' => pathOpen l' = true) ?_ fun paid l'' _ hopen => ?_
  · refine wp_monitor_tryCatch (F := fun _ l' => pathOpen l' = true) ?_ fun _ _ _ h => h
    exact wp_monitor_bind (payAlongPath_open hfound) fun _ _ _ h => h
  · exact wp_monitor_bind (closePath_closes hopen) fun _ l h hclosed =>
      tidy_of_only (orThrow_only paid) l hclosed

/-- The operator is topped up, payment by payment. -/
theorem topUp_tidy (numbers : Numbers) (operator : Wallet) (issuer currency : String)
    (need : numbers.Number) (n : Nat) (balance : numbers.Number) :
    Tidy (topUp numbers operator issuer currency need n balance) := by
  induction n generalizing balance with
  | zero => exact .pure balance
  | succ n ih =>
    unfold topUp
    split
    · exact .bind (buyIouWithXrpViaPathFind_tidy _ _ _ _) fun _ =>
        .bind (tidy_of_only (findTrustLine_only ..)) fun again => ih _
    · exact .pure balance

/-- The line of the operator is off the path. -/
theorem operatorLine_only (operator : Wallet) (issuer currency : String) :
    Only (I := calls) (fun op => Call.isElsewhere op = true)
      (operatorLine operator issuer currency) := by
  refine .bind (orThrow_only _) fun limit => .bind (findTrustLine_only ..) fun line => ?_
  cases line with
  | some line => exact .pure
  | none => exact .bind (submitTrustSet_only ..) fun _ => findTrustLine_only ..

/-- The operator has what it needs before a payment. -/
theorem ensureOperatorIouForPayment_tidy (operator : Wallet) (issuer currency needValue : String) :
    Tidy (ensureOperatorIouForPayment lib config operator issuer currency needValue) := by
  refine .bind (tidy_of_only (operatorLine_only ..)) fun line => ?_
  dsimp only
  split
  · exact .throw _
  · split
    · exact .pure ()
    · split
      · exact .throw _
      · refine .bind (topUp_tidy _ _ _ _ _ _ _) fun balance => ?_
        split
        · exact .throw _
        · exact .pure ()

/-- Funding is prepared. -/
theorem prepareFunding_tidy (plan : FundPlan) : Tidy (prepareFunding lib config plan) := by
  unfold prepareFunding
  split
  · exact .bind (tidy_of_only (orThrow_only _)) fun w =>
      .bind (tidy_of_only (ensureTestnetXrpForFees_only w)) fun _ => .pure w
  · exact .bind (tidy_of_only (orThrow_only _)) fun w =>
      .bind (tidy_of_only (ensureTestnetXrpForFees_only w)) fun _ =>
        .bind (ensureOperatorIouForPayment_tidy _ _ _ _) fun _ => .pure w

/-- A wallet is funded. -/
theorem fundInternalWallet_tidy (dto : FundIouWalletDto) : Tidy (fundInternalWallet lib config dto) := by
  refine .bind (tidy_of_only (orThrow_only _)) fun plan => ?_
  refine .bind (tidy_of_only (.call rfl)) fun recipient => .bind (tidy_of_only (.call rfl)) fun _ => ?_
  refine .bind (tidy_of_only (ensureTestnetXrpForFees_only recipient)) fun _ => ?_
  refine .bind (prepareFunding_tidy plan) fun payer => tidy_of_only ?_
  refine .bind (orThrow_only _) fun limit => .bind (submitTrustSet_only ..) fun _ => ?_
  refine .bind (orThrow_only _) fun amount => .bind (.call rfl) fun paid => ?_
  exact .bind (orThrow_only _) fun _ => .pure

/-- A payment in drops is off the path. -/
theorem submitPay_only (amountDrops : String) (source target : Wallet) :
    Only (I := calls) (fun op => Call.isElsewhere op = true) (submitPay amountDrops source target) :=
  .bind (.call rfl) fun _ => .bind (orThrow_only _) fun _ => .pure

/-- So is a round trip. -/
theorem roundtrip_only (amountDrops : String) :
    Only (I := calls) (fun op => Call.isElsewhere op = true) (roundtrip config amountDrops) := by
  refine .bind (orThrow_only _) fun _ => .ite .throw ?_
  refine .bind (.call rfl) fun tenant => .bind (.call rfl) fun landlord => .bind (.call rfl) fun _ => ?_
  exact .bind (submitPay_only ..) fun _ => .bind (submitPay_only ..) fun _ => .pure

/-- Every request closes the path that it opens. -/
theorem handle_tidy (req : Request) : Tidy (handle lib config req) := by
  cases req with
  | connect role approve =>
    exact tidy_of_only (.bind (.call rfl) fun answer => .ite .pure .pure)
  | disconnect role => exact tidy_of_only (.bind (.call rfl) fun _ => .pure)
  | fundIou dto => exact .map (fundInternalWallet_tidy dto)
  | peerXrpRoundtrip amountDrops => exact .map (tidy_of_only (roundtrip_only _))

/-- The request has returned or thrown. -/
def ended (th : WalletThread) : Bool :=
  match th.prog with
  | .await _ _ => false
  | _ => true

/-- The rest of the request obeys the rules, and leaves no path open. -/
abbrev WalletThread.Obeys (th : WalletThread) : Prop :=
  th.Meets (fun _ => pathRules) (fun _ _ l => pathOpen l = false) fun _ _ l => pathOpen l = false

/-- So does every step of the pool. -/
theorem walletStep_obeys {P P' : WalletPool} {a : Act Request Choice}
    (h : walletStep lib config P a = some P') (hP : ∀ th ∈ P.threads, WalletThread.Obeys th) :
    ∀ th ∈ P'.threads, WalletThread.Obeys th :=
  poolStep_meets (fun req => handle_tidy req [] rfl) h hP

end Programs

/-- In every run: while a request has a path open, it pays along it right after the path was
    found, or closes it; and a request that has returned or thrown has no path open. -/
theorem paths_closed (lib : Libraries) (config : Config) {s : Store} {P : WalletPool}
    {ms : List (Move WalletPool (Act Request Choice))}
    (run : Run (walletStep lib config) ⟨s, []⟩ ms P) :
    (∀ m ∈ ms, ∀ th op c, MakesCall m th op c → pathRules th.log op) ∧
      ∀ th ∈ P.threads, ended th = true → pathOpen th.log = false := by
  refine ⟨fun m hm th op c hcall => ?_, fun th hth hended => ?_⟩
  · have hbefore : ∀ u ∈ m.before.threads, WalletThread.Obeys u :=
      run.invariant_before (P := fun P => ∀ u ∈ P.threads, WalletThread.Obeys u) (C := fun _ => True)
        (fun _ _ => trivial) (fun u hu => nomatch hu) (fun m hm _ h => walletStep_obeys hm h) hm
    obtain ⟨i, k, -, hth, hprog⟩ := hcall
    exact (hbefore th (List.mem_of_getElem? hth)).ok_of_await hprog
  · have hobeys : ∀ u ∈ P.threads, WalletThread.Obeys u :=
      run.invariant (P := fun P => ∀ u ∈ P.threads, WalletThread.Obeys u) (C := fun _ => True)
        (fun _ _ => trivial) (fun u hu => nomatch hu) fun m hm _ h => walletStep_obeys hm h
    unfold ended at hended
    split at hended
    · exact nomatch hended
    · rename_i hprog
      cases hp : th.prog with
      | done a => exact (hobeys th hth).of_done hp
      | fail e => exact (hobeys th hth).of_fail hp
      | await op k => exact (hprog op k hp).elim

/-- The exchange offers no path, and the close is refused. -/
def refusedOracle (op : calls.Op) : Choice :=
  match op with
  | .pathFindClose => { sampleOracle "2" "1" op with failure := some "closed" }
  | _ => { sampleOracle "2" "1" op with source := none }

/-- A request has thrown after it asked to close a path. -/
def sampleThrown (P : WalletPool) : Bool :=
  P.threads.any fun th =>
    (match th.prog with
      | .fail _ => true
      | _ => false) &&
    th.log.any fun ev =>
      match ev.op with
      | .pathFindClose => true
      | _ => false

theorem paths_closed_refused :
    ∃ ms P, Run (walletStep sampleLibraries sampleConfig) ⟨.empty, []⟩ ms P ∧
      sampleThrown P = true ∧
      (∀ m ∈ ms, ∀ th op c, MakesCall m th op c → pathRules th.log op) ∧
      ∀ th ∈ P.threads, ended th = true → pathOpen th.log = false := by
  obtain ⟨ms, P, run, hp⟩ := exists_run_of_replay
    (scheduleActs world (handle sampleLibraries sampleConfig)
      (sampleSchedule.take 1 ++ [.run 0 20 refusedOracle]) ⟨.empty, []⟩)
    (fun r => sampleThrown r.2)
    (by decide +kernel :
      (replay (walletStep sampleLibraries sampleConfig) ⟨.empty, []⟩ _ []).any _ = true)
  exact ⟨ms, P, run, hp, paths_closed sampleLibraries sampleConfig run⟩

end Bluesafe.Wallets
