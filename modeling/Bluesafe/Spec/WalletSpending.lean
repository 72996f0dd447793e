import Bluesafe.Async.Monitored
import Bluesafe.Wallet.Service

/-!
# What the internal wallets spend

`spends` is the monitor for everything that the wallet application submits or orders. A
request to `fund-iou` opens trust lines, buys on the exchange and pays as `FundSpend` says, a
round trip pays as `PeerSpend` says, and a wallet is topped up from the faucet only after its
balance could not be read or was too low.

The main result is that every call of every request, in every interleaving and with any failures
of the ledger, is allowed, and that a reply names transactions that the ledger has validated
(`wallet_spends`).
-/

namespace Bluesafe.Wallets

open Async Transition
open Bluesafe.Ops (trim)
open Bluesafe.Lock (Amount TrustLine TxResponse buildIouAmount isDrops normalizeIouCurrencyCode)

-- The checks of the currency decide nothing here; unfolding would run them.
attribute [local irreducible] normalizeIouCurrencyCode

/-! ## Reading the log -/

/-- The request was given this wallet for the role. -/
def RoleWallet (l : WalletLog) (role : WalletRole) (w : Wallet) : Prop :=
  (⟨.getWalletForRole role, .ok w⟩ : Event calls Exception) ∈ l

/-- The ledger has validated the transaction. -/
def Validated (l : WalletLog) (tx : Tx) (w : Wallet) (response : TxResponse) : Prop :=
  (⟨.submitAndWait tx w, .ok response⟩ : Event calls Exception) ∈ l ∧
    response.transactionResult = some "tesSUCCESS"

/-- The wallet of a role stays the one that was found. -/
theorem RoleWallet.later {l l' : WalletLog} {role : WalletRole} {w : Wallet} (h : RoleWallet l role w)
    (hl : l <:+ l') : RoleWallet l' role w :=
  hl.subset h

/-- A payment that was validated stays so. -/
theorem Validated.later {l l' : WalletLog} {tx : Tx} {w : Wallet} {response : TxResponse}
    (h : Validated l tx w response) (hl : l <:+ l') : Validated l' tx w response :=
  ⟨hl.subset h.1, h.2⟩

/-- The call submits a purchase on the exchange. -/
def Call.isBuy : Call → Bool
  | .submitAndWait (.payment _ _ _ (some _)) _ => true
  | _ => false

/-- The call submits a payment from one wallet to another. -/
def Call.isTransfer : Call → Bool
  | .submitAndWait (.payment _ _ _ none) _ => true
  | _ => false

def buys (l : WalletLog) : Nat := l.countP fun ev => Call.isBuy ev.op

def transfers (l : WalletLog) : Nat := l.countP fun ev => Call.isTransfer ev.op

/-- The line found in the newest answer about the lines of the account with the issuer. -/
def heldLine (account issuer code : String) : WalletLog → Option (Option TrustLine)
  | [] => none
  | ⟨.accountLines a i, .ok lines⟩ :: l =>
    if a = account ∧ i = issuer then some (pickLine code lines) else heldLine account issuer code l
  | _ :: l => heldLine account issuer code l

/-- Calls that neither pay nor look at a trust line. -/
def Call.isAside : Call → Bool
  | .accountLines _ _ => false
  | .submitAndWait (.payment _ _ _ _) _ => false
  | _ => true

/-- `l'` tells the same about payments and trust lines as `l`. -/
structure Apart (l l' : WalletLog) : Prop where
  buys : buys l' = buys l
  transfers : transfers l' = transfers l
  held : ∀ account issuer code, heldLine account issuer code l' = heldLine account issuer code l

theorem Apart.refl (l : WalletLog) : Apart l l := ⟨rfl, rfl, fun _ _ _ => rfl⟩

theorem Apart.trans {l l' l'' : WalletLog} (h : Apart l l') (h' : Apart l' l'') : Apart l l'' :=
  ⟨h'.buys.trans h.buys, h'.transfers.trans h.transfers,
    fun a i c => (h'.held a i c).trans (h.held a i c)⟩

/-- A call that spends nothing leaves the account of the request. -/
theorem apart_event (op : Call) (h : op.isAside = true) (r : Except Exception op.Res)
    (l : WalletLog) : Apart l (⟨op, r⟩ :: l) := by
  cases op with
  | accountLines account peer => exact nomatch h
  | submitAndWait tx w =>
    cases tx with
    | trustSet account limit => exact ⟨rfl, rfl, fun _ _ _ => rfl⟩
    | payment account destination amount sendMax => exact nomatch h
  | _ => exact ⟨rfl, rfl, fun _ _ _ => rfl⟩

/-- A call that is no payment is not counted. -/
theorem counts_lines (account peer : String) (r : Except Exception (List Lock.AccountLine))
    (l : WalletLog) :
    buys (⟨.accountLines account peer, r⟩ :: l) = buys l ∧
      transfers (⟨.accountLines account peer, r⟩ :: l) = transfers l :=
  ⟨rfl, rfl⟩

/-- The balance that is held is that of the line that was read. -/
theorem heldLine_read (account issuer code : String) (lines : List Lock.AccountLine)
    (l : WalletLog) :
    heldLine account issuer code (⟨.accountLines account issuer, .ok lines⟩ :: l) =
      some (pickLine code lines) :=
  if_pos ⟨rfl, rfl⟩

/-! ## The monitor -/

/-- The operator has the balance on its line, as it was read last. -/
def Held (lib : Libraries) (plan : FundPlan) (operator : Wallet) (l : WalletLog)
    (balance : lib.numbers.Number) : Prop :=
  ∃ code line, normalizeIouCurrencyCode plan.currency = .ok code ∧
    heldLine operator.classicAddress plan.issuer code l = some line ∧
    balance = lib.numbers.parseFloat ((line.map TrustLine.balance).getD "0")

/-- The wallet of the operator. -/
def IsOperator (lib : Libraries) (plan : FundPlan) (w : Wallet) : Prop :=
  ∃ seed, plan.seed = .operator seed ∧ lib.fromSeed seed = some w

/-- The amount in numbers. -/
def FundPlan.need (plan : FundPlan) (lib : Libraries) : lib.numbers.Number :=
  lib.numbers.parseFloat plan.amount

/-- The wallet may pay: it is the issuer's own, or the operator's, whose balance was not found
    too small. -/
inductive Payer (lib : Libraries) (plan : FundPlan) (l : WalletLog) (w : Wallet) : Prop
  | issuer (seed : String) (hseed : plan.seed = .issuer seed) (hwallet : lib.fromSeed seed = some w)
      (haddress : w.classicAddress = plan.issuer)
  | operator (balance : lib.numbers.Number) (hoperator : IsOperator lib plan w)
      (hheld : Held lib plan w l balance)
      (henough : lib.numbers.le (plan.need lib) balance = true ∨
        lib.numbers.lt balance (plan.need lib) = false)

/-- The limit of the trust lines. -/
def FundPlan.limit (plan : FundPlan) : Except String Amount :=
  buildIouAmount plan.issuer plan.currency "1000000000"

/-- What a request to `fund-iou` may submit. -/
inductive FundSpend (lib : Libraries) (config : Config) (plan : FundPlan) (l : WalletLog) :
    Tx → Wallet → Prop
  /-- The recipient trusts the issuer. -/
  | trust (recipient : Wallet) (limit : Amount) (hlimit : plan.limit = .ok limit)
      (hrole : RoleWallet l plan.role recipient) (hpayer : ∃ payer, Payer lib plan l payer) :
      FundSpend lib config plan l (.trustSet recipient.classicAddress limit) recipient
  /-- The operator trusts the issuer when it has been found that it does not. -/
  | operatorTrust (operator : Wallet) (code : String) (limit : Amount)
      (hlimit : plan.limit = .ok limit) (hoperator : IsOperator lib plan operator)
      (hcode : normalizeIouCurrencyCode plan.currency = .ok code)
      (hnone : heldLine operator.classicAddress plan.issuer code l = some none) :
      FundSpend lib config plan l (.trustSet operator.classicAddress limit) operator
  /-- The operator buys what its balance is short of, on the test network and at most eight
      times, for a tenth more than the path just found costs. -/
  | buy (operator : Wallet) (balance : lib.numbers.Number) (missing : Amount)
      (source : Option SourceAmount) (sendMax : String) (hnetwork : isRippleAltnetTestnet config = true)
      (hoperator : IsOperator lib plan operator) (hbuys : buys l < 8) (htransfers : transfers l = 0)
      (hheld : Held lib plan operator l balance)
      (hshort : lib.numbers.lt balance (plan.need lib) = true)
      (hmissing : buildIouAmount plan.issuer plan.currency
        (shortfall lib.numbers (plan.need lib) balance) = .ok missing)
      (hpath : l.head? = some
        ⟨.pathFindCreate operator.classicAddress operator.classicAddress missing, .ok source⟩)
      (hmax : sendMaxFor source = .ok sendMax) :
      FundSpend lib config plan l
        (.payment operator.classicAddress operator.classicAddress missing (some sendMax)) operator
  /-- The amount is paid once, by a wallet that may pay, after the line of the recipient is
      validated. -/
  | pay (payer recipient : Wallet) (limit amount : Amount) (response : TxResponse)
      (hlimit : plan.limit = .ok limit) (hrole : RoleWallet l plan.role recipient)
      (hamount : buildIouAmount plan.issuer plan.currency plan.amount = .ok amount)
      (hpayer : Payer lib plan l payer) (htransfers : transfers l = 0)
      (htrust : Validated l (.trustSet recipient.classicAddress limit) recipient response) :
      FundSpend lib config plan l
        (.payment payer.classicAddress recipient.classicAddress amount none) payer

/-- The payment of a round trip from one wallet to the other. -/
def peerPayment (amountDrops : String) (source target : Wallet) : Tx :=
  .payment source.classicAddress target.classicAddress (.drops amountDrops) none

/-- What a round trip may submit: the payment of the tenant, and when it is validated, the same
    amount back. -/
inductive PeerSpend (config : Config) (amountDrops : String) (l : WalletLog) : Tx → Wallet → Prop
  | forth (tenant landlord : Wallet) (hnetwork : assertTestnet config = .ok ())
      (hdrops : isDrops amountDrops = true) (htenant : RoleWallet l .tenant tenant)
      (hlandlord : RoleWallet l .landlord landlord) (htransfers : transfers l = 0) :
      PeerSpend config amountDrops l (peerPayment amountDrops tenant landlord) tenant
  | back (tenant landlord : Wallet) (response : TxResponse) (hnetwork : assertTestnet config = .ok ())
      (htenant : RoleWallet l .tenant tenant) (hlandlord : RoleWallet l .landlord landlord)
      (htransfers : transfers l = 1)
      (hforth : Validated l (peerPayment amountDrops tenant landlord) tenant response) :
      PeerSpend config amountDrops l (peerPayment amountDrops landlord tenant) landlord

/-- The balance of the account could not be read just before, or it was too low. -/
def LowOnXrp (account : String) (l : WalletLog) : Prop :=
  ∃ r : Except Exception Nat, l.head? = some ⟨.accountInfo account, r⟩ ∧ ∀ drops, r = .ok drops → drops < 10000000

/-- `amountDrops` of a round trip. -/
def dropsOf (amountDrops : Option String) : String :=
  (Ops.truthy (amountDrops.map trim)).getD "1000000"

/-- What a request may submit. -/
def mayPay (lib : Libraries) (config : Config) : Request → WalletLog → Tx → Wallet → Prop
  | .fundIou dto, l, tx, w => ∃ plan, fundPlan config dto = .ok plan ∧ FundSpend lib config plan l tx w
  | .peerXrpRoundtrip amountDrops, l, tx, w => PeerSpend config (dropsOf amountDrops) l tx w
  | _, _, _, _ => False

/-- What a request may call. -/
def spends (lib : Libraries) (config : Config) (req : Request) (l : WalletLog) : Call → Prop
  | .submitAndWait tx w => mayPay lib config req l tx w
  | .fundWallet account => LowOnXrp account l
  | _ => True

/-- The request has connected this wallet. -/
def ConnectedWallet (l : WalletLog) (role : WalletRole) (w : Wallet) : Prop :=
  ∃ approve wasConnected,
    (⟨.connect role approve, .ok (w, wasConnected)⟩ : Event calls Exception) ∈ l

/-- The transactions that a reply names are validated, and its addresses are those of wallets
    that the request was given. -/
def earned (lib : Libraries) (config : Config) : Request → Reply → WalletLog → Prop
  | .fundIou dto, .funded reply, l => ∃ plan recipient payer limit amount trusted paid,
      fundPlan config dto = .ok plan ∧ RoleWallet l plan.role recipient ∧ Payer lib plan l payer ∧
      plan.limit = .ok limit ∧
      buildIouAmount plan.issuer plan.currency plan.amount = .ok amount ∧
      Validated l (.trustSet recipient.classicAddress limit) recipient trusted ∧
      Validated l (.payment payer.classicAddress recipient.classicAddress amount none) payer paid ∧
      reply.role = plan.role ∧ reply.address = recipient.classicAddress ∧
      reply.trustSetTxHash = trusted.hash ∧ reply.paymentTxHash = paid.hash ∧ transfers l = 1
  | .peerXrpRoundtrip amountDrops, .roundtrip reply, l => ∃ tenant landlord forth back,
      RoleWallet l .tenant tenant ∧ RoleWallet l .landlord landlord ∧
      Validated l (peerPayment (dropsOf amountDrops) tenant landlord) tenant forth ∧
      Validated l (peerPayment (dropsOf amountDrops) landlord tenant) landlord back ∧
      reply.tenantAddress = tenant.classicAddress ∧
      reply.landlordAddress = landlord.classicAddress ∧
      reply.tenantToLandlordTxHash = forth.hash ∧ reply.landlordToTenantTxHash = back.hash ∧
      transfers l = 2
  | .connect _ _, .connected _ role address _ _, l =>
      (∃ w, ConnectedWallet l role w ∧ address = w.classicAddress) ∧ transfers l = 0
  | .connect _ _, .declined _, l => transfers l = 0
  | .disconnect _, .disconnected _ _, l => transfers l = 0
  | _, _, _ => False

/-! ## What the functions share -/

section Programs

variable {lib : Libraries} {config : Config} {req : Request} {l : WalletLog} {α : Type}

/-- A synchronous function makes no calls. -/
theorem orThrow_gives {ok : WalletLog → Call → Prop} {x : Except Exception α}
    {R : α → WalletLog → Prop} (h : ∀ a, x = .ok a → R a l) :
    Gives (I := calls) ok (orThrow x) R l := by
  cases x with
  | ok a => exact h a rfl
  | error e => trivial

/-- An error that is wrapped leaves a result alone. -/
theorem asError_ok {x : Except String α} {a : α} (h : asError x = .ok a) : x = .ok a := by
  cases x with
  | ok b =>
    cases h
    rfl
  | error e => exact nomatch h

/-- A transaction counts when the ledger has answered with a success. -/
theorem assertTxSuccess_ok {response : TxResponse} {u : Unit}
    (h : assertTxSuccess response = .ok u) : response.transactionResult = some "tesSUCCESS" := by
  have hassert := asError_ok h
  unfold Lock.assertTxSuccess at hassert
  split at hassert
  · exact nomatch hassert
  · rename_i result hresult
    split at hassert
    · exact nomatch hassert
    · rename_i hsuccess
      rw [hresult, Decidable.not_not.mp hsuccess]

/-- The connection spends nothing. -/
theorem getClient_gives : Gives (spends lib config req) (request .getClient) (fun _ => Apart l) l :=
  Gives.call trivial fun _ => apart_event _ rfl _ l

/-- The faucet is asked only for a wallet that is low on XRP. -/
theorem ensureTestnetXrpForFees_gives (w : Wallet) :
    Gives (spends lib config req) (ensureTestnetXrpForFees w) (fun _ => Apart l) l := by
  unfold ensureTestnetXrpForFees
  refine Gives.bind getClient_gives fun _ l₁ _ h₁ => ?_
  refine Gives.bind (R := fun funded l₂ =>
    Apart l l₂ ∧ (funded = false → LowOnXrp w.classicAddress l₂)) ?_ fun funded l₂ _ h₂ => ?_
  -- a balance that cannot be read counts as low
  · refine wp_monitor_tryCatch (F := fun _ l₂ => Apart l l₂ ∧ LowOnXrp w.classicAddress l₂) ?_
      fun e l₂ _ h => ⟨h.1, fun _ => h.2⟩
    refine wp_monitor_bind (R := fun drops l₂ =>
      Apart l l₂ ∧ (drops < 10000000 → LowOnXrp w.classicAddress l₂)) ?_ fun drops l₂ _ h => ?_
    · refine wp_monitor_call trivial (fun drops => ?_) fun e => ?_
      · exact ⟨h₁.trans (apart_event _ rfl _ _), fun hlow => ⟨.ok drops, rfl, fun _ h => by cases h; exact hlow⟩⟩
      · exact ⟨h₁.trans (apart_event _ rfl _ _), .error e, rfl, fun _ h => nomatch h⟩
    · exact ⟨h.1, fun hlow => h.2 (Nat.not_le.mp (of_decide_eq_false hlow))⟩
  -- only a wallet that is low goes to the faucet
  · cases funded with
    | true => exact Gives.pure h₂.1
    | false => exact Gives.call (h₂.2 rfl) fun _ => h₂.1.trans (apart_event _ rfl _ _)

/-- A trust line that is opened is validated. -/
theorem submitTrustSet_gives {owner : Wallet} {limit : Amount}
    (hpay : ∀ l', l <:+ l' → Apart l l' →
      mayPay lib config req l' (.trustSet owner.classicAddress limit) owner) :
    Gives (spends lib config req) (submitTrustSet owner limit)
      (fun hash l' => Apart l l' ∧ ∃ response, hash = response.hash ∧
        Validated l' (.trustSet owner.classicAddress limit) owner response) l := by
  unfold submitTrustSet
  refine Gives.bind getClient_gives fun _ l₁ hl₁ h₁ => ?_
  refine Gives.call_bind (hpay l₁ hl₁ h₁) fun response => ?_
  split
  · exact Gives.throw
  · rename_i result hresult
    split
    · exact Gives.throw
    · rename_i hsuccess
      refine Gives.pure ⟨h₁.trans (apart_event _ rfl _ _), response, rfl, List.mem_cons_self, ?_⟩
      rw [hresult, Decidable.not_not.mp hsuccess]

end Programs

/-! ## The payment of the operator -/

section Operator

variable {lib : Libraries} {config : Config} {dto : FundIouWalletDto} {plan : FundPlan}
  {operator : Wallet} {l : WalletLog}

/-- The counts of `l`, at most `n` purchases and no payment. -/
structure BoughtAtMost (n : Nat) (l : WalletLog) : Prop where
  buys : buys l ≤ n
  transfers : transfers l = 0

/-- What was bought is not changed by calls that spend nothing. -/
theorem BoughtAtMost.apart {n : Nat} {l l' : WalletLog} (h : BoughtAtMost n l) (hl : Apart l l') :
    BoughtAtMost n l' :=
  ⟨hl.buys.trans_le h.buys, hl.transfers.trans h.transfers⟩

/-- Nor by a look at the lines. -/
theorem BoughtAtMost.lines {n : Nat} {l : WalletLog} (h : BoughtAtMost n l) (account peer : String)
    (r : Except Exception (List Lock.AccountLine)) :
    BoughtAtMost n (⟨.accountLines account peer, r⟩ :: l) :=
  ⟨(counts_lines account peer r l).1.trans_le h.buys,
    (counts_lines account peer r l).2.trans h.transfers⟩

/-- A purchase adds one. -/
theorem BoughtAtMost.buy {n : Nat} {l : WalletLog} (h : BoughtAtMost n l)
    {account destination : String} {amount : Amount} {sendMax : String} {w : Wallet}
    (r : Except Exception TxResponse) :
    BoughtAtMost (n + 1)
      (⟨.submitAndWait (.payment account destination amount (some sendMax)) w, r⟩ :: l) := by
  refine ⟨?_, h.transfers⟩
  show List.countP _ (_ :: l) ≤ n + 1
  rw [List.countP_cons]
  exact Nat.add_le_add h.buys (Nat.le_of_eq rfl)

/-- What `findTrustLine` returns is the line that was read last. -/
theorem findTrustLine_gives {n : Nat} (h : BoughtAtMost n l) :
    Gives (spends lib config (.fundIou dto))
      (findTrustLine operator.classicAddress plan.issuer plan.currency)
      (fun line l' => BoughtAtMost n l' ∧ ∃ code, normalizeIouCurrencyCode plan.currency = .ok code ∧
        heldLine operator.classicAddress plan.issuer code l' = some line) l := by
  unfold findTrustLine
  refine Gives.bind (orThrow_gives (R := fun code l' =>
    normalizeIouCurrencyCode plan.currency = .ok code ∧ l' = l) fun code hcode =>
      ⟨asError_ok hcode, rfl⟩) fun code l₁ _ h₁ => ?_
  obtain ⟨hcode, rfl⟩ := h₁
  refine Gives.call_bind trivial fun lines => ?_
  exact Gives.pure ⟨h.lines _ _ _, code, hcode, heldLine_read ..⟩

/-- Closing a path changes no count. -/
theorem closePath_gives {req : Request} :
    Gives (spends lib config req) closePath (fun _ => Apart l) l :=
  wp_monitor_tryCatch (F := fun _ => Apart l)
    (wp_monitor_call trivial (fun _ => apart_event _ rfl _ l) fun _ => apart_event _ rfl _ l)
    fun _ _ _ h => h

/-- One purchase, of what the balance is short of. -/
theorem buyIouWithXrpViaPathFind_gives {n : Nat} {balance : lib.numbers.Number}
    (hplan : fundPlan config dto = .ok plan) (hoperator : IsOperator lib plan operator)
    (hnetwork : isRippleAltnetTestnet config = true) (hn : n < 8) (h : BoughtAtMost n l)
    (hheld : Held lib plan operator l balance)
    (hshort : lib.numbers.lt balance (plan.need lib) = true) :
    Gives (spends lib config (.fundIou dto))
      (buyIouWithXrpViaPathFind operator plan.issuer plan.currency
        (shortfall lib.numbers (plan.need lib) balance))
      (fun _ => BoughtAtMost (n + 1)) l := by
  unfold buyIouWithXrpViaPathFind
  -- what is missing is an amount that can be built
  refine Gives.bind (orThrow_gives (R := fun missing l' =>
    buildIouAmount plan.issuer plan.currency
      (shortfall lib.numbers (plan.need lib) balance) = .ok missing ∧ l' = l) fun missing hmissing =>
        ⟨asError_ok hmissing, rfl⟩) fun missing l₁ _ h₁ => ?_
  obtain ⟨hmissing, rfl⟩ := h₁
  refine Gives.call_bind trivial fun source => ?_
  have hfound := apart_event (.pathFindCreate operator.classicAddress operator.classicAddress missing)
    rfl (.ok source) l₁
  have hmore : ∀ {l'}, BoughtAtMost n l' → BoughtAtMost (n + 1) l' := fun h =>
    ⟨Nat.le_succ_of_le h.buys, h.transfers⟩
  refine Gives.bind (R := fun _ => BoughtAtMost (n + 1)) ?_ fun paid l₂ _ h₂ => ?_
  -- whether or not the payment goes through, one purchase more was made at most
  · refine wp_monitor_tryCatch (F := fun _ => BoughtAtMost (n + 1)) ?_ fun _ _ _ h => h
    refine wp_monitor_bind (R := fun _ => BoughtAtMost (n + 1)) ?_ fun _ _ _ h => h
    unfold payAlongPath
    cases hmax : sendMaxFor source with
    | error e => exact hmore (h.apart hfound)
    | ok sendMax =>
      show wp (monitor _) (request _ >>= _) _ _ _
      refine wp_monitor_bind (R := fun _ => BoughtAtMost (n + 1)) ?_ fun response l₂ _ h₂ => ?_
      -- the purchase: on the test network, along a path, and for no more than is missing
      · refine wp_monitor_call ?_ (fun _ => (h.apart hfound).buy _) fun _ => (h.apart hfound).buy _
        refine ⟨plan, hplan, .buy operator balance missing source sendMax hnetwork hoperator ?_ ?_ ?_
          hshort hmissing rfl hmax⟩
        · exact Nat.lt_of_le_of_lt (h.apart hfound).buys hn
        · exact (h.apart hfound).transfers
        · exact hheld
      · cases hsuccess : assertTxSuccess response with
        | ok u => exact h₂
        | error e => exact h₂
  -- the path is closed, and then the error goes on
  · refine Gives.bind closePath_gives fun _ l₃ _ h₃ => ?_
    exact orThrow_gives fun _ _ => h₂.apart h₃

/-- The loop buys at most as often as it may. -/
theorem topUp_gives {n left : Nat} {balance : lib.numbers.Number}
    (hplan : fundPlan config dto = .ok plan) (hoperator : IsOperator lib plan operator)
    (hnetwork : isRippleAltnetTestnet config = true) (hn : n + left ≤ 8) (h : BoughtAtMost n l)
    (hheld : Held lib plan operator l balance) :
    Gives (spends lib config (.fundIou dto))
      (topUp lib.numbers operator plan.issuer plan.currency (plan.need lib) left balance)
      (fun balance' l' => transfers l' = 0 ∧ Held lib plan operator l' balance') l := by
  induction left generalizing n balance l with
  | zero => exact ⟨h.transfers, hheld⟩
  | succ left ih =>
    unfold topUp
    split
    · rename_i hshort
      refine Gives.bind (buyIouWithXrpViaPathFind_gives hplan hoperator hnetwork (by omega) h hheld
        hshort) fun _ l₁ _ h₁ => ?_
      refine Gives.bind (findTrustLine_gives h₁) fun line l₂ _ h₂ => ?_
      obtain ⟨hcount, code, hcode, hline⟩ := h₂
      exact ih (by omega) hcount ⟨code, line, hcode, hline, rfl⟩
    · exact ⟨h.transfers, hheld⟩

/-- The operator has a trust line, or its newest line is the answer to the search after the
    line was opened. -/
theorem operatorLine_gives (hplan : fundPlan config dto = .ok plan)
    (hoperator : IsOperator lib plan operator) (h : BoughtAtMost 0 l) :
    Gives (spends lib config (.fundIou dto))
      (operatorLine operator plan.issuer plan.currency)
      (fun line l' => BoughtAtMost 0 l' ∧ ∃ code, normalizeIouCurrencyCode plan.currency = .ok code ∧
        heldLine operator.classicAddress plan.issuer code l' = some line) l := by
  unfold operatorLine
  refine Gives.bind (orThrow_gives (R := fun limit l' => plan.limit = .ok limit ∧ l' = l)
    fun limit hlimit => ⟨asError_ok hlimit, rfl⟩) fun limit l₁ _ h₁ => ?_
  obtain ⟨hlimit, rfl⟩ := h₁
  refine Gives.bind (findTrustLine_gives h) fun line l₂ _ h₂ => ?_
  -- a line that is there is taken as it is
  cases line with
  | some line => exact h₂
  | none =>
    obtain ⟨hcount, code, hcode, hnone⟩ := h₂
    -- without one it is set to the limit of the plan, and read again
    refine Gives.bind (submitTrustSet_gives fun l₃ _ h₃ => ?_) fun _ l₃ _ h₃ => ?_
    · refine ⟨plan, hplan, .operatorTrust operator code limit hlimit hoperator hcode ?_⟩
      rw [h₃.held]
      exact hnone
    · exact findTrustLine_gives (hcount.apart h₃.1)

/-- Afterwards the balance that was read last is not too small. -/
theorem ensureOperatorIouForPayment_gives (hplan : fundPlan config dto = .ok plan)
    (hoperator : IsOperator lib plan operator) (h : BoughtAtMost 0 l) :
    Gives (spends lib config (.fundIou dto))
      (ensureOperatorIouForPayment lib config operator plan.issuer plan.currency plan.amount)
      (fun _ l' => transfers l' = 0 ∧ Payer lib plan l' operator) l := by
  unfold ensureOperatorIouForPayment
  refine Gives.bind (operatorLine_gives hplan hoperator h) fun line l₁ _ h₁ => ?_
  obtain ⟨hcount, code, hcode, hline⟩ := h₁
  have hheld : Held lib plan operator l₁ _ := ⟨code, line, hcode, hline, rfl⟩
  -- enough already, or topped up in eight purchases at most
  dsimp only
  split
  · exact Gives.throw
  · split
    · rename_i henough
      exact ⟨hcount.transfers, .operator _ hoperator hheld (.inl henough)⟩
    · split
      · exact Gives.throw
      · rename_i hnetwork
        simp only [Bool.not_eq_true, Bool.not_eq_false'] at hnetwork
        refine Gives.bind (topUp_gives hplan hoperator hnetwork (Nat.le_refl 8) hcount hheld)
          fun balance l₂ _ h₂ => ?_
        split
        · exact Gives.throw
        · rename_i hshort
          exact ⟨h₂.1, .operator balance hoperator h₂.2 (.inr (Bool.not_eq_true _ ▸ hshort))⟩

end Operator

/-! ## Requests -/

section Requests

variable {lib : Libraries} {config : Config} {dto : FundIouWalletDto} {plan : FundPlan}
  {l : WalletLog}

/-- A wallet from a seed is the one of the library. -/
theorem walletFromSeed_ok {seed : String} {w : Wallet} (h : lib.walletFromSeed seed = .ok w) :
    lib.fromSeed seed = some w := by
  unfold Libraries.walletFromSeed at h
  split at h
  · rename_i wallet hwallet
    cases h
    exact hwallet
  · exact nomatch h

/-- The wallet of the issuer has the address of the issuer. -/
theorem issuerWallet_ok {issuer seed : String} {w : Wallet} (h : issuerWallet lib issuer seed = .ok w) :
    lib.fromSeed seed = some w ∧ w.classicAddress = issuer := by
  unfold issuerWallet at h
  cases hwallet : lib.walletFromSeed seed with
  | error e =>
    rw [hwallet] at h
    exact nomatch h
  | ok wallet =>
    rw [hwallet] at h
    dsimp only [bind, Except.bind] at h
    split at h
    · exact nomatch h
    · rename_i haddress
      cases h
      exact ⟨walletFromSeed_ok hwallet, Decidable.not_not.mp haddress⟩

/-- What makes a wallet a payer is its line only. -/
theorem Payer.keep {w : Wallet} {l' : WalletLog} (h : Payer lib plan l w)
    (hl : ∀ account issuer code, heldLine account issuer code l' = heldLine account issuer code l) :
    Payer lib plan l' w := by
  cases h with
  | issuer seed hseed hwallet haddress => exact .issuer seed hseed hwallet haddress
  | operator balance hoperator hheld henough =>
    obtain ⟨code, line, hcode, hline, hbalance⟩ := hheld
    exact .operator balance hoperator ⟨code, line, hcode, (hl _ _ _).trans hline, hbalance⟩ henough

/-- The wallet that is found may pay. -/
theorem prepareFunding_gives (hplan : fundPlan config dto = .ok plan) (h : BoughtAtMost 0 l) :
    Gives (spends lib config (.fundIou dto)) (prepareFunding lib config plan)
      (fun w l' => transfers l' = 0 ∧ Payer lib plan l' w) l := by
  unfold prepareFunding
  -- the issuer pays with what it issues, or the operator with what it has
  split
  · rename_i seed hseed
    refine Gives.bind (orThrow_gives (R := fun w l' => Payer lib plan l w ∧ l' = l) fun w hw =>
      ⟨.issuer seed hseed (issuerWallet_ok hw).1 (issuerWallet_ok hw).2, rfl⟩) fun w l₁ _ h₁ => ?_
    obtain ⟨hpayer, rfl⟩ := h₁
    refine Gives.bind (ensureTestnetXrpForFees_gives w) fun _ l₂ _ h₂ => ?_
    exact Gives.pure ⟨(h.apart h₂).transfers, hpayer.keep h₂.held⟩
  · rename_i seed hseed
    refine Gives.bind (orThrow_gives (R := fun w l' => IsOperator lib plan w ∧ l' = l) fun w hw =>
      ⟨⟨seed, hseed, walletFromSeed_ok hw⟩, rfl⟩) fun w l₁ _ h₁ => ?_
    obtain ⟨hoperator, rfl⟩ := h₁
    refine Gives.bind (ensureTestnetXrpForFees_gives w) fun _ l₂ _ h₂ => ?_
    refine Gives.bind (ensureOperatorIouForPayment_gives hplan hoperator (h.apart h₂))
      fun _ l₃ _ h₃ => ?_
    exact Gives.pure h₃

/-- A transfer counts once. -/
theorem transfers_pay (account destination : String) (amount : Amount) (w : Wallet)
    (r : Except Exception TxResponse) (l : WalletLog) :
    transfers (⟨.submitAndWait (.payment account destination amount none) w, r⟩ :: l) =
      transfers l + 1 :=
  List.countP_cons_of_pos rfl

/-- At the start nothing is bought. -/
theorem boughtAtMost_nil : BoughtAtMost 0 [] := ⟨Nat.le_refl 0, rfl⟩

/-- Funding spends what its rules allow, and earns its reply. -/
theorem fundInternalWallet_gives (dto : FundIouWalletDto) :
    Gives (spends lib config (.fundIou dto)) (fundInternalWallet lib config dto)
      (fun reply => earned lib config (.fundIou dto) (.funded reply)) [] := by
  unfold fundInternalWallet
  refine Gives.bind (orThrow_gives (R := fun plan l => fundPlan config dto = .ok plan ∧ l = [])
    fun plan hplan => ⟨hplan, rfl⟩) fun plan l₀ _ h₀ => ?_
  obtain ⟨hplan, rfl⟩ := h₀
  refine Gives.call_bind trivial fun recipient => ?_
  -- the wallet of the role is the one that receives
  have hrole : RoleWallet [⟨.getWalletForRole plan.role, .ok recipient⟩] plan.role recipient :=
    List.mem_singleton.mpr rfl
  have hstart := boughtAtMost_nil.apart
    (apart_event (.getWalletForRole plan.role) rfl (.ok recipient) [])
  refine Gives.bind getClient_gives fun _ l₁ hl₁ h₁ => ?_
  refine Gives.bind (ensureTestnetXrpForFees_gives recipient) fun _ l₂ hl₂ h₂ => ?_
  refine Gives.bind (prepareFunding_gives hplan ((hstart.apart h₁).apart h₂))
    fun payer l₃ hl₃ h₃ => ?_
  obtain ⟨hnone, hpayer⟩ := h₃
  have hrole₃ := hrole.later (hl₁.trans (hl₂.trans hl₃))
  refine Gives.bind (orThrow_gives (R := fun limit l => plan.limit = .ok limit ∧ l = l₃)
    fun limit hlimit => ⟨asError_ok hlimit, rfl⟩) fun limit l₄ _ h₄ => ?_
  obtain ⟨hlimit, rfl⟩ := h₄
  refine Gives.bind (submitTrustSet_gives fun l hl h => ?_) fun trustSetTxHash l₅ hl₅ h₅ => ?_
  -- the recipient has to trust the issuer first
  · exact ⟨plan, hplan, .trust recipient limit hlimit (hrole₃.later hl) ⟨payer, hpayer.keep h.held⟩⟩
  obtain ⟨h₅, trusted, rfl, htrusted⟩ := h₅
  refine Gives.bind (orThrow_gives (R := fun amount l =>
    buildIouAmount plan.issuer plan.currency plan.amount = .ok amount ∧ l = l₅) fun amount hamount =>
      ⟨asError_ok hamount, rfl⟩) fun amount l₆ _ h₆ => ?_
  obtain ⟨hamount, rfl⟩ := h₆
  have hrole₆ := hrole₃.later hl₅
  have hnone₆ : transfers l₆ = 0 := h₅.transfers.trans hnone
  -- the one transfer of the request, behind the line and the purchases
  refine Gives.call_bind ⟨plan, hplan, .pay payer recipient limit amount trusted hlimit hrole₆
    hamount (hpayer.keep h₅.held) hnone₆ htrusted⟩ fun paid => ?_
  refine Gives.bind (orThrow_gives (R := fun _ l => paid.transactionResult = some "tesSUCCESS" ∧
    l = ⟨.submitAndWait (.payment payer.classicAddress recipient.classicAddress amount none) payer,
      .ok paid⟩ :: l₆) fun _ hpaid => ⟨assertTxSuccess_ok hpaid, rfl⟩) fun _ l₇ _ h₇ => ?_
  -- a reply is given when the payment has succeeded
  obtain ⟨hsuccess, rfl⟩ := h₇
  refine Gives.pure ⟨plan, recipient, payer, limit, amount, trusted, paid, hplan,
    hrole₆.later (List.suffix_cons _ _), ?_, hlimit, hamount,
    htrusted.later (List.suffix_cons _ _), ⟨List.mem_cons_self, hsuccess⟩, rfl, rfl, rfl, rfl, ?_⟩
  · exact (hpayer.keep h₅.held).keep fun _ _ _ => rfl
  · rw [transfers_pay, hnone₆]

/-- A payment of a round trip is validated and counts once. -/
theorem submitPay_gives {amountDrops : Option String} {source target : Wallet}
    (hpay : PeerSpend config (dropsOf amountDrops) l (peerPayment (dropsOf amountDrops) source target)
      source) :
    Gives (spends lib config (.peerXrpRoundtrip amountDrops))
      (submitPay (dropsOf amountDrops) source target)
      (fun hash l' => transfers l' = transfers l + 1 ∧ ∃ response, hash = response.hash ∧
        Validated l' (peerPayment (dropsOf amountDrops) source target) source response) l := by
  unfold submitPay
  refine Gives.call_bind hpay fun response => ?_
  refine Gives.bind (orThrow_gives (R := fun _ l' => response.transactionResult = some "tesSUCCESS" ∧
    l' = ⟨.submitAndWait (peerPayment (dropsOf amountDrops) source target) source, .ok response⟩ :: l)
    fun _ h => ⟨assertTxSuccess_ok h, rfl⟩) fun _ l₁ _ h₁ => ?_
  obtain ⟨hsuccess, rfl⟩ := h₁
  exact Gives.pure ⟨transfers_pay .., response, rfl, List.mem_cons_self, hsuccess⟩

/-- So does a round trip. -/
theorem roundtrip_gives (amountDrops : Option String) :
    Gives (spends lib config (.peerXrpRoundtrip amountDrops)) (roundtrip config (dropsOf amountDrops))
      (fun reply => earned lib config (.peerXrpRoundtrip amountDrops) (.roundtrip reply)) [] := by
  unfold roundtrip
  refine Gives.bind (orThrow_gives (R := fun _ l => assertTestnet config = .ok () ∧ l = [])
    fun _ hnetwork => ⟨hnetwork, rfl⟩) fun _ l₀ _ h₀ => ?_
  obtain ⟨hnetwork, rfl⟩ := h₀
  split
  · exact Gives.throw
  -- two payments of the same amount, one each way
  · rename_i hdrops
    refine Gives.call_bind trivial fun tenant => ?_
    refine Gives.call_bind trivial fun landlord => ?_
    refine Gives.bind getClient_gives fun _ l₁ hl₁ h₁ => ?_
    have htenant : RoleWallet l₁ .tenant tenant :=
      hl₁.subset (List.mem_cons_of_mem _ List.mem_cons_self)
    have hlandlord : RoleWallet l₁ .landlord landlord := hl₁.subset List.mem_cons_self
    have hnone : transfers l₁ = 0 := h₁.transfers
    refine Gives.bind (submitPay_gives (.forth tenant landlord hnetwork
      (Bool.not_eq_false _ ▸ hdrops) htenant hlandlord hnone)) fun _ l₂ hl₂ h₂ => ?_
    obtain ⟨hone, forth, rfl, hforth⟩ := h₂
    -- the way back comes behind the way forth
    rw [hnone] at hone
    refine Gives.bind (submitPay_gives (.back tenant landlord forth hnetwork (htenant.later hl₂)
      (hlandlord.later hl₂) hone hforth)) fun _ l₃ hl₃ h₃ => ?_
    obtain ⟨htwo, back, rfl, hback⟩ := h₃
    rw [hone] at htwo
    exact Gives.pure ⟨tenant, landlord, forth, back, htenant.later (hl₂.trans hl₃),
      hlandlord.later (hl₂.trans hl₃), hforth.later hl₃, hback, rfl, rfl, rfl, rfl, htwo⟩

/-- Every request spends as the monitor says, and earns its reply. -/
theorem handle_gives (req : Request) :
    Gives (spends lib config req) (handle lib config req) (earned lib config req) [] := by
  cases req with
  | connect role approve =>
    refine Gives.call_bind trivial fun answer => ?_
    dsimp only
    split
    · exact Gives.pure rfl
    · exact Gives.pure ⟨⟨answer.1, ⟨_, _, List.mem_cons_self⟩, rfl⟩, rfl⟩
  | disconnect role => exact Gives.call_bind trivial fun _ => Gives.pure rfl
  | fundIou dto => exact Gives.map (fundInternalWallet_gives dto)
  | peerXrpRoundtrip amountDrops => exact Gives.map (roundtrip_gives amountDrops)

end Requests

/-! ## Runs -/

/-- The rest of the request spends as the monitor says, and earns its reply. -/
abbrev WalletThread.Spends (lib : Libraries) (config : Config) (th : WalletThread) : Prop :=
  th.Gives (spends lib config) (earned lib config)

/-- So does every step of the pool. -/
theorem walletStep_spends {lib : Libraries} {config : Config} {P P' : WalletPool}
    {a : Act Request Choice} (h : walletStep lib config P a = some P')
    (hP : ∀ th ∈ P.threads, WalletThread.Spends lib config th) :
    ∀ th ∈ P'.threads, WalletThread.Spends lib config th :=
  poolStep_gives handle_gives h hP

/-- In every run, whatever else is in progress and whatever the ledger refuses: a request
    submits only the transactions that `spends` allows after its earlier calls, and a request
    that has returned names transactions that are validated. -/
theorem wallet_spends (lib : Libraries) (config : Config) {s : Store} {P : WalletPool}
    {ms : List (Move WalletPool (Act Request Choice))}
    (run : Run (walletStep lib config) ⟨s, []⟩ ms P) :
    (∀ m ∈ ms, ∀ th op c, MakesCall m th op c → spends lib config th.req th.log op) ∧
      ∀ th ∈ P.threads, ∀ reply, th.prog = .done reply → earned lib config th.req reply th.log := by
  refine ⟨fun m hm th op c hcall => ?_, fun th hth reply hdone => ?_⟩
  · have hbefore : ∀ u ∈ m.before.threads, WalletThread.Spends lib config u :=
      run.invariant_before (P := fun P => ∀ u ∈ P.threads, WalletThread.Spends lib config u)
        (C := fun _ => True) (fun _ _ => trivial) (fun u hu => nomatch hu)
        (fun m hm _ h => walletStep_spends hm h) hm
    obtain ⟨i, k, -, hth, hprog⟩ := hcall
    exact (hbefore th (List.mem_of_getElem? hth)).ok_of_await hprog
  · have hspends : ∀ u ∈ P.threads, WalletThread.Spends lib config u :=
      run.invariant (P := fun P => ∀ u ∈ P.threads, WalletThread.Spends lib config u)
        (C := fun _ => True) (fun _ _ => trivial) (fun u hu => nomatch hu)
        fun m hm _ h => walletStep_spends hm h
    exact (hspends th hth).of_done hdone

/-- Whole numbers; `none` is `NaN`. -/
def wholeNumbers : Numbers where
  Number := Option Int
  parseFloat s := (digits? 10 s.toList).map Int.ofNat
  isFinite := Option.isSome
  sub x y := x.bind fun a => y.map (a - ·)
  lt x y := x.any fun a => y.any (a < ·)
  le x y := x.any fun a => y.any (a ≤ ·)
  zero := some 0
  toFixed x := x.elim "NaN" fun a => toString a ++ ".0000000000"
  text x := x.elim "NaN" toString

def sampleWallet (address : String) : Wallet := ⟨⟨address, none⟩, "ED"⟩

def sampleLibraries : Libraries where
  fromSeed seed := if seed = "sEdOperator" then some (sampleWallet "rOperator") else none
  numbers := wholeNumbers

/-- A server with the wallet of the operator, on the test network. -/
def sampleConfig : Config where
  xrplOperatorSeed := some "sEdOperator"
  xrplNetworkUrl := some "wss://s.altnet.rippletest.net:51233"

/-- Every account has enough XRP, the operator holds `balance`, and transactions succeed. -/
def sampleOracle (balance suffix : String) : calls.Op → Choice := fun op =>
  { generated := sampleWallet (match op with
      | .getWalletForRole role => role.text ++ suffix
      | _ => "unused")
    drops := 20000000
    lines := [⟨some "USD", some "1000", some balance⟩]
    source := some (.drops "100")
    response := ⟨"H", some "tesSUCCESS", none, none, none, none⟩ }

/-- The operator of `sampleConfig` funds the tenant, and buys first what it is short of; meanwhile
    the wallets make a round trip. -/
def sampleSchedule : List (Turn calls Request Choice) :=
  [.start (.fundIou { issuer := some "rIssuer", currency := some "usd", amount := some "5" }),
    .run 0 10 (sampleOracle "2" "1"), .start (.peerXrpRoundtrip none),
    .run 1 4 (sampleOracle "2" "2"), .run 0 10 (sampleOracle "5" "3"),
    .run 1 1 (sampleOracle "2" "2")]

/-- One purchase and three transfers have been submitted, and both requests have returned. -/
def sampleSpent (P : WalletPool) : Bool :=
  decide (buys P.calls = 1) && decide (transfers P.calls = 3) && P.threads.all fun th =>
    match th.prog with
    | .done _ => true
    | _ => false

theorem wallet_spends_sample :
    ∃ ms P, Run (walletStep sampleLibraries sampleConfig) ⟨.empty, []⟩ ms P ∧
      sampleSpent P = true ∧
      (∀ m ∈ ms, ∀ th op c, MakesCall m th op c →
        spends sampleLibraries sampleConfig th.req th.log op) ∧
      ∀ th ∈ P.threads, ∀ reply, th.prog = .done reply →
        earned sampleLibraries sampleConfig th.req reply th.log := by
  obtain ⟨ms, P, run, hp⟩ := exists_run_of_replay
    (scheduleActs world (handle sampleLibraries sampleConfig) sampleSchedule ⟨.empty, []⟩)
    (fun r => sampleSpent r.2)
    (by decide +kernel :
      (replay (walletStep sampleLibraries sampleConfig) ⟨.empty, []⟩ _ []).any _ = true)
  exact ⟨ms, P, run, hp, wallet_spends sampleLibraries sampleConfig run⟩

end Bluesafe.Wallets
