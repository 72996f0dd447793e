import Bluesafe.Api.SyncSubscriptions
import Bluesafe.Async.Solo

/-!
# The mirror of the subscription

The worker's variables are meant to say what the connection is subscribed to. They are set
before the subscribe request is sent, so after a rejected one they say more than there is, and
the next sync with the same accounts finds nothing to do.

The subscription is never more than the variables say (`Covered`): an unsubscribe request
names all of it, and what is subscribed to afterwards is what the variables have been set to.
So the two agree if and only if the newest subscribe request succeeded
(`subscription_mirror`).
-/

namespace Bluesafe.Api.Subscriptions

open Async Transition

/-- The variables equal the subscription. -/
structure Mirrors (s : State) : Prop where
  accounts : ∀ a, a ∈ s.prev.prevAccounts ↔ a ∈ s.sub.accounts
  ledger : s.prev.prevLedgerSubscribed = s.sub.ledger
  transactions : s.prev.prevTransactionsSubscribed = s.sub.transactions

/-- The newest subscribe request of the connection, if there is one, succeeded. -/
def LastSubscribed (s : State) : Prop :=
  ∀ r, s.sent.find? (fun r => r.1.isSubscribe) = some r → r.2 = true

/-- The subscription is no more than what the variables say. -/
structure Covered (prev : Prev) (sub : Subscription) : Prop where
  accounts : ∀ a ∈ sub.accounts, a ∈ prev.prevAccounts
  ledger : sub.ledger = true → prev.prevLedgerSubscribed = true
  transactions : sub.transactions = true → prev.prevTransactionsSubscribed = true

/-- What a sync keeps. -/
structure Synced (s : State) : Prop where
  covered : Covered s.prev s.sub
  mirrors_iff : Mirrors s ↔ LastSubscribed s

theorem synced_connected : Synced State.connected where
  covered := ⟨by simp [State.connected], by simp [State.connected], by simp [State.connected]⟩
  mirrors_iff := by
    constructor
    · intro _ r hr
      simp [State.connected] at hr
    · intro _
      exact ⟨by simp [State.connected], rfl, rfl⟩

/-! ## The requests of a sync -/

variable {opts : Options} {s : State} {prev : Prev} {sub : Subscription} {accounts : List String}

/-- Nothing is left after the unsubscribe request. -/
theorem apply_unsubscribe (h : Covered prev sub) :
    sub.apply (.unsubscribe prev.prevAccounts prev.streams) = ⟨[], false, false⟩ := by
  have haccounts : sub.accounts.filter (fun a => decide (a ∉ prev.prevAccounts)) = [] := by
    rw [List.filter_eq_nil_iff]
    intro a ha
    simpa using h.accounts a ha
  have hledger : (sub.ledger && decide (.ledger ∉ prev.streams)) = false := by
    cases hsub : sub.ledger with
    | false => rfl
    | true => simp [Prev.streams, h.ledger hsub]
  have htransactions : (sub.transactions && decide (.transactions ∉ prev.streams)) = false := by
    cases hsub : sub.transactions with
    | false => rfl
    | true => simp [Prev.streams, h.transactions hsub]
  simp only [Subscription.apply, haccounts, hledger, htransactions]

/-- Without a subscription there is nothing to unsubscribe from. -/
theorem eq_nothing_of_covered (h : Covered prev sub)
    (hprev : ¬ (prev.prevAccounts ≠ [] ∨ prev.prevLedgerSubscribed = true ∨
      prev.prevTransactionsSubscribed = true)) : sub = ⟨[], false, false⟩ := by
  simp only [not_or, Decidable.not_not, Bool.not_eq_true] at hprev
  obtain ⟨hnil, hledger, htransactions⟩ := hprev
  have haccounts : sub.accounts = [] := by
    rw [List.eq_nil_iff_forall_not_mem]
    intro a ha
    have hmem := h.accounts a ha
    rw [hnil] at hmem
    cases hmem
  have hsubLedger : sub.ledger = false := by
    cases hsub : sub.ledger with
    | false => rfl
    | true => exact absurd (h.ledger hsub) (by simp [hledger])
  have hsubTransactions : sub.transactions = false := by
    cases hsub : sub.transactions with
    | false => rfl
    | true => exact absurd (h.transactions hsub) (by simp [htransactions])
  cases sub
  simp_all

/-- A connection without a subscription, subscribed to the accounts and the streams. -/
theorem apply_subscribe :
    (Subscription.mk [] false false).apply (.subscribe (ledgerStreams opts) accounts) =
      ⟨accounts, true, opts.transactionsStream.getD false⟩ := by
  unfold ledgerStreams
  cases opts.transactionsStream.getD false <;> simp [Subscription.apply]

/-- A successful subscribe request after everything was unsubscribed. -/
theorem synced_subscribed {wantTx : Bool} {streams : List Stream} {n : Nat × Bool}
    {sent : List (SubscribeRequest × Bool)} :
    Synced ⟨⟨accounts, true, wantTx⟩, ⟨accounts, true, wantTx⟩,
      (.subscribe streams accounts, true) :: sent, n⟩ where
  covered := ⟨fun _ h => h, fun h => h, fun h => h⟩
  mirrors_iff := by
    constructor
    · intro _ r hr
      simp only [List.find?_cons, SubscribeRequest.isSubscribe, Option.some.injEq] at hr
      rw [← hr]
    · intro _
      exact ⟨fun _ => Iff.rfl, rfl, rfl⟩

/-- A rejected one: the variables say that the ledger is subscribed to, and it is not. -/
theorem synced_rejected {wantTx : Bool} {streams : List Stream} {n : Nat × Bool}
    {sent : List (SubscribeRequest × Bool)} :
    Synced ⟨⟨accounts, true, wantTx⟩, ⟨[], false, false⟩,
      (.subscribe streams accounts, false) :: sent, n⟩ where
  covered := ⟨by simp, by simp, by simp⟩
  mirrors_iff := by
    constructor
    · intro hmirrors
      exact absurd hmirrors.ledger (by simp)
    · intro hlast
      exact absurd (hlast _ rfl) (by simp)

/-- An unsubscribe request that is rejected changes nothing that counts. -/
theorem synced_unsubscribe_rejected {streams : List Stream} (h : Synced s) :
    Synced { s with sent := (.unsubscribe accounts streams, false) :: s.sent } :=
  ⟨h.covered, ⟨fun hm => h.mirrors_iff.mp ⟨hm.accounts, hm.ledger, hm.transactions⟩, fun hl =>
    have hm := h.mirrors_iff.mpr hl
    ⟨hm.accounts, hm.ledger, hm.transactions⟩⟩⟩

/-! ## One sync -/

/-- From no subscription to that of the accounts and the streams. -/
theorem wp_subscribe {l : Log calls String} (hsub : s.sub = ⟨[], false, false⟩) :
    wp (seqSpec world)
      (do
        invoke (.writePrev ⟨accounts, true, opts.transactionsStream.getD false⟩)
        invoke (.request (.subscribe (ledgerStreams opts) accounts))
        invoke (.setXrplSubscribeSyncSnapshot accounts.length true))
      (fun _ g => Synced g.2) (fun _ g => Synced g.2) (l, s) := by
  rw [wp_bind]
  apply wp_atOnce rfl
  intro _
  rw [wp_bind]
  apply wp_awaited
  · intro _
    apply wp_atOnce rfl
    intro _
    simp only [perform, hsub, apply_subscribe]
    exact synced_subscribed
  · intro e
    simp only [perform, rejected, hsub]
    exact synced_rejected

/-- Whatever is subscribed to is unsubscribed from first. -/
theorem wp_resubscribe {l : Log calls String} (h : Synced s) :
    wp (seqSpec world) (resubscribe opts accounts s.prev) (fun _ g => Synced g.2)
      (fun _ g => Synced g.2) (l, s) := by
  unfold resubscribe
  split
  · rw [wp_bind]
    apply wp_awaited
    · intro _
      exact wp_subscribe (apply_unsubscribe h.covered)
    · intro e
      exact synced_unsubscribe_rejected h
  · rename_i hprev
    exact wp_subscribe (eq_nothing_of_covered h.covered hprev)

/-- A sync keeps what is known about the variables and the subscription. -/
theorem sync_keeps (h : Synced s) :
    Ends world (syncSubscriptions opts) (fun _ => Synced) (fun _ => Synced) s := by
  intro l
  unfold syncSubscriptions
  rw [wp_bind]
  apply wp_atOnce rfl
  intro c
  show wp _ (if c.isOver then _ else _) _ _ _
  split
  · exact h
  · rw [wp_bind]
    apply wp_awaited
    · intro c'
      rw [wp_bind]
      apply wp_atOnce rfl
      intro _
      show wp _ (if _ ∧ _ ∧ _ then _ else _) _ _ _
      split
      · exact h
      · exact wp_resubscribe h
    · intro e
      exact h

/-! ## All syncs of a connection -/

/-- Whenever no sync is in progress, the variables equal the subscription if and only if the newest
    subscribe request succeeded. -/
theorem subscription_mirror {ms : List (Move SyncPool (Act Unit Choice))} {P : SyncPool}
    (run : Run (syncStep opts) ⟨State.connected, []⟩ ms P) (halone : ∀ m ∈ ms, StartsAlone m)
    (hidle : P.Idle) : Mirrors P.store ↔ LastSubscribed P.store := by
  have hsynced := Solo.run_invariant (fun _ _ => sync_keeps) run halone synced_connected hidle
  exact hsynced.mirrors_iff

/-! ## Three syncs -/

def exampleOptions : Options where
  maxSubscribeAccounts := 10

/-- Two syncs that succeed, with a new account for the second one. -/
def resyncActs : List (Act Unit Choice) :=
  [.spawn (), .advance 0 {}, .advance 0 { accounts := ["rA"] }, .advance 0 {}, .advance 0 {},
    .advance 0 {}, .advance 0 {},
   .spawn (), .advance 1 {}, .advance 1 { accounts := ["rA", "rB"] }, .advance 1 {}, .advance 1 {},
    .advance 1 {}, .advance 1 {}, .advance 1 {}]

/-- The same with a rejected subscribe request in the second sync, and a third sync with the
    accounts of the second. -/
def rejectedActs : List (Act Unit Choice) :=
  [.spawn (), .advance 0 {}, .advance 0 { accounts := ["rA"] }, .advance 0 {}, .advance 0 {},
    .advance 0 {}, .advance 0 {},
   .spawn (), .advance 1 {}, .advance 1 { accounts := ["rA", "rB"] }, .advance 1 {}, .advance 1 {},
    .advance 1 {}, .advance 1 { failure := some "timeout" },
   .spawn (), .advance 2 {}, .advance 2 { accounts := ["rA", "rB"] }, .advance 2 {}]

/-- No sync overlaps another one, and none is in progress at the end. -/
def soloCheck (r : List (Move SyncPool (Act Unit Choice)) × SyncPool) : Bool :=
  r.1.all startsAloneCheck && r.2.threads.all Thread.isFinished

/-- The subscription is that of the second sync. -/
theorem subscription_mirror_resync :
    ∃ (ms : List (Move SyncPool (Act Unit Choice))) (P : SyncPool),
      Run (syncStep exampleOptions) ⟨State.connected, []⟩ ms P ∧ P.threads.length = 2 ∧
        (Mirrors P.store ↔ LastSubscribed P.store) := by
  obtain ⟨ms, P, run, hp⟩ := exists_run_of_replay resyncActs
    (fun r => soloCheck r && decide (r.2.threads.length = 2))
    (by decide : (replay (syncStep exampleOptions) ⟨State.connected, []⟩ _ []).any _ = true)
  simp only [soloCheck, Bool.and_eq_true, List.all_eq_true, decide_eq_true_eq] at hp
  obtain ⟨⟨halone, hidle⟩, hlen⟩ := hp
  exact ⟨ms, P, run, hlen,
    subscription_mirror run (fun m hm => startsAlone_of_check (halone m hm)) hidle⟩

/-- The variables name two accounts, and the connection is subscribed to neither of them: the
    third sync has sent nothing. -/
theorem rejected_subscribe_not_retried :
    ∃ (ms : List (Move SyncPool (Act Unit Choice))) (P : SyncPool),
      Run (syncStep exampleOptions) ⟨State.connected, []⟩ ms P ∧ (∀ m ∈ ms, StartsAlone m) ∧
        P.Idle ∧ P.threads.length = 3 ∧ P.store.prev.prevAccounts = ["rA", "rB"] ∧
        P.store.sub.accounts = [] ∧ ¬ Mirrors P.store := by
  obtain ⟨ms, P, run, hp⟩ := exists_run_of_replay rejectedActs
    (fun r => soloCheck r && decide (r.2.threads.length = 3) &&
      decide (r.2.store.prev.prevAccounts = ["rA", "rB"]) && decide (r.2.store.sub.accounts = []))
    (by decide : (replay (syncStep exampleOptions) ⟨State.connected, []⟩ _ []).any _ = true)
  simp only [soloCheck, Bool.and_eq_true, List.all_eq_true, decide_eq_true_eq] at hp
  obtain ⟨⟨⟨⟨halone, hidle⟩, hlen⟩, hprev⟩, hsub⟩ := hp
  refine ⟨ms, P, run, fun m hm => startsAlone_of_check (halone m hm), hidle, hlen, hprev, hsub, ?_⟩
  intro hmirrors
  have hmem := (hmirrors.accounts "rA").mp (by simp [hprev])
  rw [hsub] at hmem
  cases hmem

end Bluesafe.Api.Subscriptions
