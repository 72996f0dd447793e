import Bluesafe.ForStd.Page
import Bluesafe.Reputation.Dlq

/-!
# Dead letters by recency

The list of dead letters is meant to show the entries that failed most recently, and a full
store to drop the entry whose last failure is the oldest. The order of both is the order of
the map, and a map keeps the place of a key that it has: an entry that fails again stays
where its first failure put it. So the order is that of the last failures as long as no
entry fails again after a failure of another one, and no longer
(`dead_letters_by_recency`).
-/

namespace Bluesafe.Reputation

open Bluesafe.Ops (Time)

/-! ## Sequences of calls -/

/-- The calls that change the store. -/
inductive DlqCall
  | record (now : Time) (body : ReputationOutboundBody) (detail : FailureDetail)
  | remove (idempotencyKey : String)

def DlqCall.apply : DlqCall → Dlq → Dlq
  | record now body detail, dlq => recordReputationOutboundDlq now body detail dlq
  | remove idempotencyKey, dlq => removeReputationDlq idempotencyKey dlq

/-- The store after the calls, which are listed newest first. -/
def dlqAfter (calls : List DlqCall) : Dlq := calls.foldr DlqCall.apply Dlq.empty

/-- The number of the call that recorded the last failure of a key, counted from one; zero for
    a key that has not failed. -/
def lastFailure (calls : List DlqCall) (k : String) : Nat :=
  match calls with
  | [] => 0
  | .record _ body _ :: older =>
    if body.idempotencyKey = k then older.length + 1 else lastFailure older k
  | .remove _ :: older => lastFailure older k

/-! ## The law -/

/-- `listed` are the `count` entries that failed most recently, most recent first. -/
structure MostRecent (calls : List DlqCall) (count : Nat) (listed : List ReputationDlqEntry) :
    Prop where
  length_eq : listed.length = count
  stored : ∀ e ∈ listed, e ∈ (dlqAfter calls).entries.rows
  recent_first : listed.Pairwise fun a b =>
    lastFailure calls b.idempotencyKey < lastFailure calls a.idempotencyKey
  left_out : ∀ e ∈ (dlqAfter calls).entries.rows, e ∉ listed → ∀ a ∈ listed,
    lastFailure calls e.idempotencyKey < lastFailure calls a.idempotencyKey

/-- Every list of at least one entry shows the most recent failures. -/
def ListsByRecency (calls : List DlqCall) : Prop :=
  ∀ n : Nat, 1 ≤ n → MostRecent calls (min n (min 200 (dlqAfter calls).entries.rows.length))
    (listReputationDlq n (dlqAfter calls))

/-- An entry that the recording of a failure drops has the oldest last failure. -/
def EvictsOldest (older : List DlqCall) : DlqCall → Prop
  | .remove _ => True
  | .record now body detail =>
    let calls := .record now body detail :: older
    ∀ k, k = body.idempotencyKey ∨ k ∈ (dlqAfter older).keys → k ∉ (dlqAfter calls).keys →
      ∀ k' ∈ (dlqAfter calls).keys, lastFailure calls k < lastFailure calls k'

/-- A failure of a key that is in the store is a failure of its last entry. -/
def AtEnd (dlq : Dlq) : DlqCall → Prop
  | .remove _ => True
  | .record _ body _ => body.idempotencyKey ∈ dlq.keys → dlq.keys.getLast? = some body.idempotencyKey

/-! ## The keys in the order of their last failures -/

variable {calls older : List DlqCall} {now : Time} {body : ReputationOutboundBody}
  {detail : FailureDetail} {k : String}

/-- The last failure of a key is one of the calls. -/
theorem lastFailure_le_length (calls : List DlqCall) (k : String) :
    lastFailure calls k ≤ calls.length := by
  induction calls with
  | nil => exact Nat.le_refl 0
  | cons c older ih =>
    cases c with
    | remove _ => exact Nat.le_succ_of_le ih
    | record _ body _ =>
      simp only [lastFailure, List.length_cons]
      split <;> omega

/-- A record is the last failure of its own key. -/
theorem lastFailure_record_self :
    lastFailure (.record now body detail :: older) body.idempotencyKey = older.length + 1 := by
  simp [lastFailure]

/-- And changes nothing for another. -/
theorem lastFailure_record_of_ne (h : k ≠ body.idempotencyKey) :
    lastFailure (.record now body detail :: older) k = lastFailure older k := by
  simp [lastFailure, h.symm]

/-- The order of the map is the order of the last failures. -/
def InOrder (calls : List DlqCall) (keys : List String) : Prop :=
  keys.Pairwise fun a b => lastFailure calls a < lastFailure calls b

/-- The key that fails goes behind the others. -/
theorem inOrder_record {keys : List String} (h : InOrder older keys)
    (hk : body.idempotencyKey ∉ keys) :
    InOrder (.record now body detail :: older) (keys ++ [body.idempotencyKey]) := by
  have hne : ∀ a ∈ keys, a ≠ body.idempotencyKey := fun a ha heq => hk (heq ▸ ha)
  unfold InOrder
  rw [List.pairwise_append]
  refine ⟨h.imp_of_mem ?_, List.pairwise_singleton _ _, ?_⟩
  · intro a b ha hb hab
    rwa [lastFailure_record_of_ne (hne a ha), lastFailure_record_of_ne (hne b hb)]
  · intro a ha b hb
    rw [List.mem_singleton] at hb
    rw [hb, lastFailure_record_self, lastFailure_record_of_ne (hne a ha)]
    exact Nat.lt_succ_of_le (lastFailure_le_length older a)

/-- The keys in the order of the map when `key` has been set. -/
def keysWith (dlq : Dlq) (key : String) : List String :=
  if key ∈ dlq.keys then dlq.keys else dlq.keys ++ [key]

/-- The keys after a record: the key was added or kept, and the oldest may be gone. -/
theorem keys_record (now : Time) (body : ReputationOutboundBody) (detail : FailureDetail) (dlq : Dlq) :
    ∃ j, (recordReputationOutboundDlq now body detail dlq).keys =
      (keysWith dlq body.idempotencyKey).drop j := by
  unfold keysWith
  by_cases h : body.idempotencyKey ∈ dlq.keys
  · rw [if_pos h]
    exact ⟨0, keys_record_of_mem h⟩
  · rw [if_neg h]
    exact ⟨_, keys_record_of_notMem h⟩

/-- A key that is recorded is there, and the others stay. -/
theorem mem_keysWith {dlq : Dlq} {key : String} (h : k = key ∨ k ∈ dlq.keys) :
    k ∈ keysWith dlq key := by
  unfold keysWith
  split
  · rename_i hmem
    rcases h with rfl | h
    · exact hmem
    · exact h
  · rcases h with rfl | h
    · simp
    · simp [h]

/-- With a failure at the end of the map the order stays that of the last failures. -/
theorem inOrder_keysWith {dlq : Dlq} (h : InOrder older dlq.keys)
    (hend : AtEnd dlq (.record now body detail)) :
    InOrder (.record now body detail :: older) (keysWith dlq body.idempotencyKey) := by
  unfold keysWith
  split
  · rename_i hmem
    obtain ⟨init, hinit⟩ := List.getLast?_eq_some_iff.mp (hend hmem)
    -- the key is the last one, and it occurs once
    have hnodup := dlq.keys_nodup
    rw [hinit, List.nodup_append] at hnodup
    have hk : body.idempotencyKey ∉ init := fun hi => hnodup.2.2 _ hi _ (by simp) rfl
    have hfront : InOrder older init := by
      rw [hinit] at h
      exact h.sublist (List.sublist_append_left _ _)
    rw [hinit]
    exact inOrder_record hfront hk
  · rename_i hmem
    exact inOrder_record h hmem

/-- A call keeps the keys in the order of their failures. -/
theorem inOrder_apply {c : DlqCall} (h : InOrder older (dlqAfter older).keys)
    (hend : AtEnd (dlqAfter older) c) : InOrder (c :: older) (dlqAfter (c :: older)).keys := by
  cases c with
  | record now body detail =>
    obtain ⟨j, hj⟩ := keys_record now body detail (dlqAfter older)
    show InOrder _ (recordReputationOutboundDlq now body detail (dlqAfter older)).keys
    rw [hj]
    exact (inOrder_keysWith h hend).sublist (List.drop_sublist _ _)
  | remove key =>
    show InOrder _ (removeReputationDlq key (dlqAfter older)).keys
    rw [keys_remove]
    exact List.Pairwise.sublist List.filter_sublist h

/-- In that order the oldest failure is the one that goes. -/
theorem evictsOldest_of_inOrder {c : DlqCall} (h : InOrder older (dlqAfter older).keys)
    (hend : AtEnd (dlqAfter older) c) : EvictsOldest older c := by
  cases c with
  | remove key => trivial
  | record now body detail =>
    intro k hk hout k' hk'
    obtain ⟨j, hj⟩ := keys_record now body detail (dlqAfter older)
    change k ∉ (recordReputationOutboundDlq now body detail (dlqAfter older)).keys at hout
    change k' ∈ (recordReputationOutboundDlq now body detail (dlqAfter older)).keys at hk'
    rw [hj] at hout hk'
    exact (inOrder_keysWith h hend).rel_of_notMem_drop (mem_keysWith hk) hout hk'

/-- The end of the map, turned round, are the most recent failures. -/
theorem listsByRecency_of_inOrder (h : InOrder calls (dlqAfter calls).keys) :
    ListsByRecency calls := by
  intro n hn
  have hrows : (dlqAfter calls).entries.rows.Pairwise fun a b =>
      lastFailure calls a.idempotencyKey < lastFailure calls b.idempotencyKey := by
    unfold InOrder Dlq.keys at h
    rwa [List.pairwise_map] at h
  have hcount : (min 200 (max 1 (n : Int))).toNat = min 200 n := by omega
  unfold listReputationDlq
  rw [hcount]
  constructor
  · rw [List.length_reverse, List.length_drop]
    omega
  · intro e he
    exact List.mem_of_mem_drop (List.mem_reverse.mp he)
  · rw [List.pairwise_reverse]
    exact hrows.sublist (List.drop_sublist _ _)
  · intro e he hout a ha
    exact hrows.rel_of_notMem_drop he (fun hmem => hout (List.mem_reverse.mpr hmem))
      (List.mem_reverse.mp ha)

/-! ## A failure that keeps an old place -/

/-- The first entry of the list is the last one of the map. -/
theorem atEnd_of_listsByRecency {c : DlqCall} (h : ListsByRecency (c :: older)) :
    AtEnd (dlqAfter older) c := by
  cases c with
  | remove key => trivial
  | record now body detail =>
    intro hmem
    have hkeys : (dlqAfter (.record now body detail :: older)).keys = (dlqAfter older).keys :=
      keys_record_of_mem hmem
    have hrecent := h 1 (Nat.le_refl 1)
    generalize hafter : dlqAfter (.record now body detail :: older) = dlq at hkeys hrecent
    have hstored := hrecent.left_out
    rw [hafter] at hstored
    rw [← hkeys] at hmem ⊢
    obtain ⟨e, he, hkey⟩ := List.mem_map.mp hmem
    -- the list of one entry: the last row
    obtain ⟨init, last, hrows⟩ :=
      (List.eq_nil_or_concat dlq.entries.rows).resolve_left (List.ne_nil_of_mem he)
    rw [List.concat_eq_append] at hrows
    have hlist : listReputationDlq 1 dlq = [last] := by
      simp [listReputationDlq, hrows]
    have hlast : last ∈ listReputationDlq 1 dlq := by simp [hlist]
    have hgoal : dlq.keys.getLast? = some last.idempotencyKey := by simp [Dlq.keys, hrows]
    by_cases hin : e ∈ listReputationDlq 1 dlq
    · rw [hlist, List.mem_singleton] at hin
      rw [hgoal, ← hkey, hin]
    · have hlt := hstored e he hin last hlast
      rw [hkey, lastFailure_record_self] at hlt
      have hle := lastFailure_le_length (.record now body detail :: older) last.idempotencyKey
      rw [List.length_cons] at hle
      omega

/-- After every call the list shows the most recent failures and the recording has dropped the
    oldest, if and only if no entry fails again behind the failure of another one. -/
theorem dead_letters_by_recency (calls : List DlqCall) :
    (∀ c older, (c :: older) <:+ calls → ListsByRecency (c :: older) ∧ EvictsOldest older c) ↔
      ∀ c older, (c :: older) <:+ calls → AtEnd (dlqAfter older) c := by
  constructor
  · intro h c older hsuffix
    exact atEnd_of_listsByRecency (h c older hsuffix).1
  · intro h
    -- the order of the map, from the first call on
    have horder : ∀ older, older <:+ calls → InOrder older (dlqAfter older).keys := by
      intro older
      induction older with
      | nil => exact fun _ => List.Pairwise.nil
      | cons c older ih =>
        intro hsuffix
        exact inOrder_apply (ih ((List.suffix_cons c older).trans hsuffix)) (h c older hsuffix)
    intro c older hsuffix
    have hbefore := horder older ((List.suffix_cons c older).trans hsuffix)
    exact ⟨listsByRecency_of_inOrder (horder _ hsuffix),
      evictsOldest_of_inOrder hbefore (h c older hsuffix)⟩

/-! ## Two keys -/

def exampleBody (idempotencyKey : String) : ReputationOutboundBody where
  idempotencyKey := idempotencyKey
  eventType := "deposit.returned"
  subjectType := "tenant"
  subjectId := "t-1"

/-- The keys `a`, `b` and `a` fail, one after the other. -/
def failsAgain : List DlqCall :=
  [.record 3 (exampleBody "a") {}, .record 2 (exampleBody "b") {}, .record 1 (exampleBody "a") {}]

/-- The list shows `b` first, although `a` failed after it. -/
theorem failed_again_not_first :
    ¬ ∀ calls, ∀ c older, (c :: older) <:+ calls →
      ListsByRecency (c :: older) ∧ EvictsOldest older c := by
  intro h
  have hrecent := ((h failsAgain _ _ (List.suffix_refl _)).1 2 (by omega)).recent_first
  have hlist : (listReputationDlq 2 (dlqAfter failsAgain)).map (·.idempotencyKey) = ["b", "a"] := by
    decide
  have hkeys : ["b", "a"].Pairwise fun a b => lastFailure failsAgain b < lastFailure failsAgain a := by
    rw [← hlist, List.pairwise_map]
    exact hrecent
  revert hkeys
  decide

end Bluesafe.Reputation
