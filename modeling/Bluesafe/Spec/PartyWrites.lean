import Bluesafe.Spec.FixedParties
import Bluesafe.Spec.PartyIsolation

/-!
# What a party can change

A tenant or a landlord works on copies of contracts that it has read; by the time a row is
written back, other requests may have changed the store. Because no row ever changes hands
(`Bluesafe.Spec.FixedParties`), the check of the copy is as good as a check of the store: a
request of a party changes only contracts that name it, and disputes and evidence files of
these contracts. The one exception are disputes whose execution the ledger has answered:
anybody may deliver the answer.
-/

namespace Bluesafe.Backend

open Async Transition
open Bluesafe.Ops (BluesafeAuth BluesafeRole Contract DisputeCase HasRole writerRoles judgeRoles
  canAccessContract)
open Bluesafe.Api (Runtime isPartyTo EvidenceFile)

/-- What a call of a party may do to the store. No decision, vote, settlement, registry entry or export
    job changes. Tracked transactions, notifications with their outbox, audit entries and events are
    not in this list: a party may write them. -/
structure PartyStep (a : BluesafeAuth) (s s' : Store) : Prop where
  contracts : ∀ id, s'.api.ops.contracts.get? id = s.api.ops.contracts.get? id ∨
    ∃ c', s'.api.ops.contracts.get? id = some c' ∧ isPartyTo a c' = true ∧
      ∀ c, s.api.ops.contracts.get? id = some c → c'.SameParties c
  disputes : ∀ id, s'.api.ops.disputes.get? id = s.api.ops.disputes.get? id ∨
    ∃ d', s'.api.ops.disputes.get? id = some d' ∧
      (∀ d, s.api.ops.disputes.get? id = some d → d'.SameCase d) ∧
      (s.api.ownsContract a d'.contractId = true ∨
        (∃ d, s.api.ops.disputes.get? id = some d) ∧ (d'.status = .executed ∨ d'.status = .rejected))
  evidence : ∀ id, s'.api.evidenceFiles.get? id = s.api.evidenceFiles.get? id ∨
    ∃ e', s'.api.evidenceFiles.get? id = some e' ∧ s.api.ownsContract a e'.contractId = true ∧
      ∀ e, s.api.evidenceFiles.get? id = some e → e'.contractId = e.contractId
  decisions : s'.api.ops.decisions = s.api.ops.decisions
  votes : s'.api.votes = s.api.votes
  settlements : s'.api.settlements = s.api.settlements
  registry : s'.api.registry = s.api.registry
  exportJobs : s'.api.exportJobs = s.api.exportJobs

/-- A party has none of these roles. -/
theorem not_hasRole {config : Ops.Config} {a : BluesafeAuth} {allowed : List BluesafeRole}
    (hon : config.authEnabled = true) (hrole : a.role ∉ allowed) : ¬ HasRole config (some a) allowed := by
  intro h
  obtain ⟨b, hb, hmem⟩ := h hon
  cases hb
  exact hrole hmem

/-- For a party the access rule asks whether the contract names it. -/
theorem isPartyTo_of_access {config : Ops.Config} {a : BluesafeAuth} {c : Contract}
    (hon : config.authEnabled = true) (hparty : a.role = .tenant ∨ a.role = .landlord)
    (h : canAccessContract config (some a) c = true) : isPartyTo a c = true := by
  unfold canAccessContract at h
  unfold isPartyTo
  rcases hparty with hrole | hrole <;> simp_all

/-! ## What is left alone -/

/-- The tables that no call of a party changes. -/
structure Untouched (s s' : Store) : Prop where
  decisions : s'.api.ops.decisions = s.api.ops.decisions
  votes : s'.api.votes = s.api.votes
  settlements : s'.api.settlements = s.api.settlements
  registry : s'.api.registry = s.api.registry
  exportJobs : s'.api.exportJobs = s.api.exportJobs

theorem Untouched.refl (s : Store) : Untouched s s := ⟨rfl, rfl, rfl, rfl, rfl⟩

section Calls

variable {config : Api.Config} {a : BluesafeAuth} {caller : Api.Caller} {l : BackendLog}
  {rt : Runtime} {c : Choice} {s : Store}

/-- A party judges nothing and operates nothing. -/
theorem party_roles (hon : config.ops.authEnabled = true)
    (hparty : a.role = .tenant ∨ a.role = .landlord) :
    ¬ HasRole config.ops (some a) judgeRoles ∧ ¬ HasRole config.ops (some a) [.operator] := by
  constructor <;> refine not_hasRole hon ?_ <;> rcases hparty with h | h <;> rw [h] <;> decide

theorem untouched_ops (hjudge : ¬ HasRole config.ops caller.auth judgeRoles) {op : Ops.Call}
    (h : granted config caller l (.inl (.inl (.inl op)))) :
    Untouched s (serve rt (.inl (.inl (.inl op))) c s).2 := by
  refine ⟨?_, rfl, rfl, rfl, rfl⟩
  rcases (Ops.framed_serve op c.toChoice s.api.ops).decisions with heq | ⟨x, rfl, -⟩
  · exact heq
  · exact absurd h.1 hjudge

theorem untouched_api (hjudge : ¬ HasRole config.ops caller.auth judgeRoles)
    (hoperator : ¬ HasRole config.ops caller.auth [.operator]) {op : Api.Call}
    (h : granted config caller l (.inl (.inl (.inr op)))) :
    Untouched s (serve rt (.inl (.inl (.inr op))) c s).2 := by
  have hperform : Untouched s ⟨(Api.perform rt op c.toApi s.api).2, s.issued⟩ := by
    cases op with
    | saveSettlement row => exact absurd h.1 hoperator
    | appendDisputeVerifierVote v => exact absurd h.1 hjudge
    | claimExportJobsPending limit now => exact h.elim
    | updateExportJob job => exact h.elim
    | touchSettlementsOnLedgerClose p => exact h.elim
    | _ => exact ⟨rfl, rfl, rfl, rfl, rfl⟩
  show Untouched s ⟨(Api.serve rt (.inr op) c.toApi s.api).2, s.issued⟩
  rcases Api.serve_inr_state rt op c.toApi s.api with heq | heq <;> rw [heq]
  · exact hperform
  · exact .refl s

/-- The notification services have tables of their own. -/
theorem untouched_notify {op : Notify.Call} :
    Untouched s (serve rt (.inl (.inr op)) c s).2 :=
  ⟨rfl, rfl, rfl, rfl, rfl⟩

/-- No call of a party changes one of these tables. -/
theorem untouched_serve (hjudge : ¬ HasRole config.ops caller.auth judgeRoles)
    (hoperator : ¬ HasRole config.ops caller.auth [.operator]) {op : calls.Op}
    (h : granted config caller l op) : Untouched s (serve rt op c s).2 := by
  match op with
  | .inl (.inl (.inl op)) => exact untouched_ops hjudge h
  | .inl (.inl (.inr op)) => exact untouched_api hjudge hoperator h
  | .inl (.inr op) => exact untouched_notify
  | .inr (.upsertDisputeVerifierRegistryEntry e) => exact absurd h.1 hoperator
  | .inr (.createExportJob job) => exact absurd h.1 hjudge

end Calls

/-! ## One call -/

section Step

variable {settings : Settings} {a : BluesafeAuth} {caller : Api.Caller} {s : Store}
  {P : BackendPool} {ms : List (Move BackendPool (Act Request Choice))} {i : Nat}
  {th : BackendThread} {op : calls.Op} {c : Choice}

/-- A table from which no row is removed, in the words of the library. -/
theorem stored_of_found {ν V : Type} {T : TableKind ν V} {rt : Runtime}
    (h : ∀ op c s k, (T.find s k).isSome → (T.find (serve rt op c s).2 k).isSome) {op : calls.Op}
    {c : Choice} {s : Store} {k : String} {v : V} (hst : T.rows.stored s k v) :
    ∃ v', T.rows.stored ((world rt).serve op c s).2 k v' := by
  obtain ⟨r, hr, -⟩ := hst
  obtain ⟨r', hr'⟩ := Option.isSome_iff_exists.mp (h op c s k (Option.isSome_of_eq_some hr))
  exact ⟨_, r', hr', rfl⟩

/-- The answer to a lookup has the key that was asked for. -/
theorem key_of_read (run : Run (backendStep settings) ⟨s, []⟩ ms P) :
    ∀ th ∈ P.threads, ∀ id copy,
      (⟨.inl (.inl (.inl (.getContract id))), .ok (some copy)⟩ : Event calls String) ∈ th.log →
      copy.id = id := by
  refine run.invariant (P := fun P : BackendPool => ∀ th ∈ P.threads, ∀ id copy,
      (⟨.inl (.inl (.inl (.getContract id))), .ok (some copy)⟩ : Event calls String) ∈ th.log →
      copy.id = id) (C := fun _ => True) (fun _ _ => trivial) (fun th hth => nomatch hth)
    fun m hm _ h th hth id copy hread => ?_
  rcases mem_log_step hm hth hread with ⟨v, hv, -, hread⟩ | ⟨i, c, u, op, k, -, -, -, -, heq, -⟩
  · exact h v hv id copy hread
  · obtain rfl : (.inl (.inl (.inl (.getContract id))) : calls.Op) = op := congrArg Event.op heq
    exact Table.key_of_get? (answer_ops settings.api.runtime heq.symm)

/-- A contract that the request has read, and that names the party, is a contract of the party
    in the store. -/
theorem owns_of_read (hs : s.Issued) (run : Run (backendStep settings) ⟨s, []⟩ ms P)
    (hth : th ∈ P.threads) {id : String} {copy : Contract}
    (hread : (⟨.inl (.inl (.inl (.getContract id))), .ok (some copy)⟩ : Event calls String) ∈ th.log)
    (hparty : isPartyTo a copy = true) : P.store.api.ownsContract a id = true := by
  obtain rfl := key_of_read run th hth id copy hread
  have hshow : contractKind.rows.shows ⟨.inl (.inl (.inl (.getContract copy.id))), .ok (some copy)⟩
      copy.id (copy.tenantId, copy.landlordId) := ⟨copy, List.mem_singleton.mpr rfl, rfl, rfl⟩
  obtain ⟨v, c, hc, rfl⟩ := RowKind.stored_of_shown (contractKind_served settings.api.runtime).lawful
    (stored_of_found (contractKind_found settings.api.runtime)) run hth hread hshow
  have hattr := (orderly_run hs run).contracts.1.agree (.inl ⟨c, hc, rfl⟩)
    (.inr ⟨th, hth, _, hread, hshow⟩)
  have hsame : isPartyTo a c = isPartyTo a copy := by
    unfold isPartyTo
    rw [show c.tenantId = copy.tenantId from congrArg Prod.fst hattr,
      show c.landlordId = copy.landlordId from congrArg Prod.snd hattr]
  unfold Api.Store.ownsContract
  rw [show P.store.api.ops.contracts.get? copy.id = some c from hc, Option.any_some, hsame, hparty]

/-- A contract that the request may access is one of the party. -/
theorem owns_of_access (hs : s.Issued) (run : Run (backendStep settings) ⟨s, []⟩ ms P)
    (hth : th ∈ P.threads) (hon : settings.api.ops.authEnabled = true)
    (hparty : a.role = .tenant ∨ a.role = .landlord) {id : String}
    (h : Ops.Accessed settings.api.ops (some a) (lefts (lefts (lefts th.log))) id) :
    P.store.api.ownsContract a id = true := by
  obtain ⟨copy, hread, hacc⟩ := h
  exact owns_of_read hs run hth (mem_ops hread) (isPartyTo_of_access hon hparty hacc)

/-- One call of a party. -/
theorem partyStep_serve (hs : s.Issued) (run : Run (backendStep settings) ⟨s, []⟩ ms P)
    (hth : P.threads[i]? = some th) (hon : settings.api.ops.authEnabled = true)
    (hparty : a.role = .tenant ∨ a.role = .landlord) (hauth : caller.auth = some a)
    (hallowed : allowed settings th.req th.log op) (h : granted settings.api caller th.log op) :
    PartyStep a P.store (serve settings.api.runtime op c P.store).2 := by
  -- the caller is neither a juror nor an operator, since it is a party
  have hmem := List.mem_of_getElem? hth
  have horderly := orderly_run hs run
  obtain ⟨hjudge, hoperator⟩ := party_roles hon hparty
  rw [← hauth] at hjudge hoperator
  have hkept : Untouched P.store (serve settings.api.runtime op c P.store).2 :=
    untouched_serve hjudge hoperator h
  refine ⟨fun id => ?_, fun id => ?_, fun id => ?_, hkept.decisions, hkept.votes, hkept.settlements,
    hkept.registry, hkept.exportJobs⟩
  -- a contract changes only by a save that the log allows
  · refine (contractKind_effect settings.api.runtime op c P.store id).imp_right ?_
    rintro ⟨r, hsaved, rfl, hr⟩
    refine ⟨r, hr, ?_, fun c₀ hc₀ => ?_⟩
    -- it was created by this caller, or is one that the caller has read
    · obtain rfl := saveContract_of_saved hsaved
      cases h.2 with
      | created hid hfirst hacc => exact isPartyTo_of_access hon hparty (hauth ▸ hacc)
      | updated id copy hread hsame hacc => exact isPartyTo_of_access hon hparty (hauth ▸ hacc)
    -- and a save keeps the parties that were read
    · have hattr := horderly.contracts.1.agree_saves hth (contractKind_keeps hallowed)
        ⟨r, hsaved, rfl, rfl⟩ (.inl ⟨c₀, hc₀, rfl⟩)
      exact ⟨(Table.key_of_get? hc₀).symm, congrArg Prod.fst hattr, congrArg Prod.snd hattr⟩
  -- a dispute likewise: filed, reviewed, judged, escalated or resolved
  · refine (disputeKind_effect settings.api.runtime op c P.store id).imp_right ?_
    rintro ⟨r, hsaved, rfl, hr⟩
    refine ⟨r, hr, fun d₀ hd₀ => ?_, ?_⟩
    · have hattr := horderly.disputes.1.agree_saves hth (disputeKind_keeps hallowed)
        ⟨r, hsaved, rfl, rfl⟩ (.inl ⟨d₀, hd₀, rfl⟩)
      exact ⟨(Table.key_of_get? hd₀).symm, hattr⟩
    · obtain rfl := saveDispute_of_saved hsaved
      cases h with
      -- the first two need access; the next two a role that no party has
      | filed hid hfirst hacc =>
        exact .inl (owns_of_access hs run hmem hon hparty (hauth ▸ hacc))
      | reviewed copy hread hsame hacc =>
        exact .inl (owns_of_access hs run hmem hon hparty (hauth ▸ hacc))
      | judged copy hread hsame hacc hrole => exact absurd hrole hjudge
      | escalated copy t hread hrole => exact absurd hrole hoperator
      -- a dispute that is resolved waited for its transaction
      | resolved copy hread hsame hstatus =>
        obtain ⟨ev, hev, hshow⟩ := shows_readDispute hread hsame
        obtain ⟨-, d, hd, -⟩ := RowKind.stored_of_shown
          (disputeKind_served settings.api.runtime).lawful
          (stored_of_found (disputeKind_found settings.api.runtime)) run hmem hev hshow
        exact .inr ⟨⟨d, hd⟩, hstatus⟩
  -- evidence is unchanged, purged by an operator, or saved
  · rcases evidenceKind_effect settings.api.runtime op c P.store id with heq | ⟨rfl, -⟩ |
      ⟨r, hsaved, rfl, hr⟩
    · exact .inl heq
    · exact absurd h.1 hoperator
    · refine .inr ⟨r, hr, ?_, fun e₀ he₀ => ?_⟩
      · obtain rfl := saveEvidence_of_saved hsaved
        cases h with
        -- an upload belongs to the contract that was read
        | uploaded hid hfirst hacc =>
          obtain ⟨copy, hread, hacc⟩ := hacc
          exact owns_of_read hs run hmem (mem_api hread)
            (isPartyTo_of_access hon hparty (hauth ▸ hacc))
        -- a patch of the metadata needs a role
        | patched id copy hread hid hcontract hacc hrole => exact absurd hrole hoperator
      · exact horderly.evidence.1.agree_saves hth (evidenceKind_keeps hallowed)
          ⟨r, hsaved, rfl, rfl⟩ (.inl ⟨e₀, he₀, rfl⟩)

end Step

/-! ## Runs -/

/-- In every run, from a store whose keys were issued: whatever a request of a tenant or a
    landlord does, at every one of its calls and whatever else is in progress, it changes only
    contracts that name the caller, disputes and evidence files of such contracts, and disputes
    that the answer of the ledger resolves. -/
theorem party_writes (settings : Settings) {s : Store} (hs : s.Issued) {P : BackendPool}
    {ms : List (Move BackendPool (Act Request Choice))}
    (run : Run (backendStep settings) ⟨s, []⟩ ms P) :
    ∀ m ∈ ms, ∀ th op c, MakesCall m th op c →
      ∀ headers entry a, th.req = .http headers entry →
        Api.authenticate settings.api headers = .ok (some a) →
        a.role = .tenant ∨ a.role = .landlord → PartyStep a m.before.store m.after.store := by
  -- one call of the run, made by this caller
  intro m hm th op c hcall headers entry a hreq hauth hparty
  have hallowed := calls_allowed settings run m hm th op c hcall
  obtain ⟨i, k, hlabel, hth, hprog⟩ := hcall
  obtain ⟨ms₁, ms₂, run₁, -⟩ := run.split hm
  -- the grant it was made under is that of the same caller
  have hgrant : granted settings.api (callerOf headers (some a)) th.log op := by
    rw [hreq] at hallowed
    obtain ⟨auth, hauth', hgrant⟩ := hallowed
    cases hauth.symm.trans hauth'
    exact hgrant
  have hstep := partyStep_serve (c := c) hs run₁ hth (Api.authenticate_eq_some hauth).1 hparty rfl
    hallowed hgrant
  -- and the store after the call is what that call left
  have hafter : m.after.store = (serve settings.api.runtime op c m.before.store).2 := by
    have hmove := run.step_of_mem hm
    rw [hlabel] at hmove
    -- the step is a call of a thread, not the start of a request
    obtain ⟨req, heq, -⟩ | ⟨j, c', u, op', k', heq, hu, hprog', -, hafter⟩ := poolStep_cases hmove
    · exact nomatch heq
    · cases heq
      cases hth.symm.trans hu
      cases hprog.symm.trans hprog'
      rw [hafter]
      rfl
  rw [hafter]
  exact hstep

/-- The landlord of the concrete run moves its contract on. -/
theorem party_writes_sample :
    ∃ ms P, Run (backendStep sampleSettings) ⟨.empty, []⟩ ms P ∧
      sampleStatus P = some .escrowPending ∧
      ∀ m ∈ ms, ∀ th op c, MakesCall m th op c → th.req = samplePatch "landlord" "landlord_1" →
        PartyStep ⟨.landlord, none, some "landlord_1"⟩ m.before.store m.after.store := by
  obtain ⟨ms, P, run, hp⟩ := exists_run_of_replay (sampleActs sampleSchedule)
    (fun r => decide (sampleStatus r.2 = some .escrowPending))
    (by decide +kernel : (replay (backendStep sampleSettings) ⟨.empty, []⟩ _ []).any _ = true)
  exact ⟨ms, P, run, of_decide_eq_true hp, fun m hm th op c hcall hreq =>
    party_writes sampleSettings Store.empty_issued run m hm th op c hcall _ _
      ⟨.landlord, none, some "landlord_1"⟩ hreq rfl (.inr rfl)⟩

end Bluesafe.Backend
