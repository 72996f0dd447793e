import Bluesafe.Api.Server

/-!
# What a party learns from the list endpoints

A tenant or a landlord should learn nothing from a list but its own contracts and what
belongs to them: two stores that agree on these give the same reply. The four endpoints
enforce this in different ways. `GET /v1/contracts` overwrites the filter with the caller,
`GET /v1/settlements` drops the items of other contracts from a page that was cut and
counted before, and `GET /v1/disputes` and `GET /v1/events` do not look at the caller.

The main result says for each endpoint which queries are isolated: every query of the
contracts, and of the other three only queries that no row can match.
-/

namespace Bluesafe.Api

open Bluesafe.Ops (Time Contract DisputeCase EventEnvelope BluesafeAuth BluesafeRole truthy
  canAccessContract)

/-! ## The rows of a party -/

/-- The contract names the caller. -/
def isPartyTo (a : BluesafeAuth) (c : Contract) : Bool :=
  match a.role with
  | .tenant => decide (a.tenantId = some c.tenantId)
  | .landlord => decide (a.landlordId = some c.landlordId)
  | _ => false

/-- A contract of the caller has this identifier. -/
def Store.ownsContract (s : Store) (a : BluesafeAuth) (contractId : String) : Bool :=
  (s.ops.contracts.get? contractId).any (isPartyTo a)

/-- A dispute of one of the caller's contracts has this identifier. -/
def Store.ownsDispute (s : Store) (a : BluesafeAuth) (disputeId : String) : Bool :=
  (s.ops.disputes.get? disputeId).any fun d => s.ownsContract a d.contractId

/-- An event about one of the caller's contracts, or about a dispute, a settlement, an evidence
    file or the execution transaction of one of them. -/
def Store.ownsEvent (s : Store) (a : BluesafeAuth) (e : EventEnvelope) : Bool :=
  if e.entityType = "contract" then s.ownsContract a e.entityId
  else if e.entityType = "dispute" then s.ownsDispute a e.entityId
  else if e.entityType = "settlement" then
    (s.settlements.get? e.entityId).any fun t => s.ownsContract a t.contractId
  else if e.entityType = "evidence" then
    (s.evidenceFiles.get? e.entityId).any fun f => s.ownsContract a f.contractId
  else if e.entityType = "xrpl_tx" then
    (s.ops.xrplTxs.get? e.entityId).any fun t => t.disputeId.any (s.ownsDispute a)
  else false

/-- The stores agree on the contracts of the caller and on the disputes, settlements and
    events of these contracts. -/
structure AgreeFor (a : BluesafeAuth) (s s' : Store) : Prop where
  contracts : s.ops.contracts.rows.filter (isPartyTo a) = s'.ops.contracts.rows.filter (isPartyTo a)
  disputes : (s.ops.disputes.rows.filter fun d => s.ownsContract a d.contractId) =
    s'.ops.disputes.rows.filter fun d => s'.ownsContract a d.contractId
  settlements : (s.settlements.rows.filter fun t => s.ownsContract a t.contractId) =
    s'.settlements.rows.filter fun t => s'.ownsContract a t.contractId
  events : s.ops.events.filter (s.ownsEvent a) = s'.ops.events.filter (s'.ownsEvent a)

/-- The four list endpoints. -/
def partyLists : List Route := [.contracts, .disputes, .settlements, .events]

/-- The queries whose reply depends on the caller's rows only: every query of the contracts,
    a query of the disputes that is rejected or whose window holds no instant, and a query
    of the settlements or the events that is rejected. -/
def Isolated (rt : Runtime) (q : Query) : Route → Prop
  | .disputes => ∀ f p, disputeListRequest rt q = .ok (f, p) →
      ∀ t, inWindow f.updatedFrom f.updatedTo t = false
  | .settlements => ∀ x, settlementListRequest rt q ≠ .ok x
  | .events => ∀ f, eventListRequest q ≠ .ok f
  | _ => True

/-! ## Replies -/

/-- The reply that a list call gives when it is rejected or answered. -/
theorem answer_invoke {config : Config} {oracle : Nat → Choice} {op : Call}
    (f : op.Res → Response) (s : Store) :
    answer (Async.runWith (world config.runtime) oracle
        (invoke op >>= fun a => pure (f a)) [] s).result =
      answer ((serve config.runtime (.inr op) (oracle 0) s).1.map f) := by
  rw [Async.runWith_call_pure]
  rfl

/-- An answer that is the same in two stores gives the same reply. -/
theorem serve_congr {rt : Runtime} {op : Call} {c : Choice} {s s' : Store}
    (h : (perform rt op c s).1 = (perform rt op c s').1) :
    (serve rt (.inr op) c s).1 = (serve rt (.inr op) c s').1 := by
  unfold serve
  dsimp only
  split
  · exact congrArg Except.ok h
  · rfl

/-! ## Contracts -/

/-- A text that is asked for is compared. -/
theorem matchesText_some {wanted : String} (h : wanted ≠ "") (value : String) :
    matchesText (some wanted) value = decide (value = wanted) := by
  simp [matchesText, truthy, h]

/-- The narrowed filter admits contracts of the caller only. -/
theorem isPartyTo_of_admits {config : Config} {headers : Headers} {a : BluesafeAuth}
    (hauth : authenticate config headers = .ok (some a))
    (hparty : a.role = .tenant ∨ a.role = .landlord) {f : ContractListFilter} {c : Contract}
    (h : (narrowToCaller config (some a) f).admits c = true) : isPartyTo a c = true := by
  -- what an authenticated party brings with it
  obtain ⟨hon, htenant, hlandlord⟩ := authenticate_eq_some hauth
  -- a tenant is asked for its own number, and a landlord likewise
  rcases hparty with hrole | hrole
  · obtain ⟨t, ht, hne⟩ := htenant hrole
    simp only [narrowToCaller, hon, if_true, hrole, ht, ContractListFilter.admits,
      matchesText_some hne, Bool.and_eq_true, decide_eq_true_eq] at h
    simp [isPartyTo, hrole, ht, h.1.1.2]
  · obtain ⟨t, ht, hne⟩ := hlandlord hrole
    simp only [narrowToCaller, hon, if_true, hrole, ht, ContractListFilter.admits,
      matchesText_some hne, Bool.and_eq_true, decide_eq_true_eq] at h
    simp [isPartyTo, hrole, ht, h.1.2]

/-- A filter that implies another one may be applied after it. -/
theorem filter_eq_filter_filter {α : Type} {p q : α → Bool} (h : ∀ x, p x = true → q x = true)
    (xs : List α) : xs.filter p = (xs.filter q).filter p := by
  rw [List.filter_filter]
  apply List.filter_congr
  intro x _
  cases hp : p x with
  | false => rfl
  | true => rw [h x hp]; rfl

/-- The contract list of a party is a function of its own contracts. -/
theorem contractsPage_congr {config : Config} {headers : Headers} {a : BluesafeAuth}
    (hauth : authenticate config headers = .ok (some a))
    (hparty : a.role = .tenant ∨ a.role = .landlord) {s s' : Store} (hagree : AgreeFor a s s')
    (f : ContractListFilter) (p : ListParams) :
    s.contractsPage (narrowToCaller config (some a) f) p =
      s'.contractsPage (narrowToCaller config (some a) f) p := by
  have himp : ∀ c, (narrowToCaller config (some a) f).admits c = true → isPartyTo a c = true :=
    fun _ h => isPartyTo_of_admits hauth hparty h
  unfold Store.contractsPage
  rw [filter_eq_filter_filter himp, hagree.contracts, ← filter_eq_filter_filter himp]

/-- No row is in a window without instants. -/
theorem disputesPage_of_empty_window {f : DisputeListFilter}
    (h : ∀ t, inWindow f.updatedFrom f.updatedTo t = false) (s : Store) (p : ListParams) :
    s.disputesPage f p = .of [] p := by
  have hnone : s.ops.disputes.rows.filter f.admits = [] := by
    rw [List.filter_eq_nil_iff]
    intro d _
    simp [DisputeListFilter.admits, h]
  rw [Store.disputesPage, hnone]
  rfl

/-! ## Rows of others -/

/-- A contract between two other parties. -/
def foreignContract (a : BluesafeAuth) (id : String) : Contract where
  id := id
  tenantId := a.tenantId.getD "" ++ "_"
  landlordId := a.landlordId.getD "" ++ "_"
  status := .active
  escrowCreateTxHash := none
  depositAmount := none
  stakeAmount := none
  startsAt := none
  endsAt := none
  createdAt := 0
  updatedAt := 0

/-- A text with something appended is another. -/
theorem ne_append_underscore (o : Option String) : o ≠ some (o.getD "" ++ "_") := by
  cases o with
  | none => simp
  | some t =>
    intro h
    have hlen := congrArg (fun o : Option String => (o.map String.length).getD 0) h
    simp [String.length_append] at hlen

/-- The caller is no party to the foreign contract. -/
theorem not_isPartyTo_foreign (a : BluesafeAuth) (id : String) :
    isPartyTo a (foreignContract a id) = false := by
  unfold isPartyTo foreignContract
  cases a.role with
  | tenant => simpa using ne_append_underscore a.tenantId
  | landlord => simpa using ne_append_underscore a.landlordId
  | operator => rfl
  | verifier => rfl
  | auditor => rfl

/-- A store that holds one contract, of others. -/
def foreignStore (a : BluesafeAuth) (contractId : String) : Store :=
  { Store.empty with
    ops := { Ops.Store.empty with contracts := ⟨[foreignContract a contractId], by simp⟩ } }

/-- Nor does it own one in the foreign store. -/
theorem not_ownsContract_foreign (a : BluesafeAuth) (contractId id : String) :
    (foreignStore a contractId).ownsContract a id = false := by
  simp only [Store.ownsContract, foreignStore, Table.get?, List.find?_cons, List.find?_nil]
  split
  · simp [not_isPartyTo_foreign]
  · rfl

/-- Which depends on the contracts of the store only. -/
theorem not_ownsContract_of_foreign {a : BluesafeAuth} {contractId : String} {s : Store}
    (h : s.ops.contracts = (foreignStore a contractId).ops.contracts) (id : String) :
    s.ownsContract a id = false := by
  unfold Store.ownsContract
  rw [h]
  exact not_ownsContract_foreign a contractId id

/-- Without contracts of its own a party has no events. -/
theorem ownsEvent_eq_false {a : BluesafeAuth} {s : Store}
    (h : ∀ id, s.ownsContract a id = false) : s.ownsEvent a = fun _ => false := by
  have hdispute : s.ownsDispute a = fun _ => false := by
    funext id
    simp [Store.ownsDispute, h]
  funext e
  simp [Store.ownsEvent, hdispute, h]

/-- Whatever else they hold, two stores whose only contract is one of others agree. -/
theorem agreeFor_of_foreign {a : BluesafeAuth} {contractId : String} {s s' : Store}
    (h : s.ops.contracts = (foreignStore a contractId).ops.contracts)
    (h' : s'.ops.contracts = (foreignStore a contractId).ops.contracts) : AgreeFor a s s' := by
  have hown := not_ownsContract_of_foreign h
  have hown' := not_ownsContract_of_foreign h'
  constructor
  · rw [h, h']
  · simp [hown, hown']
  · simp [hown, hown']
  · simp [ownsEvent_eq_false hown, ownsEvent_eq_false hown']

/-- A filter matches the value it asks for. -/
theorem matchesText_getD (wanted : Option String) (fallback : String) :
    matchesText wanted ((truthy wanted).getD fallback) = true := by
  unfold matchesText
  cases truthy wanted with
  | none => rfl
  | some w => simp

/-- The same for values that are no texts. -/
theorem matchesOpt_getD {α : Type} [DecidableEq α] (wanted : Option α) (fallback : α) :
    matchesOpt wanted (wanted.getD fallback) = true := by
  unfold matchesOpt
  cases wanted with
  | none => rfl
  | some w => simp

/-- A dispute of others that the filter admits. -/
def foreignDispute (f : DisputeListFilter) (t : Time) : DisputeCase where
  id := "dsp_9"
  contractId := (truthy f.contractId).getD "ctr_9"
  raisedBy := .tenant
  reasonCode := "deposit_not_returned"
  status := f.status.getD .filed
  evidenceBundle := []
  createdAt := 0
  updatedAt := t
  reviewDeadlineAt := none
  escalatedAt := none

/-- The foreign dispute passes the filter it was made for. -/
theorem admits_foreignDispute {f : DisputeListFilter} {t : Time}
    (h : inWindow f.updatedFrom f.updatedTo t = true) : f.admits (foreignDispute f t) = true := by
  simp [DisputeListFilter.admits, foreignDispute, matchesText_getD, matchesOpt_getD, h]

/-- A settlement of others that the filter admits. -/
def foreignSettlement (f : SettlementListFilter) : SettlementRecord where
  id := "stl_9"
  contractId := (truthy f.contractId).getD "ctr_9"
  periodYear := f.periodYear.getD 2026
  periodMonth := f.periodMonth.getD 1
  status := f.status.getD .collecting
  lastLedgerIndex := none
  ledgerCloseCount := 1
  createdAt := 0
  updatedAt := 0
  amountMinor := none
  currencyCode := "XRP"
  batchId := none
  confirmedAt := none

/-- So does the foreign settlement. -/
theorem admits_foreignSettlement (f : SettlementListFilter) :
    f.admits (foreignSettlement f) = true := by
  simp [SettlementListFilter.admits, foreignSettlement, matchesText_getD, matchesOpt_getD]

/-- An event that the filter admits. -/
def foreignEvent (f : EventFilter) : EventEnvelope where
  eventId := "evt_9"
  eventType := (truthy f.eventType).getD "contract.created"
  occurredAt := 0
  entityType := (truthy f.entityType).getD "contract"
  entityId := (truthy f.entityId).getD "ctr_9"
  payload := []
  traceId := "trc_9"

/-- And the foreign event. -/
theorem admits_foreignEvent (f : EventFilter) : f.admits (foreignEvent f) = true := by
  simp [EventFilter.admits, foreignEvent, matchesText_getD]

/-! ## Replies that differ -/

/-- Pages with different totals give different replies. -/
theorem Page.json_total {α : Type} {item : α → Value} {page page' : Page α}
    (h : page.json item = page'.json item) : page.total = page'.total := by
  simp only [Page.json, Response.ok, Response.json, Response.mk.injEq, Body.json.injEq,
    Value.obj.injEq, List.cons.injEq, Prod.mk.injEq, Value.num, Value.json.injEq,
    Ops.Json.num.injEq, Int.ofNat_inj] at h
  exact h.2.2.1.2

section Leaks

variable {config : Config} {a : BluesafeAuth} {q : Query}

/-- The replies that a handler gives in two stores when no call fails. -/
def RepliesDiffer (config : Config) (handler : ApiM Response) (s s' : Store) : Prop :=
  answer (Async.runWith (world config.runtime) (fun _ => {}) handler [] s).result ≠
    answer (Async.runWith (world config.runtime) (fun _ => {}) handler [] s').result

/-- The list of disputes, behind its guards. -/
theorem listDisputes_eq {f : DisputeListFilter} {p : ListParams}
    (h : disputeListRequest config.runtime q = .ok (f, p)) :
    listDisputes config (some a) q =
      (invoke (.listDisputesPage f p) >>= fun page => pure (page.json disputeJson)) := by
  rw [listDisputes, route_allRoles, h]
  rfl

/-- The list of events, behind its guards. -/
theorem listEvents_eq {f : EventFilter} (h : eventListRequest q = .ok f) :
    listEvents config (some a) q = (invoke (.listEvents f) >>= fun items =>
      pure (.ok [("count", .num items.length), ("items", .arr (items.map eventJson))])) := by
  rw [listEvents, route_allRoles, h]
  rfl

/-- The dispute list counts disputes of others. -/
theorem listDisputes_leaks {f : DisputeListFilter} {p : ListParams} {t : Time}
    (h : disputeListRequest config.runtime q = .ok (f, p))
    (ht : inWindow f.updatedFrom f.updatedTo t = true) :
    ∃ s s', AgreeFor a s s' ∧ RepliesDiffer config (listDisputes config (some a) q) s s' := by
  -- the two stores differ in a dispute of a contract of others
  let s := foreignStore a (foreignDispute f t).contractId
  let s' : Store := { s with ops := { s.ops with disputes := ⟨[foreignDispute f t], by simp⟩ } }
  refine ⟨s, s', agreeFor_of_foreign rfl rfl, ?_⟩
  rw [RepliesDiffer, listDisputes_eq h, answer_invoke, answer_invoke]
  intro heq
  have htotal : (s.disputesPage f p).total = (s'.disputesPage f p).total := Page.json_total heq
  -- so the totals of the two pages differ
  have hnone : (s.disputesPage f p).total = 0 := rfl
  have hone : (s'.disputesPage f p).total = 1 := by
    simp [Store.disputesPage, Page.of, s', admits_foreignDispute ht]
  omega

/-- The event list counts events of others. -/
theorem listEvents_leaks {f : EventFilter} (h : eventListRequest q = .ok f) :
    ∃ s s', AgreeFor a s s' ∧ RepliesDiffer config (listEvents config (some a) q) s s' := by
  -- the two stores differ in one event
  let s := foreignStore a "ctr_9"
  let s' : Store := { s with ops := { s.ops with events := [foreignEvent f] } }
  refine ⟨s, s', agreeFor_of_foreign rfl rfl, ?_⟩
  rw [RepliesDiffer, listEvents_eq h, answer_invoke, answer_invoke]
  intro heq
  have hnone : s.listEvents f = [] := rfl
  have hone : s'.listEvents f = [foreignEvent f] := by
    simp [Store.listEvents, s', admits_foreignEvent]
  simp [serve, perform, hnone, hone, answer, Except.map, Response.ok, Response.json,
    Value.num] at heq

/-- When no call fails, the access checks of a page return and change nothing. -/
theorem runWith_accessibleSettlements (config : Config) (auth : Option BluesafeAuth)
    (items : List SettlementRecord) (l : ApiLog) (s : Store) :
    ∃ l' out, Async.runWith (world config.runtime) (fun _ => {})
      (accessibleSettlements config auth items) l s = ⟨l', .ok out, s⟩ := by
  induction items generalizing l with
  | nil => exact ⟨l, [], rfl⟩
  | cons item rest ih =>
    -- The access check of one item is one read of its contract.
    have hcheck : ∃ l' b, Async.runWith (world config.runtime) (fun _ => {})
        (canAccessSettlement config auth item) l s = ⟨l', .ok b, s⟩ := by
      have hread : Async.runWith (world config.runtime) (fun _ => {})
          (ofOps (Ops.getContract item.contractId)) l s =
          ⟨⟨.inl (.getContract item.contractId), .ok (s.ops.contracts.get? item.contractId)⟩ :: l,
            .ok (s.ops.contracts.get? item.contractId), s⟩ := rfl
      unfold canAccessSettlement contractAccessible
      rw [Async.runWith_bind, hread]
      cases (s.ops.contracts.get? item.contractId) with
      | none => exact ⟨_, _, rfl⟩
      | some c => exact ⟨_, _, rfl⟩
    obtain ⟨l₁, b, hb⟩ := hcheck
    obtain ⟨l₂, out, hout⟩ := ih l₁
    rw [accessibleSettlements, Async.runWith_bind, hb]
    simp only [Async.Outcome.andThen]
    rw [Async.runWith_bind, hout]
    exact ⟨l₂, _, rfl⟩

/-- When no call fails, the settlement list replies with the total of the page. -/
theorem answer_listSettlements {f : SettlementListFilter} {p : ListParams}
    (h : settlementListRequest config.runtime q = .ok (f, p)) (s : Store) :
    ∃ items : List SettlementRecord,
      answer (Async.runWith (world config.runtime) (fun _ => {})
        (listSettlements config (some a) q) [] s).result =
      .ok [("count", .num items.length),
        ("total", .num (s.settlementsPage config.runtime f p).total), ("limit", .num p.limit),
        ("offset", .num p.offset), ("items", .arr (items.map SettlementRecord.json))] := by
  -- the filter of the accessible settlements leaves the store as it was
  obtain ⟨l, items, hitems⟩ := runWith_accessibleSettlements config (some a)
    (s.settlementsPage config.runtime f p).items
    [⟨.inr (.listSettlementsPage f p), .ok (s.settlementsPage config.runtime f p)⟩] s
  refine ⟨items, ?_⟩
  -- the page is the first call
  have hpage : ((world config.runtime).serve (.inr (.listSettlementsPage f p)) {} s).1 =
      .ok (s.settlementsPage config.runtime f p) := rfl
  rw [listSettlements, route_allRoles, h]
  simp only [withRequest]
  rw [Async.runWith_bind, Async.runWith_call_ok _ _ hpage]
  simp only [Async.Outcome.andThen]
  rw [Async.runWith_bind]
  have hstate : ((world config.runtime).serve (.inr (.listSettlementsPage f p)) {} s).2 = s := rfl
  rw [hstate, hitems]
  rfl

/-- The total of the settlement list counts settlements of others. -/
theorem listSettlements_leaks {f : SettlementListFilter} {p : ListParams}
    (h : settlementListRequest config.runtime q = .ok (f, p)) :
    ∃ s s', AgreeFor a s s' ∧ RepliesDiffer config (listSettlements config (some a) q) s s' := by
  -- the two stores differ in a settlement of a contract of others
  let s := foreignStore a (foreignSettlement f).contractId
  let s' : Store := { s with settlements := ⟨[foreignSettlement f], by simp⟩ }
  refine ⟨s, s', agreeFor_of_foreign rfl rfl, ?_⟩
  obtain ⟨items, hitems⟩ := answer_listSettlements (a := a) h s
  obtain ⟨items', hitems'⟩ := answer_listSettlements (a := a) h s'
  rw [RepliesDiffer, hitems, hitems']
  intro heq
  -- and the totals differ again
  have hnone : (s.settlementsPage config.runtime f p).total = 0 := rfl
  have hone : (s'.settlementsPage config.runtime f p).total = 1 := by
    simp [Store.settlementsPage, Page.of, s', admits_foreignSettlement]
  simp [hnone, hone, Response.ok, Response.json, Value.num] at heq

end Leaks

/-! ## The endpoints -/

section Isolation

variable {config : Config} {a : BluesafeAuth} {q : Query}

/-- The replies of a handler are the same in all stores that agree for the caller. -/
def RepliesAgree (config : Config) (a : BluesafeAuth) (handler : ApiM Response) : Prop :=
  ∀ oracle s s', AgreeFor a s s' →
    answer (Async.runWith (world config.runtime) oracle handler [] s).result =
      answer (Async.runWith (world config.runtime) oracle handler [] s').result

/-- A query that is rejected is answered without a call. -/
theorem withRequest_agree {α : Type} {request : Except Response α} {handler : α → ApiM Response}
    (h : ∀ x, request = .ok x → RepliesAgree config a (handler x)) :
    RepliesAgree config a (withRequest request handler) := by
  intro oracle s s' hagree
  cases request with
  | error reply => rfl
  | ok x => exact h x rfl oracle s s' hagree

/-- A handler of one list call, when the answer to the call is the same. -/
theorem invoke_agree {op : Call} {f : op.Res → Response}
    (h : ∀ c s s', AgreeFor a s s' →
      (perform config.runtime op c s).1 = (perform config.runtime op c s').1) :
    RepliesAgree config a (invoke op >>= fun x => pure (f x)) := by
  intro oracle s s' hagree
  rw [answer_invoke, answer_invoke, serve_congr (h _ s s' hagree)]

/-- Two stores that agree for the caller and give different replies. -/
theorem not_agree_of_differ {handler : ApiM Response}
    (h : ∃ s s', AgreeFor a s s' ∧ RepliesDiffer config handler s s') :
    ¬ RepliesAgree config a handler := by
  obtain ⟨s, s', hagree, hdiffer⟩ := h
  intro hall
  exact hdiffer (hall _ s s' hagree)

/-- The list of contracts is filtered by their parties. -/
theorem listContracts_agree {headers : Headers}
    (hauth : authenticate config headers = .ok (some a))
    (hparty : a.role = .tenant ∨ a.role = .landlord) :
    RepliesAgree config a (listContracts config (some a) q) := by
  rw [listContracts, route_allRoles]
  apply withRequest_agree
  intro x _
  apply invoke_agree
  intro c s s' hagree
  exact contractsPage_congr hauth hparty hagree x.1 x.2

/-- Disputes are isolated when nothing foreign can be on the list. -/
theorem listDisputes_agree_iff :
    RepliesAgree config a (listDisputes config (some a) q) ↔
      Isolated config.runtime q .disputes := by
  -- two stores that differ show the list to leak, unless its window is empty
  constructor
  · intro hall f p hreq t
    by_contra ht
    exact not_agree_of_differ (listDisputes_leaks hreq (by simpa using ht)) hall
  · intro hclosed
    rw [listDisputes, route_allRoles]
    apply withRequest_agree
    intro x hreq
    apply invoke_agree
    intro c s s' _
    -- with an empty window both pages are empty
    have hwindow := hclosed x.1 x.2 hreq
    simp only [perform]
    rw [disputesPage_of_empty_window hwindow, disputesPage_of_empty_window hwindow]

/-- So are settlements. -/
theorem listSettlements_agree_iff :
    RepliesAgree config a (listSettlements config (some a) q) ↔
      Isolated config.runtime q .settlements := by
  constructor
  · intro hall x hreq
    exact not_agree_of_differ (listSettlements_leaks hreq) hall
  · intro hclosed
    rw [listSettlements, route_allRoles]
    apply withRequest_agree
    intro x hreq
    exact absurd hreq (hclosed x)

/-- And events. -/
theorem listEvents_agree_iff :
    RepliesAgree config a (listEvents config (some a) q) ↔ Isolated config.runtime q .events := by
  constructor
  · intro hall f hreq
    exact not_agree_of_differ (listEvents_leaks hreq) hall
  · intro hclosed
    rw [listEvents, route_allRoles]
    apply withRequest_agree
    intro f hreq
    exact absurd hreq (hclosed f)

end Isolation

/-- For every party, every query and every behaviour of the environment, the replies of a list
    endpoint are the same in all stores that agree on the caller's contracts and on what
    belongs to them exactly when the query is isolated. -/
theorem party_isolation (config : Config) (other : Request → Option BluesafeAuth → ApiM Response)
    (req : Request) (a : BluesafeAuth) (hget : req.method = .get)
    (hroute : req.route ∈ partyLists)
    (hauth : authenticate config req.headers = .ok (some a))
    (hparty : a.role = .tenant ∨ a.role = .landlord) :
    (∀ oracle s s', AgreeFor a s s' →
      respond config other oracle s req = respond config other oracle s' req) ↔
    Isolated config.runtime req.query req.route := by
  -- the request is answered by the handler of its route
  have hread : (∀ oracle s s', AgreeFor a s s' →
      respond config other oracle s req = respond config other oracle s' req) ↔
      RepliesAgree config a (read config (some a) req.query req.route) := by
    unfold RepliesAgree
    simp only [respond_get hget hauth]
  rw [hread]
  simp only [partyLists, List.mem_cons, List.not_mem_nil, or_false] at hroute
  -- the four lists: the first one is narrowed, and the others have their condition
  rcases hroute with h | h | h | h
  · rw [h]
    exact iff_of_true (listContracts_agree hauth hparty) trivial
  · rw [h]
    exact listDisputes_agree_iff
  · rw [h]
    exact listSettlements_agree_iff
  · rw [h]
    exact listEvents_agree_iff

/-- A tenant asks for the disputes without a filter. -/
theorem party_isolation_disputes :
    ¬ (∀ oracle s s', AgreeFor ⟨.tenant, some "tenant_2", none⟩ s s' →
      respond sampleConfig sampleWrites oracle s (sampleRequest .get .disputes "tenant") =
        respond sampleConfig sampleWrites oracle s' (sampleRequest .get .disputes "tenant")) := by
  rw [party_isolation sampleConfig sampleWrites (sampleRequest .get .disputes "tenant")
    ⟨.tenant, some "tenant_2", none⟩ rfl (by decide) rfl (.inl rfl)]
  intro hclosed
  have hwindow := hclosed ⟨none, none, none, none⟩ ⟨50, 0⟩ rfl 0
  exact absurd hwindow (by decide)

/-- The tenant `tenant_2`, who has no contract, is told whether `tenant_1` has filed a
    dispute. -/
theorem foreign_dispute_listed :
    ∃ s s' : Store, AgreeFor ⟨.tenant, some "tenant_2", none⟩ s s' ∧
      respond sampleConfig sampleWrites (fun _ => {}) s (sampleRequest .get .disputes "tenant") ≠
        respond sampleConfig sampleWrites (fun _ => {}) s'
          (sampleRequest .get .disputes "tenant") := by
  refine ⟨{ Store.empty with ops := Ops.sampleStore [] },
    { Store.empty with ops := Ops.sampleStore [Ops.sampleDispute "dsp_1" .filed] },
    ⟨by rfl, by rfl, by rfl, by rfl⟩, ?_⟩
  intro heq
  rw [respond_get rfl rfl, respond_get rfl rfl] at heq
  have htotal := Page.json_total heq
  exact absurd htotal (by decide)

end Bluesafe.Api
