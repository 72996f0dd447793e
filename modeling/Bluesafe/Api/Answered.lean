import Bluesafe.Api.Evidence
import Bluesafe.Async.Keeps

/-!
# Runs in which every call is answered

In the world `answered` no call is rejected; the clock, the generator and the remote services
still answer what they like. A statement `Returns (answered rt) p Q s` is about every such run
of `p` from the store `s`: it returns, and `Q` holds of the value and of the store it leaves.
-/

namespace Bluesafe.Api

open Async
open Bluesafe.Ops (blockAuditorWriteOperations AuditLog EventEnvelope BluesafeAuth JsonObject allRoles requireRoles
  canAccessContract)

/-- The world in which no call is rejected. -/
def answered (rt : Runtime) : World calls String Store Choice :=
  (world rt).restrict fun c => c.failure.isNone

section Rules

variable {rt : Runtime} {s : Store} {α : Type}

theorem failure_of_answered {op : calls.Op} {c : Choice} (h : (answered rt).allow op c s = true) :
    c.failure = none :=
  Option.isNone_iff_eq_none.mp (allow_restrict.mp h).2

/-- A call of this part of the backend. -/
theorem returns_invoke {op : Call} {Q : op.Res → Store → Prop}
    (h : ∀ c, Q (perform rt op c s).1 (perform rt op c s).2) :
    Returns (answered rt) (invoke op) Q s := by
  refine .call fun c hc => ?_
  have hfail := failure_of_answered hc
  have hserve : (answered rt).serve (.inr op) c s =
      (.ok (perform rt op c s).1, (perform rt op c s).2) := by
    show serve rt (.inr op) c s = _
    simp only [serve, hfail]
  rw [hserve]
  exact ⟨_, rfl, h c⟩

/-- A call of `Bluesafe.Ops`: it sees and changes its own part of the store. -/
theorem returns_opsInvoke {op : Ops.Call} {Q : op.Res → Store → Prop}
    (h : ∀ c, Q (Ops.perform op c s.ops).1 { s with ops := (Ops.perform op c s.ops).2 }) :
    Returns (answered rt) (ofOps (Ops.invoke op)) Q s := by
  rw [ofOps_invoke]
  refine .call fun c hc => ?_
  have hfail : c.toChoice.failure = none := failure_of_answered hc
  have hserve : (answered rt).serve (.inl op) c s =
      (.ok (Ops.perform op c.toChoice s.ops).1,
        { s with ops := (Ops.perform op c.toChoice s.ops).2 }) := by
    show serve rt (.inl op) c s = _
    simp only [serve, Ops.serve_performed hfail]
  rw [hserve]
  exact ⟨_, rfl, h c.toChoice⟩

/-- The store with one more audit entry. -/
def Store.audited (s : Store) (log : AuditLog) : Store :=
  { s with ops := { s.ops with audits := log :: s.ops.audits } }

/-- An audit: one more entry, with the given action. -/
theorem returns_writeAudit (entityType entityId action actor : String)
    (before after metadata : Option JsonObject) :
    Returns (answered rt)
      (ofOps (Ops.writeAudit entityType entityId action actor before after metadata))
      (fun _ s' => ∃ log, log.action = action ∧ s' = s.audited log) s := by
  unfold Ops.writeAudit
  simp only [inl_bind]
  refine Returns.bind (R := fun _ s₁ => s₁ = s) (returns_opsInvoke fun _ => rfl) fun id s₁ hid => ?_
  subst hid
  refine Returns.bind (R := fun _ s₂ => s₂ = s₁) (returns_opsInvoke fun _ => rfl)
    fun createdAt s₂ hclock => ?_
  subst hclock
  exact returns_opsInvoke fun _ => ⟨_, rfl, rfl⟩

/-- The second store is the first one with other audit entries and events. -/
def Recorded (s s' : Store) : Prop :=
  ∃ audits events, s' = { s with ops := { s.ops with audits := audits, events := events } }

theorem Recorded.trans {s t u : Store} (h : Recorded s t) (h' : Recorded t u) : Recorded s u := by
  obtain ⟨_, _, rfl⟩ := h
  obtain ⟨audits, events, rfl⟩ := h'
  exact ⟨audits, events, rfl⟩

theorem audit_recorded (entityType entityId action actor : String)
    (before after metadata : Option JsonObject) :
    Returns (answered rt)
      (ofOps (Ops.writeAudit entityType entityId action actor before after metadata))
      (fun _ => Recorded s) s := by
  refine Returns.mono (returns_writeAudit _ _ _ _ _ _ _) fun _ s' hs' => ?_
  obtain ⟨log, -, rfl⟩ := hs'
  exact ⟨log :: s.ops.audits, s.ops.events, rfl⟩

theorem event_recorded (eventType entityType entityId : String) (payload : JsonObject) :
    Returns (answered rt) (ofOps (Ops.emitEvent eventType entityType entityId payload))
      (fun _ => Recorded s) s := by
  unfold Ops.emitEvent
  simp only [inl_bind]
  refine Returns.bind (R := fun _ s₁ => s₁ = s) (returns_opsInvoke fun _ => rfl) fun id s₁ hid => ?_
  subst hid
  refine Returns.bind (R := fun _ s₂ => s₂ = s₁) (returns_opsInvoke fun _ => rfl)
    fun trace s₂ htrace => ?_
  subst htrace
  refine Returns.bind (R := fun _ s₃ => s₃ = s₂) (returns_opsInvoke fun _ => rfl)
    fun occurredAt s₃ hclock => ?_
  subst hclock
  exact returns_opsInvoke fun _ => ⟨s₃.ops.audits, _, rfl⟩

/-- The check of the contract of a row. -/
theorem returns_contractAccessible (config : Config) (auth : Option BluesafeAuth)
    (contractId : String) :
    Returns (answered rt) (contractAccessible config auth contractId)
      (fun accessible s' => accessible = (s.ops.contracts.get? contractId).any
        (Ops.canAccessContract config.ops auth) ∧ s' = s) s := by
  unfold contractAccessible
  refine Returns.bind (R := fun found s₁ => found = s.ops.contracts.get? contractId ∧ s₁ = s)
    (returns_opsInvoke fun _ => ⟨rfl, rfl⟩) fun found s₁ hread => ?_
  obtain ⟨rfl, rfl⟩ := hread
  cases s₁.ops.contracts.get? contractId with
  | none => exact .pure ⟨rfl, rfl⟩
  | some contract => exact .pure ⟨rfl, rfl⟩

end Rules

/-! ## Access -/

section Access

variable {config : Config} {caller : Caller} {s : Store} {contractId : String}

/-- The contract is stored and `canAccessContract` admits the caller. -/
def Caller.mayAccess (config : Config) (caller : Caller) (s : Store) (contractId : String) : Bool :=
  (s.ops.contracts.get? contractId).any (canAccessContract config.ops caller.auth)

/-- A refusal of the roles is a `403`. -/
theorem status_of_requireRoles {allowed : List Ops.BluesafeRole} {auth : Option Ops.BluesafeAuth}
    {r : Ops.Reply} (h : requireRoles config.ops allowed auth = some r) : r.status = 403 := by
  unfold requireRoles at h
  split at h
  · cases h
  · split at h
    · split at h
      · cases h
      · cases h
        rfl
    · cases h
      rfl

/-- A caller without a role accesses nothing. -/
theorem mayAccess_of_requireRoles {r : Ops.Reply}
    (h : requireRoles config.ops allRoles caller.auth = some r) :
    caller.mayAccess config s contractId = false := by
  unfold requireRoles at h
  split at h
  · cases h
  · rename_i henabled
    cases hauth : caller.auth with
    | none =>
      have hnone : ∀ c, canAccessContract config.ops none c = false := by
        intro c
        unfold canAccessContract
        rw [if_neg henabled]
      unfold Caller.mayAccess
      rw [hauth]
      cases s.ops.contracts.get? contractId with
      | none => rfl
      | some c => exact hnone c
    | some a =>
      rw [hauth] at h
      -- every role is one of `allRoles`, so only a missing role is refused
      have hrole : a.role ∈ allRoles := by cases a.role <;> decide
      dsimp only at h
      rw [if_pos hrole] at h
      cases h

/-- A caller that accesses a contract passes the guard of the roles. -/
theorem requireRoles_of_mayAccess (h : caller.mayAccess config s contractId = true) :
    requireRoles config.ops allRoles caller.auth = none := by
  cases hroles : requireRoles config.ops allRoles caller.auth with
  | none => rfl
  | some r =>
    rw [mayAccess_of_requireRoles hroles] at h
    cases h

/-- The guard of the auditors refuses auditors only. -/
theorem blockAuditor_eq_some {r : Ops.Reply}
    (h : blockAuditorWriteOperations config.ops caller.auth = some r) :
    r.status = 403 ∧ config.ops.authEnabled = true ∧
      caller.auth.map Ops.BluesafeAuth.role = some .auditor := by
  unfold blockAuditorWriteOperations at h
  split at h
  · rename_i hblocked
    cases h
    simp only [Bool.and_eq_true, beq_iff_eq] at hblocked
    exact ⟨rfl, hblocked⟩
  · cases h

/-- A writing route answers `403` or runs its handler. -/
theorem returns_writeRoute {σ κ : Type} {W : World calls String σ κ} {allowed : List Ops.BluesafeRole}
    {handler : ApiM Response} {Q : Response → σ → Prop} {g : σ}
    (hrefused : ∀ reply : Response, reply.status = 403 → Q reply g) (hp : Returns W handler Q g) :
    Returns W (writeRoute config allowed caller handler) Q g := by
  unfold writeRoute
  -- the two guards in their order
  cases hblock : blockAuditorWriteOperations config.ops caller.auth with
  | some r => exact .pure (hrefused _ (blockAuditor_eq_some hblock).1)
  | none =>
    dsimp only
    unfold route
    cases hroles : requireRoles config.ops allowed caller.auth with
    | some r => exact .pure (hrefused _ (status_of_requireRoles hroles))
    | none => exact hp

end Access

end Bluesafe.Api
