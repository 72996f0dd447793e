import Bluesafe.Api.Votes
import Bluesafe.Api.Settlements
import Bluesafe.Api.ExportJobs
import Bluesafe.Api.Server
import Bluesafe.Async.Interp
import Bluesafe.Notify.Workers

/-!
# The calls of the whole backend

The interface of the backend as one process: the calls of `Bluesafe.Api`, those of the
notification services, and the two writes of the operator console that neither of them has.
Both parts work on one repository: `Store.notify` is what the notification services see of
it, and `Store.withNotify` puts their changes back.

Generated identifiers are new: `issued` remembers the ones that were returned, and none of
them is a key of a stored row.
-/

namespace Bluesafe.Backend

open Bluesafe.Api (RegistryEntry ExportJob Runtime)

/-- The awaited calls that the two other parts do not have. -/
inductive Call
  | upsertDisputeVerifierRegistryEntry (e : RegistryEntry)
  | createExportJob (job : ExportJob)

/-- The answer type of each call. -/
@[reducible] def Call.Res : Call → Type
  | .upsertDisputeVerifierRegistryEntry _ => Unit
  | .createExportJob _ => Unit

/-- The interface of the backend. -/
@[reducible] def calls : Interface := (Api.calls.sum Notify.calls).sum ⟨Call, Call.Res⟩

/-- An `async` function; a rejection carries the error message. -/
abbrev BackendM (α : Type) : Type := Async calls String α

/-- The calls one request has made, newest first. -/
abbrev BackendLog : Type := Log calls String

/-- Await one call. -/
abbrev invoke (op : Call) : BackendM op.Res := Async.call (I := calls) (.inr op)

/-- A program of `Bluesafe.Api`. -/
abbrev ofApi {α : Type} (p : Api.ApiM α) : BackendM α := Async.inl (Async.inl p)

/-- A program of `Bluesafe.Ops`. -/
abbrev ofOps {α : Type} (p : Ops.OpsM α) : BackendM α := ofApi (Api.ofOps p)

/-- A program of the notification services. -/
abbrev ofNotify {α : Type} (p : Notify.NotifyM α) : BackendM α := Async.inl (Async.inr p)

/-! ## The store -/

/-- What the repository keeps, and the identifiers that were generated. -/
structure Store where
  api : Api.Store
  issued : List String

def Store.empty : Store := ⟨.empty, []⟩

/-- What the notification services see. -/
def Store.notify (s : Store) : Notify.Store :=
  ⟨s.api.notifications, s.api.outbox, s.api.ops.audits, s.api.ops.events, s.issued⟩

/-- The store after a change by the notification services. -/
def Store.withNotify (s : Store) (n : Notify.Store) : Store where
  api := { s.api with
    notifications := n.notifications
    outbox := n.outbox
    ops := { s.api.ops with audits := n.audits, events := n.events } }
  issued := n.issued

/-- What the environment decides at a call. -/
structure Choice extends toApi : Api.Choice where
  delivery : Notify.DeliveryResult := ⟨true, none⟩

/-- The choice as the notification services see it. -/
def Choice.notify (c : Choice) : Notify.Choice :=
  ⟨c.failure, c.applied, c.now, c.id, c.delivery⟩

/-- The answer and the effect of a call that is not rejected. -/
def perform : (op : Call) → Store → op.Res × Store
  | .upsertDisputeVerifierRegistryEntry e, s =>
    ((), { s with api := { s.api with registry := s.api.registry.set e } })
  | .createExportJob job, s =>
    ((), { s with api := { s.api with exportJobs := s.api.exportJobs.set job } })

/-- The identifiers a call of `Bluesafe.Api` generates. -/
def issues : Api.calls.Op → Choice → List String
  | .inl (.randomId _), c => [c.id]
  | _, _ => []

/-- The answer to a call, rejected or not. -/
def serve (rt : Runtime) : (op : calls.Op) → Choice → Store → Except String (calls.Res op) × Store
  | .inl (.inl op), c, s =>
    let r := Api.serve rt op c.toApi s.api
    (r.1, ⟨r.2, issues op c ++ s.issued⟩)
  | .inl (.inr op), c, s =>
    let r := Notify.serve op c.notify s.notify
    (r.1, s.withNotify r.2)
  | .inr op, c, s =>
    match c.failure with
    | none => (.ok (perform op s).1, (perform op s).2)
    | some e => (.error e, if c.applied then (perform op s).2 else s)

/-- An identifier that was never generated and is not the key of a row. -/
def Store.isFresh (s : Store) (id : String) : Bool :=
  !s.issued.contains id && (s.api.ops.contracts.get? id).isNone &&
    (s.api.ops.disputes.get? id).isNone && (s.api.ops.decisions.get? id).isNone &&
    (s.api.evidenceFiles.get? id).isNone && (s.api.ops.evidences.get? id).isNone &&
    (s.api.exportJobs.get? id).isNone && (s.api.notifications.get? id).isNone &&
    (s.api.outbox.get? id).isNone

/-- The identifiers that a call generates are new. -/
def issuesFresh : calls.Op → Choice → Store → Bool
  | .inl (.inl (.inl (.randomId _))), c, s => s.isFresh c.id
  | .inl (.inr (.randomId _)), c, s => s.isFresh c.id
  | _, _, _ => true

/-- Any call but the clock and the generator may be rejected. -/
def world (rt : Runtime) : World calls String Store Choice where
  allow := fun op c s => issuesFresh op c s &&
    match op with
    | .inl (.inl op) => (Api.world rt).allow op c.toApi s.api
    | .inl (.inr op) => Notify.world.allow op c.notify s.notify
    | .inr _ => true
  serve := serve rt

end Bluesafe.Backend
