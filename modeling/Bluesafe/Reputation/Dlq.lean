import Bluesafe.ForStd.JsonValue
import Bluesafe.ForStd.Table
import Bluesafe.Ops.Types

/-!
# The dead-letter store of the reputation webhook

`services/reputation-dlq.ts`: a map from idempotency keys to the deliveries that failed. It
holds at most `MAX` entries, which is a field of `Dlq`: `recordReputationOutboundDlq` deletes
the first keys of the map when there are more.
-/

namespace Bluesafe.Reputation

open Bluesafe.Ops (Time)

/-- `ReputationOutboundBody`. -/
structure ReputationOutboundBody where
  idempotencyKey : String
  eventType : String
  subjectType : String
  subjectId : String
  payload : Option (List (String × JsonValue)) := none
  tokenStandardRefs : Option (List String) := none

/-- The second argument of `recordReputationOutboundDlq`. -/
structure FailureDetail where
  httpStatus : Option Nat := none
  error : Option String := none

structure ReputationDlqEntry where
  idempotencyKey : String
  body : ReputationOutboundBody
  failedAt : Time
  lastHttpStatus : Option Nat
  lastError : Option String
  attempts : Nat

/-- The map from keys to entries, in the order of the insertions. -/
abbrev Entries : Type := Table ReputationDlqEntry.idempotencyKey

def MAX : Nat := 500

/-- The deletion of the keys in front of the last `MAX`. -/
def deleteOldest (entries : Entries) : Entries :=
  if entries.rows.length > MAX then
    let oldest := (entries.rows.map (·.idempotencyKey)).take (entries.rows.length - MAX)
    oldest.foldl Table.erase entries
  else entries

theorem rows_deleteOldest (entries : Entries) :
    (deleteOldest entries).rows = entries.rows.drop (entries.rows.length - MAX) := by
  unfold deleteOldest
  split
  · exact Table.rows_foldl_erase_take entries _
  · have hzero : entries.rows.length - MAX = 0 := by omega
    rw [hzero, List.drop_zero]

/-- The store: the map `entries` of the module. -/
structure Dlq where
  entries : Entries
  bounded : entries.rows.length ≤ MAX

def Dlq.empty : Dlq := ⟨.empty, Nat.zero_le _⟩

/-- `entries.get(key)`, as in `getReputationDlq`. -/
def getReputationDlq (idempotencyKey : String) (dlq : Dlq) : Option ReputationDlqEntry :=
  dlq.entries.get? idempotencyKey

/-- The entry that a failure leaves. -/
def failedEntry (now : Time) (body : ReputationOutboundBody) (detail : FailureDetail)
    (prev : Option ReputationDlqEntry) : ReputationDlqEntry where
  idempotencyKey := body.idempotencyKey
  body := body
  failedAt := now
  lastHttpStatus := detail.httpStatus
  lastError := detail.error
  attempts := (prev.map (·.attempts)).getD 0 + 1

/-- `recordReputationOutboundDlq`, at the time `now`. -/
def recordReputationOutboundDlq (now : Time) (body : ReputationOutboundBody)
    (detail : FailureDetail) (dlq : Dlq) : Dlq where
  entries := deleteOldest
    (dlq.entries.set (failedEntry now body detail (getReputationDlq body.idempotencyKey dlq)))
  bounded := by
    rw [rows_deleteOldest, List.length_drop]
    omega

/-- `removeReputationDlq`. -/
def removeReputationDlq (idempotencyKey : String) (dlq : Dlq) : Dlq where
  entries := dlq.entries.erase idempotencyKey
  bounded := (List.length_filter_le _ _).trans dlq.bounded

/-- `listReputationDlq`. -/
def listReputationDlq (limit : Int) (dlq : Dlq) : List ReputationDlqEntry :=
  let n := (min 200 (max 1 limit)).toNat
  (dlq.entries.rows.drop (dlq.entries.rows.length - n)).reverse

/-! ## The order of the entries -/

/-- The keys in the order of the map. -/
def Dlq.keys (dlq : Dlq) : List String := dlq.entries.rows.map (·.idempotencyKey)

variable {now : Time} {body : ReputationOutboundBody} {detail : FailureDetail} {dlq : Dlq}

theorem Dlq.keys_nodup (dlq : Dlq) : dlq.keys.Nodup := dlq.entries.nodup

theorem getReputationDlq_eq_none_iff {k : String} :
    getReputationDlq k dlq = none ↔ k ∉ dlq.keys :=
  Table.get?_eq_none_iff

/-- A new key goes to the end, and the first key makes room for it. -/
theorem keys_record_of_notMem (h : body.idempotencyKey ∉ dlq.keys) :
    (recordReputationOutboundDlq now body detail dlq).keys =
      (dlq.keys ++ [body.idempotencyKey]).drop (dlq.keys.length + 1 - MAX) := by
  have hrows := Table.rows_set_of_none (v := failedEntry now body detail
    (getReputationDlq body.idempotencyKey dlq)) (getReputationDlq_eq_none_iff.mpr h)
  unfold Dlq.keys recordReputationOutboundDlq
  simp only [rows_deleteOldest, hrows, List.map_drop, List.map_append, List.length_append,
    List.length_map]
  rfl

/-- A key in use keeps its place. -/
theorem keys_record_of_mem (h : body.idempotencyKey ∈ dlq.keys) :
    (recordReputationOutboundDlq now body detail dlq).keys = dlq.keys := by
  have hmem : ∃ w, dlq.entries.get? body.idempotencyKey = some w := by
    rw [← Option.ne_none_iff_exists']
    exact fun hnone => getReputationDlq_eq_none_iff.mp hnone h
  obtain ⟨w, hw⟩ := hmem
  have hkeys : (dlq.entries.set (failedEntry now body detail
      (getReputationDlq body.idempotencyKey dlq))).rows.map (·.idempotencyKey) = dlq.keys :=
    Table.map_rows_set hw (Table.key_of_get? hw).symm
  have hlen := congrArg List.length hkeys
  have hbound : dlq.keys.length ≤ MAX := by
    rw [Dlq.keys, List.length_map]
    exact dlq.bounded
  rw [List.length_map] at hlen
  unfold recordReputationOutboundDlq
  show (deleteOldest _).rows.map _ = _
  rw [rows_deleteOldest, hlen, Nat.sub_eq_zero_of_le hbound, List.drop_zero, hkeys]

theorem keys_remove (k : String) (dlq : Dlq) :
    (removeReputationDlq k dlq).keys = dlq.keys.filter (· ≠ k) := by
  show (dlq.entries.rows.filter _).map _ = _
  rw [Dlq.keys, List.filter_map]
  rfl

end Bluesafe.Reputation
