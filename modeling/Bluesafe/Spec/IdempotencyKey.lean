import Bluesafe.Notify.Fingerprint
import Bluesafe.Spec.Timestamps

/-!
# What an idempotency key identifies

Two notifications with one `domainNotificationIdempotencyKey` are taken for one notification.
The text that is hashed keeps event type, recipient and channel apart, and of the payloads it
sees every member but one: the keys at the top are sorted, those of nested objects stand as
they are, and a member `__proto__` is lost.

## Key results

- `body_eq_iff`: when two hashed texts are equal.
- `idempotency_key_canonical_iff`: the pairs of notifications for which equality of the texts
  is equality of the notifications up to the order of keys.
-/

namespace Bluesafe.Notify.Payload

open JsonValue (keys field Same)
open Bluesafe.Api (unitsLe_iff utf16Units_inj)

/-! ## The order of keys -/

instance : Std.Total KeyLe where
  total m n := by
    unfold KeyLe
    rw [unitsLe_iff, unitsLe_iff]
    exact not_and_or.mp fun h => lt_asymm h.1 h.2

instance : IsTrans (String × JsonValue) KeyLe where
  trans m n o hmn hno := by
    unfold KeyLe at *
    rw [unitsLe_iff] at *
    exact not_lt.mpr (le_trans (not_lt.mp hmn) (not_lt.mp hno))

/-- Members that sort both ways have one key. -/
theorem key_eq_of_keyLe {m n : String × JsonValue} (hmn : KeyLe m n) (hnm : KeyLe n m) :
    m.1 = n.1 := by
  unfold KeyLe at hmn hnm
  rw [unitsLe_iff] at hmn hnm
  exact utf16Units_inj (le_antisymm (not_lt.mp hmn) (not_lt.mp hnm))

/-! ## The object that is written -/

/-- A member is placed among the others. -/
theorem place_perm {k : String} {v : JsonValue} {ms : List (String × JsonValue)}
    (hk : k ∉ keys ms) : (place k v ms).Perm ((k, v) :: ms) := by
  induction ms with
  | nil => exact List.Perm.refl _
  | cons m ms ih =>
    rw [keys, List.map_cons, List.mem_cons, not_or] at hk
    rw [place, if_neg (Ne.symm hk.1)]
    split
    · exact List.Perm.refl _
    · exact ((ih hk.2).cons m).trans (List.Perm.swap _ _ _)

/-- The members that are not lost. -/
def ordinary (ms : List (String × JsonValue)) : List (String × JsonValue) :=
  ms.filter fun m => decide (m.1 ≠ proto)

/-- The ordinary members, with the first one apart. -/
theorem ordinary_cons (m : String × JsonValue) (ms : List (String × JsonValue)) :
    ordinary (m :: ms) = if m.1 = proto then ordinary ms else m :: ordinary ms := by
  rw [ordinary, List.filter_cons]
  by_cases hm : m.1 = proto <;> simp [hm, ordinary]

/-- Assigning all members assigns the ordinary ones. -/
theorem foldl_assign_eq (ms acc : List (String × JsonValue)) :
    ms.foldl (fun sorted m => assign sorted m.1 m.2) acc =
      (ordinary ms).foldl (fun sorted m => place m.1 m.2 sorted) acc := by
  induction ms generalizing acc with
  | nil => rfl
  | cons m ms ih =>
    rw [List.foldl_cons, ih, ordinary_cons]
    by_cases hm : m.1 = proto <;> simp [assign, hm]

/-- Members that are placed one by one are all there. -/
theorem foldl_place_perm {ms acc : List (String × JsonValue)} (hnodup : (keys (acc ++ ms)).Nodup) :
    (ms.foldl (fun sorted m => place m.1 m.2 sorted) acc).Perm (acc ++ ms) := by
  -- the accumulator never lists a key twice, so every member is placed as a new one
  induction ms generalizing acc with
  | nil => rw [List.foldl_nil, List.append_nil]
  | cons m ms ih =>
    have hnew : m.1 ∉ keys acc := by
      rw [keys, List.map_append, List.map_cons] at hnodup
      exact fun hmem => List.disjoint_of_nodup_append hnodup hmem (.head _)
    have hplace : (place m.1 m.2 acc ++ ms).Perm (acc ++ m :: ms) :=
      ((place_perm hnew).append_right ms).trans List.perm_middle.symm
    exact (ih ((hplace.map Prod.fst).nodup_iff.mpr hnodup)).trans hplace

/-- The keys of the ordinary members are not repeated. -/
theorem nodup_ordinary {ms : List (String × JsonValue)} (hms : (keys ms).Nodup) :
    (keys (ordinary ms)).Nodup :=
  hms.sublist (List.filter_sublist.map Prod.fst)

/-- A field of the ordinary members is any but the prototype. -/
theorem field_ordinary (ms : List (String × JsonValue)) (k : String) :
    field (ordinary ms) k = if k = proto then none else field ms k := by
  induction ms with
  | nil => simp [ordinary, field]
  | cons m ms ih =>
    rw [ordinary_cons, JsonValue.field_cons]
    by_cases hm : m.1 = proto
    · rw [if_pos hm, ih]
      by_cases hk : k = proto
      · rw [if_pos hk, if_pos hk]
      · rw [if_neg hk, if_neg hk, if_neg fun h => hk (h.symm.trans hm)]
    · rw [if_neg hm, JsonValue.field_cons, ih]
      by_cases hk : m.1 = k
      · rw [if_pos hk, if_pos hk, if_neg fun h => hm (hk.trans h)]
      · rw [if_neg hk, if_neg hk]

variable {p q : Payload}

/-- Sorting keeps the ordinary members. -/
theorem perm_sort (p : Payload) :
    (ordinary (p.members.insertionSort KeyLe)).Perm (ordinary p.members) :=
  (List.perm_insertionSort KeyLe p.members).filter _

/-- The object that is written has the members of the payload, `__proto__` apart. -/
theorem sorted_perm (p : Payload) : p.sorted.Perm (ordinary p.members) := by
  have hnodup : (keys ([] ++ ordinary (p.members.insertionSort KeyLe))).Nodup :=
    ((p.perm_sort.map Prod.fst).nodup_iff).mpr (nodup_ordinary p.listed.1.1)
  rw [sorted, foldl_assign_eq]
  exact (foldl_place_perm hnodup).trans p.perm_sort

/-- It depends on these members only, not on the order in which the payload lists them. -/
theorem sorted_eq_of_perm (h : (ordinary p.members).Perm (ordinary q.members)) :
    p.sorted = q.sorted := by
  have hperm : (ordinary (p.members.insertionSort KeyLe)).Perm
      (ordinary (q.members.insertionSort KeyLe)) := (p.perm_sort.trans h).trans q.perm_sort.symm
  have hnodup : (keys (ordinary (q.members.insertionSort KeyLe))).Nodup :=
    ((q.perm_sort.map Prod.fst).nodup_iff).mpr (nodup_ordinary q.listed.1.1)
  have hpairwise : ∀ ms, (ordinary (List.insertionSort KeyLe ms)).Pairwise KeyLe := fun ms =>
    (List.pairwise_insertionSort KeyLe ms).sublist List.filter_sublist
  -- two sorted lists of the same members are one list
  have heq := hperm.eq_of_pairwise (fun m n hm hn hmn hnm => ?_) (hpairwise _) (hpairwise _)
  · rw [sorted, sorted, foldl_assign_eq, foldl_assign_eq, heq]
  · -- two members with one key are one member
    exact List.inj_on_of_nodup_map hnodup (hperm.mem_iff.mp hm) hn (key_eq_of_keyLe hmn hnm)

/-- When two payloads have one fingerprint. -/
theorem fingerprint_eq_iff :
    p.stablePayloadFingerprint = q.stablePayloadFingerprint ↔
      ∀ k, k ≠ proto → field p.members k = field q.members k := by
  have hordinary : (ordinary p.members).Perm (ordinary q.members) ↔
      ∀ k, k ≠ proto → field p.members k = field q.members k := by
    rw [JsonValue.perm_iff_field (nodup_ordinary p.listed.1.1) (nodup_ordinary q.listed.1.1)]
    simp only [field_ordinary]
    constructor
    · intro h k hk
      have hfield := h k
      rwa [if_neg hk, if_neg hk] at hfield
    · intro h k
      by_cases hk : k = proto
      · rw [if_pos hk, if_pos hk]
      · rw [if_neg hk, if_neg hk, h k hk]
  rw [← hordinary]
  constructor
  · intro h
    -- a JSON text can be read back
    have hmembers : p.sorted = q.sorted := JsonValue.obj.inj (JsonValue.text_inj h)
    exact (hmembers ▸ p.sorted_perm.symm).trans q.sorted_perm
  · intro h
    rw [stablePayloadFingerprint, stablePayloadFingerprint, sorted_eq_of_perm h]

end Bluesafe.Notify.Payload

namespace Bluesafe.Notify

open JsonValue (field Same)

/-! ## Notifications -/

/-- A notification that is handed to the fan-out; its names have no line feed. -/
structure Notice where
  eventType : String
  recipientId : String
  channel : String
  payload : Payload
  eventType_line : '\n' ∉ eventType.toList
  recipientId_line : '\n' ∉ recipientId.toList
  channel_line : '\n' ∉ channel.toList

namespace Notice

/-- The text that is hashed for a notification. -/
def body (a : Notice) : List Char :=
  Payload.idempotencyBody a.eventType a.recipientId a.channel a.payload

/-- Event type, recipient and channel are the same. -/
def SameAddress (a b : Notice) : Prop :=
  a.eventType = b.eventType ∧ a.recipientId = b.recipientId ∧ a.channel = b.channel

/-- The payloads are the same JSON value, whatever the order of keys. -/
def SamePayload (a b : Notice) : Prop :=
  Same (.obj a.payload.members) (.obj b.payload.members)

/-- The payloads are the same JSON value, but below a member of both (other than
    `__proto__`) an object lists its keys in another order. -/
def Reordered (a b : Notice) : Prop :=
  a.SamePayload b ∧ ∃ k v w, k ≠ proto ∧ field a.payload.members k = some v ∧
    field b.payload.members k = some w ∧ v ≠ w

/-- The payloads differ in the member `__proto__` and in no other. -/
def PrototypeOnly (a b : Notice) : Prop :=
  (∀ k, k ≠ proto → field a.payload.members k = field b.payload.members k) ∧
    ¬ Option.Rel Same (field a.payload.members proto) (field b.payload.members proto)

variable {a b : Notice}

/-- A line can be read off the front of a text. -/
theorem line_append_inj {s t : String} {rest rest' : List Char} (hs : '\n' ∉ s.toList)
    (ht : '\n' ∉ t.toList) (h : s.toList ++ '\n' :: rest = t.toList ++ '\n' :: rest') :
    s = t ∧ rest = rest' := by
  have hline : ∀ {u : String}, '\n' ∉ u.toList → ∀ c ∈ u.toList, decide (c ≠ '\n') = true :=
    fun hu c hc => decide_eq_true fun heq => hu (heq ▸ hc)
  have hstop : ∀ r : List Char, ∀ c ∈ ('\n' :: r).head?, decide (c ≠ '\n') = false := by
    intro r c hc
    exact decide_eq_false fun hne => hne (Option.some.inj hc).symm
  obtain ⟨htake, hdrop⟩ := NumberText.span_append (hline hs) (hstop rest)
  obtain ⟨htake', hdrop'⟩ := NumberText.span_append (hline ht) (hstop rest')
  rw [h] at htake hdrop
  exact ⟨String.toList_inj.mp (htake.symm.trans htake'),
    (List.cons.inj (hdrop.symm.trans hdrop')).2⟩

/-- When two notifications are hashed as one text. -/
theorem body_eq_iff :
    a.body = b.body ↔ a.SameAddress b ∧
      ∀ k, k ≠ proto → field a.payload.members k = field b.payload.members k := by
  rw [← Payload.fingerprint_eq_iff]
  constructor
  · intro h
    -- the names stand on lines of their own in front of the payload
    obtain ⟨htype, h⟩ := line_append_inj a.eventType_line b.eventType_line h
    obtain ⟨hrecipient, h⟩ := line_append_inj a.recipientId_line b.recipientId_line h
    obtain ⟨hchannel, h⟩ := line_append_inj a.channel_line b.channel_line h
    exact ⟨⟨htype, hrecipient, hchannel⟩, h⟩
  · rintro ⟨⟨htype, hrecipient, hchannel⟩, h⟩
    rw [body, body, Payload.idempotencyBody, Payload.idempotencyBody, htype, hrecipient, hchannel, h]

/-- Two payloads are the same when their fields are. -/
theorem samePayload_iff :
    a.SamePayload b ↔
      ∀ k, Option.Rel Same (field a.payload.members k) (field b.payload.members k) := by
  rw [← JsonValue.sameMembers_iff a.payload.listed.1.1 b.payload.listed.1.1]
  constructor
  · rintro ⟨⟩
    assumption
  · exact .obj

/-- The hashed texts of two notifications tell whether they are the same up to the order of
    keys, unless they go to one address and their payloads are reordered below the top or
    differ in `__proto__` only. -/
theorem idempotency_key_canonical_iff (a b : Notice) :
    (a.body = b.body ↔ a.SameAddress b ∧ a.SamePayload b) ↔
      (a.SameAddress b → ¬ a.Reordered b ∧ ¬ a.PrototypeOnly b) := by
  rw [body_eq_iff]
  constructor
  · intro h haddress
    constructor
    · rintro ⟨hsame, k, v, w, hk, hv, hw, hne⟩
      have hfield := (h.mpr ⟨haddress, hsame⟩).2 k hk
      rw [hv, hw] at hfield
      exact hne (Option.some.inj hfield)
    · rintro ⟨hfields, hproto⟩
      exact hproto (samePayload_iff.mp (h.mp ⟨haddress, hfields⟩).2 proto)
  · intro h
    refine and_congr_right fun haddress => ?_
    obtain ⟨hordered, hproto⟩ := h haddress
    constructor
    · intro hfields
      refine samePayload_iff.mpr fun k => ?_
      by_cases hk : k = proto
      · rw [hk]
        by_contra hdiffer
        exact hproto ⟨hfields, hdiffer⟩
      · rw [hfields k hk]
        cases field b.payload.members k with
        | none => exact .none
        | some v => exact .some (Same.refl v)
    · intro hsame k hk
      have hrel := samePayload_iff.mp hsame k
      cases hv : field a.payload.members k with
      | none =>
        rw [hv] at hrel
        cases hw : field b.payload.members k with
        | none => rfl
        | some w =>
          rw [hw] at hrel
          cases hrel
      | some v =>
        cases hw : field b.payload.members k with
        | none =>
          rw [hv, hw] at hrel
          cases hrel
        | some w =>
          -- the same value in another order below would be the first exception
          by_contra hne
          exact hordered ⟨hsame, k, v, w, hk, hv, hw, fun heq => hne (congrArg some heq)⟩

/-! ## A payload that is written twice -/

/-- A place of two coordinates, in one order. -/
def placeXY : Payload where
  members := [("place", .obj [("x", .bool true), ("y", .null)])]
  listed := ⟨by decide, ⟨by decide, trivial, trivial, trivial⟩, trivial⟩

/-- And in the other. -/
def placeYX : Payload where
  members := [("place", .obj [("y", .null), ("x", .bool true)])]
  listed := ⟨by decide, ⟨by decide, trivial, trivial, trivial⟩, trivial⟩

/-- Where a notification goes does not matter here. -/
def noticeOf (payload : Payload) : Notice where
  eventType := "contract.created"
  recipientId := "user_1"
  channel := "inapp"
  payload := payload
  eventType_line := by decide
  recipientId_line := by decide
  channel_line := by decide

theorem nested_order_counts :
    (noticeOf placeXY).SameAddress (noticeOf placeYX) ∧
      (noticeOf placeXY).SamePayload (noticeOf placeYX) ∧
      (noticeOf placeXY).body ≠ (noticeOf placeYX).body := by
  refine ⟨⟨rfl, rfl, rfl⟩, ?_, by decide⟩
  refine .obj (.cons (.obj ?_) .nil (List.Perm.refl _))
  exact .cons (.bool true) (.cons .null .nil (List.Perm.refl _)) (List.Perm.swap _ _ _)

end Notice

end Bluesafe.Notify
