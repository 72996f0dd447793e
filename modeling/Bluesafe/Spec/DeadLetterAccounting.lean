import Bluesafe.Reputation.Outbound

/-!
# The accounts of the dead-letter store

An entry of the store is meant to say that the last HTTP delivery of its key failed, and how
many have failed since the last success. The books of an answered call are kept inside the
`try` of the call, so a rejected audit log or event is taken for a failed delivery: it adds one
attempt to a failure, and makes an entry for a success.

As long as no entry is dropped, the attempts of a key are the failed deliveries since its last
success and, besides, the deliveries whose books were not kept (`attempts_eq`). So the accounts
of a key are right if and only if there is none of the latter (`dead_letter_accounting`).
-/

namespace Bluesafe.Reputation

open Async Transition

/-! ## What the log of a delivery says -/

/-- The HTTP call was answered with a status that is ok. -/
def isDelivered : Event calls Thrown → Bool
  | ⟨.fetch _ _ _, .ok res⟩ => res.ok
  | _ => false

/-- The HTTP call threw. -/
def isThrownFetch : Event calls Thrown → Bool
  | ⟨.fetch _ _ _, .error _⟩ => true
  | _ => false

/-- An audit log or an event was rejected. -/
def isRejectedBook : Event calls Thrown → Bool
  | ⟨.writeAudit _, .error _⟩ => true
  | ⟨.emitEvent _, .error _⟩ => true
  | _ => false

/-- The HTTP call succeeded. -/
def httpOk (l : Log calls Thrown) : Bool := l.any isDelivered

/-- The books inside the `try` were kept: the HTTP call threw, or no audit log and no event was
    rejected. -/
def booksKept (l : Log calls Thrown) : Bool := l.any isThrownFetch || !l.any isRejectedBook

/-! ## The store around one failure -/

/-- The failure of one delivery is recorded. -/
def Records (body : ReputationOutboundBody) (d d' : Dlq) : Prop :=
  ∃ now detail, d' = recordReputationOutboundDlq now body detail d

variable {body : ReputationOutboundBody} {d d' : Dlq} {k : String}

/-- A table with fewer rows finds what it finds in the larger one. -/
private theorem get?_of_subset {t t' : Entries} {e : ReputationDlqEntry}
    (hsub : ∀ w ∈ t'.rows, w ∈ t.rows) (h : t'.get? k = some e) : t.get? k = some e := by
  have hget := Table.get?_of_mem (hsub e (Table.mem_of_get? h))
  rwa [Table.key_of_get? h] at hget

/-- What is found under another key was there before. -/
theorem get_of_records (h : Records body d d') (hk : k ≠ body.idempotencyKey)
    {e : ReputationDlqEntry} (he : getReputationDlq k d' = some e) :
    getReputationDlq k d = some e := by
  obtain ⟨now, detail, rfl⟩ := h
  have hset := get?_of_subset (t := d.entries.set (failedEntry now body detail
    (getReputationDlq body.idempotencyKey d))) (fun w hw => ?_) he
  · rw [Table.get?_set] at hset
    exact (if_neg hk).symm.trans hset
  · rw [recordReputationOutboundDlq, rows_deleteOldest] at hw
    exact List.mem_of_mem_drop hw

theorem get_of_remove {key : String} {e : ReputationDlqEntry}
    (he : getReputationDlq k (removeReputationDlq key d) = some e) : getReputationDlq k d = some e :=
  get?_of_subset (fun _ hw => (Table.mem_rows_erase.mp hw).1) he

theorem get_remove_self : getReputationDlq k (removeReputationDlq k d) = none := by
  show (d.entries.erase k).get? k = none
  rw [Table.get?_erase, if_pos rfl]

/-- The attempts of a key, when it has an entry. -/
def attempts (d : Dlq) (k : String) : Option Nat := (getReputationDlq k d).map (·.attempts)

/-- The key that fails is not dropped. -/
theorem attempts_of_records (h : Records body d d') :
    attempts d' body.idempotencyKey = some ((attempts d body.idempotencyKey).getD 0 + 1) := by
  obtain ⟨now, detail, rfl⟩ := h
  have hentry : (getReputationDlq body.idempotencyKey
      (recordReputationOutboundDlq now body detail d)) =
      some (failedEntry now body detail (getReputationDlq body.idempotencyKey d)) := by
    -- the entry is among the rows that stay
    refine Table.get?_of_mem (v := failedEntry now body detail _) ?_
    show _ ∈ (deleteOldest _).rows
    rw [rows_deleteOldest]
    have hbound := d.bounded
    cases hget : d.entries.get? body.idempotencyKey with
    | none =>
      rw [Table.rows_set_of_none (by exact hget), List.length_append, List.length_singleton,
        List.drop_append_of_le_length (by unfold MAX at *; omega)]
      simp [getReputationDlq, hget]
    | some w =>
      obtain ⟨before, after, hrows, hset⟩ := Table.rows_set_of_some
        (v := failedEntry now body detail (getReputationDlq body.idempotencyKey d)) hget
      have hlen : (before ++ failedEntry now body detail
          (getReputationDlq body.idempotencyKey d) :: after).length - MAX = 0 := by
        rw [hrows] at hbound
        simp only [List.length_append, List.length_cons] at hbound ⊢
        omega
      rw [hset, hlen, List.drop_zero]
      simp
  unfold attempts
  rw [hentry]
  rfl

/-! ## One delivery -/

/-- What a delivery does to the store, by the outcome of its HTTP call and whether its books
    were kept. -/
def Effect (body : ReputationOutboundBody) (ok kept : Bool) (d d' : Dlq) : Prop :=
  match ok, kept with
  | true, true => d' = removeReputationDlq body.idempotencyKey d
  | true, false => Records body (removeReputationDlq body.idempotencyKey d) d'
  | false, true => Records body d d'
  | false, false => ∃ mid, Records body d mid ∧ Records body mid d'

/-- The same, read off the log of its calls. -/
def Delivers (body : ReputationOutboundBody) (l : Log calls Thrown) (d d' : Dlq) : Prop :=
  Effect body (httpOk l) (booksKept l) d d'

/-- What the log says about the HTTP call. -/
def http (l : Log calls Thrown) : Bool × Bool := (l.any isDelivered, l.any isThrownFetch)

section Programs

variable {l : Log calls Thrown} {s : State}

/-- The handler records one failure, whatever happens to its own books. -/
theorem bookThrown_spec (e : Thrown) :
    wp (seqSpec world) (bookThrown body e)
      (fun _ g => Records body s.dlq g.2.dlq ∧ http g.1 = http l ∧
        (l.any isRejectedBook = true → g.1.any isRejectedBook = true))
      (fun _ g => Records body s.dlq g.2.dlq ∧ http g.1 = http l ∧
        (l.any isRejectedBook = true → g.1.any isRejectedBook = true)) (l, s) := by
  unfold bookThrown
  simp only [wp_bind]
  apply wp_atOnce rfl
  intro _
  apply wp_atOnce rfl
  intro c
  have hrecords : Records body s.dlq
      (recordReputationOutboundDlq c.now body { error := some e.text } s.dlq) := ⟨_, _, rfl⟩
  -- the audit log and the event, answered or rejected
  apply wp_awaited
  · intro _
    apply wp_awaited
    · intro _
      exact ⟨hrecords, rfl, fun h => h⟩
    · intro _
      exact ⟨hrecords, rfl, fun _ => rfl⟩
  · intro _
    exact ⟨hrecords, rfl, fun _ => rfl⟩

/-- After an answer that is ok the entry is gone; a throw comes from rejected books. -/
theorem bookDelivered_spec (res : HttpResponse) :
    wp (seqSpec world) (bookDelivered body res)
      (fun _ g => g.2.dlq = removeReputationDlq body.idempotencyKey s.dlq ∧ http g.1 = http l ∧
        g.1.any isRejectedBook = l.any isRejectedBook)
      (fun _ g => g.2.dlq = removeReputationDlq body.idempotencyKey s.dlq ∧ http g.1 = http l ∧
        g.1.any isRejectedBook = true) (l, s) := by
  unfold bookDelivered
  simp only [wp_bind]
  -- the entry and the counter are changed at once
  apply wp_atOnce rfl
  intro _
  apply wp_atOnce rfl
  intro _
  -- then the audit, and after it the event; either may be rejected
  apply wp_awaited
  · intro _
    apply wp_atOnce rfl
    intro _
    apply wp_awaited
    · intro _
      exact ⟨rfl, rfl, rfl⟩
    · intro _
      exact ⟨rfl, rfl, rfl⟩
  · intro _
    exact ⟨rfl, rfl, rfl⟩

/-- After another answer the failure is recorded; a throw comes from rejected books. -/
theorem bookStatus_spec (res : HttpResponse) :
    wp (seqSpec world) (bookStatus body res)
      (fun _ g => Records body s.dlq g.2.dlq ∧ http g.1 = http l ∧
        g.1.any isRejectedBook = l.any isRejectedBook)
      (fun _ g => Records body s.dlq g.2.dlq ∧ http g.1 = http l ∧
        g.1.any isRejectedBook = true) (l, s) := by
  -- what follows the reading of the text, from any log that says the same
  have hbooks : ∀ (t : String) (l' : Log calls Thrown), http l' = http l →
      l'.any isRejectedBook = l.any isRejectedBook →
      wp (seqSpec world) (do
          invoke (.recordReputationOutboundDelivery false)
          invoke (.recordReputationOutboundDlq body
            { httpStatus := some res.status, error := some (Ops.sliceTo 500 t) })
          invoke (.writeAudit (failureAudit body
            [("httpStatus", .num res.status), ("detail", .str (Ops.sliceTo 500 t))]))
          invoke (.emitEvent (failureEvent body ("httpStatus", .num res.status))))
        (fun _ g => Records body s.dlq g.2.dlq ∧ http g.1 = http l ∧
          g.1.any isRejectedBook = l.any isRejectedBook)
        (fun _ g => Records body s.dlq g.2.dlq ∧ http g.1 = http l ∧
          g.1.any isRejectedBook = true) (l', s) := by
    intro t l' hhttp hrejected
    simp only [wp_bind]
    apply wp_atOnce rfl
    intro _
    apply wp_atOnce rfl
    intro c
    have hrecords : Records body s.dlq (recordReputationOutboundDlq c.now body
        { httpStatus := some res.status, error := some (Ops.sliceTo 500 t) } s.dlq) := ⟨_, _, rfl⟩
    apply wp_awaited
    · intro _
      apply wp_awaited
      · intro _
        exact ⟨hrecords, hhttp, hrejected⟩
      · intro _
        exact ⟨hrecords, hhttp, rfl⟩
    · intro _
      exact ⟨hrecords, hhttp, rfl⟩
  unfold bookStatus
  rw [wp_bind, wp_tryCatch]
  apply wp_awaited
  · intro c
    exact hbooks c.body _ rfl rfl
  · intro _
    exact hbooks "" _ rfl rfl

theorem delivers_of {ok thrown rejected : Bool} (hhttp : http l = (ok, thrown))
    (hrejected : l.any isRejectedBook = rejected) (h : Effect body ok (thrown || !rejected) d d') :
    Delivers body l d d' := by
  obtain ⟨hok, hthrown⟩ := Prod.mk.inj hhttp
  unfold Delivers httpOk booksKept
  rw [hok, hthrown, hrejected]
  exact h

/-- The handler takes rejected books for a failure of the delivery. -/
theorem bookThrown_after_books (e : Thrown) {ok : Bool} (hhttp : http l = (ok, false))
    (hrejected : l.any isRejectedBook = true)
    (heffect : ∀ d', Records body s.dlq d' → Effect body ok false d d') :
    wp (seqSpec world) (bookThrown body e) (fun _ g => Delivers body g.1 d g.2.dlq)
      (fun _ g => Delivers body g.1 d g.2.dlq) (l, s) := by
  have hends : ∀ g : Log calls Thrown × State, Records body s.dlq g.2.dlq ∧ http g.1 = http l ∧
      (l.any isRejectedBook = true → g.1.any isRejectedBook = true) →
      Delivers body g.1 d g.2.dlq :=
    fun g hg => delivers_of (hg.2.1.trans hhttp) (hg.2.2 hrejected) (heffect _ hg.1)
  exact wp_mono _ _ (seqSpec_mono _) (fun _ g => hends g) (fun _ g => hends g) (bookThrown_spec e)

/-- The effect of a delivery, however it ends. -/
theorem deliver_spec (config : Config) (url : String) :
    wp (seqSpec world) (deliverReputationOutboundWebhook config body url)
      (fun _ g => Delivers body g.1 s.dlq g.2.dlq) (fun _ g => Delivers body g.1 s.dlq g.2.dlq)
      ([], s) := by
  unfold deliverReputationOutboundWebhook
  rw [wp_bind]
  apply wp_atOnce rfl
  intro _
  rw [wp_tryCatch, wp_bind]
  -- the request itself is awaited: it is answered, or it throws
  apply wp_awaited
  · intro c
    show wp _ (if c.res.ok then bookDelivered body c.res else bookStatus body c.res) _ _ _
    -- the answer is the only request of the log so far
    have hhttp : ∀ emittedAt envelope, http [⟨.fetch url (headers config envelope) envelope,
        .ok c.res⟩, ⟨.nowIso, .ok emittedAt⟩] = (c.res.ok, false) := by
      simp [http, isDelivered, isThrownFetch]
    cases hok : c.res.ok with
    | true =>
      rw [hok] at hhttp
      rw [if_pos rfl]
      apply wp_mono _ _ (seqSpec_mono _) _ _ (bookDelivered_spec c.res)
      -- the books after an answer either end, or fail as a whole
      · rintro _ g ⟨hdlq, hsame, hrejected⟩
        exact delivers_of (hsame.trans (hhttp _ _)) hrejected hdlq
      -- a rejected audit goes to the entry for thrown requests
      · rintro e g ⟨hdlq, hsame, hrejected⟩
        apply bookThrown_after_books e (hsame.trans (hhttp _ _)) hrejected
        intro d' h
        rw [hdlq] at h
        exact h
    | false =>
      rw [hok] at hhttp
      rw [if_neg Bool.false_ne_true]
      apply wp_mono _ _ (seqSpec_mono _) _ _ (bookStatus_spec c.res)
      · rintro _ g ⟨hdlq, hsame, hrejected⟩
        -- a status that is not 2xx is recorded before its audit is written
        exact delivers_of (hsame.trans (hhttp _ _)) hrejected hdlq
      · rintro e g ⟨hdlq, hsame, hrejected⟩
        exact bookThrown_after_books e (hsame.trans (hhttp _ _)) hrejected
          fun d' h => ⟨_, hdlq, h⟩
  · -- a call that throws is recorded once, whatever happens to its books
    intro e
    have hends : ∀ g : Log calls Thrown × State, Records body s.dlq g.2.dlq ∧
        http g.1 = (false, true) → Delivers body g.1 s.dlq g.2.dlq :=
      fun g h => delivers_of h.2 rfl h.1
    exact wp_mono _ _ (seqSpec_mono _) (fun _ g h => hends g ⟨h.1, h.2.1⟩)
      (fun _ g h => hends g ⟨h.1, h.2.1⟩) (bookThrown_spec e)

end Programs

/-! ## The deliveries of a key -/

/-- One delivery of a run. -/
abbrev DeliveryMove : Type := Move State ((ReputationOutboundBody × String) × List Choice)

variable {config : Config} {s : State} {ms : List DeliveryMove} {m : DeliveryMove}

def key (m : DeliveryMove) : String := m.label.1.1.idempotencyKey

/-- The log of the delivery. -/
def deliveryLog (config : Config) (m : DeliveryMove) : Log calls Thrown :=
  seqLog world (fun req => deliverReputationOutboundWebhook config req.1 req.2) m.before m.label

/-- The HTTP delivery succeeded. -/
def Succeeds (config : Config) (m : DeliveryMove) : Bool := httpOk (deliveryLog config m)

/-- The books of the outcome were kept. -/
def Kept (config : Config) (m : DeliveryMove) : Bool := booksKept (deliveryLog config m)

/-- The entry of another key is dropped. -/
def Evicts (m : DeliveryMove) : Prop :=
  ∃ k ∈ m.before.dlq.keys, k ≠ key m ∧ k ∉ m.after.dlq.keys

/-- The deliveries of a key back to its last success, which is the last of them; newest first
    like the run. -/
def sinceSuccess (config : Config) (k : String) : List DeliveryMove → List DeliveryMove
  | [] => []
  | m :: older =>
    if key m = k then
      if Succeeds config m then [m] else m :: sinceSuccess config k older
    else sinceSuccess config k older

/-- The failed deliveries of a key since its last success. -/
def failures (config : Config) (k : String) (ms : List DeliveryMove) : Nat :=
  (sinceSuccess config k ms).countP fun m => !Succeeds config m

/-- The last delivery of the key failed. -/
def LastFailed (config : Config) (k : String) (ms : List DeliveryMove) : Prop :=
  ∃ m, (ms.filter fun m => decide (key m = k)).head? = some m ∧ Succeeds config m = false

/-- The store says about the key what its deliveries say. -/
structure Accounted (config : Config) (k : String) (ms : List DeliveryMove) (d : Dlq) : Prop where
  present_iff : (∃ e, getReputationDlq k d = some e) ↔ LastFailed config k ms
  attempts_eq : ∀ e, getReputationDlq k d = some e → e.attempts = failures config k ms

/-! ## What the store counts -/

/-- The failed deliveries since the last success and, besides, those whose books were not kept. -/
def counted (config : Config) (k : String) (ms : List DeliveryMove) : Nat :=
  failures config k ms + (sinceSuccess config k ms).countP fun m => !Kept config m

/-- A count as the attempts of an entry; there is no entry for zero. -/
def shown (n : Nat) : Option Nat := if n = 0 then none else some n

/-- A delivery does to the store what its log says. -/
theorem effect_of_step {before after : State} {a : (ReputationOutboundBody × String) × List Choice}
    (h : deliverStep config before a = some after) :
    Effect a.1.1 (Succeeds config ⟨before, a, after⟩) (Kept config ⟨before, a, after⟩)
      before.dlq after.dlq :=
  seqStep_sound (Q := fun g : Log calls Thrown × State => Delivers a.1.1 g.1 before.dlq g.2.dlq)
    (deliver_spec config a.1.2) h

/-- What the store has under another key was there before. -/
theorem get_of_effect {ok kept : Bool} (h : Effect body ok kept d d') (hk : k ≠ body.idempotencyKey)
    {e : ReputationDlqEntry} (he : getReputationDlq k d' = some e) :
    getReputationDlq k d = some e := by
  -- delivered or not, and with or without a failure of its books
  cases ok with
  | true =>
    cases kept with
    | true =>
      change d' = _ at h
      rw [h] at he
      exact get_of_remove he
    | false => exact get_of_remove (get_of_records h hk he)
  | false =>
    cases kept with
    | true => exact get_of_records h hk he
    | false =>
      -- both the status and the rejected audit have recorded a failure
      obtain ⟨mid, hmid, hlast⟩ := h
      exact get_of_records hmid hk (get_of_records hlast hk he)

/-- A delivery that drops no entry leaves the other keys alone. -/
theorem get_eq_of_effect {ok kept : Bool} (h : Effect body ok kept d d')
    (hk : k ≠ body.idempotencyKey) (hstay : k ∈ d.keys → k ∈ d'.keys) :
    getReputationDlq k d' = getReputationDlq k d := by
  cases hafter : getReputationDlq k d' with
  | some e => exact (get_of_effect h hk hafter).symm
  | none =>
    rw [getReputationDlq_eq_none_iff] at hafter
    exact (getReputationDlq_eq_none_iff.mpr fun hin => hafter (hstay hin)).symm

/-- The attempts of the key of a delivery: a success starts from zero, and each failure and each
    rejection of the books adds one. -/
theorem attempts_of_effect {ok kept : Bool} (h : Effect body ok kept d d') {n : Nat}
    (hbefore : attempts d body.idempotencyKey = shown n) :
    attempts d' body.idempotencyKey =
      shown ((if ok then 0 else n + 1) + if kept then 0 else 1) := by
  -- a success takes the entry off, and every book that is not kept adds an attempt
  have hgone : attempts (removeReputationDlq body.idempotencyKey d) body.idempotencyKey = none := by
    rw [attempts, get_remove_self]
    rfl
  have hshown : (shown n).getD 0 = n := by
    unfold shown
    split <;> simp_all
  cases ok with
  | true =>
    cases kept with
    | true =>
      change d' = _ at h
      rw [h]
      exact hgone
    | false =>
      have hrecord := attempts_of_records h
      rw [hgone] at hrecord
      exact hrecord
  | false =>
    cases kept with
    | true =>
      have hrecord := attempts_of_records h
      rw [hbefore, hshown] at hrecord
      exact hrecord
    | false =>
      obtain ⟨mid, hmid, hlast⟩ := h
      have hfirst := attempts_of_records hmid
      have hsecond := attempts_of_records hlast
      rw [hbefore, hshown] at hfirst
      rw [hfirst] at hsecond
      exact hsecond

theorem counted_cons_self (h : key m = k) :
    counted config k (m :: ms) = (if Succeeds config m then 0 else counted config k ms + 1) +
      if Kept config m then 0 else 1 := by
  unfold counted failures
  rw [sinceSuccess, if_pos h]
  cases hok : Succeeds config m <;> cases hkept : Kept config m <;>
    simp [hok, hkept] <;> omega

theorem counted_cons_of_ne (h : key m ≠ k) : counted config k (m :: ms) = counted config k ms := by
  unfold counted failures
  rw [sinceSuccess, if_neg h]

/-- The attempts in the store, as long as no entry is dropped. -/
theorem attempts_eq (run : Run (deliverStep config) State.empty ms s)
    (hstay : ∀ m ∈ ms, ¬ Evicts m) (k : String) : attempts s.dlq k = shown (counted config k ms) := by
  -- induction on the deliveries, the latest last
  induction run with
  | nil => rfl
  | @cons ms t u a run h ih =>
    have hrest := ih fun m hm => hstay m (List.mem_cons_of_mem _ hm)
    have heffect := effect_of_step h
    -- a delivery of this key counts; another only must not have dropped its entry
    by_cases hk : k = a.1.1.idempotencyKey
    · rw [counted_cons_self (m := ⟨t, a, u⟩) hk.symm]
      subst hk
      exact attempts_of_effect heffect hrest
    · rw [counted_cons_of_ne (m := ⟨t, a, u⟩) (Ne.symm hk), ← hrest]
      -- an entry of another key goes only by a drop, which is excluded
      have hin : k ∈ t.dlq.keys → k ∈ u.dlq.keys := by
        intro hbefore
        by_contra hout
        exact hstay _ List.mem_cons_self ⟨k, hbefore, hk, hout⟩
      rw [attempts, get_eq_of_effect heffect hk hin, attempts]

/-- The last delivery failed exactly when some delivery since the last success failed. -/
theorem lastFailed_iff : LastFailed config k ms ↔ 0 < failures config k ms := by
  induction ms with
  | nil => simp [LastFailed, failures, sinceSuccess]
  | cons m older ih =>
    by_cases hk : key m = k
    · have hhead : LastFailed config k (m :: older) ↔ Succeeds config m = false := by
        simp [LastFailed, hk]
      rw [hhead, failures, sinceSuccess, if_pos hk]
      cases hok : Succeeds config m <;> simp [hok]
    · have hskip : LastFailed config k (m :: older) ↔ LastFailed config k older := by
        simp [LastFailed, hk]
      rw [hskip, ih, failures, failures, sinceSuccess, if_neg hk]

/-! ## The accounts -/

theorem shown_inj {n n' : Nat} : shown n = shown n' ↔ n = n' := by
  unfold shown
  split <;> split <;> simp <;> omega

/-- Presence and attempts together: the store shows the failures since the last success. -/
theorem accounted_iff :
    Accounted config k ms d ↔ attempts d k = shown (failures config k ms) := by
  unfold attempts shown
  constructor
  · intro h
    have hpresent := h.present_iff
    rw [lastFailed_iff] at hpresent
    -- no entry goes with no failure, and an entry with its number of failures
    cases hget : getReputationDlq k d with
    | none =>
      have hzero : failures config k ms = 0 := by
        simp only [hget, reduceCtorEq, exists_false, false_iff] at hpresent
        omega
      rw [if_pos hzero]
      rfl
    | some e =>
      have hpos : failures config k ms ≠ 0 := by
        simp only [hget, Option.some.injEq, exists_eq', true_iff] at hpresent
        omega
      rw [if_neg hpos, ← h.attempts_eq e hget]
      rfl
  · intro h
    constructor
    · rw [lastFailed_iff]
      cases hget : getReputationDlq k d with
      | none =>
        rw [hget] at h
        split at h
        · simp_all
        · cases h
      | some e =>
        rw [hget] at h
        split at h
        · cases h
        · simp only [Option.some.injEq, exists_eq', true_iff]
          omega
    · intro e hget
      rw [hget] at h
      split at h
      · cases h
      · exact Option.some.inj h

/-- The store never holds more than 500 entries. As long as none is dropped, the accounts of a key
    are right if and only if the books of every delivery since its last success, and of the
    success, were kept. -/
theorem dead_letter_accounting (run : Run (deliverStep config) State.empty ms s) :
    s.dlq.entries.rows.length ≤ 500 ∧
      ((∀ m ∈ ms, ¬ Evicts m) → ∀ k, Accounted config k ms s.dlq ↔
        ∀ m ∈ sinceSuccess config k ms, Kept config m = true) := by
  refine ⟨s.dlq.bounded, fun hstay k => ?_⟩
  rw [accounted_iff, attempts_eq run hstay k, shown_inj, counted, Nat.add_eq_left,
    List.countP_eq_zero]
  simp

/-! ## Deliveries of one key -/

def exampleConfig : Config := ⟨"", fun _ _ => ""⟩

def sampleBody : ReputationOutboundBody where
  idempotencyKey := "k"
  eventType := "deposit.returned"
  subjectType := "tenant"
  subjectId := "t-1"

/-- Two deliveries fail, with a status and with a throw. -/
def failedTwice : List ((ReputationOutboundBody × String) × List Choice) :=
  [((sampleBody, "https://hook"), [{ now := 1 }, { res := ⟨503⟩ }, {}, {}, {}, {}, {}]),
    ((sampleBody, "https://hook"),
      [{ now := 2 }, { failure := some (.error "ECONNRESET") }, {}, {}, {}, {}])]

/-- A delivery succeeds, and its audit log is rejected. -/
def auditRejected : List ((ReputationOutboundBody × String) × List Choice) :=
  [((sampleBody, "https://hook"),
    [{ now := 1 }, {}, {}, {}, { failure := some (.error "db down") }, {}, {}, {}, {}])]

/-- The accounts of two failures. -/
theorem dead_letter_accounting_failedTwice :
    ∃ (ms : List DeliveryMove) (s : State), Run (deliverStep exampleConfig) State.empty ms s ∧
      ms.length = 2 ∧ s.dlq.entries.rows.length ≤ 500 ∧
      ((∀ m ∈ ms, ¬ Evicts m) → ∀ k, Accounted exampleConfig k ms s.dlq ↔
        ∀ m ∈ sinceSuccess exampleConfig k ms, Kept exampleConfig m = true) := by
  obtain ⟨ms, s, run, hlen⟩ := exists_run_of_replay failedTwice (fun r => r.1.length = 2)
    (by decide : (replay (deliverStep exampleConfig) State.empty _ []).any _ = true)
  have haccounts := dead_letter_accounting run
  exact ⟨ms, s, run, of_decide_eq_true hlen, haccounts.1, haccounts.2⟩

/-- An entry of a key whose only delivery succeeded. -/
theorem delivered_and_dead :
    ∃ (ms : List DeliveryMove) (s : State), Run (deliverStep exampleConfig) State.empty ms s ∧
      (∀ m ∈ ms, ¬ Evicts m) ∧ ¬ Accounted exampleConfig "k" ms s.dlq := by
  obtain ⟨ms, s, run, hrun⟩ := exists_run_of_replay auditRejected
    (fun r => (r.1.all fun m => m.before.dlq.keys.isEmpty && Succeeds exampleConfig m) &&
      (getReputationDlq "k" r.2.dlq).isSome)
    (by decide : (replay (deliverStep exampleConfig) State.empty _ []).any _ = true)
  simp only [Bool.and_eq_true, List.all_eq_true, List.isEmpty_iff] at hrun
  refine ⟨ms, s, run, ?_, ?_⟩
  · -- the store is empty before the delivery
    rintro m hm ⟨k, hk, -⟩
    rw [(hrun.1 m hm).1] at hk
    cases hk
  · intro haccounted
    -- were the accounting right, the last move of the key would have failed
    have hpresent := Option.isSome_iff_exists.mp hrun.2
    obtain ⟨m, hhead, hfails⟩ := haccounted.present_iff.mp hpresent
    have hm : m ∈ ms := (List.mem_filter.mp (List.mem_of_mem_head? hhead)).1
    rw [(hrun.1 m hm).2] at hfails
    cases hfails

end Bluesafe.Reputation
