import Bluesafe.ForStd.Base64
import Bluesafe.ForStd.Keyset
import Bluesafe.Spec.Timestamps
import Mathlib.Data.List.Lex
import Mathlib.Data.Prod.Lex

/-!
# Walking through the audit log

A client of `listAuditsAfterCursor` asks for a first page without a cursor and then follows
`nextCursor` until it is `null`, while entries are appended between its requests. The keys
are the texts of the time and of the identifier, in the order of their code units; this is
the order of the list and of the cursor, so the client walks through the log as
`Keyset.walk` does.

## Key results

- `listAudits_sorted`: the list is strictly increasing
- `auditsAfterCursor_eq`: a page are the first rows behind the cursor
- `followCursor_eq`: the client is the walk of the library
-/

namespace Bluesafe.Api

open Bluesafe.Ops (Time AuditLog truthy)
open Bluesafe.Notify (isoString utf16Units unitsLe stringify stringifyFields)

/-! ## The client -/

/-- A digit of an identifier. -/
def isHexDigit (c : Char) : Bool := c.isDigit || (decide ('a' ≤ c) && decide (c ≤ 'f'))

/-- An identifier of `randomId("aud")`: `aud_` and 16 hexadecimal digits. -/
def isAuditId (id : String) : Bool :=
  id.toList.take 4 = ['a', 'u', 'd', '_'] && (id.toList.drop 4).length = 16 &&
    (id.toList.drop 4).all isHexDigit

/-- What the cursors and the sort need of the runtime: `base64url` is undone, an object with
    two strings is parsed as it was written, and `localeCompare` compares timestamps and
    identifiers by code units. -/
structure Runtime.Cursors (rt : Runtime) : Prop where
  fromBase64url_base64url : ∀ s, rt.fromBase64url (rt.base64url s) = s
  fromBase64url_empty : rt.fromBase64url "" = ""
  jsonParse_stringify : ∀ c i : String,
    rt.jsonParse (String.ofList (stringify (.obj [("c", .str c), ("i", .str i)]))) =
      some (.obj [("c", .str c), ("i", .str i)])
  localeLe_time : ∀ t t' : Time,
    rt.localeLe (isoString t) (isoString t') =
      unitsLe (utf16Units (isoString t)) (utf16Units (isoString t'))
  localeLe_id : ∀ i j : String, isAuditId i = true → isAuditId j = true →
    rt.localeLe i j = unitsLe (utf16Units i) (utf16Units j)

/-- Calls of `appendAudit`, the first entry first. -/
def Store.appendAudits (s : Store) (logs : List AuditLog) : Store :=
  logs.foldl (fun s log => { s with ops := (Ops.perform (.appendAudit log) {} s.ops).2 }) s

/-- The pages of a client that follows `nextCursor`, and whether it was `null` at the end;
    `none` when a cursor is rejected. Before each request the entries of one round are
    appended. -/
def followCursor (rt : Runtime) (f : AuditFilter) (limit : Nat) :
    Store → Option String → List (List AuditLog) → Option (List (List AuditLog) × Bool)
  | _, _, [] => some ([], false)
  | s, cursor, logs :: rounds =>
    match (s.appendAudits logs).auditsAfterCursor rt f limit cursor with
    | none => none
    | some (items, none) => some ([items], true)
    | some (items, some next) =>
      (followCursor rt f limit (s.appendAudits logs) (some next) rounds).map fun w =>
        (items :: w.1, w.2)

/-- The order of `(createdAt, id)`. -/
def auditBefore (a b : AuditLog) : Prop :=
  textLt (isoString a.createdAt) (isoString b.createdAt) = true ∨
    isoString a.createdAt = isoString b.createdAt ∧ textLt a.id b.id = true

/-- Entries with identifiers of the right form, no two with the same one. -/
structure Identified (logs : List AuditLog) : Prop where
  form : ∀ log ∈ logs, isAuditId log.id = true
  nodup : (logs.map AuditLog.id).Nodup

/-! ## Keys -/

/-- The code units of the time and of the identifier, compared in this order. -/
def auditKey (log : AuditLog) : List Nat ×ₗ List Nat :=
  toLex (utf16Units (isoString log.createdAt), utf16Units log.id)

/-- The lexicographic order, spelled out. -/
theorem toLex_lt_iff (a b c d : List Nat) :
    (toLex (a, b) : List Nat ×ₗ List Nat) < toLex (c, d) ↔ a < c ∨ a = c ∧ b < d :=
  Prod.Lex.toLex_lt_toLex

/-- The same for its reflexive form. -/
theorem toLex_le_iff (a b c d : List Nat) :
    (toLex (a, b) : List Nat ×ₗ List Nat) ≤ toLex (c, d) ↔
      if ¬ c < a ∧ ¬ a < c then ¬ d < b else ¬ c < a := by
  rw [Prod.Lex.toLex_le_toLex]
  -- the first components decide, unless they are the same
  by_cases heq : a = c
  · simp [heq]
  · simp only [heq, false_and, or_false]
    -- on lists the orders compare element by element
    rcases lt_trichotomy a c with h | h | h
    · have hasymm : ¬ c < a := List.lt_asymm h
      simp [h, hasymm]
    · exact absurd h heq
    · have hasymm : ¬ a < c := List.lt_asymm h
      simp [h, hasymm]

/-- The order of the keys is the order of the log. -/
theorem auditKey_lt_iff (a b : AuditLog) : auditKey a < auditKey b ↔ auditBefore a b := by
  rw [auditKey, auditKey, toLex_lt_iff, auditBefore, textLt_iff, textLt_iff]
  apply or_congr_right
  apply and_congr_left'
  exact ⟨utf16Units_inj, congrArg utf16Units⟩

/-- Entries with one key have one identifier. -/
theorem auditKey_inj {a b : AuditLog} (h : auditKey a = auditKey b) : a.id = b.id :=
  utf16Units_inj (congrArg (fun k => (ofLex k).2) h)

/-- What comes after a cursor has a larger key. -/
theorem isAfterCursor_iff (c log : AuditLog) :
    isAfterCursor (isoString c.createdAt, c.id) log = decide (auditKey c < auditKey log) := by
  rw [Bool.eq_iff_iff, decide_eq_true_eq, auditKey_lt_iff]
  simp only [isAfterCursor, Bool.or_eq_true, Bool.and_eq_true, decide_eq_true_eq, auditBefore]
  constructor
  · rintro (h | ⟨h, hid⟩)
    · exact .inl h
    · exact .inr ⟨h.symm, hid⟩
  · rintro (h | ⟨h, hid⟩)
    · exact .inl h
    · exact .inr ⟨h.symm, hid⟩

/-- The sort compares the keys. -/
theorem auditLe_iff {rt : Runtime} (hrt : rt.Cursors) {a b : AuditLog}
    (ha : isAuditId a.id = true) (hb : isAuditId b.id = true) :
    auditLe rt a b = true ↔ auditKey a ≤ auditKey b := by
  rw [auditKey, auditKey, toLex_le_iff]
  simp only [auditLe, hrt.localeLe_time, hrt.localeLe_id a.id b.id ha hb]
  simp only [Bool.and_eq_true, unitsLe_iff]
  split <;> exact unitsLe_iff _ _

/-! ## Pages -/

/-- The order in which entries stand is of no account. -/
theorem Identified.perm {l l' : List AuditLog} (h : Identified l) (hperm : l'.Perm l) :
    Identified l' where
  form log hlog := h.form log (hperm.subset hlog)
  nodup := (hperm.map AuditLog.id).nodup_iff.mpr h.nodup

/-- Part of an identified log is identified. -/
theorem Identified.sublist {l l' : List AuditLog} (h : Identified l) (hsub : l'.Sublist l) :
    Identified l' where
  form log hlog := h.form log (hsub.subset hlog)
  nodup := h.nodup.sublist (hsub.map AuditLog.id)

/-- The list holds the entries that the filter admits. -/
theorem mem_listAudits {rt : Runtime} {f : AuditFilter} {s : Store} {log : AuditLog} :
    log ∈ s.listAudits rt f ↔ log ∈ s.ops.audits ∧ f.admits log = true := by
  simp [Store.listAudits]

/-- The list is strictly increasing. -/
theorem listAudits_sorted {rt : Runtime} (hrt : rt.Cursors) (f : AuditFilter) {s : Store}
    (h : Identified s.ops.audits) :
    (s.listAudits rt f).Pairwise fun a b => auditKey a < auditKey b := by
  let rows := s.ops.audits.reverse.filter f.admits
  have hrows : Identified rows := (h.perm (List.reverse_perm _)).sublist List.filter_sublist
  -- The sort by `localeCompare` is the sort by the keys.
  have hsort : s.listAudits rt f = rows.insertionSort fun a b => auditKey a ≤ auditKey b := by
    have hmap := List.map_insertionSort (fun a b => auditLe rt a b = true)
      (fun a b => auditKey a ≤ auditKey b) id rows fun a ha b hb =>
        auditLe_iff hrt (hrows.form a ha) (hrows.form b hb)
    rw [List.map_id, List.map_id] at hmap
    exact hmap
  rw [hsort]
  have hperm := List.perm_insertionSort (fun a b => auditKey a ≤ auditKey b) rows
  have hids := (hrows.perm hperm).nodup
  have hle := List.pairwise_insertionSort (fun a b => auditKey a ≤ auditKey b) rows
  -- Keys are equal only for entries with the same identifier.
  refine hle.imp₂ ?_ (List.pairwise_map.mp hids)
  intro a b hab hne
  exact lt_of_le_of_ne hab fun heq => hne (auditKey_inj heq)

/-- A cursor holds the text of an object with the time and the identifier. -/
theorem fromBase64url_encodeAuditCursor {rt : Runtime} (hrt : rt.Cursors) (log : AuditLog) :
    rt.fromBase64url (encodeAuditCursor rt log) = String.ofList
      (stringify (.obj [("c", .str (isoString log.createdAt)), ("i", .str log.id)])) := by
  rw [encodeAuditCursor, hrt.fromBase64url_base64url]
  simp only [stringify, stringifyFields]

/-- A cursor is never empty. -/
theorem encodeAuditCursor_ne {rt : Runtime} (hrt : rt.Cursors) (log : AuditLog) :
    encodeAuditCursor rt log ≠ "" := by
  intro h
  have htext := fromBase64url_encodeAuditCursor hrt log
  rw [h, hrt.fromBase64url_empty] at htext
  have hchars := congrArg String.toList htext
  simp [stringify, Text.object] at hchars

/-- A cursor that can be parsed is decoded. -/
theorem decodeAuditCursor_of_parse {rt : Runtime} {raw c i : String} (hc : c ≠ "") (hi : i ≠ "")
    (h : rt.jsonParse (rt.fromBase64url raw) = some (.obj [("c", .str c), ("i", .str i)])) :
    decodeAuditCursor rt raw = some (c, i) := by
  have hctext : truthy (some c) = some c := Ops.truthy_eq_some.mpr ⟨rfl, hc⟩
  have hitext : truthy (some i) = some i := Ops.truthy_eq_some.mpr ⟨rfl, hi⟩
  have htime : stringField [("c", .str c), ("i", .str i)] "c" = some c := hctext
  have hident : stringField [("c", .str c), ("i", .str i)] "i" = some i := hitext
  simp only [decodeAuditCursor, h, htime, hident]

/-- The identifier of an entry is not empty. -/
theorem ne_of_isAuditId {id : String} (h : isAuditId id = true) : id ≠ "" := by
  intro hempty
  rw [hempty] at h
  exact absurd h (by decide)

/-- Decoding a cursor gives the time and the identifier it was made of. -/
theorem decodeAuditCursor_encode {rt : Runtime} (hrt : rt.Cursors) {log : AuditLog}
    (hid : isAuditId log.id = true) :
    decodeAuditCursor rt (encodeAuditCursor rt log) = some (isoString log.createdAt, log.id) := by
  apply decodeAuditCursor_of_parse (isoString_ne log.createdAt) (ne_of_isAuditId hid)
  rw [fromBase64url_encodeAuditCursor hrt, hrt.jsonParse_stringify]

/-- A page: the first rows behind the cursor, and the cursor of the last one when more
    follow. -/
theorem auditsAfterCursor_eq {rt : Runtime} (hrt : rt.Cursors) (f : AuditFilter) (limit : Nat)
    {s : Store} (h : Identified s.ops.audits) (last : Option AuditLog)
    (hlast : ∀ log ∈ last, isAuditId log.id = true) :
    s.auditsAfterCursor rt f limit (last.map (encodeAuditCursor rt)) =
      some (Store.auditsAfterCursor.cut rt limit
        (Keyset.behind auditKey (last.map auditKey) (s.listAudits rt f))) := by
  cases last with
  -- without a cursor everything is behind it
  | none =>
    have hall : Keyset.behind auditKey none (s.listAudits rt f) = s.listAudits rt f := by
      simp [Keyset.behind]
    rw [Option.map_none, Option.map_none, hall]
    rfl
  | some log =>
    have hid := hlast log rfl
    -- the text of a cursor is not empty
    have htruthy : truthy (some (encodeAuditCursor rt log)) = some (encodeAuditCursor rt log) := by
      simp [truthy, encodeAuditCursor_ne hrt log]
    have hsorted := listAudits_sorted hrt f h
    rw [Option.map_some, Option.map_some, ← Keyset.dropWhile_eq_behind hsorted]
    unfold Store.auditsAfterCursor
    -- what is kept is what sorts behind the decoded entry
    simp only [htruthy, decodeAuditCursor_encode hrt hid, isAfterCursor_iff]

/-! ## The walk -/

/-- Entries are appended in front. -/
@[simp] theorem appendAudits_audits (s : Store) (logs : List AuditLog) :
    (s.appendAudits logs).ops.audits = logs.reverse ++ s.ops.audits := by
  induction logs generalizing s with
  | nil => rfl
  | cons log logs ih =>
    have hstep : s.appendAudits (log :: logs) =
        Store.appendAudits { s with ops := { s.ops with audits := log :: s.ops.audits } } logs := rfl
    rw [hstep, ih]
    simp

/-- The list at each request. -/
def auditTables (rt : Runtime) (f : AuditFilter) :
    Store → List (List AuditLog) → List (List AuditLog)
  | _, [] => []
  | s, logs :: rounds =>
    (s.appendAudits logs).listAudits rt f :: auditTables rt f (s.appendAudits logs) rounds

/-- Appended entries are part of what was identified. -/
theorem Identified.appendAudits {s : Store} {logs : List AuditLog} {rounds : List (List AuditLog)}
    (h : Identified ((logs :: rounds).flatten ++ s.ops.audits)) :
    Identified (rounds.flatten ++ (s.appendAudits logs).ops.audits) := by
  apply h.perm
  rw [appendAudits_audits, List.flatten_cons, ← List.append_assoc]
  apply List.Perm.append_right
  exact List.perm_append_comm.trans ((List.reverse_perm logs).append_right _)

/-- Following the cursors is the walk of the library. -/
theorem followCursor_eq {rt : Runtime} (hrt : rt.Cursors) (f : AuditFilter) {limit : Nat}
    (hlimit : 0 < limit) (s : Store) (rounds : List (List AuditLog))
    (h : Identified (rounds.flatten ++ s.ops.audits)) (last : Option AuditLog)
    (hlast : ∀ log ∈ last, isAuditId log.id = true) :
    followCursor rt f limit s (last.map (encodeAuditCursor rt)) rounds =
      some (Keyset.walk auditKey limit (last.map auditKey) (auditTables rt f s rounds)) := by
  -- induction on the rounds, with any cursor that was reached
  induction rounds generalizing s last with
  | nil => rfl
  | cons logs rounds ih =>
    have hnext := h.appendAudits
    have hids : Identified (s.appendAudits logs).ops.audits :=
      hnext.sublist (List.sublist_append_right _ _)
    rw [followCursor, auditsAfterCursor_eq hrt f limit hids last hlast, auditTables, Keyset.walk]
    simp only [Store.auditsAfterCursor.cut]
    split_ifs with hmore
    -- a next page is asked for, after the last entry of this one
    · obtain ⟨next, hpage⟩ := Keyset.getLast?_take hlimit hmore
      -- the identifier of that entry has the form that its cursor needs
      have hform : isAuditId next.id = true := by
        have hmem := (Keyset.mem_behind.mp (List.mem_of_mem_take (List.mem_of_getLast? hpage))).1
        exact hids.form next (mem_listAudits.mp hmem).1
      have hrest := ih _ hnext (some next) fun log hlog => by
        rw [← Option.mem_some.mp hlog]
        exact hform
      rw [hpage]
      simp only [Option.map_some] at hrest ⊢
      rw [hrest]
      rfl
    -- a short page ends the walk
    · rfl

/-- Every table of a walk is sorted by its keys. -/
theorem auditTables_sorted {rt : Runtime} (hrt : rt.Cursors) (f : AuditFilter) {s : Store}
    {rounds : List (List AuditLog)} (h : Identified (rounds.flatten ++ s.ops.audits)) :
    ∀ rows ∈ auditTables rt f s rounds, rows.Pairwise fun a b => auditKey a < auditKey b := by
  induction rounds generalizing s with
  | nil => simp [auditTables]
  | cons logs rounds ih =>
    intro rows hrows
    have hnext := h.appendAudits
    rcases List.mem_cons.mp hrows with rfl | hrows
    · exact listAudits_sorted hrt f (hnext.sublist (List.sublist_append_right _ _))
    · exact ih hnext rows hrows

/-- An entry that is stored stays in the list. -/
theorem mem_auditTables {rt : Runtime} {f : AuditFilter} {s : Store} {log : AuditLog}
    (hlog : log ∈ s.ops.audits) (hadmits : f.admits log = true) (rounds : List (List AuditLog)) :
    ∀ rows ∈ auditTables rt f s rounds, log ∈ rows := by
  -- induction on the rounds, since the entry is never removed
  induction rounds generalizing s with
  | nil => simp [auditTables]
  | cons logs rounds ih =>
    intro rows hrows
    have hstored : log ∈ (s.appendAudits logs).ops.audits := by
      rw [appendAudits_audits]
      exact List.mem_append_right _ hlog
    -- in the table of this round, or in those of the rest
    rcases List.mem_cons.mp hrows with rfl | hrows
    · exact mem_listAudits.mpr ⟨hstored, hadmits⟩
    · exact ih hstored rows hrows

/-- The lists hold entries that match, stored at the start or appended. -/
theorem of_mem_auditTables {rt : Runtime} {f : AuditFilter} {s : Store} {log : AuditLog}
    {rounds : List (List AuditLog)} {table : List AuditLog}
    (h : table ∈ auditTables rt f s rounds) (hlog : log ∈ table) :
    f.admits log = true ∧ log ∈ rounds.flatten ++ s.ops.audits := by
  -- the same induction in the other direction
  induction rounds generalizing s with
  | nil => simp [auditTables] at h
  | cons logs rounds ih =>
    -- the entry is older than this round, or it was added later
    rcases List.mem_cons.mp h with rfl | h
    · obtain ⟨hstored, hadmits⟩ := mem_listAudits.mp hlog
      refine ⟨hadmits, ?_⟩
      simp only [appendAudits_audits, List.mem_append, List.mem_reverse] at hstored
      simp only [List.flatten_cons, List.mem_append]
      tauto
    · obtain ⟨hadmits, hmem⟩ := ih h
      refine ⟨hadmits, ?_⟩
      simp only [appendAudits_audits, List.mem_append, List.mem_reverse] at hmem
      simp only [List.flatten_cons, List.mem_append]
      tauto

/-- The tables of two parts of a walk. -/
theorem auditTables_append (rt : Runtime) (f : AuditFilter) (s : Store)
    (rounds rounds' : List (List AuditLog)) :
    auditTables rt f s (rounds ++ rounds') =
      auditTables rt f s rounds ++ auditTables rt f (rounds.foldl Store.appendAudits s) rounds' := by
  induction rounds generalizing s with
  | nil => rfl
  | cons logs rounds ih =>
    rw [List.cons_append, auditTables, auditTables, ih]
    rfl

/-- Rounds in which nothing is appended. -/
theorem auditTables_replicate (rt : Runtime) (f : AuditFilter) (s : Store) (n : Nat) :
    auditTables rt f s (List.replicate n []) = List.replicate n (s.listAudits rt f) := by
  induction n with
  | zero => rfl
  | succ n ih =>
    have hsame : s.appendAudits [] = s := rfl
    rw [List.replicate_succ, List.replicate_succ, auditTables, hsame, ih]

/-- No entry is lost on the way. -/
theorem length_foldl_appendAudits (s : Store) (rounds : List (List AuditLog)) :
    (rounds.foldl Store.appendAudits s).ops.audits.length =
      (rounds.flatten ++ s.ops.audits).length := by
  induction rounds generalizing s with
  | nil => rfl
  | cons logs rounds ih =>
    rw [List.foldl_cons, ih]
    simp only [appendAudits_audits, List.flatten_cons, List.length_append, List.length_reverse]
    omega

/-- Once nothing is appended any more, the walk comes to its end. -/
theorem followCursor_ends {rt : Runtime} (hrt : rt.Cursors) (f : AuditFilter) {limit : Nat}
    (hlimit : 0 < limit) {s : Store} {rounds : List (List AuditLog)}
    (h : Identified (rounds.flatten ++ s.ops.audits)) {n : Nat}
    (hn : (rounds.flatten ++ s.ops.audits).length < n) :
    ∃ pages, followCursor rt f limit s none (rounds ++ List.replicate n []) = some (pages, true) := by
  -- the rounds without an append add nothing
  have hquiet : (rounds ++ List.replicate n []).flatten = rounds.flatten := by simp
  have heq := followCursor_eq hrt f hlimit s (rounds ++ List.replicate n [])
    (by rw [hquiet]; exact h) none (by simp)
  rw [Option.map_none, Option.map_none, auditTables_append, auditTables_replicate] at heq
  -- so many rounds are more than the entries
  have hlen : ((rounds.foldl Store.appendAudits s).listAudits rt f).length < n := by
    rw [← length_foldl_appendAudits] at hn
    rw [Store.listAudits, List.length_insertionSort]
    exact Nat.lt_of_le_of_lt ((List.length_filter_le _ _).trans_eq List.length_reverse) hn
  have hdone : (Keyset.walk auditKey limit none (auditTables rt f s rounds ++
      List.replicate n ((rounds.foldl Store.appendAudits s).listAudits rt f))).2 = true :=
    Keyset.walk_append_replicate hlimit hlen _ none
  exact ⟨_, heq.trans (congrArg some (Prod.ext rfl hdone))⟩

/-- Entries of distinct keys, taken from entries with distinct identifiers. -/
theorem nodup_ids {logs all : List AuditLog} (hall : Identified all) (hsub : ∀ log ∈ logs, log ∈ all)
    (h : logs.Pairwise fun a b => auditKey a < auditKey b) : (logs.map AuditLog.id).Nodup := by
  rw [List.Nodup, List.pairwise_map]
  refine h.imp_of_mem ?_
  intro a b ha hb hlt heq
  have hsame : a = b := List.inj_on_of_nodup_map hall.nodup (hsub a ha) (hsub b hb) heq
  rw [hsame] at hlt
  exact lt_irrefl _ hlt

/-- A client that follows `nextCursor` sees pages of at most `limit` entries in strictly
    increasing order; when it is done, it has seen each matching entry of the start exactly
    once; and it is done once nothing is appended any more. -/
theorem audit_keyset_walk {rt : Runtime} (hrt : rt.Cursors) (f : AuditFilter) {limit : Nat}
    (hlimit : 1 ≤ limit) (s : Store) (rounds : List (List AuditLog))
    (h : Identified (rounds.flatten ++ s.ops.audits)) :
    ∃ pages done, followCursor rt f limit s none rounds = some (pages, done) ∧
      (∀ page ∈ pages, page.length ≤ limit) ∧
      pages.flatten.Pairwise auditBefore ∧
      (∀ log ∈ pages.flatten, f.admits log = true ∧ log ∈ rounds.flatten ++ s.ops.audits) ∧
      (done = true → ∀ log ∈ s.ops.audits, f.admits log = true →
        log ∈ pages.flatten ∧ (pages.flatten.map AuditLog.id).count log.id = 1) ∧
      ∀ n, (rounds.flatten ++ s.ops.audits).length < n →
        ∃ more, followCursor rt f limit s none (rounds ++ List.replicate n []) = some (more, true) := by
  have heq := followCursor_eq hrt f hlimit s rounds h none (by simp)
  have htables := auditTables_sorted hrt f h
  have hsorted := Keyset.walk_sorted hlimit htables none
  have hsource : ∀ log ∈ (Keyset.walk auditKey limit none (auditTables rt f s rounds)).1.flatten,
      f.admits log = true ∧ log ∈ rounds.flatten ++ s.ops.audits := by
    intro log hlog
    obtain ⟨table, htable, hmem⟩ := Keyset.mem_table_of_mem_walk hlog
    exact of_mem_auditTables htable hmem
  -- sorted pages list no entry twice, and identifiers tell entries apart
  have hids := nodup_ids h (fun log hlog => (hsource log hlog).2) hsorted
  refine ⟨_, _, heq, Keyset.length_page_le _ _, ?_, hsource, ?_, ?_⟩
  · exact hsorted.imp fun hlt => (auditKey_lt_iff _ _).mp hlt
  · -- a walk that ends has passed every entry of the first table
    intro hdone log hlog hadmits
    have hmem := Keyset.mem_walk htables hdone (mem_auditTables hlog hadmits rounds) (by simp)
    exact ⟨hmem, List.count_eq_one_of_mem hids (List.mem_map_of_mem hmem)⟩
  · intro n hn
    exact followCursor_ends hrt f hlimit h hn

/-- The members of an object whose values are strings, up to its closing brace. -/
def readStrings : Nat → List Char → Option (List (String × String))
  | 0, _ => none
  | n + 1, cs => do
    let (name, rest) ← Text.readString cs
    let (value, rest) ← Text.readString rest.tail
    if rest = ['}'] then some [(name, value)]
    else (readStrings n rest.tail).map ((name, value) :: ·)

/-- A runtime that encodes cursors, and parses objects of strings without white space. -/
def cursorRuntime : Runtime :=
  { sampleRuntime with
    base64url := Base64.encodeText
    fromBase64url := Base64.decodeText
    jsonParse := fun s => (readStrings s.toList.length s.toList.tail).map fun fields =>
      .obj (fields.map fun f => (f.1, .str f.2)) }

/-- The two strings of a cursor are read back. -/
theorem readStrings_two (n : Nat) (c i : String) :
    readStrings (n + 2) (Text.quote "c" ++ ':' :: (Text.quote c ++ ',' ::
      (Text.quote "i" ++ ':' :: (Text.quote i ++ ['}'])))) = some [("c", c), ("i", i)] := by
  simp [readStrings, Text.readString_quote]

/-- The runtime of the sample reads its own cursors. -/
theorem cursorRuntime_jsonParse (c i : String) :
    cursorRuntime.jsonParse (String.ofList (stringify (.obj [("c", .str c), ("i", .str i)]))) =
      some (.obj [("c", .str c), ("i", .str i)]) := by
  -- the two fields of the cursor, as they are written
  have htext : stringify (.obj [("c", .str c), ("i", .str i)]) = '{' :: (Text.quote "c" ++ ':' ::
      (Text.quote c ++ ',' :: (Text.quote "i" ++ ':' :: (Text.quote i ++ ['}'])))) := by
    simp [stringify, stringifyFields, Text.object, Text.members]
  obtain ⟨n, hlen⟩ : ∃ n, (stringify (.obj [("c", .str c), ("i", .str i)])).length = n + 2 := by
    rw [htext]
    simp [Text.quote]
  -- the parser of the instance reads such a text only
  have hparse : ∀ s, cursorRuntime.jsonParse s = (readStrings s.toList.length s.toList.tail).map
      fun fields => .obj (fields.map fun f => (f.1, .str f.2)) := fun _ => rfl
  rw [hparse, String.toList_ofList, hlen, htext, List.tail_cons, readStrings_two]
  rfl

/-- It compares texts by their units. -/
theorem cursorRuntime_localeLe (a b : String) :
    cursorRuntime.localeLe a b = unitsLe (utf16Units a) (utf16Units b) := rfl

/-- And so it has what a walk asks for. -/
theorem cursorRuntime_cursors : cursorRuntime.Cursors where
  fromBase64url_base64url := Base64.decodeText_encodeText
  fromBase64url_empty := Base64.decodeText_empty
  jsonParse_stringify := cursorRuntime_jsonParse
  localeLe_time _ _ := cursorRuntime_localeLe _ _
  localeLe_id _ _ _ _ := cursorRuntime_localeLe _ _

/-- An entry of the contract `ctr_1`. -/
def sampleEntry (id : String) (createdAt : Time) : AuditLog :=
  ⟨id, "contract", "ctr_1", "contract.activated", "operator", none, none, none, createdAt⟩

/-- Two entries of one millisecond, an older one, and one that is appended during the walk. -/
def walkStore : Store :=
  { Store.empty with ops := { Ops.Store.empty with audits :=
      [sampleEntry "aud_00000000000000b2" 1700000000000,
        sampleEntry "aud_00000000000000a1" 1700000000000,
        sampleEntry "aud_00000000000000c3" 1600000000000] } }

theorem audit_keyset_walk_ties :
    ∃ pages done, followCursor cursorRuntime ⟨some "contract", none, none, none⟩ 1 walkStore none
        [[], [sampleEntry "aud_00000000000000d4" 1700000000001], []] = some (pages, done) ∧
      (∀ page ∈ pages, page.length ≤ 1) ∧ pages.flatten.Pairwise auditBefore := by
  obtain ⟨pages, done, hwalk, hlength, hsorted, -⟩ :=
    audit_keyset_walk cursorRuntime_cursors ⟨some "contract", none, none, none⟩ (Nat.le_refl 1)
      walkStore [[], [sampleEntry "aud_00000000000000d4" 1700000000001], []]
      ⟨by decide, by decide⟩
  exact ⟨pages, done, hwalk, hlength, hsorted⟩

end Bluesafe.Api
