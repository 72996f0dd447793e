import Bluesafe.Spec.ExportLoops

/-!
# Truncated exports

The export worker cuts a result that is longer than eight megabytes by its bytes and puts a
marker behind the cut. A line that the cut falls into is left as a fragment, with a replacement
character if the cut falls into a character. `truncated_export_iff` says exactly when the lines
of a result are entries and the marker only; the argument about the lines is
`Text.keepsLines_truncate_iff`.
-/

namespace Bluesafe.Api

open Async
open Bluesafe.Ops (AuditLog Json JsonObject)
open Bluesafe.Notify (stringify stringifyFields)

/-! ## The lines of JSON texts -/

/-- An escaped character has no line break. -/
theorem newline_not_mem_escape (c : Char) : '\n' ∉ Text.escape c := by
  have hdigit : ∀ n < 16, '\n' ≠ Text.hexDigit n := by decide
  -- one case for each escape: the line break itself is written as `\n`
  unfold Text.escape
  split_ifs with h₁ h₂ h₃ h₄ h₅ h₆ h₇ h₈
  · decide
  · decide
  · decide
  · decide
  · decide
  · decide
  · decide
  · have hhigh := hdigit (c.toNat / 16) (by omega)
    have hlow := hdigit (c.toNat % 16) (by omega)
    simp [hhigh, hlow]
  · simp only [List.mem_singleton]
    exact fun h => h₅ h.symm

/-- Nor has a quoted text. -/
theorem newline_not_mem_quote (s : String) : '\n' ∉ Text.quote s := by
  unfold Text.quote
  simp only [List.mem_cons, List.mem_append, List.mem_flatMap, List.not_mem_nil, or_false, not_or]
  refine ⟨by decide, ?_, by decide⟩
  rintro ⟨c, -, hc⟩
  exact newline_not_mem_escape c hc

/-- Nor have members without one. -/
theorem newline_not_mem_members {ms : List (String × List Char)} (h : ∀ m ∈ ms, '\n' ∉ m.2) :
    '\n' ∉ Text.members ms := by
  induction ms with
  | nil => exact List.not_mem_nil
  | cons m ms ih =>
    have hkey := newline_not_mem_quote m.1
    have hvalue := h m List.mem_cons_self
    have hrest := ih fun m' hm' => h m' (List.mem_cons_of_mem _ hm')
    cases ms with
    | nil => simp [Text.members, hkey, hvalue]
    | cons m' ms => simp [Text.members, hkey, hvalue, hrest]

/-- Nor has a number. -/
theorem newline_not_mem_digits (n : Nat) : '\n' ∉ n.repr.toList := by
  intro h
  rw [Nat.repr, String.toList_ofList] at h
  have hdigit := Nat.isDigit_of_mem_toDigits (by decide) (by decide) h
  revert hdigit
  decide

/-- With or without its sign. -/
theorem newline_not_mem_int (n : Int) : '\n' ∉ (toString n).toList := by
  cases n with
  | ofNat n => exact newline_not_mem_digits n
  | negSucc n =>
    show '\n' ∉ ("-" ++ (n + 1).repr).toList
    rw [String.toList_append, List.mem_append, not_or]
    exact ⟨by decide, newline_not_mem_digits _⟩

/-- `JSON.stringify` puts everything on one line. -/
theorem newline_not_mem_stringify (j : Json) : '\n' ∉ stringify j := by
  -- values, lists of fields and fields are defined together, so the recursor carries all three
  refine @Json.rec (fun j => '\n' ∉ stringify j)
    (fun fields => ∀ m ∈ stringifyFields fields, '\n' ∉ m.2) (fun f => '\n' ∉ stringify f.2)
    ?_ ?_ ?_ ?_ ?_ ?_ ?_ ?_ ?_ j
  · decide
  · intro b
    cases b <;> decide
  · exact fun n => newline_not_mem_int n
  · exact fun s => newline_not_mem_quote s
  · exact fun t => newline_not_mem_quote _
  · intro fields h
    show '\n' ∉ '{' :: (Text.members (stringifyFields fields) ++ ['}'])
    have hmembers := newline_not_mem_members h
    simp [hmembers]
  · intro m hm
    cases hm
  · intro f fields hf hfields m hm
    rcases List.mem_cons.mp hm with rfl | hm
    · exact hf
    · exact hfields m hm
  · exact fun key value h => h

/-! ## Lines of entries -/

/-- An entry is one line. -/
theorem auditLine_isLine (log : AuditLog) : Text.IsLine (auditLine log) :=
  ⟨List.cons_ne_nil _ _, newline_not_mem_stringify _⟩

/-- So is the marker of a truncation. -/
theorem truncationMarker_isLine (maxBytes : Nat) : Text.IsLine (truncationMarker maxBytes) :=
  ⟨List.cons_ne_nil _ _, newline_not_mem_stringify _⟩

/-- An entry ends with a brace. -/
theorem auditLine_getLast? (log : AuditLog) : (auditLine log).getLast? = some '}' := by
  show ('{' :: (_ ++ ['}'])).getLast? = some '}'
  rw [← List.cons_append, List.getLast?_concat]

/-- An entry starts with its identifier. -/
theorem exists_auditLine_eq (log : AuditLog) :
    ∃ rest, auditLine log = '{' :: (Text.quote "id" ++ rest) := by
  obtain ⟨m, ms, hfields⟩ : ∃ m ms, stringifyFields (auditFields log) =
      ("id", Text.quote log.id) :: m :: ms := ⟨_, _, rfl⟩
  refine ⟨':' :: (Text.quote log.id ++ ',' :: Text.members (m :: ms)) ++ ['}'], ?_⟩
  unfold auditLine
  rw [stringify, hfields]
  simp [Text.object, Text.members]

/-- The marker starts with another field. -/
theorem truncationMarker_ne_auditLine (maxBytes : Nat) (log : AuditLog) :
    truncationMarker maxBytes ≠ auditLine log := by
  intro h
  -- behind the brace and the quote the marker has `t` and an entry has `i`
  have hsecond := congrArg (fun cs => cs.drop 2 |>.head?) h
  obtain ⟨rest, hentry⟩ := exists_auditLine_eq log
  have hmark : ((truncationMarker maxBytes).drop 2).head? = some 't' := rfl
  rw [hentry, hmark] at hsecond
  have hid : (('{' :: (Text.quote "id" ++ rest)).drop 2).head? = some 'i' := rfl
  rw [hid] at hsecond
  revert hsecond
  decide

/-- The lines of a result: the entries up to some point, then the marker if entries are
    missing. -/
def WellFormedExport (logs : List AuditLog) (resultNdjson : String) : Prop :=
  Text.KeepsLines (logs.map auditLine) (truncationMarker maxResultBytes) resultNdjson.toList

/-- The bytes of the first `k` entries with their line breaks. -/
def exportBytes (logs : List AuditLog) (k : Nat) : Nat :=
  Text.byteLength ((logs.take k).flatMap fun log => auditLine log ++ ['\n'])

/-- The bytes of the first entries are those of their lines. -/
theorem exportBytes_eq (logs : List AuditLog) (k : Nat) :
    exportBytes logs k = Text.byteLength (Text.joinLines ((logs.map auditLine).take k)) := by
  unfold exportBytes Text.joinLines
  rw [← List.map_take, List.flatMap_map]

/-- For every list of entries: the lines of the result are entries and the marker exactly if
    the entries fit, or the eight megabytes end with a line, or directly before a line break
    behind which there are more entries. -/
theorem wellFormedExport_iff (logs : List AuditLog) :
    WellFormedExport logs (exportResult logs) ↔ exportBytes logs logs.length ≤ maxResultBytes ∨
      ∃ k < logs.length, exportBytes logs k = maxResultBytes ∨
        exportBytes logs k = maxResultBytes + 1 := by
  -- the export is the joined lines, cut with the marker
  have hresult : (exportResult logs).toList = Text.truncate maxResultBytes
      (truncationMarker maxResultBytes) (Text.joinLines (logs.map auditLine)) := by
    unfold exportResult Text.joinLines
    rw [String.toList_ofList, List.flatMap_map]
    rfl
  -- its length before the cut is what the export counts
  have hall : exportBytes logs logs.length = Text.byteLength (Text.joinLines (logs.map auditLine)) := by
    rw [exportBytes_eq, List.take_of_length_le (by rw [List.length_map])]
  unfold WellFormedExport
  -- so the well-formed export is a cut at the end of a line
  rw [hresult, hall, Text.keepsLines_truncate_iff (truncationMarker_isLine _)]
  · unfold Text.CutsAtLine
    simp only [exportBytes_eq, List.length_map]
  -- no line has a line break in it
  · intro line hline
    obtain ⟨log, -, rfl⟩ := List.mem_map.mp hline
    exact auditLine_isLine log
  -- nor does it end with one
  · intro line hline
    obtain ⟨log, -, rfl⟩ := List.mem_map.mp hline
    rw [auditLine_getLast?]
    decide
  -- and no line is the marker
  · intro hmem
    obtain ⟨log, -, heq⟩ := List.mem_map.mp hmem
    exact truncationMarker_ne_auditLine _ log heq.symm

/-! ## What the worker stores -/

/-- A job that is completed is stored with the result of the rows that its loop has written. -/
def storesResult (job : ExportJob) (l : ApiLog) (op : calls.Op) : Prop :=
  ∀ j, op = .inr (.updateExportJob j) → j.status = .completed →
    j.resultNdjson = some (exportResult ((rowsRead l).take job.maxExport))

/-- Reading the clock stores nothing. -/
theorem storesResult_clock (job : ExportJob) (l : ApiLog) : storesResult job l (.inl .clock) :=
  fun j h => by cases h

/-- A job stores what it has rendered. -/
theorem runExportJob_safe (job : ExportJob) : Safe (storesResult job) (runExportJob job) [] := by
  have hpages : ∀ l f p, storesResult job l (.inr (.listAuditsPage f p)) :=
    fun l f p j h => by cases h
  unfold runExportJob
  -- the rows that were written are known from the log of the pages
  refine wp_monitor_tryCatch (F := fun _ _ => True) ?_ fun e l _ _ => ?_
  · refine wp_monitor_bind (wp_mono _ _ (monitor_mono _) (fun _ _ h => h) (fun _ _ _ => trivial)
      (exportAudits_bounded hpages job.filter 500 job.maxExport 0 [])) fun rows l _ hrows => ?_
    obtain ⟨-, read, hread, rfl⟩ := hrows
    have hread' : rowsRead l = read := hread
    show wp _ (ofOps (Ops.invoke .clock) >>= _) _ _ _
    rw [ofOps_invoke]
    refine wp_monitor_bind (R := fun _ l' => rowsRead l' = rowsRead l)
      (wp_monitor_call (storesResult_clock job l) (fun _ => rfl) fun _ => trivial) fun now l' _ hl' => ?_
    refine wp_monitor_call (fun j hj _ => ?_) (fun _ => trivial) fun _ => trivial
    cases hj
    rw [hl', hread']
  · show wp _ (ofOps (Ops.invoke .clock) >>= _) _ _ _
    rw [ofOps_invoke]
    refine wp_monitor_bind (R := fun _ _ => True)
      (wp_monitor_call (storesResult_clock job l) (fun _ => trivial) fun _ => trivial) fun now l' _ _ => ?_
    -- a job that failed keeps the result it had
    refine wp_monitor_call (fun j hj hdone => ?_) (fun _ => trivial) fun _ => trivial
    cases hj
    cases hdone

/-- In every run of the worker, whatever the repository answers, a completed job is stored with
    the result of the rows that were exported. And for every list of entries the lines of that
    result are whole entries, in order from the first one, with the marker behind them exactly
    when entries are missing, if and only if all entries fit into eight megabytes, or some but
    not all of the lines end exactly there, with or without their last line break. -/
theorem truncated_export_iff (job : ExportJob) :
    Safe (storesResult job) (runExportJob job) [] ∧
    ∀ logs : List AuditLog, WellFormedExport logs (exportResult logs) ↔
      exportBytes logs logs.length ≤ maxResultBytes ∨
      ∃ k < logs.length, exportBytes logs k = maxResultBytes ∨
        exportBytes logs k = maxResultBytes + 1 :=
  ⟨runExportJob_safe job, wellFormedExport_iff⟩

/-! ## A long entry -/

/-- A member is no longer than its object. -/
theorem byteLength_le_members {ms : List (String × List Char)} {m : String × List Char}
    (h : m ∈ ms) : Text.byteLength m.2 ≤ Text.byteLength (Text.members ms) := by
  -- induction on the members, whose texts are joined by commas
  induction ms with
  | nil => cases h
  | cons m' ms ih =>
    cases ms with
    | nil =>
      rw [List.mem_singleton.mp h]
      simp [Text.members]
      omega
    | cons m'' ms =>
      simp only [Text.members, Text.byteLength_append, Text.byteLength_cons]
      -- the member is the first one, or it is in the rest
      rcases List.mem_cons.mp h with rfl | hm
      · omega
      · have hrest := ih hm
        omega

/-- The text of `n` letters. -/
def longText (n : Nat) : String := String.ofList (List.replicate n 'a')

/-- A long text is long when it is quoted. -/
theorem le_byteLength_quote (n : Nat) : n ≤ Text.byteLength (Text.quote (longText n)) := by
  -- an `a` needs no escape
  have hescape : ∀ n, (List.replicate n 'a').flatMap Text.escape = List.replicate n 'a' := by
    intro n
    induction n with
    | zero => rfl
    | succ n ih => rw [List.replicate_succ, List.flatMap_cons, ih]; rfl
  -- and it is one byte
  have hbytes : ∀ n, Text.byteLength (List.replicate n 'a') = n := by
    intro n
    induction n with
    | zero => rfl
    | succ n ih =>
      have hletter : 'a'.utf8Size = 1 := rfl
      rw [List.replicate_succ, Text.byteLength_cons, ih, hletter, Nat.add_comm]
  rw [Text.quote, longText, String.toList_ofList, hescape, Text.byteLength_cons, Text.byteLength_append,
    hbytes]
  omega

/-- An entry whose metadata is longer than a result may be. -/
def longEntry : AuditLog where
  id := "aud_1"
  entityType := "dispute"
  entityId := "dsp_1"
  action := "dispute.filed"
  actorId := "tenant"
  before := none
  after := none
  metadata := some [("note", .str (longText maxResultBytes))]
  createdAt := 0

/-- An object is longer than each of its values. -/
theorem byteLength_lt_object {ms : List (String × List Char)} {m : String × List Char} (h : m ∈ ms) :
    Text.byteLength m.2 < Text.byteLength (Text.object ms) := by
  have hmembers := byteLength_le_members h
  have hbrace : '{'.utf8Size = 1 := rfl
  rw [Text.object, Text.byteLength_cons, Text.byteLength_append, hbrace]
  omega

/-- Its export is a fragment of the entry and the marker. -/
theorem long_entry_is_cut : ¬WellFormedExport [longEntry] (exportResult [longEntry]) := by
  -- the note alone is as long as the limit, and the entry is longer than the note
  have hnote : maxResultBytes ≤ Text.byteLength (Text.quote (longText maxResultBytes)) :=
    le_byteLength_quote maxResultBytes
  have hmetadata : Text.byteLength (Text.quote (longText maxResultBytes)) <
      Text.byteLength (Text.object [("note", Text.quote (longText maxResultBytes))]) :=
    byteLength_lt_object (m := ("note", _)) List.mem_cons_self
  have hentry : Text.byteLength (Text.object [("note", Text.quote (longText maxResultBytes))]) <
      Text.byteLength (auditLine longEntry) := by
    refine @byteLength_lt_object (stringifyFields (auditFields longEntry)) ("metadata", _) ?_
    exact .tail _ (.tail _ (.tail _ (.tail _ (.tail _ (.tail _ (.head _))))))
  have hall : exportBytes [longEntry] 1 = Text.byteLength (auditLine longEntry ++ ['\n']) := by
    unfold exportBytes
    rw [List.take_succ_cons, List.flatMap_cons, List.take_zero, List.flatMap_nil, List.append_nil]
  rw [wellFormedExport_iff]
  rintro (hfits | ⟨k, hk, hbytes⟩)
  · have hfits' : exportBytes [longEntry] 1 ≤ maxResultBytes := hfits
    rw [hall, Text.byteLength_append] at hfits'
    omega
  · -- the only proper front of one entry is empty
    have hzero : k = 0 := Nat.lt_one_iff.mp hk
    subst hzero
    have hnone : exportBytes [longEntry] 0 = 0 := rfl
    have hmax : maxResultBytes = 8388608 := rfl
    omega

end Bluesafe.Api
