import Mathlib.Data.List.Basic

/-!
# Comma-separated values

A reader for RFC 4180 files and the law that it reads back what a writer has written. The
reader is a state machine over characters, so what it makes of a text can be computed piece
by piece (`List.foldlM_append`): a cell takes it from the start of a field to a state in
which a comma or a line break closes the field (`feed_cell_comma`, `feed_cell_newline`).

A line ends with a line feed, with or without a carriage return before it. A quotation mark
inside a field that is not quoted, text after the closing quotation mark and a carriage
return alone are errors.
-/

namespace Csv

/-! ## Reader -/

/-- Where the reader stands in a field. -/
inductive Mode
  | start
  | plain
  | quoted
  /-- After a quotation mark in a quoted field: its end, or the first half of an escape. -/
  | closing
  /-- After a carriage return that belongs to a line break. -/
  | lineBreak
  deriving DecidableEq, Repr

/-- The state of the reader: the current field, the fields of the current record before it,
    and the records before that one. -/
structure Reader where
  mode : Mode
  field : List Char
  fields : List (List Char)
  records : List (List (List Char))

/-- The reader at the start of a record. -/
def Reader.atRecord (records : List (List (List Char))) : Reader := ⟨.start, [], [], records⟩

/-- One more character in the current field. -/
def Reader.push (r : Reader) (mode : Mode) (c : Char) : Reader :=
  { r with mode := mode, field := r.field ++ [c] }

def Reader.endField (r : Reader) : Reader :=
  ⟨.start, [], r.fields ++ [r.field], r.records⟩

def Reader.endRecord (r : Reader) : Reader :=
  .atRecord (r.records ++ [r.fields ++ [r.field]])

/-- A character that ends the field, if it is one. -/
def Reader.delimiter (r : Reader) (c : Char) : Option Reader :=
  if c = ',' then some r.endField
  else if c = '\n' then some r.endRecord
  else if c = '\r' then some { r with mode := .lineBreak }
  else none

/-- Read one character; `none` when the text is not well formed. -/
def Reader.step (r : Reader) (c : Char) : Option Reader :=
  match r.mode with
  | .start => if c = '"' then some { r with mode := .quoted }
      else (r.delimiter c).orElse fun _ => some (r.push .plain c)
  | .plain => if c = '"' then none
      else (r.delimiter c).orElse fun _ => some (r.push .plain c)
  | .quoted => if c = '"' then some { r with mode := .closing } else some (r.push .quoted c)
  | .closing => if c = '"' then some (r.push .quoted c) else r.delimiter c
  | .lineBreak => if c = '\n' then some r.endRecord else none

/-- The end of the text; the last line break is optional. -/
def Reader.finish (r : Reader) : Option (List (List (List Char))) :=
  match r.mode with
  | .start => if r.fields = [] then some r.records else some r.endRecord.records
  | .plain => some r.endRecord.records
  | .closing => some r.endRecord.records
  | .quoted => none
  | .lineBreak => none

/-- Read characters. -/
def Reader.feed (r : Reader) (text : List Char) : Option Reader := text.foldlM Reader.step r

/-- The records of a text. -/
def read (text : List Char) : Option (List (List (List Char))) :=
  ((Reader.atRecord []).feed text).bind Reader.finish

/-! ## Writer -/

/-- The characters that a field may contain only in quotation marks. -/
def isSpecial (c : Char) : Bool := c = '"' || c = ',' || c = '\r' || c = '\n'

/-- A character of a quoted field. -/
def escape (c : Char) : List Char := if c = '"' then ['"', '"'] else [c]

/-- A field: quoted when it has to be. -/
def cell (value : List Char) : List Char :=
  if value.any isSpecial then '"' :: (value.flatMap escape ++ ['"']) else value

/-- The fields of a record, separated by commas. -/
def row : List (List Char) → List Char
  | [] => []
  | [value] => cell value
  | value :: rest => cell value ++ ',' :: row rest

/-- Each record followed by a line feed. -/
def lines (records : List (List (List Char))) : List Char :=
  records.flatMap fun values => row values ++ ['\n']

/-! ## Reading back -/

theorem feed_append (r : Reader) (text rest : List Char) :
    r.feed (text ++ rest) = (r.feed text).bind fun r' => r'.feed rest :=
  List.foldlM_append

theorem feed_cons (r : Reader) (c : Char) (rest : List Char) :
    r.feed (c :: rest) = (r.step c).bind fun r' => r'.feed rest := rfl

@[simp] theorem feed_nil (r : Reader) : r.feed [] = some r := rfl

/-- An ordinary character extends a field that is not quoted. -/
theorem step_plain {r : Reader} (hmode : r.mode = .start ∨ r.mode = .plain) {c : Char}
    (hc : isSpecial c = false) : r.step c = some (r.push .plain c) := by
  simp only [isSpecial, Bool.or_eq_false_iff, decide_eq_false_iff_not] at hc
  obtain ⟨⟨⟨hquote, hcomma⟩, hcr⟩, hlf⟩ := hc
  rcases hmode with hmode | hmode
  · simp [Reader.step, hmode, Reader.delimiter, hquote, hcomma, hcr, hlf]
  · simp [Reader.step, hmode, Reader.delimiter, hquote, hcomma, hcr, hlf]

/-- A field without special characters is read as it stands. -/
theorem feed_plain {r : Reader} (hmode : r.mode = .start ∨ r.mode = .plain) {value : List Char}
    (hvalue : value.any isSpecial = false) :
    ∃ mode, (mode = .start ∨ mode = .plain) ∧
      r.feed value = some { r with mode := mode, field := r.field ++ value } := by
  induction value generalizing r with
  | nil => exact ⟨r.mode, hmode, by simp⟩
  | cons c rest ih =>
    rw [List.any_cons, Bool.or_eq_false_iff] at hvalue
    obtain ⟨mode, hm, hfeed⟩ := ih (r := r.push .plain c) (.inr rfl) hvalue.2
    refine ⟨mode, hm, ?_⟩
    rw [feed_cons, step_plain hmode hvalue.1, Option.bind_some, hfeed]
    simp [Reader.push]

/-- Inside quotation marks every character is read back from its escape. -/
theorem feed_escape {r : Reader} (hmode : r.mode = .quoted) (value : List Char) :
    r.feed (value.flatMap escape) = some { r with field := r.field ++ value } := by
  induction value generalizing r with
  | nil => simp
  | cons c rest ih =>
    have hchar : r.feed (escape c) = some (r.push .quoted c) := by
      by_cases hc : c = '"'
      · simp [escape, hc, feed_cons, Reader.step, hmode, Reader.push]
      · simp [escape, hc, feed_cons, Reader.step, hmode]
    rw [List.flatMap_cons, feed_append, hchar, Option.bind_some, ih rfl]
    simp [Reader.push, hmode]

/-- After a cell the field holds the value, and a delimiter ends it. -/
theorem feed_cell (fields : List (List Char)) (records : List (List (List Char)))
    (value : List Char) :
    ∃ mode, (mode = .start ∨ mode = .plain ∨ mode = .closing) ∧
      (Reader.mk .start [] fields records).feed (cell value) =
        some ⟨mode, value, fields, records⟩ := by
  unfold cell
  split
  · refine ⟨.closing, .inr (.inr rfl), ?_⟩
    rw [feed_cons, Reader.step, if_pos rfl, Option.bind_some, feed_append,
      feed_escape rfl, Option.bind_some]
    rfl
  · rename_i hplain
    obtain ⟨mode, hmode, hfeed⟩ :=
      feed_plain (r := ⟨.start, [], fields, records⟩) (.inl rfl) (by simpa using hplain)
    refine ⟨mode, ?_, by simpa using hfeed⟩
    rcases hmode with h | h
    · exact .inl h
    · exact .inr (.inl h)

theorem feed_cell_comma (fields : List (List Char)) (records : List (List (List Char)))
    (value rest : List Char) :
    (Reader.mk .start [] fields records).feed (cell value ++ ',' :: rest) =
      (Reader.mk .start [] (fields ++ [value]) records).feed rest := by
  obtain ⟨mode, hmode, hfeed⟩ := feed_cell fields records value
  rw [feed_append, hfeed, Option.bind_some, feed_cons]
  rcases hmode with rfl | rfl | rfl <;> rfl

theorem feed_cell_newline (fields : List (List Char)) (records : List (List (List Char)))
    (value rest : List Char) :
    (Reader.mk .start [] fields records).feed (cell value ++ '\n' :: rest) =
      (Reader.atRecord (records ++ [fields ++ [value]])).feed rest := by
  obtain ⟨mode, hmode, hfeed⟩ := feed_cell fields records value
  rw [feed_append, hfeed, Option.bind_some, feed_cons]
  rcases hmode with rfl | rfl | rfl <;> rfl

/-- A line is read as one record. -/
theorem feed_row {values : List (List Char)} (hne : values ≠ []) (fields : List (List Char))
    (records : List (List (List Char))) (rest : List Char) :
    (Reader.mk .start [] fields records).feed (row values ++ '\n' :: rest) =
      (Reader.atRecord (records ++ [fields ++ values])).feed rest := by
  induction values generalizing fields with
  | nil => exact absurd rfl hne
  | cons value more ih =>
    cases more with
    | nil => exact feed_cell_newline fields records value rest
    | cons value' more =>
      rw [row, List.append_assoc, List.cons_append, feed_cell_comma, ih (by simp)]
      · simp
      · simp

/-- Records that are not empty are read back from their lines, whatever their fields hold. -/
theorem read_lines {records : List (List (List Char))} (hne : ∀ values ∈ records, values ≠ []) :
    read (lines records) = some records := by
  have hfeed : ∀ before, (Reader.atRecord before).feed (lines records) =
      some (.atRecord (before ++ records)) := by
    induction records with
    | nil => intro before; simp [lines]
    | cons values rest ih =>
      intro before
      have hrest := ih (fun v hv => hne v (List.mem_cons_of_mem _ hv)) (before ++ [values])
      rw [lines, List.flatMap_cons, List.append_assoc, List.singleton_append, Reader.atRecord,
        feed_row (hne values List.mem_cons_self)]
      rw [lines] at hrest
      simpa using hrest
  rw [read, hfeed]
  rfl

end Csv
