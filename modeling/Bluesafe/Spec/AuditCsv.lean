import Bluesafe.Api.Reads
import Bluesafe.ForStd.Csv

/-!
# The CSV export can be read back

A reader of RFC 4180 files gets from the export one record for each audit entry, in order,
with the values of its nine columns. `Bluesafe.ForStd.Csv` has the reader and the law for any
cells; what is left is that the export writes what that law is about.
-/

namespace Bluesafe.Api

/-- The records of a text. -/
def readCsv (text : String) : Option (List (List String)) :=
  (Csv.read text.toList).map fun records => records.map fun fields => fields.map String.ofList

/-- The text of the export behind the byte order mark. -/
def auditCsvText {Obj : Type} (stringify : Obj → String) (logs : List (AuditRecord Obj)) : String :=
  String.join (auditCsvChunks stringify logs)

theorem csvCell_toList (value : String) : (csvCell value).toList = Csv.cell value.toList := by
  unfold csvCell Csv.cell
  have hspecial : (value.toList.any fun c => c = '"' || c = ',' || c = '\r' || c = '\n') =
      value.toList.any Csv.isSpecial := rfl
  rw [hspecial]
  split
  · simp
    rfl
  · rfl

/-- Cells joined by commas are a row. -/
theorem intercalate_csvCell (values : List String) :
    (String.intercalate "," (values.map csvCell)).toList = Csv.row (values.map String.toList) := by
  rw [String.toList_intercalate, List.map_map]
  have hcells : values.map (String.toList ∘ csvCell) = (values.map String.toList).map Csv.cell := by
    rw [List.map_map]
    exact List.map_congr_left fun value _ => csvCell_toList value
  rw [hcells]
  generalize values.map String.toList = cells
  induction cells with
  | nil => rfl
  | cons c rest ih =>
    cases rest with
    | nil => simp [Csv.row]
    | cons c' rest =>
      rw [Csv.row, ← ih]
      · simp
      · simp

/-- The text of the export is the header and the entries, line by line. -/
theorem auditCsvText_toList {Obj : Type} (stringify : Obj → String)
    (logs : List (AuditRecord Obj)) :
    (auditCsvText stringify logs).toList =
      Csv.lines ((auditCsvColumns :: logs.map fun log => log.fields stringify).map
        fun values => values.map String.toList) := by
  have hheader : auditLogCsvHeader = String.intercalate "," (auditCsvColumns.map csvCell) := by
    decide
  have hline : ∀ log : AuditRecord Obj, (auditLogToCsvRow stringify log ++ "\n").toList =
      Csv.row ((log.fields stringify).map String.toList) ++ ['\n'] := by
    intro log
    rw [String.toList_append, auditLogToCsvRow, intercalate_csvCell]
    rfl
  simp only [auditCsvText, auditCsvChunks, String.toList_join, List.flatMap_cons, List.flatMap_map,
    hheader, Csv.lines, List.map_cons, List.map_map, String.toList_append, intercalate_csvCell, hline]
  rfl

/-- For all audit entries, with any texts in their fields and any objects, an RFC 4180 reader
    gets from the export the header and then one record for each entry, in order, with its
    nine values; the text of an object is empty exactly when the object is absent. -/
theorem audit_csv_round_trip {Obj : Type} (stringify : Obj → String)
    (hobj : ∀ o, stringify o ≠ "") (logs : List (AuditRecord Obj)) :
    readCsv (auditCsvText stringify logs) =
      some (auditCsvColumns :: logs.map fun log =>
        [log.id, log.entityType, log.entityId, log.action, log.actorId, log.createdAt,
          jsonText stringify log.before, jsonText stringify log.after,
          jsonText stringify log.metadata]) ∧
    ∀ o : Option Obj, jsonText stringify o = "" ↔ o = none := by
  constructor
  · have hne : ∀ values ∈ (auditCsvColumns :: logs.map fun log => log.fields stringify).map
        (fun values => values.map String.toList), values ≠ [] := by
      intro values hmem
      simp only [List.mem_map, List.mem_cons] at hmem
      obtain ⟨texts, htexts, rfl⟩ := hmem
      rcases htexts with rfl | ⟨log, -, rfl⟩
      · simp [auditCsvColumns]
      · simp [AuditRecord.fields]
    rw [readCsv, auditCsvText_toList, Csv.read_lines hne, Option.map_some, List.map_map]
    have hback : ∀ texts : List String, (texts.map String.toList).map String.ofList = texts := by
      intro texts
      simp [Function.comp_def]
    simp only [Function.comp_def, hback, List.map_id']
    rfl
  · intro o
    cases o with
    | none => simp [jsonText]
    | some obj => simp [jsonText, hobj]

/-- An entry whose fields hold quotation marks, commas and line breaks. -/
def awkwardRecord : AuditRecord Ops.JsonObject where
  id := "aud_1"
  entityType := "a,\"b\""
  entityId := ""
  action := "first\r\nsecond"
  actorId := "\"\""
  createdAt := "2026-01-01T00:00:00.000Z"
  before := none
  after := some [("status", .str "a,b")]
  metadata := some []

theorem stringifyObject_ne (o : Ops.JsonObject) : stringifyObject o ≠ "" := by
  intro h
  have hlist := congrArg String.toList h
  simp [stringifyObject, Notify.stringify, Text.object] at hlist

/-- Two such entries and their records. -/
theorem audit_csv_round_trip_awkward :
    readCsv (auditCsvText stringifyObject [awkwardRecord, awkwardRecord]) =
      some [auditCsvColumns, awkwardRecord.fields stringifyObject,
        awkwardRecord.fields stringifyObject] :=
  (audit_csv_round_trip stringifyObject stringifyObject_ne [awkwardRecord, awkwardRecord]).1

end Bluesafe.Api
