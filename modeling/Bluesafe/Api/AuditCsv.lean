import Bluesafe.Ops.Types

/-!
# The CSV export of audit entries

`services/audit-csv.ts`. An `AuditRecord` is an `AuditLog` of `types.ts` as the export sees
it: every field is a text and may hold any text, and the three objects are only handed to
`JSON.stringify`, which is a parameter here.
-/

namespace Bluesafe.Api

/-- `AuditLog` over JSON objects of type `Obj`. -/
structure AuditRecord (Obj : Type) where
  id : String
  entityType : String
  entityId : String
  action : String
  actorId : String
  createdAt : String
  before : Option Obj
  after : Option Obj
  metadata : Option Obj

/-- `csvCell`. -/
def csvCell (value : String) : String :=
  if value.toList.any fun c => c = '"' || c = ',' || c = '\r' || c = '\n' then
    "\"" ++ String.ofList (value.toList.flatMap fun c => if c = '"' then ['"', '"'] else [c]) ++ "\""
  else value

/-- The names of the columns. -/
def auditCsvColumns : List String :=
  ["id", "entityType", "entityId", "action", "actorId", "createdAt", "beforeJson", "afterJson",
    "metadataJson"]

/-- `auditLogCsvHeader`. -/
def auditLogCsvHeader : String := String.intercalate "," auditCsvColumns

section Rows

variable {Obj : Type} (stringify : Obj → String)

/-- `log.before != null ? JSON.stringify(log.before) : ""`. -/
def jsonText : Option Obj → String
  | none => ""
  | some o => stringify o

/-- The values of the columns. -/
def AuditRecord.fields (log : AuditRecord Obj) : List String :=
  [log.id, log.entityType, log.entityId, log.action, log.actorId, log.createdAt,
    jsonText stringify log.before, jsonText stringify log.after, jsonText stringify log.metadata]

/-- `auditLogToCsvRow`. -/
def auditLogToCsvRow (log : AuditRecord Obj) : String :=
  String.intercalate "," ((log.fields stringify).map csvCell)

/-- The texts that `GET /v1/reports/audits.csv` writes after the byte order mark. -/
def auditCsvChunks (logs : List (AuditRecord Obj)) : List String :=
  (auditLogCsvHeader ++ "\n") :: logs.map fun log => auditLogToCsvRow stringify log ++ "\n"

end Rows

end Bluesafe.Api
