import Bluesafe.Api.Reads
import Bluesafe.ForStd.TextCut

/-!
# The export worker

`services/export-job.worker.ts`. A tick claims the oldest jobs that wait and runs them one
after the other: the audit entries of the job's filter are read page by page, and their lines
are joined and, when they are too long, cut by their bytes.

A job has the one kind `audits_ndjson`, so the branch for other kinds is left out, together
with the counters of the outcomes.
-/

namespace Bluesafe.Api

open Bluesafe.Ops (Time AuditLog Json)
open Bluesafe.Notify (stringify)

/-- `MAX_RESULT_BYTES`. -/
def maxResultBytes : Nat := 8 * 1024 * 1024

/-- The line that stands for what was cut. -/
def truncationMarker (maxBytes : Nat) : List Char :=
  stringify (.obj [("truncated", .bool true), ("maxBytes", .num maxBytes)])

/-- The result of a job: the text, or the text of its first `maxBytes` bytes with a marker. -/
def truncateResult (maxBytes : Nat) (text : List Char) : List Char :=
  if maxBytes < Text.byteLength text then
    Text.cutBytes maxBytes text ++ '\n' :: (truncationMarker maxBytes ++ ['\n'])
  else text

/-- The line of an audit entry, without its line break. -/
def auditLine (log : AuditLog) : List Char := stringify (.obj (auditFields log))

/-- `resultNdjson`. -/
def exportResult (logs : List AuditLog) : String :=
  String.ofList (truncateResult maxResultBytes (logs.flatMap fun log => auditLine log ++ ['\n']))

/-- One iteration of `runExportJobTick`. -/
def runExportJob (job : ExportJob) : ApiM PUnit :=
  tryCatch (do
    let rows ← exportAudits job.filter 500 job.maxExport 0
    let resultNdjson := exportResult rows
    let now ← ofOps Ops.nowIso
    invoke (.updateExportJob { job with
      status := .completed, resultNdjson := some resultNdjson, error := none, updatedAt := now }))
  fun e => do
    let now ← ofOps Ops.nowIso
    invoke (.updateExportJob { job with status := .failed, error := some e, updatedAt := now })

/-- `runExportJobTick`. -/
def runExportJobTick (batchSize : Nat) : ApiM PUnit := do
  let now ← ofOps Ops.nowIso
  let claimed ← invoke (.claimExportJobsPending batchSize now)
  claimed.forM runExportJob

end Bluesafe.Api
