import ZondDaemon.Base.Program
import ZondDaemon.Daemon.Export
import ZondDaemon.Scans.Recorded

/-!
# The calls that name a scan

`finished`, `export`, `difference` and `folded` of `stdio.rs`, as programs over what they read of the
registry: each lookup of a name and each look at a scan's report is a reading of its own, and the registry
goes on in between.
-/

namespace ZondDaemon

open Proto

variable {E : Engine}

/-- A scan this process is running, by its place among them, or one it only has the record of. -/
inductive Found (E : Engine)
  | live (j : Nat)
  | recorded (recorded : Recorded E)

/-- What a call reads of the registry. -/
inductive Reading
  /-- `Scans::get`. -/
  | get (id : String)
  /-- `Scan::report`. -/
  | report (j : Nat)
  /-- The masking the scan was started with. -/
  | redaction (j : Nat)

@[reducible] def Reading.Answer (E : Engine) : Reading → Type
  | .get _ => Except Error (Found E)
  | .report _ => Option E.ScanReport
  | .redaction _ => Redaction

/-- A program of a call that names scans. -/
abbrev Reads (E : Engine) := Program Reading (Reading.Answer E) Error

namespace Found

/-- What the scan amounted to, or nothing while it is still going. -/
def report : Found E → Reads E (Option E.ScanReport)
  | .live j => .ask (.report j) .ret
  | .recorded record => .ret (some record.report)

/-- The masking this scan's findings are handed out under. -/
def redaction : Found E → Reads E Redaction
  | .live j => .ask (.redaction j) .ret
  | .recorded _ => .ret .none

end Found

namespace Stdio

/-- The scan named `id`, whether or not this process is the one running it. -/
def find (id : String) : Reads E (Found E) := .ask (.get id) .ofExcept

/-- The refusal of a call that only makes sense once the scan is over. -/
def stillRunning (id rest : String) : Error :=
  ⟨"scan.still_running", s!"{id} has not finished, so there is nothing to {rest}"⟩

/-- A scan's report, for the calls that only make sense once it is over. -/
def finished (id : String) : Reads E E.ScanReport := do
  let found ← find id
  match ← found.report with
  | some report => .ret report
  | none => .fail (stillRunning id "read from it yet.")

/-- `export` of `stdio.rs`: writes a finished scan down in whichever format was asked for. -/
def exportScan (asked : ExportRequest) : Reads E ExportResponse := do
  let found ← find asked.scanId
  match ← found.report with
  | none => .fail (stillRunning asked.scanId "write down yet. Watch it instead.")
  | some report =>
    let redaction ← if asked.redact.getD false then .ret .standard else found.redaction
    let format := Export.named asked.format
    let document ← .ofExcept (Export.document report format redaction)
    return ⟨document, number format⟩

/-- What changed between two scans. -/
def difference (asked : DiffRequest) : Reads E DiffResponse := do
  let baseline ← finished asked.baselineId
  let current ← finished asked.currentId
  let format := Export.compared asked.format
  let document ← .ofExcept (Export.comparison baseline current format)
  return ⟨document, number format⟩

/-- The reports of several scans, each under its name. -/
def collect : List String → Reads E (List (String × E.ScanReport))
  | [] => .ret []
  | id :: rest => do
    let report ← finished id
    let reports ← collect rest
    return (id, report) :: reports

/-- Several scans folded into one report. -/
def folded (asked : MergeRequest) : Reads E ExportResponse := do
  if asked.scanIds.length < 2 then
    .fail ⟨"request.too_few_scans", "folding takes two scans or more; one scan is already a report"⟩
  else
    let reports ← collect asked.scanIds
    let format := Export.named asked.format
    let redaction := if asked.redact.getD false then .standard else .none
    let document ← .ofExcept (Export.document (Export.folded reports) format redaction)
    return ⟨document, number format⟩

end Stdio

/-- A call that reads the reports of the scans it names. -/
inductive ReportCall
  | exporting (asked : ExportRequest)
  | diffing (asked : DiffRequest)
  | merging (asked : MergeRequest)

/-- What the call does. -/
def ReportCall.program : ReportCall → Reads E (ExportResponse ⊕ DiffResponse)
  | .exporting asked => .inl <$> Stdio.exportScan asked
  | .diffing asked => .inr <$> Stdio.difference asked
  | .merging asked => .inl <$> Stdio.folded asked

end ZondDaemon
