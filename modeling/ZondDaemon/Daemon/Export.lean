import ZondDaemon.Proto

/-!
# Writing a finished scan down

`export.rs`: the name the schema gives each format, and JSON for a caller who named none. The writing is
the engine's, and what it writes has to be text.
-/

namespace ZondDaemon.Export

open Proto (ExportFormat DiffFormat)

variable {E : Engine}

/-- What writes a report in this format. -/
def writer : ExportFormat → Engine.Exporter
  | .unspecified => .jsonPretty
  | .json => .jsonPretty
  | .jsonl => .jsonLines
  | .csv => .csv
  | .html => .html
  | .nmapXml => .nmapXml

/-- What writes a comparison in this format. -/
def diffWriter : DiffFormat → Engine.DiffExporter
  | .unspecified => .json
  | .json => .json
  | .html => .html

/-- What the engine wrote, as the text it has to be. -/
def asText (written : Except EngineError ByteArray) (what : String) : Except Error String :=
  match written with
  | .error refused => .error (.engine refused)
  | .ok bytes =>
    match String.fromUTF8? bytes with
    | some text => .ok text
    | none => .error ⟨"export.not_text",
        s!"the engine wrote a {what} that is not text, which should not happen"⟩

/-- Writes `report` out in the format the schema names. -/
def document (report : E.ScanReport) (format : ExportFormat) (redaction : Redaction) :
    Except Error String :=
  asText (E.exportReport (writer format) redaction report) "document"

/-- Writes what changed between two scans. -/
def comparison (baseline current : E.ScanReport) (format : DiffFormat) : Except Error String :=
  asText (E.exportDiff (diffWriter format) baseline current) "comparison"

/-- The format a caller asked for, resolved to the one that will actually be written. -/
def named (raw : Int) : ExportFormat :=
  match (Proto.tryFrom raw : Option ExportFormat) with
  | some .unspecified => .json
  | none => .json
  | some format => format

/-- The comparison format a caller asked for, resolved to the one that will be written. -/
def compared (raw : Int) : DiffFormat :=
  match (Proto.tryFrom raw : Option DiffFormat) with
  | some .unspecified => .json
  | none => .json
  | some format => format

/-- Folds several scans into one report. -/
def folded (reports : List (String × E.ScanReport)) : E.ScanReport := E.merge reports

end ZondDaemon.Export
