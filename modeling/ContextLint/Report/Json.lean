import ContextLint.Data.Json
import ContextLint.Report.Basic

/-!
# Reports as JSON

All fields of a report in a fixed order, followed by the number of diagnostics and the verdict.
-/

namespace ContextLint.Report

open Data Text

/-- A diagnostic as JSON. -/
def Diagnostic.toJson (d : Diagnostic) : Json :=
  .obj [("file", .str (points d.file)), ("line", .int d.line), ("column", .int d.column),
    ("rule", .str (points d.rule)), ("method", .str (points d.method)),
    ("message", .str d.message), ("snippet", .str (points d.snippet))]

/-- A file that was not analysed as JSON. -/
def FileIssue.toJson (i : FileIssue) : Json :=
  .obj [("file", .str (points i.file)), ("reason", .str (points i.reason))]

/-- A report as JSON. -/
def toJson (r : Report) : Json :=
  .obj [("created_at", .str (points r.createdAt)), ("files_scanned", .int r.filesScanned),
    ("diagnostics", .arr (r.diagnostics.map Diagnostic.toJson)),
    ("skipped", .arr (r.skipped.map FileIssue.toJson)),
    ("errors", .arr (r.errors.map FileIssue.toJson)), ("count", .int r.count),
    ("passed", .bool r.passed)]

/-- The report as JSON text. -/
def json (r : Report) : String := r.toJson.render

end ContextLint.Report
