import ContextLint.Report.Basic

/-!
# Reports as Markdown

A summary, a table for each file, and a list of the files that were not analysed. A table shows at
most fifty diagnostics and says how many are left over. Inside a table bars are escaped and
backticks become apostrophes, so that a line of code stays in its cell.
-/

namespace ContextLint.Report

/-- The most rows that a table shows. -/
def maxRows : Nat := 50

/-- One character of a table cell. -/
def cellChar (c : Char) : List Char :=
  if c = '|' then ['\\', '|'] else if c = '`' then ['\''] else [c]

/-- Code as text of a table cell. -/
def cell (text : String) : String := String.ofList (text.toList.flatMap cellChar)

/-- Text marked as code. -/
def code (text : String) : String := "`" ++ text ++ "`"

/-- The row of a diagnostic. -/
def row (d : Diagnostic) : String :=
  "| " ++ toString d.line ++ " | " ++ toString d.column ++ " | " ++ code (d.method ++ "()") ++
    " | " ++ code (cell d.snippet) ++ " |"

/-- The lines on one file. -/
def fileSection (file : String) (diagnostics : List Diagnostic) : List String :=
  ["## " ++ code file ++ "\n", "| Line | Col | Call | Code |", "|---|---|---|---|"] ++
    (diagnostics.take maxRows).map row ++
    (if maxRows < diagnostics.length then
      ["\n... and " ++ toString (diagnostics.length - maxRows) ++ " more"]
    else []) ++ [""]

/-- The lines of the summary. -/
def summary (r : Report) : List String :=
  ["- **Status**: " ++ (if r.passed then "PASS" else "FAIL"),
   "- **Python files scanned**: " ++ toString r.filesScanned,
   "- **Events missing context**: " ++ toString r.count] ++
    (if r.createdAt.isEmpty then [] else ["- **Generated**: " ++ r.createdAt]) ++
    (if r.skipped.isEmpty then [] else
      ["- **Files skipped**: " ++ toString r.skipped.length]) ++
    (if r.errors.isEmpty then [] else
      ["- **Analyzer errors**: " ++ toString r.errors.length])

/-- The lines on files that were not analysed. -/
def notAnalyzed (r : Report) : List String :=
  if r.skipped.isEmpty && r.errors.isEmpty then []
  else
    ["## Not analyzed\n"] ++
      r.skipped.map (fun i => "- " ++ code i.file ++ ": " ++ i.reason) ++
      r.errors.map (fun i => "- " ++ code i.file ++ ": " ++ i.reason ++ " (analyzer error)") ++
      [""]

/-- The report as Markdown. -/
def markdown (r : Report) : String :=
  "\n".intercalate
    (["# Log Context Report\n", "\n".intercalate r.summary ++ "\n"] ++
      r.byFile.flatMap (fun g => fileSection g.1 g.2) ++ r.notAnalyzed)

end ContextLint.Report
