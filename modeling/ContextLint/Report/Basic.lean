import ContextLint.Text.Points

/-!
# Reports

A diagnostic names the call that it is about by file, line and column, counted from one, and shows
the line. A report lists the diagnostics of a run, the files that could not be read or parsed, and
the files on which the analysis failed.
-/

namespace ContextLint

namespace Report

/-- A finding of the rule. -/
structure Diagnostic where
  file : String
  /-- The line, counted from one. -/
  line : Int
  /-- The column in bytes, counted from one. -/
  column : Int
  rule : String
  method : String
  /-- The message, by its code points. -/
  message : List Nat
  /-- The line's text, trimmed and cut. -/
  snippet : String := ""
  deriving DecidableEq, Repr, Inhabited

/-- The diagnostic as one line. -/
def Diagnostic.text (d : Diagnostic) : List Nat :=
  Text.points (d.file ++ ":" ++ toString d.line ++ ":" ++ toString d.column ++ ": ") ++ d.message

/-- One diagnostic stands no later in its file than another. -/
def Diagnostic.placeLe (a b : Diagnostic) : Bool :=
  a.line < b.line || (a.line == b.line && a.column ≤ b.column)

/-- One diagnostic comes no later than another, by file and place. -/
def Diagnostic.le (a b : Diagnostic) : Bool :=
  a.file < b.file || (a.file == b.file && a.placeLe b)

/-- A file that was not analysed, and why. -/
structure FileIssue where
  file : String
  reason : String
  deriving DecidableEq, Repr, Inhabited

end Report

open Report in
/-- The outcome of a run. -/
structure Report where
  /-- Time of the run; empty if not known. -/
  createdAt : String := ""
  /-- How many files were looked at. -/
  filesScanned : Int := 0
  /-- What the rule found. -/
  diagnostics : List Diagnostic := []
  /-- Files that could not be read or parsed. -/
  skipped : List FileIssue := []
  /-- Files on which the analysis failed. -/
  errors : List FileIssue := []
  deriving DecidableEq, Repr, Inhabited

namespace Report

/-- Number of diagnostics. -/
def count (r : Report) : Nat := r.diagnostics.length

/-- Nothing was found. -/
def passed (r : Report) : Bool := r.diagnostics.isEmpty

/-- Add a diagnostic to the group of its file, or open a new group behind the others. -/
def addToGroup (d : Diagnostic) :
    List (String × List Diagnostic) → List (String × List Diagnostic)
  | [] => [(d.file, [d])]
  | (file, ds) :: rest =>
    if file = d.file then (file, ds ++ [d]) :: rest else (file, ds) :: addToGroup d rest

/-- The diagnostics by file, files in the order in which they first occur. -/
def byFile (r : Report) : List (String × List Diagnostic) :=
  r.diagnostics.foldl (fun groups d => addToGroup d groups) []

end Report

end ContextLint
