import ContextLint.Report.Json
import ContextLint.Report.Markdown

/-!
# Report formats

Plain text has one line for each diagnostic and one for each file that was not analysed. A format is
chosen by name, in any mixture of upper and lower case. A report cannot be written if an integer
that the format shows has too many digits.
-/

namespace ContextLint.Report

/-- The report as lines of plain text. -/
def plain (r : Report) : List Nat :=
  (Text.points "\n").intercalate
    (r.diagnostics.map Diagnostic.text ++
      r.skipped.map (fun i => Text.points (i.file ++ ": skipped (" ++ i.reason ++ ")")) ++
      r.errors.map (fun i => Text.points (i.file ++ ": analyzer error (" ++ i.reason ++ ")")))

/-- A way to write a report. -/
inductive Format where
  | text
  | md
  | json
  deriving DecidableEq, Repr, Inhabited

/-- Name of a format. -/
def Format.name : Format → String
  | text => "text"
  | md => "md"
  | json => "json"

/-- Most decimal digits with which an integer is written. -/
def maxDigits : Nat := 4300

/-- The integer has no more digits than are written. -/
def isWritable (n : Int) : Bool := n.natAbs < Nat.pow 10 maxDigits

/-- Line and column of each diagnostic. -/
def places (ds : List Diagnostic) : List Int := ds.flatMap fun d => [d.line, d.column]

/-- The integers of a report that a format shows. -/
def Format.integers : Format → Report → List Int
  | text, r => places r.diagnostics
  | md, r =>
    [r.filesScanned, r.count, r.skipped.length, r.errors.length] ++ r.byFile.flatMap fun g =>
      places (g.2.take maxRows) ++ [((g.2.length - maxRows : Nat) : Int)]
  | json, r => r.filesScanned :: (r.count : Int) :: places r.diagnostics

/-- The code points of a report in a format. -/
def Format.points : Format → Report → List Nat
  | text, r => r.plain
  | md, r => Text.points r.markdown
  | json, r => Text.points r.json

/-- A report with an integer that cannot be written. -/
structure OversizedInteger where
  deriving DecidableEq, Repr, Inhabited

/-- The error as text. -/
def OversizedInteger.message (_ : OversizedInteger) : String :=
  "Exceeds the limit (" ++ toString maxDigits ++ " digits) for integer string conversion; " ++
    "use sys.set_int_max_str_digits() to increase the limit"

/-- Write a report. -/
def Format.render (f : Format) (r : Report) : Except OversizedInteger (List Nat) :=
  if (f.integers r).all isWritable then .ok (f.points r) else .error {}

/-- A letter of a format's name without its case. The long s counts as an s. -/
def foldLetter (c : Char) : Char :=
  if 'A' ≤ c && c ≤ 'Z' then Char.ofNat (c.toNat + 32)
  else if c.toNat = 0x17F then 's'
  else c

/-- The format of a name. -/
def Format.ofName? (name : String) : Option Format :=
  let folded := String.ofList (name.toList.map foldLetter)
  [Format.text, .md, .json].find? (·.name == folded)

end ContextLint.Report
