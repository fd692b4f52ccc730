import ContextLint.ModuleName
import ContextLint.Rule.Check
import ContextLint.Settings.Load

/-!
# The rule inside a style checker

A style checker hands over a parsed file with its name and its text. The settings that apply to the
file are looked up from its directory; settings that cannot be used are passed over. Columns count
from zero, and each finding bears the rule's code.
-/

namespace ContextLint

open Files Typing

namespace StyleChecker

/-- Name under which the style checker lists the rule. -/
def name : String := "logctx-analyzer"

/-- Version of the rule. -/
def version : String := "0.1.0"

/-- Name of a file that is read from standard input. -/
def standardInput : String := "stdin"

/-- A finding. -/
structure Finding where
  /-- The line, counted from one. -/
  line : Int
  /-- The column, counted from zero. -/
  column : Int
  /-- Code and message, by their code points. -/
  text : List Nat
  deriving DecidableEq, Repr, Inhabited

/-- Why a file cannot be checked. -/
inductive CheckError where
  /-- The settings fail in a way that is not expected. -/
  | settings (error : LoadError)
  /-- The file has no name. -/
  | emptyName (error : EmptyName)
  /-- An annotation cannot be read. -/
  | hint (error : AnnotationError)
  deriving Inhabited

/-- Settings for a file, which are the default ones if those found cannot be used. -/
def settingsFor (tree : Tree) (cwd : Path) (filename : String) : Except LoadError Settings :=
  if [standardInput, "-", ""].contains filename then .ok {}
  else
    let dir := (Path.resolve cwd (Path.ofString filename)).parent
    match (findSettings .standard tree dir).bind (loadSettings .standard tree) with
    | .ok s => .ok s
    | .error e => if e.isExpected then .ok {} else .error e

/-- The finding for a diagnostic. -/
def finding (settings : Settings) (d : Report.Diagnostic) : Finding where
  line := d.line
  column := d.column - 1
  text := Text.points (settings.flake8Code ++ " ") ++ d.message

/-- Check a parsed file under the given settings. -/
def checkUnder (settings : Settings) (m : Source.Module) (filename : String)
    (source : List Char) : Except CheckError (List Finding) := do
  let path := Path.ofString filename
  let moduleName ← (moduleOfPath path path.parent).mapError .emptyName
  let found ←
    (Rule.checkModule m source filename moduleName settings .standard).mapError .hint
  return found.map (finding settings)

/-- Check a parsed file. -/
def check (tree : Tree) (cwd : Path) (m : Source.Module) (filename : String) (source : List Char) :
    Except CheckError (List Finding) := do
  let settings ← (settingsFor tree cwd filename).mapError .settings
  checkUnder settings m filename source

end StyleChecker

end ContextLint
