import ContextLint.Files.Discover
import ContextLint.ModuleName
import ContextLint.Rule.Check
import ContextLint.Text.Utf8

/-!
# Scanning files

Every file found under the given paths is read, parsed and checked on its own. A file that cannot be
read or parsed is skipped with a reason, one on which the analysis fails is listed as an error, and
the others contribute their diagnostics. The report orders all diagnostics by file and place.
-/

namespace ContextLint

open Files Report Source Typing

/-- Message on a source text with a null character. Python before 3.11.4 fails on such a text; later
releases call it a syntax error. -/
def nullSourceMessage : String := AnnotationError.nullCharacter.message

/-- What became of a file. -/
inductive FileOutcome where
  /-- It was checked. -/
  | checked (diagnostics : List Diagnostic)
  /-- It could not be read or parsed. -/
  | skipped (reason : String)
  /-- The analysis failed. -/
  | failed (reason : String)
  deriving DecidableEq, Repr, Inhabited

/-- Check a source text. -/
def checkSource (characters : CharacterNames) (source : List Char) (file moduleName : String)
    (settings : Settings) : FileOutcome :=
  match readModule characters source with
  | .error .nullCharacter => .failed ("ValueError: " ++ nullSourceMessage)
  | .error (.malformed fault) => .skipped ("syntax error: line " ++ toString fault.line)
  | .ok m =>
    match Rule.checkModule m source file moduleName settings .standard with
    | .error e => .failed (e.kindName ++ ": " ++ e.message)
    | .ok diagnostics => .checked diagnostics

/-- Check a file, given what comes of reading it. -/
def checkRead (characters : CharacterNames) (read : FileRead) (file moduleName : String)
    (settings : Settings) : FileOutcome :=
  match read with
  | .error fault => .skipped ("unreadable: " ++ fault.message)
  | .ok content =>
    match Text.decode content with
    | .error fault => .skipped ("unreadable: " ++ fault.message)
    | .ok chars => checkSource characters (Text.unifyNewlines chars) file moduleName settings

/-- Add the outcome for a file to a report. -/
def addOutcome (r : Report) (file : String) : FileOutcome → Report
  | .checked ds => { r with diagnostics := r.diagnostics ++ ds }
  | .skipped reason => { r with skipped := r.skipped ++ [⟨file, reason⟩] }
  | .failed reason => { r with errors := r.errors ++ [⟨file, reason⟩] }

/-- Check a file of the tree and add it to a report. -/
def scanFile (characters : CharacterNames) (tree : Tree) (settings : Settings) (base : Path)
    (r : Report) (file : Path) : Report :=
  let name := (moduleOfPath file base).toOption.getD file.stem
  let read := (tree.read? file).getD (.ok [])
  addOutcome { r with filesScanned := r.filesScanned + 1 } file.text
    (checkRead characters read file.text name settings)

/-- Check all files under an absolute path. -/
def scanRoot (characters : CharacterNames) (tree : Tree) (settings : Settings) (r : Report)
    (root : Path) : Report :=
  let base := if tree.isFile root then root.parent else root
  (discover tree [root]).foldl (scanFile characters tree settings base) r

/-- Check all files under the given paths, which are taken from the directory `cwd`. -/
def scan (characters : CharacterNames) (tree : Tree) (cwd : Path) (paths : List Path)
    (settings : Settings) (createdAt : String) : Report :=
  let r := (paths.map (Path.resolve cwd)).foldl (scanRoot characters tree settings) { createdAt }
  { r with diagnostics := r.diagnostics.mergeSort Diagnostic.le }

end ContextLint
