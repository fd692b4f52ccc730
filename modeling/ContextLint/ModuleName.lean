import ContextLint.Files.Path
import ContextLint.Text.Identifier

/-!
# Names of modules

A module is named after its file. By file name alone, a name that is no identifier stands for the
main module. By its path inside a directory, a module has the dotted name of the identifiers on the
way, where the file that stands for a package is left out.
-/

namespace ContextLint

open Files

/-- The part of a file name behind the last separator of either kind. -/
def lastSegment (filename : List Char) : List Char :=
  (filename.reverse.takeWhile fun c => c ≠ '/' && c ≠ '\\').reverse

/-- A text without the given ending, if it has it. -/
def dropEnding (ending text : List Char) : List Char :=
  if ending.isSuffixOf text then text.take (text.length - ending.length) else text

/-- The module of a file of the given name. -/
def moduleOfFile (filename : String) : String :=
  let stem := dropEnding ".py".toList (lastSegment filename.toList)
  if Text.isIdentifier stem then String.ofList stem else "__main__"

/-- The path has no file name to take a module's name from. -/
structure EmptyName where
  deriving DecidableEq, Repr, Inhabited

/-- The error as text. -/
def EmptyName.message (_ : EmptyName) : String := "PosixPath('.') has an empty name"

/-- Names of a path without the ending of the last. -/
def moduleParts (p : Path) : List String :=
  let parts := p.parts.dropLast ++ [p.stem]
  if parts.getLast? = some "__init__" then parts.dropLast else parts

/-- The module of a path inside a directory; only the file name counts if it lies elsewhere. -/
def moduleOfPath (p base : Path) : Except EmptyName String :=
  let rel := (p.relativeTo? base).getD (Path.ofString p.name)
  if rel.name.isEmpty then .error {}
  else
    let dotted := ".".intercalate ((moduleParts rel).filter fun n => Text.isIdentifier n.toList)
    .ok (if dotted.isEmpty then p.stem else dotted)

end ContextLint
