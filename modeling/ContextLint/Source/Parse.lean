import ContextLint.Source.Diagnosis
import ContextLint.Source.Number
import ContextLint.Text.Lines

/-!
# From source text to tree

A module or a single expression is read from text. A text that is no module has a line to blame.
-/

namespace ContextLint.Source

/-- A text that is no valid source; `line` is the line to blame. -/
structure SyntaxFault where
  /-- Line of the fault, counted from one. -/
  line : Nat
  deriving DecidableEq, Repr, Inhabited

/-- Enough nesting for every text of the given length: each level reads a character, and at most
four rules share a level. -/
def nestingBound (length : Nat) : Nat := 4 * length + 16

/-- End the last line of a text. -/
def endLastLine (text : List Char) : List Char :=
  if text.getLast? = some '\n' then text else text ++ ['\n']

/-- Parse a module and number its expressions. -/
def parseModule (characters : CharacterNames) (text : List Char) : Except SyntaxFault Module :=
  let text := endLastLine (Text.unifyNewlines text)
  let rules := Grammar.rules characters (nestingBound text.length)
  let lexed := Lexed.ofText text
  match (Grammar.file rules).run lexed with
  | some body => .ok (Module.number ⟨body, characters⟩)
  | none => .error ⟨Diagnosis.faultLine rules lexed⟩

/-- Parse a text that is one expression; its nodes have no numbers of their own. -/
def parseExpression? (characters : CharacterNames) (text : List Char) : Option Expr :=
  let text := Text.unifyNewlines text
  (Grammar.lone (Grammar.rules characters (nestingBound text.length))).run (Lexed.ofText text)

/-- Why a text cannot be read as a module. -/
inductive SourceFault where
  | nullCharacter
  | malformed (fault : SyntaxFault)
  deriving DecidableEq, Repr, Inhabited

/-- Read a module from a text, in which no null character may stand. -/
def readModule (characters : CharacterNames) (text : List Char) : Except SourceFault Module :=
  if text.contains '\x00' then .error .nullCharacter
  else (parseModule characters text).mapError .malformed

end ContextLint.Source
