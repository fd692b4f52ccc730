import ContextLint.Comment.Directive
import ContextLint.Text.Lines

/-!
# Comments of a source text

The comments of a source text are found line by line, with lines ended by a line feed only. String
literals hide hash signs; a literal in triple quotes, or in single quotes with a backslash at the
end of the line, goes on in the next line. A quote that is not closed in its line is passed over.
The search ends where the text ends inside a literal or bracket, and at a line that is indented less
than the one before but like none around it; comments found up to there are kept.
-/

namespace ContextLint

/-- A comment and the number of its line. -/
structure Comment where
  /-- The line, counted from one. -/
  line : Nat
  /-- The text from the hash sign to the end of the line. -/
  text : List Char
  deriving DecidableEq, Repr, Inhabited

namespace Comment

/-- The quotes that close a string literal. -/
structure Closing where
  /-- The quotation mark. -/
  quote : Char
  /-- Three marks close the literal, not one. -/
  triple : Bool
  deriving DecidableEq, Repr, Inhabited

/-- The closing quotes stand at the head of the text. -/
def Closing.isAtHead (k : Closing) (cs : List Char) : Bool :=
  if k.triple then [k.quote, k.quote, k.quote].isPrefixOf cs else [k.quote].isPrefixOf cs

/-- Number of closing marks. -/
def Closing.width (k : Closing) : Nat := if k.triple then 3 else 1

/-- How many characters the rest of a literal takes, its closing quotes included, if it is closed in
this line. A backslash takes the next character along, but no line feed. -/
def closedAfter (k : Closing) (taken : Nat) : List Char → Option Nat
  | [] => none
  | '\\' :: [] => none
  | '\\' :: c :: rest => if c = '\n' then none else closedAfter k (taken + 2) rest
  | c :: rest =>
    if k.isAtHead (c :: rest) then some (taken + k.width) else closedAfter k (taken + 1) rest

/-- The text starts with a line end. -/
def startsWithNewline : List Char → Bool
  | '\n' :: _ => true
  | '\r' :: '\n' :: _ => true
  | _ => false

/-- The literal in single quotes reaches a backslash at the end of its line. -/
def runsOn (quote : Char) : List Char → Bool
  | [] => false
  | '\\' :: [] => false
  | '\\' :: c :: rest => startsWithNewline (c :: rest) || runsOn quote rest
  | c :: rest => if c = quote || c = '\n' then false else runsOn quote rest

/-- The line ends in a backslash and a line end. -/
def endsInBackslash (line : List Char) : Bool :=
  match line.reverse with
  | '\n' :: '\\' :: _ => true
  | '\n' :: '\r' :: '\\' :: _ => true
  | _ => false

/-- State between two lines. -/
structure Reader where
  /-- Depth of open brackets; closing ones in excess count below zero. -/
  depth : Int := 0
  /-- A backslash joins the next line to the last. -/
  joined : Bool := false
  /-- The literal that goes on in the next line. -/
  literal : Option Closing := none
  /-- Such a literal ends without a backslash at the end of each line. This stays from one literal
  to the next until one is closed. -/
  fragile : Bool := false
  /-- Indentations around the line, the innermost first. -/
  indents : List Nat := [0]
  deriving Inhabited

/-- Comments found, the last first, and the state behind them. -/
structure Found where
  /-- The state. -/
  reader : Reader
  comments : List Comment
  deriving Inhabited

/-- Read the rest of a line behind its first `skip` characters. -/
def readRest (number : Nat) (found : Found) : Nat → List Char → Found
  | _, [] => found
  | skip + 1, _ :: rest => readRest number found skip rest
  | 0, c :: rest =>
    let reader := found.reader
    if c = '#' then
      let text := (c :: rest).takeWhile fun c => c ≠ '\r' && c ≠ '\n'
      readRest number { found with comments := ⟨number, text⟩ :: found.comments }
        (text.length - 1) rest
    else if c = '\\' && startsWithNewline rest then
      { found with reader := { reader with joined := true } }
    else if c = '\'' || c = '"' then
      let triple := [c, c].isPrefixOf rest
      let closing : Closing := ⟨c, triple⟩
      match closedAfter closing 0 (if triple then rest.drop 2 else rest.takeWhile (· ≠ '\n')) with
      | some n => readRest number found (if triple then n + 2 else n) rest
      | none =>
        if triple then { found with reader := { reader with literal := some closing } }
        else if runsOn c rest then
          { found with reader := { reader with literal := some closing, fragile := true } }
        else readRest number found 0 rest
    else
      let change : Int :=
        if c = '(' || c = '[' || c = '{' then 1
        else if c = ')' || c = ']' || c = '}' then -1
        else 0
      readRest number { found with reader := { reader with depth := reader.depth + change } } 0 rest

/-- Column and rest behind the indentation; a tab goes to the next multiple of eight and a form feed
back to the start. -/
def indentation (column : Nat) : List Char → Nat × List Char
  | ' ' :: rest => indentation (column + 1) rest
  | '\t' :: rest => indentation ((column / 8 + 1) * 8) rest
  | '\x0c' :: rest => indentation 0 rest
  | cs => (column, cs)

/-- The indentations around a line that starts at a column; nothing if it fits none. -/
def reindent (column : Nat) (indents : List Nat) : Option (List Nat) :=
  match indents with
  | [] => some [column]
  | top :: _ =>
    if top < column then some (column :: indents)
    else if indents.contains column then some (indents.dropWhile (column < ·))
    else none

/-- Read the first line of a statement; nothing if the search ends here. -/
def readFresh (number : Nat) (found : Found) (line : List Char) : Option Found :=
  match indentation 0 line with
  | (_, []) => none
  | (column, c :: rest) =>
    if c = '#' then
      let text := ((c :: rest).reverse.dropWhile fun c => c = '\r' || c = '\n').reverse
      some { found with comments := ⟨number, text⟩ :: found.comments }
    else if c = '\r' || c = '\n' then some found
    else
      (reindent column found.reader.indents).map fun indents =>
        readRest number { found with reader := { found.reader with indents } } 0 (c :: rest)

/-- Read a line inside a literal. -/
def readLiteral (number : Nat) (found : Found) (closing : Closing) (line : List Char) : Found :=
  match closedAfter closing 0 line with
  | some n =>
    readRest number
      { found with reader := { found.reader with literal := none, fragile := false } } n line
  | none =>
    if found.reader.fragile && !endsInBackslash line then
      { found with reader := { found.reader with literal := none } }
    else found

/-- Read a line; nothing if the search ends here. -/
def readLine (number : Nat) (found : Found) (line : List Char) : Option Found :=
  match found.reader.literal with
  | some closing => some (readLiteral number found closing line)
  | none =>
    if found.reader.depth = 0 && !found.reader.joined then readFresh number found line
    else some (readRest number { found with reader := { found.reader with joined := false } } 0 line)

/-- Read lines, the first of which has the given number. -/
def readLines (number : Nat) (found : Found) : List (List Char) → List Comment
  | [] => found.comments
  | line :: rest =>
    match readLine number found line with
    | some found => readLines (number + 1) found rest
    | none => found.comments

/-- The comments of a source text in order. -/
def ofSource (source : List Char) : List Comment :=
  (readLines 1 ⟨{}, []⟩ (Text.feedLines source)).reverse

/-- The comments on a line. -/
def onLine (comments : List Comment) (line : Int) : List (List Char) :=
  (comments.filter fun c => (c.line : Int) = line).map Comment.text

/-- A directive on one of the lines names the rule. -/
def suppressedOn (comments : List Comment) (keyword rule : List Char) (lines : List Int) : Bool :=
  lines.any fun line => (onLine comments line).any (suppresses keyword rule)

end Comment

end ContextLint
