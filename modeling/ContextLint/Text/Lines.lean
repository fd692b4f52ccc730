import ContextLint.Text.Blank

/-!
# Line boundaries

Two rules divide a text into lines. Source text ends a line at a line feed, a carriage return or the
two together, and `unifyNewlines` brings these to the line feed alone. Display text also ends a line
at the other vertical controls and the two Unicode separators; `splitLines` follows that rule and
drops the line ends, and an `excerpt` shows one of its lines.
-/

namespace ContextLint.Text

/-- Unify the newlines of the remaining text behind `done`, which is in reverse. -/
def unifyNewlinesOnto (done : List Char) : List Char → List Char
  | [] => done.reverse
  | '\r' :: '\n' :: rest => unifyNewlinesOnto ('\n' :: done) rest
  | '\r' :: rest => unifyNewlinesOnto ('\n' :: done) rest
  | c :: rest => unifyNewlinesOnto (c :: done) rest

/-- Replace each carriage return, alone or before a line feed, by one line feed. -/
def unifyNewlines (cs : List Char) : List Char := unifyNewlinesOnto [] cs

/-- A character that ends a line of display text. -/
def isLineBreak (c : Char) : Bool :=
  let n := c.toNat
  (10 ≤ n && n ≤ 13) || (28 ≤ n && n ≤ 30) || n == 0x85 || n == 0x2028 || n == 0x2029

/-- Lines of the remaining text behind the lines `done`, given the characters of the current line;
both are in reverse. -/
def splitLinesOnto (done : List (List Char)) (current : List Char) : List Char → List (List Char)
  | [] => (if current.isEmpty then done else current.reverse :: done).reverse
  | '\r' :: '\n' :: rest => splitLinesOnto (current.reverse :: done) [] rest
  | c :: rest =>
    if isLineBreak c then splitLinesOnto (current.reverse :: done) [] rest
    else splitLinesOnto done (c :: current) rest

/-- The lines of a display text without their ends; a final line end opens no further line. -/
def splitLines (cs : List Char) : List (List Char) := splitLinesOnto [] [] cs

/-- Lines of the remaining text, each with its line feed, behind the lines `done`; these and the
characters of the current line are in reverse. -/
def feedLinesOnto (done : List (List Char)) (current : List Char) : List Char → List (List Char)
  | [] => (if current.isEmpty then done else current.reverse :: done).reverse
  | c :: rest =>
    if c = '\n' then feedLinesOnto (('\n' :: current).reverse :: done) [] rest
    else feedLinesOnto done (c :: current) rest

/-- The lines of a text divided at line feeds only, each keeping its line feed. -/
def feedLines (cs : List Char) : List (List Char) := feedLinesOnto [] [] cs

/-- The line of the given number, counted from one, trimmed and cut. A negative limit counts from
the end of the line. -/
def excerpt (lines : Array (List Char)) (line limit : Int) : String :=
  if 0 < line then
    match lines[line.toNat - 1]? with
    | some cs =>
      let cs := trim cs
      String.ofList (cs.take (if 0 ≤ limit then limit.toNat else cs.length - (-limit).toNat))
    | none => ""
  else ""

end ContextLint.Text
