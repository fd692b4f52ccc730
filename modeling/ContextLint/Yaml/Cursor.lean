/-!
# Reading a YAML text

A cursor holds the rest of the text with the line and column where it starts. Lines end at a line
feed, a next-line character or one of the two Unicode separators; the text holds no carriage return.
-/

namespace ContextLint.Yaml

/-- The kinds of faults of a scalar. -/
inductive FaultKind where
  /-- It is no value of its type, or lies out of range. -/
  | noValue
  /-- It is none of the words of its type. -/
  | noWord
  /-- It does not have the form of its type. -/
  | noMatch
  /-- It is too large a number. -/
  | overflow
  deriving DecidableEq, Repr, Inhabited

/-- Name of the kind, as messages give it. -/
def FaultKind.name : FaultKind → String
  | noValue => "ValueError"
  | noWord => "KeyError"
  | noMatch => "AttributeError"
  | overflow => "OverflowError"

/-- Why a text yields no value. -/
inductive Fault where
  /-- The text is no YAML document of known types. -/
  | malformed
  /-- A scalar is no value of its type; the kind and the text of the error. -/
  | value (kind : FaultKind) (message : String)
  deriving DecidableEq, Repr, Inhabited

/-- A character that a text may hold. -/
def isPrintable (c : Char) : Bool :=
  let n := c.toNat
  n = 9 || n = 10 || n = 13 || (32 ≤ n && n ≤ 126) || n = 0x85 || (0xA0 ≤ n && n ≤ 0xD7FF) ||
    (0xE000 ≤ n && n ≤ 0xFFFD) || 0x10000 ≤ n

/-- A character that ends a line. -/
def isBreak (c : Char) : Bool :=
  c = '\n' || c.toNat = 0x85 || c.toNat = 0x2028 || c.toNat = 0x2029

/-- The byte order mark. -/
def isMark (c : Char) : Bool := c.toNat = 0xFEFF

/-- A place in a text. -/
structure Cursor where
  /-- The text from here on. -/
  rest : List Char
  /-- How many characters stand in front. -/
  index : Nat := 0
  /-- The line, counted from zero. -/
  line : Nat := 0
  /-- The column, counted from zero. -/
  column : Nat := 0
  deriving Inhabited

namespace Cursor

/-- The character some places ahead. -/
def peek (c : Cursor) (n : Nat) : Option Char := c.rest[n]?

/-- The next character. -/
def head (c : Cursor) : Option Char := c.rest.head?

/-- Go past one character. -/
def next (c : Cursor) : Cursor :=
  match c.rest with
  | [] => c
  | ch :: rest =>
    if isBreak ch then { rest, index := c.index + 1, line := c.line + 1, column := 0 }
    else
      { rest, index := c.index + 1, line := c.line,
        column := if isMark ch then c.column else c.column + 1 }

/-- Go past some characters. -/
def advance (c : Cursor) : Nat → Cursor
  | 0 => c
  | n + 1 => advance c.next n

/-- Take the characters of a class. -/
def takeWhile (c : Cursor) (p : Char → Bool) : List Char × Cursor :=
  let taken := c.rest.takeWhile p
  (taken, c.advance taken.length)

/-- Go past the characters of a class. -/
def skipWhile (c : Cursor) (p : Char → Bool) : Cursor := (c.takeWhile p).2

/-- The text ends here. -/
def atEnd (c : Cursor) : Bool := c.rest.isEmpty

/-- Some places ahead the text ends or has a character of a class. -/
def endsOr (c : Cursor) (n : Nat) (p : Char → Bool) : Bool :=
  match c.peek n with
  | none => true
  | some ch => p ch

/-- Some places ahead the line or the text ends. -/
def lineEndsAt (c : Cursor) (n : Nat) : Bool := c.endsOr n isBreak

/-- Some places ahead stands a blank or an end. -/
def blankAt (c : Cursor) (n : Nat) : Bool :=
  c.endsOr n fun ch => ch = ' ' || ch = '\t' || isBreak ch

/-- The next character is this one. -/
def isAt (c : Cursor) (ch : Char) : Bool := c.head = some ch

/-- The next character is of this class. -/
def isIn (c : Cursor) (p : Char → Bool) : Bool :=
  match c.head with
  | none => false
  | some ch => p ch

/-- Go past a line end; it counts as a line feed unless it is a Unicode separator. -/
def lineBreak (c : Cursor) : List Char × Cursor :=
  match c.head with
  | none => ([], c)
  | some ch =>
    if ch = '\n' || ch.toNat = 0x85 then (['\n'], c.next)
    else if isBreak ch then ([ch], c.next)
    else ([], c)

/-- Three of the given characters and a blank stand here. -/
def isSeparator (c : Cursor) (ch : Char) : Bool :=
  [ch, ch, ch].isPrefixOf c.rest && c.blankAt 3

/-- A mark between documents stands here. -/
def atSeparator (c : Cursor) : Bool := c.isSeparator '-' || c.isSeparator '.'

/-- Go past blanks and a comment, which must reach the end of the line, and past that end. -/
def finishLine (c : Cursor) : Except Fault Cursor :=
  let c := c.skipWhile (· = ' ')
  let c := if c.isAt '#' then c.skipWhile (!isBreak ·) else c
  if c.lineEndsAt 0 then .ok c.lineBreak.2 else .error .malformed

end Cursor

end ContextLint.Yaml
