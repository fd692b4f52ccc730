import ContextLint.Text.Utf8
import ContextLint.Yaml.Token

/-!
# From YAML text to tokens

The scanner follows indentation and brackets. Whether a token is a key shows only at the colon
behind it, so the places of possible keys are remembered, one for each depth of brackets, and the
marks for a key and its mapping are put in at the colon. A key must fit on one line and in 1024
characters.
-/

namespace ContextLint.Yaml

open Cursor

/-- A token that may turn out to be a key. -/
structure PossibleKey where
  /-- Depth of brackets. -/
  depth : Nat
  /-- Position among the tokens. -/
  position : Nat
  /-- It must be a key. -/
  required : Bool
  /-- Where it stands in the text. -/
  index : Nat
  line : Nat
  column : Nat
  deriving Inhabited

/-- State of the scanner. -/
structure Scanner where
  /-- The place in the text. -/
  cursor : Cursor
  tokens : Array Token := #[]
  /-- Indentation of the innermost collection. -/
  indent : Int := -1
  /-- Indentations around it. -/
  outer : List Int := []
  /-- Depth of brackets. -/
  depth : Nat := 0
  /-- A key may start here. -/
  keyAllowed : Bool := true
  /-- Tokens that may turn out to be keys. -/
  keys : List PossibleKey := []
  deriving Inhabited

namespace Scanner

/-- Add a token. -/
def push (s : Scanner) (t : Token) : Scanner := { s with tokens := s.tokens.push t }

/-- Add a token and go past its characters. -/
def pushOver (s : Scanner) (t : Token) (width : Nat) : Scanner :=
  { s.push t with cursor := s.cursor.advance width }

/-- Put a token in at a position. -/
def insertAt (s : Scanner) (position : Nat) (t : Token) : Scanner :=
  { s with tokens := (s.tokens.toList.take position ++ t :: s.tokens.toList.drop position).toArray }

/-- Allow or forbid a key here. -/
def allowKey (s : Scanner) (b : Bool) : Scanner := { s with keyAllowed := b }

/-- The possible key can no longer be one. -/
def isStale (s : Scanner) (k : PossibleKey) : Bool :=
  k.line ≠ s.cursor.line || 1024 < s.cursor.index - k.index

/-- Drop possible keys that can no longer be keys; none of them may be required. -/
def dropStale (s : Scanner) : Except Fault Scanner :=
  if s.keys.any fun k => s.isStale k && k.required then .error .malformed
  else .ok { s with keys := s.keys.filter fun k => !s.isStale k }

/-- Drop the possible key at this depth of brackets, which must not be required. -/
def dropKey (s : Scanner) : Except Fault Scanner :=
  if s.keys.any fun k => k.depth = s.depth && k.required then .error .malformed
  else .ok { s with keys := s.keys.filter (·.depth ≠ s.depth) }

/-- Remember that the next token may be a key. -/
def saveKey (s : Scanner) : Except Fault Scanner :=
  if s.keyAllowed then do
    let s ← s.dropKey
    let c := s.cursor
    return { s with
      keys := ⟨s.depth, s.tokens.size, s.depth = 0 && s.indent = c.column, c.index, c.line,
        c.column⟩ :: s.keys }
  else return s

/-- End the collections indented more than a column. -/
def unwind (s : Scanner) (column : Int) : Scanner :=
  if s.depth = 0 then go s.outer.length s else s
where
  /-- End at most a number of collections. -/
  go : Nat → Scanner → Scanner
    | 0, s => s
    | n + 1, s =>
      if column < s.indent then
        go n { s.push .blockEnd with indent := s.outer.headD (-1), outer := s.outer.tail }
      else s

/-- Start a collection at a column if it is indented more than those around it. -/
def startAt (s : Scanner) (column : Nat) : Option Scanner :=
  if s.indent < column then some { s with outer := s.indent :: s.outer, indent := column } else none

/-- Start a collection at this column, with a token. -/
def startHere (s : Scanner) (t : Token) : Scanner :=
  match s.startAt s.cursor.column with
  | some s => s.push t
  | none => s

/-- Outside brackets, a new entry or key must be allowed; it may start a collection. -/
def startBlock (s : Scanner) (t : Token) : Except Fault Scanner :=
  if s.depth = 0 then if s.keyAllowed then .ok (s.startHere t) else .error .malformed
  else .ok s

/-- Go past blanks, comments and line ends; outside brackets a key may start on a new line. -/
def skipBlank : Nat → Scanner → Scanner
  | 0, s => s
  | fuel + 1, s =>
    let c := s.cursor.skipWhile (· = ' ')
    let c := if c.isAt '#' then c.skipWhile (!isBreak ·) else c
    if c.isIn isBreak then
      skipBlank fuel
        { s with cursor := c.lineBreak.2, keyAllowed := s.keyAllowed || s.depth = 0 }
    else { s with cursor := c }

/-- Leave all collections and forget the possible key. -/
def closeAll (s : Scanner) : Except Fault Scanner := do
  return (← (s.unwind (-1)).dropKey).allowKey false

/-- Characters of escaped bytes in tags. -/
def decodeBytes (bytes : List UInt8) : Option (List Char) := (Text.decode bytes).toOption

/-- An opening bracket or brace. -/
def openFlow (s : Scanner) (t : Token) : Except Fault Scanner := do
  let s ← s.saveKey
  return { s.pushOver t 1 with depth := s.depth + 1, keyAllowed := true }

/-- A closing bracket or brace. -/
def closeFlow (s : Scanner) (t : Token) : Except Fault Scanner := do
  let s ← s.dropKey
  return { s.pushOver t 1 with depth := s.depth - 1, keyAllowed := false }

/-- A colon before a value. -/
def value (s : Scanner) : Except Fault Scanner :=
  match s.keys.find? (·.depth = s.depth) with
  | some k =>
    let s := { s with keys := s.keys.filter (·.depth ≠ s.depth) }
    let s := s.insertAt k.position .key
    let s :=
      if s.depth = 0 then
        match s.startAt k.column with
        | some s => s.insertAt k.position .blockMappingStart
        | none => s
      else s
    .ok ((s.allowKey false).pushOver .value 1)
  | none => do
    let s ← s.startBlock .blockMappingStart
    let s ← (s.allowKey (s.depth = 0)).dropKey
    return s.pushOver .value 1

/-- Add a token that was read with its cursor. -/
def take (s : Scanner) (r : Token × Cursor) : Scanner := { s.push r.1 with cursor := r.2 }

/-- Add a token that may be a key and behind which none may start. -/
def takeKey (s : Scanner) (read : Cursor → Except Fault (Token × Cursor)) :
    Except Fault Scanner := do
  let s := (← s.saveKey).allowKey false
  return s.take (← read s.cursor)

/-- Read an anchor or alias. -/
def named (make : String → Token) (c : Cursor) : Except Fault (Token × Cursor) := do
  let (name, c) ← anchorName c.next
  return (make name, c)

/-- Read a block scalar. -/
def block (s : Scanner) (folded : Bool) : Except Fault Scanner := do
  let s ← (s.allowKey true).dropKey
  let (scalar, c) ← blockScalar folded s.indent s.cursor
  return s.take (.scalar scalar, c)

/-- Read a quoted scalar. -/
def quoted (double : Bool) (c : Cursor) : Except Fault (Token × Cursor) := do
  let (scalar, c) ← quotedScalar double c
  return (.scalar scalar, c)

/-- Read a plain scalar; a key may start behind it on a new line. -/
def plain (s : Scanner) : Except Fault Scanner := do
  let s ← s.saveKey
  let ((scalar, newLine), c) := plainScalar (s.depth ≠ 0) s.indent s.cursor
  return (s.take (.scalar scalar, c)).allowKey newLine

/-- Characters that no plain scalar starts with. -/
def isIndicator (ch : Char) : Bool :=
  "-?:,[]\x7b\x7d#&*!|>'\"%@`".toList.contains ch

/-- A plain scalar starts here. -/
def startsPlain (s : Scanner) (ch : Char) : Bool :=
  let c := s.cursor
  !(isIndicator ch || isSpaceOrTab ch || isBreak ch) ||
    (!c.blankAt 1 && (ch = '-' || (s.depth = 0 && (ch = '?' || ch = ':'))))

/-- Read the next token, which starts with the given character. -/
def token (s : Scanner) (ch : Char) : Except Fault Scanner :=
  let c := s.cursor
  if ch = '%' && c.column = 0 then do
    let s ← s.closeAll
    return s.take (← directiveToken decodeBytes c)
  else if c.column = 0 && c.isSeparator '-' then do
    return (← s.closeAll).pushOver .documentStart 3
  else if c.column = 0 && c.isSeparator '.' then do
    return (← s.closeAll).pushOver .documentEnd 3
  else if ch = '[' then s.openFlow .flowSequenceStart
  else if ch = '{' then s.openFlow .flowMappingStart
  else if ch = ']' then s.closeFlow .flowSequenceEnd
  else if ch = '}' then s.closeFlow .flowMappingEnd
  else if ch = ',' then do return (← (s.allowKey true).dropKey).pushOver .flowEntry 1
  else if ch = '-' && c.blankAt 1 then do
    let s ← s.startBlock .blockSequenceStart
    return (← (s.allowKey true).dropKey).pushOver .blockEntry 1
  else if ch = '?' && (s.depth ≠ 0 || c.blankAt 1) then do
    let s ← s.startBlock .blockMappingStart
    return (← (s.allowKey (s.depth = 0)).dropKey).pushOver .key 1
  else if ch = ':' && (s.depth ≠ 0 || c.blankAt 1) then s.value
  else if ch = '*' then s.takeKey (named .alias)
  else if ch = '&' then s.takeKey (named .anchor)
  else if ch = '!' then s.takeKey (tagToken decodeBytes)
  else if ch = '|' && s.depth = 0 then s.block false
  else if ch = '>' && s.depth = 0 then s.block true
  else if ch = '\'' then s.takeKey (quoted false)
  else if ch = '"' then s.takeKey (quoted true)
  else if s.startsPlain ch then s.plain
  else .error .malformed

/-- Read tokens up to the end of the text. -/
def run : Nat → Scanner → Except Fault (List Token)
  | 0, _ => .error .malformed
  | fuel + 1, s => do
    let s ← (skipBlank (s.cursor.rest.length + 1) s).dropStale
    let s := s.unwind s.cursor.column
    match s.cursor.head with
    | none => return ((← s.closeAll).push .streamEnd).tokens.toList
    | some ch => run fuel (← s.token ch)

end Scanner

/-- The tokens of a text. A byte order mark in front is passed over. -/
def tokens (text : List Char) : Except Fault (List Token) :=
  if text.all isPrintable then
    let c : Cursor := { rest := text }
    let c := if c.isIn isMark then c.next else c
    Scanner.run (text.length + 1) { cursor := c }
  else .error .malformed

end ContextLint.Yaml
