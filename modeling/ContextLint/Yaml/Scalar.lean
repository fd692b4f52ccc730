import ContextLint.Yaml.Cursor

/-!
# Scalars of YAML texts

The three styles of scalar: block scalars, whose lines are kept or folded; quoted scalars; and plain
scalars. Inside the last two a line end counts as a space, and further ones are kept.
-/

namespace ContextLint.Yaml

open Cursor

/-- A scalar as it was read. -/
structure Scalar where
  text : List Char
  /-- No quotes or indicators mark it. -/
  plain : Bool
  /-- Positions at which an escape stands for half a character, with its code point. -/
  halves : List (Nat × Nat) := []
  deriving Inhabited

/-- What becomes of the line ends behind a block scalar. -/
inductive Chomping where
  /-- One is kept. -/
  | clip
  /-- None is kept. -/
  | strip
  /-- All are kept. -/
  | keep
  deriving DecidableEq, Repr, Inhabited

/-- A digit from one to nine. -/
def positiveDigit? (c : Option Char) : Option (Option Nat) :=
  match c with
  | some ch =>
    if ch = '0' then none
    else if '1' ≤ ch && ch ≤ '9' then some (some (ch.toNat - 48))
    else some none
  | none => some none

/-- Chomping that a sign stands for. -/
def chomping? (c : Option Char) : Option Chomping :=
  match c with
  | some '+' => some .keep
  | some '-' => some .strip
  | _ => none

/-- Read the indicators of a block scalar: chomping and indentation in either order. -/
def blockIndicators (c : Cursor) : Except Fault ((Chomping × Option Nat) × Cursor) :=
  match chomping? c.head with
  | some chomp =>
    let c := c.next
    match positiveDigit? c.head with
    | none => .error .malformed
    | some none => .ok ((chomp, none), c)
    | some n => .ok ((chomp, n), c.next)
  | none =>
    match positiveDigit? c.head with
    | none => .error .malformed
    | some none => .ok ((.clip, none), c)
    | some n =>
      let c := c.next
      match chomping? c.head with
      | some chomp => .ok ((chomp, n), c.next)
      | none => .ok ((.clip, n), c)

/-- Go past empty lines before a block scalar; the deepest indentation among them counts. -/
def blockIndentation (breaks : List Char) (deepest : Nat) :
    Nat → Cursor → (List Char × Nat) × Cursor
  | 0, c => ((breaks, deepest), c)
  | fuel + 1, c =>
    if c.isAt ' ' then
      let c := c.next
      blockIndentation breaks (max deepest c.column) fuel c
    else if c.isIn isBreak then
      let (b, c) := c.lineBreak
      blockIndentation (breaks ++ b) deepest fuel c
    else ((breaks, deepest), c)

/-- Go past spaces up to a column. -/
def skipIndent (indent : Nat) : Nat → Cursor → Cursor
  | 0, c => c
  | fuel + 1, c =>
    if c.column < indent && c.isAt ' ' then skipIndent indent fuel c.next else c

/-- Go past empty lines inside a block scalar and the indentation of the next. -/
def blockBreaks (indent : Nat) (breaks : List Char) : Nat → Cursor → List Char × Cursor
  | 0, c => (breaks, c)
  | fuel + 1, c =>
    let c := skipIndent indent indent c
    if c.isIn isBreak then
      let (b, c) := c.lineBreak
      blockBreaks indent (breaks ++ b) fuel c
    else (breaks, c)

/-- A blank inside a line. -/
def isSpaceOrTab (ch : Char) : Bool := ch = ' ' || ch = '\t'

/-- Lines of a block scalar: the text so far, the last line end, the empty lines behind it. -/
structure BlockLines where
  text : List Char
  /-- The end of the last line. -/
  lineEnd : List Char
  /-- Empty lines behind it. -/
  breaks : List Char
  deriving Inhabited

/-- Read the lines of a block scalar at an indentation. -/
def blockLines (folded : Bool) (indent : Nat) (s : BlockLines) : Nat → Cursor → BlockLines × Cursor
  | 0, c => (s, c)
  | fuel + 1, c =>
    if c.column = indent && !c.atEnd then
      let starts := !c.isIn isSpaceOrTab
      let (line, c) := c.takeWhile (!isBreak ·)
      let (lineEnd, c) := c.lineBreak
      let (breaks, c) := blockBreaks indent [] (c.rest.length + 1) c
      let text := s.text ++ s.breaks ++ line
      if c.column = indent && !c.atEnd then
        let joined :=
          if folded && lineEnd = ['\n'] && starts && !c.isIn isSpaceOrTab then
            if breaks.isEmpty then [' '] else []
          else lineEnd
        blockLines folded indent ⟨text ++ joined, lineEnd, breaks⟩ fuel c
      else (⟨text, lineEnd, breaks⟩, c)
    else (s, c)

/-- Read a block scalar whose indicator stands here, inside a collection of the given indentation.
-/
def blockScalar (folded : Bool) (outer : Int) (c : Cursor) : Except Fault (Scalar × Cursor) := do
  let ((chomp, increment), c) ← blockIndicators c.next
  if !c.endsOr 0 (fun ch => ch = ' ' || isBreak ch) then throw .malformed
  let c ← c.finishLine
  let least := (max (outer + 1) 1).toNat
  let fuel := c.rest.length + 1
  let ((breaks, indent), c) := match increment with
    | none =>
      let ((breaks, deepest), c) := blockIndentation [] 0 fuel c
      ((breaks, max least deepest), c)
    | some n =>
      let (breaks, c) := blockBreaks (least + n - 1) [] fuel c
      ((breaks, least + n - 1), c)
  let (s, c) := blockLines folded indent ⟨[], [], breaks⟩ fuel c
  let text := match chomp with
    | .strip => s.text
    | .clip => s.text ++ s.lineEnd
    | .keep => s.text ++ s.lineEnd ++ s.breaks
  return ({ text, plain := false }, c)

/-- What a single character behind a backslash stands for. -/
def escapes : List (Char × Nat) :=
  [('0', 0), ('a', 7), ('b', 8), ('t', 9), ('\t', 9), ('n', 10), ('v', 11), ('f', 12), ('r', 13),
   ('e', 27), (' ', 32), ('"', 34), ('\\', 92), ('/', 47), ('N', 0x85), ('_', 0xA0), ('L', 0x2028),
   ('P', 0x2029)]

/-- How many digits follow a letter behind a backslash. -/
def escapeWidths : List (Char × Nat) := [('x', 2), ('u', 4), ('U', 8)]

/-- Value of a hexadecimal digit. -/
def hexValue? (c : Char) : Option Nat :=
  if '0' ≤ c && c ≤ '9' then some (c.toNat - 48)
  else if 'a' ≤ c && c ≤ 'f' then some (c.toNat - 87)
  else if 'A' ≤ c && c ≤ 'F' then some (c.toNat - 55)
  else none

/-- A number as hexadecimal digits give it. -/
def hexNumber? (digits : List Char) : Option Nat :=
  digits.foldl (fun n c => do return (← n) * 16 + (← hexValue? c)) (some 0)

/-- Go past line ends inside a quoted scalar, up to the next text. -/
def quotedBreaks (breaks : List Char) : Nat → Cursor → Except Fault (List Char × Cursor)
  | 0, c => .ok (breaks, c)
  | fuel + 1, c =>
    if c.atSeparator then .error .malformed
    else
      let c := c.skipWhile isSpaceOrTab
      if c.isIn isBreak then
        let (b, c) := c.lineBreak
        quotedBreaks (breaks ++ b) fuel c
      else .ok (breaks, c)

/-- A line end and the empty lines behind it, as text: one line end alone counts as a space. -/
def foldBreaks (lineEnd breaks : List Char) : List Char :=
  if lineEnd ≠ ['\n'] then lineEnd ++ breaks else if breaks.isEmpty then [' '] else breaks

/-- Add the character of an escape with digits, or half a character. -/
def numberedEscape (s : Scalar) (n : Nat) : Except Fault Scalar :=
  if n.isValidChar then .ok { s with text := s.text ++ [Char.ofNat n] }
  else if n < 0x110000 then
    .ok { s with
      text := s.text ++ [Char.ofNat 0xFFFD], halves := s.halves ++ [(s.text.length, n)] }
  else if n < 0x80000000 then .error (.value .noValue "chr() arg not in range(0x110000)")
  else .error (.value .overflow "Python int too large to convert to C int")

/-- Read an escape behind its backslash. -/
def escape (s : Scalar) (c : Cursor) : Except Fault (Scalar × Cursor) :=
  match c.head with
  | none => .error .malformed
  | some ch =>
    match escapes.lookup ch with
    | some n => .ok ({ s with text := s.text ++ [Char.ofNat n] }, c.next)
    | none =>
      match escapeWidths.lookup ch with
      | some width =>
        let digits := c.next.rest.take width
        match hexNumber? digits with
        | some n =>
          if digits.length = width then do
            return (← numberedEscape s n, c.advance (width + 1))
          else .error .malformed
        | none => .error .malformed
      | none =>
        if isBreak ch then do
          let (breaks, c) ← quotedBreaks [] (c.rest.length + 1) c.lineBreak.2
          return ({ s with text := s.text ++ breaks }, c)
        else .error .malformed

/-- A character that ends a run of text inside quotes. -/
def endsRun (ch : Char) : Bool :=
  ch = '\'' || ch = '"' || ch = '\\' || isSpaceOrTab ch || isBreak ch

/-- Read a quoted scalar behind its opening quote. -/
def quotedRest (double : Bool) (s : Scalar) : Nat → Cursor → Except Fault (Scalar × Cursor)
  | 0, _ => .error .malformed
  | fuel + 1, c =>
    let (run, c) := c.takeWhile (!endsRun ·)
    let s := { s with text := s.text ++ run }
    match c.head with
    | none => .error .malformed
    | some ch =>
      if ch = '\'' && !double then
        if c.peek 1 = some '\'' then
          quotedRest double { s with text := s.text ++ [ch] } fuel (c.advance 2)
        else .ok (s, c.next)
      else if ch = '"' && double then .ok (s, c.next)
      else if ch = '\\' && double then do
        let (s, c) ← escape s c.next
        quotedRest double s fuel c
      else if isSpaceOrTab ch || isBreak ch then
        let (blanks, c) := c.takeWhile isSpaceOrTab
        if c.atEnd then .error .malformed
        else if c.isIn isBreak then do
          let (lineEnd, c) := c.lineBreak
          let (breaks, c) ← quotedBreaks [] (c.rest.length + 1) c
          quotedRest double { s with text := s.text ++ foldBreaks lineEnd breaks } fuel c
        else quotedRest double { s with text := s.text ++ blanks } fuel c
      else quotedRest double { s with text := s.text ++ [ch] } fuel c.next

/-- Read a quoted scalar whose opening quote stands here. -/
def quotedScalar (double : Bool) (c : Cursor) : Except Fault (Scalar × Cursor) :=
  quotedRest double { text := [], plain := false } (c.rest.length + 1) c.next

/-- A character that plain scalars inside brackets may not hold. -/
def isFlowMark (ch : Char) : Bool :=
  ch = ',' || ch = '[' || ch = ']' || ch = '{' || ch = '}'

/-- A plain scalar ends before this text. -/
def endsPlain (inFlow : Bool) : List Char → Bool
  | [] => true
  | ch :: rest =>
    isSpaceOrTab ch || isBreak ch || (inFlow && (isFlowMark ch || ch = '?')) ||
      (ch = ':' && match rest with
        | [] => true
        | next :: _ => isSpaceOrTab next || isBreak next || (inFlow && isFlowMark next))

/-- Length of the run of a plain scalar at the head of the text. -/
def plainRun (inFlow : Bool) : List Char → Nat
  | [] => 0
  | ch :: rest => if endsPlain inFlow (ch :: rest) then 0 else plainRun inFlow rest + 1

/-- Go past empty lines and indentation between lines of a plain scalar; nothing at a mark between
documents. -/
def plainBreaks (breaks : List Char) : Nat → Cursor → Option (List Char) × Cursor
  | 0, c => (some breaks, c)
  | fuel + 1, c =>
    if c.isAt ' ' then plainBreaks breaks fuel c.next
    else if c.isIn isBreak then
      let (b, c) := c.lineBreak
      if c.atSeparator then (none, c) else plainBreaks (breaks ++ b) fuel c
    else (some breaks, c)

/-- What stands between two runs of a plain scalar. -/
structure PlainGap where
  /-- The text that it counts as, if the scalar may go on. -/
  text : List Char
  /-- The gap holds a line end. -/
  newLine : Bool
  deriving Inhabited

/-- Go past the blanks behind a run of a plain scalar. -/
def plainGap (c : Cursor) : PlainGap × Cursor :=
  let (blanks, c) := c.takeWhile (· = ' ')
  if c.isIn isBreak then
    let (lineEnd, c) := c.lineBreak
    if c.atSeparator then (⟨[], true⟩, c)
    else
      match plainBreaks [] (c.rest.length + 1) c with
      | (some breaks, c) => (⟨foldBreaks lineEnd breaks, true⟩, c)
      | (none, c) => (⟨[], true⟩, c)
  else (⟨blanks, false⟩, c)

/-- Read a plain scalar from a run on; the last result says whether a line end was passed behind it.
-/
def plainRest (inFlow : Bool) (indent : Int) (done gap : List Char) (newLine : Bool) :
    Nat → Cursor → (List Char × Bool) × Cursor
  | 0, c => ((done, newLine), c)
  | fuel + 1, c =>
    let n := if c.isAt '#' then 0 else plainRun inFlow c.rest
    if n = 0 then ((done, newLine), c)
    else
      let done := done ++ gap ++ c.rest.take n
      let (g, c) := plainGap (c.advance n)
      if g.text.isEmpty || c.isAt '#' || (!inFlow && (c.column : Int) < indent) then
        ((done, g.newLine), c)
      else plainRest inFlow indent done g.text g.newLine fuel c

/-- Read a plain scalar inside a collection of the given indentation, and whether a line end was
passed behind it. -/
def plainScalar (inFlow : Bool) (outer : Int) (c : Cursor) : (Scalar × Bool) × Cursor :=
  let ((text, newLine), c) := plainRest inFlow (outer + 1) [] [] false (c.rest.length + 1) c
  (({ text, plain := true }, newLine), c)

end ContextLint.Yaml
