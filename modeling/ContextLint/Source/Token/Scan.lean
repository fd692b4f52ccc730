import ContextLint.Source.Token
import ContextLint.Source.Token.Number
import ContextLint.Text.Identifier

/-!
# From text to tokens

The text is read once from left to right. At the start of each logical line the indentation is
measured twice, with tab stops every eight columns and with tabs as one column, and both measures
must agree on every change of level. Inside brackets line ends and indentation mean nothing. A scan
stops at the first lexical fault.

A text may be a fragment of a longer one; its first line is then shifted to the fragment's column. A
token from that line to a later one keeps the unshifted column.
-/

namespace ContextLint.Source

/-- Deepest nesting of brackets. -/
def maxBrackets : Nat := 200

/-- Deepest nesting of indented blocks, counting the outermost level. -/
def maxIndents : Nat := 100

namespace Scan

/-- A place in the text: line and unshifted byte column. -/
structure Point where
  /-- Line, counted from the text's first line. -/
  line : Nat
  /-- Byte column. -/
  col : Nat
  deriving DecidableEq, Repr, Inhabited

/-- The place behind one more character. -/
def Point.after (p : Point) (c : Char) : Point :=
  if c = '\n' then ⟨p.line + 1, 0⟩ else ⟨p.line, p.col + c.utf8Size⟩

/-- The place behind some characters. -/
def Point.advance (p : Point) (cs : List Char) : Point := cs.foldl Point.after p

/-- What the scanner carries along. -/
structure State where
  /-- Text not yet read. -/
  rest : List Char
  /-- Place of that text. -/
  point : Point
  /-- Open indentation levels, innermost first, in both measures. -/
  indents : List (Nat × Nat)
  /-- Open brackets with their lines, innermost first. -/
  brackets : List (Char × Nat)
  tokens : Array Token
  /-- Line whose columns are shifted. -/
  firstLine : Nat
  /-- The shift of that line. -/
  shift : Nat
  deriving Inhabited

/-- Line of the innermost open bracket. -/
def State.openLine (s : State) : Option Nat := s.brackets.head?.map Prod.snd

/-- Stop with a fault on the given line. -/
def State.stop (s : State) (line : Nat) (loud : Bool) : Lexed :=
  ⟨s.tokens, some ⟨line, loud, s.openLine⟩⟩

/-- The line last entered: behind a final line end it is the line that this ended. -/
def State.lastLine (s : State) : Nat :=
  if s.rest.isEmpty && s.point.col == 0 && s.firstLine < s.point.line then s.point.line - 1
  else s.point.line

/-- Append a token that covers `text` and ends at `finish`. -/
def State.push (s : State) (kind : TokenKind) (text : List Char) (finish : Point)
    (rest : List Char) : State :=
  let shift := if finish.line == s.firstLine then s.shift else 0
  let span : Span := ⟨s.point.line, s.point.col + shift, finish.line, finish.col + shift⟩
  { s with tokens := s.tokens.push ⟨kind, String.ofList text, span⟩, point := finish, rest := rest }

/-- Append a layout token at the current place. -/
def State.pushLayout (s : State) (kind : TokenKind) : State :=
  let line := s.lastLine
  { s with tokens := s.tokens.push ⟨kind, "", ⟨line, s.point.col, line, s.point.col⟩⟩ }

/-- The margin of a line: its width in both measures and where it ends. -/
structure Margin where
  /-- Width with tab stops every eight columns. -/
  width : Nat
  /-- Width with tabs as one column. -/
  narrow : Nat
  /-- Width before the first line continuation inside the margin. -/
  continued : Nat
  /-- Place behind the margin. -/
  point : Point

/-- Measure blanks before a line's first token; a continuation must join a further line. -/
def margin (m : Margin) : List Char → Except Point (Margin × List Char)
  | ' ' :: rest =>
    margin { m with width := m.width + 1, narrow := m.narrow + 1, point := m.point.after ' ' } rest
  | '\t' :: rest =>
    margin { m with width := (m.width / 8 + 1) * 8, narrow := m.narrow + 1,
                    point := m.point.after '\t' } rest
  | '\x0c' :: rest =>
    margin { m with width := 0, narrow := 0, point := m.point.after '\x0c' } rest
  | '\\' :: '\n' :: rest =>
    if rest.isEmpty then .error m.point
    else margin { m with continued := if m.continued = 0 then m.width else m.continued,
                         point := ⟨m.point.line + 1, 0⟩ } rest
  | '\\' :: _ => .error m.point
  | rest => .ok (m, rest)

/-- Close the levels that are wider than `width` and count them; the outermost one stays. -/
def dedent (width : Nat) : List (Nat × Nat) → List (Nat × Nat) × Nat
  | (w, n) :: outer =>
    if outer.isEmpty || w ≤ width then ((w, n) :: outer, 0)
    else
      let (indents, closed) := dedent width outer
      (indents, closed + 1)
  | [] => ([], 0)

/-- Append several layout tokens at the current place. -/
def State.pushLayouts (s : State) (kind : TokenKind) : Nat → State
  | 0 => s
  | n + 1 => (s.pushLayout kind).pushLayouts kind n

/-- Compare a margin with the open levels and emit the change. -/
def indentTo (width narrow : Nat) (s : State) : Except Lexed State :=
  match s.indents with
  | [] => .ok s
  | (w, n) :: outer =>
    if width = w then
      if narrow = n then .ok s else .error (s.stop s.lastLine false)
    else if w < width then
      if maxIndents ≤ outer.length + 1 then .error (s.stop s.lastLine false)
      else if narrow ≤ n then .error (s.stop s.lastLine false)
      else .ok ({ s with indents := (width, narrow) :: s.indents }.pushLayout .indent)
    else
      let (indents, closed) := dedent width s.indents
      if indents.head? = some (width, narrow) then
        .ok ({ s with indents := indents }.pushLayouts .dedent closed)
      else .error (s.stop s.lastLine false)

/-- The characters of a string literal from behind its opening quotes to its closing quotes, which
are a run of `size` quotes; `run` of them have just been read. -/
def stringBody (quote : Char) (size run : Nat) (acc : List Char) :
    List Char → Option (List Char × List Char)
  | [] => none
  | ['\\'] => none
  | '\\' :: c :: rest => stringBody quote size 0 (c :: '\\' :: acc) rest
  | c :: rest =>
    if c = quote then
      if run + 1 = size then some (c :: acc, rest)
      else stringBody quote size (run + 1) (c :: acc) rest
    else if c = '\n' && size == 1 then none
    else stringBody quote size 0 (c :: acc) rest

/-- The string literal that opens with the given quote, behind `acc` in reverse. -/
def stringLiteral (acc : List Char) (quote : Char) (rest : List Char) :
    Option (List Char × List Char) :=
  match rest with
  | a :: b :: more =>
    if a = quote && b = quote then stringBody quote 3 0 (b :: a :: quote :: acc) more
    else if a = quote then some (a :: quote :: acc, b :: more)
    else stringBody quote 1 0 (quote :: acc) rest
  | [a] => if a = quote then some (a :: quote :: acc, []) else none
  | [] => none

/-- A quotation mark. -/
def isQuote (c : Char) : Bool := c == '\'' || c == '"'

/-- A letter combination that may stand before a quotation mark. -/
def isStringPrefix (cs : List Char) : Bool :=
  [['b'], ['r'], ['u'], ['f'], ['b', 'r'], ['r', 'b'], ['f', 'r'], ['r', 'f']].contains
    (cs.map Char.toLower)

/-- Split off the letters before a quotation mark, when the text starts a string literal. -/
def stringStart : List Char → Option (List Char × Char × List Char)
  | a :: rest =>
    if isQuote a then some ([], a, rest)
    else match rest with
      | b :: rest =>
        if isQuote b then if isStringPrefix [a] then some ([a], b, rest) else none
        else match rest with
          | c :: rest =>
            if isQuote c && isStringPrefix [a, b] then some ([b, a], c, rest) else none
          | [] => none
      | [] => none
  | [] => none

/-- Operators of three and of two characters. -/
def longOps : List (List Char) :=
  ["**=", "//=", ">>=", "<<=", "...", "!=", "%=", "&=", "**", "*=", "+=", "-=", "->", "//", "/=",
   ":=", "<<", "<=", "<>", "==", ">=", ">>", "@=", "^=", "|="].map String.toList

/-- The operator at the head of a text: the longest one, else a single character. -/
def operator (c : Char) (rest : List Char) : List Char :=
  match longOps.find? (·.isPrefixOf (c :: rest)) with
  | some op => op
  | none => [c]

/-- The opening bracket of a closing one. -/
def opening : Char → Option Char
  | ')' => some '('
  | ']' => some '['
  | '}' => some '{'
  | _ => none

/-- An opening bracket. -/
def isOpening (c : Char) : Bool := c == '(' || c == '[' || c == '{'

/-- The open brackets behind an operator on the given line; nothing for one that cannot stand here.
-/
def bracketsAfter (brackets : List (Char × Nat)) (line : Nat) (text : List Char) :
    Option (List (Char × Nat)) :=
  match text with
  | [c] =>
    if isOpening c then
      if maxBrackets ≤ brackets.length then none else some ((c, line) :: brackets)
    else match opening c, brackets with
      | none, _ => if c.toNat < 32 || c.toNat == 127 then none else some brackets
      | some _, [] => none
      | some o, (b, _) :: outer => if o = b then some outer else none
  | _ => some brackets

/-- Read the operator at the head of the text and keep track of brackets. -/
def operatorToken (s : State) (c : Char) (rest : List Char) : Except Lexed State :=
  let text := operator c rest
  match bracketsAfter s.brackets s.point.line text with
  | none => .error (s.stop s.point.line true)
  | some brackets =>
    let finish := s.point.advance text
    .ok ({ s with brackets := brackets }.push .op text finish ((c :: rest).drop text.length))

/-- Read the name at the head of the text. -/
def nameToken (s : State) : Except Lexed State :=
  let text := s.rest.takeWhile Number.isNamePart
  if text.all (·.toNat < 128) || Text.isIdentifier text then
    .ok (s.push .name text (s.point.advance text) (s.rest.dropWhile Number.isNamePart))
  else .error (s.stop s.point.line true)

/-- Read one token that is neither layout nor the end. -/
def plainToken (s : State) (c : Char) (rest : List Char) : Except Lexed State :=
  match stringStart s.rest with
  | some (acc, quote, body) =>
    match stringLiteral acc quote body with
    | some (text, rest) =>
      let text := text.reverse
      .ok (s.push .string text (s.point.advance text) rest)
    | none => .error (s.stop s.point.line true)
  | none =>
    if c.isDigit || (c == '.' && (rest.head?.map Char.isDigit).getD false) then
      match Number.read s.rest with
      | some (text, rest) =>
        let text := text.reverse
        .ok (s.push .number text (s.point.advance text) rest)
      | none => .error (s.stop s.point.line true)
    else if Number.isNamePart c then nameToken s
    else operatorToken s c rest

/-- Put the text behind the current line's blanks. -/
def State.skip (s : State) (p : Char → Bool) : State :=
  { s with rest := s.rest.dropWhile p, point := s.point.advance (s.rest.takeWhile p) }

/-- Blanks between tokens. -/
def isGap (c : Char) : Bool := c == ' ' || c == '\t' || c == '\x0c'

/-- Step over the line end at the head of the text. -/
def State.nextLine (s : State) : State :=
  { s with rest := s.rest.drop 1, point := ⟨s.point.line + 1, 0⟩ }

/-- Handle the start of a line: a line without tokens is passed over, any other sets its level. -/
def lineStart (s : State) : Except Lexed (State × Bool) :=
  match margin ⟨0, 0, 0, s.point⟩ s.rest with
  | .error p => .error (s.stop p.line false)
  | .ok (m, rest) =>
    let s := { s with point := m.point, rest := rest }
    match rest with
    | '#' :: _ =>
      let s := s.skip (· ≠ '\n')
      if s.rest.isEmpty then .ok (s, false) else .ok (s.nextLine, true)
    | '\n' :: _ => .ok (s.nextLine, true)
    | _ =>
      if s.brackets.isEmpty then
        let width := if m.continued = 0 then m.width else m.continued
        let narrow := if m.continued = 0 then m.narrow else m.continued
        (indentTo width narrow s).map (·, false)
      else .ok (s, false)

/-- Handle one step inside a line; the flag says that a new line starts behind it. -/
def withinLine (s : State) : Except Lexed (State × Bool) :=
  let s := s.skip isGap
  match s.rest with
  | [] =>
    match s.openLine with
    | some line => .error (s.stop line false)
    | none => .error ⟨(s.pushLayout .finish).tokens, none⟩
  | '#' :: _ => .ok (s.skip (· ≠ '\n'), false)
  | '\n' :: _ =>
    if s.brackets.isEmpty then .ok ((s.pushLayout .newline).nextLine, true)
    else .ok (s.nextLine, true)
  | '\\' :: '\n' :: rest =>
    if rest.isEmpty then .error (s.stop s.point.line false)
    else .ok ({ s with rest := rest, point := ⟨s.point.line + 1, 0⟩ }, false)
  | '\\' :: _ => .error (s.stop s.point.line false)
  | c :: rest => (plainToken s c rest).map (·, false)

/-- Run the scanner; every second step reads a character, so `fuel` bounds the steps. -/
def run : Nat → Bool → State → Lexed
  | 0, _, s => s.stop s.point.line true
  | fuel + 1, fresh, s =>
    match if fresh then lineStart s else withinLine s with
    | .error done => done
    | .ok (s, fresh) => run fuel fresh s

end Scan

/-- The tokens of a text that stands at the given line and column of a larger one. -/
def Lexed.ofFragment (line col : Nat) (text : List Char) : Lexed :=
  Scan.run (2 * text.length + 4) true
    ⟨text, ⟨line, 0⟩, [(0, 0)], [], #[], line, col⟩

/-- The tokens of a text whose lines end in line feeds. -/
def Lexed.ofText (text : List Char) : Lexed := Lexed.ofFragment 1 0 text

end ContextLint.Source
