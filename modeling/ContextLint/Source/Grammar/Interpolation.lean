import ContextLint.Source.Grammar.Core
import ContextLint.Source.Literal
import ContextLint.Source.Token.Scan

/-!
# Formatted string literals

The body of a formatted literal alternates between literal text and replacement fields in braces. At
the top level a doubled brace is literal. A field holds an expression, an optional `=` that also
shows the field's own text, an optional conversion and an optional format, which is again such a
body with at most one further level of fields. An expression is parsed as if it stood in parentheses
at its own place.
-/

namespace ContextLint.Source.Interpolation

open Scan (Point)

/-- A part of a string literal. -/
inductive Piece where
  | text (points : List Nat)
  /-- A replacement field: where its expression is taken to start, the expression, and the format.
  -/
  | field (line col : Nat) (source : List Char) (format : Option (List Piece))
  /-- The literal is malformed from here on. -/
  | broken

/-- Join neighbouring literal texts. -/
def merge : List Piece → List Piece
  | .text a :: rest =>
    match merge rest with
    | .text b :: more => .text (a ++ b) :: more
    | more => .text a :: more
  | piece :: rest => piece :: merge rest
  | [] => []

/-- How a run of literal text ends. -/
inductive LiteralEnd where
  /-- At a doubled brace; the text goes on behind it. -/
  | doubled
  /-- In front of a brace, or at the end of the body. -/
  | stop

/-- Read literal text up to a brace, in reverse behind `acc`; nothing for a single closing brace at
the top level. -/
def literalRun (raw top : Bool) (acc : List Char) :
    Nat → List Char → Option (List Char × LiteralEnd × List Char)
  | 0, _ => none
  | _, [] => some (acc, .stop, [])
  | fuel + 1, c :: rest =>
    if !raw && c == '\\' then
      match rest with
      | [] => some (c :: acc, .stop, [])
      | 'N' :: '{' :: more =>
        let name := more.takeWhile (· ≠ '}')
        let tail := more.dropWhile (· ≠ '}')
        literalRun raw top ((tail.take 1).reverse ++ name.reverse ++ ('{' :: 'N' :: c :: acc)) fuel
          (tail.drop 1)
      | 'N' :: d :: more => literalRun raw top (d :: 'N' :: c :: acc) fuel more
      | d :: more =>
        if d == '{' || d == '}' then brace top (c :: acc) d more
        else literalRun raw top (d :: c :: acc) fuel more
    else if c == '{' || c == '}' then brace top acc c rest
    else literalRun raw top (c :: acc) fuel rest
where
  /-- Decide what a brace in literal text means. -/
  brace (top : Bool) (acc : List Char) (c : Char) (rest : List Char) :
      Option (List Char × LiteralEnd × List Char) :=
    if top then
      match rest with
      | d :: more =>
        if d = c then some (c :: acc, .doubled, more)
        else if c = '}' then none
        else some (acc, .stop, c :: rest)
      | [] => if c = '}' then none else some (acc, .stop, c :: rest)
    else some (acc, .stop, c :: rest)

/-- Read the source of a field's expression, in reverse behind `acc`, up to the character that ends
it. `quote` is the string literal being read with its number of quotes, `open` the open brackets. -/
def expressionRun (quote : Option (Char × Nat)) (openBrackets acc : List Char) :
    Nat → List Char → Option (List Char × List Char)
  | 0, _ => none
  | _, [] => none
  | fuel + 1, c :: rest =>
    if c = '\\' then none
    else match quote with
      | some (q, size) =>
        if c = q then
          if size = 3 then
            match rest with
            | a :: b :: more =>
              if a = q && b = q then expressionRun none openBrackets (b :: a :: c :: acc) fuel more
              else expressionRun quote openBrackets (c :: acc) fuel rest
            | _ => expressionRun quote openBrackets (c :: acc) fuel rest
          else expressionRun none openBrackets (c :: acc) fuel rest
        else expressionRun quote openBrackets (c :: acc) fuel rest
      | none =>
        if Scan.isQuote c then
          match rest with
          | a :: b :: more =>
            if a = c && b = c then
              expressionRun (some (c, 3)) openBrackets (b :: a :: c :: acc) fuel more
            else expressionRun (some (c, 1)) openBrackets (c :: acc) fuel rest
          | _ => expressionRun (some (c, 1)) openBrackets (c :: acc) fuel rest
        else if Scan.isOpening c then
          if maxBrackets ≤ openBrackets.length then none
          else expressionRun none (c :: openBrackets) (c :: acc) fuel rest
        else if c = '#' then none
        else if openBrackets.isEmpty && ['!', ':', '}', '=', '>', '<'].contains c then
          match rest with
          | '=' :: more =>
            if c = ':' || c = '}' then some (acc, c :: rest)
            else expressionRun none openBrackets ('=' :: c :: acc) fuel more
          | _ =>
            if c = '>' || c = '<' then expressionRun none openBrackets (c :: acc) fuel rest
            else some (acc, c :: rest)
        else match Scan.opening c, openBrackets with
          | none, _ => expressionRun none openBrackets (c :: acc) fuel rest
          | some _, [] => none
          | some o, b :: outer =>
            if o = b then expressionRun none outer (c :: acc) fuel rest else none

/-- ASCII blanks, which may follow the `=` of a field. -/
def isAsciiBlank (c : Char) : Bool := c == ' ' || (9 ≤ c.toNat && c.toNat ≤ 13)

/-- Blanks that an expression may consist of without being one. -/
def isLayout (c : Char) : Bool := c == ' ' || c == '\t' || c == '\n' || c == '\x0c'

/-- Only blanks stand between an opening brace and the end of its line. -/
def opensLine (source : List Char) : Bool :=
  match source.dropWhile (fun c => c == ' ' || c == '\t' || c == '\x0c') with
  | '\n' :: _ | '}' :: _ | [] => true
  | _ => false

/-- Column that a field's expression is taken to start at, in a literal that starts at `literal` and
with the opening brace at `brace`. -/
def fieldColumn (literal brace : Point) (source : List Char) : Nat :=
  if opensLine source then (if brace.line = literal.line then literal.col else 0) else brace.col

/-- The tokens of a field's expression; nothing if it is blank. -/
def fieldTokens? (line col : Nat) (source : List Char) : Option Lexed :=
  if source.all isLayout then none
  else some (Lexed.ofFragment line col ('(' :: source ++ [')', '\n']))

/-- Parse one field's expression at its place. -/
def fieldValue (expression : Parser Expr) (line col : Nat) (source : List Char) : Parser Expr :=
  fun _ c =>
    match fieldTokens? line col source with
    | none => none
    | some tokens => (expression.run tokens).map (·, c)

/-- Read the conversion behind a field's expression, if there is one. -/
def conversion (rest : List Char) : Option (List Char) :=
  match rest with
  | '!' :: rest =>
    match rest.takeWhile (fun c => c ≠ '}' && c ≠ ':') with
    | [c] => if c = 's' || c = 'r' || c = 'a' then some (rest.drop 1) else none
    | _ => none
  | _ => some rest

/-- Read the parts of a body at nesting `level` from `point` on; also deliver the unread rest with
its place. Every round reads a character, so `fuel` bounds the rounds. -/
def pieces (names : CharacterNames) (raw : Bool) (literal : Point) :
    Nat → Nat → Point → List Char → List Piece × Point × List Char
  | 0, _, point, _ => ([.broken], point, [])
  | fuel + 1, level, point, body =>
    match literalRun raw (level == 0) [] (body.length + 1) body with
    | none => ([.broken], point, [])
    | some (text, ending, rest) =>
      let text := text.reverse
      match if raw then some (text.map Char.toNat) else Literal.unescape names true text with
      | none => ([.broken], point, [])
      | some points =>
        let front := if points.isEmpty then [] else [Piece.text points]
        let afterText := point.advance (body.take (body.length - rest.length))
        match ending, rest with
        | .doubled, _ =>
          let (more, point, rest) := pieces names raw literal fuel level afterText rest
          (front ++ more, point, rest)
        | .stop, '{' :: source =>
          if 2 ≤ level then (front ++ [.broken], afterText, [])
          else
            match expressionRun none [] [] (source.length + 1) source with
            | none => (front ++ [.broken], afterText, [])
            | some (shown, afterValue) =>
              let shown := shown.reverse
              let afterEquals := match afterValue with
                | '=' :: more => more.dropWhile isAsciiBlank
                | _ => afterValue
              let own :=
                if afterValue.head? == some '=' then
                  [Piece.text ((source.take (source.length - afterEquals.length)).map Char.toNat)]
                else []
              let field (format : Option (List Piece)) : List Piece :=
                front ++ own ++
                  [.field afterText.line (fieldColumn literal afterText shown) shown format]
              let placed (rest : List Char) := afterText.advance (('{' :: source).take
                (source.length + 1 - rest.length))
              match conversion afterEquals with
              | some (':' :: formatBody) =>
                if formatBody.isEmpty then (field none ++ [.broken], afterText, [])
                else
                  let (format, point, rest) :=
                    pieces names raw literal fuel (level + 1) (placed formatBody) formatBody
                  match rest with
                  | '}' :: rest =>
                    let (more, point, rest) :=
                      pieces names raw literal fuel level (point.after '}') rest
                    (field (some (merge format)) ++ more, point, rest)
                  | _ => (field (some (merge format)) ++ [.broken], point, [])
              | some ('}' :: rest) =>
                let (more, point, rest) := pieces names raw literal fuel level (placed rest) rest
                (field none ++ more, point, rest)
              | _ => (field none ++ [.broken], afterText, [])
        | .stop, rest => (front, afterText, rest)

/-- The parts of one string literal. -/
def piecesOf (names : CharacterNames) (t : Token) (q : Literal.Quoted) : List Piece :=
  if q.formatted then
    let begin : Point := ⟨t.span.line, t.span.col⟩
    (pieces names q.raw begin (q.body.length + 2) 0 (begin.advance q.opening) q.body).1
  else match q.points names with
    | some points => if points.isEmpty then [] else [.text points]
    | none => [.broken]

/-- The parts of adjacent literals, of which either all or none denote bytes. -/
def adjacentPieces (names : CharacterNames) (literals : List (Token × Literal.Quoted)) :
    List Piece :=
  if literals.any (·.2.bytes) && literals.any (!·.2.bytes) then [.broken]
  else merge (literals.flatMap fun (t, q) => piecesOf names t q)

mutual

/-- Expressions of the parts, each but a field's own a node over the whole literal. -/
def nodes (expression : Parser Expr) (span : Parser Site) : List Piece → Parser (List Expr)
  | [] => return []
  | piece :: rest => do
    let e ← node expression span piece
    return e :: (← nodes expression span rest)

/-- Expression of one part. -/
def node (expression : Parser Expr) (span : Parser Site) : Piece → Parser Expr
  | .text points => do return .constant (← span) (.str points)
  | .field line col source none => do
    let value ← fieldValue expression line col source
    return .compound (← span) .formattedValue [value]
  | .field line col source (some format) => do
    let value ← fieldValue expression line col source
    let parts ← nodes expression span format
    return .compound (← span) .formattedValue [value, .compound (← span) .joinedStr parts]
  | .broken => Parser.miss

end

end ContextLint.Source.Interpolation
