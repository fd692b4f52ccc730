import ContextLint.Source.Diagnosis.Match
import ContextLint.Source.Grammar.Statement

/-!
# The line to blame for a syntax fault

A text that does not parse is matched against the grammar twice: first with the alternatives for
valid texts only, which shows how far the text makes sense, then with those for texts at fault as
well, of which the first that fits gives the line. If none fits, the line of the furthest token of
the first round is to blame. A lexical fault further on, or a bracket that stays open, takes
precedence.
-/

namespace ContextLint.Source.Diagnosis

/-- Number of brackets open behind each token. -/
def depths (tokens : Array Token) : Array Nat :=
  (tokens.foldl (fun (done, depth) t =>
    let depth :=
      if t.kind != .op then depth
      else if ["(", "[", "\x7b"].contains t.text then depth + 1
      else if [")", "]", "\x7d"].contains t.text then depth - 1
      else depth
    (done.push depth, depth)) (#[], 0)).1

mutual

/-- Whether the parts of string literals are at fault: the line to blame, or none for the line of
the furthest token. `blame` judges the expression of a field. -/
def piecesFault (blame : Lexed → Option Nat) : List Interpolation.Piece → Option (Option Nat)
  | [] => none
  | piece :: rest => (pieceFault blame piece).or (piecesFault blame rest)

/-- The same for one part. -/
def pieceFault (blame : Lexed → Option Nat) : Interpolation.Piece → Option (Option Nat)
  | .text _ => none
  | .broken => some none
  | .field line col source format =>
    match Interpolation.fieldTokens? line col source with
    | none => some none
    | some tokens =>
      match blame tokens, format with
      | some line, _ => some (some line)
      | none, some format => piecesFault blame format
      | none, none => none

end

/-- The arguments up to a token, behind some that were read. -/
def argumentsUpTo (r : Rules) (l : Lexed) (stop : Nat) :
    Nat → Grammar.Args → Cursor → Option Grammar.Args
  | 0, _, _ => none
  | fuel + 1, a, c =>
    if stop ≤ c.next then some a
    else
      let more : Parser Grammar.Args := do
        let _ ← Parser.op ","
        Grammar.argument r a
      match more l c with
      | some (a, c) => argumentsUpTo r l stop fuel a c
      | none => none

/-- The last positional argument of an argument list that has more than one. -/
def lastArgument (r : Rules) (l : Lexed) (start stop : Nat) : Option Expr := do
  let (first, c) ← Grammar.argument r {} l ⟨start⟩
  let a ← argumentsUpTo r l stop (l.tokens.size + 1) first c
  if a.args.length ≤ 1 then none else a.args.head?

/-- The line to blame for a fault, given what the scanner found further on. -/
def settle (l : Lexed) (f : Fault) : Nat :=
  if f.settled then f.line
  else match l.fault with
    | none => f.line
    | some lex =>
      if lex.loud then lex.line
      else match lex.openBracket with
        | none => f.line
        | some line =>
          let current := ((l.tokens[f.furthest]?).map (·.span.line)).getD f.line
          if line < current then line else f.line

/-- Enough steps downwards for every match: a rule within a rule reads a token or leads to a later
rule. -/
def depthBound (l : Lexed) : Nat := 400 * (l.tokens.size + 4)

/-- The line to blame if the tokens from the given one on do not match a rule. `fuel` bounds the
nesting of formatted literals. -/
def blame (r : Rules) : Nat → Lexed → Rule → Nat → Option Nat
  | 0, _, _, _ => none
  | fuel + 1, l, rule, start =>
    let s : Setting :=
      { lexed := l
        depths := depths l.tokens
        literalFault := fun tokens =>
          piecesFault (fun l => blame r fuel l .starExpressions 0)
            (Interpolation.adjacentPieces r.characters
              (tokens.map fun t => (t, Literal.Quoted.ofText t.text.toList)))
        expressionAt := fun i => (Grammar.starExpressions r l ⟨i⟩).map Prod.fst
        lastArgument := lastArgument r l }
    match s.matchRule false (depthBound l) rule start ⟨start, ∅⟩ with
    | (.found _, _) => none
    | (.fault f, _) => some (settle l f)
    | (.failed _, first) =>
      match s.matchRule true (depthBound l) rule start { first with known := ∅ } with
      | (.fault f, _) => some (settle l f)
      | (_, second) =>
        let kind := (l.tokens[first.furthest]?).map Token.kind
        if kind = some .indent || kind = some .dedent then some (s.lineAt second.furthest)
        else some (settle l ⟨s.lineAt first.furthest, second.furthest, false⟩)

/-- Index of the last top-level statement that parses before one that does not; a fault may lie in
how the two stand together. -/
def lastStatement (r : Rules) (l : Lexed) : Nat → Nat → Cursor → Nat
  | 0, start, _ => start
  | fuel + 1, start, c =>
    match Grammar.statement r l c with
    | some (_, next) => lastStatement r l fuel c.next next
    | none => start

/-- The line to blame for a text that is no module. -/
def faultLine (r : Rules) (l : Lexed) : Nat :=
  let start := lastStatement r l (l.tokens.size + 1) 0 ⟨0⟩
  let first := ((l.tokens[start]?).map (·.span.line)).getD 1
  (blame r (l.tokens.size + 2) l .file start).getD first

end ContextLint.Source.Diagnosis
