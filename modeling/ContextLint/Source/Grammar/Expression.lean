import ContextLint.Source.Grammar.Interpolation
import ContextLint.Source.Stmt
import ContextLint.Text.Normal

/-!
# Expressions

One parser per level of the grammar, from the atoms up to expression lists. The levels that contain
each other are reached through `Rules`. A node stretches from the first token of its rule to the
last, so it starts at an opening parenthesis when its first part is parenthesised, while a
parenthesised expression itself starts behind it. Targets are read as expressions and judged
afterwards.
-/

namespace ContextLint.Source

namespace Expr

/-- A name, attribute or subscript. -/
def isPlainTarget : Expr → Bool
  | name .. | attr .. | subscript .. => true
  | _ => false

mutual

/-- A plain target, or a display of targets. -/
def isTarget : Expr → Bool
  | name .. | attr .. | subscript .. => true
  | sequence _ _ elements => areTargets elements
  | _ => false

/-- Every expression is a target or a starred target. -/
def areTargets : List Expr → Bool
  | [] => true
  | starred _ e :: rest => isTarget e && areTargets rest
  | e :: rest => isTarget e && areTargets rest

end

/-- A target that may be starred. -/
def isStarTarget (e : Expr) : Bool := areTargets [e]

mutual

/-- A plain target, or a display of deletable ones. -/
def isDeletable : Expr → Bool
  | name .. | attr .. | subscript .. => true
  | sequence _ _ elements => areDeletable elements
  | _ => false

/-- Every expression can be deleted. -/
def areDeletable : List Expr → Bool
  | [] => true
  | e :: rest => isDeletable e && areDeletable rest

end

end Expr

/-- The recursive entry points of the grammar. -/
structure Rules where
  /-- A full expression without assignment at its top. -/
  expression : Parser Expr
  /-- A negation or a comparison. -/
  inversion : Parser Expr
  /-- A signed operand. -/
  factor : Parser Expr
  /-- A pattern of a `case` clause. -/
  pattern : Parser Pattern
  /-- The body of a compound statement. -/
  block : Parser (List Stmt)
  /-- The named characters. -/
  characters : CharacterNames

namespace Grammar

open Source.Parser

/-- Read an identifier and deliver its normal form. -/
def identifier : Parser String := do
  let t ← satisfy Token.isIdentifier
  return Text.normalize t.text

/-- A token that can start an expression or a starred one. -/
def startsExpression (t : Token) : Bool :=
  match t.kind with
  | .name => t.isIdentifier || ["True", "False", "None", "not", "lambda", "await"].contains t.text
  | .number | .string => true
  | .op => ["(", "[", "\x7b", "-", "+", "~", "...", "*"].contains t.text
  | _ => false

/-- Items separated by commas behind a first one, with an optional final comma; also tell whether
there was a comma at all. -/
def commaTail (starts : Token → Bool) (item : Parser Expr) (first : Expr) :
    Parser (List Expr × Bool) :=
  loop (fun (items, comma) => do
    if ← accept (isOp ",") then
      if ← next? starts then return .again ((← item) :: items, true)
      else return .leave (items.reverse, true)
    else return .leave (items.reverse, comma)) ([first], false)

/-- A list of items that is a tuple as soon as it has a comma. -/
def tupleOf (starts : Token → Bool) (item : Parser Expr) : Parser Expr := do
  let start ← here
  let first ← item
  let (items, comma) ← commaTail starts item first
  if comma then return .sequence (← site start) .tuple items else return first

/-- Binary operators of one level, grouped to the left. -/
def leftAssoc (ops : List (String × BinaryOp)) (operand : Parser Expr) : Parser Expr := do
  let start ← here
  let first ← operand
  loop (fun left => do
    let t ← peek
    match if t.kind == .op then ops.lookup t.text else none with
    | none => return .leave left
    | some operator =>
      advance
      let right ← operand
      return .again (.binary (← site start) operator left right)) first

/-- Operands joined by a keyword, as one node when there are several. -/
def joined (keyword : String) (operand : Parser Expr) : Parser Expr := do
  let start ← here
  let first ← operand
  let items ← loop (fun items => do
    if ← accept (isWord keyword) then return .again ((← operand) :: items)
    else return .leave items.reverse) [first]
  match items with
  | [one] => return one
  | _ => return .compound (← site start) .boolOp items

section Levels

variable (r : Rules)

/-- Products and quotients. -/
def term : Parser Expr :=
  leftAssoc [("*", .mul), ("/", .div), ("//", .floorDiv), ("%", .mod), ("@", .matMul)] r.factor

/-- Sums and differences. -/
def sum : Parser Expr := leftAssoc [("+", .add), ("-", .sub)] (term r)

/-- Shifts. -/
def shift : Parser Expr := leftAssoc [("<<", .shiftLeft), (">>", .shiftRight)] (sum r)

/-- Bitwise conjunctions. -/
def bitAnd : Parser Expr := leftAssoc [("&", .bitAnd)] (shift r)

/-- Bitwise exclusive disjunctions. -/
def bitXor : Parser Expr := leftAssoc [("^", .bitXor)] (bitAnd r)

/-- Bitwise disjunctions. -/
def bitOr : Parser Expr := leftAssoc [("|", .bitOr)] (bitXor r)

/-- Read a comparison operator, if one follows. -/
def comparisonOp : Parser Bool := do
  let t ← peek
  if t.kind == .op && ["==", "!=", "<=", "<", ">=", ">"].contains t.text then advance; return true
  else if isWord "in" t then advance; return true
  else if isWord "is" t then
    advance
    let _ ← accept (isWord "not")
    return true
  else if isWord "not" t then
    if isWord "in" (← peekAt 1) then advance; advance; return true else return false
  else return false

/-- A chain of comparisons. -/
def comparison : Parser Expr := do
  let start ← here
  let first ← bitOr r
  let items ← loop (fun items => do
    if ← comparisonOp then return .again ((← bitOr r) :: items)
    else return .leave items.reverse) [first]
  match items with
  | [one] => return one
  | _ => return .compound (← site start) .compare items

/-- A negation or a comparison. -/
def inversion : Parser Expr := do
  let start ← here
  if ← accept (isWord "not") then
    let operand ← r.inversion
    return .compound (← site start) .unaryOp [operand]
  else comparison r

/-- Operands joined by `and`. -/
def conjunction : Parser Expr := joined "and" r.inversion

/-- Operands joined by `or`. -/
def disjunction : Parser Expr := joined "or" (conjunction r)

/-- An identifier follows, and the given operator behind it. -/
def atName (operator : String) : Parser Bool := do
  if (← peek).isIdentifier then return isOp operator (← peekAt 1) else return false

/-- An assignment expression, or an expression that none follows. -/
def namedExpression : Parser Expr := do
  let start ← here
  if ← atName ":=" then
    let target ← identifier
    advance
    let value ← r.expression
    return .walrus (← site start) target value
  else
    let e ← r.expression
    if ← next? (isOp ":=") then miss else return e

/-- An unpacked operand, or what `other` reads. -/
def starredOr (operand other : Parser Expr) : Parser Expr := do
  let start ← here
  if ← accept (isOp "*") then
    let e ← operand
    return .starred (← site start) e
  else other

/-- An item of a display. -/
def starNamed : Parser Expr := starredOr (bitOr r) (namedExpression r)

/-- An item of an expression list. -/
def starExpression : Parser Expr := starredOr (bitOr r) r.expression

/-- An expression list. -/
def starExpressions : Parser Expr := tupleOf startsExpression (starExpression r)

/-- An expression list without unpacking. -/
def expressions : Parser Expr :=
  tupleOf (fun t => startsExpression t && !isOp "*" t) r.expression

/-- A `yield` expression. -/
def yieldExpression : Parser Expr := do
  let start ← here
  let _ ← word "yield"
  if ← accept (isWord "from") then
    let e ← r.expression
    return .compound (← site start) .yieldFrom [e]
  else if ← next? startsExpression then
    let e ← starExpressions r
    return .compound (← site start) .yield [e]
  else return .compound (← site start) .yield []

/-- The right side of an assignment. -/
def assignedValue : Parser Expr := do
  if ← next? (isWord "yield") then yieldExpression r else starExpressions r

/-- One part of a slice, absent before a colon, comma or bracket. -/
def slicePart : Parser (Option Expr) := do
  let t ← peek
  if isOp ":" t || isOp "]" t || isOp "," t then return none else some <$> r.expression

/-- The rest of a slice behind its lower bound. -/
def sliceTail (start : Span) (lower : Option Expr) : Parser Expr := do
  let _ ← op ":"
  let upper ← slicePart r
  let step ← if ← accept (isOp ":") then slicePart r else Pure.pure none
  return .compound (← site start) .slice (lower.toList ++ upper.toList ++ step.toList)

/-- A slice or an index. -/
def slice : Parser Expr := do
  let start ← here
  if ← next? (isOp ":") then sliceTail r start none
  else if ← atName ":=" then namedExpression r
  else
    let e ← namedExpression r
    if ← next? (isOp ":") then sliceTail r start (some e) else return e

/-- What stands between the brackets of a subscript. -/
def slices : Parser Expr := do
  let start ← here
  let item := starredOr r.expression (slice r)
  let first ← item
  let (items, comma) ← commaTail (fun t => startsExpression t || isOp ":" t) item first
  match first, comma with
  | .starred .., _ | _, true => return .sequence (← site start) .tuple items
  | _, false => return first

/-- A target, possibly starred, of a loop or context manager. -/
def starTarget : Parser Expr := do
  let e ← starredOr r.factor r.factor
  if e.isStarTarget then return e else miss

/-- A target list. -/
def starTargets : Parser Expr := tupleOf startsExpression (starTarget r)

/-- One `for` clause of a comprehension, if one follows. -/
def generator? : Parser (Option Generator) := do
  let t ← peek
  let follows ← if isWord "async" t then isWord "for" <$> peekAt 1 else Pure.pure (isWord "for" t)
  if follows then
    let _ ← accept (isWord "async")
    advance
    let target ← starTargets r
    let _ ← word "in"
    let iter ← disjunction r
    let conditions ← loop (fun cs => do
      if ← accept (isWord "if") then return .again ((← disjunction r) :: cs)
      else return .leave cs.reverse) []
    return some (.mk target iter conditions)
  else return none

/-- The `for` clauses of a comprehension; none when the text is no comprehension. -/
def generators : Parser (List Generator) :=
  loop (fun gs => do
    match ← generator? r with
    | some g => return .again (g :: gs)
    | none => return .leave gs.reverse) []

/-- Where an argument may stand among the arguments of a call. -/
inductive ArgPhase where
  /-- Only positional and starred arguments so far. -/
  | positional
  /-- A named argument came before. -/
  | named
  /-- An unpacked mapping came before. -/
  | mapping
  deriving DecidableEq

/-- Arguments read so far, in reverse. -/
structure Args where
  /-- What may still follow. -/
  phase : ArgPhase := .positional
  /-- Positional and starred arguments. -/
  args : List Expr := []
  /-- Values of named arguments and unpacked mappings. -/
  keywords : List Expr := []

/-- Read one argument. -/
def argument (a : Args) : Parser Args := do
  let t ← peek
  if isOp "*" t then
    if a.phase == .mapping then miss
    else
      let e ← starredOr r.expression miss
      return { a with args := e :: a.args }
  else if isOp "**" t then
    advance
    let e ← r.expression
    return { a with phase := .mapping, keywords := e :: a.keywords }
  else if ← atName "=" then
    advance; advance
    let e ← r.expression
    let phase := if a.phase == .positional then .named else a.phase
    return { a with phase := phase, keywords := e :: a.keywords }
  else if a.phase == .positional then
    let e ← namedExpression r
    if ← next? (isOp "=") then miss else return { a with args := e :: a.args }
  else miss

/-- Further arguments up to a closing parenthesis, which is read. -/
def argumentTail (a : Args) : Parser (List Expr × List Expr) :=
  loop (fun a => do
    if ← accept (isOp ",") then
      if ← accept (isOp ")") then return .leave (a.args.reverse, a.keywords.reverse)
      else return .again (← argument r a)
    else
      let _ ← op ")"
      return .leave (a.args.reverse, a.keywords.reverse)) a

/-- The arguments behind an opening parenthesis. -/
def arguments : Parser (List Expr × List Expr) := do
  if ← accept (isOp ")") then return ([], [])
  else argumentTail r (← argument r {})

/-- The arguments of a call behind its opening parenthesis, which stands at `start`: a single
unparenthesised generator, or an argument list. -/
def callArguments (start : Span) : Parser (List Expr × List Expr) := do
  let t ← peek
  if isOp ")" t || isOp "*" t || isOp "**" t then arguments r
  else if ← atName "=" then arguments r
  else
    let first ← argument r {}
    match first.args, ← generators r with
    | [e], g :: gs =>
      let _ ← op ")"
      return ([.comprehension (← site start) .generator [e] (g :: gs)], [])
    | _, _ => argumentTail r first

/-- Adjacent string literals as one constant or formatted string. -/
def strings : Parser Expr := do
  let start ← here
  let tokens ← loop (fun ts => do
    let t ← peek
    if t.kind == .string then advance; return .again (t :: ts) else return .leave ts.reverse) []
  let literals := tokens.map fun t => (t, Literal.Quoted.ofText t.text.toList)
  let pieces := Interpolation.adjacentPieces r.characters literals
  if literals.any (·.2.formatted) then
    let nodes ← Interpolation.nodes (starExpressions r) (site start) pieces
    return .compound (← site start) .joinedStr nodes
  else match pieces with
    | [] => return .constant (← site start) (if literals.any (·.2.bytes) then .bytes else .str [])
    | [.text points] =>
      return .constant (← site start) (if literals.any (·.2.bytes) then .bytes else .str points)
    | _ => miss

/-- A number literal. -/
def number : Parser Expr := do
  let t ← kind .number
  if Literal.isOversized t.text.toList then miss
  else return .constant (← site t.span) (Literal.numberKind t.text.toList)

/-- What an opening parenthesis starts: a tuple, a generator, or a grouped expression. -/
def parenthesised : Parser Expr := do
  let start ← here
  let _ ← op "("
  if ← accept (isOp ")") then return .sequence (← site start) .tuple []
  else if ← next? (isWord "yield") then
    let e ← yieldExpression r
    let _ ← op ")"
    return e
  else
    let first ← starNamed r
    if ← next? (isOp ",") then
      let (items, _) ← commaTail startsExpression (starNamed r) first
      let _ ← op ")"
      return .sequence (← site start) .tuple items
    else match first with
      | .starred .. => miss
      | _ =>
        match ← generators r with
        | [] =>
          let _ ← op ")"
          return first
        | gs =>
          let _ ← op ")"
          return .comprehension (← site start) .generator [first] gs

/-- What an opening square bracket starts: a list or a list comprehension. -/
def bracketed : Parser Expr := do
  let start ← here
  let _ ← op "["
  if ← accept (isOp "]") then return .sequence (← site start) .list []
  else
    let first ← starNamed r
    let gs ← match first with
      | .starred .. => Pure.pure []
      | _ => generators r
    if gs.isEmpty then
      let (items, _) ← commaTail startsExpression (starNamed r) first
      let _ ← op "]"
      return .sequence (← site start) .list items
    else
      let _ ← op "]"
      return .comprehension (← site start) .list [first] gs

/-- One item of a dictionary display: its key, unless it unpacks a mapping, and its value. -/
def dictItem : Parser (Option Expr × Expr) := do
  if ← accept (isOp "**") then
    let value ← bitOr r
    return (none, value)
  else
    let key ← r.expression
    let _ ← op ":"
    let value ← r.expression
    return (some key, value)

/-- The rest of a dictionary display behind its first item. -/
def dictTail (start : Span) (first : Option Expr × Expr) : Parser Expr := do
  let items ← loop (fun items => do
    if ← accept (isOp ",") then
      if ← next? (isOp "\x7d") then return .leave items.reverse
      else return .again ((← dictItem r) :: items)
    else return .leave items.reverse) [first]
  let _ ← op "\x7d"
  return .compound (← site start) .dict (items.filterMap Prod.fst ++ items.map Prod.snd)

/-- What an opening brace starts: a dictionary, a set, or a comprehension of either. -/
def braced : Parser Expr := do
  let start ← here
  let _ ← op "\x7b"
  if ← accept (isOp "\x7d") then return .compound (← site start) .dict []
  else if ← next? (isOp "**") then
    let first ← dictItem r
    dictTail r start first
  else
    let isAssignment ← atName ":="
    let first ← starNamed r
    let isElement := match first with
      | .starred .. => true
      | _ => isAssignment
    if ← (if isElement then Pure.pure false else accept (isOp ":")) then
      let value ← r.expression
      match ← generators r with
      | [] => dictTail r start (some first, value)
      | gs =>
        let _ ← op "\x7d"
        return .comprehension (← site start) .dict [first, value] gs
    else
      let gs ← match first with
        | .starred .. => Pure.pure []
        | _ => generators r
      if gs.isEmpty then
        let (items, _) ← commaTail startsExpression (starNamed r) first
        let _ ← op "\x7d"
        return .compound (← site start) .set items
      else
        let _ ← op "\x7d"
        return .comprehension (← site start) .set [first] gs

/-- An atom. -/
def atom : Parser Expr := do
  let t ← peek
  match t.kind with
  | .name =>
    if t.isIdentifier then
      let id ← identifier
      return .name (← site t.span) id
    else if t.text == "True" || t.text == "False" then
      advance
      return .constant (← site t.span) .bool
    else if t.text == "None" then
      advance
      return .constant (← site t.span) .none
    else miss
  | .number => number
  | .string => strings r
  | .op =>
    if t.text == "(" then parenthesised r
    else if t.text == "[" then bracketed r
    else if t.text == "\x7b" then braced r
    else if t.text == "..." then
      advance
      return .constant (← site t.span) .ellipsis
    else miss
  | _ => miss

/-- An atom with the attribute accesses, calls and subscripts behind it. -/
def primary : Parser Expr := do
  let start ← here
  let first ← atom r
  loop (fun e => do
    let t ← peek
    if isOp "." t then
      advance
      let name ← identifier
      return .again (.attr (← site start) e name)
    else if isOp "(" t then
      advance
      let (args, keywords) ← callArguments r t.span
      return .again (.call (← site start) e args keywords)
    else if isOp "[" t then
      advance
      let index ← slices r
      let _ ← op "]"
      return .again (.subscript (← site start) e index)
    else return .leave e) first

/-- A primary, possibly awaited. -/
def awaited : Parser Expr := do
  let start ← here
  if ← accept (isWord "await") then
    let e ← primary r
    return .compound (← site start) .await [e]
  else primary r

/-- A power. -/
def power : Parser Expr := do
  let start ← here
  let base ← awaited r
  if ← accept (isOp "**") then
    let exponent ← r.factor
    return .binary (← site start) .pow base exponent
  else return base

/-- A signed operand. -/
def factor : Parser Expr := do
  let start ← here
  let t ← peek
  if isOp "+" t || isOp "-" t || isOp "~" t then
    advance
    let operand ← r.factor
    return .compound (← site start) .unaryOp [operand]
  else power r

end Levels

end Grammar

end ContextLint.Source
