import ContextLint.Source.Grammar.Parameters
import ContextLint.Source.Grammar.Pattern

/-!
# Statements

A logical line holds simple statements separated by semicolons. A compound statement has a head, a
colon and a body, which is an indented block or the rest of the line. `match` and `case` are words
of their own only where a whole `match` head fits.
-/

namespace ContextLint.Source.Grammar

open Source.Parser

section Simple

variable (r : Rules)

/-- The operators that update a target in place. -/
def updateOps : List String :=
  ["+=", "-=", "*=", "@=", "/=", "%=", "&=", "|=", "^=", "<<=", ">>=", "**=", "//="]

/-- The further targets and the value of an assignment behind its first target. -/
def assignTail (first : Expr) : Parser Stmt :=
  loop (fun targets => do
    let _ ← op "="
    let value ← assignedValue r
    if ← next? (isOp "=") then
      let isTarget := match value with
        | .compound _ .yield _ | .compound _ .yieldFrom _ => false
        | e => e.isStarTarget
      if isTarget then return .again (value :: targets) else miss
    else return .leave (.assign targets.reverse value)) [first]

/-- An assignment of any form, or an expression statement. -/
def assignment : Parser Stmt := do
  let first ← starExpressions r
  let t ← peek
  if isOp ":" t then
    if first.isPlainTarget then
      advance
      let hint ← r.expression
      let value ← if ← accept (isOp "=") then some <$> assignedValue r else Pure.pure none
      return .annAssign first hint value
    else miss
  else if isOp "=" t then
    if first.isStarTarget then assignTail r first else miss
  else if t.kind == .op && updateOps.contains t.text then
    if first.isPlainTarget then
      advance
      return .augAssign first (← assignedValue r)
    else miss
  else return .value (some first)

/-- A dotted name as written. -/
def dotted : Parser String := do
  let first ← identifier
  loop (fun name => do
    if ← accept (isOp ".") then return .again (name ++ "." ++ (← identifier))
    else return .leave name) first

/-- A name with an optional other name behind `as`. -/
def aliasOf (name : Parser String) : Parser ImportAlias := do
  let name ← name
  if ← accept (isWord "as") then return ⟨name, some (← identifier)⟩ else return ⟨name, none⟩

/-- Aliases separated by commas. With `close`, a final comma may stand before that token. -/
def aliases (item : Parser ImportAlias) (close : Option String) : Parser (List ImportAlias) := do
  let first ← item
  loop (fun items => do
    if ← accept (isOp ",") then
      let atEnd ← match close with
        | some c => next? (isOp c)
        | none => Pure.pure false
      if atEnd then return .leave items.reverse else return .again ((← item) :: items)
    else return .leave items.reverse) [first]

/-- `import` and its names. -/
def importStmt : Parser Stmt := do
  let _ ← word "import"
  return .imports ⟨none, ← aliases (aliasOf dotted) none⟩

/-- `from`, a module and the names taken from it. -/
def fromStmt : Parser Stmt := do
  let _ ← word "from"
  let level ← loop (fun level => do
    if ← accept (isOp ".") then return .again (level + 1)
    else if ← accept (isOp "...") then return .again (level + 3)
    else return .leave level) 0
  let module ← if (← peek).isIdentifier then some <$> dotted else Pure.pure none
  if module.isNone && level == 0 then miss
  else
    let _ ← word "import"
    let source : ImportSource := ⟨module, level⟩
    if ← accept (isOp "*") then return .imports ⟨some source, [⟨"*", none⟩]⟩
    else if ← accept (isOp "(") then
      let names ← aliases (aliasOf identifier) (some ")")
      let _ ← op ")"
      return .imports ⟨some source, names⟩
    else return .imports ⟨some source, ← aliases (aliasOf identifier) none⟩

/-- `raise` with its optional parts. -/
def raiseStmt : Parser Stmt := do
  let _ ← word "raise"
  if ← next? startsExpression then
    let exc ← r.expression
    let cause ← if ← accept (isWord "from") then some <$> r.expression else Pure.pure none
    return .raise (some exc) cause
  else return .raise none none

/-- `del` and its targets. -/
def delStmt : Parser Stmt := do
  let _ ← word "del"
  let first ← r.expression
  let (targets, _) ← commaTail startsExpression r.expression first
  let t ← peek
  if Expr.areDeletable targets && (isOp ";" t || t.kind == .newline) then return .delete targets
  else miss

/-- `assert` with its optional message. -/
def assertStmt : Parser Stmt := do
  let _ ← word "assert"
  let test ← r.expression
  let msg ← if ← accept (isOp ",") then some <$> r.expression else Pure.pure none
  return .assert test msg

/-- A scope declaration. -/
def scopeStmt : Parser Stmt := do
  advance
  let _ ← identifier
  loop (fun () => do
    if ← accept (isOp ",") then
      let _ ← identifier
      return .again ()
    else return .leave .inert) ()

/-- A simple statement. -/
def simpleStmt : Parser Stmt := do
  let t ← peek
  match if t.kind == .name then t.text else "" with
  | "return" => do
    advance
    if ← next? startsExpression then return .value (some (← starExpressions r))
    else return .value none
  | "import" => importStmt
  | "from" => fromStmt
  | "raise" => raiseStmt r
  | "del" => delStmt r
  | "yield" => do
    let e ← yieldExpression r
    return .value (some e)
  | "assert" => assertStmt r
  | "global" | "nonlocal" => scopeStmt
  | "pass" | "break" | "continue" => do
    advance
    return .inert
  | _ => assignment r

/-- The simple statements of one line. -/
def simpleStmts : Parser (List Stmt) := do
  let first ← simpleStmt r
  loop (fun stmts => do
    if ← accept (isOp ";") then
      if ← accept (·.kind == .newline) then return .leave stmts.reverse
      else return .again ((← simpleStmt r) :: stmts)
    else
      let _ ← kind .newline
      return .leave stmts.reverse) [first]

end Simple

section Compound

variable (r : Rules)

/-- A colon and a body. -/
def body : Parser (List Stmt) := do
  let _ ← op ":"
  r.block

/-- An optional `else` body. -/
def elseBody : Parser (List Stmt) := do
  if ← accept (isWord "else") then body r else return []

/-- The branches behind an `if` or `elif`, in reverse, and the final `else` body. -/
def branches : Parser (List (Expr × List Stmt) × List Stmt) :=
  loop (fun done => do
    advance
    let test ← namedExpression r
    let stmts ← body r
    let done := (test, stmts) :: done
    if ← next? (isWord "elif") then return .again done
    else return .leave (done, ← elseBody r)) []

/-- A conditional statement. -/
def ifStmt : Parser Stmt := do
  let (done, orelse) ← branches r
  match done with
  | [] => miss
  | last :: earlier =>
    let nest (inner : Stmt) (b : Expr × List Stmt) : Stmt := .branch b.1 b.2 [inner]
    return earlier.foldl nest (.branch last.1 last.2 orelse)

/-- A `while` loop. -/
def whileStmt : Parser Stmt := do
  advance
  let test ← namedExpression r
  let stmts ← body r
  return .branch test stmts (← elseBody r)

/-- A `for` loop. -/
def forStmt : Parser Stmt := do
  let _ ← word "for"
  let target ← starTargets r
  let _ ← word "in"
  let iter ← starExpressions r
  let stmts ← body r
  return .forLoop target iter stmts (← elseBody r)

/-- One item of a `with` statement. -/
def withItem : Parser WithItem := do
  let context ← r.expression
  if ← accept (isWord "as") then
    let target ← starTarget r
    let t ← peek
    if isOp "," t || isOp ")" t || isOp ":" t then return ⟨context, some target⟩ else miss
  else return ⟨context, none⟩

/-- Items in parentheses, with an optional final comma, before the colon. -/
def parenthesisedItems : Parser (List WithItem) := do
  let _ ← op "("
  let first ← withItem r
  let items ← loop (fun items => do
    if ← accept (isOp ",") then
      if ← next? (isOp ")") then return .leave items.reverse
      else return .again ((← withItem r) :: items)
    else return .leave items.reverse) [first]
  let _ ← op ")"
  if ← next? (isOp ":") then return items else miss

/-- Items without parentheses around them. -/
def plainItems : Parser (List WithItem) := do
  let first ← withItem r
  loop (fun items => do
    if ← accept (isOp ",") then return .again ((← withItem r) :: items)
    else return .leave items.reverse) [first]

/-- A `with` statement. -/
def withStmt : Parser Stmt := do
  let _ ← word "with"
  let items ←
    if ← next? (isOp "(") then orElse (parenthesisedItems r) (plainItems r) else plainItems r
  return .withBlock items (← body r)

/-- One `except` clause behind its keyword and optional star. -/
def handler (star : Bool) : Parser Handler := do
  if ← (if star then Pure.pure false else next? (isOp ":")) then return .mk none none (← body r)
  else
    let type ← r.expression
    let name ← if ← accept (isWord "as") then some <$> identifier else Pure.pure none
    return .mk (some type) name (← body r)

/-- The `except` clauses, all with a star or all without. -/
def handlers : Parser (List Handler) := do
  let star := isOp "*" (← peekAt 1)
  loop (fun done => do
    let sameForm ← if ← next? (isWord "except")
      then (isOp "*" · == star) <$> peekAt 1 else Pure.pure false
    if sameForm then
      advance
      if star then advance
      return .again ((← handler r star) :: done)
    else return .leave done.reverse) []

/-- A `try` statement. -/
def tryStmt : Parser Stmt := do
  let _ ← word "try"
  let stmts ← body r
  let finallyBody : Parser (List Stmt) := do
    if ← accept (isWord "finally") then body r else return []
  if ← next? (isWord "finally") then return .tryBlock stmts [] [] (← finallyBody)
  else if ← next? (isWord "except") then
    let hs ← handlers r
    let orelse ← elseBody r
    return .tryBlock stmts hs orelse (← finallyBody)
  else miss

/-- A function definition behind its decorators. -/
def functionDef (decorators : List Expr) : Parser Stmt := do
  let _ ← word "def"
  let name ← identifier
  let _ ← op "("
  let params ← parameters r true
  let _ ← op ")"
  let returns ← if ← accept (isOp "->") then some <$> r.expression else Pure.pure none
  return .functionDef ⟨name, params, decorators, returns⟩ (← body r)

/-- A class definition behind its decorators. -/
def classDef (decorators : List Expr) : Parser Stmt := do
  let _ ← word "class"
  let name ← identifier
  let (bases, keywords) ← if ← accept (isOp "(") then arguments r else Pure.pure ([], [])
  return .classDef ⟨name, bases, keywords, decorators⟩ (← body r)

/-- A decorated definition. -/
def decorated : Parser Stmt := do
  let decorators ← loop (fun ds => do
    if ← accept (isOp "@") then
      let e ← namedExpression r
      let _ ← kind .newline
      return .again (e :: ds)
    else return .leave ds.reverse) []
  if ← next? (isWord "class") then classDef r decorators
  else
    let _ ← accept (isWord "async")
    functionDef r decorators

/-- A statement behind `async`. -/
def asyncStmt : Parser Stmt := do
  advance
  let t ← peek
  if isWord "def" t then functionDef r []
  else if isWord "with" t then withStmt r
  else if isWord "for" t then forStmt r
  else miss

/-- The subject of a `match` statement. -/
def matchSubject : Parser Expr := do
  let start ← here
  let first ← starNamed r
  let (items, comma) ← commaTail startsExpression (starNamed r) first
  if comma then return .sequence (← site start) .tuple items
  else match first with
    | .starred .. => miss
    | _ => return first

/-- One `case` clause. -/
def caseClause : Parser Case := do
  let _ ← word "case"
  let p ← patterns r
  let guard ← if ← accept (isWord "if") then some <$> namedExpression r else Pure.pure none
  return .mk p guard (← body r)

/-- A `match` statement. -/
def matchStmt : Parser Stmt := do
  let _ ← word "match"
  let subject ← matchSubject r
  let _ ← op ":"
  let _ ← kind .newline
  let _ ← kind .indent
  let first ← caseClause r
  let cases ← loop (fun cases => do
    if ← accept (·.kind == .dedent) then return .leave cases.reverse
    else return .again ((← caseClause r) :: cases)) [first]
  return .matchBlock subject cases

/-- A statement; a line of simple statements is several. -/
def statement : Parser (List Stmt) := do
  let t ← peek
  let one (p : Parser Stmt) : Parser (List Stmt) := (fun s => [s]) <$> p
  if isOp "@" t then one (decorated r)
  else match if t.kind == .name then t.text else "" with
    | "def" => one (functionDef r [])
    | "class" => one (classDef r [])
    | "async" => one (asyncStmt r)
    | "if" => one (ifStmt r)
    | "while" => one (whileStmt r)
    | "for" => one (forStmt r)
    | "with" => one (withStmt r)
    | "try" => one (tryStmt r)
    | "match" => orElse (one (matchStmt r)) (simpleStmts r)
    | _ => simpleStmts r

/-- Statements up to a token that ends them, which is read. -/
def statementsUntil (close : TokenKind) : Parser (List Stmt) :=
  loop (fun done => do
    let done := (← statement r) :: done
    if ← accept (·.kind == close) then return .leave done.reverse.flatten
    else return .again done) []

/-- The body of a compound statement: an indented block, or the rest of the line. -/
def block : Parser (List Stmt) := do
  if ← accept (·.kind == .newline) then
    let _ ← kind .indent
    statementsUntil r .dedent
  else simpleStmts r

/-- A whole module. -/
def file : Parser (List Stmt) := do
  if ← next? (·.kind == .finish) then return []
  else statementsUntil r .finish

/-- A single expression list, with nothing but line ends behind it. -/
def lone : Parser Expr := do
  let e ← expressions r
  loop (fun () => do
    if ← accept (·.kind == .newline) then return .again ()
    else
      let _ ← kind .finish
      return .leave e) ()

end Compound

/-- The grammar down to the given depth of nesting. -/
def rules (characters : CharacterNames) : Nat → Rules
  | 0 => ⟨miss, miss, miss, miss, miss, characters⟩
  | n + 1 =>
    { expression := fun l c => expression (rules characters n) l c
      inversion := fun l c => inversion (rules characters n) l c
      factor := fun l c => factor (rules characters n) l c
      pattern := fun l c => pattern (rules characters n) l c
      block := fun l c => block (rules characters n) l c
      characters }

end ContextLint.Source.Grammar
