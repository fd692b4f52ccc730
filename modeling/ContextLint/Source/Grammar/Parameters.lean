import ContextLint.Source.Grammar.Expression

/-!
# Parameter lists, lambdas and full expressions

Parameters come in a fixed order: positional-only ones before a slash, then others, then a star with
or without a name, keyword-only ones, and a double star with a name. Before the star no parameter
without default follows one with a default, and a bare star needs a keyword-only parameter behind
it.
-/

namespace ContextLint.Source.Grammar

open Source.Parser

/-- A parameter list read so far; lists are in reverse. -/
structure ParamState where
  /-- The parameters before the slash. -/
  posOnly : List Param := []
  /-- The slash has been read. -/
  slash : Bool := false
  /-- The other positional parameters. -/
  regular : List Param := []
  /-- Defaults of positional parameters. -/
  defaults : List Expr := []
  /-- The star has been read. -/
  star : Bool := false
  /-- The parameter behind the star. -/
  vararg : Option Param := none
  /-- Keyword-only parameters. -/
  kwOnly : List Param := []
  /-- Their defaults. -/
  kwDefaults : List (Option Expr) := []
  /-- The parameter behind the double star. -/
  kwarg : Option Param := none

/-- The finished parameter list. -/
def ParamState.toParameters (s : ParamState) : Parameters where
  posOnly := s.posOnly.reverse
  regular := s.regular.reverse
  vararg := s.vararg
  kwOnly := s.kwOnly.reverse
  kwDefaults := s.kwDefaults.reverse
  kwarg := s.kwarg
  defaults := s.defaults.reverse

section Lists

variable (r : Rules) (annotated : Bool)

/-- A parameter name with its annotation, if annotations are allowed here. -/
def param (hint : Parser Expr) : Parser Param := do
  let name ← identifier
  if ← (if annotated then accept (isOp ":") else Pure.pure false) then
    return ⟨name, some (← hint)⟩
  else return ⟨name, none⟩

/-- The token that ends a parameter list. -/
def paramsEnd : Token → Bool := isOp (if annotated then ")" else ":")

/-- A comma, or the end of the list, which is not read. -/
def paramSeparator : Parser Unit := do
  if ← accept (isOp ",") then return ()
  else if ← next? (paramsEnd annotated) then return ()
  else miss

/-- Read one parameter or one of the marks between parameters. -/
def paramRound (s : ParamState) : Parser ParamState := do
  let t ← peek
  if isOp "/" t then
    if s.slash || s.star || s.regular.isEmpty then miss
    else
      advance
      paramSeparator annotated
      return { s with slash := true, posOnly := s.regular, regular := [] }
  else if isOp "*" t then
    if s.star then miss
    else
      advance
      if ← accept (isOp ",") then
        if (← peek).isIdentifier then return { s with star := true } else miss
      else
        let p ← param annotated (starExpression r)
        paramSeparator annotated
        return { s with star := true, vararg := some p }
  else if isOp "**" t then
    advance
    let p ← param annotated r.expression
    paramSeparator annotated
    if ← next? (paramsEnd annotated) then return { s with kwarg := some p } else miss
  else
    let p ← param annotated r.expression
    let default ← if ← accept (isOp "=") then some <$> r.expression else Pure.pure none
    paramSeparator annotated
    if s.star then
      return { s with kwOnly := p :: s.kwOnly, kwDefaults := default :: s.kwDefaults }
    else match default with
      | some e => return { s with regular := p :: s.regular, defaults := e :: s.defaults }
      | none =>
        if s.defaults.isEmpty then return { s with regular := p :: s.regular } else miss

/-- A parameter list up to its end, which is not read. -/
def parameters : Parser Parameters :=
  loop (fun s => do
    if ← next? (paramsEnd annotated) then return .leave s.toParameters
    else return .again (← paramRound r annotated s)) {}

end Lists

/-- An anonymous function. -/
def lambda (r : Rules) : Parser Expr := do
  let start ← here
  let _ ← word "lambda"
  let params ← parameters r false
  let _ ← op ":"
  let body ← r.expression
  return .lambda (← site start) params.names params.defaultValues body

/-- A full expression: a lambda, or an operand with an optional condition. -/
def expression (r : Rules) : Parser Expr := do
  let start ← here
  if ← next? (isWord "lambda") then lambda r
  else
    let body ← disjunction r
    if ← accept (isWord "if") then
      let test ← disjunction r
      let _ ← word "else"
      let orelse ← r.expression
      return .conditional (← site start) test body orelse
    else return body

end ContextLint.Source.Grammar
