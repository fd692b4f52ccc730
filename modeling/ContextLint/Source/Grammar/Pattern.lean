import ContextLint.Source.Grammar.Expression

/-!
# Patterns of `case` clauses
-/

namespace ContextLint.Source.Grammar

open Source.Parser

/-- The wildcard. -/
def isWildcard : Token → Bool := isWord "_"

/-- None of the tokens that would turn a name into something else follows. -/
def plainNameEnds : Parser Unit := do
  let t ← peek
  if isOp "." t || isOp "(" t || isOp "=" t then miss else return ()

/-- A name that captures. -/
def captureTarget : Parser String := do
  if ← next? isWildcard then miss
  else
    let name ← identifier
    plainNameEnds
    return name

/-- A number with an optional minus sign. -/
def signedNumber : Parser Expr := do
  let start ← here
  if ← accept (isOp "-") then
    let e ← number
    return .compound (← site start) .unaryOp [e]
  else number

/-- The expression is an imaginary number. -/
def isImaginary : Expr → Bool
  | .constant _ .complex => true
  | .compound _ _ [.constant _ .complex] => true
  | _ => false

/-- A signed number, or a sum of a real and an imaginary one. -/
def numberPattern : Parser Expr := do
  let start ← here
  let first ← signedNumber
  let t ← peek
  if isOp "+" t || isOp "-" t then
    advance
    if isImaginary first then miss
    else
      let second ← number
      if isImaginary second then
        return .binary (← site start) (if t.text == "+" then .add else .sub) first second
      else miss
  else return first

/-- A dotted name behind its first part. -/
def dottedTail (start : Span) (first : Expr) : Parser Expr :=
  loop (fun e => do
    if ← accept (isOp ".") then
      let name ← identifier
      return .again (.attr (← site start) e name)
    else return .leave e) first

/-- A name, dotted or not. -/
def dottedName : Parser Expr := do
  let start ← here
  let name ← identifier
  dottedTail start (.name (← site start) name)

/-- A literal: the expression to compare with, or nothing for a constant singleton. -/
def literalPattern? (r : Rules) : Parser (Option (Option Expr)) := do
  let t ← peek
  if t.kind == .number || isOp "-" t then return some (some (← numberPattern))
  else if t.kind == .string then return some (some (← strings r))
  else if ["None", "True", "False"].any (isWord · t) then
    advance
    return some none
  else return none

/-- A starred pattern, or a plain one. -/
def starPattern (r : Rules) : Parser Pattern := do
  if ← accept (isOp "*") then
    if ← accept isWildcard then return .star none
    else return .star (some (← captureTarget))
  else r.pattern

/-- The pattern is starred. -/
def isStarPattern : Pattern → Bool
  | .star _ => true
  | _ => false

/-- Patterns separated by commas up to the given end, which is not read; also tell whether there was
a comma. -/
def patternList (r : Rules) (ends : Token → Bool) : Parser (List Pattern × Bool) := do
  if ← next? ends then return ([], false)
  else
    let first ← starPattern r
    loop (fun (items, comma) => do
      if ← accept (isOp ",") then
        if ← next? ends then return .leave (items.reverse, true)
        else return .again ((← starPattern r) :: items, true)
      else return .leave (items.reverse, comma)) ([first], false)

/-- One item of a mapping pattern. -/
def mappingItem (r : Rules) : Parser (Expr × Pattern) := do
  let start ← here
  let key ← match ← literalPattern? r with
    | some (some e) => Pure.pure e
    | some none => Expr.constant <$> site start <*> Pure.pure .none
    | none =>
      match ← dottedName with
      | .attr s v n => Pure.pure (Expr.attr s v n)
      | _ => miss
  let _ ← op ":"
  return (key, ← r.pattern)

/-- The rest of a mapping pattern behind its brace. -/
def mappingTail (r : Rules) : Parser Pattern :=
  loop (fun (items : List (Expr × Pattern)) => do
    let finish (rest : Option String) : Pattern :=
      .mapping (items.reverse.map Prod.fst) (items.reverse.map Prod.snd) rest
    if ← accept (isOp "\x7d") then return .leave (finish none)
    else if ← accept (isOp "**") then
      let rest ← captureTarget
      let _ ← accept (isOp ",")
      let _ ← op "\x7d"
      return .leave (finish (some rest))
    else
      let item ← mappingItem r
      if ← accept (isOp ",") then return .again (item :: items)
      else if ← next? (isOp "\x7d") then return .again (item :: items)
      else miss) []

/-- The rest of a class pattern behind its parenthesis. -/
def classTail (r : Rules) (cls : Expr) : Parser Pattern :=
  loop (fun (positional, keyword) => do
    if ← accept (isOp ")") then
      return .leave (.instance cls positional.reverse keyword.reverse)
    else
      let (positional, keyword) ←
        if ← atName "=" then
          advance; advance
          Pure.pure (positional, (← r.pattern) :: keyword)
        else if keyword.isEmpty then Pure.pure ((← r.pattern) :: positional, keyword)
        else miss
      if ← accept (isOp ",") then return .again (positional, keyword)
      else if ← next? (isOp ")") then return .again (positional, keyword)
      else miss) (([], []) : List Pattern × List Pattern)

/-- A pattern that needs no parentheses around it. -/
def closedPattern (r : Rules) : Parser Pattern := do
  match ← literalPattern? r with
  | some (some e) => return .value e
  | some none => return .singleton
  | none =>
    let t ← peek
    if isWildcard t then
      advance
      return .capture none none
    else if t.isIdentifier then
      match ← dottedName with
      | .name s id =>
        if ← accept (isOp "(") then classTail r (.name s id)
        else
          plainNameEnds
          return .capture none (some id)
      | e =>
        if ← accept (isOp "(") then classTail r e
        else
          plainNameEnds
          return .value e
    else if isOp "(" t then
      advance
      let (items, comma) ← patternList r (isOp ")")
      let _ ← op ")"
      match items, comma with
      | [p], false => if isStarPattern p then miss else return p
      | items, _ => return .sequence items
    else if isOp "[" t then
      advance
      let (items, _) ← patternList r (isOp "]")
      let _ ← op "]"
      return .sequence items
    else if isOp "\x7b" t then
      advance
      mappingTail r
    else miss

/-- Alternatives with an optional capture of the whole. -/
def pattern (r : Rules) : Parser Pattern := do
  let first ← closedPattern r
  let items ← loop (fun items => do
    if ← accept (isOp "|") then return .again ((← closedPattern r) :: items)
    else return .leave items.reverse) [first]
  let alternatives : Pattern := match items with
    | [one] => one
    | items => .alternatives items
  if ← accept (isWord "as") then return .capture (some alternatives) (some (← captureTarget))
  else return alternatives

/-- The patterns of a `case` clause; a comma makes them a sequence. -/
def patterns (r : Rules) : Parser Pattern := do
  let (items, comma) ← patternList r (fun t => isOp ":" t || isWord "if" t)
  match items, comma with
  | [p], false => if isStarPattern p then miss else return p
  | [], _ => miss
  | items, _ => return .sequence items

end ContextLint.Source.Grammar
