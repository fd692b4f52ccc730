import ContextLint.Source.Stmt

/-!
# Numbers of expressions

The expressions of a module are numbered one after the other from zero on, each before its
parts, in the order in which a traversal of the module lists them.
-/

namespace ContextLint.Source

/-- Give a site the next number. -/
def Site.number (s : Site) : StateM Nat Site := fun next => ({ s with id := next }, next + 1)

namespace Expr

mutual

/-- Number an expression and all expressions inside it. -/
def number : Expr → StateM Nat Expr
  | constant s v => return constant (← s.number) v
  | name s id => return name (← s.number) id
  | attr s value n => return attr (← s.number) (← number value) n
  | call s func args keywords =>
    return call (← s.number) (← number func) (← numberAll args) (← numberAll keywords)
  | walrus s target value => return walrus (← s.number) target (← number value)
  | conditional s test body orelse =>
    return conditional (← s.number) (← number test) (← number body) (← number orelse)
  | lambda s params defaults body =>
    return lambda (← s.number) params (← numberAll defaults) (← number body)
  | comprehension s kind elements generators =>
    return comprehension (← s.number) kind (← numberAll elements) (← numberClauses generators)
  | sequence s kind elements => return sequence (← s.number) kind (← numberAll elements)
  | starred s value => return starred (← s.number) (← number value)
  | binary s op left right => return binary (← s.number) op (← number left) (← number right)
  | subscript s value slice => return subscript (← s.number) (← number value) (← number slice)
  | compound s kind parts => return compound (← s.number) kind (← numberAll parts)

/-- Number several expressions. -/
def numberAll : List Expr → StateM Nat (List Expr)
  | [] => return []
  | e :: rest => return (← number e) :: (← numberAll rest)

/-- Number the expressions of comprehension clauses. -/
def numberClauses : List Generator → StateM Nat (List Generator)
  | [] => return []
  | .mk target iter conditions :: rest => do
    let clause : Generator :=
      .mk (← number target) (← number iter) (← numberAll conditions)
    return clause :: (← numberClauses rest)

end

/-- Number an expression if there is one. -/
def numberOption : Option Expr → StateM Nat (Option Expr)
  | none => return none
  | some e => return some (← number e)

end Expr

/-- Number the annotation of a parameter. -/
def Param.number (p : Param) : StateM Nat Param :=
  return { p with hint := ← Expr.numberOption p.hint }

/-- Number the annotations and defaults of a parameter list. -/
def Parameters.number (p : Parameters) : StateM Nat Parameters :=
  return {
    posOnly := ← p.posOnly.mapM Param.number
    regular := ← p.regular.mapM Param.number
    vararg := ← p.vararg.mapM Param.number
    kwOnly := ← p.kwOnly.mapM Param.number
    kwDefaults := ← p.kwDefaults.mapM Expr.numberOption
    kwarg := ← p.kwarg.mapM Param.number
    defaults := ← Expr.numberAll p.defaults }

namespace Pattern

mutual

/-- Number the expressions of a pattern. -/
def number : Pattern → StateM Nat Pattern
  | value e => return value (← e.number)
  | singleton => return singleton
  | sequence items => return sequence (← numberAll items)
  | mapping keys items rest => return mapping (← Expr.numberAll keys) (← numberAll items) rest
  | .instance cls positional keyword =>
    return .instance (← cls.number) (← numberAll positional) (← numberAll keyword)
  | star name => return star name
  | capture none name => return capture none name
  | capture (some pattern) name => return capture (some (← number pattern)) name
  | alternatives items => return alternatives (← numberAll items)

/-- Number the expressions of several patterns. -/
def numberAll : List Pattern → StateM Nat (List Pattern)
  | [] => return []
  | p :: rest => return (← number p) :: (← numberAll rest)

end

end Pattern

/-- Number the expressions of an item. -/
def WithItem.number (i : WithItem) : StateM Nat WithItem :=
  return ⟨← i.context.number, ← Expr.numberOption i.target⟩

namespace Stmt

open Source.Expr (numberOption)

mutual

/-- Number the expressions of a statement and of the statements inside it. -/
def number : Stmt → StateM Nat Stmt
  | assign targets rhs => return assign (← Expr.numberAll targets) (← rhs.number)
  | annAssign target hint rhs =>
    return annAssign (← target.number) (← hint.number) (← numberOption rhs)
  | augAssign target rhs => return augAssign (← target.number) (← rhs.number)
  | forLoop target iter body orelse =>
    return forLoop (← target.number) (← iter.number) (← numberAll body) (← numberAll orelse)
  | branch test body orelse =>
    return branch (← test.number) (← numberAll body) (← numberAll orelse)
  | withBlock items body => return withBlock (← items.mapM WithItem.number) (← numberAll body)
  | tryBlock body handlers orelse finalbody =>
    return tryBlock (← numberAll body) (← numberHandlers handlers) (← numberAll orelse)
      (← numberAll finalbody)
  | matchBlock subject cases => return matchBlock (← subject.number) (← numberCases cases)
  | functionDef head body => do
    let params ← head.params.number
    let body ← numberAll body
    let decorators ← Expr.numberAll head.decorators
    return functionDef { head with params, decorators, returns := ← numberOption head.returns } body
  | classDef head body => do
    let bases ← Expr.numberAll head.bases
    let keywords ← Expr.numberAll head.keywords
    let body ← numberAll body
    return classDef { head with bases, keywords, decorators := ← Expr.numberAll head.decorators } body
  | delete targets => return delete (← Expr.numberAll targets)
  | imports stmt => return imports stmt
  | value e => return value (← numberOption e)
  | raise exc cause => return raise (← numberOption exc) (← numberOption cause)
  | assert test msg => return assert (← test.number) (← numberOption msg)
  | inert => return inert

/-- Number the expressions of several statements. -/
def numberAll : List Stmt → StateM Nat (List Stmt)
  | [] => return []
  | s :: rest => return (← number s) :: (← numberAll rest)

/-- Number the expressions of `except` clauses. -/
def numberHandlers : List Handler → StateM Nat (List Handler)
  | [] => return []
  | .mk type name body :: rest => do
    let handler : Handler := .mk (← numberOption type) name (← numberAll body)
    return handler :: (← numberHandlers rest)

/-- Number the expressions of `case` clauses. -/
def numberCases : List Case → StateM Nat (List Case)
  | [] => return []
  | .mk pattern guard body :: rest => do
    let clause : Case := .mk (← pattern.number) (← numberOption guard) (← numberAll body)
    return clause :: (← numberCases rest)

end

end Stmt

/-- Number the expressions of a module. -/
def Module.number (m : Module) : Module := { m with body := (Stmt.numberAll m.body 0).1 }

end ContextLint.Source
