import ContextLint.Source.Expr

/-!
# Statements, patterns and modules

Statements hold expressions and nested statement lists. `pass`, `break`, `continue` and the scope
declarations neither evaluate nor bind anything here and share the constructor `inert`.
-/

namespace ContextLint.Source

/-- A parameter with its optional annotation. -/
structure Param where
  /-- The parameter's name. -/
  name : String
  /-- The annotation, if written. -/
  hint : Option Expr
  deriving Inhabited

/-- The parameter list of a function. -/
structure Parameters where
  /-- Positional-only parameters. -/
  posOnly : List Param := []
  /-- Parameters that may be given by position or by name. -/
  regular : List Param := []
  /-- The parameter that collects further positional arguments. -/
  vararg : Option Param := none
  /-- Keyword-only parameters. -/
  kwOnly : List Param := []
  /-- Defaults of the keyword-only parameters, in their order. -/
  kwDefaults : List (Option Expr) := []
  /-- The parameter that collects further keyword arguments. -/
  kwarg : Option Param := none
  /-- Defaults of the last positional parameters. -/
  defaults : List Expr := []
  deriving Inhabited

/-- Parameters given by position. -/
def Parameters.positional (p : Parameters) : List Param := p.posOnly ++ p.regular

/-- Names in binding order: positional, keyword-only, then the collecting parameters. -/
def Parameters.names (p : Parameters) : List String :=
  (p.positional ++ p.kwOnly ++ p.vararg.toList ++ p.kwarg.toList).map Param.name

/-- Default values in evaluation order: positional, then keyword-only. -/
def Parameters.defaultValues (p : Parameters) : List Expr :=
  p.defaults ++ p.kwDefaults.filterMap (fun d => d)

/-- Everything of a function definition but its body. -/
structure FunctionHead where
  /-- The defined name. -/
  name : String
  /-- The parameter list. -/
  params : Parameters
  /-- Decorators from top to bottom. -/
  decorators : List Expr
  /-- The return annotation, if written. -/
  returns : Option Expr
  deriving Inhabited

/-- Everything of a class definition but its body. -/
structure ClassHead where
  /-- The defined name. -/
  name : String
  /-- Base expressions in order. -/
  bases : List Expr
  /-- Values of the keyword arguments. -/
  keywords : List Expr
  /-- Decorators from top to bottom. -/
  decorators : List Expr
  deriving Inhabited

/-- An imported name and the name it is bound to. -/
structure ImportAlias where
  /-- The imported name, dotted for a module. -/
  name : String
  /-- The name after `as`, if written. -/
  asName : Option String
  deriving DecidableEq, Repr, Inhabited

/-- The part of a dotted name before its first dot. -/
def ImportAlias.root (a : ImportAlias) : String :=
  String.ofList (a.name.toList.takeWhile (· ≠ '.'))

/-- Where the names of a `from` import come from. -/
structure ImportSource where
  /-- The module named behind the dots, if one is named. -/
  module : Option String
  /-- The number of leading dots. -/
  level : Nat
  deriving DecidableEq, Repr, Inhabited

/-- An import statement. -/
structure Import where
  /-- The source of a `from` import; nothing for a plain import of modules. -/
  source : Option ImportSource
  /-- The imported names in order. -/
  names : List ImportAlias
  deriving DecidableEq, Repr, Inhabited

/-- A pattern of a `case` clause. -/
inductive Pattern where
  /-- A literal or dotted name compared by value. -/
  | value (expr : Expr)
  /-- One of the constant singletons. -/
  | singleton
  | sequence (items : List Pattern)
  /-- A mapping with the given keys; `rest` captures the other items. -/
  | mapping (keys : List Expr) (items : List Pattern) (rest : Option String)
  /-- A class pattern with positional and keyword sub-patterns. -/
  | instance (cls : Expr) (positional keyword : List Pattern)
  /-- A starred pattern inside a sequence. -/
  | star (name : Option String)
  /-- A capture, a wildcard, or a pattern with an `as` name. -/
  | capture (pattern : Option Pattern) (name : Option String)
  | alternatives (items : List Pattern)

instance : Inhabited Pattern := ⟨.singleton⟩

/-- One `expr as target` item of a `with` statement. -/
structure WithItem where
  /-- The context expression. -/
  context : Expr
  /-- The bound target, if written. -/
  target : Option Expr
  deriving Inhabited

mutual

/-- A statement. -/
inductive Stmt where
  /-- `target = ... = value`. -/
  | assign (targets : List Expr) (value : Expr)
  /-- `target: annotation = value`. -/
  | annAssign (target hint : Expr) (value : Option Expr)
  /-- `target += value` and its kin. -/
  | augAssign (target value : Expr)
  /-- A `for` loop, plain or asynchronous. -/
  | forLoop (target iter : Expr) (body orelse : List Stmt)
  /-- A `while` loop or an `if` statement. -/
  | branch (test : Expr) (body orelse : List Stmt)
  /-- A `with` statement, plain or asynchronous. -/
  | withBlock (items : List WithItem) (body : List Stmt)
  | tryBlock (body : List Stmt) (handlers : List Handler) (orelse finalbody : List Stmt)
  | matchBlock (subject : Expr) (cases : List Case)
  /-- A function definition, plain or asynchronous. -/
  | functionDef (head : FunctionHead) (body : List Stmt)
  | classDef (head : ClassHead) (body : List Stmt)
  /-- `del targets`. -/
  | delete (targets : List Expr)
  /-- An import of either form. -/
  | imports (stmt : Import)
  /-- `return` or an expression statement. -/
  | value (expr : Option Expr)
  /-- `raise exc from cause`. -/
  | raise (exc cause : Option Expr)
  /-- `assert test, msg`. -/
  | assert (test : Expr) (msg : Option Expr)
  /-- A statement without expressions and bindings. -/
  | inert

/-- An `except` clause. -/
inductive Handler where
  /-- The caught type, the bound name and the body. -/
  | mk (type : Option Expr) (name : Option String) (body : List Stmt)

/-- A `case` clause. -/
inductive Case where
  /-- The pattern, the guard and the body. -/
  | mk (pattern : Pattern) (guard : Option Expr) (body : List Stmt)

end

instance : Inhabited Stmt := ⟨.inert⟩

/-- A parsed module: its top-level statements, and what names of characters mean in its texts. -/
structure Module where
  /-- The statements in source order. -/
  body : List Stmt
  /-- The named characters. -/
  characters : CharacterNames := fun _ => none
  deriving Inhabited

end ContextLint.Source
