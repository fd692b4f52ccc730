import ContextLint.Source.Names

/-!
# Traversals of a tree

The expressions inside an expression are listed with the outer one first. The statements of a module
are listed breadth first: all of one depth from left to right, then those one level deeper. The
clauses of `try` and `match` statements count as a level of their own.
-/

namespace ContextLint.Source

namespace Expr

mutual

/-- An expression and all expressions inside it, each before its parts. -/
def nodes : Expr → List Expr
  | constant s v => [constant s v]
  | name s id => [name s id]
  | attr s v n => attr s v n :: nodes v
  | call s func args keywords =>
    call s func args keywords :: nodes func ++ nodesOf args ++ nodesOf keywords
  | walrus s target value => walrus s target value :: nodes value
  | conditional s test body orelse =>
    conditional s test body orelse :: nodes test ++ nodes body ++ nodes orelse
  | lambda s params defaults body => lambda s params defaults body :: nodesOf defaults ++ nodes body
  | comprehension s kind elements generators =>
    comprehension s kind elements generators :: nodesOf elements ++ clauseNodes generators
  | sequence s kind elements => sequence s kind elements :: nodesOf elements
  | starred s value => starred s value :: nodes value
  | binary s op left right => binary s op left right :: nodes left ++ nodes right
  | subscript s value slice => subscript s value slice :: nodes value ++ nodes slice
  | compound s kind parts => compound s kind parts :: nodesOf parts

/-- Several expressions and all expressions inside them. -/
def nodesOf : List Expr → List Expr
  | [] => []
  | e :: rest => nodes e ++ nodesOf rest

/-- The expressions of comprehension clauses. -/
def clauseNodes : List Generator → List Expr
  | [] => []
  | .mk target iter conditions :: rest =>
    nodes target ++ nodes iter ++ nodesOf conditions ++ clauseNodes rest

end

end Expr

namespace Stmt

mutual

/-- A statement and the statements inside it, by depth. -/
def levels : Stmt → List (List Stmt)
  | forLoop target iter body orelse =>
    [forLoop target iter body orelse] :: zipLevels (levelsOf body) (levelsOf orelse)
  | branch test body orelse =>
    [branch test body orelse] :: zipLevels (levelsOf body) (levelsOf orelse)
  | withBlock items body => [withBlock items body] :: levelsOf body
  | tryBlock body handlers orelse finalbody =>
    [tryBlock body handlers orelse finalbody] ::
      zipLevels (levelsOf body) (zipLevels (handlerLevels handlers)
        (zipLevels (levelsOf orelse) (levelsOf finalbody)))
  | matchBlock subject cases => [matchBlock subject cases] :: caseLevels cases
  | functionDef head body => [functionDef head body] :: levelsOf body
  | classDef head body => [classDef head body] :: levelsOf body
  | s => [[s]]

/-- Several statements and the statements inside them, by depth. -/
def levelsOf : List Stmt → List (List Stmt)
  | [] => []
  | s :: rest => zipLevels (levels s) (levelsOf rest)

/-- The statements of `except` clauses, one level below the clauses. -/
def handlerLevels : List Handler → List (List Stmt)
  | [] => []
  | .mk _ _ body :: rest => zipLevels ([] :: levelsOf body) (handlerLevels rest)

/-- The statements of `case` clauses, one level below the clauses. -/
def caseLevels : List Case → List (List Stmt)
  | [] => []
  | .mk _ _ body :: rest => zipLevels ([] :: levelsOf body) (caseLevels rest)

end

/-- A statement and the statements inside it, breadth first. -/
def breadthFirst (s : Stmt) : List Stmt := s.levels.flatten

end Stmt

namespace Module

/-- All statements of a module, breadth first. -/
def breadthFirst (m : Module) : List Stmt := (Stmt.levelsOf m.body).flatten

/-- All expressions of a module, the outer one first. -/
def nodes (m : Module) : List Expr := Expr.nodesOf (m.body.flatMap Stmt.expressions)

end Module

end ContextLint.Source
