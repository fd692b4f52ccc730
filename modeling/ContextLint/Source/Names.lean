import ContextLint.Source.Stmt

/-!
# Names that a tree binds

Targets, patterns and assignment expressions bind names. Each list below fixes an order: targets
from left to right, patterns level by level from the outside in, and assignment expressions from the
last to complete to the first.
-/

namespace ContextLint.Source

namespace Expr

mutual

/-- Names bound by a target, from left to right; attributes and subscripts bind none. -/
def targetNames : Expr → List String
  | name _ id => [id]
  | sequence _ _ elements => targetNamesOf elements
  | starred _ value => targetNames value
  | _ => []

/-- Names bound by several targets. -/
def targetNamesOf : List Expr → List String
  | [] => []
  | e :: rest => targetNames e ++ targetNamesOf rest

end

mutual

/-- Targets of the assignment expressions outside any nested lambda, in the order in which they
complete. -/
def assignedNames : Expr → List String
  | constant .. | name .. | lambda .. => []
  | attr _ value _ => assignedNames value
  | call _ func args keywords =>
    assignedNames func ++ assignedNamesOf args ++ assignedNamesOf keywords
  | walrus _ target value => assignedNames value ++ [target]
  | conditional _ test body orelse =>
    assignedNames test ++ assignedNames body ++ assignedNames orelse
  | comprehension _ _ elements generators =>
    assignedNamesOf elements ++ generatorNames generators
  | sequence _ _ elements => assignedNamesOf elements
  | starred _ value => assignedNames value
  | binary _ _ left right => assignedNames left ++ assignedNames right
  | subscript _ value slice => assignedNames value ++ assignedNames slice
  | compound _ _ parts => assignedNamesOf parts

/-- Targets of the assignment expressions of several expressions. -/
def assignedNamesOf : List Expr → List String
  | [] => []
  | e :: rest => assignedNames e ++ assignedNamesOf rest

/-- Targets of the assignment expressions of comprehension clauses. -/
def generatorNames : List Generator → List String
  | [] => []
  | .mk target iter conditions :: rest =>
    assignedNames target ++ assignedNames iter ++ assignedNamesOf conditions ++
      generatorNames rest

end

/-- Targets of the assignment expressions of an expression, the last to complete first. Inside a
comprehension these bind in the enclosing scope. -/
def walrusNames (e : Expr) : List String := e.assignedNames.reverse

end Expr

/-- Join two lists of levels level by level. -/
def zipLevels {α : Type} : List (List α) → List (List α) → List (List α)
  | [], ys => ys
  | xs, [] => xs
  | x :: xs, y :: ys => (x ++ y) :: zipLevels xs ys

namespace Pattern

mutual

/-- Names captured by a pattern, by depth. -/
def levels : Pattern → List (List String)
  | value _ | singleton => [[]]
  | sequence items => [] :: levelsOf items
  | mapping _ items rest => rest.toList :: levelsOf items
  | .instance _ positional keyword => [] :: zipLevels (levelsOf positional) (levelsOf keyword)
  | star name => [name.toList]
  | capture none name => [name.toList]
  | capture (some pattern) name => name.toList :: levels pattern
  | alternatives items => [] :: levelsOf items

/-- Names captured by several patterns, by depth. -/
def levelsOf : List Pattern → List (List String)
  | [] => []
  | p :: rest => zipLevels (levels p) (levelsOf rest)

end

/-- Names captured by a pattern, level by level from the outside in. -/
def names (p : Pattern) : List String := p.levels.flatten

mutual

/-- Expressions of a pattern in order. -/
def expressions : Pattern → List Expr
  | value e => [e]
  | singleton | star _ | capture none _ => []
  | sequence items | alternatives items => expressionsOf items
  | mapping keys items _ => keys ++ expressionsOf items
  | .instance cls positional keyword => cls :: expressionsOf positional ++ expressionsOf keyword
  | capture (some pattern) _ => expressions pattern

/-- Expressions of several patterns. -/
def expressionsOf : List Pattern → List Expr
  | [] => []
  | p :: rest => expressions p ++ expressionsOf rest

end

end Pattern

/-- Annotations and defaults of a parameter list, in the order of its parts. -/
def Parameters.expressions (p : Parameters) : List Expr :=
  p.posOnly.filterMap Param.hint ++ p.regular.filterMap Param.hint ++
    p.vararg.toList.filterMap Param.hint ++ p.kwOnly.filterMap Param.hint ++
    p.kwDefaults.filterMap (fun d => d) ++ p.kwarg.toList.filterMap Param.hint ++ p.defaults

namespace Stmt

mutual

/-- All expressions of a statement and the statements inside it, in the order of its parts. -/
def expressions : Stmt → List Expr
  | assign targets rhs => targets ++ [rhs]
  | annAssign target hint rhs => target :: hint :: rhs.toList
  | augAssign target rhs => [target, rhs]
  | forLoop target iter body orelse => target :: iter :: expressionsOf body ++ expressionsOf orelse
  | branch test body orelse => test :: expressionsOf body ++ expressionsOf orelse
  | withBlock items body =>
    items.flatMap (fun i => i.context :: i.target.toList) ++ expressionsOf body
  | tryBlock body handlers orelse finalbody =>
    expressionsOf body ++ handlerExpressions handlers ++ expressionsOf orelse ++
      expressionsOf finalbody
  | matchBlock subject cases => subject :: caseExpressions cases
  | functionDef head body =>
    head.params.expressions ++ expressionsOf body ++ head.decorators ++ head.returns.toList
  | classDef head body => head.bases ++ head.keywords ++ expressionsOf body ++ head.decorators
  | delete targets => targets
  | imports _ | inert => []
  | value e => e.toList
  | raise exc cause => exc.toList ++ cause.toList
  | .assert test msg => test :: msg.toList

/-- All expressions of several statements. -/
def expressionsOf : List Stmt → List Expr
  | [] => []
  | s :: rest => expressions s ++ expressionsOf rest

/-- All expressions of `except` clauses. -/
def handlerExpressions : List Handler → List Expr
  | [] => []
  | .mk type _ body :: rest => type.toList ++ expressionsOf body ++ handlerExpressions rest

/-- All expressions of `case` clauses. -/
def caseExpressions : List Case → List Expr
  | [] => []
  | .mk pattern guard body :: rest =>
    pattern.expressions ++ guard.toList ++ expressionsOf body ++ caseExpressions rest

end

/-- Targets of the assignment expressions anywhere in a statement, the last to complete first. -/
def walrusNames (s : Stmt) : List String := (Expr.assignedNamesOf s.expressions).reverse

end Stmt

end ContextLint.Source
