import Std.Data.TreeMap
import ContextLint.Typing.Declarations

/-!
# Types of expressions

An expression is typed in an environment of names; its type and those of its parts are recorded
under the expressions' numbers. Assignment expressions change the environment. A comprehension is
typed in a copy of it and passes on only what its assignment expressions bind. A lambda body is
typed in an environment of its own, taken from the scope around it and not from a comprehension in
between.
-/

namespace ContextLint.Typing

open Source

/-- Types of bound names; a name may be bound without a known type. -/
abbrev Env := NameMap (Option TypeRef)

/-- Types of expressions by number. -/
abbrev TypeTable := Std.TreeMap Nat TypeRef

/-- What has been found out so far. -/
structure Facts where
  /-- Types of expressions. -/
  types : TypeTable
  /-- Types of names. -/
  env : Env
  deriving Inhabited

/-- Record the type of an expression, if it has one. -/
def Facts.record (s : Facts) (id : Nat) : Option TypeRef → Facts
  | some r => { s with types := s.types.insert id r }
  | none => s

/-- Bind a name. -/
def Facts.assign (s : Facts) (name : String) (ref : Option TypeRef) : Facts :=
  { s with env := s.env.set name ref }

/-- Type of an expression that has been typed. -/
def Facts.typeOf? (s : Facts) (e : Expr) : Option TypeRef := s.types[e.id]?

/-- The kind of scope that an expression stands in. -/
inductive Frame where
  | module
  /-- The body of the named class. -/
  | cls (qualname : String)
  | func
  deriving DecidableEq, Repr, Inhabited

/-- Functions defined here see the module's final environment instead of the one around them. -/
def Frame.opensOnGlobals : Frame → Bool
  | module | cls _ => true
  | func => false

/-- Where an expression stands. -/
structure Place where
  /-- The kind of scope. -/
  frame : Frame
  /-- Inside a comprehension, the environment of the scope around it. -/
  scope : Option Env := none
  deriving Inhabited

/-- How to type the expressions of a module. -/
structure Resolver where
  /-- What the module declares. -/
  decls : Declarations
  /-- The module's final environment. -/
  globals : Env
  /-- Go into functions and classes. -/
  descend : Bool
  deriving Inhabited

namespace Resolver

variable (r : Resolver)

/-- Environment in which a function defined at a place starts. -/
def startEnv (p : Place) (env : Env) : Env :=
  if p.frame.opensOnGlobals then r.globals else p.scope.getD env

/-- Bind names without a type. -/
def forget (names : List String) (env : Env) : Env :=
  names.foldl (fun env n => env.set n none) env

/-- Pass on what the names are bound to inside. -/
def adopt (names : List String) (inner env : Env) : Env :=
  names.foldl (fun env n => env.set n (inner.get? n).join) env

/-- Record a type and pass it on. -/
def done (s : Facts) (site : Site) (ref : Option TypeRef) : Option TypeRef × Facts :=
  (ref, s.record site.id ref)

mutual

/-- Type an expression and its parts. -/
def eval (p : Place) : Expr → Facts → Except AnnotationError (Option TypeRef × Facts)
  | .constant site value, s => .ok (done s site (some (builtin value.typeName)))
  | .name site id, s =>
    match s.env.get? id with
    | some ref => .ok (done s site ref)
    | none => .ok (done s site (r.decls.nameType? id))
  | .attr site value name, s => do
    let (owner, s) ← eval p value s
    return done s site (r.decls.attributeType? owner name)
  | .call site func args keywords, s => do
    let (ref, s) ← eval p func s
    let s ← evalAll p args s
    let s ← evalAll p keywords s
    return done s site (← r.decls.callType ref args)
  | .walrus site target value, s => do
    let (ref, s) ← eval p value s
    return done (s.assign target ref) site ref
  | .conditional site test body orelse, s => do
    let (_, s) ← eval p test s
    let (b, s) ← eval p body s
    let (o, s) ← eval p orelse s
    return done s site (if b = o then b else none)
  | .lambda _ params _ body, s =>
    if r.descend then do
      let env := forget params (r.startEnv p s.env)
      let (_, inner) ← eval ⟨.func, none⟩ body { s with env }
      return (none, { s with types := inner.types })
    else return (none, s)
  | .comprehension site kind elements generators, s => do
    let inside : Place := { p with scope := some (p.scope.getD s.env) }
    let inner ← evalClauses inside generators s
    let inner ← evalAll inside elements inner
    let names := (Expr.comprehension site kind elements generators).walrusNames
    return (none, { types := inner.types, env := adopt names inner.env s.env })
  | .sequence _ _ elements, s => return (none, ← evalAll p elements s)
  | .starred _ value, s => return (none, (← eval p value s).2)
  | .binary _ _ left right, s => do
    let (_, s) ← eval p left s
    return (none, (← eval p right s).2)
  | .subscript _ value slice, s => do
    let (_, s) ← eval p value s
    return (none, (← eval p slice s).2)
  | .compound _ _ parts, s => return (none, ← evalAll p parts s)

/-- Type expressions in order. -/
def evalAll (p : Place) : List Expr → Facts → Except AnnotationError Facts
  | [], s => .ok s
  | e :: rest, s => do
    let (_, s) ← eval p e s
    evalAll p rest s

/-- Type the clauses of a comprehension; each hides the names of its target. -/
def evalClauses (p : Place) : List Generator → Facts → Except AnnotationError Facts
  | [], s => .ok s
  | .mk target iter conditions :: rest, s => do
    let (_, s) ← eval p iter s
    let s := { s with env := forget target.targetNames s.env }
    let s ← evalAll p conditions s
    evalClauses p rest s

end

end Resolver

end ContextLint.Typing
