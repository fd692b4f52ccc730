import ContextLint.Scope.Walk
import ContextLint.Typing.Evaluate

/-!
# Types of a module

The types of a module are found in two walks. The first stays at the top level and yields the final
environment of the module; the second also goes into functions and classes, whose bodies see that
final environment. A function inside a function sees the environment at its definition.
-/

namespace ContextLint.Typing

open Source Scope

/-- State of a walk: the kind of scope and the facts found. -/
structure Progress extends Facts where
  /-- The kind of scope being walked. -/
  frame : Frame
  deriving Inhabited

namespace Resolver

variable (r : Resolver)

/-- Give parameters the types of their annotations. -/
def annotateParams : List Param → Env → Except AnnotationError Env
  | [], env => .ok env
  | p :: rest, env => do
    match ← r.decls.names.resolve? p.hint with
    | some ref => annotateParams rest (env.set p.name (some ref))
    | none => annotateParams rest env

/-- Type of the receiver of a method of the named class, by the method's decorators. -/
def receiverType? (owner : String) (decorators : List Expr) : Option TypeRef :=
  let names := decorators.map dottedName?
  if names.contains (some "staticmethod") then none
  else if names.contains (some "classmethod") then some ⟨owner, .cls, false⟩
  else some (instanceOf owner)

/-- Bind the receiver of a method that is not annotated. -/
def bindReceiver (frame : Frame) (head : FunctionHead) (env : Env) : Env :=
  match frame, head.params.positional with
  | .cls owner, ⟨name, none⟩ :: _ =>
    match receiverType? owner head.decorators with
    | some ref => env.set name (some ref)
    | none => env
  | _, _ => env

/-- Environment in which a function body starts. -/
def bodyEnv (head : FunctionHead) (s : Progress) : Except AnnotationError Env := do
  let env := forget head.params.names (r.startEnv ⟨s.frame, none⟩ s.env)
  let env ← r.annotateParams (head.params.positional ++ head.params.kwOnly) env
  return bindReceiver s.frame head env

/-- Bind what an import statement names. -/
def bindImports (source : Option ImportSource) : List ImportAlias → Env → Env
  | [], env => env
  | a :: rest, env =>
    let env :=
      if a.name = "*" then env
      else match importMeaning source a with
        | some (name, qualname) => env.set name (r.decls.lookup? qualname)
        | none => env.set (a.asName.getD a.name) none
    bindImports source rest env

/-- Type of an assigned value: that of the annotation if it has a meaning, else that of the value.
-/
def assignedType (s : Facts) (value hint : Option Expr) :
    Except AnnotationError (Option TypeRef) := do
  let declared ← r.decls.names.resolve? hint
  return declared.or (value.bind s.typeOf?)

/-- Bind a name in a walk. -/
def assignIn (s : Progress) (name : String) (ref : Option TypeRef) : Progress :=
  { s with toFacts := s.toFacts.assign name ref }

/-- The walk that types a scope. -/
def hooks : Hooks (Except AnnotationError) Progress where
  visit e s := do
    let (_, facts) ← r.eval ⟨s.frame, none⟩ e s.toFacts
    return { s with toFacts := facts }
  bind name value hint s := do return assignIn s name (← r.assignedType s.toFacts value hint)
  unbind name s := return assignIn s name none
  bindElement name value s := return assignIn s name (s.typeOf? value)
  onImport stmt s := return { s with env := r.bindImports stmt.source stmt.names s.env }
  define name s :=
    return assignIn s name (r.decls.lookup? (r.decls.names.moduleName ++ "." ++ name))
  openFunction head s := do
    if r.descend then return some { s with env := ← r.bodyEnv head s, frame := .func }
    else return none
  closeFunction _ outer inner := return { outer with types := inner.types }
  openClass head s :=
    return if r.descend then
      some { s with frame := .cls (r.decls.names.moduleName ++ "." ++ head.name) }
    else none
  closeClass _ outer inner := return { outer with types := inner.types }

/-- Walk the top level of a module with the types already known. -/
def walkModule (m : Module) (types : TypeTable) : Except AnnotationError Progress :=
  walkBody r.hooks m.body { types, env := [], frame := .module }

end Resolver

/-- What is known of a module. -/
structure TypeInfo where
  /-- Its declarations. -/
  decls : Declarations
  /-- Types of its expressions. -/
  types : TypeTable
  deriving Inhabited

namespace TypeInfo

/-- Find the types of a module. -/
def ofModule (m : Module) (moduleName : String) (library : Library) :
    Except AnnotationError TypeInfo := do
  let decls ← Declarations.ofModule m moduleName library
  let top ← Resolver.walkModule ⟨decls, [], false⟩ m ∅
  let full ← Resolver.walkModule ⟨decls, top.env, true⟩ m top.types
  return { decls, types := full.types }

variable (t : TypeInfo)

/-- Type of an expression. -/
def typeOf? (e : Expr) : Option TypeRef := t.types[e.id]?

/-- All known classes. -/
def table : ClassTable := t.decls.table

/-- The expression has the named type or one below it. -/
def hasType (e : Expr) (qualname : String) : Bool := t.table.isSubtype (t.typeOf? e) qualname

end TypeInfo

end ContextLint.Typing
