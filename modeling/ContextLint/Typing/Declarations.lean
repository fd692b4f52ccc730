import ContextLint.Source.Traverse
import ContextLint.Typing.Annotation
import ContextLint.Typing.ClassTable

/-!
# Declarations of a module

Before any expression is typed, the module's imports, classes and functions are collected. Imports
count wherever they stand; classes likewise, under the module's name followed by their own;
functions count at the top level only. Where a name is declared more than once the last declaration
in breadth first order holds.
-/

namespace ContextLint.Typing

open Source

/-- What a module declares, and the library it is read against. -/
structure Declarations where
  /-- Meaning of names in annotations. -/
  names : NameContext
  /-- The known library. -/
  library : Library
  /-- Classes of the module by qualified name. -/
  classes : NameMap ClassInfo
  /-- Functions of the module by qualified name, with their declared result types. -/
  functions : NameMap (Option TypeRef)
  deriving Inhabited

/-- The declarations of a module that declares nothing. -/
def Declarations.ofLibrary (library : Library) : Declarations where
  names := default
  library := library
  classes := []
  functions := []

/-- What an imported name stands for: the bound name and the qualified name. Names imported relative
to the module and stars stand for nothing. -/
def importMeaning (source : Option ImportSource) (a : ImportAlias) : Option (String × String) :=
  match source with
  | none =>
    match a.asName with
    | some n => some (n, a.name)
    | none => some (a.root, a.root)
  | some ⟨some module, 0⟩ =>
    if a.name = "*" then none else some (a.asName.getD a.name, module ++ "." ++ a.name)
  | some _ => none

/-- The names that the imports among the statements bind. -/
def importAliases (stmts : List Stmt) : NameMap String :=
  stmts.foldl (fun m s =>
    match s with
    | .imports i => m.update (i.names.filterMap (importMeaning i.source))
    | _ => m) []

/-- The names of the classes among the statements. -/
def classNames (stmts : List Stmt) : List String :=
  stmts.filterMap fun
    | .classDef head _ => some head.name
    | _ => none

/-- The names of the functions among the statements. -/
def functionNames (stmts : List Stmt) : List String :=
  stmts.filterMap fun
    | .functionDef head _ => some head.name
    | _ => none

/-- Meaning of names in the annotations of a module. -/
def NameContext.ofModule (m : Module) (moduleName : String) : NameContext where
  aliases := importAliases m.breadthFirst
  localDefs := classNames m.breadthFirst ++ functionNames m.body
  moduleName := moduleName
  characters := m.characters

/-- Set a name to a resolved type, if there is one. -/
def declare (m : NameMap TypeRef) (name : String) : Option TypeRef → NameMap TypeRef
  | some r => m.set name r
  | none => m

/-- Types that the statements declare for attributes of the receiver `self`. -/
def selfAttributes (c : NameContext) (self : String) :
    List Stmt → NameMap TypeRef → Except AnnotationError (NameMap TypeRef)
  | [], found => .ok found
  | .annAssign (.attr _ (.name _ id) attr) hint _ :: rest, found =>
    if id = self then do selfAttributes c self rest (declare found attr (← c.resolve hint))
    else selfAttributes c self rest found
  | _ :: rest, found => selfAttributes c self rest found

/-- Types that a method declares for attributes of its receiver, which is the first parameter that
is not positional-only. -/
def methodAttributes (c : NameContext) (head : FunctionHead) (body : List Stmt) :
    Except AnnotationError (NameMap TypeRef) :=
  match head.params.regular with
  | [] => .ok []
  | self :: _ => selfAttributes c self.name (Stmt.breadthFirst (.functionDef head body)) []

/-- Add what the statements of a class body declare. -/
def classMembers (c : NameContext) : List Stmt → ClassInfo → Except AnnotationError ClassInfo
  | [], info => .ok info
  | .functionDef head body :: rest, info => do
    let result ← c.resolve? head.returns
    let attributes ← methodAttributes c head body
    classMembers c rest { info with
      methods := info.methods ++ [head.name]
      returns := declare info.returns head.name result
      attributes := info.attributes.update attributes }
  | .annAssign (.name _ id) hint _ :: rest, info => do
    let type ← c.resolve hint
    classMembers c rest { info with attributes := declare info.attributes id type }
  | _ :: rest, info => classMembers c rest info

/-- What a class statement declares. -/
def classInfo (c : NameContext) (head : ClassHead) (body : List Stmt) :
    Except AnnotationError ClassInfo :=
  classMembers c body
    { qualname := c.moduleName ++ "." ++ head.name
      bases := (head.bases.filterMap dottedName?).map c.qualify }

/-- Collect the classes among the statements. -/
def collectClasses (c : NameContext) :
    List Stmt → NameMap ClassInfo → Except AnnotationError (NameMap ClassInfo)
  | [], found => .ok found
  | .classDef head body :: rest, found => do
    let info ← classInfo c head body
    collectClasses c rest (found.set info.qualname info)
  | _ :: rest, found => collectClasses c rest found

/-- Collect the functions among the statements. -/
def collectFunctions (c : NameContext) :
    List Stmt → NameMap (Option TypeRef) → Except AnnotationError (NameMap (Option TypeRef))
  | [], found => .ok found
  | .functionDef head _ :: rest, found => do
    let result ← c.resolve? head.returns
    collectFunctions c rest (found.set (c.moduleName ++ "." ++ head.name) result)
  | _ :: rest, found => collectFunctions c rest found

namespace Declarations

/-- Collect the declarations of a module. -/
def ofModule (m : Module) (moduleName : String) (library : Library) :
    Except AnnotationError Declarations := do
  let names := NameContext.ofModule m moduleName
  let classes ← collectClasses names m.breadthFirst []
  let functions ← collectFunctions names m.body []
  return { names, library, classes, functions }

variable (d : Declarations)

/-- All known classes. -/
def table : ClassTable := ⟨d.classes, d.library.classes⟩

/-- Declared result type of a function. -/
def functionReturn? (qualname : String) : Option TypeRef :=
  match d.functions.get? qualname with
  | some result => result
  | none => (d.library.functions.get? qualname).join

/-- The name is that of a function. -/
def isFunction (qualname : String) : Bool :=
  d.functions.has qualname || d.library.functions.has qualname

/-- The module of typing forms. -/
def typingModule : String := "typing"

/-- The function that gives a value an annotated type. -/
def castFunction : String := "typing.cast"

/-- What a qualified name stands for. -/
def lookup? (qualname : String) : Option TypeRef :=
  if qualname = castFunction then some ⟨castFunction, .func, false⟩
  else if qualname = typingModule || d.library.isModule qualname then
    some ⟨qualname, .module, false⟩
  else if (d.table.get? qualname).isSome then some ⟨qualname, .cls, false⟩
  else if d.isFunction qualname then some ⟨qualname, .func, false⟩
  else d.library.globals.get? qualname

/-- What a name stands for that is bound nowhere in sight. -/
def nameType? (name : String) : Option TypeRef :=
  if d.names.localDefs.contains name then d.lookup? (d.names.moduleName ++ "." ++ name)
  else (d.names.aliases.get? name).bind d.lookup?

/-- Type of an attribute of a value or module of known type. -/
def attributeType? (owner : Option TypeRef) (attr : String) : Option TypeRef :=
  match owner with
  | none => none
  | some r =>
    match r.kind with
    | .module => d.lookup? (r.qualname ++ "." ++ attr)
    | .inst =>
      match d.table.attributeType? r.qualname attr with
      | some t => some t
      | none =>
        if (d.table.methodSet r.qualname).contains attr then
          some ⟨r.qualname ++ "." ++ attr, .method, false⟩
        else none
    | _ => none

/-- The owner and the own name of a method's qualified name. -/
def splitMember (qualname : String) : String × String :=
  let back := qualname.toList.reverse
  (String.ofList ((back.dropWhile (· ≠ '.')).drop 1).reverse,
    String.ofList (back.takeWhile (· ≠ '.')).reverse)

/-- Type of a call of something of known type. -/
def callType (func : Option TypeRef) (args : List Expr) : Except AnnotationError (Option TypeRef) :=
  match func with
  | none => .ok none
  | some r =>
    match r.kind with
    | .func =>
      if r.qualname = castFunction then d.names.resolve? args.head?
      else .ok (d.functionReturn? r.qualname)
    | .cls => .ok (some (instanceOf r.qualname))
    | .method =>
      let (owner, method) := splitMember r.qualname
      .ok (d.table.methodReturn? owner method)
    | _ => .ok none

end Declarations

end ContextLint.Typing
