import ContextLint.Scope.Walk

/-!
# The events of a walk

A walk that only writes down what is reported to it. Imports, definitions and the names of parallel
assignments show up as plain rebindings, and nested bodies are walked by the same recorder.
-/

namespace ContextLint.Scope

open Source

/-- One report of a walk. -/
inductive Event where
  /-- A top-level expression. -/
  | expr (e : Expr)
  /-- A binding with its value and annotation. -/
  | bind (name : String) (value hint : Option Expr)
  /-- Any other binding. -/
  | unbind (name : String)
  /-- The body of a function starts. -/
  | enterFunction (name : String) (params : List String)
  /-- The body of a class starts. -/
  | enterClass (name : String)
  /-- The body of a function or class ends. -/
  | leave (name : String)

/-- Hooks that add each report to the events so far, the latest first. -/
def recorder : Hooks Id (List Event) where
  visit e s := .expr e :: s
  bind n v a s := .bind n v a :: s
  unbind n s := .unbind n :: s
  bindElement n _ s := .unbind n :: s
  onImport i s := (i.names.filterMap importedName).foldl (fun s n => .unbind n :: s) s
  define n s := .unbind n :: s
  openFunction head s := some (.enterFunction head.name head.params.names :: s)
  closeFunction head _ s := .leave head.name :: s
  openClass head s := some (.enterClass head.name :: s)
  closeClass head _ s := .leave head.name :: s

/-- The events of a walk through a module, in order. -/
def events (m : Module) : List Event := (Id.run (walkBody recorder m.body [])).reverse

end ContextLint.Scope
