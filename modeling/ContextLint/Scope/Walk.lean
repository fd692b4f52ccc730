import ContextLint.Source.Names

/-!
# Walking a scope in document order

A walk passes through the statements of one lexical scope in source order and reports every
top-level expression and every binding to its hooks. Branches and loop bodies are walked in lexical
order; no control flow is followed. At a nested function or class the hooks decide whether to go
inside, with which state, and which state follows from those before it and inside.
-/

namespace ContextLint.Scope

open Source

/-- What a walk reports, acting on a state `σ` in a monad `m`. -/
structure Hooks (m : Type → Type) (σ : Type) where
  /-- A top-level expression of a statement. -/
  visit : Expr → σ → m σ
  /-- A binding of one name: its value and its annotation, as far as written. -/
  bind : String → Option Expr → Option Expr → σ → m σ
  /-- Any other binding of a name. -/
  unbind : String → σ → m σ
  /-- One name of a parallel assignment with its value. -/
  bindElement : String → Expr → σ → m σ
  /-- An import statement. -/
  onImport : Import → σ → m σ
  /-- A definition binds its name. -/
  define : String → σ → m σ
  /-- State for the body of a nested function, or nothing to pass it over. -/
  openFunction : FunctionHead → σ → m (Option σ)
  /-- State behind a nested function, from those before and behind its body. -/
  closeFunction : FunctionHead → σ → σ → m σ
  /-- State for the body of a class, or nothing to pass it over. -/
  openClass : ClassHead → σ → m (Option σ)
  /-- State behind a class, from those before and behind its body. -/
  closeClass : ClassHead → σ → σ → m σ

/-- Name bound by one imported name; a star binds none. -/
def importedName (a : ImportAlias) : Option String :=
  if a.name = "*" then none else some (a.asName.getD a.root)

section

variable {m : Type → Type} [Monad m] {σ : Type} (h : Hooks m σ)

/-- Report expressions in order. -/
def visitAll : List Expr → σ → m σ
  | [], s => pure s
  | e :: rest, s => do visitAll rest (← h.visit e s)

/-- Report rebindings in order. -/
def unbindAll : List String → σ → m σ
  | [], s => pure s
  | n :: rest, s => do unbindAll rest (← h.unbind n s)

mutual

/-- Report the names a target binds; an attribute or subscript is an expression to visit. -/
def unbindTarget : Expr → σ → m σ
  | .name _ id, s => h.unbind id s
  | .sequence _ _ elements, s => unbindTargets elements s
  | .starred _ value, s => unbindTarget value s
  | e, s => h.visit e s

/-- Report the names several targets bind. -/
def unbindTargets : List Expr → σ → m σ
  | [], s => pure s
  | e :: rest, s => do unbindTargets rest (← unbindTarget e s)

end

/-- The pairs of a parallel assignment: displays of equal length, plain names on the left and
nothing unpacked on the right. -/
def parallelPairs : Expr → Expr → Option (List (String × Expr))
  | .sequence _ _ targets, .sequence _ _ values => pairUp targets values
  | _, _ => none
where
  /-- Pair names with values. -/
  pairUp : List Expr → List Expr → Option (List (String × Expr))
    | [], [] => some []
    | .name _ id :: ts, v :: vs =>
      match v with
      | .starred .. => none
      | _ => (pairUp ts vs).map ((id, v) :: ·)
    | _, _ => none

/-- Report the pairs of a parallel assignment. -/
def bindElements : List (String × Expr) → σ → m σ
  | [], s => pure s
  | (n, e) :: rest, s => do bindElements rest (← h.bindElement n e s)

/-- Report an assignment behind its value. -/
def walkAssign (targets : List Expr) (value : Expr) (s : σ) : m σ :=
  match targets with
  | [.name _ id] => h.bind id (some value) none s
  | [target] =>
    match parallelPairs target value with
    | some pairs => bindElements h pairs s
    | none => unbindTarget h target s
  | _ => unbindTargets h targets s

/-- Report the items of a `with` statement. -/
def walkItems : List WithItem → σ → m σ
  | [], s => pure s
  | item :: rest, s => do
    let s ← h.visit item.context s
    let s ← match item.target with
      | some target => unbindTarget h target s
      | none => pure s
    walkItems rest s

mutual

/-- Walk one statement. -/
def walkStmt : Stmt → σ → m σ
  | .assign targets value, s => do walkAssign h targets value (← h.visit value s)
  | .annAssign target hint value, s => do
    let s ← visitAll h value.toList s
    match target with
    | .name _ id => h.bind id value (some hint) s
    | _ => h.visit target s
  | .augAssign target value, s => do unbindTarget h target (← h.visit value s)
  | .forLoop target iter body orelse, s => do
    let s ← unbindTarget h target (← h.visit iter s)
    walkBody orelse (← walkBody body s)
  | .branch test body orelse, s => do walkBody orelse (← walkBody body (← h.visit test s))
  | .withBlock items body, s => do walkBody body (← walkItems h items s)
  | .tryBlock body handlers orelse finalbody, s => do
    let s ← walkHandlers handlers (← walkBody body s)
    walkBody finalbody (← walkBody orelse s)
  | .matchBlock subject cases, s => do walkCases cases (← h.visit subject s)
  | .functionDef head body, s => do
    let s ← visitAll h head.params.defaultValues (← visitAll h head.decorators s)
    let s ← h.define head.name s
    match ← h.openFunction head s with
    | none => pure s
    | some inner => h.closeFunction head s (← walkBody body inner)
  | .classDef head body, s => do
    let s ← visitAll h (head.decorators ++ head.bases ++ head.keywords) s
    let s ← h.define head.name s
    match ← h.openClass head s with
    | none => pure s
    | some inner => h.closeClass head s (← walkBody body inner)
  | .delete targets, s => unbindTargets h targets s
  | .imports stmt, s => h.onImport stmt s
  | .value e, s => visitAll h e.toList s
  | .raise exc cause, s => visitAll h (exc.toList ++ cause.toList) s
  | .assert test msg, s => visitAll h (test :: msg.toList) s
  | .inert, s => pure s

/-- Walk statements in order. -/
def walkBody : List Stmt → σ → m σ
  | [], s => pure s
  | stmt :: rest, s => do walkBody rest (← walkStmt stmt s)

/-- Walk `except` clauses in order. -/
def walkHandlers : List Handler → σ → m σ
  | [], s => pure s
  | .mk type name body :: rest, s => do
    let s ← visitAll h type.toList s
    let s ← unbindAll h name.toList s
    walkHandlers rest (← walkBody body s)

/-- Walk `case` clauses in order. -/
def walkCases : List Case → σ → m σ
  | [], s => pure s
  | .mk pattern guard body :: rest, s => do
    let s ← unbindAll h pattern.names s
    let s ← visitAll h guard.toList s
    walkCases rest (← walkBody body s)

end

end

end ContextLint.Scope
