import ContextLint.Rule.Tracker

/-!
# Visiting the calls of a module

A visit passes every call of a module, in document order and a call before its parts, to a judge,
together with what is known of the names in scope. Functions start from a copy of what is known
around them; module and class bodies are not followed. A comprehension works on a copy too and hands
back only what its assignment expressions bind.
-/

namespace ContextLint.Rule

open Source Fluent Scope

/-- What a visit carries along: the tracker of the scope and the result so far. -/
structure Visit (ρ : Type) where
  /-- What is known of the names in scope. -/
  tracker : Tracker
  /-- What the judge has collected. -/
  result : ρ
  deriving Inhabited

/-- How a visit follows names and judges calls. -/
structure Visitor (m : Type → Type) (ρ : Type) where
  /-- Record the binding of a name to a value. -/
  bind : Tracker → String → Expr → m Tracker
  /-- Judge a call. -/
  judge : Expr → Tracker → ρ → m ρ

namespace Visitor

variable {m : Type → Type} [Monad m] {ρ : Type} (v : Visitor m ρ)

mutual

/-- Visit an expression. -/
def visit : Expr → Visit ρ → m (Visit ρ)
  | .constant .., s | .name .., s => pure s
  | .attr _ value _, s => visit value s
  | .call site func args keywords, s => do
    let result ← v.judge (.call site func args keywords) s.tracker s.result
    let s ← visit func { s with result }
    visitAll keywords (← visitAll args s)
  | .walrus _ target value, s => do
    let s ← visit value s
    return { s with tracker := ← v.bind s.tracker target value }
  | .conditional _ test body orelse, s => do visit orelse (← visit body (← visit test s))
  | .lambda _ params defaults body, s => do
    let s ← visitAll defaults s
    let inner ← visit body { s with tracker := s.tracker.child.resetAll params }
    return { s with result := inner.result }
  | .comprehension site kind elements generators, s => do
    let inner ← visitClauses generators { s with tracker := s.tracker.clause }
    let inner ← visitAll elements inner
    let names := (Expr.comprehension site kind elements generators).walrusNames
    return { tracker := names.foldl (·.adopt inner.tracker ·) s.tracker, result := inner.result }
  | .sequence _ _ elements, s => visitAll elements s
  | .starred _ value, s => visit value s
  | .binary _ _ left right, s => do visit right (← visit left s)
  | .subscript _ value slice, s => do visit slice (← visit value s)
  | .compound _ _ parts, s => visitAll parts s

/-- Visit expressions in order. -/
def visitAll : List Expr → Visit ρ → m (Visit ρ)
  | [], s => pure s
  | e :: rest, s => do visitAll rest (← visit e s)

/-- Visit the clauses of a comprehension; each hides the names of its target. -/
def visitClauses : List Generator → Visit ρ → m (Visit ρ)
  | [], s => pure s
  | .mk target iter conditions :: rest, s => do
    let s ← visit iter s
    let s ← visitAll conditions { s with tracker := s.tracker.resetAll target.targetNames }
    visitClauses rest s

end

/-- Forget a name in a visit. -/
def forget (s : Visit ρ) (name : String) : Visit ρ := { s with tracker := s.tracker.reset name }

/-- The walk that visits a scope. -/
def hooks : Hooks m (Visit ρ) where
  visit := v.visit
  bind name value _ s :=
    match value with
    | some e => do return { s with tracker := ← v.bind s.tracker name e }
    | none => pure (forget s name)
  unbind name s := pure (forget s name)
  bindElement name _ s := pure (forget s name)
  onImport stmt s := pure ((stmt.names.filterMap importedName).foldl forget s)
  define name s := pure (forget s name)
  openFunction head s :=
    pure (some { s with tracker := s.tracker.child.resetAll head.params.names })
  closeFunction _ outer inner := pure { outer with result := inner.result }
  openClass _ s := pure (some { s with tracker := .idle })
  closeClass _ outer inner := pure { outer with result := inner.result }

/-- Visit a module, whose own names are not followed. -/
def visitModule (module : Module) (result : ρ) : m ρ := do
  return (← walkBody v.hooks module.body { tracker := .idle, result }).result

end Visitor

end ContextLint.Rule
