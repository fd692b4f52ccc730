import ContextLint.Proofs.Scope.Visited
import ContextLint.Rule.Visit

/-!
# The acts of a visit

A visit does six things: it judges a call, records or forgets names, and opens the scope of a
function, a class or a comprehension. Which of them it does, and in which order, depends on the tree
alone. Visiting a module is running its acts, so the facts about visits are proved on lists of acts.
-/

namespace ContextLint.Rule

open Source Scope

/-- One act of a visit. -/
inductive Act where
  | judge (call : Expr)
  /-- Record the binding of a name to a value. -/
  | assign (name : String) (value : Expr)
  | forget (names : List String)
  /-- Run the acts of a function with these parameters. -/
  | function (params : List String) (body : List Act)
  /-- Run the acts of a class body. -/
  | cls (body : List Act)
  /-- Run the acts of a comprehension and take over what it knows of these names. -/
  | comprehension (names : List String) (body : List Act)

mutual

/-- The acts of a visit to an expression. -/
def exprActs : Expr → List Act
  | .constant .. | .name .. => []
  | .attr _ value _ | .starred _ value => exprActs value
  | .call site func args keywords =>
    .judge (.call site func args keywords) ::
      (exprActs func ++ exprsActs args ++ exprsActs keywords)
  | .walrus _ target value => exprActs value ++ [.assign target value]
  | .conditional _ test body orelse => exprActs test ++ exprActs body ++ exprActs orelse
  | .lambda _ params defaults body => exprsActs defaults ++ [.function params (exprActs body)]
  | .comprehension site kind elements generators =>
    [.comprehension (Expr.comprehension site kind elements generators).walrusNames
      (clauseActs generators ++ exprsActs elements)]
  | .sequence _ _ parts | .compound _ _ parts => exprsActs parts
  | .binary _ _ left right | .subscript _ left right => exprActs left ++ exprActs right

/-- The acts of a visit to expressions in order. -/
def exprsActs : List Expr → List Act
  | [] => []
  | e :: rest => exprActs e ++ exprsActs rest

/-- The acts of a visit to comprehension clauses. -/
def clauseActs : List Generator → List Act
  | [] => []
  | .mk target iter conditions :: rest =>
    exprActs iter ++ .forget target.targetNames :: (exprsActs conditions ++ clauseActs rest)

end

mutual

/-- The acts of one step of a walk. -/
def stepActs : Step → List Act
  | .visit e => exprActs e
  | .bind name (some e) _ => [.assign name e]
  | .bind name none _ | .unbind name | .bindElement name _ | .define name => [.forget [name]]
  | .onImport stmt => [.forget (stmt.names.filterMap importedName)]
  | .function head body => [.function head.params.names (stepsActs body)]
  | .cls _ body => [.cls (stepsActs body)]

/-- The acts of a script. -/
def stepsActs : List Step → List Act
  | [] => []
  | step :: rest => stepActs step ++ stepsActs rest

end

/-- The acts of a visit to a module. -/
def moduleActs (m : Module) : List Act := stepsActs (bodySteps m.body)

@[simp] theorem stepsActs_append (xs ys : List Step) :
    stepsActs (xs ++ ys) = stepsActs xs ++ stepsActs ys := by
  induction xs with
  | nil => rfl
  | cons x xs ih => simp [stepsActs, ih]

section

variable {m : Type → Type} [Monad m] {ρ : Type} (v : Visitor m ρ)

mutual

/-- Run one act. -/
def Act.run : Act → Visit ρ → m (Visit ρ)
  | .judge call, s => do return { s with result := ← v.judge call s.tracker s.result }
  | .assign name value, s => do return { s with tracker := ← v.bind s.tracker name value }
  | .forget names, s => pure { s with tracker := s.tracker.resetAll names }
  | .function params body, s => do
    let inner ← runAll body { s with tracker := s.tracker.child.resetAll params }
    return { s with result := inner.result }
  | .cls body, s => do
    let inner ← runAll body { s with tracker := .idle }
    return { s with result := inner.result }
  | .comprehension names body, s => do
    let inner ← runAll body { s with tracker := s.tracker.clause }
    return { tracker := names.foldl (·.adopt inner.tracker ·) s.tracker, result := inner.result }

/-- Run acts in order. -/
def runAll : List Act → Visit ρ → m (Visit ρ)
  | [], s => pure s
  | act :: rest, s => do runAll rest (← act.run s)

end

@[simp] private theorem runAll_nil : runAll v [] = pure := rfl

@[simp] private theorem runAll_cons (act : Act) (rest : List Act) :
    runAll v (act :: rest) = fun s => act.run v s >>= runAll v rest := rfl

variable [LawfulMonad m]

/-- A list of acts in two parts is run part by part. -/
@[simp] theorem runAll_append (xs ys : List Act) :
    runAll v (xs ++ ys) = fun s => runAll v xs s >>= runAll v ys := by
  induction xs with
  | nil => simp
  | cons x xs ih => simp [ih]

mutual

/-- Visiting an expression is running its acts. -/
theorem visit_eq_runAll (e : Expr) (s : Visit ρ) : v.visit e s = runAll v (exprActs e) s := by
  cases e with
  | constant site value | name site id => simp [Visitor.visit, exprActs]
  | _ =>
    simp [Visitor.visit, exprActs, Act.run, visit_eq_runAll, visitAll_eq_runAll,
      visitClauses_eq_runAll]

private theorem visitAll_eq_runAll (es : List Expr) (s : Visit ρ) :
    v.visitAll es s = runAll v (exprsActs es) s := by
  cases es with
  | nil => rfl
  | cons e rest => simp [Visitor.visitAll, exprsActs, visit_eq_runAll e, visitAll_eq_runAll rest]

private theorem visitClauses_eq_runAll (generators : List Generator) (s : Visit ρ) :
    v.visitClauses generators s = runAll v (clauseActs generators) s := by
  cases generators with
  | nil => rfl
  | cons clause rest =>
    obtain ⟨target, iter, conditions⟩ := clause
    simp [Visitor.visitClauses, clauseActs, Act.run, visit_eq_runAll iter,
      visitAll_eq_runAll conditions, visitClauses_eq_runAll rest]

end

private theorem foldl_forget (names : List String) (s : Visit ρ) :
    names.foldl Visitor.forget s = { s with tracker := s.tracker.resetAll names } := by
  induction names generalizing s with
  | nil => rfl
  | cons n rest ih => rw [List.foldl_cons, ih]; rfl

mutual

/-- Performing a step with the hooks of a visitor is running the acts of the step. -/
theorem perform_eq_runAll (step : Step) (s : Visit ρ) :
    perform v.hooks step s = runAll v (stepActs step) s := by
  cases step with
  | visit e => exact visit_eq_runAll v e s
  | bind name value hint =>
    cases value with
    | none => simp [perform, stepActs, Visitor.hooks, Act.run, Visitor.forget, Tracker.resetAll]
    | some e => simp [perform, stepActs, Visitor.hooks, Act.run]
  | unbind name | bindElement name value | define name =>
    simp [perform, stepActs, Visitor.hooks, Act.run, Visitor.forget, Tracker.resetAll]
  | onImport stmt => simp [perform, stepActs, Visitor.hooks, Act.run, foldl_forget]
  | function head body | cls head body =>
    simp only [perform, performAll_eq_runAll body]
    simp [stepActs, Visitor.hooks, Act.run]

/-- Performing a script with the hooks of a visitor is running its acts. -/
theorem performAll_eq_runAll (steps : List Step) :
    performAll v.hooks steps = runAll v (stepsActs steps) := by
  cases steps with
  | nil => rfl
  | cons step rest =>
    simp [stepsActs, perform_eq_runAll step, performAll_eq_runAll rest]

end

/-- Visiting a module is running its acts with nothing known. -/
theorem visitModule_eq_runAll (module : Module) (result : ρ) :
    v.visitModule module result =
      Visit.result <$> runAll v (moduleActs module) { tracker := .idle, result } := by
  simp [Visitor.visitModule, walkBody_eq, performAll_eq_runAll, moduleActs]

end

end ContextLint.Rule
