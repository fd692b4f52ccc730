import ContextLint.Proofs.Rule.Act

/-!
# The calls that are judged

Any visitor can be made to write down the calls that are handed to its judge. The log is the list of
live calls of the tree, each once, whatever the visitor does with them.
-/

namespace ContextLint.Rule

open Source Scope

mutual

/-- The calls that an act judges, in order. -/
def Act.calls : Act → List Expr
  | .judge call => [call]
  | .assign .. | .forget _ => []
  | .function _ body | .cls body | .comprehension _ body => callsAll body

/-- The calls that several acts judge, in order. -/
def callsAll : List Act → List Expr
  | [] => []
  | act :: rest => act.calls ++ callsAll rest

end

@[simp] theorem callsAll_append (xs ys : List Act) :
    callsAll (xs ++ ys) = callsAll xs ++ callsAll ys := by
  induction xs with
  | nil => rfl
  | cons x xs ih => simp [callsAll, ih]

mutual

/-- A visit judges the live calls of an expression. -/
theorem callsAll_exprActs (e : Expr) : callsAll (exprActs e) = e.liveNodes.filter Expr.isCall := by
  cases e with
  | constant site value | name site id => rfl
  | _ =>
    simp [exprActs, callsAll, Act.calls, Expr.liveNodes, Expr.isCall, callsAll_exprActs,
      callsAll_exprsActs, callsAll_clauseActs, List.filter_cons]

private theorem callsAll_exprsActs (es : List Expr) :
    callsAll (exprsActs es) = (es.flatMap Expr.liveNodes).filter Expr.isCall := by
  cases es with
  | nil => rfl
  | cons e rest => simp [exprsActs, callsAll_exprActs e, callsAll_exprsActs rest]

private theorem callsAll_clauseActs (generators : List Generator) :
    callsAll (clauseActs generators) =
      (Expr.clauseLiveNodes generators).filter Expr.isCall := by
  cases generators with
  | nil => rfl
  | cons clause rest =>
    obtain ⟨target, iter, conditions⟩ := clause
    simp [clauseActs, callsAll, Act.calls, Expr.clauseLiveNodes, callsAll_exprActs iter,
      callsAll_exprsActs conditions, callsAll_clauseActs rest]

end

mutual

private theorem callsAll_stepActs (step : Step) :
    callsAll (stepActs step) = (step.visited.flatMap Expr.liveNodes).filter Expr.isCall := by
  cases step with
  | visit e => simp [stepActs, Step.visited, callsAll_exprActs]
  | bind name value hint => cases value <;> rfl
  | function head body | cls head body =>
    simp [stepActs, callsAll, Act.calls, Step.visited, callsAll_stepsActs body]
  | _ => rfl

/-- A script judges the live calls of the expressions it visits. -/
theorem callsAll_stepsActs (steps : List Step) :
    callsAll (stepsActs steps) =
      ((visitedAll steps).flatMap Expr.liveNodes).filter Expr.isCall := by
  cases steps with
  | nil => rfl
  | cons step rest =>
    simp [stepsActs, visitedAll, callsAll_stepActs step, callsAll_stepsActs rest]

end

/-- The acts of a module judge each of its live calls once. -/
theorem callsAll_moduleActs_perm (m : Module) :
    (callsAll (moduleActs m)).Perm (m.liveNodes.filter Expr.isCall) := by
  rw [moduleActs, callsAll_stepsActs]
  exact m.visited_calls_perm

section

variable {m : Type → Type} [Monad m] {ρ ρ' : Type}

/-- A visitor that also writes down the calls handed to the judge, the latest first. -/
def Visitor.logging (v : Visitor m ρ) : Visitor m (ρ × List Expr) where
  bind := v.bind
  judge call t r := do return (← v.judge call t r.1, call :: r.2)

/-- Change the result of a visit. -/
def Visit.map (f : ρ → ρ') (s : Visit ρ) : Visit ρ' := ⟨s.tracker, f s.result⟩

variable [LawfulMonad m]

mutual

private theorem run_map {v : Visitor m ρ} {w : Visitor m ρ'} {f : ρ → ρ'} (hbind : w.bind = v.bind)
    (hjudge : ∀ c t r, w.judge c t (f r) = f <$> v.judge c t r) (act : Act) (s : Visit ρ) :
    act.run w (s.map f) = Visit.map f <$> act.run v s := by
  cases act with
  | judge call => simp [Act.run, Visit.map, hjudge]
  | assign name value => simp [Act.run, Visit.map, hbind]
  | forget names => simp [Act.run, Visit.map]
  | function params body =>
    have h := runAll_map hbind hjudge body ⟨s.tracker.child.resetAll params, s.result⟩
    simp only [Visit.map] at h
    simp [Act.run, Visit.map, h]
  | cls body =>
    have h := runAll_map hbind hjudge body ⟨.idle, s.result⟩
    simp only [Visit.map] at h
    simp [Act.run, Visit.map, h]
  | comprehension names body =>
    have h := runAll_map hbind hjudge body ⟨s.tracker.clause, s.result⟩
    simp only [Visit.map] at h
    simp [Act.run, Visit.map, h]

/-- Visitors that treat names alike and whose judges agree through a function have results that
agree through it. -/
theorem runAll_map {v : Visitor m ρ} {w : Visitor m ρ'} {f : ρ → ρ'} (hbind : w.bind = v.bind)
    (hjudge : ∀ c t r, w.judge c t (f r) = f <$> v.judge c t r) (acts : List Act) (s : Visit ρ) :
    runAll w acts (s.map f) = Visit.map f <$> runAll v acts s := by
  cases acts with
  | nil => simp
  | cons act rest =>
    simp [run_map hbind hjudge act s, runAll_map hbind hjudge rest]

end

mutual

private theorem run_logging (v : Visitor m ρ) (act : Act) (s : Visit ρ) (log : List Expr) :
    act.run v.logging (s.map (·, log)) =
      Visit.map (·, act.calls.reverse ++ log) <$> act.run v s := by
  cases act with
  | judge call | assign name value => simp [Act.run, Act.calls, Visit.map, Visitor.logging]
  | forget names => simp [Act.run, Act.calls, Visit.map]
  | function params body =>
    have h := runAll_logging v body ⟨s.tracker.child.resetAll params, s.result⟩ log
    simp only [Visit.map] at h
    simp [Act.run, Act.calls, Visit.map, h]
  | cls body =>
    have h := runAll_logging v body ⟨.idle, s.result⟩ log
    simp only [Visit.map] at h
    simp [Act.run, Act.calls, Visit.map, h]
  | comprehension names body =>
    have h := runAll_logging v body ⟨s.tracker.clause, s.result⟩ log
    simp only [Visit.map] at h
    simp [Act.run, Act.calls, Visit.map, h]

/-- A logging visitor does what the visitor does and logs the calls of the acts. -/
theorem runAll_logging (v : Visitor m ρ) (acts : List Act) (s : Visit ρ) (log : List Expr) :
    runAll v.logging acts (s.map (·, log)) =
      Visit.map (·, (callsAll acts).reverse ++ log) <$> runAll v acts s := by
  cases acts with
  | nil => simp [callsAll]
  | cons act rest =>
    simp [callsAll, run_logging v act s, runAll_logging v rest]

end

/-- The log of a visit to a module lists the calls of its acts, the latest first. -/
theorem visitModule_logging (v : Visitor m ρ) (module : Module) (result : ρ) :
    v.logging.visitModule module (result, []) =
      (·, (callsAll (moduleActs module)).reverse) <$> v.visitModule module result := by
  have h := runAll_logging v (moduleActs module) ⟨.idle, result⟩ []
  simp only [Visit.map, List.append_nil] at h
  simp [visitModule_eq_runAll, h, Visit.map]

end

end ContextLint.Rule
