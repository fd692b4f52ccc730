import ContextLint.Proofs.Rule.Direct

/-!
# Straight-line bodies

A simple statement holds no other statements. What it does to names is a list of moves: it evaluates
an expression, gives a name the value of an expression, or rebinds names in some other way. Where
the expressions open no scope and bind no name, the acts of a visit to a straight-line body are read
off its moves.
-/

namespace ContextLint.Source

namespace Stmt

/-- The statement holds no other statements. -/
def isSimple : Stmt → Bool
  | forLoop .. | branch .. | withBlock .. | tryBlock .. | matchBlock .. | functionDef ..
  | classDef .. => false
  | _ => true

mutual

/-- A statement and the statements inside it that belong to the same scope. -/
def sameScope : Stmt → List Stmt
  | forLoop target iter body orelse =>
    forLoop target iter body orelse :: (sameScopeOf body ++ sameScopeOf orelse)
  | branch test body orelse => branch test body orelse :: (sameScopeOf body ++ sameScopeOf orelse)
  | withBlock items body => withBlock items body :: sameScopeOf body
  | tryBlock body handlers orelse finalbody =>
    tryBlock body handlers orelse finalbody :: (sameScopeOf body ++ handlerScope handlers ++
      (sameScopeOf orelse ++ sameScopeOf finalbody))
  | matchBlock subject cases => matchBlock subject cases :: caseScope cases
  | s => [s]

/-- Several statements and the statements inside them that belong to the same scope. -/
def sameScopeOf : List Stmt → List Stmt
  | [] => []
  | s :: rest => sameScope s ++ sameScopeOf rest

/-- The statements of `except` clauses that belong to the scope around them. -/
def handlerScope : List Handler → List Stmt
  | [] => []
  | .mk _ _ body :: rest => sameScopeOf body ++ handlerScope rest

/-- The statements of `case` clauses that belong to the scope around them. -/
def caseScope : List Case → List Stmt
  | [] => []
  | .mk _ _ body :: rest => sameScopeOf body ++ caseScope rest

end

end Stmt

end ContextLint.Source

namespace ContextLint.Rule

open Source Scope

/-- One move of a straight-line body. -/
inductive Move where
  | eval (e : Expr)
  /-- Give a name the value of an expression. -/
  | copy (name : String) (value : Expr)
  /-- Bind names to anything. -/
  | rebind (names : List String)

mutual

/-- The moves of an assignment to a target whose value is not that of one expression. -/
def targetMoves : Expr → List Move
  | .name _ id => [.rebind [id]]
  | .sequence _ _ elements => targetsMoves elements
  | .starred _ value => targetMoves value
  | e => [.eval e]

/-- The moves of an assignment to several targets. -/
def targetsMoves : List Expr → List Move
  | [] => []
  | e :: rest => targetMoves e ++ targetsMoves rest

end

/-- The moves of a simple statement. -/
def stmtMoves : Stmt → List Move
  | .assign [.name _ id] value => [.eval value, .copy id value]
  | .assign targets value => .eval value :: targetsMoves targets
  | .annAssign (.name _ id) _ (some value) => [.eval value, .copy id value]
  | .annAssign (.name _ id) _ none => [.rebind [id]]
  | .annAssign target _ value => value.toList.map .eval ++ [.eval target]
  | .augAssign target value => .eval value :: targetMoves target
  | .delete targets => targetsMoves targets
  | .imports stmt => [.rebind (stmt.names.filterMap importedName)]
  | .value e => e.toList.map .eval
  | .raise exc cause => (exc.toList ++ cause.toList).map .eval
  | .assert test msg => (test :: msg.toList).map .eval
  | _ => []

/-- The acts of a move. -/
def Move.acts : Move → List Act
  | .eval e => exprActs e
  | .copy name value => [.assign name value]
  | .rebind names => [.forget names]

private theorem stepsActs_visits (es : List Expr) :
    stepsActs (es.map .visit) = (es.map Move.eval).flatMap Move.acts := by
  induction es with
  | nil => rfl
  | cons e rest ih => simp [stepsActs, stepActs, Move.acts, ih]

mutual

private theorem stepsActs_target (target : Expr) :
    stepsActs (targetSteps target) = (targetMoves target).flatMap Move.acts := by
  cases target with
  | sequence site kind elements => exact stepsActs_targets elements
  | starred site value => exact stepsActs_target value
  | _ => simp [targetSteps, targetMoves, stepsActs, stepActs, Move.acts]

private theorem stepsActs_targets (targets : List Expr) :
    stepsActs (targetsSteps targets) = (targetsMoves targets).flatMap Move.acts := by
  cases targets with
  | nil => rfl
  | cons e rest =>
    simp [targetsSteps, targetsMoves, stepsActs_target e, stepsActs_targets rest]

end

private theorem stepsActs_pairs {targets : List Expr} {pairs : List (String × Expr)}
    (h : List.Forall₂ Names targets pairs) :
    stepsActs (pairs.map fun p => .bindElement p.1 p.2) =
      (targetsMoves targets).flatMap Move.acts := by
  induction h with
  | nil => rfl
  | cons hname _ ih =>
    obtain ⟨site, rfl⟩ := hname
    simp [stepsActs, stepActs, targetsMoves, targetMoves, Move.acts, ih]

private theorem stepsActs_parallel {target value : Expr} {pairs : List (String × Expr)}
    (h : parallelPairs target value = some pairs) :
    stepsActs (pairs.map fun p => .bindElement p.1 p.2) =
      (targetMoves target).flatMap Move.acts := by
  obtain ⟨site, kind, elements, rfl, hnames⟩ := names_of_parallelPairs h
  exact stepsActs_pairs hnames

private theorem stepsActs_assign (targets : List Expr) (value : Expr) :
    stepsActs (.visit value :: assignSteps targets value) =
      (stmtMoves (.assign targets value)).flatMap Move.acts := by
  rcases targets with _ | ⟨target, _ | ⟨second, rest⟩⟩
  · rfl
  · cases target with
    | name site id => simp [assignSteps, stmtMoves, stepsActs, stepActs, Move.acts]
    | _ =>
      simp only [assignSteps, stmtMoves, targetsMoves, List.append_nil]
      cases h : parallelPairs _ value with
      | some pairs =>
        simp [stepsActs, stepActs, Move.acts, stepsActs_parallel h]
      | none => simp [stepsActs, stepActs, Move.acts, stepsActs_target]
  · simp only [assignSteps, stmtMoves]
    simp [stepsActs, stepActs, Move.acts, stepsActs_targets]

/-- The acts of a simple statement are those of its moves. -/
theorem stepsActs_stmtSteps {s : Stmt} (h : s.isSimple) :
    stepsActs (stmtSteps s) = (stmtMoves s).flatMap Move.acts := by
  cases s with
  | assign targets value => exact stepsActs_assign targets value
  | annAssign target hint value =>
    cases target with
    | name site id =>
      cases value <;>
        simp [stmtSteps, annAssignSteps, stmtMoves, stepsActs, stepActs, Move.acts]
    | _ => simp [stmtSteps, annAssignSteps, stmtMoves, stepsActs, stepActs, Move.acts,
        stepsActs_visits]
  | augAssign target value =>
    simp [stmtSteps, stmtMoves, stepsActs, stepActs, Move.acts, stepsActs_target]
  | delete targets => exact stepsActs_targets targets
  | imports stmt => simp [stmtSteps, stmtMoves, stepsActs, stepActs, Move.acts]
  | value e | raise exc cause | assert test msg => exact stepsActs_visits _
  | inert => rfl
  | _ => cases h

/-- The acts of a straight-line body are those of its moves. -/
theorem stepsActs_bodySteps {body : List Stmt} (h : ∀ s ∈ body, s.isSimple) :
    stepsActs (bodySteps body) = (body.flatMap stmtMoves).flatMap Move.acts := by
  induction body with
  | nil => rfl
  | cons s rest ih =>
    rw [List.forall_mem_cons] at h
    simp [bodySteps, stepsActs_stmtSteps h.1, ih h.2]

mutual

/-- A visit to a straight expression judges its calls and does nothing else. -/
theorem exprActs_straight (e : Expr) (h : e.Straight) :
    exprActs e = (e.nodes.filter Expr.isCall).map .judge := by
  cases e with
  | constant site value | name site id => rfl
  | attr site value name | starred site value =>
    have hv := exprActs_straight value (h.child (by simp [Expr.children]))
    simpa [exprActs, Expr.nodes, Expr.isCall] using hv
  | call site func args keywords =>
    have hf := exprActs_straight func (h.child (by simp [Expr.children]))
    have ha := exprsActs_straight args fun e he => h.child (by simp [Expr.children, he])
    have hk := exprsActs_straight keywords fun e he => h.child (by simp [Expr.children, he])
    simp [exprActs, Expr.nodes, Expr.isCall, List.filter_cons, hf, ha, hk]
  | conditional site test body orelse =>
    have ht := exprActs_straight test (h.child (by simp [Expr.children]))
    have hb := exprActs_straight body (h.child (by simp [Expr.children]))
    have ho := exprActs_straight orelse (h.child (by simp [Expr.children]))
    simp [exprActs, Expr.nodes, Expr.isCall, ht, hb, ho]
  | sequence site kind elements | compound site kind elements =>
    have hs := exprsActs_straight elements fun e he => h.child he
    simpa [exprActs, Expr.nodes, Expr.isCall] using hs
  | binary site op left right =>
    have hl := exprActs_straight left (h.child (by simp [Expr.children]))
    have hr := exprActs_straight right (h.child (by simp [Expr.children]))
    simp [exprActs, Expr.nodes, Expr.isCall, hl, hr]
  | subscript site value slice =>
    have hv := exprActs_straight value (h.child (by simp [Expr.children]))
    have hs := exprActs_straight slice (h.child (by simp [Expr.children]))
    simp [exprActs, Expr.nodes, Expr.isCall, hv, hs]
  | _ => exact absurd (h _ (Expr.mem_nodes_self _)) (by simp [Expr.isStraight])

private theorem exprsActs_straight (es : List Expr) (h : ∀ e ∈ es, e.Straight) :
    exprsActs es = ((es.flatMap Expr.nodes).filter Expr.isCall).map .judge := by
  cases es with
  | nil => rfl
  | cons e rest =>
    have he := exprActs_straight e (h e (by simp))
    have hr := exprsActs_straight rest fun e' he' => h e' (by simp [he'])
    simp [exprsActs, he, hr]

end

mutual

private theorem function_mem_stmtSteps (head : FunctionHead) (body : List Stmt) (s : Stmt)
    (h : .functionDef head body ∈ s.sameScope) : .function head (bodySteps body) ∈ stmtSteps s := by
  cases s with
  | functionDef head' body' =>
    obtain ⟨rfl, rfl⟩ : head = head' ∧ body = body' := by simpa [Stmt.sameScope] using h
    simp [stmtSteps]
  | forLoop target iter body' orelse | branch test body' orelse =>
    simp only [Stmt.sameScope, List.mem_cons, List.mem_append, reduceCtorEq, false_or] at h
    have hb := function_mem_bodySteps head body body'
    have ho := function_mem_bodySteps head body orelse
    grind [stmtSteps]
  | withBlock items body' =>
    simp only [Stmt.sameScope, List.mem_cons, reduceCtorEq, false_or] at h
    have hb := function_mem_bodySteps head body body' h
    grind [stmtSteps]
  | tryBlock body' handlers orelse finalbody =>
    simp only [Stmt.sameScope, List.mem_cons, List.mem_append, reduceCtorEq, false_or] at h
    have hb := function_mem_bodySteps head body body'
    have hh := function_mem_handlerSteps head body handlers
    have ho := function_mem_bodySteps head body orelse
    have hf := function_mem_bodySteps head body finalbody
    grind [stmtSteps]
  | matchBlock subject cases =>
    simp only [Stmt.sameScope, List.mem_cons, reduceCtorEq, false_or] at h
    exact List.mem_cons_of_mem _ (function_mem_caseSteps head body cases h)
  | _ => simp [Stmt.sameScope] at h

/-- A function of a scope is in the script of the scope. -/
theorem function_mem_bodySteps (head : FunctionHead) (body : List Stmt) (stmts : List Stmt)
    (h : .functionDef head body ∈ Stmt.sameScopeOf stmts) :
    .function head (bodySteps body) ∈ bodySteps stmts := by
  cases stmts with
  | nil => simp [Stmt.sameScopeOf] at h
  | cons s rest =>
    rw [bodySteps, List.mem_append]
    rw [Stmt.sameScopeOf, List.mem_append] at h
    exact h.imp (function_mem_stmtSteps head body s) (function_mem_bodySteps head body rest)

private theorem function_mem_handlerSteps (head : FunctionHead) (body : List Stmt)
    (handlers : List Handler) (h : .functionDef head body ∈ Stmt.handlerScope handlers) :
    .function head (bodySteps body) ∈ handlerSteps handlers := by
  cases handlers with
  | nil => simp [Stmt.handlerScope] at h
  | cons handler rest =>
    obtain ⟨type, name, body'⟩ := handler
    rw [Stmt.handlerScope, List.mem_append] at h
    have hb := function_mem_bodySteps head body body'
    have hr := function_mem_handlerSteps head body rest
    grind [handlerSteps]

private theorem function_mem_caseSteps (head : FunctionHead) (body : List Stmt)
    (cases : List Case) (h : .functionDef head body ∈ Stmt.caseScope cases) :
    .function head (bodySteps body) ∈ caseSteps cases := by
  cases cases with
  | nil => simp [Stmt.caseScope] at h
  | cons case rest =>
    obtain ⟨pattern, guard, body'⟩ := case
    rw [Stmt.caseScope, List.mem_append] at h
    have hb := function_mem_bodySteps head body body'
    have hr := function_mem_caseSteps head body rest
    grind [caseSteps]

end

/-- Acts of one of the steps of a script are acts of the script. -/
theorem stepActs_subset {step : Step} {steps : List Step} (h : step ∈ steps) :
    stepActs step ⊆ stepsActs steps := by
  induction steps with
  | nil => cases h
  | cons first rest ih =>
    rw [stepsActs]
    rcases List.mem_cons.mp h with rfl | h
    · exact List.subset_append_left _ _
    · exact fun act hact => List.mem_append_right _ (ih h hact)

/-- A function of the module's scope is among the acts of a visit to the module. -/
theorem function_mem_moduleActs {m : Module} {head : FunctionHead} {body : List Stmt}
    (h : .functionDef head body ∈ Stmt.sameScopeOf m.body) :
    .function head.params.names (stepsActs (bodySteps body)) ∈ moduleActs m :=
  stepActs_subset (function_mem_bodySteps head body m.body h) (by simp [stepActs])

end ContextLint.Rule
