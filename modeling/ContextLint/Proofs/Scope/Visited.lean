import ContextLint.Proofs.Scope.Script
import ContextLint.Proofs.Source.Nodes

/-!
# What a walk visits

The expressions of a statement are its annotations, those of its patterns, and the others. A walk
visits the others, down to the plain parts of assignment targets: a name, a display of targets or a
starred target is taken apart and not visited. These are no calls, so a walk meets every call
outside annotations and patterns once.
-/

namespace ContextLint.Source

/-- Annotations of a parameter list. -/
def Parameters.hints (p : Parameters) : List Expr :=
  (p.positional ++ p.kwOnly ++ p.vararg.toList ++ p.kwarg.toList).filterMap Param.hint

/-- A parameter list holds its annotations and its default values. -/
theorem Parameters.coe_expressions (p : Parameters) :
    (p.expressions : Multiset Expr) = p.defaultValues + p.hints := by
  simp only [Parameters.expressions, Parameters.defaultValues, Parameters.hints,
    Parameters.positional, List.filterMap_append, ← Multiset.coe_add]
  abel

namespace Stmt

mutual

/-- Expressions of a statement and the statements inside it, annotations and patterns apart. -/
def liveExpressions : Stmt → List Expr
  | assign targets rhs => targets ++ [rhs]
  | annAssign target _ rhs => target :: rhs.toList
  | augAssign target rhs => [target, rhs]
  | forLoop target iter body orelse =>
    target :: iter :: (liveExpressionsOf body ++ liveExpressionsOf orelse)
  | branch test body orelse => test :: (liveExpressionsOf body ++ liveExpressionsOf orelse)
  | withBlock items body =>
    items.flatMap (fun i => i.context :: i.target.toList) ++ liveExpressionsOf body
  | tryBlock body handlers orelse finalbody =>
    liveExpressionsOf body ++ handlerLiveExpressions handlers ++ liveExpressionsOf orelse ++
      liveExpressionsOf finalbody
  | matchBlock subject cases => subject :: caseLiveExpressions cases
  | functionDef head body =>
    head.decorators ++ head.params.defaultValues ++ liveExpressionsOf body
  | classDef head body =>
    head.decorators ++ head.bases ++ head.keywords ++ liveExpressionsOf body
  | delete targets => targets
  | imports _ | inert => []
  | value e => e.toList
  | raise exc cause => exc.toList ++ cause.toList
  | .assert test msg => test :: msg.toList

/-- Expressions of several statements, annotations and patterns apart. -/
def liveExpressionsOf : List Stmt → List Expr
  | [] => []
  | s :: rest => liveExpressions s ++ liveExpressionsOf rest

/-- Expressions of `except` clauses, annotations and patterns apart. -/
def handlerLiveExpressions : List Handler → List Expr
  | [] => []
  | .mk type _ body :: rest =>
    type.toList ++ liveExpressionsOf body ++ handlerLiveExpressions rest

/-- Expressions of `case` clauses, annotations and patterns apart. -/
def caseLiveExpressions : List Case → List Expr
  | [] => []
  | .mk _ guard body :: rest => guard.toList ++ liveExpressionsOf body ++ caseLiveExpressions rest

end

mutual

/-- Annotations and expressions of patterns in a statement and the statements inside it. -/
def idleExpressions : Stmt → List Expr
  | annAssign _ hint _ => [hint]
  | forLoop _ _ body orelse | branch _ body orelse =>
    idleExpressionsOf body ++ idleExpressionsOf orelse
  | withBlock _ body | classDef _ body => idleExpressionsOf body
  | tryBlock body handlers orelse finalbody =>
    idleExpressionsOf body ++ handlerIdleExpressions handlers ++ idleExpressionsOf orelse ++
      idleExpressionsOf finalbody
  | matchBlock _ cases => caseIdleExpressions cases
  | functionDef head body => head.params.hints ++ head.returns.toList ++ idleExpressionsOf body
  | assign .. | augAssign .. | delete _ | imports _ | value _ | raise .. | .assert .. | inert => []

/-- Annotations and expressions of patterns in several statements. -/
def idleExpressionsOf : List Stmt → List Expr
  | [] => []
  | s :: rest => idleExpressions s ++ idleExpressionsOf rest

/-- Annotations and expressions of patterns in `except` clauses. -/
def handlerIdleExpressions : List Handler → List Expr
  | [] => []
  | .mk _ _ body :: rest => idleExpressionsOf body ++ handlerIdleExpressions rest

/-- Annotations and expressions of patterns in `case` clauses. -/
def caseIdleExpressions : List Case → List Expr
  | [] => []
  | .mk pattern _ body :: rest =>
    pattern.expressions ++ idleExpressionsOf body ++ caseIdleExpressions rest

end

mutual

/-- The expressions of a statement are the live ones and those of annotations and patterns. -/
theorem coe_expressions (s : Stmt) :
    (expressions s : Multiset Expr) = liveExpressions s + idleExpressions s := by
  cases s with
  | assign targets rhs | augAssign target rhs | delete targets | value e | raise exc cause
  | assert test msg => simp [expressions, liveExpressions, idleExpressions]
  | imports stmt | inert => rfl
  | _ =>
    simp only [expressions, liveExpressions, idleExpressions, List.cons_append,
      ← Multiset.cons_coe, ← Multiset.coe_add, ← Multiset.singleton_add, Multiset.coe_nil,
      Parameters.coe_expressions, coe_expressionsOf, coe_handlerExpressions, coe_caseExpressions]
    abel

private theorem coe_expressionsOf (body : List Stmt) :
    (expressionsOf body : Multiset Expr) = liveExpressionsOf body + idleExpressionsOf body := by
  cases body with
  | nil => rfl
  | cons s rest =>
    simp only [expressionsOf, liveExpressionsOf, idleExpressionsOf, ← Multiset.coe_add,
      coe_expressions s, coe_expressionsOf rest]
    abel

private theorem coe_handlerExpressions (handlers : List Handler) :
    (handlerExpressions handlers : Multiset Expr) =
      handlerLiveExpressions handlers + handlerIdleExpressions handlers := by
  cases handlers with
  | nil => rfl
  | cons handler rest =>
    obtain ⟨type, name, body⟩ := handler
    simp only [handlerExpressions, handlerLiveExpressions, handlerIdleExpressions,
      ← Multiset.coe_add, coe_expressionsOf body, coe_handlerExpressions rest]
    abel

private theorem coe_caseExpressions (cases : List Case) :
    (caseExpressions cases : Multiset Expr) =
      caseLiveExpressions cases + caseIdleExpressions cases := by
  cases cases with
  | nil => rfl
  | cons case rest =>
    obtain ⟨pattern, guard, body⟩ := case
    simp only [caseExpressions, caseLiveExpressions, caseIdleExpressions, ← Multiset.coe_add,
      coe_expressionsOf body, coe_caseExpressions rest]
    abel

end

theorem expressionsOf_eq_flatMap (body : List Stmt) :
    expressionsOf body = body.flatMap expressions := by
  induction body with
  | nil => rfl
  | cons s rest ih => rw [expressionsOf, ih, List.flatMap_cons]

end Stmt

end ContextLint.Source

namespace ContextLint.Scope

open Source

mutual

/-- The expressions that a step visits, those of a nested body included. -/
def Step.visited : Step → List Expr
  | .visit e => [e]
  | .function _ body | .cls _ body => visitedAll body
  | .bind .. | .unbind _ | .bindElement .. | .onImport _ | .define _ => []

/-- The expressions that a script visits. -/
def visitedAll : List Step → List Expr
  | [] => []
  | step :: rest => step.visited ++ visitedAll rest

end

@[simp] theorem visitedAll_append (xs ys : List Step) :
    visitedAll (xs ++ ys) = visitedAll xs ++ visitedAll ys := by
  induction xs with
  | nil => rfl
  | cons x xs ih => simp [visitedAll, ih]

@[simp] private theorem visitedAll_map_visit (es : List Expr) :
    visitedAll (es.map .visit) = es := by
  induction es with
  | nil => rfl
  | cons e rest ih => simp [visitedAll, Step.visited, ih]

@[simp] private theorem visitedAll_map_unbind (names : List String) :
    visitedAll (names.map .unbind) = [] := by
  induction names with
  | nil => rfl
  | cons n rest ih => simp [visitedAll, Step.visited, ih]

@[simp] private theorem visitedAll_map_bindElement (pairs : List (String × Expr)) :
    visitedAll (pairs.map fun p => .bindElement p.1 p.2) = [] := by
  induction pairs with
  | nil => rfl
  | cons p rest ih => simp [visitedAll, Step.visited, ih]

/-- Some of the expressions are visited, and of the others nothing but plain parts of targets is
left, none of which is a call. -/
def Covered (live visited : List Expr) : Prop :=
  ∃ plain : Multiset Expr, (∀ n ∈ plain, n.isCall = false) ∧
    (live.flatMap Expr.liveNodes : Multiset Expr) = visited.flatMap Expr.liveNodes + plain

variable {a b visited live : List Expr}

namespace Covered

private theorem refl (es : List Expr) : Covered es es := ⟨0, by simp, by simp⟩

/-- Two parts that are covered are covered together. -/
theorem append {c d : List Expr} (hab : Covered a b) (hcd : Covered c d) :
    Covered (a ++ c) (b ++ d) := by
  obtain ⟨p, hp, hab⟩ := hab
  obtain ⟨q, hq, hcd⟩ := hcd
  refine ⟨p + q, ?_, ?_⟩
  · intro n hn
    exact (Multiset.mem_add.mp hn).elim (hp n) (hq n)
  · simp only [List.flatMap_append, ← Multiset.coe_add, hab, hcd]
    abel

/-- The order of the covered expressions does not matter. -/
theorem perm (hab : a.Perm b) (h : Covered b visited) : Covered a visited := by
  obtain ⟨p, hp, h⟩ := h
  exact ⟨p, hp, by rw [← h]; exact Multiset.coe_eq_coe.mpr (hab.flatMap_right _)⟩

/-- Expressions without a call need no visit. -/
theorem of_plain {es : List Expr} (h : ∀ n ∈ es.flatMap Expr.liveNodes, n.isCall = false) :
    Covered es [] := ⟨es.flatMap Expr.liveNodes, fun n hn => h n hn, by simp⟩

/-- A plain node before what is covered. -/
theorem cons_plain {e : Expr} {parts : List Expr} (he : e.isCall = false)
    (hn : e.liveNodes = e :: parts.flatMap Expr.liveNodes) (h : Covered parts visited) :
    Covered [e] visited := by
  obtain ⟨p, hp, h⟩ := h
  refine ⟨e ::ₘ p, ?_, ?_⟩
  · intro n hn
    rcases Multiset.mem_cons.mp hn with rfl | hn
    · exact he
    · exact hp n hn
  · simp only [List.flatMap_cons, List.flatMap_nil, List.append_nil, hn, ← Multiset.cons_coe, h,
      Multiset.add_cons]

/-- The calls among covered expressions are those among the visited ones. -/
theorem calls_perm (h : Covered live visited) :
    ((live.flatMap Expr.liveNodes).filter Expr.isCall).Perm
      ((visited.flatMap Expr.liveNodes).filter Expr.isCall) := by
  obtain ⟨p, hp, h⟩ := h
  have hnone : p.filter (fun n => n.isCall = true) = 0 :=
    Multiset.filter_eq_nil.mpr fun n hn => by simp [hp n hn]
  have hf := congrArg (Multiset.filter (fun n => n.isCall = true)) h
  rw [Multiset.filter_add, hnone, add_zero, Multiset.filter_coe, Multiset.filter_coe] at hf
  simpa using Multiset.coe_eq_coe.mp hf

/-- What is visited is, up to order, some of what is covered. -/
theorem subperm (h : Covered live visited) :
    (visited.flatMap Expr.liveNodes).Subperm (live.flatMap Expr.liveNodes) := by
  obtain ⟨p, -, h⟩ := h
  rw [← Multiset.coe_le, h]
  exact Multiset.le_add_right _ _

end Covered

mutual

private theorem covered_target (target : Expr) :
    Covered [target] (visitedAll (targetSteps target)) := by
  cases target with
  | name s id =>
    exact Covered.of_plain (by simp [Expr.liveNodes, Expr.isCall])
  | sequence s kind elements =>
    exact Covered.cons_plain rfl (by simp [Expr.liveNodes]) (covered_targets elements)
  | starred s value =>
    exact Covered.cons_plain rfl (by simp [Expr.liveNodes]) (covered_target value)
  | _ => exact Covered.refl _

private theorem covered_targets (targets : List Expr) :
    Covered targets (visitedAll (targetsSteps targets)) := by
  cases targets with
  | nil => exact Covered.refl []
  | cons e rest =>
    simp only [targetsSteps, visitedAll_append]
    exact (covered_target e).append (covered_targets rest)

end

variable {pairs : List (String × Expr)}

private theorem plain_of_names {targets : List Expr} (h : List.Forall₂ Names targets pairs) :
    ∀ n ∈ targets.flatMap Expr.liveNodes, n.isCall = false := by
  induction h with
  | nil => simp
  | cons hname _ ih =>
    obtain ⟨site, rfl⟩ := hname
    intro n hn
    rw [List.flatMap_cons, Expr.liveNodes, List.mem_append, List.mem_singleton] at hn
    rcases hn with rfl | hn
    · rfl
    · exact ih n hn

private theorem covered_parallel {target value : Expr}
    (h : parallelPairs target value = some pairs) : Covered [target] [] := by
  obtain ⟨site, kind, elements, rfl, hnames⟩ := names_of_parallelPairs h
  exact Covered.cons_plain rfl (by simp [Expr.liveNodes])
    (Covered.of_plain (plain_of_names hnames))

private theorem covered_assign (targets : List Expr) (value : Expr) :
    Covered targets (visitedAll (assignSteps targets value)) := by
  rcases targets with _ | ⟨target, _ | ⟨second, rest⟩⟩
  · exact Covered.refl []
  · unfold assignSteps
    split
    · exact Covered.of_plain (by simp_all [Expr.liveNodes, Expr.isCall])
    · rename_i heq
      obtain rfl : target = _ := by simpa using heq
      split
      · rename_i pairs hp
        rw [visitedAll_map_bindElement]
        exact covered_parallel hp
      · exact covered_target _
    · exact covered_targets [target]
  · simpa only [assignSteps] using covered_targets (target :: second :: rest)

private theorem covered_annAssign (target hint : Expr) (value : Option Expr) :
    Covered [target] (visitedAll (annAssignSteps target hint value)) := by
  cases target with
  | name s id => exact Covered.of_plain (by simp [Expr.liveNodes, Expr.isCall])
  | _ => exact Covered.refl _

private theorem covered_items (items : List WithItem) :
    Covered (items.flatMap fun i => i.context :: i.target.toList)
      (visitedAll (items.flatMap itemSteps)) := by
  induction items with
  | nil => exact Covered.refl []
  | cons item rest ih =>
    obtain ⟨context, target⟩ := item
    simp only [List.flatMap_cons, visitedAll_append]
    refine Covered.append ?_ ih
    cases target with
    | none => exact Covered.refl [context]
    | some target =>
      simpa [itemSteps, visitedAll, Step.visited] using
        (Covered.refl [context]).append (covered_target target)

mutual

private theorem covered_stmt (s : Stmt) : Covered s.liveExpressions (visitedAll (stmtSteps s)) := by
  cases s with
  | assign targets value =>
    exact ((Covered.refl [value]).append (covered_assign targets value)).perm
      List.perm_append_comm
  | annAssign target hint value =>
    simp only [Stmt.liveExpressions, stmtSteps, visitedAll_append, visitedAll_map_visit]
    exact ((Covered.refl value.toList).append (covered_annAssign target hint value)).perm
      (List.perm_append_singleton target value.toList).symm
  | augAssign target value =>
    exact ((Covered.refl [value]).append (covered_target target)).perm (List.Perm.swap ..)
  | forLoop target iter body orelse =>
    simp only [Stmt.liveExpressions, stmtSteps, List.cons_append, visitedAll, visitedAll_append]
    exact (((Covered.refl [iter]).append (covered_target target)).append
      ((covered_body body).append (covered_body orelse))).perm (List.Perm.swap ..)
  | branch test body orelse =>
    simp only [Stmt.liveExpressions, stmtSteps, visitedAll, visitedAll_append]
    exact (Covered.refl [test]).append ((covered_body body).append (covered_body orelse))
  | withBlock items body =>
    simp only [Stmt.liveExpressions, stmtSteps, visitedAll_append]
    exact (covered_items items).append (covered_body body)
  | tryBlock body handlers orelse finalbody =>
    simp only [Stmt.liveExpressions, stmtSteps, visitedAll_append, ← List.append_assoc]
    exact (((covered_body body).append (covered_handlers handlers)).append
      (covered_body orelse)).append (covered_body finalbody)
  | matchBlock subject cases =>
    simp only [Stmt.liveExpressions, stmtSteps, visitedAll]
    exact (Covered.refl [subject]).append (covered_cases cases)
  | functionDef head body | classDef head body =>
    simp only [Stmt.liveExpressions, stmtSteps, visitedAll_append, visitedAll_map_visit,
      visitedAll, Step.visited, List.nil_append, List.append_nil]
    exact (Covered.refl _).append (covered_body body)
  | delete targets => exact covered_targets targets
  | imports stmt | inert => exact Covered.refl []
  | value e | raise exc cause | assert test msg =>
    simp only [Stmt.liveExpressions, stmtSteps, visitedAll_map_visit]
    exact Covered.refl _

/-- A walk through statements covers all their expressions outside annotations and patterns. -/
theorem covered_body (body : List Stmt) :
    Covered (Stmt.liveExpressionsOf body) (visitedAll (bodySteps body)) := by
  cases body with
  | nil => exact Covered.refl []
  | cons s rest =>
    simp only [Stmt.liveExpressionsOf, bodySteps, visitedAll_append]
    exact (covered_stmt s).append (covered_body rest)

private theorem covered_handlers (handlers : List Handler) :
    Covered (Stmt.handlerLiveExpressions handlers) (visitedAll (handlerSteps handlers)) := by
  cases handlers with
  | nil => exact Covered.refl []
  | cons handler rest =>
    obtain ⟨type, name, body⟩ := handler
    simp only [Stmt.handlerLiveExpressions, handlerSteps, visitedAll_append,
      visitedAll_map_visit, visitedAll_map_unbind, List.append_nil]
    exact ((Covered.refl _).append (covered_body body)).append (covered_handlers rest)

private theorem covered_cases (cases : List Case) :
    Covered (Stmt.caseLiveExpressions cases) (visitedAll (caseSteps cases)) := by
  cases cases with
  | nil => exact Covered.refl []
  | cons case rest =>
    obtain ⟨pattern, guard, body⟩ := case
    simp only [Stmt.caseLiveExpressions, caseSteps, visitedAll_append, visitedAll_map_visit,
      visitedAll_map_unbind, List.nil_append]
    exact ((Covered.refl _).append (covered_body body)).append (covered_cases rest)

end

end ContextLint.Scope

namespace ContextLint.Source.Module

open Scope

/-- The expressions of a module outside annotations, patterns and comprehension targets. -/
def liveNodes (m : Module) : List Expr := Expr.liveNodesOf (Stmt.liveExpressionsOf m.body)

/-- The expressions of a module inside annotations, patterns and comprehension targets. -/
def idleNodes (m : Module) : List Expr :=
  Expr.nodesOf (Stmt.idleExpressionsOf m.body) ++
    Expr.nodesOf (Expr.clauseTargetsOf (Stmt.liveExpressionsOf m.body))

/-- The expressions that a walk through a module visits. -/
def visited (m : Module) : List Expr := visitedAll (bodySteps m.body)

/-- Every expression of a module is counted once, either among the live or among the idle ones. -/
theorem nodes_perm (m : Module) : m.nodes.Perm (m.liveNodes ++ m.idleNodes) := by
  apply Multiset.coe_eq_coe.mp
  have hsplit : ((m.body.flatMap Stmt.expressions).flatMap Expr.nodes : Multiset Expr) =
      (Stmt.liveExpressionsOf m.body).flatMap Expr.nodes +
        (Stmt.idleExpressionsOf m.body).flatMap Expr.nodes := by
    rw [← Stmt.expressionsOf_eq_flatMap, Multiset.coe_add, ← List.flatMap_append]
    refine Multiset.coe_eq_coe.mpr (List.Perm.flatMap_right _ ?_)
    exact Multiset.coe_eq_coe.mp (Stmt.coe_expressionsOf m.body)
  have hlive := Expr.coe_nodesOf (Stmt.liveExpressionsOf m.body)
  simp only [Expr.nodesOf_eq_flatMap, Expr.clauseTargetsOf_eq_flatMap,
    Expr.liveNodesOf_eq_flatMap] at hlive
  simp only [nodes, liveNodes, idleNodes, Expr.nodesOf_eq_flatMap,
    Expr.clauseTargetsOf_eq_flatMap, Expr.liveNodesOf_eq_flatMap, ← Multiset.coe_add, hsplit,
    hlive]
  abel

/-- The calls that a walk visits are the live calls of the module. -/
theorem visited_calls_perm (m : Module) :
    ((m.visited.flatMap Expr.liveNodes).filter Expr.isCall).Perm
      (m.liveNodes.filter Expr.isCall) := by
  rw [liveNodes, Expr.liveNodesOf_eq_flatMap]
  exact (covered_body m.body).calls_perm.symm

/-- What a walk visits is, up to order, some of the live expressions. -/
theorem visited_subperm (m : Module) : (m.visited.flatMap Expr.liveNodes).Subperm m.liveNodes := by
  rw [liveNodes, Expr.liveNodesOf_eq_flatMap]
  exact (covered_body m.body).subperm

/-- The numbers of a module tell its expressions apart. -/
def Numbered (m : Module) : Prop := (m.nodes.map Expr.id).Nodup

instance (m : Module) : Decidable m.Numbered := inferInstanceAs (Decidable (List.Nodup _))

end ContextLint.Source.Module
