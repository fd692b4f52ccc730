import ContextLint.Proofs.Scope.Bound
import ContextLint.Proofs.Source.Levels

/-!
# Replacing statements

Statements are replaced by others somewhere in a body, in the same scope: between the statements of
the body itself or of a loop, a branch, a `with`, `try` or `match` statement in it. The script of
the body is then replaced in one place, and what surrounds the place stays the same.
-/

namespace ContextLint.Source

/-- The second body is the first with the statements `xs` replaced by `ys` in one place of the same
scope. -/
inductive Replaces (xs ys : List Stmt) : List Stmt → List Stmt → Prop
  | here : Replaces xs ys xs ys
  | among (before after : List Stmt) {body body'} (h : Replaces xs ys body body') :
      Replaces xs ys (before ++ body ++ after) (before ++ body' ++ after)
  | forBody (target iter : Expr) (orelse : List Stmt) {body body'} (h : Replaces xs ys body body') :
      Replaces xs ys [.forLoop target iter body orelse] [.forLoop target iter body' orelse]
  | forElse (target iter : Expr) (body : List Stmt) {orelse orelse'}
      (h : Replaces xs ys orelse orelse') :
      Replaces xs ys [.forLoop target iter body orelse] [.forLoop target iter body orelse']
  | branchBody (test : Expr) (orelse : List Stmt) {body body'} (h : Replaces xs ys body body') :
      Replaces xs ys [.branch test body orelse] [.branch test body' orelse]
  | branchElse (test : Expr) (body : List Stmt) {orelse orelse'}
      (h : Replaces xs ys orelse orelse') :
      Replaces xs ys [.branch test body orelse] [.branch test body orelse']
  | withBody (items : List WithItem) {body body'} (h : Replaces xs ys body body') :
      Replaces xs ys [.withBlock items body] [.withBlock items body']
  | tryBody (handlers : List Handler) (orelse finalbody : List Stmt) {body body'}
      (h : Replaces xs ys body body') :
      Replaces xs ys [.tryBlock body handlers orelse finalbody]
        [.tryBlock body' handlers orelse finalbody]
  | handlerBody (body : List Stmt) (before after : List Handler) (type : Option Expr)
      (name : Option String) (orelse finalbody : List Stmt) {inner inner'}
      (h : Replaces xs ys inner inner') :
      Replaces xs ys
        [.tryBlock body (before ++ .mk type name inner :: after) orelse finalbody]
        [.tryBlock body (before ++ .mk type name inner' :: after) orelse finalbody]
  | tryElse (body : List Stmt) (handlers : List Handler) (finalbody : List Stmt)
      {orelse orelse'} (h : Replaces xs ys orelse orelse') :
      Replaces xs ys [.tryBlock body handlers orelse finalbody]
        [.tryBlock body handlers orelse' finalbody]
  | finalBody (body : List Stmt) (handlers : List Handler) (orelse : List Stmt)
      {finalbody finalbody'} (h : Replaces xs ys finalbody finalbody') :
      Replaces xs ys [.tryBlock body handlers orelse finalbody]
        [.tryBlock body handlers orelse finalbody']
  | caseBody (subject : Expr) (before after : List Case) (pattern : Pattern) (guard : Option Expr)
      {inner inner'} (h : Replaces xs ys inner inner') :
      Replaces xs ys [.matchBlock subject (before ++ .mk pattern guard inner :: after)]
        [.matchBlock subject (before ++ .mk pattern guard inner' :: after)]

namespace Stmt

private theorem handlerLevels_append (xs ys : List Handler) :
    handlerLevels (xs ++ ys) = zipLevels (handlerLevels xs) (handlerLevels ys) := by
  induction xs with
  | nil => rfl
  | cons x xs ih =>
    obtain ⟨type, name, body⟩ := x
    rw [List.cons_append, handlerLevels, ih, handlerLevels, zipLevels_assoc]

private theorem caseLevels_append (xs ys : List Case) :
    caseLevels (xs ++ ys) = zipLevels (caseLevels xs) (caseLevels ys) := by
  induction xs with
  | nil => rfl
  | cons x xs ih =>
    obtain ⟨pattern, guard, body⟩ := x
    rw [List.cons_append, caseLevels, ih, caseLevels, zipLevels_assoc]

end Stmt

namespace Replaces

open Stmt

variable {xs ys body body' : List Stmt}

/-- Classes and imports by depth are not changed by statements that have the same. -/
theorem levelsWith_declares (h : Replaces xs ys body body')
    (hxy : levelsWith Stmt.declares xs = levelsWith Stmt.declares ys) :
    levelsWith Stmt.declares body = levelsWith Stmt.declares body' := by
  have hzip : ∀ xs ys : List (List Stmt), (zipLevels xs ys).map (List.filter Stmt.declares) =
      zipLevels (xs.map (List.filter Stmt.declares)) (ys.map (List.filter Stmt.declares)) :=
    fun xs ys => (zipLevels_map List.filter_append xs ys).symm
  unfold levelsWith at hxy ⊢
  induction h with
  | here => exact hxy
  | among before after h ih => simp only [levelsOf_append, hzip, ih]
  | _ =>
    simp only [levelsOf, levels, handlerLevels, handlerLevels_append, caseLevels, caseLevels_append,
      hzip, List.map_cons, List.filter_cons, List.filter_nil, Stmt.declares]
    simp [*]

/-- Nor are the heads of functions. -/
theorem functionHeads_eq (h : Replaces xs ys body body')
    (hxy : functionHeads xs = functionHeads ys) : functionHeads body = functionHeads body' := by
  induction h with
  | here => exact hxy
  | among before after h ih =>
    unfold functionHeads at ih ⊢
    simp only [List.filterMap_append, ih]
  | _ => rfl

end Replaces

end ContextLint.Source

namespace ContextLint.Scope

open Source

private theorem handlerSteps_append (xs ys : List Handler) :
    handlerSteps (xs ++ ys) = handlerSteps xs ++ handlerSteps ys := by
  induction xs with
  | nil => rfl
  | cons x xs ih =>
    obtain ⟨type, name, body⟩ := x
    simp [handlerSteps, ih]

private theorem caseSteps_append (xs ys : List Case) :
    caseSteps (xs ++ ys) = caseSteps xs ++ caseSteps ys := by
  induction xs with
  | nil => rfl
  | cons x xs ih =>
    obtain ⟨pattern, guard, body⟩ := x
    simp [caseSteps, ih]

/-- Two scripts that differ in one place, where they have those of `xs` and of `ys`. -/
def Surrounds (xs ys : List Stmt) (steps steps' : List Step) : Prop :=
  ∃ before after, Prepared [] before ∧ Prepared [] after ∧
    steps = before ++ bodySteps xs ++ after ∧ steps' = before ++ bodySteps ys ++ after

private theorem Surrounds.extend {xs ys : List Stmt} {inner inner' : List Step}
    (h : Surrounds xs ys inner inner') {before after : List Step} (hb : Prepared [] before)
    (ha : Prepared [] after) {steps steps' : List Step} (hsteps : steps = before ++ inner ++ after)
    (hsteps' : steps' = before ++ inner' ++ after) : Surrounds xs ys steps steps' := by
  obtain ⟨front, back, hfront, hback, rfl, rfl⟩ := h
  refine ⟨before ++ front, back ++ after, hb.append hfront, hback.append ha, ?_, ?_⟩
  · simp only [hsteps, List.append_assoc]
  · simp only [hsteps', List.append_assoc]

/-- Where statements are replaced, scripts are replaced. -/
theorem bodySteps_replaces {xs ys body body' : List Stmt} (h : Replaces xs ys body body') :
    Surrounds xs ys (bodySteps body) (bodySteps body') := by
  induction h with
  | here => exact ⟨[], [], trivial, trivial, by simp, by simp⟩
  | among before after h ih =>
    exact ih.extend (prepared_body before) (prepared_body after)
      (by simp only [bodySteps_append]) (by simp only [bodySteps_append])
  | forBody target iter orelse h ih =>
    exact ih.extend ((Prepared.visits [iter]).append (prepared_target target))
      (prepared_body orelse) (by simp [bodySteps, stmtSteps]) (by simp [bodySteps, stmtSteps])
  | forElse target iter body h ih =>
    exact ih.extend (((Prepared.visits [iter]).append (prepared_target target)).append
      (prepared_body body)) (Prepared.visits []) (by simp [bodySteps, stmtSteps])
      (by simp [bodySteps, stmtSteps])
  | branchBody test orelse h ih =>
    exact ih.extend (Prepared.visits [test]) (prepared_body orelse)
      (by simp [bodySteps, stmtSteps]) (by simp [bodySteps, stmtSteps])
  | branchElse test body h ih =>
    exact ih.extend ((Prepared.visits [test]).append (prepared_body body)) (Prepared.visits [])
      (by simp [bodySteps, stmtSteps]) (by simp [bodySteps, stmtSteps])
  | withBody items h ih =>
    exact ih.extend (prepared_items items) (Prepared.visits []) (by simp [bodySteps, stmtSteps])
      (by simp [bodySteps, stmtSteps])
  | tryBody handlers orelse finalbody h ih =>
    exact ih.extend (Prepared.visits []) ((prepared_handlers handlers).append
      ((prepared_body orelse).append (prepared_body finalbody))) (by simp [bodySteps, stmtSteps])
      (by simp [bodySteps, stmtSteps])
  | handlerBody body before after type name orelse finalbody h ih =>
    have hfront := (prepared_body body).append (prepared_handlers before)
    have hclause := hfront.append ((Prepared.visits type.toList).append (.unbinds name.toList))
    have hrest := (prepared_body orelse).append (prepared_body finalbody)
    exact ih.extend hclause ((prepared_handlers after).append hrest)
      (by simp [bodySteps, stmtSteps, handlerSteps_append, handlerSteps])
      (by simp [bodySteps, stmtSteps, handlerSteps_append, handlerSteps])
  | tryElse body handlers finalbody h ih =>
    exact ih.extend ((prepared_body body).append (prepared_handlers handlers))
      (prepared_body finalbody) (by simp [bodySteps, stmtSteps]) (by simp [bodySteps, stmtSteps])
  | finalBody body handlers orelse h ih =>
    have hfront := (prepared_body body).append (prepared_handlers handlers)
    exact ih.extend (hfront.append (prepared_body orelse)) (Prepared.visits [])
      (by simp [bodySteps, stmtSteps]) (by simp [bodySteps, stmtSteps])
  | caseBody subject before after pattern guard h ih =>
    have hfront : Prepared [] ([subject].map .visit ++ caseSteps before) :=
      (Prepared.visits [subject]).append (prepared_cases before)
    have hclause := hfront.append ((Prepared.unbinds pattern.names).append (.visits guard.toList))
    exact ih.extend hclause (prepared_cases after)
      (by simp [bodySteps, stmtSteps, caseSteps_append, caseSteps])
      (by simp [bodySteps, stmtSteps, caseSteps_append, caseSteps])

end ContextLint.Scope
