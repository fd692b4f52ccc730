import Mathlib.Data.List.Forall2
import ContextLint.Proofs.Scope.Script
import ContextLint.Proofs.Source.Levels

/-!
# Programs that differ in their annotations

Two scripts are alike if they are the same up to related annotations. Rewriting the annotations of a
body, whichever they are, leaves its shape as it is: the statements are found in the same order and
the scripts are alike.
-/

namespace ContextLint.Source

/-- Parameters of one name with related annotations. -/
structure Param.Like (H : Expr → Expr → Prop) (p p' : Param) : Prop where
  name : p.name = p'.name
  hint : Option.Rel H p.hint p'.hint

/-- Functions of the same shape with related annotations. -/
structure FunctionHead.Like (H : Expr → Expr → Prop) (head head' : FunctionHead) : Prop where
  names : head.params.names = head'.params.names
  positional : List.Forall₂ (Param.Like H) head.params.positional head'.params.positional
  kwOnly : List.Forall₂ (Param.Like H) head.params.kwOnly head'.params.kwOnly
  decorators : head.decorators = head'.decorators

variable {H : Expr → Expr → Prop}

private theorem Param.Like.refl (hH : ∀ e, H e e) (p : Param) : p.Like H p := by
  refine ⟨rfl, ?_⟩
  cases p.hint with
  | none => exact .none
  | some e => exact .some (hH e)

/-- A head is like itself. -/
theorem FunctionHead.Like.refl (hH : ∀ e, H e e) (head : FunctionHead) : head.Like H head :=
  ⟨rfl, List.forall₂_same.mpr fun p _ => .refl hH p,
    List.forall₂_same.mpr fun p _ => .refl hH p, rfl⟩

end ContextLint.Source

namespace ContextLint.Scope

open Source

mutual

/-- Steps of the same shape with related annotations. -/
inductive Step.Like (H : Expr → Expr → Prop) : Step → Step → Prop
  | visit (e : Expr) : Step.Like H (.visit e) (.visit e)
  | bind (name : String) (value : Option Expr) {hint hint'}
      (h : Option.Rel H hint hint') : Step.Like H (.bind name value hint) (.bind name value hint')
  | unbind (name : String) : Step.Like H (.unbind name) (.unbind name)
  | bindElement (name : String) (value : Expr) :
      Step.Like H (.bindElement name value) (.bindElement name value)
  | onImport (stmt : Import) : Step.Like H (.onImport stmt) (.onImport stmt)
  | define (name : String) : Step.Like H (.define name) (.define name)
  | function {head head' body body'} (h : head.Like H head')
      (hbody : LikeAll H body body') : Step.Like H (.function head body) (.function head' body')
  | cls {head head' body body'} (h : head.name = head'.name)
      (hbody : LikeAll H body body') : Step.Like H (.cls head body) (.cls head' body')

/-- Scripts of the same shape with related annotations. -/
inductive LikeAll (H : Expr → Expr → Prop) : List Step → List Step → Prop
  | nil : LikeAll H [] []
  | cons {step step' rest rest'} (h : Step.Like H step step')
      (hrest : LikeAll H rest rest') : LikeAll H (step :: rest) (step' :: rest')

end

mutual

/-- A step is like itself. -/
theorem Step.Like.refl {H : Expr → Expr → Prop} (hH : ∀ e, H e e) (step : Step) :
    step.Like H step := by
  cases step with
  | visit e => exact .visit e
  | bind name value hint =>
    refine .bind name value ?_
    cases hint with
    | none => exact .none
    | some e => exact .some (hH e)
  | unbind name => exact .unbind name
  | bindElement name value => exact .bindElement name value
  | onImport stmt => exact .onImport stmt
  | define name => exact .define name
  | function head body => exact .function (.refl hH head) (LikeAll.refl hH body)
  | cls head body => exact .cls rfl (LikeAll.refl hH body)

/-- A script is like itself. -/
theorem LikeAll.refl {H : Expr → Expr → Prop} (hH : ∀ e, H e e) (steps : List Step) :
    LikeAll H steps steps := by
  cases steps with
  | nil => exact .nil
  | cons step rest => exact .cons (Step.Like.refl hH step) (LikeAll.refl hH rest)

end

private theorem LikeAll.append {H : Expr → Expr → Prop} {xs xs' ys ys' : List Step}
    (h : LikeAll H xs xs')
    (h' : LikeAll H ys ys') : LikeAll H (xs ++ ys) (xs' ++ ys') := by
  induction xs generalizing xs' with
  | nil =>
    cases h
    exact h'
  | cons step rest ih =>
    cases h with
    | cons hstep hrest => exact .cons hstep (ih hrest)

end ContextLint.Scope

namespace ContextLint.Source

/-- Rewrite the annotation of a parameter. -/
def Param.mapHint (f : Expr → Expr) (p : Param) : Param := { p with hint := p.hint.map f }

/-- Rewrite the annotations of parameters. -/
def Parameters.mapHints (f : Expr → Expr) (p : Parameters) : Parameters :=
  { p with
    posOnly := p.posOnly.map (Param.mapHint f)
    regular := p.regular.map (Param.mapHint f)
    vararg := p.vararg.map (Param.mapHint f)
    kwOnly := p.kwOnly.map (Param.mapHint f)
    kwarg := p.kwarg.map (Param.mapHint f) }

/-- Rewrite the annotations of a function, that of its result included. -/
def FunctionHead.mapHints (f : Expr → Expr) (head : FunctionHead) : FunctionHead :=
  { head with params := head.params.mapHints f, returns := head.returns.map f }

mutual

/-- Rewrite the annotations of a statement and of the statements inside it. -/
def Stmt.mapHints (f : Expr → Expr) : Stmt → Stmt
  | .annAssign target hint value => .annAssign target (f hint) value
  | .forLoop target iter body orelse =>
    .forLoop target iter (mapHintsOf f body) (mapHintsOf f orelse)
  | .branch test body orelse => .branch test (mapHintsOf f body) (mapHintsOf f orelse)
  | .withBlock items body => .withBlock items (mapHintsOf f body)
  | .tryBlock body handlers orelse finalbody =>
    .tryBlock (mapHintsOf f body) (handlersMapHints f handlers) (mapHintsOf f orelse)
      (mapHintsOf f finalbody)
  | .matchBlock subject cases => .matchBlock subject (casesMapHints f cases)
  | .functionDef head body => .functionDef (head.mapHints f) (mapHintsOf f body)
  | .classDef head body => .classDef head (mapHintsOf f body)
  | s => s

/-- Rewrite the annotations of statements. -/
def mapHintsOf (f : Expr → Expr) : List Stmt → List Stmt
  | [] => []
  | s :: rest => s.mapHints f :: mapHintsOf f rest

/-- Rewrite the annotations of `except` clauses. -/
def handlersMapHints (f : Expr → Expr) : List Handler → List Handler
  | [] => []
  | .mk type name body :: rest => .mk type name (mapHintsOf f body) :: handlersMapHints f rest

/-- Rewrite the annotations of `case` clauses. -/
def casesMapHints (f : Expr → Expr) : List Case → List Case
  | [] => []
  | .mk pattern guard body :: rest => .mk pattern guard (mapHintsOf f body) :: casesMapHints f rest

end

/-- Rewrite the annotations of a module. -/
def Module.mapHints (f : Expr → Expr) (m : Module) : Module :=
  { m with body := mapHintsOf f m.body }

variable {s : Stmt} {body : List Stmt} {H : Expr → Expr → Prop}

section

variable {f : Expr → Expr}

theorem mapHintsOf_eq_map (stmts : List Stmt) :
    mapHintsOf f stmts = stmts.map (Stmt.mapHints f) := by
  induction stmts with
  | nil => rfl
  | cons s rest ih => rw [mapHintsOf, ih, List.map_cons]

private theorem zipLevels_mapHints (xs ys : List (List Stmt)) :
    zipLevels (xs.map (List.map (Stmt.mapHints f))) (ys.map (List.map (Stmt.mapHints f))) =
      (zipLevels xs ys).map (List.map (Stmt.mapHints f)) :=
  zipLevels_map (fun _ _ => List.map_append) xs ys

namespace Stmt

mutual

private theorem levels_mapHints (s : Stmt) :
    (s.mapHints f).levels = s.levels.map (List.map (mapHints f)) := by
  cases s with
  | forLoop target iter body orelse | branch test body orelse =>
    simp [mapHints, levels, levelsOf_mapHints body, levelsOf_mapHints orelse, zipLevels_mapHints]
  | withBlock items body | functionDef head body | classDef head body =>
    simp [mapHints, levels, levelsOf_mapHints body]
  | tryBlock body handlers orelse finalbody =>
    simp [mapHints, levels, levelsOf_mapHints body, handlerLevels_mapHints handlers,
      levelsOf_mapHints orelse, levelsOf_mapHints finalbody, zipLevels_mapHints]
  | matchBlock subject cases => simp [mapHints, levels, caseLevels_mapHints cases]
  | _ => simp [mapHints, levels]

private theorem levelsOf_mapHints (stmts : List Stmt) :
    levelsOf (mapHintsOf f stmts) = (levelsOf stmts).map (List.map (mapHints f)) := by
  cases stmts with
  | nil => rfl
  | cons s rest =>
    simp [mapHintsOf, levelsOf, levels_mapHints s, levelsOf_mapHints rest, zipLevels_mapHints]

private theorem handlerLevels_mapHints (handlers : List Handler) :
    handlerLevels (handlersMapHints f handlers) =
      (handlerLevels handlers).map (List.map (mapHints f)) := by
  cases handlers with
  | nil => rfl
  | cons handler rest =>
    obtain ⟨type, name, body⟩ := handler
    have hzip := zipLevels_mapHints (f := f) ([] :: levelsOf body) (handlerLevels rest)
    rw [handlersMapHints, handlerLevels, handlerLevels, ← hzip, levelsOf_mapHints body,
      handlerLevels_mapHints rest]
    rfl

private theorem caseLevels_mapHints (cases : List Case) :
    caseLevels (casesMapHints f cases) = (caseLevels cases).map (List.map (mapHints f)) := by
  cases cases with
  | nil => rfl
  | cons case rest =>
    obtain ⟨pattern, guard, body⟩ := case
    have hzip := zipLevels_mapHints (f := f) ([] :: levelsOf body) (caseLevels rest)
    rw [casesMapHints, caseLevels, caseLevels, ← hzip, levelsOf_mapHints body,
      caseLevels_mapHints rest]
    rfl

end

/-- The statements inside a statement are found in the same order. -/
theorem breadthFirst_mapHints (s : Stmt) :
    (s.mapHints f).breadthFirst = s.breadthFirst.map (mapHints f) := by
  rw [breadthFirst, breadthFirst, levels_mapHints, List.map_flatten]

end Stmt

/-- The statements of a module are found in the same order. -/
theorem Module.breadthFirst_mapHints (m : Module) :
    (m.mapHints f).breadthFirst = m.breadthFirst.map (Stmt.mapHints f) := by
  rw [breadthFirst, breadthFirst, mapHints, Stmt.levelsOf_mapHints, List.map_flatten]

namespace Stmt

/-- What becomes an annotated assignment is one. -/
theorem mapHints_eq_annAssign {target hint : Expr} {value : Option Expr}
    (h : s.mapHints f = .annAssign target hint value) :
    ∃ hint', s = .annAssign target hint' value ∧ hint = f hint' := by
  cases s with
  | annAssign target' hint' value' =>
    cases h
    exact ⟨hint', rfl, rfl⟩
  | _ => cases h

theorem mapHints_eq_functionDef {head : FunctionHead} (h : s.mapHints f = .functionDef head body) :
    ∃ head' body', s = .functionDef head' body' := by
  cases s with
  | functionDef head' body' => exact ⟨head', body', rfl⟩
  | _ => cases h

theorem mapHints_eq_classDef {head : ClassHead} (h : s.mapHints f = .classDef head body) :
    ∃ head' body', s = .classDef head' body' := by
  cases s with
  | classDef head' body' => exact ⟨head', body', rfl⟩
  | _ => cases h

end Stmt

/-- The annotation of a parameter is rewritten. -/
theorem Param.mapHint_like (hf : ∀ e, H e (f e)) (p : Param) : p.Like H (p.mapHint f) := by
  refine ⟨rfl, ?_⟩
  unfold mapHint
  cases p.hint with
  | none => exact .none
  | some e => exact .some (hf e)

/-- The annotations of a function are rewritten. -/
theorem FunctionHead.mapHints_like (hf : ∀ e, H e (f e)) (head : FunctionHead) :
    head.Like H (head.mapHints f) := by
  have hmap : ∀ params : List Param,
      List.Forall₂ (Param.Like H) params (params.map (Param.mapHint f)) := by
    intro params
    exact List.forall₂_map_right_iff.mpr (List.forall₂_same.mpr fun p _ => p.mapHint_like hf)
  have hname : Param.name ∘ Param.mapHint f = Param.name := rfl
  refine ⟨?_, ?_, hmap _, rfl⟩
  · simp [Parameters.names, Parameters.positional, mapHints, Parameters.mapHints, hname,
      Option.toList_map]
  · exact List.rel_append (hmap head.params.posOnly) (hmap head.params.regular)

end

end ContextLint.Source

namespace ContextLint.Scope

open Source

section

variable {H : Expr → Expr → Prop} {f : Expr → Expr}

mutual

private theorem stmtSteps_mapHints (hH : ∀ e, H e e) (hf : ∀ e, H e (f e)) (s : Stmt) :
    LikeAll H (stmtSteps s) (stmtSteps (s.mapHints f)) := by
  have hrefl := LikeAll.refl hH
  cases s with
  | annAssign target hint value =>
    refine (hrefl _).append ?_
    unfold annAssignSteps
    split
    · exact .cons (.bind _ value (.some (hf hint))) .nil
    · exact hrefl _
  | forLoop target iter body orelse =>
    exact .append (hrefl _) (.append (bodySteps_mapHints hH hf body)
      (bodySteps_mapHints hH hf orelse))
  | branch test body orelse =>
    exact .cons (.visit test) (.append (bodySteps_mapHints hH hf body)
      (bodySteps_mapHints hH hf orelse))
  | withBlock items body => exact .append (hrefl _) (bodySteps_mapHints hH hf body)
  | tryBlock body handlers orelse finalbody =>
    refine .append (.append (bodySteps_mapHints hH hf body) ?_) (.append
      (bodySteps_mapHints hH hf orelse) (bodySteps_mapHints hH hf finalbody))
    exact handlerSteps_mapHints hH hf handlers
  | matchBlock subject cases => exact .cons (.visit subject) (caseSteps_mapHints hH hf cases)
  | functionDef head body =>
    refine .append (hrefl _) (.cons (.define head.name) (.cons ?_ .nil))
    exact .function (head.mapHints_like hf) (bodySteps_mapHints hH hf body)
  | classDef head body =>
    refine .append (hrefl _) (.cons (.define head.name) (.cons ?_ .nil))
    exact .cls rfl (bodySteps_mapHints hH hf body)
  | _ => exact hrefl _

/-- The script of a body with rewritten annotations is alike. -/
theorem bodySteps_mapHints (hH : ∀ e, H e e) (hf : ∀ e, H e (f e)) (body : List Stmt) :
    LikeAll H (bodySteps body) (bodySteps (mapHintsOf f body)) := by
  cases body with
  | nil => exact .nil
  | cons s rest =>
    exact .append (stmtSteps_mapHints hH hf s) (bodySteps_mapHints hH hf rest)

private theorem handlerSteps_mapHints (hH : ∀ e, H e e) (hf : ∀ e, H e (f e))
    (handlers : List Handler) :
    LikeAll H (handlerSteps handlers) (handlerSteps (handlersMapHints f handlers)) := by
  cases handlers with
  | nil => exact .nil
  | cons handler rest =>
    obtain ⟨type, name, body⟩ := handler
    refine .append (.append (LikeAll.refl hH _) (bodySteps_mapHints hH hf body)) ?_
    exact handlerSteps_mapHints hH hf rest

private theorem caseSteps_mapHints (hH : ∀ e, H e e) (hf : ∀ e, H e (f e)) (cases : List Case) :
    LikeAll H (caseSteps cases) (caseSteps (casesMapHints f cases)) := by
  cases cases with
  | nil => exact .nil
  | cons case rest =>
    obtain ⟨pattern, guard, body⟩ := case
    refine .append (.append (LikeAll.refl hH _) (bodySteps_mapHints hH hf body)) ?_
    exact caseSteps_mapHints hH hf rest

end

end

end ContextLint.Scope
