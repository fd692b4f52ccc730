import ContextLint.Proofs.Scope.Visited

/-!
# What a walk binds

A walk binds a name to a value only behind a visit to that value. All that a walk visits or binds is
thus among the expressions of the module, where a number belongs to one expression.
-/

namespace ContextLint.Scope

open Source

mutual

/-- The values that a step binds to names, those of a nested body included. -/
def Step.values : Step → List Expr
  | .bind _ value _ => value.toList
  | .function _ body | .cls _ body => valuesAll body
  | .visit _ | .unbind _ | .bindElement .. | .onImport _ | .define _ => []

/-- The values that a script binds to names. -/
def valuesAll : List Step → List Expr
  | [] => []
  | step :: rest => step.values ++ valuesAll rest

end

/-- What a step visits in its own scope. -/
def Step.here : Step → List Expr
  | .visit e => [e]
  | _ => []

mutual

/-- The values that a step binds are among the expressions visited so far, or are elements of a
display among them. A nested body starts anew. -/
def Step.Prepared (seen : List Expr) : Step → Prop
  | .bind _ value _ => ∀ e ∈ value, e ∈ seen
  | .bindElement _ value =>
    ∃ site kind elements, .sequence site kind elements ∈ seen ∧ value ∈ elements
  | .function _ body | .cls _ body => Prepared [] body
  | .visit _ | .unbind _ | .onImport _ | .define _ => True

/-- In a script every value is visited before it is bound. -/
def Prepared : List Expr → List Step → Prop
  | _, [] => True
  | seen, step :: rest => step.Prepared seen ∧ Prepared (step.here ++ seen) rest

end

private theorem Step.Prepared.mono {seen seen' : List Expr} (hseen : seen ⊆ seen') {step : Step}
    (h : step.Prepared seen) : step.Prepared seen' := by
  cases step with
  | bind name value hint => exact fun e he => hseen (h e he)
  | bindElement name value =>
    obtain ⟨site, kind, elements, hmem, hvalue⟩ := h
    exact ⟨site, kind, elements, hseen hmem, hvalue⟩
  | _ => exact h

namespace Prepared

variable {seen seen' : List Expr} {xs ys : List Step}

private theorem mono (hseen : seen ⊆ seen') (h : Prepared seen xs) : Prepared seen' xs := by
  induction xs generalizing seen seen' with
  | nil => trivial
  | cons step rest ih =>
    refine ⟨h.1.mono hseen, ih ?_ h.2⟩
    exact List.append_subset.mpr ⟨List.subset_append_left _ _,
      List.subset_append_of_subset_right _ hseen⟩

/-- Scripts one after the other are prepared. -/
theorem append (hx : Prepared seen xs) (hy : Prepared [] ys) : Prepared seen (xs ++ ys) := by
  induction xs generalizing seen with
  | nil => exact hy.mono (List.nil_subset _)
  | cons step rest ih => exact ⟨hx.1, ih hx.2⟩

/-- A script whose steps need only what is visited before it. -/
theorem of_forall (h : ∀ step ∈ xs, step.Prepared seen) : Prepared seen xs := by
  induction xs generalizing seen with
  | nil => trivial
  | cons step rest ih =>
    rw [List.forall_mem_cons] at h
    refine ⟨h.1, ih fun step' hmem => ?_⟩
    exact (h.2 step' hmem).mono (List.subset_append_right _ _)

/-- Visits bind nothing. -/
theorem visits (es : List Expr) : Prepared seen (es.map .visit) :=
  of_forall (List.forall_mem_map.mpr fun _ _ => trivial)

/-- Unbinding binds no value. -/
theorem unbinds (names : List String) : Prepared seen (names.map .unbind) :=
  of_forall (List.forall_mem_map.mpr fun _ _ => trivial)

end Prepared

private theorem mem_of_pairUp {targets values : List Expr} {pairs : List (String × Expr)}
    (h : parallelPairs.pairUp targets values = some pairs) : ∀ p ∈ pairs, p.2 ∈ values := by
  fun_induction parallelPairs.pairUp targets values generalizing pairs with
  | case1 =>
    obtain rfl := Option.some.inj h
    exact List.forall_mem_nil _
  | case2 => cases h
  | case3 site id ts v vs _ ih =>
    obtain ⟨rest, hrest, rfl⟩ := Option.map_eq_some_iff.mp h
    refine List.forall_mem_cons.mpr ⟨List.mem_cons_self, fun p hp => ?_⟩
    exact List.mem_cons_of_mem v (ih hrest p hp)
  | case4 => cases h

/-- The values of a parallel assignment are elements of the assigned display. -/
theorem mem_of_parallelPairs {target value : Expr} {pairs : List (String × Expr)}
    (h : parallelPairs target value = some pairs) :
    ∃ site kind elements, value = .sequence site kind elements ∧ ∀ p ∈ pairs, p.2 ∈ elements := by
  unfold parallelPairs at h
  split at h
  · exact ⟨_, _, _, rfl, mem_of_pairUp h⟩
  · cases h

/-- A target binds no value. -/
theorem prepared_target (target : Expr) : Prepared [] (targetSteps target) :=
  .of_forall (forall_targetSteps (fun _ => trivial) (fun _ => trivial) target)

private theorem prepared_assign (targets : List Expr) (value : Expr) :
    Prepared [] (.visit value :: assignSteps targets value) := by
  refine ⟨trivial, ?_⟩
  unfold assignSteps
  split
  · exact ⟨fun e he => by simpa [Step.here] using he.symm, trivial⟩
  · next target _ =>
    split
    · next pairs hpairs =>
      obtain ⟨site, kind, elements, rfl, hmem⟩ := mem_of_parallelPairs hpairs
      refine .of_forall (List.forall_mem_map.mpr fun p hp => ?_)
      exact ⟨site, kind, elements, List.mem_singleton_self _, hmem p hp⟩
    · exact (prepared_target target).mono (List.nil_subset _)
  · exact .of_forall (forall_targetsSteps (fun _ => trivial) (fun _ => trivial) targets)

private theorem prepared_annAssign (target hint : Expr) (value : Option Expr) :
    Prepared [] (value.toList.map .visit ++ annAssignSteps target hint value) := by
  cases target with
  | name s id =>
    cases value with
    | none => exact ⟨nofun, trivial⟩
    | some e => exact ⟨trivial, fun e' he' => by simpa [Step.here] using he'.symm, trivial⟩
  | _ => exact (Prepared.visits _).append ⟨trivial, trivial⟩

/-- The items of a `with` bind no values. -/
theorem prepared_items (items : List WithItem) : Prepared [] (items.flatMap itemSteps) :=
  .of_forall (forall_itemSteps (fun _ => trivial) (fun _ => trivial) items)

mutual

private theorem prepared_stmt (s : Stmt) : Prepared [] (stmtSteps s) := by
  cases s with
  | assign targets value => exact prepared_assign targets value
  | annAssign target hint value => exact prepared_annAssign target hint value
  | augAssign target value => exact (Prepared.visits [value]).append (prepared_target target)
  | forLoop target iter body orelse =>
    exact ((Prepared.visits [iter]).append (prepared_target target)).append
      ((prepared_body body).append (prepared_body orelse))
  | branch test body orelse =>
    exact (Prepared.visits [test]).append ((prepared_body body).append (prepared_body orelse))
  | withBlock items body => exact (prepared_items items).append (prepared_body body)
  | tryBlock body handlers orelse finalbody =>
    exact ((prepared_body body).append (prepared_handlers handlers)).append
      ((prepared_body orelse).append (prepared_body finalbody))
  | matchBlock subject cases => exact (Prepared.visits [subject]).append (prepared_cases cases)
  | functionDef head body | classDef head body =>
    exact (Prepared.visits _).append ⟨trivial, prepared_body body, trivial⟩
  | delete targets =>
    exact .of_forall (forall_targetsSteps (fun _ => trivial) (fun _ => trivial) targets)
  | imports stmt => exact ⟨trivial, trivial⟩
  | value e | raise exc cause | assert test msg => exact Prepared.visits _
  | inert => exact Prepared.visits []

/-- In the script of statements every value is visited before it is bound. -/
theorem prepared_body (body : List Stmt) : Prepared [] (bodySteps body) := by
  cases body with
  | nil => exact Prepared.visits []
  | cons s rest => exact (prepared_stmt s).append (prepared_body rest)

/-- Handlers are prepared by their bodies. -/
theorem prepared_handlers (handlers : List Handler) : Prepared [] (handlerSteps handlers) := by
  cases handlers with
  | nil => exact Prepared.visits []
  | cons handler rest =>
    obtain ⟨type, name, body⟩ := handler
    exact (((Prepared.visits _).append (Prepared.unbinds _)).append (prepared_body body)).append
      (prepared_handlers rest)

/-- Cases are prepared by their bodies. -/
theorem prepared_cases (cases : List Case) : Prepared [] (caseSteps cases) := by
  cases cases with
  | nil => exact Prepared.visits []
  | cons case rest =>
    obtain ⟨pattern, guard, body⟩ := case
    exact (((Prepared.unbinds _).append (Prepared.visits _)).append (prepared_body body)).append
      (prepared_cases rest)

end

mutual

private theorem values_of_prepared (step : Step) {seen : List Expr} (h : step.Prepared seen) :
    step.values ⊆ seen ++ step.visited := by
  cases step with
  | bind name value hint =>
    intro e he
    exact List.mem_append_left _ (h e (Option.mem_toList.mp he))
  | function head body | cls head body =>
    exact List.subset_append_of_subset_right _ (valuesAll_of_prepared body h)
  | _ => exact List.nil_subset _

private theorem valuesAll_of_prepared (steps : List Step) {seen : List Expr}
    (h : Prepared seen steps) : valuesAll steps ⊆ seen ++ visitedAll steps := by
  cases steps with
  | nil => exact List.nil_subset _
  | cons step rest =>
    have hhere : step.here ⊆ step.visited := by
      cases step <;> simp [Step.here, Step.visited]
    have hstep := values_of_prepared step h.1
    have hrest := valuesAll_of_prepared rest h.2
    intro e he
    rw [valuesAll, List.mem_append] at he
    rw [visitedAll, List.mem_append, List.mem_append]
    rcases he with he | he
    · exact (List.mem_append.mp (hstep he)).imp_right .inl
    · rw [List.append_assoc] at hrest
      rcases List.mem_append.mp (hrest he) with hmem | hmem
      · exact .inr (.inl (hhere hmem))
      · exact (List.mem_append.mp hmem).imp_right .inr

end

/-- The values bound in the script of statements are visited there. -/
theorem values_visited (body : List Stmt) :
    valuesAll (bodySteps body) ⊆ visitedAll (bodySteps body) :=
  valuesAll_of_prepared _ (prepared_body body)

end ContextLint.Scope

namespace ContextLint.Source.Module

open Scope

/-- What is inside an expression of a module is an expression of the module. -/
theorem mem_nodes_of_mem {m : Module} {n e : Expr} (hn : n ∈ e.nodes) (he : e ∈ m.nodes) :
    n ∈ m.nodes := by
  simp only [nodes, Expr.nodesOf_eq_flatMap, List.mem_flatMap] at he ⊢
  obtain ⟨top, htop, he⟩ := he
  exact ⟨top, htop, Expr.mem_nodes_trans hn he⟩

/-- Live parts of what a walk visits are expressions of the module. -/
theorem mem_nodes_of_visited {m : Module} {n e : Expr} (he : e ∈ m.visited)
    (hn : n ∈ e.liveNodes) : n ∈ m.nodes := by
  have hlive : n ∈ m.liveNodes := m.visited_subperm.subset (List.mem_flatMap.mpr ⟨e, he, hn⟩)
  exact m.nodes_perm.mem_iff.mpr (List.mem_append_left _ hlive)

/-- In a numbered module a number belongs to one expression. -/
theorem Numbered.inj {m : Module} (h : m.Numbered) {a b : Expr} (ha : a ∈ m.nodes)
    (hb : b ∈ m.nodes) (hab : a.id = b.id) : a = b :=
  List.inj_on_of_nodup_map h ha hb hab

end ContextLint.Source.Module
