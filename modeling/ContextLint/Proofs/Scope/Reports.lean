import ContextLint.Proofs.Scope.Spared

/-!
# What a walk reports of a statement

A script nests the steps of a function or class body inside one step. Taken at any depth, the steps
of a script are the reports of the statements, each of which reports what it binds and evaluates
itself.
-/

namespace ContextLint.Scope

open Source

mutual

/-- A step and the steps of a nested body, at any depth. -/
def Step.within : Step → List Step
  | .function head body => .function head body :: withinAll body
  | .cls head body => .cls head body :: withinAll body
  | step => [step]

/-- The steps of a script at any depth. -/
def withinAll : List Step → List Step
  | [] => []
  | step :: rest => step.within ++ withinAll rest

end

@[simp] private theorem withinAll_append (xs ys : List Step) :
    withinAll (xs ++ ys) = withinAll xs ++ withinAll ys := by
  induction xs with
  | nil => rfl
  | cons x xs ih => simp [withinAll, ih]

/-- A script without nested bodies. -/
theorem withinAll_of_flat {steps : List Step} (h : ∀ step ∈ steps, step.within = [step]) :
    withinAll steps = steps := by
  induction steps with
  | nil => rfl
  | cons step rest ih =>
    rw [List.forall_mem_cons] at h
    rw [withinAll, h.1, ih h.2, List.singleton_append]

@[simp] private theorem withinAll_map_visit (es : List Expr) :
    withinAll (es.map .visit) = es.map .visit :=
  withinAll_of_flat (List.forall_mem_map.mpr fun _ _ => rfl)

@[simp] private theorem withinAll_map_unbind (names : List String) :
    withinAll (names.map .unbind) = names.map .unbind :=
  withinAll_of_flat (List.forall_mem_map.mpr fun _ _ => rfl)

mutual

private theorem mem_visited_iff (step : Step) {e : Expr} :
    e ∈ step.visited ↔ .visit e ∈ step.within := by
  cases step with
  | function head body | cls head body => simp [Step.visited, Step.within, mem_visitedAll_iff body]
  | _ => simp [Step.visited, Step.within]

/-- What a script visits is visited by one of its steps. -/
theorem mem_visitedAll_iff (steps : List Step) {e : Expr} :
    e ∈ visitedAll steps ↔ .visit e ∈ withinAll steps := by
  cases steps with
  | nil => simp [visitedAll, withinAll]
  | cons step rest =>
    simp only [visitedAll, withinAll, List.mem_append, mem_visited_iff step,
      mem_visitedAll_iff rest]

end

/-- The steps of a script are among those at any depth. -/
theorem subset_withinAll (steps : List Step) : steps ⊆ withinAll steps := by
  induction steps with
  | nil => exact List.nil_subset _
  | cons step rest ih =>
    have hself : step ∈ step.within := by cases step <;> exact List.mem_cons_self
    exact List.cons_subset.mpr ⟨List.mem_append_left _ hself,
      List.subset_append_of_subset_right _ ih⟩

/-- A script of nothing but visits and rebindings nests no body. -/
private theorem flat_of_forall {steps : List Step}
    (h : ∀ {P : Step → Prop}, (∀ e, P (.visit e)) → (∀ x, P (.unbind x)) → ∀ step ∈ steps, P step) :
    withinAll steps = steps := withinAll_of_flat (h (fun _ => rfl) (fun _ => rfl))

private theorem flat_assign (targets : List Expr) (value : Expr) :
    withinAll (assignSteps targets value) = assignSteps targets value :=
  withinAll_of_flat (forall_assignSteps (fun _ => rfl) (fun _ => rfl) (fun _ _ _ => rfl)
    fun _ _ _ _ _ _ => rfl)

private theorem flat_annAssign (target hint : Expr) (value : Option Expr) :
    withinAll (annAssignSteps target hint value) = annAssignSteps target hint value := by
  unfold annAssignSteps
  split <;> rfl

end ContextLint.Scope

namespace ContextLint.Source

open Scope

/-- What a walk reports of an `except` clause itself. -/
def Handler.reports : Handler → List Step
  | .mk type name _ => type.toList.map .visit ++ name.toList.map .unbind

/-- What a walk reports of a `case` clause itself. -/
def Case.reports : Case → List Step
  | .mk pattern guard _ => pattern.names.map .unbind ++ guard.toList.map .visit

namespace Stmt

/-- What a walk reports of a statement itself, the statements inside it apart. -/
def reports : Stmt → List Step
  | assign targets rhs => .visit rhs :: assignSteps targets rhs
  | annAssign target hint rhs => rhs.toList.map .visit ++ annAssignSteps target hint rhs
  | augAssign target rhs => .visit rhs :: targetSteps target
  | forLoop target iter _ _ => .visit iter :: targetSteps target
  | branch test _ _ => [.visit test]
  | withBlock items _ => items.flatMap itemSteps
  | tryBlock _ handlers _ _ => handlers.flatMap Handler.reports
  | matchBlock subject cases => .visit subject :: cases.flatMap Case.reports
  | functionDef head body =>
    (head.decorators ++ head.params.defaultValues).map .visit ++
      [.define head.name, .function head (bodySteps body)]
  | classDef head body =>
    (head.decorators ++ head.bases ++ head.keywords).map .visit ++
      [.define head.name, .cls head (bodySteps body)]
  | delete targets => targetsSteps targets
  | imports stmt => [.onImport stmt]
  | value e => e.toList.map .visit
  | raise exc cause => (exc.toList ++ cause.toList).map .visit
  | .assert test msg => (test :: msg.toList).map .visit
  | inert => []

/-- What holds of visits and plain bindings, and of the annotated binding, the import or the
definition that a statement is, holds of all that is reported of it. -/
theorem forall_reports {P : Step → Prop} {s : Stmt} (hvisit : ∀ e, P (.visit e))
    (hunbind : ∀ x, P (.unbind x)) (hassign : ∀ x e, P (.bind x (some e) none))
    (helement : ∀ x e, P (.bindElement x e))
    (hannotated : ∀ site x hint rhs, s = .annAssign (.name site x) hint rhs →
      P (.bind x rhs (some hint)))
    (himport : ∀ stmt, s = .imports stmt → P (.onImport stmt))
    (hfunction : ∀ head body, s = .functionDef head body →
      P (.define head.name) ∧ P (.function head (bodySteps body)))
    (hclass : ∀ head body, s = .classDef head body →
      P (.define head.name) ∧ P (.cls head (bodySteps body))) : ∀ step ∈ s.reports, P step := by
  have hvisits (es : List Expr) : ∀ step ∈ es.map Step.visit, P step :=
    List.forall_mem_map.mpr fun e _ => hvisit e
  have hunbinds (names : List String) : ∀ step ∈ names.map Step.unbind, P step :=
    List.forall_mem_map.mpr fun x _ => hunbind x
  cases s with
  | assign targets rhs =>
    exact List.forall_mem_cons.mpr ⟨hvisit rhs, forall_assignSteps hvisit hunbind
      (fun _ x _ => hassign x rhs) fun _ _ _ _ p _ => helement p.1 p.2⟩
  | annAssign target hint rhs =>
    refine List.forall_mem_append.mpr ⟨hvisits _, ?_⟩
    unfold annAssignSteps
    split
    · exact List.forall_mem_singleton.mpr (hannotated _ _ _ _ rfl)
    · exact List.forall_mem_singleton.mpr (hvisit target)
  | augAssign target rhs | forLoop target rhs body orelse =>
    exact List.forall_mem_cons.mpr ⟨hvisit rhs, forall_targetSteps hvisit hunbind target⟩
  | branch test body orelse => exact List.forall_mem_singleton.mpr (hvisit test)
  | withBlock items body => exact forall_itemSteps hvisit hunbind items
  | tryBlock body handlers orelse finalbody =>
    intro step h
    obtain ⟨⟨type, name, body⟩, -, h⟩ := List.mem_flatMap.mp h
    exact List.forall_mem_append.mpr ⟨hvisits _, hunbinds _⟩ step h
  | matchBlock subject cases =>
    refine List.forall_mem_cons.mpr ⟨hvisit subject, fun step h => ?_⟩
    obtain ⟨⟨pattern, guard, body⟩, -, h⟩ := List.mem_flatMap.mp h
    exact List.forall_mem_append.mpr ⟨hunbinds _, hvisits _⟩ step h
  | functionDef head body =>
    obtain ⟨hdefine, hbody⟩ := hfunction head body rfl
    exact List.forall_mem_append.mpr ⟨hvisits _, by simp [hdefine, hbody]⟩
  | classDef head body =>
    obtain ⟨hdefine, hbody⟩ := hclass head body rfl
    exact List.forall_mem_append.mpr ⟨hvisits _, by simp [hdefine, hbody]⟩
  | delete targets => exact forall_targetsSteps hvisit hunbind targets
  | imports stmt => exact List.forall_mem_singleton.mpr (himport stmt rfl)
  | value e | raise exc cause | assert test msg => exact hvisits _
  | inert => exact List.forall_mem_nil _

mutual

private theorem mem_within_stmt (s : Stmt) (step : Step) :
    step ∈ withinAll (stmtSteps s) ↔ step ∈ s.inside.flatMap reports := by
  cases s with
  | assign targets value =>
    simp [stmtSteps, inside, reports, withinAll, Step.within, flat_assign]
  | annAssign target hint value =>
    simp [stmtSteps, inside, reports, flat_annAssign]
  | augAssign target value =>
    have hflat := flat_of_forall fun hv hu => forall_targetSteps hv hu target
    simp [stmtSteps, inside, reports, withinAll, Step.within, hflat]
  | forLoop target iter body orelse =>
    have hflat := flat_of_forall fun hv hu => forall_targetSteps hv hu target
    simp only [stmtSteps, inside, reports, withinAll, Step.within, hflat, List.cons_append,
      List.nil_append, withinAll_append, List.mem_cons, List.mem_append, List.flatMap_cons,
      List.flatMap_append, mem_within_body body, mem_within_body orelse]
  | branch test body orelse =>
    simp only [stmtSteps, inside, reports, withinAll, Step.within, List.cons_append,
      List.nil_append, withinAll_append, List.mem_cons, List.mem_append, List.flatMap_cons,
      List.flatMap_append, mem_within_body body, mem_within_body orelse]
  | withBlock items body =>
    have hflat := flat_of_forall fun hv hu => forall_itemSteps hv hu items
    simp only [stmtSteps, inside, reports, withinAll_append, hflat, List.mem_append,
      List.flatMap_cons, mem_within_body body]
  | tryBlock body handlers orelse finalbody =>
    simp only [stmtSteps, inside, reports, withinAll_append, List.mem_append, List.flatMap_cons,
      List.flatMap_append, mem_within_body body, mem_within_handlers handlers,
      mem_within_body orelse, mem_within_body finalbody]
    tauto
  | matchBlock subject cases =>
    simp only [stmtSteps, inside, reports, withinAll, Step.within, List.cons_append,
      List.nil_append, List.mem_cons, List.mem_append, List.flatMap_cons, mem_within_cases cases]
  | functionDef head body | classDef head body =>
    simp only [stmtSteps, inside, reports, withinAll_append, withinAll_map_visit, withinAll,
      Step.within, List.cons_append, List.nil_append, List.append_nil, List.mem_cons,
      List.mem_append, List.flatMap_cons, mem_within_body body]
    tauto
  | delete targets =>
    have hflat := flat_of_forall fun hv hu => forall_targetsSteps hv hu targets
    simp [stmtSteps, inside, reports, hflat]
  | imports stmt => simp [stmtSteps, inside, reports, withinAll, Step.within]
  | value e | raise exc cause | assert test msg =>
    simp only [stmtSteps, inside, reports, withinAll_map_visit, List.flatMap_singleton]
  | inert => simp [stmtSteps, inside, reports, withinAll]

/-- The steps of the script of statements, at any depth, are the reports of the statements inside.
-/
theorem mem_within_body (body : List Stmt) (step : Step) :
    step ∈ withinAll (bodySteps body) ↔ step ∈ (insideOf body).flatMap reports := by
  cases body with
  | nil => simp [bodySteps, insideOf, withinAll]
  | cons s rest =>
    simp only [bodySteps, insideOf, withinAll_append, List.flatMap_append, List.mem_append,
      mem_within_stmt s, mem_within_body rest]

private theorem mem_within_handlers (handlers : List Handler) (step : Step) :
    step ∈ withinAll (handlerSteps handlers) ↔
      step ∈ handlers.flatMap Handler.reports ∨
        step ∈ (handlersInside handlers).flatMap reports := by
  cases handlers with
  | nil => simp [handlerSteps, handlersInside, withinAll]
  | cons handler rest =>
    obtain ⟨type, name, body⟩ := handler
    simp only [handlerSteps, handlersInside, Handler.reports, withinAll_append,
      withinAll_map_visit, withinAll_map_unbind, List.flatMap_cons, List.flatMap_append,
      List.mem_append, mem_within_body body, mem_within_handlers rest]
    tauto

private theorem mem_within_cases (cases : List Case) (step : Step) :
    step ∈ withinAll (caseSteps cases) ↔
      step ∈ cases.flatMap Case.reports ∨ step ∈ (casesInside cases).flatMap reports := by
  cases cases with
  | nil => simp [caseSteps, casesInside, withinAll]
  | cons case rest =>
    obtain ⟨pattern, guard, body⟩ := case
    simp only [caseSteps, casesInside, Case.reports, withinAll_append, withinAll_map_visit,
      withinAll_map_unbind, List.flatMap_cons, List.flatMap_append, List.mem_append,
      mem_within_body body, mem_within_cases rest]
    tauto

end

end Stmt

namespace Module

/-- What a walk through a module reports, at any depth. -/
def reports (m : Module) : List Step := m.breadthFirst.flatMap Stmt.reports

/-- The reports are the steps of the script. -/
theorem mem_reports {m : Module} {step : Step} :
    step ∈ m.reports ↔ step ∈ withinAll (bodySteps m.body) := by
  rw [Stmt.mem_within_body, reports, List.mem_flatMap, List.mem_flatMap]
  simp only [mem_breadthFirst]

/-- An import or a class is a statement of the module. -/
def Contains (m : Module) : Step → Prop
  | .onImport stmt => .imports stmt ∈ m.breadthFirst
  | .cls head _ => ∃ members, .classDef head members ∈ m.breadthFirst
  | _ => True

/-- A report of a module is contained in it. -/
theorem contains_of_report {m : Module} {step : Step} (h : step ∈ m.reports) : m.Contains step := by
  obtain ⟨s, hs, hstep⟩ := List.mem_flatMap.mp h
  refine Stmt.forall_reports (P := m.Contains) (fun _ => trivial) (fun _ => trivial)
    (fun _ _ => trivial) (fun _ _ => trivial) (fun _ _ _ _ _ => trivial) ?_
    (fun _ _ _ => ⟨trivial, trivial⟩) ?_ step hstep
  · rintro stmt rfl
    exact hs
  · rintro head members rfl
    exact ⟨trivial, members, hs⟩

/-- A visit that is reported is made. -/
theorem visited_of_report {m : Module} {e : Expr} (h : .visit e ∈ m.reports) : e ∈ m.visited :=
  (mem_visitedAll_iff _).mpr (mem_reports.mp h)

end Module

end ContextLint.Source
