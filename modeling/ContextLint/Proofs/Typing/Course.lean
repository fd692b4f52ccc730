import ContextLint.Proofs.Typing.Results

/-!
# The course of a walk

A walk that types a scope is followed together with the results it finds, which do not change the
walk. They are for the expressions that the script of the walk schedules, and the type table behind
the walk is the one in front with the results recorded.
-/

namespace ContextLint.Scope

open Source

mutual

/-- The expressions evaluated in a step in the order in which they are done. Those inside a
function, a class or a lambda are marked. -/
def Step.schedule : Step → List (Expr × Bool)
  | .visit e => e.schedule
  | .function _ body | .cls _ body => (scheduleAll body).map (·.1, true)
  | .bind .. | .unbind _ | .bindElement .. | .onImport _ | .define _ => []

/-- The expressions evaluated in a script. -/
def scheduleAll : List Step → List (Expr × Bool)
  | [] => []
  | step :: rest => step.schedule ++ scheduleAll rest

end

@[simp] theorem scheduleAll_append (xs ys : List Step) :
    scheduleAll (xs ++ ys) = scheduleAll xs ++ scheduleAll ys := by
  induction xs with
  | nil => rfl
  | cons x xs ih => simp [scheduleAll, ih]

private theorem map_fst_marked (xs : List (Expr × Bool)) :
    (xs.map (·.1, true)).map Prod.fst = xs.map Prod.fst := by
  rw [List.map_map]
  rfl

mutual

private theorem Step.schedule_perm (step : Step) :
    (step.schedule.map Prod.fst).Perm (step.visited.flatMap Expr.evaluatedNodes) := by
  cases step with
  | visit e => simpa [Step.schedule, Step.visited] using e.schedule_perm
  | function head body | cls head body =>
    simpa only [Step.schedule, Step.visited, map_fst_marked] using scheduleAll_perm body
  | _ => exact .nil

/-- The schedule of a script lists what is evaluated of all that it visits. -/
theorem scheduleAll_perm (steps : List Step) :
    ((scheduleAll steps).map Prod.fst).Perm ((visitedAll steps).flatMap Expr.evaluatedNodes) := by
  cases steps with
  | nil => exact .nil
  | cons step rest =>
    rw [scheduleAll, visitedAll, List.map_append, List.flatMap_append]
    exact (Step.schedule_perm step).append (scheduleAll_perm rest)

end

end ContextLint.Scope

namespace ContextLint.Source.Module

open Scope

variable {m : Module}

/-- What is evaluated in a module, in order, with a mark below the top level. -/
def schedule (m : Module) : List (Expr × Bool) := scheduleAll (bodySteps m.body)

/-- What is evaluated at the top level of a module: outside functions, classes and lambdas. -/
def topNodes (m : Module) : List Expr := Expr.reached false m.schedule

/-- A module schedules what it evaluates. -/
theorem schedule_perm (m : Module) : (m.schedule.map Prod.fst).Perm m.evaluatedNodes :=
  scheduleAll_perm _

/-- In a numbered module no expression is scheduled twice. -/
theorem Numbered.schedule_nodup (h : m.Numbered) : (m.schedule.map (·.1.id)).Nodup := by
  have hnodes := h.visited_nodup
  rw [List.map_append] at hnodes
  have hids := ((m.schedule_perm.map Expr.id).nodup_iff).mpr (List.nodup_append.mp hnodes).1
  rw [List.map_map] at hids
  exact hids

/-- So none is evaluated twice, however far a walk goes. -/
theorem Numbered.reached_nodup (h : m.Numbered) (descend : Bool) :
    ((Expr.reached descend m.schedule).map Expr.id).Nodup := by
  have hsub : (Expr.reached descend m.schedule).Sublist (m.schedule.map Prod.fst) :=
    List.filter_sublist.map _
  have hall : ((m.schedule.map Prod.fst).map Expr.id).Nodup := by
    rw [List.map_map]
    exact h.schedule_nodup
  exact hall.sublist (hsub.map Expr.id)

/-- The marked expressions are not of the top level. -/
theorem Numbered.not_mem_top (h : m.Numbered) {x : Expr × Bool} (hx : x ∈ m.schedule)
    (hmark : x.2 = true) : x.1.id ∉ m.topNodes.map Expr.id := by
  intro hmem
  obtain ⟨n, hn, hid⟩ := List.mem_map.mp hmem
  obtain ⟨y, hy, rfl⟩ := List.mem_map.mp hn
  rw [List.mem_filter] at hy
  have heq : y = x := List.inj_on_of_nodup_map h.schedule_nodup hy.1 hx hid
  rw [heq, hmark] at hy
  exact Bool.false_ne_true hy.2

end ContextLint.Source.Module

namespace ContextLint.Typing

open Source Scope

theorem Ensures.map {ε α β : Type} {x : Except ε α} {f : α → β} {P : α → Prop} {Q : β → Prop}
    (hx : Ensures x P) (h : ∀ a, P a → Q (f a)) : Ensures (f <$> x) Q := by
  cases x with
  | error err => rintro _ ⟨⟩
  | ok a => exact .ok (h a (hx a rfl))

/-- A walk with the results found so far. -/
structure Course extends Progress where
  /-- The results, in order. -/
  results : Results

/-- What was found is added to a walk. -/
def Course.extend (s : Course) (x : Finding) : Course :=
  { s with types := keep s.types x.results, env := x.env, results := s.results ++ x.results }

namespace Resolver

section

variable (r : Resolver)

/-- The walk that types a scope, with its results. -/
def courseHooks : Hooks (Except AnnotationError) Course where
  visit e s := s.extend <$> r.find ⟨s.frame, none⟩ e s.env
  bind name value hint s :=
    ({ s with toProgress := · }) <$> r.hooks.bind name value hint s.toProgress
  unbind name s := ({ s with toProgress := · }) <$> r.hooks.unbind name s.toProgress
  bindElement name value s :=
    ({ s with toProgress := · }) <$> r.hooks.bindElement name value s.toProgress
  onImport stmt s := ({ s with toProgress := · }) <$> r.hooks.onImport stmt s.toProgress
  define name s := ({ s with toProgress := · }) <$> r.hooks.define name s.toProgress
  openFunction head s :=
    Option.map ({ s with toProgress := · }) <$> r.hooks.openFunction head s.toProgress
  closeFunction _ outer inner := return { outer with types := inner.types, results := inner.results }
  openClass head s :=
    Option.map ({ s with toProgress := · }) <$> r.hooks.openClass head s.toProgress
  closeClass _ outer inner := return { outer with types := inner.types, results := inner.results }

/-- Walk the top level of a module with the types already known and keep the results. -/
def courseOf (m : Module) (types : TypeTable) : Except AnnotationError Course :=
  walkBody r.courseHooks m.body { types, env := [], frame := .module, results := [] }

end

variable {r : Resolver}

/-- Evaluating an expression adds what is found. -/
theorem perform_visit (e : Expr) (s : Progress) :
    perform r.hooks (.visit e) s =
      (fun x => { s with toFacts := x.facts s.types }) <$> r.find ⟨s.frame, none⟩ e s.env := by
  simp [perform, hooks, eval_eq_find]

/-- Binding a name changes the environment only. -/
theorem course_bind (name : String) (value hint : Option Expr) (s : Course) :
    perform r.courseHooks (.bind name value hint) s =
      (fun ref => { s with toProgress := assignIn s.toProgress name ref }) <$>
        r.assignedType s.toFacts value hint := by
  simp [perform, courseHooks, hooks]

/-- Going into a function keeps the types and results of its body. -/
theorem course_function (hr : r.descend = true) (head : FunctionHead) (body : List Step)
    (s : Course) :
    perform r.courseHooks (.function head body) s = do
      let env ← r.bodyEnv head s.toProgress
      let inner ← performAll r.courseHooks body { s with env := env, frame := .func }
      return { s with types := inner.types, results := inner.results } := by
  simp [perform, courseHooks, hooks_openFunction hr]

/-- Going into a class keeps the types and results of its body. -/
theorem course_cls (hr : r.descend = true) (head : ClassHead) (body : List Step) (s : Course) :
    perform r.courseHooks (.cls head body) s = do
      let inner ← performAll r.courseHooks body
        { s with frame := .cls (r.decls.names.moduleName ++ "." ++ head.name) }
      return { s with types := inner.types, results := inner.results } := by
  simp [perform, courseHooks, hooks_openClass hr]

/-- At the top level functions are passed over. -/
theorem course_function_of_not_descend (hr : r.descend = false) (head : FunctionHead)
    (body : List Step) (s : Course) : perform r.courseHooks (.function head body) s = pure s := by
  have hopen : r.hooks.openFunction head s.toProgress = pure none := by simp [hooks, hr]
  simp [perform, courseHooks, hopen]

/-- At the top level classes are passed over. -/
theorem course_cls_of_not_descend (hr : r.descend = false) (head : ClassHead)
    (body : List Step) (s : Course) : perform r.courseHooks (.cls head body) s = pure s := by
  have hopen : r.hooks.openClass head s.toProgress = pure none := by simp [hooks, hr]
  simp [perform, courseHooks, hopen]

/-- The environment is the same behind a function. -/
theorem course_function_env (head : FunctionHead) (body : List Step) (s : Course) :
    Ensures (perform r.courseHooks (.function head body) s) fun s' => s'.env = s.env := by
  cases hr : r.descend with
  | false =>
    rw [course_function_of_not_descend hr]
    exact .ok rfl
  | true =>
    rw [course_function hr]
    exact (Ensures.trivial _).bind fun env _ => (Ensures.trivial _).bind fun inner _ => .ok rfl

/-- The environment is the same behind a class. -/
theorem course_cls_env (head : ClassHead) (body : List Step) (s : Course) :
    Ensures (perform r.courseHooks (.cls head body) s) fun s' => s'.env = s.env := by
  cases hr : r.descend with
  | false =>
    rw [course_cls_of_not_descend hr]
    exact .ok rfl
  | true =>
    rw [course_cls hr]
    exact (Ensures.trivial _).bind fun inner _ => .ok rfl

mutual

private theorem perform_course (step : Step) (s : Course) :
    perform r.hooks step s.toProgress = Course.toProgress <$> perform r.courseHooks step s := by
  cases step with
  | visit e => simp [perform, hooks, courseHooks, eval_eq_find, Finding.facts, Course.extend]
  | function head body =>
    cases hr : r.descend with
    | false =>
      rw [course_function_of_not_descend hr, perform_function_of_not_descend hr, map_pure]
    | true =>
      rw [course_function hr, perform_function hr]
      have hbody := fun env =>
        performAll_course body { s with env := env, frame := .func }
      simp [hbody]
  | cls head body =>
    cases hr : r.descend with
    | false => rw [course_cls_of_not_descend hr, perform_cls_of_not_descend hr, map_pure]
    | true =>
      rw [course_cls hr, perform_cls hr]
      have hbody := fun frame => performAll_course body { s with frame := frame }
      simp [hbody]
  | _ => simp [perform, courseHooks]

/-- Leaving the results out gives the walk. -/
theorem performAll_course (steps : List Step) (s : Course) :
    performAll r.hooks steps s.toProgress =
      Course.toProgress <$> performAll r.courseHooks steps s := by
  cases steps with
  | nil => rfl
  | cons step rest =>
    simp [perform_course step, performAll_course rest]

end

/-- Without its results the course is the walk. -/
theorem walkModule_eq_courseOf (m : Module) (types : TypeTable) :
    r.walkModule m types = Course.toProgress <$> r.courseOf m types := by
  unfold walkModule courseOf
  rw [walkBody_eq, walkBody_eq]
  exact performAll_course _ { types, env := [], frame := .module, results := [] }

end Resolver

/-- A walk has come from one state to the other with results for the expressions. -/
structure Course.Reaches (nodes : List Expr) (s s' : Course) : Prop where
  frame : s'.frame = s.frame
  found : ∃ new : Results, new.map Prod.fst = nodes ∧ s'.results = s.results ++ new ∧
    s'.types = keep s.types new

namespace Course.Reaches

variable {xs ys : List Expr} {s s' s'' : Course}

private theorem none (hframe : s'.frame = s.frame) (htypes : s'.types = s.types)
    (hresults : s'.results = s.results) : s.Reaches [] s' :=
  ⟨hframe, [], rfl, by rw [hresults, List.append_nil], htypes⟩

private theorem trans (h : s.Reaches xs s') (h' : s'.Reaches ys s'') :
    s.Reaches (xs ++ ys) s'' := by
  obtain ⟨hframe, new, hnodes, hresults, htypes⟩ := h
  obtain ⟨hframe', new', hnodes', hresults', htypes'⟩ := h'
  refine ⟨hframe'.trans hframe, new ++ new', ?_, ?_, ?_⟩
  · rw [List.map_append, hnodes, hnodes']
  · rw [hresults', hresults, List.append_assoc]
  · rw [htypes', htypes, keep_append]

/-- Back in the scope around, only types and results of the inner scope are kept. -/
theorem outside {inner : Course} (h : Course.Reaches xs inner s') (htypes : inner.types = s.types)
    (hresults : inner.results = s.results) :
    s.Reaches xs { s with types := s'.types, results := s'.results } := by
  obtain ⟨-, new, hnodes, hresults', htypes'⟩ := h
  exact ⟨rfl, new, hnodes, hresults'.trans (by rw [hresults]), htypes'.trans (by rw [htypes])⟩

end Course.Reaches

namespace Resolver

variable {r : Resolver}

private theorem reached_inner (xs : List (Expr × Bool)) :
    Expr.reached true (xs.map (·.1, true)) = Expr.reached true xs := by
  rw [Expr.reached_marked, if_pos rfl, Expr.reached_true]

mutual

/-- A step has results for what it schedules, as far as the walk goes. -/
theorem perform_reaches (step : Step) (s : Course) :
    Ensures (perform r.courseHooks step s) (s.Reaches (Expr.reached r.descend step.schedule)) := by
  cases step with
  | visit e =>
    have hfind := find_results (r := r) ⟨s.frame, none⟩ e s.env
    exact hfind.map fun x hx => ⟨rfl, x.results, hx, rfl, rfl⟩
  | bind name value hint =>
    refine Ensures.map (P := fun p => p.frame = s.frame ∧ p.types = s.types) ?_
      fun p hp => .none hp.1 hp.2 rfl
    exact (Ensures.trivial _).bind fun ref _ => .ok ⟨rfl, rfl⟩
  | unbind name | bindElement name value | onImport stmt | define name =>
    exact .ok (.none rfl rfl rfl)
  | function head body =>
    rw [Step.schedule]
    cases hr : r.descend with
    | false =>
      rw [course_function_of_not_descend hr, Expr.reached_marked]
      exact .ok (.none rfl rfl rfl)
    | true =>
      have hbody := fun s => performAll_reaches body s
      rw [hr] at hbody
      rw [course_function hr, reached_inner]
      refine (Ensures.trivial _).bind fun env _ => ?_
      exact (hbody _).bind fun inner hinner => .ok (hinner.outside rfl rfl)
  | cls head body =>
    rw [Step.schedule]
    cases hr : r.descend with
    | false =>
      rw [course_cls_of_not_descend hr, Expr.reached_marked]
      exact .ok (.none rfl rfl rfl)
    | true =>
      have hbody := fun s => performAll_reaches body s
      rw [hr] at hbody
      rw [course_cls hr, reached_inner]
      exact (hbody _).bind fun inner hinner => .ok (hinner.outside rfl rfl)

/-- A walk has results for what its script schedules, as far as it goes. -/
theorem performAll_reaches (steps : List Step) (s : Course) :
    Ensures (performAll r.courseHooks steps s)
      (s.Reaches (Expr.reached r.descend (scheduleAll steps))) := by
  cases steps with
  | nil => exact .ok (.none rfl rfl rfl)
  | cons step rest =>
    rw [scheduleAll, Expr.reached_append]
    refine (perform_reaches step s).bind fun s' hs' => ?_
    exact (performAll_reaches rest s').mono fun s'' hs'' => hs'.trans hs''

end

/-- A walk stays in its scope and changes its table only under the numbers of what it evaluates. -/
theorem performAll_keeps (steps : List Step) (s : Progress) :
    Ensures (performAll r.hooks steps s) fun s' => s'.frame = s.frame ∧
      ∀ id, (∀ x ∈ scheduleAll steps, x.1.id ≠ id) → s'.types[id]? = s.types[id]? := by
  rw [performAll_course steps ⟨s, []⟩]
  refine (performAll_reaches steps ⟨s, []⟩).map ?_
  rintro c ⟨hframe, new, hnodes, -, htypes⟩
  refine ⟨hframe, fun id hid => ?_⟩
  rw [htypes]
  refine getElem?_keep_of_ne _ fun x hx => ?_
  have hnode : x.1 ∈ Expr.reached r.descend (scheduleAll steps) := hnodes ▸ List.mem_map_of_mem hx
  obtain ⟨y, hy, heq⟩ := List.mem_map.mp hnode
  exact heq ▸ hid y (List.mem_of_mem_filter hy)

end Resolver

variable {m : Module} {moduleName : String} {library : Library} {info : TypeInfo}

/-- An expression whose number no evaluated expression has is not typed. -/
theorem TypeInfo.typeOf?_eq_none (h : ofModule m moduleName library = .ok info) {e : Expr}
    (he : ∀ n ∈ m.evaluatedNodes, n.id ≠ e.id) : info.typeOf? e = none := by
  obtain ⟨-, top, full, htop, hfull, htypes⟩ := ofModule_ok h
  have hids : ∀ x ∈ m.schedule, x.1.id ≠ e.id := fun x hx =>
    he x.1 (m.schedule_perm.mem_iff.mp (List.mem_map_of_mem hx))
  have hkeeps {r : Resolver} {types : TypeTable} {s : Progress} (hs : r.walkModule m types = .ok s) :
      s.types[e.id]? = types[e.id]? := by
    rw [Resolver.walkModule, walkBody_eq] at hs
    exact (Resolver.performAll_keeps _ _ s hs).2 e.id hids
  rw [typeOf?, htypes, hkeeps hfull, hkeeps htop, Std.TreeMap.getElem?_emptyc]

/-- The calls typed on the second walk through a module, which goes into functions and classes. -/
def TypeInfo.typedCalls (m : Module) (moduleName : String) (library : Library) :
    Except AnnotationError (List Expr) := do
  let decls ← Declarations.ofModule m moduleName library
  let top ← Resolver.walkModule ⟨decls, [], false⟩ m ∅
  let full ← Resolver.courseOf ⟨decls, top.env, true⟩ m top.types
  return (full.results.map Prod.fst).filter Expr.isCall

/-- Where typing succeeds, the calls typed are those among the evaluated expressions. -/
theorem TypeInfo.exists_typedCalls (h : ofModule m moduleName library = .ok info) :
    ∃ typed, typedCalls m moduleName library = .ok typed ∧
      typed.Perm (m.evaluatedNodes.filter Expr.isCall) := by
  obtain ⟨hdecls, top, full, htop, hfull, -⟩ := ofModule_ok h
  rw [Resolver.walkModule_eq_courseOf] at hfull
  obtain ⟨course, hcourse, -⟩ := exists_of_bind_ok hfull
  refine ⟨(course.results.map Prod.fst).filter Expr.isCall, ?_, ?_⟩
  · simp only [typedCalls, hdecls, htop, hcourse, bind, Except.bind]
    rfl
  · rw [Resolver.courseOf, walkBody_eq] at hcourse
    obtain ⟨-, new, hnodes, hresults, -⟩ := Resolver.performAll_reaches _ _ course hcourse
    rw [hresults, List.nil_append, hnodes, Expr.reached_true]
    exact m.schedule_perm.filter Expr.isCall

end ContextLint.Typing
