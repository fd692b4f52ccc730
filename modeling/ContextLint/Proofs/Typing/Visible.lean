import ContextLint.Proofs.Scope.Bindings
import ContextLint.Proofs.Typing.Hidden

/-!
# Names seen in a function

The body of a function starts with the types that annotations give to the parameters; any other name
has the type that it has around the function, for a function of the module the final one. A name is
seen at an expression if nothing between the start of the body and the expression binds it, and has
there the type that it has at the start.
-/

namespace ContextLint.Scope

open Source

/-- The expression is evaluated where the name stands for what it stands for at the start of the
script, be it in a function inside. -/
inductive Sees (x : String) (o : Expr) : List Step → Prop where
  /-- Nothing has bound the name yet, and the expression around does not. -/
  | visit {before after e} (hbefore : x ∉ before.flatMap Step.names)
      (hfree : ∀ c ∈ e.nodes, x ∉ c.binds) (ho : o ∈ e.evaluatedNodes) :
      Sees x o (before ++ .visit e :: after)
  /-- Nothing has bound the name before the function, and it is not a parameter. -/
  | function {before after body head}
      (hbefore : x ∉ before.flatMap Step.names) (hparams : x ∉ head.params.names)
      (hbody : Sees x o body) : Sees x o (before ++ .function head body :: after)

end ContextLint.Scope

namespace ContextLint.Typing

open Source Scope

variable {p : Param} {ref : TypeRef} {head : FunctionHead} {s s' : Course} {body : List Step}

namespace Resolver

variable {r : Resolver} {x : String}

/-- A parameter has the type of its annotation, the last one if its name is repeated. -/
theorem annotateParams_last {params : List Param} (hlast : lastNamed? Param.name x params = some p)
    (hhint : r.decls.names.resolve? p.hint = .ok (some ref)) (env : Env) :
    Ensures (r.annotateParams params env) fun env' => env'.get? x = some (some ref) := by
  induction params generalizing env with
  | nil => cases hlast
  | cons q rest ih =>
    rw [← List.singleton_append, lastNamed?_append] at hlast
    cases hrest : lastNamed? Param.name x rest with
    | some q' =>
      rw [hrest, Option.some_or] at hlast
      refine (Ensures.trivial _).bind fun ref _ => ?_
      cases ref with
      | some ref | none => exact ih (hrest.trans hlast) _
    | none =>
      rw [hrest, Option.none_or] at hlast
      obtain rfl := List.mem_singleton.mp (mem_of_lastNamed? hlast)
      have hname : p.name = x := name_of_lastNamed? hlast
      have hlater : x ∉ rest.map Param.name := fun hmem => by
        obtain ⟨q, hq, hqx⟩ := List.mem_map.mp hmem
        exact lastNamed?_eq_none.mp hrest q hq hqx
      rw [annotateParams, hhint]
      refine (annotateParams_rebinds rest _).mono fun env' h => (h.get? hlater).trans ?_
      rw [hname, NameMap.get?_set, if_pos rfl]

/-- A parameter of a function of the module starts with the type of its annotation. -/
theorem bodyEnv_last
    (hlast : lastNamed? Param.name x (head.params.positional ++ head.params.kwOnly) = some p)
    (hhint : r.decls.names.resolve? p.hint = .ok (some ref)) {s : Progress}
    (hframe : s.frame = .module) :
    Ensures (r.bodyEnv head s) fun env => env.get? x = some (some ref) := by
  refine (annotateParams_last hlast hhint _).bind fun env henv => .ok ?_
  rw [hframe]
  exact henv

/-- A step of a walk with its results, between those before it and behind it. -/
theorem exists_performed {before after : List Step} {step : Step}
    (h : performAll r.courseHooks (before ++ step :: after) s = .ok s') :
    ∃ mid next, mid.frame = s.frame ∧
      (∀ x ∉ before.flatMap Step.names, mid.env.get? x = s.env.get? x) ∧
      perform r.courseHooks step mid = .ok next ∧ next.results ⊆ s'.results := by
  rw [performAll_append] at h
  obtain ⟨mid, hmid, h⟩ := exists_of_bind_ok h
  obtain ⟨next, hnext, hafter⟩ := exists_of_bind_ok h
  have hbefore : performAll r.hooks before s.toProgress = .ok mid.toProgress := by
    rw [performAll_course, hmid]
    rfl
  obtain ⟨hframe, -⟩ := performAll_reaches before s mid hmid
  obtain ⟨-, new, -, hresults, -⟩ := performAll_reaches after next s' hafter
  refine ⟨mid, next, hframe, fun x hx => performAll_get? before hx _ _ hbefore, hnext, ?_⟩
  rw [hresults]
  exact List.subset_append_left _ _

/-- Where a name is seen in a function, it has the type that it has at the start. -/
theorem performAll_sees (hr : r.descend = true) {o : Expr} {steps : List Step} (h : Sees x o steps)
    (hframe : s.frame = .func) (hs' : performAll r.courseHooks steps s = .ok s') :
    ∃ p env, r.Typed s'.results p env o ∧ env.get? x = s.env.get? x := by
  induction h generalizing s s' with
  | visit hbefore hfree ho =>
    obtain ⟨mid, next, hmid, henv, hnext, hresults⟩ := exists_performed hs'
    obtain ⟨y, hy, hnext⟩ := exists_of_bind_ok hnext
    cases hnext
    have htyped : r.Typed s'.results ⟨mid.frame, none⟩ mid.env _ :=
      ⟨y, hy, List.Subset.trans (List.subset_append_right _ _) hresults⟩
    obtain ⟨p, env, ho', hsame⟩ := htyped.exists_free hr (hmid.trans hframe)
      (fun _ hmem => (Option.not_mem_none _ hmem).elim) hfree ho
    exact ⟨p, env, ho', hsame.trans (henv x hbefore)⟩
  | function hbefore hparams hbody ih =>
    obtain ⟨mid, next, hmid, henv, hnext, hresults⟩ := exists_performed hs'
    rw [course_function hr] at hnext
    obtain ⟨start, hstart, hnext⟩ := exists_of_bind_ok hnext
    obtain ⟨inner, hinner, hnext⟩ := exists_of_bind_ok hnext
    cases hnext
    obtain ⟨p, env, ho', hsame⟩ := ih rfl hinner
    have hbody := (bodyEnv_rebinds _ _ start hstart).get? hparams
    rw [startEnv, hmid, hframe] at hbody
    exact ⟨p, env, ho'.mono hresults, (hsame.trans hbody).trans (henv x hbefore)⟩

/-- What is seen in the body of a function has the type that it has at the start of the body. -/
theorem perform_function_sees (hr : r.descend = true)
    (h : perform r.courseHooks (.function head body) s = .ok s') :
    ∃ start, r.bodyEnv head s.toProgress = .ok start ∧
      ∀ x o, Sees x o body → ∃ p env, r.Typed s'.results p env o ∧ env.get? x = start.get? x := by
  rw [course_function hr] at h
  obtain ⟨start, hstart, h⟩ := exists_of_bind_ok h
  obtain ⟨inner, hinner, h⟩ := exists_of_bind_ok h
  cases h
  exact ⟨start, hstart, fun x o hsees => performAll_sees hr hsees rfl hinner⟩

/-- A call of a class has an instance of the class as its type. -/
theorem Typed.call_class {results : Results} {p : Place} {env : Env} {site site' : Site}
    {args keywords : List Expr}
    (h : r.Typed results p env (.call site (.name site' x) args keywords)) {q : String}
    (hx : env.get? x = some (some ⟨q, .cls, false⟩)) :
    (.call site (.name site' x) args keywords, some (instanceOf q)) ∈ results := by
  obtain ⟨f, ref, hf, -, href, hresult⟩ := h.call
  have hname : r.decls.nameIn env x = some ⟨q, .cls, false⟩ := by rw [Declarations.nameIn, hx]; rfl
  cases hf
  rw [Finding.close_type, hname] at href
  cases href
  exact hresult

end Resolver

/-- The types found in a function of the module are those of a walk that starts in the environment
of its body, with the final environment of the module around. -/
theorem TypeInfo.exists_body {m : Module} (hm : m.Numbered) {moduleName : String}
    {library : Library} {info : TypeInfo} (h : ofModule m moduleName library = .ok info)
    {top : Progress} (htop : Resolver.walkModule ⟨info.decls, [], false⟩ m ∅ = .ok top)
    (hfunction : .function head body ∈ bodySteps m.body) :
    ∃ (s : Progress) (start : Env) (results : Results), s.frame = .module ∧
      Resolver.bodyEnv ⟨info.decls, top.env, true⟩ head s = .ok start ∧
      (∀ y ∈ results, info.typeOf? y.1 = y.2) ∧
      ∀ x o, Sees x o body → ∃ p env,
        Resolver.Typed ⟨info.decls, top.env, true⟩ results p env o ∧
          env.get? x = start.get? x := by
  obtain ⟨first, alone, hfirst, halone, htypes⟩ := exists_walk hm h
  rw [Resolver.walkModule_eq_courseOf, hfirst] at htop
  obtain rfl : first.toProgress = top := Except.ok.inj htop
  obtain ⟨before, after, hsplit⟩ := List.append_of_mem hfunction
  rw [hsplit] at halone
  obtain ⟨mid, next, hframe, -, hnext, hresults⟩ := Resolver.exists_performed halone
  obtain ⟨start, hstart, hsees⟩ := Resolver.perform_function_sees rfl hnext
  exact ⟨mid.toProgress, start, next.results, hframe, hstart, fun y hy => htypes y (hresults hy),
    hsees⟩

end ContextLint.Typing
