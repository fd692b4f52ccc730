import ContextLint.Proofs.Typing.Parts
import ContextLint.Proofs.Typing.Passes

/-!
# Names hidden by comprehensions

A comprehension hides the names of its targets from what stands behind them: outside lambdas such a
name has no type there. The body of a lambda starts from the environment of the scope around, so
that a name has there the type that it has before the outermost comprehension.
-/

namespace ContextLint.Source.Expr

/-- The expression is a comprehension. -/
def isComprehension : Expr → Bool
  | comprehension .. => true
  | _ => false

variable {e : Expr}

/-- Outside the bodies of lambdas are an expression itself and what is so in its parts. -/
theorem mem_schedule_unmarked {o : Expr} : (o, false) ∈ schedule e ↔
    o = e ∨ e.isLambda = false ∧ ∃ c ∈ e.evaluatedChildren, (o, false) ∈ schedule c := by
  cases hl : e.isLambda with
  | false => simp [schedule_eq hl, or_comm]
  | true =>
    cases e with
    | lambda site params defaults body => simp [schedule]
    | _ => cases hl

/-- The names hidden in the clauses are those hidden before and the targets of the clauses. -/
theorem targets_of_clauseScopes (hidden : List String) (generators : List Generator) :
    ∀ part ∈ clauseScopes hidden generators,
      part.2 ⊆ hidden ++ generators.flatMap fun | .mk target _ _ => target.targetNames := by
  induction generators generalizing hidden with
  | nil => exact List.forall_mem_nil _
  | cons clause rest ih =>
    obtain ⟨target, iter, conditions⟩ := clause
    refine List.forall_mem_cons.mpr ⟨List.subset_append_left _ _, ?_⟩
    refine List.forall_mem_append.mpr ⟨List.forall_mem_map.mpr fun c _ => by simp, ?_⟩
    intro part hpart
    simpa using ih _ part hpart

variable {part : Expr × List String}

/-- The names that an expression hides it binds. -/
theorem binds_of_scopes (hpart : part ∈ e.scopes) : part.2 ⊆ e.binds := by
  cases e with
  | lambda site params defaults body =>
    obtain rfl := List.mem_singleton.mp hpart
    exact List.Subset.refl _
  | comprehension site kind elements generators =>
    rcases List.mem_append.mp hpart with hpart | hpart
    · exact targets_of_clauseScopes [] generators part hpart
    · obtain ⟨c, -, rfl⟩ := List.mem_map.mp hpart
      exact List.Subset.refl _
  | _ =>
    obtain ⟨c, -, rfl⟩ := List.mem_map.mp hpart
    exact List.nil_subset _

private theorem mem_evaluatedChildren_of_scopes (hpart : part ∈ e.scopes) :
    part.1 ∈ e.evaluatedChildren :=
  map_fst_scopes e ▸ List.mem_map_of_mem hpart

variable {c : Expr}

/-- Every evaluated part is listed with the names hidden there. -/
theorem exists_scope (hc : c ∈ e.evaluatedChildren) : ∃ hidden, (c, hidden) ∈ e.scopes := by
  rw [← map_fst_scopes] at hc
  obtain ⟨part, hpart, rfl⟩ := List.mem_map.mp hc
  exact ⟨part.2, hpart⟩

/-- A live expression is evaluated or stands inside a default value of a lambda. -/
theorem mem_of_mem_liveNodes {n : Expr} (hn : n ∈ e.liveNodes) :
    n ∈ e.evaluatedNodes ∨ n ∈ e.defaultNodes := by
  have hcoe : n ∈ (e.liveNodes : Multiset Expr) := hn
  rw [coe_liveNodes] at hcoe
  exact Multiset.mem_add.mp hcoe

private theorem liveNodes_subset_of_mem (hc : c ∈ e.liveNodes) : c.liveNodes ⊆ e.liveNodes := by
  induction e using childInduction with
  | h e ih =>
    rcases mem_liveNodes_iff.mp hc with rfl | ⟨d, hd, hc⟩
    · exact List.Subset.refl _
    · intro n hn
      exact mem_liveNodes_iff.mpr (.inr ⟨d, hd, ih d (liveChildren_subset e hd) hc hn⟩)

/-- What stands inside an expression inside a default value stands inside that default value. -/
theorem liveNodes_subset_defaultNodes (hc : c ∈ e.defaultNodes) : c.liveNodes ⊆ e.defaultNodes := by
  induction e using evaluatedInduction with
  | h e ih =>
    intro n hn
    rw [mem_defaultNodes_iff] at hc ⊢
    rcases hc with ⟨d, hd, hc⟩ | ⟨d, hd, hc⟩
    · exact .inl ⟨d, hd, liveNodes_subset_of_mem hc hn⟩
    · exact .inr ⟨d, hd, ih d hd hc hn⟩

/-- A default value inside an evaluated expression is one of the whole. -/
theorem defaultNodes_subset_of_mem (hc : c ∈ e.evaluatedNodes) :
    c.defaultNodes ⊆ e.defaultNodes := by
  induction e using evaluatedInduction with
  | h e ih =>
    rcases mem_evaluatedNodes_iff.mp hc with rfl | ⟨d, hd, hc⟩
    · exact List.Subset.refl _
    · intro n hn
      exact mem_defaultNodes_iff.mpr (.inr ⟨d, hd, ih d hd hc hn⟩)

end ContextLint.Source.Expr

namespace ContextLint.Scope

open Source

mutual

/-- The expressions that a step visits, those marked that stand in the body of a function and not in
that of a class inside it. -/
def Step.placed (inFunction : Bool) : Step → List (Expr × Bool)
  | .visit e => [(e, inFunction)]
  | .function _ body => placedAll true body
  | .cls _ body => placedAll false body
  | .bind .. | .unbind _ | .bindElement .. | .onImport _ | .define _ => []

/-- The expressions that a script visits, with such marks. -/
def placedAll (inFunction : Bool) : List Step → List (Expr × Bool)
  | [] => []
  | step :: rest => step.placed inFunction ++ placedAll inFunction rest

end

mutual

private theorem Step.map_fst_placed (inFunction : Bool) (step : Step) :
    (step.placed inFunction).map Prod.fst = step.visited := by
  cases step with
  | function head body => exact map_fst_placedAll true body
  | cls head body => exact map_fst_placedAll false body
  | _ => rfl

/-- The placed expressions are those visited. -/
theorem map_fst_placedAll (inFunction : Bool) (steps : List Step) :
    (placedAll inFunction steps).map Prod.fst = visitedAll steps := by
  cases steps with
  | nil => rfl
  | cons step rest =>
    rw [placedAll, visitedAll, List.map_append, Step.map_fst_placed inFunction step,
      map_fst_placedAll inFunction rest]

end

end ContextLint.Scope

namespace ContextLint.Typing

open Source Scope

variable {part : Expr × List String} {params : List String} {site : Site} {o body : Expr}
  {defaults : List Expr}

namespace Resolver

variable {r : Resolver} {e : Expr} {n : String} {p p' : Place} {env env' : Env} {results : Results}

/-- Outside lambdas a name keeps its type on the way to a part, if it is not hidden there. -/
theorem Enters.get? (hpart : part ∈ e.scopes) (hl : e.isLambda = false)
    (h : r.Enters e p env part.2 p' env') (hn : n ∉ e.assignedNames) :
    env'.get? n = if n ∈ part.2 then some none else env.get? n := by
  cases e with
  | lambda site params defaults body => cases hl
  | comprehension site kind elements generators =>
    by_cases hmem : n ∈ part.2
    · rw [if_pos hmem]
      exact h.2.hides n hmem hn
    · rw [if_neg hmem]
      exact h.2.rebinds.get? fun h => (List.mem_append.mp h).elim hn hmem
  | _ =>
    obtain ⟨c, -, rfl⟩ := List.mem_map.mp hpart
    rw [if_neg List.not_mem_nil]
    exact h.2.get? hn

/-- Outside lambdas only a comprehension changes the place. -/
theorem Enters.place {hidden : List String} (hl : e.isLambda = false)
    (h : r.Enters e p env hidden p' env') :
    p' = p ∨ p' = { p with scope := some (p.scope.getD env) } := by
  cases e with
  | lambda site params defaults body => cases hl
  | comprehension site kind elements generators => exact .inr h.1
  | _ => exact .inl h.1

/-- The parts of what stands in a function stand in a function. -/
theorem Enters.frame {hidden : List String} (h : r.Enters e p env hidden p' env')
    (hframe : p.frame = .func) : p'.frame = .func := by
  cases hl : e.isLambda with
  | true =>
    cases e with
    | lambda site params defaults body => rw [h.1]
    | _ => cases hl
  | false => rcases h.place hl with rfl | rfl <;> exact hframe

/-- In a function a name that an expression does not bind keeps its type on the way to a part. -/
theorem Enters.free (hpart : part ∈ e.scopes) (h : r.Enters e p env part.2 p' env')
    (hframe : p.frame = .func) (hscope : ∀ outer ∈ p.scope, outer.get? n = env.get? n)
    (hbinds : n ∉ e.binds) (hassigned : n ∉ e.assignedNames) :
    (∀ outer ∈ p'.scope, outer.get? n = env'.get? n) ∧ env'.get? n = env.get? n := by
  have hhidden : n ∉ part.2 := fun hmem => hbinds (Expr.binds_of_scopes hpart hmem)
  have houter : (p.scope.getD env).get? n = env.get? n := by
    cases hs : p.scope with
    | none => rfl
    | some outer => exact hscope outer hs
  cases hl : e.isLambda with
  | true =>
    cases e with
    | lambda site params defaults body =>
      obtain ⟨rfl, rfl⟩ := h
      refine ⟨fun outer hmem => (Option.not_mem_none outer hmem).elim, ?_⟩
      rw [get?_forget, if_neg hhidden, startEnv, hframe]
      exact houter
    | _ => cases hl
  | false =>
    have henv : env'.get? n = env.get? n := by
      rw [h.get? hpart hl hassigned, if_neg hhidden]
    rcases h.place hl with rfl | rfl
    · exact ⟨fun outer hmem => (hscope outer hmem).trans henv.symm, henv⟩
    · refine ⟨fun outer hmem => ?_, henv⟩
      obtain rfl := Option.some.inj hmem
      exact houter.trans henv.symm

/-- A name has the type of its environment. -/
theorem Typed.name (h : r.Typed results p env (.name site n)) :
    (.name site n, r.decls.nameIn env n) ∈ results := by
  obtain ⟨y, hy, hsub⟩ := h
  cases hy
  exact hsub (List.mem_singleton_self _)

/-- A call has the type that the type of what is called gives it. -/
theorem Typed.call {func : Expr} {args keywords : List Expr}
    (h : r.Typed results p env (.call site func args keywords)) :
    ∃ f ref, r.find p func env = .ok f ∧ f.results ⊆ results ∧
      r.decls.callType f.type args = .ok ref ∧ (.call site func args keywords, ref) ∈ results := by
  obtain ⟨y, hy, hsub⟩ := h
  rw [find] at hy
  obtain ⟨f, hf, hy⟩ := exists_of_bind_ok hy
  obtain ⟨a, -, hy⟩ := exists_of_bind_ok hy
  obtain ⟨k, -, hy⟩ := exists_of_bind_ok hy
  obtain ⟨ref, href, hy⟩ := exists_of_bind_ok hy
  cases hy
  refine ⟨f, ref, hf, List.Subset.trans ?_ hsub, href, hsub ?_⟩
  · simp
  · exact List.mem_append_right _ (List.mem_singleton_self _)

/-- The parts of a typed expression are typed. -/
theorem Typed.parts (h : r.Typed results p env e) (hr : r.descend = true ∨ e.isLambda = false)
    (hpart : part ∈ e.scopes) :
    ∃ p' env', r.Enters e p env part.2 p' env' ∧ r.Typed results p' env' part.1 := by
  obtain ⟨y, hy, hsub⟩ := h
  obtain ⟨p', env', henters, htyped⟩ := find_parts p e env hr y hy part hpart
  exact ⟨p', env', henters, htyped.mono hsub⟩

/-- Everything evaluated in a typed expression is typed somewhere, and in a function if that is. -/
theorem Typed.exists_of_mem (hr : r.descend = true) (h : r.Typed results p env e) {c : Expr}
    (hc : c ∈ e.evaluatedNodes) :
    ∃ p' env', (p.frame = .func → p'.frame = .func) ∧ r.Typed results p' env' c := by
  induction e using Expr.evaluatedInduction generalizing p env with
  | h e ih =>
    rcases Expr.mem_evaluatedNodes_iff.mp hc with rfl | ⟨d, hd, hc⟩
    · exact ⟨p, env, id, h⟩
    · obtain ⟨hidden, hpart⟩ := Expr.exists_scope hd
      obtain ⟨p', env', henters, hd'⟩ := h.parts (.inl hr) hpart
      obtain ⟨p'', env'', hframe, hc'⟩ := ih d hd hd' hc
      exact ⟨p'', env'', fun h => hframe (henters.frame h), hc'⟩

/-- A hidden name that is not assigned has no type outside lambdas. -/
theorem Typed.hidden (h : r.Typed results p env e) (henv : env.get? n = some none)
    (hn : n ∉ e.assignedNames) {site : Site} (ho : (.name site n, false) ∈ e.schedule) :
    (.name site n, none) ∈ results := by
  induction e using Expr.evaluatedInduction generalizing p env with
  | h e ih =>
    rcases Expr.mem_schedule_unmarked.mp ho with rfl | ⟨hl, c, hc, ho⟩
    · have hname := h.name
      rwa [Declarations.nameIn, henv] at hname
    · obtain ⟨hidden, hpart⟩ := Expr.exists_scope hc
      obtain ⟨p', env', henters, hc'⟩ := h.parts (.inr hl) hpart
      have henv' : env'.get? n = some none := by
        rw [henters.get? hpart hl hn, henv, ite_self]
      refine ih c hc hc' henv' ?_ ho
      exact fun hmem => hn (Expr.assignedNames_of_part hc hl hmem)

/-- An expression that hides a name hides it outside lambdas. -/
theorem Typed.hidden_part (h : r.Typed results p env e) (hl : e.isLambda = false)
    (hpart : part ∈ e.scopes) (hn : n ∈ part.2) (hassigned : n ∉ e.assignedNames)
    (ho : (.name site n, false) ∈ part.1.schedule) : (.name site n, none) ∈ results := by
  obtain ⟨p', env', henters, htyped⟩ := h.parts (.inr hl) hpart
  have henv : env'.get? n = some none := by
    rw [henters.get? hpart hl hassigned, if_pos hn]
  refine htyped.hidden henv (fun hmem => hassigned ?_) ho
  exact Expr.assignedNames_of_part (Expr.mem_evaluatedChildren_of_scopes hpart) hl hmem

section

variable (hr : r.descend = true) (h : r.Typed results p env e) (hframe : p.frame = .func)
  (hscope : ∀ outer ∈ p.scope, outer.get? n = env.get? n) (hfree : ∀ c ∈ e.nodes, n ∉ c.binds)

include hr h hframe hscope hfree

/-- What is evaluated in an expression of a function is typed where a name has the type that it has
in front of the expression, in the bodies of lambdas, too, if the expression binds the name nowhere.
-/
theorem Typed.exists_free (ho : o ∈ e.evaluatedNodes) :
    ∃ p' env', r.Typed results p' env' o ∧ env'.get? n = env.get? n := by
  induction e using Expr.evaluatedInduction generalizing p env with
  | h e ih =>
    rcases Expr.mem_evaluatedNodes_iff.mp ho with rfl | ⟨c, hc, ho⟩
    · exact ⟨p, env, h, rfl⟩
    · obtain ⟨hidden, hpart⟩ := Expr.exists_scope hc
      obtain ⟨p', env', henters, hc'⟩ := h.parts (.inl hr) hpart
      have hassigned : n ∉ e.assignedNames := fun hmem => by
        obtain ⟨d, hd, hbinds⟩ := Expr.binds_of_assigned hmem
        exact hfree d hd hbinds
      obtain ⟨hscope', henv⟩ :=
        henters.free hpart hframe hscope (hfree e e.mem_nodes_self) hassigned
      have hinside : ∀ d ∈ c.nodes, n ∉ d.binds := fun d hd =>
        hfree d (Expr.mem_nodes_of_child (Expr.mem_children_of_evaluated hc) hd)
      obtain ⟨p'', env'', ho', henv'⟩ :=
        ih c hc hc' (henters.frame hframe) hscope' hinside ho
      exact ⟨p'', env'', ho', henv'.trans henv⟩

/-- So a name that is bound nowhere in an expression of a function has one type throughout it. -/
theorem Typed.free (ho : .name site n ∈ e.evaluatedNodes) :
    (.name site n, r.decls.nameIn env n) ∈ results := by
  obtain ⟨p', env', ho', henv⟩ := h.exists_free hr hframe hscope hfree ho
  have hname := ho'.name
  rwa [Declarations.nameIn, henv] at hname

end

/-- A lambda in a comprehension starts from the environment of the scope around that. -/
theorem Typed.lambda_body (hr : r.descend = true) {outer : Env} (h : r.Typed results p env e)
    (hscope : p.scope = some outer)
    (hlambda : (.lambda site params defaults body, false) ∈ e.schedule) :
    r.Typed results ⟨.func, none⟩ (forget params (r.startEnv p outer)) body := by
  induction e using Expr.evaluatedInduction generalizing p env with
  | h e ih =>
    rcases Expr.mem_schedule_unmarked.mp hlambda with rfl | ⟨hl, c, hc, hlambda⟩
    · obtain ⟨p', env', ⟨rfl, rfl⟩, hbody⟩ := h.parts (.inl hr) (List.mem_singleton_self _)
      have hstart : r.startEnv p outer = r.startEnv p env := by
        rw [startEnv, startEnv, hscope, Option.getD_some, Option.getD_some]
      rw [hstart]
      exact hbody
    · obtain ⟨hidden, hpart⟩ := Expr.exists_scope hc
      obtain ⟨p', env', henters, hc'⟩ := h.parts (.inl hr) hpart
      -- Inside a comprehension a further one remembers the same scope around.
      obtain rfl : p' = p := (henters.place hl).elim id fun hp' => by
        rw [hp', hscope, Option.getD_some, ← hscope]
      exact ih c hc hc' hscope hlambda

/-- In a function a name that a lambda does not bind has in its body the type that it has in front
of the outermost comprehension around the lambda. -/
theorem Typed.in_lambda (hr : r.descend = true) (h : r.Typed results p env e)
    (he : e.isComprehension = true) (hframe : p.frame = .func)
    (hlambda : (.lambda site params defaults body, false) ∈ e.schedule) (hparams : n ∉ params)
    (hfree : ∀ c ∈ body.nodes, n ∉ c.binds) {site' : Site}
    (ho : .name site' n ∈ body.evaluatedNodes) :
    (.name site' n, r.decls.nameIn (p.scope.getD env) n) ∈ results := by
  rcases Expr.mem_schedule_unmarked.mp hlambda with rfl | ⟨hl, c, hc, hlambda⟩
  · cases he
  · obtain ⟨hidden, hpart⟩ := Expr.exists_scope hc
    obtain ⟨p', env', henters, htyped⟩ := h.parts (.inl hr) hpart
    obtain rfl : p' = { p with scope := some (p.scope.getD env) } := by
      cases e with
      | comprehension site kind elements generators => exact henters.1
      | _ => cases he
    have hbody := htyped.lambda_body hr rfl hlambda
    rw [startEnv, hframe] at hbody
    have hname := hbody.free hr rfl (fun _ hmem => (Option.not_mem_none _ hmem).elim) hfree ho
    rw [Declarations.nameIn, get?_forget, if_neg hparams] at hname
    exact hname

mutual

private theorem perform_typed (hr : r.descend = true) (step : Step) (inFunction : Bool) (s : Course)
    (hframe : inFunction = true → s.frame = .func) :
    Ensures (perform r.courseHooks step s) fun s' => ∀ x ∈ step.placed inFunction,
      ∃ p env, (x.2 = true → p.frame = .func) ∧ r.Typed s'.results p env x.1 := by
  cases step with
  | visit e =>
    refine (Ensures.self _).map fun x hx => List.forall_mem_singleton.mpr ?_
    exact ⟨⟨s.frame, none⟩, s.env, hframe, x, hx, List.subset_append_right _ _⟩
  | function head body =>
    rw [course_function hr]
    refine (Ensures.trivial _).bind fun env _ => ?_
    exact (performAll_typed hr body true _ fun _ => rfl).bind fun inner hinner => .ok hinner
  | cls head body =>
    rw [course_cls hr]
    exact (performAll_typed hr body false _ nofun).bind fun inner hinner => .ok hinner
  | _ => exact (Ensures.trivial _).mono fun _ _ => List.forall_mem_nil _

/-- What a script visits is typed, and in a function if it stands there. -/
theorem performAll_typed (hr : r.descend = true) (steps : List Step) (inFunction : Bool)
    (s : Course) (hframe : inFunction = true → s.frame = .func) :
    Ensures (performAll r.courseHooks steps s) fun s' => ∀ x ∈ placedAll inFunction steps,
      ∃ p env, (x.2 = true → p.frame = .func) ∧ r.Typed s'.results p env x.1 := by
  cases steps with
  | nil => exact .ok (List.forall_mem_nil _)
  | cons step rest =>
    refine (Ensures.self _).bind fun mid hmid s' hs' => ?_
    obtain ⟨hsame, -⟩ := perform_reaches step s mid hmid
    obtain ⟨-, new, -, hresults, -⟩ := performAll_reaches rest mid s' hs'
    refine List.forall_mem_append.mpr ⟨fun x hx => ?_, ?_⟩
    · obtain ⟨p, env, hp, htyped⟩ := perform_typed hr step inFunction s hframe mid hmid x hx
      exact ⟨p, env, hp, htyped.mono (hresults ▸ List.subset_append_left _ _)⟩
    · exact performAll_typed hr rest inFunction mid (fun h => hsame.trans (hframe h)) s' hs'

end

end Resolver

variable {m : Module} {moduleName : String} {library : Library} {info : TypeInfo}

/-- The types of a module are the results of typing everything that is visited where it stands. -/
theorem TypeInfo.exists_typed (hm : m.Numbered) (h : ofModule m moduleName library = .ok info) :
    ∃ (globals : Env) (results : Results), (∀ x ∈ results, info.typeOf? x.1 = x.2) ∧
      ∀ x ∈ placedAll false (bodySteps m.body), ∃ p env, (x.2 = true → p.frame = .func) ∧
        Resolver.Typed ⟨info.decls, globals, true⟩ results p env x.1 := by
  obtain ⟨first, alone, -, halone, htypes⟩ := exists_walk hm h
  exact ⟨first.env, alone.results, htypes,
    Resolver.performAll_typed rfl _ false _ nofun alone halone⟩

/-- Default values of lambdas are not typed. -/
theorem TypeInfo.typeOf?_default (hm : m.Numbered) (h : ofModule m moduleName library = .ok info)
    (ho : o ∈ m.defaultNodes) : info.typeOf? o = none :=
  typeOf?_eq_none h fun _ hn => hm.evaluated_ne_default hn ho

/-- A comprehension hides the names of its targets outside lambdas: an occurrence of such a name in
a later iterable, in a condition or in an element has no type, if no assignment expression of the
comprehension rebinds the name and the occurrence is not in the body of a lambda. A lambda in a
comprehension of a function does not see what the comprehension hides: a name that it does not bind
has in its body the type that the name has before the outermost comprehension. -/
theorem targets_hidden_outside_lambdas {m : Source.Module} (hm : m.Numbered) {moduleName : String}
    {library : Library} {info : TypeInfo}
    (h : TypeInfo.ofModule m moduleName library = .ok info) {e : Expr} {inFunction : Bool}
    (he : (e, inFunction) ∈ placedAll false (bodySteps m.body)) {c : Expr}
    (hcomp : c.isComprehension = true) :
    (c ∈ e.liveNodes → ∀ part ∈ c.scopes, ∀ n ∈ part.2, n ∉ c.assignedNames →
      ∀ site, .name site n ∈ part.1.liveNodes → (.name site n, true) ∉ part.1.schedule →
        info.typeOf? (.name site n) = none) ∧
    (c ∈ e.evaluatedNodes → inFunction = true →
      ∃ (globals : Env) (p : Place) (env : Env) (x : Finding), p.frame = .func ∧
        Resolver.find ⟨info.decls, globals, true⟩ p c env = .ok x ∧
        (∀ y ∈ x.results, info.typeOf? y.1 = y.2) ∧
        ∀ site params defaults body, (.lambda site params defaults body, false) ∈ c.schedule →
          ∀ n ∉ params, (∀ d ∈ body.nodes, n ∉ d.binds) →
            ∀ site', .name site' n ∈ body.evaluatedNodes →
              info.typeOf? (.name site' n) = info.decls.nameIn (p.scope.getD env) n) := by
  obtain ⟨globals, results, hresults, hplaced⟩ := TypeInfo.exists_typed hm h
  obtain ⟨p₀, env₀, hfunc, htyped⟩ := hplaced _ he
  constructor
  · intro hc part hpart n hn hassigned site ho hmark
    have hvisited : e ∈ m.visited := by
      rw [Source.Module.visited, ← map_fst_placedAll false]
      exact List.mem_map_of_mem he
    have huntyped : ∀ o ∈ e.defaultNodes, info.typeOf? o = none := fun o ho =>
      TypeInfo.typeOf?_default hm h (List.mem_flatMap.mpr ⟨e, hvisited, ho⟩)
    have hchild := Expr.mem_evaluatedChildren_of_scopes hpart
    -- What stands inside default values is passed over, the comprehension itself included.
    rcases Expr.mem_of_mem_liveNodes hc with hc | hc
    · rcases Expr.mem_of_mem_liveNodes ho with ho | ho
      · have hl : c.isLambda = false := by
          cases c with
          | lambda site params defaults body => cases hcomp
          | _ => rfl
        obtain ⟨p, env, -, hc⟩ := htyped.exists_of_mem rfl hc
        obtain ⟨⟨o, marked⟩, hscheduled, rfl⟩ :=
          List.mem_map.mp (part.1.schedule_perm.mem_iff.mpr ho)
        cases marked with
        | true => exact absurd hscheduled hmark
        | false => exact hresults _ (hc.hidden_part hl hpart hn hassigned hscheduled)
      · refine huntyped _ (Expr.defaultNodes_subset_of_mem hc ?_)
        exact Expr.mem_defaultNodes_iff.mpr (.inr ⟨part.1, hchild, ho⟩)
    · refine huntyped _ (Expr.liveNodes_subset_defaultNodes hc ?_)
      exact Expr.mem_liveNodes_iff.mpr (.inr ⟨part.1, Expr.evaluatedChildren_subset c hchild, ho⟩)
  · intro hc hin
    obtain ⟨p, env, hframe, x, hx, hsub⟩ := htyped.exists_of_mem rfl hc
    refine ⟨globals, p, env, x, hframe (hfunc hin), hx, fun y hy => hresults y (hsub hy), ?_⟩
    intro site params defaults body hlambda n hparams hfree site' ho
    exact hresults _ (Resolver.Typed.in_lambda rfl ⟨x, hx, hsub⟩ hcomp (hframe (hfunc hin)) hlambda
      hparams hfree ho)

namespace ShadowedParameter

/-- `[(n, lambda: n) for n in ns]`. -/
def pairs : Expr :=
  .comprehension (.ofId 1) .list
    [.sequence (.ofId 2) .tuple [.name (.ofId 3) "n", .lambda (.ofId 4) [] [] (.name (.ofId 5) "n")]]
    [.mk (.name (.ofId 6) "n") (.name (.ofId 7) "ns") []]

/-- A function that returns the pairs, with a parameter `n` of its own. -/
def module : Source.Module where
  body := [.functionDef
    ⟨"f", { regular := [⟨"n", some (.name (.ofId 0) "int")⟩, ⟨"ns", none⟩] }, [], none⟩
    [.value (some pairs)]]

private theorem placed_pairs : (pairs, true) ∈ placedAll false (bodySteps module.body) := by
  simp [module, bodySteps, stmtSteps, placedAll, Step.placed, Parameters.defaultValues]

/-- The element of the comprehension is behind its target. -/
theorem element_scope : (Expr.sequence (.ofId 2) .tuple [.name (.ofId 3) "n", .lambda (.ofId 4) [] []
    (.name (.ofId 5) "n")], ["n"]) ∈ pairs.scopes := by
  simp [pairs, Expr.scopes, Expr.clauseScopes, Expr.hides, Expr.targetNames]

/-- The occurrence in the lambda has the type of the parameter. -/
theorem exists_info : ∃ info, TypeInfo.ofModule module "sample" .standard = .ok info ∧
    info.typeOf? (.name (.ofId 5) "n") = some (instanceOf "int") := by
  decide +kernel

/-- Outside the lambda the target hides the parameter, and inside it `n` has the type that it has in
front of the comprehension. -/
theorem hidden_outside_lambda : ∃ info, TypeInfo.ofModule module "sample" .standard = .ok info ∧
    info.typeOf? (.name (.ofId 3) "n") = none ∧
    ∃ (globals : Env) (p : Place) (env : Env) (x : Finding), p.frame = .func ∧
      Resolver.find ⟨info.decls, globals, true⟩ p pairs env = .ok x ∧
      info.typeOf? (.name (.ofId 5) "n") = info.decls.nameIn (p.scope.getD env) "n" := by
  have hm : module.Numbered := by decide
  obtain ⟨info, hinfo, -⟩ := exists_info
  obtain ⟨houtside, hinside⟩ :=
    targets_hidden_outside_lambdas hm hinfo placed_pairs (c := pairs) rfl
  obtain ⟨globals, p, env, x, hp, hx, -, hlambda⟩ :=
    hinside (Expr.mem_evaluatedNodes_iff.mpr (.inl rfl)) rfl
  refine ⟨info, hinfo, ?_, globals, p, env, x, hp, hx, ?_⟩
  · refine houtside pairs.mem_liveNodes_self _ element_scope "n" (List.mem_singleton_self _) ?_
      (.ofId 3) ?_ ?_
    · decide
    · simp [Expr.liveNodes]
    · simp [Expr.schedule, Expr.scheduleOf, Site.ofId]
  · refine hlambda (.ofId 4) [] [] (.name (.ofId 5) "n") ?_ "n" List.not_mem_nil ?_ (.ofId 5) ?_
    · simp [pairs, Expr.schedule, Expr.scheduleOf, Expr.clauseSchedule]
    · simp [Expr.nodes, Expr.binds]
    · exact List.mem_singleton_self _

/-- The occurrence in the lambda is behind the target, which no assignment expression rebinds, and
has nevertheless the type of the parameter. -/
theorem lambda_sees_parameter : ∃ info, TypeInfo.ofModule module "sample" .standard = .ok info ∧
    (pairs, true) ∈ placedAll false (bodySteps module.body) ∧ "n" ∉ pairs.assignedNames ∧
    (∃ part ∈ pairs.scopes, "n" ∈ part.2 ∧
      .lambda (.ofId 4) [] [] (.name (.ofId 5) "n") ∈ part.1.liveNodes) ∧
    info.typeOf? (.name (.ofId 5) "n") = some (instanceOf "int") := by
  obtain ⟨info, hinfo, htype⟩ := exists_info
  have hbehind : ∃ part ∈ pairs.scopes, "n" ∈ part.2 ∧
      .lambda (.ofId 4) [] [] (.name (.ofId 5) "n") ∈ part.1.liveNodes :=
    ⟨_, element_scope, List.mem_singleton_self _, by simp [Expr.liveNodes]⟩
  exact ⟨info, hinfo, placed_pairs, by decide, hbehind, htype⟩

end ShadowedParameter

end ContextLint.Typing
