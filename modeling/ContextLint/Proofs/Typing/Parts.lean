import ContextLint.Proofs.Typing.Unbound

/-!
# Typing part by part

An expression types its evaluated parts one after the other, and their results are among its own.
What differs is where a part is typed: a lambda starts a scope of its own, a comprehension hides the
names of its targets from the parts behind them, and any other expression only passes on what
assignment expressions bind.
-/

namespace ContextLint.Source.Expr

/-- The evaluated parts of comprehension clauses in order, each with the names that are hidden
there. -/
def clauseScopes : List String → List Generator → List (Expr × List String)
  | _, [] => []
  | hidden, .mk target iter conditions :: rest =>
    (iter, hidden) :: (conditions.map (·, hidden ++ target.targetNames) ++
      clauseScopes (hidden ++ target.targetNames) rest)

/-- The evaluated parts of an expression in order, each with the names that the expression hides
there: the parameters of a lambda, or those targets of a comprehension that stand in front. -/
def scopes : Expr → List (Expr × List String)
  | lambda _ params _ body => [(body, params)]
  | comprehension site kind elements generators =>
    clauseScopes [] generators ++
      elements.map (·, (comprehension site kind elements generators).hides)
  | e => e.evaluatedChildren.map (·, [])

private theorem map_fst_clauseScopes (hidden : List String) (generators : List Generator) :
    (clauseScopes hidden generators).map Prod.fst = generators.flatMap liveClauseParts := by
  induction generators generalizing hidden with
  | nil => rfl
  | cons clause rest ih =>
    obtain ⟨target, iter, conditions⟩ := clause
    simp [clauseScopes, liveClauseParts, ih, Function.comp_def]

/-- The parts are the evaluated ones. -/
theorem map_fst_scopes (e : Expr) : e.scopes.map Prod.fst = e.evaluatedChildren := by
  cases e with
  | lambda site params defaults body => rfl
  | comprehension site kind elements generators =>
    simp [scopes, map_fst_clauseScopes, evaluatedChildren, liveChildren, Function.comp_def]
  | _ => simp [scopes, Function.comp_def]

end ContextLint.Source.Expr

namespace ContextLint.Typing

open Source

namespace Resolver

/-- A forgotten name has no type. -/
theorem get?_forget (names : List String) (env : Env) (x : String) :
    (forget names env).get? x = if x ∈ names then some none else env.get? x := by
  induction names generalizing env with
  | nil => rfl
  | cons name rest ih =>
    rw [forget, List.foldl_cons, ← forget, ih, NameMap.get?_set]
    by_cases hx : x = name <;> simp [hx]

/-- On the way from one environment to the other some names have been assigned and others hidden.
A hidden name that is not assigned has no type. -/
structure Shadowed (assigned hidden : List String) (env env' : Env) : Prop where
  rebinds : Rebinds (assigned ++ hidden) env env'
  hides : ∀ x ∈ hidden, x ∉ assigned → env'.get? x = some none

namespace Shadowed

variable {assigned hidden : List String} {env env' env'' : Env}

private theorem refl (assigned : List String) (env : Env) : Shadowed assigned [] env env :=
  ⟨.refl _ _, fun _ hx => nomatch hx⟩

private theorem trans (h : Shadowed assigned hidden env env') {names : List String}
    (hnames : names ⊆ assigned) (h' : Rebinds names env' env'') :
    Shadowed assigned hidden env env'' where
  rebinds := h.rebinds.trans (h'.mono (List.subset_append_of_subset_left _ hnames))
  hides x hx hassigned :=
    (h'.get? fun hmem => hassigned (hnames hmem)).trans (h.hides x hx hassigned)

private theorem forget (h : Shadowed assigned hidden env env') (names : List String) :
    Shadowed assigned (hidden ++ names) env (Resolver.forget names env') where
  rebinds := by
    have hforget : Rebinds (assigned ++ (hidden ++ names)) env' (Resolver.forget names env') :=
      .foldl (fun _ => none) (by simp) env'
    exact (h.rebinds.mono (by simp)).trans hforget
  hides x hx hassigned := by
    rw [get?_forget]
    by_cases hnames : x ∈ names
    · rw [if_pos hnames]
    · rw [if_neg hnames]
      exact h.hides x ((List.mem_append.mp hx).resolve_right hnames) hassigned

end Shadowed

/-- Where an expression types a part in which it hides names. -/
def Enters (r : Resolver) (e : Expr) (p : Place) (env : Env) (hidden : List String) (p' : Place)
    (env' : Env) : Prop :=
  match e with
  | .lambda .. => p' = ⟨.func, none⟩ ∧ env' = forget hidden (r.startEnv p env)
  | .comprehension site kind elements generators =>
    p' = { p with scope := some (p.scope.getD env) } ∧
      Shadowed (Expr.comprehension site kind elements generators).assignedNames hidden env env'
  | e => p' = p ∧ Rebinds e.assignedNames env env'

variable {r : Resolver}

/-- The expression is typed at a place in an environment, with its results among these. -/
def Typed (r : Resolver) (results : Results) (p : Place) (env : Env) (e : Expr) : Prop :=
  ∃ y, r.find p e env = .ok y ∧ y.results ⊆ results

/-- More results type as much. -/
theorem Typed.mono {results results' : Results} {p : Place} {env : Env} {e : Expr}
    (h : r.Typed results p env e) (hsub : results ⊆ results') : r.Typed results' p env e := by
  obtain ⟨y, hy, hresults⟩ := h
  exact ⟨y, hy, List.Subset.trans hresults hsub⟩

/-- Each of several expressions is typed behind those before it. -/
theorem findAll_parts (p : Place) (es : List Expr) (env : Env) :
    Ensures (r.findAll p es env) fun x => ∀ e ∈ es, ∃ env',
      Rebinds (Expr.assignedNamesOf es) env env' ∧ r.Typed x.results p env' e := by
  induction es generalizing env with
  | nil => exact .ok (List.forall_mem_nil _)
  | cons e rest ih =>
    refine (Ensures.self _).bind fun x hx => (ih x.env).bind fun z hz => .ok ?_
    have hhead : Rebinds (Expr.assignedNamesOf (e :: rest)) env x.env :=
      (find_rebinds p e env x hx).mono (List.subset_append_left _ _)
    refine List.forall_mem_cons.mpr ⟨⟨env, .refl _ _, x, hx, List.subset_append_left _ _⟩, ?_⟩
    intro c hc
    obtain ⟨env', henv, hc⟩ := hz c hc
    exact ⟨env', hhead.trans (henv.mono (List.subset_append_right _ _)),
      hc.mono (List.subset_append_right _ _)⟩

/-- The clauses of a comprehension are typed one after the other. -/
theorem findClauses_parts (p : Place) {assigned : List String} {env₀ : Env}
    {generators : List Generator} (hassigned : Expr.generatorNames generators ⊆ assigned)
    {hidden : List String} {env : Env} (henv : Shadowed assigned hidden env₀ env) :
    Ensures (r.findClauses p generators env) fun x =>
      Shadowed assigned (hidden ++ generators.flatMap fun | .mk target _ _ => target.targetNames)
        env₀ x.env ∧
      ∀ part ∈ Expr.clauseScopes hidden generators, ∃ env',
        Shadowed assigned part.2 env₀ env' ∧ r.Typed x.results p env' part.1 := by
  induction generators generalizing hidden env with
  | nil => exact .ok ⟨by simpa using henv, List.forall_mem_nil _⟩
  | cons clause rest ih =>
    obtain ⟨target, iter, conditions⟩ := clause
    simp only [Expr.generatorNames, List.append_subset] at hassigned
    obtain ⟨⟨⟨-, hiter⟩, hconditions⟩, hrest⟩ := hassigned
    refine (Ensures.self _).bind fun x hx => (Ensures.self _).bind fun c hc => ?_
    have hbehind := (henv.trans hiter (find_rebinds p iter env x hx)).forget target.targetNames
    have hdone := hbehind.trans hconditions (findAll_rebinds p conditions _ c hc)
    refine (ih hrest hdone).bind fun z hz => .ok ⟨by simpa using hz.1, ?_⟩
    simp only [Finding.andThen_results, Expr.clauseScopes]
    refine List.forall_mem_cons.mpr ⟨⟨env, henv, x, hx, by simp⟩, ?_⟩
    refine List.forall_mem_append.mpr ⟨List.forall_mem_map.mpr fun e he => ?_, fun part hpart => ?_⟩
    · obtain ⟨env', henv', he⟩ := findAll_parts p conditions _ c hc e he
      exact ⟨env', hbehind.trans hconditions henv', he.mono (by simp)⟩
    · obtain ⟨env', henv', hpart⟩ := hz.2 part hpart
      exact ⟨env', henv', hpart.mono (by simp)⟩

/-- The parts of an expression are typed where it types them. -/
theorem find_parts (p : Place) (e : Expr) (env : Env)
    (hr : r.descend = true ∨ e.isLambda = false) :
    Ensures (r.find p e env) fun x => ∀ part ∈ e.scopes, ∃ p' env',
      r.Enters e p env part.2 p' env' ∧ r.Typed x.results p' env' part.1 := by
  cases e with
  | lambda site params defaults body =>
    have hdescend : r.descend = true := hr.resolve_right (by simp [Expr.isLambda])
    rw [find, if_pos hdescend]
    refine (Ensures.self _).bind fun x hx => .ok (List.forall_mem_singleton.mpr ?_)
    exact ⟨_, _, ⟨rfl, rfl⟩, x, hx, by simp⟩
  | comprehension site kind elements generators =>
    refine (Ensures.self _).bind fun c hc => (Ensures.self _).bind fun x hx => .ok ?_
    have hassigned : Expr.generatorNames generators ⊆
        (Expr.comprehension site kind elements generators).assignedNames :=
      List.subset_append_right _ _
    obtain ⟨hbehind, hclauses⟩ := findClauses_parts _ hassigned (.refl _ env) c hc
    refine List.forall_mem_append.mpr ⟨fun part hpart => ?_, List.forall_mem_map.mpr ?_⟩
    · obtain ⟨env', henv', hpart⟩ := hclauses part hpart
      exact ⟨_, env', ⟨rfl, henv'⟩, hpart.mono (by simp)⟩
    · intro e he
      obtain ⟨env', henv', he⟩ := findAll_parts _ elements c.env x hx e he
      exact ⟨_, env', ⟨rfl, hbehind.trans (List.subset_append_left _ _) henv'⟩, he.mono (by simp)⟩
  | _ =>
    refine (find_in_order p rfl env).mono ?_
    rintro x ⟨y, hy, hresults, -⟩
    refine List.forall_mem_map.mpr fun c hc => ?_
    obtain ⟨env', henv', hc⟩ := findAll_parts p _ env y hy c hc
    exact ⟨p, env', ⟨rfl, henv'.mono (Expr.assignedNames_of_parts rfl)⟩,
      hc.mono (hresults ▸ List.subset_append_left _ _)⟩

end Resolver

end ContextLint.Typing
