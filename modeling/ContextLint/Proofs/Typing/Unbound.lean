import ContextLint.Proofs.NameMap
import ContextLint.Proofs.Scope.Spared
import ContextLint.Proofs.Typing.Course

/-!
# Names that are not bound

An expression binds the targets of its assignment expressions, a function its parameters, a
statement what it assigns, imports or defines. Any other name has the same type in the environment
behind as in the one in front.
-/

namespace ContextLint.Source.Expr

/-- What an evaluated part assigns, the whole assigns. -/
theorem assignedNames_of_part {e c : Expr} (hc : c ∈ e.evaluatedChildren) (he : e.isLambda = false) :
    c.assignedNames ⊆ e.assignedNames := by
  intro x hx
  cases e with
  | lambda site params defaults body => cases he
  | comprehension site kind elements generators =>
    rw [assignedNames, assignedNamesOf_eq_flatMap, generatorNames_eq_flatMap]
    rcases List.mem_append.mp hc with hc | hc
    · obtain ⟨⟨target, iter, conditions⟩, hclause, hc⟩ := List.mem_flatMap.mp hc
      refine List.mem_append_right _
        (List.mem_flatMap.mpr ⟨c, List.mem_flatMap.mpr ⟨_, hclause, ?_⟩, hx⟩)
      exact List.mem_cons_of_mem target hc
    · exact List.mem_append_left _ (List.mem_flatMap.mpr ⟨c, hc, hx⟩)
  | constant site value | name site id => simp [evaluatedChildren, liveChildren, children] at hc
  | walrus site target value =>
    obtain rfl := List.mem_singleton.mp hc
    exact List.mem_append_left _ hx
  | _ =>
    simp only [evaluatedChildren, liveChildren, children, List.mem_cons, List.mem_append,
      List.not_mem_nil, or_false] at hc
    simp only [assignedNames, assignedNamesOf_eq_flatMap, List.mem_append, List.mem_flatMap]
    grind

/-- What the parts assign the whole assigns. -/
theorem assignedNames_of_parts {e : Expr} (he : e.isLambda = false) :
    assignedNamesOf e.evaluatedChildren ⊆ e.assignedNames := by
  intro x hx
  rw [assignedNamesOf_eq_flatMap] at hx
  obtain ⟨c, hc, hx⟩ := List.mem_flatMap.mp hx
  exact assignedNames_of_part hc he hx

end ContextLint.Source.Expr

namespace ContextLint.Scope

open Source

/-- Names that a step binds in the scope where it stands. -/
def Step.names : Step → List String
  | .visit e => e.assignedNames
  | .bind x _ _ | .unbind x | .bindElement x _ | .define x => [x]
  | .onImport stmt => stmt.names.map (ImportAlias.boundName stmt.source)
  | .function .. | .cls .. => []

/-- Names that statements bind in the scope where they stand, by whatever means. -/
def boundNames (stmts : List Stmt) : List String := (bodySteps stmts).flatMap Step.names

end ContextLint.Scope

namespace ContextLint.Typing

open Source Scope

/-- Some of the names have been bound on the way from one environment to the other. -/
def Rebinds (names : List String) (env env' : Env) : Prop :=
  ∃ changes : Env, changes.names ⊆ names ∧ env' = env.update changes

namespace Rebinds

variable {names names' : List String} {env env' env'' : Env} {x : String}

/-- Nothing needs to be rebound. -/
theorem refl (names : List String) (env : Env) : Rebinds names env env :=
  ⟨[], List.nil_subset _, rfl⟩

theorem trans (h : Rebinds names env env') (h' : Rebinds names env' env'') :
    Rebinds names env env'' := by
  obtain ⟨changes, hnames, rfl⟩ := h
  obtain ⟨changes', hnames', rfl⟩ := h'
  refine ⟨changes ++ changes', ?_, List.foldl_append.symm⟩
  rw [NameMap.names, List.map_append]
  exact List.append_subset.mpr ⟨hnames, hnames'⟩

/-- Fewer names are rebound than may be. -/
theorem mono (h : Rebinds names env env') (hnames : names ⊆ names') : Rebinds names' env env' := by
  obtain ⟨changes, hchanges, rfl⟩ := h
  exact ⟨changes, List.Subset.trans hchanges hnames, rfl⟩

private theorem set (hx : x ∈ names) (env : Env) (ref : Option TypeRef) :
    Rebinds names env (env.set x ref) :=
  ⟨[(x, ref)], List.cons_subset.mpr ⟨hx, List.nil_subset _⟩, rfl⟩

/-- Binding each of some names. -/
theorem foldl (f : String → Option TypeRef) (hnames : names' ⊆ names) (env : Env) :
    Rebinds names env (names'.foldl (fun env x => env.set x (f x)) env) := by
  induction names' generalizing env with
  | nil => exact .refl _ _
  | cons x rest ih =>
    rw [List.cons_subset] at hnames
    exact (set hnames.1 env (f x)).trans (ih hnames.2 _)

/-- Any other name keeps its type. -/
theorem get? (h : Rebinds names env env') (hx : x ∉ names) : env'.get? x = env.get? x := by
  obtain ⟨changes, hchanges, rfl⟩ := h
  induction changes generalizing env with
  | nil => rfl
  | cons p rest ih =>
    rw [NameMap.names, List.map_cons, List.cons_subset] at hchanges
    have hne : x ≠ p.1 := fun heq => hx (heq ▸ hchanges.1)
    exact (ih hchanges.2).trans ((NameMap.get?_set ..).trans (if_neg hne))

/-- If there are no names, nothing is bound. -/
theorem eq_of_nil (h : Rebinds [] env env') : env' = env := by
  obtain ⟨changes, hchanges, rfl⟩ := h
  obtain rfl : changes = [] := List.map_eq_nil_iff.mp (List.subset_nil.mp hchanges)
  rfl

end Rebinds

/-- An import with a meaning binds the name it should. -/
theorem importMeaning_fst {source : Option ImportSource} {a : ImportAlias} {p : String × String}
    (h : importMeaning source a = some p) : p.1 = a.boundName source := by
  unfold importMeaning at h
  split at h
  · split at h <;> obtain rfl := Option.some.inj h <;> simp_all [ImportAlias.boundName]
  · split at h
    · cases h
    · obtain rfl := Option.some.inj h
      rfl
  · cases h

namespace Resolver

/-- An imported name is bound to what it stands for. -/
theorem bindImports_cons (r : Resolver) (source : Option ImportSource) (a : ImportAlias)
    (rest : List ImportAlias) (env : Env) :
    r.bindImports source (a :: rest) env =
      r.bindImports source rest (if a.name = "*" then env else env.set (a.boundName source)
        ((importMeaning source a).bind fun meaning => r.decls.lookup? meaning.2)) := by
  rw [bindImports]
  by_cases hstar : a.name = "*"
  · simp only [if_pos hstar]
  · simp only [if_neg hstar]
    cases hmeaning : importMeaning source a with
    | some meaning =>
      rw [← importMeaning_fst hmeaning]
      rfl
    | none =>
      have hsource : source.isNone = false := by
        unfold importMeaning at hmeaning
        grind
      rw [ImportAlias.boundName, hsource]
      rfl

private theorem get?_bindImports {r : Resolver} {source : Option ImportSource}
    {names : List ImportAlias}
    {x : String} (hx : x ∉ names.map (ImportAlias.boundName source)) (env : Env) :
    (r.bindImports source names env).get? x = env.get? x := by
  induction names generalizing env with
  | nil => rfl
  | cons a rest ih =>
    rw [List.map_cons, List.mem_cons, not_or] at hx
    rw [bindImports_cons, ih hx.2]
    by_cases hstar : a.name = "*"
    · rw [if_pos hstar]
    · rw [if_neg hstar, NameMap.get?_set, if_neg hx.1]

variable {r : Resolver} {y : String}

/-- Several expressions bind what each of them binds. -/
private theorem findAll_rebinds_of {p : Place} {es : List Expr}
    (h : ∀ e ∈ es, ∀ env, Ensures (r.find p e env) fun x => Rebinds e.assignedNames env x.env)
    (env : Env) :
    Ensures (r.findAll p es env) fun x => Rebinds (Expr.assignedNamesOf es) env x.env := by
  induction es generalizing env with
  | nil => exact .ok (.refl _ _)
  | cons e rest ih =>
    rw [List.forall_mem_cons] at h
    refine (h.1 env).bind fun x hx => (ih h.2 x.env).bind fun z hz => .ok ?_
    exact (hx.mono (List.subset_append_left _ _)).trans (hz.mono (List.subset_append_right _ _))

/-- An expression binds the targets of its assignment expressions. -/
theorem find_rebinds (p : Place) (e : Expr) (env : Env) :
    Ensures (r.find p e env) fun x => Rebinds e.assignedNames env x.env := by
  induction e using Expr.evaluatedInduction generalizing p env with
  | h e ih =>
    cases e with
    | lambda site params defaults body =>
      rw [find]
      split
      · exact (Ensures.trivial _).bind fun x _ => .ok (.refl _ _)
      · exact .ok (.refl _ _)
    | walrus site target value =>
      refine (ih value (List.mem_singleton_self value) p env).bind fun x hx => .ok ?_
      have htarget := List.mem_append_right value.assignedNames (List.mem_singleton_self target)
      exact (hx.mono (List.subset_append_left _ _)).trans (.set htarget _ _)
    | comprehension site kind elements generators =>
      refine (Ensures.trivial _).bind fun c _ => (Ensures.trivial _).bind fun x _ => .ok ?_
      exact .foldl _ (List.reverse_subset.mpr (List.Subset.refl _)) env
    | _ =>
      refine (find_in_order p rfl env).mono ?_
      rintro x ⟨y, hy, -, henv⟩
      have hparts := (findAll_rebinds_of (fun c hc => ih c hc p) env y hy).mono
        (Expr.assignedNames_of_parts rfl)
      rw [henv (by simp)]
      exact hparts

/-- So do several expressions. -/
theorem findAll_rebinds (p : Place) (es : List Expr) (env : Env) :
    Ensures (r.findAll p es env) fun x => Rebinds (Expr.assignedNamesOf es) env x.env :=
  findAll_rebinds_of (fun e _ => find_rebinds p e) env

/-- Annotations bind parameters only. -/
theorem annotateParams_rebinds (params : List Param) (env : Env) :
    Ensures (r.annotateParams params env) (Rebinds (params.map Param.name) env) := by
  induction params generalizing env with
  | nil => exact .ok (.refl _ _)
  | cons p rest ih =>
    have hrest (env : Env) : Ensures (r.annotateParams rest env)
        (Rebinds ((p :: rest).map Param.name) env) :=
      (ih env).mono fun _ h => h.mono (List.subset_cons_self _ _)
    refine (Ensures.trivial _).bind fun ref _ => ?_
    cases ref with
    | some ref =>
      have hset : Rebinds ((p :: rest).map Param.name) env (env.set p.name (some ref)) :=
        .set List.mem_cons_self env (some ref)
      exact (hrest _).mono fun _ h => hset.trans h
    | none => exact hrest env

/-- The receiver is a parameter. -/
theorem bindReceiver_rebinds (frame : Frame) (head : FunctionHead) (env : Env) :
    Rebinds head.params.names env (bindReceiver frame head env) := by
  unfold bindReceiver
  split
  · next owner name rest hpositional =>
    split
    · exact .set (by simp [Parameters.names, hpositional]) _ _
    · exact .refl _ _
  · exact .refl _ _

/-- At the start of a function, any name but the parameters has the type that it has around. -/
theorem bodyEnv_rebinds (head : FunctionHead) (s : Progress) :
    Ensures (r.bodyEnv head s)
      (Rebinds head.params.names (r.startEnv ⟨s.frame, none⟩ s.env)) := by
  have hparams : (head.params.positional ++ head.params.kwOnly).map Param.name ⊆
      head.params.names :=
    List.map_subset _
      (List.Subset.trans (List.subset_append_left _ _) (List.subset_append_left _ _))
  have hforget := Rebinds.foldl (fun _ => none) (List.Subset.refl head.params.names)
    (r.startEnv ⟨s.frame, none⟩ s.env)
  refine (annotateParams_rebinds _ _).bind fun env henv => .ok ?_
  exact (hforget.trans (henv.mono hparams)).trans (bindReceiver_rebinds _ _ _)

/-- A name that an expression does not assign keeps its type. -/
theorem find_get? (p : Place) (e : Expr) (hy : y ∉ e.assignedNames) (env : Env) :
    Ensures (r.find p e env) fun x => x.env.get? y = env.get? y :=
  (find_rebinds p e env).mono fun _ hx => hx.get? hy

/-- A name that a step does not bind keeps its type. -/
theorem perform_get? (step : Step) (hy : y ∉ step.names) (s : Progress) :
    Ensures (perform r.hooks step s) fun s' => s'.env.get? y = s.env.get? y := by
  have hassign : ∀ x ref, y ∉ [x] → (assignIn s x ref).env.get? y = s.env.get? y := by
    intro x ref hx
    rw [List.mem_singleton] at hx
    exact (NameMap.get?_set _ _ _ _).trans (if_neg hx)
  cases step with
  | visit e =>
    have hfind := find_get? (r := r) ⟨s.frame, none⟩ e hy s.env
    simp only [perform, hooks, eval_eq_find, bind_map_left]
    exact hfind.bind fun x hx => .ok hx
  | bind x value hint =>
    exact (Ensures.trivial _).bind fun ref _ => .ok (hassign x ref hy)
  | unbind x => exact .ok (hassign x none hy)
  | bindElement x value | define x => exact .ok (hassign x _ hy)
  | onImport stmt => exact .ok (get?_bindImports hy s.env)
  | function head body =>
    cases hr : r.descend with
    | false =>
      rw [perform_function_of_not_descend hr]
      exact .ok rfl
    | true =>
      rw [perform_function hr]
      exact (Ensures.trivial _).bind fun env _ => (Ensures.trivial _).bind fun inner _ => .ok rfl
  | cls head body =>
    cases hr : r.descend with
    | false =>
      rw [perform_cls_of_not_descend hr]
      exact .ok rfl
    | true =>
      rw [perform_cls hr]
      exact (Ensures.trivial _).bind fun inner _ => .ok rfl

/-- A name that a script does not bind keeps its type. -/
theorem performAll_get? (steps : List Step) (hy : y ∉ steps.flatMap Step.names) (s : Progress) :
    Ensures (performAll r.hooks steps s) fun s' => s'.env.get? y = s.env.get? y := by
  induction steps generalizing s with
  | nil => exact .ok rfl
  | cons step rest ih =>
    rw [List.flatMap_cons, List.mem_append, not_or] at hy
    refine (perform_get? step hy.1 s).bind fun s' hs' => ?_
    exact (ih hy.2 s').mono fun s'' hs'' => hs''.trans hs'

end Resolver

end ContextLint.Typing
