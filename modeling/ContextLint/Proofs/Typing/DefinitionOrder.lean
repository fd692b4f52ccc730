import ContextLint.Proofs.Typing.Declared
import ContextLint.Proofs.Typing.Unbound
import ContextLint.Proofs.Typing.WalksInStep

/-!
# The order of a definition and an assignment

At the top level, a function definition and the assignment of another name may change places. The
assigned value sees the function by its environment behind the definition and by the declarations in
front of it, which is the same if nothing else binds the function's name. The body of the function
sees the final environment of the module either way. Both orders evaluate the same expressions,
under different numbers, and record the types alike.
-/

namespace ContextLint.Scope

open Source

/-- A function definition and an assignment side by side at the top level of a module. The function
has neither decorators nor default values, and nothing else up to there binds its name. -/
structure Interchange where
  /-- The statements before the two. -/
  before : List Stmt
  /-- The head of the function. -/
  head : FunctionHead
  /-- The body of the function. -/
  body : List Stmt
  /-- Where the assigned name stands. -/
  site : Site
  /-- The assigned name. -/
  target : String
  /-- The assigned value. -/
  value : Expr
  /-- The statements behind the two. -/
  after : List Stmt
  /-- The named characters. -/
  characters : CharacterNames := fun _ => none
  plain : head.decorators = [] ∧ head.params.defaultValues = []
  target_ne : target ≠ head.name
  before_free : head.name ∉ boundNames before
  value_free : head.name ∉ value.assignedNames

namespace Interchange

variable (p : Interchange)

def definition : Stmt := .functionDef p.head p.body

def assignment : Stmt := .assign [.name p.site p.target] p.value

/-- The module with the definition first. -/
def definitionFirst : Module :=
  ⟨p.before ++ [p.definition, p.assignment] ++ p.after, p.characters⟩

/-- The module with the assignment first. -/
def assignmentFirst : Module :=
  ⟨p.before ++ [p.assignment, p.definition] ++ p.after, p.characters⟩

/-- The script of the definition. -/
def definitionSteps : List Step := [.define p.head.name, .function p.head (bodySteps p.body)]

/-- The script of the assignment. -/
def assignmentSteps : List Step := [.visit p.value, .bind p.target (some p.value) none]

private theorem stmtSteps_definition : stmtSteps p.definition = p.definitionSteps := by
  simp [definition, stmtSteps, p.plain.1, p.plain.2, definitionSteps]

/-- The script with the definition first. -/
theorem bodySteps_definitionFirst :
    bodySteps p.definitionFirst.body =
      bodySteps p.before ++ (p.definitionSteps ++ p.assignmentSteps) ++ bodySteps p.after := by
  rw [definitionFirst, bodySteps_append, bodySteps_append, bodySteps, p.stmtSteps_definition]
  rfl

theorem bodySteps_assignmentFirst :
    bodySteps p.assignmentFirst.body =
      bodySteps p.before ++ (p.assignmentSteps ++ p.definitionSteps) ++ bodySteps p.after := by
  rw [assignmentFirst, bodySteps_append, bodySteps_append, bodySteps, bodySteps,
    p.stmtSteps_definition]
  rfl

/-- Nothing is evaluated both in the body of the function and in the assigned value. -/
theorem schedule_disjoint {p : Interchange} (h : p.definitionFirst.Numbered) {x y : Expr × Bool}
    (hx : x ∈ scheduleAll (bodySteps p.body)) (hy : y ∈ p.value.schedule) : x.1.id ≠ y.1.id := by
  have hnodup := h.schedule_nodup
  rw [Module.schedule, bodySteps_definitionFirst, scheduleAll_append, scheduleAll_append,
    scheduleAll_append, List.map_append, List.map_append, List.map_append] at hnodup
  have hmiddle := (List.nodup_append.mp (List.nodup_append.mp hnodup).1).2.1
  have hmarked : (x.1, true) ∈ scheduleAll p.definitionSteps :=
    List.mem_append_right _ (List.mem_append_left _ (List.mem_map.mpr ⟨x, hx, rfl⟩))
  have hvalue : y ∈ scheduleAll p.assignmentSteps := List.mem_append_left _ hy
  exact (List.nodup_append.mp hmiddle).2.2 _ (List.mem_map_of_mem hmarked) _
    (List.mem_map_of_mem hvalue)

/-- The order does not matter for what the module declares. -/
theorem decls_eq (moduleName : String) (library : Typing.Library) :
    Typing.Declarations.ofModule p.definitionFirst moduleName library =
      Typing.Declarations.ofModule p.assignmentFirst moduleName library := by
  refine Typing.Declarations.ofModule_congr ?_ ?_ ?_ moduleName library
  · have hswap := Stmt.levelsWith_swap (p := Stmt.declares) (s := p.assignment) rfl rfl p.definition
    rw [Module.filter_breadthFirst, Module.filter_breadthFirst, definitionFirst, assignmentFirst,
      Stmt.levelsWith_append, Stmt.levelsWith_append, Stmt.levelsWith_append,
      Stmt.levelsWith_append, hswap]
  · simp [functionHeads, definitionFirst, assignmentFirst, definition, assignment]
  · rfl

/-- The module declares the function. -/
theorem nameType?_head {moduleName : String} {library : Typing.Library}
    {d : Typing.Declarations}
    (hd : Typing.Declarations.ofModule p.definitionFirst moduleName library = .ok d) :
    d.nameType? p.head.name = d.lookup? (d.names.moduleName ++ "." ++ p.head.name) := by
  have hnames := Typing.Declarations.names_of_ofModule hd
  have hlocal : d.names.localDefs.contains p.head.name = true := by
    rw [hnames, List.contains_iff_mem, Typing.NameContext.ofModule, List.mem_append]
    refine .inr ?_
    simp [Typing.functionNames, definitionFirst, definition]
  rw [Typing.Declarations.nameType?, if_pos hlocal]

end Interchange

end ContextLint.Scope

namespace ContextLint.Typing

open Source Scope

/-- Environments that agree on all names but one, and on what is known of that one by them or by the
declarations. Where functions do not start from the module's final environment they agree on it. -/
def Env.SeenAlike (d : Declarations) (f : String) (o : Bool)
    (env env' : Env) : Prop :=
  (∀ x, (o = true → x ≠ f) → env.get? x = env'.get? x) ∧ d.nameIn env f = d.nameIn env' f

/-- Walks at the top level whose environments and tables agree. -/
def Progress.Agree : Progress → Progress → Prop :=
  Progress.Alike (fun _ => Env.AgreeOff []) (TypeTable.AgreeOff []) .module

variable {t t' : TypeTable}

/-- Recording for different expressions is done in either order. -/
theorem keep_comm (ht : TypeTable.AgreeOff [] t t') {xs ys : Results}
    (h : ∀ x ∈ xs, ∀ y ∈ ys, x.1.id ≠ y.1.id) :
    TypeTable.AgreeOff [] (keep (keep t xs) ys) (keep (keep t' ys) xs) := by
  intro id hid
  rw [getElem?_keep, getElem?_keep, getElem?_keep, getElem?_keep, ht id hid]
  by_cases hx : ∃ x ∈ xs, x.1.id = id
  · obtain ⟨x, hx, rfl⟩ := hx
    have hys : latest ys x.1.id = none := latest_eq_none fun y hy heq => h x hx y hy heq.symm
    rw [hys, Option.none_or, Option.none_or]
  · have hxs : latest xs id = none := latest_eq_none fun x hmem heq => hx ⟨x, hmem, heq⟩
    rw [hxs, Option.none_or, Option.none_or]

variable {s s' : Progress} {f : String} {ref : Option TypeRef} {env env' : Env}

namespace Resolver

section

variable {r : Resolver}

/-- What a function at the top level finds from a table of types. -/
def functionRun (r : Resolver) (head : FunctionHead) (body : List Step) (types : TypeTable) :
    Except AnnotationError Course :=
  perform r.courseHooks (.function head body) { types, env := [], frame := .module, results := [] }

/-- A function at the top level starts from the final environment of the module. -/
theorem bodyEnv_module (head : FunctionHead) (hs : s.frame = .module) (hs' : s'.frame = .module) :
    r.bodyEnv head s = r.bodyEnv head s' := by
  have hstart : ∀ env, r.startEnv ⟨.module, none⟩ env = r.globals := fun _ => rfl
  unfold bodyEnv
  rw [hs, hs', hstart, hstart]

/-- So the environment around it is neither read nor changed. -/
theorem perform_function_module (head : FunctionHead) (body : List Step) (hs : s.frame = .module) :
    perform r.hooks (.function head body) s =
      (fun c => { s with types := c.types }) <$> r.functionRun head body s.types := by
  unfold functionRun
  cases hr : r.descend with
  | false =>
    rw [perform_function_of_not_descend hr, course_function_of_not_descend hr, map_pure]
  | true =>
    have hbody := fun env =>
      performAll_course (r := r) body ⟨{ s with env := env, frame := .func }, []⟩
    have hframe : Progress.frame ⟨⟨s.types, []⟩, .module⟩ = .module := rfl
    rw [perform_function hr, course_function hr, bodyEnv_module head hs hframe]
    simp [hbody]

end

variable {d : Declarations} {g g' : Env} {descend : Bool}

/-- From tables that agree on what a function evaluates, the function finds the same. -/
theorem functionRun_agree (hg : descend = true → Env.AgreeOff [] g g') (head : FunctionHead)
    (body : List Stmt) {ids : List Nat} (hids : ∀ x ∈ scheduleAll (bodySteps body), x.1.id ∉ ids)
    (ht : TypeTable.AgreeOff ids t t') :
    Follows False (fun c c' => ∃ new : Results, (∀ x ∈ new, x.1.id ∉ ids) ∧
        c.types = keep t new ∧ c'.types = keep t' new)
      (functionRun ⟨d, g, descend⟩ head (bodySteps body) t)
      (functionRun ⟨d, g', descend⟩ head (bodySteps body) t') := by
  have hwalks := walksInStep_off d ids hg
  have hvisited := forall_schedule_visited (P := fun n => n.id ∉ ids) hids
  have havoids : ∀ e ∈ visitedAll (bodySteps body), Avoids ids [] e := fun e he =>
    ⟨hvisited e he, fun _ _ _ _ => List.not_mem_nil⟩
  have hsuited : SuitedAll (fun _ => Avoids ids []) false (bodySteps body) :=
    suitedAll_of_visited Avoids.part _ (prepared_body body) (List.forall_mem_nil _) havoids _
  let start (t : TypeTable) : Course := { types := t, env := [], frame := .module, results := [] }
  have hstart : Course.Alike (fun _ => Env.AgreeOff []) (TypeTable.AgreeOff ids) Eq .module
      (start t) (start t') := ⟨rfl, rfl, fun _ _ => rfl, ht, rfl⟩
  have hlike : Step.Like Eq (.function head (bodySteps body)) (.function head (bodySteps body)) :=
    .function (.refl (fun _ => rfl) head) (.refl (fun _ => rfl) _)
  have hrun :=
    (hwalks.perform _ hlike hstart hsuited).and (perform_reaches _ _) (perform_reaches _ _)
  refine hrun.mono ?_
  rintro c c' ⟨halike, ⟨-, new, hnodes, hresults, htypes⟩, ⟨-, new', hnodes', hresults', htypes'⟩⟩
  have hnew : new = new' := by
    have hc : c.results = new := hresults
    have hc' : c'.results = new' := hresults'
    rw [← hc, ← hc', halike.results]
  refine ⟨new, fun x hx => ?_, htypes, hnew ▸ htypes'⟩
  have hnode : x.1 ∈ Expr.reached descend ((scheduleAll (bodySteps body)).map (·.1, true)) :=
    hnodes ▸ List.mem_map_of_mem hx
  obtain ⟨y, hy, heq⟩ := List.mem_map.mp hnode
  obtain ⟨z, hz, rfl⟩ := List.mem_map.mp (List.mem_of_mem_filter hy)
  rw [← heq]
  exact hids z hz

private theorem inStep_seenAlike (f : String) (hg : descend = true → Env.AgreeOff [] g g') :
    InStep ⟨d, g, descend⟩ ⟨d, g', descend⟩ Eq (Env.SeenAlike d f) Eq
      (fun o e => o = true → f ∉ e.assignedNames) := by
  refine .of_decls ?_ ?_ ?_ ?_ ?_ ?_
  · intro o site x env env' _ h
    by_cases hx : x = f
    · rw [hx]
      exact h.2
    · rw [Declarations.nameIn, Declarations.nameIn, h.1 x fun _ => hx]
  · intro o env env' x ref h
    refine ⟨fun y hy => ?_, ?_⟩
    · rw [NameMap.get?_set, NameMap.get?_set, h.1 y hy]
    · have heq := h.2
      unfold Declarations.nameIn at heq ⊢
      rw [NameMap.get?_set, NameMap.get?_set]
      by_cases hf : f = x
      · rw [if_pos hf, if_pos hf]
      · rw [if_neg hf, if_neg hf]
        exact heq
  · intro o site kind elements generators env env' x he hx h
    rw [h.1 x ?_]
    rintro ho rfl
    exact he ho (List.mem_reverse.mp hx)
  · intro hd
    have hagree := fun x => hg hd x List.not_mem_nil
    refine ⟨fun x _ => hagree x, ?_⟩
    rw [Declarations.nameIn, Declarations.nameIn, hagree]
  · intro o e c he hl hc ho hf
    exact he ho (Expr.assignedNames_of_part hc hl hf)
  · intro o site params defaults body _ _ ho
    cases ho

section

variable {r : Resolver}

private theorem perform_define (f : String) (s : Progress) : perform r.hooks (.define f) s =
    pure (assignIn s f (r.decls.lookup? (r.decls.names.moduleName ++ "." ++ f))) :=
  rfl

private theorem perform_assign (x : String) (e : Expr) (s : Progress) :
    perform r.hooks (.bind x (some e) none) s = pure (assignIn s x s.types[e.id]?) :=
  rfl

/-- A definition and an assignment behind it. -/
theorem performAll_define_assign (head : FunctionHead) (body : List Step) (x : String) (e : Expr)
    (hs : s.frame = .module) :
    performAll r.hooks [.define head.name, .function head body, .visit e, .bind x (some e) none] s =
      r.functionRun head body s.types >>= fun c =>
        (fun y => ⟨⟨keep c.types y.results,
            y.env.set x (keep c.types y.results)[e.id]?⟩, .module⟩) <$>
          r.find ⟨.module, none⟩ e (s.env.set head.name
            (r.decls.lookup? (r.decls.names.moduleName ++ "." ++ head.name))) := by
  obtain ⟨⟨types, env⟩, frame⟩ := s
  obtain rfl : frame = .module := hs
  have hfunction : ∀ env, perform r.hooks (.function head body) ⟨⟨types, env⟩, .module⟩ =
      (fun c => ⟨⟨c.types, env⟩, .module⟩) <$> r.functionRun head body types :=
    fun env => perform_function_module head body rfl
  simp only [performAll_cons, performAll_nil, perform_define, perform_assign, perform_visit,
    pure_bind, assignIn, Facts.assign, Finding.facts, hfunction, bind_map_left, bind_pure_comp,
    Functor.map_map]

/-- An assignment and a definition behind it. -/
theorem performAll_assign_define (head : FunctionHead) (body : List Step) (x : String) (e : Expr)
    (hs : s.frame = .module) :
    performAll r.hooks [.visit e, .bind x (some e) none, .define head.name, .function head body] s =
      r.find ⟨.module, none⟩ e s.env >>= fun y =>
        (fun c => ⟨⟨c.types, (y.env.set x (keep s.types y.results)[e.id]?).set head.name
            (r.decls.lookup? (r.decls.names.moduleName ++ "." ++ head.name))⟩, .module⟩) <$>
          r.functionRun head body (keep s.types y.results) := by
  obtain ⟨⟨types, env⟩, frame⟩ := s
  obtain rfl : frame = .module := hs
  have hfunction : ∀ types env, perform r.hooks (.function head body) ⟨⟨types, env⟩, .module⟩ =
      (fun c => ⟨⟨c.types, env⟩, .module⟩) <$> r.functionRun head body types :=
    fun types env => perform_function_module head body rfl
  simp only [performAll_cons, performAll_nil, perform_define, perform_assign, perform_visit,
    pure_bind, assignIn, Facts.assign, Finding.facts, hfunction, bind_map_left, bind_pure]

end

/-- Where nothing binds the name of a function, defining the function does not change how the name
is seen. -/
private theorem seenAlike_define (hname : d.nameType? f = ref) (henv : Env.AgreeOff [] env env')
    (hfree : env'.get? f = none) : Env.SeenAlike d f true (env.set f ref) env' := by
  refine ⟨fun x hx => ?_, ?_⟩
  · rw [NameMap.get?_set, if_neg (hx rfl)]
    exact henv x List.not_mem_nil
  · rw [Declarations.nameIn, Declarations.nameIn, NameMap.get?_set, if_pos rfl, hfree, hname]
    rfl

/-- Environments in which a function and another name are bound in either order agree. -/
private theorem agree_set_comm {target : String} (hne : f ≠ target) {ref' : Option TypeRef}
    (henv : ∀ z, z ≠ f → env.get? z = env'.get? z) (hf : env.get? f = some ref) :
    Env.AgreeOff [] (env.set target ref') ((env'.set target ref').set f ref) := by
  intro z _
  rw [NameMap.get?_set, NameMap.get?_set, NameMap.get?_set]
  by_cases hz : z = f
  · rw [hz, if_neg hne, if_pos rfl, hf]
  · rw [if_neg hz, henv z hz]

/-- The definition and the assignment find the same in either order. -/
theorem performAll_interchange (p : Interchange) (hm : p.definitionFirst.Numbered)
    (hg : descend = true → Env.AgreeOff [] g g')
    (hname : d.nameType? p.head.name = d.lookup? (d.names.moduleName ++ "." ++ p.head.name))
    (hs : s.Agree s') (hfree : s'.env.get? p.head.name = none) :
    Together Progress.Agree
      (performAll (hooks ⟨d, g, descend⟩) (p.definitionSteps ++ p.assignmentSteps) s)
      (performAll (hooks ⟨d, g', descend⟩) (p.assignmentSteps ++ p.definitionSteps) s') := by
  have hleft := performAll_define_assign (r := ⟨d, g, descend⟩) p.head (bodySteps p.body) p.target
    p.value hs.left
  have hright := performAll_assign_define (r := ⟨d, g', descend⟩) p.head (bodySteps p.body) p.target
    p.value hs.right
  refine cast (congrArg₂ _ hleft.symm hright.symm) ?_
  dsimp only
  generalize d.lookup? (d.names.moduleName ++ "." ++ p.head.name) = ref at hname ⊢
  have henv := seenAlike_define hname hs.env hfree
  have hplace : Place.Alike (Env.SeenAlike d p.head.name) true ⟨.module, none⟩ ⟨.module, none⟩ :=
    ⟨rfl, rfl, .none⟩
  have hfind := (inStep_seenAlike p.head.name hg).find p.value (fun _ => p.value_free) hplace henv
  have hvalue := hfind.imp fun hne => hne rfl
  have hkeeps := fun r env => find_get? (r := r) ⟨.module, none⟩ p.value p.value_free env
  have hresults := fun env => find_results (r := ⟨d, g', descend⟩) ⟨.module, none⟩ p.value env
  refine Together.swap (hvalue.and (hkeeps _ _) (hresults _)).together (U := fun c y c' =>
    ∃ new : Results, (∀ x ∈ new, x.1.id ∉ p.value.schedule.map (·.1.id)) ∧
      c.types = keep s.types new ∧ c'.types = keep (keep s'.types y.results) new) ?_ ?_
  · rintro x y ⟨hxy, -, hnodes⟩
    refine (functionRun_agree hg p.head p.body ?_ ?_).together
    · intro z hz hmem
      obtain ⟨n, hn, hid⟩ := List.mem_map.mp hmem
      exact Interchange.schedule_disjoint hm hz hn hid.symm
    · intro id hid
      have hother : ∀ z ∈ y.results, z.1.id ≠ id :=
        fun z hz heq => hid (heq ▸ id_mem_of_results hnodes hz)
      rw [getElem?_keep_of_ne _ hother]
      exact hs.types id List.not_mem_nil
  · rintro c c' x y ⟨hxy, hget, hnodes⟩ ⟨new, hnew, hc, hc'⟩
    have htypes : TypeTable.AgreeOff [] (keep c.types x.results) c'.types := by
      rw [hc, hc', hxy.results]
      refine keep_comm hs.types fun a ha b hb heq => hnew a ha ?_
      exact heq ▸ id_mem_of_results hnodes hb
    have hread : (keep c.types x.results)[p.value.id]? =
        (keep s'.types y.results)[p.value.id]? := by
      rw [htypes _ List.not_mem_nil, hc']
      refine getElem?_keep_of_ne _ fun a ha heq => hnew a ha ?_
      exact heq ▸ List.mem_map.mpr ⟨_, p.value.mem_schedule_self, rfl⟩
    refine ⟨rfl, rfl, ?_, htypes⟩
    dsimp only
    rw [hread]
    refine agree_set_comm p.target_ne.symm (fun z hz => hxy.env.1 z fun _ => hz) ?_
    rw [hget, NameMap.get?_set, if_pos rfl]

/-- The same statements are walked alike from tables and environments that agree. -/
private theorem performAll_agree (hg : descend = true → Env.AgreeOff [] g g') (body : List Stmt)
    (hs : s.Agree s') :
    Follows False Progress.Agree
      (performAll (hooks ⟨d, g, descend⟩) (bodySteps body) s)
      (performAll (hooks ⟨d, g', descend⟩) (bodySteps body) s') := by
  have hsuited : SuitedAll (fun _ => Avoids [] []) true (bodySteps body) := by
    refine suitedAll_of_visited Avoids.part _ (prepared_body body) (List.forall_mem_nil _) ?_ _
    exact fun e _ => ⟨fun _ _ => List.not_mem_nil, fun _ _ _ _ => List.not_mem_nil⟩
  exact (walksInStep_off d [] hg).performAll_hooks _ (.refl (fun _ => rfl) _) hs hsuited

/-- The two modules are walked alike. -/
theorem walkModule_interchange (p : Interchange) (hm : p.definitionFirst.Numbered)
    (hg : descend = true → Env.AgreeOff [] g g')
    (hname : d.nameType? p.head.name = d.lookup? (d.names.moduleName ++ "." ++ p.head.name))
    (ht : TypeTable.AgreeOff [] t t') :
    Together Progress.Agree
      (walkModule ⟨d, g, descend⟩ p.definitionFirst t)
      (walkModule ⟨d, g', descend⟩ p.assignmentFirst t') := by
  unfold walkModule
  rw [walkBody_eq, walkBody_eq, p.bodySteps_definitionFirst, p.bodySteps_assignmentFirst]
  rw [performAll_append _ _ (bodySteps p.after), performAll_append _ (bodySteps p.before),
    performAll_append _ _ (bodySteps p.after), performAll_append _ (bodySteps p.before)]
  have hstart : Progress.Agree ⟨⟨t, []⟩, .module⟩ ⟨⟨t', []⟩, .module⟩ :=
    ⟨rfl, rfl, fun _ _ => rfl, ht⟩
  have hbefore := (performAll_agree (d := d) hg p.before hstart).and (Ensures.trivial _)
    (performAll_get? _ p.before_free _)
  have hmiddle := hbefore.together.bind fun s s' hs =>
    performAll_interchange p hm hg hname hs.1 hs.2.2
  exact hmiddle.bind fun s s' hs => (performAll_agree hg p.after hs).together

end Resolver

/-- A module has the same declarations and types whichever of the two comes first. -/
theorem TypeInfo.ofModule_interchange (p : Interchange) (hm : p.definitionFirst.Numbered)
    (moduleName : String) (library : Library) :
    Together
      (fun info info' => info.decls = info'.decls ∧
        ∀ id : Nat, info.types[id]? = info'.types[id]?)
      (ofModule p.definitionFirst moduleName library)
      (ofModule p.assignmentFirst moduleName library) := by
  unfold ofModule
  rw [← p.decls_eq]
  cases hd : Declarations.ofModule p.definitionFirst moduleName library with
  | error err => trivial
  | ok d =>
    have hname := p.nameType?_head hd
    have hnone : false = true → Env.AgreeOff [] [] [] := fun h => Bool.noConfusion h
    have hempty : TypeTable.AgreeOff [] ∅ ∅ := fun _ _ => rfl
    refine (Resolver.walkModule_interchange p hm hnone hname hempty).bind fun top top' htop => ?_
    refine (Resolver.walkModule_interchange p hm (fun _ => htop.env) hname htop.types).bind ?_
    exact fun full full' hfull => ⟨rfl, fun id => hfull.types id List.not_mem_nil⟩

end ContextLint.Typing
