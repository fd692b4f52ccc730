import ContextLint.Proofs.Typing.Ancestors
import ContextLint.Proofs.Typing.Annotates
import ContextLint.Proofs.Typing.Visible

/-!
# Attributes declared in methods

A class declares attributes by annotated names in its body and by annotated attributes in its
methods. In a method they are those of the first parameter that is not positional-only, whereas the
receiver is the first parameter given by position. The two differ if the method has positional-only
parameters. Then what it declares for its receiver is lost, and what it annotates of another
parameter counts for the class.
-/

namespace ContextLint.NameMap

variable {α : Type} {m other : NameMap α} {name : String} {a : α} {p : String × α}

private theorem mem_of_mem_set (hp : p ∈ m.set name a) : p = (name, a) ∨ p ∈ m :=
  (List.mem_cons.mp hp).imp_right List.mem_of_mem_filter

private theorem exists_mem_set (hp : p ∈ m) (name : String) (a : α) :
    ∃ q ∈ m.set name a, q.1 = p.1 := by
  by_cases hname : p.1 = name
  · exact ⟨_, List.mem_cons_self, hname.symm⟩
  · exact ⟨p, List.mem_cons_of_mem _ (List.mem_filter.mpr ⟨hp, by simpa using hname⟩), rfl⟩

/-- The pairs of an updated map are from the map or the update. -/
theorem mem_of_mem_update (hp : p ∈ m.update other) : p ∈ m ∨ p ∈ other := by
  induction other generalizing m with
  | nil => exact .inl hp
  | cons q rest ih =>
    rcases ih hp with hp | hp
    · rcases mem_of_mem_set hp with rfl | hp
      · exact .inr List.mem_cons_self
      · exact .inl hp
    · exact .inr (List.mem_cons_of_mem q hp)

/-- No name of the map or the update is lost. -/
theorem exists_mem_update (hp : p ∈ m ∨ p ∈ other) : ∃ q ∈ m.update other, q.1 = p.1 := by
  induction other generalizing m p with
  | nil => exact ⟨p, hp.resolve_right List.not_mem_nil, rfl⟩
  | cons r rest ih =>
    rcases hp with hp | hp
    · obtain ⟨q, hq, hname⟩ := exists_mem_set hp r.1 r.2
      obtain ⟨q', hq', hname'⟩ := ih (.inl hq)
      exact ⟨q', hq', hname'.trans hname⟩
    · rcases List.mem_cons.mp hp with rfl | hp
      · exact ih (.inl List.mem_cons_self)
      · exact ih (.inr hp)

private theorem mem_of_get? {x : String} (h : m.get? x = some a) : (x, a) ∈ m := by
  obtain ⟨front, back, rfl, -⟩ := List.lookup_eq_some_iff.mp h
  exact List.mem_append_right front List.mem_cons_self

private theorem get?_ne_none (hp : p ∈ m) : m.get? p.1 ≠ none := by
  intro hnone
  simpa using List.lookup_eq_none_iff.mp hnone p hp

end ContextLint.NameMap

namespace ContextLint.Typing

open Source Scope

/-- The statements annotate an attribute of the variable. -/
def AnnotatesAttribute (stmts : List Stmt) (self x : String) (hint : Expr) : Prop :=
  ∃ site site' value, .annAssign (.attr site (.name site' self) x) hint value ∈ stmts

/-- The body of a class declares the attribute with the annotation. -/
inductive DeclaresAttribute (body : List Stmt) (x : String) (hint : Expr) : Prop
  /-- The name is annotated in the body of the class. -/
  | name {site value} (h : .annAssign (.name site x) hint value ∈ body)
  /-- A method annotates the attribute of its first parameter that is not positional-only. -/
  | method {head code param others}
      (hmethod : .functionDef head code ∈ body) (hparam : head.params.regular = param :: others)
      (h : AnnotatesAttribute (Stmt.functionDef head code).breadthFirst param.name x hint)

/-- One map has become the other by writing the types of declarations. -/
structure Gathers (c : NameContext) (declares : String → Expr → Prop) (old new : NameMap TypeRef) :
    Prop where
  /-- Every new pair has been declared. -/
  declared : ∀ p ∈ new, p ∈ old ∨ ∃ hint, declares p.1 hint ∧ c.resolve hint = .ok (some p.2)
  /-- No name is lost. -/
  kept : ∀ p ∈ old, ∃ q ∈ new, q.1 = p.1
  /-- A declaration with a meaning gives its name a type. -/
  found : ∀ x hint ref, declares x hint → c.resolve hint = .ok (some ref) → ∃ q ∈ new, q.1 = x

section

variable {x : String}

namespace Gathers

variable {c : NameContext} {declares declares' : String → Expr → Prop}
  {old mid new : NameMap TypeRef}

private theorem congr (h : Gathers c declares old new)
    (hdeclares : ∀ x hint, declares x hint ↔ declares' x hint) : Gathers c declares' old new := by
  have heq : declares = declares' := funext fun x => funext fun hint => propext (hdeclares x hint)
  exact heq ▸ h

/-- Nothing is declared and nothing is written. -/
theorem refl (hdeclares : ∀ x hint, ¬declares x hint) (m : NameMap TypeRef) :
    Gathers c declares m m where
  declared _ hp := .inl hp
  kept p hp := ⟨p, hp, rfl⟩
  found x hint _ hd _ := (hdeclares x hint hd).elim

private theorem trans (h : Gathers c declares old mid) (h' : Gathers c declares' mid new) :
    Gathers c (fun x hint => declares x hint ∨ declares' x hint) old new where
  declared p hp := by
    rcases h'.declared p hp with hp | ⟨hint, hd, hr⟩
    · exact (h.declared p hp).imp_right fun ⟨hint, hd, hr⟩ => ⟨hint, .inl hd, hr⟩
    · exact .inr ⟨hint, .inr hd, hr⟩
  kept p hp := by
    obtain ⟨q, hq, hname⟩ := h.kept p hp
    obtain ⟨q', hq', hname'⟩ := h'.kept q hq
    exact ⟨q', hq', hname'.trans hname⟩
  found x hint ref hd hr := by
    rcases hd with hd | hd
    · obtain ⟨q, hq, hname⟩ := h.found x hint ref hd hr
      obtain ⟨q', hq', hname'⟩ := h'.kept q hq
      exact ⟨q', hq', hname'.trans hname⟩
    · exact h'.found x hint ref hd hr

/-- One declaration writes its type, if it has one. -/
theorem declare {name : String} {hint : Expr} {ref : Option TypeRef}
    (href : c.resolve hint = .ok ref) (m : NameMap TypeRef) :
    Gathers c (fun x hint' => x = name ∧ hint' = hint) m (declare m name ref) := by
  cases ref with
  | none =>
    refine ⟨fun p hp => .inl hp, fun p hp => ⟨p, hp, rfl⟩, ?_⟩
    rintro x _ ref ⟨rfl, rfl⟩ hr
    rw [href] at hr
    cases hr
  | some ref =>
    refine ⟨fun p hp => ?_, fun p hp => NameMap.exists_mem_set hp name ref, ?_⟩
    · rcases NameMap.mem_of_mem_set hp with rfl | hp
      · exact .inr ⟨hint, ⟨rfl, rfl⟩, href⟩
      · exact .inl hp
    · rintro x _ _ ⟨rfl, rfl⟩ -
      exact ⟨_, List.mem_cons_self, rfl⟩

/-- What was gathered apart is written on top. -/
theorem update (h : Gathers c declares [] new) (m : NameMap TypeRef) :
    Gathers c declares m (m.update new) where
  declared p hp := by
    rcases NameMap.mem_of_mem_update hp with hp | hp
    · exact .inl hp
    · exact .inr ((h.declared p hp).resolve_left List.not_mem_nil)
  kept p hp := NameMap.exists_mem_update (.inl hp)
  found x hint ref hd hr := by
    obtain ⟨q, hq, rfl⟩ := h.found x hint ref hd hr
    exact NameMap.exists_mem_update (.inr hq)

/-- A name has the type of its declarations, if they agree. -/
theorem get?_eq (h : Gathers c declares [] new) {ref : Option TypeRef}
    (hall : ∀ hint, declares x hint → c.resolve hint = .ok ref)
    (hsome : ref ≠ none → ∃ hint, declares x hint) : new.get? x = ref := by
  cases hget : new.get? x with
  | some found =>
    have hmem := h.declared _ (NameMap.mem_of_get? hget)
    obtain ⟨hint, hd, hr⟩ := hmem.resolve_left List.not_mem_nil
    exact Except.ok.inj (hr.symm.trans (hall hint hd))
  | none =>
    cases ref with
    | none => rfl
    | some ref =>
      obtain ⟨hint, hd⟩ := hsome (by simp)
      obtain ⟨q, hq, rfl⟩ := h.found x hint ref hd (hall hint hd)
      exact (NameMap.get?_ne_none hq hget).elim

end Gathers

variable {c : NameContext} {stmt : Stmt} {rest : List Stmt} {self : String} {hint : Expr}

private theorem annotatesAttribute_cons :
    AnnotatesAttribute (stmt :: rest) self x hint ↔
      (∃ site site' value, stmt = .annAssign (.attr site (.name site' self) x) hint value) ∨
        AnnotatesAttribute rest self x hint := by
  simp only [AnnotatesAttribute, List.mem_cons, exists_or, eq_comm]

private theorem declaresAttribute_cons :
    DeclaresAttribute (stmt :: rest) x hint ↔
      DeclaresAttribute [stmt] x hint ∨ DeclaresAttribute rest x hint := by
  constructor
  · rintro (h | ⟨hmethod, hparam, h⟩)
    · rcases List.mem_cons.mp h with rfl | h
      · exact .inl (.name List.mem_cons_self)
      · exact .inr (.name h)
    · rcases List.mem_cons.mp hmethod with rfl | hmethod
      · exact .inl (.method List.mem_cons_self hparam h)
      · exact .inr (.method hmethod hparam h)
  · rintro ((h | ⟨hmethod, hparam, h⟩) | (h | ⟨hmethod, hparam, h⟩))
    · exact .name (List.mem_cons.mpr (.inl (List.mem_singleton.mp h)))
    · exact .method (List.mem_cons.mpr (.inl (List.mem_singleton.mp hmethod))) hparam h
    · exact .name (List.mem_cons_of_mem stmt h)
    · exact .method (List.mem_cons_of_mem stmt hmethod) hparam h

/-- Collecting the attributes of a variable gathers those that the statements annotate. -/
theorem selfAttributes_gathers (self : String) (stmts : List Stmt) (found : NameMap TypeRef) :
    Ensures (selfAttributes c self stmts found)
      (Gathers c (AnnotatesAttribute stmts self) found) := by
  fun_induction selfAttributes c self stmts found with
  | case1 found =>
    refine .ok (.refl ?_ found)
    rintro _ _ ⟨_, _, _, h⟩
    exact List.not_mem_nil h
  | case2 site site' attr hint value rest found ih =>
    refine (Ensures.self _).bind fun ref href => (ih ref).mono fun new hnew => ?_
    refine ((Gathers.declare href found).trans hnew).congr fun x hint' => ?_
    rw [annotatesAttribute_cons]
    refine or_congr_left ⟨?_, ?_⟩
    · rintro ⟨rfl, rfl⟩
      exact ⟨site, site', value, rfl⟩
    · rintro ⟨_, _, _, ⟨⟩⟩
      exact ⟨rfl, rfl⟩
  | case3 site site' id attr hint value rest found hself ih =>
    refine ih.mono fun new hnew => hnew.congr fun x hint' => ?_
    rw [annotatesAttribute_cons, or_iff_right]
    rintro ⟨_, _, _, ⟨⟩⟩
    exact hself rfl
  | case4 stmt rest found hstmt ih =>
    refine ih.mono fun new hnew => hnew.congr fun x hint' => ?_
    rw [annotatesAttribute_cons, or_iff_right]
    rintro ⟨site, site', value, rfl⟩
    exact hstmt _ _ _ _ _ _ rfl

private theorem methodAttributes_gathers (head : FunctionHead) (code : List Stmt) :
    Ensures (methodAttributes c head code)
      (Gathers c (DeclaresAttribute [.functionDef head code]) []) := by
  unfold methodAttributes
  split
  · next hregular =>
    refine .ok (.refl ?_ [])
    rintro x hint (h | ⟨hmethod, hparam, -⟩)
    · simp at h
    · obtain ⟨rfl, rfl⟩ : _ = head ∧ _ = code := by simpa using hmethod
      rw [hregular] at hparam
      cases hparam
  · next self others hregular =>
    refine (selfAttributes_gathers self.name _ []).mono fun new hnew => hnew.congr fun x hint => ?_
    constructor
    · exact .method List.mem_cons_self hregular
    · rintro (h | ⟨hmethod, hparam, h⟩)
      · simp at h
      · obtain ⟨rfl, rfl⟩ : _ = head ∧ _ = code := by simpa using hmethod
        rw [hregular] at hparam
        obtain ⟨rfl, -⟩ := List.cons.inj hparam
        exact h

/-- A class has the attributes that its body declares. -/
theorem classMembers_gathers (body : List Stmt) (info : ClassInfo) :
    Ensures (classMembers c body info) fun info' =>
      Gathers c (DeclaresAttribute body) info.attributes info'.attributes := by
  fun_induction classMembers c body info with
  | case1 info =>
    refine .ok (.refl ?_ _)
    rintro x hint (h | ⟨h, -, -⟩) <;> cases h
  | case2 head code rest info ih =>
    refine (Ensures.trivial _).bind fun result _ => ?_
    refine (methodAttributes_gathers head code).bind fun attributes hattributes => ?_
    refine (ih result attributes).mono fun info' hinfo' => ?_
    exact ((hattributes.update _).trans hinfo').congr fun x hint => declaresAttribute_cons.symm
  | case3 site id hint value rest info ih =>
    refine (Ensures.self _).bind fun ref href => (ih ref).mono fun info' hinfo' => ?_
    refine ((Gathers.declare href _).trans hinfo').congr fun x hint' => ?_
    rw [declaresAttribute_cons]
    refine or_congr_left ⟨?_, ?_⟩
    · rintro ⟨rfl, rfl⟩
      exact .name List.mem_cons_self
    · rintro (h | ⟨h, -, -⟩)
      · cases List.mem_singleton.mp h
        exact ⟨rfl, rfl⟩
      · simp at h
  | case4 stmt rest info hfunction hname ih =>
    refine ih.mono fun info' hinfo' => hinfo'.congr fun x hint => ?_
    rw [declaresAttribute_cons, or_iff_right]
    rintro (h | ⟨h, -, -⟩)
    · exact hname _ _ _ _ (List.mem_singleton.mp h).symm
    · exact hfunction _ _ (List.mem_singleton.mp h).symm

private theorem collectClasses_append (xs ys : List Stmt) (found : NameMap ClassInfo) :
    collectClasses c (xs ++ ys) found = (do collectClasses c ys (← collectClasses c xs found)) := by
  fun_induction collectClasses c xs found with
  | case1 found => rfl
  | case2 head body rest found ih =>
    rw [List.cons_append, collectClasses, bind_assoc]
    exact congrArg _ (funext ih)
  | case3 stmt rest found hstmt ih =>
    rw [List.cons_append, collectClasses, ih]
    exact hstmt

variable {m : Module} {moduleName : String} {library : Library} {cls : ClassHead} {body : List Stmt}

/-- A class is known by the last class statement of its name, in breadth first order. -/
theorem Declarations.exists_classInfo {decls : Declarations}
    (h : ofModule m moduleName library = .ok decls) {before after : List Stmt}
    (hclass : m.breadthFirst = before ++ .classDef cls body :: after)
    (hlast : cls.name ∉ classNames after) :
    ∃ info, classInfo decls.names cls body = .ok info ∧
      decls.table.get? (moduleName ++ "." ++ cls.name) = some info := by
  obtain ⟨classes, functions, hclasses, -, rfl⟩ := ofModule_ok h
  rw [hclass, collectClasses_append] at hclasses
  obtain ⟨front, -, hclasses⟩ := exists_of_bind_ok hclasses
  rw [collectClasses] at hclasses
  obtain ⟨info, hinfo, hclasses⟩ := exists_of_bind_ok hclasses
  have hname : info.qualname = moduleName ++ "." ++ cls.name :=
    classMembers_qualname _ body _ info hinfo
  have hne : ∀ name ∈ classNames after,
      moduleName ++ "." ++ name ≠ moduleName ++ "." ++ cls.name :=
    fun name hmem heq => hlast ((String.append_right_inj _).mp heq ▸ hmem)
  have hget := collectClasses_get? _ _ after _ hne classes hclasses
  refine ⟨info, hinfo, ?_⟩
  rw [hname, NameMap.get?_set, if_pos rfl] at hget
  rw [table, ClassTable.get?]
  simp only [hget, Option.some_or]

variable {ref : TypeRef}

/-- The class of a name comes first among its ancestors. -/
theorem ClassTable.attributeType?_of_get? {t : ClassTable} {q : String} {info : ClassInfo}
    (hq : t.get? q = some info) (hx : info.attributes.get? x = some ref) :
    t.attributeType? q x = some ref := by
  have hfirst : t.ancestors q = info :: t.ancestorsFrom t.baseCount [q] (info.bases ++ []) := by
    simp [ancestors, ancestorsFrom, hq]
  rw [attributeType?, hfirst, List.findSome?_cons, hx]

variable {head : FunctionHead}

namespace Resolver

variable {r : Resolver}

/-- The receiver of a method starts with the type that the decorators give it. -/
theorem bodyEnv_receiver {rest : List Param} (hself : head.params.positional = ⟨self, none⟩ :: rest)
    {s : Progress} {owner : String} (hframe : s.frame = .cls owner)
    (href : receiverType? owner head.decorators = some ref) :
    Ensures (r.bodyEnv head s) fun env => env.get? self = some (some ref) := by
  refine (Ensures.trivial _).bind fun env _ => .ok ?_
  simp only [bindReceiver, hframe, hself, href, NameMap.get?_set, if_true]

/-- A method with a receiver has an instance of its class as its receiver if it is not a class
method. -/
theorem receiverType?_eq {decorators : List Expr}
    (h : ∀ d ∈ decorators, dottedName? d ≠ some "staticmethod" ∧ dottedName? d ≠ some "classmethod")
    (owner : String) : receiverType? owner decorators = some (instanceOf owner) := by
  have hnot : ∀ name, (∀ d ∈ decorators, dottedName? d ≠ some name) →
      ¬(decorators.map dottedName?).contains (some name) = true := by
    intro name hname hmem
    obtain ⟨d, hd, heq⟩ := List.mem_map.mp (List.contains_iff_mem.mp hmem)
    exact hname d hd heq
  rw [receiverType?, if_neg (hnot _ fun d hd => (h d hd).1), if_neg (hnot _ fun d hd => (h d hd).2)]

/-- An attribute of a name has the type that the type of the name gives it. -/
theorem Typed.attr_name {results : Results} {p : Place} {env : Env} {site site' : Site}
    (h : r.Typed results p env (.attr site (.name site' self) x))
    (hself : env.get? self = some (some ref)) :
    (.attr site (.name site' self) x, r.decls.attributeType? (some ref) x) ∈ results := by
  obtain ⟨y, hy, hsub⟩ := h
  have hname : r.decls.nameIn env self = some ref := by rw [Declarations.nameIn, hself]; rfl
  rw [find, find, hname] at hy
  cases hy
  exact hsub (List.mem_append_right _ (List.mem_singleton_self _))

mutual

private theorem perform_within (hr : r.descend = true) (step : Step) (s : Course) :
    Ensures (perform r.courseHooks step s) fun s' => ∀ inner ∈ step.within, ∃ mid next,
      perform r.courseHooks inner mid = .ok next ∧ next.results ⊆ s'.results := by
  intro s' hs'
  have hself : ∃ mid next, perform r.courseHooks step mid = .ok next ∧
      next.results ⊆ s'.results := ⟨s, s', hs', List.Subset.refl _⟩
  cases step with
  | function head body =>
    refine List.forall_mem_cons.mpr ⟨hself, ?_⟩
    rw [course_function hr] at hs'
    obtain ⟨start, -, hs'⟩ := exists_of_bind_ok hs'
    obtain ⟨inner, hinner, hs'⟩ := exists_of_bind_ok hs'
    cases hs'
    exact performAll_within hr body _ inner hinner
  | cls head body =>
    refine List.forall_mem_cons.mpr ⟨hself, ?_⟩
    rw [course_cls hr] at hs'
    obtain ⟨inner, hinner, hs'⟩ := exists_of_bind_ok hs'
    cases hs'
    exact performAll_within hr body _ inner hinner
  | _ => exact List.forall_mem_singleton.mpr hself

/-- A walk performs every step of its script, at any depth. -/
theorem performAll_within (hr : r.descend = true) (steps : List Step) (s : Course) :
    Ensures (performAll r.courseHooks steps s) fun s' => ∀ inner ∈ withinAll steps, ∃ mid next,
      perform r.courseHooks inner mid = .ok next ∧ next.results ⊆ s'.results := by
  cases steps with
  | nil => exact .ok (List.forall_mem_nil _)
  | cons step rest =>
    refine (Ensures.self _).bind fun mid hmid s' hs' => ?_
    obtain ⟨-, new, -, hresults, -⟩ := performAll_reaches rest mid s' hs'
    refine List.forall_mem_append.mpr ⟨fun inner hinner => ?_, performAll_within hr rest mid s' hs'⟩
    obtain ⟨start, next, hnext, hsub⟩ := perform_within hr step s mid hmid inner hinner
    exact ⟨start, next, hnext, List.Subset.trans hsub (hresults ▸ List.subset_append_left _ _)⟩

end

end Resolver

/-- The types found in a method are those of a walk that starts in the environment of its body,
inside its class. -/
theorem TypeInfo.exists_method (hm : m.Numbered) {info : TypeInfo}
    (h : ofModule m moduleName library = .ok info) (hclass : .classDef cls body ∈ m.breadthFirst)
    {code : List Stmt} (hmethod : .functionDef head code ∈ body) :
    ∃ (r : Resolver) (s : Progress) (start : Env) (results : Results), r.decls = info.decls ∧
      s.frame = .cls (moduleName ++ "." ++ cls.name) ∧ r.bodyEnv head s = .ok start ∧
      (∀ y ∈ results, info.typeOf? y.1 = y.2) ∧
      ∀ x o, Sees x o (bodySteps code) → ∃ p env, r.Typed results p env o ∧
        env.get? x = start.get? x := by
  obtain ⟨hdecls, -⟩ := ofModule_ok h
  have hmoduleName : info.decls.names.moduleName = moduleName := by
    rw [Declarations.names_of_ofModule hdecls]
    rfl
  obtain ⟨first, alone, -, halone, htypes⟩ := exists_walk hm h
  have hstep : .cls cls (bodySteps body) ∈ withinAll (bodySteps m.body) := by
    rw [← Module.mem_reports]
    exact List.mem_flatMap.mpr ⟨_, hclass, by simp [Stmt.reports]⟩
  obtain ⟨mid, next, hnext, hresults⟩ := Resolver.performAll_within rfl _ _ alone halone _ hstep
  rw [Resolver.course_cls rfl] at hnext
  obtain ⟨inner, hinner, hnext⟩ := exists_of_bind_ok hnext
  cases hnext
  have hfunction : .function head (bodySteps code) ∈ bodySteps body := by
    obtain ⟨front, back, rfl⟩ := List.append_of_mem hmethod
    simp [bodySteps_append, bodySteps, stmtSteps]
  obtain ⟨before, after, hsplit⟩ := List.append_of_mem hfunction
  rw [hsplit] at hinner
  obtain ⟨s, s', hframe, -, hs', hsub⟩ := Resolver.exists_performed hinner
  obtain ⟨start, hstart, hsees⟩ := Resolver.perform_function_sees rfl hs'
  refine ⟨_, s.toProgress, start, s'.results, rfl, ?_, hstart, fun y hy => ?_, hsees⟩
  · rw [hframe, hmoduleName]
  · exact htypes y (hresults (hsub hy))

/-- Let a method of a class be neither static nor a class method, with a receiver that is not
annotated. If it has no positional-only parameter, an annotation of an attribute of the receiver
gives the class that attribute, and where the receiver is seen in the method the attribute has that
type, provided that all declarations of the attribute in the class agree and that no later class
statement has the same name. In any case the class has the attributes that its body declares, where
methods declare those of the first parameter that is not positional-only, and an attribute of the
receiver has the type that the class of the name and those above it give it. -/
theorem receiver_attributes_found {m : Source.Module} (hm : m.Numbered) {moduleName : String}
    {library : Library} {info : TypeInfo}
    (h : TypeInfo.ofModule m moduleName library = .ok info) {before after : List Stmt}
    {cls : ClassHead} {body : List Stmt}
    (hclass : m.breadthFirst = before ++ .classDef cls body :: after) {head : FunctionHead}
    {code : List Stmt} (hmethod : .functionDef head code ∈ body)
    (hinstance : ∀ d ∈ head.decorators,
      dottedName? d ≠ some "staticmethod" ∧ dottedName? d ≠ some "classmethod")
    {self : String} {rest : List Param} (hself : head.params.positional = ⟨self, none⟩ :: rest)
    (x : String) :
    (cls.name ∉ classNames after → head.params.posOnly = [] → ∀ hint ref,
      AnnotatesAttribute (Stmt.functionDef head code).breadthFirst self x hint →
      (∀ hint, DeclaresAttribute body x hint → info.decls.names.resolve hint = .ok (some ref)) →
        info.table.attributeType? (moduleName ++ "." ++ cls.name) x = some ref ∧
        ∀ site site', Sees self (.attr site (.name site' self) x) (bodySteps code) →
          info.typeOf? (.attr site (.name site' self) x) = some ref) ∧
    (cls.name ∉ classNames after →
      ∃ found, info.table.get? (moduleName ++ "." ++ cls.name) = some found ∧
        ∀ ref, (∀ hint, DeclaresAttribute body x hint → info.decls.names.resolve hint = .ok ref) →
          (ref ≠ none → ∃ hint, DeclaresAttribute body x hint) → found.attributes.get? x = ref) ∧
    ∀ site site', Sees self (.attr site (.name site' self) x) (bodySteps code) →
      info.typeOf? (.attr site (.name site' self) x) =
        info.decls.attributeType? (some (instanceOf (moduleName ++ "." ++ cls.name))) x := by
  obtain ⟨hdecls, -⟩ := TypeInfo.ofModule_ok h
  have hread : ∀ site site', Sees self (.attr site (.name site' self) x) (bodySteps code) →
      info.typeOf? (.attr site (.name site' self) x) =
        info.decls.attributeType? (some (instanceOf (moduleName ++ "." ++ cls.name))) x := by
    intro site site' hsees
    have hmem : .classDef cls body ∈ m.breadthFirst := by simp [hclass]
    obtain ⟨r, s, start, results, hr, hframe, hstart, htypes, hbody⟩ :=
      TypeInfo.exists_method hm h hmem hmethod
    obtain ⟨p, env, htyped, henv⟩ := hbody self _ hsees
    have hreceiver := Resolver.bodyEnv_receiver hself hframe
      (Resolver.receiverType?_eq hinstance _) start hstart
    rw [htypes _ (htyped.attr_name (henv.trans hreceiver)), hr]
  have hfound : cls.name ∉ classNames after →
      ∃ found, info.table.get? (moduleName ++ "." ++ cls.name) = some found ∧
        Gathers info.decls.names (DeclaresAttribute body) [] found.attributes := by
    intro hlast
    obtain ⟨found, hinfo, hget⟩ := Declarations.exists_classInfo hdecls hclass hlast
    exact ⟨found, hget, classMembers_gathers body _ found hinfo⟩
  refine ⟨fun hlast hpos hint ref hannotated hall => ?_, fun hlast => ?_, hread⟩
  · obtain ⟨found, hget, hgathers⟩ := hfound hlast
    rw [Parameters.positional, hpos, List.nil_append] at hself
    have hx := hgathers.get?_eq hall fun _ => ⟨hint, .method hmethod hself hannotated⟩
    have hattr := ClassTable.attributeType?_of_get? hget hx
    refine ⟨hattr, fun site site' hsees => ?_⟩
    rw [hread site site' hsees]
    simp only [Declarations.attributeType?, instanceOf]
    rw [show info.decls.table.attributeType? _ x = some ref from hattr]
  · obtain ⟨found, hget, hgathers⟩ := hfound hlast
    exact ⟨found, hget, fun ref hall hsome => hgathers.get?_eq hall hsome⟩

end

namespace OneAttribute

/-- `s.x` -/
def read (n : Nat) : Expr := .attr (.ofId n) (.name (.ofId (n + 1)) "s") "x"

/-- `s.x: int`, and then `s.x` is returned. -/
def code : List Stmt := [.annAssign (read 1) (.name (.ofId 0) "int") none, .value (some (read 3))]

/-- The receiver, without an annotation. -/
def receiver : Param := ⟨"s", none⟩

def regular : Parameters := { regular := [receiver] }

def positionalOnly : Parameters := { posOnly := [receiver] }

/-- The head of a method with the parameters. -/
def head (params : Parameters) : FunctionHead := ⟨"f", params, [], none⟩

/-- The body of a class with one method. -/
def body (params : Parameters) : List Stmt := [.functionDef (head params) code]

/-- The class stands in a function. -/
def module (params : Parameters) : Source.Module :=
  { body := [.functionDef ⟨"g", {}, [], none⟩ [.classDef ⟨"C", [], [], []⟩ (body params)]] }

private theorem breadthFirst_module (params : Parameters) : (module params).breadthFirst =
    [.functionDef ⟨"g", {}, [], none⟩ [.classDef ⟨"C", [], [], []⟩ (body params)]] ++
      .classDef ⟨"C", [], [], []⟩ (body params) :: (body params ++ code) := rfl

private theorem annotated (params : Parameters) :
    AnnotatesAttribute (Stmt.functionDef (head params) code).breadthFirst "s" "x"
      (.name (.ofId 0) "int") :=
  ⟨.ofId 1, .ofId 2, none, List.mem_cons_of_mem _ List.mem_cons_self⟩

private theorem sees_read : Sees "s" (read 3) (bodySteps code) := by
  have hsteps : bodySteps code = [.visit (read 1)] ++ .visit (read 3) :: [] := rfl
  rw [hsteps]
  refine .visit (by decide) (by decide) ?_
  exact Expr.mem_evaluatedNodes_iff.mpr (.inl rfl)

/-- The class declares attributes by its only annotation, and only if the first parameter of the
method that is not positional-only is `s`. -/
theorem of_declares {params : Parameters} (h : DeclaresAttribute (body params) x hint) :
    hint = .name (.ofId 0) "int" ∧ ∃ p ∈ params.regular, p.name = "s" := by
  obtain h | @⟨_, _, param, others, hmethod, hparam, site', site'', value, h⟩ := h
  · simp [body] at h
  · obtain ⟨rfl, rfl⟩ : _ = head params ∧ _ = code := by simpa [body] using hmethod
    have hstmts : (Stmt.functionDef (head params) code).breadthFirst =
        .functionDef (head params) code :: code := rfl
    rw [hstmts] at h
    have hread : Stmt.annAssign (.attr site' (.name site'' param.name) x) hint value =
        .annAssign (read 1) (.name (.ofId 0) "int") none := by
      simpa [code] using h
    simp only [read, Stmt.annAssign.injEq, Expr.attr.injEq, Expr.name.injEq] at hread
    obtain ⟨⟨-, ⟨-, hname⟩, -⟩, hhint, -⟩ := hread
    have hregular : params.regular = param :: others := hparam
    exact ⟨hhint, param, by simp [hregular], hname⟩

/-- A method with an ordinary receiver declares the attribute, and reading it gives its type. -/
theorem regular_receiver :
    ∃ info, TypeInfo.ofModule (module regular) "sample" .standard = .ok info ∧
      info.table.attributeType? "sample.C" "x" = some (instanceOf "int") ∧
      info.typeOf? (read 3) = some (instanceOf "int") := by
  have hresolve : ∃ info, TypeInfo.ofModule (module regular) "sample" .standard = .ok info ∧
      ∃ ref, info.decls.names.resolve (.name (.ofId 0) "int") = .ok ref ∧
        ref = some (instanceOf "int") := by
    decide +kernel
  obtain ⟨info, hinfo, _, hresolve, rfl⟩ := hresolve
  obtain ⟨hfound, -, -⟩ := receiver_attributes_found (by decide) hinfo (breadthFirst_module _)
    List.mem_cons_self (List.forall_mem_nil _) rfl "x"
  obtain ⟨hattr, hread⟩ := hfound (by decide) rfl _ _ (annotated _) fun hint hd => by
    rw [(of_declares hd).1, hresolve]
  exact ⟨info, hinfo, hattr, hread _ _ sees_read⟩

/-- A method with a positional-only receiver annotates the attribute with a type that resolves, and
nothing else in the class declares it. The class nevertheless has no such attribute, and reading it
gives no type. -/
theorem positional_only_receiver :
    ∃ info, TypeInfo.ofModule (module positionalOnly) "sample" .standard = .ok info ∧
      (head positionalOnly).params.positional = [⟨"s", none⟩] ∧
      AnnotatesAttribute (Stmt.functionDef (head positionalOnly) code).breadthFirst "s" "x"
        (.name (.ofId 0) "int") ∧
      info.decls.names.resolve (.name (.ofId 0) "int") = .ok (some (instanceOf "int")) ∧
      (∀ hint, ¬DeclaresAttribute (body positionalOnly) "x" hint) ∧
      Sees "s" (read 3) (bodySteps code) ∧
      info.table.attributeType? "sample.C" "x" = none ∧ info.typeOf? (read 3) = none := by
  have hlost : ∃ info, TypeInfo.ofModule (module positionalOnly) "sample" .standard = .ok info ∧
      info.table.attributeType? "sample.C" "x" = none ∧ info.typeOf? (read 3) = none ∧
      ∃ ref, info.decls.names.resolve (.name (.ofId 0) "int") = .ok ref ∧
        ref = some (instanceOf "int") := by
    decide +kernel
  obtain ⟨info, hinfo, hattr, hread, _, hresolve, rfl⟩ := hlost
  refine ⟨info, hinfo, rfl, annotated _, hresolve, fun hint hd => ?_, sees_read, hattr, hread⟩
  obtain ⟨-, p, hp, -⟩ := of_declares hd
  exact List.not_mem_nil hp

end OneAttribute

end ContextLint.Typing
