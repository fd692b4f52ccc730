import ContextLint.Proofs.Typing.WalksInStep

/-!
# The two walks through a module

A module is walked twice: first at the top level only, then with its functions and classes, over the
table of types that the first walk leaves. The second walk finds again what the first has found. It
evaluates no expression twice, so the table that it starts from does not matter.
-/

namespace ContextLint.Typing

open Source Scope

/-- Results of a walk at the top level within those of a walk that also goes into functions: the
same in order, and the same last types under the numbers of the top level. -/
structure Contained (top : List Nat) (xs ys : Results) : Prop where
  sublist : xs.Sublist ys
  latest : ∀ id ∈ top, latest xs id = latest ys id

namespace Resolver

variable {d : Declarations} {g : Env} {top : List Nat}

/-- Going into lambdas adds results for what is inside them. -/
private theorem inStep_top (d : Declarations) (g : Env) (top : List Nat) :
    InStep ⟨d, [], false⟩ ⟨d, g, true⟩ Eq (fun _ => Eq) (Contained top)
      fun _ e => ∀ x ∈ e.schedule, x.2 = true → x.1.id ∉ top where
  descend h := by cases h
  refl _ := rfl
  name _ h := by rw [h]
  attr name h := by rw [h]
  call args h := by
    rw [h]
    exact .refl (fun _ => rfl) _
  conditional _ h h' := by rw [h, h']
  set x henv href := by rw [henv, href]
  adopt _ _ h := by rw [h]
  globals h := by cases h
  part he hl hc x hx := he x (Expr.mem_schedule_of_part hc hl hx)
  body h := by cases h
  nil := ⟨.slnil, fun _ _ => rfl⟩
  append h h' := by
    refine ⟨h.sublist.append h'.sublist, fun id hid => ?_⟩
    rw [latest_append, latest_append, h.latest id hid, h'.latest id hid]
  found _ h := by
    rw [h]
    exact ⟨.refl _, fun _ _ => rfl⟩
  skip {o site params defaults body ys} _ he hys := by
    refine ⟨List.nil_sublist _, fun id hid => (latest_eq_none fun y hy heq => ?_).symm⟩
    have hmem : y.1 ∈ body.schedule.map Prod.fst := hys ▸ List.mem_map_of_mem hy
    obtain ⟨x, hx, hxy⟩ := List.mem_map.mp hmem
    have hmark : (x.1, true) ∈ (Expr.lambda site params defaults body).schedule :=
      List.mem_append_left _ (List.mem_map.mpr ⟨x, hx, rfl⟩)
    refine he _ hmark rfl ?_
    rw [hxy, heq]
    exact hid

private theorem bindImports_eq (source : Option ImportSource) (names : List ImportAlias)
    (env : Env) :
    bindImports ⟨d, g, true⟩ source names env = bindImports ⟨d, [], false⟩ source names env := by
  induction names generalizing env with
  | nil => rfl
  | cons a rest ih => exact ih _

/-- Three walks at the same point of the top level: the first walk, the second over the types that
the first has left, and the second over an empty table. -/
structure Standing (top : List Nat) (types : TypeTable) (p a b : Course) : Prop where
  frame : p.frame = .module ∧ a.frame = .module ∧ b.frame = .module
  env : a.env = p.env ∧ b.env = p.env
  results : a.results = b.results
  sublist : p.results.Sublist a.results
  known : ∀ id ∈ top, a.types[id]? = types[id]?
  alone : ∀ id ∈ top, b.types[id]? = p.types[id]?
  inner : ∀ id, id ∉ top → a.types[id]? = b.types[id]?

namespace Standing

variable {types : TypeTable} {p p' a b : Course}

/-- Behind the first walk, both tables hold the same. -/
theorem types_eq (h : Standing top p.types p a b) (id : Nat) : a.types[id]? = b.types[id]? := by
  by_cases hid : id ∈ top
  · rw [h.known id hid, h.alone id hid]
  · exact h.inner id hid

section

variable (h : Standing top types p a b)

include h

/-- A name is bound alike on all three walks. -/
theorem assign (name : String) (ref : Option TypeRef) :
    Standing top types { p with toProgress := assignIn p.toProgress name ref }
      { a with toProgress := assignIn a.toProgress name ref }
      { b with toProgress := assignIn b.toProgress name ref } where
  frame := h.frame
  env := ⟨congrArg (·.set name ref) h.env.1, congrArg (·.set name ref) h.env.2⟩
  results := h.results
  sublist := h.sublist
  known := h.known
  alone := h.alone
  inner := h.inner

/-- What the first walk has found once and for all is read alike on all three walks. -/
theorem read {id : Nat} (hid : id ∈ top) (htypes : types[id]? = p.types[id]?) :
    a.types[id]? = p.types[id]? ∧ b.types[id]? = p.types[id]? :=
  ⟨(h.known id hid).trans htypes, h.alone id hid⟩

/-- An expression is typed alike on all three walks. -/
theorem visit (e : Expr) (hmarked : ∀ x ∈ e.schedule, x.2 = true → x.1.id ∉ top) {x : Finding}
    (hx : find ⟨d, [], false⟩ ⟨p.frame, none⟩ e p.env = .ok x)
    (hsettled : ∀ n ∈ Expr.reached false e.schedule, types[n.id]? = (keep p.types x.results)[n.id]?)
    :
    Follows False (Standing top types (p.extend x))
      (a.extend <$> find ⟨d, g, true⟩ ⟨a.frame, none⟩ e a.env)
      (b.extend <$> find ⟨d, g, true⟩ ⟨b.frame, none⟩ e b.env) := by
  obtain ⟨hp, ha, hb⟩ := h.frame
  rw [hp] at hx
  rw [h.env.1, h.env.2, ha, hb]
  have hplace : Place.Alike (fun _ => Eq) true ⟨.module, none⟩ ⟨.module, none⟩ := ⟨rfl, rfl, .none⟩
  have hfollow := (inStep_top d g top).find e hmarked hplace (Eq.refl p.env)
  rw [hx] at hfollow
  cases hy : find ⟨d, g, true⟩ ⟨.module, none⟩ e p.env with
  | error err => exact .inr rfl
  | ok y =>
    rw [hy] at hfollow
    obtain ⟨-, henv, hsub, hlatest⟩ := hfollow
    have hresults := find_results _ e _ x hx
    refine ⟨⟨hp, ha, hb⟩, ⟨henv.symm, henv.symm⟩, ?_, h.sublist.append hsub, ?_, ?_, ?_⟩
    · exact congrArg (· ++ y.results) h.results
    · intro id hid
      have hkeep := getElem?_keep a.types y.results id
      rw [← hlatest id hid, h.known id hid] at hkeep
      refine hkeep.trans ?_
      by_cases hmem : ∃ z ∈ x.results, z.1.id = id
      · obtain ⟨z, hz, rfl⟩ := hmem
        have hnode : z.1 ∈ Expr.reached false e.schedule := hresults ▸ List.mem_map_of_mem hz
        rw [hsettled z.1 hnode, getElem?_keep]
        cases latest x.results z.1.id <;> rfl
      · have hnone : latest x.results id = none :=
          latest_eq_none fun z hz heq => hmem ⟨z, hz, heq⟩
        rw [hnone, Option.none_or]
    · intro id hid
      change (keep b.types y.results)[id]? = (keep p.types x.results)[id]?
      rw [getElem?_keep, getElem?_keep, hlatest id hid, h.alone id hid]
    · intro id hid
      change (keep a.types y.results)[id]? = (keep b.types y.results)[id]?
      rw [getElem?_keep, getElem?_keep, h.inner id hid]

/-- A function or class is walked alike over both tables and leaves the top level as it is. -/
theorem nested {step : Step}
    (henv : ∀ s, Ensures (perform (courseHooks ⟨d, g, true⟩) step s) fun s' => s'.env = s.env)
    (hprep : step.Prepared []) (hmarked : ∀ x ∈ step.schedule, x.1.id ∉ top) :
    Follows False (Standing top types p) (perform (courseHooks ⟨d, g, true⟩) step a)
      (perform (courseHooks ⟨d, g, true⟩) step b) := by
  obtain ⟨hp, ha, hb⟩ := h.frame
  have hsuited : step.Suited (fun _ => Avoids top []) true := by
    refine suited_of_visited Avoids.part step hprep (List.forall_mem_nil _) (fun e he => ?_) true
    refine ⟨?_, fun _ _ _ _ => List.not_mem_nil⟩
    have hsched : ∀ x ∈ scheduleAll [step], x.1.id ∉ top := by simpa [scheduleAll] using hmarked
    refine forall_schedule_visited (P := fun n => n.id ∉ top) hsched e ?_
    simpa [visitedAll] using he
  -- Below the top level, tables may differ under the numbers of the top level.
  have halike : Course.Alike (fun _ => Env.AgreeOff []) (TypeTable.AgreeOff top) Eq .module a b :=
    ⟨ha, hb, fun x _ => by rw [h.env.1, h.env.2], h.inner, h.results⟩
  have hglobals : true = true → Env.AgreeOff [] g g := fun _ _ _ => rfl
  have hfollow := (walksInStep_off d top hglobals).perform step (.refl (fun _ => rfl) step) halike
    hsuited
  -- Both walks only add results for what the step schedules, which is not of the top level.
  have hreach :=
    (hfollow.and (perform_reaches step a) (perform_reaches step b)).and (henv a) (henv b)
  have hfresh : ∀ new : Results, new.map Prod.fst = Expr.reached true step.schedule →
      ∀ id ∈ top, ∀ y ∈ new, y.1.id ≠ id := by
    intro new hnew id hid y hy heq
    have hmem : y.1 ∈ step.schedule.map Prod.fst := by
      rw [← Expr.reached_true, ← hnew]
      exact List.mem_map_of_mem hy
    obtain ⟨x, hx, hxy⟩ := List.mem_map.mp hmem
    exact hmarked x hx (by rw [hxy, heq]; exact hid)
  refine hreach.mono fun a' b' hab => ?_
  obtain ⟨⟨hab, hra, hrb⟩, hea, heb⟩ := hab
  obtain ⟨hfa, newA, hnodesA, hresA, htypesA⟩ := hra
  obtain ⟨hfb, newB, hnodesB, hresB, htypesB⟩ := hrb
  refine ⟨⟨hp, hab.left, hab.right⟩, ⟨hea.trans h.env.1, heb.trans h.env.2⟩, hab.results, ?_, ?_, ?_,
    hab.types⟩
  · rw [hresA]
    exact h.sublist.trans (List.sublist_append_left _ _)
  · intro id hid
    rw [htypesA, getElem?_keep_of_ne _ (hfresh newA hnodesA id hid), h.known id hid]
  · intro id hid
    rw [htypesB, getElem?_keep_of_ne _ (hfresh newB hnodesB id hid), h.alone id hid]

/-- A value is bound alike on all three walks once it is found for good. -/
theorem bind (name : String) (value hint : Option Expr)
    (hvalue : ∀ e ∈ value, e.id ∈ top ∧ types[e.id]? = p.types[e.id]?)
    (hp : perform (courseHooks ⟨d, [], false⟩) (.bind name value hint) p = .ok p') :
    Follows False (Standing top types p')
      (perform (courseHooks ⟨d, g, true⟩) (.bind name value hint) a)
      (perform (courseHooks ⟨d, g, true⟩) (.bind name value hint) b) := by
  have hread : ∀ s : Course, (∀ e ∈ value, s.types[e.id]? = p.types[e.id]?) →
      assignedType ⟨d, g, true⟩ s.toFacts value hint =
        assignedType ⟨d, [], false⟩ p.toFacts value hint := by
    intro s hs
    cases value with
    | none => rfl
    | some e =>
      have htype : s.toFacts.typeOf? e = p.toFacts.typeOf? e := hs e rfl
      simp only [assignedType, Option.bind_some, htype]
  rw [course_bind] at hp
  rw [course_bind, course_bind, hread a fun e he => (h.read (hvalue e he).1 (hvalue e he).2).1,
    hread b fun e he => (h.read (hvalue e he).1 (hvalue e he).2).2]
  cases href : assignedType ⟨d, [], false⟩ p.toFacts value hint with
  | error err =>
    rw [href] at hp
    cases hp
  | ok ref =>
    rw [href] at hp
    obtain rfl := Except.ok.inj hp
    exact h.assign name ref

end

/-- One step of the top level. -/
theorem perform (h : Standing top types p a b) (step : Step) {seen : List Expr}
    (hprep : step.Prepared seen) (hmarked : ∀ x ∈ step.schedule, x.2 = true → x.1.id ∉ top)
    (hp : perform (courseHooks ⟨d, [], false⟩) step p = .ok p')
    (hnodes : ∀ n ∈ Expr.reached false step.schedule, types[n.id]? = p'.types[n.id]?)
    (hseen : ∀ e ∈ seen, ∀ n ∈ Expr.reached false e.schedule,
      n.id ∈ top ∧ types[n.id]? = p'.types[n.id]?) :
    Follows False (Standing top types p') (perform (courseHooks ⟨d, g, true⟩) step a)
      (perform (courseHooks ⟨d, g, true⟩) step b) := by
  cases step with
  | visit e =>
    cases hx : find ⟨d, [], false⟩ ⟨p.frame, none⟩ e p.env with
    | error err => simp [Scope.perform, courseHooks, hx] at hp
    | ok x =>
      have hextend : p.extend x = p' := by
        simpa [Scope.perform, courseHooks, hx] using hp
      subst hextend
      exact h.visit e hmarked hx hnodes
  | bind name value hint =>
    obtain ⟨-, new, hnew, -, htypes⟩ := perform_reaches _ p p' hp
    rw [List.map_eq_nil_iff.mp hnew, keep_nil] at htypes
    rw [htypes] at hseen
    exact h.bind name value hint (fun e he => hseen e (hprep e he) e e.mem_reached_self) hp
  | unbind name =>
    obtain rfl := Except.ok.inj hp
    exact h.assign name none
  | bindElement name value =>
    obtain rfl := Except.ok.inj hp
    obtain ⟨site, kind, elements, hmem, hvalue⟩ := hprep
    have hnode : value ∈ Expr.reached false (Expr.sequence site kind elements).schedule := by
      refine List.mem_map.mpr ⟨(value, false), List.mem_filter.mpr ⟨?_, rfl⟩, rfl⟩
      exact Expr.mem_schedule_of_part hvalue rfl value.mem_schedule_self
    obtain ⟨htop, htypes⟩ := hseen _ hmem value hnode
    obtain ⟨ha, hb⟩ := h.read htop htypes
    change Standing top types _
      { a with toProgress := assignIn a.toProgress name (a.types[value.id]?) }
      { b with toProgress := assignIn b.toProgress name (b.types[value.id]?) }
    rw [ha, hb]
    exact h.assign name (p.types[value.id]?)
  | onImport stmt =>
    obtain rfl := Except.ok.inj hp
    have henv : ∀ env, env = p.env → bindImports ⟨d, g, true⟩ stmt.source stmt.names env =
        bindImports ⟨d, [], false⟩ stmt.source stmt.names p.env := by
      rintro _ rfl
      exact bindImports_eq stmt.source stmt.names p.env
    exact ⟨h.frame, ⟨henv _ h.env.1, henv _ h.env.2⟩, h.results, h.sublist, h.known, h.alone,
      h.inner⟩
  | define name =>
    obtain rfl := Except.ok.inj hp
    exact h.assign name _
  | function head body =>
    rw [course_function_of_not_descend rfl] at hp
    obtain rfl := Except.ok.inj hp
    refine h.nested (course_function_env head body) hprep fun x hx => hmarked x hx ?_
    obtain ⟨y, -, rfl⟩ := List.mem_map.mp hx
    rfl
  | cls head body =>
    rw [course_cls_of_not_descend rfl] at hp
    obtain rfl := Except.ok.inj hp
    refine h.nested (course_cls_env head body) hprep fun x hx => hmarked x hx ?_
    obtain ⟨y, -, rfl⟩ := List.mem_map.mp hx
    rfl

/-- The numbers of what a script evaluates at its top level. -/
def topIds (steps : List Step) : List Nat := (Expr.reached false (scheduleAll steps)).map Expr.id

/-- What the first walk does not evaluate again keeps its type. -/
private theorem settled {steps : List Step}
    (hp : Scope.performAll (courseHooks ⟨d, [], false⟩) steps p = .ok p') {id : Nat}
    (hid : id ∉ topIds steps) : p'.types[id]? = p.types[id]? := by
  obtain ⟨-, new, hnew, -, htypes⟩ := performAll_reaches steps p p' hp
  rw [htypes]
  refine getElem?_keep_of_ne _ fun x hx heq => hid ?_
  have hmem : x.1 ∈ Expr.reached false (scheduleAll steps) := hnew ▸ List.mem_map_of_mem hx
  exact heq ▸ List.mem_map_of_mem hmem

/-- A script at the top level, once the first walk has come through. -/
theorem performAll (h : Standing top p'.types p a b) (steps : List Step) {seen : List Expr}
    (hprep : Prepared seen steps) (hmarked : ∀ x ∈ scheduleAll steps, x.2 = true → x.1.id ∉ top)
    (htop : ∀ id ∈ topIds steps, id ∈ top) (hnodup : (topIds steps).Nodup)
    (hp : performAll (courseHooks ⟨d, [], false⟩) steps p = .ok p')
    (hseen : ∀ e ∈ seen, ∀ n ∈ Expr.reached false e.schedule, n.id ∈ top ∧ n.id ∉ topIds steps) :
    Follows False (Standing top p'.types p') (performAll (courseHooks ⟨d, g, true⟩) steps a)
      (performAll (courseHooks ⟨d, g, true⟩) steps b) := by
  induction steps generalizing p a b seen with
  | nil =>
    obtain rfl := Except.ok.inj hp
    exact h
  | cons step rest ih =>
    have hids : topIds (step :: rest) =
        (Expr.reached false step.schedule).map Expr.id ++ topIds rest := by
      rw [topIds, scheduleAll, Expr.reached_append, List.map_append]
      rfl
    rw [hids, List.nodup_append] at hnodup
    rw [hids] at htop hseen
    rw [scheduleAll, List.forall_mem_append] at hmarked
    obtain ⟨-, hnodup, hdisjoint⟩ := hnodup
    obtain ⟨q, hq, hp⟩ := exists_of_bind_ok hp
    have hnode : ∀ n ∈ Expr.reached false step.schedule, n.id ∉ topIds rest :=
      fun n hn hmem => hdisjoint _ (List.mem_map_of_mem hn) _ hmem rfl
    have hlater : ∀ e ∈ seen, ∀ n ∈ Expr.reached false e.schedule,
        n.id ∈ top ∧ n.id ∉ topIds rest := fun e he n hn =>
      ⟨(hseen e he n hn).1, fun hmem => (hseen e he n hn).2 (List.mem_append_right _ hmem)⟩
    have hstep := h.perform (g := g) step hprep.1 hmarked.1 hq (fun n hn => settled hp (hnode n hn))
      fun e he n hn => ⟨(hlater e he n hn).1, settled hp (hlater e he n hn).2⟩
    refine hstep.bind fun a' b' hab => ?_
    refine ih hab hprep.2 hmarked.2 (fun id hid => htop id (List.mem_append_right _ hid)) hnodup hp ?_
    refine List.forall_mem_append.mpr ⟨?_, hlater⟩
    cases step with
    | visit e =>
      refine List.forall_mem_singleton.mpr fun n hn => ⟨?_, hnode n hn⟩
      exact htop n.id (List.mem_append_left _ (List.mem_map_of_mem hn))
    | _ => exact List.forall_mem_nil _

end Standing

end Resolver

namespace Resolver

variable {m : Module} {d : Declarations}

/-- After the first walk, the second finds the same over either table. -/
theorem second_walks_agree (hm : m.Numbered) {first : Course}
    (hfirst : courseOf ⟨d, [], false⟩ m ∅ = .ok first) :
    Follows False (Standing (m.topNodes.map Expr.id) first.types first)
      (courseOf ⟨d, first.env, true⟩ m first.types) (courseOf ⟨d, first.env, true⟩ m ∅) := by
  unfold courseOf at hfirst ⊢
  rw [walkBody_eq] at hfirst
  rw [walkBody_eq, walkBody_eq]
  have hstart : Standing (m.topNodes.map Expr.id) first.types
      { types := ∅, env := [], frame := .module, results := [] }
      { types := first.types, env := [], frame := .module, results := [] }
      { types := ∅, env := [], frame := .module, results := [] } := by
    refine ⟨⟨rfl, rfl, rfl⟩, ⟨rfl, rfl⟩, rfl, .refl _, fun _ _ => rfl, fun _ _ => rfl, ?_⟩
    intro id hid
    exact Standing.settled hfirst hid
  refine hstart.performAll (bodySteps m.body) (prepared_body m.body) ?_ ?_ ?_ hfirst
    (List.forall_mem_nil _)
  · exact fun x hx => hm.not_mem_top hx
  · exact fun id hid => hid
  · exact hm.reached_nodup false

/-- A walk over an empty table records each result that it finds, and nothing else. -/
theorem types_of_results {r : Resolver} (hm : m.Numbered) {s : Course}
    (hs : r.courseOf m ∅ = .ok s) :
    s.results.map Prod.fst = Expr.reached r.descend m.schedule ∧
      (s.results.map (·.1.id)).Nodup ∧ (∀ x ∈ s.results, s.types[x.1.id]? = x.2) ∧
      ∀ id ref, s.types[id]? = some ref → ∃ n, n.id = id ∧ (n, some ref) ∈ s.results := by
  unfold courseOf at hs
  rw [walkBody_eq] at hs
  obtain ⟨-, new, hnodes, hresults, htypes⟩ := performAll_reaches _ _ s hs
  obtain rfl : s.results = new := hresults
  have hids : (s.results.map (·.1.id)).Nodup := by
    have hnodup := hm.reached_nodup r.descend
    rw [Module.schedule, ← hnodes, List.map_map] at hnodup
    exact hnodup
  have hlookup : ∀ id, s.types[id]? = latest s.results id := fun id => by
    rw [htypes, getElem?_keep, Std.TreeMap.getElem?_emptyc, Option.or_none]
  refine ⟨hnodes, hids, fun x hx => ?_, fun id ref hid => ?_⟩
  · rw [hlookup, latest_of_mem hids hx]
  · rw [hlookup] at hid
    exact exists_of_latest hid

end Resolver

namespace TypeInfo

/-- Find the types of a module as `ofModule` does, but over an empty table in the second walk. -/
def ofSecondWalk (m : Module) (moduleName : String) (library : Library) :
    Except AnnotationError TypeInfo := do
  let decls ← Declarations.ofModule m moduleName library
  let top ← Resolver.walkModule ⟨decls, [], false⟩ m ∅
  let full ← Resolver.walkModule ⟨decls, top.env, true⟩ m ∅
  return { decls, types := full.types }

variable {m : Module} {moduleName : String} {library : Library}

/-- The two walks of a module with their results, and the second over an empty table. -/
theorem exists_courses (hm : m.Numbered) {info : TypeInfo}
    (h : ofModule m moduleName library = .ok info) : ∃ first second alone : Course,
      Resolver.courseOf ⟨info.decls, [], false⟩ m ∅ = .ok first ∧
      Resolver.courseOf ⟨info.decls, first.env, true⟩ m first.types = .ok second ∧
      Resolver.courseOf ⟨info.decls, first.env, true⟩ m ∅ = .ok alone ∧
      second.types = info.types ∧
      Resolver.Standing (m.topNodes.map Expr.id) first.types first second alone := by
  obtain ⟨-, top, full, htop, hfull, htypes⟩ := ofModule_ok h
  rw [Resolver.walkModule_eq_courseOf] at htop hfull
  obtain ⟨first, hfirst, htop⟩ := exists_of_bind_ok htop
  obtain rfl := Except.ok.inj htop
  obtain ⟨second, hsecond, hfull⟩ := exists_of_bind_ok hfull
  obtain rfl := Except.ok.inj hfull
  have hagree := Resolver.second_walks_agree hm hfirst
  rw [hsecond] at hagree
  obtain ⟨alone, halone, hstanding⟩ := hagree.exists_of_ok_left
  exact ⟨first, second, alone, hfirst, hsecond, halone, htypes.symm, hstanding⟩

/-- The types of a module are the results of a walk through its script that goes into functions and
classes, with the final environment of the first walk around. -/
theorem exists_walk (hm : m.Numbered) {info : TypeInfo}
    (h : ofModule m moduleName library = .ok info) : ∃ first alone : Course,
      Resolver.courseOf ⟨info.decls, [], false⟩ m ∅ = .ok first ∧
      performAll (Resolver.courseHooks ⟨info.decls, first.env, true⟩) (bodySteps m.body)
        { types := ∅, env := [], frame := .module, results := [] } = .ok alone ∧
      ∀ x ∈ alone.results, info.typeOf? x.1 = x.2 := by
  obtain ⟨first, second, alone, hfirst, -, halone, htypes, hstanding⟩ := exists_courses hm h
  refine ⟨first, alone, hfirst, ?_, fun x hx => ?_⟩
  · rw [← walkBody_eq]
    exact halone
  · rw [typeOf?, ← htypes, hstanding.types_eq]
    exact (Resolver.types_of_results hm halone).2.2.1 x hx

end TypeInfo

/-- The second walk through a module gives every expression of the top level the result that the
first walk gave it, and evaluates no expression twice. What it records is what it finds: over an
empty table it would record the same. -/
theorem second_walk_repeats_first {m : Module} (hm : m.Numbered) (moduleName : String)
    (library : Library) :
    Follows False (fun info alone => info.decls = alone.decls ∧ info.types.Equiv alone.types)
      (TypeInfo.ofModule m moduleName library) (TypeInfo.ofSecondWalk m moduleName library) ∧
    ∀ info, TypeInfo.ofModule m moduleName library = .ok info → ∃ first second : Course,
      Resolver.courseOf ⟨info.decls, [], false⟩ m ∅ = .ok first ∧
      Resolver.courseOf ⟨info.decls, first.env, true⟩ m first.types = .ok second ∧
      second.types = info.types ∧ second.env = first.env ∧
      first.results.map Prod.fst = m.topNodes ∧ first.results.Sublist second.results ∧
      (second.results.map Prod.fst).Perm m.evaluatedNodes ∧
      (second.results.map (·.1.id)).Nodup ∧
      (∀ x ∈ second.results, info.typeOf? x.1 = x.2) ∧
      ∀ id ref, info.types[id]? = some ref → ∃ n, n.id = id ∧ (n, some ref) ∈ second.results := by
  constructor
  · refine (Follows.self _).bind fun decls _ hdecls => ?_
    obtain ⟨rfl, -⟩ := hdecls
    refine (Follows.self _).bind fun top _ htop => ?_
    obtain ⟨rfl, htop⟩ := htop
    rw [Resolver.walkModule_eq_courseOf] at htop
    obtain ⟨first, hfirst, hfirst'⟩ := exists_of_bind_ok htop
    obtain rfl := Except.ok.inj hfirst'
    rw [Resolver.walkModule_eq_courseOf, Resolver.walkModule_eq_courseOf]
    have hagree := (Resolver.second_walks_agree hm hfirst).map
      (S := fun full full' => ∀ id, full.types[id]? = full'.types[id]?)
      (f := Course.toProgress) (g := Course.toProgress) fun a b hab => hab.types_eq
    refine hagree.bind fun full full' htypes => .ok ⟨rfl, ?_⟩
    exact Std.TreeMap.Equiv.of_forall_constGet?_eq htypes
  · intro info hinfo
    obtain ⟨first, second, alone, hfirst, hsecond, halone, htypes, hstanding⟩ :=
      TypeInfo.exists_courses hm hinfo
    have hequal : ∀ id : Nat, info.types[id]? = alone.types[id]? := by
      rw [← htypes]
      exact hstanding.types_eq
    obtain ⟨hnodes, -⟩ := Resolver.types_of_results hm hfirst
    obtain ⟨hall, hids, hrecorded, hfound⟩ := Resolver.types_of_results hm halone
    rw [← hstanding.results] at hall hids hrecorded hfound
    refine ⟨first, second, hfirst, hsecond, htypes, hstanding.env.1, hnodes, hstanding.sublist, ?_,
      hids, fun x hx => ?_, fun id ref hid => ?_⟩
    · rw [hall, Expr.reached_true]
      exact m.schedule_perm
    · rw [TypeInfo.typeOf?, hequal]
      exact hrecorded x hx
    · rw [hequal] at hid
      exact hfound id ref hid

namespace LambdaAtTop

/-- A value and a lambda that returns it. -/
def module : Module where
  body := [.assign [.name (.ofId 0) "e"] (.constant (.ofId 1) .int),
    .assign [.name (.ofId 2) "f"] (.lambda (.ofId 3) [] [] (.name (.ofId 4) "e"))]

private theorem exists_info :
    ∃ info, TypeInfo.ofModule module "sample" .standard = .ok info := by decide

/-- The second walk adds the result for the body of the lambda, and the value keeps its type. -/
theorem body_added :
    module.Numbered ∧ ∃ info first second,
      TypeInfo.ofModule module "sample" .standard = .ok info ∧
      Resolver.courseOf ⟨info.decls, [], false⟩ module ∅ = .ok first ∧
      Resolver.courseOf ⟨info.decls, first.env, true⟩ module first.types = .ok second ∧
      first.results.Sublist second.results ∧ first.results.length = 2 ∧
      second.results.length = 3 := by
  have hnum : module.Numbered := by decide
  obtain ⟨info, hinfo⟩ := exists_info
  obtain ⟨-, hwalks⟩ := second_walk_repeats_first hnum "sample" .standard
  obtain ⟨first, second, hfirst, hsecond, -, -, htop, hsub, hall, -⟩ := hwalks info hinfo
  refine ⟨hnum, info, first, second, hinfo, hfirst, hsecond, hsub, ?_, ?_⟩
  · rw [← List.length_map (f := Prod.fst), htop]
    rfl
  · rw [← List.length_map (f := Prod.fst), hall.length_eq]
    rfl

end LambdaAtTop

end ContextLint.Typing
