import ContextLint.Proofs.Scope.Bindings
import ContextLint.Proofs.Typing.Parts

/-!
# The environment of a scope

Behind the statements of a scope a name has the type that its last binding there gives it: that of
the annotation or else of the value, what an import or a definition stands for, or none. The types
that bindings read are those found when the values were evaluated, since no expression is evaluated
twice. The values of a parallel assignment are evaluated before any of its names is bound.
-/

namespace ContextLint.Typing

open Source Scope

/-- The binding gives the name this type, where the types of values are known. -/
def Gives (r : Resolver) (s : Facts) (ref : Option TypeRef) : Binding → Prop
  | .assigned _ value hint =>
    ∃ declared, r.decls.names.resolve? hint = .ok declared ∧
      ref = declared.or (value.bind s.typeOf?)
  | .element _ value => ref = s.typeOf? value
  | .imported source a =>
    ref = (importMeaning source a).bind fun meaning => r.decls.lookup? meaning.2
  | .defined name => ref = r.decls.lookup? (r.decls.names.moduleName ++ "." ++ name)
  | .other _ => ref = none

variable {ref : Option TypeRef} {b : Binding}

/-- A binding reads the types of its values only. -/
theorem Gives.congr {r : Resolver} {s s' : Facts} (h : Gives r s ref b)
    (hvalues : ∀ e ∈ b.values, s'.typeOf? e = s.typeOf? e) : Gives r s' ref b := by
  cases b with
  | assigned name value hint =>
    obtain ⟨declared, hdeclared, rfl⟩ := h
    refine ⟨declared, hdeclared, ?_⟩
    cases value with
    | none => rfl
    | some e => rw [Option.bind_some, Option.bind_some, hvalues e (List.mem_singleton_self e)]
  | element name value => exact Eq.trans h (hvalues value (List.mem_singleton_self value)).symm
  | imported source a | defined name | other name => exact h

/-- What an environment holds of a name behind bindings: the type that the last one gives, or what
it held in front. -/
def HoldsLast (r : Resolver) (s : Facts) (bindings : List Binding) (env env' : Env) (x : String) :
    Prop :=
  match lastNamed? Binding.name x bindings with
  | some b => ∃ ref, env'.get? x = some ref ∧ Gives r s ref b
  | none => env'.get? x = env.get? x

namespace HoldsLast

variable {r : Resolver} {s s' : Facts} {bs bs' : List Binding} {env env' env'' : Env} {x : String}

private theorem nil (h : env'.get? x = env.get? x) : HoldsLast r s [] env env' x := h

/-- One name is bound. -/
theorem set (h : Gives r s ref b) (env : Env) (x : String) :
    HoldsLast r s [b] env (env.set b.name ref) x := by
  unfold HoldsLast
  rw [lastNamed?_singleton]
  by_cases hx : b.name = x
  · rw [if_pos hx, ← hx]
    exact ⟨ref, by rw [NameMap.get?_set, if_pos rfl], h⟩
  · rw [if_neg hx]
    exact (NameMap.get?_set ..).trans (if_neg (Ne.symm hx))

/-- Later bindings go before earlier ones. -/
theorem append (h : HoldsLast r s bs env env' x) (h' : HoldsLast r s bs' env' env'' x) :
    HoldsLast r s (bs ++ bs') env env'' x := by
  unfold HoldsLast at h h' ⊢
  rw [lastNamed?_append]
  cases hlast : lastNamed? Binding.name x bs' with
  | some b =>
    rw [hlast] at h'
    exact h'
  | none =>
    rw [hlast] at h'
    rw [Option.none_or, show env''.get? x = env'.get? x from h']
    exact h

private theorem congr (h : HoldsLast r s bs env env' x)
    (hvalues : ∀ b ∈ bs, ∀ e ∈ b.values, s'.typeOf? e = s.typeOf? e) :
    HoldsLast r s' bs env env' x := by
  unfold HoldsLast at h ⊢
  cases hlast : lastNamed? Binding.name x bs with
  | some b =>
    rw [hlast] at h
    obtain ⟨ref, henv, hgives⟩ := h
    exact ⟨ref, henv, hgives.congr (hvalues b (mem_of_lastNamed? hlast))⟩
  | none =>
    rw [hlast] at h
    exact h

end HoldsLast

variable {s s' : Progress} {step : Step} {e target value : Expr} {pairs : List (String × Expr)}

namespace Resolver

variable {r : Resolver}

/-- Imported names are bound in order. -/
theorem bindImports_holdsLast (r : Resolver) (s : Facts) (source : Option ImportSource)
    (names : List ImportAlias) (env : Env) (x : String) :
    HoldsLast r s ((names.filter (·.name ≠ "*")).map (.imported source)) env
      (r.bindImports source names env) x := by
  induction names generalizing env with
  | nil => exact .nil rfl
  | cons a rest ih =>
    rw [bindImports_cons]
    by_cases hstar : a.name = "*"
    · rw [if_pos hstar, List.filter_cons_of_neg (by simpa using hstar)]
      exact ih env
    · rw [if_neg hstar, List.filter_cons_of_pos (by simpa using hstar), List.map_cons,
        ← List.singleton_append]
      exact (HoldsLast.set (b := .imported source a) rfl env x).append (ih _)

/-- A step binds what it lists, with the types known before it. -/
theorem perform_holdsLast (hstep : ∀ e ∈ step.here, e.assignedNames = [])
    (h : perform r.hooks step s = .ok s') (x : String) :
    HoldsLast r s.toFacts step.bindings s.env s'.env x := by
  have hkept := fun hx => perform_get? (y := x) step hx s s' h
  cases step with
  | visit e => exact .nil (hkept (by simp [Step.names, hstep e (List.mem_singleton_self e)]))
  | function head body | cls head body => exact .nil (hkept List.not_mem_nil)
  | bind name value hint =>
    obtain ⟨ref, href, hs'⟩ := exists_of_bind_ok h
    obtain ⟨declared, hdeclared, hor⟩ := exists_of_bind_ok href
    cases hs'
    cases hor
    exact .set (b := .assigned name value hint) ⟨declared, hdeclared, rfl⟩ s.env x
  | unbind name =>
    cases h
    exact .set (b := .other name) rfl s.env x
  | bindElement name value =>
    cases h
    exact .set (b := .element name value) rfl s.env x
  | define name =>
    cases h
    exact .set (b := .defined name) rfl s.env x
  | onImport stmt =>
    cases h
    exact bindImports_holdsLast r s.toFacts stmt.source stmt.names s.env x

/-- What a script evaluates is not evaluated in it again. -/
private theorem not_scheduled_of_here {rest : List Step}
    (hids : ((scheduleAll (step :: rest)).map (·.1.id)).Nodup) :
    ∀ e ∈ step.here, ∀ n ∈ e.evaluatedNodes, ∀ y ∈ scheduleAll rest, y.1.id ≠ n.id := by
  intro e he n hn y hy heq
  cases step with
  | visit e' =>
    obtain rfl := List.mem_singleton.mp he
    rw [scheduleAll, List.map_append] at hids
    obtain ⟨x, hx, rfl⟩ := List.mem_map.mp (e.schedule_perm.mem_iff.mpr hn)
    exact List.disjoint_of_nodup_append hids (List.mem_map_of_mem hx)
      (List.mem_map.mpr ⟨y, hy, heq⟩)
  | _ => cases he

/-- A script binds what its steps list, with the types known behind it. -/
theorem performAll_holdsLast {steps : List Step}
    (hhere : ∀ e ∈ steps.flatMap Step.here, e.assignedNames = [])
    (hids : ((scheduleAll steps).map (·.1.id)).Nodup) {seen : List Expr}
    (hprepared : Prepared seen steps)
    (hseen : ∀ e ∈ seen, ∀ n ∈ e.evaluatedNodes, ∀ y ∈ scheduleAll steps, y.1.id ≠ n.id)
    (h : performAll r.hooks steps s = .ok s') (x : String) :
    HoldsLast r s'.toFacts (steps.flatMap Step.bindings) s.env s'.env x := by
  induction steps generalizing seen s with
  | nil =>
    cases h
    exact .nil rfl
  | cons step rest ih =>
    obtain ⟨mid, hstep, hrest⟩ := exists_of_bind_ok h
    rw [List.flatMap_cons, List.forall_mem_append] at hhere
    have hlater : ∀ e ∈ step.here ++ seen, ∀ n ∈ e.evaluatedNodes,
        ∀ y ∈ scheduleAll rest, y.1.id ≠ n.id := by
      refine List.forall_mem_append.mpr ⟨not_scheduled_of_here hids, fun e he n hn y hy => ?_⟩
      exact hseen e he n hn y (List.mem_append_right _ hy)
    have hrestIds : ((scheduleAll rest).map (·.1.id)).Nodup := by
      rw [scheduleAll, List.map_append] at hids
      exact (List.nodup_append.mp hids).2.1
    -- a value has been evaluated before it is bound, so that its type is final already
    have hvalues : ∀ b ∈ step.bindings, ∀ e ∈ b.values,
        s'.toFacts.typeOf? e = s.toFacts.typeOf? e := by
      intro b hb e he
      obtain ⟨e', he', hn⟩ := exists_seen_of_binding hprepared.1 hb he
      exact (performAll_keeps (step :: rest) s s' h).2 e.id (hseen e' he' e hn)
    rw [List.flatMap_cons]
    exact ((perform_holdsLast hhere.1 hstep x).congr hvalues).append
      (ih hhere.2 hrestIds hprepared.2 hlater hrest)

/-- The results of a visited expression are those of the environment before it. They hide what
was known before. -/
theorem exists_find_of_visit (before after : List Step)
    (hids : ((scheduleAll (before ++ .visit e :: after)).map (·.1.id)).Nodup)
    (h : performAll r.hooks (before ++ .visit e :: after) s = .ok s') :
    ∃ mid x, performAll r.hooks before s = .ok mid ∧ r.find ⟨s.frame, none⟩ e mid.env = .ok x ∧
      ∀ y ∈ x.results, s'.typeOf? y.1 = y.2.or (s.typeOf? y.1) := by
  rw [performAll_append] at h
  obtain ⟨mid, hmid, h⟩ := exists_of_bind_ok h
  obtain ⟨next, hvisit, hafter⟩ := exists_of_bind_ok h
  obtain ⟨hframe, hbefore⟩ := performAll_keeps before s mid hmid
  rw [perform_visit, hframe] at hvisit
  rw [scheduleAll_append, List.map_append, scheduleAll, List.map_append] at hids
  obtain ⟨-, hrest, hbeforeIds⟩ := List.nodup_append'.mp hids
  obtain ⟨hown, -, hafterIds⟩ := List.nodup_append'.mp hrest
  cases hx : r.find ⟨s.frame, none⟩ e mid.env with
  | error err =>
    rw [hx] at hvisit
    cases hvisit
  | ok x =>
    rw [hx] at hvisit
    cases hvisit
    refine ⟨mid, x, hmid, hx, fun y hy => ?_⟩
    have hid := id_mem_of_results (find_results _ e _ x hx) hy
    have hnotBefore : ∀ z ∈ scheduleAll before, z.1.id ≠ y.1.id := fun z hz heq =>
      hbeforeIds (List.mem_map.mpr ⟨z, hz, heq⟩) (List.mem_append_left _ hid)
    have hnotAfter : ∀ z ∈ scheduleAll after, z.1.id ≠ y.1.id := fun z hz heq =>
      hafterIds hid (List.mem_map.mpr ⟨z, hz, heq⟩)
    calc s'.typeOf? y.1
      _ = (keep mid.types x.results)[y.1.id]? :=
          (performAll_keeps after _ s' hafter).2 y.1.id hnotAfter
      _ = y.2.or mid.types[y.1.id]? := by
          rw [getElem?_keep, latest_of_mem (results_nodup hx hown) hy]
      _ = y.2.or (s.typeOf? y.1) := congrArg y.2.or (hbefore y.1.id hnotBefore)

/-- An element of a display is typed in the environment before the display, if no assignment
expression stands in it. -/
theorem find_element {p : Place} {site : Site} {kind : SequenceKind} {elements : List Expr}
    {env : Env} {x : Finding} (hx : r.find p (.sequence site kind elements) env = .ok x)
    (hnames : (Expr.sequence site kind elements).assignedNames = []) (he : e ∈ elements) :
    ∃ y, r.find p e env = .ok y ∧ (e, y.type) ∈ x.results := by
  have hpart : (e, []) ∈ (Expr.sequence site kind elements).scopes := List.mem_map_of_mem he
  obtain ⟨p', env', ⟨rfl, henv⟩, y, hy, hsub⟩ := find_parts p _ env (.inr rfl) x hx _ hpart
  rw [hnames] at henv
  obtain rfl := henv.eq_of_nil
  obtain ⟨zs, hlast⟩ := find_last p' e env' y hy
  refine ⟨y, hy, hsub ?_⟩
  rw [hlast]
  exact List.mem_append_right _ (List.mem_singleton_self _)

/-- The script of a parallel assignment. -/
private theorem bodySteps_parallel (hpairs : parallelPairs target value = some pairs) :
    bodySteps [.assign [target] value] =
      .visit value :: pairs.map fun p => .bindElement p.1 p.2 := by
  cases target with
  | sequence site kind elements => simp [bodySteps, stmtSteps, assignSteps, hpairs]
  | _ => cases hpairs

/-- In a parallel assignment every name receives the type of its value before the statement,
the last one if it is repeated. -/
theorem walkBody_parallel (hpairs : parallelPairs target value = some pairs)
    (hhere : ∀ e ∈ (bodySteps [.assign [target] value]).flatMap Step.here, e.assignedNames = [])
    (hids : ((scheduleAll (bodySteps [.assign [target] value])).map (·.1.id)).Nodup)
    (h : walkBody r.hooks [.assign [target] value] s = .ok s') {x : String} {p : String × Expr}
    (hp : lastNamed? Prod.fst x pairs = some p) :
    ∃ ref facts, r.eval ⟨s.frame, none⟩ p.2 s.toFacts = .ok (ref, facts) ∧
      s'.env.get? x = some (ref.or (s.typeOf? p.2)) := by
  have hprepared := prepared_body [.assign [target] value]
  rw [walkBody_eq] at h
  have hlast := performAll_holdsLast hhere hids hprepared (List.forall_mem_nil _) h x
  rw [bodySteps_parallel hpairs] at h hids hhere hlast
  have hbindings : (Step.visit value :: pairs.map fun p => Step.bindElement p.1 p.2).flatMap
      Step.bindings = pairs.map fun p => .element p.1 p.2 := by
    rw [List.flatMap_cons, List.flatMap_map, List.map_eq_flatMap]
    rfl
  have hfound : lastNamed? Binding.name x (pairs.map fun p => .element p.1 p.2) =
      some (.element p.1 p.2) := by
    rw [lastNamed?_map, show Binding.name ∘ (fun p : String × Expr => Binding.element p.1 p.2) =
      Prod.fst from rfl, hp]
    rfl
  rw [hbindings, HoldsLast, hfound] at hlast
  obtain ⟨ref, henv, rfl⟩ := hlast
  -- the value is a display, and its elements are typed in the environment before it
  obtain ⟨mid, x', hmid, hx', hresults⟩ := exists_find_of_visit [] _ hids h
  cases hmid
  obtain ⟨site, kind, elements, rfl, hmem⟩ := mem_of_parallelPairs hpairs
  obtain ⟨y, hy, hyx⟩ :=
    find_element hx' (hhere _ List.mem_cons_self) (hmem p (mem_of_lastNamed? hp))
  refine ⟨y.type, y.facts s.types, ?_, ?_⟩
  · rw [eval_eq_find, hy]
    rfl
  · rw [henv, ← hresults _ hyx]

/-- So it is among other statements of a scope. -/
theorem performAll_parallel (before after : List Step)
    (hpairs : parallelPairs target value = some pairs)
    (hhere : ∀ e ∈ (before ++ (bodySteps [.assign [target] value] ++ after)).flatMap Step.here,
      e.assignedNames = [])
    (hids : ((scheduleAll (before ++ (bodySteps [.assign [target] value] ++ after))).map
      (·.1.id)).Nodup)
    (h : performAll r.hooks (before ++ (bodySteps [.assign [target] value] ++ after)) s = .ok s') :
    ∃ mid next, performAll r.hooks before s = .ok mid ∧
      walkBody r.hooks [.assign [target] value] mid = .ok next ∧
      performAll r.hooks after next = .ok s' ∧
      ∀ x p, lastNamed? Prod.fst x pairs = some p →
        ∃ ref facts, r.eval ⟨s.frame, none⟩ p.2 mid.toFacts = .ok (ref, facts) ∧
          next.env.get? x = some (ref.or (s.typeOf? p.2)) := by
  rw [performAll_append] at h
  obtain ⟨mid, hmid, h⟩ := exists_of_bind_ok h
  rw [performAll_append] at h
  obtain ⟨next, hnext, hafter⟩ := exists_of_bind_ok h
  rw [← walkBody_eq] at hnext
  rw [scheduleAll_append, List.map_append, scheduleAll_append, List.map_append] at hids
  rw [List.flatMap_append, List.forall_mem_append, List.flatMap_append,
    List.forall_mem_append] at hhere
  obtain ⟨-, hrest, hbefore⟩ := List.nodup_append'.mp hids
  obtain ⟨hown, -⟩ := List.nodup_append'.mp hrest
  obtain ⟨hframe, hkept⟩ := performAll_keeps before s mid hmid
  refine ⟨mid, next, hmid, hnext, hafter, fun x p hp => ?_⟩
  obtain ⟨ref, facts, heval, henv⟩ := walkBody_parallel hpairs hhere.2.1 hown hnext hp
  rw [hframe] at heval
  have hvalue : p.2.id ∈ (scheduleAll (bodySteps [.assign [target] value])).map (·.1.id) := by
    obtain ⟨site, kind, elements, rfl, hmem⟩ := mem_of_parallelPairs hpairs
    refine List.mem_map.mpr ⟨(p.2, false), ?_, rfl⟩
    rw [bodySteps_parallel hpairs]
    refine List.mem_append_left _ (Expr.mem_schedule_of_part ?_ rfl p.2.mem_schedule_self)
    exact hmem p (mem_of_lastNamed? hp)
  have hknown : mid.typeOf? p.2 = s.typeOf? p.2 := hkept p.2.id fun y hy heq =>
    hbefore (List.mem_map.mpr ⟨y, hy, heq⟩) (List.mem_append_left _ hvalue)
  exact ⟨ref, facts, heval, hknown ▸ henv⟩

end Resolver

/-- Behind the statements of a scope whose expressions assign no name, every name has the type that
its last binding there gives it, and one that they do not bind has the type it had, whatever
functions, classes, lambdas and comprehensions stand among them. A visited expression has the type
found in the environment in front of it, or else the one known before. So have the values of a
parallel assignment: each name receives the type of its value before the statement, and
`a, b = b, a` exchanges the types. -/
theorem environment_by_last_binding (r : Resolver) {body : List Stmt}
    (hnumbered : Source.Module.Numbered { body })
    (hwalrus : ∀ e ∈ (bodySteps body).flatMap Step.here, e.assignedNames = []) {s s' : Progress}
    (h : walkBody r.hooks body s = .ok s') :
    (∀ x, HoldsLast r s'.toFacts ((bodySteps body).flatMap Step.bindings) s.env s'.env x) ∧
    (∀ before e after, bodySteps body = before ++ .visit e :: after →
      ∃ mid ref facts, performAll r.hooks before s = .ok mid ∧
        r.eval ⟨s.frame, none⟩ e mid.toFacts = .ok (ref, facts) ∧
        s'.typeOf? e = ref.or (s.typeOf? e)) ∧
    (∀ before target value after pairs,
      bodySteps body = before ++ (bodySteps [.assign [target] value] ++ after) →
      parallelPairs target value = some pairs →
      ∃ mid next, performAll r.hooks before s = .ok mid ∧
        walkBody r.hooks [.assign [target] value] mid = .ok next ∧
        performAll r.hooks after next = .ok s' ∧
        ∀ x p, lastNamed? Prod.fst x pairs = some p →
          ∃ ref facts, r.eval ⟨s.frame, none⟩ p.2 mid.toFacts = .ok (ref, facts) ∧
            next.env.get? x = some (ref.or (s.typeOf? p.2))) ∧
    ∀ before (kind kind' : SequenceKind) (site₁ site₂ site₃ site₄ site₅ site₆ : Site)
      (a b : String) after,
      bodySteps body = before ++ (bodySteps [.assign
        [.sequence site₁ kind [.name site₂ a, .name site₃ b]]
        (.sequence site₄ kind' [.name site₅ b, .name site₆ a])] ++ after) →
      s.typeOf? (.name site₅ b) = none → s.typeOf? (.name site₆ a) = none →
      ∃ mid next, performAll r.hooks before s = .ok mid ∧
        performAll r.hooks after next = .ok s' ∧
        next.env.get? a = some (r.decls.nameIn mid.env b) ∧
        next.env.get? b = some (r.decls.nameIn mid.env a) := by
  rw [walkBody_eq] at h
  have hids : ((scheduleAll (bodySteps body)).map (·.1.id)).Nodup := hnumbered.schedule_nodup
  refine ⟨fun x => Resolver.performAll_holdsLast hwalrus hids (prepared_body body)
    (List.forall_mem_nil _) h x, ?_, ?_, ?_⟩
  · intro before e after hsplit
    rw [hsplit] at h hids
    obtain ⟨mid, x, hmid, hx, hresults⟩ := Resolver.exists_find_of_visit before after hids h
    obtain ⟨zs, hlast⟩ := Resolver.find_last _ e mid.env x hx
    refine ⟨mid, x.type, x.facts mid.types, hmid, ?_, hresults (e, x.type) ?_⟩
    · rw [Resolver.eval_eq_find, hx]
      rfl
    · rw [hlast]
      exact List.mem_append_right _ (List.mem_singleton_self _)
  · intro before target value after pairs hsplit hpairs
    rw [hsplit] at h hids hwalrus
    exact Resolver.performAll_parallel before after hpairs hwalrus hids h
  · intro before kind kind' site₁ site₂ site₃ site₄ site₅ site₆ a b after hsplit hb ha
    rw [hsplit] at h hids hwalrus
    have hpairs : parallelPairs (.sequence site₁ kind [.name site₂ a, .name site₃ b])
        (.sequence site₄ kind' [.name site₅ b, .name site₆ a]) =
          some [(a, .name site₅ b), (b, .name site₆ a)] := rfl
    obtain ⟨mid, next, hmid, -, hafter, hnames⟩ :=
      Resolver.performAll_parallel before after hpairs hwalrus hids h
    have hname : ∀ x site y, lastNamed? Prod.fst x [(a, Expr.name site₅ b), (b, .name site₆ a)] =
        some (x, .name site y) → s.typeOf? (.name site y) = none →
        next.env.get? x = some (r.decls.nameIn mid.env y) := by
      intro x site y hlast hnone
      obtain ⟨ref, facts, heval, henv⟩ := hnames x _ hlast
      rw [Resolver.eval_eq_find] at heval
      obtain rfl : r.decls.nameIn mid.env y = ref := congrArg Prod.fst (Except.ok.inj heval)
      rw [henv, hnone, Option.or_none]
    refine ⟨mid, next, hmid, hafter, ?_, hname b site₆ a (by simp [lastNamed?]) ha⟩
    by_cases hab : b = a
    · subst hab
      exact hname b site₆ b (by simp [lastNamed?]) ha
    · exact hname a site₅ b (by simp [lastNamed?, hab]) hb

namespace Exchange

/-- A function with a binding of its own, then `a, b = b, a`. -/
def body : List Stmt :=
  [.functionDef ⟨"f", {}, [], none⟩ [.assign [.name (.ofId 0) "a"] (.constant (.ofId 1) .none)],
    .assign [.sequence (.ofId 2) .tuple [.name (.ofId 3) "a", .name (.ofId 4) "b"]]
      (.sequence (.ofId 5) .tuple [.name (.ofId 6) "b", .name (.ofId 7) "a"])]

def resolver : Resolver where
  decls := .ofLibrary .standard
  globals := []
  descend := true

/-- Three names of known types. -/
def start : Progress where
  types := ∅
  env := [("a", some (builtin "str")), ("b", some (builtin "int")), ("c", some (builtin "str"))]
  frame := .func

private theorem bodySteps_eq : bodySteps body =
    [.define "f", .function ⟨"f", {}, [], none⟩
      (bodySteps [.assign [.name (.ofId 0) "a"] (.constant (.ofId 1) .none)])] ++
    (bodySteps [.assign [.sequence (.ofId 2) .tuple [.name (.ofId 3) "a", .name (.ofId 4) "b"]]
      (.sequence (.ofId 5) .tuple [.name (.ofId 6) "b", .name (.ofId 7) "a"])] ++ []) := rfl

/-- The two names have exchanged their types, and the third has kept its own. -/
theorem types_exchanged : ∃ s', walkBody resolver.hooks body start = .ok s' ∧
    s'.env.get? "a" = some (some (builtin "int")) ∧
    s'.env.get? "b" = some (some (builtin "str")) ∧
    s'.env.get? "c" = some (some (builtin "str")) := by
  have hwalk : ∃ s', walkBody resolver.hooks body start = .ok s' := by decide +kernel
  obtain ⟨s', hs'⟩ := hwalk
  have hwalrus : ∀ e ∈ (bodySteps body).flatMap Step.here, e.assignedNames = [] := by
    decide
  obtain ⟨hlast, -, -, hexchange⟩ :=
    environment_by_last_binding resolver (by decide) hwalrus hs'
  obtain ⟨mid, next, hmid, hafter, ha, hb⟩ :=
    hexchange _ _ _ _ _ _ _ _ _ "a" "b" _ bodySteps_eq Std.TreeMap.getElem?_emptyc
      Std.TreeMap.getElem?_emptyc
  obtain rfl : next = s' := Except.ok.inj hafter
  have hmidEnv : ∀ x, x ≠ "f" → mid.env.get? x = start.env.get? x := fun x hx =>
    Resolver.performAll_get? _ (by simpa [Step.names] using hx) start mid hmid
  have hc := hlast "c"
  rw [bodySteps_eq] at hc
  refine ⟨next, hs', ?_, ?_, ?_⟩
  · rw [ha, Declarations.nameIn, hmidEnv "b" (by decide)]
    rfl
  · rw [hb, Declarations.nameIn, hmidEnv "a" (by decide)]
    rfl
  · exact hc

end Exchange

end ContextLint.Typing
