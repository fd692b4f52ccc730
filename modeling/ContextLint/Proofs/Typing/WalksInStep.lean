import ContextLint.Proofs.NameMap
import ContextLint.Proofs.Scope.Bound
import ContextLint.Proofs.Scope.Hints
import ContextLint.Proofs.Scope.Spared
import ContextLint.Proofs.Typing.Course
import ContextLint.Proofs.Typing.InStep

/-!
# Two walks in step

Resolvers that are in step on expressions are in step on scripts, provided that they also agree on
annotations, on the types that they read back from their tables, and on whether to go into
functions. The two scripts are the same up to their annotations.
-/

namespace ContextLint.Scope

open Source

mutual

/-- The expressions of a step suit the places where they stand. The Boolean says whether functions
there start from the module's final environment. -/
def Step.Suited (Suits : Bool → Expr → Prop) : Bool → Step → Prop
  | o, .visit e => Suits o e
  | o, .bind _ value _ => ∀ e ∈ value, Suits o e
  | o, .bindElement _ value => Suits o value
  | _, .function _ body => SuitedAll Suits false body
  | _, .cls _ body => SuitedAll Suits true body
  | _, .unbind _ | _, .onImport _ | _, .define _ => True

/-- The expressions of a script suit the places where they stand. -/
def SuitedAll (Suits : Bool → Expr → Prop) : Bool → List Step → Prop
  | _, [] => True
  | o, step :: rest => step.Suited Suits o ∧ SuitedAll Suits o rest

end

section

variable {S : Expr → Prop}

mutual

/-- What holds of all that a step visits, and of the parts of what it holds of, holds in the step.
-/
theorem suited_of_visited (hpart : ∀ {e c}, S e → e.isLambda = false → c ∈ e.evaluatedChildren → S c)
    (step : Step) {seen : List Expr} (hprep : step.Prepared seen) (hseen : ∀ e ∈ seen, S e)
    (h : ∀ e ∈ step.visited, S e) (o : Bool) : step.Suited (fun _ => S) o := by
  cases step with
  | visit e => exact h e (List.mem_singleton_self e)
  | bind name value hint => exact fun e he => hseen e (hprep e he)
  | bindElement name value =>
    obtain ⟨site, kind, elements, hmem, hvalue⟩ := hprep
    exact hpart (hseen _ hmem) rfl hvalue
  | function head body => exact suitedAll_of_visited hpart body hprep (List.forall_mem_nil _) h false
  | cls head body => exact suitedAll_of_visited hpart body hprep (List.forall_mem_nil _) h true
  | _ => trivial

/-- What holds of all that a script visits, and of the parts of what it holds of, holds in the
script. -/
theorem suitedAll_of_visited
    (hpart : ∀ {e c}, S e → e.isLambda = false → c ∈ e.evaluatedChildren → S c) (steps : List Step)
    {seen : List Expr} (hprep : Prepared seen steps) (hseen : ∀ e ∈ seen, S e)
    (h : ∀ e ∈ visitedAll steps, S e) (o : Bool) : SuitedAll (fun _ => S) o steps := by
  cases steps with
  | nil => trivial
  | cons step rest =>
    rw [visitedAll, List.forall_mem_append] at h
    refine ⟨suited_of_visited hpart step hprep.1 hseen h.1 o, ?_⟩
    refine suitedAll_of_visited hpart rest hprep.2 (List.forall_mem_append.mpr ⟨?_, hseen⟩) h.2 o
    cases step with
    | visit e => exact h.1
    | _ => exact List.forall_mem_nil _

end

/-- What holds of all that a script schedules holds of all that is scheduled in what it visits. -/
theorem forall_schedule_visited {P : Expr → Prop} {steps : List Step}
    (h : ∀ x ∈ scheduleAll steps, P x.1) : ∀ e ∈ visitedAll steps, ∀ x ∈ e.schedule, P x.1 := by
  intro e he x hx
  have hnode : x.1 ∈ e.evaluatedNodes := e.schedule_perm.mem_iff.mp (List.mem_map_of_mem hx)
  have hmem : x.1 ∈ (scheduleAll steps).map Prod.fst :=
    (scheduleAll_perm steps).mem_iff.mpr (List.mem_flatMap.mpr ⟨e, he, hnode⟩)
  obtain ⟨y, hy, heq⟩ := List.mem_map.mp hmem
  exact heq ▸ h y hy

end

end ContextLint.Scope

namespace ContextLint.Typing

open Source Scope

/-- Walks in the same kind of scope with related environments, tables and results. -/
structure Course.Alike (E : Bool → Env → Env → Prop) (T : TypeTable → TypeTable → Prop)
    (W : Results → Results → Prop) (frame : Frame) (s s' : Course) : Prop where
  left : s.frame = frame
  right : s'.frame = frame
  env : E frame.opensOnGlobals s.env s'.env
  types : T s.types s'.types
  results : W s.results s'.results

/-- Walks in the same kind of scope with related environments and tables. -/
structure Progress.Alike (E : Bool → Env → Env → Prop) (T : TypeTable → TypeTable → Prop)
    (frame : Frame) (s s' : Progress) : Prop where
  left : s.frame = frame
  right : s'.frame = frame
  env : E frame.opensOnGlobals s.env s'.env
  types : T s.types s'.types

/-- Two resolvers agree on all that they look up in a walk. -/
structure Resolver.WalksInStep (r r' : Resolver) (Q : Option TypeRef → Option TypeRef → Prop)
    (E : Bool → Env → Env → Prop) (W : Results → Results → Prop) (Suits : Bool → Expr → Prop)
    (T : TypeTable → TypeTable → Prop) (H : Expr → Expr → Prop) : Prop
    extends InStep r r' Q E W Suits where
  same : r.descend = r'.descend
  names : r.decls.names = r'.decls.names
  lookup : ∀ qualname, Q (r.decls.lookup? qualname) (r'.decls.lookup? qualname)
  hint : ∀ {e e'}, H e e' →
    Follows False Q (r.decls.names.resolve e) (r.decls.names.resolve e')
  isSome : ∀ {ref ref'}, Q ref ref' → ref.isSome = ref'.isSome
  cls : ∀ {o env env'}, E o env env' → E true env env'
  keep : ∀ {t t' xs ys}, T t t' → W xs ys → T (keep t xs) (keep t' ys)
  read : ∀ {o e t t'}, Suits o e → T t t' → Q t[e.id]? t'[e.id]?

variable {hint hint' : Option Expr} {ref ref' : Option TypeRef} {frame : Frame} {s s' : Course}
  {t t' : TypeTable}

namespace Resolver.WalksInStep

variable {r r' : Resolver} {Q : Option TypeRef → Option TypeRef → Prop}
  {E : Bool → Env → Env → Prop} {W : Results → Results → Prop} {Suits : Bool → Expr → Prop}
  {T : TypeTable → TypeTable → Prop} {H : Expr → Expr → Prop} {o : Bool} {env env' : Env}

section

variable (h : WalksInStep r r' Q E W Suits T H)

include h

private theorem resolve? (hhint : Option.Rel H hint hint') :
    Follows False Q (r.decls.names.resolve? hint) (r'.decls.names.resolve? hint') := by
  rw [← h.names]
  cases hhint with
  | none => exact .ok (h.refl none)
  | some hrel => exact h.hint hrel

/-- Related types are both there or both missing. -/
theorem cases_of (href : Q ref ref') :
    (ref = none ∧ ref' = none) ∨ ∃ a a', ref = some a ∧ ref' = some a' := by
  have hsome := h.isSome href
  cases ref with
  | none =>
    cases ref' with
    | none => exact .inl ⟨rfl, rfl⟩
    | some a' => cases hsome
  | some a =>
    cases ref' with
    | none => cases hsome
    | some a' => exact .inr ⟨a, a', rfl, rfl⟩

private theorem annotateParams {params params' : List Param}
    (hparams : List.Forall₂ (Param.Like H) params params') (henv : E o env env') :
    Follows False (E o) (r.annotateParams params env) (r'.annotateParams params' env') := by
  induction hparams generalizing env env' with
  | nil => exact .ok henv
  | @cons p p' rest rest' hp hrest ih =>
    refine (h.resolve? hp.hint).bind fun ref ref' href => ?_
    obtain ⟨rfl, rfl⟩ | ⟨a, a', rfl, rfl⟩ := h.cases_of href
    · exact ih henv
    · rw [← hp.name]
      exact ih (h.set p.name henv href)

private theorem bindReceiver {head head' : FunctionHead} (hhead : head.Like H head') (frame : Frame)
    (henv : E o env env') : E o (bindReceiver frame head env) (bindReceiver frame head' env') := by
  have hpositional := hhead.positional
  unfold Resolver.bindReceiver
  rw [← hhead.decorators]
  revert hpositional
  generalize head.params.positional = params
  generalize head'.params.positional = params'
  intro hpositional
  cases frame with
  | module | func => exact henv
  | cls owner =>
    cases hpositional with
    | nil => exact henv
    | @cons p p' rest rest' hp hrest =>
      obtain ⟨name, hint⟩ := p
      obtain ⟨name', hint'⟩ := p'
      obtain ⟨rfl, hhint⟩ := hp
      cases hhint with
      | some hrel => exact henv
      | none =>
        dsimp only
        cases receiverType? owner head.decorators with
        | none => exact henv
        | some ref => exact h.set name henv (h.refl _)

private theorem bodyEnv (hr : r.descend = true) {head head' : FunctionHead}
    (hhead : head.Like H head') (hs : Course.Alike E T W frame s s') :
    Follows False (E false) (r.bodyEnv head s.toProgress) (r'.bodyEnv head' s'.toProgress) := by
  unfold Resolver.bodyEnv
  rw [hs.left, hs.right, ← hhead.names]
  have hplace : Place.Alike E frame.opensOnGlobals ⟨frame, none⟩ ⟨frame, none⟩ := ⟨rfl, rfl, .none⟩
  have hstart := h.forget head.params.names (h.startEnv hr hplace hs.env)
  have hparams := List.rel_append hhead.positional hhead.kwOnly
  refine (h.annotateParams hparams hstart).bind fun env env' henv => .ok ?_
  exact h.bindReceiver hhead frame henv

private theorem bindImports (source : Option ImportSource) (names : List ImportAlias)
    (henv : E o env env') :
    E o (r.bindImports source names env) (r'.bindImports source names env') := by
  induction names generalizing env env' with
  | nil => exact henv
  | cons a rest ih =>
    rw [Resolver.bindImports, Resolver.bindImports]
    refine ih ?_
    by_cases hstar : a.name = "*"
    · rw [if_pos hstar, if_pos hstar]
      exact henv
    · rw [if_neg hstar, if_neg hstar]
      cases importMeaning source a with
      | none => exact h.set _ henv (h.refl none)
      | some meaning => exact h.set _ henv (h.lookup _)

/-- A name is bound in step. -/
theorem assign (hs : Course.Alike E T W frame s s') (name : String) (href : Q ref ref') :
    Course.Alike E T W frame { s with toProgress := assignIn s.toProgress name ref }
      { s' with toProgress := assignIn s'.toProgress name ref' } :=
  ⟨hs.left, hs.right, h.set name hs.env href, hs.types, hs.results⟩

/-- A value is typed by its annotation, or else by what is recorded of it. -/
theorem assignedType (ht : T t t') {value : Option Expr} (hvalue : ∀ e ∈ value, Suits o e)
    (hhint : Option.Rel H hint hint') (env env' : Env) :
    Follows False Q (r.assignedType ⟨t, env⟩ value hint)
      (r'.assignedType ⟨t', env'⟩ value hint') := by
  refine (h.resolve? hhint).bind fun ref ref' href => .ok ?_
  obtain ⟨rfl, rfl⟩ | ⟨a, a', rfl, rfl⟩ := h.cases_of href
  · cases value with
    | none => exact h.refl none
    | some e => exact h.read (hvalue e rfl) ht
  · exact href

end

mutual

/-- Steps of the same shape are performed in step. -/
theorem perform (h : WalksInStep r r' Q E W Suits T H) (step : Step) {step' : Step}
    (hlike : step.Like H step') {frame : Frame} {s s' : Course}
    (hs : Course.Alike E T W frame s s') (hsuits : step.Suited Suits frame.opensOnGlobals) :
    Follows False (Course.Alike E T W frame) (perform r.courseHooks step s)
      (perform r'.courseHooks step' s') := by
  cases hlike with
  | visit e =>
    have hplace : Place.Alike E frame.opensOnGlobals ⟨s.frame, none⟩ ⟨s'.frame, none⟩ := by
      rw [hs.left, hs.right]
      exact ⟨rfl, rfl, .none⟩
    have hfind := (h.find e hsuits hplace hs.env).imp fun hne => hne h.same
    refine hfind.map fun x y hxy => ?_
    exact ⟨hs.left, hs.right, hxy.env, h.keep hs.types hxy.results,
      h.append hs.results hxy.results⟩
  | bind name value hhint =>
    rw [course_bind, course_bind]
    refine (h.assignedType hs.types hsuits hhint s.env s'.env).map fun ref ref' href => ?_
    exact h.assign hs name href
  | unbind name => exact .ok (h.assign hs name (h.refl none))
  | bindElement name value => exact .ok (h.assign hs name (h.read hsuits hs.types))
  | onImport stmt =>
    exact .ok ⟨hs.left, hs.right, h.bindImports _ _ hs.env, hs.types, hs.results⟩
  | define name =>
    refine .ok (h.assign hs name ?_)
    rw [← h.names]
    exact h.lookup _
  | @function head head' body body' hhead hbody =>
    cases hr : r.descend with
    | false =>
      rw [course_function_of_not_descend hr, course_function_of_not_descend (h.same ▸ hr)]
      exact .ok hs
    | true =>
      rw [course_function hr, course_function (h.same ▸ hr)]
      refine (h.bodyEnv hr hhead hs).bind fun env env' henv => ?_
      have hinner : Course.Alike E T W .func { s with env := env, frame := .func }
          { s' with env := env', frame := .func } := ⟨rfl, rfl, henv, hs.types, hs.results⟩
      refine (h.performAll body hbody hinner hsuits).bind fun a b hab => .ok ?_
      exact ⟨hs.left, hs.right, hs.env, hab.types, hab.results⟩
  | @cls head head' body body' hname hbody =>
    cases hr : r.descend with
    | false =>
      rw [course_cls_of_not_descend hr, course_cls_of_not_descend (h.same ▸ hr)]
      exact .ok hs
    | true =>
      rw [course_cls hr, course_cls (h.same ▸ hr), ← h.names, ← hname]
      generalize r.decls.names.moduleName ++ "." ++ head.name = qualname
      have hinner : Course.Alike E T W (.cls qualname) { s with frame := .cls qualname }
          { s' with frame := .cls qualname } := ⟨rfl, rfl, h.cls hs.env, hs.types, hs.results⟩
      refine (h.performAll body hbody hinner hsuits).bind fun a b hab => .ok ?_
      exact ⟨hs.left, hs.right, hs.env, hab.types, hab.results⟩

/-- Scripts of the same shape are performed in step. -/
theorem performAll (h : WalksInStep r r' Q E W Suits T H) (steps : List Step) {steps' : List Step}
    (hlike : LikeAll H steps steps') {frame : Frame} {s s' : Course}
    (hs : Course.Alike E T W frame s s') (hsuits : SuitedAll Suits frame.opensOnGlobals steps) :
    Follows False (Course.Alike E T W frame) (performAll r.courseHooks steps s)
      (performAll r'.courseHooks steps' s') := by
  cases hlike with
  | nil => exact .ok hs
  | @cons step step' rest rest' hstep hrest =>
    refine (h.perform step hstep hs hsuits.1).bind fun a b hab => ?_
    exact h.performAll rest hrest hab hsuits.2

end

/-- Scripts of the same shape are performed in step, whatever was found before. -/
theorem performAll_hooks (h : WalksInStep r r' Q E W Suits T H) (steps : List Step)
    {steps' : List Step} (hlike : LikeAll H steps steps') {s s' : Progress}
    (hs : Progress.Alike E T frame s s') (hsuits : SuitedAll Suits frame.opensOnGlobals steps) :
    Follows False (Progress.Alike E T frame) (Scope.performAll r.hooks steps s)
      (Scope.performAll r'.hooks steps' s') := by
  have hstart : Course.Alike E T W frame { s with results := [] } { s' with results := [] } :=
    ⟨hs.left, hs.right, hs.env, hs.types, h.nil⟩
  rw [performAll_course steps { s with results := [] },
    performAll_course steps' { s' with results := [] }]
  refine (h.performAll steps hlike hstart hsuits).map fun a b hab => ?_
  exact ⟨hab.left, hab.right, hab.env, hab.types⟩

/-- Modules of the same shape are walked in step. -/
theorem walkModule (h : WalksInStep r r' Q E W Suits T H) (m m' : Module)
    (hlike : LikeAll H (bodySteps m.body) (bodySteps m'.body))
    (hsuits : SuitedAll Suits true (bodySteps m.body)) (henv : E true [] []) (ht : T t t') :
    Follows False (Progress.Alike E T .module) (r.walkModule m t) (r'.walkModule m' t') := by
  unfold Resolver.walkModule
  rw [walkBody_eq, walkBody_eq]
  exact h.performAll_hooks _ hlike ⟨rfl, rfl, henv, ht⟩ hsuits

end Resolver.WalksInStep

/-- Environments that agree on all but some hidden names. -/
def Env.AgreeOff (hidden : List String) (env env' : Env) : Prop :=
  ∀ x, x ∉ hidden → env.get? x = env'.get? x

/-- Tables that agree under all but some numbers. -/
def TypeTable.AgreeOff (ids : List Nat) (t t' : TypeTable) : Prop :=
  ∀ id : Nat, id ∉ ids → t[id]? = t'[id]?

/-- Nothing is evaluated in the expression under one of the numbers, and none of the hidden names is
mentioned in it. -/
structure Avoids (ids : List Nat) (hidden : List String) (e : Expr) : Prop where
  ids : ∀ x ∈ e.schedule, x.1.id ∉ ids
  names : ∀ n ∈ e.nodes, ∀ y ∈ n.mentions, y ∉ hidden

variable {hidden : List String}

/-- The parts avoid what the whole avoids. -/
theorem Avoids.part {ids : List Nat} {e c : Expr} (h : Avoids ids hidden e)
    (he : e.isLambda = false) (hc : c ∈ e.evaluatedChildren) : Avoids ids hidden c where
  ids x hx := h.ids x (Expr.mem_schedule_of_part hc he hx)
  names n hn := h.names n (Expr.mem_nodes_of_child (Expr.mem_children_of_evaluated hc) hn)

/-- With the same declarations, two resolvers are in step as long as they avoid what environments
and tables disagree on. -/
theorem Resolver.walksInStep_off (d : Declarations) {g g' : Env} {descend : Bool} (ids : List Nat)
    (hg : descend = true → Env.AgreeOff hidden g g') :
    WalksInStep ⟨d, g, descend⟩ ⟨d, g', descend⟩ Eq (fun _ => Env.AgreeOff hidden) Eq
      (fun _ => Avoids ids hidden) (TypeTable.AgreeOff ids) Eq where
  toInStep := by
    refine .of_decls ?_ ?_ ?_ hg (fun he hl hc => he.part hl hc) ?_
    · intro o site x env env' he h
      have hx := he.names _ (Expr.mem_nodes_self _) x (List.mem_singleton_self x)
      rw [Declarations.nameIn, Declarations.nameIn, h x hx]
    · intro o env env' x ref h y hy
      rw [NameMap.get?_set, NameMap.get?_set, h y hy]
    · intro o site kind elements generators env env' x he hx h
      obtain ⟨n, hn, hb⟩ := Expr.binds_of_assigned (List.mem_reverse.mp hx)
      rw [h x (he.names n hn x (Expr.binds_subset_mentions n hb))]
    · intro o site params defaults body _ he
      refine ⟨fun x hx => ?_, fun n hn => he.names n ?_⟩
      · exact he.ids (x.1, true) (List.mem_append_left _ (List.mem_map.mpr ⟨x, hx, rfl⟩))
      · exact Expr.mem_nodes_of_child (List.mem_append_right _ (List.mem_singleton_self body)) hn
  same := rfl
  names := rfl
  lookup _ := rfl
  hint h := by
    rw [h]
    exact .refl (fun _ => rfl) _
  isSome h := by rw [h]
  cls h := h
  keep ht h := by
    rw [h]
    intro id hid
    rw [getElem?_keep, getElem?_keep, ht id hid]
  read he ht := ht _ (he.ids _ (Expr.mem_schedule_self _))

end ContextLint.Typing
