import ContextLint.Proofs.Typing.Annotates
import ContextLint.Proofs.Typing.Judgement

/-!
# Types that can be derived

What types a name or an expression may have can be derived without following the order of the
program: a name may stand for whatever some binding of it gives it, and an expression has a type by
those of its parts. All types found while a module is typed can be derived in this way. In
particular the calls whose first argument is read as an annotation are calls of what may be the cast
function, so typing fails only for an annotation of the module or of such a call.
-/

namespace ContextLint.Typing

open Source Scope

variable {d : Declarations} {args : List Expr}

namespace Declarations

mutual

/-- The name may stand for something of the type: some binding in the module gives it the type. -/
inductive MayName (d : Declarations) (m : Module) : String → TypeRef → Prop
  | annotated {x value hint ref}
    (h : .bind x value (some hint) ∈ m.reports) (href : d.names.resolve hint = .ok (some ref)) :
    MayName d m x ref
  /-- A variable with a value. Types are known by the numbers of expressions. -/
  | assigned {x value n hint ref}
    (h : .bind x (some value) hint ∈ m.reports) (hn : n ∈ m.evaluatedNodes)
    (hid : n.id = value.id) (href : MayHave d m n ref) : MayName d m x ref
  | element {x value n ref} (h : .bindElement x value ∈ m.reports)
    (hn : n ∈ m.evaluatedNodes) (hid : n.id = value.id) (href : MayHave d m n ref) :
    MayName d m x ref
  | imported {stmt a x qualname ref} (h : .onImport stmt ∈ m.reports) (ha : a ∈ stmt.names)
    (hmeaning : importMeaning stmt.source a = some (x, qualname))
    (href : d.lookup? qualname = some ref) : MayName d m x ref
  | defined {x ref} (h : .define x ∈ m.reports)
    (href : d.lookup? (d.names.moduleName ++ "." ++ x) = some ref) : MayName d m x ref
  | parameter {head body p hint ref}
    (h : .function head body ∈ m.reports) (hp : p ∈ head.params.positional ++ head.params.kwOnly)
    (hhint : p.hint = some hint) (href : d.names.resolve hint = .ok (some ref)) :
    MayName d m p.name ref
  | receiver {cls members head body x rest ref} (hcls : .cls cls members ∈ m.reports)
    (h : .function head body ∈ m.reports) (hp : head.params.positional = ⟨x, none⟩ :: rest)
    (href : Resolver.receiverType? (d.names.moduleName ++ "." ++ cls.name) head.decorators =
      some ref) : MayName d m x ref
  | walrus {site x value ref}
    (h : .walrus site x value ∈ m.evaluatedNodes) (href : MayHave d m value ref) : MayName d m x ref

/-- The expression may have the type. -/
inductive MayHave (d : Declarations) (m : Module) : Expr → TypeRef → Prop
  | constant {site value} : MayHave d m (.constant site value) (builtin value.typeName)
  | bound {site x ref} (h : MayName d m x ref) : MayHave d m (.name site x) ref
  | free {site x ref} (h : d.nameType? x = some ref) : MayHave d m (.name site x) ref
  | attr {site value name owner ref}
    (hvalue : MayHave d m value owner) (h : d.attributeType? (some owner) name = some ref) :
    MayHave d m (.attr site value name) ref
  | call {site func args keywords f ref}
    (hfunc : MayHave d m func f) (h : d.callType (some f) args = .ok (some ref)) :
    MayHave d m (.call site func args keywords) ref
  | walrus {site x value ref} (h : MayHave d m value ref) : MayHave d m (.walrus site x value) ref
  /-- A conditional expression with branches of one type. -/
  | conditional {site test body orelse ref}
    (hbody : MayHave d m body ref) (horelse : MayHave d m orelse ref) :
    MayHave d m (.conditional site test body orelse) ref

end

/-- The expression is the first argument of a call of what may be the cast function. -/
def MayCast (d : Declarations) (m : Module) (e : Expr) : Prop :=
  ∃ site func args keywords ref, .call site func (e :: args) keywords ∈ m.evaluatedNodes ∧
    d.MayHave m func ref ∧ ref.kind = .func ∧ ref.qualname = castFunction

/-- Only calls of the cast function read an annotation. -/
theorem exists_of_callType_error {func : Option TypeRef} {err : AnnotationError}
    (h : d.callType func args = .error err) :
    ∃ ref e rest, func = some ref ∧ ref.kind = .func ∧ ref.qualname = castFunction ∧
      args = e :: rest ∧ d.names.resolve e = .error err := by
  unfold callType at h
  split at h
  · cases h
  · next ref =>
    split at h
    · next hkind =>
      split at h
      · next hcast =>
        cases args with
        | nil => cases h
        | cons e rest => exact ⟨ref, e, rest, rfl, hkind, hcast, rfl, h⟩
      · cases h
    · cases h
    · cases h
    · cases h

end Declarations

open Declarations

/-- Every name is bound to what it may stand for. -/
def Env.Derived (d : Declarations) (m : Module) (env : Env) : Prop :=
  ∀ x ref, env.get? x = some (some ref) → d.MayName m x ref

variable {x : String} {ref : Option TypeRef}

namespace Env.Derived

variable {d : Declarations} {m : Module} {env : Env}

private theorem set (h : Derived d m env) (href : ∀ t, ref = some t → d.MayName m x t) :
    Derived d m (env.set x ref) := by
  intro y t hy
  rw [NameMap.get?_set] at hy
  split at hy
  · next heq => exact heq ▸ href t (Option.some.inj hy)
  · exact h y t hy

private theorem forget (h : Derived d m env) (names : List String) :
    Derived d m (Resolver.forget names env) :=
  Resolver.forget_invariant (fun _ _ _ henv => henv.set nofun) h

end Env.Derived

/-- What has been found out about names and expressions can be derived. -/
structure Facts.Derived (d : Declarations) (m : Module) (s : Facts) : Prop where
  /-- Every name is bound to what it may stand for. -/
  env : Env.Derived d m s.env
  /-- Every number belongs to an expression that may have the recorded type. -/
  types : ∀ (id : Nat) ref, s.types[id]? = some ref →
    ∃ n ∈ m.evaluatedNodes, n.id = id ∧ d.MayHave m n ref

variable {env : Env}

namespace Facts.Derived

variable {d : Declarations} {m : Module} {s : Facts}

private theorem withEnv (h : s.Derived d m) (henv : Env.Derived d m env) :
    Facts.Derived d m { s with env } := ⟨henv, h.types⟩

private theorem assign (h : s.Derived d m) (href : ∀ t, ref = some t → d.MayName m x t) :
    (s.assign x ref).Derived d m :=
  h.withEnv (h.env.set href)

/-- Numbers may have belonged to other expressions before; the new ones are vouched for. -/
theorem keep (h : s.Derived d m) {xs : Results}
    (hxs : ∀ x ∈ xs, x.1 ∈ m.evaluatedNodes ∧ ∀ t, x.2 = some t → d.MayHave m x.1 t)
    (henv : Env.Derived d m env) : Facts.Derived d m ⟨Typing.keep s.types xs, env⟩ := by
  refine ⟨henv, fun id ref hid => ?_⟩
  rw [getElem?_keep, Option.or_eq_some_iff] at hid
  rcases hid with hid | ⟨-, hid⟩
  · obtain ⟨n, hn, hmem⟩ := exists_of_latest hid
    exact ⟨n, (hxs _ hmem).1, hn, (hxs _ hmem).2 ref rfl⟩
  · exact h.types id ref hid

end Facts.Derived

variable {e : Expr} {B : Expr → Prop} {head : FunctionHead} {body : List Step}

namespace Resolver

variable {r : Resolver} {m : Module} {full : Bool}

private theorem mem_of_evaluated (he : e.evaluatedNodes ⊆ m.evaluatedNodes) :
    e ∈ m.evaluatedNodes := he (Expr.evaluatedNodes_eq e ▸ List.mem_cons_self)

/-- Typing a call resolves at most its first argument, if it may be a call of the cast function. -/
private theorem callType_reads {site : Site} {func : Expr} {keywords : List Expr}
    (hmem : .call site func args keywords ∈ m.evaluatedNodes)
    (href : ∀ t, ref = some t → d.MayHave m func t) :
    Reads d.names full (fun _ => False) (d.MayCast m) (d.callType ref args)
      fun result => ∀ t, result = some t → d.MayHave m (.call site func args keywords) t where
  fails err h := by
    obtain ⟨f, e, rest, hf, hkind, hcast, rfl, hfails⟩ := exists_of_callType_error h
    exact ⟨e, .inr ⟨site, func, rest, keywords, f, hmem, href f hf, hkind, hcast⟩, hfails⟩
  resolved _ _ _ _ := False.elim
  result := by
    rintro _ hresult t rfl
    cases ref with
    | none => cases hresult
    | some f => exact .call (href f rfl) hresult

/-- Typing an expression finds what can be derived and resolves nothing but arguments of calls of
what may be the cast function. -/
theorem judges_derived (hg : Env.Derived r.decls m r.globals) :
    r.Judges (fun _ => Reads r.decls.names full (fun _ => False) (r.decls.MayCast m))
      (Expr.evaluatedNodes · ⊆ m.evaluatedNodes) (Env.Derived r.decls m)
      fun e ref => ∀ t, ref = some t → r.decls.MayHave m e t where
  ok := .ok
  bind := .after
  part he hc n hn := by
    rw [Expr.evaluatedNodes_eq] at he
    exact he (List.mem_cons_of_mem _ (List.mem_flatMap.mpr ⟨_, hc, hn⟩))
  constant := by
    rintro _ _ _ ⟨⟩
    exact .constant
  name {site x env} henv t ht := by
    cases hget : env.get? x with
    | none =>
      rw [Declarations.nameIn, hget] at ht
      exact .free ht
    | some ref =>
      rw [Declarations.nameIn, hget] at ht
      exact .bound (henv x t (hget.trans (congrArg some ht)))
  attr {_ _ _ ref} href t ht := by
    cases ref with
    | none => cases ht
    | some owner => exact .attr (href owner rfl) ht
  call he href := callType_reads (mem_of_evaluated he) href
  walrus _ href t ht := .walrus (href t ht)
  conditional {_ _ _ _ a b} hbody horelse t ht := by
    split at ht
    · next heq => exact .conditional (hbody t ht) (horelse t (heq ▸ ht))
    · cases ht
  other _ := nofun
  set he href henv := henv.set fun t ht => .walrus (mem_of_evaluated he) (href t ht)
  hide _ _ henv := henv.set nofun
  adopt _ _ henv hinner := henv.set fun t ht => hinner _ t (Option.join_eq_some_iff.mp ht)
  globals _ := hg

/-- A class whose body is walked is one of the module. -/
def Frame.Reported (d : Declarations) (m : Module) (frame : Frame) : Prop :=
  ∀ owner, frame = .cls owner →
    ∃ cls members, .cls cls members ∈ m.reports ∧ owner = d.names.moduleName ++ "." ++ cls.name

private theorem annotateParams_reads {params : List Param}
    (hparams : ∀ p ∈ params, ∀ hint ref, p.hint = some hint →
      r.decls.names.resolve hint = .ok (some ref) → r.decls.MayName m p.name ref)
    (henv : Env.Derived r.decls m env) :
    Reads r.decls.names full (fun e => ∃ p ∈ params, p.hint = some e) B
      (r.annotateParams params env) (Env.Derived r.decls m) := by
  induction params generalizing env with
  | nil => exact (Reads.ok henv).congr (by simp)
  | cons p rest ih =>
    rw [List.forall_mem_cons] at hparams
    refine Reads.congr ((Reads.resolve? p.hint).bind fun ref href => ?_)
      fun e => List.exists_mem_cons_iff ..
    split
    · next t =>
      refine ih hparams.2 (henv.set ?_)
      rintro _ ⟨⟩
      cases hhint : p.hint with
      | none =>
        rw [hhint] at href
        cases href
      | some hint =>
        rw [hhint] at href
        exact hparams.1 hint t hhint href
    · exact ih hparams.2 henv

private theorem bindReceiver_derived {frame : Frame} (hframe : Frame.Reported d m frame)
    (hfun : .function head body ∈ m.reports) (henv : Env.Derived d m env) :
    Env.Derived d m (bindReceiver frame head env) := by
  unfold bindReceiver
  split
  · next owner x rest hpos =>
    obtain ⟨cls, members, hcls, rfl⟩ := hframe owner rfl
    split
    · next ref href =>
      refine henv.set ?_
      rintro _ ⟨⟩
      exact .receiver hcls hfun hpos href
    · exact henv
  · exact henv

/-- The body of a function starts with what can be derived, and the annotations of its parameters
are resolved before it. -/
private theorem bodyEnv_reads (hg : Env.Derived r.decls m r.globals)
    (hfun : .function head body ∈ m.reports) {s : Progress} (hs : s.toFacts.Derived r.decls m)
    (hframe : Frame.Reported r.decls m s.frame) :
    Reads r.decls.names full (· ∈ (Step.function head body).hints) B (r.bodyEnv head s)
      (Env.Derived r.decls m) := by
  -- Parameters are forgotten first, so those without a meaningful annotation have no type.
  have hstart : Env.Derived r.decls m (r.startEnv ⟨s.frame, none⟩ s.env) :=
    startEnv_invariant hg (by simp) hs.env
  refine ((annotateParams_reads (fun p hp hint ref hhint href => ?_)
    (hstart.forget head.params.names)).bind fun env henv => .ok ?_).congr fun e => ?_
  · exact .parameter hfun hp hhint href
  · exact bindReceiver_derived hframe hfun henv
  · simp only [Step.hints, List.mem_filterMap, or_false]

private theorem bindImports_derived {stmt : Import} (himport : .onImport stmt ∈ m.reports)
    {names : List ImportAlias} (hnames : names ⊆ stmt.names) (henv : Env.Derived r.decls m env) :
    Env.Derived r.decls m (r.bindImports stmt.source names env) := by
  induction names generalizing env with
  | nil => exact henv
  | cons a rest ih =>
    rw [List.cons_subset] at hnames
    refine ih hnames.2 ?_
    split
    · exact henv
    · split
      · next x qualname hmeaning =>
        exact henv.set fun t ht => .imported himport hnames.1 hmeaning ht
      · exact henv.set nofun

/-- The type given to an assigned name can be derived, and the annotation is resolved for it. -/
private theorem assignedType_reads {value hint : Option Expr}
    (hbind : .bind x value hint ∈ m.reports) {s : Facts} (hs : s.Derived r.decls m) :
    Reads r.decls.names full (hint = some ·) B (r.assignedType s value hint)
      fun ref => ∀ t, ref = some t → r.decls.MayName m x t := by
  refine ((Reads.resolve? hint).bind fun declared hdeclared => .ok ?_).congr (by simp)
  intro t ht
  cases declared with
  | some t' =>
    obtain rfl := Option.some.inj ht
    cases hint with
    | none => cases hdeclared
    | some e => exact .annotated hbind hdeclared
  | none =>
    obtain ⟨v, rfl, hv⟩ := Option.bind_eq_some_iff.mp ht
    obtain ⟨n, hn, hid, href⟩ := hs.types _ _ hv
    exact .assigned hbind hn hid href

mutual

private theorem perform_reads (hg : Env.Derived r.decls m r.globals) (step : Step)
    (hstep : step.within ⊆ m.reports) {s : Progress} (hs : s.toFacts.Derived r.decls m)
    (hframe : Frame.Reported r.decls m s.frame) :
    Reads r.decls.names r.descend (fun e => ∃ st ∈ step.within, e ∈ st.hints) (r.decls.MayCast m)
      (perform r.hooks step s) fun s' => s'.toFacts.Derived r.decls m ∧ s'.frame = s.frame := by
  cases step with
  | visit e =>
    have hvisit : Step.visit e ∈ m.reports := hstep List.mem_cons_self
    have he : e.evaluatedNodes ⊆ m.evaluatedNodes := fun n hn =>
      List.mem_flatMap.mpr ⟨e, Module.visited_of_report hvisit, hn⟩
    rw [perform_visit]
    refine Reads.congr (((judges_derived hg).find e he (by simp) hs.env).after fun x hx => .ok ?_)
      (by simp [Step.within, Step.hints])
    exact ⟨hs.keep (fun y hy => (hx.2.results y hy).imp_left mem_of_evaluated) hx.2.env, rfl⟩
  | bind x value hint =>
    refine Reads.congr ((assignedType_reads (hstep List.mem_cons_self) hs).bind fun ref href =>
      .ok ?_) (by simp [Step.within, Step.hints])
    exact ⟨hs.assign href, rfl⟩
  | unbind x =>
    refine (Reads.ok ?_).congr (by simp [Step.within, Step.hints])
    exact ⟨hs.assign nofun, rfl⟩
  | bindElement x value =>
    refine (Reads.ok ?_).congr (by simp [Step.within, Step.hints])
    refine ⟨hs.assign fun t ht => ?_, rfl⟩
    obtain ⟨n, hn, hid, href⟩ := hs.types _ _ ht
    exact .element (hstep List.mem_cons_self) hn hid href
  | onImport stmt =>
    refine (Reads.ok ?_).congr (by simp [Step.within, Step.hints])
    exact ⟨hs.withEnv (bindImports_derived (hstep List.mem_cons_self) (List.Subset.refl _) hs.env),
      rfl⟩
  | define x =>
    refine (Reads.ok ?_).congr (by simp [Step.within, Step.hints])
    exact ⟨hs.assign fun t ht => .defined (hstep List.mem_cons_self) ht, rfl⟩
  | function head body =>
    simp only [Step.within, List.cons_subset] at hstep
    rcases Bool.eq_false_or_eq_true r.descend with hr | hr
    · rw [perform_function hr]
      refine Reads.congr ((bodyEnv_reads hg hstep.1 hs hframe).bind fun env henv =>
        Reads.bind (performAll_reads hg body hstep.2 ?_ ?_) fun s' hs' => .ok ?_) fun e => ?_
      · exact hs.withEnv henv
      · exact nofun
      · exact ⟨⟨hs.env, hs'.1.types⟩, rfl⟩
      · simp [Step.within]
    · rw [hr, perform_function_of_not_descend hr]
      exact .skip ⟨hs, rfl⟩
  | cls head body =>
    simp only [Step.within, List.cons_subset] at hstep
    rcases Bool.eq_false_or_eq_true r.descend with hr | hr
    · rw [perform_cls hr]
      refine Reads.congr (Reads.bind (performAll_reads hg body hstep.2 ?_ ?_) fun s' hs' => .ok ?_)
        fun e => ?_
      · exact hs
      · rintro _ ⟨⟩
        exact ⟨head, body, hstep.1, rfl⟩
      · exact ⟨⟨hs.env, hs'.1.types⟩, rfl⟩
      · simp [Step.within, Step.hints]
    · rw [hr, perform_cls_of_not_descend hr]
      exact .skip ⟨hs, rfl⟩

/-- Typing a scope finds what can be derived. It resolves the annotations of its steps, if it goes
into functions and classes, and arguments of calls of what may be the cast function. -/
theorem performAll_reads (hg : Env.Derived r.decls m r.globals) (steps : List Step)
    (hsteps : withinAll steps ⊆ m.reports) {s : Progress} (hs : s.toFacts.Derived r.decls m)
    (hframe : Frame.Reported r.decls m s.frame) :
    Reads r.decls.names r.descend (fun e => ∃ st ∈ withinAll steps, e ∈ st.hints)
      (r.decls.MayCast m) (performAll r.hooks steps s)
      fun s' => s'.toFacts.Derived r.decls m ∧ s'.frame = s.frame := by
  cases steps with
  | nil => exact (Reads.ok ⟨hs, rfl⟩).congr (by simp [withinAll])
  | cons step rest =>
    simp only [withinAll, List.append_subset] at hsteps
    refine ((perform_reads hg step hsteps.1 hs hframe).bind fun s₁ h₁ =>
      (performAll_reads hg rest hsteps.2 h₁.1 (h₁.2 ▸ hframe)).mono (fun _ => id)
        (fun _ => id) fun s₂ h₂ => ⟨h₂.1, h₂.2.trans h₁.2⟩).congr fun e => ?_
    simp only [withinAll, List.mem_append, or_and_right, exists_or]

end

/-- Typing a module from facts that can be derived. -/
private theorem walkModule_reads (hg : Env.Derived r.decls m r.globals) {types : TypeTable}
    (htypes : Facts.Derived r.decls m { types, env := [] }) :
    Reads r.decls.names r.descend (Hinted m) (r.decls.MayCast m) (r.walkModule m types)
      fun s => s.toFacts.Derived r.decls m := by
  have hframe : Frame.Reported r.decls m .module := nofun
  unfold walkModule
  rw [walkBody_eq]
  refine (performAll_reads hg (bodySteps m.body) (fun st h => Module.mem_reports.mpr h) htypes
    hframe).mono (fun e => ?_) (fun e => ?_) fun s hs => hs.1
  · simp [Hinted, Module.mem_reports]
  · simp [Hinted, Module.mem_reports]

end Resolver

namespace TypeInfo

variable {m : Module} {moduleName : String} {library : Library}

/-- The annotations of a module are those that a walk resolves and those that are declared. -/
private theorem annotates_iff :
    m.Annotates e ↔ ((∃ head members, .classDef head members ∈ m.breadthFirst ∧
        ClassAnnotates members e) ∨
      ∃ head body, .functionDef head body ∈ m.body ∧ head.returns = some e) ∨ Hinted m e := by
  rw [hinted_iff]
  constructor
  · rintro (h | ⟨h, hp, hhint⟩ | ⟨h, hhint⟩ | ⟨h, hhint⟩)
    · exact .inr (.inl ⟨_, _, _, h⟩)
    · exact .inr (.inr ⟨_, _, h, _, hp, hhint⟩)
    · exact .inl (.inr ⟨_, _, h, hhint⟩)
    · exact .inl (.inl ⟨_, _, h, hhint⟩)
  · rintro ((⟨_, _, h, hhint⟩ | ⟨_, _, h, hhint⟩) | ⟨_, _, _, h⟩ | ⟨_, _, h, _, hp, hhint⟩)
    · exact .member h hhint
    · exact .result h hhint
    · exact .variable h
    · exact .parameter h hp hhint

/-- Every number with a type belongs to an expression that may have the type. -/
def Derived (m : Module) (info : TypeInfo) : Prop :=
  ∀ (id : Nat) ref, info.types[id]? = some ref →
    ∃ n ∈ m.evaluatedNodes, n.id = id ∧ info.decls.MayHave m n ref

/-- The two walks that find the types of a module, given its declarations. -/
private def walks (d : Declarations) (m : Module) : Except AnnotationError TypeInfo := do
  let top ← Resolver.walkModule ⟨d, [], false⟩ m ∅
  let full ← Resolver.walkModule ⟨d, top.env, true⟩ m top.types
  return { decls := d, types := full.types }

/-- The first walk through a module, which passes over functions and classes, may fail with the
error of any annotation; the second resolves them all. -/
private theorem walks_read (d : Declarations) :
    Reads d.names true (Hinted m) (fun e => Hinted m e ∨ d.MayCast m e) (walks d m)
      (Derived m) := by
  have hempty : Env.Derived d m [] := nofun
  have hstart : Facts.Derived d m { types := ∅, env := [] } := ⟨hempty, by simp⟩
  -- What the first walk passes over, the second resolves: nothing can be claimed of the first but
  -- whom it may blame.
  have htop := Resolver.walkModule_reads (r := ⟨d, [], false⟩) hempty hstart
  refine (htop.blame (fun _ he => he) true).after fun top htop => ?_
  have hfull := Resolver.walkModule_reads (r := ⟨d, top.env, true⟩) htop.env (htop.withEnv hempty)
  refine Reads.congr (Reads.bind (hfull.mono (fun _ => id) (fun _ he => he.imp_right .inr)
    fun _ h => h) fun full hfull => .ok ?_) (by simp)
  exact hfull.types

/-- Typing a module resolves its annotations. It fails with the error of one of them or with that of
the first argument of a call of what may be the cast function. All types that it finds can be
derived. -/
theorem ofModule_reads (m : Module) (moduleName : String) (library : Library) :
    Reads (NameContext.ofModule m moduleName) true m.Annotates
      (fun e => ∃ d, Declarations.ofModule m moduleName library = .ok d ∧ d.MayCast m e)
      (ofModule m moduleName library) (Derived m) := by
  have hwalks (d : Declarations) (hd : Declarations.ofModule m moduleName library = .ok d) :
      Reads (NameContext.ofModule m moduleName) true (Hinted m)
        (fun e => Hinted m e ∨ ∃ d, Declarations.ofModule m moduleName library = .ok d ∧
          d.MayCast m e) (walks d m) (Derived m) := by
    rw [← Declarations.names_of_ofModule hd]
    exact (walks_read d).mono (fun _ => id)
      (fun e => Or.imp_right (Or.imp_right fun hcast => ⟨d, hd, hcast⟩)) fun _ h => h
  refine Reads.mono ((Declarations.ofModule_reads m moduleName library).bind hwalks)
    (fun e => annotates_iff.mp) (fun e he => ?_) fun _ h => h
  rcases he with he | he | he
  · exact .inl (annotates_iff.mpr he)
  · exact .inl (annotates_iff.mpr (.inr he))
  · exact .inr he

end TypeInfo

end ContextLint.Typing
