import ContextLint.Proofs.Fluent.Injection
import ContextLint.Proofs.Rule.InStep
import ContextLint.Proofs.Typing.InStep

/-!
# Analyses that see the same

An analysis asks two questions about the type of an expression: which classes the expression belongs
to, and whether it counts as a context. Analyses with the same answers for all that some acts look
at know the same of names behind them and, as far as directives agree, report the same calls.
-/

namespace ContextLint.Rule

open Source Scope Fluent Typing Report

variable {e : Expr} {m m' : Module}

namespace Analysis

/-- Two analyses have the same answers for an expression. -/
structure SeesAlike (a b : Analysis) (e : Expr) : Prop where
  hasType : ∀ qualname, a.info.hasType e qualname = b.info.hasType e qualname
  context : a.capability.classify (a.info.typeOf? e) = b.capability.classify (b.info.typeOf? e)

variable {a b : Analysis}

/-- What stands in the receiver of a method call stands in the call. -/
private theorem mem_nodes_of_receiver {n value : Expr} (hn : n ∈ value.nodes) (site site' : Site)
    (name : String) (args keywords : List Expr) :
    n ∈ (Expr.call site (.attr site' value name) args keywords).nodes := by
  simp [Expr.nodes, hn]

section

variable (hs : a.settings = b.settings)

include hs

/-- A link injects a context for both analyses or for none, on receivers that are seen alike. -/
theorem injects_on_congr {l : Link} (hargs : ∀ e ∈ l.args ++ l.keywords, a.SeesAlike b e)
    {base base' : Expr}
    (hbase : ∀ qualname, a.info.hasType base qualname = b.info.hasType base' qualname)
    (role : Role) : a.inquiry.injects role (l.on base) = b.inquiry.injects role (l.on base') := by
  have hmethod : a.inquiry.method = b.inquiry.method := congrArg Settings.injectionMethod hs
  have hrole : a.inquiry.receiverType role = b.inquiry.receiverType role := by
    cases role with
    | builder => exact congrArg Settings.builderType hs
    | producer => exact congrArg Settings.producerConfigType hs
  rw [Inquiry.injects_on, Inquiry.injects_on, hmethod, hrole, l.firstArgument?_on base base']
  cases harg : (l.on base').firstArgument? with
  | none => rfl
  | some arg =>
    have hsees := hargs arg (Link.mem_of_firstArgument? harg)
    rw [Option.any_some, Option.any_some]
    exact congrArg _ (congrArg₂ _ hsees.context (hbase _))

/-- A call injects a context for both analyses or for none. -/
theorem injects_congr (h : ∀ n ∈ e.nodes, a.SeesAlike b n) (role : Role) :
    a.inquiry.injects role e = b.inquiry.injects role e := by
  cases e with
  | call site func args keywords =>
    cases func with
    | attr site' value name =>
      have hvalue :=
        h value (mem_nodes_of_receiver value.mem_nodes_self site site' name args keywords)
      refine injects_on_congr (l := ⟨site, site', name, args, keywords⟩) hs ?_ hvalue.hasType role
      intro e he
      refine h e (Expr.mem_nodes_of_child ?_ e.mem_nodes_self)
      simpa [Expr.children] using Or.inr (List.mem_append.mp he)
    | _ => rfl
  | _ => rfl

/-- A chain carries a context for both analyses or for none. -/
theorem carries_congr (role : Role) (h : ∀ n ∈ e.nodes, a.SeesAlike b n) :
    a.inquiry.carries role e = b.inquiry.carries role e := by
  fun_induction Inquiry.carries a.inquiry role e with
  | case1 site site' value name args keywords ih =>
    rw [Inquiry.carries, injects_congr hs h role]
    rw [ih fun n hn => h n (mem_nodes_of_receiver hn site site' name args keywords)]
  | case2 e he =>
    rw [Inquiry.carries]
    exact he

section

variable (h : ∀ n ∈ e.nodes, a.SeesAlike b n) (t : Tracker)

include h t

private theorem producerOf_congr :
    a.producerOf t e = b.producerOf t e := by
  cases e with
  | call site func args keywords =>
    cases func with
    | attr site' value name =>
      have hvalue : ∀ n ∈ value.nodes, a.SeesAlike b n := fun n hn =>
        h n (mem_nodes_of_receiver hn site site' name args keywords)
      rw [producerOf, producerOf, carries_congr hs .producer hvalue,
        (hvalue value value.mem_nodes_self).hasType, hs]
    | _ => rfl
  | _ => rfl

private theorem builderOf_congr :
    a.builderOf t e = b.builderOf t e := by
  have hself := (h e e.mem_nodes_self).hasType
  rw [builderOf, builderOf, injected, injected, carries_congr hs .builder h,
    carries_congr hs .producer h, hself, hself, hs]

/-- Both analyses record the same of a name. -/
theorem tracked_congr (name : String) :
    a.tracked t name e = b.tracked t name e := by
  cases ht : t.records with
  | false => rw [a.tracked_of_not_records ht, b.tracked_of_not_records ht]
  | true =>
    rw [a.tracked_eq ht, b.tracked_eq ht, producerOf_congr hs h, builderOf_congr hs h]

end

/-- Both analyses report a call or none does, as far as directives agree. -/
theorem flagged_congr {call : Expr} (h : ∀ n ∈ call.nodes, a.SeesAlike b n)
    (hsup : a.suppresses call = b.suppresses call) (t : Tracker) :
    a.flagged call t = b.flagged call t := by
  cases hr : call.receiver? with
  | none => rw [flagged_of_receiver?_eq_none hr, flagged_of_receiver?_eq_none hr]
  | some receiver =>
    have hreceiver : ∀ n ∈ receiver.nodes, a.SeesAlike b n := by
      intro n hn
      unfold Expr.receiver? at hr
      split at hr
      · next site site' value name args keywords =>
        obtain rfl := Option.some.inj hr
        exact h n (mem_nodes_of_receiver hn site site' name args keywords)
      · cases hr
    have hemits : a.emits call = b.emits call := by
      unfold emits
      split
      · next site site' value name args keywords =>
        obtain rfl := Option.some.inj hr
        rw [(hreceiver _ (Expr.mem_nodes_self _)).hasType, hs]
      · rfl
    rw [a.flagged_eq hr, b.flagged_eq hr, hemits, carries_congr hs .builder hreceiver, hs, hsup]

end

mutual

private theorem follow_congr (hs : a.settings = b.settings) (act : Act)
    (h : ∀ e ∈ act.subjects, ∀ n ∈ e.nodes, a.SeesAlike b n) (t : Tracker) :
    (a.follow act t).1 = (b.follow act t).1 ∧
      ((∀ c ∈ act.subjects, a.suppresses c = b.suppresses c) →
        (a.follow act t).2 = (b.follow act t).2) := by
  cases act with
  | judge call =>
    have hcall := h call (List.mem_singleton_self call)
    refine ⟨rfl, fun hsup => ?_⟩
    rw [follow, follow, flagged_congr hs hcall (hsup call (List.mem_singleton_self call))]
  | assign name value =>
    have hvalue := h value (List.mem_singleton_self value)
    exact ⟨tracked_congr hs hvalue t name, fun _ => rfl⟩
  | forget names => exact ⟨rfl, fun _ => rfl⟩
  | function params body | cls body =>
    rw [follow, follow, Act.subjects]
    rw [Act.subjects] at h
    exact ⟨rfl, (followAll_congr hs body h _).2⟩
  | comprehension names body =>
    rw [Act.subjects] at h
    obtain ⟨hinner, hreports⟩ := followAll_congr hs body h t.clause
    rw [follow, follow, hinner, Act.subjects]
    exact ⟨rfl, hreports⟩

/-- Behind acts on expressions that two analyses see alike they know the same of names. They report
the same calls if directives agree. -/
theorem followAll_congr (hs : a.settings = b.settings) (acts : List Act)
    (h : ∀ e ∈ subjectsAll acts, ∀ n ∈ e.nodes, a.SeesAlike b n) (t : Tracker) :
    (a.followAll acts t).1 = (b.followAll acts t).1 ∧
      ((∀ c ∈ subjectsAll acts, a.suppresses c = b.suppresses c) →
        (a.followAll acts t).2 = (b.followAll acts t).2) := by
  cases acts with
  | nil => exact ⟨rfl, fun _ => rfl⟩
  | cons act rest =>
    rw [subjectsAll, List.forall_mem_append] at h
    obtain ⟨hact, hreports⟩ := follow_congr hs act h.1 t
    rw [followAll, followAll, hact, subjectsAll]
    obtain ⟨hrest, hreports'⟩ := followAll_congr hs rest h.2 (b.follow act t).1
    refine ⟨hrest, fun hsup => ?_⟩
    rw [List.forall_mem_append] at hsup
    rw [hreports hsup.1, hreports' hsup.2]

end

/-- What an analysis reports of a module depends on the acts of a visit to it. -/
theorem reported_of_acts (a : Analysis) (h : moduleActs m = moduleActs m') :
    a.reported m = a.reported m' := by
  simp only [reported, visitModule_eq_runAll, h]

/-- The same analysis with other types. -/
def withInfo (a : Analysis) (info : TypeInfo) : Analysis := { a with info }

/-- Types that are seen alike lead to the same diagnostics. -/
theorem check_congr {a : Analysis} {info info' : TypeInfo} (hm : m.Numbered)
    (hacts : moduleActs m' = moduleActs m)
    (hsees : ∀ e, (a.withInfo info).SeesAlike (a.withInfo info') e) :
    (a.withInfo info).check m = (a.withInfo info').check m' := by
  have hfollow := followAll_congr (a := a.withInfo info) (b := a.withInfo info') rfl (moduleActs m)
    (fun _ _ n _ => hsees n) .idle
  have hsup : ∀ c, (a.withInfo info).suppresses c = (a.withInfo info').suppresses c := by
    intro c
    cases c <;> rfl
  rw [check_eq_reported, check_eq_reported, reported_of_acts _ hacts, reported_eq_follow _ hm,
    reported_eq_follow _ hm, hfollow.2 fun c _ => hsup c]
  rfl

/-- Analyses with the same settings and declarations see an expression of the same type alike. -/
theorem seesAlike_of_eq (hs : a.settings = b.settings) (hd : a.info.decls = b.info.decls)
    (htype : a.info.typeOf? e = b.info.typeOf? e) : a.SeesAlike b e := by
  constructor
  · intro qualname
    rw [TypeInfo.hasType, TypeInfo.hasType, TypeInfo.table, TypeInfo.table, hd, htype]
  · rw [capability, capability, TypeInfo.table, TypeInfo.table, hs, hd, htype]

/-- What the rule knows of a text before its types are found. -/
def untyped (source : List Char) (filename : String) (settings : Settings) : Analysis where
  settings := settings
  info := default
  comments := Comment.ofSource source
  lines := (Text.splitLines source).toArray
  filename := filename

end Analysis

/-- Apart from the types, diagnostics depend on the text and the settings alone. -/
theorem checkModule_eq (m : Module) (source : List Char) (filename moduleName : String)
    (settings : Settings) (library : Library) :
    checkModule m source filename moduleName settings library =
      (fun info => ((Analysis.untyped source filename settings).withInfo info).check m) <$>
        TypeInfo.ofModule m moduleName library := by
  unfold checkModule Analysis.ofModule
  cases TypeInfo.ofModule m moduleName library <;> rfl

end ContextLint.Rule
