import ContextLint.Proofs.Typing.Annotates
import ContextLint.Proofs.Typing.Nullable

/-!
# Optional annotations

Making an annotation optional adds null to the type that it resolves to, and makes nothing else of
an annotation that resolves to nothing or fails. Whichever annotations of a module are made
optional, its declarations and the types of its expressions stay the same up to null.
-/

namespace ContextLint.Typing

open Source Scope

/-- An annotation, or the same annotation made optional in one of the spellings of that form. The
elements of a tuple would be the arguments of the form, so a tuple cannot be made optional. -/
inductive MayAddNull (c : NameContext) (e : Expr) : Expr → Prop
  | same : MayAddNull c e e
  | optional (site : Site) {value} (hvalue : c.form? value = some .optional)
      (he : ∀ site args, e ≠ .sequence site .tuple args) : MayAddNull c e (.subscript site value e)

/-- The optional form goes by its own name, whatever the module means by that. -/
theorem NameContext.form?_optional (c : NameContext) (site : Site) :
    c.form? (.name site "Optional") = some .optional := by
  have hspells : ∀ qualified, spells optionalNames "Optional" qualified = true := fun _ => rfl
  simp only [form?, dottedName?, Option.bind_some, hspells, if_true]

/-- An annotation made optional resolves to the same type with null, or fails alike. -/
theorem NameContext.resolve_optional {c : NameContext} {e value : Expr} (site : Site)
    (hvalue : c.form? value = some .optional) (he : ∀ site args, e ≠ .sequence site .tuple args) :
    c.resolve (.subscript site value e) = Option.map TypeRef.asNullable <$> c.resolve e := by
  have hargs : subscriptArguments e = [e] := by
    unfold subscriptArguments
    split
    · exact (he _ _ rfl).elim
    · rfl
  rw [resolve, resolveWith_subscript, hvalue, hargs]
  rfl

private theorem MayAddNull.resolve {c : NameContext} {e e' : Expr} (h : MayAddNull c e e') :
    Follows False UpToNull (c.resolve e) (c.resolve e') := by
  cases h with
  | same => exact .refl .refl _
  | optional site hvalue he =>
    rw [NameContext.resolve_optional site hvalue he]
    cases c.resolve e with
    | error err => exact .inr rfl
    | ok ref =>
      cases ref with
      | none => exact UpToNull.refl none
      | some r => exact UpToNull.some ⟨rfl, rfl⟩

private theorem UpToNull.declare {a b : Option TypeRef} {m m' : NameMap TypeRef}
    (hm : NameMap.Alike TypeRef.Similar m m') (name : String) (hab : UpToNull a b) :
    NameMap.Alike TypeRef.Similar (declare m name a) (declare m' name b) := by
  obtain ⟨rfl, rfl⟩ | ⟨r, r', rfl, rfl, hrel⟩ := hab.cases_of
  · exact hm
  · exact hm.set name hrel

section

variable {c : NameContext} {f : Expr → Expr}
  (hf : ∀ e, Follows False UpToNull (c.resolve e) (c.resolve (f e)))

include hf

private theorem resolve?_mapHints (hint : Option Expr) :
    Follows False UpToNull (c.resolve? hint) (c.resolve? (hint.map f)) := by
  cases hint with
  | none => exact .ok (.refl none)
  | some e => exact hf e

private theorem selfAttributes_mapHints (self : String) (stmts : List Stmt)
    {found found' : NameMap TypeRef} (hfound : NameMap.Alike TypeRef.Similar found found') :
    Follows False (NameMap.Alike TypeRef.Similar) (selfAttributes c self stmts found)
      (selfAttributes c self (stmts.map (Stmt.mapHints f)) found') := by
  fun_induction selfAttributes c self stmts found generalizing found' with
  | case1 found => exact .ok hfound
  | case2 site site' attr hint value rest found ih =>
    rw [List.map_cons, Stmt.mapHints, selfAttributes, if_pos rfl]
    exact (hf hint).bind fun a b hab => ih a (hab.declare hfound attr)
  | case3 site site' id attr hint value rest found hself ih =>
    rw [List.map_cons, Stmt.mapHints, selfAttributes, if_neg hself]
    exact ih hfound
  | case4 stmt rest found hstmt ih =>
    rw [List.map_cons, selfAttributes]
    · exact ih hfound
    · intro site site' id attr hint value heq
      obtain ⟨hint', rfl, -⟩ := Stmt.mapHints_eq_annAssign heq
      exact hstmt _ _ _ _ _ _ rfl

private theorem methodAttributes_mapHints (head : FunctionHead) (body : List Stmt) :
    Follows False (NameMap.Alike TypeRef.Similar) (methodAttributes c head body)
      (methodAttributes c (head.mapHints f) (mapHintsOf f body)) := by
  have hbody := Stmt.breadthFirst_mapHints (f := f) (.functionDef head body)
  rw [Stmt.mapHints] at hbody
  have hregular : (head.mapHints f).params.regular = head.params.regular.map (Param.mapHint f) := rfl
  unfold methodAttributes
  rw [hregular, hbody]
  cases head.params.regular with
  | nil => exact .ok .nil
  | cons self rest => exact selfAttributes_mapHints hf self.name _ .nil

private theorem classMembers_mapHints (stmts : List Stmt)
    {info info' : ClassInfo} (hinfo : info.UpToNull info') :
    Follows False ClassInfo.UpToNull (classMembers c stmts info)
      (classMembers c (stmts.map (Stmt.mapHints f)) info') := by
  fun_induction classMembers c stmts info generalizing info' with
  | case1 info => exact .ok hinfo
  | case2 head body rest info ih =>
    rw [List.map_cons, Stmt.mapHints, classMembers]
    refine (resolve?_mapHints hf head.returns).bind fun result result' hresult => ?_
    refine (methodAttributes_mapHints hf head body).bind fun attributes attributes' hattributes => ?_
    refine ih result attributes ⟨hinfo.qualname, hinfo.bases, ?_, ?_, ?_⟩
    · exact congrArg (· ++ [head.name]) hinfo.methods
    · exact hresult.declare hinfo.returns head.name
    · exact hinfo.attributes.update hattributes
  | case3 site id hint value rest info ih =>
    rw [List.map_cons, Stmt.mapHints, classMembers]
    refine (hf hint).bind fun type type' htype => ih type ?_
    exact ⟨hinfo.qualname, hinfo.bases, hinfo.methods, hinfo.returns,
      htype.declare hinfo.attributes id⟩
  | case4 stmt rest info hmethod hfield ih =>
    rw [List.map_cons, classMembers]
    · exact ih hinfo
    · intro head body heq
      obtain ⟨head', body', rfl⟩ := Stmt.mapHints_eq_functionDef heq
      exact hmethod _ _ rfl
    · intro site id hint value heq
      obtain ⟨hint', rfl, -⟩ := Stmt.mapHints_eq_annAssign heq
      exact hfield _ _ _ _ rfl

private theorem collectClasses_mapHints (stmts : List Stmt)
    {found found' : NameMap ClassInfo} (hfound : NameMap.Alike ClassInfo.UpToNull found found') :
    Follows False (NameMap.Alike ClassInfo.UpToNull) (collectClasses c stmts found)
      (collectClasses c (stmts.map (Stmt.mapHints f)) found') := by
  fun_induction collectClasses c stmts found generalizing found' with
  | case1 found => exact .ok hfound
  | case2 head body rest found ih =>
    rw [List.map_cons, Stmt.mapHints, collectClasses, mapHintsOf_eq_map]
    refine (classMembers_mapHints hf body (.refl _)).bind fun info info' hinfo => ?_
    refine ih info ?_
    rw [← hinfo.qualname]
    exact hfound.set info.qualname hinfo
  | case3 stmt rest found hstmt ih =>
    rw [List.map_cons, collectClasses]
    · exact ih hfound
    · intro head body heq
      obtain ⟨head', body', rfl⟩ := Stmt.mapHints_eq_classDef heq
      exact hstmt _ _ rfl

private theorem collectFunctions_mapHints (stmts : List Stmt)
    {found found' : NameMap (Option TypeRef)} (hfound : NameMap.Alike UpToNull found found') :
    Follows False (NameMap.Alike UpToNull) (collectFunctions c stmts found)
      (collectFunctions c (stmts.map (Stmt.mapHints f)) found') := by
  fun_induction collectFunctions c stmts found generalizing found' with
  | case1 found => exact .ok hfound
  | case2 head body rest found ih =>
    rw [List.map_cons, Stmt.mapHints, collectFunctions]
    refine (resolve?_mapHints hf head.returns).bind fun result result' hresult => ?_
    exact ih result (hfound.set _ hresult)
  | case3 stmt rest found hstmt ih =>
    rw [List.map_cons, collectFunctions]
    · exact ih hfound
    · intro head body heq
      obtain ⟨head', body', rfl⟩ := Stmt.mapHints_eq_functionDef heq
      exact hstmt _ _ rfl

end

section

variable {m : Module} {f : Expr → Expr} {moduleName : String}

/-- Annotations do not change what names stand for in annotations. -/
theorem NameContext.ofModule_mapHints (m : Module) (f : Expr → Expr) (moduleName : String) :
    NameContext.ofModule (m.mapHints f) moduleName = NameContext.ofModule m moduleName := by
  have himports : ∀ stmts, importAliases (stmts.map (Stmt.mapHints f)) = importAliases stmts := by
    intro stmts
    unfold importAliases
    rw [List.foldl_map]
    congr 1
    funext found s
    cases s <;> rfl
  have hnames {name? : Stmt → Option String} (h : ∀ s, name? (s.mapHints f) = name? s)
      (stmts : List Stmt) :
      (stmts.map (Stmt.mapHints f)).filterMap name? = stmts.filterMap name? := by
    rw [List.filterMap_map]
    exact congrArg (List.filterMap · stmts) (funext h)
  have hclasses : ∀ stmts, classNames (stmts.map (Stmt.mapHints f)) = classNames stmts :=
    hnames fun s => by cases s <;> rfl
  have hfunctions : ∀ stmts, functionNames (stmts.map (Stmt.mapHints f)) = functionNames stmts :=
    hnames fun s => by cases s <;> rfl
  simp only [NameContext.ofModule, Module.breadthFirst_mapHints, himports, hclasses]
  rw [Module.mapHints, mapHintsOf_eq_map, hfunctions]

/-- The declarations of a module are the same up to null if annotations are made optional. -/
theorem Declarations.ofModule_mapHints (library : Library)
    (hf : ∀ e, MayAddNull (.ofModule m moduleName) e (f e)) :
    Follows False Declarations.UpToNull (ofModule m moduleName library)
      (ofModule (m.mapHints f) moduleName library) := by
  have hresolve := fun e => (hf e).resolve
  unfold ofModule
  rw [NameContext.ofModule_mapHints, Module.breadthFirst_mapHints, Module.mapHints,
    mapHintsOf_eq_map]
  refine (collectClasses_mapHints hresolve m.breadthFirst .nil).bind fun _ _ hclasses => ?_
  refine (collectFunctions_mapHints hresolve m.body .nil).bind fun _ _ hfunctions => ?_
  exact .ok ⟨rfl, rfl, hclasses, hfunctions⟩

end

/-- Results for the same expressions with the same types up to null. -/
def Results.UpToNull : Results → Results → Prop :=
  List.Forall₂ fun x y => x.1 = y.1 ∧ Typing.UpToNull x.2 y.2

private theorem Results.UpToNull.latest {xs ys : Results} (h : xs.UpToNull ys) (id : Nat) :
    Typing.UpToNull (latest xs id) (latest ys id) := by
  induction h with
  | nil => exact .refl none
  | @cons x y xs ys hxy hrest ih =>
    rw [Typing.latest, Typing.latest, hxy.1]
    refine ih.or ?_
    by_cases hid : y.1.id = id
    · rw [if_pos hid, if_pos hid]
      exact hxy.2
    · rw [if_neg hid, if_neg hid]
      exact .refl none

/-- With declarations that are the same up to null, two resolvers stay the same up to null as long
as no conditional expression is evaluated. -/
theorem Resolver.walksInStep_upToNull {d d' : Declarations} (hd : d.UpToNull d') {g g' : Env}
    (hg : ∀ x, Option.Rel UpToNull (g.get? x) (g'.get? x)) (descend : Bool) :
    WalksInStep ⟨d, g, descend⟩ ⟨d', g', descend⟩ UpToNull
      (fun _ env env' => ∀ x, Option.Rel UpToNull (env.get? x) (env'.get? x)) Results.UpToNull
      (fun _ e => ∀ x ∈ e.schedule, x.1.isConditional = false)
      (fun t t' => ∀ id : Nat, UpToNull t[id]? t'[id]?) (MayAddNull d.names) where
  descend h := h
  refl := .refl
  name {o site x env env'} _ h := by
    simp only [Declarations.nameIn]
    rw [hd.nameType? x]
    obtain ⟨hx, hx'⟩ | ⟨ref, ref', hx, hx', href⟩ := rel_cases (h x)
    · rw [hx, hx']
      exact .refl _
    · rw [hx, hx']
      exact href
  attr name h := hd.attributeType? h name
  call args h := (hd.callType h args).imp False.elim
  conditional he := by
    have hself := he _ (Expr.mem_schedule_self _)
    cases hself
  set {o env env' ref ref'} x h href y := by
    rw [NameMap.get?_set, NameMap.get?_set]
    by_cases hy : y = x
    · rw [if_pos hy, if_pos hy]
      exact .some href
    · rw [if_neg hy, if_neg hy]
      exact h y
  adopt {o site kind elements generators env env' x} _ _ h := by
    obtain ⟨hx, hx'⟩ | ⟨ref, ref', hx, hx', href⟩ := rel_cases (h x)
    · rw [hx, hx']
      exact .refl none
    · rw [hx, hx']
      exact href
  globals _ := hg
  part he hl hc x hx := he x (Expr.mem_schedule_of_part hc hl hx)
  body _ he x hx := he (x.1, true) (List.mem_append_left _ (List.mem_map.mpr ⟨x, hx, rfl⟩))
  nil := .nil
  append h h' := List.rel_append h h'
  found _ h := .cons ⟨rfl, h⟩ .nil
  skip hne := (hne rfl).elim
  same := rfl
  names := hd.names
  lookup q := by
    rw [hd.lookup? q]
    exact .refl _
  hint h := h.resolve
  isSome h := h.isSome
  cls h := h
  keep ht h id := by
    rw [getElem?_keep, getElem?_keep]
    exact (Results.UpToNull.latest h id).or (ht id)
  read _ ht := ht _

/-- Whichever annotations of a module are made optional, the types of its expressions are the same
up to null, provided that it evaluates no conditional expression. -/
theorem TypeInfo.ofModule_mapHints {m : Module} {f : Expr → Expr} {moduleName : String}
    (library : Library) (hm : ∀ e ∈ m.evaluatedNodes, e.isConditional = false)
    (hf : ∀ e, MayAddNull (.ofModule m moduleName) e (f e)) :
    Follows False (fun info info' => info.decls.UpToNull info'.decls ∧
        ∀ id : Nat, UpToNull info.types[id]? info'.types[id]?)
      (ofModule m moduleName library) (ofModule (m.mapHints f) moduleName library) := by
  have hsuits : SuitedAll (fun _ e => ∀ x ∈ e.schedule, x.1.isConditional = false) true
      (bodySteps m.body) := by
    have hall : ∀ x ∈ m.schedule, x.1.isConditional = false := fun x hx =>
      hm x.1 (m.schedule_perm.mem_iff.mp (List.mem_map_of_mem hx))
    refine suitedAll_of_visited (fun he hl hc x hx => ?_) _ (prepared_body m.body)
      (List.forall_mem_nil _) (forall_schedule_visited (P := fun e => e.isConditional = false) hall)
      true
    exact he x (Expr.mem_schedule_of_part hc hl hx)
  have hlike := bodySteps_mapHints (fun _ => .same) hf m.body
  have hdecls := (Declarations.ofModule_mapHints library hf).and
    (fun d hd => Declarations.names_of_ofModule hd) (Ensures.trivial _)
  refine hdecls.bind fun d d' hd => ?_
  obtain ⟨hd, hnames, -⟩ := hd
  rw [← hnames] at hlike
  have hnone : ∀ x, Option.Rel UpToNull (NameMap.get? ([] : Env) x) (NameMap.get? ([] : Env) x) :=
    fun _ => .none
  have hempty : ∀ id : Nat, UpToNull (∅ : TypeTable)[id]? (∅ : TypeTable)[id]? := fun _ => .refl _
  have htop := (Resolver.walksInStep_upToNull hd hnone false).walkModule m (m.mapHints f) hlike
    hsuits hnone hempty
  refine htop.bind fun top top' htop => ?_
  have hfull := (Resolver.walksInStep_upToNull hd htop.env true).walkModule m (m.mapHints f) hlike
    hsuits hnone htop.types
  refine hfull.bind fun full full' hfull => ?_
  exact .ok ⟨hd, hfull.types⟩

end ContextLint.Typing
