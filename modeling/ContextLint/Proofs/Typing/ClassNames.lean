import Mathlib.Data.List.TakeWhile
import ContextLint.Proofs.Scope.Reports
import ContextLint.Proofs.Typing.Environment
import ContextLint.Proofs.Typing.ImportBinding
import ContextLint.Proofs.Typing.Visible

/-!
# Names of classes in annotations and in expressions

In an expression a name stands for what its last binding makes it stand for. An annotation reads the
name against all imports of the module, those inside functions included, and against its own
definitions only if there is none. So the annotation and a call of the class agree exactly if the
last import of the name, in breadth first order, stands for the class, or if there is none.
-/

namespace ContextLint.Scope

open Source

/-- The last step of a script that binds the name is an import or the definition of a class. -/
inductive BoundLast (x : String) : List Step → Prop where
  /-- The name is imported, and not by a star. -/
  | imported {before after stmt a} (ha : a ∈ stmt.names)
      (hstar : a.name ≠ "*") (hname : a.boundName stmt.source = x)
      (hafter : x ∉ after.flatMap Step.names) : BoundLast x (before ++ .onImport stmt :: after)
  /-- A class of the name is defined. -/
  | cls {before after body head} (hname : head.name = x) (hafter : x ∉ after.flatMap Step.names) :
      BoundLast x (before ++ .define head.name :: .cls head body :: after)

end ContextLint.Scope

namespace ContextLint.Typing

open Source Scope

/-- What a name stands for by the imports of a module, wherever they stand. The last one in breadth
first order counts. -/
def importedAs? (m : Module) (x : String) : Option String :=
  (lastNamed? Prod.fst x (m.breadthFirst.flatMap importPairs)).map Prod.snd

variable {m : Module} {moduleName x q : String}

private theorem aliases_get? (m : Module) (moduleName x : String) :
    (NameContext.ofModule m moduleName).aliases.get? x = importedAs? m x := by
  rw [NameContext.ofModule, importAliases_eq, NameMap.get?_update, NameMap.get?_nil, Option.or_none]
  rfl

/-- A name without dots is qualified by its import, or else by the module that defines it. -/
theorem NameContext.qualify_of_dotless (c : NameContext) (hx : '.' ∉ x.toList) :
    c.qualify x = (c.aliases.get? x).getD
      (if c.localDefs.contains x then c.moduleName ++ "." ++ x else x) := by
  have hdots : ∀ ch ∈ x.toList, decide (ch ≠ '.') = true :=
    fun ch hch => decide_eq_true fun heq => hx (heq ▸ hch)
  have htake : x.toList.takeWhile (· ≠ '.') = x.toList := List.takeWhile_eq_self_iff.mpr hdots
  have hdrop : x.toList.dropWhile (· ≠ '.') = [] := List.dropWhile_eq_nil_iff.mpr hdots
  have hempty : (String.ofList (List.drop 1 ([] : List Char))).isEmpty = true := by simp
  simp only [qualify, htake, hdrop, String.ofList_toList, hempty, if_true]
  cases c.aliases.get? x <;> rfl

variable {stmt : Import} {a : ImportAlias}

/-- An import that gives a name a meaning is an import of the name. -/
theorem importedAs?_isSome (hstmt : .imports stmt ∈ m.breadthFirst) (ha : a ∈ stmt.names)
    {p : String × String} (hp : importMeaning stmt.source a = some p) :
    (importedAs? m p.1).isSome := by
  rw [importedAs?, Option.isSome_map, Option.isSome_iff_ne_none]
  intro hnone
  refine lastNamed?_eq_none.mp hnone p (List.mem_flatMap.mpr ⟨_, hstmt, ?_⟩) rfl
  exact List.mem_filterMap.mpr ⟨a, ha, hp⟩

variable {r : Resolver} {before after : List Step} {s top : Progress}

/-- If an import is the last to bind a name and makes it stand for something, annotations take the
name as imported. -/
theorem importedAs?_of_entry (hsplit : bodySteps m.body = before ++ .onImport stmt :: after)
    (ha : a ∈ stmt.names) (hstar : a.name ≠ "*") (hname : a.boundName stmt.source = x)
    (hafter : x ∉ after.flatMap Step.names)
    (htop : performAll r.hooks (bodySteps m.body) s = .ok top) {ref : TypeRef}
    (hentry : top.env.get? x = some (some ref)) : (importedAs? m x).isSome := by
  rw [hsplit, performAll_append] at htop
  obtain ⟨mid, -, htop⟩ := exists_of_bind_ok htop
  obtain ⟨next, hnext, htop⟩ := exists_of_bind_ok htop
  cases hnext
  rw [Resolver.performAll_get? after hafter _ top htop] at hentry
  have hholds := Resolver.bindImports_holdsLast r mid.toFacts stmt.source stmt.names mid.env x
  unfold HoldsLast at hholds
  split at hholds
  · next b hb =>
    obtain ⟨a', ha', rfl⟩ := List.mem_map.mp (mem_of_lastNamed? hb)
    obtain ⟨ref', hget, hgives⟩ := hholds
    obtain rfl : ref' = some ref := Option.some.inj (hget.symm.trans hentry)
    obtain ⟨p, hp, -⟩ := Option.bind_eq_some_iff.mp (Eq.symm hgives)
    have hbound : (Binding.imported stmt.source a').name = x := name_of_lastNamed? hb
    have hreport : .onImport stmt ∈ m.reports :=
      Module.mem_reports.mpr (subset_withinAll _ (by simp [hsplit]))
    rw [← (importMeaning_fst hp).trans hbound]
    exact importedAs?_isSome (Module.contains_of_report hreport) (List.mem_of_mem_filter ha') hp
  · next hb =>
    have hmem : Binding.imported stmt.source a ∈
        (stmt.names.filter (·.name ≠ "*")).map (.imported stmt.source) :=
      List.mem_map_of_mem (List.mem_filter.mpr ⟨ha, by simpa using hstar⟩)
    exact (lastNamed?_eq_none.mp hb _ hmem hname).elim

section

variable {library : Library} {decls : Declarations}
  (hdecls : Declarations.ofModule m moduleName library = .ok decls)

include hdecls

/-- If a class statement is the last to bind a name and makes it stand for a class, that is the
class of the name in the module. -/
theorem qualname_of_entry (hr : r.decls = decls) {head : ClassHead} {body : List Step}
    (hsplit : bodySteps m.body = before ++ .define head.name :: .cls head body :: after)
    (hafter : head.name ∉ after.flatMap Step.names)
    (htop : performAll r.hooks (bodySteps m.body) s = .ok top)
    (hentry : top.env.get? head.name = some (some ⟨q, .cls, false⟩)) :
    head.name ∈ classNames m.breadthFirst ∧ q = moduleName ++ "." ++ head.name := by
  have hreport : .cls head body ∈ m.reports :=
    Module.mem_reports.mpr (subset_withinAll _ (by simp [hsplit]))
  obtain ⟨members, hclass⟩ := Module.contains_of_report hreport
  have hdefined : head.name ∈ classNames m.breadthFirst := List.mem_filterMap.mpr ⟨_, hclass, rfl⟩
  refine ⟨hdefined, ?_⟩
  rw [hsplit, performAll_append] at htop
  obtain ⟨mid, -, htop⟩ := exists_of_bind_ok htop
  obtain ⟨next, hnext, htop⟩ := exists_of_bind_ok htop
  cases hnext
  have hkept := Resolver.performAll_get? (.cls head body :: after) hafter _ top htop
  have hset := hkept.trans ((NameMap.get?_set ..).trans (if_pos rfl))
  have hlookup := Option.some.inj (hset.symm.trans hentry)
  rw [hr, Declarations.names_of_ofModule hdecls] at hlookup
  have hknown : (decls.table.get? (moduleName ++ "." ++ head.name)).isSome := by
    simp [Declarations.table, ClassTable.get?, Declarations.isSome_of_class hdecls hdefined]
  exact congrArg TypeRef.qualname (Declarations.eq_of_lookup?_class hknown hlookup rfl)

/-- A name whose last binding makes it a class is qualified in annotations by the imports of the
module, and by the class if there are none. -/
theorem qualify_of_boundLast (htop : Resolver.walkModule ⟨decls, [], false⟩ m ∅ = .ok top)
    (hdot : '.' ∉ x.toList) (hlast : BoundLast x (bodySteps m.body))
    (hentry : top.env.get? x = some (some ⟨q, .cls, false⟩)) :
    decls.names.qualify x = (importedAs? m x).getD q := by
  rw [Resolver.walkModule, walkBody_eq] at htop
  rw [NameContext.qualify_of_dotless _ hdot, Declarations.names_of_ofModule hdecls, aliases_get?]
  generalize hsteps : bodySteps m.body = steps at hlast
  cases hlast with
  | imported ha hstar hname hafter =>
    have hsome := importedAs?_of_entry hsteps ha hstar hname hafter htop hentry
    obtain ⟨base, hbase⟩ := Option.isSome_iff_exists.mp hsome
    rw [hbase]
    rfl
  | cls hname hafter =>
    subst hname
    obtain ⟨hdefined, rfl⟩ := qualname_of_entry hdecls rfl hsteps hafter htop hentry
    have hlocal := List.mem_append_left (functionNames m.body) hdefined
    rw [NameContext.ofModule, if_pos (List.contains_iff_mem.mpr hlocal)]

end

/-- Where the last binding of a name at the top level of a module is an import or a class statement
and makes it a class, an annotation takes the name for what the last import of it in the module
stands for, in breadth first order and wherever the imports stand, and for the class if there is no
import. In a function of the module a call of the name has an instance of the class as its type, and
a parameter annotated with the name an instance of what the annotation takes it for. So the name
means the same in both exactly if no import of it is there or the last one stands for the class. -/
theorem class_name_in_annotation_and_call {m : Source.Module} (hm : m.Numbered)
    {moduleName : String} {library : Library} {info : TypeInfo}
    (h : TypeInfo.ofModule m moduleName library = .ok info) {top : Progress}
    (htop : Resolver.walkModule ⟨info.decls, [], false⟩ m ∅ = .ok top) {t q : String}
    (hdot : '.' ∉ t.toList) (hlast : BoundLast t (bodySteps m.body))
    (hentry : top.env.get? t = some (some ⟨q, .cls, false⟩)) :
    (∀ site, info.decls.names.resolve (.name site t) =
        .ok (some (instanceOf ((importedAs? m t).getD q))) ∧
      (info.decls.names.resolve (.name site t) = .ok (some (instanceOf q)) ↔
        ∀ base, importedAs? m t = some base → base = q)) ∧
    ∀ head body, .function head body ∈ bodySteps m.body → t ∉ head.params.names →
      (∀ site site' args keywords, Sees t (.call site (.name site' t) args keywords) body →
        info.typeOf? (.call site (.name site' t) args keywords) = some (instanceOf q)) ∧
      ∀ x hint, lastNamed? Param.name x (head.params.positional ++ head.params.kwOnly) =
          some ⟨x, some (.name hint t)⟩ →
        ∀ site, Sees x (.name site x) body →
          info.typeOf? (.name site x) = some (instanceOf ((importedAs? m t).getD q)) ∧
          ∀ call site' args keywords, Sees t (.call call (.name site' t) args keywords) body →
            (info.typeOf? (.name site x) = info.typeOf? (.call call (.name site' t) args keywords) ↔
              ∀ base, importedAs? m t = some base → base = q) := by
  obtain ⟨hdecls, -⟩ := TypeInfo.ofModule_ok h
  have hresolve (site : Site) : info.decls.names.resolve (.name site t) =
      .ok (some (instanceOf ((importedAs? m t).getD q))) := by
    rw [← qualify_of_boundLast hdecls htop hdot hlast hentry]
    rfl
  have hagree : instanceOf ((importedAs? m t).getD q) = instanceOf q ↔
      ∀ base, importedAs? m t = some base → base = q := by
    cases importedAs? m t with
    | none => simp
    | some base => simp [instanceOf]
  refine ⟨fun site => ⟨hresolve site, ?_⟩, fun head body hfunction ht => ?_⟩
  · rw [hresolve, ← hagree, Except.ok.injEq, Option.some.injEq]
  · obtain ⟨s, start, results, hframe, hstart, htypes, hsees⟩ :=
      TypeInfo.exists_body hm h htop hfunction
    have hcalls : ∀ site site' args keywords,
        Sees t (.call site (.name site' t) args keywords) body →
        info.typeOf? (.call site (.name site' t) args keywords) = some (instanceOf q) := by
      intro site site' args keywords hcall
      obtain ⟨p, env, hcall, henv⟩ := hsees t _ hcall
      have hbody := (Resolver.bodyEnv_rebinds head s start hstart).get? ht
      rw [Resolver.startEnv, hframe] at hbody
      exact htypes _ (hcall.call_class ((henv.trans hbody).trans hentry))
    refine ⟨hcalls, fun x hint hparam site hx => ?_⟩
    have hparams : info.typeOf? (.name site x) =
        some (instanceOf ((importedAs? m t).getD q)) := by
      obtain ⟨p, env, hname, henv⟩ := hsees x _ hx
      have htype := Resolver.bodyEnv_last (r := ⟨info.decls, top.env, true⟩) hparam (hresolve hint)
        hframe start hstart
      have hresult := hname.name
      rw [Declarations.nameIn, henv, htype] at hresult
      exact htypes _ hresult
    refine ⟨hparams, fun call site' args keywords hcall => ?_⟩
    rw [hparams, hcalls call site' args keywords hcall, Option.some.injEq, hagree]

namespace EventClass

/-- `from zerolog import Event`. -/
def imported : Import := ⟨some ⟨some "zerolog", 0⟩, [⟨"Event", none⟩]⟩

/-- The head of `def f(x: Event)`. -/
def head : FunctionHead :=
  ⟨"f", { regular := [⟨"x", some (.name (.ofId 0) "Event")⟩] }, [], none⟩

/-- `x, Event()`. -/
def pair : Expr :=
  .sequence (.ofId 1) .tuple [.name (.ofId 2) "x", .call (.ofId 3) (.name (.ofId 4) "Event") [] []]

/-- A function that returns its parameter and a new event. -/
def function : Stmt := .functionDef head [.value (some pair)]

/-- The class is imported for the module, and once more inside a function. -/
def importing : Source.Module :=
  { body := [.imports imported, .functionDef ⟨"g", {}, [], none⟩ [.imports imported], function] }

/-- The head of `class Event`. -/
def defined : ClassHead := ⟨"Event", [], [], []⟩

/-- The class is imported, and then one of the same name is defined. -/
def redefining : Source.Module := { body := [.imports imported, .classDef defined [], function] }

/-- The elements of `x, Event()` see the names that the pair does not bind. -/
private theorem sees_pair (hx : ∀ c ∈ pair.nodes, x ∉ c.binds) {o : Expr}
    (ho : o ∈ pair.evaluatedChildren) : Sees x o [.visit pair] := by
  have hself : o ∈ o.evaluatedNodes := Expr.mem_evaluatedNodes_iff.mpr (.inl rfl)
  have hnode : o ∈ pair.evaluatedNodes := Expr.mem_evaluatedNodes_iff.mpr (.inr ⟨o, ho, hself⟩)
  change Sees x o ([] ++ .visit pair :: [])
  exact .visit List.not_mem_nil hx hnode

private theorem steps_importing : bodySteps importing.body = [] ++ .onImport imported ::
    [.define "g", .function ⟨"g", {}, [], none⟩ [.onImport imported], .define "f",
      .function head [.visit pair]] := rfl

private theorem steps_redefining : bodySteps redefining.body = [.onImport imported] ++
    .define defined.name :: .cls defined [] ::
      [.define "f", .function head [.visit pair]] := rfl

/-- Where all imports of the class agree, a parameter annotated with its name has the type of a
call. -/
theorem parameter_like_call : ∃ info, TypeInfo.ofModule importing "sample" .standard = .ok info ∧
    importedAs? importing "Event" = some "zerolog.Event" ∧
    info.decls.names.resolve (.name (.ofId 0) "Event") = .ok (some (instanceOf "zerolog.Event")) ∧
    info.typeOf? (.name (.ofId 2) "x") = some (instanceOf "zerolog.Event") ∧
    info.typeOf? (.name (.ofId 2) "x") =
      info.typeOf? (.call (.ofId 3) (.name (.ofId 4) "Event") [] []) := by
  have hwalk : ∃ info, TypeInfo.ofModule importing "sample" .standard = .ok info ∧
      ∃ top, Resolver.walkModule ⟨info.decls, [], false⟩ importing ∅ = .ok top ∧
        top.env.get? "Event" = some (some ⟨"zerolog.Event", .cls, false⟩) := by
    decide +kernel
  obtain ⟨info, hinfo, top, htop, hentry⟩ := hwalk
  have hlast : BoundLast "Event" (bodySteps importing.body) := by
    rw [steps_importing]
    exact .imported List.mem_cons_self (by decide) rfl (by simp [Step.names])
  have himported : importedAs? importing "Event" = some "zerolog.Event" := by decide +kernel
  obtain ⟨hresolve, hfunction⟩ :=
    class_name_in_annotation_and_call (by decide) hinfo htop (by decide) hlast hentry
  obtain ⟨-, hparams⟩ := hfunction head [.visit pair] (by simp [steps_importing]) (by decide)
  obtain ⟨htype, hagree⟩ :=
    hparams "x" (.ofId 0) rfl (.ofId 2) (sees_pair (by decide) List.mem_cons_self)
  refine ⟨info, hinfo, himported, ?_, ?_, ?_⟩
  · rw [(hresolve (.ofId 0)).1, himported]
    rfl
  · rw [htype, himported]
    rfl
  · have hcall : Sees "Event" (.call (.ofId 3) (.name (.ofId 4) "Event") [] []) [.visit pair] :=
      sees_pair (by decide) (List.mem_cons_of_mem _ List.mem_cons_self)
    exact (hagree (.ofId 3) (.ofId 4) [] [] hcall).mpr fun base hbase =>
      Option.some.inj (hbase.symm.trans himported)

/-- The last binding of the name is the class statement, and the name stands for the class of the
module. The annotation nevertheless takes it for the imported class, so that the parameter has not
the type of the call. -/
theorem parameter_unlike_call :
    ∃ info top, TypeInfo.ofModule redefining "sample" .standard = .ok info ∧
      Resolver.walkModule ⟨info.decls, [], false⟩ redefining ∅ = .ok top ∧
      BoundLast "Event" (bodySteps redefining.body) ∧
      top.env.get? "Event" = some (some ⟨"sample.Event", .cls, false⟩) ∧
      info.decls.names.resolve (.name (.ofId 0) "Event") =
        .ok (some (instanceOf "zerolog.Event")) ∧
      info.typeOf? (.name (.ofId 2) "x") = some (instanceOf "zerolog.Event") ∧
      info.typeOf? (.call (.ofId 3) (.name (.ofId 4) "Event") [] []) =
        some (instanceOf "sample.Event") := by
  have hwalk : ∃ info, TypeInfo.ofModule redefining "sample" .standard = .ok info ∧
      ∃ top, Resolver.walkModule ⟨info.decls, [], false⟩ redefining ∅ = .ok top ∧
        top.env.get? "Event" = some (some ⟨"sample.Event", .cls, false⟩) ∧
        ∃ ref, info.decls.names.resolve (.name (.ofId 0) "Event") = .ok ref ∧
          ref = some (instanceOf "zerolog.Event") ∧
          info.typeOf? (.name (.ofId 2) "x") = some (instanceOf "zerolog.Event") ∧
          info.typeOf? (.call (.ofId 3) (.name (.ofId 4) "Event") [] []) =
            some (instanceOf "sample.Event") := by
    decide +kernel
  obtain ⟨info, hinfo, top, htop, hentry, ref, hresolve, rfl, hparam, hcall⟩ := hwalk
  have hlast : BoundLast "Event" (bodySteps redefining.body) := by
    rw [steps_redefining]
    refine .cls rfl ?_
    simp [Step.names]
  exact ⟨info, top, hinfo, htop, hlast, hentry, hresolve, hparam, hcall⟩

end EventClass

end ContextLint.Typing
