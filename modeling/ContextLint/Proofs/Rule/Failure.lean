import ContextLint.Proofs.Rule.Reported
import ContextLint.Proofs.Typing.Derived

/-!
# When a module cannot be checked

A module is checked unless one of its annotations is malformed, and it is not checked if one is. The
first argument of a cast is an annotation as well. All other annotations resolve; one that resolves
to nothing is left out of account.
-/

namespace ContextLint.Typing

open Source

/-- The annotation is left out of account wherever it stands. -/
structure Ignored (c : NameContext) (e : Expr) : Prop where
  /-- A variable has the type of its value. -/
  assigned : ∀ r : Resolver, r.decls.names = c → ∀ x value s,
    r.hooks.bind x value (some e) s = r.hooks.bind x value none s
  /-- A parameter has no type. -/
  parameter : ∀ r : Resolver, r.decls.names = c → ∀ x rest env,
    r.annotateParams (⟨x, some e⟩ :: rest) env = r.annotateParams rest env
  /-- A function has no declared result. -/
  result : c.resolve? (some e) = c.resolve? none
  /-- A cast has no type. -/
  cast : ∀ d : Declarations, d.names = c → ∀ args,
    d.callType (some ⟨Declarations.castFunction, .func, false⟩) (e :: args) = .ok none

private theorem ignored_of_resolve {c : NameContext} {e : Expr} (h : c.resolve e = .ok none) :
    Ignored c e where
  assigned r hr x value s := by
    subst hr
    simp [Resolver.hooks, Resolver.assignedType, NameContext.resolve?, h]
  parameter r hr x rest env := by
    subst hr
    rw [Resolver.annotateParams, NameContext.resolve?, h]
    rfl
  result := h
  cast d hd args := by
    subst hd
    simpa [Declarations.callType, NameContext.resolve?] using h

end ContextLint.Typing

namespace ContextLint.Rule

open Source Typing

variable {m : Module} {source : List Char} {filename moduleName : String} {settings : Settings}
  {library : Library} {err : AnnotationError}

/-- Checking a module fails as typing it does. -/
theorem checkModule_eq_error :
    checkModule m source filename moduleName settings library = .error err ↔
      TypeInfo.ofModule m moduleName library = .error err := by
  unfold checkModule Analysis.ofModule
  cases TypeInfo.ofModule m moduleName library with
  | error err' => simp [Bind.bind, Except.bind]
  | ok info => simp [Bind.bind, Except.bind, Pure.pure, Except.pure]

/-- A module is typed and checked, or both fail for the same malformed annotation: one of the module
or the first argument of a call of what may be the cast function. They do fail if an annotation of
the module is malformed. Every other annotation resolves, and one that resolves to nothing is left
out of account. -/
theorem fails_only_for_malformed_annotations (m : Module) (source : List Char)
    (filename moduleName : String) (settings : Settings) (library : Library) :
    ((∃ info ds, TypeInfo.ofModule m moduleName library = .ok info ∧
        checkModule m source filename moduleName settings library = .ok ds) ∨
      ∃ err e, TypeInfo.ofModule m moduleName library = .error err ∧
        checkModule m source filename moduleName settings library = .error err ∧
        (NameContext.ofModule m moduleName).Malformed e err ∧
        (m.Annotates e ∨
          ∃ d, Declarations.ofModule m moduleName library = .ok d ∧ d.MayCast m e)) ∧
    (∀ e err, m.Annotates e → (NameContext.ofModule m moduleName).Malformed e err →
      ∃ err', checkModule m source filename moduleName settings library = .error err') ∧
    ∀ e, ((∃ ref, (NameContext.ofModule m moduleName).resolve e = .ok ref) ↔
        ∀ err, ¬ (NameContext.ofModule m moduleName).Malformed e err) ∧
      ((NameContext.ofModule m moduleName).resolve e = .ok none →
        Ignored (NameContext.ofModule m moduleName) e) := by
  have hreads := TypeInfo.ofModule_reads m moduleName library
  refine ⟨?_, fun e err he hmalformed => ?_, fun e => ⟨?_, ignored_of_resolve⟩⟩
  · cases hinfo : TypeInfo.ofModule m moduleName library with
    | ok info =>
      obtain ⟨a, ha, -⟩ := Analysis.exists_ofModule hinfo source filename settings
      exact .inl ⟨info, a.check m, rfl, checkModule_of_ok ha⟩
    | error err =>
      obtain ⟨e, he, hfails⟩ := hreads.fails err hinfo
      exact .inr ⟨err, e, rfl, checkModule_eq_error.mpr hinfo,
        NameContext.malformed_of_resolve _ hfails, he⟩
  · cases hinfo : TypeInfo.ofModule m moduleName library with
    | ok info =>
      have hresolves := hreads.resolved rfl info hinfo e he
      exact ((NameContext.exists_resolve_iff _ e).mp hresolves err hmalformed).elim
    | error err' => exact ⟨err', checkModule_eq_error.mpr hinfo⟩
  · exact NameContext.exists_resolve_iff _ e

namespace MalformedAnnotation

/-- `Optional[()]`. -/
def hint : Expr := .subscript (.ofId 1) (.name (.ofId 2) "Optional") (.sequence (.ofId 3) .tuple [])

/-- `from typing import Optional`, then a variable with the annotation. -/
def module : Module where
  body := [.imports ⟨some ⟨some "typing", 0⟩, [⟨"Optional", none⟩]⟩,
    .annAssign (.name (.ofId 0) "x") hint none]

/-- A module with an optional form without arguments is not checked. -/
theorem empty_optional_unchecked :
    module.Annotates hint ∧
      (NameContext.ofModule module "sample").Malformed hint .emptyArguments ∧
      ∃ err, checkModule module [] "sample.py" "sample" {} .standard = .error err := by
  have hannotates : module.Annotates hint := .variable (List.mem_cons_of_mem _ List.mem_cons_self)
  have hmalformed : (NameContext.ofModule module "sample").Malformed hint .emptyArguments :=
    .noArgument (.inl (by decide)) rfl
  exact ⟨hannotates, hmalformed, (fails_only_for_malformed_annotations module [] "sample.py"
    "sample" {} .standard).2.1 hint _ hannotates hmalformed⟩

/-- The text of a module with an annotated variable and a message without a context. -/
def text (hint : String) : List Char :=
  ("from typing import Optional\nfrom zerolog import log\nx: " ++ hint ++
    " = None\nlog.info().msg(\"a\")\n").toList

/-- Each of the three kinds of malformed annotations makes checking a module fail that can be
parsed. -/
theorem annotations_fail :
    (∃ m, parseModule default (text "Optional[()]") = .ok m ∧
      checkModule m (text "Optional[()]") "x.py" "x" {} .standard = .error .emptyArguments) ∧
    (∃ m, parseModule default (text "\"\\0\"") = .ok m ∧
      checkModule m (text "\"\\0\"") "x.py" "x" {} .standard = .error .nullCharacter) ∧
    ∃ m, parseModule default (text "\"\\ud800\"") = .ok m ∧
      checkModule m (text "\"\\ud800\"") "x.py" "x" {} .standard =
        .error (.loneSurrogate 0xD800 0 1) := by
  simp only [checkModule_eq_error]
  decide +kernel

end MalformedAnnotation

end ContextLint.Rule
