import ContextLint.Proofs.Rule.Alike
import ContextLint.Proofs.Typing.Optional
import ContextLint.Proofs.Typing.Passes

/-!
# Optional annotations change no verdict

The rule looks through null: the classes that a value belongs to and whether it counts as a context
do not depend on it. Annotations are not visited either. So making annotations optional changes
neither what is known of names nor what is reported.
-/

namespace ContextLint.Rule

open Source Scope Fluent Typing

mutual

private theorem stepActs_like {H : Expr → Expr → Prop} (step : Step) {step' : Step}
    (h : step.Like H step') : stepActs step = stepActs step' := by
  cases h with
  | bind name value hhint => cases value <;> rfl
  | @function head head' body body' hhead hbody =>
    rw [stepActs, stepActs, hhead.names, stepsActs_like body hbody]
  | @cls head head' body body' hname hbody => rw [stepActs, stepActs, stepsActs_like body hbody]
  | _ => rfl

/-- Scripts that differ in their annotations have the same acts. -/
theorem stepsActs_like {H : Expr → Expr → Prop} (steps : List Step) {steps' : List Step}
    (h : LikeAll H steps steps') : stepsActs steps = stepsActs steps' := by
  cases h with
  | nil => rfl
  | @cons step step' rest rest' hstep hrest =>
    rw [stepsActs, stepsActs, stepActs_like step hstep, stepsActs_like rest hrest]

end

/-- Annotations are not visited. -/
theorem moduleActs_mapHints (m : Module) (f : Expr → Expr) :
    moduleActs (m.mapHints f) = moduleActs m :=
  (stepsActs_like _ (bodySteps_mapHints (H := fun _ _ => True) (fun _ => trivial) (fun _ => trivial)
    m.body)).symm

/-- Null does not matter for what counts as a context. -/
theorem classify_congr {c c' : Capability} (hname : c.typeName = c'.typeName)
    (hmethods : c.methods = c'.methods) (htable : c.table.UpToNull c'.table)
    {ref ref' : Option TypeRef} (href : UpToNull ref ref') : c.classify ref = c'.classify ref' := by
  obtain ⟨rfl, rfl⟩ | ⟨r, r', rfl, rfl, hrel⟩ := href.cases_of
  · rfl
  · simp only [Capability.classify, TypeRef.isInstance, hrel.kind, hrel.qualname, Capability.holds,
      Capability.conforms, htable.baseNames, htable.methodSet, hmethods]
    unfold Capability.matchesName
    rw [hname]

namespace Analysis

variable {a : Analysis} {info info' : TypeInfo}

/-- Analyses whose types are the same up to null see the same. -/
theorem seesAlike_of_upToNull (hd : info.decls.UpToNull info'.decls)
    (ht : ∀ id : Nat, UpToNull info.types[id]? info'.types[id]?) (e : Expr) :
    (a.withInfo info).SeesAlike (a.withInfo info') e where
  hasType q := hd.table.isSubtype (ht e.id) q
  context := by
    have htable : (a.withInfo info).capability.table.UpToNull (a.withInfo info').capability.table :=
      hd.table
    refine classify_congr ?_ ?_ htable (ht e.id)
    · rfl
    · rfl

end Analysis

/-- In a module without conditional expressions, annotations may be made optional at will: every
recorded type stays the same up to null, and the diagnostics stay the same. -/
theorem optional_annotations_change_nothing {m : Module} (hm : m.Numbered)
    (hplain : ∀ e ∈ m.nodes, e.isConditional = false) {f : Expr → Expr} {moduleName : String}
    (hf : ∀ e, MayAddNull (.ofModule m moduleName) e (f e)) (source : List Char) (filename : String)
    (settings : Settings) (library : Library) :
    Follows False
        (fun info info' => ∀ id : Nat,
          (info.types[id]?).map TypeRef.nonNull = (info'.types[id]?).map TypeRef.nonNull)
        (TypeInfo.ofModule m moduleName library)
        (TypeInfo.ofModule (m.mapHints f) moduleName library) ∧
      checkModule (m.mapHints f) source filename moduleName settings library =
        checkModule m source filename moduleName settings library := by
  have hevaluated : ∀ e ∈ m.evaluatedNodes, e.isConditional = false :=
    fun e he => hplain e (m.evaluatedNodes_subset he)
  have hinfo := TypeInfo.ofModule_mapHints library hevaluated hf
  constructor
  · exact hinfo.mono fun info info' h => h.2
  · have hacts := moduleActs_mapHints m f
    rw [checkModule_eq, checkModule_eq]
    have hcheck := hinfo.map fun info info' h =>
      Analysis.check_congr hm hacts (a := Analysis.untyped source filename settings)
        (Analysis.seesAlike_of_upToNull h.1 h.2)
    exact hcheck.eq.symm

namespace OptionalLogger

/-- The logger of the annotated parameter. -/
def logger : Expr := .name (.ofId 2) "log"

/-- A function that emits an event of its parameter, annotated as a logger. -/
def module : Module where
  body := [.imports ⟨none, [⟨"zerolog", none⟩]⟩,
    .functionDef ⟨"f",
      { regular := [⟨"log", some (.attr (.ofId 0) (.name (.ofId 1) "zerolog") "Logger")⟩] }, [], none⟩
      [.value (some (.call (.ofId 3) (.attr (.ofId 4)
        (.call (.ofId 5) (.attr (.ofId 6) logger "info") [] []) "msg") [] []))]]

/-- Make dotted annotations optional. -/
def widen : Expr → Expr
  | .attr site value name =>
    .subscript (.ofId 7) (.name (.ofId 8) "Optional") (.attr site value name)
  | e => e

private theorem mayAddNull_widen (c : NameContext) (e : Expr) : MayAddNull c e (widen e) := by
  cases e with
  | attr site value name => exact .optional (.ofId 7) (c.form?_optional (.ofId 8)) fun _ _ => nofun
  | _ => exact .same

private theorem exists_infos :
    (∃ info, TypeInfo.ofModule module "sample" .standard = .ok info ∧
      info.typeOf? logger = some ⟨"zerolog.Logger", .inst, false⟩) ∧
    ∃ info, TypeInfo.ofModule (module.mapHints widen) "sample" .standard = .ok info ∧
      info.typeOf? logger = some ⟨"zerolog.Logger", .inst, true⟩ := by
  decide +kernel

/-- The logger becomes nullable, and nothing changes for the rule. -/
theorem logger_nullable :
    module.Numbered ∧ (∀ e ∈ module.nodes, e.isConditional = false) ∧
      (∃ info, TypeInfo.ofModule module "sample" .standard = .ok info ∧
        info.typeOf? logger = some ⟨"zerolog.Logger", .inst, false⟩) ∧
      (∃ info, TypeInfo.ofModule (module.mapHints widen) "sample" .standard = .ok info ∧
        info.typeOf? logger = some ⟨"zerolog.Logger", .inst, true⟩) ∧
      checkModule (module.mapHints widen) [] "sample.py" "sample" {} .standard =
        checkModule module [] "sample.py" "sample" {} .standard := by
  have hnum : module.Numbered := by decide
  have hplain : ∀ e ∈ module.nodes, e.isConditional = false := by decide
  exact ⟨hnum, hplain, exists_infos.1, exists_infos.2,
    (optional_annotations_change_nothing hnum hplain (mayAddNull_widen _) [] "sample.py" {}
      .standard).2⟩

end OptionalLogger

end ContextLint.Rule
