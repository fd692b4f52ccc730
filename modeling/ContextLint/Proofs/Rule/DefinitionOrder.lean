import ContextLint.Proofs.Rule.Alike
import ContextLint.Proofs.Typing.DefinitionOrder
import ContextLint.Proofs.Typing.Passes

/-!
# The order of a definition and an assignment does not matter to the rule

Names at the top level of a module are not followed, so each statement there is reported on by
itself. If a function definition and an assignment change places, their reports change places, and
sorting puts them back.
-/

namespace ContextLint.Scope.Interchange

open Source

variable {p : Interchange}

/-- Both modules have the same expressions. -/
theorem nodes_perm (p : Interchange) : p.assignmentFirst.nodes.Perm p.definitionFirst.nodes := by
  rw [Module.nodes, Module.nodes, Expr.nodesOf_eq_flatMap, Expr.nodesOf_eq_flatMap]
  refine List.Perm.flatMap_right _ (List.Perm.flatMap_right _ ?_)
  exact ((List.Perm.swap _ _ []).append_left _).append_right _

private theorem numbered (hm : p.definitionFirst.Numbered) : p.assignmentFirst.Numbered :=
  (p.nodes_perm.map Expr.id).nodup_iff.mpr hm

/-- No call in the body of the function stands where a call in the assigned value stands. -/
def Apart (p : Interchange) : Prop :=
  ∀ c ∈ Source.Module.nodes { body := p.body }, ∀ c' ∈ p.value.nodes, c.isCall = true →
    c'.isCall = true → (c.span.line, c.span.col) ≠ (c'.span.line, c'.span.col)

instance (p : Interchange) : Decidable p.Apart := inferInstanceAs (Decidable (∀ c ∈ _, ∀ c' ∈ _, _))

end ContextLint.Scope.Interchange

namespace ContextLint.Rule

open Source Scope Typing Report

namespace Analysis

variable (a : Analysis) (p : Interchange)

private theorem reported_definitionFirst (hm : p.definitionFirst.Numbered) :
    a.reported p.definitionFirst =
      (a.followAll (stepsActs (bodySteps p.before)) .idle).2 ++
        ((a.followAll (stepsActs p.definitionSteps) .idle).2 ++
          ((a.followAll (stepsActs p.assignmentSteps) .idle).2 ++
            (a.followAll (stepsActs (bodySteps p.after)) .idle).2)) := by
  rw [reported_eq_follow a hm, moduleActs, p.bodySteps_definitionFirst]
  simp only [stepsActs_append, followAll_idle_append, List.append_assoc]

private theorem reported_assignmentFirst (hm : p.definitionFirst.Numbered) :
    a.reported p.assignmentFirst =
      (a.followAll (stepsActs (bodySteps p.before)) .idle).2 ++
        ((a.followAll (stepsActs p.assignmentSteps) .idle).2 ++
          ((a.followAll (stepsActs p.definitionSteps) .idle).2 ++
            (a.followAll (stepsActs (bodySteps p.after)) .idle).2)) := by
  rw [reported_eq_follow a (Interchange.numbered hm), moduleActs, p.bodySteps_assignmentFirst]
  simp only [stepsActs_append, followAll_idle_append, List.append_assoc]

/-- The definition is reported on for calls in the body of the function. -/
theorem call_of_definition {c : Expr}
    (hc : c ∈ (a.followAll (stepsActs p.definitionSteps) .idle).2) :
    c ∈ Source.Module.nodes { body := p.body } ∧ c.isCall = true := by
  have hcalls :
      callsAll (stepsActs p.definitionSteps) = callsAll (moduleActs { body := p.body }) := by
    simp [Interchange.definitionSteps, stepsActs, stepActs, callsAll, Act.calls, moduleActs]
  have hcall := a.followAll_subset _ _ hc
  rw [hcalls, (callsAll_moduleActs_perm _).mem_iff, List.mem_filter] at hcall
  exact ⟨(Module.nodes_perm _).mem_iff.mpr (List.mem_append_left _ hcall.1), hcall.2⟩

/-- The assignment is reported on for calls in the assigned value. -/
theorem call_of_assignment {c : Expr}
    (hc : c ∈ (a.followAll (stepsActs p.assignmentSteps) .idle).2) :
    c ∈ p.value.nodes ∧ c.isCall = true := by
  have hcalls : callsAll (stepsActs p.assignmentSteps) = callsAll (exprActs p.value) := by
    simp [Interchange.assignmentSteps, stepsActs, stepActs, callsAll, Act.calls]
  have hcall := a.followAll_subset _ _ hc
  rw [hcalls, callsAll_exprActs, List.mem_filter] at hcall
  exact ⟨Expr.liveNodes_subset _ hcall.1, hcall.2⟩

/-- Diagnostics of calls that stand at different places do not tie. -/
theorem not_tied {c c' : Expr}
    (h : (c.span.line, c.span.col) ≠ (c'.span.line, c'.span.col)) :
    ¬ ((a.diagnosticOf c).placeLe (a.diagnosticOf c') = true ∧
      (a.diagnosticOf c').placeLe (a.diagnosticOf c) = true) := by
  rw [Diagnostic.placeLe_iff, Diagnostic.placeLe_iff]
  simp only [diagnosticOf, diagnostic]
  rw [ne_eq, Prod.mk.injEq] at h
  omega

/-- The same diagnostics are found in either order. -/
theorem check_interchange (hm : p.definitionFirst.Numbered) :
    (a.check p.definitionFirst).Perm (a.check p.assignmentFirst) ∧
      (p.Apart → a.check p.definitionFirst = a.check p.assignmentFirst) := by
  rw [check_eq_reported, check_eq_reported, a.reported_definitionFirst p hm,
    a.reported_assignmentFirst p hm]
  constructor
  · refine (List.mergeSort_perm _ _).trans (List.Perm.trans ?_ (List.mergeSort_perm _ _).symm)
    refine List.Perm.map _ (List.Perm.append_left _ ?_)
    rw [← List.append_assoc, ← List.append_assoc]
    exact List.perm_append_comm.append_right _
  · intro hapart
    simp only [List.map_append]
    refine mergeSort_append_congr Diagnostic.placeLe_trans Diagnostic.placeLe_total _ ?_
    refine mergeSort_swap_blocks Diagnostic.placeLe_trans Diagnostic.placeLe_total ?_ _
    rintro d hd d' hd'
    obtain ⟨c, hc, rfl⟩ := List.mem_map.mp hd
    obtain ⟨c', hc', rfl⟩ := List.mem_map.mp hd'
    obtain ⟨hmem, hcall⟩ := a.call_of_definition p hc
    obtain ⟨hmem', hcall'⟩ := a.call_of_assignment p hc'
    exact a.not_tied (hapart c hmem c' hmem' hcall hcall')

end Analysis

/-- A function definition, without decorators and default values, and an assignment next to it at
the top level may change places if nothing else binds the function's name: all declarations, all
types and the diagnostics stay the same. -/
theorem definition_and_assignment_commute (p : Interchange) (hm : p.definitionFirst.Numbered)
    (source : List Char) (filename moduleName : String) (settings : Settings) (library : Library) :
    Together
        (fun info info' => info.decls = info'.decls ∧
          ∀ id : Nat, info.types[id]? = info'.types[id]?)
        (TypeInfo.ofModule p.definitionFirst moduleName library)
        (TypeInfo.ofModule p.assignmentFirst moduleName library) ∧
      Together (fun found found' => found.Perm found' ∧ (p.Apart → found = found'))
        (checkModule p.definitionFirst source filename moduleName settings library)
        (checkModule p.assignmentFirst source filename moduleName settings library) := by
  have hinfo := TypeInfo.ofModule_interchange p hm moduleName library
  refine ⟨hinfo, ?_⟩
  rw [checkModule_eq, checkModule_eq]
  refine hinfo.map fun info info' h => ?_
  have hsees : ∀ e, ((Analysis.untyped source filename settings).withInfo info).SeesAlike
      ((Analysis.untyped source filename settings).withInfo info') e := by
    intro e
    refine Analysis.seesAlike_of_eq ?_ h.1 (h.2 e.id)
    rfl
  rw [← Analysis.check_congr (Interchange.numbered hm) rfl hsees]
  exact Analysis.check_interchange _ p hm

namespace SharedEvent

private def spot (id line : Nat) : Site := ⟨id, ⟨line, 0, line, 0⟩⟩

/-- A function that prints the event assigned from its own result. -/
def pair : Interchange where
  before := [.imports ⟨none, [⟨"zerolog", none⟩]⟩]
  head := ⟨"f", {}, [], some (.attr (spot 0 2) (.name (spot 1 2) "zerolog") "Event")⟩
  body := [.value (some (.call (spot 2 3) (.name (spot 6 3) "print") [.name (spot 7 3) "x"] []))]
  site := spot 3 4
  target := "x"
  value := .call (spot 4 4) (.name (spot 5 4) "f") [] []
  after := []
  plain := ⟨rfl, rfl⟩
  target_ne := by decide
  before_free := by decide
  value_free := by decide

private theorem exists_info :
    ∃ info, TypeInfo.ofModule pair.definitionFirst "sample" .standard = .ok info ∧
      info.typeOf? pair.value = some (instanceOf "zerolog.Event") := by
  decide +kernel

/-- The function and the assignment mention each other. The assigned value is an event in either
order, and the diagnostics are the same. -/
theorem mutual_mention_reordered :
    pair.definitionFirst.Numbered ∧ pair.Apart ∧
      (∃ info info', TypeInfo.ofModule pair.definitionFirst "sample" .standard = .ok info ∧
        TypeInfo.ofModule pair.assignmentFirst "sample" .standard = .ok info' ∧
        info.typeOf? pair.value = some (instanceOf "zerolog.Event") ∧
        info'.typeOf? pair.value = some (instanceOf "zerolog.Event")) ∧
      ∃ found, checkModule pair.definitionFirst [] "sample.py" "sample" {} .standard = .ok found ∧
        checkModule pair.assignmentFirst [] "sample.py" "sample" {} .standard = .ok found := by
  have hnum : pair.definitionFirst.Numbered := by decide
  have hapart : pair.Apart := by decide
  obtain ⟨info, hinfo, htype⟩ := exists_info
  have hall := definition_and_assignment_commute pair hnum [] "sample.py" "sample" {} .standard
  have hcheck := hall.2
  rw [hinfo] at hall
  rw [checkModule_eq pair.definitionFirst, hinfo] at hcheck
  obtain ⟨info', hinfo', hsame⟩ := hall.1.exists_of_ok_left
  obtain ⟨found, hfound, hperm⟩ := hcheck.exists_of_ok_left
  refine ⟨hnum, hapart, ⟨info, info', hinfo, hinfo', htype, ?_⟩, found, ?_, hfound⟩
  · exact (hsame.2 4).symm.trans htype
  · rw [checkModule_eq, hinfo, ← hperm.2 hapart]
    rfl

end SharedEvent

end ContextLint.Rule
