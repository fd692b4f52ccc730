import ContextLint.Proofs.Rule.Direct
import ContextLint.Proofs.Typing.Frame

/-!
# Checking anew

The rule can be applied with every question answered anew, without any memory. In a module whose
nodes have different numbers the diagnostics are the same, so that nobody can tell from them that
answers are kept.
-/

namespace ContextLint.Rule

open Source Fluent Typing Report

namespace Analysis

variable (a : Analysis)

/-- Diagnostics of a module by place, with every question answered anew. -/
def checkAnew (module : Module) : List Diagnostic :=
  (Id.run (a.findings a.inquiry.direct module)).mergeSort Diagnostic.placeLe

/-- With every question answered anew the findings are the diagnostics of the calls reported by
following the acts. -/
theorem findings_direct (module : Module) :
    Id.run (a.findings a.inquiry.direct module) =
      (a.followAll (moduleActs module) .idle).2.map a.diagnosticOf := by
  have hmap := a.visitor_map a.inquiry.direct (moduleActs module) ⟨.idle, []⟩
  simp only [Visit.map, List.map_nil] at hmap
  simp [findings, visitModule_eq_runAll, hmap, runAll_eq_followAll, Visit.map]

/-- In a numbered module kept answers do not change the diagnostics. -/
theorem check_eq_checkAnew {m : Module} (hm : m.Numbered) : a.check m = a.checkAnew m := by
  rw [a.check_eq_reported, a.reported_eq_follow hm, checkAnew, a.findings_direct]

end Analysis

/-- Apply the rule to a module, with every question answered anew. -/
def checkModuleAnew (m : Module) (source : List Char) (filename moduleName : String)
    (settings : Settings) (library : Library) : Except AnnotationError (List Diagnostic) := do
  return (← Analysis.ofModule m source filename moduleName settings library).checkAnew m

/-- Kept answers cannot be observed. Whatever questions are asked about a family of expressions, in
whatever order, each gets the answer of the recursion on chains or of the test on types; a question
uses at most one kept answer. The diagnostics are those found without a memory. -/
theorem kept_answers_unobservable (a : Analysis) {S : Expr → Prop} (hS : Family S)
    {questions : List Question} (hquestions : ∀ x ∈ questions, x.Within S) {m : Module}
    (hm : m.Numbered) :
    (a.inquiry.askAll questions {}).1 = questions.map a.inquiry.answer ∧
      (∀ role e, a.inquiry.answer (.chain role e) = e.receiver?.any fun receiver =>
        a.inquiry.injects role e || a.inquiry.answer (.chain role receiver)) ∧
      (∀ ref, a.inquiry.answer (.type ref) = a.capability.classify ref) ∧
      (∀ done x role,
        (a.inquiry.askAll (done ++ [x]) {}).2.uses role =
            (a.inquiry.askAll done {}).2.uses role ∨
          (∃ e, x = .chain role e) ∧
            (a.inquiry.askAll (done ++ [x]) {}).2.uses role =
              (a.inquiry.askAll done {}).2.uses role + 1) ∧
      a.check m = a.checkAnew m ∧
      ∀ source filename moduleName settings library,
        checkModule m source filename moduleName settings library =
          checkModuleAnew m source filename moduleName settings library := by
  refine ⟨Inquiry.askAll_sound hS .empty hquestions, fun role e => Inquiry.carries_eq role e,
    fun ref => rfl, ?_, a.check_eq_checkAnew hm, ?_⟩
  · intro done x role
    rw [Inquiry.askAll_append_snd]
    exact Inquiry.uses_ask x role _
  · intro source filename moduleName settings library
    have hcheck : (fun a : Analysis => a.check m) = fun a => a.checkAnew m :=
      funext fun a => a.check_eq_checkAnew hm
    simp only [checkModule, checkModuleAnew, bind_pure_comp, hcheck]

namespace SharedChain

/-- `log.info().ctx(c)`. -/
def inner : Expr :=
  .call (.ofId 0) (.attr (.ofId 1) (.call (.ofId 2) (.attr (.ofId 3) (.name (.ofId 4) "log") "info")
    [] []) "ctx") [.name (.ofId 5) "c"] []

/-- `log.info().ctx(c).str()`. -/
def outer : Expr := .call (.ofId 6) (.attr (.ofId 7) inner "str") [] []

/-- The module that builds the event. -/
def module : Module := { body := [.value (some outer)] }

/-- An analysis that takes `log.info()` and `log.info().ctx(c)` for events and `c` for a context. -/
def analysis : Analysis where
  settings := {}
  info := {
    decls := .ofLibrary .standard
    types := (((∅ : TypeTable).insert 0 (instanceOf "zerolog.Event")).insert 2
      (instanceOf "zerolog.Event")).insert 5 (instanceOf "context.Context") }
  comments := []
  lines := #[]
  filename := "sample.py"

/-- Questions on a chain, on a longer one built on it in both roles, on a type, and on the longer
one again. -/
def questions : List Question :=
  [.chain .builder inner, .chain .builder outer, .chain .producer outer,
    .type (some (instanceOf "context.Context")), .chain .builder outer]

private theorem answers_eq :
    questions.map analysis.inquiry.answer = [true, true, false, true, true] := by
  decide +kernel

/-- All questions get the right answers, those on the longer chain also where answers on it and on
the shorter one have been kept. -/
theorem questions_answered :
    module.Numbered ∧
      (analysis.inquiry.askAll questions {}).1 = [true, true, false, true, true] ∧
      analysis.check module = analysis.checkAnew module := by
  have hnum : module.Numbered := by decide
  have hwithin : ∀ x ∈ questions, x.Within (· ∈ module.nodes) := by
    have houter : outer ∈ module.nodes := by
      simp [Module.nodes, module, Stmt.expressions, Expr.mem_nodes_self]
    have hinner : inner ∈ module.nodes := (family_nodes hnum).receiver houter rfl
    simp [questions, Question.Within, hinner, houter]
  obtain ⟨hright, -, -, -, hcheck, -⟩ :=
    kept_answers_unobservable analysis (family_nodes hnum) hwithin hnum
  exact ⟨hnum, hright.trans answers_eq, hcheck⟩

end SharedChain

end ContextLint.Rule
