import ContextLint.Proofs.Report.Order
import ContextLint.Proofs.Rule.Judged
import ContextLint.Rule.Check

/-!
# The calls that are reported

The rule reports some of the calls that are judged. Collecting the calls instead of their
diagnostics gives the findings back by taking the diagnostic of each, so questions about diagnostics
become questions about calls.
-/

namespace ContextLint.Rule

open Source Scope Fluent Report Typing

section

variable {ρ σ : Type} {v : Visitor (StateM σ) ρ} {P : ρ → Prop}

mutual

private theorem run_result (hjudge : ∀ c t r st, P r → P (Id.run ((v.judge c t r).run st)).1)
    (act : Act) (s : Visit ρ) (st : σ) (h : P s.result) :
    P (Id.run ((act.run v s).run st)).1.result := by
  cases act with
  | judge call => simpa [Act.run] using hjudge call s.tracker s.result st h
  | assign name value | forget names => simpa [Act.run] using h
  | function params body =>
    simpa [Act.run] using runAll_result hjudge body ⟨s.tracker.child.resetAll params, s.result⟩ st h
  | cls body => simpa [Act.run] using runAll_result hjudge body ⟨.idle, s.result⟩ st h
  | comprehension names body =>
    simpa [Act.run] using runAll_result hjudge body ⟨s.tracker.clause, s.result⟩ st h

/-- What every judgement preserves of the result, a visit preserves. -/
theorem runAll_result (hjudge : ∀ c t r st, P r → P (Id.run ((v.judge c t r).run st)).1)
    (acts : List Act) (s : Visit ρ) (st : σ) (h : P s.result) :
    P (Id.run ((runAll v acts s).run st)).1.result := by
  cases acts with
  | nil => simpa using h
  | cons act rest =>
    simpa using runAll_result hjudge rest _ _ (run_result hjudge act s st h)

end

end

namespace Analysis

variable (a : Analysis)

/-- The call emits an event: it calls a terminal method of one. -/
def emits : Expr → Bool
  | .call _ (.attr _ receiver method) _ _ =>
    a.info.hasType receiver a.settings.builderType && a.settings.terminalMethods.contains method
  | _ => false

/-- The diagnostic that a method call gets. -/
def diagnosticOf (call : Expr) : Diagnostic := a.diagnostic call (call.calledMethod?.getD "")

section

variable {m : Type → Type} [Monad m] (query : ChainQuery m)

/-- The call is reported with what is known of the names in scope. -/
def reports (call : Expr) (t : Tracker) : m Bool :=
  match call with
  | .call _ (.attr site receiver method) _ _ =>
    if a.emits call then do
      let carried ← query.carries .builder receiver
      return !carried && !t.covers a.settings receiver &&
        !a.isSuppressed (.attr site receiver method) call
    else return false
  | _ => return false

/-- A call that emits nothing is not reported. -/
theorem reports_of_not_emits {call : Expr} (h : a.emits call = false) (t : Tracker) :
    a.reports query call t = pure false := by
  unfold reports
  split
  · simp [h]
  · rfl

/-- The visitor that collects the reported calls, the latest first. -/
def reporter : Visitor m (List Expr) where
  bind := Tracker.bind query a.info a.settings
  judge call t found := do return if ← a.reports query call t then call :: found else found

variable [LawfulMonad m]

/-- The judge adds the diagnostic of a reported call. -/
theorem judge_eq (call : Expr) (t : Tracker) (found : List Diagnostic) :
    a.judge query call t found =
      (fun r => if r then a.diagnosticOf call :: found else found) <$> a.reports query call t := by
  cases call with
  | call callSite func args keywords =>
    cases func with
    | attr site receiver method =>
      rw [judge, reports, emits]
      cases a.info.hasType receiver a.settings.builderType &&
          a.settings.terminalMethods.contains method with
      | false => simp
      | true =>
        simp only [if_true, map_bind, map_pure]
        refine congrArg _ (funext fun carried => ?_)
        cases carried <;> cases t.covers a.settings receiver <;>
          cases a.isSuppressed (.attr site receiver method) _ <;>
            simp [diagnosticOf, Expr.calledMethod?]
    | _ => simp [judge, reports]
  | _ => simp [judge, reports]

/-- The findings are the diagnostics of the reported calls. -/
theorem visitor_map (acts : List Act) (s : Visit (List Expr)) :
    runAll (a.visitor query) acts (s.map (List.map a.diagnosticOf)) =
      Visit.map (List.map a.diagnosticOf) <$> runAll (a.reporter query) acts s := by
  refine runAll_map (v := a.reporter query) (w := a.visitor query) rfl
    (fun call t found => ?_) acts s
  simp only [visitor, judge_eq, reporter, map_eq_pure_bind, bind_assoc, pure_bind]
  congr 1
  funext r
  cases r <;> simp

end

/-- The calls handed to the judge while a module is checked, with the findings. -/
def logged (module : Module) : List Diagnostic × List Expr :=
  (Id.run (((a.visitor a.inquiry.remembering).logging.visitModule module ([], [])).run {})).1

/-- The calls handed to the judge while a module is checked, in order. -/
def judgedCalls (module : Module) : List Expr := (a.logged module).2.reverse

/-- The calls that are reported when a module is checked, in order. -/
def reported (module : Module) : List Expr :=
  (Id.run (((a.reporter a.inquiry.remembering).visitModule module []).run {})).1.reverse

/-- Keeping the log does not change the findings. -/
theorem check_eq_logged (module : Module) :
    a.check module = (a.logged module).1.reverse.mergeSort Diagnostic.placeLe := by
  simp [check, findings, logged, visitModule_logging]

/-- The judged calls are those of the acts. -/
theorem judgedCalls_eq (module : Module) : a.judgedCalls module = callsAll (moduleActs module) := by
  simp [judgedCalls, logged, visitModule_logging]

/-- The diagnostics are those of the reported calls, sorted by place. -/
theorem check_eq_reported (module : Module) :
    a.check module =
      ((a.reported module).map a.diagnosticOf).mergeSort Diagnostic.placeLe := by
  have h := a.visitor_map a.inquiry.remembering (moduleActs module) ⟨.idle, []⟩
  simp only [Visit.map, List.map_nil] at h
  simp [check, findings, reported, visitModule_eq_runAll, h, Visit.map]

/-- The reported calls are among the judged ones and in the same order. -/
theorem reported_sublist (module : Module) :
    (a.reported module).Sublist (a.judgedCalls module) := by
  have h := runAll_logging (a.reporter a.inquiry.remembering) (moduleActs module) ⟨.idle, []⟩ []
  have sub := runAll_result (v := (a.reporter a.inquiry.remembering).logging)
    (P := fun r => r.1.Sublist r.2) (fun c t r st hr => ?_) (moduleActs module)
    ⟨.idle, ([], [])⟩ ({} : Inquiry.Memory) (List.Sublist.refl [])
  · simp only [Visit.map, List.append_nil] at h
    rw [h] at sub
    simpa [judgedCalls_eq, reported, visitModule_eq_runAll, Visit.map] using sub.reverse
  · simp only [Visitor.logging, reporter, bind_pure_comp, Functor.map_map, StateT.run_map,
      Id.run_map]
    split
    · exact hr.cons_cons c
    · exact hr.cons c

/-- Only calls that emit an event are reported. -/
theorem emits_of_mem_reported {module : Module} {c : Expr} (h : c ∈ a.reported module) :
    a.emits c := by
  have all := runAll_result (v := a.reporter a.inquiry.remembering)
    (P := fun r => ∀ c ∈ r, a.emits c) (fun c t r st hr => ?_) (moduleActs module)
    ⟨.idle, []⟩ ({} : Inquiry.Memory) (by simp)
  · exact all c (by simpa [reported, visitModule_eq_runAll] using h)
  · cases hc : a.emits c with
    | false => simpa [reporter, a.reports_of_not_emits _ hc] using hr
    | true =>
      simp only [reporter, bind_pure_comp, StateT.run_map, Id.run_map]
      split
      · simpa [hc] using hr
      · exact hr

/-- Every call outside annotations, match patterns and comprehension targets is judged exactly once,
and nothing else is. The diagnostics are those of some of the judged calls, one for each of them,
and these calls emit events. -/
theorem live_calls_judged_once (module : Module) :
    (a.judgedCalls module).Perm (module.liveNodes.filter Expr.isCall) ∧
      module.nodes.Perm (module.liveNodes ++ module.idleNodes) ∧
      a.check module = (a.logged module).1.reverse.mergeSort Diagnostic.placeLe ∧
      a.check module =
        ((a.reported module).map a.diagnosticOf).mergeSort Diagnostic.placeLe ∧
      (a.reported module).Sublist (a.judgedCalls module) ∧ ∀ c ∈ a.reported module, a.emits c := by
  refine ⟨?_, module.nodes_perm, a.check_eq_logged module, a.check_eq_reported module,
    a.reported_sublist module, fun c => a.emits_of_mem_reported⟩
  rw [judgedCalls_eq]
  exact callsAll_moduleActs_perm module

end Analysis

variable {source : List Char} {filename : String} {settings : Settings} {a : Analysis}

section

variable {m : Module} {moduleName : String} {library : Library}

/-- A module that can be typed can be analysed. -/
theorem Analysis.exists_ofModule {info : TypeInfo}
    (h : TypeInfo.ofModule m moduleName library = .ok info) (source : List Char) (filename : String)
    (settings : Settings) :
    ∃ a, ofModule m source filename moduleName settings library = .ok a ∧ a.info = info ∧
      a.settings = settings ∧ a.comments = Comment.ofSource source := by
  rw [ofModule, h]
  exact ⟨_, rfl, rfl, rfl, rfl⟩

/-- What an analysis is made of. -/
theorem Analysis.eq_of_ofModule
    (h : ofModule m source filename moduleName settings library = .ok a) :
    ∃ info, TypeInfo.ofModule m moduleName library = .ok info ∧
      a = ⟨settings, info, Comment.ofSource source, (Text.splitLines source).toArray, filename⟩ := by
  rw [ofModule] at h
  cases hinfo : TypeInfo.ofModule m moduleName library with
  | error err =>
    rw [hinfo] at h
    cases h
  | ok info =>
    rw [hinfo] at h
    exact ⟨info, rfl, (Except.ok.inj h).symm⟩

/-- What an analysis keeps of its inputs. -/
theorem Analysis.ofModule_ok (h : ofModule m source filename moduleName settings library = .ok a) :
    TypeInfo.ofModule m moduleName library = .ok a.info ∧ a.settings = settings ∧
      a.comments = Comment.ofSource source := by
  obtain ⟨info, hinfo, rfl⟩ := eq_of_ofModule h
  exact ⟨hinfo, rfl, rfl⟩

/-- The diagnostics of a module stand in the order of their places. -/
theorem Analysis.pairwise_check (a : Analysis) (m : Module) :
    (a.check m).Pairwise fun d d' => d.placeLe d' = true := by
  rw [check_eq_reported]
  exact List.pairwise_mergeSort Diagnostic.placeLe_trans Diagnostic.placeLe_total _

/-- The name of the file stands in the diagnostics and has no part in anything else. -/
theorem Analysis.check_renamed (a : Analysis) (m : Module) (filename : String) :
    Analysis.check { a with filename } m =
      (a.check m).map fun d => { d with file := filename } := by
  have hreported : Analysis.reported { a with filename } m = a.reported m := rfl
  have hdiagnostics : (a.reported m).map (Analysis.diagnosticOf { a with filename }) =
      ((a.reported m).map a.diagnosticOf).map fun d => { d with file := filename } := by
    rw [List.map_map]
    rfl
  rw [check_eq_reported, check_eq_reported, hreported, hdiagnostics]
  symm
  apply List.map_mergeSort
  intro d _ d' _
  rfl

/-- Under another file name a module has the same diagnostics but for the name. -/
theorem checkModule_renamed {ds : List Diagnostic}
    (h : checkModule m source filename moduleName settings library = .ok ds) (filename' : String) :
    checkModule m source filename' moduleName settings library =
      .ok (ds.map fun d => { d with file := filename' }) := by
  unfold checkModule Analysis.ofModule at h ⊢
  cases hinfo : TypeInfo.ofModule m moduleName library with
  | error err =>
    rw [hinfo] at h
    cases h
  | ok info =>
    rw [hinfo] at h
    obtain rfl := Except.ok.inj h
    rw [← Analysis.check_renamed]
    rfl

/-- A module that can be analysed is checked by its analysis. -/
theorem checkModule_of_ok
    (h : Analysis.ofModule m source filename moduleName settings library = .ok a) :
    checkModule m source filename moduleName settings library = .ok (a.check m) := by
  rw [checkModule, h]
  rfl

end

end ContextLint.Rule
