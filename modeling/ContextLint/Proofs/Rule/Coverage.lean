import ContextLint.Proofs.Fluent.Injection
import ContextLint.Proofs.Rule.Untracked
import ContextLint.Proofs.Source.Numbering
import ContextLint.Proofs.Typing.ImportBinding

/-!
# Judged calls and typed calls

The rule judges the calls that are typed and, besides them, those inside the default values of
lambdas, which typing passes over. What is not typed is never reported. So a message of the imported
logger that carries no context is reported at every place where it is judged but those.
-/

namespace ContextLint.Source.Module

variable {m : Module} {n value : Expr}

/-- The receiver of an evaluated method call of a module is evaluated. -/
theorem receiver_mem_evaluatedNodes (hn : n ∈ m.evaluatedNodes) (hv : n.receiver? = some value) :
    value ∈ m.evaluatedNodes := by
  obtain ⟨e, he, hn⟩ := List.mem_flatMap.mp hn
  exact List.mem_flatMap.mpr ⟨e, he, Expr.receiver_mem_evaluatedNodes hn hv⟩

/-- The receiver of a method call inside a default value is inside it, too. -/
theorem receiver_mem_defaultNodes (hn : n ∈ m.defaultNodes) (hv : n.receiver? = some value) :
    value ∈ m.defaultNodes := by
  obtain ⟨e, he, hn⟩ := List.mem_flatMap.mp hn
  exact List.mem_flatMap.mpr ⟨e, he, Expr.receiver_mem_defaultNodes hn hv⟩

end ContextLint.Source.Module

namespace ContextLint.Typing

open Source

/-- A value of a class is of the type that the class names. -/
theorem ClassTable.isSubtype_instanceOf (t : ClassTable) {q : String} (hq : q.isEmpty = false) :
    t.isSubtype (some (instanceOf q)) q := by
  have hself : qualnameMatches q q = true := by simp [qualnameMatches, hq]
  simp only [isSubtype, instanceOf, baseNames, List.any_cons, hself, Bool.true_or, Bool.and_true]
  rfl

/-- The call `log.info(..)` of the function that the standard library has under that name. -/
def infoCall : Start where
  name := "log"
  meaning := some ⟨"zerolog.log", .module, false⟩
  method := "info"
  func := ⟨"zerolog.log.info", .func, false⟩
  result := instanceOf Library.eventType

/-- Where `log` is imported from the standard library, `log.info(..)` is an event. -/
theorem typeOf?_infoCall {m : Module} {moduleName : String} {info : TypeInfo}
    (h : TypeInfo.ofModule m moduleName .standard = .ok info) (hnum : m.Numbered)
    (hm : m.Imports "zerolog" "log") (hdecl : ¬ m.Declares moduleName "zerolog.log.info") {n : Expr}
    (hn : n ∈ m.evaluatedNodes) (hb : infoCall.begins n) :
    info.typeOf? n = some (instanceOf Library.eventType) := by
  have hdecls := (TypeInfo.ofModule_ok h).1
  have hlib := Declarations.library_of_ofModule hdecls
  obtain ⟨hclass, hfunction⟩ := Declarations.get?_of_not_declares hdecls hdecl
  have hmeaning : info.decls.lookup? "zerolog.log" = some ⟨"zerolog.log", .module, false⟩ := by
    rw [Declarations.lookup?, hlib, if_neg (by decide), if_pos (by decide)]
  have hlookup : info.decls.lookup? "zerolog.log.info" = some infoCall.func := by
    rw [Declarations.lookup?_eq_ofLibrary hclass hfunction, hlib]
    decide
  have hreturn : info.decls.functionReturn? "zerolog.log.info" = some infoCall.result := by
    rw [Declarations.functionReturn?_eq_ofLibrary hfunction, hlib]
    decide
  refine TypeInfo.typeOf?_begins (k := infoCall) h hnum hm (by decide) hmeaning hlookup ?_ hn hb
  intro args
  exact congrArg Except.ok hreturn

end ContextLint.Typing

namespace ContextLint.Rule

open Source Scope Typing Fluent Report

/-- `log.info().msg(..)` with a constant message. -/
def isBareMessage : Expr → Bool
  | .call _ (.attr _ (.call _ (.attr _ (.name _ id) level) [] []) method) [.constant ..] [] =>
    id == "log" && level == "info" && method == "msg"
  | _ => false

/-- A bare message is sent to an event that the imported logger starts. -/
theorem exists_of_isBareMessage {c : Expr} (h : isBareMessage c) :
    c.calledMethod? = some "msg" ∧ ∃ receiver, c.receiver? = some receiver ∧
      infoCall.begins receiver ∧ receiver.rootName? = some "log" ∧
      receiver.chainMethods = ["info"] := by
  unfold isBareMessage at h
  split at h
  · simp only [Bool.and_eq_true, beq_iff_eq] at h
    obtain ⟨⟨rfl, rfl⟩, rfl⟩ := h
    exact ⟨rfl, _, rfl, rfl, rfl, rfl⟩
  · cases h

variable {m : Module} {source : List Char} {filename moduleName : String} {settings : Settings}
  {library : Library} {a : Analysis}

namespace Analysis

/-- The judged calls are the typed ones and those inside default values of lambdas. -/
theorem judgedCalls_perm (a : Analysis) (m : Module) :
    (a.judgedCalls m).Perm
      (m.evaluatedNodes.filter Expr.isCall ++ m.defaultNodes.filter Expr.isCall) := by
  rw [judgedCalls_eq, moduleActs, callsAll_stepsActs, ← List.filter_append]
  exact m.visited_perm.filter Expr.isCall

/-- A call without a context of its own is reported wherever it is judged, if it emits an event. -/
theorem flagged_of_ignores {c receiver : Expr} {x : String} (hc : c.receiver? = some receiver)
    (hroot : receiver.rootName? = some x) (hinjects : a.inquiry.carries .builder receiver = false)
    (hcomments : a.comments = []) {t : Tracker} (ht : t.Ignores x) : a.flagged c t = a.emits c := by
  rw [a.flagged_eq hc, hinjects, ht.covers a.settings hroot,
    a.suppresses_of_no_comments hcomments]
  simp

/-- A call inside a default value of a lambda is not reported: its receiver has no type. -/
theorem not_mem_reported_of_default (h : TypeInfo.ofModule m moduleName library = .ok a.info)
    (hnum : m.Numbered) {c : Expr} (hc : c ∈ m.defaultNodes) : c ∉ a.reported m := by
  intro hreported
  have hemits := a.emits_of_mem_reported hreported
  unfold emits at hemits
  split at hemits
  · next receiver method _ _ =>
    have hnone : a.info.typeOf? receiver = none := TypeInfo.typeOf?_eq_none h fun n hn =>
      hnum.evaluated_ne_default hn (Module.receiver_mem_defaultNodes hc rfl)
    simp [TypeInfo.hasType, hnone, ClassTable.isSubtype] at hemits
  · cases hemits

/-- With the default settings a bare message emits an event wherever it is evaluated. -/
theorem emits_bareMessage (h : TypeInfo.ofModule m moduleName .standard = .ok a.info)
    (hsettings : a.settings = {}) (hnum : m.Numbered) (hm : m.Imports "zerolog" "log")
    (hdecl : ¬ m.Declares moduleName "zerolog.log.info") {c : Expr} (hc : isBareMessage c)
    (hn : c ∈ m.evaluatedNodes) : a.emits c := by
  obtain ⟨hmethod, receiver, hreceiver, hbegins, -⟩ := exists_of_isBareMessage hc
  have htype := typeOf?_infoCall h hnum hm hdecl
    (Module.receiver_mem_evaluatedNodes hn hreceiver) hbegins
  obtain ⟨_, _, _, _, _, rfl⟩ := Expr.exists_of_receiver? hreceiver
  obtain rfl := Option.some.inj hmethod
  have hevent : a.info.hasType receiver Library.eventType := by
    rw [TypeInfo.hasType, htype]
    exact ClassTable.isSubtype_instanceOf _ (by decide)
  rw [emits, hsettings, Bool.and_eq_true]
  exact ⟨hevent, by decide⟩

/-- With the default settings and without comments, a bare message is reported wherever it is judged
but inside default values of lambdas. -/
theorem bareMessage_mem_reported_iff (h : TypeInfo.ofModule m moduleName .standard = .ok a.info)
    (hsettings : a.settings = {}) (hcomments : a.comments = []) (hnum : m.Numbered)
    (hm : m.Imports "zerolog" "log") (hdecl : ¬ m.Declares moduleName "zerolog.log.info") {c : Expr}
    (hc : isBareMessage c) (hjudged : c ∈ a.judgedCalls m) :
    c ∈ a.reported m ↔ c ∉ m.defaultNodes := by
  refine ⟨fun hreported hdefault => not_mem_reported_of_default h hnum hdefault hreported, ?_⟩
  intro hdefault
  have hn : c ∈ m.evaluatedNodes := by
    have hmem := (a.judgedCalls_perm m).mem_iff.mp hjudged
    simp only [List.mem_append, List.mem_filter, hdefault, false_and, or_false] at hmem
    exact hmem.1
  obtain ⟨-, receiver, hreceiver, -, hroot, hchain⟩ := exists_of_isBareMessage hc
  have hcarries : a.inquiry.carries .builder receiver = false := by
    have hmethod : a.inquiry.method = "ctx" := congrArg Settings.injectionMethod hsettings
    refine Inquiry.carries_of_not_mem_chainMethods ?_
    rw [hchain, hmethod]
    decide
  have hspares := sparesAll_of_imports (I := fun _ => True) hm fun _ _ => trivial
  rw [mem_reported_iff hnum hspares fun t ht =>
    flagged_of_ignores hreceiver hroot hcarries hcomments ht]
  exact ⟨hjudged, emits_bareMessage h hsettings hnum hm hdecl hc hn⟩

/-- The calls that are judged are those that are typed and those inside default values of lambdas.
The two sets are the same exactly if no call stands inside such a value, and none that does is ever
reported. A bare message in a module that binds `log` only by importing it is reported at every
other place where it is judged. -/
theorem judged_calls_typed_or_default
    (h : ofModule m source filename moduleName settings library = .ok a) (hnum : m.Numbered) :
    ∃ typed, TypeInfo.typedCalls m moduleName library = .ok typed ∧
      (a.judgedCalls m).Perm (typed ++ m.defaultNodes.filter Expr.isCall) ∧
      ((∀ c, c ∈ a.judgedCalls m ↔ c ∈ typed) ↔ ∀ c ∈ m.defaultNodes, c.isCall = false) ∧
      a.check m = ((a.reported m).map a.diagnosticOf).mergeSort Diagnostic.placeLe ∧
      (∀ c ∈ m.defaultNodes, c ∉ a.reported m) ∧
      (settings = {} → library = .standard → Comment.ofSource source = [] →
        m.Imports "zerolog" "log" → ¬ m.Declares moduleName "zerolog.log.info" →
        ∀ c ∈ a.judgedCalls m, isBareMessage c → (c ∈ a.reported m ↔ c ∉ m.defaultNodes)) := by
  obtain ⟨hinfo, hsettings, hcomments⟩ := ofModule_ok h
  obtain ⟨typed, htyped, hperm⟩ := TypeInfo.exists_typedCalls hinfo
  refine ⟨typed, htyped, (a.judgedCalls_perm m).trans (hperm.symm.append_right _), ?_,
    a.check_eq_reported m, fun c => not_mem_reported_of_default hinfo hnum, ?_⟩
  · simp only [(a.judgedCalls_perm m).mem_iff, hperm.mem_iff, List.mem_append, List.mem_filter]
    constructor
    · intro hsame c hc
      by_contra hcall
      have hcall : c.isCall = true := by simpa using hcall
      exact hnum.evaluated_ne_default ((hsame c).mp (.inr ⟨hc, hcall⟩)).1 hc rfl
    · intro hnone c
      refine ⟨?_, .inl⟩
      rintro (hc | ⟨hc, hcall⟩)
      · exact hc
      · simp [hnone c hc] at hcall
  · rintro rfl rfl hno hm hdecl c hc hbare
    exact bareMessage_mem_reported_iff hinfo hsettings (hcomments.trans hno) hnum hm hdecl hbare hc

end Analysis

namespace LambdaDefault

/-- `log.info().msg("a")`, numbered from the given number on. -/
def message (n : Nat) : Expr :=
  .call (.ofId n) (.attr (.ofId (n + 1)) (.call (.ofId (n + 2)) (.attr (.ofId (n + 3))
    (.name (.ofId (n + 4)) "log") "info") [] []) "msg") [.constant (.ofId (n + 5)) (.str [97])] []

/-- `from zerolog import log`, then a lambda with a message in its default value and another one in
its body. -/
def module : Module where
  body := [.imports ⟨some ⟨some "zerolog", 0⟩, [⟨"log", none⟩]⟩,
    .assign [.name (.ofId 0) "f"] (.lambda (.ofId 1) ["x"] [message 2] (message 8))]

private theorem exists_analysis :
    ∃ a, Analysis.ofModule module [] "sample.py" "sample" {} .standard = .ok a := by decide

/-- The message in the body is reported, the one in the default value is judged but not reported. -/
theorem body_reported :
    module.Numbered ∧ module.Imports "zerolog" "log" ∧
      ∃ a, Analysis.ofModule module [] "sample.py" "sample" {} .standard = .ok a ∧
        message 8 ∈ a.reported module ∧ message 2 ∈ a.judgedCalls module ∧
        message 2 ∉ a.reported module := by
  have hnum : module.Numbered := by decide
  have himports : module.Imports "zerolog" "log" := by decide
  obtain ⟨a, ha⟩ := exists_analysis
  obtain ⟨typed, -, -, -, -, hdefault, hbare⟩ := Analysis.judged_calls_typed_or_default ha hnum
  have hjudged : message 8 ∈ a.judgedCalls module ∧ message 2 ∈ a.judgedCalls module := by
    simp [a.judgedCalls_eq, moduleActs, module, bodySteps, stmtSteps, stepsActs, stepActs,
      assignSteps, exprActs, exprsActs, message, callsAll, Act.calls]
  have hbody : message 8 ∉ module.defaultNodes := fun hmem =>
    absurd (List.mem_map_of_mem (f := Expr.id) hmem) (by decide)
  have hvalue : message 2 ∈ module.defaultNodes := by
    simp [Module.defaultNodes, Module.visited, visitedAll, module, bodySteps, stmtSteps,
      Step.visited, assignSteps, Expr.defaultNodes, Expr.mem_liveNodes_self]
  exact ⟨hnum, himports, a, ha,
    (hbare rfl rfl (by decide) himports (by decide) _ hjudged.1 rfl).mpr hbody, hjudged.2,
    hdefault _ hvalue⟩

/-- The text of a module with a message in the default value of a lambda. -/
def text : List Char := "from zerolog import log\nf = lambda x=log.info().msg(\"a\"): x\n".toList

private theorem parse_text :
    ∃ m, parseModule default text = .ok m ∧ m.Imports "zerolog" "log" ∧
      ∃ a, Analysis.ofModule m text "x.py" "x" {} .standard = .ok a ∧
        (∃ typed, TypeInfo.typedCalls m "x" .standard = .ok typed ∧ typed.isEmpty = true) ∧
        (∃ c ∈ a.judgedCalls m, isBareMessage c) ∧ (a.reported m).isEmpty = true := by
  decide +kernel

/-- A message in the default value of a lambda is judged but not typed, and is not reported though
the module binds `log` only by importing it and has no comments. -/
theorem default_value_unchecked :
    ∃ m a typed c, parseModule default text = .ok m ∧ m.Imports "zerolog" "log" ∧
      Comment.ofSource text = [] ∧ Analysis.ofModule m text "x.py" "x" {} .standard = .ok a ∧
      TypeInfo.typedCalls m "x" .standard = .ok typed ∧ isBareMessage c ∧
      c ∈ a.judgedCalls m ∧ c ∉ typed ∧ checkModule m text "x.py" "x" {} .standard = .ok [] := by
  obtain ⟨m, hparse, himports, a, ha, ⟨typed, htyped, hnone⟩, ⟨c, hc, hbare⟩, hempty⟩ := parse_text
  obtain rfl := List.isEmpty_iff.mp hnone
  refine ⟨m, a, _, c, hparse, himports, by decide +kernel, ha, htyped, hbare, hc,
    List.not_mem_nil, ?_⟩
  rw [checkModule_of_ok ha, a.check_eq_reported m, List.isEmpty_iff.mp hempty, List.map_nil,
    List.mergeSort_nil]

end LambdaDefault

end ContextLint.Rule
