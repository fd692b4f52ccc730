import ContextLint.Proofs.Rule.Exact
import ContextLint.Proofs.Rule.InStep

/-!
# Directives and terminal methods only take diagnostics away

Whether a directive applies to a call, or its method counts as terminal, is decided for that call
alone and changes nothing that is known of names. So directives remove from the diagnostics without
comments those of the calls they apply to, and a smaller set of terminal methods those of the
methods left out.
-/

namespace ContextLint.Rule

open Source Fluent Typing Report

variable {keyword rule : List Char} {m : Module} {terminals : List String}

namespace Analysis

variable (a : Analysis)

/-- The same analysis of a source text without comments. -/
def withoutComments : Analysis := { a with comments := [] }

/-- The same analysis with other terminal methods. -/
def withTerminals (terminals : List String) : Analysis :=
  a.withSettings { a.settings with terminalMethods := terminals }

/-- On the first line of the call, the line before or the line of its method stands a comment that
is a directive naming the rule. -/
def Silenced (call : Expr) : Prop :=
  ∃ site func args keywords, call = .call site func args keywords ∧ ∃ comment ∈ a.comments,
    ((comment.line : Int) = (call.span.line : Int) - 1 ∨ comment.line = call.span.line ∨
      comment.line = func.span.endLine) ∧
    ∃ rules, Comment.parseDirective a.settings.suppressionKeyword.toList comment.text = some rules ∧
      a.settings.ruleId.toList ∈ rules

private theorem suppresses_text_iff {text : List Char} :
    Comment.suppresses keyword rule text = true ↔
      ∃ rules, Comment.parseDirective keyword text = some rules ∧ rule ∈ rules := by
  unfold Comment.suppresses
  cases Comment.parseDirective keyword text <;> simp

private theorem suppressedOn_iff {comments : List Comment} {lines : List Int} :
    Comment.suppressedOn comments keyword rule lines = true ↔
      ∃ comment ∈ comments, (comment.line : Int) ∈ lines ∧
        Comment.suppresses keyword rule comment.text = true := by
  simp only [Comment.suppressedOn, Comment.onLine, List.any_eq_true, List.mem_map, List.mem_filter,
    decide_eq_true_eq]
  constructor
  · rintro ⟨line, hline, _, ⟨comment, ⟨hmem, rfl⟩, rfl⟩, hs⟩
    exact ⟨comment, hmem, hline, hs⟩
  · rintro ⟨comment, hmem, hline, hs⟩
    exact ⟨_, hline, _, ⟨comment, ⟨hmem, rfl⟩, rfl⟩, hs⟩

/-- A directive applies to exactly the silenced calls. -/
theorem suppresses_iff (call : Expr) : a.suppresses call = true ↔ a.Silenced call := by
  cases call with
  | call site func args keywords =>
    simp only [suppresses, isSuppressed, suppressedOn_iff, suppresses_text_iff, directiveLines,
      List.mem_cons, List.not_mem_nil, or_false, Nat.cast_inj]
    constructor
    · rintro ⟨comment, hmem, hline, hrules⟩
      exact ⟨site, func, args, keywords, rfl, comment, hmem, hline, hrules⟩
    · rintro ⟨_, _, _, _, heq, comment, hmem, hline, hrules⟩
      cases heq
      exact ⟨comment, hmem, hline, hrules⟩
  | _ => simp [suppresses, Silenced]

instance : DecidablePred a.Silenced := fun call => decidable_of_iff _ (a.suppresses_iff call)

/-- An analysis that treats names alike and judges a call like another one, unless the call lacks a
property, reports the calls with the property. -/
theorem reported_eq_filter {a b : Analysis} {p : Expr → Bool} (hm : m.Numbered)
    (htracked : b.tracked = a.tracked) (hflagged : ∀ c t, b.flagged c t = (a.flagged c t && p c)) :
    b.reported m = (a.reported m).filter p := by
  have hstep : InStep a b (· = ·) fun xs ys => ys = xs.filter p :=
    { idle := rfl
      child := congrArg _
      clause := congrArg _
      reset := fun x => congrArg (Tracker.reset · x)
      adopt := by rintro t _ t' _ x rfl rfl; rfl
      assign := by rintro t _ x e rfl; rw [htracked]
      judge := by
        rintro t _ c rfl
        rw [judged, judged, hflagged]
        cases a.flagged c t <;> cases hp : p c <;> simp [hp]
      nil := rfl
      append := by rintro xs _ xs' _ rfl rfl; rw [List.filter_append] }
  exact hstep.reported hm

/-- With its comments, an analysis reports the calls reported without them that are not silenced. -/
theorem reported_withoutComments (hm : m.Numbered) :
    a.reported m = (a.withoutComments.reported m).filter fun c => ¬ a.Silenced c := by
  refine reported_eq_filter hm rfl fun c t => ?_
  have hsilenced : decide (¬ a.Silenced c) = !a.suppresses c := by
    simp [← a.suppresses_iff]
  cases hc : c.receiver? with
  | none => rw [flagged_of_receiver?_eq_none hc, flagged_of_receiver?_eq_none hc, Bool.false_and]
  | some receiver =>
    have hnone := a.withoutComments.suppresses_of_no_comments rfl c
    rw [a.flagged_eq hc, a.withoutComments.flagged_eq hc, hnone, hsilenced]
    simp only [Bool.not_false, Bool.and_true, ← Bool.and_assoc]
    rfl

/-- With fewer terminal methods, the calls that emit an event are those of the methods left. -/
theorem emits_withTerminals (hsub : terminals ⊆ a.settings.terminalMethods) (c : Expr) :
    (a.withTerminals terminals).emits c =
      (a.emits c && terminals.contains (c.calledMethod?.getD "")) := by
  unfold emits
  split
  · next receiver method args keywords =>
    have hterminal : terminals.contains method =
        (a.settings.terminalMethods.contains method && terminals.contains method) := by
      by_cases hmem : method ∈ terminals
      · simp [hmem, hsub hmem]
      · simp [hmem]
    change (a.info.hasType receiver a.settings.builderType && terminals.contains method) = _
    rw [hterminal, ← Bool.and_assoc]
    rfl
  · rfl

/-- With fewer terminal methods, an analysis reports the calls of those that are left. -/
theorem reported_withTerminals (hm : m.Numbered) (hsub : terminals ⊆ a.settings.terminalMethods) :
    (a.withTerminals terminals).reported m =
      (a.reported m).filter fun c => terminals.contains (c.calledMethod?.getD "") := by
  refine reported_eq_filter hm rfl fun c t => ?_
  cases hc : c.receiver? with
  | none => rw [flagged_of_receiver?_eq_none hc, flagged_of_receiver?_eq_none hc, Bool.false_and]
  | some receiver =>
    rw [a.flagged_eq hc, (a.withTerminals terminals).flagged_eq hc, a.emits_withTerminals hsub,
      Bool.and_right_comm]
    rfl

/-- The diagnostics are those of the reported calls in the order of their places. -/
theorem check_eq_map :
    a.check m =
      ((a.reported m).mergeSort fun c d =>
        (a.diagnosticOf c).placeLe (a.diagnosticOf d)).map a.diagnosticOf := by
  rw [a.check_eq_reported]
  exact (List.map_mergeSort (f := a.diagnosticOf) fun _ _ _ _ => rfl).symm

/-- The comments of a source text remove from the diagnostics without them those of the silenced
calls. -/
theorem check_withoutComments (hm : m.Numbered) :
    ∃ calls : List Expr, calls.Perm (a.withoutComments.reported m) ∧
      a.withoutComments.check m = calls.map a.diagnosticOf ∧
      a.check m = (calls.filter fun c => ¬ a.Silenced c).map a.diagnosticOf := by
  refine ⟨_, List.mergeSort_perm _ _, a.withoutComments.check_eq_map, ?_⟩
  rw [a.check_eq_map, a.reported_withoutComments hm]
  refine congrArg (List.map a.diagnosticOf) (filter_mergeSort ?_ ?_ _ _).symm
  · intro b c d
    exact Diagnostic.placeLe_trans _ _ _
  · intro b c
    exact Diagnostic.placeLe_total _ _

/-- With fewer terminal methods the diagnostics are those of the methods left. -/
theorem check_withTerminals (hm : m.Numbered) (hsub : terminals ⊆ a.settings.terminalMethods) :
    (a.withTerminals terminals).check m =
      (a.check m).filter fun d => terminals.contains d.method := by
  rw [check_eq_reported, check_eq_reported, a.reported_withTerminals hm hsub,
    filter_mergeSort Diagnostic.placeLe_trans Diagnostic.placeLe_total, List.filter_map]
  rfl

end Analysis

/-- Directives and the set of terminal methods are filters. The diagnostics of a module are those
found without its comments, in the same order, less those of the silenced calls; and those for fewer
terminal methods are the ones for all of them, in the same order, less those of the methods left
out. -/
theorem directives_and_terminals_filter {m : Module} (hm : m.Numbered) (source : List Char)
    (filename moduleName : String) (settings : Settings) (library : Library) :
    (∀ a, Analysis.ofModule m source filename moduleName settings library = .ok a →
      ∃ calls : List Expr, calls.Perm (a.withoutComments.reported m) ∧
        a.withoutComments.check m = calls.map a.diagnosticOf ∧
        checkModule m source filename moduleName settings library =
          .ok ((calls.filter fun c => ¬ a.Silenced c).map a.diagnosticOf)) ∧
      ∀ terminals ⊆ settings.terminalMethods,
        checkModule m source filename moduleName { settings with terminalMethods := terminals }
            library =
          List.filter (fun d => terminals.contains d.method) <$>
            checkModule m source filename moduleName settings library := by
  constructor
  · intro a ha
    obtain ⟨calls, hperm, hwithout, hcheck⟩ := a.check_withoutComments hm
    exact ⟨calls, hperm, hwithout, by rw [checkModule_of_ok ha, hcheck]⟩
  · intro terminals hsub
    have hfew := Analysis.ofModule_withSettings m source filename moduleName settings
      { settings with terminalMethods := terminals } library
    cases ha : Analysis.ofModule m source filename moduleName settings library with
    | error err =>
      rw [ha] at hfew
      rw [checkModule, checkModule, ha, hfew]
      rfl
    | ok a =>
      obtain ⟨-, rfl, -⟩ := Analysis.ofModule_ok ha
      rw [ha] at hfew
      rw [checkModule_of_ok ha, checkModule_of_ok hfew]
      exact congrArg Except.ok (a.check_withTerminals hm hsub)

namespace SilencedLine

def site (n line : Nat) : Site := ⟨n, ⟨line, 4, line, 4⟩⟩

/-- `log.info()` emitted by a method on a line, numbered from the given number on. -/
def emitted (n line : Nat) (method : String) : Expr :=
  .call (site n line) (.attr (site (n + 1) line) (.call (site (n + 2) line)
    (.attr (site (n + 3) line) (.name (site (n + 4) line) "log") "info") [] []) method) [] []

/-- The call below the directive. -/
def silenced : Expr := emitted 2 6 "send"

/-- The call one line further down, which it does not reach. -/
def heard : Expr := emitted 7 7 "msg"

def body : List Stmt := [.value (some silenced), .value (some heard)]

/-- The program that makes both calls. -/
def module : Module := program default (site 0 4) (site 1 4) body

/-- Its text, with a directive on the fifth line. -/
def source : List Char :=
  ("import context\nimport zerolog\nfrom zerolog import log\ndef f(c: context.Context):\n" ++
    "    # nolint: logctx\n    log.info().send()\n    log.info().msg()\n").toList

private theorem module_numbered : module.Numbered := by decide

/-- Without the comments both calls are reported, and the directive applies to the first. -/
theorem calls_eq :
    ∃ a, Analysis.ofModule module source "sample.py" "sample" {} .standard = .ok a ∧
      a.withoutComments.reported module = [silenced, heard] ∧ a.Silenced silenced ∧
      ¬ a.Silenced heard := by
  have hargs : ∀ arg ∈ ([] ++ [] : List Expr), isArgument arg := by simp
  have hevent (site site' site'' : Site) : Chain (fun _ => none) .event
      (.call site (.attr site' (.name site'' "log") "info") [] []) :=
    .call _ _ (.log _) (.start (by decide)) hargs
  have hcode : Code (fun _ => none) body :=
    .emit _ _ (hevent _ _ _) (by decide) hargs (.emit _ _ (hevent _ _ _) (by decide) hargs (.nil _))
  obtain ⟨info, env, hinfo, hplain, henv, hresolved⟩ :=
    hcode.typeInfo_program default (site 0 4) (site 1 4) module_numbered "sample"
  obtain ⟨a, hok, rfl, hsettings, hcomments⟩ :=
    Analysis.exists_ofModule hinfo source "sample.py" {}
  have ha : a.withoutComments.Standard := ⟨hsettings, hplain, rfl⟩
  have hreported : a.withoutComments.reported module = missing (fun _ => false) body := by
    rw [a.withoutComments.reported_eq_follow module_numbered, module, followAll_program]
    exact ha.followAll_code hcode henv hresolved (Tracker.mirrors_empty ["c"] _)
  have hfound : Comment.ofSource source = [⟨5, "# nolint: logctx".toList⟩] := by decide +kernel
  have hsuppresses : a.suppresses silenced = true ∧ a.suppresses heard = false := by
    simp only [silenced, heard, emitted, Analysis.suppresses, Analysis.isSuppressed, hcomments,
      hsettings, hfound]
    decide
  refine ⟨a, hok, hreported, (a.suppresses_iff _).mp hsuppresses.1, ?_⟩
  rw [← a.suppresses_iff, hsuppresses.2]
  exact Bool.false_ne_true

/-- Only the call that the directive does not reach is reported, and not even this one if its method
is not among the terminal ones. -/
theorem directive_and_terminals_apply :
    module.Numbered ∧ ["send"] ⊆ ({} : Settings).terminalMethods ∧
      ∃ a, Analysis.ofModule module source "sample.py" "sample" {} .standard = .ok a ∧
        a.withoutComments.reported module = [silenced, heard] ∧
        checkModule module source "sample.py" "sample" {} .standard =
          .ok [a.diagnosticOf heard] ∧
        checkModule module source "sample.py" "sample" { terminalMethods := ["send"] } .standard =
          .ok [] := by
  have hsub : ["send"] ⊆ ({} : Settings).terminalMethods := by decide
  obtain ⟨a, hok, hreported, hsilenced, hheard⟩ := calls_eq
  obtain ⟨hdirectives, hterminals⟩ :=
    directives_and_terminals_filter module_numbered source "sample.py" "sample" {} .standard
  obtain ⟨calls, hperm, -, hcheck⟩ := hdirectives a hok
  have hleft : calls.filter (fun c => ¬ a.Silenced c) = [heard] := by
    rw [hreported] at hperm
    have hfilter := hperm.filter (fun c => ¬ a.Silenced c)
    rw [List.filter_cons_of_neg (by simpa using hsilenced),
      List.filter_cons_of_pos (by simpa using hheard), List.filter_nil] at hfilter
    exact List.perm_singleton.mp hfilter
  rw [hleft] at hcheck
  refine ⟨module_numbered, hsub, a, hok, hreported, hcheck, ?_⟩
  rw [hterminals ["send"] hsub, hcheck]
  rfl

end SilencedLine

end ContextLint.Rule
