import ContextLint.Proofs.Fluent.Injection
import ContextLint.Proofs.Rule.Exact
import ContextLint.Proofs.Rule.InStep

/-!
# More contexts, fewer diagnostics

The fewer methods a context must have, the more types count as contexts, the more chains and names
carry one, and the fewer calls are reported. The two runs compared know different things of names,
but take the same names for loggers, and what the stricter one takes to carry a context does so for
the other one, too.
-/

namespace ContextLint.Fluent

open Source Typing

variable {c : Capability} {methods : List String}

/-- Values of the class that had all methods still have them if fewer are asked for. -/
theorem Capability.conforms_of_subset (hne : methods ≠ []) (hsub : methods ⊆ c.methods)
    {qualname : String} (h : c.conforms qualname = true) :
    { c with methods }.conforms qualname = true := by
  simp only [conforms, Bool.and_eq_true, Bool.not_eq_true', List.isEmpty_eq_false_iff,
    List.all_eq_true] at h ⊢
  exact ⟨hne, fun x hx => h.2 x (hsub hx)⟩

/-- What counted as a context still does if fewer methods are asked for. -/
theorem Capability.classify_of_subset (hne : methods ≠ []) (hsub : methods ⊆ c.methods)
    {ref : Option TypeRef} (h : c.classify ref = true) :
    { c with methods }.classify ref = true := by
  cases ref with
  | none => cases h
  | some r =>
    simp only [classify, holds, Bool.and_eq_true, Bool.or_eq_true] at h ⊢
    exact ⟨h.1, h.2.imp id (conforms_of_subset hne hsub)⟩

variable {role : Role} {e : Expr}

namespace Inquiry

variable {q : Inquiry} {c : Capability}

/-- If more types count as contexts, a call that injected one still does. -/
theorem injects_of_classify (hc : ∀ ref, q.capability.classify ref = true → c.classify ref = true)
    (h : q.injects role e = true) : { q with capability := c }.injects role e = true := by
  obtain ⟨_, _, receiver, args, keywords, arg, rfl, harg, hcontext, hreceiver⟩ :=
    exists_of_injects h
  simp only [injects, beq_self_eq_true, Bool.true_and, harg, Bool.and_eq_true]
  exact ⟨hc _ hcontext, hreceiver⟩

/-- If more types count as contexts, a chain that carried one still does. -/
theorem carries_of_classify (hc : ∀ ref, q.capability.classify ref = true → c.classify ref = true)
    (h : q.carries role e = true) : { q with capability := c }.carries role e = true := by
  fun_induction carries q role e with
  | case1 s s' value name args keywords ih =>
    rw [carries, Bool.or_eq_true]
    rw [Bool.or_eq_true] at h
    exact h.imp (injects_of_classify hc) ih
  | case2 => cases h

end Inquiry

end ContextLint.Fluent

namespace ContextLint.Rule

open Source Fluent Typing Report

variable {k k' : Knowledge} {e : Expr}

namespace Tracker

/-- The second knowledge is of a logger if and only if the first one is, and of something that
carries a context if the first one is. Neither is of a logger and of something else. -/
inductive Widens : Knowledge → Knowledge → Prop
  | logger {s s'} (h : s = .carries → s' = .carries) : Widens (some s, none) (some s', none)
  | other {s s'} (h : s = some .carries → s' = some .carries) : Widens (none, s) (none, s')

private theorem Widens.settle (h : Widens k k') :
    Tracker.settle k = k ∧ Tracker.settle k' = k' := by
  cases h <;> exact ⟨rfl, rfl⟩

private theorem Widens.state (h : Widens k k') (hk : k.state = .carries) : k'.state = .carries := by
  cases h with
  | logger hs => exact hs hk
  | @other s s' hs =>
    have hcarries : s = some .carries := by
      cases s with
      | none => cases hk
      | some s => exact congrArg some hk
    rw [hs hcarries]
    rfl

/-- The second tracker knows of every name what the first one knows, or more in its favour. -/
structure Below (t u : Tracker) : Prop where
  /-- Names are followed in both or in neither. -/
  records : t.records = u.records
  /-- Names that carry a context still do. -/
  widens : ∀ x, Widens (t.known x) (u.known x)

namespace Below

variable {t u t' u' : Tracker}

private theorem idle : Below idle idle := ⟨rfl, fun _ => .other id⟩

section

variable (h : t.Below u)

include h

private theorem child : t.child.Below u.child := by
  unfold Tracker.child
  rw [← h.records]
  cases t.records with
  | false => exact ⟨rfl, fun _ => .other id⟩
  | true => exact h

private theorem clause : t.clause.Below u.clause := ⟨h.records, h.child.widens⟩

private theorem record (name : String) (hk : Widens (settle k) (settle k')) :
    (t.record name k).Below (u.record name k') where
  records := by rw [record_records, record_records, h.records]
  widens x := by
    rw [known_record, known_record]
    split
    · exact hk
    · exact h.widens x

private theorem reset (name : String) : (t.reset name).Below (u.reset name) :=
  h.record name (show Widens (settle (none, none)) (settle (none, none)) from .other id)

private theorem adopt (hinner : t'.Below u') (name : String) :
    (t.adopt t' name).Below (u.adopt u' name) := by
  rw [adopt_eq, adopt_eq, ← h.records]
  apply h.record
  cases t.records with
  | false => exact .other id
  | true =>
    have hname := hinner.widens name
    rwa [if_pos rfl, if_pos rfl, hname.settle.1, hname.settle.2]

/-- A name that carries a context for the first tracker does so for the second one. -/
theorem carries {x : String} (hx : t.carries x = true) : u.carries x = true := by
  have hstate (t : Tracker) : t.carries x = ((t.known x).state == .carries) := rfl
  rw [hstate, beq_iff_eq] at hx ⊢
  exact (h.widens x).state hx

private theorem rootCarries (he : t.rootCarries e = true) :
    u.rootCarries e = true := by
  unfold Tracker.rootCarries at he ⊢
  split at he
  · exact h.carries he
  · cases he

/-- A chain that the first tracker covers is covered by the second one. -/
theorem covers {settings : Settings} (he : t.covers settings e = true) :
    u.covers settings e = true := by
  unfold Tracker.covers at he ⊢
  split at he
  · cases he
  · next x hx =>
    have hcovers (k k' : Knowledge) (producing : Bool) (hk : Widens k k')
        (h : (k.2 == some .carries || (k.1 == some .carries && producing)) = true) :
        (k'.2 == some .carries || (k'.1 == some .carries && producing)) = true := by
      simp only [Bool.or_eq_true, Bool.and_eq_true, beq_iff_eq] at h ⊢
      cases hk with
      | logger hs =>
        obtain ⟨hs', hp⟩ := h.resolve_left (by simp)
        exact .inr ⟨congrArg some (hs (Option.some.inj hs')), hp⟩
      | other hs => exact .inl (hs (h.resolve_right (by simp)))
    exact hcovers _ _ _ (h.widens x) he

end

end Below

end Tracker

variable {t u : Tracker} {m : Module}

namespace Analysis

variable (a : Analysis)

/-- The same analysis with other methods that make a context. -/
def withMethods (methods : List String) : Analysis :=
  a.withSettings { a.settings with capabilityMethods := methods }

variable {a} {methods : List String} (hne : methods ≠ [])
  (hsub : methods ⊆ a.settings.capabilityMethods)

include hne hsub

/-- With fewer methods asked for, a chain that carried a context still does. -/
theorem carries_withMethods {role : Role} (h : a.inquiry.carries role e = true) :
    (a.withMethods methods).inquiry.carries role e = true := by
  have hclassify (ref : Option TypeRef) (href : a.inquiry.capability.classify ref = true) :
      (a.withMethods methods).capability.classify ref = true :=
    Capability.classify_of_subset (c := a.capability) hne hsub href
  exact Inquiry.carries_of_classify hclassify h

private theorem injected_withMethods (h : a.injected e = true) :
    (a.withMethods methods).injected e = true := by
  have hcarries (role : Role) : a.inquiry.carries role e = true →
      (a.withMethods methods).inquiry.carries role e = true := carries_withMethods hne hsub
  unfold injected at h ⊢
  change (if a.info.hasType e a.settings.builderType = true then _ else
    a.info.hasType e a.settings.producerConfigType && _) = true
  split at h
  · next htype =>
    rw [if_pos htype]
    exact hcarries .builder h
  · next htype =>
    rw [Bool.and_eq_true] at h
    rw [if_neg htype, h.1, Bool.true_and]
    exact hcarries .producer h.2

/-- What is built on a name or chain that carries a context still is. -/
theorem builderOf_withMethods (h : t.Below u) (he : a.builderOf t e = some .carries) :
    (a.withMethods methods).builderOf u e = some .carries := by
  have hcarries : (a.injected e || t.rootCarries e) = true := by
    by_contra hnot
    rw [builderOf, if_neg hnot] at he
    split at he <;> cases he
  have hwider : ((a.withMethods methods).injected e || u.rootCarries e) = true := by
    rw [Bool.or_eq_true] at hcarries ⊢
    exact hcarries.imp (injected_withMethods hne hsub) h.rootCarries
  rw [builderOf, if_pos hwider]

/-- An expression finishes a logger for both analyses or for neither, and the logger that carries a
context for the first one does so for the second one. -/
theorem producerOf_withMethods (h : t.Below u) (e : Expr) :
    (a.producerOf t e = none ∧ (a.withMethods methods).producerOf u e = none) ∨
      ∃ s s', a.producerOf t e = some s ∧ (a.withMethods methods).producerOf u e = some s' ∧
        (s = .carries → s' = .carries) := by
  unfold producerOf
  split
  · next site site' value method args keywords =>
    by_cases hlogger : (method == a.settings.finalizingMethod &&
        a.info.hasType value a.settings.producerConfigType) = true
    · refine .inr ⟨_, _, if_pos hlogger, if_pos hlogger, fun hs => ?_⟩
      have hcarries : (a.inquiry.carries .producer value ||
          t.rootCarries (.call site (.attr site' value method) args keywords)) = true := by
        by_contra hnot
        rw [if_neg hnot] at hs
        cases hs
      refine if_pos ?_
      rw [Bool.or_eq_true] at hcarries ⊢
      exact hcarries.imp (carries_withMethods hne hsub) h.rootCarries
    · exact .inl ⟨if_neg hlogger, if_neg hlogger⟩
  · exact .inl ⟨rfl, rfl⟩

/-- A binding makes the same names loggers, and those that carry a context still do. -/
theorem widens_withMethods (h : t.Below u) (e : Expr) :
    Tracker.Widens (Tracker.settle (a.producerOf t e, a.builderOf t e))
      (Tracker.settle ((a.withMethods methods).producerOf u e,
        (a.withMethods methods).builderOf u e)) := by
  rcases producerOf_withMethods hne hsub h e with ⟨hp, hp'⟩ | ⟨s, s', hp, hp', hs⟩
  · rw [hp, hp']
    exact .other (builderOf_withMethods hne hsub h)
  · rw [hp, hp']
    exact .logger hs

/-- Binding a name keeps the second tracker above the first. -/
theorem tracked_withMethods (h : t.Below u) (name : String) (e : Expr) :
    (a.tracked t name e).Below ((a.withMethods methods).tracked u name e) := by
  cases hr : t.records with
  | false =>
    rw [a.tracked_of_not_records hr,
      (a.withMethods methods).tracked_of_not_records (h.records.symm.trans hr)]
    exact h
  | true =>
    rw [a.tracked_eq_record hr, tracked_eq_record _ (h.records.symm.trans hr)]
    exact h.record name (widens_withMethods hne hsub h e)

/-- A call that is reported with fewer methods asked for is reported with all of them. -/
theorem flagged_withMethods (h : t.Below u) {c : Expr}
    (hc : (a.withMethods methods).flagged c u = true) : a.flagged c t = true := by
  cases hreceiver : c.receiver? with
  | none =>
    rw [flagged_of_receiver?_eq_none hreceiver] at hc
    cases hc
  | some receiver =>
    rw [a.flagged_eq hreceiver]
    rw [(a.withMethods methods).flagged_eq hreceiver] at hc
    simp only [Bool.and_eq_true, Bool.not_eq_true'] at hc ⊢
    obtain ⟨hemits, ⟨hcarries, hcovers⟩, hsuppresses⟩ := hc
    refine ⟨hemits, ⟨?_, ?_⟩, hsuppresses⟩
    · refine Bool.eq_false_iff.mpr fun hcarried => ?_
      rw [carries_withMethods hne hsub hcarried] at hcarries
      cases hcarries
    · refine Bool.eq_false_iff.mpr fun hcovered => ?_
      exact Bool.eq_false_iff.mp hcovers (h.covers hcovered)

/-- With fewer methods asked for, some of the calls are reported that are reported with all. -/
theorem reported_withMethods (hm : m.Numbered) :
    ((a.withMethods methods).reported m).Sublist (a.reported m) := by
  have hstep : InStep a (a.withMethods methods) Tracker.Below fun xs ys => ys.Sublist xs :=
    { idle := .idle
      child := Tracker.Below.child
      clause := Tracker.Below.clause
      reset := fun x h => h.reset x
      adopt := fun x h hinner => h.adopt hinner x
      assign := fun x e h => tracked_withMethods hne hsub h x e
      judge := by
        intro t u c h
        unfold judged
        split
        · next hc => rw [if_pos (flagged_withMethods hne hsub h hc)]
        · exact List.nil_sublist _
      nil := .slnil
      append := List.Sublist.append }
  exact hstep.reported hm

/-- With fewer methods asked for, the diagnostics are some of those with all, in the same order. -/
theorem check_withMethods (hm : m.Numbered) :
    ((a.withMethods methods).check m).Sublist (a.check m) := by
  rw [check_eq_reported, check_eq_reported]
  exact mergeSort_sublist Diagnostic.placeLe_trans Diagnostic.placeLe_total
    ((reported_withMethods hne hsub hm).map a.diagnosticOf)

end Analysis

/-- Asking a context for fewer methods, but for some, adds no diagnostic: the analysis fails as
before or gives some of the diagnostics in the same order. -/
theorem diagnostics_sublist_of_fewer_methods {m : Module} (hm : m.Numbered) (source : List Char)
    (filename moduleName : String) (settings : Settings) (library : Library)
    {methods : List String} (hne : methods ≠ []) (hsub : methods ⊆ settings.capabilityMethods) :
    (∃ err, checkModule m source filename moduleName settings library = .error err ∧
      checkModule m source filename moduleName { settings with capabilityMethods := methods }
        library = .error err) ∨
    ∃ found fewer, checkModule m source filename moduleName settings library = .ok found ∧
      checkModule m source filename moduleName { settings with capabilityMethods := methods }
        library = .ok fewer ∧ fewer.Sublist found := by
  have hfew := Analysis.ofModule_withSettings m source filename moduleName settings
    { settings with capabilityMethods := methods } library
  cases ha : Analysis.ofModule m source filename moduleName settings library with
  | error err =>
    rw [ha] at hfew
    refine .inl ⟨err, ?_, ?_⟩
    · rw [checkModule, ha]
      rfl
    · rw [checkModule, hfew]
      rfl
  | ok a =>
    obtain ⟨-, rfl, -⟩ := Analysis.ofModule_ok ha
    rw [ha] at hfew
    exact .inr ⟨_, _, checkModule_of_ok ha, checkModule_of_ok hfew,
      a.check_withMethods hne hsub hm⟩

namespace PartialContext

/-- `log.info()`. -/
def event : Expr := .call (.ofId 6) (.attr (.ofId 7) (.name (.ofId 8) "log") "info") [] []

/-- `log.info().ctx(c)`. -/
def linked : Expr := .call (.ofId 4) (.attr (.ofId 5) event "ctx") [.name (.ofId 9) "c"] []

/-- `log.info().ctx(c).msg()`. -/
def emitted : Expr := .call (.ofId 2) (.attr (.ofId 3) linked "msg") [] []

/-- The program that emits the event. -/
def module : Module := program default (.ofId 0) (.ofId 1) [.value (some emitted)]

private theorem module_numbered : module.Numbered := by decide

/-- A context is what has these methods, or bears a name that nothing bears. -/
def asking (methods : List String) : Settings :=
  { capabilityType := "scope.Scope", capabilityMethods := methods }

/-- The call is reported if both methods are asked for, and not if only one is. -/
theorem exists_reported :
    (∃ a, Analysis.ofModule module [] "sample.py" "sample" (asking ["done", "cancel"]) .standard =
        .ok a ∧ ((a.reported module).map a.diagnosticOf).map Diagnostic.method = ["msg"]) ∧
      ∃ a, Analysis.ofModule module [] "sample.py" "sample" (asking ["done"]) .standard = .ok a ∧
        (a.reported module).map a.diagnosticOf = [] := by
  decide +kernel

/-- A context that has one of two methods is not enough if both are asked for, but it is if only
this one is. -/
theorem fewer_methods_accept :
    module.Numbered ∧ ["done"] ⊆ (asking ["done", "cancel"]).capabilityMethods ∧
      ∃ found fewer,
        checkModule module [] "sample.py" "sample" (asking ["done", "cancel"]) .standard =
          .ok found ∧
        checkModule module [] "sample.py" "sample" (asking ["done"]) .standard = .ok fewer ∧
        fewer.Sublist found ∧ found.map Diagnostic.method = ["msg"] ∧ fewer = [] := by
  have hsub : ["done"] ⊆ (asking ["done", "cancel"]).capabilityMethods := by decide
  obtain ⟨⟨a, ha, hreported⟩, b, hb, hnone⟩ := exists_reported
  refine ⟨module_numbered, hsub, _, _, checkModule_of_ok ha, checkModule_of_ok hb, ?_, ?_, ?_⟩
  · rcases diagnostics_sublist_of_fewer_methods module_numbered [] "sample.py" "sample"
        (asking ["done", "cancel"]) .standard (List.cons_ne_nil "done" []) hsub with
      ⟨err, herr, -⟩ | ⟨found, fewer, hfound, hfewer, hsublist⟩
    · rw [checkModule_of_ok ha] at herr
      cases herr
    · obtain rfl := Except.ok.inj ((checkModule_of_ok ha).symm.trans hfound)
      obtain rfl := Except.ok.inj ((checkModule_of_ok hb).symm.trans hfewer)
      exact hsublist
  · have hone := a.check_eq_reported module
    have hlength := congrArg List.length hreported
    rw [List.length_map] at hlength
    obtain ⟨d, hd⟩ := List.length_eq_one_iff.mp hlength
    rw [hd, List.mergeSort_singleton] at hone
    rw [hone, ← hd, hreported]
  · rw [b.check_eq_reported, hnone, List.mergeSort_nil]

end PartialContext

end ContextLint.Rule
