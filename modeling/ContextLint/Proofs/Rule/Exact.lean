import ContextLint.Proofs.Fluent.Program
import ContextLint.Proofs.Rule.Carried
import ContextLint.Proofs.Rule.Straight

/-!
# Exactness on fluent code

A tracker that follows well-typed fluent code knows of each name just whether its value carries the
context. So the rule reports exactly the calls that emit an event without it.
-/

namespace ContextLint.Rule

open Source Scope Typing Fluent Report

variable {e : Expr}

namespace Tracker

variable {t : Tracker} {Γ : Kinds} {φ : String → Bool}

@[simp] private theorem carries_reset (t : Tracker) (name x : String) :
    (t.reset name).carries x = if x = name then false else t.carries x := by
  by_cases hx : x = name <;> simp [carries, state, hx]

@[simp] private theorem carries_setProducer (t : Tracker) (name x : String) (s : CapabilityState) :
    (t.setProducer name s).carries x = if x = name then s == .carries else t.carries x := by
  by_cases hx : x = name <;> simp [carries, state, setProducer, hx]

@[simp] private theorem carries_setBuilder (t : Tracker) (name x : String) (s : CapabilityState) :
    (t.setBuilder name s).carries x = if x = name then s == .carries else t.carries x := by
  by_cases hx : x = name <;> simp [carries, state, setBuilder, hx]

/-- The tracker knows of each name whether its value carries the context. Only loggers are kept
apart from other values, and no name is kept twice. -/
structure Mirrors (t : Tracker) (Γ : Kinds) (φ : String → Bool) : Prop where
  /-- Names are followed. -/
  records : t.records = true
  /-- What is known of a name is its flag. -/
  carries : ∀ x, t.carries x = φ x
  /-- What is kept as a logger is one and is kept as nothing else. -/
  loggers : ∀ x s, t.producers.get? x = some s → t.builders.get? x = none ∧ Γ x = some .logger

/-- Nothing is known at the start of a function. -/
theorem mirrors_empty (params : List String) (Γ : Kinds) :
    (Tracker.resetAll {} params).Mirrors Γ fun _ => false where
  records := by simp
  carries x := by simp [Tracker.carries, state]
  loggers x s hs := by simp at hs

section

variable (h : t.Mirrors Γ φ)

include h

private theorem Mirrors.rootCarries (e : Expr) :
    t.rootCarries e = e.rootName?.any φ := by
  unfold Tracker.rootCarries
  cases e.rootName? with
  | none => rfl
  | some x => exact h.carries x

/-- The name under an event covers it exactly if the name's value carries the context. -/
theorem Mirrors.covers (he : Chain Γ .event e) :
    t.covers {} e = e.rootName?.any φ := by
  obtain ⟨x, hx⟩ := he.exists_root
  have hcarries := h.carries x
  simp only [Tracker.covers, hx, Option.any_some, ← hcarries, Tracker.carries, state]
  cases hp : t.producers.get? x with
  | none => cases t.builders.get? x <;> simp
  | some s =>
    obtain ⟨hb, hlogger⟩ := h.loggers x s hp
    simp [hb, he.starts_event hx hlogger]

/-- A name that is bound anew gets the flag of its value; the other names keep theirs. -/
theorem Mirrors.update {x : String} {t' : Tracker} {k : Kind} {b : Bool}
    (hrecords : t'.records = true) (hcarries : ∀ y, t'.carries y = if y = x then b else t.carries y)
    (hothers : ∀ y, y ≠ x → t'.producers.get? y = t.producers.get? y ∧
      t'.builders.get? y = t.builders.get? y)
    (hlogger : ∀ s, t'.producers.get? x = some s → t'.builders.get? x = none ∧ k = .logger) :
    t'.Mirrors (Function.update Γ x (some k)) (Function.update φ x b) where
  records := hrecords
  carries y := by
    by_cases hy : y = x
    · simp [hcarries, hy]
    · rw [hcarries, if_neg hy, h.carries, Function.update_of_ne hy]
  loggers y s hs := by
    by_cases hy : y = x
    · subst hy
      obtain ⟨hnone, rfl⟩ := hlogger s hs
      exact ⟨hnone, Function.update_self ..⟩
    · obtain ⟨hproducers, hbuilders⟩ := hothers y hy
      rw [hbuilders, Function.update_of_ne hy]
      exact h.loggers y s (hproducers ▸ hs)

private theorem Mirrors.reset (x : String) (k : Kind) :
    (t.reset x).Mirrors (Function.update Γ x (some k)) (Function.update φ x false) :=
  h.update h.records (carries_reset t x) (fun y hy => by simp [hy]) (by simp)

private theorem Mirrors.setBuilder (x : String) (k : Kind) (s : CapabilityState) :
    (t.setBuilder x s).Mirrors (Function.update Γ x (some k))
      (Function.update φ x (s == .carries)) :=
  h.update h.records (fun y => carries_setBuilder t x y s)
    (fun y hy => by simp [Tracker.setBuilder, hy]) (by simp [Tracker.setBuilder])

private theorem Mirrors.setProducer (x : String) (s : CapabilityState) :
    (t.setProducer x s).Mirrors (Function.update Γ x (some .logger))
      (Function.update φ x (s == .carries)) :=
  h.update h.records (fun y => carries_setProducer t x y s)
    (fun y hy => by simp [Tracker.setProducer, hy]) (by simp [Tracker.setProducer])

end

end Tracker

variable {site site' : Site} {m : String} {args keywords : List Expr}

/-- A method call whose arguments make no calls is judged before its receiver. -/
theorem exprActs_end (hargs : ∀ arg ∈ args ++ keywords, isArgument arg) :
    exprActs (.call site (.attr site' e m) args keywords) =
      .judge (.call site (.attr site' e m) args keywords) :: exprActs e := by
  have hacts : ∀ es : List Expr, (∀ arg ∈ es, isArgument arg) → exprsActs es = [] := by
    intro es hes
    induction es with
    | nil => rfl
    | cons arg rest ih =>
      rw [List.forall_mem_cons] at hes
      rw [exprsActs, ih hes.2, List.append_nil]
      cases arg with
      | constant | name => rfl
      | _ => cases hes.1
  rw [List.forall_mem_append] at hargs
  rw [exprActs, exprActs, hacts args hargs.1, hacts keywords hargs.2, List.append_nil,
    List.append_nil]

namespace Analysis

variable (a : Analysis) {e : Expr} {t : Tracker}

/-- The code behind an assignment is followed with what is known of the new value. -/
theorem followAll_assign (h : a.followAll (exprActs e) t = (t, [])) (site : Site) (x : String)
    (rest : List Stmt) :
    (a.followAll (stepsActs (bodySteps (.assign [.name site x] e :: rest))) t).2 =
      (a.followAll (stepsActs (bodySteps rest)) (a.tracked t x e)).2 := by
  simp [bodySteps, stmtSteps, assignSteps, stepsActs, stepActs, followAll_append, followAll,
    follow, h]

/-- The code behind an expression is followed with the same knowledge. -/
theorem followAll_value {found : List Expr} (h : a.followAll (exprActs e) t = (t, found))
    (rest : List Stmt) :
    (a.followAll (stepsActs (bodySteps (.value (some e) :: rest))) t).2 =
      found ++ (a.followAll (stepsActs (bodySteps rest)) t).2 := by
  simp [bodySteps, stmtSteps, stepsActs, stepActs, followAll_append, h]

end Analysis

/-- A logger carries the context only through the name it is built on. -/
theorem carried_logger {Γ : Kinds} (h : Chain Γ .logger e) (φ : String → Bool) :
    carried φ e = e.rootName?.any φ := by
  generalize hk : Kind.logger = k at h
  induction h with
  | log site => rfl
  | new site site' site'' _ => simp [carried, Expr.rootName?, Expr.chainRoot]
  | var site _ => rfl
  | call site site' _ hm _ ih =>
    cases hm with
    | setting hsetting =>
      have hctx : ∀ m ∈ settingMethods, (m == "ctx") = false := by decide
      rw [carried, hctx _ hsetting, Bool.false_and, Bool.or_false, ih rfl]
      rfl
    | _ => cases hk

namespace Analysis.Standard

variable {a : Analysis} {Γ : Kinds} {env : Env} {k : Kind} {e : Expr} {t : Tracker}
  {φ : String → Bool}

section

variable (ha : a.Standard) (henv : Fits Γ env) (h : Chain Γ k e)
  (hbare : ∀ site, e ≠ .name site "log") (hknows : Knows a.info.decls env a.info.typeOf? e)

include ha henv h hbare hknows

/-- The type of a chain is known. -/
theorem typeOf?_chain :
    a.info.typeOf? e = some (instanceOf k.typeName) :=
  hknows e e.mem_nodes_self _ (h.typeIn_of_ne ha.decls henv hbare)

/-- A value carries the context if the rule finds it injected or the name under it carries it. -/
theorem injected_or_root (φ : String → Bool) :
    (a.injected e || e.rootName?.any φ) = carried φ e := by
  have htype := ha.typeOf?_chain henv h hbare hknows
  have hevent : a.info.hasType e a.settings.builderType = (k == .event) := by
    rw [ha.settings]
    exact hasType_event ha htype
  have hconfig : a.info.hasType e a.settings.producerConfigType = (k == .config) := by
    rw [ha.settings]
    exact hasType_config ha htype
  rw [Analysis.injected, hevent, hconfig]
  cases k with
  | logger => exact (carried_logger h φ).symm
  | config =>
    have hrole : Kind.config.Suits .producer := rfl
    rw [carried_eq ha henv h hrole hknows, Bool.or_comm]
    rfl
  | event =>
    have hrole : Kind.event.Suits .builder := rfl
    rw [carried_eq ha henv h hrole hknows, Bool.or_comm]
    rfl

end

section

variable (ha : a.Standard)

include ha

/-- A chain finishes no logger. -/
theorem producerOf_chain (h : Chain Γ k e) (t : Tracker) :
    a.producerOf t e = none := by
  cases h with
  | log site => rfl
  | new site site' site'' _ => simp [Analysis.producerOf, ha.settings]
  | var site _ => rfl
  | call site site' _ hm _ =>
    rw [Analysis.producerOf, ha.settings, hm.not_finalizing]
    rfl

/-- Binding a name to the value of a chain. -/
theorem mirrors_bind (henv : Fits Γ env) (h : Chain Γ k e) (hbare : ∀ site, e ≠ .name site "log")
    (hknows : Knows a.info.decls env a.info.typeOf? e) (ht : t.Mirrors Γ φ) (x : String) :
    (a.tracked t x e).Mirrors (Function.update Γ x (some k))
      (Function.update φ x (carried φ e)) := by
  rw [a.tracked_eq ht.records, ha.producerOf_chain h, Analysis.builderOf, ht.rootCarries,
    ha.injected_or_root henv h hbare hknows]
  cases carried φ e with
  | true => exact ht.setBuilder x k .carries
  | false =>
    rw [if_neg Bool.false_ne_true]
    by_cases hbuilds : (a.info.hasType e a.settings.builderType ||
        a.info.hasType e a.settings.producerConfigType) = true
    · rw [if_pos hbuilds]
      exact ht.setBuilder x k .absent
    · rw [if_neg hbuilds]
      exact ht.reset x k

/-- Binding a name to a finished logger. -/
theorem mirrors_finish (henv : Fits Γ env) (h : Chain Γ .config e)
    (hknows : Knows a.info.decls env a.info.typeOf?
      (.call site (.attr site' e "logger") args keywords)) (ht : t.Mirrors Γ φ) (x : String) :
    (a.tracked t x (.call site (.attr site' e "logger") args keywords)).Mirrors
      (Function.update Γ x (some .logger))
      (Function.update φ x (carried φ (.call site (.attr site' e "logger") args keywords))) := by
  have htype : a.info.typeOf? e = some (instanceOf Kind.config.typeName) :=
    hknows.receiver e e.mem_nodes_self _ (h.typeIn_of_kind ha.decls henv (by decide))
  have hconfig : a.info.hasType e a.settings.producerConfigType = true := by
    rw [ha.settings]
    exact hasType_config ha htype
  have hcarried : (a.inquiry.carries .producer e ||
      t.rootCarries (.call site (.attr site' e "logger") args keywords)) =
        carried φ (.call site (.attr site' e "logger") args keywords) := by
    have hrole : Kind.config.Suits .producer := rfl
    have hlogger : ("logger" == "ctx" && passesContext (args ++ keywords)) = false := rfl
    rw [ht.rootCarries, carried, hlogger, Bool.or_false, Bool.or_comm,
      carried_eq ha henv h hrole hknows.receiver]
    rfl
  rw [a.tracked_eq ht.records, Analysis.producerOf, hconfig, ha.settings, hcarried]
  cases carried φ _ with
  | true => exact ht.setProducer x .carries
  | false => exact ht.setProducer x .absent

/-- What emits no event is not reported. -/
theorem flagged_of_silent (h : Silent e) (t : Tracker) :
    a.flagged e t = false := by
  have hemits : a.emits e = false := by
    unfold Analysis.emits
    split
    · rw [ha.settings, h _ rfl, Bool.and_false]
    · rfl
  rw [Analysis.flagged, a.reports_of_not_emits _ hemits]
  rfl

/-- A call that emits an event is reported exactly if the event lacks the context. -/
theorem flagged_emit (henv : Fits Γ env) (h : Chain Γ .event e)
    (hm : m ∈ Library.eventTerminalMethods) (hknows : Knows a.info.decls env a.info.typeOf? e)
    (ht : t.Mirrors Γ φ) :
    a.flagged (.call site (.attr site' e m) args keywords) t = !carried φ e := by
  have htype : a.info.typeOf? e = some (instanceOf Kind.event.typeName) :=
    hknows e e.mem_nodes_self _ (h.typeIn_of_kind ha.decls henv (by decide))
  have hterminal : ∀ m ∈ Library.eventTerminalMethods,
      ({} : Settings).terminalMethods.contains m := by decide
  have hemits : a.emits (.call site (.attr site' e m) args keywords) = true := by
    rw [Analysis.emits, ha.settings, hterminal m hm, Bool.and_true]
    exact hasType_event ha htype
  have hrole : Kind.event.Suits .builder := rfl
  have hreceiver : (Expr.call site (.attr site' e m) args keywords).receiver? = some e := rfl
  rw [a.flagged_eq hreceiver, hemits, a.suppresses_of_no_comments ha.comments, ha.settings,
    ht.covers h, carried_eq ha henv h hrole hknows, Bool.not_or,
    Bool.and_comm (!e.rootName?.any φ)]
  simp

/-- A visit to a chain reports nothing. -/
theorem followAll_chain (h : Chain Γ k e) (t : Tracker) :
    a.followAll (exprActs e) t = (t, []) := by
  rw [exprActs_straight e h.straight, a.followAll_judges, Prod.mk_right_inj,
    List.filter_eq_nil_iff]
  intro n hn
  rw [ha.flagged_of_silent (h.silent n (List.mem_of_mem_filter hn))]
  exact Bool.false_ne_true

/-- A visit to a chain with a method call at its end reports this call or nothing. -/
theorem followAll_end (h : Chain Γ k e) (hargs : ∀ arg ∈ args ++ keywords, isArgument arg)
    (t : Tracker) :
    a.followAll (exprActs (.call site (.attr site' e m) args keywords)) t =
      (t, if a.flagged (.call site (.attr site' e m) args keywords) t
        then [.call site (.attr site' e m) args keywords] else []) := by
  rw [exprActs_end hargs, Analysis.followAll, Analysis.follow, ha.followAll_chain h,
    List.append_nil]

/-- Following well-typed code reports the calls that emit an event without the context. -/
theorem followAll_code {body : List Stmt} (h : Code Γ body) (henv : Fits Γ env)
    (hresolved : Resolved a.info.decls a.info.typeOf? env body) (ht : t.Mirrors Γ φ) :
    (a.followAll (stepsActs (bodySteps body)) t).2 = missing φ body := by
  induction h generalizing env t φ with
  | nil Γ => rfl
  | bind site hx he hbare hrest ih =>
    obtain ⟨hknows, hresolved⟩ := hresolved
    rw [he.typeIn_of_ne ha.decls henv hbare] at hresolved
    rw [a.followAll_assign (ha.followAll_chain he t), missing]
    exact ih (henv.bind hx _) hresolved (ha.mirrors_bind henv he hbare hknows ht _)
  | @finish site site' site'' Γ x e args keywords rest hx he hargs hrest ih =>
    obtain ⟨hknows, hresolved⟩ := hresolved
    rw [he.typeIn_finish ha.decls henv] at hresolved
    have hsilent : Silent (.call site' (.attr site'' e "logger") args keywords) := by
      rintro _ ⟨⟩
      decide
    have hvisit : a.followAll (exprActs (.call site' (.attr site'' e "logger") args keywords)) t =
        (t, []) := by
      rw [ha.followAll_end he hargs, ha.flagged_of_silent hsilent]
      rfl
    rw [a.followAll_assign hvisit, missing]
    exact ih (henv.bind hx .logger) hresolved (ha.mirrors_finish henv he hknows ht _)
  | emit site site' he hm hargs hrest ih =>
    obtain ⟨hknows, hresolved⟩ := hresolved
    rw [a.followAll_value (ha.followAll_end he hargs t), missing, ih henv hresolved ht,
      ha.flagged_emit henv he hm hknows.receiver ht]
    cases carried φ _ <;> rfl

end

end Analysis.Standard

/-- A visit to a program follows the body of its function with nothing known. -/
theorem followAll_program (a : Analysis) (characters : CharacterNames) (site site' : Site)
    (body : List Stmt) :
    (a.followAll (moduleActs (program characters site site' body)) .idle).2 =
      (a.followAll (stepsActs (bodySteps body)) (Tracker.resetAll {} ["c"])).2 := by
  have hacts : moduleActs (program characters site site' body) =
      [.forget ["context"], .forget ["zerolog"], .forget ["log"], .forget ["f"],
        .function ["c"] (stepsActs (bodySteps body))] := rfl
  rw [hacts]
  simp [Analysis.followAll, Analysis.follow, Tracker.child, Tracker.idle]

/-- The rule is exact on well-typed fluent code: in a program without comments it reports the calls
that emit an event without the context, by place, and no others. -/
theorem fluent_code_reported_exactly {body : List Stmt} (h : Code (fun _ => none) body)
    (characters : CharacterNames) (site site' : Site)
    (hnum : (program characters site site' body).Numbered) {source : List Char}
    (hcomments : Comment.ofSource source = []) (filename moduleName : String) :
    ∃ a, Analysis.ofModule (program characters site site' body) source filename moduleName {}
        .standard = .ok a ∧
      a.reported (program characters site site' body) = missing (fun _ => false) body ∧
      checkModule (program characters site site' body) source filename moduleName {} .standard =
        .ok (((missing (fun _ => false) body).map a.diagnosticOf).mergeSort
          Diagnostic.placeLe) := by
  obtain ⟨info, env, hinfo, hplain, henv, hresolved⟩ :=
    h.typeInfo_program characters site site' hnum moduleName
  obtain ⟨a, hok, rfl, hsettings, hnone⟩ :=
    Analysis.exists_ofModule hinfo source filename {}
  have ha : a.Standard := ⟨hsettings, hplain, hnone.trans hcomments⟩
  have hreported : a.reported (program characters site site' body) =
      missing (fun _ => false) body := by
    rw [a.reported_eq_follow hnum, followAll_program]
    exact ha.followAll_code h henv hresolved (Tracker.mirrors_empty ["c"] _)
  refine ⟨a, hok, hreported, ?_⟩
  rw [checkModule_of_ok hok, a.check_eq_reported, hreported]

namespace RebuiltLogger

/-- `log.with_().ctx(c)`. -/
def config : Expr :=
  .call (.ofId 2) (.attr (.ofId 3) (.call (.ofId 4) (.attr (.ofId 5) (.name (.ofId 6) "log") "with_")
    [] []) "ctx") [.name (.ofId 7) "c"] []

/-- `x.info()`, numbered from the given number on. -/
def event (n : Nat) : Expr :=
  .call (.ofId n) (.attr (.ofId (n + 1)) (.name (.ofId (n + 2)) "x") "info") [] []

/-- The event is emitted by `send`, numbered from the given number on. -/
def send (n : Nat) (e : Expr) : Expr := .call (.ofId n) (.attr (.ofId (n + 1)) e "send") [] []

/-- `x = log.with_().ctx(c).logger()`, then an event of `x`, then `x = log.level(1)` and another
event of `x`. -/
def body : List Stmt :=
  [.assign [.name (.ofId 8) "x"] (.call (.ofId 9) (.attr (.ofId 10) config "logger") [] []),
    .value (some (send 11 (event 13))),
    .assign [.name (.ofId 16) "x"]
      (.call (.ofId 17) (.attr (.ofId 18) (.name (.ofId 19) "log") "level")
        [.constant (.ofId 20) .int] []),
    .value (some (send 21 (event 23)))]

private theorem code_body : Code (fun _ => none) body := by
  have hargs : ∀ arg ∈ ([] ++ [] : List Expr), isArgument arg := by simp
  have hconfig : Chain (fun _ => none) .config config :=
    .call _ _ (.call _ _ (.log _) .configure hargs) (.configField (by decide))
      (by simp [isArgument])
  have hevent {Γ : Kinds} (hx : Γ "x" = some .logger) (n : Nat) : Chain Γ .event (event n) :=
    .call _ _ (.var _ hx) (.start (by decide)) hargs
  refine .finish _ _ _ (by decide) hconfig hargs ?_
  refine .emit _ _ (hevent (Function.update_self ..) 13) (by decide) hargs ?_
  refine .bind _ (by decide) (.call _ _ (.log _) (.setting (by decide)) (by simp [isArgument]))
    (by rintro _ ⟨⟩) ?_
  exact .emit _ _ (hevent (Function.update_self ..) 23) (by decide) hargs (.nil _)

/-- The program of the code. -/
def module : Module := program default (.ofId 0) (.ofId 1) body

/-- Only the second event is reported: its logger was rebuilt without the context. -/
theorem second_event_reported :
    Code (fun _ => none) body ∧ module.Numbered ∧ Comment.ofSource [] = [] ∧
      ∃ a, Analysis.ofModule module [] "sample.py" "sample" {} .standard = .ok a ∧
        a.reported module = [send 21 (event 23)] ∧
        checkModule module [] "sample.py" "sample" {} .standard =
          .ok [a.diagnosticOf (send 21 (event 23))] := by
  have hnum : module.Numbered := by decide
  have hcomments : Comment.ofSource [] = [] := by rfl
  obtain ⟨a, hok, hreported, hcheck⟩ :=
    fluent_code_reported_exactly code_body default (.ofId 0) (.ofId 1) hnum hcomments "sample.py"
      "sample"
  have hmissing : missing (fun _ => false) body = [send 21 (event 23)] := by rfl
  rw [hmissing] at hreported hcheck
  rw [List.map_singleton, List.mergeSort_singleton] at hcheck
  exact ⟨code_body, hnum, hcomments, a, hok, hreported, hcheck⟩

end RebuiltLogger

end ContextLint.Rule
