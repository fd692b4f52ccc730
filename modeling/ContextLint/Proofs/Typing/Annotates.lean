import ContextLint.Proofs.Scope.Reports
import ContextLint.Proofs.Typing.Declared
import ContextLint.Proofs.Typing.Malformed

/-!
# Annotations of a module

Annotations of variables and parameters are resolved wherever they stand, those of results and
attributes where a class or the module declares them. Collecting the declarations resolves the
latter and nothing else: it fails with the error of one of them, or all of them resolve.
-/

namespace ContextLint.Source

/-- The annotations that a class body declares for its attributes and for the results of its
methods. -/
inductive ClassAnnotates (members : List Stmt) : Expr → Prop
  /-- Annotation of a variable of the class. -/
  | variable {site x hint value}
    (h : .annAssign (.name site x) hint value ∈ members) : ClassAnnotates members hint
  /-- Annotated result of a method. -/
  | result {head body hint}
    (h : .functionDef head body ∈ members) (hhint : head.returns = some hint) :
    ClassAnnotates members hint
  /-- Annotation of an attribute of the receiver, anywhere in a method. -/
  | attribute {head body self rest site site' attr hint value}
    (h : .functionDef head body ∈ members) (hself : head.params.regular = self :: rest)
    (hattr : .annAssign (.attr site (.name site' self.name) attr) hint value ∈
      (Stmt.functionDef head body).breadthFirst) : ClassAnnotates members hint

/-- The annotations of a module that are resolved when it is typed. -/
inductive Module.Annotates (m : Module) : Expr → Prop
  /-- Annotation of a variable. -/
  | variable {site x hint value}
    (h : .annAssign (.name site x) hint value ∈ m.breadthFirst) : Annotates m hint
  /-- Annotation of a parameter that takes a single argument. -/
  | parameter {head body p hint} (h : .functionDef head body ∈ m.breadthFirst)
    (hp : p ∈ head.params.positional ++ head.params.kwOnly) (hhint : p.hint = some hint) :
    Annotates m hint
  /-- Annotated result of a function at the top level. -/
  | result {head body hint}
    (h : .functionDef head body ∈ m.body) (hhint : head.returns = some hint) : Annotates m hint
  /-- Annotation that a class body declares. -/
  | member {head members hint}
    (h : .classDef head members ∈ m.breadthFirst) (hhint : ClassAnnotates members hint) :
    Annotates m hint

end ContextLint.Source

namespace ContextLint.Scope

open Source

/-- The annotations that performing a step resolves, those of a nested body apart. -/
def Step.hints : Step → List Expr
  | .bind _ _ hint => hint.toList
  | .function head _ => (head.params.positional ++ head.params.kwOnly).filterMap Param.hint
  | .visit _ | .unbind _ | .bindElement .. | .onImport _ | .define _ | .cls .. => []

/-- A walk through the module, functions and classes included, resolves the annotation. -/
def Hinted (m : Module) (e : Expr) : Prop := ∃ step ∈ m.reports, e ∈ step.hints

private theorem no_hint_visits (es : List Expr) :
    ∀ step ∈ es.map Step.visit, step.hints = [] := List.forall_mem_map.mpr fun _ _ => rfl

private theorem no_hint_reports {s : Stmt} (hvar : ∀ site x hint value,
      s ≠ .annAssign (.name site x) hint value) (hfun : ∀ head body, s ≠ .functionDef head body) :
    ∀ step ∈ s.reports, step.hints = [] :=
  Stmt.forall_reports (fun _ => rfl) (fun _ => rfl) (fun _ _ => rfl) (fun _ _ => rfl)
    (fun site x hint value heq => (hvar site x hint value heq).elim) (fun _ _ => rfl)
    (fun head body heq => (hfun head body heq).elim) fun _ _ _ => ⟨rfl, rfl⟩

/-- The annotations that a walk resolves are those of variables and parameters. -/
theorem hinted_iff {m : Module} {e : Expr} :
    Hinted m e ↔
      (∃ site x value, .annAssign (.name site x) e value ∈ m.breadthFirst) ∨
      ∃ head body, .functionDef head body ∈ m.breadthFirst ∧
        ∃ p ∈ head.params.positional ++ head.params.kwOnly, p.hint = some e := by
  constructor
  · rintro ⟨step, hstep, he⟩
    obtain ⟨s, hs, hstep⟩ := List.mem_flatMap.mp hstep
    by_cases hvar : ∃ site x hint value, s = .annAssign (.name site x) hint value
    · obtain ⟨site, x, hint, value, rfl⟩ := hvar
      rcases List.mem_append.mp hstep with hstep | hstep
      · rw [no_hint_visits _ step hstep] at he
        cases he
      · obtain rfl := List.mem_singleton.mp hstep
        obtain rfl := List.mem_singleton.mp he
        exact .inl ⟨site, x, value, hs⟩
    by_cases hfun : ∃ head body, s = .functionDef head body
    · obtain ⟨head, body, rfl⟩ := hfun
      rcases List.mem_append.mp hstep with hstep | hstep
      · rw [no_hint_visits _ step hstep] at he
        cases he
      · rcases List.mem_pair.mp hstep with rfl | rfl
        · cases he
        · exact .inr ⟨head, body, hs, List.mem_filterMap.mp he⟩
    · have hnone := no_hint_reports (fun site x hint value heq => hvar ⟨site, x, hint, value, heq⟩)
        fun head body heq => hfun ⟨head, body, heq⟩
      rw [hnone step hstep] at he
      cases he
  · rintro (⟨site, x, value, h⟩ | ⟨head, body, h, hp⟩)
    · exact ⟨.bind x value (some e), List.mem_flatMap.mpr ⟨_, h, by simp [Stmt.reports,
        annAssignSteps]⟩, by simp [Step.hints]⟩
    · exact ⟨.function head (bodySteps body), List.mem_flatMap.mpr ⟨_, h, by simp [Stmt.reports]⟩,
        List.mem_filterMap.mpr hp⟩

end ContextLint.Scope

namespace ContextLint.Typing

open Source Scope

/-- A computation that resolves the annotations `H` and perhaps others, of `B`. It fails with the
error of one of these, and if it succeeds the annotations `H` resolve, provided that it is `full`,
and its result has the property `P`. -/
structure Reads {α : Type} (c : NameContext) (full : Bool) (H B : Expr → Prop)
    (x : Except AnnotationError α) (P : α → Prop) : Prop where
  /-- It fails with the error of an annotation. -/
  fails : ∀ err, x = .error err → ∃ e, (H e ∨ B e) ∧ c.resolve e = .error err
  /-- If it succeeds the annotations resolve. -/
  resolved : full → ∀ a, x = .ok a → ∀ e, H e → ∃ ref, c.resolve e = .ok ref
  /-- If it succeeds its result has the property. -/
  result : Ensures x P

namespace Reads

variable {α β : Type} {c : NameContext} {full : Bool} {H H' B B' : Expr → Prop}
  {x : Except AnnotationError α} {f : α → Except AnnotationError β} {P Q : α → Prop} {R : β → Prop}

/-- A result without annotations. -/
theorem ok {a : α} (h : P a) : Reads c full (fun _ => False) B (.ok a) P where
  fails := nofun
  resolved _ _ _ _ := False.elim
  result := .ok h

/-- Annotations passed over. -/
theorem skip {a : α} (h : P a) : Reads c false H B (.ok a) P where
  fails := nofun
  resolved := nofun
  result := .ok h

/-- Annotations are resolved one after the other. -/
theorem bind (hx : Reads c full H B x P) (hf : ∀ a, P a → Reads c full H' B (f a) R) :
    Reads c full (fun e => H e ∨ H' e) B (x >>= f) R where
  fails err h := by
    rcases bind_eq_error.mp h with h | ⟨a, ha, h⟩
    · obtain ⟨e, he, hfails⟩ := hx.fails err h
      exact ⟨e, he.imp .inl id, hfails⟩
    · obtain ⟨e, he, hfails⟩ := (hf a (hx.result a ha)).fails err h
      exact ⟨e, he.imp .inr id, hfails⟩
  resolved hfull b hb e he := by
    cases x with
    | error err => cases hb
    | ok a =>
      rcases he with he | he
      · exact hx.resolved hfull a rfl e he
      · exact (hf a (hx.result a rfl)).resolved hfull b hb e he
  result := hx.result.bind fun a ha => (hf a ha).result

/-- Claim fewer annotations and a weaker result, and blame more. -/
theorem mono (hx : Reads c full H B x P) (hread : ∀ e, H' e → H e)
    (hblame : ∀ e, H e ∨ B e → H' e ∨ B' e) (h : ∀ a, P a → Q a) : Reads c full H' B' x Q where
  fails err herr := by
    obtain ⟨e, he, hfails⟩ := hx.fails err herr
    exact ⟨e, hblame e he, hfails⟩
  resolved hfull a ha e he := hx.resolved hfull a ha e (hread e he)
  result := hx.result.mono h

/-- The annotations may be described in other words. -/
theorem congr (hx : Reads c full H B x P) (hH : ∀ e, H' e ↔ H e) : Reads c full H' B x P :=
  hx.mono (fun e => (hH e).mp) (fun e he => he.imp_left (hH e).mpr) fun _ h => h

/-- Annotations that need not all be resolved can only be blamed. -/
theorem blame (hx : Reads c full H B x P) (hblame : ∀ e, H e ∨ B e → B' e) (full' : Bool) :
    Reads c full' (fun _ => False) B' x P where
  fails err herr := by
    obtain ⟨e, he, hfails⟩ := hx.fails err herr
    exact ⟨e, .inr (hblame e he), hfails⟩
  resolved _ _ _ _ := False.elim
  result := hx.result

/-- A part that resolves no annotations for certain comes first. -/
theorem after (hx : Reads c full (fun _ => False) B x P)
    (hf : ∀ a, P a → Reads c full H B (f a) R) : Reads c full H B (x >>= f) R :=
  (hx.bind hf).congr (by simp)

/-- Resolving an annotation. -/
theorem resolve (e : Expr) :
    Reads c full (· = e) B (c.resolve e) fun ref => c.resolve e = .ok ref where
  fails _ h := ⟨e, .inl rfl, h⟩
  resolved _ ref h _ he := ⟨ref, he ▸ h⟩
  result := .self _

/-- Resolving an annotation that may be absent. -/
theorem resolve? (hint : Option Expr) :
    Reads c full (hint = some ·) B (c.resolve? hint) fun ref => c.resolve? hint = .ok ref := by
  cases hint with
  | none =>
    refine Reads.congr (ok ?_) (by simp)
    rfl
  | some e => exact (resolve e).congr (by simp [eq_comm])

end Reads

section

variable {c : NameContext} {full : Bool} {B : Expr → Prop}

/-- The statement annotates an attribute of the named receiver. -/
private def AnnotatesSelf (self : String) (s : Stmt) (e : Expr) : Prop :=
  ∃ site site' attr value, s = .annAssign (.attr site (.name site' self) attr) e value

private theorem selfAttributes_reads (self : String) (stmts : List Stmt)
    (found : NameMap TypeRef) :
    Reads c full (fun e => ∃ s ∈ stmts, AnnotatesSelf self s e) B
      (selfAttributes c self stmts found) fun _ => True := by
  fun_induction selfAttributes c self stmts found with
  | case1 found => exact (Reads.ok trivial).congr (by simp)
  | case2 site site' attr hint value rest found ih =>
    refine ((Reads.resolve hint).bind fun ref _ => ih ref).congr fun e => ?_
    simp [AnnotatesSelf, eq_comm]
  | case3 site site' id attr hint value rest found hid ih =>
    refine ih.congr fun e => ?_
    simp [AnnotatesSelf, hid]
  | case4 stmt rest found hstmt ih =>
    have hnone : ∀ e, ¬ AnnotatesSelf self stmt e := by
      rintro e ⟨site, site', attr, value, rfl⟩
      exact hstmt _ _ _ _ _ _ rfl
    exact ih.congr fun e => by simp [hnone e]

private theorem methodAttributes_reads (head : FunctionHead) (body : List Stmt) :
    Reads c full (fun e => ∃ self rest, head.params.regular = self :: rest ∧
        ∃ s ∈ (Stmt.functionDef head body).breadthFirst, AnnotatesSelf self.name s e) B
      (methodAttributes c head body) fun _ => True := by
  unfold methodAttributes
  split
  · next h => exact (Reads.ok trivial).congr (by simp [h])
  · next self rest h => exact (selfAttributes_reads self.name _ []).congr (by simp [h])

/-- The statement of a class body annotates a variable, a result or an attribute of the receiver. -/
private def AnnotatesMember (s : Stmt) (e : Expr) : Prop :=
  (∃ site x value, s = .annAssign (.name site x) e value) ∨
  ∃ head body, s = .functionDef head body ∧ (head.returns = some e ∨
    ∃ self rest, head.params.regular = self :: rest ∧
      ∃ s ∈ (Stmt.functionDef head body).breadthFirst, AnnotatesSelf self.name s e)

private theorem classMembers_reads (members : List Stmt) (info : ClassInfo) :
    Reads c full (fun e => ∃ s ∈ members, AnnotatesMember s e) B
      (classMembers c members info) fun _ => True := by
  fun_induction classMembers c members info with
  | case1 info => exact (Reads.ok trivial).congr (by simp)
  | case2 head body rest info ih =>
    refine ((Reads.resolve? head.returns).bind fun result _ =>
      (methodAttributes_reads head body).bind fun attributes _ => ih result attributes).congr ?_
    intro e
    simp [AnnotatesMember, or_assoc]
  | case3 site x hint value rest info ih =>
    refine ((Reads.resolve hint).bind fun type _ => ih type).congr fun e => ?_
    simp [AnnotatesMember, eq_comm]
  | case4 stmt rest info hfun hvar ih =>
    have hnone : ∀ e, ¬ AnnotatesMember stmt e := by
      rintro e (⟨site, x, value, rfl⟩ | ⟨head, body, rfl, -⟩)
      · exact hvar _ _ _ _ rfl
      · exact hfun _ _ rfl
    exact ih.congr fun e => by simp [hnone e]

private theorem exists_annotatesMember {members : List Stmt} {e : Expr} :
    (∃ s ∈ members, AnnotatesMember s e) ↔ ClassAnnotates members e := by
  constructor
  · rintro ⟨s, hs, ⟨site, x, value, rfl⟩ | ⟨head, body, rfl, hresult | hattr⟩⟩
    · exact .variable hs
    · exact .result hs hresult
    · obtain ⟨self, rest, hself, _, hmem, site, site', attr, value, rfl⟩ := hattr
      exact .attribute hs hself hmem
  · rintro (hs | ⟨hs, hresult⟩ | ⟨hs, hself, hattr⟩)
    · exact ⟨_, hs, .inl ⟨_, _, _, rfl⟩⟩
    · exact ⟨_, hs, .inr ⟨_, _, rfl, .inl hresult⟩⟩
    · exact ⟨_, hs, .inr ⟨_, _, rfl, .inr ⟨_, _, hself, _, hattr, _, _, _, _, rfl⟩⟩⟩

/-- Collecting classes resolves what their bodies declare. -/
private theorem collectClasses_reads (stmts : List Stmt) (found : NameMap ClassInfo) :
    Reads c full (fun e => ∃ head members, .classDef head members ∈ stmts ∧
        ClassAnnotates members e) B (collectClasses c stmts found) fun _ => True := by
  fun_induction collectClasses c stmts found with
  | case1 found => exact (Reads.ok trivial).congr (by simp)
  | case2 head members rest found ih =>
    refine ((classMembers_reads members _).bind fun info _ => ih info).congr fun e => ?_
    simp [exists_annotatesMember, or_and_right, exists_or]
  | case3 stmt rest found hstmt ih =>
    refine ih.congr fun e => ?_
    have hne : ∀ head members, Stmt.classDef head members ≠ stmt :=
      fun head members h => hstmt head members h.symm
    simp [hne]

/-- Collecting functions resolves their annotated results. -/
private theorem collectFunctions_reads (stmts : List Stmt) (found : NameMap (Option TypeRef)) :
    Reads c full (fun e => ∃ head body, .functionDef head body ∈ stmts ∧ head.returns = some e) B
      (collectFunctions c stmts found) fun _ => True := by
  fun_induction collectFunctions c stmts found with
  | case1 found => exact (Reads.ok trivial).congr (by simp)
  | case2 head body rest found ih =>
    refine ((Reads.resolve? head.returns).bind fun result _ => ih result).congr fun e => ?_
    simp [or_and_right, exists_or]
  | case3 stmt rest found hstmt ih =>
    refine ih.congr fun e => ?_
    have hne : ∀ head body, Stmt.functionDef head body ≠ stmt :=
      fun head body h => hstmt head body h.symm
    simp [hne]

/-- Collecting the declarations of a module resolves what its classes declare and the annotated
results of its functions. -/
theorem Declarations.ofModule_reads (m : Module) (moduleName : String) (library : Library) :
    Reads (NameContext.ofModule m moduleName) full
      (fun e => (∃ head members, .classDef head members ∈ m.breadthFirst ∧
          ClassAnnotates members e) ∨
        ∃ head body, .functionDef head body ∈ m.body ∧ head.returns = some e) B
      (ofModule m moduleName library) fun d => ofModule m moduleName library = .ok d := by
  have hreads : Reads (NameContext.ofModule m moduleName) full _ B (ofModule m moduleName library)
      fun _ => True := (collectClasses_reads m.breadthFirst []).bind fun classes _ =>
    (collectFunctions_reads m.body []).bind fun functions _ => Reads.ok trivial
  exact ⟨fun err herr => by simpa using hreads.fails err herr,
    fun hfull d hd e he => hreads.resolved hfull d hd e (by simpa using he), .self _⟩

end

end ContextLint.Typing
