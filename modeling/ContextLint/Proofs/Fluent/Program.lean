import Mathlib.Data.List.Flatten
import ContextLint.Proofs.Fluent.Typed
import ContextLint.Proofs.Typing.ImportBinding

/-!
# Types of a fluent program

A program declares its one function and nothing else, so its names mean what the imports say. Its
first walk meets no expression. The second types the body of the function in an environment that
knows the context and the imports.
-/

namespace ContextLint.Fluent

open Source Scope Typing

private theorem flatten_zipLevels_singleton (s : Stmt) (levels : List (List Stmt)) :
    (zipLevels [[s]] levels).flatten = s :: levels.flatten := by
  cases levels <;> simp [zipLevels]

/-- The statements of the code are assignments and expression statements. -/
theorem Code.cases_mem {Γ : Kinds} {body : List Stmt} (h : Code Γ body) {s : Stmt} (hs : s ∈ body) :
    (∃ site x e, s = .assign [.name site x] e) ∨ ∃ e, s = .value (some e) := by
  induction h with
  | nil Γ => cases hs
  | bind site hx he hbare hrest ih | finish site site' site'' hx he hargs hrest ih =>
    rcases List.mem_cons.mp hs with rfl | hs
    · exact .inl ⟨_, _, _, rfl⟩
    · exact ih hs
  | emit site site' he ht hargs hrest ih =>
    rcases List.mem_cons.mp hs with rfl | hs
    · exact .inr ⟨_, rfl⟩
    · exact ih hs

private theorem flatten_levelsOf {body : List Stmt} (h : ∀ s ∈ body, s.levels = [[s]]) :
    (Stmt.levelsOf body).flatten = body := by
  induction body with
  | nil => rfl
  | cons s rest ih =>
    rw [List.forall_mem_cons] at h
    rw [Stmt.levelsOf, h.1, flatten_zipLevels_singleton, ih h.2]

variable {Γ : Kinds} {characters : CharacterNames} {site site' : Site} {body : List Stmt}

/-- The statements of a program, breadth first. -/
theorem Code.breadthFirst_program (h : Code Γ body) :
    (program characters site site' body).breadthFirst =
      (program characters site site' body).body ++ body := by
  have hbody : (Stmt.levelsOf body).flatten = body := flatten_levelsOf fun s hs => by
    rcases h.cases_mem hs with ⟨_, _, _, rfl⟩ | ⟨_, rfl⟩ <;> rfl
  simp [Module.breadthFirst, program, Stmt.levelsOf, Stmt.levels, zipLevels, hbody]

private theorem collectClasses_of_forall (c : NameContext) {stmts : List Stmt}
    (h : ∀ s ∈ stmts, ∀ head body, s ≠ .classDef head body) (found : NameMap ClassInfo) :
    collectClasses c stmts found = .ok found := by
  induction stmts with
  | nil => rfl
  | cons s rest ih =>
    rw [List.forall_mem_cons] at h
    cases s with
    | classDef head body => exact (h.1 head body rfl).elim
    | _ => exact ih h.2

/-- A program declares its function only, and `context` names the imported module. -/
theorem Code.declarations_program (h : Code Γ body) (characters : CharacterNames)
    (site site' : Site) (moduleName : String) :
    ∃ d, Declarations.ofModule (program characters site site' body) moduleName .standard = .ok d ∧
      Plain d ∧
      d.names.aliases.get? "context" = some "context" := by
  have hplain : ∀ s ∈ (program characters site site' body).breadthFirst, ∀ head cbody,
      s ≠ .classDef head cbody := by
    rintro s hs head cbody rfl
    rw [h.breadthFirst_program, List.mem_append] at hs
    rcases hs with hs | hs
    · simp [program] at hs
    · rcases h.cases_mem hs with ⟨_, _, _, heq⟩ | ⟨_, heq⟩ <;> cases heq
  have hpairs : body.flatMap importPairs = [] := List.flatMap_eq_nil_iff.mpr fun s hs => by
    rcases h.cases_mem hs with ⟨_, _, _, rfl⟩ | ⟨_, rfl⟩ <;> rfl
  have hlast : (moduleName ++ "." ++ "f").toList.getLast? = some 'f' := by
    simp [String.toList_append]
  refine ⟨⟨NameContext.ofModule (program characters site site' body) moduleName, .standard, [],
    [(moduleName ++ "." ++ "f", none)]⟩, ?_, ⟨rfl, rfl, ?_⟩, ?_⟩
  · simp only [Declarations.ofModule, collectClasses_of_forall _ hplain]
    rfl
  · intro q hq
    have hne : q ≠ moduleName ++ "." ++ "f" := fun heq => hq (heq ▸ hlast)
    simp [NameMap.get?_cons, hne]
  · rw [NameContext.ofModule, importAliases_eq, h.breadthFirst_program, List.flatMap_append, hpairs]
    rfl

/-- The environment behind the imports and the function of a program. -/
def programEnv (d : Declarations) : Env :=
  ((((NameMap.set [] "context" (d.lookup? "context")).set "zerolog" (d.lookup? "zerolog")).set
    "log" (d.lookup? "zerolog.log")).set "f" (d.lookup? (d.names.moduleName ++ "." ++ "f")))

/-- The environment in which the function of a program starts. -/
def bodyStart (d : Declarations) : Env :=
  ((programEnv d).set "c" none).set "c" (some (instanceOf Library.contextType))

section

variable {r : Resolver}

/-- A walk through a program binds the imports and the function and comes to the function's body. -/
theorem walkModule_program (r : Resolver) (site site' : Site) (body : List Stmt)
    (types : TypeTable) :
    r.walkModule (program characters site site' body) types =
      perform r.hooks (.function (programHead site site') (bodySteps body))
        { types, env := programEnv r.decls, frame := .module } := by
  have hsteps : bodySteps (program characters site site' body).body =
      [.onImport ⟨none, [⟨"context", none⟩]⟩, .onImport ⟨none, [⟨"zerolog", none⟩]⟩,
        .onImport ⟨some ⟨some "zerolog", 0⟩, [⟨"log", none⟩]⟩, .define "f",
        .function (programHead site site') (bodySteps body)] := rfl
  rw [Resolver.walkModule, walkBody_eq, hsteps]
  exact bind_pure (perform r.hooks (.function (programHead site site') (bodySteps body))
    { types, env := programEnv r.decls, frame := .module })

/-- The function starts with the context, annotated as one, and what the module has bound. -/
theorem bodyEnv_program (hcontext : r.decls.names.aliases.get? "context" = some "context")
    (hglobals : r.globals = programEnv r.decls) (site site' : Site) {s : Progress}
    (hs : s.frame = .module) : r.bodyEnv (programHead site site') s = .ok (bodyStart r.decls) := by
  have hhint : r.decls.names.resolve? (some (.attr site (.name site' "context") "Context")) =
      .ok (some (instanceOf Library.contextType)) := by
    have hhead : String.ofList ("context.Context".toList.takeWhile (· ≠ '.')) = "context" := by
      decide
    have hqualify : r.decls.names.qualify "context.Context" = Library.contextType := by
      simp only [NameContext.qualify, hhead, hcontext]
      decide
    exact congrArg (fun q => Except.ok (some (instanceOf q))) hqualify
  have hstart : r.startEnv ⟨s.frame, none⟩ s.env = programEnv r.decls := by
    rw [Resolver.startEnv, hs, hglobals]
    rfl
  rw [Resolver.bodyEnv, hstart]
  simp only [programHead, Parameters.positional, List.nil_append, List.append_nil,
    Resolver.annotateParams, hhint]
  rw [hs]
  rfl

/-- At its start the function knows the context and the imports. -/
theorem fits_bodyStart {d : Declarations} (hd : Plain d) : Fits (fun _ => none) (bodyStart d) where
  context := by simp [bodyStart]
  log := by
    have hlog : d.lookup? "zerolog.log" = some ⟨"zerolog.log", .module, false⟩ :=
      (hd.lookup?_eq (by decide)).trans (by decide)
    simp [bodyStart, programEnv, hlog]
  zerolog := by
    have hzerolog : d.lookup? "zerolog" = some ⟨"zerolog", .module, false⟩ :=
      (hd.lookup?_eq (by decide)).trans (by decide)
    simp [bodyStart, programEnv, hzerolog]
  names x k hx := by cases hx

end

/-- The expressions of the code are expressions of the program. -/
theorem bodyNodes_sublist (site site' : Site) (body : List Stmt) :
    (bodyNodes body).Sublist (program characters site site' body).nodes := by
  have hexpressions : (body.flatMap Stmt.expressions).Sublist
      ((program characters site site' body).body.flatMap Stmt.expressions) := by
    rw [← Stmt.expressionsOf_eq_flatMap]
    simp [program, programHead, Stmt.expressions]
  rw [Module.nodes, Expr.nodesOf_eq_flatMap]
  exact hexpressions.flatMap _

/-- A program can be typed. In the end the types of the expressions of its code are known. -/
theorem Code.typeInfo_program (h : Code (fun _ => none) body) (characters : CharacterNames)
    (site site' : Site) (hnum : (program characters site site' body).Numbered)
    (moduleName : String) :
    ∃ info env,
      TypeInfo.ofModule (program characters site site' body) moduleName .standard = .ok info ∧
      Plain info.decls ∧ Fits (fun _ => none) env ∧
      Resolved info.decls info.typeOf? env body := by
  obtain ⟨d, hdecls, hd, hcontext⟩ := h.declarations_program characters site site' moduleName
  have hbody : ((bodyNodes body).map Expr.id).Nodup :=
    List.Nodup.sublist ((bodyNodes_sublist site site' body).map Expr.id) hnum
  have hfits := fits_bodyStart hd
  obtain ⟨s', hperform, -, hresolved⟩ := h.types (r := ⟨d, programEnv d, true⟩)
    (s := { types := ∅, env := bodyStart d, frame := .func }) hd hfits hbody
  refine ⟨⟨d, s'.types⟩, bodyStart d, ?_, hd, hfits, hresolved⟩
  have hfirst : Resolver.walkModule ⟨d, [], false⟩ (program characters site site' body) ∅ =
      .ok { types := ∅, env := programEnv d, frame := .module } := by
    rw [walkModule_program, Resolver.perform_function_of_not_descend rfl]
    rfl
  have hsecond : Resolver.walkModule ⟨d, programEnv d, true⟩ (program characters site site' body) ∅ =
      .ok { types := s'.types, env := programEnv d, frame := .module } := by
    rw [walkModule_program, Resolver.perform_function rfl,
      bodyEnv_program hcontext rfl site site' rfl]
    exact congrArg (Except.map fun inner : Progress =>
      ({ types := inner.types, env := programEnv d, frame := .module } : Progress)) hperform
  simp only [TypeInfo.ofModule, hdecls, hfirst, hsecond, Bind.bind, Except.bind]
  rfl

end ContextLint.Fluent
