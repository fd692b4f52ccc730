import ContextLint.Proofs.Scope.Visited
import ContextLint.Typing.Resolve

/-!
# Typing step by step

What survives the binding of each name survives that of all. A walk goes into functions and classes
or passes them over, keeps nothing of them but the types, and evaluates some of the expressions it
visits; those inside default values of lambdas are left out.
-/

namespace ContextLint.Typing

open Source Scope

section

variable {ε α β : Type} {x : Except ε α} {f : α → Except ε β} {P Q : α → Prop} {R : β → Prop}

/-- If the computation succeeds, its result has the property. -/
def Ensures (x : Except ε α) (P : α → Prop) : Prop := ∀ a, x = .ok a → P a

theorem Ensures.ok {a : α} (h : P a) : Ensures (.ok a : Except ε α) P := by
  rintro _ ⟨⟩
  exact h

theorem Ensures.bind (hx : Ensures x P) (hf : ∀ a, P a → Ensures (f a) R) :
    Ensures (x >>= f) R := by
  cases x with
  | error err => rintro _ ⟨⟩
  | ok a => exact hf a (hx a rfl)

theorem Ensures.mono (hx : Ensures x P) (h : ∀ a, P a → Q a) : Ensures x Q :=
  fun a ha => h a (hx a ha)

theorem Ensures.trivial (x : Except ε α) : Ensures x fun _ => True := fun _ _ => True.intro

/-- A result is the one there is. -/
theorem Ensures.self (x : Except ε α) : Ensures x fun a => x = .ok a := fun _ h => h

/-- A computation in two parts succeeds part by part. -/
theorem exists_of_bind_ok {b : β} (h : x >>= f = .ok b) : ∃ a, x = .ok a ∧ f a = .ok b := by
  cases x with
  | error err => cases h
  | ok a => exact ⟨a, rfl, h⟩

instance decidableExistsOk [DecidablePred P] : Decidable (∃ a, x = .ok a ∧ P a) :=
  match x with
  | .ok a => decidable_of_iff (P a) (by simp)
  | .error _ => isFalse (by simp)

instance decidableExistsOkSelf : Decidable (∃ a, x = .ok a) :=
  match x with
  | .ok a => isTrue ⟨a, rfl⟩
  | .error _ => isFalse nofun

instance decidableEqError [DecidableEq ε] (err : ε) : Decidable (x = .error err) :=
  match x with
  | .ok _ => isFalse nofun
  | .error err' => decidable_of_iff (err' = err) (by simp)

end

namespace Resolver

variable {r : Resolver}

section

variable {I : Env → Prop} {env : Env}

/-- What survives the forgetting of each name survives the forgetting of all. -/
theorem forget_invariant {names : List String}
    (h : ∀ x ∈ names, ∀ env, I env → I (env.set x none)) (henv : I env) : I (forget names env) := by
  induction names generalizing env with
  | nil => exact henv
  | cons x rest ih =>
    rw [List.forall_mem_cons] at h
    exact ih h.2 (h.1 env henv)

/-- What survives the adoption of each name survives the adoption of all. -/
theorem adopt_invariant {names : List String} {inner : Env}
    (h : ∀ x ∈ names, ∀ env, I env → I (env.set x (inner.get? x).join)) (henv : I env) :
    I (adopt names inner env) := by
  induction names generalizing env with
  | nil => exact henv
  | cons x rest ih =>
    rw [List.forall_mem_cons] at h
    exact ih h.2 (h.1 env henv)

/-- What holds of every environment in sight holds of the one in which a function starts. -/
theorem startEnv_invariant (hglobals : I r.globals) {p : Place} (hscope : ∀ env ∈ p.scope, I env)
    (henv : I env) : I (r.startEnv p env) := by
  unfold startEnv
  split
  · exact hglobals
  · cases hs : p.scope with
    | none => exact henv
    | some outer => exact hscope outer hs

end

/-- A function that is entered starts in the environment of its body. -/
theorem hooks_openFunction (hr : r.descend = true) (head : FunctionHead) (s : Progress) :
    r.hooks.openFunction head s =
      (fun env => some { s with env := env, frame := .func }) <$> r.bodyEnv head s := by
  simp [hooks, hr]

private theorem hooks_closeFunction (head : FunctionHead) (outer inner : Progress) :
    r.hooks.closeFunction head outer inner = pure { outer with types := inner.types } := rfl

/-- A class that is entered starts in the environment around it. -/
theorem hooks_openClass (hr : r.descend = true) (head : ClassHead) (s : Progress) :
    r.hooks.openClass head s =
      pure (some { s with frame := .cls (r.decls.names.moduleName ++ "." ++ head.name) }) := by
  simp [hooks, hr]

private theorem hooks_closeClass (head : ClassHead) (outer inner : Progress) :
    r.hooks.closeClass head outer inner = pure { outer with types := inner.types } := rfl

/-- Going into a function keeps nothing of its body but the types. -/
theorem perform_function (hr : r.descend = true) (head : FunctionHead) (body : List Step)
    (s : Progress) :
    perform r.hooks (.function head body) s = do
      let env ← r.bodyEnv head s
      let inner ← performAll r.hooks body { s with env := env, frame := .func }
      return { s with types := inner.types } := by
  simp [perform, hooks_openFunction hr, hooks_closeFunction]

/-- Going into a class keeps nothing of its body but the types. -/
theorem perform_cls (hr : r.descend = true) (head : ClassHead) (body : List Step)
    (s : Progress) :
    perform r.hooks (.cls head body) s = do
      let inner ← performAll r.hooks body
        { s with frame := .cls (r.decls.names.moduleName ++ "." ++ head.name) }
      return { s with types := inner.types } := by
  simp [perform, hooks_openClass hr, hooks_closeClass]

/-- Staying at the top level, a walk passes functions over. -/
theorem perform_function_of_not_descend (hr : r.descend = false) (head : FunctionHead)
    (body : List Step) (s : Progress) : perform r.hooks (.function head body) s = pure s := by
  have hopen : r.hooks.openFunction head s = pure none := by simp [hooks, hr]
  simp [perform, hopen]

/-- Staying at the top level, a walk passes classes over. -/
theorem perform_cls_of_not_descend (hr : r.descend = false) (head : ClassHead)
    (body : List Step) (s : Progress) : perform r.hooks (.cls head body) s = pure s := by
  have hopen : r.hooks.openClass head s = pure none := by simp [hooks, hr]
  simp [perform, hopen]

end Resolver

end ContextLint.Typing

namespace ContextLint.Source.Module

/-- The expressions that are evaluated when a module is typed. -/
def evaluatedNodes (m : Module) : List Expr := m.visited.flatMap Expr.evaluatedNodes

/-- The visited expressions inside default values of lambdas. -/
def defaultNodes (m : Module) : List Expr := m.visited.flatMap Expr.defaultNodes

/-- What a walk visits is either evaluated or inside a default value of a lambda. -/
theorem visited_perm (m : Module) :
    (m.visited.flatMap Expr.liveNodes).Perm (m.evaluatedNodes ++ m.defaultNodes) := by
  have h := Expr.coe_liveNodesOf m.visited
  simp only [Expr.liveNodesOf_eq_flatMap, Expr.evaluatedNodesOf_eq_flatMap,
    Expr.defaultNodesOf_eq_flatMap, Multiset.coe_add] at h
  exact Multiset.coe_eq_coe.mp h

/-- What is evaluated in a module stands in it. -/
theorem evaluatedNodes_subset (m : Module) : m.evaluatedNodes ⊆ m.nodes := by
  obtain ⟨live, hperm, hsub⟩ := m.visited_subperm
  intro e he
  have hlive : e ∈ live := (hperm.trans m.visited_perm).mem_iff.mpr (List.mem_append_left _ he)
  exact m.nodes_perm.mem_iff.mpr (List.mem_append_left _ (hsub.subset hlive))

/-- In a numbered module, what a walk visits has numbers of its own. -/
theorem Numbered.visited_nodup {m : Module} (h : m.Numbered) :
    ((m.evaluatedNodes ++ m.defaultNodes).map Expr.id).Nodup := by
  obtain ⟨live, hperm, hsub⟩ := m.visited_subperm
  have hall : ((m.liveNodes ++ m.idleNodes).map Expr.id).Nodup :=
    (m.nodes_perm.map Expr.id).nodup_iff.mp h
  have hlive : (live.map Expr.id).Nodup :=
    hall.sublist ((hsub.trans (List.sublist_append_left _ _)).map Expr.id)
  exact (((hperm.trans m.visited_perm).map Expr.id).nodup_iff).mp hlive

/-- What is evaluated and what stands inside a default value have different numbers. -/
theorem Numbered.evaluated_ne_default {m : Module} (h : m.Numbered) {n d : Expr}
    (hn : n ∈ m.evaluatedNodes) (hd : d ∈ m.defaultNodes) : n.id ≠ d.id := by
  have hparts := h.visited_nodup
  rw [List.map_append] at hparts
  exact (List.nodup_append.mp hparts).2.2 _ (List.mem_map_of_mem hn) _ (List.mem_map_of_mem hd)

end ContextLint.Source.Module

namespace ContextLint.Typing.TypeInfo

open Source

/-- The types of a module are found in two walks. -/
theorem ofModule_ok {m : Module} {moduleName : String} {library : Library} {info : TypeInfo}
    (h : ofModule m moduleName library = .ok info) :
    Declarations.ofModule m moduleName library = .ok info.decls ∧ ∃ top full,
      Resolver.walkModule ⟨info.decls, [], false⟩ m ∅ = .ok top ∧
      Resolver.walkModule ⟨info.decls, top.env, true⟩ m top.types = .ok full ∧
      info.types = full.types := by
  obtain ⟨decls, hdecls, h⟩ := exists_of_bind_ok h
  obtain ⟨top, htop, h⟩ := exists_of_bind_ok h
  obtain ⟨full, hfull, h⟩ := exists_of_bind_ok h
  obtain rfl := Except.ok.inj h
  exact ⟨hdecls, top, full, htop, hfull, rfl⟩

end ContextLint.Typing.TypeInfo
