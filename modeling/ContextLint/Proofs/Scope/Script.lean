import Mathlib.Data.List.Basic
import ContextLint.Scope.Walk

/-!
# The script of a walk

A walk reports to its hooks in an order that depends on the statements alone. The script lists these
reports, with the body of a nested function or class inside its own report. Walking a body is
exactly performing its script, so what holds of a walk is proved by induction on scripts and not
again for every form of statement.
-/

namespace ContextLint.Scope

open Source

/-- One report of a walk. -/
inductive Step where
  /-- A top-level expression. -/
  | visit (e : Expr)
  /-- A binding of one name with its value and annotation. -/
  | bind (name : String) (value hint : Option Expr)
  /-- Any other binding of a name. -/
  | unbind (name : String)
  /-- One name of a parallel assignment with its value. -/
  | bindElement (name : String) (value : Expr)
  /-- An import statement. -/
  | onImport (stmt : Import)
  /-- A definition binds its name. -/
  | define (name : String)
  /-- A nested function with the script of its body. -/
  | function (head : FunctionHead) (body : List Step)
  /-- A nested class with the script of its body. -/
  | cls (head : ClassHead) (body : List Step)

mutual

/-- The script of a target: its names are rebound, its attributes and subscripts visited. -/
def targetSteps : Expr → List Step
  | .name _ id => [.unbind id]
  | .sequence _ _ elements => targetsSteps elements
  | .starred _ value => targetSteps value
  | e => [.visit e]

/-- The script of several targets. -/
def targetsSteps : List Expr → List Step
  | [] => []
  | e :: rest => targetSteps e ++ targetsSteps rest

end

/-- The target is the name of the pair. -/
def Names (target : Expr) (p : String × Expr) : Prop := ∃ site, target = .name site p.1

private theorem names_of_pairUp {targets values : List Expr} {pairs : List (String × Expr)}
    (h : parallelPairs.pairUp targets values = some pairs) : List.Forall₂ Names targets pairs := by
  fun_induction parallelPairs.pairUp targets values generalizing pairs with
  | case1 =>
    obtain rfl := Option.some.inj h
    exact .nil
  | case2 => cases h
  | case3 site id ts v vs _ ih =>
    obtain ⟨rest, hrest, rfl⟩ := Option.map_eq_some_iff.mp h
    exact .cons ⟨site, rfl⟩ (ih hrest)
  | case4 => cases h

/-- A parallel assignment has a display of names as its target. -/
theorem names_of_parallelPairs {target value : Expr} {pairs : List (String × Expr)}
    (h : parallelPairs target value = some pairs) :
    ∃ site kind elements, target = .sequence site kind elements ∧
      List.Forall₂ Names elements pairs := by
  unfold parallelPairs at h
  split at h
  · exact ⟨_, _, _, rfl, names_of_pairUp h⟩
  · cases h

/-- The script of an assignment behind its value. -/
def assignSteps (targets : List Expr) (value : Expr) : List Step :=
  match targets with
  | [.name _ id] => [.bind id (some value) none]
  | [target] =>
    match parallelPairs target value with
    | some pairs => pairs.map fun p => .bindElement p.1 p.2
    | none => targetSteps target
  | _ => targetsSteps targets

/-- The script of an annotated assignment behind its value. -/
def annAssignSteps (target hint : Expr) (value : Option Expr) : List Step :=
  match target with
  | .name _ id => [.bind id value (some hint)]
  | _ => [.visit target]

/-- The script of one item of a `with` statement. -/
def itemSteps (item : WithItem) : List Step :=
  .visit item.context :: item.target.toList.flatMap targetSteps

mutual

/-- The script of a statement. -/
def stmtSteps : Stmt → List Step
  | .assign targets value => .visit value :: assignSteps targets value
  | .annAssign target hint value => value.toList.map .visit ++ annAssignSteps target hint value
  | .augAssign target value => .visit value :: targetSteps target
  | .forLoop target iter body orelse =>
    .visit iter :: targetSteps target ++ (bodySteps body ++ bodySteps orelse)
  | .branch test body orelse => .visit test :: (bodySteps body ++ bodySteps orelse)
  | .withBlock items body => items.flatMap itemSteps ++ bodySteps body
  | .tryBlock body handlers orelse finalbody =>
    bodySteps body ++ handlerSteps handlers ++ (bodySteps orelse ++ bodySteps finalbody)
  | .matchBlock subject cases => .visit subject :: caseSteps cases
  | .functionDef head body =>
    (head.decorators ++ head.params.defaultValues).map .visit ++
      [.define head.name, .function head (bodySteps body)]
  | .classDef head body =>
    (head.decorators ++ head.bases ++ head.keywords).map .visit ++
      [.define head.name, .cls head (bodySteps body)]
  | .delete targets => targetsSteps targets
  | .imports stmt => [.onImport stmt]
  | .value e => e.toList.map .visit
  | .raise exc cause => (exc.toList ++ cause.toList).map .visit
  | .assert test msg => (test :: msg.toList).map .visit
  | .inert => []

/-- The script of statements in order. -/
def bodySteps : List Stmt → List Step
  | [] => []
  | stmt :: rest => stmtSteps stmt ++ bodySteps rest

/-- The script of `except` clauses. -/
def handlerSteps : List Handler → List Step
  | [] => []
  | .mk type name body :: rest =>
    type.toList.map .visit ++ name.toList.map .unbind ++ bodySteps body ++ handlerSteps rest

/-- The script of `case` clauses. -/
def caseSteps : List Case → List Step
  | [] => []
  | .mk pattern guard body :: rest =>
    pattern.names.map .unbind ++ guard.toList.map .visit ++ bodySteps body ++ caseSteps rest

end

theorem bodySteps_append (xs ys : List Stmt) :
    bodySteps (xs ++ ys) = bodySteps xs ++ bodySteps ys := by
  induction xs with
  | nil => rfl
  | cons x xs ih => rw [List.cons_append, bodySteps, bodySteps, ih, List.append_assoc]

section

variable {P : Step → Prop}

mutual

/-- A target is visited and its names are rebound. -/
theorem forall_targetSteps (hvisit : ∀ e, P (.visit e)) (hunbind : ∀ x, P (.unbind x))
    (target : Expr) : ∀ step ∈ targetSteps target, P step := by
  cases target with
  | name s id => exact List.forall_mem_singleton.mpr (hunbind id)
  | sequence s kind elements => exact forall_targetsSteps hvisit hunbind elements
  | starred s value => exact forall_targetSteps hvisit hunbind value
  | _ => exact List.forall_mem_singleton.mpr (hvisit _)

/-- So are several targets. -/
theorem forall_targetsSteps (hvisit : ∀ e, P (.visit e)) (hunbind : ∀ x, P (.unbind x))
    (targets : List Expr) : ∀ step ∈ targetsSteps targets, P step := by
  cases targets with
  | nil => exact List.forall_mem_nil _
  | cons e rest =>
    exact List.forall_mem_append.mpr
      ⟨forall_targetSteps hvisit hunbind e, forall_targetsSteps hvisit hunbind rest⟩

end

/-- The steps of an assignment besides those of its targets. -/
theorem forall_assignSteps (hvisit : ∀ e, P (.visit e)) (hunbind : ∀ x, P (.unbind x))
    {targets : List Expr} {value : Expr}
    (hbind : ∀ site x, targets = [.name site x] → P (.bind x (some value) none))
    (helement : ∀ target pairs, targets = [target] → parallelPairs target value = some pairs →
      ∀ p ∈ pairs, P (.bindElement p.1 p.2)) : ∀ step ∈ assignSteps targets value, P step := by
  unfold assignSteps
  split
  · next site x => exact List.forall_mem_singleton.mpr (hbind site x rfl)
  · next target _ =>
    split
    · next pairs hpairs => exact List.forall_mem_map.mpr (helement target pairs rfl hpairs)
    · exact forall_targetSteps hvisit hunbind target
  · exact forall_targetsSteps hvisit hunbind _

/-- The items of a `with` statement are visited and their targets rebound. -/
theorem forall_itemSteps (hvisit : ∀ e, P (.visit e)) (hunbind : ∀ x, P (.unbind x))
    (items : List WithItem) : ∀ step ∈ items.flatMap itemSteps, P step := by
  intro step h
  obtain ⟨item, -, h⟩ := List.mem_flatMap.mp h
  rcases List.mem_cons.mp h with rfl | h
  · exact hvisit _
  · obtain ⟨target, -, h⟩ := List.mem_flatMap.mp h
    exact forall_targetSteps hvisit hunbind target step h

end

section

variable {m : Type → Type} [Monad m] {σ : Type} (h : Hooks m σ)

mutual

/-- Perform one step of a script. -/
def perform : Step → σ → m σ
  | .visit e, s => h.visit e s
  | .bind name value hint, s => h.bind name value hint s
  | .unbind name, s => h.unbind name s
  | .bindElement name value, s => h.bindElement name value s
  | .onImport stmt, s => h.onImport stmt s
  | .define name, s => h.define name s
  | .function head body, s => do
    match ← h.openFunction head s with
    | none => pure s
    | some inner => h.closeFunction head s (← performAll body inner)
  | .cls head body, s => do
    match ← h.openClass head s with
    | none => pure s
    | some inner => h.closeClass head s (← performAll body inner)

/-- Perform the steps of a script in order. -/
def performAll : List Step → σ → m σ
  | [], s => pure s
  | step :: rest, s => do performAll rest (← perform step s)

end

@[simp] theorem performAll_nil : performAll h [] = pure := rfl

@[simp] theorem performAll_cons (step : Step) (rest : List Step) :
    performAll h (step :: rest) = fun s => perform h step s >>= performAll h rest := rfl

private theorem visitAll_eq (es : List Expr) (s : σ) :
    visitAll h es s = performAll h (es.map .visit) s := by
  induction es generalizing s with
  | nil => rfl
  | cons e rest ih => simp [visitAll, ih, perform]

private theorem unbindAll_eq (names : List String) (s : σ) :
    unbindAll h names s = performAll h (names.map .unbind) s := by
  induction names generalizing s with
  | nil => rfl
  | cons n rest ih => simp [unbindAll, ih, perform]

private theorem bindElements_eq (pairs : List (String × Expr)) (s : σ) :
    bindElements h pairs s = performAll h (pairs.map fun p => .bindElement p.1 p.2) s := by
  induction pairs generalizing s with
  | nil => rfl
  | cons p rest ih => simp [bindElements, ih, perform]

variable [LawfulMonad m]

/-- A script in two parts is performed part by part. -/
@[simp] theorem performAll_append (xs ys : List Step) :
    performAll h (xs ++ ys) = fun s => performAll h xs s >>= performAll h ys := by
  induction xs with
  | nil => simp
  | cons x xs ih => simp [ih]

mutual

private theorem unbindTarget_eq (target : Expr) (s : σ) :
    unbindTarget h target s = performAll h (targetSteps target) s := by
  cases target with
  | sequence _ _ elements => simpa [unbindTarget, targetSteps] using unbindTargets_eq elements s
  | starred _ value => simpa [unbindTarget, targetSteps] using unbindTarget_eq value s
  | _ => simp [unbindTarget, targetSteps, perform]

private theorem unbindTargets_eq (targets : List Expr) (s : σ) :
    unbindTargets h targets s = performAll h (targetsSteps targets) s := by
  cases targets with
  | nil => rfl
  | cons e rest => simp [unbindTargets, targetsSteps, unbindTarget_eq e, unbindTargets_eq rest]

end

private theorem walkAssign_eq (targets : List Expr) (value : Expr) (s : σ) :
    walkAssign h targets value s = performAll h (assignSteps targets value) s := by
  rcases targets with _ | ⟨target, _ | ⟨second, rest⟩⟩
  · rfl
  · cases target with
    | name _ id => simp [walkAssign, assignSteps, perform]
    | _ =>
      simp only [walkAssign, assignSteps]
      generalize parallelPairs _ value = pairs
      cases pairs with
      | some pairs => exact bindElements_eq h pairs s
      | none => exact unbindTarget_eq h _ s
  · simpa only [walkAssign, assignSteps] using unbindTargets_eq h (target :: second :: rest) s

private theorem walkItems_eq (items : List WithItem) (s : σ) :
    walkItems h items s = performAll h (items.flatMap itemSteps) s := by
  induction items generalizing s with
  | nil => rfl
  | cons item rest ih =>
    obtain ⟨context, target⟩ := item
    cases target <;> simp [walkItems, itemSteps, ih, perform, unbindTarget_eq]

mutual

private theorem walkStmt_eq (stmt : Stmt) (s : σ) :
    walkStmt h stmt s = performAll h (stmtSteps stmt) s := by
  cases stmt with
  | assign targets value => simp [walkStmt, stmtSteps, perform, walkAssign_eq]
  | annAssign target hint value =>
    cases target <;> simp [walkStmt, stmtSteps, annAssignSteps, visitAll_eq, perform]
  | augAssign target value => simp [walkStmt, stmtSteps, perform, unbindTarget_eq]
  | forLoop target iter body orelse =>
    simp [walkStmt, stmtSteps, perform, unbindTarget_eq, walkBody_eq body, walkBody_eq orelse]
  | branch test body orelse =>
    simp [walkStmt, stmtSteps, perform, walkBody_eq body, walkBody_eq orelse]
  | withBlock items body => simp [walkStmt, stmtSteps, walkItems_eq, walkBody_eq body]
  | tryBlock body handlers orelse finalbody =>
    simp [walkStmt, stmtSteps, walkBody_eq body, walkHandlers_eq handlers, walkBody_eq orelse,
      walkBody_eq finalbody]
  | matchBlock subject cases => simp [walkStmt, stmtSteps, perform, walkCases_eq cases]
  | functionDef head body =>
    simp only [walkStmt, stmtSteps, visitAll_eq, walkBody_eq body, List.map_append,
      performAll_append, performAll_cons, performAll_nil, bind_assoc, bind_pure]
    rfl
  | classDef head body =>
    simp only [walkStmt, stmtSteps, visitAll_eq, walkBody_eq body, performAll_append,
      performAll_cons, performAll_nil, bind_pure]
    rfl
  | delete targets => simp [walkStmt, stmtSteps, unbindTargets_eq]
  | imports stmt => simp [walkStmt, stmtSteps, perform]
  | value e | raise exc cause | assert test msg => simp [walkStmt, stmtSteps, visitAll_eq]
  | inert => simp [walkStmt, stmtSteps]

/-- Walking statements is performing their script. -/
theorem walkBody_eq (body : List Stmt) (s : σ) :
    walkBody h body s = performAll h (bodySteps body) s := by
  cases body with
  | nil => rfl
  | cons stmt rest => simp [walkBody, bodySteps, walkStmt_eq stmt, walkBody_eq rest]

private theorem walkHandlers_eq (handlers : List Handler) (s : σ) :
    walkHandlers h handlers s = performAll h (handlerSteps handlers) s := by
  cases handlers with
  | nil => rfl
  | cons handler rest =>
    obtain ⟨type, name, body⟩ := handler
    simp [walkHandlers, handlerSteps, visitAll_eq, unbindAll_eq, walkBody_eq body,
      walkHandlers_eq rest]

private theorem walkCases_eq (cases : List Case) (s : σ) :
    walkCases h cases s = performAll h (caseSteps cases) s := by
  cases cases with
  | nil => rfl
  | cons case rest =>
    obtain ⟨pattern, guard, body⟩ := case
    simp [walkCases, caseSteps, visitAll_eq, unbindAll_eq, walkBody_eq body, walkCases_eq rest]

end

end

end ContextLint.Scope
