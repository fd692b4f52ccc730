import ContextLint.Proofs.Scope.Visited

/-!
# Names that a module leaves alone

Targets, parameters, patterns, definitions and assignment expressions bind names. If none of the
statements and expressions of a module binds a name, no step of its script does, except that imports
are judged on their own.
-/

namespace ContextLint.Source

/-- Names that the expression itself binds. -/
def Expr.binds : Expr → List String
  | .walrus _ target _ => [target]
  | .lambda _ params _ _ => params
  | .comprehension _ _ _ generators =>
    generators.flatMap fun | .mk target _ _ => target.targetNames
  | _ => []

/-- Names that the targets of a comprehension hide. -/
def Expr.hides : Expr → List String
  | .comprehension _ _ _ generators =>
    generators.flatMap fun | .mk target _ _ => target.targetNames
  | _ => []

/-- Names that the expression itself reads or binds. -/
def Expr.mentions : Expr → List String
  | .name _ id => [id]
  | e => e.binds

/-- What an expression binds it mentions. -/
theorem Expr.binds_subset_mentions (e : Expr) : e.binds ⊆ e.mentions := by
  cases e with
  | name site id => exact List.nil_subset _
  | _ => exact fun _ h => h

/-- Name that an imported name is bound to. -/
def ImportAlias.boundName (source : Option ImportSource) (a : ImportAlias) : String :=
  a.asName.getD (if source.isNone then a.root else a.name)

theorem assignedNamesOf_eq_flatMap (es : List Expr) :
    Expr.assignedNamesOf es = es.flatMap Expr.assignedNames := by
  induction es with
  | nil => rfl
  | cons e rest ih => rw [Expr.assignedNamesOf, ih, List.flatMap_cons]

theorem generatorNames_eq_flatMap (generators : List Generator) :
    Expr.generatorNames generators =
      (generators.flatMap Expr.clauseParts).flatMap Expr.assignedNames := by
  induction generators with
  | nil => rfl
  | cons clause rest ih =>
    obtain ⟨target, iter, conditions⟩ := clause
    simp [Expr.generatorNames, Expr.clauseParts, assignedNamesOf_eq_flatMap, ih]

private theorem assigned_cases {x : String} {e : Expr} (hx : x ∈ e.assignedNames) :
    x ∈ e.binds ∨ ∃ c ∈ e.children, x ∈ c.assignedNames := by
  cases e with
  | walrus site target value =>
    simp only [Expr.assignedNames, List.mem_append] at hx
    exact hx.symm.imp id fun h => ⟨value, by simp [Expr.children], h⟩
  | comprehension site kind elements generators =>
    rw [Expr.assignedNames, assignedNamesOf_eq_flatMap, generatorNames_eq_flatMap,
      ← List.flatMap_append] at hx
    exact .inr (List.mem_flatMap.mp hx)
  | call site func args keywords =>
    rw [Expr.assignedNames, assignedNamesOf_eq_flatMap, assignedNamesOf_eq_flatMap] at hx
    exact .inr (List.mem_flatMap.mp (by simpa [Expr.children] using hx))
  | constant site value | name site id | lambda site params defaults body =>
    simp [Expr.assignedNames] at hx
  | _ => simpa [Expr.assignedNames, Expr.children, Expr.binds, assignedNamesOf_eq_flatMap] using hx

/-- The targets of assignment expressions are bound inside the expression. -/
theorem Expr.binds_of_assigned {x : String} {e : Expr} (hx : x ∈ e.assignedNames) :
    ∃ n ∈ e.nodes, x ∈ n.binds := by
  induction e using Expr.childInduction with
  | h e ih =>
    rcases assigned_cases hx with h | ⟨c, hc, h⟩
    · exact ⟨e, e.mem_nodes_self, h⟩
    · obtain ⟨n, hn, hb⟩ := ih c hc h
      exact ⟨n, Expr.mem_nodes_of_child hc hn, hb⟩

namespace Stmt

/-- Names that the statement itself binds, imports apart. -/
def binds : Stmt → List String
  | assign targets _ | delete targets => Expr.targetNamesOf targets
  | annAssign target _ _ | augAssign target _ | forLoop target _ _ _ => target.targetNames
  | withBlock items _ => items.flatMap fun i => i.target.toList.flatMap Expr.targetNames
  | tryBlock _ handlers _ _ => handlers.flatMap fun | .mk _ name _ => name.toList
  | matchBlock _ cases => cases.flatMap fun | .mk pattern _ _ => pattern.names
  | functionDef head _ => head.name :: head.params.names
  | classDef head _ => [head.name]
  | branch .. | imports _ | value _ | raise .. | .assert .. | inert => []

mutual

/-- A statement and all statements inside it. -/
def inside : Stmt → List Stmt
  | forLoop target iter body orelse =>
    forLoop target iter body orelse :: (insideOf body ++ insideOf orelse)
  | branch test body orelse => branch test body orelse :: (insideOf body ++ insideOf orelse)
  | withBlock items body => withBlock items body :: insideOf body
  | tryBlock body handlers orelse finalbody =>
    tryBlock body handlers orelse finalbody ::
      (insideOf body ++ (handlersInside handlers ++ (insideOf orelse ++ insideOf finalbody)))
  | matchBlock subject cases => matchBlock subject cases :: casesInside cases
  | functionDef head body => functionDef head body :: insideOf body
  | classDef head body => classDef head body :: insideOf body
  | s => [s]

/-- Several statements and all statements inside them. -/
def insideOf : List Stmt → List Stmt
  | [] => []
  | s :: rest => inside s ++ insideOf rest

/-- All statements of `except` clauses. -/
def handlersInside : List Handler → List Stmt
  | [] => []
  | .mk _ _ body :: rest => insideOf body ++ handlersInside rest

/-- All statements of `case` clauses. -/
def casesInside : List Case → List Stmt
  | [] => []
  | .mk _ _ body :: rest => insideOf body ++ casesInside rest

end

private theorem flatten_zipLevels_perm {α : Type} (xs ys : List (List α)) :
    (zipLevels xs ys).flatten.Perm (xs.flatten ++ ys.flatten) := by
  fun_induction zipLevels xs ys with
  | case1 ys | case2 xs => simp
  | case3 x xs y ys ih =>
    simp only [List.flatten_cons, List.append_assoc]
    refine .append_left x ((List.Perm.append_left y ih).trans ?_)
    rw [← List.append_assoc, ← List.append_assoc]
    exact List.perm_append_comm.append_right _

mutual

/-- The statements inside a statement are those met by depth. -/
theorem levels_perm (s : Stmt) : (levels s).flatten.Perm (inside s) := by
  cases s with
  | forLoop target iter body orelse | branch test body orelse =>
    exact .cons _
      ((flatten_zipLevels_perm _ _).trans ((levelsOf_perm body).append (levelsOf_perm orelse)))
  | withBlock items body | functionDef head body | classDef head body =>
    exact .cons _ (levelsOf_perm body)
  | tryBlock body handlers orelse finalbody =>
    refine .cons _ ((flatten_zipLevels_perm _ _).trans ((levelsOf_perm body).append ?_))
    refine (flatten_zipLevels_perm _ _).trans ((handlerLevels_perm handlers).append ?_)
    exact (flatten_zipLevels_perm _ _).trans
      ((levelsOf_perm orelse).append (levelsOf_perm finalbody))
  | matchBlock subject cases => exact .cons _ (caseLevels_perm cases)
  | _ => exact .refl _

private theorem levelsOf_perm (body : List Stmt) :
    (levelsOf body).flatten.Perm (insideOf body) := by
  cases body with
  | nil => exact .refl _
  | cons s rest =>
    exact (flatten_zipLevels_perm _ _).trans ((levels_perm s).append (levelsOf_perm rest))

private theorem handlerLevels_perm (handlers : List Handler) :
    (handlerLevels handlers).flatten.Perm (handlersInside handlers) := by
  cases handlers with
  | nil => exact .refl _
  | cons handler rest =>
    obtain ⟨type, name, body⟩ := handler
    exact (flatten_zipLevels_perm _ _).trans ((levelsOf_perm body).append (handlerLevels_perm rest))

private theorem caseLevels_perm (cases : List Case) :
    (caseLevels cases).flatten.Perm (casesInside cases) := by
  cases cases with
  | nil => exact .refl _
  | cons case rest =>
    obtain ⟨pattern, guard, body⟩ := case
    exact (flatten_zipLevels_perm _ _).trans ((levelsOf_perm body).append (caseLevels_perm rest))

end

private theorem mem_inside_self (s : Stmt) : s ∈ s.inside := by
  cases s <;> simp [inside]

/-- Statements are inside their body. -/
theorem mem_insideOf {s : Stmt} {body : List Stmt} (h : s ∈ body) : s ∈ insideOf body := by
  induction body with
  | nil => cases h
  | cons first rest ih =>
    rw [insideOf, List.mem_append]
    rcases List.mem_cons.mp h with rfl | h
    · exact .inl s.mem_inside_self
    · exact .inr (ih h)

end Stmt

/-- The statements of a module, breadth first, are all statements inside it. -/
theorem Module.mem_breadthFirst {m : Module} {s : Stmt} :
    s ∈ m.breadthFirst ↔ s ∈ Stmt.insideOf m.body := (Stmt.levelsOf_perm m.body).mem_iff

end ContextLint.Source

namespace ContextLint.Scope

open Source

variable {x : String} {I : Import → Prop}

mutual

/-- The step binds the name at most by an import with the given property. -/
def Step.Spares (x : String) (I : Import → Prop) : Step → Prop
  | .visit e => ∀ n ∈ e.nodes, x ∉ n.binds
  | .bind name _ _ | .unbind name | .bindElement name _ | .define name => name ≠ x
  | .onImport stmt => I stmt
  | .function head body => x ∉ head.params.names ∧ SparesAll x I body
  | .cls _ body => SparesAll x I body

/-- No step of the script binds the name, except by an import with the given property. -/
def SparesAll (x : String) (I : Import → Prop) : List Step → Prop
  | [] => True
  | step :: rest => step.Spares x I ∧ SparesAll x I rest

end

@[simp] private theorem sparesAll_append {xs ys : List Step} :
    SparesAll x I (xs ++ ys) ↔ SparesAll x I xs ∧ SparesAll x I ys := by
  induction xs with
  | nil => simp [SparesAll]
  | cons step rest ih => simp [SparesAll, ih, and_assoc]

private theorem sparesAll_of_forall {steps : List Step} (h : ∀ step ∈ steps, step.Spares x I) :
    SparesAll x I steps := by
  induction steps with
  | nil => trivial
  | cons step rest ih =>
    rw [List.forall_mem_cons] at h
    exact ⟨h.1, ih h.2⟩

/-- None of the expressions binds the name. -/
def Unbound (x : String) (es : List Expr) : Prop := ∀ e ∈ es, ∀ n ∈ e.nodes, x ∉ n.binds

@[simp] private theorem unbound_cons {e : Expr} {es : List Expr} :
    Unbound x (e :: es) ↔ (∀ n ∈ e.nodes, x ∉ n.binds) ∧ Unbound x es := List.forall_mem_cons

@[simp] private theorem unbound_append {xs ys : List Expr} :
    Unbound x (xs ++ ys) ↔ Unbound x xs ∧ Unbound x ys := List.forall_mem_append

private theorem sparesAll_visits {es : List Expr} (h : Unbound x es) :
    SparesAll x I (es.map .visit) :=
  sparesAll_of_forall (List.forall_mem_map.mpr h)

mutual

private theorem sparesAll_target (target : Expr) (hx : x ∉ target.targetNames)
    (h : ∀ n ∈ target.nodes, x ∉ n.binds) : SparesAll x I (targetSteps target) := by
  cases target with
  | name site id =>
    simp only [Expr.targetNames, List.mem_singleton] at hx
    exact ⟨Ne.symm hx, trivial⟩
  | sequence site kind elements =>
    refine sparesAll_targets elements hx fun e he n hn => ?_
    exact h n (Expr.mem_nodes_of_child he hn)
  | starred site value =>
    refine sparesAll_target value hx fun n hn => ?_
    exact h n (Expr.mem_nodes_of_child (by simp [Expr.children]) hn)
  | _ => exact ⟨h, trivial⟩

private theorem sparesAll_targets (targets : List Expr) (hx : x ∉ Expr.targetNamesOf targets)
    (h : Unbound x targets) : SparesAll x I (targetsSteps targets) := by
  cases targets with
  | nil => trivial
  | cons target rest =>
    simp only [Expr.targetNamesOf, List.mem_append, not_or] at hx
    rw [unbound_cons] at h
    rw [targetsSteps, sparesAll_append]
    exact ⟨sparesAll_target target hx.1 h.1, sparesAll_targets rest hx.2 h.2⟩

end

private theorem sparesAll_pairs {targets : List Expr} {pairs : List (String × Expr)}
    (h : List.Forall₂ Names targets pairs) (hx : x ∉ Expr.targetNamesOf targets) :
    SparesAll x I (pairs.map fun p => .bindElement p.1 p.2) := by
  induction h with
  | nil => trivial
  | cons hname _ ih =>
    obtain ⟨site, rfl⟩ := hname
    simp only [Expr.targetNamesOf, Expr.targetNames, List.mem_append, List.mem_singleton,
      not_or] at hx
    exact ⟨Ne.symm hx.1, ih hx.2⟩

private theorem sparesAll_parallel {target value : Expr} {pairs : List (String × Expr)}
    (hp : parallelPairs target value = some pairs) (hx : x ∉ target.targetNames) :
    SparesAll x I (pairs.map fun p => .bindElement p.1 p.2) := by
  obtain ⟨site, kind, elements, rfl, hnames⟩ := names_of_parallelPairs hp
  exact sparesAll_pairs hnames hx

private theorem sparesAll_assign (targets : List Expr) (value : Expr)
    (hx : x ∉ Expr.targetNamesOf targets) (h : Unbound x targets) :
    SparesAll x I (assignSteps targets value) := by
  rcases targets with _ | ⟨target, _ | ⟨second, rest⟩⟩
  · trivial
  · replace hx : x ∉ target.targetNames := by simpa [Expr.targetNamesOf] using hx
    have htarget : SparesAll x I (targetSteps target) :=
      sparesAll_target target hx (unbound_cons.mp h).1
    cases target with
    | name site id => exact ⟨htarget.1, trivial⟩
    | _ =>
      simp only [assignSteps]
      cases hp : parallelPairs _ value with
      | none => exact htarget
      | some pairs => exact sparesAll_parallel hp hx
  · simpa only [assignSteps] using sparesAll_targets (target :: second :: rest) hx h

private theorem sparesAll_annAssign (target hint : Expr) (value : Option Expr)
    (hx : x ∉ target.targetNames) (h : ∀ n ∈ target.nodes, x ∉ n.binds) :
    SparesAll x I (annAssignSteps target hint value) := by
  cases target with
  | name site id =>
    simp only [Expr.targetNames, List.mem_singleton] at hx
    exact ⟨Ne.symm hx, trivial⟩
  | _ => exact ⟨h, trivial⟩

private theorem sparesAll_items (items : List WithItem)
    (hx : x ∉ items.flatMap fun i => i.target.toList.flatMap Expr.targetNames)
    (h : Unbound x (items.flatMap fun i => i.context :: i.target.toList)) :
    SparesAll x I (items.flatMap itemSteps) := by
  induction items with
  | nil => trivial
  | cons item rest ih =>
    obtain ⟨context, target⟩ := item
    simp only [List.flatMap_cons, List.mem_append, not_or, unbound_append, unbound_cons] at hx h
    rw [List.flatMap_cons, sparesAll_append]
    refine ⟨⟨h.1.1, ?_⟩, ih hx.2 h.2⟩
    cases target with
    | none => trivial
    | some target =>
      simp only [Option.toList_some, List.flatMap_cons, List.flatMap_nil, List.append_nil,
        unbound_cons] at hx h ⊢
      exact sparesAll_target target hx.1 h.1.2.1

/-- The statements bind the name at most by imports with the given property. -/
def Spared (x : String) (I : Import → Prop) (stmts : List Stmt) : Prop :=
  ∀ s ∈ stmts, x ∉ s.binds ∧ ∀ i, s = .imports i → I i

@[simp] private theorem spared_cons {s : Stmt} {stmts : List Stmt} :
    Spared x I (s :: stmts) ↔ (x ∉ s.binds ∧ ∀ i, s = .imports i → I i) ∧ Spared x I stmts :=
  List.forall_mem_cons

@[simp] private theorem spared_append {xs ys : List Stmt} :
    Spared x I (xs ++ ys) ↔ Spared x I xs ∧ Spared x I ys := List.forall_mem_append

mutual

private theorem sparesAll_stmt (s : Stmt) (hs : Spared x I s.inside)
    (he : Unbound x s.expressions) : SparesAll x I (stmtSteps s) := by
  cases s with
  | assign targets value =>
    simp only [Stmt.inside, Stmt.expressions, spared_cons, unbound_append, unbound_cons] at hs he
    exact ⟨he.2.1, sparesAll_assign targets value hs.1.1 he.1⟩
  | annAssign target hint value =>
    simp only [Stmt.inside, Stmt.expressions, spared_cons, unbound_cons] at hs he
    rw [stmtSteps, sparesAll_append]
    exact ⟨sparesAll_visits he.2.2, sparesAll_annAssign target hint value hs.1.1 he.1⟩
  | augAssign target value =>
    simp only [Stmt.inside, Stmt.expressions, spared_cons, unbound_cons] at hs he
    exact ⟨he.2.1, sparesAll_target target hs.1.1 he.1⟩
  | forLoop target iter body orelse =>
    simp only [Stmt.inside, Stmt.expressions, spared_cons, spared_append, unbound_cons,
      unbound_append, List.cons_append] at hs he
    simp only [stmtSteps, List.cons_append, SparesAll, sparesAll_append]
    exact ⟨he.2.1, sparesAll_target target hs.1.1 he.1, sparesAll_body body hs.2.1 he.2.2.1,
      sparesAll_body orelse hs.2.2 he.2.2.2⟩
  | branch test body orelse =>
    simp only [Stmt.inside, Stmt.expressions, spared_cons, spared_append, unbound_cons,
      unbound_append, List.cons_append] at hs he
    simp only [stmtSteps, SparesAll, sparesAll_append]
    exact ⟨he.1, sparesAll_body body hs.2.1 he.2.1, sparesAll_body orelse hs.2.2 he.2.2⟩
  | withBlock items body =>
    simp only [Stmt.inside, Stmt.expressions, spared_cons, unbound_append] at hs he
    rw [stmtSteps, sparesAll_append]
    exact ⟨sparesAll_items items hs.1.1 he.1, sparesAll_body body hs.2 he.2⟩
  | tryBlock body handlers orelse finalbody =>
    simp only [Stmt.inside, Stmt.expressions, spared_cons, spared_append, unbound_append] at hs he
    simp only [stmtSteps, sparesAll_append]
    exact ⟨⟨sparesAll_body body hs.2.1 he.1.1.1,
        sparesAll_handlers handlers hs.1.1 hs.2.2.1 he.1.1.2⟩,
      sparesAll_body orelse hs.2.2.2.1 he.1.2, sparesAll_body finalbody hs.2.2.2.2 he.2⟩
  | matchBlock subject cases =>
    simp only [Stmt.inside, Stmt.expressions, spared_cons, unbound_cons] at hs he
    exact ⟨he.1, sparesAll_cases cases hs.1.1 hs.2 he.2⟩
  | functionDef head body =>
    simp only [Stmt.inside, Stmt.expressions, spared_cons, unbound_append, Stmt.binds,
      List.mem_cons, not_or] at hs he
    have hdefaults : Unbound x head.params.defaultValues := fun e hd => he.1.1.1 e <| by
      simp only [Parameters.defaultValues, Parameters.expressions, List.mem_append] at hd ⊢
      tauto
    simp only [stmtSteps, sparesAll_append]
    exact ⟨sparesAll_visits (unbound_append.mpr ⟨he.1.2, hdefaults⟩), Ne.symm hs.1.1.1,
      ⟨hs.1.1.2, sparesAll_body body hs.2 he.1.1.2⟩, trivial⟩
  | classDef head body =>
    simp only [Stmt.inside, Stmt.expressions, spared_cons, unbound_append, Stmt.binds,
      List.mem_singleton] at hs he
    simp only [stmtSteps, sparesAll_append]
    exact ⟨sparesAll_visits (by simp [he]), Ne.symm hs.1.1, sparesAll_body body hs.2 he.1.2,
      trivial⟩
  | delete targets =>
    simp only [Stmt.inside, Stmt.expressions, spared_cons] at hs he
    exact sparesAll_targets targets hs.1.1 he
  | imports stmt =>
    simp only [Stmt.inside, spared_cons] at hs
    exact ⟨hs.1.2 stmt rfl, trivial⟩
  | value e | raise exc cause | assert test msg => exact sparesAll_visits he
  | inert => trivial

/-- The script of statements that spare a name spares it. -/
theorem sparesAll_body (body : List Stmt) (hs : Spared x I (Stmt.insideOf body))
    (he : Unbound x (Stmt.expressionsOf body)) : SparesAll x I (bodySteps body) := by
  cases body with
  | nil => trivial
  | cons s rest =>
    simp only [Stmt.insideOf, Stmt.expressionsOf, spared_append, unbound_append] at hs he
    rw [bodySteps, sparesAll_append]
    exact ⟨sparesAll_stmt s hs.1 he.1, sparesAll_body rest hs.2 he.2⟩

private theorem sparesAll_handlers (handlers : List Handler)
    (hx : x ∉ handlers.flatMap fun | .mk _ name _ => name.toList)
    (hs : Spared x I (Stmt.handlersInside handlers))
    (he : Unbound x (Stmt.handlerExpressions handlers)) :
    SparesAll x I (handlerSteps handlers) := by
  cases handlers with
  | nil => trivial
  | cons handler rest =>
    obtain ⟨type, name, body⟩ := handler
    simp only [List.flatMap_cons, List.mem_append, not_or, Stmt.handlersInside,
      Stmt.handlerExpressions, spared_append, unbound_append] at hx hs he
    simp only [handlerSteps, sparesAll_append]
    refine ⟨⟨⟨sparesAll_visits he.1.1, sparesAll_of_forall ?_⟩, sparesAll_body body hs.1 he.1.2⟩,
      sparesAll_handlers rest hx.2 hs.2 he.2⟩
    exact List.forall_mem_map.mpr fun n hn hnx => hx.1 (hnx ▸ hn)

private theorem sparesAll_cases (cases : List Case)
    (hx : x ∉ cases.flatMap fun | .mk pattern _ _ => pattern.names)
    (hs : Spared x I (Stmt.casesInside cases)) (he : Unbound x (Stmt.caseExpressions cases)) :
    SparesAll x I (caseSteps cases) := by
  cases cases with
  | nil => trivial
  | cons case rest =>
    obtain ⟨pattern, guard, body⟩ := case
    simp only [List.flatMap_cons, List.mem_append, not_or, Stmt.casesInside,
      Stmt.caseExpressions, spared_append, unbound_append] at hx hs he
    simp only [caseSteps, sparesAll_append]
    refine ⟨⟨⟨sparesAll_of_forall ?_, sparesAll_visits he.1.1.2⟩, sparesAll_body body hs.1 he.1.2⟩,
      sparesAll_cases rest hx.2 hs.2 he.2⟩
    exact List.forall_mem_map.mpr fun n hn hnx => hx.1 (hnx ▸ hn)

end

end ContextLint.Scope
