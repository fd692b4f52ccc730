import ContextLint.Proofs.Typing.Judgement

/-!
# Types of straight expressions

An expression without assignment expressions, lambdas and comprehensions leaves the environment as
it is. Its type and those of its parts are then functions of the environment, and typing it records
just these.
-/

namespace ContextLint.Typing

open Source Scope

namespace Declarations

variable (d : Declarations) (env : Env)

/-- Type of a straight expression in an environment. -/
def typeIn : Expr → Option TypeRef
  | .constant _ value => some (builtin value.typeName)
  | .name _ id =>
    match env.get? id with
    | some ref => ref
    | none => d.nameType? id
  | .attr _ value name => d.attributeType? (typeIn value) name
  | .call _ func args _ => (d.callType (typeIn func) args).toOption.join
  | .conditional _ _ body orelse => if typeIn body = typeIn orelse then typeIn body else none
  | _ => none

/-- The call has a type or is known to have none. -/
def Callable : Expr → Prop
  | .call _ func args _ => ∃ ref, d.callType (d.typeIn env func) args = .ok ref
  | _ => True

/-- The expressions are straight, can be typed and are told apart by their numbers. -/
structure Typable (nodes : List Expr) : Prop where
  /-- No scope is opened and no name bound. -/
  straight : ∀ n ∈ nodes, n.isStraight
  /-- Every call can be typed. -/
  callable : ∀ n ∈ nodes, d.Callable env n
  /-- The numbers are different. -/
  numbered : (nodes.map Expr.id).Nodup

/-- The second table has the types of the expressions and is else like the first. -/
structure Records (nodes : List Expr) (t t' : TypeTable) : Prop where
  /-- The expressions have their types. -/
  typed : ∀ n ∈ nodes, ∀ ref, d.typeIn env n = some ref → t'[n.id]? = some ref
  /-- Nothing else changes. -/
  frame : ∀ id : Nat, id ∉ nodes.map Expr.id → t'[id]? = t[id]?

end Declarations

namespace Resolver

variable {r : Resolver} {env : Env}

private theorem binds_of_straight {e : Expr} (he : e.isStraight) : e.binds = [] := by
  cases e with
  | walrus | lambda | comprehension => cases he
  | _ => rfl

/-- What is straight has the type that it has in the environment. -/
private theorem judges_typeIn {e : Expr} (h : r.decls.Typable env e.nodes) :
    r.Judges (fun _ x P => ∃ a, x = .ok a ∧ P a) (· ∈ e.nodes) (· = env)
      fun n ref => ref = r.decls.typeIn env n where
  ok hP := ⟨_, rfl, hP⟩
  bind := by
    rintro _ _ _ _ _ _ ⟨a, rfl, ha⟩ hf
    exact hf a ha
  part he hc := Expr.mem_nodes_trans (Expr.mem_nodes_of_child (Expr.mem_children_of_evaluated hc)
    (Expr.mem_nodes_self _)) he
  constant := rfl
  name {site x env'} henv := by
    rw [henv, Declarations.nameIn, Declarations.typeIn]
    cases env.get? x <;> rfl
  attr href := by rw [href, Declarations.typeIn]
  call hn href := by
    obtain ⟨ref, hcall⟩ := h.callable _ hn
    rw [href, Declarations.typeIn, hcall]
    exact ⟨ref, rfl, rfl⟩
  walrus hn := absurd (h.straight _ hn) Bool.false_ne_true
  conditional ha hb := by rw [ha, hb, Declarations.typeIn]
  other {n} hn := by
    cases n with
    | constant | name | attr | call | walrus | conditional => cases hn
    | _ => rfl
  set hn := absurd (h.straight _ hn) Bool.false_ne_true
  hide hn hx := by
    rw [binds_of_straight (h.straight _ hn)] at hx
    cases hx
  adopt hn := absurd (h.straight _ hn) Bool.false_ne_true
  globals hn := absurd (h.straight _ hn) Bool.false_ne_true

/-- All of a straight expression is scheduled. -/
private theorem mem_schedule_of_straight {n e : Expr} (h : e.Straight) (hn : n ∈ e.nodes) :
    (n, false) ∈ e.schedule := by
  induction e using Expr.childInduction with
  | h e ih =>
    rcases Expr.mem_nodes_iff.mp hn with rfl | ⟨c, hc, hn⟩
    · exact n.mem_schedule_self
    · have hmem := ih c hc (h.child hc) hn
      have hstraight := h e e.mem_nodes_self
      cases e with
      | lambda | comprehension => cases hstraight
      | _ => exact Expr.mem_schedule_of_part hc rfl hmem

/-- Typing a straight expression finds its type and records it with those of its parts. -/
theorem eval_straight (frame : Frame) (e : Expr) (h : r.decls.Typable env e.nodes) (s : Facts)
    (hs : s.env = env) :
    ∃ s', r.eval ⟨frame, none⟩ e s = .ok (r.decls.typeIn env e, s') ∧ s'.env = env ∧
      r.decls.Records env e.nodes s.types s'.types := by
  obtain ⟨x, hx, htype, henv, hresults⟩ :=
    (judges_typeIn h).find e e.mem_nodes_self (p := ⟨frame, none⟩) (by simp) hs
  have hle : (e.evaluatedNodes : Multiset Expr) ≤ e.nodes := by
    rw [Expr.coe_nodes, Expr.coe_liveNodes, add_assoc]
    exact Multiset.le_add_right _ _
  have hids : (x.results.map (·.1.id)).Nodup := by
    refine results_nodup hx ?_
    have hnodup := Multiset.nodup_of_le (Multiset.map_le_map (f := Expr.id) hle) h.numbered
    have hperm := e.schedule_perm.map Expr.id
    rw [List.map_map] at hperm
    exact hperm.nodup_iff.mpr hnodup
  refine ⟨x.facts s.types, ?_, henv, fun n hn ref href => ?_, fun id hid => ?_⟩
  · rw [eval_eq_find, hx, ← htype]
    rfl
  · have hmem : n ∈ x.results.map Prod.fst := by
      rw [find_results _ e s.env x hx]
      exact List.mem_map.mpr ⟨_, List.mem_filter.mpr
        ⟨mem_schedule_of_straight h.straight hn, by simp⟩, rfl⟩
    obtain ⟨y, hy, rfl⟩ := List.mem_map.mp hmem
    rw [Finding.facts, getElem?_keep, latest_of_mem hids hy, (hresults y hy).2, href]
    rfl
  · refine getElem?_keep_of_ne _ fun y hy heq => hid ?_
    exact heq ▸ List.mem_map_of_mem (hresults y hy).1

/-- An expression statement records the types of a straight expression. -/
theorem performAll_value {e : Expr} (h : r.decls.Typable env e.nodes) {s : Progress}
    (hs : s.env = env) :
    ∃ s', performAll r.hooks (stmtSteps (.value (some e))) s = .ok s' ∧ s'.env = env ∧
      s'.frame = s.frame ∧ r.decls.Records env e.nodes s.types s'.types := by
  obtain ⟨facts, he, hfacts, hrecords⟩ := eval_straight s.frame e h s.toFacts hs
  refine ⟨{ s with toFacts := facts }, ?_, hfacts, rfl, hrecords⟩
  simp only [stmtSteps, Option.toList_some, List.map_cons, List.map_nil, performAll_cons,
    performAll_nil, perform, hooks, he]
  rfl

/-- An assignment to a name records the types of a straight value and binds the name to its type. -/
theorem performAll_assign {e : Expr} (h : r.decls.Typable env e.nodes) {ref : TypeRef}
    (href : r.decls.typeIn env e = some ref) (site : Site) (x : String) {s : Progress}
    (hs : s.env = env) :
    ∃ s', performAll r.hooks (stmtSteps (.assign [.name site x] e)) s = .ok s' ∧
      s'.env = env.set x (some ref) ∧ s'.frame = s.frame ∧
      r.decls.Records env e.nodes s.types s'.types := by
  obtain ⟨facts, he, hfacts, hrecords⟩ := eval_straight s.frame e h s.toFacts hs
  have htype : facts.typeOf? e = some ref := hrecords.typed e e.mem_nodes_self ref href
  refine ⟨assignIn { s with toFacts := facts } x (some ref), ?_, ?_, rfl, hrecords⟩
  · simp only [stmtSteps, assignSteps, performAll_cons, performAll_nil, perform, hooks, he,
      assignedType, NameContext.resolve?, bind, Except.bind, pure, Except.pure, Option.none_or,
      Option.bind_some, htype]
  · simp [assignIn, Facts.assign, hfacts]

end Resolver

end ContextLint.Typing
