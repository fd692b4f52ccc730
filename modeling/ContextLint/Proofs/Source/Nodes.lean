import Mathlib.Algebra.Order.Group.Multiset
import Mathlib.Tactic.Abel
import ContextLint.Source.Traverse

/-!
# Parts of a tree

The expressions inside an expression fall into three groups: those inside the target of a
comprehension clause, which are never evaluated where they stand, those inside a default value of a
lambda, and the others. The lists below are in the order of evaluation, so up to order together they
are all the expressions there are.
-/

namespace ContextLint.Source

namespace Expr

/-- The expression is a call. -/
def isCall : Expr → Bool
  | call .. => true
  | _ => false

mutual

/-- An expression and the expressions inside it, comprehension targets apart. -/
def liveNodes : Expr → List Expr
  | constant s v => [constant s v]
  | name s id => [name s id]
  | attr s v n => attr s v n :: liveNodes v
  | call s func args keywords =>
    call s func args keywords :: (liveNodes func ++ liveNodesOf args ++ liveNodesOf keywords)
  | walrus s target value => walrus s target value :: liveNodes value
  | conditional s test body orelse =>
    conditional s test body orelse :: (liveNodes test ++ liveNodes body ++ liveNodes orelse)
  | lambda s params defaults body =>
    lambda s params defaults body :: (liveNodesOf defaults ++ liveNodes body)
  | comprehension s kind elements generators =>
    comprehension s kind elements generators ::
      (clauseLiveNodes generators ++ liveNodesOf elements)
  | sequence s kind elements => sequence s kind elements :: liveNodesOf elements
  | starred s value => starred s value :: liveNodes value
  | binary s op left right => binary s op left right :: (liveNodes left ++ liveNodes right)
  | subscript s value slice => subscript s value slice :: (liveNodes value ++ liveNodes slice)
  | compound s kind parts => compound s kind parts :: liveNodesOf parts

/-- Several expressions and the expressions inside them, comprehension targets apart. -/
def liveNodesOf : List Expr → List Expr
  | [] => []
  | e :: rest => liveNodes e ++ liveNodesOf rest

/-- The expressions of comprehension clauses, their targets apart. -/
def clauseLiveNodes : List Generator → List Expr
  | [] => []
  | .mk _ iter conditions :: rest =>
    liveNodes iter ++ liveNodesOf conditions ++ clauseLiveNodes rest

end

mutual

/-- Targets of the comprehension clauses inside an expression, those inside another target apart. -/
def clauseTargets : Expr → List Expr
  | constant .. | name .. => []
  | attr _ value _ | walrus _ _ value | starred _ value => clauseTargets value
  | call _ func args keywords =>
    clauseTargets func ++ clauseTargetsOf args ++ clauseTargetsOf keywords
  | conditional _ test body orelse =>
    clauseTargets test ++ clauseTargets body ++ clauseTargets orelse
  | lambda _ _ defaults body => clauseTargetsOf defaults ++ clauseTargets body
  | comprehension _ _ elements generators =>
    generatorTargets generators ++ clauseTargetsOf elements
  | sequence _ _ parts | compound _ _ parts => clauseTargetsOf parts
  | binary _ _ left right | subscript _ left right => clauseTargets left ++ clauseTargets right

/-- Targets of the comprehension clauses inside several expressions. -/
def clauseTargetsOf : List Expr → List Expr
  | [] => []
  | e :: rest => clauseTargets e ++ clauseTargetsOf rest

/-- Targets of comprehension clauses and of those inside their other parts. -/
def generatorTargets : List Generator → List Expr
  | [] => []
  | .mk target iter conditions :: rest =>
    target :: (clauseTargets iter ++ clauseTargetsOf conditions ++ generatorTargets rest)

end

mutual

/-- An expression and the expressions inside it, comprehension targets and default values of lambdas
apart. -/
def evaluatedNodes : Expr → List Expr
  | constant s v => [constant s v]
  | name s id => [name s id]
  | attr s v n => attr s v n :: evaluatedNodes v
  | call s func args keywords =>
    call s func args keywords ::
      (evaluatedNodes func ++ evaluatedNodesOf args ++ evaluatedNodesOf keywords)
  | walrus s target value => walrus s target value :: evaluatedNodes value
  | conditional s test body orelse =>
    conditional s test body orelse ::
      (evaluatedNodes test ++ evaluatedNodes body ++ evaluatedNodes orelse)
  | lambda s params defaults body => lambda s params defaults body :: evaluatedNodes body
  | comprehension s kind elements generators =>
    comprehension s kind elements generators ::
      (clauseEvaluatedNodes generators ++ evaluatedNodesOf elements)
  | sequence s kind elements => sequence s kind elements :: evaluatedNodesOf elements
  | starred s value => starred s value :: evaluatedNodes value
  | binary s op left right =>
    binary s op left right :: (evaluatedNodes left ++ evaluatedNodes right)
  | subscript s value slice =>
    subscript s value slice :: (evaluatedNodes value ++ evaluatedNodes slice)
  | compound s kind parts => compound s kind parts :: evaluatedNodesOf parts

/-- Several expressions and the expressions inside them, with the same exceptions. -/
def evaluatedNodesOf : List Expr → List Expr
  | [] => []
  | e :: rest => evaluatedNodes e ++ evaluatedNodesOf rest

/-- The expressions of comprehension clauses, with the same exceptions. -/
def clauseEvaluatedNodes : List Generator → List Expr
  | [] => []
  | .mk _ iter conditions :: rest =>
    evaluatedNodes iter ++ evaluatedNodesOf conditions ++ clauseEvaluatedNodes rest

end

mutual

/-- The live expressions inside default values of lambdas. -/
def defaultNodes : Expr → List Expr
  | constant .. | name .. => []
  | attr _ value _ | walrus _ _ value | starred _ value => defaultNodes value
  | call _ func args keywords =>
    defaultNodes func ++ defaultNodesOf args ++ defaultNodesOf keywords
  | conditional _ test body orelse =>
    defaultNodes test ++ defaultNodes body ++ defaultNodes orelse
  | lambda _ _ defaults body => liveNodesOf defaults ++ defaultNodes body
  | comprehension _ _ elements generators =>
    clauseDefaultNodes generators ++ defaultNodesOf elements
  | sequence _ _ parts | compound _ _ parts => defaultNodesOf parts
  | binary _ _ left right | subscript _ left right => defaultNodes left ++ defaultNodes right

/-- The live expressions inside default values of lambdas in several expressions. -/
def defaultNodesOf : List Expr → List Expr
  | [] => []
  | e :: rest => defaultNodes e ++ defaultNodesOf rest

/-- The live expressions inside default values of lambdas in comprehension clauses. -/
def clauseDefaultNodes : List Generator → List Expr
  | [] => []
  | .mk _ iter conditions :: rest =>
    defaultNodes iter ++ defaultNodesOf conditions ++ clauseDefaultNodes rest

end

/-- A list function given by its values on single elements. -/
private theorem eq_flatMap {f : Expr → List Expr} {g : List Expr → List Expr} (hnil : g [] = [])
    (hcons : ∀ e rest, g (e :: rest) = f e ++ g rest) (es : List Expr) : g es = es.flatMap f := by
  induction es with
  | nil => exact hnil
  | cons e rest ih => rw [hcons, ih, List.flatMap_cons]

@[simp] theorem nodesOf_eq_flatMap (es : List Expr) : nodesOf es = es.flatMap nodes :=
  eq_flatMap rfl (fun _ _ => rfl) es

/-- An expression is live in itself. -/
theorem mem_liveNodes_self (e : Expr) : e ∈ liveNodes e := by
  cases e <;> simp [liveNodes]

@[simp] theorem liveNodesOf_eq_flatMap (es : List Expr) : liveNodesOf es = es.flatMap liveNodes :=
  eq_flatMap rfl (fun _ _ => rfl) es

@[simp] theorem clauseTargetsOf_eq_flatMap (es : List Expr) :
    clauseTargetsOf es = es.flatMap clauseTargets :=
  eq_flatMap rfl (fun _ _ => rfl) es

@[simp] theorem evaluatedNodesOf_eq_flatMap (es : List Expr) :
    evaluatedNodesOf es = es.flatMap evaluatedNodes :=
  eq_flatMap rfl (fun _ _ => rfl) es

@[simp] theorem defaultNodesOf_eq_flatMap (es : List Expr) :
    defaultNodesOf es = es.flatMap defaultNodes :=
  eq_flatMap rfl (fun _ _ => rfl) es

mutual

/-- The expressions inside an expression are the live ones and those inside comprehension targets.
-/
theorem coe_nodes (e : Expr) :
    (nodes e : Multiset Expr) = liveNodes e + (clauseTargets e).flatMap nodes := by
  cases e with
  | constant s v | name s id => simp [nodes, liveNodes, clauseTargets]
  | _ =>
    simp only [nodes, liveNodes, clauseTargets, List.cons_append, List.flatMap_append,
      ← Multiset.cons_coe, ← Multiset.coe_add, ← Multiset.singleton_add, coe_nodes, coe_nodesOf,
      coe_clauseNodes]
    abel

theorem coe_nodesOf (es : List Expr) :
    (nodesOf es : Multiset Expr) = liveNodesOf es + (clauseTargetsOf es).flatMap nodes := by
  cases es with
  | nil => rfl
  | cons e rest =>
    simp only [nodesOf, liveNodesOf, clauseTargetsOf, List.flatMap_append, ← Multiset.coe_add,
      coe_nodes e, coe_nodesOf rest]
    abel

private theorem coe_clauseNodes (generators : List Generator) :
    (clauseNodes generators : Multiset Expr) =
      clauseLiveNodes generators + (generatorTargets generators).flatMap nodes := by
  cases generators with
  | nil => rfl
  | cons clause rest =>
    obtain ⟨target, iter, conditions⟩ := clause
    simp only [clauseNodes, clauseLiveNodes, generatorTargets, List.flatMap_cons,
      List.flatMap_append, ← Multiset.coe_add, coe_nodes iter, coe_nodesOf conditions,
      coe_clauseNodes rest]
    abel

end

/-- Live expressions are expressions. -/
theorem liveNodes_subset (e : Expr) : liveNodes e ⊆ nodes e := by
  intro n hn
  rw [← Multiset.mem_coe, coe_nodes, Multiset.mem_add]
  exact .inl (Multiset.mem_coe.mpr hn)

mutual

/-- The live expressions are the evaluated ones and those inside default values of lambdas. -/
theorem coe_liveNodes (e : Expr) :
    (liveNodes e : Multiset Expr) = evaluatedNodes e + defaultNodes e := by
  cases e with
  | constant s v | name s id => simp [liveNodes, evaluatedNodes, defaultNodes]
  | lambda s params defaults body =>
    simp only [liveNodes, evaluatedNodes, defaultNodes, ← Multiset.cons_coe, ← Multiset.coe_add,
      ← Multiset.singleton_add, coe_liveNodes body]
    abel
  | _ =>
    simp only [liveNodes, evaluatedNodes, defaultNodes, ← Multiset.cons_coe, ← Multiset.coe_add,
      ← Multiset.singleton_add, coe_liveNodes, coe_liveNodesOf, coe_clauseLiveNodes]
    abel

theorem coe_liveNodesOf (es : List Expr) :
    (liveNodesOf es : Multiset Expr) = evaluatedNodesOf es + defaultNodesOf es := by
  cases es with
  | nil => rfl
  | cons e rest =>
    simp only [liveNodesOf, evaluatedNodesOf, defaultNodesOf, ← Multiset.coe_add,
      coe_liveNodes e, coe_liveNodesOf rest]
    abel

private theorem coe_clauseLiveNodes (generators : List Generator) :
    (clauseLiveNodes generators : Multiset Expr) =
      clauseEvaluatedNodes generators + clauseDefaultNodes generators := by
  cases generators with
  | nil => rfl
  | cons clause rest =>
    obtain ⟨target, iter, conditions⟩ := clause
    simp only [clauseLiveNodes, clauseEvaluatedNodes, clauseDefaultNodes, ← Multiset.coe_add,
      coe_liveNodes iter, coe_liveNodesOf conditions, coe_clauseLiveNodes rest]
    abel

end

/-- The three immediate parts of a comprehension clause. -/
def clauseParts : Generator → List Expr
  | .mk target iter conditions => target :: iter :: conditions

/-- The immediate parts of an expression. -/
def children : Expr → List Expr
  | constant .. | name .. => []
  | attr _ value _ | walrus _ _ value | starred _ value => [value]
  | call _ func args keywords => func :: (args ++ keywords)
  | conditional _ test body orelse => [test, body, orelse]
  | lambda _ _ defaults body => defaults ++ [body]
  | comprehension _ _ elements generators => elements ++ generators.flatMap clauseParts
  | sequence _ _ parts | compound _ _ parts => parts
  | binary _ _ left right | subscript _ left right => [left, right]

private theorem clauseNodes_eq_flatMap (generators : List Generator) :
    clauseNodes generators = (generators.flatMap clauseParts).flatMap nodes := by
  induction generators with
  | nil => rfl
  | cons clause rest ih =>
    obtain ⟨target, iter, conditions⟩ := clause
    simp [clauseNodes, clauseParts, ih]

/-- Inside an expression are itself and what is inside its parts. -/
theorem mem_nodes_iff {n e : Expr} : n ∈ nodes e ↔ n = e ∨ ∃ c ∈ children e, n ∈ nodes c := by
  cases e with
  | lambda s params defaults body => simp [nodes, children, or_and_right, exists_or]
  | comprehension s kind elements generators =>
    simp only [nodes, children, nodesOf_eq_flatMap, clauseNodes_eq_flatMap, List.cons_append,
      List.mem_cons, ← List.flatMap_append, List.mem_flatMap]
  | _ => simp [nodes, children, or_and_right, exists_or]

/-- An expression is inside itself. -/
theorem mem_nodes_self (e : Expr) : e ∈ nodes e := mem_nodes_iff.mpr (Or.inl rfl)

/-- What is inside a part is inside the whole. -/
theorem mem_nodes_of_child {n c e : Expr} (hc : c ∈ children e) (hn : n ∈ nodes c) : n ∈ nodes e :=
  mem_nodes_iff.mpr (Or.inr ⟨c, hc, hn⟩)

mutual

/-- Induction from the immediate parts to the whole. -/
theorem childInduction {P : Expr → Prop} (h : ∀ e, (∀ c ∈ children e, P c) → P e) (e : Expr) :
    P e := by
  cases e with
  | constant s v | name s id => exact h _ (by simp [children])
  | attr s value n | walrus s target value | starred s value =>
    exact h _ (by simpa [children] using childInduction h value)
  | call s func args keywords =>
    have hf := childInduction h func
    refine h _ fun c hc => ?_
    simp only [children, List.mem_cons, List.mem_append] at hc
    rcases hc with rfl | hc | hc
    · exact hf
    · exact childInductionOf h args c hc
    · exact childInductionOf h keywords c hc
  | conditional s test body orelse =>
    have ht := childInduction h test
    have hb := childInduction h body
    have ho := childInduction h orelse
    exact h _ (by simp [children, ht, hb, ho])
  | lambda s params defaults body =>
    have hb := childInduction h body
    refine h _ fun c hc => ?_
    simp only [children, List.mem_append, List.mem_singleton] at hc
    rcases hc with hc | rfl
    · exact childInductionOf h defaults c hc
    · exact hb
  | comprehension s kind elements generators =>
    refine h _ fun c hc => ?_
    simp only [children, List.mem_append] at hc
    rcases hc with hc | hc
    · exact childInductionOf h elements c hc
    · exact clauseInduction h generators c hc
  | sequence s kind elements | compound s kind elements => exact h _ (childInductionOf h elements)
  | binary s op left right =>
    have hl := childInduction h left
    have hr := childInduction h right
    exact h _ (by simp [children, hl, hr])
  | subscript s value slice =>
    have hv := childInduction h value
    have hs := childInduction h slice
    exact h _ (by simp [children, hv, hs])

private theorem childInductionOf {P : Expr → Prop} (h : ∀ e, (∀ c ∈ children e, P c) → P e)
    (es : List Expr) : ∀ e ∈ es, P e := by
  cases es with
  | nil => simp
  | cons e rest =>
    have he := childInduction h e
    have hr := childInductionOf h rest
    simpa [he] using hr

private theorem clauseInduction {P : Expr → Prop} (h : ∀ e, (∀ c ∈ children e, P c) → P e)
    (generators : List Generator) : ∀ e ∈ generators.flatMap clauseParts, P e := by
  cases generators with
  | nil => simp
  | cons clause rest =>
    obtain ⟨target, iter, conditions⟩ := clause
    have ht := childInduction h target
    have hi := childInduction h iter
    have hc := childInductionOf h conditions
    have hr := clauseInduction h rest
    intro e he
    simp only [List.flatMap_cons, clauseParts, List.cons_append, List.mem_cons,
      List.mem_append] at he
    rcases he with rfl | rfl | he | he
    · exact ht
    · exact hi
    · exact hc e he
    · exact hr e he

end

/-- What is inside a part is inside the whole. -/
theorem mem_nodes_trans {a b c : Expr} (hab : a ∈ nodes b) (hbc : b ∈ nodes c) : a ∈ nodes c := by
  induction c using childInduction with
  | h c ih =>
    rcases mem_nodes_iff.mp hbc with rfl | ⟨d, hd, hbd⟩
    · exact hab
    · exact mem_nodes_of_child hd (ih d hd hbd)

/-- The expression neither opens a scope nor binds a name. -/
def isStraight : Expr → Bool
  | walrus .. | lambda .. | comprehension .. => false
  | _ => true

/-- Nothing inside the expression opens a scope or binds a name. -/
def Straight (e : Expr) : Prop := ∀ n ∈ nodes e, n.isStraight

/-- The parts of what is straight are straight. -/
theorem Straight.child {e c : Expr} (h : e.Straight) (hc : c ∈ children e) : c.Straight :=
  fun n hn => h n (mem_nodes_of_child hc hn)

end Expr

end ContextLint.Source
