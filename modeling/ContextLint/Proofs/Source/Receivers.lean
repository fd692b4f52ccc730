import ContextLint.Fluent.Chain
import ContextLint.Proofs.Source.Nodes

/-!
# Calls and their receivers

A method call and its receiver stand on the same side: both are evaluated, or both are inside the
default value of a lambda.
-/

namespace ContextLint.Source.Expr

/-- The parts of a comprehension clause but its target. -/
def liveClauseParts : Generator → List Expr
  | .mk _ iter conditions => iter :: conditions

/-- The immediate parts of an expression but the targets of a comprehension. -/
def liveChildren : Expr → List Expr
  | comprehension _ _ elements generators => generators.flatMap liveClauseParts ++ elements
  | e => children e

/-- The immediate parts of an expression but targets and default values. -/
def evaluatedChildren : Expr → List Expr
  | lambda _ _ _ body => [body]
  | e => liveChildren e

/-- The default values of a lambda. -/
def lambdaDefaults : Expr → List Expr
  | lambda _ _ defaults _ => defaults
  | _ => []

/-- Live parts are parts. -/
theorem liveChildren_subset (e : Expr) : liveChildren e ⊆ children e := by
  cases e with
  | comprehension s kind elements generators =>
    intro c hc
    simp only [liveChildren, children, List.mem_append, List.mem_flatMap] at hc ⊢
    rcases hc with ⟨⟨target, iter, conditions⟩, hg, hc⟩ | hc
    · exact .inr ⟨_, hg, List.mem_cons_of_mem _ hc⟩
    · exact .inl hc
  | _ => exact List.Subset.refl _

/-- Evaluated parts are live. -/
theorem evaluatedChildren_subset (e : Expr) : evaluatedChildren e ⊆ liveChildren e := by
  cases e with
  | lambda s params defaults body => exact List.subset_append_right _ _
  | _ => exact List.Subset.refl _

/-- Evaluated parts are parts. -/
theorem mem_children_of_evaluated {c e : Expr} (hc : c ∈ evaluatedChildren e) : c ∈ children e :=
  liveChildren_subset e (evaluatedChildren_subset e hc)

/-- Induction from the evaluated parts to the whole. -/
theorem evaluatedInduction {P : Expr → Prop} (h : ∀ e, (∀ c ∈ evaluatedChildren e, P c) → P e)
    (e : Expr) : P e :=
  childInduction (fun e ih => h e fun c hc => ih c (mem_children_of_evaluated hc)) e

private theorem clauseLiveNodes_eq (generators : List Generator) :
    clauseLiveNodes generators = (generators.flatMap liveClauseParts).flatMap liveNodes := by
  induction generators with
  | nil => rfl
  | cons clause rest ih =>
    obtain ⟨target, iter, conditions⟩ := clause
    simp [clauseLiveNodes, liveClauseParts, ih]

private theorem clauseEvaluatedNodes_eq (generators : List Generator) :
    clauseEvaluatedNodes generators =
      (generators.flatMap liveClauseParts).flatMap evaluatedNodes := by
  induction generators with
  | nil => rfl
  | cons clause rest ih =>
    obtain ⟨target, iter, conditions⟩ := clause
    simp [clauseEvaluatedNodes, liveClauseParts, ih]

private theorem clauseDefaultNodes_eq (generators : List Generator) :
    clauseDefaultNodes generators =
      (generators.flatMap liveClauseParts).flatMap defaultNodes := by
  induction generators with
  | nil => rfl
  | cons clause rest ih =>
    obtain ⟨target, iter, conditions⟩ := clause
    simp [clauseDefaultNodes, liveClauseParts, ih]

/-- What is live is the expression or live in a live part. -/
theorem mem_liveNodes_iff {n e : Expr} :
    n ∈ liveNodes e ↔ n = e ∨ ∃ c ∈ liveChildren e, n ∈ liveNodes c := by
  cases e with
  | lambda s params defaults body =>
    simp [liveNodes, liveChildren, children, or_and_right, exists_or]
  | comprehension s kind elements generators =>
    rw [liveNodes, liveNodesOf_eq_flatMap, clauseLiveNodes_eq, ← List.flatMap_append,
      List.mem_cons, List.mem_flatMap]
    rfl
  | _ => simp [liveNodes, liveChildren, children, or_and_right, exists_or]

/-- An expression is evaluated with its evaluated parts. -/
theorem evaluatedNodes_eq (e : Expr) :
    evaluatedNodes e = e :: (evaluatedChildren e).flatMap evaluatedNodes := by
  cases e with
  | comprehension s kind elements generators =>
    rw [evaluatedNodes, evaluatedNodesOf_eq_flatMap, clauseEvaluatedNodes_eq,
      ← List.flatMap_append]
    rfl
  | _ => simp [evaluatedNodes, evaluatedChildren, liveChildren, children]

/-- What is evaluated is the expression or in an evaluated part. -/
theorem mem_evaluatedNodes_iff {n e : Expr} :
    n ∈ evaluatedNodes e ↔ n = e ∨ ∃ c ∈ evaluatedChildren e, n ∈ evaluatedNodes c := by
  rw [evaluatedNodes_eq, List.mem_cons, List.mem_flatMap]

/-- Default values stand in the expression or in an evaluated part. -/
theorem mem_defaultNodes_iff {n e : Expr} :
    n ∈ defaultNodes e ↔ (∃ d ∈ lambdaDefaults e, n ∈ liveNodes d) ∨
      ∃ c ∈ evaluatedChildren e, n ∈ defaultNodes c := by
  cases e with
  | comprehension s kind elements generators =>
    rw [defaultNodes, defaultNodesOf_eq_flatMap, clauseDefaultNodes_eq, ← List.flatMap_append,
      List.mem_flatMap]
    simp [lambdaDefaults, evaluatedChildren, liveChildren]
  | _ =>
    simp [defaultNodes, evaluatedChildren, liveChildren, children, lambdaDefaults, or_and_right,
      exists_or]

variable {n value e : Expr}

/-- An expression with a receiver is a method call. -/
theorem exists_of_receiver? (h : e.receiver? = some value) :
    ∃ site site' method args keywords, e = call site (attr site' value method) args keywords := by
  unfold receiver? at h
  split at h
  · obtain rfl := Option.some.inj h
    exact ⟨_, _, _, _, _, rfl⟩
  · cases h

/-- The receiver of a live method call is live. -/
theorem receiver_mem_liveNodes (hn : n ∈ liveNodes e) (hv : n.receiver? = some value) :
    value ∈ liveNodes e := by
  induction e using childInduction with
  | h e ih =>
    rcases mem_liveNodes_iff.mp hn with rfl | ⟨c, hc, hn⟩
    · obtain ⟨_, _, _, _, _, rfl⟩ := exists_of_receiver? hv
      simp [liveNodes, mem_liveNodes_self]
    · exact mem_liveNodes_iff.mpr (.inr ⟨c, hc, ih c (liveChildren_subset e hc) hn⟩)

/-- The receiver of an evaluated method call is evaluated. -/
theorem receiver_mem_evaluatedNodes (hn : n ∈ evaluatedNodes e) (hv : n.receiver? = some value) :
    value ∈ evaluatedNodes e := by
  induction e using evaluatedInduction with
  | h e ih =>
    rcases mem_evaluatedNodes_iff.mp hn with rfl | ⟨c, hc, hn⟩
    · obtain ⟨_, _, _, _, _, rfl⟩ := exists_of_receiver? hv
      have hself : value ∈ evaluatedNodes value := mem_evaluatedNodes_iff.mpr (.inl rfl)
      simp [evaluatedNodes, hself]
    · exact mem_evaluatedNodes_iff.mpr (.inr ⟨c, hc, ih c hc hn⟩)

/-- The receiver of a method call inside a default value is inside it, too. -/
theorem receiver_mem_defaultNodes (hn : n ∈ defaultNodes e) (hv : n.receiver? = some value) :
    value ∈ defaultNodes e := by
  induction e using evaluatedInduction with
  | h e ih =>
    rcases mem_defaultNodes_iff.mp hn with ⟨d, hd, hn⟩ | ⟨c, hc, hn⟩
    · exact mem_defaultNodes_iff.mpr (.inl ⟨d, hd, receiver_mem_liveNodes hn hv⟩)
    · exact mem_defaultNodes_iff.mpr (.inr ⟨c, hc, ih c hc hn⟩)

end ContextLint.Source.Expr
