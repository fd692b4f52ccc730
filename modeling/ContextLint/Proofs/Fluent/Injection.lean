import ContextLint.Fluent.Injection
import ContextLint.Proofs.Source.Linked

/-!
# Chains and injections

What a call that injects a context looks like, and what that means for chains.
-/

namespace ContextLint.Fluent.Inquiry

open Source

variable {q : Inquiry} {role : Role} {e : Expr}

/-- Whether a link injects a context depends on its first argument and the type of its receiver. -/
theorem injects_on (q : Inquiry) (role : Role) (l : Link) (e : Expr) :
    q.injects role (l.on e) =
      (l.method == q.method && (l.on e).firstArgument?.any fun arg =>
        q.capability.classify (q.info.typeOf? arg) && q.info.hasType e (q.receiverType role)) := by
  change (_ && _) = _
  cases (l.on e).firstArgument? <;> rfl

/-- A chain carries what its last link injects and what the chain before carries. -/
theorem carries_on (q : Inquiry) (role : Role) (l : Link) (e : Expr) :
    q.carries role (l.on e) = (q.injects role (l.on e) || q.carries role e) := by
  rw [Link.on, carries]

/-- A chain carries what its base carries. -/
theorem carries_linked_of_base (h : q.carries role e = true) (links : List Link) :
    q.carries role (e.linked links) = true := by
  induction links generalizing e with
  | nil => exact h
  | cons l links ih =>
    have hon : q.carries role (l.on e) = true := by rw [carries_on, h, Bool.or_true]
    exact ih hon

/-- A call that injects a context calls the injection method on a receiver of the right type, with a
context as first argument. -/
theorem exists_of_injects (h : q.injects role e) :
    ∃ site site' receiver args keywords arg,
      e = .call site (.attr site' receiver q.method) args keywords ∧
      e.firstArgument? = some arg ∧ q.capability.classify (q.info.typeOf? arg) ∧
      q.info.hasType receiver (q.receiverType role) := by
  unfold injects at h
  split at h
  · next site site' receiver method args keywords =>
    rw [Bool.and_eq_true, beq_iff_eq] at h
    obtain ⟨rfl, h⟩ := h
    split at h
    · cases h
    · next arg harg =>
      rw [Bool.and_eq_true] at h
      exact ⟨site, site', receiver, args, keywords, arg, rfl, harg, h.1, h.2⟩
  · cases h

/-- A chain that does not call the injection method carries no context. -/
theorem carries_of_not_mem_chainMethods (h : q.method ∉ e.chainMethods) :
    q.carries role e = false := by
  fun_induction q.carries role e with
  | case1 site site' value name args keywords ih =>
    simp only [Expr.chainMethods, List.mem_cons, not_or] at h
    rw [ih h.2, Bool.or_false, Bool.eq_false_iff]
    intro hinjects
    obtain ⟨_, _, _, _, _, _, heq, -⟩ := exists_of_injects hinjects
    cases heq
    exact h.1 rfl
  | case2 e _ => rfl

end ContextLint.Fluent.Inquiry
