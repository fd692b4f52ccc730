import ContextLint.Fluent.Injection
import ContextLint.Proofs.Source.Nodes

/-!
# Kept answers are right

A memory is sound for a family of expressions if each answer it holds is the answer that would be
worked out anew. Answers are kept under the number of an expression, so the numbers must tell the
members of the family apart. Asking with a sound memory gives the right answer and leaves a sound
memory behind. So do questions on types and on chains of both roles in any order; each uses at most
one kept answer of its role and none of the other.
-/

namespace ContextLint.Fluent

open Source Typing

/-- A family of expressions that holds the receivers of its method calls and whose members have
different numbers. -/
structure Family (S : Expr → Prop) : Prop where
  /-- Receivers are members. -/
  receiver : ∀ {e value : Expr}, S e → e.receiver? = some value → S value
  /-- A number belongs to one member. -/
  inj : ∀ {e e' : Expr}, S e → S e' → e.id = e'.id → e = e'

variable {m : Memory}

namespace Capability

/-- Every kept answer is right. -/
def Memory.Sound (c : Capability) (m : Memory) : Prop :=
  ∀ r b, m.lookup r = some b → b = c.holds r.qualname

/-- Asking about a type gives the right answer and keeps the answers right. -/
theorem consult_sound {c : Capability} (h : Memory.Sound c m) (ref : Option TypeRef) :
    (c.consult ref m).1 = c.classify ref ∧ Memory.Sound c (c.consult ref m).2 := by
  cases ref with
  | none => exact ⟨rfl, h⟩
  | some r =>
    cases hi : r.isInstance with
    | false => simpa [consult, classify, hi] using h
    | true =>
      cases hl : m.lookup r with
      | some b =>
        simp only [consult, classify, hi, hl, if_true, Bool.true_and]
        exact ⟨h r b hl, h⟩
      | none =>
        simp only [consult, classify, hi, hl, if_true, Bool.true_and, true_and]
        intro r' b hr
        rw [List.lookup_cons] at hr
        split at hr
        · next heq => rw [eq_of_beq heq, ← Option.some.inj hr]
        · exact h r' b hr

end Capability

variable {role : Role} {e : Expr}

namespace Inquiry

/-- Every kept answer is right. -/
structure Memory.Sound (q : Inquiry) (S : Expr → Prop) (m : Memory) : Prop where
  /-- Answers on types are right. -/
  capability : ∀ {r b}, m.capability.lookup r = some b → b = q.capability.holds r.qualname
  /-- Answers on chains are right. -/
  chain : ∀ {role e b}, S e → (m.chain role).answers[e.id]? = some b → b = q.carries role e

variable {q : Inquiry} {S : Expr → Prop}

/-- A memory without answers is sound. -/
theorem Memory.Sound.empty : Memory.Sound q S {} where
  capability h := by simp at h
  chain {role e b} _ h := by cases role <;> simp [Memory.chain] at h

/-- Counting the use of an answer changes no answer. -/
theorem Memory.Sound.hit (h : m.Sound q S) (role : Role) : (m.hit role).Sound q S where
  capability hr := h.capability (by cases role <;> simpa [Memory.hit, Memory.setChain] using hr)
  chain {role' e b} he hb := by
    have hold : (m.chain role').answers[e.id]? = some b := by
      cases role <;> cases role' <;> simpa [Memory.hit, Memory.setChain, Memory.chain] using hb
    exact h.chain he hold

/-- Keeping an answer leaves the answers of the other role alone. -/
theorem Memory.chain_keep_of_ne {role' : Role} (hrole : role' ≠ role) (m : Memory) (e : Expr)
    (answer : Bool) : (m.keep role e answer).chain role' = m.chain role' := by
  cases role <;> cases role' <;> simp_all [Memory.keep, Memory.setChain, Memory.chain]

/-- A right answer may be kept. -/
theorem Memory.Sound.keep (hS : Family S) (h : m.Sound q S) (he : S e) :
    (m.keep role e (q.carries role e)).Sound q S where
  capability hr := h.capability (by cases role <;> simpa [Memory.keep, Memory.setChain] using hr)
  chain {role' e' b} he' hb := by
    by_cases hrole : role' = role
    · subst hrole
      have hget : ((m.keep role' e (q.carries role' e)).chain role').answers =
          (m.chain role').answers.insert e.id (q.carries role' e) := by
        cases role' <;> rfl
      rw [hget, Std.TreeMap.getElem?_insert] at hb
      split at hb
      · next heq =>
        obtain rfl := hS.inj he he' (by simpa using heq)
        exact (Option.some.inj hb).symm
      · exact h.chain he' hb
    · rw [Memory.chain_keep_of_ne hrole] at hb
      exact h.chain he' hb

/-- Asking about a type gives the right answer and keeps the answers right. -/
theorem consult_sound (h : m.Sound q S) (ref : Option TypeRef) :
    (q.capability.consult ref m.capability).1 = q.capability.classify ref ∧
      Memory.Sound q S { m with capability := (q.capability.consult ref m.capability).2 } := by
  have hkept : Capability.Memory.Sound q.capability m.capability := fun _ _ => h.capability
  obtain ⟨hanswer, hnext⟩ := Capability.consult_sound hkept ref
  exact ⟨hanswer, hnext _ _, h.chain⟩

/-- Asking whether a call injects gives the right answer and keeps the answers right. -/
theorem consultInjects_sound (h : m.Sound q S) (role : Role) (e : Expr) :
    (q.consultInjects role e m).1 = q.injects role e ∧ (q.consultInjects role e m).2.Sound q S := by
  unfold consultInjects injects
  split
  · next site site' value name args keywords =>
    cases hn : name == q.method with
    | false => exact ⟨by simp, by simpa using h⟩
    | true =>
      simp only [if_true, Bool.true_and]
      cases Expr.firstArgument? _ with
      | none => exact ⟨rfl, h⟩
      | some arg =>
        obtain ⟨h1, h2⟩ := consult_sound h (q.info.typeOf? arg)
        exact ⟨by simp only [h1], h2⟩
  · exact ⟨rfl, h⟩

/-- Asking whether a chain carries a context gives the right answer and keeps the answers right. -/
theorem consultCarries_sound (hS : Family S) (role : Role) (he : S e) (h : m.Sound q S) :
    (q.consultCarries role e m).1 = q.carries role e ∧ (q.consultCarries role e m).2.Sound q S := by
  fun_induction consultCarries q role e m with
  | case1 | case3 => exact ⟨h.chain he ‹_›, h.hit role⟩
  | case2 s s' value name args keywords m e _ here m₁ hinj answer m₂ hrest ih =>
    obtain ⟨hhere, h₁⟩ := consultInjects_sound h role e
    simp only [hinj] at hhere h₁
    have hanswer : answer = q.carries role e ∧ m₂.Sound q S := by
      rw [show q.carries role e = (q.injects role e || q.carries role value) from rfl, ← hhere]
      cases here with
      | true => obtain ⟨rfl, rfl⟩ := Prod.mk.inj hrest; exact ⟨rfl, h₁⟩
      | false =>
        simp only [Bool.false_eq_true, if_false] at hrest
        simpa [hrest] using ih (hS.receiver he rfl) h₁
    obtain ⟨rfl, h₂⟩ := hanswer
    exact ⟨rfl, h₂.keep hS he⟩
  | case4 e m hplain _ =>
    have hfalse : q.carries role e = false := by
      unfold carries
      split
      · exact (hplain _ _ _ _ _ _ rfl).elim
      · rfl
    exact ⟨hfalse.symm, hfalse ▸ h.keep hS he⟩

end Inquiry

/-- A question that can be asked with a memory. -/
inductive Question where
  /-- Something of this type counts as a context. -/
  | type (ref : Option TypeRef)
  /-- The chain carries a context. -/
  | chain (role : Role) (e : Expr)

/-- The question is about no expression outside the family. -/
def Question.Within (S : Expr → Prop) : Question → Prop
  | .type _ => True
  | .chain _ e => S e

namespace Inquiry

/-- How often an answer of the role was used again. -/
def Memory.uses (m : Memory) (role : Role) : Nat := (m.chain role).hits

variable (q : Inquiry)

/-- The answer worked out anew. -/
def answer : Question → Bool
  | .type ref => q.capability.classify ref
  | .chain role e => q.carries role e

/-- Ask a question with a memory. -/
def ask : Question → Memory → Bool × Memory
  | .type ref, m =>
    let (isContext, kept) := q.capability.consult ref m.capability
    (isContext, { m with capability := kept })
  | .chain role e, m => q.consultCarries role e m

/-- Ask questions in order, each with the memory that the one before leaves behind. -/
def askAll : List Question → Memory → List Bool × Memory
  | [], m => ([], m)
  | x :: rest, m => ((q.ask x m).1 :: (askAll rest (q.ask x m).2).1, (askAll rest (q.ask x m).2).2)

variable {q} {S : Expr → Prop}

/-- A chain carries a context if it is a method call that injects one or has a receiver that carries
one. -/
theorem carries_eq (role : Role) (e : Expr) :
    q.carries role e =
      e.receiver?.any fun receiver => q.injects role e || q.carries role receiver := by
  unfold Expr.receiver?
  split
  · rfl
  · next hplain =>
    rw [carries]
    · rfl
    · exact hplain

/-- A question gets the right answer and leaves a sound memory behind. -/
theorem ask_sound (hS : Family S) {m : Memory} (h : m.Sound q S) {x : Question} (hx : x.Within S) :
    (q.ask x m).1 = q.answer x ∧ (q.ask x m).2.Sound q S := by
  cases x with
  | type ref => exact consult_sound h ref
  | chain role e => exact consultCarries_sound hS role hx h

/-- All questions of a session get the right answers. -/
theorem askAll_sound (hS : Family S) {m : Memory} (h : m.Sound q S) {xs : List Question}
    (hxs : ∀ x ∈ xs, x.Within S) : (q.askAll xs m).1 = xs.map q.answer := by
  induction xs generalizing m with
  | nil => rfl
  | cons x rest ih =>
    rw [List.forall_mem_cons] at hxs
    obtain ⟨hanswer, hnext⟩ := ask_sound hS h hxs.1
    rw [askAll, List.map_cons, hanswer, ih hnext hxs.2]

@[simp] private theorem Memory.uses_keep (m : Memory) (role role' : Role) (e : Expr)
    (answer : Bool) : (m.keep role e answer).uses role' = m.uses role' := by
  cases role <;> cases role' <;> rfl

private theorem Memory.uses_hit (m : Memory) (role role' : Role) :
    (m.hit role).uses role' = m.uses role' + if role' = role then 1 else 0 := by
  cases role <;> cases role' <;> rfl

/-- Asking whether a call injects uses no kept answer on chains. -/
theorem uses_consultInjects (role role' : Role) (e : Expr) (m : Memory) :
    (q.consultInjects role e m).2.uses role' = m.uses role' := by
  unfold consultInjects
  split
  · split
    · split
      · rfl
      · cases role' <;> rfl
    · rfl
  · rfl

/-- Asking about a chain uses at most one kept answer of its role and none of the other. -/
theorem uses_consultCarries (role role' : Role) (e : Expr) (m : Memory) :
    (q.consultCarries role e m).2.uses role' = m.uses role' ∨
      role' = role ∧ (q.consultCarries role e m).2.uses role' = m.uses role' + 1 := by
  have hhit (m : Memory) : (m.hit role).uses role' = m.uses role' ∨
      role' = role ∧ (m.hit role).uses role' = m.uses role' + 1 := by
    rw [Memory.uses_hit]
    by_cases hrole : role' = role
    · exact .inr ⟨hrole, by rw [if_pos hrole]⟩
    · exact .inl (by rw [if_neg hrole, Nat.add_zero])
  fun_induction consultCarries q role e m with
  | case1 | case3 => exact hhit _
  | case2 s s' value name args keywords m e _ here m₁ hinj answer m₂ hrest ih =>
    -- The walk goes on below this call unless the call injects; neither way counts here.
    have huses : m₁.uses role' = m.uses role' := by
      have h := uses_consultInjects (q := q) role role' e m
      rwa [hinj] at h
    rw [Memory.uses_keep, ← huses]
    cases here with
    | true =>
      obtain ⟨-, rfl⟩ := Prod.mk.inj hrest
      exact .inl rfl
    | false =>
      simp only [Bool.false_eq_true, if_false] at hrest
      rwa [hrest] at ih
  | case4 => exact .inl (Memory.uses_keep ..)

/-- A question uses at most one kept answer of its role and none of the other. -/
theorem uses_ask (x : Question) (role : Role) (m : Memory) :
    (q.ask x m).2.uses role = m.uses role ∨
      (∃ e, x = .chain role e) ∧ (q.ask x m).2.uses role = m.uses role + 1 := by
  cases x with
  | type ref => exact .inl (by cases role <;> rfl)
  | chain role' e =>
    rcases uses_consultCarries (q := q) role' role e m with h | ⟨rfl, h⟩
    · exact .inl h
    · exact .inr ⟨⟨e, rfl⟩, h⟩

/-- The memory behind a session of two parts is the one behind the second part. -/
theorem askAll_append_snd (xs ys : List Question) (m : Memory) :
    (q.askAll (xs ++ ys) m).2 = (q.askAll ys (q.askAll xs m).2).2 := by
  induction xs generalizing m with
  | nil => rfl
  | cons x rest ih => exact ih (q.ask x m).2

end Inquiry

end ContextLint.Fluent
