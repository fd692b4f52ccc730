import ContextLint.Proofs.Rule.Tracker
import ContextLint.Proofs.Scope.Spared

/-!
# Names that a visit knows nothing of

Only assignments give a tracker something to know about a name. Where none of them is to a name,
every tracker of the visit is ignorant of it, and a call whose judgement needs no more than that is
judged alike wherever it stands.
-/

namespace ContextLint.Rule

open Source Scope

mutual

/-- The names to which an act assigns values. -/
def Act.assigned : Act → List String
  | .judge _ | .forget _ => []
  | .assign name _ => [name]
  | .function _ body | .cls body | .comprehension _ body => assignedAll body

/-- The names to which several acts assign values. -/
def assignedAll : List Act → List String
  | [] => []
  | act :: rest => act.assigned ++ assignedAll rest

end

@[simp] private theorem assignedAll_append (xs ys : List Act) :
    assignedAll (xs ++ ys) = assignedAll xs ++ assignedAll ys := by
  induction xs with
  | nil => rfl
  | cons x xs ih => simp [assignedAll, ih]

private theorem assignedAll_exprsActs (es : List Expr) :
    assignedAll (exprsActs es) = es.flatMap fun e => assignedAll (exprActs e) := by
  induction es with
  | nil => rfl
  | cons e rest ih => simp [exprsActs, ih]

private theorem assignedAll_clauseActs (generators : List Generator) :
    assignedAll (clauseActs generators) ⊆
      (generators.flatMap Expr.clauseParts).flatMap fun e => assignedAll (exprActs e) := by
  induction generators with
  | nil => exact List.Subset.refl _
  | cons clause rest ih =>
    obtain ⟨target, iter, conditions⟩ := clause
    intro x hx
    simp only [clauseActs, assignedAll_append, assignedAll, Act.assigned, assignedAll_exprsActs,
      List.nil_append, List.mem_append] at hx
    simp only [List.flatMap_cons, Expr.clauseParts, List.flatMap_append, List.mem_append]
    rcases hx with hx | hx | hx
    · exact .inl (.inr (.inl hx))
    · exact .inl (.inr (.inr hx))
    · exact .inr (ih hx)

private theorem assignedAll_cases {x : String} {e : Expr} (hx : x ∈ assignedAll (exprActs e)) :
    x ∈ e.binds ∨ ∃ c ∈ e.children, x ∈ assignedAll (exprActs c) := by
  cases e with
  | walrus site target value =>
    simp only [exprActs, assignedAll_append, assignedAll, Act.assigned, List.append_nil,
      List.mem_append] at hx
    exact hx.symm.imp id fun h => ⟨value, by simp [Expr.children], h⟩
  | comprehension site kind elements generators =>
    simp only [exprActs, assignedAll_append, assignedAll, Act.assigned, assignedAll_exprsActs,
      List.append_nil, List.mem_append] at hx
    have hmem : x ∈ (Expr.comprehension site kind elements generators).children.flatMap
        fun c => assignedAll (exprActs c) := by
      rw [Expr.children, List.flatMap_append, List.mem_append]
      exact hx.symm.imp id fun h => assignedAll_clauseActs generators h
    exact .inr (List.mem_flatMap.mp hmem)
  | constant site value | name site id => simp [exprActs, assignedAll] at hx
  | _ =>
    refine .inr (List.mem_flatMap.mp ?_)
    simpa [exprActs, assignedAll, Act.assigned, assignedAll_exprsActs, Expr.children] using hx

/-- A visit to an expression assigns values to names that are bound inside it. -/
theorem binds_of_mem_assignedAll {x : String} {e : Expr} (hx : x ∈ assignedAll (exprActs e)) :
    ∃ n ∈ e.nodes, x ∈ n.binds := by
  induction e using Expr.childInduction with
  | h e ih =>
    rcases assignedAll_cases hx with h | ⟨c, hc, h⟩
    · exact ⟨e, e.mem_nodes_self, h⟩
    · obtain ⟨n, hn, hb⟩ := ih c hc h
      exact ⟨n, Expr.mem_nodes_of_child hc hn, hb⟩

section

variable {x : String} {I : Import → Prop}

mutual

private theorem not_mem_assigned_stepActs (step : Step) (h : step.Spares x I) :
    x ∉ assignedAll (stepActs step) := by
  cases step with
  | visit e =>
    intro hx
    obtain ⟨n, hn, hb⟩ := binds_of_mem_assignedAll hx
    exact h n hn hb
  | bind name value hint =>
    cases value with
    | none => simp [stepActs, assignedAll, Act.assigned]
    | some e => simpa [stepActs, assignedAll, Act.assigned] using Ne.symm h
  | function head body =>
    simpa [stepActs, assignedAll, Act.assigned] using not_mem_assignedAll_stepsActs body h.2
  | cls head body =>
    simpa [stepActs, assignedAll, Act.assigned] using not_mem_assignedAll_stepsActs body h
  | _ => simp [stepActs, assignedAll, Act.assigned]

/-- A script that spares a name assigns no value to it. -/
theorem not_mem_assignedAll_stepsActs (steps : List Step) (h : SparesAll x I steps) :
    x ∉ assignedAll (stepsActs steps) := by
  cases steps with
  | nil => simp [stepsActs, assignedAll]
  | cons step rest =>
    rw [stepsActs, assignedAll_append, List.mem_append, not_or]
    exact ⟨not_mem_assigned_stepActs step h.1, not_mem_assignedAll_stepsActs rest h.2⟩

end

end

namespace Tracker

/-- Nothing is known of the name. -/
def Ignores (t : Tracker) (x : String) : Prop :=
  t.builders.get? x = none ∧ t.producers.get? x = none

variable {t inner : Tracker} {x : String}

private theorem ignores_idle (x : String) : idle.Ignores x := ⟨rfl, rfl⟩

private theorem Ignores.child (h : t.Ignores x) : t.child.Ignores x := by
  unfold Tracker.child
  split
  · exact h
  · exact ⟨rfl, rfl⟩

private theorem Ignores.resetAll (h : t.Ignores x) (names : List String) :
    (t.resetAll names).Ignores x := by
  constructor
  · rw [get?_resetAll_builders, h.1, ite_self]
  · rw [get?_resetAll_producers, h.2, ite_self]

private theorem Ignores.reset (h : t.Ignores x) (name : String) : (t.reset name).Ignores x :=
  h.resetAll [name]

private theorem Ignores.setProducer (h : t.Ignores x) {name : String} (hx : x ≠ name)
    (s : CapabilityState) : (t.setProducer name s).Ignores x :=
  ⟨(h.reset name).1, by simp [Tracker.setProducer, hx, h.2]⟩

private theorem Ignores.setBuilder (h : t.Ignores x) {name : String} (hx : x ≠ name)
    (s : CapabilityState) : (t.setBuilder name s).Ignores x :=
  ⟨by simp [Tracker.setBuilder, hx, h.1], (h.reset name).2⟩

private theorem Ignores.adopt (h : t.Ignores x) (hinner : inner.Ignores x) (name : String) :
    (t.adopt inner name).Ignores x := by
  have hreset := h.reset name
  unfold Tracker.adopt
  dsimp only
  split
  · split
    · next s hs =>
      have hx : x ≠ name := by
        rintro rfl
        rw [hinner.2] at hs
        cases hs
      exact ⟨hreset.1, by rw [NameMap.get?_set, if_neg hx, hreset.2]⟩
    · next s hs =>
      have hx : x ≠ name := by
        rintro rfl
        rw [hinner.1] at hs
        cases hs
      exact ⟨by rw [NameMap.get?_set, if_neg hx, hreset.1], hreset.2⟩
    · exact hreset
  · exact hreset

private theorem Ignores.foldl_adopt (hinner : inner.Ignores x) (names : List String)
    (h : t.Ignores x) : (names.foldl (·.adopt inner ·) t).Ignores x := by
  induction names generalizing t with
  | nil => exact h
  | cons n rest ih => exact ih (h.adopt hinner n)

/-- No chain built on the name is covered. -/
theorem Ignores.covers (h : t.Ignores x) (settings : Settings) {receiver : Expr}
    (hroot : receiver.rootName? = some x) : t.covers settings receiver = false := by
  simp [Tracker.covers, hroot, h.1, h.2]

private theorem Ignores.tracked {a : Analysis} (h : t.Ignores x) {name : String} (hx : x ≠ name)
    (e : Expr) : (a.tracked t name e).Ignores x := by
  cases hr : t.records with
  | false => rwa [a.tracked_of_not_records hr]
  | true =>
    rw [a.tracked_eq hr]
    split
    · exact h.setProducer hx _
    · exact h.setBuilder hx _
    · exact h.reset name

end Tracker

namespace Analysis

variable {a : Analysis} {x : String} {c : Expr} {b : Bool}

mutual

private theorem follow_untracked (hc : ∀ t : Tracker, t.Ignores x → a.flagged c t = b) (act : Act)
    (hx : x ∉ act.assigned) (t : Tracker) (ht : t.Ignores x) :
    (a.follow act t).1.Ignores x ∧ (c ∈ (a.follow act t).2 ↔ c ∈ act.calls ∧ b = true) := by
  cases act with
  | judge call =>
    refine ⟨ht, ?_⟩
    by_cases hcall : c = call
    · subst hcall
      simp [follow, Act.calls, hc t ht]
    · cases hflag : a.flagged call t <;> simp [follow, Act.calls, hcall, hflag]
  | assign name value =>
    simp only [Act.assigned, List.mem_singleton] at hx
    exact ⟨ht.tracked hx value, by simp [follow, Act.calls]⟩
  | forget names => exact ⟨ht.resetAll names, by simp [follow, Act.calls]⟩
  | function params body =>
    exact ⟨ht, (followAll_untracked hc body hx _ (ht.child.resetAll params)).2⟩
  | cls body => exact ⟨ht, (followAll_untracked hc body hx _ (Tracker.ignores_idle x)).2⟩
  | comprehension names body =>
    have hclause : t.clause.Ignores x := ht.child
    obtain ⟨hinner, hmem⟩ := followAll_untracked hc body hx _ hclause
    exact ⟨hinner.foldl_adopt names ht, hmem⟩

/-- A call whose judgement is the same for all trackers that are ignorant of a name is reported or
not wherever it stands, if no value is assigned to the name. -/
theorem followAll_untracked (hc : ∀ t : Tracker, t.Ignores x → a.flagged c t = b)
    (acts : List Act) (hx : x ∉ assignedAll acts) (t : Tracker) (ht : t.Ignores x) :
    (a.followAll acts t).1.Ignores x ∧
      (c ∈ (a.followAll acts t).2 ↔ c ∈ callsAll acts ∧ b = true) := by
  cases acts with
  | nil => exact ⟨ht, by simp [callsAll]⟩
  | cons act rest =>
    rw [assignedAll, List.mem_append, not_or] at hx
    obtain ⟨hfirst, hmem⟩ := follow_untracked hc act hx.1 t ht
    obtain ⟨hlast, hmems⟩ := followAll_untracked hc rest hx.2 _ hfirst
    refine ⟨hlast, ?_⟩
    rw [followAll, callsAll, List.mem_append, List.mem_append, hmem, hmems, or_and_right]

end

/-- In a module that binds a name by imports only, a call whose judgement is the same for all
trackers that are ignorant of the name is reported if it is judged and that judgement says so. -/
theorem mem_reported_iff {m : Module} {I : Import → Prop} (hm : m.Numbered)
    (hx : SparesAll x I (bodySteps m.body))
    (hc : ∀ t : Tracker, t.Ignores x → a.flagged c t = b) :
    c ∈ a.reported m ↔ c ∈ a.judgedCalls m ∧ b = true := by
  rw [a.reported_eq_follow hm, a.judgedCalls_eq]
  exact (followAll_untracked hc _ (not_mem_assignedAll_stepsActs _ hx) _
    (Tracker.ignores_idle x)).2

end Analysis

end ContextLint.Rule
