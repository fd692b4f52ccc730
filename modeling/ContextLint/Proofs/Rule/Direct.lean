import ContextLint.Proofs.Fluent.Memory
import ContextLint.Proofs.Rule.Reported
import ContextLint.Proofs.Scope.Bound

/-!
# Checking without a memory

The visitor of the rule keeps its answers on chains. In a module whose nodes have different numbers
all of them are right, so the calls it reports are those reported when every question is answered
anew. That simpler visit is following the acts one by one; later proofs are about it.
-/

namespace ContextLint.Rule

open Source Scope Fluent

section

variable {σ α β : Type} {I : σ → Prop}

/-- From any state with the invariant, the computation gives what the stateless one gives and keeps
the invariant. -/
def Yields (I : σ → Prop) (x : StateM σ α) (y : Id α) : Prop :=
  ∀ st, I st → (Id.run (x.run st)).1 = y.run ∧ I (Id.run (x.run st)).2

private theorem Yields.pure (y : α) : Yields I (Pure.pure y) (Pure.pure y) := fun _ h => ⟨rfl, h⟩

private theorem Yields.bind {x : StateM σ α} {y : Id α} {f : α → StateM σ β} {g : α → Id β}
    (hx : Yields I x y) (hf : Yields I (f y.run) (g y.run)) : Yields I (x >>= f) (y >>= g) := by
  intro st h
  obtain ⟨hy, hI⟩ := hx st h
  simpa [hy] using hf _ hI

end

mutual

/-- The expressions that an act judges or binds to a name. -/
def Act.subjects : Act → List Expr
  | .judge e | .assign _ e => [e]
  | .forget _ => []
  | .function _ body | .cls body | .comprehension _ body => subjectsAll body

/-- The expressions that several acts judge or bind to names. -/
def subjectsAll : List Act → List Expr
  | [] => []
  | act :: rest => act.subjects ++ subjectsAll rest

end

@[simp] theorem subjectsAll_append (xs ys : List Act) :
    subjectsAll (xs ++ ys) = subjectsAll xs ++ subjectsAll ys := by
  induction xs with
  | nil => rfl
  | cons x xs ih => simp [subjectsAll, ih]

mutual

/-- A visit to an expression judges and binds live parts of it. -/
theorem subjectsAll_exprActs (e : Expr) : subjectsAll (exprActs e) ⊆ e.liveNodes := by
  cases e with
  | constant site value | name site id => simp [exprActs, subjectsAll]
  | attr site value name | starred site value =>
    exact fun n hn => List.mem_cons_of_mem _ (subjectsAll_exprActs value hn)
  | call site func args keywords =>
    have hf := subjectsAll_exprActs func
    have ha := subjectsAll_exprsActs args
    have hk := subjectsAll_exprsActs keywords
    grind [exprActs, subjectsAll, Act.subjects, Expr.liveNodes, subjectsAll_append]
  | walrus site target value =>
    have hv := subjectsAll_exprActs value
    grind [exprActs, subjectsAll, Act.subjects, Expr.liveNodes, subjectsAll_append,
      Expr.mem_liveNodes_self]
  | conditional site test body orelse =>
    have ht := subjectsAll_exprActs test
    have hb := subjectsAll_exprActs body
    have ho := subjectsAll_exprActs orelse
    grind [exprActs, Expr.liveNodes, subjectsAll_append]
  | lambda site params defaults body =>
    have hd := subjectsAll_exprsActs defaults
    have hb := subjectsAll_exprActs body
    grind [exprActs, subjectsAll, Act.subjects, Expr.liveNodes, subjectsAll_append]
  | comprehension site kind elements generators =>
    have he := subjectsAll_exprsActs elements
    have hg := subjectsAll_clauseActs generators
    grind [exprActs, subjectsAll, Act.subjects, Expr.liveNodes, subjectsAll_append]
  | sequence site kind elements | compound site kind elements =>
    exact fun n hn => List.mem_cons_of_mem _ (subjectsAll_exprsActs elements hn)
  | binary site op left right =>
    have hl := subjectsAll_exprActs left
    have hr := subjectsAll_exprActs right
    grind [exprActs, Expr.liveNodes, subjectsAll_append]
  | subscript site value slice =>
    have hv := subjectsAll_exprActs value
    have hs := subjectsAll_exprActs slice
    grind [exprActs, Expr.liveNodes, subjectsAll_append]

private theorem subjectsAll_exprsActs (es : List Expr) :
    subjectsAll (exprsActs es) ⊆ Expr.liveNodesOf es := by
  cases es with
  | nil => simp [exprsActs, subjectsAll]
  | cons e rest =>
    have he := subjectsAll_exprActs e
    have hr := subjectsAll_exprsActs rest
    grind [exprsActs, Expr.liveNodesOf, subjectsAll_append]

private theorem subjectsAll_clauseActs (generators : List Generator) :
    subjectsAll (clauseActs generators) ⊆ Expr.clauseLiveNodes generators := by
  cases generators with
  | nil => simp [clauseActs, subjectsAll]
  | cons clause rest =>
    obtain ⟨target, iter, conditions⟩ := clause
    have hi := subjectsAll_exprActs iter
    have hc := subjectsAll_exprsActs conditions
    have hr := subjectsAll_clauseActs rest
    grind [clauseActs, subjectsAll, Act.subjects, Expr.clauseLiveNodes, subjectsAll_append]

end

mutual

private theorem subjectsAll_stepActs (step : Step) {n : Expr}
    (hn : n ∈ subjectsAll (stepActs step)) :
    (∃ e ∈ step.visited, n ∈ e.liveNodes) ∨ n ∈ step.values := by
  cases step with
  | visit e => exact .inl ⟨e, by simp [Step.visited], subjectsAll_exprActs e hn⟩
  | bind name value hint =>
    cases value with
    | none => simp [stepActs, subjectsAll, Act.subjects] at hn
    | some e => exact .inr (by simpa [stepActs, subjectsAll, Act.subjects, Step.values] using hn)
  | function head body | cls head body =>
    simp only [stepActs, subjectsAll, Act.subjects, List.append_nil] at hn
    exact subjectsAll_stepsActs body hn
  | _ => simp [stepActs, subjectsAll, Act.subjects] at hn

/-- A script judges and binds live parts of what it visits and the values of its bindings. -/
theorem subjectsAll_stepsActs (steps : List Step) {n : Expr}
    (hn : n ∈ subjectsAll (stepsActs steps)) :
    (∃ e ∈ visitedAll steps, n ∈ e.liveNodes) ∨ n ∈ valuesAll steps := by
  cases steps with
  | nil => simp [stepsActs, subjectsAll] at hn
  | cons step rest =>
    simp only [stepsActs, subjectsAll_append, List.mem_append] at hn
    rcases hn with hn | hn
    · have h := subjectsAll_stepActs step hn
      grind [visitedAll, valuesAll]
    · have h := subjectsAll_stepsActs rest hn
      grind [visitedAll, valuesAll]

end

/-- A visit to a module judges and binds expressions of the module. -/
theorem subjectsAll_moduleActs {m : Module} {n : Expr} (hn : n ∈ subjectsAll (moduleActs m)) :
    n ∈ m.nodes := by
  rcases subjectsAll_stepsActs _ hn with ⟨e, he, hn⟩ | hn
  · exact Module.mem_nodes_of_visited he hn
  · exact Module.mem_nodes_of_visited (values_visited m.body hn) n.mem_liveNodes_self

section

variable {σ ρ : Type} {I : σ → Prop} {S : Expr → Prop} {v : Visitor (StateM σ) ρ}
  {w : Visitor Id ρ}

mutual

private theorem run_yields (hbind : ∀ t name e, S e → Yields I (v.bind t name e) (w.bind t name e))
    (hjudge : ∀ c t r, S c → Yields I (v.judge c t r) (w.judge c t r)) (act : Act)
    (hact : ∀ e ∈ act.subjects, S e) (s : Visit ρ) : Yields I (act.run v s) (act.run w s) := by
  cases act with
  | judge call => exact (hjudge call _ _ (hact call (by simp [Act.subjects]))).bind (.pure _)
  | assign name value =>
    exact (hbind _ name value (hact value (by simp [Act.subjects]))).bind (.pure _)
  | forget names => exact .pure _
  | function params body | cls body | comprehension names body =>
    exact (runAll_yields hbind hjudge body hact _).bind (.pure _)

/-- Visitors that agree on the expressions of a family agree on acts about them. -/
theorem runAll_yields (hbind : ∀ t name e, S e → Yields I (v.bind t name e) (w.bind t name e))
    (hjudge : ∀ c t r, S c → Yields I (v.judge c t r) (w.judge c t r)) (acts : List Act)
    (hacts : ∀ e ∈ subjectsAll acts, S e) (s : Visit ρ) :
    Yields I (runAll v acts s) (runAll w acts s) := by
  cases acts with
  | nil => exact .pure s
  | cons act rest =>
    simp only [subjectsAll, List.mem_append] at hacts
    exact (run_yields hbind hjudge act (fun e he => hacts e (.inl he)) s).bind
      (runAll_yields hbind hjudge rest (fun e he => hacts e (.inr he)) _)

end

end

section

variable {σ : Type} {I : σ → Prop} {S : Expr → Prop} {query : ChainQuery (StateM σ)}
  {answer : ChainQuery Id}

private theorem producerState_yields (hS : Family S)
    (hq : ∀ role e, S e → Yields I (query.carries role e) (answer.carries role e))
    (info : Typing.TypeInfo) (settings : Settings) (t : Tracker) {e : Expr} (he : S e) :
    Yields I (t.producerState query info settings e) (t.producerState answer info settings e) := by
  unfold Tracker.producerState
  split
  · next site site' value method args keywords =>
    split
    · refine (hq .producer value (hS.receiver he rfl)).bind ?_
      split
      · exact .pure _
      · split <;> exact .pure _
    · exact .pure _
  · exact .pure _

private theorem builderState_yields
    (hq : ∀ role e, S e → Yields I (query.carries role e) (answer.carries role e))
    (info : Typing.TypeInfo) (settings : Settings) (t : Tracker) {e : Expr} (he : S e) :
    Yields I (t.builderState query info settings e) (t.builderState answer info settings e) := by
  unfold Tracker.builderState
  dsimp only
  split
  · exact (hq .builder e he).bind (.pure _)
  · split
    · exact (hq .producer e he).bind (.pure _)
    · exact (Yields.pure false).bind (.pure _)

/-- Where the answers agree, bindings record the same. -/
theorem bind_yields (hS : Family S)
    (hq : ∀ role e, S e → Yields I (query.carries role e) (answer.carries role e))
    (info : Typing.TypeInfo) (settings : Settings) (t : Tracker) (name : String) {e : Expr}
    (he : S e) :
    Yields I (t.bind query info settings name e) (t.bind answer info settings name e) := by
  unfold Tracker.bind
  split
  · refine (producerState_yields hS hq info settings t he).bind ?_
    split
    · exact .pure _
    · refine (builderState_yields hq info settings t he).bind ?_
      split <;> exact .pure _
  · exact .pure _

private theorem reports_yields (hS : Family S)
    (hq : ∀ role e, S e → Yields I (query.carries role e) (answer.carries role e))
    (a : Analysis) (t : Tracker) {call : Expr} (hcall : S call) :
    Yields I (a.reports query call t) (a.reports answer call t) := by
  unfold Analysis.reports
  split
  · split
    · exact (hq .builder _ (hS.receiver hcall rfl)).bind (.pure _)
    · exact .pure _
  · exact .pure _

end

/-- The expressions of a numbered module form a family. -/
theorem family_nodes {m : Module} (h : m.Numbered) : Family (· ∈ m.nodes) where
  receiver {e value} he hv := by
    refine Module.mem_nodes_of_mem ?_ he
    unfold Expr.receiver? at hv
    split at hv
    · obtain rfl := Option.some.inj hv
      simp [Expr.nodes, Expr.mem_nodes_self]
    · cases hv
  inj he he' hid := h.inj he he' hid

/-- Kept answers on the chains of a family are those worked out anew. -/
theorem remembering_yields {S : Expr → Prop} (hS : Family S) (q : Inquiry) (role : Role) {e : Expr}
    (he : S e) :
    Yields (Inquiry.Memory.Sound q S) (q.remembering.carries role e) (q.direct.carries role e) :=
  fun _ hm => Inquiry.consultCarries_sound hS role he hm

namespace Analysis

variable (a : Analysis)

/-- What is known of the names once one of them is bound to a value. -/
def tracked (t : Tracker) (name : String) (e : Expr) : Tracker :=
  Id.run (t.bind a.inquiry.direct a.info a.settings name e)

/-- The call is reported with what is known of the names. -/
def flagged (call : Expr) (t : Tracker) : Bool := Id.run (a.reports a.inquiry.direct call t)

mutual

/-- What is known of the names behind an act, and the calls that it reports. -/
def follow : Act → Tracker → Tracker × List Expr
  | .judge call, t => (t, if a.flagged call t then [call] else [])
  | .assign name value, t => (a.tracked t name value, [])
  | .forget names, t => (t.resetAll names, [])
  | .function params body, t => (t, (followAll body (t.child.resetAll params)).2)
  | .cls body, t => (t, (followAll body .idle).2)
  | .comprehension names body, t =>
    (names.foldl (·.adopt (followAll body t.clause).1 ·) t, (followAll body t.clause).2)

/-- What is known of the names behind several acts, and the calls that they report in order. -/
def followAll : List Act → Tracker → Tracker × List Expr
  | [], t => (t, [])
  | act :: rest, t =>
    ((followAll rest (follow act t).1).1, (follow act t).2 ++ (followAll rest (follow act t).1).2)

end

@[simp] private theorem followAll_nil (t : Tracker) : a.followAll [] t = (t, []) := rfl

/-- A list of acts in two parts is followed part by part. -/
theorem followAll_append (xs ys : List Act) (t : Tracker) :
    a.followAll (xs ++ ys) t =
      ((a.followAll ys (a.followAll xs t).1).1,
        (a.followAll xs t).2 ++ (a.followAll ys (a.followAll xs t).1).2) := by
  induction xs generalizing t with
  | nil => rfl
  | cons x xs ih => simp [followAll, ih]

mutual

private theorem run_eq_follow (act : Act) (s : Visit (List Expr)) :
    Id.run (act.run (a.reporter a.inquiry.direct) s) =
      ⟨(a.follow act s.tracker).1, (a.follow act s.tracker).2.reverse ++ s.result⟩ := by
  cases act with
  | judge call =>
    rw [follow, flagged]
    cases h : Id.run (a.reports a.inquiry.direct call s.tracker) <;> simp [Act.run, reporter, h]
  | assign name value | forget names => rfl
  | function params body | cls body | comprehension names body =>
    simp [Act.run, follow, runAll_eq_followAll body]

/-- A visit that answers every question anew follows the acts. -/
theorem runAll_eq_followAll (acts : List Act) (s : Visit (List Expr)) :
    Id.run (runAll (a.reporter a.inquiry.direct) acts s) =
      ⟨(a.followAll acts s.tracker).1, (a.followAll acts s.tracker).2.reverse ++ s.result⟩ := by
  cases acts with
  | nil => rfl
  | cons act rest => simp [followAll, run_eq_follow act, runAll_eq_followAll rest]

end

/-- In a numbered module the reported calls are found by following its acts with every question
answered anew. -/
theorem reported_eq_follow {m : Module} (h : m.Numbered) :
    a.reported m = (a.followAll (moduleActs m) .idle).2 := by
  have hS := family_nodes h
  have hq := fun role e => remembering_yields hS a.inquiry role (e := e)
  have hrun := runAll_yields (v := a.reporter a.inquiry.remembering)
    (w := a.reporter a.inquiry.direct)
    (fun t name e he => bind_yields hS hq a.info a.settings t name he)
    (fun c t r hc => (reports_yields hS hq a t hc).bind (.pure _)) (moduleActs m)
    (fun e he => subjectsAll_moduleActs he) { tracker := .idle, result := [] }
  have hrun := (hrun {} Inquiry.Memory.Sound.empty).1
  simp [reported, visitModule_eq_runAll, hrun, runAll_eq_followAll]

end Analysis

end ContextLint.Rule
