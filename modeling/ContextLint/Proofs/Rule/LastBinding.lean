import ContextLint.Proofs.Rule.Consistent
import ContextLint.Proofs.Scope.Bindings
import ContextLint.Proofs.Typing.Unbound

/-!
# The last binding of a name decides

What is known of a name behind the statements of a scope is what its last binding there has left. A
binding without a followed value leaves nothing; the others leave what is worked out when they are
reached. Comprehensions hand back what their assignment expressions bind, at any depth, nested
functions and classes nothing.
-/

namespace ContextLint.Source.Expr

mutual

/-- The assignment expressions that a visit to an expression meets in its own scope, in the order in
which they bind their targets. -/
def walruses : Expr → List (String × Expr)
  | constant .. | name .. => []
  | attr _ value _ | starred _ value => walruses value
  | call _ func args keywords => walruses func ++ walrusesOf args ++ walrusesOf keywords
  | walrus _ target value => walruses value ++ [(target, value)]
  | conditional _ test body orelse => walruses test ++ walruses body ++ walruses orelse
  | lambda _ _ defaults _ => walrusesOf defaults
  | comprehension _ _ elements generators => clauseWalruses generators ++ walrusesOf elements
  | sequence _ _ parts | compound _ _ parts => walrusesOf parts
  | binary _ _ left right | subscript _ left right => walruses left ++ walruses right

/-- The assignment expressions of several expressions. -/
def walrusesOf : List Expr → List (String × Expr)
  | [] => []
  | e :: rest => walruses e ++ walrusesOf rest

/-- The assignment expressions of comprehension clauses, those in targets apart. -/
def clauseWalruses : List Generator → List (String × Expr)
  | [] => []
  | .mk _ iter conditions :: rest => walruses iter ++ walrusesOf conditions ++ clauseWalruses rest

end

/-- A lambda has no assignment expressions in its default values, and a comprehension has none for a
name that it hides. -/
def Orderly (e : Expr) : Prop :=
  assignedNamesOf e.lambdaDefaults = [] ∧ ∀ x ∈ e.assignedNames, x ∉ e.hides

instance (e : Expr) : Decidable e.Orderly :=
  inferInstanceAs (Decidable (_ ∧ _))

private theorem lambdaDefaults_subset (e : Expr) : e.lambdaDefaults ⊆ e.children := by
  cases e with
  | lambda site params defaults body => exact List.subset_append_left _ _
  | _ => exact List.nil_subset _

private theorem walrusesOf_eq_flatMap (es : List Expr) : walrusesOf es = es.flatMap walruses := by
  induction es with
  | nil => rfl
  | cons e rest ih => rw [walrusesOf, ih, List.flatMap_cons]

private theorem clauseWalruses_eq_flatMap (generators : List Generator) :
    clauseWalruses generators = (generators.flatMap liveClauseParts).flatMap walruses := by
  induction generators with
  | nil => rfl
  | cons clause rest ih =>
    obtain ⟨target, iter, conditions⟩ := clause
    simp [clauseWalruses, liveClauseParts, walrusesOf_eq_flatMap, ih]

variable {e : Expr} {p : String × Expr}

/-- A visit meets the assignment expressions of the evaluated parts, or of the default values of a
lambda, and the expression itself. -/
private theorem walruses_cases (h : p ∈ e.walruses) :
    (∃ site, e = walrus site p.1 p.2) ∨ (∃ c ∈ e.lambdaDefaults, p ∈ c.walruses) ∨
      e.isLambda = false ∧ ∃ c ∈ e.evaluatedChildren, p ∈ c.walruses := by
  cases e with
  | constant site value | name site id => simp [walruses] at h
  | walrus site target value =>
    simp only [walruses, List.mem_append, List.mem_singleton] at h
    rcases h with h | rfl
    · exact .inr (.inr ⟨rfl, value, List.mem_singleton_self value, h⟩)
    · exact .inl ⟨site, rfl⟩
  | lambda site params defaults body =>
    rw [walruses, walrusesOf_eq_flatMap] at h
    exact .inr (.inl (List.mem_flatMap.mp h))
  | comprehension site kind elements generators =>
    rw [walruses, walrusesOf_eq_flatMap, clauseWalruses_eq_flatMap, ← List.flatMap_append] at h
    exact .inr (.inr ⟨rfl, List.mem_flatMap.mp h⟩)
  | _ =>
    refine .inr (.inr ⟨rfl, List.mem_flatMap.mp ?_⟩)
    simpa [walruses, walrusesOf_eq_flatMap, evaluatedChildren, liveChildren, children] using h

/-- The targets of the assignment expressions that a visit meets are assigned by the expression. -/
theorem mem_assignedNames_of_walruses (he : ∀ n ∈ e.nodes, n.Orderly) (h : p ∈ e.walruses) :
    p.1 ∈ e.assignedNames := by
  induction e using childInduction with
  | h e ih =>
    have hpart : ∀ c ∈ e.children, p ∈ c.walruses → p.1 ∈ c.assignedNames := fun c hc =>
      ih c hc fun n hn => he n (mem_nodes_of_child hc hn)
    rcases walruses_cases h with ⟨site, rfl⟩ | ⟨c, hc, hp⟩ | ⟨hlambda, c, hc, hp⟩
    · simp [assignedNames]
    · -- A default value would assign the name, which the lambda does not allow.
      have hnone := (he e e.mem_nodes_self).1
      rw [assignedNamesOf_eq_flatMap, List.flatMap_eq_nil_iff] at hnone
      have hassigned := hpart c (lambdaDefaults_subset e hc) hp
      rw [hnone c hc] at hassigned
      cases hassigned
    · exact assignedNames_of_part hc hlambda (hpart c (mem_children_of_evaluated hc) hp)

end ContextLint.Source.Expr

namespace ContextLint.Scope

open Source

/-- The bindings of names that a step makes in its own scope, each with its value if the value is
followed. -/
def Step.writes : Step → List (String × Option Expr)
  | .visit e => e.walruses.map fun p => (p.1, some p.2)
  | .bind name value _ => [(name, value)]
  | .unbind name | .bindElement name _ | .define name => [(name, none)]
  | .onImport stmt => (stmt.names.filterMap importedName).map (·, none)
  | .function .. | .cls .. => []

end ContextLint.Scope

namespace ContextLint.Rule

open Source Scope Fluent Typing Report

mutual

/-- The bindings of names that an act makes in its own scope. A comprehension hands back those of
its assignment expressions. -/
def Act.writes : Act → List (String × Option Expr)
  | .judge _ | .function .. | .cls _ => []
  | .assign name value => [(name, some value)]
  | .forget names => names.map (·, none)
  | .comprehension _ body => (writesAll body).filter (·.2.isSome)

/-- The bindings that acts make. -/
def writesAll : List Act → List (String × Option Expr)
  | [] => []
  | act :: rest => act.writes ++ writesAll rest

end

@[simp] private theorem writesAll_append (xs ys : List Act) :
    writesAll (xs ++ ys) = writesAll xs ++ writesAll ys := by
  induction xs with
  | nil => rfl
  | cons act xs ih => simp [writesAll, ih]

private theorem filter_followed (ps : List (String × Expr)) :
    (ps.map fun p => (p.1, some p.2)).filter (·.2.isSome) = ps.map fun p => (p.1, some p.2) :=
  List.filter_eq_self.mpr (List.forall_mem_map.mpr fun _ _ => rfl)

private theorem filter_forgotten (names : List String) :
    (names.map (·, (none : Option Expr))).filter (·.2.isSome) = [] :=
  List.filter_eq_nil_iff.mpr (List.forall_mem_map.mpr fun _ _ => Bool.false_ne_true)

mutual

/-- A visit to an expression binds the targets of its assignment expressions. -/
theorem writesAll_exprActs (e : Expr) :
    writesAll (exprActs e) = e.walruses.map fun p => (p.1, some p.2) := by
  cases e with
  | constant site value | name site id => rfl
  | _ =>
    simp [exprActs, writesAll, Act.writes, Expr.walruses, writesAll_exprActs, writesAll_exprsActs,
      filter_writesAll_clauseActs, filter_followed]

private theorem writesAll_exprsActs (es : List Expr) :
    writesAll (exprsActs es) = (Expr.walrusesOf es).map fun p => (p.1, some p.2) := by
  cases es with
  | nil => rfl
  | cons e rest =>
    simp [exprsActs, Expr.walrusesOf, writesAll_exprActs e, writesAll_exprsActs rest]

private theorem filter_writesAll_clauseActs (generators : List Generator) :
    (writesAll (clauseActs generators)).filter (·.2.isSome) =
      (Expr.clauseWalruses generators).map fun p => (p.1, some p.2) := by
  cases generators with
  | nil => rfl
  | cons clause rest =>
    obtain ⟨target, iter, conditions⟩ := clause
    simp [clauseActs, Expr.clauseWalruses, writesAll, Act.writes, writesAll_exprActs iter,
      writesAll_exprsActs conditions, filter_writesAll_clauseActs rest, filter_followed,
      filter_forgotten]

end

/-- The acts of a script make the bindings of its steps. -/
theorem writesAll_stepsActs (steps : List Step) :
    writesAll (stepsActs steps) = steps.flatMap Step.writes := by
  induction steps with
  | nil => rfl
  | cons step rest ih =>
    have hstep : writesAll (stepActs step) = step.writes := by
      cases step with
      | visit e => exact writesAll_exprActs e
      | bind name value hint => cases value <;> rfl
      | onImport stmt => simp [stepActs, writesAll, Act.writes, Step.writes]
      | _ => rfl
    rw [stepsActs, writesAll_append, hstep, ih, List.flatMap_cons]

mutual

/-- Every comprehension hands back all the names that it assigns, and forgets none of them. -/
def Act.HandsBack : Act → Prop
  | .comprehension names body =>
    (∀ x ∈ names, (x, none) ∉ writesAll body) ∧
      (∀ x e, (x, some e) ∈ writesAll body → x ∈ names) ∧ HandsBackAll body
  | .judge _ | .assign .. | .forget _ | .function .. | .cls _ => True

/-- So do all comprehensions of a list of acts. -/
def HandsBackAll : List Act → Prop
  | [] => True
  | act :: rest => act.HandsBack ∧ HandsBackAll rest

end

@[simp] private theorem handsBackAll_append {xs ys : List Act} :
    HandsBackAll (xs ++ ys) ↔ HandsBackAll xs ∧ HandsBackAll ys := by
  induction xs with
  | nil => simp [HandsBackAll]
  | cons act xs ih => simp [HandsBackAll, ih, and_assoc]

private theorem handsBackAll_exprsActs {es : List Expr} :
    HandsBackAll (exprsActs es) ↔ ∀ e ∈ es, HandsBackAll (exprActs e) := by
  induction es with
  | nil => simp [exprsActs, HandsBackAll]
  | cons e rest ih => simp [exprsActs, ih]

variable {generators : List Generator}

private theorem handsBackAll_clauseActs :
    HandsBackAll (clauseActs generators) ↔
      ∀ e ∈ generators.flatMap Expr.liveClauseParts, HandsBackAll (exprActs e) := by
  induction generators with
  | nil => simp [clauseActs, HandsBackAll]
  | cons clause rest ih =>
    obtain ⟨target, iter, conditions⟩ := clause
    rw [List.flatMap_cons, List.forall_mem_append, ← ih]
    simp [clauseActs, HandsBackAll, Act.HandsBack, Expr.liveClauseParts, handsBackAll_exprsActs,
      and_assoc]

/-- The clauses of a comprehension forget the names of their targets. -/
private theorem forgotten_clauseActs {x : String}
    (h : (x, none) ∈ writesAll (clauseActs generators)) :
    x ∈ generators.flatMap fun | .mk target _ _ => target.targetNames := by
  induction generators with
  | nil => cases h
  | cons clause rest ih =>
    obtain ⟨target, iter, conditions⟩ := clause
    simp only [clauseActs, writesAll_append, writesAll, Act.writes, writesAll_exprActs,
      writesAll_exprsActs, List.mem_append, List.mem_map, Prod.mk.injEq, reduceCtorEq, and_false,
      exists_false, false_or, and_true, exists_eq_right] at h
    rw [List.flatMap_cons, List.mem_append]
    exact h.imp id ih

/-- In an orderly expression comprehensions hand back what they assign. -/
theorem handsBackAll_exprActs {e : Expr} (he : ∀ n ∈ e.nodes, n.Orderly) :
    HandsBackAll (exprActs e) := by
  induction e using Expr.childInduction with
  | h e ih =>
    have hpart : ∀ c ∈ e.children, HandsBackAll (exprActs c) := fun c hc =>
      ih c hc fun n hn => he n (Expr.mem_nodes_of_child hc hn)
    cases e with
    | comprehension site kind elements generators =>
      have hself := he _ (Expr.mem_nodes_self _)
      have hwrites := writesAll_exprActs (.comprehension site kind elements generators)
      have hbody := fun c hc => hpart c (Expr.liveChildren_subset _ hc)
      simp only [exprActs, writesAll, Act.writes, List.append_nil] at hwrites
      refine ⟨⟨?_, ?_, ?_⟩, trivial⟩
      · intro x hx hforgotten
        rw [Expr.walrusNames, List.mem_reverse] at hx
        refine hself.2 x hx (forgotten_clauseActs ?_)
        simpa [writesAll_exprsActs] using hforgotten
      · intro x v hv
        have hmem : (x, some v) ∈ (Expr.comprehension site kind elements generators).walruses.map
            fun p => (p.1, some p.2) := by
          rw [← hwrites]
          exact List.mem_filter.mpr ⟨hv, rfl⟩
        obtain ⟨p, hp, hpair⟩ := List.mem_map.mp hmem
        have hx : p.1 = x := congrArg Prod.fst hpair
        rw [Expr.walrusNames, List.mem_reverse, ← hx]
        exact Expr.mem_assignedNames_of_walruses he hp
      · rw [handsBackAll_append, handsBackAll_clauseActs, handsBackAll_exprsActs]
        exact List.forall_mem_append.mp hbody
    | constant site value | name site id => trivial
    | lambda site params defaults body =>
      rw [exprActs, handsBackAll_append, handsBackAll_exprsActs]
      exact ⟨fun d hd => hpart d (List.mem_append_left _ hd), trivial, trivial⟩
    | _ =>
      simpa [exprActs, HandsBackAll, Act.HandsBack, handsBackAll_exprsActs, Expr.children,
        or_imp, forall_and, and_assoc] using hpart

/-- So do those in the acts of a script of orderly expressions. -/
theorem handsBackAll_stepsActs {steps : List Step}
    (h : ∀ e ∈ steps.flatMap Step.here, ∀ n ∈ e.nodes, n.Orderly) :
    HandsBackAll (stepsActs steps) := by
  induction steps with
  | nil => trivial
  | cons step rest ih =>
    rw [List.flatMap_cons, List.forall_mem_append] at h
    rw [stepsActs, handsBackAll_append]
    refine ⟨?_, ih h.2⟩
    cases step with
    | visit e => exact handsBackAll_exprActs (h.1 e (List.mem_singleton_self e))
    | bind name value hint => cases value <;> exact ⟨trivial, trivial⟩
    | _ => exact ⟨trivial, trivial⟩

variable {t : Tracker}

namespace Tracker

private theorem known_resetAll (t : Tracker) (names : List String) (x : String) :
    (t.resetAll names).known x = if x ∈ names then (none, none) else t.known x := by
  unfold known
  rw [get?_resetAll_producers, get?_resetAll_builders]
  split <;> rfl

private theorem known_adopt (h : t.records = true) (inner : Tracker) (name x : String) :
    (t.adopt inner name).known x = if x = name then settle (inner.known name) else t.known x := by
  rw [adopt_eq, known_record, if_pos h]

/-- What is known of the names that are taken over comes from the inner tracker. -/
theorem known_foldl_adopt (h : t.records = true) (inner : Tracker) (names : List String)
    (x : String) :
    (names.foldl (·.adopt inner ·) t).known x =
      if x ∈ names then settle (inner.known x) else t.known x := by
  induction names generalizing t with
  | nil => rfl
  | cons name rest ih =>
    rw [List.foldl_cons, ih ((adopt_records t inner name).trans h), known_adopt h]
    by_cases hx : x = name
    · subst hx
      simp
    · simp [hx]

private theorem clause_of_records (h : t.records = true) : t.clause = t := by
  obtain ⟨records, producers, builders⟩ := t
  cases h
  rfl

private theorem settle_known (h : t.Exclusive) (x : String) : settle (t.known x) = t.known x := by
  unfold known
  rcases h x with hb | hp
  · rw [hb]
    cases t.producers.get? x <;> rfl
  · rw [hp]
    rfl

end Tracker

/-- A binding met by a visit, with what is known before it. -/
structure Note (σ : Type) where
  /-- The bound name. -/
  name : String
  /-- The value, if it is followed. -/
  value : Option Expr
  /-- What is known before the binding. -/
  tracker : Tracker
  /-- The answers kept so far. -/
  memory : σ

section

variable {ρ σ : Type} (v : Visitor (StateM σ) ρ)

mutual

/-- Note the bindings that an act makes in its own scope. -/
def Act.notes : Act → Visit ρ → σ → List (Note σ)
  | .judge _, _, _ | .function .., _, _ | .cls _, _, _ => []
  | .assign name value, s, st => [⟨name, some value, s.tracker, st⟩]
  | .forget names, s, st => names.map (⟨·, none, s.tracker, st⟩)
  | .comprehension _ body, s, st =>
    (notesAll body ⟨s.tracker.clause, s.result⟩ st).filter (·.value.isSome)

/-- Note the bindings that acts make, each where running the acts before it leads. -/
def notesAll : List Act → Visit ρ → σ → List (Note σ)
  | [], _, _ => []
  | act :: rest, s, st =>
    act.notes s st ++
      notesAll rest (Id.run ((act.run v s).run st)).1 (Id.run ((act.run v s).run st)).2

end

/-- The binding that is noted. -/
def Note.write (w : Note σ) : String × Option Expr := (w.name, w.value)

mutual

private theorem map_write_notes (act : Act) (s : Visit ρ) (st : σ) :
    (act.notes v s st).map Note.write = act.writes := by
  cases act with
  | judge call | assign name value => rfl
  | forget names => simp [Act.notes, Act.writes, Note.write]
  | function params body | cls body => rfl
  | comprehension names body =>
    rw [Act.notes, Act.writes, ← map_write_notesAll body, List.filter_map]
    rfl

/-- The bindings that are noted are those that the acts make. -/
theorem map_write_notesAll (acts : List Act) (s : Visit ρ) (st : σ) :
    (notesAll v acts s st).map Note.write = writesAll acts := by
  cases acts with
  | nil => rfl
  | cons act rest =>
    rw [notesAll, writesAll, List.map_append, map_write_notes act, map_write_notesAll rest]

end

/-- The tracker that a binding leaves. -/
def Note.outcome (w : Note σ) : Tracker :=
  match w.value with
  | some e => (Id.run ((v.bind w.tracker w.name e).run w.memory)).1
  | none => w.tracker.reset w.name

/-- What is known of a name behind bindings: what the last of them has left. -/
def knownAfter (t : Tracker) (notes : List (Note σ)) (x : String) : Tracker.Knowledge :=
  match lastNamed? Note.name x notes with
  | some w => (w.outcome v).known x
  | none => t.known x

/-- Forgetting names notes that nothing is known of them. -/
theorem lastNamed?_forgotten (x : String) (names : List String) (t : Tracker) (st : σ) :
    lastNamed? Note.name x (names.map (⟨·, none, t, st⟩)) =
      if x ∈ names then some ⟨x, none, t, st⟩ else none := by
  induction names with
  | nil => rfl
  | cons name rest ih =>
    rw [List.map_cons, ← List.singleton_append, lastNamed?_append, ih, lastNamed?_singleton]
    by_cases hx : name = x
    · subst hx
      by_cases hrest : name ∈ rest <;> simp [hrest]
    · simp [hx, Ne.symm hx]

end

namespace Analysis

variable (a : Analysis) {σ : Type} (query : ChainQuery (StateM σ))

/-- Running an act does not change whether names are followed. -/
theorem run_records (act : Act) (s : Visit (List Diagnostic)) (st : σ) :
    (Id.run ((act.run (a.visitor query) s).run st)).1.tracker.records = s.tracker.records := by
  cases act with
  | judge call => rfl
  | assign name value =>
    exact (s.tracker.bind_rebound query a.info a.settings name value st).records
  | forget names => exact s.tracker.resetAll_records names
  | function params body | cls body => rfl
  | comprehension names body => exact Tracker.foldl_adopt_records names s.tracker _

/-- Running acts keeps a tracker consistent. -/
theorem runAll_consistent (acts : List Act) {s : Visit (List Diagnostic)} (h : s.tracker.Consistent)
    (st : σ) : (Id.run ((runAll (a.visitor query) acts s).run st)).1.tracker.Consistent := by
  have hreaches := Moment.reaches_runAll (v := a.visitor query) acts s st [] [] []
  exact hreaches.consistent (List.forall_mem_singleton.mpr h) _ List.mem_cons_self

mutual

private theorem run_known (act : Act) (hact : act.HandsBack) {s : Visit (List Diagnostic)}
    (hrec : s.tracker.records = true) (hs : s.tracker.Consistent) (st : σ) (x : String) :
    (Id.run ((act.run (a.visitor query) s).run st)).1.tracker.known x =
      knownAfter (a.visitor query) s.tracker (act.notes (a.visitor query) s st) x := by
  cases act with
  | judge call => rfl
  | assign name value =>
    rw [Act.notes, knownAfter, lastNamed?_singleton]
    by_cases hx : name = x
    · rw [if_pos hx]
      rfl
    · rw [if_neg hx]
      exact (s.tracker.bind_rebound query a.info a.settings name value st).known_of_ne (Ne.symm hx)
  | forget names =>
    rw [Act.notes, knownAfter, lastNamed?_forgotten]
    refine (s.tracker.known_resetAll names x).trans ?_
    by_cases hx : x ∈ names
    · simp [hx, Note.outcome, Tracker.known]
    · simp [hx]
  | function params body | cls body => rfl
  | comprehension names body =>
    have hclause := Tracker.clause_of_records hrec
    have hinner := a.runAll_consistent query body (s := ⟨s.tracker.clause, s.result⟩) hs.clause st
    have hbody := runAll_known body hact.2.2 (s := ⟨s.tracker.clause, s.result⟩)
      (hclause ▸ hrec) hs.clause st x
    have hwrites := map_write_notesAll (a.visitor query) body ⟨s.tracker.clause, s.result⟩ st
    refine (Tracker.known_foldl_adopt hrec (Id.run ((runAll (a.visitor query) body
      ⟨s.tracker.clause, s.result⟩).run st)).1.tracker names x).trans ?_
    rw [Act.notes]
    by_cases hx : x ∈ names
    · -- The comprehension forgets no name that it hands back, so all its bindings of it count.
      have hvalue : ∀ w ∈ notesAll (a.visitor query) body ⟨s.tracker.clause, s.result⟩ st,
          w.name = x → w.value.isSome = true := by
        intro w hw hname
        by_contra hnone
        refine hact.1 x hx ?_
        rw [← hwrites]
        refine List.mem_map.mpr ⟨w, hw, ?_⟩
        rw [Note.write, hname, Option.not_isSome_iff_eq_none.mp hnone]
      rw [if_pos hx, Tracker.settle_known hinner.exclusive, hbody, knownAfter, knownAfter,
        lastNamed?_filter hvalue]
      simp only [hclause]
    · have hnone : lastNamed? Note.name x ((notesAll (a.visitor query) body
          ⟨s.tracker.clause, s.result⟩ st).filter (·.value.isSome)) = none := by
        rw [lastNamed?_eq_none]
        rintro w hw rfl
        obtain ⟨hw, hsome⟩ := List.mem_filter.mp hw
        obtain ⟨e, he⟩ := Option.isSome_iff_exists.mp hsome
        refine hx (hact.2.1 w.name e ?_)
        rw [← hwrites]
        exact List.mem_map.mpr ⟨w, hw, by rw [Note.write, he]⟩
      rw [if_neg hx, knownAfter, hnone]

/-- Behind acts what is known of a name is what its last binding has left. -/
theorem runAll_known (acts : List Act) (hacts : HandsBackAll acts) {s : Visit (List Diagnostic)}
    (hrec : s.tracker.records = true) (hs : s.tracker.Consistent) (st : σ) (x : String) :
    (Id.run ((runAll (a.visitor query) acts s).run st)).1.tracker.known x =
      knownAfter (a.visitor query) s.tracker (notesAll (a.visitor query) acts s st) x := by
  cases acts with
  | nil => rfl
  | cons act rest =>
    have hhead := run_known act hacts.1 hrec hs st x
    have hrec' := (a.run_records query act s st).trans hrec
    have hs' := a.runAll_consistent query [act] hs st
    have hrest := runAll_known rest hacts.2 hrec' hs'
      (Id.run ((act.run (a.visitor query) s).run st)).2 x
    refine hrest.trans ?_
    rw [notesAll, knownAfter, knownAfter, lastNamed?_append]
    cases lastNamed? Note.name x (notesAll (a.visitor query) rest _ _) with
    | some w => rfl
    | none => exact hhead

end

end Analysis

namespace Moment

variable {ρ σ : Type} {v : Visitor (StateM σ) ρ}

/-- The visit is about to make the noted binding. -/
def IsAt (now : Moment σ ρ) (w : Note σ) : Prop :=
  ∃ e r tasks handed outer, w.value = some e ∧
    now = ofVisit (⟨w.tracker, r⟩, w.memory) (.act (.assign w.name e) :: tasks) handed outer

mutual

private theorem exists_isAt_run (act : Act) (s : Visit ρ) (st : σ) (tasks : List Task)
    (handed : List String) (outer : List OpenScope) {w : Note σ} (hw : w ∈ act.notes v s st)
    (hvalue : w.value.isSome = true) :
    ∃ now, Reaches v (ofVisit (s, st) (.act act :: tasks) handed outer) now ∧ now.IsAt w := by
  cases act with
  | judge call | function params body | cls body => cases hw
  | assign name value =>
    obtain rfl := List.mem_singleton.mp hw
    exact ⟨_, .refl, value, s.result, tasks, handed, outer, rfl, rfl⟩
  | forget names =>
    obtain ⟨name, -, rfl⟩ := List.mem_map.mp hw
    cases hvalue
  | comprehension names body =>
    obtain ⟨now, hreaches, hnow⟩ := exists_isAt_runAll body ⟨s.tracker.clause, s.result⟩ st []
      names (⟨s.tracker, tasks, handed⟩ :: outer) (List.mem_filter.mp hw).1 hvalue
    rw [List.append_nil] at hreaches
    exact ⟨now, .head .comprehension hreaches, hnow⟩

/-- A visit comes to the moment of every binding of a value that is noted. -/
theorem exists_isAt_runAll (acts : List Act) (s : Visit ρ) (st : σ) (tasks : List Task)
    (handed : List String) (outer : List OpenScope) {w : Note σ} (hw : w ∈ notesAll v acts s st)
    (hvalue : w.value.isSome = true) :
    ∃ now, Reaches v (ofVisit (s, st) (acts.map .act ++ tasks) handed outer) now ∧ now.IsAt w := by
  cases acts with
  | nil => cases hw
  | cons act rest =>
    rcases List.mem_append.mp hw with hw | hw
    · exact exists_isAt_run act s st (rest.map .act ++ tasks) handed outer hw hvalue
    · obtain ⟨now, hreaches, hnow⟩ := exists_isAt_runAll rest _ _ tasks handed outer hw hvalue
      exact ⟨now, (reaches_runAll [act] s st (rest.map .act ++ tasks) handed outer).trans hreaches,
        hnow⟩

end

end Moment

/-- The bindings of a scope are noted in the order of the walk, those of values where the walk
reaches them. Behind the walk the state of a name is the one in front if the scope does not bind it;
it is unknown if the last binding has no followed value; and else it is what recording that binding,
where it is reached, gives. -/
theorem last_binding_decides (a : Analysis) {σ : Type} (query : ChainQuery (StateM σ))
    {body : List Stmt}
    (hbody : ∀ e ∈ (bodySteps body).flatMap Step.here, ∀ n ∈ e.nodes, n.Orderly) {t : Tracker}
    (hrec : t.records = true) (ht : t.Consistent) (found : List Diagnostic) (st : σ) :
    let notes := notesAll (a.visitor query) (stepsActs (bodySteps body)) ⟨t, found⟩ st
    let after := (Id.run ((walkBody (a.visitor query).hooks body ⟨t, found⟩).run st)).1.tracker
    notes.map Note.write = (bodySteps body).flatMap Step.writes ∧
      (∀ w ∈ notes, w.value.isSome = true → ∃ now, now.IsAt w ∧
        Moment.Reaches (a.visitor query)
          (.ofVisit (⟨t, found⟩, st) ((stepsActs (bodySteps body)).map .act) [] []) now) ∧
      ∀ x, match lastNamed? Prod.fst x ((bodySteps body).flatMap Step.writes) with
        | none => after.state x = t.state x
        | some (_, none) => after.state x = .unknown
        | some (_, some e) => ∃ w, lastNamed? Note.name x notes = some w ∧ w.value = some e ∧
            after.state x =
              (Id.run ((w.tracker.bind query a.info a.settings x e).run w.memory)).1.state x := by
  intro notes after
  have hwrites : notes.map Note.write = (bodySteps body).flatMap Step.writes := by
    rw [map_write_notesAll, writesAll_stepsActs]
  refine ⟨hwrites, ?_, ?_⟩
  · intro w hw hvalue
    obtain ⟨now, hreaches, hnow⟩ := Moment.exists_isAt_runAll _ _ _ [] [] [] hw hvalue
    rw [List.append_nil] at hreaches
    exact ⟨now, hnow, hreaches⟩
  · intro x
    have hknown : after.known x = knownAfter (a.visitor query) t notes x := by
      have hrun := a.runAll_known query _ (handsBackAll_stepsActs hbody) (s := ⟨t, found⟩) hrec ht
        st x
      rw [← performAll_eq_runAll, ← walkBody_eq] at hrun
      exact hrun
    have hwrite : lastNamed? Prod.fst x (notes.map Note.write) =
        (lastNamed? Note.name x notes).map Note.write := lastNamed?_map Note.write x notes
    rw [← hwrites, hwrite, after.state_eq, hknown, knownAfter]
    cases hlast : lastNamed? Note.name x notes with
    | none => exact (t.state_eq x).symm
    | some w =>
      obtain ⟨name, value, before, memory⟩ := w
      obtain rfl : name = x := name_of_lastNamed? hlast
      cases value with
      | none => simp [Note.write, Note.outcome, Tracker.known, Tracker.Knowledge.state]
      | some e => exact ⟨_, rfl, rfl, rfl⟩

namespace RecordedEvent

/-- An event is assigned inside a comprehension, then a name is deleted. -/
def rebinding : List Stmt :=
  [.value (some (.comprehension (.ofId 3) .list [.walrus (.ofId 4) "ev" event]
      [.mk (.name (.ofId 5) "c") (.name (.ofId 6) "cs") []])),
    .delete [.name (.ofId 7) "old"]]

/-- Two events that carry a context. -/
def known : Tracker := (Tracker.setBuilder {} "old" .carries).setBuilder "kept" .carries

private theorem writes_rebinding :
    (bodySteps rebinding).flatMap Step.writes = [("ev", some event), ("old", none)] :=
  rfl

private theorem lastNamed?_notes :
    lastNamed? Note.name "ev" (notesAll (analysis.visitor query) (stepsActs (bodySteps rebinding))
      ⟨known, []⟩ ()) = some ⟨"ev", some event, known, ()⟩ :=
  rfl

/-- The deleted name becomes unknown, another one stays as it is, and the event is recorded where it
is assigned, where the two others are known. -/
theorem rebinding_decides :
    known.records = true ∧ known.Consistent ∧ known.state "old" = .carries ∧
      let after := (Id.run ((walkBody (analysis.visitor query).hooks rebinding ⟨known, []⟩).run
        ())).1.tracker
      after.state "old" = .unknown ∧ after.state "kept" = .carries ∧
        after.state "ev" =
          (Id.run ((known.bind query analysis.info analysis.settings "ev" event).run
            ())).1.state "ev" := by
  have hrecorded : ∀ {t : Tracker}, t.records = true → t.Consistent → ∀ x,
      (t.setBuilder x .carries).Consistent := fun hrec ht x =>
    ht.rebound (.recorded (none, some .carries) (.inl hrec))
  have hconsistent : known.Consistent := hrecorded rfl (hrecorded rfl (.empty true) "old") "kept"
  have horderly : ∀ e ∈ (bodySteps rebinding).flatMap Step.here, ∀ n ∈ e.nodes, n.Orderly := by
    decide
  obtain ⟨-, -, hlast⟩ :=
    last_binding_decides analysis query horderly (t := known) rfl hconsistent [] ()
  rw [writes_rebinding] at hlast
  obtain ⟨w, hnote, -, hstate⟩ := hlast "ev"
  obtain rfl := Option.some.inj (lastNamed?_notes.symm.trans hnote)
  exact ⟨rfl, hconsistent, rfl, hlast "old", hlast "kept", hstate⟩

end RecordedEvent

end ContextLint.Rule
