import ContextLint.Proofs.Source.Receivers
import ContextLint.Proofs.Typing.Frame
import Mathlib.Tactic.Simps.Basic

/-!
# Typing without a table

Typing an expression writes into the type table and never reads it. So what it finds is a function
of the environment alone: a type, the environment behind the expression, and the result for every
expression evaluated on the way. Typing with the table only records the results.

The evaluated expressions are listed in the order in which they are done, a part before the whole.
Those in the body of a lambda are marked: a walk that stays at the top level leaves them out.
-/

namespace ContextLint.Source.Expr

mutual

/-- The expressions evaluated with an expression in the order in which they are done, those inside
the body of a lambda marked. -/
def schedule : Expr → List (Expr × Bool)
  | constant s v => [(constant s v, false)]
  | name s id => [(name s id, false)]
  | attr s v n => schedule v ++ [(attr s v n, false)]
  | call s func args keywords =>
    schedule func ++ scheduleOf args ++ scheduleOf keywords ++ [(call s func args keywords, false)]
  | walrus s target value => schedule value ++ [(walrus s target value, false)]
  | conditional s test body orelse =>
    schedule test ++ schedule body ++ schedule orelse ++ [(conditional s test body orelse, false)]
  | lambda s params defaults body =>
    (schedule body).map (·.1, true) ++ [(lambda s params defaults body, false)]
  | comprehension s kind elements generators =>
    clauseSchedule generators ++ scheduleOf elements ++
      [(comprehension s kind elements generators, false)]
  | sequence s kind elements => scheduleOf elements ++ [(sequence s kind elements, false)]
  | starred s value => schedule value ++ [(starred s value, false)]
  | binary s op left right => schedule left ++ schedule right ++ [(binary s op left right, false)]
  | subscript s value slice =>
    schedule value ++ schedule slice ++ [(subscript s value slice, false)]
  | compound s kind parts => scheduleOf parts ++ [(compound s kind parts, false)]

/-- The expressions evaluated with several expressions. -/
def scheduleOf : List Expr → List (Expr × Bool)
  | [] => []
  | e :: rest => schedule e ++ scheduleOf rest

/-- The expressions evaluated with comprehension clauses. -/
def clauseSchedule : List Generator → List (Expr × Bool)
  | [] => []
  | .mk _ iter conditions :: rest => schedule iter ++ scheduleOf conditions ++ clauseSchedule rest

end

theorem scheduleOf_eq_flatMap (es : List Expr) : scheduleOf es = es.flatMap schedule := by
  induction es with
  | nil => rfl
  | cons e rest ih => rw [scheduleOf, ih, List.flatMap_cons]

private theorem clauseSchedule_eq (generators : List Generator) :
    clauseSchedule generators = (generators.flatMap liveClauseParts).flatMap schedule := by
  induction generators with
  | nil => rfl
  | cons clause rest ih =>
    obtain ⟨target, iter, conditions⟩ := clause
    simp [clauseSchedule, liveClauseParts, scheduleOf_eq_flatMap, ih]

/-- The expression is a lambda. -/
def isLambda : Expr → Bool
  | lambda .. => true
  | _ => false

/-- The expression is a conditional expression. -/
def isConditional : Expr → Bool
  | conditional .. => true
  | _ => false

/-- The expression opens a scope of its own. -/
def opensScope : Expr → Bool
  | lambda .. | comprehension .. => true
  | _ => false

variable {e : Expr}

/-- A schedule starts with those of the evaluated parts. Only a lambda marks them. -/
theorem schedule_eq (he : e.isLambda = false) :
    schedule e = e.evaluatedChildren.flatMap schedule ++ [(e, false)] := by
  cases e with
  | lambda s params defaults body => cases he
  | comprehension s kind elements generators =>
    simp [schedule, evaluatedChildren, liveChildren, scheduleOf_eq_flatMap, clauseSchedule_eq]
  | _ => simp [schedule, evaluatedChildren, liveChildren, children, scheduleOf_eq_flatMap]

/-- An expression is scheduled, unmarked. -/
theorem mem_schedule_self (e : Expr) : (e, false) ∈ schedule e := by
  cases e <;> simp [schedule]

/-- What is scheduled in an evaluated part is scheduled in the whole. -/
theorem mem_schedule_of_part {c : Expr} (hc : c ∈ e.evaluatedChildren) (he : e.isLambda = false)
    {x : Expr × Bool} (hx : x ∈ schedule c) : x ∈ schedule e := by
  rw [schedule_eq he]
  exact List.mem_append_left _ (List.mem_flatMap.mpr ⟨c, hc, hx⟩)

/-- The schedule of an expression lists its evaluated expressions. -/
theorem schedule_perm (e : Expr) : ((schedule e).map Prod.fst).Perm (evaluatedNodes e) := by
  induction e using evaluatedInduction with
  | h e ih =>
    have hparts : ((e.evaluatedChildren.flatMap schedule).map Prod.fst).Perm
        (e.evaluatedChildren.flatMap evaluatedNodes) := by
      rw [List.map_flatMap]
      exact List.Perm.flatMap_left _ ih
    have hlist : (schedule e).map Prod.fst =
        (e.evaluatedChildren.flatMap schedule).map Prod.fst ++ [e] := by
      cases hl : e.isLambda with
      | false => rw [schedule_eq hl, List.map_append, List.map_singleton]
      | true =>
        cases e with
        | lambda s params defaults body =>
          simp [schedule, evaluatedChildren, Function.comp_def]
        | _ => cases hl
    rw [hlist, evaluatedNodes_eq]
    exact (hparts.append_right [e]).trans (List.perm_append_comm)

/-- The scheduled expressions that a walk evaluates: all of them, or those that are not marked. -/
def reached (descend : Bool) (xs : List (Expr × Bool)) : List Expr :=
  (xs.filter fun x => descend || !x.2).map Prod.fst

@[simp] theorem reached_append (descend : Bool) (xs ys : List (Expr × Bool)) :
    reached descend (xs ++ ys) = reached descend xs ++ reached descend ys := by
  simp [reached]

/-- A walk into functions reaches everything. -/
@[simp] theorem reached_true (xs : List (Expr × Bool)) : reached true xs = xs.map Prod.fst := by
  simp [reached]

@[simp] private theorem reached_unmarked (descend : Bool) (e : Expr) :
    reached descend [(e, false)] = [e] := by
  simp [reached]

/-- Marked expressions are evaluated only by a walk that goes into functions. -/
theorem reached_marked (descend : Bool) (xs : List (Expr × Bool)) :
    reached descend (xs.map (·.1, true)) = if descend then xs.map Prod.fst else [] := by
  cases descend <;> simp [reached, List.filter_map, Function.comp_def]

/-- An expression is always reached. -/
theorem mem_reached_self (e : Expr) : e ∈ reached false (schedule e) :=
  List.mem_map.mpr ⟨(e, false), List.mem_filter.mpr ⟨e.mem_schedule_self, rfl⟩, rfl⟩

end ContextLint.Source.Expr

namespace ContextLint.Typing

open Source

/-- Evaluated expressions with their results. -/
abbrev Results := List (Expr × Option TypeRef)

/-- Record results in a table. -/
def keep (types : TypeTable) (results : Results) : TypeTable :=
  results.foldl (fun types x => (Facts.record ⟨types, []⟩ x.1.id x.2).types) types

@[simp] theorem keep_nil (types : TypeTable) : keep types [] = types := rfl

@[simp] theorem keep_append (types : TypeTable) (xs ys : Results) :
    keep types (xs ++ ys) = keep (keep types xs) ys :=
  List.foldl_append

private theorem record_eq (s : Facts) (e : Expr) (ref : Option TypeRef) :
    s.record e.id ref = ⟨keep s.types [(e, ref)], s.env⟩ := by
  cases ref <;> rfl

/-- The last type among results under a number. -/
def latest : Results → Nat → Option TypeRef
  | [], _ => none
  | x :: rest, id => (latest rest id).or (if x.1.id = id then x.2 else none)

/-- Later results count first. -/
theorem latest_append (xs ys : Results) (id : Nat) :
    latest (xs ++ ys) id = (latest ys id).or (latest xs id) := by
  induction xs with
  | nil => simp [latest]
  | cons x xs ih => simp [latest, ih, Option.or_assoc]

variable {xs : Results} {id : Nat}

theorem latest_eq_none (h : ∀ x ∈ xs, x.1.id ≠ id) : latest xs id = none := by
  induction xs with
  | nil => rfl
  | cons x xs ih =>
    rw [List.forall_mem_cons] at h
    rw [latest, ih h.2, if_neg h.1, Option.or_none]

/-- A last type is the result of some expression. -/
theorem exists_of_latest {ref : TypeRef} (h : latest xs id = some ref) :
    ∃ n, n.id = id ∧ (n, some ref) ∈ xs := by
  induction xs with
  | nil => cases h
  | cons x xs ih =>
    rw [latest, Option.or_eq_some_iff] at h
    rcases h with h | ⟨-, h⟩
    · obtain ⟨n, hid, hn⟩ := ih h
      exact ⟨n, hid, List.mem_cons_of_mem x hn⟩
    · by_cases hid : x.1.id = id
      · rw [if_pos hid] at h
        exact ⟨x.1, hid, by rw [← h]; exact List.mem_cons_self⟩
      · rw [if_neg hid] at h
        cases h

variable {x : Expr × Option TypeRef}

/-- Where every expression has one result, that is the last. -/
theorem latest_of_mem (h : (xs.map (·.1.id)).Nodup) (hx : x ∈ xs) : latest xs x.1.id = x.2 := by
  induction xs with
  | nil => cases hx
  | cons y ys ih =>
    rw [List.map_cons, List.nodup_cons] at h
    rw [latest]
    rcases List.mem_cons.mp hx with rfl | hx
    · have hnone : latest ys x.1.id = none := latest_eq_none fun y hy heq =>
        h.1 (List.mem_map.mpr ⟨y, hy, heq⟩)
      rw [hnone, if_pos rfl, Option.none_or]
    · have hne : y.1.id ≠ x.1.id := fun heq => h.1 (List.mem_map.mpr ⟨x, hx, heq.symm⟩)
      rw [ih h.2 hx, if_neg hne, Option.or_none]

/-- Recorded results hide what the table held before. -/
theorem getElem?_keep (types : TypeTable) (xs : Results) (id : Nat) :
    (keep types xs)[id]? = (latest xs id).or types[id]? := by
  induction xs generalizing types with
  | nil => rfl
  | cons x xs ih =>
    obtain ⟨e, ref⟩ := x
    have hkeep : keep types ((e, ref) :: xs) = keep (keep types [(e, ref)]) xs := rfl
    have hone : (keep types [(e, ref)])[id]? = (if e.id = id then ref else none).or types[id]? := by
      cases ref with
      | none => simp [keep, Facts.record]
      | some ref =>
        by_cases hid : e.id = id <;>
        simp [keep, Facts.record, Std.TreeMap.getElem?_insert, hid]
    rw [hkeep, ih, hone, latest, Option.or_assoc]

/-- A number without a result keeps its type. -/
theorem getElem?_keep_of_ne (types : TypeTable) (h : ∀ x ∈ xs, x.1.id ≠ id) :
    (keep types xs)[id]? = types[id]? := by
  rw [getElem?_keep, latest_eq_none h, Option.none_or]

/-- The type of a name in an environment. -/
def Declarations.nameIn (d : Declarations) (env : Env) (name : String) : Option TypeRef :=
  (env.get? name).getD (d.nameType? name)

/-- What is found by typing expressions. -/
structure Finding where
  /-- The type of the expression. -/
  type : Option TypeRef := none
  /-- The environment behind it. -/
  env : Env
  /-- The results for what was evaluated. -/
  results : Results := []

namespace Finding

/-- What is found next, behind what was found before. -/
@[simps] def andThen (x y : Finding) : Finding := { y with results := x.results ++ y.results }

/-- The expression itself is done, behind its parts. -/
@[simps] def close (x : Finding) (e : Expr) (ref : Option TypeRef) : Finding :=
  { x with type := ref, results := x.results ++ [(e, ref)] }

/-- Facts with what was found. -/
def facts (x : Finding) (types : TypeTable) : Facts := ⟨keep types x.results, x.env⟩

end Finding

variable {e : Expr}

namespace Resolver

section

variable (r : Resolver)

mutual

/-- Find the types of an expression and its parts. -/
def find (p : Place) : Expr → Env → Except AnnotationError Finding
  | .constant site value, env =>
    .ok (Finding.close { env } (.constant site value) (some (builtin value.typeName)))
  | .name site id, env => .ok (Finding.close { env } (.name site id) (r.decls.nameIn env id))
  | .attr site value name, env => do
    let x ← find p value env
    return x.close (.attr site value name) (r.decls.attributeType? x.type name)
  | .call site func args keywords, env => do
    let f ← find p func env
    let a ← findAll p args f.env
    let k ← findAll p keywords a.env
    let ref ← r.decls.callType f.type args
    return ((f.andThen a).andThen k).close (.call site func args keywords) ref
  | .walrus site target value, env => do
    let x ← find p value env
    return Finding.close { x with env := x.env.set target x.type } (.walrus site target value) x.type
  | .conditional site test body orelse, env => do
    let t ← find p test env
    let b ← find p body t.env
    let o ← find p orelse b.env
    return ((t.andThen b).andThen o).close (.conditional site test body orelse)
      (if b.type = o.type then b.type else none)
  | .lambda site params defaults body, env =>
    if r.descend then do
      let x ← find ⟨.func, none⟩ body (forget params (r.startEnv p env))
      return Finding.close { x with env } (.lambda site params defaults body) none
    else return Finding.close { env } (.lambda site params defaults body) none
  | .comprehension site kind elements generators, env => do
    let inside : Place := { p with scope := some (p.scope.getD env) }
    let c ← findClauses inside generators env
    let x ← findAll inside elements c.env
    let names := (Expr.comprehension site kind elements generators).walrusNames
    return Finding.close { c.andThen x with env := adopt names x.env env }
      (.comprehension site kind elements generators) none
  | .sequence site kind elements, env => do
    let x ← findAll p elements env
    return x.close (.sequence site kind elements) none
  | .starred site value, env => do
    let x ← find p value env
    return x.close (.starred site value) none
  | .binary site op left right, env => do
    let x ← find p left env
    let y ← find p right x.env
    return (x.andThen y).close (.binary site op left right) none
  | .subscript site value slice, env => do
    let x ← find p value env
    let y ← find p slice x.env
    return (x.andThen y).close (.subscript site value slice) none
  | .compound site kind parts, env => do
    let x ← findAll p parts env
    return x.close (.compound site kind parts) none

/-- Find the types of expressions in order. -/
def findAll (p : Place) : List Expr → Env → Except AnnotationError Finding
  | [], env => .ok { env }
  | e :: rest, env => do
    let x ← find p e env
    let y ← findAll p rest x.env
    return x.andThen y

/-- Find the types in the clauses of a comprehension; each hides the names of its target. -/
def findClauses (p : Place) : List Generator → Env → Except AnnotationError Finding
  | [], env => .ok { env }
  | .mk target iter conditions :: rest, env => do
    let x ← find p iter env
    let c ← findAll p conditions (forget target.targetNames x.env)
    let y ← findClauses p rest c.env
    return (x.andThen c).andThen y

end

end

variable {r : Resolver}

private theorem done_eq (s : Facts) (e : Expr) (ref : Option TypeRef) :
    done s e.site ref = (ref, ⟨keep s.types [(e, ref)], s.env⟩) :=
  congrArg (ref, ·) (record_eq s e ref)

mutual

/-- Typing an expression is finding its types and recording the results. -/
theorem eval_eq_find (p : Place) (e : Expr) (s : Facts) :
    r.eval p e s = (fun x => (x.type, x.facts s.types)) <$> r.find p e s.env := by
  have hdone s := done_eq s e
  cases e with
  | constant site value => rfl
  | name site id =>
    have hdone := hdone s (r.decls.nameIn s.env id)
    cases h : s.env.get? id <;>
    simpa [eval, find, h, Declarations.nameIn, Finding.facts, Expr.site] using hdone
  | attr site value name | call site func args keywords | walrus site target value
  | conditional site test body orelse =>
    simp only [Expr.site] at hdone
    simp [eval, find, eval_eq_find p, evalAll_eq_findAll p, hdone, Finding.facts, Facts.assign]
  | lambda site params defaults body =>
    cases hr : r.descend <;> simp [eval, find, hr, eval_eq_find, Finding.facts, keep, Facts.record]
  | _ =>
    simp [eval, find, eval_eq_find, evalAll_eq_findAll, evalClauses_eq_findClauses, Finding.facts,
      keep, Facts.record]

private theorem evalAll_eq_findAll (p : Place) (es : List Expr) (s : Facts) :
    r.evalAll p es s = (fun x => x.facts s.types) <$> r.findAll p es s.env := by
  cases es with
  | nil => rfl
  | cons e rest =>
    simp [evalAll, findAll, eval_eq_find p e, evalAll_eq_findAll p rest, Finding.facts]

private theorem evalClauses_eq_findClauses (p : Place) (generators : List Generator) (s : Facts) :
    r.evalClauses p generators s =
      (fun x => x.facts s.types) <$> r.findClauses p generators s.env := by
  cases generators with
  | nil => rfl
  | cons clause rest =>
    obtain ⟨target, iter, conditions⟩ := clause
    simp [evalClauses, findClauses, eval_eq_find p iter, evalAll_eq_findAll p conditions,
      evalClauses_eq_findClauses p rest, Finding.facts]

end

mutual

/-- The results are for the scheduled expressions that the resolver reaches, in order. -/
theorem find_results (p : Place) (e : Expr) (env : Env) :
    Ensures (r.find p e env) fun x => x.results.map Prod.fst = Expr.reached r.descend e.schedule := by
  cases e with
  | constant site value | name site id => exact .ok (by simp [Expr.schedule])
  | attr site value name | walrus site target value | starred site value =>
    refine (find_results p value env).bind fun x hx => .ok ?_
    simp [Expr.schedule, hx]
  | call site func args keywords =>
    refine (find_results p func env).bind fun f hf => ?_
    refine (findAll_results p args f.env).bind fun a ha => ?_
    refine (findAll_results p keywords a.env).bind fun k hk => ?_
    refine (Ensures.trivial _).bind fun ref _ => .ok ?_
    simp [Expr.schedule, hf, ha, hk]
  | conditional site test body orelse =>
    refine (find_results p test env).bind fun t ht => ?_
    refine (find_results p body t.env).bind fun b hb => ?_
    refine (find_results p orelse b.env).bind fun o ho => .ok ?_
    simp [Expr.schedule, ht, hb, ho]
  | lambda site params defaults body =>
    rw [find]
    split
    · next hr =>
      refine (find_results ⟨.func, none⟩ body _).bind fun x hx => .ok ?_
      simp [Expr.schedule, Expr.reached_marked, hx, hr]
    · next hr => exact .ok (by simp [Expr.schedule, Expr.reached_marked, hr])
  | comprehension site kind elements generators =>
    refine (findClauses_results _ generators env).bind fun c hc => ?_
    refine (findAll_results _ elements c.env).bind fun x hx => .ok ?_
    simp [Expr.schedule, hc, hx]
  | sequence site kind elements | compound site kind elements =>
    refine (findAll_results p elements env).bind fun x hx => .ok ?_
    simp [Expr.schedule, hx]
  | binary site op left right | subscript site left right =>
    refine (find_results p left env).bind fun x hx => ?_
    refine (find_results p right x.env).bind fun y hy => .ok ?_
    simp [Expr.schedule, hx, hy]

private theorem findAll_results (p : Place) (es : List Expr) (env : Env) :
    Ensures (r.findAll p es env) fun x =>
      x.results.map Prod.fst = Expr.reached r.descend (Expr.scheduleOf es) := by
  cases es with
  | nil => exact .ok rfl
  | cons e rest =>
    refine (find_results p e env).bind fun x hx => ?_
    refine (findAll_results p rest x.env).bind fun y hy => .ok ?_
    simp [Expr.scheduleOf, hx, hy]

private theorem findClauses_results (p : Place) (generators : List Generator) (env : Env) :
    Ensures (r.findClauses p generators env) fun x =>
      x.results.map Prod.fst = Expr.reached r.descend (Expr.clauseSchedule generators) := by
  cases generators with
  | nil => exact .ok rfl
  | cons clause rest =>
    obtain ⟨target, iter, conditions⟩ := clause
    refine (find_results p iter env).bind fun x hx => ?_
    refine (findAll_results p conditions _).bind fun c hc => ?_
    refine (findClauses_results p rest c.env).bind fun y hy => .ok ?_
    simp [Expr.clauseSchedule, hx, hc, hy]

end

/-- Results are for what is evaluated. -/
theorem id_mem_of_results {descend : Bool} (h : xs.map Prod.fst = Expr.reached descend e.schedule)
    (hx : x ∈ xs) : x.1.id ∈ e.schedule.map (·.1.id) := by
  have hnode : x.1 ∈ Expr.reached descend e.schedule := h ▸ List.mem_map_of_mem hx
  obtain ⟨y, hy, heq⟩ := List.mem_map.mp hnode
  exact List.mem_map.mpr ⟨y, List.mem_of_mem_filter hy, congrArg Expr.id heq⟩

section

variable {p : Place} {e : Expr} {xs ys : List Expr} {env : Env} {x y : Finding}

private theorem findAll_cons (hx : r.find p e env = .ok x) (hy : r.findAll p ys x.env = .ok y) :
    r.findAll p (e :: ys) env = .ok (x.andThen y) := by
  simp only [findAll, hx, hy, bind, Except.bind]
  rfl

private theorem findAll_append (hx : r.findAll p xs env = .ok x)
    (hy : r.findAll p ys x.env = .ok y) : r.findAll p (xs ++ ys) env = .ok (x.andThen y) := by
  induction xs generalizing env x with
  | nil =>
    obtain rfl := Except.ok.inj hx
    exact hy
  | cons e rest ih =>
    obtain ⟨x₁, h₁, hx⟩ := exists_of_bind_ok hx
    obtain ⟨x₂, h₂, hx⟩ := exists_of_bind_ok hx
    obtain rfl := Except.ok.inj hx
    rw [List.cons_append, findAll_cons h₁ (ih h₂ hy)]
    simp [Finding.andThen]

end

/-- An expression that opens no scope types its parts in order. Its own result comes behind theirs,
and only an assignment expression binds anything itself. -/
theorem find_in_order (p : Place) (he : e.opensScope = false) (env : Env) :
    Ensures (r.find p e env) fun x => ∃ y, r.findAll p e.evaluatedChildren env = .ok y ∧
      x.results = y.results ++ [(e, x.type)] ∧
        ((∀ site target value, e ≠ .walrus site target value) → x.env = y.env) := by
  cases e with
  | lambda site params defaults body | comprehension site kind elements generators => cases he
  | constant site value | name site id => exact .ok ⟨{ env }, rfl, rfl, fun _ => rfl⟩
  | attr site value name | starred site value =>
    exact (Ensures.self _).bind fun x hx => .ok ⟨_, findAll_cons hx rfl, by simp, fun _ => rfl⟩
  | walrus site target value =>
    refine (Ensures.self _).bind fun x hx => .ok ⟨_, findAll_cons hx rfl, by simp, fun h => ?_⟩
    exact (h _ _ _ rfl).elim
  | call site func args keywords =>
    refine (Ensures.self _).bind fun f hf => (Ensures.self _).bind fun a ha => ?_
    refine (Ensures.self _).bind fun k hk => (Ensures.trivial _).bind fun ref _ => .ok ?_
    exact ⟨_, findAll_cons hf (findAll_append ha hk), by simp, fun _ => rfl⟩
  | conditional site test body orelse =>
    refine (Ensures.self _).bind fun t ht => (Ensures.self _).bind fun b hb => ?_
    refine (Ensures.self _).bind fun o ho => .ok ?_
    exact ⟨_, findAll_cons ht (findAll_cons hb (findAll_cons ho rfl)), by simp, fun _ => rfl⟩
  | sequence site kind elements | compound site kind elements =>
    exact (Ensures.self _).bind fun x hx => .ok ⟨x, hx, rfl, fun _ => rfl⟩
  | binary site op left right | subscript site left right =>
    refine (Ensures.self _).bind fun x hx => (Ensures.self _).bind fun y hy => .ok ?_
    exact ⟨_, findAll_cons hx (findAll_cons hy rfl), by simp, fun _ => rfl⟩

/-- The result of an expression comes behind those of its parts. -/
theorem find_last (p : Place) (e : Expr) (env : Env) :
    Ensures (r.find p e env) fun x => ∃ ys, x.results = ys ++ [(e, x.type)] := by
  cases e with
  | lambda site params defaults body =>
    rw [find]
    split
    · exact (Ensures.trivial _).bind fun _ _ => .ok ⟨_, rfl⟩
    · exact .ok ⟨_, rfl⟩
  | comprehension site kind elements generators =>
    exact (Ensures.trivial _).bind fun _ _ => (Ensures.trivial _).bind fun _ _ => .ok ⟨_, rfl⟩
  | _ =>
    refine (find_in_order p rfl env).mono ?_
    rintro x ⟨y, -, hresults, -⟩
    exact ⟨_, hresults⟩

/-- If an expression evaluates nothing twice, it has one result for each number. -/
theorem results_nodup {p : Place} {env : Env} {x : Finding} (hx : r.find p e env = .ok x)
    (hids : (e.schedule.map (·.1.id)).Nodup) : (x.results.map (·.1.id)).Nodup := by
  have hnodes := congrArg (List.map Expr.id) (find_results p e env x hx)
  rw [List.map_map, Expr.reached, List.map_map] at hnodes
  have hsub := (List.filter_sublist (p := fun y : Expr × Bool => r.descend || !y.2)
    (l := e.schedule)).map (·.1.id)
  exact (hnodes ▸ hids.sublist hsub : _)

end Resolver

end ContextLint.Typing
