import ContextLint.Proofs.Scope.Spared
import ContextLint.Proofs.Typing.Course

/-!
# Judgements about types

A judgement about the types of expressions that holds of an expression whenever it holds of its
parts, together with one about environments that survives every binding, holds of all that is found
by typing an expression. Typing may fail, so it is also said how computations are judged.
-/

namespace ContextLint.Source

/-- Expressions of the kind may have a type. -/
def Expr.isTypable : Expr → Bool
  | .constant .. | .name .. | .attr .. | .call .. | .walrus .. | .conditional .. => true
  | _ => false

end ContextLint.Source

namespace ContextLint.Typing

open Source Scope

/-- What is found is as judged. -/
structure Finding.Judged (N : Expr → Prop) (I : Env → Prop) (X : Expr → Option TypeRef → Prop)
    (x : Finding) : Prop where
  /-- The environment behind the expressions. -/
  env : I x.env
  results : ∀ y ∈ x.results, N y.1 ∧ X y.1 y.2

namespace Finding.Judged

variable {N : Expr → Prop} {I : Env → Prop} {X : Expr → Option TypeRef → Prop} {x y : Finding}

private theorem start {env : Env} (henv : I env) :
    Judged N I X { env } := ⟨henv, List.forall_mem_nil _⟩

private theorem withEnv (hx : x.Judged N I X) {env : Env} (henv : I env) :
    Judged N I X { x with env } :=
  ⟨henv, hx.results⟩

private theorem andThen (hx : x.Judged N I X) (hy : y.Judged N I X) : (x.andThen y).Judged N I X :=
  ⟨hy.env, List.forall_mem_append.mpr ⟨hx.results, hy.results⟩⟩

private theorem close (hx : x.Judged N I X) {e : Expr} (he : N e) {ref : Option TypeRef}
    (h : X e ref) : X e (x.close e ref).type ∧ (x.close e ref).Judged N I X :=
  ⟨h, hx.env, List.forall_mem_append.mpr ⟨hx.results, List.forall_mem_singleton.mpr ⟨he, h⟩⟩⟩

end Finding.Judged

namespace Resolver

/-- Computations are judged by `L`, environments by `I` and the types of the expressions `N` by `X`,
rule by rule. -/
structure Judges (r : Resolver)
    (L : (α : Type) → Except AnnotationError α → (α → Prop) → Prop) (N : Expr → Prop)
    (I : Env → Prop) (X : Expr → Option TypeRef → Prop) : Prop where
  ok : ∀ {α : Type} {a : α} {P : α → Prop}, P a → L α (.ok a) P
  bind : ∀ {α β : Type} {x : Except AnnotationError α} {f : α → Except AnnotationError β}
    {P : α → Prop} {Q : β → Prop}, L α x P → (∀ a, P a → L β (f a) Q) → L β (x >>= f) Q
  part : ∀ {e c}, N e → c ∈ e.evaluatedChildren → N c
  constant : ∀ {site value}, X (.constant site value) (some (builtin value.typeName))
  name : ∀ {site x env}, I env → X (.name site x) (r.decls.nameIn env x)
  attr : ∀ {site value name ref}, X value ref →
    X (.attr site value name) (r.decls.attributeType? ref name)
  call : ∀ {site func args keywords ref}, N (.call site func args keywords) → X func ref →
    L _ (r.decls.callType ref args) (X (.call site func args keywords))
  walrus : ∀ {site x value ref}, N (.walrus site x value) → X value ref →
    X (.walrus site x value) ref
  conditional : ∀ {site test body orelse a b}, X body a → X orelse b →
    X (.conditional site test body orelse) (if a = b then a else none)
  /-- Any other expression has no type. -/
  other : ∀ {e : Expr}, e.isTypable = false → X e none
  set : ∀ {site x value ref env}, N (.walrus site x value) → X value ref → I env →
    I (env.set x ref)
  /-- A lambda hides its parameters, a comprehension its targets. -/
  hide : ∀ {e x env}, N e → x ∈ e.binds → I env → I (env.set x none)
  adopt : ∀ {site kind elements generators x env inner},
    N (.comprehension site kind elements generators) →
    x ∈ (Expr.comprehension site kind elements generators).walrusNames → I env → I inner →
    I (env.set x (inner.get? x).join)
  globals : ∀ {site params defaults body}, N (.lambda site params defaults body) → I r.globals

namespace Judges

variable {r : Resolver} {L : (α : Type) → Except AnnotationError α → (α → Prop) → Prop}
  {N : Expr → Prop} {I : Env → Prop} {X : Expr → Option TypeRef → Prop}

mutual

/-- What is found by typing an expression is as judged. -/
theorem find (h : r.Judges L N I X) (e : Expr) (he : N e) {p : Place}
    (hp : ∀ env ∈ p.scope, I env) {env : Env} (henv : I env) :
    L _ (r.find p e env) fun x => X e x.type ∧ x.Judged N I X := by
  have hstart := Finding.Judged.start (N := N) (X := X) henv
  cases e with
  | constant site value => exact h.ok (hstart.close he h.constant)
  | name site id => exact h.ok (hstart.close he (h.name henv))
  | attr site value name =>
    have hvalue : N value := h.part he (List.mem_singleton_self value)
    exact h.bind (h.find value hvalue hp henv) fun x hx => h.ok (hx.2.close he (h.attr hx.1))
  | call site func args keywords =>
    have hpart : ∀ c ∈ func :: (args ++ keywords), N c := fun c hc => h.part he hc
    simp only [List.forall_mem_cons, List.forall_mem_append] at hpart
    refine h.bind (h.find func hpart.1 hp henv) fun f hf => ?_
    refine h.bind (h.findAll args hpart.2.1 hp hf.2.env) fun a ha => ?_
    refine h.bind (h.findAll keywords hpart.2.2 hp ha.env) fun k hk => ?_
    exact h.bind (h.call he hf.1) fun ref href => h.ok (((hf.2.andThen ha).andThen hk).close he href)
  | walrus site target value =>
    have hvalue : N value := h.part he (List.mem_singleton_self value)
    refine h.bind (h.find value hvalue hp henv) fun x hx => h.ok ?_
    exact (hx.2.withEnv (h.set he hx.1 hx.2.env)).close he (h.walrus he hx.1)
  | conditional site test body orelse =>
    have hpart : ∀ c ∈ [test, body, orelse], N c := fun c hc => h.part he hc
    simp only [List.forall_mem_cons] at hpart
    refine h.bind (h.find test hpart.1 hp henv) fun x hx => ?_
    refine h.bind (h.find body hpart.2.1 hp hx.2.env) fun b hb => ?_
    refine h.bind (h.find orelse hpart.2.2.1 hp hb.2.env) fun o ho => h.ok ?_
    exact ((hx.2.andThen hb.2).andThen ho.2).close he (h.conditional hb.1 ho.1)
  | lambda site params defaults body =>
    have hinside : I (forget params (r.startEnv p env)) :=
      forget_invariant (fun _ hx _ => h.hide he hx) (startEnv_invariant (h.globals he) hp henv)
    rw [Resolver.find]
    split
    · have hbody : N body := h.part he (List.mem_singleton_self body)
      refine h.bind (h.find body hbody (by simp) hinside) fun x hx => h.ok ?_
      exact (hx.2.withEnv henv).close he (h.other rfl)
    · exact h.ok (hstart.close he (h.other rfl))
  | comprehension site kind elements generators =>
    have hpart : ∀ c ∈ generators.flatMap Expr.liveClauseParts ++ elements, N c :=
      fun c hc => h.part he hc
    rw [List.forall_mem_append] at hpart
    have hscope : ∀ outer ∈ some (p.scope.getD env), I outer := by
      rintro outer ⟨⟩
      cases hps : p.scope with
      | none => exact henv
      | some outer => exact hp outer hps
    refine h.bind (h.findClauses generators hpart.1 (fun _ _ _ hclause _ hx _ =>
      h.hide he (List.mem_flatMap.mpr ⟨_, hclause, hx⟩)) hscope henv) fun c hc => ?_
    refine h.bind (h.findAll elements hpart.2 hscope hc.env) fun x hx => h.ok ?_
    have hadopt := adopt_invariant (fun _ hmem _ henv => h.adopt he hmem henv hx.env) henv
    exact ((hc.andThen hx).withEnv hadopt).close he (h.other rfl)
  | sequence site kind elements | compound site kind elements =>
    have hpart : ∀ c ∈ elements, N c := fun c hc => h.part he hc
    exact h.bind (h.findAll elements hpart hp henv) fun x hx => h.ok (hx.close he (h.other rfl))
  | starred site value =>
    have hvalue : N value := h.part he (List.mem_singleton_self value)
    exact h.bind (h.find value hvalue hp henv) fun x hx => h.ok (hx.2.close he (h.other rfl))
  | binary site op left right | subscript site left right =>
    have hpart : ∀ c ∈ [left, right], N c := fun c hc => h.part he hc
    simp only [List.forall_mem_cons] at hpart
    refine h.bind (h.find left hpart.1 hp henv) fun x hx => ?_
    refine h.bind (h.find right hpart.2.1 hp hx.2.env) fun y hy => h.ok ?_
    exact (hx.2.andThen hy.2).close he (h.other rfl)

private theorem findAll (h : r.Judges L N I X) (es : List Expr) (hes : ∀ e ∈ es, N e) {p : Place}
    (hp : ∀ env ∈ p.scope, I env) {env : Env} (henv : I env) :
    L _ (r.findAll p es env) (Finding.Judged N I X) := by
  cases es with
  | nil => exact h.ok (.start henv)
  | cons e rest =>
    rw [List.forall_mem_cons] at hes
    refine h.bind (h.find e hes.1 hp henv) fun x hx => ?_
    exact h.bind (h.findAll rest hes.2 hp hx.2.env) fun y hy => h.ok (hx.2.andThen hy)

private theorem findClauses (h : r.Judges L N I X) (generators : List Generator)
    (hparts : ∀ c ∈ generators.flatMap Expr.liveClauseParts, N c)
    (hhide : ∀ target iter conditions, .mk target iter conditions ∈ generators →
      ∀ x ∈ target.targetNames, ∀ env, I env → I (env.set x none))
    {p : Place} (hp : ∀ env ∈ p.scope, I env) {env : Env} (henv : I env) :
    L _ (r.findClauses p generators env) (Finding.Judged N I X) := by
  cases generators with
  | nil => exact h.ok (.start henv)
  | cons clause rest =>
    obtain ⟨target, iter, conditions⟩ := clause
    simp only [List.flatMap_cons, Expr.liveClauseParts, List.forall_mem_append,
      List.forall_mem_cons] at hparts
    refine h.bind (h.find iter hparts.1.1 hp henv) fun x hx => ?_
    have hforget := forget_invariant (hhide target iter conditions List.mem_cons_self) hx.2.env
    refine h.bind (h.findAll conditions hparts.1.2 hp hforget) fun c hc => ?_
    have hrest := h.findClauses rest hparts.2
      (fun _ _ _ hclause => hhide _ _ _ (List.mem_cons_of_mem _ hclause)) hp hc.env
    exact h.bind hrest fun y hy => h.ok ((hx.2.andThen hc).andThen hy)

end

end Judges

end Resolver

end ContextLint.Typing
