import ContextLint.Proofs.Scope.Bound
import ContextLint.Proofs.Typing.Judgement
import ContextLint.Proofs.Typing.Unbound

/-!
# Names with one meaning

A name that only imports bind, all with the same meaning, has that meaning wherever it is evaluated:
no environment ever holds another. A call of a function found under such a name has the function's
result type at every place that is evaluated.
-/

namespace ContextLint.Typing

open Source Scope

/-- A name, what it stands for, and a function found under it. -/
structure Start where
  /-- The name. -/
  name : String
  /-- What the name stands for. -/
  meaning : Option TypeRef
  /-- The function's name. -/
  method : String
  /-- Type of the function. -/
  func : TypeRef
  /-- Type of the call. -/
  result : TypeRef

namespace Start

variable (k : Start)

/-- The environment gives the name its meaning or does not know it. -/
def Fits (env : Env) : Prop := env.get? k.name = none ∨ env.get? k.name = some k.meaning

/-- The declarations give name, function and call the types they should have. -/
structure Valid (d : Declarations) : Prop where
  /-- Meaning of the name where nothing binds it. -/
  name : d.nameType? k.name = k.meaning
  /-- Type of the function. -/
  method : d.attributeType? k.meaning k.method = some k.func
  /-- Type of the call. -/
  call : ∀ args, d.callType (some k.func) args = .ok (some k.result)

/-- The expression is a call of the function under the name. -/
def begins : Expr → Bool
  | .call _ (.attr _ (.name _ id) method) _ _ => id == k.name && method == k.method
  | _ => false

/-- The type is the one that the name, the function and the call have. -/
def Expects : Expr → Option TypeRef → Prop
  | .name _ id, ref => id = k.name → ref = k.meaning
  | .attr _ (.name _ id) method, ref =>
    id = k.name → method = k.method → ref = some k.func
  | .call _ (.attr _ (.name _ id) method) _ _, ref =>
    id = k.name → method = k.method → ref = some k.result
  | _, _ => True

variable {k}

/-- A call that begins a chain has the function's result type. -/
theorem Expects.of_begins {e : Expr} {ref : Option TypeRef} (h : k.Expects e ref)
    (he : k.begins e) : ref = some k.result := by
  unfold begins at he
  split at he
  · simp only [Bool.and_eq_true, beq_iff_eq] at he
    exact h he.1 he.2
  · cases he

private theorem Expects.attr {d : Declarations} (hd : k.Valid d) {value : Expr}
    {owner : Option TypeRef}
    (h : k.Expects value owner) (site : Site) (name : String) :
    k.Expects (.attr site value name) (d.attributeType? owner name) := by
  cases value with
  | name site' id =>
    intro hid hname
    rw [h hid, hname]
    exact hd.method
  | _ => trivial

private theorem Expects.call {d : Declarations} (hd : k.Valid d) {func : Expr}
    {ref result : Option TypeRef}
    (h : k.Expects func ref) {site : Site} {args keywords : List Expr}
    (hresult : d.callType ref args = .ok result) :
    k.Expects (.call site func args keywords) result := by
  cases func with
  | attr site' value name =>
    cases value with
    | name site'' id =>
      intro hid hname
      rw [h hid hname, hd.call args] at hresult
      exact (Except.ok.inj hresult).symm
    | _ => trivial
  | _ => trivial

namespace Fits

variable {env : Env}

/-- Binding another name keeps the meaning. -/
theorem set_of_ne (h : k.Fits env) {name : String} (hne : name ≠ k.name) (v : Option TypeRef) :
    k.Fits (env.set name v) := by
  simpa [Fits, hne.symm] using h

/-- The import gives the name its meaning. -/
theorem set_meaning (env : Env) : k.Fits (env.set k.name k.meaning) := by
  simp [Fits]

end Fits

end Start

namespace Resolver

variable {r : Resolver} {k : Start} {m : Module}

/-- Every environment in sight gives the name its meaning, and so do the declarations. -/
structure Agrees (r : Resolver) (k : Start) (m : Module) : Prop where
  /-- The declarations are as they should be. -/
  valid : k.Valid r.decls
  /-- The final environment of the module gives the name its meaning. -/
  globals : k.Fits r.globals
  /-- No expression binds the name. -/
  unbound : ∀ n ∈ m.nodes, k.name ∉ n.binds

/-- Names and calls have the types that are expected of them. -/
theorem Agrees.judges (h : r.Agrees k m) :
    r.Judges (fun _ => Ensures) (· ∈ m.nodes) k.Fits k.Expects where
  ok := .ok
  bind := .bind
  part he hc := Module.mem_nodes_of_mem (Expr.mem_nodes_of_child
    (Expr.mem_children_of_evaluated hc) (Expr.mem_nodes_self _)) he
  constant := trivial
  name henv := by
    rintro rfl
    rcases henv with hnone | hget
    · rw [Declarations.nameIn, hnone]
      exact h.valid.name
    · rw [Declarations.nameIn, hget]
      rfl
  attr href := href.attr h.valid _ _
  call _ href _ hresult := href.call h.valid hresult
  walrus _ _ := trivial
  conditional _ _ := trivial
  other {e} he := by
    cases e with
    | name | attr | call => cases he
    | _ => trivial
  set he _ henv := henv.set_of_ne (fun heq => h.unbound _ he (by simp [Expr.binds, heq])) _
  hide he hx henv := henv.set_of_ne (ne_of_mem_of_not_mem hx (h.unbound _ he)) none
  adopt he hx henv _ := henv.set_of_ne (fun heq => by
    obtain ⟨n, hn, hb⟩ := Expr.binds_of_assigned (List.mem_reverse.mp hx)
    exact h.unbound n (Module.mem_nodes_of_mem hn he) (heq ▸ hb)) _
  globals _ := h.globals

/-- Binding what the import names leaves the name its meaning. -/
def Respects (r : Resolver) (k : Start) (stmt : Import) : Prop :=
  ∀ env, k.Fits env → k.Fits (r.bindImports stmt.source stmt.names env)

/-- The body of a function that does not bind the name starts with its meaning. -/
private theorem bodyEnv_fits (h : r.Agrees k m) {head : FunctionHead}
    (hx : k.name ∉ head.params.names) {s : Progress} (henv : k.Fits s.env) :
    Ensures (r.bodyEnv head s) k.Fits := by
  have hstart : k.Fits (r.startEnv ⟨s.frame, none⟩ s.env) :=
    startEnv_invariant h.globals (by simp) henv
  refine (bodyEnv_rebinds head s).mono fun env hbody => ?_
  rw [Start.Fits, hbody.get? hx]
  exact hstart

/-- The environment gives the name its meaning, and the results are as expected. -/
structure Settled (k : Start) (s : Course) : Prop where
  /-- The environment gives the name its meaning. -/
  env : k.Fits s.env
  /-- The results are as expected. -/
  results : ∀ y ∈ s.results, k.Expects y.1 y.2

mutual

private theorem perform_settles (h : r.Agrees k m) (step : Step)
    (hsp : step.Spares k.name (r.Respects k)) (hv : ∀ e ∈ step.visited, e ∈ m.nodes) {s : Course}
    (hs : Settled k s) : Ensures (perform r.courseHooks step s) (Settled k) := by
  cases step with
  | visit e =>
    have hfind := h.judges.find e (hv e (by simp [Step.visited])) (p := ⟨s.frame, none⟩) (by simp)
      hs.env
    exact hfind.map fun x hx =>
      ⟨hx.2.env, List.forall_mem_append.mpr ⟨hs.results, fun y hy => (hx.2.results y hy).2⟩⟩
  | bind name value hint =>
    rw [course_bind]
    exact (Ensures.trivial _).map fun ref _ => ⟨hs.env.set_of_ne hsp ref, hs.results⟩
  | unbind name | bindElement name value | define name =>
    exact .ok ⟨hs.env.set_of_ne hsp _, hs.results⟩
  | onImport stmt => exact .ok ⟨hsp _ hs.env, hs.results⟩
  | function head body =>
    cases hr : r.descend with
    | false =>
      rw [course_function_of_not_descend hr]
      exact .ok hs
    | true =>
      rw [course_function hr]
      refine (bodyEnv_fits h hsp.1 hs.env).bind fun env hbody => ?_
      refine Ensures.bind (performAll_settles h body hsp.2 hv ?_) fun s' hs' => .ok ?_
      · exact ⟨hbody, hs.results⟩
      · exact ⟨hs.env, hs'.results⟩
  | cls head body =>
    cases hr : r.descend with
    | false =>
      rw [course_cls_of_not_descend hr]
      exact .ok hs
    | true =>
      rw [course_cls hr]
      refine Ensures.bind (performAll_settles h body hsp hv ?_) fun s' hs' => .ok ?_
      · exact ⟨hs.env, hs.results⟩
      · exact ⟨hs.env, hs'.results⟩

/-- Typing a scope gives the calls of the function inside it the expected types. -/
theorem performAll_settles (h : r.Agrees k m) (steps : List Step)
    (hsp : SparesAll k.name (r.Respects k) steps) (hv : ∀ e ∈ visitedAll steps, e ∈ m.nodes)
    {s : Course} (hs : Settled k s) : Ensures (performAll r.courseHooks steps s) (Settled k) := by
  cases steps with
  | nil => exact .ok hs
  | cons step rest =>
    simp only [visitedAll, List.forall_mem_append] at hv
    refine (perform_settles h step hsp.1 hv.1 hs).bind fun s₁ h₁ => ?_
    exact performAll_settles h rest hsp.2 hv.2 h₁

end

end Resolver

end ContextLint.Typing
