import ContextLint.Proofs.Typing.Results

/-!
# Two typings in step

Two resolvers are in step if they agree on what they look up, up to a relation between the types
they find, and if one goes wherever the other goes. Typing the same expression from related
environments then keeps these related and gives related results. A resolver that goes into functions
may fail where one that stays at the top level does not.
-/

namespace ContextLint.Typing

open Source Scope

section

variable {ε α β γ δ : Type} {lax : Prop} {R : α → β → Prop} {S : γ → δ → Prop}

/-- Two computations agree: both fail alike, or both succeed with related results. If `lax`, the
second may also fail on its own account. -/
def Follows (lax : Prop) (R : α → β → Prop) : Except ε α → Except ε β → Prop
  | .ok a, .ok b => R a b
  | .ok _, .error _ => lax
  | .error err, .error err' => lax ∨ err = err'
  | .error _, .ok _ => False

namespace Follows

variable {x : Except ε α} {y : Except ε β} {f : α → Except ε γ} {g : β → Except ε δ}

/-- Related results agree. -/
theorem ok {a : α} {b : β} (h : R a b) : Follows lax R (.ok a : Except ε α) (.ok b) := h

/-- A computation agrees with itself. -/
theorem refl {R : α → α → Prop} (h : ∀ a, R a a) (x : Except ε α) : Follows lax R x x := by
  cases x with
  | error err => exact .inr rfl
  | ok a => exact h a

/-- A computation agrees with itself. -/
theorem self (x : Except ε α) : Follows lax (fun a b => a = b ∧ x = .ok a) x x := by
  cases x with
  | error err => exact .inr rfl
  | ok a => exact ⟨rfl, rfl⟩

/-- Computations that go on from related results agree. -/
theorem bind (hx : Follows lax R x y) (hf : ∀ a b, R a b → Follows lax S (f a) (g b)) :
    Follows lax S (x >>= f) (y >>= g) := by
  cases x with
  | error err =>
    cases y with
    | error err' => exact hx
    | ok b => exact hx.elim
  | ok a =>
    cases y with
    | ok b => exact hf a b hx
    | error err' =>
      change Follows lax S (f a) (.error err')
      cases f a with
      | ok c => exact hx
      | error err => exact .inl hx

theorem mono {R' : α → β → Prop} (hx : Follows lax R x y) (h : ∀ a b, R a b → R' a b) :
    Follows lax R' x y := by
  cases x with
  | error err =>
    cases y with
    | error err' | ok b => exact hx
  | ok a =>
    cases y with
    | error err' => exact hx
    | ok b => exact h a b hx

/-- Functions of related results agree. -/
theorem map {f : α → γ} {g : β → δ} (hx : Follows lax R x y) (h : ∀ a b, R a b → S (f a) (g b)) :
    Follows lax S (f <$> x) (g <$> y) :=
  hx.bind fun a b hab => .ok (h a b hab)

/-- What agrees strictly agrees laxly. -/
theorem imp {lax' : Prop} (hx : Follows lax R x y) (h : lax → lax') : Follows lax' R x y := by
  cases x with
  | error err =>
    cases y with
    | error err' => exact hx.imp_left h
    | ok b => exact hx
  | ok a =>
    cases y with
    | error err' => exact h hx
    | ok b => exact hx

/-- What is known of each result is known of both. -/
theorem and {P : α → Prop} {P' : β → Prop} (h : Follows lax R x y) (hx : Ensures x P)
    (hy : Ensures y P') : Follows lax (fun a b => R a b ∧ P a ∧ P' b) x y := by
  cases x with
  | error err =>
    cases y with
    | error err' | ok b => exact h
  | ok a =>
    cases y with
    | error err' => exact h
    | ok b => exact ⟨h, hx a rfl, hy b rfl⟩

/-- Computations that agree in their results are the same. -/
theorem eq {x y : Except ε α} (h : Follows False Eq x y) : x = y := by
  cases x with
  | error err =>
    cases y with
    | error err' => exact congrArg _ (h.resolve_left id)
    | ok b => exact h.elim
  | ok a =>
    cases y with
    | error err' => exact h.elim
    | ok b => exact congrArg _ h

/-- Where the first computation succeeds, so does the second, unless it may fail by itself. -/
theorem exists_of_ok_left {a : α} (h : Follows False R (.ok a) y) : ∃ b, y = .ok b ∧ R a b := by
  cases y with
  | error err => exact h.elim
  | ok b => exact ⟨b, rfl, h⟩

end Follows

/-- Two computations both fail, for whichever reasons, or both succeed with related results. -/
def Together (R : α → β → Prop) : Except ε α → Except ε β → Prop
  | .ok a, .ok b => R a b
  | .error _, .error _ => True
  | .ok _, .error _ | .error _, .ok _ => False

/-- Computations that agree succeed or fail together. -/
theorem Follows.together {x : Except ε α} {y : Except ε β} (h : Follows False R x y) :
    Together R x y := by
  cases x with
  | error err =>
    cases y with
    | error err' => trivial
    | ok b => exact h
  | ok a =>
    cases y with
    | error err' | ok b => exact h

namespace Together

variable {x : Except ε α} {y : Except ε β} {f : α → Except ε γ} {g : β → Except ε δ}

theorem bind (hx : Together R x y) (hf : ∀ a b, R a b → Together S (f a) (g b)) :
    Together S (x >>= f) (y >>= g) := by
  cases x with
  | error err =>
    cases y with
    | error err' => trivial
    | ok b => exact hx.elim
  | ok a =>
    cases y with
    | error err' => exact hx.elim
    | ok b => exact hf a b hx

/-- Functions of related results agree. -/
theorem map {f : α → γ} {g : β → δ} (hx : Together R x y) (h : ∀ a b, R a b → S (f a) (g b)) :
    Together S (f <$> x) (g <$> y) :=
  hx.bind (g := fun b => pure (g b)) (f := fun a => pure (f a)) fun a b hab => h a b hab

/-- Where the first computation succeeds, so does the second. -/
theorem exists_of_ok_left {a : α} (h : Together R (.ok a) y) : ∃ b, y = .ok b ∧ R a b := by
  cases y with
  | error err => exact h.elim
  | ok b => exact ⟨b, rfl, h⟩

/-- Two parts of a computation change places if neither needs what the other finds. -/
theorem swap {ζ η : Type} {V : ζ → η → Prop} {x : Except ε α} {z : Except ε γ} {y : Except ε δ}
    {w : δ → Except ε β} {k : α → γ → ζ} {l : δ → β → η} {U : α → δ → β → Prop}
    (hz : Together S z y) (hx : ∀ c d, S c d → Together (fun a b => U a d b) x (w d))
    (h : ∀ a b c d, S c d → U a d b → V (k a c) (l d b)) :
    Together V (x >>= fun a => k a <$> z) (y >>= fun d => l d <$> w d) := by
  cases z with
  | error err =>
    cases y with
    | ok d => exact hz.elim
    | error err' => cases x <;> trivial
  | ok c =>
    cases y with
    | error err' => exact hz.elim
    | ok d => exact (hx c d hz).map fun a b hab => h a b c d hz hab

end Together

end

/-- Findings with related types, environments and results. -/
structure Finding.Alike (Q : Option TypeRef → Option TypeRef → Prop) (E : Env → Env → Prop)
    (W : Results → Results → Prop) (x y : Finding) : Prop where
  type : Q x.type y.type
  env : E x.env y.env
  results : W x.results y.results

/-- Two resolvers agree on what they look up in related environments. The Boolean says whether a
function at the place starts from the module's final environment. -/
structure Resolver.InStep (r r' : Resolver) (Q : Option TypeRef → Option TypeRef → Prop)
    (E : Bool → Env → Env → Prop) (W : Results → Results → Prop) (Suits : Bool → Expr → Prop) :
    Prop where
  /-- The second goes into functions if the first does. -/
  descend : r.descend = true → r'.descend = true
  refl : ∀ ref, Q ref ref
  name : ∀ {o site x env env'}, Suits o (.name site x) → E o env env' →
    Q (r.decls.nameIn env x) (r'.decls.nameIn env' x)
  attr : ∀ {ref ref'} (name : String), Q ref ref' →
    Q (r.decls.attributeType? ref name) (r'.decls.attributeType? ref' name)
  call : ∀ {ref ref'} (args : List Expr), Q ref ref' →
    Follows (r.descend ≠ r'.descend) Q (r.decls.callType ref args) (r'.decls.callType ref' args)
  conditional : ∀ {o site test body orelse a a' b b'},
    Suits o (.conditional site test body orelse) → Q a a' → Q b b' →
    Q (if a = b then a else none) (if a' = b' then a' else none)
  set : ∀ {o env env' ref ref'} (x : String), E o env env' → Q ref ref' →
    E o (env.set x ref) (env'.set x ref')
  /-- What a comprehension passes on. -/
  adopt : ∀ {o site kind elements generators env env' x},
    Suits o (.comprehension site kind elements generators) →
    x ∈ (Expr.comprehension site kind elements generators).walrusNames →
    E o env env' → Q (env.get? x).join (env'.get? x).join
  globals : r.descend = true → E false r.globals r'.globals
  /-- What suits a place suits it in all evaluated parts. -/
  part : ∀ {o e c}, Suits o e → e.isLambda = false → c ∈ e.evaluatedChildren → Suits o c
  /-- The body of a lambda stands in a function of its own. -/
  body : ∀ {o site params defaults body}, r.descend = true →
    Suits o (.lambda site params defaults body) → Suits false body
  nil : W [] []
  append : ∀ {xs ys xs' ys'}, W xs ys → W xs' ys' → W (xs ++ xs') (ys ++ ys')
  found : ∀ {o e ref ref'}, Suits o e → Q ref ref' → W [(e, ref)] [(e, ref')]
  /-- Only the second goes into a lambda. -/
  skip : ∀ {o site params defaults body ys}, r.descend ≠ r'.descend →
    Suits o (.lambda site params defaults body) → ys.map Prod.fst = body.schedule.map Prod.fst →
    W [] ys

/-- Places of the same kind with related environments around a comprehension. -/
structure Place.Alike (E : Bool → Env → Env → Prop) (opens : Bool) (p p' : Place) : Prop where
  left : p.frame.opensOnGlobals = opens
  right : p'.frame.opensOnGlobals = opens
  scope : Option.Rel (E opens) p.scope p'.scope

namespace Resolver.InStep

variable {r r' : Resolver} {Q : Option TypeRef → Option TypeRef → Prop}
  {E : Bool → Env → Env → Prop} {W : Results → Results → Prop} {Suits : Bool → Expr → Prop}
  {o : Bool} {p p' : Place} {env env' : Env}

/-- Forgetting names keeps environments related. -/
theorem forget (h : InStep r r' Q E W Suits) (names : List String) (henv : E o env env') :
    E o (Resolver.forget names env) (Resolver.forget names env') := by
  induction names generalizing env env' with
  | nil => exact henv
  | cons x rest ih => exact ih (h.set x henv (h.refl none))

private theorem adoptAll (h : InStep r r' Q E W Suits) {names : List String} {inner inner' : Env}
    (hnames : ∀ x ∈ names, Q (inner.get? x).join (inner'.get? x).join) (henv : E o env env') :
    E o (Resolver.adopt names inner env) (Resolver.adopt names inner' env') := by
  induction names generalizing env env' with
  | nil => exact henv
  | cons x rest ih =>
    rw [List.forall_mem_cons] at hnames
    exact ih hnames.2 (h.set x henv hnames.1)

/-- What a place sees around a comprehension, or else where it stands. -/
private theorem scope_getD {scope scope' : Option Env} (hscope : Option.Rel (E o) scope scope')
    (henv : E o env env') : E o (scope.getD env) (scope'.getD env') := by
  cases hscope with
  | none => exact henv
  | some hrel => exact hrel

/-- Functions start in related environments. -/
theorem startEnv (h : InStep r r' Q E W Suits) (hr : r.descend = true)
    (hp : Place.Alike E o p p') (henv : E o env env') :
    E false (r.startEnv p env) (r'.startEnv p' env') := by
  unfold Resolver.startEnv
  rw [hp.left, hp.right]
  cases o with
  | true => exact h.globals hr
  | false => exact scope_getD hp.scope henv

/-- The place inside a comprehension. -/
theorem inside (hp : Place.Alike E o p p') (henv : E o env env') :
    Place.Alike E o { p with scope := some (p.scope.getD env) }
      { p' with scope := some (p'.scope.getD env') } :=
  ⟨hp.left, hp.right, .some (scope_getD hp.scope henv)⟩

/-- The place inside a lambda. -/
theorem function_alike : Place.Alike E false ⟨.func, none⟩ ⟨.func, none⟩ := ⟨rfl, rfl, .none⟩

/-- An expression is done in step. -/
theorem close (h : InStep r r' Q E W Suits) {x y : Finding} {e : Expr} {ref ref' : Option TypeRef}
    (he : Suits o e) (href : Q ref ref') (henv : E o x.env y.env) (hresults : W x.results y.results) :
    Finding.Alike Q (E o) W (x.close e ref) (y.close e ref') :=
  ⟨href, henv, h.append hresults (h.found he href)⟩

mutual

/-- In step, the same expression gives related findings. -/
theorem find (h : InStep r r' Q E W Suits) (e : Expr) {o : Bool} (he : Suits o e) {p p' : Place}
    (hp : Place.Alike E o p p') {env env' : Env} (henv : E o env env') :
    Follows (r.descend ≠ r'.descend) (Finding.Alike Q (E o) W) (r.find p e env)
      (r'.find p' e env') := by
  cases e with
  | constant site value => exact .ok (h.close he (h.refl _) henv h.nil)
  | name site id => exact .ok (h.close he (h.name he henv) henv h.nil)
  | attr site value name =>
    have hvalue : Suits o value := h.part he rfl (List.mem_singleton_self value)
    refine (h.find value hvalue hp henv).bind fun x y hxy => .ok ?_
    exact h.close he (h.attr name hxy.type) hxy.env hxy.results
  | call site func args keywords =>
    have hpart : ∀ c ∈ func :: (args ++ keywords), Suits o c := fun c hc => h.part he rfl hc
    simp only [List.forall_mem_cons, List.forall_mem_append] at hpart
    obtain ⟨hfunc, hargs, hkeywords⟩ := hpart
    refine (h.find func hfunc hp henv).bind fun f f' hf => ?_
    refine (h.findAll args hargs hp hf.env).bind fun a a' ha => ?_
    refine (h.findAll keywords hkeywords hp ha.env).bind fun k k' hk => ?_
    refine (h.call args hf.type).bind fun ref ref' href => .ok ?_
    exact h.close he href hk.env (h.append (h.append hf.results ha.results) hk.results)
  | walrus site target value =>
    have hvalue : Suits o value := h.part he rfl (List.mem_singleton_self value)
    refine (h.find value hvalue hp henv).bind fun x y hxy => .ok ?_
    exact h.close he hxy.type (h.set target hxy.env hxy.type) hxy.results
  | conditional site test body orelse =>
    have hpart : ∀ c ∈ [test, body, orelse], Suits o c := fun c hc => h.part he rfl hc
    simp only [List.forall_mem_cons] at hpart
    obtain ⟨htest, hbody, horelse, -⟩ := hpart
    refine (h.find test htest hp henv).bind fun t t' ht => ?_
    refine (h.find body hbody hp ht.env).bind fun b b' hb => ?_
    refine (h.find orelse horelse hp hb.env).bind fun x x' hx => .ok ?_
    exact h.close he (h.conditional he hb.type hx.type) hx.env
      (h.append (h.append ht.results hb.results) hx.results)
  | lambda site params defaults body =>
    cases hr : r.descend with
    | true =>
      simp only [Resolver.find, hr, h.descend hr, if_true]
      have hstart := h.forget params (h.startEnv hr hp henv)
      have hfind := h.find body (h.body hr he) function_alike hstart
      rw [hr, h.descend hr] at hfind
      refine hfind.bind fun x y hxy => .ok ?_
      exact h.close he (h.refl none) henv hxy.results
    | false =>
      cases hr' : r'.descend with
      | false =>
        simp only [Resolver.find, hr, hr', Bool.false_eq_true, if_false]
        exact h.close he (h.refl none) henv h.nil
      | true =>
        -- Only the second goes inside, and may fail there.
        have hne : r.descend ≠ r'.descend := by rw [hr, hr']; exact Bool.false_ne_true
        simp only [Resolver.find, hr, hr', Bool.false_eq_true, if_false, if_true]
        cases hy : r'.find ⟨.func, none⟩ body (Resolver.forget params (r'.startEnv p' env')) with
        | error err => exact Bool.false_ne_true
        | ok y =>
          have hresults := find_results _ body _ y hy
          rw [hr', Expr.reached_true] at hresults
          exact h.close he (h.refl none) henv (h.skip hne he hresults)
  | comprehension site kind elements generators =>
    have hpart : ∀ c ∈ generators.flatMap Expr.liveClauseParts ++ elements, Suits o c :=
      fun c hc => h.part he rfl hc
    rw [List.forall_mem_append] at hpart
    have hin := inside hp henv
    refine (h.findClauses generators hpart.1 hin henv).bind fun c c' hc => ?_
    refine (h.findAll elements hpart.2 hin hc.env).bind fun x x' hx => .ok ?_
    have hadopt := h.adoptAll (fun _ hmem => h.adopt he hmem hx.env) henv
    exact h.close he (h.refl none) hadopt (h.append hc.results hx.results)
  | sequence site kind elements | compound site kind elements =>
    have hpart : ∀ c ∈ elements, Suits o c := fun c hc => h.part he rfl hc
    refine (h.findAll elements hpart hp henv).bind fun x y hxy => .ok ?_
    exact h.close he (h.refl none) hxy.env hxy.results
  | starred site value =>
    have hvalue : Suits o value := h.part he rfl (List.mem_singleton_self value)
    refine (h.find value hvalue hp henv).bind fun x y hxy => .ok ?_
    exact h.close he (h.refl none) hxy.env hxy.results
  | binary site op left right | subscript site left right =>
    have hpart : ∀ c ∈ [left, right], Suits o c := fun c hc => h.part he rfl hc
    simp only [List.forall_mem_cons] at hpart
    refine (h.find left hpart.1 hp henv).bind fun x x' hx => ?_
    refine (h.find right hpart.2.1 hp hx.env).bind fun y y' hy => .ok ?_
    exact h.close he (h.refl none) hy.env (h.append hx.results hy.results)

/-- In step, the same expressions give related findings. -/
theorem findAll (h : InStep r r' Q E W Suits) (es : List Expr) {o : Bool}
    (hes : ∀ e ∈ es, Suits o e) {p p' : Place} (hp : Place.Alike E o p p') {env env' : Env}
    (henv : E o env env') :
    Follows (r.descend ≠ r'.descend) (Finding.Alike Q (E o) W) (r.findAll p es env)
      (r'.findAll p' es env') := by
  cases es with
  | nil => exact .ok ⟨h.refl none, henv, h.nil⟩
  | cons e rest =>
    rw [List.forall_mem_cons] at hes
    refine (h.find e hes.1 hp henv).bind fun x x' hx => ?_
    refine (h.findAll rest hes.2 hp hx.env).bind fun y y' hy => .ok ?_
    exact ⟨hy.type, hy.env, h.append hx.results hy.results⟩

private theorem findClauses (h : InStep r r' Q E W Suits) (generators : List Generator) {o : Bool}
    (hparts : ∀ c ∈ generators.flatMap Expr.liveClauseParts, Suits o c) {p p' : Place}
    (hp : Place.Alike E o p p') {env env' : Env} (henv : E o env env') :
    Follows (r.descend ≠ r'.descend) (Finding.Alike Q (E o) W) (r.findClauses p generators env)
      (r'.findClauses p' generators env') := by
  cases generators with
  | nil => exact .ok ⟨h.refl none, henv, h.nil⟩
  | cons clause rest =>
    obtain ⟨target, iter, conditions⟩ := clause
    simp only [List.flatMap_cons, Expr.liveClauseParts, List.forall_mem_append,
      List.forall_mem_cons] at hparts
    obtain ⟨⟨hiter, hconditions⟩, hrest⟩ := hparts
    refine (h.find iter hiter hp henv).bind fun x x' hx => ?_
    have hforget := h.forget target.targetNames hx.env
    refine (h.findAll conditions hconditions hp hforget).bind fun c c' hc => ?_
    refine (h.findClauses rest hrest hp hc.env).bind fun y y' hy => .ok ?_
    exact ⟨hy.type, hy.env, h.append (h.append hx.results hc.results) hy.results⟩

end

/-- With the same declarations, two resolvers that go equally far are in step if environments are
related by what is read from them. -/
theorem of_decls {d : Declarations} {g g' : Env} {descend : Bool}
    (hname : ∀ {o site x env env'}, Suits o (.name site x) → E o env env' →
      d.nameIn env x = d.nameIn env' x)
    (hset : ∀ {o env env'} (x : String) (ref : Option TypeRef), E o env env' →
      E o (env.set x ref) (env'.set x ref))
    (hadopt : ∀ {o site kind elements generators env env' x},
      Suits o (.comprehension site kind elements generators) →
      x ∈ (Expr.comprehension site kind elements generators).walrusNames →
      E o env env' → (env.get? x).join = (env'.get? x).join)
    (hglobals : descend = true → E false g g')
    (hpart : ∀ {o e c}, Suits o e → e.isLambda = false → c ∈ e.evaluatedChildren → Suits o c)
    (hbody : ∀ {o site params defaults body}, descend = true →
      Suits o (.lambda site params defaults body) → Suits false body) :
    InStep ⟨d, g, descend⟩ ⟨d, g', descend⟩ Eq E Eq Suits where
  descend h := h
  refl _ := rfl
  name := hname
  attr name h := by rw [h]
  call args h := by
    rw [h]
    exact .refl (fun _ => rfl) _
  conditional _ h h' := by rw [h, h']
  set x henv href := by
    rw [href]
    exact hset x _ henv
  adopt := hadopt
  globals := hglobals
  part := hpart
  body := hbody
  nil := rfl
  append h h' := by rw [h, h']
  found _ h := by rw [h]
  skip hne := (hne rfl).elim

end Resolver.InStep

end ContextLint.Typing
