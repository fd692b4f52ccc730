import ContextLint.Proofs.Fluent.Code
import ContextLint.Proofs.Typing.Declared
import ContextLint.Proofs.Typing.Straight

/-!
# Types of fluent code

With the standard library a chain has the class of its kind as its type, in every environment that
gives names the classes of their kinds. So typing well-typed code succeeds and records these types.
-/

namespace ContextLint.Fluent

open Source Scope Typing

/-- The standard library and nothing else. -/
def standard : Declarations := .ofLibrary .standard

/-- Type of a call of a method, by the method's qualified name. -/
def methodResult? (qualname : String) : Option TypeRef :=
  standard.table.methodReturn? (Declarations.splitMember qualname).1
    (Declarations.splitMember qualname).2

variable {k k' : Kind} {m : String}

/-- The methods of a kind, as the standard library has them. -/
theorem Kind.Method.resolves (h : k.Method m k') :
    standard.attributeType? (some (instanceOf k.typeName)) m =
        some ⟨k.typeName ++ "." ++ m, .method, false⟩ ∧
      methodResult? (k.typeName ++ "." ++ m) = some (instanceOf k'.typeName) := by
  cases h with
  | setting h | start h | configField h | eventField h => revert m; decide +kernel
  | configure => decide +kernel

/-- The imported logger has functions in place of a logger's methods. -/
theorem Kind.Method.resolves_log (h : Kind.logger.Method m k) :
    ("zerolog.log" ++ "." ++ m).toList.getLast? ≠ some 'f' ∧
      "zerolog.log" ++ "." ++ m ≠ Declarations.castFunction ∧
      standard.lookup? ("zerolog.log" ++ "." ++ m) =
        some ⟨"zerolog.log" ++ "." ++ m, .func, false⟩ ∧
      standard.functionReturn? ("zerolog.log" ++ "." ++ m) = some (instanceOf k.typeName) := by
  cases h with
  | setting h | start h => revert m; decide +kernel
  | configure => decide +kernel

/-- The declarations are those of the standard library but for functions named `f`. -/
structure Plain (d : Declarations) : Prop where
  /-- The library is the standard one. -/
  library : d.library = .standard
  /-- No class is declared. -/
  classes : d.classes = []
  /-- A function is declared under a name that ends like `f`. -/
  functions : ∀ q : String, q.toList.getLast? ≠ some 'f' → d.functions.get? q = none

variable {q : String}

namespace Plain

variable {d : Declarations} (h : Plain d)

include h

/-- The classes are those of the library. -/
theorem table_eq : d.table = standard.table := by
  rw [Declarations.table, h.library, h.classes]
  rfl

/-- Attributes and methods of values are those of the standard library. -/
theorem attributeType?_instance (q m : String) :
    d.attributeType? (some (instanceOf q)) m = standard.attributeType? (some (instanceOf q)) m := by
  simp only [Declarations.attributeType?, instanceOf, h.table_eq]
  rfl

private theorem callType_method (q : String) (args : List Expr) :
    d.callType (some ⟨q, .method, false⟩) args = .ok (methodResult? q) := by
  simp only [Declarations.callType, h.table_eq, methodResult?]

/-- A library name that does not end like `f` means what it means in the standard library. -/
theorem lookup?_eq (hq : q.toList.getLast? ≠ some 'f') : d.lookup? q = standard.lookup? q := by
  rw [Declarations.lookup?_eq_ofLibrary (by rw [h.classes]; rfl) (h.functions q hq), h.library]
  rfl

private theorem callType_func (hq : q.toList.getLast? ≠ some 'f')
    (hcast : q ≠ Declarations.castFunction) (args : List Expr) :
    d.callType (some ⟨q, .func, false⟩) args = .ok (standard.functionReturn? q) := by
  simp only [Declarations.callType, if_neg hcast]
  rw [Declarations.functionReturn?_eq_ofLibrary (h.functions q hq), h.library]
  rfl

end Plain

/-- The environment gives the imports their meanings, the context its type and names the classes of
their kinds. -/
structure Fits (Γ : Kinds) (env : Env) : Prop where
  context : env.get? "c" = some (some (instanceOf Library.contextType))
  /-- The imported logger. -/
  log : env.get? "log" = some (some ⟨"zerolog.log", .module, false⟩)
  /-- The logging module. -/
  zerolog : env.get? "zerolog" = some (some ⟨"zerolog", .module, false⟩)
  /-- The other names. -/
  names : ∀ x k, Γ x = some k → env.get? x = some (some (instanceOf k.typeName))

variable {Γ : Kinds} {env : Env} {x : String}

/-- Binding a name that is not reserved keeps the fit. -/
theorem Fits.bind (h : Fits Γ env) (hx : x ∉ reservedNames) (k : Kind) :
    Fits (Function.update Γ x (some k)) (env.set x (some (instanceOf k.typeName))) where
  context := by
    have hne : "c" ≠ x := fun heq => hx (by simp [reservedNames, ← heq])
    rw [NameMap.get?_set, if_neg hne, h.context]
  log := by
    have hne : "log" ≠ x := fun heq => hx (by simp [reservedNames, ← heq])
    rw [NameMap.get?_set, if_neg hne, h.log]
  zerolog := by
    have hne : "zerolog" ≠ x := fun heq => hx (by simp [reservedNames, ← heq])
    rw [NameMap.get?_set, if_neg hne, h.zerolog]
  names y k' hy := by
    by_cases hyx : y = x
    · subst hyx
      rw [Function.update_self] at hy
      obtain rfl := Option.some.inj hy
      simp
    · rw [Function.update_of_ne hyx] at hy
      rw [NameMap.get?_set, if_neg hyx, h.names y k' hy]

variable {site : Site}

section

variable {d : Declarations} {Γ : Kinds} {env : Env} {k : Kind} {e : Expr}

/-- The receiver of a method of a kind makes the method one of its class or one of the functions
under the imported logger, and the call has the right type. -/
theorem callType_chain (hd : Plain d) (hm : k.Method m k')
    (he : d.typeIn env e = some (instanceOf k.typeName) ∨
      k = .logger ∧ d.typeIn env e = some ⟨"zerolog.log", .module, false⟩) (site : Site)
    (args : List Expr) :
    d.callType (d.typeIn env (.attr site e m)) args = .ok (some (instanceOf k'.typeName)) := by
  rcases he with he | ⟨rfl, he⟩
  · obtain ⟨hattr, hresult⟩ := hm.resolves
    rw [Declarations.typeIn, he, hd.attributeType?_instance, hattr, hd.callType_method, hresult]
  · obtain ⟨hlast, hcast, hlookup, hresult⟩ := hm.resolves_log
    rw [Declarations.typeIn, he]
    simp only [Declarations.attributeType?]
    rw [hd.lookup?_eq hlast, hlookup, hd.callType_func hlast hcast, hresult]

/-- A new logger is a logger. -/
theorem callType_new (hd : Plain d) (henv : Fits Γ env) (site site' : Site) (args : List Expr) :
    d.callType (d.typeIn env (.attr site (.name site' "zerolog") "new")) args =
      .ok (some (instanceOf Library.loggerType)) := by
  have hlookup : d.lookup? "zerolog.new" = some ⟨"zerolog.new", .func, false⟩ :=
    (hd.lookup?_eq (by decide)).trans (by decide)
  have htype : d.typeIn env (.attr site (.name site' "zerolog") "new") =
      some ⟨"zerolog.new", .func, false⟩ := by
    rw [Declarations.typeIn, Declarations.typeIn, henv.zerolog]
    exact hlookup
  have hresult : standard.functionReturn? "zerolog.new" = some (instanceOf Library.loggerType) := by
    decide
  rw [htype, hd.callType_func (by decide) (by decide), hresult]

/-- A chain has the class of its kind as type, except the imported logger, which is a module. -/
theorem Chain.typeIn_eq (h : Chain Γ k e) (hd : Plain d) (henv : Fits Γ env) :
    d.typeIn env e = some (instanceOf k.typeName) ∨
      (k = .logger ∧ d.typeIn env e = some ⟨"zerolog.log", .module, false⟩) ∧
        ∃ site, e = .name site "log" := by
  induction h with
  | log site => exact .inr ⟨⟨rfl, by rw [Declarations.typeIn, henv.log]⟩, site, rfl⟩
  | new site site' site'' hargs =>
    refine .inl ?_
    rw [Declarations.typeIn, callType_new hd henv]
    rfl
  | var site hx => exact .inl (by rw [Declarations.typeIn, henv.names _ _ hx])
  | call site site' hreceiver hm hargs ih =>
    refine .inl ?_
    rw [Declarations.typeIn, callType_chain hd hm (ih.imp id And.left)]
    rfl

/-- Nothing inside an argument is a call. -/
theorem callable_argument {arg n : Expr} (harg : isArgument arg) (hn : n ∈ arg.nodes) :
    d.Callable env n := by
  have hcall := (argument_nodes harg hn).2
  cases n with
  | call => cases hcall
  | _ => trivial

section

variable (h : Chain Γ k e) (hd : Plain d) (henv : Fits Γ env)

include h hd henv

/-- The calls of a chain can be typed. -/
theorem Chain.callable :
    ∀ n ∈ e.nodes, d.Callable env n := by
  refine h.forall_nodes (fun _ _ => trivial) (fun _ _ _ => trivial)
    (fun arg harg n hn => callable_argument harg hn) ?_ ?_
  · exact fun _ site' site'' args _ => ⟨_, callType_new hd henv site' site'' args⟩
  · intro k receiver m k' _ site' args _ hreceiver hm
    exact ⟨_, callType_chain hd hm ((hreceiver.typeIn_eq hd henv).imp id And.left) site' args⟩

/-- A chain that is not just the imported logger has the class of its kind as type. -/
theorem Chain.typeIn_of_ne (hbare : ∀ site, e ≠ .name site "log") :
    d.typeIn env e = some (instanceOf k.typeName) :=
  (h.typeIn_eq hd henv).resolve_right fun ⟨_, site, he⟩ => hbare site he

/-- Configurations and events have their classes as types. -/
theorem Chain.typeIn_of_kind (hk : k ≠ .logger) : d.typeIn env e = some (instanceOf k.typeName) :=
  (h.typeIn_eq hd henv).resolve_right fun ⟨⟨hlogger, _⟩, _⟩ => hk hlogger

/-- A method call at the end of a chain, by what the standard library knows of the method. -/
theorem Chain.callType_end (hk : k ≠ .logger)
    (hm : standard.attributeType? (some (instanceOf k.typeName)) m = some ⟨q, .method, false⟩)
    (site : Site) (args : List Expr) :
    d.callType (d.typeIn env (.attr site e m)) args = .ok (methodResult? q) := by
  rw [Declarations.typeIn, h.typeIn_of_kind hd henv hk, hd.attributeType?_instance, hm,
    hd.callType_method]

private theorem Chain.typable (hnum : (e.nodes.map Expr.id).Nodup) : d.Typable env e.nodes :=
  ⟨h.straight, h.callable hd henv, hnum⟩

/-- A chain with a method call at its end can be typed. -/
theorem Chain.typable_end (hk : k ≠ .logger)
    (hm : standard.attributeType? (some (instanceOf k.typeName)) m = some ⟨q, .method, false⟩)
    {site' : Site} {args keywords : List Expr} (hargs : ∀ arg ∈ args ++ keywords, isArgument arg)
    (hnum : ((Expr.call site (.attr site' e m) args keywords).nodes.map Expr.id).Nodup) :
    d.Typable env (Expr.call site (.attr site' e m) args keywords).nodes where
  straight := h.straight_end hargs
  callable n hn := by
    rcases mem_nodes_call hn with rfl | rfl | hn | ⟨arg, harg, hn⟩
    · exact ⟨_, h.callType_end hd henv hk hm site' args⟩
    · trivial
    · exact h.callable hd henv n hn
    · exact callable_argument (hargs arg harg) hn
  numbered := hnum

end

end

/-- A configuration has the method that finishes it. -/
theorem resolves_logger :
    standard.attributeType? (some (instanceOf Kind.config.typeName)) "logger" =
        some ⟨Library.loggerContextType ++ "." ++ "logger", .method, false⟩ ∧
      methodResult? (Library.loggerContextType ++ "." ++ "logger") =
        some (instanceOf Library.loggerType) := by decide

/-- An event has the methods that emit it. -/
theorem resolves_terminal {t : String} (ht : t ∈ Library.eventTerminalMethods) :
    standard.attributeType? (some (instanceOf Kind.event.typeName)) t =
      some ⟨Library.eventType ++ "." ++ t, .method, false⟩ := by
  revert t
  decide

variable {e : Expr}

/-- A finished configuration is a logger. -/
theorem Chain.typeIn_finish {d : Declarations} (h : Chain Γ .config e) (hd : Plain d)
    (henv : Fits Γ env) (site site' : Site) (args keywords : List Expr) :
    d.typeIn env (.call site (.attr site' e "logger") args keywords) =
      some (instanceOf Library.loggerType) := by
  obtain ⟨hm, hresult⟩ := resolves_logger
  rw [Declarations.typeIn, h.callType_end hd henv (by decide) hm, hresult]
  rfl

/-- The types that the expression and its parts have in the environment are known. -/
def Knows (d : Declarations) (env : Env) (τ : Expr → Option TypeRef) (e : Expr) : Prop :=
  ∀ n ∈ e.nodes, ∀ ref, d.typeIn env n = some ref → τ n = some ref

/-- The types that the expressions of the code have, each in its own environment, are known. -/
def Resolved (d : Declarations) (τ : Expr → Option TypeRef) : Env → List Stmt → Prop
  | _, [] => True
  | env, .assign [.name _ x] e :: rest =>
    Knows d env τ e ∧ Resolved d τ (env.set x (d.typeIn env e)) rest
  | env, .value (some e) :: rest => Knows d env τ e ∧ Resolved d τ env rest
  | env, _ :: rest => Resolved d τ env rest

/-- The expressions of statements and the expressions inside them. -/
def bodyNodes (body : List Stmt) : List Expr := (body.flatMap Stmt.expressions).flatMap Expr.nodes

variable {stmt : Stmt} {rest : List Stmt}

private theorem nodup_head (he : e ∈ stmt.expressions)
    (h : ((bodyNodes (stmt :: rest)).map Expr.id).Nodup) : (e.nodes.map Expr.id).Nodup := by
  refine h.sublist (List.Sublist.map _ ?_)
  rw [bodyNodes, List.flatMap_cons, List.flatMap_append]
  obtain ⟨pre, post, hsplit⟩ := List.append_of_mem he
  rw [hsplit]
  simp

private theorem nodup_tail (h : ((bodyNodes (stmt :: rest)).map Expr.id).Nodup) :
    ((bodyNodes rest).map Expr.id).Nodup := by
  rw [bodyNodes, List.flatMap_cons, List.flatMap_append, List.map_append] at h
  exact (List.nodup_append.mp h).2.1

/-- Typing the statements succeeds, records the types of their expressions and nothing else. -/
def Types (r : Resolver) (body : List Stmt) (s : Progress) : Prop :=
  ∃ s', performAll r.hooks (bodySteps body) s = .ok s' ∧
    (∀ id : Nat, id ∉ (bodyNodes body).map Expr.id → s'.types[id]? = s.types[id]?) ∧
    Resolved r.decls (fun n => s'.types[n.id]?) s.env body

variable {r : Resolver} {s : Progress}

/-- The records of a statement stay, since the expressions behind it have other numbers. -/
theorem Types.cons {s₁ : Progress} (hstmt : performAll r.hooks (stmtSteps stmt) s = .ok s₁)
    (hrecords : r.decls.Records s.env e.nodes s.types s₁.types) (he : e ∈ stmt.expressions)
    (hnum : ((bodyNodes (stmt :: rest)).map Expr.id).Nodup) (hrest : Types r rest s₁)
    (hresolved : ∀ τ, Knows r.decls s.env τ e → Resolved r.decls τ s₁.env rest →
      Resolved r.decls τ s.env (stmt :: rest)) : Types r (stmt :: rest) s := by
  obtain ⟨s', hperform, hframe, hsettled⟩ := hrest
  have hsplit : bodyNodes (stmt :: rest) =
      stmt.expressions.flatMap Expr.nodes ++ bodyNodes rest := by
    simp [bodyNodes]
  have hsub : ∀ n ∈ e.nodes, n ∈ stmt.expressions.flatMap Expr.nodes :=
    fun n hn => List.mem_flatMap.mpr ⟨e, he, hn⟩
  rw [hsplit, List.map_append] at hnum
  refine ⟨s', ?_, fun id hid => ?_, hresolved _ (fun n hn ref href => ?_) hsettled⟩
  · rw [bodySteps, performAll_append]
    exact (congrArg (· >>= performAll r.hooks (bodySteps rest)) hstmt).trans hperform
  · rw [hsplit, List.map_append, List.mem_append, not_or] at hid
    have hnot : id ∉ e.nodes.map Expr.id := fun hmem => hid.1 (List.map_subset _ hsub hmem)
    rw [hframe id hid.2, hrecords.frame id hnot]
  · have hnot : n.id ∉ (bodyNodes rest).map Expr.id := fun hmem =>
      (List.nodup_append.mp hnum).2.2 _ (List.mem_map_of_mem (hsub n hn)) _ hmem rfl
    rw [hframe _ hnot]
    exact hrecords.typed n hn ref href

/-- An assignment to a name and the code behind it. -/
theorem Types.assign {ref : TypeRef}
    (htypable : (e.nodes.map Expr.id).Nodup → r.decls.Typable s.env e.nodes)
    (href : r.decls.typeIn s.env e = some ref)
    (hnum : ((bodyNodes (.assign [.name site x] e :: rest)).map Expr.id).Nodup)
    (hrest : ∀ s₁ : Progress, s₁.env = s.env.set x (some ref) → Types r rest s₁) :
    Types r (.assign [.name site x] e :: rest) s := by
  have he : e ∈ (Stmt.assign [.name site x] e).expressions := by simp [Stmt.expressions]
  obtain ⟨s₁, hperform, hs₁, -, hrecords⟩ :=
    Resolver.performAll_assign (htypable (nodup_head he hnum)) href site x (s := s) rfl
  refine .cons hperform hrecords he hnum (hrest s₁ hs₁) fun τ hknows hresolved => ⟨hknows, ?_⟩
  rw [href, ← hs₁]
  exact hresolved

/-- An expression statement and the code behind it. -/
theorem Types.value (htypable : (e.nodes.map Expr.id).Nodup → r.decls.Typable s.env e.nodes)
    (hnum : ((bodyNodes (.value (some e) :: rest)).map Expr.id).Nodup)
    (hrest : ∀ s₁ : Progress, s₁.env = s.env → Types r rest s₁) :
    Types r (.value (some e) :: rest) s := by
  have he : e ∈ (Stmt.value (some e)).expressions := by simp [Stmt.expressions]
  obtain ⟨s₁, hperform, hs₁, -, hrecords⟩ :=
    Resolver.performAll_value (htypable (nodup_head he hnum)) (s := s) rfl
  exact .cons hperform hrecords he hnum (hrest s₁ hs₁) fun τ hknows hresolved =>
    ⟨hknows, hs₁ ▸ hresolved⟩

/-- Well-typed code is typed as it should be. -/
theorem Code.types {body : List Stmt} (h : Code Γ body) (hd : Plain r.decls) (henv : Fits Γ s.env)
    (hnum : ((bodyNodes body).map Expr.id).Nodup) : Types r body s := by
  induction h generalizing s with
  | nil Γ => exact ⟨s, rfl, fun _ _ => rfl, trivial⟩
  | bind site hx he hbare hrest ih =>
    refine .assign (he.typable hd henv) (he.typeIn_of_ne hd henv hbare) hnum fun s₁ hs₁ => ?_
    exact ih (hs₁ ▸ henv.bind hx _) (nodup_tail hnum)
  | finish site site' site'' hx he hargs hrest ih =>
    refine .assign (he.typable_end hd henv (by decide) resolves_logger.1 hargs)
      (he.typeIn_finish hd henv ..) hnum fun s₁ hs₁ => ?_
    exact ih (hs₁ ▸ henv.bind hx .logger) (nodup_tail hnum)
  | emit site site' he ht hargs hrest ih =>
    refine .value (he.typable_end hd henv (by decide) (resolves_terminal ht) hargs) hnum
      fun s₁ hs₁ => ?_
    exact ih (hs₁ ▸ henv) (nodup_tail hnum)

end ContextLint.Fluent
