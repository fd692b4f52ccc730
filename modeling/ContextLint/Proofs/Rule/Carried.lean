import ContextLint.Proofs.Fluent.Typed
import ContextLint.Proofs.Rule.Tracker

/-!
# Contexts that chains carry

Under the default settings the rule asks the right questions about fluent code: it takes events for
events and configurations for configurations, and only the parameter for a context. So a value
carries the context in the simple sense exactly if its chain does in the sense of the rule or the
name it is built on does.
-/

namespace ContextLint.Fluent

open Source Typing

/-- Chains of the kind are asked about in the role; those of loggers are in both. -/
def Kind.Suits : Kind → Role → Prop
  | .logger, _ => True
  | .config, role => role = .producer
  | .event, role => role = .builder

variable {k k' : Kind} {m : String}

/-- A chain is asked about in the same role as the chain it goes on to. -/
theorem Kind.Method.suits {role : Role} (h : k.Method m k') (hrole : k'.Suits role) :
    k.Suits role := by
  cases h with
  | setting _ | start _ | configure => trivial
  | configField _ | eventField _ => exact hrole

/-- Loggers have no `ctx`. -/
theorem Kind.Method.ne_logger (h : k.Method m k') (hm : m = "ctx") : k ≠ .logger := by
  cases h with
  | setting h | start h => exact absurd (hm ▸ h) (by decide)
  | configure => exact absurd hm (by decide)
  | configField _ | eventField _ => decide

variable {d : Declarations} {env : Env} {τ : Expr → Option TypeRef} {e : Expr} {site site' : Site}
  {args keywords : List Expr}

/-- The types known of a method call include those of its receiver. -/
theorem Knows.receiver (h : Knows d env τ (.call site (.attr site' e m) args keywords)) :
    Knows d env τ e :=
  fun n hn => h n (by simp [Expr.nodes, hn])

/-- The types known of a method call include those of its arguments. -/
theorem Knows.argument {arg : Expr} (h : Knows d env τ (.call site (.attr site' e m) args keywords))
    (harg : arg ∈ args ++ keywords) : Knows d env τ arg := by
  intro n hn
  refine h n (Expr.mem_nodes_of_child ?_ hn)
  simpa [Expr.children] using Or.inr (List.mem_append.mp harg)

end ContextLint.Fluent

namespace ContextLint.Rule

open Source Typing Fluent

/-- The analysis has the default settings, the standard library and no comments. -/
structure Analysis.Standard (a : Analysis) : Prop where
  /-- The settings are the default ones. -/
  settings : a.settings = {}
  /-- The declarations are those of the standard library. -/
  decls : Plain a.info.decls
  /-- There are no comments. -/
  comments : a.comments = []

/-- What counts as a context by default. -/
def standardCapability : Capability where
  typeName := ({} : Settings).capabilityType
  methods := ({} : Settings).capabilityMethods
  table := standard.table

private theorem classify_constant (value : Constant) :
    standardCapability.classify (some (builtin value.typeName)) = false := by
  have hnames : ∀ name ∈
      ["NoneType", "ellipsis", "bool", "int", "float", "complex", "bytes", "str"],
      standardCapability.classify (some (builtin name)) = false := by decide
  apply hnames
  cases value <;> simp [Constant.typeName]

private theorem classify_context :
    standardCapability.classify (some (instanceOf Library.contextType)) = true := by decide

variable {role : Role}

section

variable {a : Analysis} (ha : a.Standard) {Γ : Kinds} {env : Env} {k k' : Kind} {e : Expr}

include ha

private theorem table_eq_standard : a.info.table = standard.table := ha.decls.table_eq

/-- A value of a kind is an event if the kind says so. -/
theorem hasType_event (he : a.info.typeOf? e = some (instanceOf k.typeName)) :
    a.info.hasType e "zerolog.Event" = (k == .event) := by
  rw [TypeInfo.hasType, he, table_eq_standard ha]
  cases k <;> decide

/-- A value of a kind is a configuration if the kind says so. -/
theorem hasType_config (he : a.info.typeOf? e = some (instanceOf k.typeName)) :
    a.info.hasType e "zerolog.Context" = (k == .config) := by
  rw [TypeInfo.hasType, he, table_eq_standard ha]
  cases k <;> decide

/-- The parameter counts as a context, constants do not. -/
theorem classify_argument (henv : Fits Γ env) {arg : Expr} (harg : isArgument arg)
    (hknows : Knows a.info.decls env a.info.typeOf? arg) (rest : List Expr) :
    a.inquiry.capability.classify (a.info.typeOf? arg) = passesContext (arg :: rest) := by
  have hcapability : a.inquiry.capability = standardCapability := by
    simp only [Analysis.inquiry, Analysis.capability, ha.settings, table_eq_standard ha,
      standardCapability]
  rw [hcapability]
  cases arg with
  | constant site value =>
    rw [hknows _ (by simp [Expr.nodes]) _ rfl, classify_constant]
    rfl
  | name site id =>
    obtain rfl : id = "c" := by simpa [isArgument] using harg
    rw [hknows _ (by simp [Expr.nodes]) _ (by rw [Declarations.typeIn, henv.context]),
      classify_context]
    rfl
  | _ => cases harg

/-- Configurations and events are the receivers that their roles ask for. -/
theorem hasType_suits (he : a.info.typeOf? e = some (instanceOf k.typeName)) (hk : k ≠ .logger)
    (hrole : k.Suits role) : a.info.hasType e (a.inquiry.receiverType role) = true := by
  cases k with
  | logger => exact (hk rfl).elim
  | config =>
    obtain rfl := hrole
    simpa [Inquiry.receiverType, Analysis.inquiry, ha.settings] using hasType_config ha he
  | event =>
    obtain rfl := hrole
    simpa [Inquiry.receiverType, Analysis.inquiry, ha.settings] using hasType_event ha he

/-- A method call injects the context if it calls `ctx` with the parameter as first argument. -/
theorem injects_eq (henv : Fits Γ env) (h : Chain Γ k e) {m : String} (hm : k.Method m k')
    (hrole : k.Suits role) {site site' : Site} {args keywords : List Expr}
    (hargs : ∀ arg ∈ args ++ keywords, isArgument arg)
    (hknows : Knows a.info.decls env a.info.typeOf? (.call site (.attr site' e m) args keywords)) :
    a.inquiry.injects role (.call site (.attr site' e m) args keywords) =
      (m == "ctx" && passesContext (args ++ keywords)) := by
  have hmethod : a.inquiry.method = "ctx" := congrArg Settings.injectionMethod ha.settings
  rw [Inquiry.injects, hmethod]
  by_cases hctx : m = "ctx"
  · subst hctx
    have htype : a.info.typeOf? e = some (instanceOf k.typeName) :=
      hknows.receiver e e.mem_nodes_self _ (h.typeIn_of_kind ha.decls henv (hm.ne_logger rfl))
    have hreceiver := hasType_suits ha htype (hm.ne_logger rfl) hrole
    have hfirst : (Expr.call site (.attr site' e "ctx") args keywords).firstArgument? =
        (args ++ keywords).head? := by
      cases args <;> cases keywords <;> rfl
    rw [hfirst]
    cases hlist : args ++ keywords with
    | nil => rfl
    | cons arg rest =>
      have harg : arg ∈ args ++ keywords := by simp [hlist]
      have hcontext := classify_argument ha henv (hargs arg harg) (hknows.argument harg) rest
      rw [beq_self_eq_true, Bool.true_and, Bool.true_and, ← hcontext]
      exact (congrArg (_ && ·) hreceiver).trans (Bool.and_true _)
  · have hne : (m == "ctx") = false := beq_false_of_ne hctx
    rw [hne, Bool.false_and, Bool.false_and]

/-- A value carries the context if its chain does or the name that it is built on. -/
theorem carried_eq (henv : Fits Γ env) (h : Chain Γ k e) (hrole : k.Suits role)
    (hknows : Knows a.info.decls env a.info.typeOf? e) (φ : String → Bool) :
    carried φ e = (e.rootName?.any φ || a.inquiry.carries role e) := by
  have hmethod : a.inquiry.method = "ctx" := congrArg Settings.injectionMethod ha.settings
  induction h with
  | log site | var site hx => simp [carried, Expr.rootName?, Expr.chainRoot, Inquiry.carries]
  | new site site' site'' hargs =>
    simp [carried, Expr.rootName?, Expr.chainRoot, Inquiry.carries, Inquiry.injects, hmethod]
  | call site site' hreceiver hm hargs ih =>
    have hinjects := injects_eq ha henv hreceiver hm (hm.suits hrole) hargs hknows
    have hrest := ih (hm.suits hrole) hknows.receiver
    rw [carried, Inquiry.carries, hinjects, hrest]
    rw [Bool.or_assoc, Bool.or_comm (a.inquiry.carries role _)]
    rfl

end

end ContextLint.Rule
