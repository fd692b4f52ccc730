import Mathlib.Logic.Function.Basic
import ContextLint.Fluent.Chain
import ContextLint.Proofs.Source.Nodes
import ContextLint.Settings.Basic
import ContextLint.Typing.Library

/-!
# Straight-line fluent code

The code of this file builds loggers, logger configurations and events by chains of method calls,
binds them to names and emits events. Its meaning is simple: a value carries the context if a call
of `ctx` put it there, on the way from the first logger to the value. A check should find the events
emitted without one.
-/

namespace ContextLint.Fluent

open Source Typing

/-- What a chain builds. -/
inductive Kind where
  | logger
  | config
  | event
  deriving DecidableEq, Repr, Inhabited

/-- Class of the values of a kind. -/
def Kind.typeName : Kind → String
  | logger => Library.loggerType
  | config => Library.loggerContextType
  | event => Library.eventType

/-- Logger methods that return a logger and that the imported logger has, too. -/
def settingMethods : List String := ["level", "output", "sample"]

/-- The method takes values of the first kind to values of the second. -/
inductive Kind.Method : Kind → String → Kind → Prop
  | setting {m} (h : m ∈ settingMethods) : Method .logger m .logger
  | start {m} (h : m ∈ Library.levelMethods) : Method .logger m .event
  | configure : Method .logger "with_" .config
  | configField {m} (h : m ∈ Library.contextFieldMethods) : Method .config m .config
  | eventField {m} (h : m ∈ Library.eventFieldMethods) : Method .event m .event

/-- Kinds of the values that names are bound to. -/
abbrev Kinds := String → Option Kind

/-- Names that mean something else and are not bound. -/
def reservedNames : List String := ["c", "f", "log", "zerolog", "context"]

/-- An argument is a constant or the context. -/
def isArgument : Expr → Bool
  | .constant .. => true
  | .name _ id => id == "c"
  | _ => false

/-- The expression builds a value of the kind, given the kinds of the names. -/
inductive Chain (Γ : Kinds) : Kind → Expr → Prop
  /-- The imported logger. -/
  | log (site : Site) : Chain Γ .logger (.name site "log")
  /-- A new logger. -/
  | new (site site' site'' : Site) {args keywords}
    (hargs : ∀ arg ∈ args ++ keywords, isArgument arg) :
    Chain Γ .logger (.call site (.attr site' (.name site'' "zerolog") "new") args keywords)
  | var (site : Site) {x k} (h : Γ x = some k) : Chain Γ k (.name site x)
  | call (site site' : Site) {k k' receiver m args keywords} (h : Chain Γ k receiver)
    (hm : k.Method m k')
    (hargs : ∀ arg ∈ args ++ keywords, isArgument arg) :
    Chain Γ k' (.call site (.attr site' receiver m) args keywords)

/-- Well-typed code: it binds names to values, finishes configurations and emits events. The
imported logger itself is not bound to another name. -/
inductive Code : Kinds → List Stmt → Prop
  | nil (Γ : Kinds) : Code Γ []
  | bind (site : Site) {Γ x k e rest}
    (hx : x ∉ reservedNames) (he : Chain Γ k e) (hbare : ∀ site, e ≠ .name site "log")
    (hrest : Code (Function.update Γ x (some k)) rest) :
    Code Γ (.assign [.name site x] e :: rest)
  /-- Bind a name to the logger that a configuration describes. -/
  | finish (site site' site'' : Site) {Γ x e args keywords rest} (hx : x ∉ reservedNames)
    (he : Chain Γ .config e) (hargs : ∀ arg ∈ args ++ keywords, isArgument arg)
    (hrest : Code (Function.update Γ x (some .logger)) rest) :
    Code Γ (.assign [.name site x] (.call site' (.attr site'' e "logger") args keywords) :: rest)
  | emit (site site' : Site) {Γ e t args keywords rest} (he : Chain Γ .event e)
    (ht : t ∈ Library.eventTerminalMethods)
    (hargs : ∀ arg ∈ args ++ keywords, isArgument arg) (hrest : Code Γ rest) :
    Code Γ (.value (some (.call site (.attr site' e t) args keywords)) :: rest)

/-- The first of the arguments is the context. -/
def passesContext : List Expr → Bool
  | .name _ id :: _ => id == "c"
  | _ => false

/-- The value carries the context, given which names do. -/
def carried (φ : String → Bool) : Expr → Bool
  | .name _ x => φ x
  | .call _ (.attr _ receiver m) args keywords =>
    carried φ receiver || (m == "ctx" && passesContext (args ++ keywords))
  | _ => false

/-- The calls that emit an event without the context, in order. -/
def missing (φ : String → Bool) : List Stmt → List Expr
  | [] => []
  | .assign [.name _ x] e :: rest => missing (Function.update φ x (carried φ e)) rest
  | .value (some (.call site (.attr site' receiver m) args keywords)) :: rest =>
    if carried φ receiver then missing φ rest
    else .call site (.attr site' receiver m) args keywords :: missing φ rest
  | _ :: rest => missing φ rest

/-- The head of the program's function, which takes a context. -/
def programHead (site site' : Site) : FunctionHead where
  name := "f"
  params := { regular := [⟨"c", some (.attr site (.name site' "context") "Context")⟩] }
  decorators := []
  returns := none

/-- The module around the code: it imports the context and the logger and defines a function with
the code as its body. -/
def program (characters : CharacterNames) (site site' : Site) (body : List Stmt) : Module where
  body := [.imports ⟨none, [⟨"context", none⟩]⟩, .imports ⟨none, [⟨"zerolog", none⟩]⟩,
    .imports ⟨some ⟨some "zerolog", 0⟩, [⟨"log", none⟩]⟩,
    .functionDef (programHead site site') body]
  characters := characters

/-- The methods that chains are made of. -/
def methodNames : List String :=
  settingMethods ++ Library.levelMethods ++ ["with_"] ++ Library.contextFieldMethods ++
    Library.eventFieldMethods

namespace Kind.Method

variable {k k' : Kind} {m : String}

private theorem mem_methodNames (h : k.Method m k') : m ∈ methodNames := by
  cases h <;> simp [methodNames, *]

/-- No method of a chain emits an event. -/
theorem not_terminal (h : k.Method m k') : ({} : Settings).terminalMethods.contains m = false := by
  have hnames : ∀ m ∈ methodNames, ({} : Settings).terminalMethods.contains m = false := by decide
  exact hnames m h.mem_methodNames

/-- No method of a chain finishes a logger. -/
theorem not_finalizing (h : k.Method m k') : (m == ({} : Settings).finalizingMethod) = false := by
  have hnames : ∀ m ∈ methodNames, (m == ({} : Settings).finalizingMethod) = false := by decide
  exact hnames m h.mem_methodNames

end Kind.Method

/-- Arguments are straight and make no calls. -/
theorem argument_nodes {e n : Expr} (he : isArgument e) (hn : n ∈ e.nodes) :
    n.isStraight ∧ n.isCall = false := by
  cases e with
  | constant site value | name site id =>
    obtain rfl : n = _ := by simpa [Expr.nodes] using hn
    exact ⟨rfl, rfl⟩
  | _ => cases he

/-- The expression is no call of a method that emits an event. -/
def Silent (e : Expr) : Prop :=
  ∀ m, e.calledMethod? = some m → ({} : Settings).terminalMethods.contains m = false

/-- Nothing inside an argument emits an event. -/
theorem silent_argument {arg n : Expr} (harg : isArgument arg) (hn : n ∈ arg.nodes) : Silent n := by
  intro m hm
  have hcall := (argument_nodes harg hn).2
  cases n with
  | call => cases hcall
  | _ => cases hm

/-- The nodes of a method call are itself, its method, its receiver's and its arguments'. -/
theorem mem_nodes_call {n receiver : Expr} {site site' : Site} {m : String}
    {args keywords : List Expr}
    (hn : n ∈ (Expr.call site (.attr site' receiver m) args keywords).nodes) :
    n = .call site (.attr site' receiver m) args keywords ∨ n = .attr site' receiver m ∨
      n ∈ receiver.nodes ∨ ∃ arg ∈ args ++ keywords, n ∈ arg.nodes := by
  simp only [Expr.nodes, List.mem_cons, List.mem_append, Expr.nodesOf_eq_flatMap,
    List.mem_flatMap] at hn ⊢
  grind

namespace Chain

variable {Γ : Kinds} {k : Kind} {e : Expr}

/-- What holds of the calls and methods of a chain, of names and of arguments holds of all its
parts. -/
theorem forall_nodes {P : Expr → Prop} (h : Chain Γ k e) (hname : ∀ site x, P (.name site x))
    (hattr : ∀ site value m, P (.attr site value m))
    (hargument : ∀ arg, isArgument arg → ∀ n ∈ arg.nodes, P n)
    (hnew : ∀ site site' site'' args keywords,
      P (.call site (.attr site' (.name site'' "zerolog") "new") args keywords))
    (hcall : ∀ k receiver m k' site site' args keywords, Chain Γ k receiver → k.Method m k' →
      P (.call site (.attr site' receiver m) args keywords)) : ∀ n ∈ e.nodes, P n := by
  induction h with
  | log site =>
    intro n hn
    obtain rfl : n = _ := by simpa [Expr.nodes] using hn
    exact hname ..
  | var site _ =>
    intro n hn
    obtain rfl : n = _ := by simpa [Expr.nodes] using hn
    exact hname ..
  | new site site' site'' hargs =>
    intro n hn
    rcases mem_nodes_call hn with rfl | rfl | hn | ⟨arg, harg, hn⟩
    · exact hnew ..
    · exact hattr ..
    · obtain rfl : n = _ := by simpa [Expr.nodes] using hn
      exact hname ..
    · exact hargument arg (hargs arg harg) n hn
  | call site site' hreceiver hm hargs ih =>
    intro n hn
    rcases mem_nodes_call hn with rfl | rfl | hn | ⟨arg, harg, hn⟩
    · exact hcall _ _ _ _ _ _ _ _ hreceiver hm
    · exact hattr ..
    · exact ih n hn
    · exact hargument arg (hargs arg harg) n hn

/-- Chains are straight. -/
theorem straight (h : Chain Γ k e) : e.Straight :=
  h.forall_nodes (fun _ _ => rfl) (fun _ _ _ => rfl) (fun _ harg _ hn => (argument_nodes harg hn).1)
    (fun _ _ _ _ _ => rfl) fun _ _ _ _ _ _ _ _ _ _ => rfl

/-- A chain is built on a name. -/
theorem exists_root (h : Chain Γ k e) : ∃ x, e.rootName? = some x := by
  induction h with
  | log site => exact ⟨_, rfl⟩
  | new site site' site'' _ | var site _ => exact ⟨_, rfl⟩
  | call site site' _ _ _ ih => exact ih

/-- Nothing in a chain emits an event. -/
theorem silent (h : Chain Γ k e) : ∀ n ∈ e.nodes, Silent n := by
  refine h.forall_nodes ?_ ?_ ?_ ?_ ?_
  · rintro _ _ _ ⟨⟩
  · rintro _ _ _ _ ⟨⟩
  · exact fun arg harg n hn => silent_argument harg hn
  · rintro _ _ _ _ _ _ ⟨⟩
    decide
  · rintro _ _ _ _ _ _ _ _ _ hm _ ⟨⟩
    exact hm.not_terminal

/-- A chain with a method call at its end is straight. -/
theorem straight_end (h : Chain Γ k e) {site site' : Site} {m : String} {args keywords : List Expr}
    (hargs : ∀ arg ∈ args ++ keywords, isArgument arg) :
    (Expr.call site (.attr site' e m) args keywords).Straight := by
  intro n hn
  rcases mem_nodes_call hn with rfl | rfl | hn | ⟨arg, harg, hn⟩
  · rfl
  · rfl
  · exact h.straight n hn
  · exact (argument_nodes (hargs arg harg) hn).1

/-- On the way from a logger to an event a chain starts the event. -/
theorem starts_event (h : Chain Γ .event e) {x : String} (hroot : e.rootName? = some x)
    (hx : Γ x = some .logger) : e.chainMethods.any ({} : Settings).producingMethods.contains := by
  generalize hk : Kind.event = k at h
  induction h with
  | log site | new site site' site'' _ => cases hk
  | var site hvar =>
    obtain rfl := Option.some.inj hroot
    rw [hvar, ← hk] at hx
    cases hx
  | call site site' _ hm _ ih =>
    rw [Expr.chainMethods, List.any_cons, Bool.or_eq_true]
    cases hm with
    | start hlevel =>
      have hlists : ∀ m ∈ Library.levelMethods, ({} : Settings).producingMethods.contains m := by
        decide
      exact .inl (hlists _ hlevel)
    | eventField _ => exact .inr (ih hroot hk)
    | _ => cases hk

end Chain

end ContextLint.Fluent
