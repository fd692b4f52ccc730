import ContextLint.Fluent.Capability
import ContextLint.Fluent.Chain
import ContextLint.Typing.Resolve

/-!
# Chains that inject a context

A call injects a context if it calls the injection method with a context as first argument on a
receiver of the right type: an event for builders, a logger configuration for producers. A chain
carries the context if one of its calls injects it. `carries` says so by recursion on the chain;
`consultCarries` keeps answers by expression and counts how often it used one.
-/

namespace ContextLint.Fluent

open Source Typing

/-- The two kinds of receiver. -/
inductive Role where
  /-- Events under construction. -/
  | builder
  /-- Logger configurations under construction. -/
  | producer
  deriving DecidableEq, Repr, Inhabited

/-- What chain questions depend on. -/
structure Inquiry where
  /-- Types of the module. -/
  info : TypeInfo
  /-- What counts as a context. -/
  capability : Capability
  /-- The method that injects. -/
  method : String
  /-- Receiver type of builders. -/
  builderType : String
  /-- Receiver type of producers. -/
  producerType : String
  deriving Inhabited

namespace Inquiry

variable (q : Inquiry)

/-- Receiver type of a role. -/
def receiverType : Role → String
  | .builder => q.builderType
  | .producer => q.producerType

/-- The call injects a context. -/
def injects (role : Role) (e : Expr) : Bool :=
  match e with
  | .call _ (.attr _ value name) _ _ =>
    name == q.method &&
      match e.firstArgument? with
      | none => false
      | some arg =>
        q.capability.classify (q.info.typeOf? arg) && q.info.hasType value (q.receiverType role)
  | _ => false

/-- Some call of the chain injects a context. -/
def carries (role : Role) : Expr → Bool
  | .call s (.attr s' value name) args keywords =>
    q.injects role (.call s (.attr s' value name) args keywords) || carries role value
  | _ => false

/-- Answers kept for the chains of one role. -/
structure ChainMemory where
  /-- Answers by expression. -/
  answers : Std.TreeMap Nat Bool := ∅
  /-- How often an answer was used again. -/
  hits : Nat := 0
  deriving Inhabited

/-- All answers kept during an analysis. -/
structure Memory where
  /-- Types that count as contexts or do not. -/
  capability : Capability.Memory := []
  /-- Chains of events. -/
  builder : ChainMemory := {}
  /-- Chains of logger configurations. -/
  producer : ChainMemory := {}
  deriving Inhabited

namespace Memory

/-- Answers kept for a role. -/
def chain (m : Memory) : Role → ChainMemory
  | .builder => m.builder
  | .producer => m.producer

/-- Replace the answers kept for a role. -/
def setChain (m : Memory) (c : ChainMemory) : Role → Memory
  | .builder => { m with builder := c }
  | .producer => { m with producer := c }

/-- Keep an answer. -/
def keep (m : Memory) (role : Role) (e : Expr) (answer : Bool) : Memory :=
  m.setChain { m.chain role with answers := (m.chain role).answers.insert e.id answer } role

/-- Count the use of a kept answer. -/
def hit (m : Memory) (role : Role) : Memory :=
  m.setChain { m.chain role with hits := (m.chain role).hits + 1 } role

end Memory

/-- The call injects a context, with kept answers on types. -/
def consultInjects (role : Role) (e : Expr) (m : Memory) : Bool × Memory :=
  match e with
  | .call _ (.attr _ value name) _ _ =>
    if name == q.method then
      match e.firstArgument? with
      | none => (false, m)
      | some arg =>
        let (isContext, kept) := q.capability.consult (q.info.typeOf? arg) m.capability
        (isContext && q.info.hasType value (q.receiverType role), { m with capability := kept })
    else (false, m)
  | _ => (false, m)

/-- Some call of the chain injects a context, with kept answers. Every expression passed on the way
gets the answer. -/
def consultCarries (role : Role) : Expr → Memory → Bool × Memory
  | .call s (.attr s' value name) args keywords, m =>
    let e := Expr.call s (.attr s' value name) args keywords
    match (m.chain role).answers[e.id]? with
    | some answer => (answer, m.hit role)
    | none =>
      let (here, m) := q.consultInjects role e m
      let (answer, m) := if here then (true, m) else consultCarries role value m
      (answer, m.keep role e answer)
  | e, m =>
    match (m.chain role).answers[e.id]? with
    | some answer => (answer, m.hit role)
    | none => (false, m.keep role e false)

end Inquiry

/-- A way to ask whether a chain carries a context. -/
structure ChainQuery (m : Type → Type) where
  /-- The chain carries a context. -/
  carries : Role → Expr → m Bool

/-- Answer every question anew. -/
def Inquiry.direct (q : Inquiry) : ChainQuery Id where
  carries role e := q.carries role e

/-- Answer with kept answers. -/
def Inquiry.remembering (q : Inquiry) : ChainQuery (StateM Inquiry.Memory) where
  carries role e := q.consultCarries role e

end ContextLint.Fluent
