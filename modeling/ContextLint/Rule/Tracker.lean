import ContextLint.Fluent.Injection
import ContextLint.Settings.Basic

/-!
# Names that carry a context

A tracker knows for the names of one scope whether the logger or event bound to them carries a
context. Loggers finished from a configuration are producers; events and configurations are
builders. In scopes whose names are not followed nothing is recorded and every name is unknown.
-/

namespace ContextLint.Rule

open Source Fluent

/-- Whether a context is carried. -/
inductive CapabilityState where
  /-- A context was injected. -/
  | carries
  /-- None was. -/
  | absent
  /-- Nothing is known. -/
  | unknown
  deriving DecidableEq, Repr, Inhabited

/-- What is known of the names of a scope. -/
structure Tracker where
  /-- The names of the scope are followed. -/
  records : Bool := true
  /-- Loggers. -/
  producers : NameMap CapabilityState := []
  /-- Events and configurations. -/
  builders : NameMap CapabilityState := []
  deriving Inhabited

namespace Tracker

/-- The tracker of a scope whose names are not followed. -/
def idle : Tracker := { records := false }

/-- The tracker of a nested function: it starts from what is known here. -/
def child (t : Tracker) : Tracker := if t.records then t else {}

/-- The tracker of a comprehension, which records only if the scope does. -/
def clause (t : Tracker) : Tracker := { t.child with records := t.records }

/-- Forget a name. -/
def reset (t : Tracker) (name : String) : Tracker :=
  { t with producers := t.producers.erase name, builders := t.builders.erase name }

/-- Forget several names. -/
def resetAll (t : Tracker) (names : List String) : Tracker := names.foldl reset t

/-- What is known of a name. -/
def state (t : Tracker) (name : String) : CapabilityState :=
  ((t.builders.get? name).or (t.producers.get? name)).getD .unknown

/-- The name carries a context. -/
def carries (t : Tracker) (name : String) : Bool := t.state name == .carries

/-- The chain is built on a name that carries a context. -/
def rootCarries (t : Tracker) (e : Expr) : Bool :=
  match e.rootName? with
  | some name => t.carries name
  | none => false

/-- Take over what an inner tracker knows of a name. -/
def adopt (t inner : Tracker) (name : String) : Tracker :=
  let t := t.reset name
  if t.records then
    match inner.producers.get? name, inner.builders.get? name with
    | some s, _ => { t with producers := t.producers.set name s }
    | none, some s => { t with builders := t.builders.set name s }
    | none, none => t
  else t

/-- The chain ending here starts from a name that covers it: an event that carries a context, or a
logger that does and from which the chain starts an event. -/
def covers (t : Tracker) (settings : Settings) (receiver : Expr) : Bool :=
  match receiver.rootName? with
  | none => false
  | some name =>
    t.builders.get? name == some .carries ||
      (t.producers.get? name == some .carries &&
        receiver.chainMethods.any settings.producingMethods.contains)

section

variable {m : Type → Type} [Monad m] (query : ChainQuery m) (info : Typing.TypeInfo)
  (settings : Settings)

/-- State of a logger finished by the expression; nothing if it is no such logger. -/
def producerState (t : Tracker) (e : Expr) : m (Option CapabilityState) :=
  match e with
  | .call _ (.attr _ value method) _ _ =>
    if method == settings.finalizingMethod && info.hasType value settings.producerConfigType then do
      if ← query.carries .producer value then return some .carries
      else if t.rootCarries e then return some .carries
      else return some .absent
    else return none
  | _ => return none

/-- State of an event, a configuration or whatever is built on a name that carries a context;
nothing for any other expression. -/
def builderState (t : Tracker) (e : Expr) : m (Option CapabilityState) := do
  let isBuilder := info.hasType e settings.builderType
  let isConfig := info.hasType e settings.producerConfigType
  let injected ←
    if isBuilder then query.carries .builder e
    else if isConfig then query.carries .producer e
    else pure false
  return if injected || t.rootCarries e then some .carries
    else if isBuilder || isConfig then some .absent
    else none

/-- Record the binding of a name to a value, which is looked at before the name is forgotten. -/
def bind (t : Tracker) (name : String) (e : Expr) : m Tracker := do
  if t.records then
    match ← producerState query info settings t e with
    | some s => let t := t.reset name; return { t with producers := t.producers.set name s }
    | none =>
      match ← builderState query info settings t e with
      | some s => let t := t.reset name; return { t with builders := t.builders.set name s }
      | none => return t.reset name
  else return t

end

end Tracker

end ContextLint.Rule
