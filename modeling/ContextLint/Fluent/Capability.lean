import ContextLint.Typing.ClassTable

/-!
# Types that count as a context

A type counts as a context if it bears the context type's name, inherits from one that does, or has
every method that a context has. Null does not matter. Answers may be kept in a memory, which changes
no answer.
-/

namespace ContextLint.Fluent

open Typing

/-- What makes a type a context. -/
structure Capability where
  /-- Name of the context type. -/
  typeName : String
  /-- Methods that a context has. -/
  methods : List String
  /-- The known classes. -/
  table : ClassTable
  deriving Inhabited

namespace Capability

variable (c : Capability)

/-- The name is that of the context type. -/
def matchesName (qualname : String) : Bool := qualnameMatches qualname c.typeName

/-- The class has every method of a context, of which there must be one. -/
def conforms (qualname : String) : Bool :=
  !c.methods.isEmpty && c.methods.all (c.table.methodSet qualname).contains

/-- Values of the class count as contexts. -/
def holds (qualname : String) : Bool :=
  c.matchesName qualname || (c.table.baseNames qualname).any c.matchesName || c.conforms qualname

/-- Something of this type counts as a context. -/
def classify : Option TypeRef → Bool
  | some r => r.isInstance && c.holds r.qualname
  | none => false

/-- Answers kept for later, the latest first. -/
abbrev Memory := List (TypeRef × Bool)

/-- Look up the answer, or work it out and keep it. -/
def consult (ref : Option TypeRef) (m : Memory) : Bool × Memory :=
  match ref with
  | none => (false, m)
  | some r =>
    if r.isInstance then
      match m.lookup r with
      | some answer => (answer, m)
      | none => let answer := c.holds r.qualname; (answer, (r, answer) :: m)
    else (false, m)

end Capability

end ContextLint.Fluent
