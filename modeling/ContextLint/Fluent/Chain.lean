import ContextLint.Source.Expr

/-!
# Chains of method calls

A chain is a method call whose receiver is a chain or the root. Its links are listed from the
outermost call inwards.
-/

namespace ContextLint.Source.Expr

/-- Method names of the links, outermost first. -/
def chainMethods : Expr → List String
  | call _ (attr _ value method) _ _ => method :: chainMethods value
  | _ => []

/-- What the chain is built on. -/
def chainRoot : Expr → Expr
  | call _ (attr _ value _) _ _ => chainRoot value
  | e => e

/-- The name that the chain is built on, if it is one. -/
def rootName? (e : Expr) : Option String :=
  match e.chainRoot with
  | name _ id => some id
  | _ => none

/-- The receiver of a method call. -/
def receiver? : Expr → Option Expr
  | call _ (attr _ value _) _ _ => some value
  | _ => none

/-- The method that a method call calls. -/
def calledMethod? : Expr → Option String
  | call _ (attr _ _ method) _ _ => some method
  | _ => none

/-- The first argument of a call, by position if there is one, else by keyword. -/
def firstArgument? : Expr → Option Expr
  | call _ _ (a :: _) _ => some a
  | call _ _ [] (k :: _) => some k
  | _ => none

end ContextLint.Source.Expr
