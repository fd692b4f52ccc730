/-!
# Finite maps from names

A finite map is a list of pairs; the first pair of a name counts. Writing a name drops its older
pairs, so every map built from the empty one lists each name at most once.
-/

namespace ContextLint

/-- A finite map from names. -/
abbrev NameMap (α : Type) := List (String × α)

namespace NameMap

variable {α : Type}

/-- The value of a name. -/
def get? (m : NameMap α) (name : String) : Option α := m.lookup name

/-- The map has a value for the name. -/
def has (m : NameMap α) (name : String) : Bool := (m.get? name).isSome

/-- Forget a name. -/
def erase (m : NameMap α) (name : String) : NameMap α := m.filter (·.1 != name)

/-- Give a name a value. -/
def set (m : NameMap α) (name : String) (a : α) : NameMap α := (name, a) :: m.erase name

/-- Write the pairs of another map on top, in order. -/
def update (m other : NameMap α) : NameMap α := other.foldl (fun m p => m.set p.1 p.2) m

/-- The names that have a value. -/
def names (m : NameMap α) : List String := m.map Prod.fst

end NameMap

end ContextLint
