import ContextLint.Text.Word

/-!
# Type references

A type reference names what the resolver knows of an expression: an instance of a class, a class, a
function, a bound method or a module. An instance may be nullable. A reference to a type found under
a longer path still counts as that type, provided the path ends in whole segments of its name.
-/

namespace ContextLint.Typing

/-- What a qualified name stands for. -/
inductive TypeKind where
  /-- A value of the named class. -/
  | inst
  | cls
  /-- A function of a module. -/
  | func
  /-- A bound method, named by its class and its own name. -/
  | method
  | module
  deriving DecidableEq, Repr, Hashable, Inhabited

/-- A resolved type. -/
structure TypeRef where
  /-- The qualified name. -/
  qualname : String
  /-- What it stands for. -/
  kind : TypeKind := .inst
  /-- The value may also be null. -/
  nullable : Bool := false
  deriving DecidableEq, Repr, Hashable, Inhabited

/-- An instance of the named class. -/
def instanceOf (qualname : String) : TypeRef := ⟨qualname, .inst, false⟩

/-- An instance of a built-in class. -/
def builtin (name : String) : TypeRef := instanceOf ("builtins." ++ name)

/-- The type of the null literal. -/
def noneType : TypeRef := builtin "NoneType"

namespace TypeRef

/-- The reference as text. -/
def text (r : TypeRef) : String := if r.nullable then r.qualname ++ " | None" else r.qualname

/-- The last segment of the name. -/
def simpleName (r : TypeRef) : String :=
  String.ofList (r.qualname.toList.reverse.takeWhile (· ≠ '.')).reverse

/-- The reference is to a value of a class. -/
def isInstance (r : TypeRef) : Bool := r.kind == .inst

/-- The reference without null. -/
def nonNull (r : TypeRef) : TypeRef := { r with nullable := false }

/-- The reference with null. -/
def asNullable (r : TypeRef) : TypeRef := { r with nullable := true }

end TypeRef

/-- The name may end before this text: no word character and no dot follows. -/
def endsName : List Char → Bool
  | [] => true
  | c :: _ => !(Text.isWord c || c == '.')

/-- The name stands at the head of the text and ends there. -/
def nameAtHead (name text : List Char) : Bool :=
  name.isPrefixOf text && endsName (text.drop name.length)

/-- The name stands somewhere in the text with no word character in front, and ends there. The flag
says whether it may start at the head. -/
def nameWithin (name : List Char) : Bool → List Char → Bool
  | free, [] => free && nameAtHead name []
  | free, c :: rest =>
    (free && nameAtHead name (c :: rest)) || nameWithin name (!Text.isWord c) rest

/-- A type name is the qualified name or contains it at segment boundaries. A longer path in front
is accepted, a longer name on either side is not. -/
def qualnameMatches (typeName qualname : String) : Bool :=
  if typeName.isEmpty || qualname.isEmpty then false
  else typeName == qualname || nameWithin qualname.toList true typeName.toList

end ContextLint.Typing
