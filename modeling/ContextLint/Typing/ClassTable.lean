import ContextLint.Typing.Library

/-!
# Class tables and inheritance

A class table joins the classes of the analysed module with those of the library; a class of the
module hides a library class of the same name. Ancestors are found depth first from left to right,
each name once, so cyclic and repeated bases do no harm.
-/

namespace ContextLint.Typing

/-- The classes known in a module. -/
structure ClassTable where
  /-- Classes that the module defines. -/
  own : NameMap ClassInfo
  /-- Classes of the library. -/
  library : NameMap ClassInfo
  deriving Inhabited

namespace ClassTable

/-- The class of a qualified name. -/
def get? (t : ClassTable) (qualname : String) : Option ClassInfo :=
  (t.own.get? qualname).or (t.library.get? qualname)

/-- How many base names the classes list altogether. -/
def baseCount (t : ClassTable) : Nat :=
  ((t.own ++ t.library).flatMap fun c => c.2.bases).length

/-- The classes met from a worklist on, without the names already seen. Every round takes a name off
the list, so `fuel` bounds the rounds. -/
def ancestorsFrom (t : ClassTable) : Nat → List String → List String → List ClassInfo
  | 0, _, _ => []
  | _ + 1, _, [] => []
  | fuel + 1, seen, q :: work =>
    if seen.contains q then ancestorsFrom t fuel seen work
    else match t.get? q with
      | none => ancestorsFrom t fuel (q :: seen) work
      | some info => info :: ancestorsFrom t fuel (q :: seen) (info.bases ++ work)

/-- The class of a name and every known base, each once, nearest first. -/
def ancestors (t : ClassTable) (qualname : String) : List ClassInfo :=
  t.ancestorsFrom (t.baseCount + 1) [] [qualname]

/-- The name, and every base name reachable from it, known or not. -/
def baseNames (t : ClassTable) (qualname : String) : List String :=
  qualname :: (t.ancestors qualname).flatMap ClassInfo.bases

/-- Methods of a class, inherited ones included. -/
def methodSet (t : ClassTable) (qualname : String) : List String :=
  (t.ancestors qualname).flatMap ClassInfo.methods

/-- Result type of a method as its nearest owner declares it. -/
def methodReturn? (t : ClassTable) (owner method : String) : Option TypeRef :=
  ((t.ancestors owner).find? (·.methods.contains method)).bind (·.returns.get? method)

/-- Type of an attribute as its nearest owner declares it. -/
def attributeType? (t : ClassTable) (owner attr : String) : Option TypeRef :=
  (t.ancestors owner).findSome? (·.attributes.get? attr)

/-- The reference is to a value of the named class or of a class below it. -/
def isSubtype (t : ClassTable) (ref : Option TypeRef) (qualname : String) : Bool :=
  match ref with
  | none => false
  | some r => r.isInstance && (t.baseNames r.qualname).any (qualnameMatches · qualname)

end ClassTable

end ContextLint.Typing
