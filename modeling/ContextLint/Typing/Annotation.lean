import ContextLint.NameMap
import ContextLint.Source.Parse
import ContextLint.Text.Points
import ContextLint.Typing.TypeRef

/-!
# Annotations

An annotation is an expression read as a type: a dotted name, a union with null, one of the optional
and union forms, or a text that holds such an expression. Names are qualified by the module's
imports and own definitions. An annotation without meaning resolves to nothing; three kinds of
malformed annotation fail.
-/

namespace ContextLint.Typing

open Source

/-- Why an annotation cannot be read. -/
inductive AnnotationError where
  /-- An optional or annotated form with an empty argument tuple. -/
  | emptyArguments
  /-- A text with a null character. Python before 3.11.4 has this failure; later releases take the
  text for a malformed one, which resolves to nothing. -/
  | nullCharacter
  /-- A text with lone surrogates: the first one, its position and how many follow each other. -/
  | loneSurrogate (point position count : Nat)
  deriving DecidableEq, Repr, Inhabited

/-- Name of the kind of error, as reports give it. -/
def AnnotationError.kindName : AnnotationError → String
  | emptyArguments => "IndexError"
  | nullCharacter => "ValueError"
  | loneSurrogate .. => "UnicodeEncodeError"

/-- The error as text. -/
def AnnotationError.message : AnnotationError → String
  | emptyArguments => "list index out of range"
  | nullCharacter => "source code string cannot contain null bytes"
  | loneSurrogate point position count => Text.EncodeFault.message ⟨point, position, count⟩

/-- The text of code points that are all characters and none of them null. -/
def annotationText (points : List Nat) : Except AnnotationError (List Char) :=
  match Text.surrogates? points with
  | some f => .error (.loneSurrogate f.point f.position f.count)
  | none => if points.contains 0 then .error .nullCharacter else .ok (points.map Char.ofNat)

/-- The dotted name that a chain of attribute accesses spells. -/
def dottedName? : Expr → Option String
  | .name _ id => some id
  | .attr _ value name => (dottedName? value).map (· ++ "." ++ name)
  | _ => none

/-- Names that a module gives meaning to. -/
structure NameContext where
  /-- Imported names with what they stand for. -/
  aliases : NameMap String
  /-- Names of the module's classes and functions. -/
  localDefs : List String
  /-- The module's own name. -/
  moduleName : String
  /-- The named characters. -/
  characters : CharacterNames := fun _ => none
  deriving Inhabited

namespace NameContext

variable (c : NameContext)

/-- The qualified name of a dotted name. -/
def qualify (dotted : String) : String :=
  let head := String.ofList (dotted.toList.takeWhile (· ≠ '.'))
  let rest := String.ofList ((dotted.toList.dropWhile (· ≠ '.')).drop 1)
  let join (base : String) : String := if rest.isEmpty then base else base ++ "." ++ rest
  match c.aliases.get? head with
  | some base => join base
  | none => if c.localDefs.contains head then join (c.moduleName ++ "." ++ head) else dotted

/-- Names of the form with one argument that adds null. -/
def optionalNames : List String := ["typing.Optional", "Optional"]

/-- Names of the union form. -/
def unionNames : List String := ["typing.Union", "Union"]

/-- Names of the form that adds remarks to a type. -/
def annotatedNames : List String :=
  ["typing.Annotated", "Annotated", "typing_extensions.Annotated"]

/-- The one of the two spellings is listed. -/
def spells (names : List String) (base qualified : String) : Bool :=
  names.contains base || names.contains qualified

/-- The union of resolved members: the only member besides null, made nullable if null is one. -/
def unionOf (members : List (Option TypeRef)) : Option TypeRef :=
  match members.filter (· != some noneType) with
  | [some r] => if members.contains (some noneType) then some r.asNullable else some r
  | _ => none

mutual

/-- Resolve an annotation, given how to resolve a text. -/
def resolveWith (text : List Nat → Except AnnotationError (Option TypeRef)) :
    Expr → Except AnnotationError (Option TypeRef)
  | .constant _ .none => .ok (some noneType)
  | .constant _ (.str points) => text points
  | .name _ id => .ok (some (instanceOf (c.qualify id)))
  | .attr s value name =>
    .ok ((dottedName? (.attr s value name)).map fun d => instanceOf (c.qualify d))
  | .binary _ .bitOr left right => do
    let l ← resolveWith text left
    let r ← resolveWith text right
    return unionOf [l, r]
  | .subscript _ value (.sequence _ .tuple args) =>
    match dottedName? value with
    | none => .ok none
    | some base =>
      let qualified := c.qualify base
      if spells optionalNames base qualified then do
        return (← resolveFirst text args).map TypeRef.asNullable
      else if spells unionNames base qualified then do return unionOf (← resolveAll text args)
      else if spells annotatedNames base qualified then resolveFirst text args
      else .ok (some (instanceOf qualified))
  | .subscript _ value arg =>
    match dottedName? value with
    | none => .ok none
    | some base =>
      let qualified := c.qualify base
      if spells optionalNames base qualified then do
        return (← resolveWith text arg).map TypeRef.asNullable
      else if spells unionNames base qualified then do
        return unionOf [← resolveWith text arg]
      else if spells annotatedNames base qualified then resolveWith text arg
      else .ok (some (instanceOf qualified))
  | _ => .ok none

/-- Resolve the first of several annotations, of which there must be one. -/
def resolveFirst (text : List Nat → Except AnnotationError (Option TypeRef)) :
    List Expr → Except AnnotationError (Option TypeRef)
  | [] => .error .emptyArguments
  | e :: _ => resolveWith text e

/-- Resolve annotations in order. -/
def resolveAll (text : List Nat → Except AnnotationError (Option TypeRef)) :
    List Expr → Except AnnotationError (List (Option TypeRef))
  | [] => .ok []
  | e :: rest => do
    let r ← resolveWith text e
    return r :: (← resolveAll text rest)

end

/-- Resolve an annotation given as text, with texts inside it nested less than `depth` deep. A text
that is no expression resolves to nothing. -/
def resolveText : Nat → List Nat → Except AnnotationError (Option TypeRef)
  | 0, _ => .ok none
  | depth + 1, points => do
    match parseExpression? c.characters (← annotationText points) with
    | none => return none
    | some e => c.resolveWith (resolveText depth) e

end NameContext

mutual

/-- Length of the longest text in an annotation. -/
def longestText : Expr → Nat
  | .constant _ (.str points) => points.length
  | .binary _ _ left right => max (longestText left) (longestText right)
  | .subscript _ _ slice => longestText slice
  | .sequence _ _ elements => longestTextOf elements
  | _ => 0

/-- Length of the longest text in several annotations. -/
def longestTextOf : List Expr → Nat
  | [] => 0
  | e :: rest => max (longestText e) (longestTextOf rest)

end

/-- Resolve an annotation. A text inside a text is shorter than it, so the longest text bounds how
deeply texts nest. -/
def NameContext.resolve (c : NameContext) (e : Expr) : Except AnnotationError (Option TypeRef) :=
  c.resolveWith (c.resolveText (longestText e + 1)) e

/-- Resolve an annotation that may be absent. -/
def NameContext.resolve? (c : NameContext) :
    Option Expr → Except AnnotationError (Option TypeRef)
  | none => .ok none
  | some e => c.resolve e

end ContextLint.Typing
