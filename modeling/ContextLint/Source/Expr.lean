import ContextLint.Source.Span

/-!
# Expressions

The expression tree keeps what the analyses read. Forms that no analysis tells apart share the
constructor `compound`, which lists their immediate parts in traversal order: all keys of a
dictionary display before all its values, the left operand of a comparison before the others.
Parameter names of a lambda are listed positional-only, positional, keyword-only, then the two
collecting parameters; its defaults are the positional ones followed by the keyword-only ones.
-/

namespace ContextLint.Source

/-- The value of a literal, as far as typing and annotations need it. -/
inductive Constant where
  | none
  /-- The literal `...`. -/
  | ellipsis
  | bool
  | int
  | float
  /-- An imaginary number. -/
  | complex
  | bytes
  /-- A text given by its code points, which may include lone surrogates. -/
  | str (points : List Nat)
  deriving DecidableEq, Repr, Inhabited

/-- Name of the built-in type of a literal. -/
def Constant.typeName : Constant → String
  | .none => "NoneType"
  | .ellipsis => "ellipsis"
  | .bool => "bool"
  | .int => "int"
  | .float => "float"
  | .complex => "complex"
  | .bytes => "bytes"
  | .str _ => "str"

/-- The code points that the names of characters stand for; nothing for a name that none has. -/
abbrev CharacterNames := List Char → Option Nat

/-- The four comprehension displays. -/
inductive ComprehensionKind where
  | list
  | set
  | generator
  | dict
  deriving DecidableEq, Repr, Inhabited

/-- Ordered displays, which also serve as assignment targets. -/
inductive SequenceKind where
  | tuple
  | list
  deriving DecidableEq, Repr, Inhabited

/-- Binary arithmetic and bitwise operators. -/
inductive BinaryOp where
  | add
  | sub
  | mul
  | matMul
  | div
  | mod
  | floorDiv
  | pow
  | shiftLeft
  | shiftRight
  | bitOr
  | bitXor
  | bitAnd
  deriving DecidableEq, Repr, Inhabited

/-- Forms of which only the parts matter. -/
inductive CompoundKind where
  | boolOp
  | unaryOp
  | dict
  | set
  | await
  | yield
  | yieldFrom
  | compare
  | formattedValue
  | joinedStr
  | slice
  deriving DecidableEq, Repr, Inhabited

mutual

/-- An expression occurrence. -/
inductive Expr where
  | constant (site : Site) (value : Constant)
  | name (site : Site) (id : String)
  /-- Attribute access `value.name`. -/
  | attr (site : Site) (value : Expr) (name : String)
  /-- A call; `keywords` holds the values of its keyword arguments. -/
  | call (site : Site) (func : Expr) (args keywords : List Expr)
  /-- An assignment expression `target := value`. -/
  | walrus (site : Site) (target : String) (value : Expr)
  /-- A conditional expression `body if test else orelse`. -/
  | conditional (site : Site) (test body orelse : Expr)
  | lambda (site : Site) (params : List String) (defaults : List Expr) (body : Expr)
  /-- A comprehension; a dictionary comprehension has two elements, the others one. -/
  | comprehension (site : Site) (kind : ComprehensionKind) (elements : List Expr)
      (generators : List Generator)
  /-- A tuple or list display. -/
  | sequence (site : Site) (kind : SequenceKind) (elements : List Expr)
  /-- An unpacked expression `*value`. -/
  | starred (site : Site) (value : Expr)
  /-- A binary operation. -/
  | binary (site : Site) (op : BinaryOp) (left right : Expr)
  /-- A subscript `value[slice]`. -/
  | subscript (site : Site) (value slice : Expr)
  /-- Any other form, by its parts. -/
  | compound (site : Site) (kind : CompoundKind) (parts : List Expr)

/-- One `for target in iter if ...` clause of a comprehension. -/
inductive Generator where
  /-- The clause's target, iterable and conditions. -/
  | mk (target iter : Expr) (conditions : List Expr)

end

instance : Inhabited Expr := ⟨.constant default .none⟩

namespace Expr

/-- Identity and place of an expression. -/
def site : Expr → Site
  | constant s _ | name s _ | attr s _ _ | call s _ _ _ | walrus s _ _
  | conditional s _ _ _ | lambda s _ _ _ | comprehension s _ _ _ | sequence s _ _
  | starred s _ | binary s _ _ _ | subscript s _ _ | compound s _ _ => s

/-- The number that identifies an expression within its module. -/
def id (e : Expr) : Nat := e.site.id

/-- Where an expression stands. -/
def span (e : Expr) : Span := e.site.span

/-- Name of a comprehension form. -/
def comprehensionName : ComprehensionKind → String
  | .list => "ListComp"
  | .set => "SetComp"
  | .generator => "GeneratorExp"
  | .dict => "DictComp"

/-- Name of a form that is known by its parts only. -/
def compoundName : CompoundKind → String
  | .boolOp => "BoolOp"
  | .unaryOp => "UnaryOp"
  | .dict => "Dict"
  | .set => "Set"
  | .await => "Await"
  | .yield => "Yield"
  | .yieldFrom => "YieldFrom"
  | .compare => "Compare"
  | .formattedValue => "FormattedValue"
  | .joinedStr => "JoinedStr"
  | .slice => "Slice"

/-- The form of an expression by its customary name. -/
def formName : Expr → String
  | constant .. => "Constant"
  | name .. => "Name"
  | attr .. => "Attribute"
  | call .. => "Call"
  | walrus .. => "NamedExpr"
  | conditional .. => "IfExp"
  | lambda .. => "Lambda"
  | comprehension _ kind .. => comprehensionName kind
  | sequence _ .tuple _ => "Tuple"
  | sequence _ .list _ => "List"
  | starred .. => "Starred"
  | binary .. => "BinOp"
  | subscript .. => "Subscript"
  | compound _ kind _ => compoundName kind

/-- The call is a method call: its function is an attribute access. -/
def isMethodCall : Expr → Bool
  | call _ (attr ..) _ _ => true
  | _ => false

end Expr

end ContextLint.Source
