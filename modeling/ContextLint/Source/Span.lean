/-!
# Places in a source text

Lines count from one, columns from zero in UTF-8 bytes. Every expression of a parsed module carries
a site: its place, and a number that tells it from every other expression of that module.
-/

namespace ContextLint.Source

/-- The place of a token or node, from its first byte to the byte behind its last. -/
structure Span where
  /-- Line of the first byte, counted from one. -/
  line : Nat
  /-- Column of the first byte, counted from zero in bytes. -/
  col : Nat
  /-- Line on which the text ends. -/
  endLine : Nat
  /-- Column behind the last byte. -/
  endCol : Nat
  deriving DecidableEq, Repr, Inhabited

/-- From the start of `a` to the end of `b`. -/
def Span.to (a b : Span) : Span := ⟨a.line, a.col, b.endLine, b.endCol⟩

/-- Identity and place of one expression occurrence. -/
structure Site where
  /-- The number that identifies the occurrence within its module. -/
  id : Nat
  /-- Where the occurrence stands. -/
  span : Span
  deriving DecidableEq, Repr, Inhabited

/-- The site of a number, at no particular place. -/
def Site.ofId (id : Nat) : Site := ⟨id, default⟩

end ContextLint.Source
