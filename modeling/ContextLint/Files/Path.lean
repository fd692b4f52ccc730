/-!
# Paths

A path is an anchor, which is empty for a relative path, and a list of names. Empty names and single
dots are dropped when a path is read; double dots stay until the path is resolved.
-/

namespace ContextLint.Files

/-- A path. -/
structure Path where
  /-- The leading slashes; one or two for an absolute path. -/
  anchor : String := ""
  /-- The names from the anchor on. -/
  parts : List String := []
  deriving DecidableEq, Repr, Inhabited

/-- The text between slashes. -/
def segments : List Char → List (List Char)
  | [] => [[]]
  | '/' :: rest => [] :: segments rest
  | c :: rest =>
    match segments rest with
    | [] => [[c]]
    | s :: more => (c :: s) :: more

namespace Path

/-- Read a path. Exactly two leading slashes are kept, more count as one. -/
def ofString (s : String) : Path :=
  let slashes := s.toList.takeWhile (· == '/')
  { anchor := if slashes.isEmpty then "" else if slashes.length = 2 then "//" else "/"
    parts := ((segments s.toList).map String.ofList).filter fun p => !p.isEmpty && p != "." }

/-- The path as text. -/
def text (p : Path) : String :=
  if p.anchor.isEmpty && p.parts.isEmpty then "." else p.anchor ++ "/".intercalate p.parts

/-- The path is absolute. -/
def isAbsolute (p : Path) : Bool := !p.anchor.isEmpty

/-- The last name; empty if there is none. -/
def name (p : Path) : String := p.parts.getLastD ""

/-- The path without its last name. -/
def parent (p : Path) : Path := { p with parts := p.parts.dropLast }

/-- A path inside a directory. -/
def child (p : Path) (name : String) : Path := { p with parts := p.parts ++ [name] }

/-- The directory and all directories around it, innermost first. -/
def upward (p : Path) : List Path :=
  (List.range (p.parts.length + 1)).map fun n =>
    { p with parts := p.parts.take (p.parts.length - n) }

/-- A file name without and with its ending. The ending starts at the last dot, which must be
neither the first nor the last character. -/
def splitName (name : List Char) : List Char × List Char :=
  let tail := (name.reverse.takeWhile (· ≠ '.')).reverse
  let head := name.take (name.length - tail.length - 1)
  if tail.length < name.length && !tail.isEmpty && !head.isEmpty then (head, '.' :: tail)
  else (name, [])

/-- The ending of the last name. -/
def suffix (p : Path) : String := String.ofList (splitName p.name.toList).2

/-- The last name without its ending. -/
def stem (p : Path) : String := String.ofList (splitName p.name.toList).1

/-- The path relative to a directory that it lies in. -/
def relativeTo? (p base : Path) : Option Path :=
  if p.anchor = base.anchor && base.parts.isPrefixOf p.parts then
    some { anchor := "", parts := p.parts.drop base.parts.length }
  else none

/-- Take double dots away together with the names before them. -/
def normalParts (done : List String) : List String → List String
  | [] => done.reverse
  | ".." :: rest => normalParts (done.drop 1) rest
  | name :: rest => normalParts (name :: done) rest

/-- The absolute path that a path stands for in a directory. -/
def resolve (cwd p : Path) : Path where
  anchor := "/"
  parts := normalParts [] (if p.isAbsolute then p.parts else cwd.parts ++ p.parts)

end Path

end ContextLint.Files
