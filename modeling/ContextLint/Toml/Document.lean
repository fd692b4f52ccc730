import ContextLint.Toml.Scalar
import ContextLint.Toml.Table

/-!
# TOML documents

A document is a sequence of lines, each a pair of key and value, the header of a table, or the
header of a further table of an array. A table may be declared once; tables that dotted keys create
are declared by them, from the next header on.
-/

namespace ContextLint.Toml

open Data

/-- Drop a comment up to the end of its line. -/
def comment (cs : List Char) : Option (List Char) :=
  match cs with
  | '#' :: rest =>
    let text := rest.takeWhile (· ≠ '\n')
    if text.any isIllegal then none else some (rest.drop text.length)
  | _ => some cs

/-- Drop blanks, line feeds and comments. -/
def skipLines : Nat → List Char → Option (List Char)
  | 0, _ => none
  | fuel + 1, cs =>
    match cs.dropWhile isSpaceOrNewline with
    | '#' :: rest => (comment ('#' :: rest)).bind (skipLines fuel)
    | cs => some cs

mutual

/-- Read a value; `fuel` bounds the nesting and the number of items. -/
def value : Nat → Reader Value
  | 0, _ => none
  | fuel + 1, '[' :: rest =>
    match skipLines (rest.length + 1) rest with
    | some rest => (items fuel rest).map fun (l, rest) => (.list l, rest)
    | none => none
  | fuel + 1, '{' :: rest =>
    match skipSpace rest with
    | '}' :: rest => some (.map [], rest)
    | rest =>
      match pairs fuel rest with
      | some (l, rest) => (inlineTable l).map fun v => (v, rest)
      | none => none
  | _ + 1, cs => scalar cs

/-- Read the items of an array and its closing bracket. -/
def items : Nat → Reader (List Value)
  | 0, _ => none
  | _ + 1, ']' :: rest => some ([], rest)
  | fuel + 1, cs =>
    match value fuel cs with
    | none => none
    | some (v, rest) =>
      match skipLines (rest.length + 1) rest with
      | some (']' :: rest) => some ([v], rest)
      | some (',' :: rest) =>
        match skipLines (rest.length + 1) rest with
        | some rest => (items fuel rest).map fun (l, rest) => (v :: l, rest)
        | none => none
      | _ => none

/-- Read a key, an equals sign and a value. -/
def pair : Nat → Reader (Key × Value)
  | 0, _ => none
  | fuel + 1, cs =>
    match key cs with
    | some (k, '=' :: rest) => (value fuel (skipSpace rest)).map fun (v, rest) => ((k, v), rest)
    | _ => none

/-- Read the pairs of a table written out in place and its closing brace. -/
def pairs : Nat → Reader (List (Key × Value))
  | 0, _ => none
  | fuel + 1, cs =>
    match pair fuel cs with
    | none => none
    | some (p, rest) =>
      match skipSpace rest with
      | '}' :: rest => some ([p], rest)
      | ',' :: rest => (pairs fuel (skipSpace rest)).map fun (l, rest) => (p :: l, rest)
      | _ => none

end

/-- A line of a document. -/
inductive Statement where
  | pair (key : Key) (value : Value)
  | table (key : Key)
  /-- The header of a further table of an array. -/
  | arrayTable (key : Key)
  deriving Inhabited

/-- Read the key of a header and the brackets behind it. -/
def header (closing : List Char) : Reader Key := fun cs =>
  match key (skipSpace cs) with
  | some (k, rest) => if closing.isPrefixOf rest then some (k, rest.drop closing.length) else none
  | none => none

/-- Read the statement of a line, if it has one. -/
def statement (fuel : Nat) : Reader (Option Statement) := fun cs =>
  match cs with
  | '[' :: '[' :: rest =>
    (header [']', ']'] rest).map fun (k, rest) => (some (.arrayTable k), rest)
  | '[' :: rest => (header [']'] rest).map fun (k, rest) => (some (.table k), rest)
  | '#' :: _ => some (none, cs)
  | _ => (pair fuel cs).map fun ((k, v), rest) => (some (.pair k v), rest)

/-- Read lines up to the end. -/
def statements (done : List Statement) : Nat → List Char → Option (List Statement)
  | 0, _ => none
  | fuel + 1, cs =>
    match skipSpace cs with
    | [] => some done.reverse
    | '\n' :: rest => statements done fuel rest
    | cs =>
      match statement (2 * cs.length + 4) cs with
      | none => none
      | some (s, rest) =>
        match comment (skipSpace rest) with
        | some [] => some (s.toList ++ done).reverse
        | some ('\n' :: rest) => statements (s.toList ++ done) fuel rest
        | _ => none

/-- A document under construction. -/
structure Draft where
  entries : Entries := []
  /-- The table that pairs belong to. -/
  current : Key := []
  /-- Values written out in place, which no key may lead into. -/
  closed : List Key := []
  /-- Tables that may not be declared any more. -/
  declared : List Key := []
  /-- Tables that count as declared from the next header on. -/
  pending : List Key := []
  deriving Inhabited

namespace Draft

/-- Count the pending tables as declared. -/
def settle (d : Draft) : Draft := { d with declared := d.pending ++ d.declared, pending := [] }

/-- Start a table. -/
def openTable (d : Draft) (k : Key) : Option Draft :=
  let d := d.settle
  if d.declared.contains k || leadsInto d.closed k then none
  else
    (changeAt some k d.entries).map fun entries =>
      { d with entries, current := k, declared := k :: d.declared }

/-- Start a further table of an array; what was said of the one before no longer counts. -/
def openArrayTable (d : Draft) (k : Key) : Option Draft :=
  let d := d.settle
  if leadsInto d.closed k then none
  else
    (changeAt (addTable (k.getLastD "")) k.dropLast d.entries).map fun entries =>
      { d with
        entries
        current := k
        closed := d.closed.filter (!k.isPrefixOf ·)
        declared := k :: d.declared.filter (!k.isPrefixOf ·) }

/-- The tables that a dotted key leads through. -/
def tablesOf (d : Draft) (k : Key) : List Key :=
  (List.range (k.length - 1)).map fun n => d.current ++ k.take (n + 1)

/-- Add a pair to the current table. -/
def addPair (d : Draft) (k : Key) (v : Value) : Option Draft :=
  let through := d.tablesOf k
  let parent := d.current ++ k.dropLast
  if through.any d.declared.contains || leadsInto d.closed parent then none
  else
    (changeAt (addLeaf (k.getLastD "") v) parent d.entries).map fun entries =>
      { d with
        entries
        closed := if isNested v then (d.current ++ k) :: d.closed else d.closed
        pending := through ++ d.pending }

/-- Add a statement. -/
def add (d : Draft) : Statement → Option Draft
  | .pair k v => d.addPair k v
  | .table k => d.openTable k
  | .arrayTable k => d.openArrayTable k

/-- Add statements in order. -/
def addAll (d : Draft) : List Statement → Option Draft
  | [] => some d
  | s :: rest => (d.add s).bind (addAll · rest)

end Draft

/-- Replace every carriage return and line feed by a line feed. -/
def unifyLineEnds (done : List Char) : List Char → List Char
  | [] => done.reverse
  | '\r' :: '\n' :: rest => unifyLineEnds ('\n' :: done) rest
  | c :: rest => unifyLineEnds (c :: done) rest

/-- Read a document; nothing if it is malformed. -/
def parse (text : List Char) : Option (List (Value × Value)) :=
  let cs := unifyLineEnds [] text
  (statements [] (cs.length + 1) cs).bind fun l =>
    (Draft.addAll {} l).map fun d => entryValues d.entries

end ContextLint.Toml
