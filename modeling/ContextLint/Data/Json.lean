import ContextLint.Text.Points

/-!
# JSON texts

Values are written over several lines, two spaces deeper at each level; empty lists and objects stay
on one line. All characters outside the printable ASCII range are escaped, those beyond sixteen bits
as a pair of surrogates. A text is given by its code points, so that a surrogate may also stand
alone.
-/

namespace ContextLint.Data

/-- A JSON value. -/
inductive Json where
  | bool (value : Bool)
  | int (value : Int)
  /-- A text by its code points. -/
  | str (points : List Nat)
  | arr (items : List Json)
  /-- Named values in order. -/
  | obj (fields : List (String × Json))
  deriving Inhabited

namespace Json

/-- A sixteen bit number as an escape. -/
def unitEscape (n : Nat) : List Char :=
  '\\' :: 'u' :: [n / 4096 % 16, n / 256 % 16, n / 16 % 16, n % 16].map Nat.digitChar

/-- A code point inside a text. -/
def escapePoint (n : Nat) : List Char :=
  if n = 0x22 then ['\\', '"']
  else if n = 0x5C then ['\\', '\\']
  else if n = 10 then ['\\', 'n']
  else if n = 13 then ['\\', 'r']
  else if n = 9 then ['\\', 't']
  else if n = 12 then ['\\', 'f']
  else if n = 8 then ['\\', 'b']
  else if 0x20 ≤ n && n ≤ 0x7E then [Char.ofNat n]
  else if n < 0x10000 then unitEscape n
  else unitEscape (0xD800 + (n - 0x10000) / 1024) ++ unitEscape (0xDC00 + (n - 0x10000) % 1024)

/-- A text in quotes. -/
def quote (points : List Nat) : List Char := '"' :: points.flatMap escapePoint ++ ['"']

/-- A new line at a depth. -/
def newline (depth : Nat) : List Char := '\n' :: List.replicate (2 * depth) ' '

mutual

/-- The characters of a value whose lines stand at a depth. -/
def chars (depth : Nat) : Json → List Char
  | bool true => "true".toList
  | bool false => "false".toList
  | int n => (toString n).toList
  | str points => quote points
  | arr [] => "[]".toList
  | arr (item :: rest) =>
    '[' :: newline (depth + 1) ++ chars (depth + 1) item ++ itemChars (depth + 1) rest ++
      newline depth ++ [']']
  | obj [] => ['{', '}']
  | obj (field :: rest) =>
    '{' :: newline (depth + 1) ++ fieldChars (depth + 1) field ++ fieldsChars (depth + 1) rest ++
      newline depth ++ ['}']

/-- Further items, each behind a comma. -/
def itemChars (depth : Nat) : List Json → List Char
  | [] => []
  | item :: rest => ',' :: newline depth ++ chars depth item ++ itemChars depth rest

/-- A named value. -/
def fieldChars (depth : Nat) : String × Json → List Char
  | (name, value) => quote (Text.points name) ++ ':' :: ' ' :: chars depth value

/-- Further named values, each behind a comma. -/
def fieldsChars (depth : Nat) : List (String × Json) → List Char
  | [] => []
  | field :: rest => ',' :: newline depth ++ fieldChars depth field ++ fieldsChars depth rest

end

/-- The text of a value. -/
def render (j : Json) : String := String.ofList (j.chars 0)

end Json

end ContextLint.Data
