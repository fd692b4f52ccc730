import ContextLint.Source.Expr
import ContextLint.Source.Token.Number

/-!
# Values of literals

The text of a string literal splits into its prefix letters, its quotes and its body. In a body that
is not raw a backslash starts an escape: a line end vanishes, a letter or number code names a
character, and any other character keeps its backslash. Code points of a text may be lone
surrogates, because a four-digit code can name one.
-/

namespace ContextLint.Source.Literal

/-- The largest code point. -/
def maxPoint : Nat := 0x10FFFF

/-- Most decimal digits that an integer literal may have. -/
def maxIntegerDigits : Nat := 4300

/-- Value of a hexadecimal digit. -/
def hexValue (c : Char) : Nat :=
  if c.isDigit then c.toNat - '0'.toNat
  else if 'a' ≤ c && c ≤ 'f' then c.toNat - 'a'.toNat + 10
  else c.toNat - 'A'.toNat + 10

/-- Read exactly `n` hexadecimal digits. -/
def hexCode : Nat → Nat → List Char → Option (Nat × List Char)
  | 0, value, rest => some (value, rest)
  | n + 1, value, c :: rest =>
    if Number.isHexDigit c then hexCode n (16 * value + hexValue c) rest else none
  | _ + 1, _, [] => none

/-- Read up to `n` further octal digits. -/
def octalCode : Nat → Nat → List Char → Nat × List Char
  | 0, value, rest => (value, rest)
  | n + 1, value, c :: rest =>
    if Number.isOctDigit c then octalCode n (8 * value + (c.toNat - '0'.toNat)) rest
    else (value, c :: rest)
  | _ + 1, value, [] => (value, [])

/-- The character named by a one-letter escape that texts and byte strings share. -/
def letterCode : Char → Option Nat
  | '\\' => some 0x5C
  | '\'' => some 0x27
  | '"' => some 0x22
  | 'a' => some 7
  | 'b' => some 8
  | 'f' => some 12
  | 'n' => some 10
  | 'r' => some 13
  | 't' => some 9
  | 'v' => some 11
  | _ => none

/-- A named character: its name in braces. -/
def namedCode (names : CharacterNames) : List Char → Option (Nat × List Char)
  | '{' :: rest =>
    match rest.takeWhile (· ≠ '}'), rest.dropWhile (· ≠ '}') with
    | c :: name, '}' :: more => (names (c :: name)).map (·, more)
    | _, _ => none
  | _ => none

/-- The code points that an escape stands for, with the text behind it. -/
def escape (names : CharacterNames) (unicode : Bool) : List Char → Option (List Nat × List Char)
  | [] => some ([0x5C], [])
  | c :: rest =>
    match letterCode c with
    | some n => some ([n], rest)
    | none =>
      if c = '\n' then some ([], rest)
      else if Number.isOctDigit c then
        let (n, rest) := octalCode 2 (c.toNat - '0'.toNat) rest
        some ([n], rest)
      else if c = 'x' then (hexCode 2 0 rest).map fun (n, r) => ([n], r)
      else if unicode && c = 'u' then (hexCode 4 0 rest).map fun (n, r) => ([n], r)
      else if unicode && c = 'U' then
        (hexCode 8 0 rest).bind fun (n, r) => if n ≤ maxPoint then some ([n], r) else none
      else if unicode && c = 'N' then (namedCode names rest).map fun (n, r) => ([n], r)
      else some ([0x5C, c.toNat], rest)

/-- Decode the escapes of a body behind the code points `acc`, in reverse; each round reads a
character, so `fuel` bounds the rounds. -/
def unescapeFrom (names : CharacterNames) (unicode : Bool) :
    Nat → List Nat → List Char → Option (List Nat)
  | _, acc, [] => some acc.reverse
  | 0, _, _ => none
  | fuel + 1, acc, '\\' :: rest =>
    (escape names unicode rest).bind fun (ps, rest) =>
      unescapeFrom names unicode fuel (ps.reverse ++ acc) rest
  | fuel + 1, acc, c :: rest => unescapeFrom names unicode fuel (c.toNat :: acc) rest

/-- Decode the escapes of a text body, or of a byte-string body; nothing if one is malformed. -/
def unescape (names : CharacterNames) (unicode : Bool) (body : List Char) : Option (List Nat) :=
  unescapeFrom names unicode body.length [] body

/-- A string literal taken apart. -/
structure Quoted where
  /-- It denotes bytes. -/
  bytes : Bool
  /-- Its backslashes stand for themselves. -/
  raw : Bool
  /-- It holds replacement fields. -/
  formatted : Bool
  /-- The characters before the body: prefix letters and opening quotes. -/
  opening : List Char
  /-- The characters between the quotes. -/
  body : List Char

/-- Take apart the text of a string token. -/
def Quoted.ofText (text : List Char) : Quoted :=
  let letters := text.takeWhile Char.isAlpha
  let quoted := text.drop letters.length
  let lower := letters.map Char.toLower
  let size := match quoted with
    | a :: b :: c :: _ :: _ :: _ :: _ => if a = b && b = c then 3 else 1
    | _ => 1
  ⟨lower.contains 'b', lower.contains 'r', lower.contains 'f', letters ++ quoted.take size,
    (quoted.drop size).take (quoted.length - 2 * size)⟩

/-- Code points of a string literal without replacement fields; nothing if it is malformed. -/
def Quoted.points (names : CharacterNames) (q : Quoted) : Option (List Nat) :=
  if q.bytes && q.body.any (128 ≤ ·.toNat) then none
  else if q.raw then some (q.body.map Char.toNat)
  else unescape names (!q.bytes) q.body

/-- Kind of a number literal. -/
def numberKind (text : List Char) : Constant :=
  match text with
  | '0' :: c :: _ =>
    if ['x', 'X', 'o', 'O', 'b', 'B'].contains c then .int else decimalKind text
  | _ => decimalKind text
where
  decimalKind (text : List Char) : Constant :=
    if text.any (fun c => c == 'j' || c == 'J') then .complex
    else if text.any (fun c => c == '.' || c == 'e' || c == 'E') then .float
    else .int

/-- A decimal integer literal with more digits than are read. -/
def isOversized (text : List Char) : Bool :=
  (text.filter Char.isDigit).length > maxIntegerDigits && text.all fun c => c.isDigit || c == '_'

end ContextLint.Source.Literal
