/-!
# Number literals

A number literal is the longest run of digits, radix marks, point, exponent and imaginary mark that
forms a number. Underscores may stand between digits, a decimal integer has no leading zeros, and a
letter or digit glued to the literal makes it ill-formed, unless it starts a keyword that may follow
a number. Every reader takes the characters read so far in reverse and returns them extended, with
the rest, or nothing for an ill-formed literal.
-/

namespace ContextLint.Source.Number

/-- A character that may belong to a name; those beyond ASCII are judged later. -/
def isNamePart (c : Char) : Bool := c.isAlphanum || c == '_' || 128 ≤ c.toNat

/-- The keyword's remaining letters follow, and no further name character. -/
def startsWord : List Char → List Char → Bool
  | [], [] => true
  | [], c :: _ => !isNamePart c
  | k :: ks, c :: cs => k == c && startsWord ks cs
  | _ :: _, [] => false

/-- The literal may end before the given text. -/
def mayEnd : List Char → Bool
  | [] => true
  | 'a' :: rest => startsWord ['n', 'd'] rest
  | 'e' :: rest => startsWord ['l', 's', 'e'] rest
  | 'f' :: rest => startsWord ['o', 'r'] rest
  | 'i' :: c :: _ => c == 'f' || c == 'n' || c == 's'
  | 'o' :: rest => startsWord ['r'] rest
  | 'n' :: rest => startsWord ['o', 't'] rest
  | c :: _ => !isNamePart c

/-- Further digits of a decimal number, with single underscores between them. -/
def digits (acc : List Char) : List Char → Option (List Char × List Char)
  | [] => some (acc, [])
  | ['_'] => none
  | '_' :: d :: rest => if d.isDigit then digits (d :: '_' :: acc) rest else none
  | c :: rest => if c.isDigit then digits (c :: acc) rest else some (acc, c :: rest)

/-- One or more digits of a radix, in groups joined by single underscores. -/
def radixDigits (isDigit : Char → Bool) (acc : List Char) (fresh : Bool) :
    List Char → Option (List Char × List Char)
  | [] => if fresh then none else some (acc, [])
  | '_' :: d :: rest =>
    if isDigit d then radixDigits isDigit (d :: '_' :: acc) false rest else none
  | c :: rest =>
    if isDigit c then radixDigits isDigit (c :: acc) false rest
    else if fresh || c == '_' then none
    else some (acc, c :: rest)

/-- Accept a literal that may end here. -/
def close (acc rest : List Char) : Option (List Char × List Char) :=
  if mayEnd rest then some (acc, rest) else none

/-- An optional imaginary mark, then the end. -/
def imaginary (acc : List Char) : List Char → Option (List Char × List Char)
  | 'j' :: rest => close ('j' :: acc) rest
  | 'J' :: rest => close ('J' :: acc) rest
  | rest => close acc rest

/-- The exponent behind its mark `e`; a mark without digits is no part of the literal. -/
def exponent (acc : List Char) (e : Char) : List Char → Option (List Char × List Char)
  | '+' :: d :: rest =>
    if d.isDigit then (digits (d :: '+' :: e :: acc) rest).bind fun (a, r) => imaginary a r
    else none
  | '-' :: d :: rest =>
    if d.isDigit then (digits (d :: '-' :: e :: acc) rest).bind fun (a, r) => imaginary a r
    else none
  | ['+'] | ['-'] => none
  | d :: rest =>
    if d.isDigit then (digits (d :: e :: acc) rest).bind fun (a, r) => imaginary a r
    else close acc (e :: d :: rest)
  | [] => close acc [e]

/-- An optional exponent, then an optional imaginary mark. -/
def scale (acc : List Char) : List Char → Option (List Char × List Char)
  | 'e' :: rest => exponent acc 'e' rest
  | 'E' :: rest => exponent acc 'E' rest
  | rest => imaginary acc rest

/-- The digits behind a decimal point, then what may follow them. -/
def fraction (acc : List Char) : List Char → Option (List Char × List Char)
  | d :: rest =>
    if d.isDigit then (digits (d :: acc) rest).bind fun (a, r) => scale a r
    else scale acc (d :: rest)
  | [] => scale acc []

/-- What may follow the integer part of a decimal literal. -/
def afterInteger (acc : List Char) : List Char → Option (List Char × List Char)
  | '.' :: rest => fraction ('.' :: acc) rest
  | rest => scale acc rest

/-- Leading zeros with single underscores between them. -/
def zeros (acc : List Char) : List Char → Option (List Char × List Char)
  | ['_'] => none
  | '_' :: d :: rest =>
    if d == '0' then zeros ('0' :: '_' :: acc) rest
    else if d.isDigit then some ('_' :: acc, d :: rest)
    else none
  | '0' :: rest => zeros ('0' :: acc) rest
  | rest => some (acc, rest)

/-- A literal that starts with the digit zero: a non-zero decimal integer is refused. -/
def afterZero (acc rest : List Char) : Option (List Char × List Char) :=
  (zeros acc rest).bind fun (acc, rest) =>
    match rest with
    | d :: more =>
      if d.isDigit then
        (digits (d :: acc) more).bind fun (acc, rest) =>
          match rest with
          | '.' :: _ | 'e' :: _ | 'E' :: _ | 'j' :: _ | 'J' :: _ => afterInteger acc rest
          | _ => none
      else afterInteger acc rest
    | [] => afterInteger acc rest

/-- A hexadecimal digit. -/
def isHexDigit (c : Char) : Bool :=
  c.isDigit || ('a' ≤ c && c ≤ 'f') || ('A' ≤ c && c ≤ 'F')

/-- A digit of an octal literal. -/
def isOctDigit (c : Char) : Bool := '0' ≤ c && c ≤ '7'

/-- A digit of a binary literal. -/
def isBinDigit (c : Char) : Bool := c == '0' || c == '1'

/-- A literal behind its radix mark; a decimal digit must not follow. -/
def radix (isDigit : Char → Bool) (mark : Char) (rest : List Char) :
    Option (List Char × List Char) :=
  (radixDigits isDigit [mark, '0'] true rest).bind fun (acc, rest) => close acc rest

/-- The number literal at the head of a text that starts with a digit, or a point and a digit. -/
def read : List Char → Option (List Char × List Char)
  | '.' :: rest => fraction ['.'] rest
  | '0' :: 'x' :: rest => radix isHexDigit 'x' rest
  | '0' :: 'X' :: rest => radix isHexDigit 'X' rest
  | '0' :: 'o' :: rest => radix isOctDigit 'o' rest
  | '0' :: 'O' :: rest => radix isOctDigit 'O' rest
  | '0' :: 'b' :: rest => radix isBinDigit 'b' rest
  | '0' :: 'B' :: rest => radix isBinDigit 'B' rest
  | '0' :: rest => afterZero ['0'] rest
  | d :: rest => (digits [d] rest).bind fun (acc, rest) => afterInteger acc rest
  | [] => none

end ContextLint.Source.Number
