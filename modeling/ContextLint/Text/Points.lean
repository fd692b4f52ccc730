/-!
# Texts of code points

An escape can put half a character into a text: a surrogate, which is no character by itself. Such a
text is the list of its code points; it can be handled, but not written as UTF-8.
-/

namespace ContextLint.Text

/-- A code point that is no character by itself. -/
def isSurrogate (n : Nat) : Bool := 0xD800 ≤ n && n ≤ 0xDFFF

/-- The code points of a text. -/
def points (s : String) : List Nat := s.toList.map Char.toNat

/-- The text of code points, with the replacement character for every surrogate. -/
def lossy (ps : List Nat) : String :=
  String.ofList (ps.map fun n => if isSurrogate n then Char.ofNat 0xFFFD else Char.ofNat n)

/-- Surrogates in a text: the first one, its position and how many follow each other. -/
structure EncodeFault where
  /-- The first surrogate. -/
  point : Nat
  position : Nat
  /-- How many surrogates stand there. -/
  count : Nat
  deriving DecidableEq, Repr, Inhabited

/-- Four hexadecimal digits. -/
def fourHexDigits (n : Nat) : String :=
  let digits := Nat.toDigits 16 n
  String.ofList (List.replicate (4 - digits.length) '0' ++ digits)

/-- The fault as text. -/
def EncodeFault.message (f : EncodeFault) : String :=
  if f.count = 1 then
    "'utf-8' codec can't encode character '\\u" ++ fourHexDigits f.point ++ "' in position " ++
      toString f.position ++ ": surrogates not allowed"
  else
    "'utf-8' codec can't encode characters in position " ++ toString f.position ++ "-" ++
      toString (f.position + f.count - 1) ++ ": surrogates not allowed"

/-- The first surrogates of a text, if it has any. -/
def surrogates? (ps : List Nat) : Option EncodeFault :=
  (ps.findIdx? isSurrogate).map fun i =>
    let run := (ps.drop i).takeWhile isSurrogate
    ⟨run.headD 0, i, run.length⟩

end ContextLint.Text
