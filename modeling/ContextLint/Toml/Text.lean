/-!
# Texts and keys of TOML documents

The four forms of quoted text, bare keys and dotted keys. Every reader takes the text before it
and returns what it read together with the rest; it fails where the text has no such form.
-/

namespace ContextLint.Toml

/-- A reader of a text. -/
abbrev Reader (α : Type) := List Char → Option (α × List Char)

/-- A key: one or more names. -/
abbrev Key := List String

/-- A character that may not stand in a document by itself, line feed and tab apart. -/
def isControl (c : Char) : Bool := c.toNat < 32 || c.toNat = 127

/-- A character that quoted text on one line may not hold. -/
def isIllegal (c : Char) : Bool := isControl c && c ≠ '\t'

/-- A character that quoted text over several lines may not hold. -/
def isIllegalInLines (c : Char) : Bool := isIllegal c && c ≠ '\n'

/-- Blanks on a line. -/
def isSpace (c : Char) : Bool := c = ' ' || c = '\t'

/-- Blanks and line feeds. -/
def isSpaceOrNewline (c : Char) : Bool := isSpace c || c = '\n'

/-- Drop blanks. -/
def skipSpace (cs : List Char) : List Char := cs.dropWhile isSpace

/-- A character of a bare key. -/
def isBareKeyChar (c : Char) : Bool := c.isAlphanum || c = '-' || c = '_'

/-- Value of a hexadecimal digit. -/
def hexDigit? (c : Char) : Option Nat :=
  if '0' ≤ c && c ≤ '9' then some (c.toNat - 48)
  else if 'a' ≤ c && c ≤ 'f' then some (c.toNat - 87)
  else if 'A' ≤ c && c ≤ 'F' then some (c.toNat - 55)
  else none

/-- Read a fixed number of hexadecimal digits. -/
def hexNumber (value : Nat) : Nat → Reader Nat
  | 0, cs => some (value, cs)
  | _ + 1, [] => none
  | n + 1, c :: cs =>
    match hexDigit? c with
    | some d => hexNumber (value * 16 + d) n cs
    | none => none

/-- Read a character given by its number, which must not be a surrogate's. -/
def numberedChar (digits : Nat) : Reader Char := fun cs =>
  match hexNumber 0 digits cs with
  | some (n, rest) => if n.isValidChar then some (Char.ofNat n, rest) else none
  | none => none

/-- Drop the blanks behind a backslash at the end of a line, and all those before the next text. -/
def joinLines (cs : List Char) : Option (List Char) :=
  match skipSpace cs with
  | [] => some []
  | '\n' :: rest => some (rest.dropWhile isSpaceOrNewline)
  | _ => none

/-- Read what follows a backslash; nothing is added where lines are joined. -/
def escape (inLines : Bool) : Reader (Option Char) := fun cs =>
  match cs with
  | [] => none
  | c :: rest =>
    if inLines && isSpaceOrNewline c then (joinLines cs).map fun rest => (none, rest)
    else
      match c with
      | 'b' => some (some '\x08', rest)
      | 't' => some (some '\t', rest)
      | 'n' => some (some '\n', rest)
      | 'f' => some (some '\x0c', rest)
      | 'r' => some (some '\r', rest)
      | '"' => some (some '"', rest)
      | '\\' => some (some '\\', rest)
      | 'u' => (numberedChar 4 rest).map fun (c, rest) => (some c, rest)
      | 'U' => (numberedChar 8 rest).map fun (c, rest) => (some c, rest)
      | _ => none

/-- Read text with escapes up to its closing quotes. `fuel` bounds the number of characters. -/
def basicText (inLines : Bool) (done : List Char) : Nat → Reader (List Char)
  | 0, _ => none
  | _ + 1, [] => none
  | fuel + 1, c :: rest =>
    if c = '"' then
      if !inLines then some (done.reverse, rest)
      else if ['"', '"'].isPrefixOf rest then some (done.reverse, rest.drop 2)
      else basicText inLines (c :: done) fuel rest
    else if c = '\\' then
      match escape inLines rest with
      | some (some c, rest) => basicText inLines (c :: done) fuel rest
      | some (none, rest) => basicText inLines done fuel rest
      | none => none
    else if (if inLines then isIllegalInLines c else isIllegal c) then none
    else basicText inLines (c :: done) fuel rest

/-- Read text without escapes up to its closing quotes. -/
def literalText (inLines : Bool) (done : List Char) : Reader (List Char)
  | [] => none
  | c :: rest =>
    if c = '\'' && (!inLines || ['\'', '\''].isPrefixOf rest) then
      some (done.reverse, if inLines then rest.drop 2 else rest)
    else if (if inLines then isIllegalInLines c else isIllegal c) then none
    else literalText inLines (c :: done) rest

/-- Up to two further quotes belong to a text over several lines. -/
def extraQuotes (quote : Char) (text rest : List Char) : List Char × List Char :=
  let extra := (rest.takeWhile (· = quote)).take 2
  (text ++ extra, rest.drop extra.length)

/-- Drop one line feed. -/
def skipNewline : List Char → List Char
  | '\n' :: rest => rest
  | cs => cs

/-- Read a quoted text; `lines` allows the forms over several lines. -/
def quotedText (lines : Bool) : Reader String := fun cs =>
  let found : Option (List Char × List Char) :=
    match cs with
    | '"' :: '"' :: '"' :: rest =>
      if lines then
        (basicText true [] (rest.length + 1) (skipNewline rest)).map fun (t, r) =>
          extraQuotes '"' t r
      else some ([], '"' :: rest)
    | '\'' :: '\'' :: '\'' :: rest =>
      if lines then
        (literalText true [] (skipNewline rest)).map fun (t, r) => extraQuotes '\'' t r
      else some ([], '\'' :: rest)
    | '"' :: rest => basicText false [] (rest.length + 1) rest
    | '\'' :: rest => literalText false [] rest
    | _ => none
  found.map fun (t, r) => (String.ofList t, r)

/-- Read one name of a key. -/
def keyPart : Reader String := fun cs =>
  match cs with
  | [] => none
  | c :: _ =>
    if isBareKeyChar c then
      some (String.ofList (cs.takeWhile isBareKeyChar), cs.dropWhile isBareKeyChar)
    else quotedText false cs

/-- Read further names of a key, each behind a dot. -/
def keyRest (done : Key) : Nat → Reader Key
  | 0, _ => none
  | fuel + 1, cs =>
    match skipSpace cs with
    | '.' :: rest =>
      match keyPart (skipSpace rest) with
      | some (part, rest) => keyRest (part :: done) fuel rest
      | none => none
    | rest => some (done.reverse, rest)

/-- Read a key and the blanks behind it. -/
def key : Reader Key := fun cs =>
  match keyPart cs with
  | some (part, rest) => keyRest [part] (rest.length + 1) rest
  | none => none

end ContextLint.Toml
