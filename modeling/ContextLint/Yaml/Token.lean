import ContextLint.Yaml.Scalar

/-!
# Tokens of YAML texts

A directive, tag, anchor or alias is read from the text; the other tokens are marks of structure.
-/

namespace ContextLint.Yaml

open Cursor

/-- What a directive says. -/
inductive Directive where
  /-- The major version of the language. -/
  | version (major : Nat)
  /-- A handle for tags and what it stands for. -/
  | tag (handle tagPrefix : String)
  /-- Any other directive. -/
  | other
  deriving DecidableEq, Repr, Inhabited

/-- A token. -/
inductive Token where
  | streamEnd
  | directive (content : Directive)
  /-- Three dashes. -/
  | documentStart
  /-- Three dots. -/
  | documentEnd
  | blockSequenceStart
  | blockMappingStart
  | blockEnd
  /-- An opening bracket. -/
  | flowSequenceStart
  /-- A closing bracket. -/
  | flowSequenceEnd
  /-- An opening brace. -/
  | flowMappingStart
  /-- A closing brace. -/
  | flowMappingEnd
  /-- A dash. -/
  | blockEntry
  /-- A comma. -/
  | flowEntry
  | key
  | value
  /-- A reference to an anchor. -/
  | alias (name : String)
  | anchor (name : String)
  /-- A tag with its handle, if it has one. -/
  | tag (handle : Option String) (suffix : String)
  | scalar (content : Scalar)
  deriving Inhabited

/-- A character of names in directives, anchors and tag handles. -/
def isNameChar (ch : Char) : Bool := ch.isAlphanum || ch = '-' || ch = '_'

/-- Read the name of an anchor or alias behind its indicator. -/
def anchorName (c : Cursor) : Except Fault (String × Cursor) :=
  let (name, c) := c.takeWhile isNameChar
  let closes (ch : Char) : Bool := isSpaceOrTab ch || isBreak ch || "?:,]\x7d%@`".toList.contains ch
  if name.isEmpty || !c.endsOr 0 closes then .error .malformed
  else .ok (String.ofList name, c)

/-- Read the handle of a tag, from one exclamation mark to another. -/
def tagHandle (c : Cursor) : Except Fault (String × Cursor) :=
  if !c.isAt '!' then .error .malformed
  else if c.peek 1 = some ' ' then .ok ("!", c.next)
  else
    let (name, c) := c.next.takeWhile isNameChar
    if c.isAt '!' then .ok ("!" ++ String.ofList name ++ "!", c.next) else .error .malformed

/-- A character of the rest of a tag. -/
def isTagChar (ch : Char) : Bool :=
  ch.isAlphanum || "-;/?:@&=+$,_.!~*'()[]".toList.contains ch

/-- Bytes of an escaped part of a tag: two hexadecimal digits behind each percent sign. -/
def tagBytes (done : List UInt8) : Nat → Cursor → Except Fault (List UInt8 × Cursor)
  | 0, _ => .error .malformed
  | fuel + 1, c =>
    if c.isAt '%' then
      match c.next.rest with
      | a :: b :: _ =>
        match hexNumber? [a, b] with
        | some n => tagBytes (done ++ [n.toUInt8]) fuel (c.advance 3)
        | none => .error .malformed
      | _ => .error .malformed
    else .ok (done, c)

/-- Read the rest of a tag, in which bytes may be escaped. -/
def tagText (decode : List UInt8 → Option (List Char)) (done : List Char) :
    Nat → Cursor → Except Fault (List Char × Cursor)
  | 0, _ => .error .malformed
  | fuel + 1, c =>
    let (run, c) := c.takeWhile isTagChar
    let done := done ++ run
    if c.isAt '%' then do
      let (bytes, c) ← tagBytes [] (c.rest.length + 1) c
      match decode bytes with
      | some cs => tagText decode (done ++ cs) fuel c
      | none => .error .malformed
    else .ok (done, c)

/-- Read the rest of a tag, which must not be empty. -/
def tagSuffix (decode : List UInt8 → Option (List Char)) (c : Cursor) :
    Except Fault (String × Cursor) := do
  let (text, rest) ← tagText decode [] (c.rest.length + 1) c
  if rest.index = c.index then throw .malformed
  return (String.ofList text, rest)

/-- A space or the end of the line follows. -/
def closesWord (c : Cursor) : Bool := c.endsOr 0 fun ch => ch = ' ' || isBreak ch

/-- A handle stands between this exclamation mark and the next on the line. -/
def hasHandle (cs : List Char) : Bool :=
  (cs.takeWhile fun ch => ch ≠ ' ' && !isBreak ch).contains '!'

/-- Read a tag whose exclamation mark stands here. -/
def tagToken (decode : List UInt8 → Option (List Char)) (c : Cursor) :
    Except Fault (Token × Cursor) := do
  let (token, c) ←
    if c.peek 1 = some '<' then do
      let (suffix, c) ← tagSuffix decode (c.advance 2)
      if !c.isAt '>' then throw .malformed
      pure (Token.tag none suffix, c.next)
    else if c.blankAt 1 then pure (Token.tag none "!", c.next)
    else if hasHandle c.next.rest then do
      let (handle, c) ← tagHandle c
      let (suffix, c) ← tagSuffix decode c
      pure (Token.tag (some handle) suffix, c)
    else do
      let (suffix, c) ← tagSuffix decode c.next
      pure (Token.tag (some "!") suffix, c)
  if closesWord c then return (token, c) else throw .malformed

/-- A number as decimal digits give it. -/
def decimalNumber (digits : List Char) : Nat :=
  digits.foldl (fun n c => n * 10 + (c.toNat - 48)) 0

/-- Read a number of a version. -/
def versionNumber (c : Cursor) : Except Fault (Nat × Cursor) :=
  let (digits, c) := c.takeWhile fun ch => '0' ≤ ch && ch ≤ '9'
  if digits.isEmpty then .error .malformed else .ok (decimalNumber digits, c)

/-- Read what a directive of the given name says. -/
def directiveContent (decode : List UInt8 → Option (List Char)) (name : String) (c : Cursor) :
    Except Fault (Directive × Cursor) := do
  if name = "YAML" then
    let (major, c) ← versionNumber (c.skipWhile (· = ' '))
    if !c.isAt '.' then throw .malformed
    let (_, c) ← versionNumber c.next
    if closesWord c then return (.version major, c) else throw .malformed
  else if name = "TAG" then
    let (handle, c) ← tagHandle (c.skipWhile (· = ' '))
    if !c.isAt ' ' then throw .malformed
    let (tagPrefix, c) ← tagSuffix decode (c.skipWhile (· = ' '))
    if closesWord c then return (.tag handle tagPrefix, c) else throw .malformed
  else return (.other, c.skipWhile (!isBreak ·))

/-- Read a directive whose percent sign stands here, and the end of its line. -/
def directiveToken (decode : List UInt8 → Option (List Char)) (c : Cursor) :
    Except Fault (Token × Cursor) := do
  let (name, c) := c.next.takeWhile isNameChar
  if name.isEmpty || !closesWord c then throw .malformed
  let (content, c) ← directiveContent decode (String.ofList name) c
  return (.directive content, ← c.finishLine)

end ContextLint.Yaml
