import ContextLint.Text.Normal.Expansion
import ContextLint.Text.Normal.MarkClass
import ContextLint.Text.Normal.Pair
import ContextLint.Text.Normal.Variant
import Std.Data.HashMap

/-!
# Normal form of identifiers

Two spellings of one identifier have the same normal form: variants and ligatures are replaced by
the characters they stand for, marks are put in order, and letters are joined with their marks where
one character stands for both. A text in ASCII is its own normal form.
-/

namespace ContextLint.Text

/-- Variants and ligatures with the code points they stand for. -/
def expansions : Std.HashMap Nat (List Nat) :=
  let runs := variantRuns.flatMap fun (first, count, target) =>
    (List.range count).map fun n => (first + n, [target + n])
  let variants := (letterVariants ++ ideographVariants).flatMap fun (first, text) =>
    text.toList.zipIdx.map fun (c, n) => (first + n, [c.toNat])
  let texts := textExpansions.flatMap fun (first, texts) =>
    (texts.splitOn " ").zipIdx.map fun (text, n) => (first + n, text.toList.map Char.toNat)
  Std.HashMap.ofList (runs ++ variants ++ texts)

/-- The characters that a letter and a mark form, each with its letter and its mark. -/
def markedParts : List (Nat × Nat × Nat) :=
  markedLetters.flatMap fun (mark, letters, joined) =>
    (letters.toList.zip joined.toList).map fun (a, c) => (c.toNat, a.toNat, mark)

/-- The letter and the mark of a character. -/
def decompositions : Std.HashMap Nat (Nat × Nat) := Std.HashMap.ofList markedParts

/-- The characters that pairs form. -/
def compositions : Std.HashMap (Nat × Nat) Nat :=
  Std.HashMap.ofList (markedParts.map fun (c, a, mark) => ((a, mark), c))

/-- Numbers of the leading, middle and trailing parts of Korean syllables and the first code of
each. A syllable is written as one character, numbered by its parts. -/
structure SyllableLayout where
  /-- First syllable. -/
  syllable : Nat
  /-- First leading part. -/
  lead : Nat
  /-- First middle part. -/
  vowel : Nat
  /-- The code before the first trailing part. -/
  trail : Nat
  /-- Number of leading parts. -/
  leads : Nat
  /-- Number of middle parts. -/
  vowels : Nat
  /-- Number of trailing parts, none included. -/
  trails : Nat
  deriving Repr

/-- The Korean syllables. -/
def syllables : SyllableLayout := ⟨0xAC00, 0x1100, 0x1161, 0x11A7, 19, 21, 28⟩

namespace SyllableLayout

/-- The parts of a syllable. -/
def split? (l : SyllableLayout) (n : Nat) : Option (List Nat) :=
  if l.syllable ≤ n ∧ n < l.syllable + l.leads * l.vowels * l.trails then
    let i := n - l.syllable
    let t := i % l.trails
    some ([l.lead + i / (l.vowels * l.trails), l.vowel + i / l.trails % l.vowels] ++
      if t = 0 then [] else [l.trail + t])
  else none

/-- The syllable that a leading and a middle part form, or an open syllable and a trailing part. -/
def join? (l : SyllableLayout) (a b : Nat) : Option Nat :=
  if l.lead ≤ a ∧ a < l.lead + l.leads ∧ l.vowel ≤ b ∧ b < l.vowel + l.vowels then
    some (l.syllable + ((a - l.lead) * l.vowels + (b - l.vowel)) * l.trails)
  else if l.syllable ≤ a ∧ a < l.syllable + l.leads * l.vowels * l.trails ∧
      (a - l.syllable) % l.trails = 0 ∧ l.trail < b ∧ b < l.trail + l.trails then
    some (a + (b - l.trail))
  else none

end SyllableLayout

/-- Marks that a letter carries at most. -/
def maxMarks : Nat := 3

/-- Take up to `count` marks off a letter; what is left stands for itself or for other letters. -/
def takeMarks : (count : Nat) → Nat → List Nat
  | 0, n => expansions.getD n [n]
  | count + 1, n =>
    match decompositions[n]? with
    | some (letter, mark) => takeMarks count letter ++ [mark]
    | none => expansions.getD n [n]

/-- What a code point stands for. -/
def expand (n : Nat) : List Nat :=
  match syllables.split? n with
  | some parts => parts
  | none => takeMarks maxMarks n

/-- Class of a mark; zero for all other characters. -/
def markClass (n : Nat) : Nat :=
  match markClasses.find? fun (_, marks) => marks.holds n with
  | some (c, _) => c
  | none => 0

/-- Put a character behind those in front of it, before marks of a higher class. -/
def insertMark (n : Nat) : List Nat → List Nat
  | [] => [n]
  | last :: before =>
    if markClass n ≠ 0 ∧ markClass n < markClass last then last :: insertMark n before
    else n :: last :: before

/-- Put every group of marks in the order of their classes, equal ones in the order given. -/
def orderMarks (points : List Nat) : List Nat :=
  (points.foldl (fun done n => insertMark n done) []).reverse

/-- The character that two code points form. -/
def compose? (a b : Nat) : Option Nat :=
  match syllables.join? a b with
  | some n => some n
  | none => compositions[(a, b)]?

/-- Join marks with the letter before them. `held` are the marks since `letter` that stay, the last
first; a mark behind another of the same or a higher class does not reach the letter. -/
def joinMarks (letter : Nat) (held : List Nat) : List Nat → List Nat
  | [] => letter :: held.reverse
  | n :: rest =>
    let reaches := match held with
      | [] => true
      | m :: _ => markClass m < markClass n
    match if reaches then compose? letter n else none with
    | some joined => joinMarks joined held rest
    | none =>
      if markClass n = 0 then letter :: held.reverse ++ joinMarks n [] rest
      else joinMarks letter (n :: held) rest

/-- Join all letters with their marks. -/
def joinAll (points : List Nat) : List Nat :=
  match points with
  | [] => []
  | n :: rest => joinMarks n [] rest

/-- The normal form of an identifier. -/
def normalize (s : String) : String :=
  if s.toList.all fun c => c.toNat < 128 then s
  else
    let points := orderMarks (s.toList.flatMap fun c => expand c.toNat)
    String.ofList ((joinAll points).map Char.ofNat)

end ContextLint.Text
