import ContextLint.Yaml.Cursor

/-!
# Tags of YAML nodes

A plain scalar without a tag gets one by its form: null, truth value, number, date, the two special
keys, or else text.
-/

namespace ContextLint.Yaml

/-- The types that a node may have. -/
inductive Tag where
  | null
  | bool
  | int
  | float
  | binary
  | timestamp
  | omap
  | pairs
  | set
  | str
  | seq
  | map
  | merge
  | value
  /-- A tag without a known type. -/
  | unknown
  deriving DecidableEq, Repr, Inhabited

/-- Names of the known types. -/
def Tag.known : List (String × Tag) :=
  [("null", .null), ("bool", .bool), ("int", .int), ("float", .float), ("binary", .binary),
   ("timestamp", .timestamp), ("omap", .omap), ("pairs", .pairs), ("set", .set), ("str", .str),
   ("seq", .seq), ("map", .map), ("merge", .merge), ("value", .value)]

/-- What all names of known types start with. -/
def Tag.namespaceName : String := "tag:yaml.org,2002:"

/-- The type that a full tag names. -/
def Tag.ofText (text : String) : Tag :=
  ((Tag.known.find? fun p => Tag.namespaceName ++ p.1 = text).map Prod.snd).getD .unknown

/-- Truth values. -/
def boolWords : List String :=
  ["yes", "Yes", "YES", "no", "No", "NO", "true", "True", "TRUE", "false", "False", "FALSE", "on",
   "On", "ON", "off", "Off", "OFF"]

/-- Spellings of null. -/
def nullWords : List String := ["", "~", "null", "Null", "NULL"]

/-- A decimal digit. -/
def isDigit (c : Char) : Bool := '0' ≤ c && c ≤ '9'

/-- A decimal digit or an underscore. -/
def isLooseDigit (c : Char) : Bool := isDigit c || c = '_'

/-- Drop a sign. -/
def dropSign : List Char → List Char
  | '+' :: rest | '-' :: rest => rest
  | cs => cs

/-- All characters are of a class, and there is one. -/
def allOf (p : Char → Bool) (cs : List Char) : Bool := !cs.isEmpty && cs.all p

/-- The text is empty or an exponent with a sign. -/
def isExponent : List Char → Bool
  | [] => true
  | e :: sign :: digits => (e = 'e' || e = 'E') && (sign = '+' || sign = '-') && allOf isDigit digits
  | _ => false

/-- Groups of one or two digits below sixty, each behind a colon; what follows them must pass a
test. -/
def sixties (tail : List Char → Bool) : List Char → Bool
  | ':' :: a :: rest =>
    isDigit a &&
      (tail rest || sixties tail rest ||
        match rest with
        | b :: rest' => a ≤ '5' && isDigit b && (tail rest' || sixties tail rest')
        | [] => false)
  | _ => false

/-- Digits that start with a digit, followed by something that passes a test. -/
def digitsThen (tail : List Char → Bool) : List Char → Bool
  | c :: rest => isDigit c && tail (rest.dropWhile isLooseDigit)
  | [] => false

/-- A point, loose digits and an optional exponent. -/
def fractionAndExponent : List Char → Bool
  | '.' :: rest => isExponent (rest.dropWhile isLooseDigit)
  | _ => false

/-- A point and loose digits. -/
def fractionOnly : List Char → Bool
  | '.' :: rest => rest.all isLooseDigit
  | _ => false

/-- The words for an infinite number. -/
def infWords : List (List Char) := [".inf", ".Inf", ".INF"].map String.toList

/-- The words for no number. -/
def nanWords : List (List Char) := [".nan", ".NaN", ".NAN"].map String.toList

/-- The text is a number with a fraction. -/
def isFloat (cs : List Char) : Bool :=
  let body := dropSign cs
  digitsThen fractionAndExponent body || digitsThen (sixties fractionOnly) body ||
    infWords.contains body || nanWords.contains cs ||
    match cs with
    | '.' :: rest => digitsThen isExponent rest
    | _ => false

/-- The text is a whole number. -/
def isInt (cs : List Char) : Bool :=
  match dropSign cs with
  | ['0'] => true
  | '0' :: 'b' :: rest => allOf (fun c => c = '0' || c = '1' || c = '_') rest
  | '0' :: 'x' :: rest =>
    allOf (fun c => isLooseDigit c || ('a' ≤ c && c ≤ 'f') || ('A' ≤ c && c ≤ 'F')) rest
  | '0' :: rest => allOf (fun c => ('0' ≤ c && c ≤ '7') || c = '_') rest
  | body => digitsThen (fun rest => rest.isEmpty || sixties List.isEmpty rest) body

/-- Read a number of at least `low` and at most `high` digits. -/
def someDigits (low high : Nat) (cs : List Char) : Option (Nat × List Char) :=
  let digits := (cs.takeWhile isDigit).take high
  if low ≤ digits.length then
    some (digits.foldl (fun n c => n * 10 + (c.toNat - 48)) 0, cs.drop digits.length)
  else none

/-- Drop a given character. -/
def expect (ch : Char) : List Char → Option (List Char)
  | c :: rest => if c = ch then some rest else none
  | [] => none

/-- A blank between the parts of a date. -/
def isDateBlank (c : Char) : Bool := c = ' ' || c = '\t'

/-- A date, with a time of day if it has one. -/
structure Stamp where
  year : Nat
  month : Nat
  day : Nat
  /-- Hour, minute and second. -/
  time : Option (Nat × Nat × Nat) := none
  deriving DecidableEq, Repr, Inhabited

/-- The text is empty or a distance to universal time. -/
def isZone (cs : List Char) : Bool :=
  match cs.dropWhile isDateBlank with
  | [] => cs.isEmpty
  | ['Z'] => true
  | sign :: rest =>
    (sign = '+' || sign = '-') &&
      match someDigits 1 2 rest with
      | some (_, []) => true
      | some (_, ':' :: rest) => rest.length = 2 && rest.all isDigit
      | _ => false

/-- Read the time of day behind a date. -/
def stampTime (cs : List Char) : Option (Nat × Nat × Nat) := do
  let cs ← match cs with
    | 'T' :: rest | 't' :: rest => some rest
    | c :: rest => if isDateBlank c then some (rest.dropWhile isDateBlank) else none
    | [] => none
  let (hour, cs) ← someDigits 1 2 cs
  let (minute, cs) ← someDigits 2 2 (← expect ':' cs)
  let (second, cs) ← someDigits 2 2 (← expect ':' cs)
  let cs := match cs with
    | '.' :: rest => rest.dropWhile isDigit
    | _ => cs
  if isZone cs then some (hour, minute, second) else none

/-- Read a date. Without a time it has two digits for the month and the day. -/
def stamp? (cs : List Char) : Option Stamp := do
  let (year, rest) ← someDigits 4 4 cs
  let (month, rest) ← someDigits 1 2 (← expect '-' rest)
  let (day, rest) ← someDigits 1 2 (← expect '-' rest)
  if rest.isEmpty then
    if cs.length = 10 then some { year, month, day } else none
  else
    let time ← stampTime rest
    some { year, month, day, time := some time }

/-- The tag of a plain scalar. -/
def plainTag (text : List Char) : Tag :=
  let word := String.ofList text
  if boolWords.contains word then .bool
  else if isFloat text then .float
  else if isInt text then .int
  else if word = "<<" then .merge
  else if nullWords.contains word then .null
  else if (stamp? text).isSome then .timestamp
  else if word = "=" then .value
  else .str

end ContextLint.Yaml
