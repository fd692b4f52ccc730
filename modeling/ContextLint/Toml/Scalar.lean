import ContextLint.Data.Value
import ContextLint.Toml.Text

/-!
# Numbers, dates and truth values of TOML documents

Only the kind of a number or date is kept, but its form is checked, and so is that a date exists.
-/

namespace ContextLint.Toml

open Data

/-- A decimal digit. -/
def isDigit (c : Char) : Bool := '0' ≤ c && c ≤ '9'

/-- Drop a digit and further ones, between which a single underscore may stand. -/
def digitsWith (ok : Char → Bool) : List Char → List Char
  | '_' :: c :: rest => if ok c then digitsWith ok rest else '_' :: c :: rest
  | c :: rest => if ok c then digitsWith ok rest else c :: rest
  | [] => []

/-- Drop at least one digit and what belongs to it. -/
def someDigits (ok : Char → Bool) : List Char → Option (List Char)
  | c :: rest => if ok c then some (digitsWith ok rest) else none
  | [] => none

/-- A number as decimal digits give it. -/
def number (digits : List Char) : Nat := digits.foldl (fun n c => n * 10 + (c.toNat - 48)) 0

/-- Read a number of two digits within bounds. -/
def twoDigits (low high : Nat) : Reader Nat
  | a :: b :: rest =>
    let n := number [a, b]
    if isDigit a && isDigit b && low ≤ n && n ≤ high then some (n, rest) else none
  | _ => none

/-- Drop a given character. -/
def expect (c : Char) : List Char → Option (List Char)
  | d :: rest => if d = c then some rest else none
  | [] => none

/-- Drop a time of day. -/
def time (cs : List Char) : Option (List Char) := do
  let (_, cs) ← twoDigits 0 23 cs
  let cs ← expect ':' cs
  let (_, cs) ← twoDigits 0 59 cs
  let cs ← expect ':' cs
  let (_, cs) ← twoDigits 0 59 cs
  match cs with
  | '.' :: d :: rest => if isDigit d then some (rest.dropWhile isDigit) else some cs
  | _ => some cs

/-- Drop the distance to universal time, if it is given. -/
def offset (cs : List Char) : List Char :=
  match cs with
  | 'Z' :: rest | 'z' :: rest => rest
  | sign :: rest =>
    if sign = '+' || sign = '-' then
      (do
        let (_, r) ← twoDigits 0 23 rest
        let r ← expect ':' r
        let (_, r) ← twoDigits 0 59 r
        return r : Option (List Char)).getD cs
    else cs
  | [] => []

/-- Days of a month. -/
def daysIn (year month : Nat) : Nat :=
  if month = 2 then
    if year % 4 = 0 && (year % 100 ≠ 0 || year % 400 = 0) then 29 else 28
  else if month = 4 || month = 6 || month = 9 || month = 11 then 30
  else 31

/-- Read the form of a date: year, month and day. -/
def dateForm : Reader (Nat × Nat × Nat) := fun cs => do
  let year := cs.take 4
  if year.length = 4 && year.all isDigit then
    let cs ← expect '-' (cs.drop 4)
    let (month, cs) ← twoDigits 1 12 cs
    let cs ← expect '-' cs
    let (day, cs) ← twoDigits 1 31 cs
    return ((number year, month, day), cs)
  else none

/-- What follows a date: a time with or without a distance. -/
def dateTail (cs : List Char) : TimeKind × List Char :=
  match cs with
  | c :: rest =>
    if c = 'T' || c = 't' || c = ' ' then
      match time rest with
      | some r => (.dateTime, offset r)
      | none => (.date, cs)
    else (.date, cs)
  | [] => (.date, [])

/-- Drop the digits behind a point, if there are some. -/
def fraction (cs : List Char) : List Char :=
  match cs with
  | '.' :: rest => (someDigits isDigit rest).getD cs
  | _ => cs

/-- Drop an exponent, if there is one. -/
def exponent (cs : List Char) : List Char :=
  match cs with
  | c :: rest =>
    if c = 'e' || c = 'E' then
      let digits := match rest with
        | s :: r => if s = '+' || s = '-' then r else rest
        | [] => rest
      (someDigits isDigit digits).getD cs
    else cs
  | [] => []

/-- Drop a sign. -/
def unsigned : List Char → List Char
  | '+' :: rest | '-' :: rest => rest
  | cs => cs

/-- Read a whole number in another base. -/
def basedInt : List Char → Option (List Char)
  | '0' :: 'x' :: rest => someDigits (fun c => (hexDigit? c).isSome) rest
  | '0' :: 'b' :: rest => someDigits (fun c => c = '0' || c = '1') rest
  | '0' :: 'o' :: rest => someDigits (fun c => '0' ≤ c && c ≤ '7') rest
  | _ => none

/-- Read a decimal number. -/
def decimal : Reader Value := fun cs =>
  let whole : Option (List Char) :=
    match unsigned cs with
    | '0' :: rest => some rest
    | cs => someDigits isDigit cs
  whole.map fun rest =>
    let tail := exponent (fraction rest)
    (if tail.length = rest.length then .int else .float, tail)

/-- Read one of the special numbers. -/
def special : Reader Value := fun cs =>
  match unsigned cs with
  | 'i' :: 'n' :: 'f' :: rest => some (.float, rest)
  | 'n' :: 'a' :: 'n' :: rest => some (.float, rest)
  | _ => none

/-- Read a number, a date or a time. -/
def numeric : Reader Value := fun cs =>
  match dateForm cs with
  | some ((year, month, day), rest) =>
    if 1 ≤ year && day ≤ daysIn year month then
      let (kind, rest) := dateTail rest
      some (.moment kind, rest)
    else none
  | none =>
    match time cs with
    | some rest => some (.moment .time, rest)
    | none =>
      match basedInt cs with
      | some rest => some (.int, rest)
      | none => (decimal cs).or (special cs)

/-- Read a value that holds no others. -/
def scalar : Reader Value := fun cs =>
  match cs with
  | '"' :: _ | '\'' :: _ => (quotedText true cs).map fun (s, rest) => (.str s, rest)
  | 't' :: 'r' :: 'u' :: 'e' :: rest => some (.bool, rest)
  | 'f' :: 'a' :: 'l' :: 's' :: 'e' :: rest => some (.bool, rest)
  | _ => numeric cs

end ContextLint.Toml
