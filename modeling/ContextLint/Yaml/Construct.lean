import ContextLint.Data.Value
import ContextLint.Yaml.Node

/-!
# Values of YAML nodes

A node becomes a value by its type. Merge keys bring in the pairs of other mappings, before the
mapping's own; of several pairs with one key the last counts.
-/

namespace ContextLint.Yaml

open Data

/-- Value of a letter of the base 64 alphabet. -/
def base64Digit? (c : Char) : Option Nat :=
  if 'A' ≤ c && c ≤ 'Z' then some (c.toNat - 65)
  else if 'a' ≤ c && c ≤ 'z' then some (c.toNat - 71)
  else if '0' ≤ c && c ≤ '9' then some (c.toNat + 4)
  else if c = '+' then some 62
  else if c = '/' then some 63
  else none

/-- Bytes of a text in base 64: `held` holds the bits of the current group of four letters, of which
`count` have been read. Other characters are passed over; the last group must be padded. -/
def base64 (done : List UInt8) (held count pads : Nat) : List Char → Option (List UInt8)
  | [] => if count = 0 then some done.reverse else none
  | c :: rest =>
    if c = '=' then
      if 2 ≤ count && 4 ≤ count + pads + 1 then some done.reverse
      else base64 done held count (if 2 ≤ count then pads + 1 else pads) rest
    else
      match base64Digit? c with
      | none => base64 done held count pads rest
      | some d =>
        if count = 0 then base64 done d 1 0 rest
        else if count = 1 then
          base64 ((held * 4 + d / 16).toUInt8 :: done) (d % 16) 2 0 rest
        else if count = 2 then base64 ((held * 16 + d / 4).toUInt8 :: done) (d % 4) 3 0 rest
        else base64 ((held * 64 + d).toUInt8 :: done) 0 0 0 rest

/-- Days of a month. -/
def daysIn (year month : Nat) : Nat :=
  if month = 2 then
    if year % 4 = 0 && (year % 100 ≠ 0 || year % 400 = 0) then 29 else 28
  else if month = 4 || month = 6 || month = 9 || month = 11 then 30
  else 31

/-- The fault of a number out of its range. -/
def outOfRange (message : String) : Fault := .value .noValue message

/-- The point in time that a date gives, which must exist. -/
def Stamp.check (s : Stamp) : Except Fault Value := do
  if s.year = 0 then throw (outOfRange "year 0 is out of range")
  if s.month = 0 || 12 < s.month then throw (outOfRange "month must be in 1..12")
  if s.day = 0 || daysIn s.year s.month < s.day then
    throw (outOfRange "day is out of range for month")
  match s.time with
  | none => return .moment .date
  | some (hour, minute, second) =>
    if 23 < hour then throw (outOfRange "hour must be in 0..23")
    if 59 < minute then throw (outOfRange "minute must be in 0..59")
    if 59 < second then throw (outOfRange "second must be in 0..59")
    return .moment .dateTime

/-- A text between apostrophes. -/
def apostrophes (text : String) : String := "'" ++ text ++ "'"

/-- The code points of a scalar. -/
def Scalar.points (s : Scalar) : List Nat :=
  s.text.zipIdx.map fun (c, i) => (s.halves.lookup i).getD c.toNat

/-- The value of a scalar of a type. A tag may force a type on a text that is none of its values. -/
def scalarValue (tag : Tag) (s : Scalar) : Except Fault Value :=
  let text := String.ofList s.text
  match tag with
  | .null => .ok .null
  | .str => .ok (if s.halves.isEmpty then .str text else .brokenText s.points)
  | .bool =>
    if boolWords.any (·.toLower = text.toLower) then .ok .bool
    else .error (.value .noWord (apostrophes text.toLower))
  | .int =>
    if isInt s.text then .ok .int
    else .error (.value .noValue
      ("invalid literal for int() with base 10: " ++ apostrophes text))
  | .float =>
    if isFloat s.text || isInt s.text then .ok .float
    else .error (.value .noValue
      ("could not convert string to float: " ++ apostrophes text))
  | .timestamp =>
    match stamp? s.text with
    | some stamp => stamp.check
    | none =>
      .error (.value .noMatch "'NoneType' object has no attribute 'groupdict'")
  | .binary =>
    if s.text.all fun c => c.toNat < 128 then
      match base64 [] 0 0 0 s.text with
      | some bytes => .ok (.bytes bytes)
      | none => .error .malformed
    else .error .malformed
  | _ => .error .malformed

/-- The value may be a key. -/
def isHashable : Value → Bool
  | .list _ | .set _ | .map _ => false
  | _ => true

/-- Add a pair; a text that is a key already keeps its place and gets the new value. -/
def addPair (key value : Value) : List (Value × Value) → List (Value × Value)
  | [] => [(key, value)]
  | (k, v) :: rest =>
    match k, key with
    | .str a, .str b =>
      if a = b then (k, value) :: rest else (k, v) :: addPair key value rest
    | _, _ => (k, v) :: addPair key value rest

/-- The pairs as a table. -/
def tableOf (pairs : List (Value × Value)) : List (Value × Value) :=
  pairs.foldl (fun t p => addPair p.1 p.2 t) []

/-- Pairs of a mapping: those brought in by merge keys and its own. -/
structure Pairs where
  /-- Pairs of other mappings. -/
  merged : List (Value × Value) := []
  /-- Own pairs. -/
  own : List (Value × Value) := []
  deriving Inhabited

/-- All pairs. -/
def Pairs.all (p : Pairs) : List (Value × Value) := p.merged ++ p.own

mutual

/-- The value of a node. -/
def construct : Node → Except Fault Value
  | .scalar tag s => scalarValue tag s
  | .sequence .seq items => do return .list (← constructAll items)
  | .sequence .omap items | .sequence .pairs items => do return .list (← constructPairs items)
  | .sequence _ _ => .error .malformed
  | .mapping .map pairs => do return .map (tableOf (← constructMapping pairs {}).all)
  | .mapping .set pairs => do
    return .set ((tableOf (← constructMapping pairs {}).all).map Prod.fst)
  | .mapping tag pairs => constructScalarOf tag pairs

/-- The values of nodes in order. -/
def constructAll : List Node → Except Fault (List Value)
  | [] => .ok []
  | n :: rest => do
    let v ← construct n
    return v :: (← constructAll rest)

/-- The values of mappings with a single pair each. -/
def constructPairs : List Node → Except Fault (List Value)
  | [] => .ok []
  | .mapping _ [(k, v)] :: rest => do
    let k ← construct k
    let v ← construct v
    return .tuple [k, v] :: (← constructPairs rest)
  | _ => .error .malformed

/-- The value of a mapping that stands for a scalar: that of its default key. -/
def constructScalarOf (tag : Tag) : List (Node × Node) → Except Fault Value
  | [] => .error .malformed
  | (.scalar .value _, .scalar _ s) :: _ => scalarValue tag s
  | (.scalar .value _, .mapping _ pairs) :: _ => constructScalarOf tag pairs
  | (.scalar .value _, .sequence ..) :: _ => .error .malformed
  | _ :: rest => constructScalarOf tag rest

/-- The pairs of a mapping behind those already found. -/
def constructMapping : List (Node × Node) → Pairs → Except Fault Pairs
  | [], found => .ok found
  | (.scalar .merge _, .mapping _ pairs) :: rest, found => do
    let inner ← constructMapping pairs {}
    constructMapping rest { found with merged := found.merged ++ inner.all }
  | (.scalar .merge _, .sequence _ items) :: rest, found => do
    let inner ← constructMerged items
    constructMapping rest { found with merged := found.merged ++ inner }
  | (.scalar .merge _, .scalar ..) :: _, _ => .error .malformed
  | (k, v) :: rest, found => do
    let key ← constructKey k
    if !isHashable key then throw .malformed
    let value ← construct v
    constructMapping rest { found with own := found.own ++ [(key, value)] }

/-- The value of a key; the default key is a text here. -/
def constructKey : Node → Except Fault Value
  | .scalar .value s => scalarValue .str s
  | k => construct k

/-- The pairs of several mappings, those of the last first. -/
def constructMerged : List Node → Except Fault (List (Value × Value))
  | [] => .ok []
  | .mapping _ pairs :: rest => do
    let inner ← constructMapping pairs {}
    return (← constructMerged rest) ++ inner.all
  | _ => .error .malformed

end

/-- The value of a text; nothing stands for an empty one. -/
def parse (text : List Char) : Except Fault Value := do
  match ← compose text with
  | none => return .null
  | some n => construct n

end ContextLint.Yaml
