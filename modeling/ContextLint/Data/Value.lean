/-!
# Values of settings files

The values that a settings file can hold. Of numbers and dates only the kind is kept, because no
setting takes them.
-/

namespace ContextLint.Data

/-- The kinds of points in time. -/
inductive TimeKind where
  | dateTime
  | date
  | time
  deriving DecidableEq, Repr, Inhabited

/-- A value. -/
inductive Value where
  | null
  | bool
  | int
  | float
  | str (text : String)
  /-- A text that holds half a character, by its code points. -/
  | brokenText (points : List Nat)
  | bytes (content : List UInt8)
  /-- A date, a time or both. -/
  | moment (kind : TimeKind)
  | tuple (items : List Value)
  | list (items : List Value)
  | set (items : List Value)
  | map (entries : List (Value × Value))
  deriving Inhabited

namespace Value

/-- Name of a value's kind, as messages give it. -/
def kindName : Value → String
  | null => "NoneType"
  | bool => "bool"
  | int => "int"
  | float => "float"
  | str _ | brokenText _ => "str"
  | bytes _ => "bytes"
  | moment .dateTime => "datetime.datetime"
  | moment .date => "datetime.date"
  | moment .time => "datetime.time"
  | tuple _ => "tuple"
  | list _ => "list"
  | set _ => "set"
  | map _ => "dict"

/-- Entries of a table with the given entry; a text that is a key already keeps its place. -/
def insertEntry (key : String) (value : Value) : List (String × Value) → List (String × Value)
  | [] => [(key, value)]
  | (k, v) :: rest => if k = key then (k, value) :: rest else (k, v) :: insertEntry key value rest

/-- The value under a text key. -/
def find? (key : String) : List (Value × Value) → Option Value
  | [] => none
  | (.str k, v) :: rest => if k = key then some v else find? key rest
  | _ :: rest => find? key rest

end Value

end ContextLint.Data
