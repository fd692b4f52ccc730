import ContextLint.Data.Value
import ContextLint.Toml.Text

/-!
# Tables under construction

A document is built up table by table. Keys lead through tables and, in an array of tables, through
its last table. Values written out in place are closed: no key leads into them.
-/

namespace ContextLint.Toml

open Data

/-- A part of a document under construction. -/
inductive Item where
  /-- A value written out in place. -/
  | leaf (value : Value)
  | table (entries : List (String × Item))
  /-- An array of tables, the last first. -/
  | tables (items : List Item)

instance : Inhabited Item := ⟨.table []⟩

mutual

/-- The finished value. -/
def Item.value : Item → Value
  | .leaf v => v
  | .table entries => .map (entryValues entries)
  | .tables items => .list (itemValues items).reverse

/-- The finished values of entries. -/
def entryValues : List (String × Item) → List (Value × Value)
  | [] => []
  | (k, i) :: rest => (.str k, i.value) :: entryValues rest

/-- The finished values of items. -/
def itemValues : List Item → List Value
  | [] => []
  | i :: rest => i.value :: itemValues rest

end

/-- Entries of a table. -/
abbrev Entries := List (String × Item)

/-- Replace the entry of a name or add one behind the others. -/
def setItem (name : String) (item : Item) : Entries → Entries
  | [] => [(name, item)]
  | (n, i) :: rest => if n = name then (n, item) :: rest else (n, i) :: setItem name item rest

/-- Change the entries that a key leads to, creating tables on the way; nothing if the key leads
through something else. -/
def changeAt (f : Entries → Option Entries) : Key → Entries → Option Entries
  | [], entries => f entries
  | name :: rest, entries =>
    match entries.lookup name with
    | none => (changeAt f rest []).map fun inner => setItem name (.table inner) entries
    | some (.table inner) =>
      (changeAt f rest inner).map fun inner => setItem name (.table inner) entries
    | some (.tables (.table last :: before)) =>
      (changeAt f rest last).map fun last =>
        setItem name (.tables (.table last :: before)) entries
    | some _ => none

/-- Give a new name a value. -/
def addLeaf (name : String) (v : Value) (entries : Entries) : Option Entries :=
  match entries.lookup name with
  | some _ => none
  | none => some (setItem name (.leaf v) entries)

/-- Start a further table of an array of tables. -/
def addTable (name : String) (entries : Entries) : Option Entries :=
  match entries.lookup name with
  | none => some (setItem name (.tables [.table []]) entries)
  | some (.tables items) => some (setItem name (.tables (.table [] :: items)) entries)
  | some _ => none

/-- A value that holds others, which no key may change. -/
def isNested : Value → Bool
  | .map _ | .list _ => true
  | _ => false

/-- The key leads into or through one of the closed keys. -/
def leadsInto (closed : List Key) (k : Key) : Bool := closed.any (·.isPrefixOf k)

/-- Add the pairs of a table written out in place. -/
def inlineEntries (closed : List Key) : List (Key × Value) → Entries → Option Entries
  | [], entries => some entries
  | (k, v) :: rest, entries =>
    if leadsInto closed k then none
    else
      match changeAt (addLeaf (k.getLastD "") v) k.dropLast entries with
      | some entries => inlineEntries (if isNested v then k :: closed else closed) rest entries
      | none => none

/-- A table written out in place. -/
def inlineTable (pairs : List (Key × Value)) : Option Value :=
  (inlineEntries [] pairs []).map fun entries => (Item.table entries).value

end ContextLint.Toml
