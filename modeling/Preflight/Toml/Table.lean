import Preflight.Json.Basic

/-!
# Tables of a TOML document

A table can be opened in three ways: by a header of its own, by standing on the way of a longer
header or dotted key, or item by item as an array of tables.  Each table may be defined once, so
the tree remembers how a table came about.  The finished tree is a JSON value.
-/

namespace Preflight.Toml

open Json

/-- How a table came about. -/
structure Origin where
  /-- It only stood on the way to another table. -/
  implicit : Bool
  /-- It stood on the way of a dotted key. -/
  dotted : Bool
  deriving DecidableEq, Repr, Inhabited

/-- A table with a header of its own. -/
def Origin.header : Origin := ⟨false, false⟩

inductive Node where
  /-- A value; inline tables and arrays are closed and count as values. -/
  | leaf (v : Value)
  | table (origin : Origin) (entries : List (String × Node))
  /-- An array of tables, the latest one first. -/
  | tables (items : List (List (String × Node)))
  deriving Repr, Inhabited

/-- The entries of a table, in the order of their definition. -/
abbrev Entries := List (String × Node)

namespace Node

mutual

/-- The value of a node. -/
def toValue : Node → Value
  | leaf v => v
  | table _ entries => .object (Fields.ofList (entryValues entries))
  | tables items => .array (itemValues items).reverse

/-- The values of entries. -/
def entryValues : List (String × Node) → List (String × Value)
  | [] => []
  | (key, node) :: entries => (key, toValue node) :: entryValues entries

/-- The values of tables. -/
def itemValues : List (List (String × Node)) → List Value
  | [] => []
  | entries :: items => .object (Fields.ofList (entryValues entries)) :: itemValues items

end

end Node

namespace Entries

/-- The table of some entries as a value. -/
def toValue (entries : Entries) : Value := .object (Fields.ofList (Node.entryValues entries))

/-- Puts a node under a key: in place of the old one, or else at the end. -/
def set (key : String) (node : Node) : Entries → Entries
  | [] => [(key, node)]
  | (other, old) :: entries =>
    if other = key then (key, node) :: entries else (other, old) :: set key node entries

/-- Changes the entries of the table at the end of a path.  Missing tables on the way are made.
A dotted path does not lead into a table that a header has defined, and an array of tables stands
for its latest table.  `origin` is that of the table where the path starts. -/
def modifyAt (dotted : Bool) (change : Origin → Entries → Option Entries) (origin : Origin) :
    List String → Entries → Option Entries
  | [], entries => change origin entries
  | key :: path, entries =>
    match entries.lookup key with
    | none => do
      let made : Origin := ⟨true, dotted⟩
      return set key (.table made (← modifyAt dotted change made path [])) entries
    | some (.leaf _) => none
    | some (.table o inner) =>
      if dotted && !o.implicit then none
      else do return set key (.table o (← modifyAt dotted change o path inner)) entries
    | some (.tables (last :: items)) => do
      return set key (.tables ((← modifyAt dotted change .header path last) :: items)) entries
    | some (.tables []) => none

/-- Adds a value under a dotted key, whose last part is `key`.  The value must be new, and tables
that dotted keys make are not mixed with other tables. -/
def addValue (path : List String) (key : String) (v : Value) (origin : Origin)
    (entries : Entries) : Option Entries :=
  modifyAt true
    (fun o inner =>
      if o.dotted = path.isEmpty ∨ (inner.lookup key).isSome then none
      else some (inner ++ [(key, .leaf v)]))
    origin path entries

/-- Defines the table of a header, whose last part is `key`.  A table that only stood on the way
to another one may still be defined. -/
def openTable (path : List String) (key : String) (entries : Entries) : Option Entries :=
  modifyAt false
    (fun _ inner =>
      match inner.lookup key with
      | none => some (inner ++ [(key, .table .header [])])
      | some (.table ⟨true, false⟩ old) => some (set key (.table .header old) inner)
      | some _ => none)
    .header path entries

/-- Adds a table to the array of a header, whose last part is `key`. -/
def openItem (path : List String) (key : String) (entries : Entries) : Option Entries :=
  modifyAt false
    (fun _ inner =>
      match inner.lookup key with
      | none => some (inner ++ [(key, .tables [[]])])
      | some (.tables items) => some (set key (.tables ([] :: items)) inner)
      | some _ => none)
    .header path entries

end Entries

end Preflight.Toml
