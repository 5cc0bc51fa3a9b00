import Preflight.Json.Basic

/-!
# From values to records

A record is read from an object, by the names of its fields, or from an array, by their order.
Unknown fields of an object are skipped.  `fields?` gives what stands for each field, so that a
reader says for each of them whether it is required, may be null, or has a default.
-/

namespace Preflight.Json

/-- What data formats disagree on. -/
structure Conventions where
  /-- An array may hold more items than the record has fields. -/
  surplusItems : Bool
  /-- The payload of a choice without content, where a choice is written as a table. -/
  isUnit : Value → Bool

namespace Conventions

/-- The conventions of JSON documents. -/
def json : Conventions where
  surplusItems := false
  isUnit
    | .null => true
    | _ => false

/-- The conventions of TOML documents, in which nothing is null. -/
def toml : Conventions where
  surplusItems := true
  isUnit
    | .array [] | .object [] => true
    | _ => false

end Conventions

namespace Value

/-- The values of the named fields, absent ones as `none`. -/
def fieldsOfObject (names : List String) (fields : List (String × Value)) : List (Option Value) :=
  names.map fun name => fields.lookup name

/-- The first `n` items, absent ones as `none`. -/
def fieldsOfArray (items : List Value) (n : Nat) : List (Option Value) :=
  (List.range n).map (items[·]?)

/-- The fields of a record all of whose fields have to be there when it is an array. -/
def fields? (names : List String) : Value → Option (List (Option Value))
  | object fields => some (fieldsOfObject names fields)
  | array items =>
    if items.length = names.length then some (fieldsOfArray items names.length) else none
  | _ => none

/-- The fields of a record that has a default for each field. -/
def fieldsOrDefault? (c : Conventions) (names : List String) :
    Value → Option (List (Option Value))
  | object fields => some (fieldsOfObject names fields)
  | array items =>
    if c.surplusItems || items.length ≤ names.length then some (fieldsOfArray items names.length)
    else none
  | _ => none

/-- A string. -/
def string? : Value → Option String
  | string s => some s
  | _ => none

/-- A truth value. -/
def bool? : Value → Option Bool
  | bool b => some b
  | _ => none

/-- A whole number from `low` to `high`. -/
def intIn? (low high : Int) : Value → Option Int
  | number (.int n) => if low ≤ n ∧ n ≤ high then some n else none
  | _ => none

/-- A whole number of at most `bits` bits. -/
def natIn? (bits : Nat) (v : Value) : Option Nat :=
  (v.intIn? 0 ((1 <<< bits : Nat) - 1)).map Int.toNat

/-- A list all of whose items can be read. -/
def list? {α : Type} (item? : Value → Option α) : Value → Option (List α)
  | array items => items.mapM item?
  | _ => none

/-- One of several choices, by its name, or as an object of that name without content. -/
def choice? {α : Type} (c : Conventions) (named? : String → Option α) : Value → Option α
  | string s => named? s
  | object [(name, payload)] => if c.isUnit payload then named? name else none
  | _ => none

end Value

/-- A field that has to be there. -/
def required {α : Type} (read? : Value → Option α) (field : Option Value) : Option α :=
  field.bind read?

/-- A field that may be absent or null. -/
def nullable {α : Type} (read? : Value → Option α) : Option Value → Option (Option α)
  | none | some .null => some none
  | some v => (read? v).map some

/-- A field that has a default. -/
def orDefault {α : Type} (read? : Value → Option α) (default : α) : Option Value → Option α
  | none => some default
  | some v => read? v

end Preflight.Json
