/-!
# JSON values

Numbers are kept as whole numbers where they were written as such, otherwise as the 64 bits of a
double.  `1` and `1.0` are therefore different values.  The fields of an object are kept in the
order in which they were given; `Fields.ofList` gives the order of a document that has been read.
-/

namespace Preflight.Json

inductive Number where
  | int (value : Int)
  /-- A double, given by its bits. -/
  | double (bits : UInt64)
  deriving DecidableEq, Repr, Inhabited

inductive Value where
  | null
  | bool (b : Bool)
  | number (n : Number)
  | string (s : String)
  | array (items : List Value)
  | object (fields : List (String × Value))
  deriving Repr, Inhabited

namespace Number

/-- The bits of zero, whatever its sign. -/
def isZeroBits (bits : UInt64) : Bool := bits == 0 || bits == 0x8000000000000000

/-- Equal as numbers of the same form: both zeros of the doubles are equal. -/
def same : Number → Number → Bool
  | int a, int b => a == b
  | double a, double b => a == b || (isZeroBits a && isZeroBits b)
  | _, _ => false

end Number

namespace Value

mutual

/-- Equal as values. -/
def same : Value → Value → Bool
  | null, null => true
  | bool a, bool b => a == b
  | number a, number b => a.same b
  | string a, string b => a == b
  | array as, array bs => sameItems as bs
  | object as, object bs => sameFields as bs
  | _, _ => false

/-- Equal item by item. -/
def sameItems : List Value → List Value → Bool
  | [], [] => true
  | a :: as, b :: bs => same a b && sameItems as bs
  | _, _ => false

/-- Equal field by field. -/
def sameFields : List (String × Value) → List (String × Value) → Bool
  | [], [] => true
  | (k, a) :: as, (l, b) :: bs => k == l && same a b && sameFields as bs
  | _, _ => false

end

/-- The value of a field, if this is an object that has it. -/
def get? (name : String) : Value → Option Value
  | object fields => fields.lookup name
  | _ => none

end Value

namespace Fields

/-- Puts a field in its place in the order of names; a field of the same name gives way. -/
def insert (name : String) (value : Value) : List (String × Value) → List (String × Value)
  | [] => [(name, value)]
  | (other, old) :: fields =>
    if name < other then (name, value) :: (other, old) :: fields
    else if name = other then (name, value) :: fields
    else (other, old) :: insert name value fields

/-- The fields in the order of their names, each name once with its last value. -/
def ofList (fields : List (String × Value)) : List (String × Value) :=
  fields.foldl (fun sorted field => insert field.1 field.2 sorted) []

end Fields

end Preflight.Json
