import Preflight.Encoding.Utf8
import Preflight.Text.Lines

/-!
# Addresses

What is sent of an address is its path and its query.  Characters that may not stand there are
written as percent signs with the hexadecimal digits of their UTF-8 bytes, and path segments of dots
are resolved.  The fragment behind a number sign is not sent.
-/

namespace Preflight

/-- The parts of an address behind the name of the server. -/
structure Resource where
  path : List Char
  query : Option (List Char)
  fragment : Option (List Char)
  deriving DecidableEq, Repr, Inhabited

namespace Resource

/-- A hexadecimal digit in upper case. -/
def upperHexDigit (n : Nat) : Char := (Nat.digitChar (n % 16)).toUpper

/-- A byte as a percent sign and two digits. -/
def percentByte (b : UInt8) : List Char :=
  ['%', upperHexDigit (b.toNat / 16), upperHexDigit b.toNat]

/-- Writes every character that is no printable ASCII character, or is one of `reserved`, as percent
signs and digits. -/
def percentEncode (reserved : List Char) (cs : List Char) : List Char :=
  cs.flatMap fun c =>
    if c < ' ' ∨ '~' < c ∨ c ∈ reserved then (Utf8.encodeChar c).flatMap percentByte else [c]

/-- What may not stand in a path. -/
def reservedInPath : List Char := [' ', '"', '#', '<', '>', '?', '^', Char.ofNat 0x60, '{', '}']

/-- What may not stand in a query. -/
def reservedInQuery : List Char := [' ', '"', '#', '<', '>', '\'']

/-- What may not stand in a fragment. -/
def reservedInFragment : List Char := [' ', '"', '<', '>', Char.ofNat 0x60]

/-- A segment with its dots written as dots. -/
def plainDots : List Char → List Char
  | '%' :: '2' :: 'e' :: cs | '%' :: '2' :: 'E' :: cs => '.' :: plainDots cs
  | c :: cs => c :: plainDots cs
  | [] => []

/-- Resolves segments of dots.  `above` are the segments in front, the nearest first. -/
def resolveDots (above : List (List Char)) : List (List Char) → List (List Char)
  | [] => above.reverse
  | [last] =>
    if plainDots last = ['.', '.'] then (above.drop 1).reverse ++ [[]]
    else if plainDots last = ['.'] then above.reverse ++ [[]]
    else above.reverse ++ [last]
  | segment :: segments =>
    if plainDots segment = ['.', '.'] then resolveDots (above.drop 1) segments
    else if plainDots segment = ['.'] then resolveDots above segments
    else resolveDots (segment :: above) segments

/-- Reads what follows the name of the server.  Tabs and line breaks count for nothing, neither do
blanks at the end, and a backslash is a slash. -/
def ofText (text : String) : Resource :=
  let kept := text.toList.filter fun c => c ≠ '\t' ∧ c ≠ '\n' ∧ c ≠ '\r'
  let kept := (kept.reverse.dropWhile fun c => c ≤ ' ').reverse
  let (front, fragment) := kept.span (· ≠ '#')
  let (path, query) := front.span (· ≠ '?')
  let slashed := path.map fun c => if c = '\\' then '/' else c
  { path := '/' :: List.intercalate ['/'] (resolveDots [] (List.splitOn '/' (slashed.drop 1)))
    query := if query.isEmpty then none else some (query.drop 1)
    fragment := if fragment.isEmpty then none else some (fragment.drop 1) }

/-- What is sent of the address. -/
def sent (r : Resource) : List Char :=
  percentEncode reservedInPath r.path ++
    match r.query with
    | some query => '?' :: percentEncode reservedInQuery query
    | none => []

/-- The address behind the name of the server. -/
def shown (r : Resource) : List Char :=
  r.sent ++
    match r.fragment with
    | some fragment => '#' :: percentEncode reservedInFragment fragment
    | none => []

end Resource

end Preflight
