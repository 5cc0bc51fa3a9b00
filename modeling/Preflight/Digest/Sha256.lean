/-!
# SHA-256

The 256-bit secure hash of a sequence of bytes, and its spelling in hexadecimal.  The message is
padded to blocks of sixteen 32-bit words; each block is expanded to a schedule of 64 words, which
64 rounds mix into the eight words of the state.
-/

namespace Preflight.Sha256

/-- The round constants: the first 32 fractional bits of the cube roots of the first 64 primes. -/
def roundConstants : List UInt32 :=
  [0x428a2f98, 0x71374491, 0xb5c0fbcf, 0xe9b5dba5, 0x3956c25b, 0x59f111f1, 0x923f82a4, 0xab1c5ed5,
   0xd807aa98, 0x12835b01, 0x243185be, 0x550c7dc3, 0x72be5d74, 0x80deb1fe, 0x9bdc06a7, 0xc19bf174,
   0xe49b69c1, 0xefbe4786, 0x0fc19dc6, 0x240ca1cc, 0x2de92c6f, 0x4a7484aa, 0x5cb0a9dc, 0x76f988da,
   0x983e5152, 0xa831c66d, 0xb00327c8, 0xbf597fc7, 0xc6e00bf3, 0xd5a79147, 0x06ca6351, 0x14292967,
   0x27b70a85, 0x2e1b2138, 0x4d2c6dfc, 0x53380d13, 0x650a7354, 0x766a0abb, 0x81c2c92e, 0x92722c85,
   0xa2bfe8a1, 0xa81a664b, 0xc24b8b70, 0xc76c51a3, 0xd192e819, 0xd6990624, 0xf40e3585, 0x106aa070,
   0x19a4c116, 0x1e376c08, 0x2748774c, 0x34b0bcb5, 0x391c0cb3, 0x4ed8aa4a, 0x5b9cca4f, 0x682e6ff3,
   0x748f82ee, 0x78a5636f, 0x84c87814, 0x8cc70208, 0x90befffa, 0xa4506ceb, 0xbef9a3f7, 0xc67178f2]

/-- The eight words that the rounds work on. -/
structure State where
  a : UInt32
  b : UInt32
  c : UInt32
  d : UInt32
  e : UInt32
  f : UInt32
  g : UInt32
  h : UInt32
  deriving DecidableEq, Repr

/-- The first 32 fractional bits of the square roots of the first eight primes. -/
def State.initial : State :=
  ⟨0x6a09e667, 0xbb67ae85, 0x3c6ef372, 0xa54ff53a, 0x510e527f, 0x9b05688c, 0x1f83d9ab, 0x5be0cd19⟩

/-- Rotation to the right. -/
def rotate (x n : UInt32) : UInt32 := (x >>> n) ||| (x <<< (32 - n))

/-- One round, with a schedule word and a round constant. -/
def State.round (s : State) (word constant : UInt32) : State :=
  let mixE := rotate s.e 6 ^^^ rotate s.e 11 ^^^ rotate s.e 25
  let choice := (s.e &&& s.f) ^^^ (~~~s.e &&& s.g)
  let t₁ := s.h + mixE + choice + constant + word
  let mixA := rotate s.a 2 ^^^ rotate s.a 13 ^^^ rotate s.a 22
  let majority := (s.a &&& s.b) ^^^ (s.a &&& s.c) ^^^ (s.b &&& s.c)
  ⟨t₁ + mixA + majority, s.a, s.b, s.c, s.d + t₁, s.e, s.f, s.g⟩

/-- Word by word sum of two states. -/
def State.add (s t : State) : State :=
  ⟨s.a + t.a, s.b + t.b, s.c + t.c, s.d + t.d, s.e + t.e, s.f + t.f, s.g + t.g, s.h + t.h⟩

/-- The schedule word that follows the words before it, given latest first. -/
def nextWord (latest : List UInt32) : UInt32 :=
  let word := fun i => latest.getD i 0
  let far := word 14
  let near := word 1
  let mixFar := rotate far 7 ^^^ rotate far 18 ^^^ (far >>> 3)
  let mixNear := rotate near 17 ^^^ rotate near 19 ^^^ (near >>> 10)
  word 15 + mixFar + word 6 + mixNear

/-- A block's words, latest first, extended by `n` further schedule words. -/
def extend (latest : List UInt32) : Nat → List UInt32
  | 0 => latest
  | n + 1 => extend (nextWord latest :: latest) n

/-- The state after one block of sixteen words. -/
def State.block (s : State) (words : List UInt32) : State :=
  let schedule := (extend words.reverse 48).reverse
  s.add ((schedule.zip roundConstants).foldl (fun t pair => t.round pair.1 pair.2) s)

/-- The message with a one bit, zeros and its length in bits behind it: a multiple of 64 bytes. -/
def pad (message : List UInt8) : List UInt8 :=
  let zeros := (119 - message.length % 64) % 64
  let bits := message.length * 8
  let length := (List.range 8).map fun i => (bits >>> (8 * (7 - i)) % 0x100).toUInt8
  message ++ 0x80 :: List.replicate zeros 0 ++ length

/-- Bytes as big-endian words. -/
def words : List UInt8 → List UInt32
  | a :: b :: c :: d :: bytes =>
    ((a.toUInt32 <<< 24) ||| (b.toUInt32 <<< 16) ||| (c.toUInt32 <<< 8) ||| d.toUInt32) ::
      words bytes
  | _ => []

/-- The state after all blocks of sixteen words. -/
def State.blocks (s : State) : Nat → List UInt32 → State
  | 0, _ => s
  | n + 1, ws => (s.block (ws.take 16)).blocks n (ws.drop 16)

/-- The eight words of the hash. -/
def hash (message : List UInt8) : List UInt32 :=
  let ws := words (pad message)
  let s := State.initial.blocks (ws.length / 16) ws
  [s.a, s.b, s.c, s.d, s.e, s.f, s.g, s.h]

/-- A hexadecimal digit in lower case. -/
def hexDigit (n : Nat) : Char := Nat.digitChar (n % 16)

/-- A word in eight hexadecimal digits. -/
def hexWord (w : UInt32) : List Char :=
  (List.range 8).map fun i => hexDigit (w.toNat >>> (4 * (7 - i)))

/-- The hash in 64 hexadecimal digits. -/
def hexHash (message : List UInt8) : String :=
  String.ofList ((hash message).flatMap hexWord)

end Preflight.Sha256
