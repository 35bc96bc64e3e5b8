import JobGrid.Json.Basic

/-!
# The SipHash-1-3 function

The keyed hash SipHash is taken with one round per eight octets and three final rounds. Its key
is zero here. Octets are hashed behind their number, so that no two lists of octets feed it the
same.
-/

namespace JobGrid

namespace SipHash

/-- The four words of the state. -/
structure Words where
  v0 : UInt64
  v1 : UInt64
  v2 : UInt64
  v3 : UInt64
  deriving DecidableEq, Repr

/-- The state before the first octet. -/
def initial : Words :=
  ⟨0x736f6d6570736575, 0x646f72616e646f6d, 0x6c7967656e657261, 0x7465646279746573⟩

def rotateLeft (word amount : UInt64) : UInt64 := word <<< amount ||| word >>> (64 - amount)

/-- One round. -/
def round (words : Words) : Words :=
  let v0 := words.v0 + words.v1
  let v1 := rotateLeft words.v1 13 ^^^ v0
  let v0 := rotateLeft v0 32
  let v2 := words.v2 + words.v3
  let v3 := rotateLeft words.v3 16 ^^^ v2
  let v0 := v0 + v3
  let v3 := rotateLeft v3 21 ^^^ v0
  let v2 := v2 + v1
  let v1 := rotateLeft v1 17 ^^^ v2
  let v2 := rotateLeft v2 32
  ⟨v0, v1, v2, v3⟩

/-- Mixes eight octets, given as a number. -/
def mix (words : Words) (block : UInt64) : Words :=
  let mixed := round { words with v3 := words.v3 ^^^ block }
  { mixed with v0 := mixed.v0 ^^^ block }

/-- The number of some octets, lowest first. -/
def littleEndian : Bytes → UInt64
  | [] => 0
  | byte :: rest => byte.toUInt64 ||| littleEndian rest <<< 8

/-- Mixes the octets, the last block filled up with their number modulo 256. The fuel bounds
the number of blocks. -/
def absorb (length : Nat) (words : Words) : Nat → Bytes → Words
  | 0, _ => words
  | fuel + 1, bytes =>
      if bytes.length < 8 then
        mix words (littleEndian bytes ||| (UInt64.ofNat length) <<< 56)
      else absorb length (mix words (littleEndian (bytes.take 8))) fuel (bytes.drop 8)

/-- The hash of octets. -/
def hash (bytes : Bytes) : UInt64 :=
  let mixed := absorb bytes.length initial (bytes.length + 1) bytes
  let final := round (round (round { mixed with v2 := mixed.v2 ^^^ 0xff }))
  final.v0 ^^^ final.v1 ^^^ final.v2 ^^^ final.v3

/-- The number of octets, in eight octets. -/
def lengthOctets (bytes : Bytes) : Bytes :=
  (List.range 8).map fun place => UInt8.ofNat (bytes.length / 256 ^ place)

/-- The hash of octets behind their number, folded to 32 bits. -/
def fold (bytes : Bytes) : UInt32 :=
  let whole := hash (lengthOctets bytes ++ bytes)
  (whole ^^^ whole >>> 32).toUInt32

end SipHash

end JobGrid
