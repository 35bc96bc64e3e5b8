import JobGrid.Json.Basic

/-!
# The MD5 digest

The MD5 digest of octets is computed as four 32-bit words. The octets are padded to whole blocks
of 64; each block is mixed into the words in 64 steps.
-/

namespace JobGrid

namespace Md5

/-- The four words that a block is mixed into. -/
structure Words where
  a : UInt32
  b : UInt32
  c : UInt32
  d : UInt32
  deriving DecidableEq, Repr

/-- The words before the first block. -/
def initial : Words := ⟨0x67452301, 0xefcdab89, 0x98badcfe, 0x10325476⟩

/-- The constants of the 64 steps: the fractional bits of sines. -/
def constants : Array UInt32 := #[
  0xd76aa478, 0xe8c7b756, 0x242070db, 0xc1bdceee, 0xf57c0faf, 0x4787c62a,
  0xa8304613, 0xfd469501, 0x698098d8, 0x8b44f7af, 0xffff5bb1, 0x895cd7be,
  0x6b901122, 0xfd987193, 0xa679438e, 0x49b40821, 0xf61e2562, 0xc040b340,
  0x265e5a51, 0xe9b6c7aa, 0xd62f105d, 0x02441453, 0xd8a1e681, 0xe7d3fbc8,
  0x21e1cde6, 0xc33707d6, 0xf4d50d87, 0x455a14ed, 0xa9e3e905, 0xfcefa3f8,
  0x676f02d9, 0x8d2a4c8a, 0xfffa3942, 0x8771f681, 0x6d9d6122, 0xfde5380c,
  0xa4beea44, 0x4bdecfa9, 0xf6bb4b60, 0xbebfbc70, 0x289b7ec6, 0xeaa127fa,
  0xd4ef3085, 0x04881d05, 0xd9d4d039, 0xe6db99e5, 0x1fa27cf8, 0xc4ac5665,
  0xf4292244, 0x432aff97, 0xab9423a7, 0xfc93a039, 0x655b59c3, 0x8f0ccc92,
  0xffeff47d, 0x85845dd1, 0x6fa87e4f, 0xfe2ce6e0, 0xa3014314, 0x4e0811a1,
  0xf7537e82, 0xbd3af235, 0x2ad7d2bb, 0xeb86d391]

/-- How far each step rotates; a round of sixteen steps repeats four amounts. -/
def rotations : Array UInt32 := #[7, 12, 17, 22, 5, 9, 14, 20, 4, 11, 16, 23, 6, 10, 15, 21]

def rotateLeft (word amount : UInt32) : UInt32 := word <<< amount ||| word >>> (32 - amount)

/-- The function of a round and the place of the block word that a step uses. -/
def mixer (words : Words) (step : Nat) : UInt32 × Nat :=
  let { b, c, d, .. } := words
  if step < 16 then (b &&& c ||| ~~~b &&& d, step)
  else if step < 32 then (d &&& b ||| ~~~d &&& c, (5 * step + 1) % 16)
  else if step < 48 then (b ^^^ c ^^^ d, (3 * step + 5) % 16)
  else (c ^^^ (b ||| ~~~d), 7 * step % 16)

/-- One step. -/
def mix (block : Array UInt32) (words : Words) (step : Nat) : Words :=
  let (mixed, place) := mixer words step
  let sum := words.a + mixed + constants.getD step 0 + block.getD place 0
  let turn := rotations.getD (step / 16 * 4 + step % 4) 0
  ⟨words.d, words.b + rotateLeft sum turn, words.b, words.c⟩

/-- Mixes a block of sixteen words. -/
def compress (words : Words) (block : Array UInt32) : Words :=
  let mixed := (List.range 64).foldl (mix block) words
  ⟨words.a + mixed.a, words.b + mixed.b, words.c + mixed.c, words.d + mixed.d⟩

/-- The octets of a number, lowest first. -/
def littleEndian : Nat → Nat → Bytes
  | 0, _ => []
  | width + 1, number => UInt8.ofNat number :: littleEndian width (number / 256)

/-- The octets with a one bit, zeros and their length in bits behind them. -/
def pad (bytes : Bytes) : Bytes :=
  let zeros := (119 - bytes.length % 64) % 64
  bytes ++ 0x80 :: (List.replicate zeros 0 ++ littleEndian 8 (bytes.length * 8))

/-- The number of four octets, lowest first. -/
def word (first second third fourth : UInt8) : UInt32 :=
  first.toUInt32 ||| second.toUInt32 <<< 8 ||| third.toUInt32 <<< 16 ||| fourth.toUInt32 <<< 24

/-- Groups octets into words, lowest octet first. -/
def toWords : Bytes → List UInt32
  | first :: second :: third :: fourth :: rest => word first second third fourth :: toWords rest
  | _ => []

/-- Mixes all blocks of sixteen words; the fuel bounds their number. -/
def digestWords (words : Words) : Nat → List UInt32 → Words
  | 0, _ => words
  | _ + 1, [] => words
  | fuel + 1, block => digestWords (compress words (block.take 16).toArray) fuel (block.drop 16)

/-- The digest of octets. -/
def digest (bytes : Bytes) : Words :=
  let padded := toWords (pad bytes)
  digestWords initial padded.length padded

/-- A word with its octets in reverse order. -/
def swap (word : UInt32) : UInt32 :=
  let low : UInt32 := word &&& 0xff00
  let high : UInt32 := (word >>> 8) &&& 0xff00
  word <<< 24 ||| low <<< 8 ||| high ||| word >>> 24

/-- The digest folded to one word: its four words, highest octet first, combined bit by
bit. -/
def fold (bytes : Bytes) : UInt32 :=
  let { a, b, c, d } := digest bytes
  swap a ^^^ swap b ^^^ swap c ^^^ swap d

end Md5

end JobGrid
