import ChainedMultimap.Bytes
import ChainedMultimap.Word

/-!
# The MD5 digest

A message is padded with a one bit, zero bits and its length to a whole number of 64-byte blocks. Each
block updates four words of state in 64 steps; the state after the last block is the digest.
-/

namespace ChainedMultimap

/-- Sixteen bytes. -/
abbrev Digest := Vector UInt8 16

namespace Digest

/-- The number of bytes. -/
def length : Nat := 16

/-- The digest that holds the first sixteen of the given bytes, zeros in place of missing ones. -/
def ofBytes (bytes : Bytes) : Digest :=
  Vector.ofFn fun place => bytes.getD place.val 0

/-- The bytes in order. -/
def toBytes (digest : Digest) : Bytes := digest.toList

/-- Byte by byte exclusive or. -/
def xor (left right : Digest) : Digest := left.zipWith (· ^^^ ·) right

/-- The first four bytes as a word, lowest first. -/
def firstWord (digest : Digest) : UInt32 :=
  Bytes.toWord32 digest[0] digest[1] digest[2] digest[3]

/-- Lowercase hexadecimal digits. -/
def toHex (digest : Digest) : String := Bytes.toHex digest.toBytes

end Digest

namespace Md5

/-- Four words of state. -/
structure State where
  /-- First word. -/
  a : UInt32
  /-- Second word. -/
  b : UInt32
  /-- Third word. -/
  c : UInt32
  /-- Fourth word. -/
  d : UInt32

/-- The state before the first block. -/
def State.start : State := ⟨0x67452301, 0xefcdab89, 0x98badcfe, 0x10325476⟩

/-- The whole part of `2 ^ 32 * |sin (i + 1)|` for the step `i`. -/
def sines : Array UInt32 := #[
  0xd76aa478, 0xe8c7b756, 0x242070db, 0xc1bdceee, 0xf57c0faf, 0x4787c62a, 0xa8304613, 0xfd469501,
  0x698098d8, 0x8b44f7af, 0xffff5bb1, 0x895cd7be, 0x6b901122, 0xfd987193, 0xa679438e, 0x49b40821,
  0xf61e2562, 0xc040b340, 0x265e5a51, 0xe9b6c7aa, 0xd62f105d, 0x02441453, 0xd8a1e681, 0xe7d3fbc8,
  0x21e1cde6, 0xc33707d6, 0xf4d50d87, 0x455a14ed, 0xa9e3e905, 0xfcefa3f8, 0x676f02d9, 0x8d2a4c8a,
  0xfffa3942, 0x8771f681, 0x6d9d6122, 0xfde5380c, 0xa4beea44, 0x4bdecfa9, 0xf6bb4b60, 0xbebfbc70,
  0x289b7ec6, 0xeaa127fa, 0xd4ef3085, 0x04881d05, 0xd9d4d039, 0xe6db99e5, 0x1fa27cf8, 0xc4ac5665,
  0xf4292244, 0x432aff97, 0xab9423a7, 0xfc93a039, 0x655b59c3, 0x8f0ccc92, 0xffeff47d, 0x85845dd1,
  0x6fa87e4f, 0xfe2ce6e0, 0xa3014314, 0x4e0811a1, 0xf7537e82, 0xbd3af235, 0x2ad7d2bb, 0xeb86d391]

/-- The rotation amounts of the four rounds; within a round they repeat every four steps. -/
def rotations : Array UInt32 :=
  #[7, 12, 17, 22, 5, 9, 14, 20, 4, 11, 16, 23, 6, 10, 15, 21]

/-- The bitwise function of a step's round. -/
def mix (step : Nat) (b c d : UInt32) : UInt32 :=
  if step < 16 then (b &&& c) ||| (~~~b &&& d)
  else if step < 32 then (d &&& b) ||| (~~~d &&& c)
  else if step < 48 then b ^^^ c ^^^ d
  else c ^^^ (b ||| ~~~d)

/-- The word of the block that a step reads. -/
def wordIndex (step : Nat) : Nat :=
  if step < 16 then step
  else if step < 32 then (5 * step + 1) % 16
  else if step < 48 then (3 * step + 5) % 16
  else 7 * step % 16

/-- One of the 64 steps on a block. -/
def step (block : Array UInt32) (state : State) (index : Nat) : State :=
  let sum := state.a + mix index state.b state.c state.d + sines.getD index 0 +
    block.getD (wordIndex index) 0
  let amount := rotations.getD (4 * (index / 16) + index % 4) 0
  ⟨state.d, state.b + Word.rotateLeft sum amount, state.b, state.c⟩

/-- The state after a block: the outcome of all steps added to the state before. -/
def absorb (state : State) (block : Array UInt32) : State :=
  let mixed := (List.range 64).foldl (step block) state
  ⟨state.a + mixed.a, state.b + mixed.b, state.c + mixed.c, state.d + mixed.d⟩

/-- The message followed by a one bit, zeros up to eight bytes short of a whole block, and the number
of message bits modulo `2 ^ 64`. -/
def pad (message : Bytes) : Bytes :=
  let zeros := (119 - message.length % 64) % 64
  message ++ 0x80 :: List.replicate zeros 0 ++
    Bytes.ofWord64 (UInt64.ofNat (8 * message.length))

/-- The state after all blocks of a padded message. -/
def run (padded : Bytes) : State :=
  let words := (Bytes.words32 padded).toArray
  (List.range (words.size / 16)).foldl
    (fun state block => absorb state (words.extract (16 * block) (16 * block + 16))) State.start

end Md5

/-- The MD5 digest of a message. -/
def md5 (message : Bytes) : Digest :=
  let state := Md5.run (Md5.pad message)
  Digest.ofBytes (Bytes.ofWords32 [state.a, state.b, state.c, state.d])

/-- The keyed digest of a message: the digest of the message's digest combined with a secret. -/
def keyedMd5 (secret : Digest) (message : Bytes) : Digest :=
  md5 ((md5 message).xor secret).toBytes

end ChainedMultimap
