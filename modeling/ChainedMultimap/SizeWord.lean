import ChainedMultimap.BucketCount
import ChainedMultimap.Hash.Zobrist

/-!
# Rounding sizes of 64 bits

The two roundings of sizes once more, on words. A word is rounded down by shifting a one bit to where
its highest one bit stands, which the zeros in front of that bit tell. A word without a one bit has 64
zeros in front, so the amount of the shift would be below zero: then there is no result, and neither is
there one for a shift by 64 or more.
-/

namespace ChainedMultimap

/-- A size of 64 bits. -/
abbrev SizeWord := UInt64

namespace SizeWord

/-- The upper limit of both roundings. -/
def limit : SizeWord := (1 : SizeWord) <<< 30

/-- A one bit, shifted up within a word. -/
def shiftedOne? (amount : Nat) : Option SizeWord :=
  if amount < 64 then some (1 <<< UInt64.ofNat amount) else none

/-- The highest one bit of a size, alone. -/
def roundDown? (size : SizeWord) : Option SizeWord :=
  let zeros := size.toBitVec.clz.toNat
  if zeros ≤ 63 then shiftedOne? (63 - zeros) else none

/-- The bucket count for a requested size: rounded down to a power of two, within the limits. -/
def bucketCountFor? (request : SizeWord) : Option SizeWord :=
  if request ≤ 16 then some 16
  else if limit ≤ request then some limit
  else roundDown? request

/-- The length of a Zobrist table's rows for a requested one: within the limits, rounded down to a power
of two. -/
def zobristLengthFor? (request : SizeWord) : Option SizeWord :=
  roundDown? (min (max request 1) limit)

end SizeWord

end ChainedMultimap
