import ChainedMultimap.Bytes

/-!
# The linear-congruential hash

A byte string is cut into groups of four. Each group, read as a number with its highest byte first,
goes through one linear-congruential step; the results are combined by exclusive or. A short last
group counts only its own bytes.
-/

namespace ChainedMultimap

/-- A hash function on marshalled bytes. -/
abbrev Strategy := Bytes → UInt32

namespace Lcg

/-- Factor of the step. -/
def multiplier : UInt32 := 1664525

/-- Summand of the step. -/
def increment : UInt32 := 1013904223

/-- One linear-congruential step modulo `2 ^ 32`. -/
def step (number : UInt32) : UInt32 := number * multiplier + increment

/-- Exclusive or over the groups of four of the step applied to each. -/
def hash : Strategy := fun bytes =>
  (Bytes.groupsOfFour bytes).foldl (fun mixed group => mixed ^^^ step (Bytes.toNumber32 group)) 0

end Lcg

end ChainedMultimap
