import ChainedMultimap.BucketCount
import ChainedMultimap.Hash.Lcg
import ChainedMultimap.Outcome
import ChainedMultimap.TableError
import ChainedMultimap.WordStream

/-!
# Zobrist hashing

A table of random words has one row for every byte value; the length of the rows is a power of two.
The hash of a byte string is the exclusive or of one word for each position: the row is the byte, the
column is the position modulo the row length. A released table hashes everything to zero.
-/

namespace ChainedMultimap

/-- A table of random words with one row for every byte value. -/
structure Zobrist where
  /-- Words in a row. -/
  length : Nat
  /-- All rows one after another; empty once released. -/
  words : Array UInt32

namespace Zobrist

/-- The longest row. -/
def maxLength : Nat := 1 <<< 30

/-- The row length for a requested one: within the limits, rounded down to a power of two. -/
def lengthFor (request : Nat) : Nat :=
  roundDownToPowerOfTwo (min (max request 1) maxLength)

/-- Fills a table with the first words of a supply, if that many words can be reserved. -/
def ofWords (supply : Nat → List UInt32) (allows : Allocator) (request : Nat) :
    Except TableError Zobrist × List LogRecord :=
  let length := lengthFor request
  let size := 256 * length
  if allows size then (.ok ⟨length, (supply size).toArray⟩, [.zobristBuilt length])
  else (.error (.allocationFailure size), [])

/-- Fills a table from the word stream of a seed. -/
def ofSeed (allows : Allocator) (request : Nat) (seed : UInt64) :
    Except TableError Zobrist × List LogRecord :=
  ofWords (WordStream.words seed) allows request

/-- Fills a table with what a generator yields from a seed, word by word. -/
def ofGenerator (generator : Generator) (allows : Allocator) (request : Nat) (seed : UInt64) :
    Except TableError Zobrist × List LogRecord :=
  ofWords (fun count => (List.range count).map (generator seed)) allows request

/-- Whether the words have been given up. -/
def isReleased (table : Zobrist) : Bool := table.words.isEmpty

/-- Gives up the words; the row length is kept. -/
def release (table : Zobrist) : Zobrist := { table with words := #[] }

/-- Where the word for a byte at a position stands. -/
def index (table : Zobrist) (position : Nat) (byte : UInt8) : Nat :=
  byte.toNat * table.length + (position &&& (table.length - 1))

/-- Exclusive or of the words for all bytes of a string whose first byte stands at a position. -/
def mixFrom (table : Zobrist) : Nat → UInt32 → Bytes → UInt32
  | _, mixed, [] => mixed
  | position, mixed, byte :: rest =>
    mixFrom table (position + 1) (mixed ^^^ table.words.getD (table.index position byte) 0) rest

/-- Zero once released, and before that the exclusive or of the words for all bytes. -/
def hash (table : Zobrist) : Strategy := fun bytes =>
  if table.isReleased then 0 else table.mixFrom 0 0 bytes

/-- The diagnostic text. -/
def diagnostic (table : Zobrist) : String :=
  "Zobrist \x7b table_len: " ++ Nat.repr table.length ++ ", released: " ++
    (if table.isReleased then "true" else "false") ++ " \x7d"

end Zobrist

end ChainedMultimap
