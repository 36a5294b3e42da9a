import ChainedMultimap.Word

/-!
# Streams of random words

A 64-bit seed determines an endless stream of 32-bit words: the key stream of the ChaCha cipher with
twelve rounds, whose 256-bit key is expanded from the seed by a linear-congruential step with
permuted output. Blocks of sixteen words are numbered from zero; the nonce is zero.
-/

namespace ChainedMultimap

/-- A generator of words: what it yields at each place of the stream that a seed determines. -/
abbrev Generator := UInt64 → Nat → UInt32

namespace WordStream

/-- The state of the linear-congruential step. -/
abbrev KeyState := UInt64

/-- One step of the key expansion. -/
def stepKey (state : KeyState) : KeyState :=
  state * 6364136223846793005 + 11634580027462260723

/-- The output word of a state: folded bits, rotated by the state's top five bits. -/
def keyWord (state : KeyState) : UInt32 :=
  Word.rotateRight (((state >>> 18) ^^^ state) >>> 27).toUInt32 (state >>> 59).toUInt32

/-- The first `count` key words after a state. -/
def keyWords (state : KeyState) : Nat → List UInt32
  | 0 => []
  | count + 1 =>
    let next := stepKey state
    keyWord next :: keyWords next count

/-- Sixteen words in four rows of four. -/
abbrev Block := Vector UInt32 16

/-- The block before the rounds: four constants, the eight key words, the block number in two halves
and a zero nonce. -/
def initialBlock (key : List UInt32) (number : UInt64) : Block :=
  let keyAt (place : Nat) : UInt32 := key.getD place 0
  #v[0x61707865, 0x3320646e, 0x79622d32, 0x6b206574,
     keyAt 0, keyAt 1, keyAt 2, keyAt 3, keyAt 4, keyAt 5, keyAt 6, keyAt 7,
     number.toUInt32, (number >>> 32).toUInt32, 0, 0]

/-- Mixes the four words at the given places. -/
def quarterRound (block : Block) (i j k l : Fin 16) : Block :=
  let a := block[i]
  let b := block[j]
  let c := block[k]
  let d := block[l]
  let a := a + b
  let d := Word.rotateLeft (d ^^^ a) 16
  let c := c + d
  let b := Word.rotateLeft (b ^^^ c) 12
  let a := a + b
  let d := Word.rotateLeft (d ^^^ a) 8
  let c := c + d
  let b := Word.rotateLeft (b ^^^ c) 7
  (((block.set i a).set j b).set k c).set l d

/-- Mixes the four columns, then the four diagonals. -/
def doubleRound (block : Block) : Block :=
  let block := quarterRound block 0 4 8 12
  let block := quarterRound block 1 5 9 13
  let block := quarterRound block 2 6 10 14
  let block := quarterRound block 3 7 11 15
  let block := quarterRound block 0 5 10 15
  let block := quarterRound block 1 6 11 12
  let block := quarterRound block 2 7 8 13
  quarterRound block 3 4 9 14

/-- The block of the given number: the initial block after twelve rounds, added to itself. -/
def block (key : List UInt32) (number : UInt64) : Block :=
  let start := initialBlock key number
  let mixed := Nat.repeat doubleRound 6 start
  start.zipWith (· + ·) mixed

/-- The first `count` words of the stream of a seed. -/
def words (seed : UInt64) (count : Nat) : List UInt32 :=
  let key := keyWords seed 8
  ((List.range ((count + 15) / 16)).flatMap fun number =>
    (block key (UInt64.ofNat number)).toList).take count

/-- The word at a place of the stream of a seed. -/
def word (seed : UInt64) (place : Nat) : UInt32 :=
  (block (keyWords seed 8) (UInt64.ofNat (place / 16))).get
    ⟨place % 16, Nat.mod_lt place (by decide)⟩

/-- The words of a block stand at sixteen places in a row. -/
theorem toList_block (seed : UInt64) (number : Nat) :
    (block (keyWords seed 8) (UInt64.ofNat number)).toList =
      (List.range 16).map fun place => word seed (16 * number + place) := by
  apply List.ext_getElem
  · simp
  · intro place inside _
    have small : place < 16 := by simpa using inside
    have quotient : (16 * number + place) / 16 = number := by omega
    simp only [word, Vector.getElem_toList, List.getElem_map, List.getElem_range, quotient,
      Nat.mul_add_mod, Nat.mod_eq_of_lt small]
    rfl

/-- The first words of a stream are those at its first places. -/
theorem words_eq_map (seed : UInt64) (count : Nat) :
    words seed count = (List.range count).map (word seed) := by
  have blocks : ∀ number, ((List.range number).flatMap fun number =>
      (block (keyWords seed 8) (UInt64.ofNat number)).toList) =
        (List.range (16 * number)).map (word seed) := by
    intro number
    induction number with
    | zero => rfl
    | succ number ih =>
      rw [List.range_succ, List.flatMap_append, ih, Nat.mul_succ, List.range_add, List.map_append,
        List.flatMap_singleton, toList_block, List.map_map]
      rfl
  have enough : min count (16 * ((count + 15) / 16)) = count := by omega
  rw [words, blocks, ← List.map_take, List.take_range, enough]

end WordStream

end ChainedMultimap
