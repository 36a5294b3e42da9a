/-!
# Byte sequences

Words are laid out with their lowest byte first when the bytes only feed a hash, and with their
highest byte first where the byte order is meant to follow the numeric order. Every layout has a
fixed length.
-/

namespace ChainedMultimap

/-- A finite sequence of bytes. -/
abbrev Bytes := List UInt8

namespace Bytes

/-- The two bytes of a 16-bit word, lowest first. -/
def ofWord16 (word : UInt16) : Bytes :=
  [word.toUInt8, (word >>> 8).toUInt8]

/-- The four bytes of a 32-bit word, lowest first. -/
def ofWord32 (word : UInt32) : Bytes :=
  [word.toUInt8, (word >>> 8).toUInt8, (word >>> 16).toUInt8, (word >>> 24).toUInt8]

/-- The eight bytes of a 64-bit word, lowest first. -/
def ofWord64 (word : UInt64) : Bytes :=
  ofWord32 word.toUInt32 ++ ofWord32 (word >>> 32).toUInt32

/-- The four bytes of a 32-bit word, highest first. -/
def ofWord32High (word : UInt32) : Bytes :=
  [(word >>> 24).toUInt8, (word >>> 16).toUInt8, (word >>> 8).toUInt8, word.toUInt8]

/-- The 32-bit word with the given four bytes, lowest first. -/
def toWord32 (b0 b1 b2 b3 : UInt8) : UInt32 :=
  b0.toUInt32 ||| (b1.toUInt32 <<< 8) ||| (b2.toUInt32 <<< 16) ||| (b3.toUInt32 <<< 24)

/-- The whole 32-bit words at the front of a sequence; one to three bytes left over are dropped. -/
def words32 : Bytes → List UInt32
  | b0 :: b1 :: b2 :: b3 :: rest => toWord32 b0 b1 b2 b3 :: words32 rest
  | _ => []

/-- The bytes of a list of 32-bit words, each lowest byte first. -/
def ofWords32 (words : List UInt32) : Bytes :=
  words.flatMap ofWord32

/-- Groups of four bytes in order; the last group holds what is left, one to four bytes. -/
def groupsOfFour : Bytes → List Bytes
  | b0 :: b1 :: b2 :: b3 :: rest => [b0, b1, b2, b3] :: groupsOfFour rest
  | [] => []
  | rest => [rest]

/-- The number whose base-256 digits, highest first, are the given bytes, modulo `2^32`. -/
def toNumber32 (bytes : Bytes) : UInt32 :=
  bytes.foldl (fun number byte => (number <<< 8) ||| byte.toUInt32) 0

/-- The lowercase hexadecimal digit of a number below sixteen. -/
def hexDigit (value : UInt8) : Char :=
  if value < 10 then Char.ofNat (48 + value.toNat) else Char.ofNat (87 + value.toNat)

/-- Two lowercase hexadecimal digits for every byte. -/
def toHex (bytes : Bytes) : String :=
  String.ofList (bytes.flatMap fun (byte : UInt8) => [hexDigit (byte >>> 4), hexDigit (byte &&& 15)])

/-- Decimal values between square brackets, separated by a comma and a blank. -/
def toDecimalList (bytes : Bytes) : String :=
  "[" ++ String.intercalate ", " (bytes.map fun byte => Nat.repr byte.toNat) ++ "]"

/-- A 32-bit word takes four bytes, lowest first. -/
@[simp] theorem length_ofWord32 (word : UInt32) : (ofWord32 word).length = 4 := rfl

/-- The high-first layout is the low-first layout read backwards. -/
theorem reverse_ofWord32 (word : UInt32) : (ofWord32 word).reverse = ofWord32High word := rfl

/-- A 32-bit word takes four bytes, highest first. -/
@[simp] theorem length_ofWord32High (word : UInt32) : (ofWord32High word).length = 4 := by
  rw [← reverse_ofWord32, List.length_reverse, length_ofWord32]

end Bytes

end ChainedMultimap
