import ChainedMultimap.Hash.Md5
import ChainedMultimap.Proofs.LcgGroups

/-!
# Keyed digests, byte by byte

A word made of four bytes is the number whose digits to the base 256 they are, lowest first. A keyed
digest is the digest of sixteen bytes, each of them the exclusive or of two bytes at its place: one of
the message's own digest and one of the secret. Secret and message determine it.
-/

namespace ChainedMultimap

namespace Bytes

/-- A word made of bytes, lowest first, is the number that they spell from the last one on. -/
theorem toWord32_eq_toNumber32 (b0 b1 b2 b3 : UInt8) :
    toWord32 b0 b1 b2 b3 = toNumber32 [b3, b2, b1, b0] := by
  have twice (word : UInt32) : word <<< 8 <<< 8 = word <<< 16 :=
    (UInt32.shiftLeft_add (b := 8) (c := 8) (by decide) (by decide) (by decide)).symm
  have thrice (word : UInt32) : word <<< 8 <<< 16 = word <<< 24 :=
    (UInt32.shiftLeft_add (b := 8) (c := 16) (by decide) (by decide) (by decide)).symm
  have spelled : toNumber32 [b3, b2, b1, b0] =
      ((b3.toUInt32 <<< 8 ||| b2.toUInt32) <<< 8 ||| b1.toUInt32) <<< 8 ||| b0.toUInt32 := by
    rw [← UInt32.zero_or (a := b3.toUInt32)]
    rfl
  rw [spelled, UInt32.shiftLeft_or, UInt32.shiftLeft_or, UInt32.shiftLeft_or, twice, twice, thrice,
    toWord32]
  generalize b0.toUInt32 = w0, b1.toUInt32 <<< 8 = w1, b2.toUInt32 <<< 16 = w2,
    b3.toUInt32 <<< 24 = w3
  ac_rfl

/-- The bytes are the word's digits to the base 256, lowest first. -/
theorem toNat_toWord32 (b0 b1 b2 b3 : UInt8) : (toWord32 b0 b1 b2 b3).toNat =
    b0.toNat + 2 ^ 8 * b1.toNat + 2 ^ 16 * b2.toNat + 2 ^ 24 * b3.toNat := by
  have first := b0.toNat_lt
  have second := b1.toNat_lt
  have third := b2.toNat_lt
  have fourth := b3.toNat_lt
  have spelled : toNumber [b3, b2, b1, b0] =
      b0.toNat + 256 * (b1.toNat + 256 * (b2.toNat + 256 * b3.toNat)) := rfl
  rw [toWord32_eq_toNumber32, toNat_toNumber32, spelled]
  omega

end Bytes

namespace Digest

/-- Combining digests combines the bytes at each place. -/
theorem getElem_xor (left right : Digest) {place : Nat} (inside : place < 16) :
    (left.xor right)[place] = left[place] ^^^ right[place] := by
  rw [xor, Vector.getElem_zipWith]

/-- The first four bytes are the first word's digits to the base 256, lowest first. -/
theorem toNat_firstWord (digest : Digest) : digest.firstWord.toNat =
    (digest.get 0).toNat + 2 ^ 8 * (digest.get 1).toNat + 2 ^ 16 * (digest.get 2).toNat +
      2 ^ 24 * (digest.get 3).toNat := by
  rw [firstWord, Bytes.toNat_toWord32]
  rfl

/-- A digest is the keyed one of a message under a secret. -/
def IsKeyed (digest secret : Digest) (message : Bytes) : Prop :=
  ∃ masked : Digest,
    (∀ place (inside : place < 16), masked[place] = (md5 message)[place] ^^^ secret[place]) ∧
      digest = md5 masked.toList

/-- What is computed for a secret and a message is a keyed digest. -/
theorem isKeyed_keyedMd5 (secret : Digest) (message : Bytes) :
    (keyedMd5 secret message).IsKeyed secret message :=
  ⟨(md5 message).xor secret, fun _ inside => getElem_xor _ _ inside, rfl⟩

/-- There is no other one for the secret and the message. -/
theorem IsKeyed.eq_keyedMd5 {digest secret : Digest} {message : Bytes}
    (keyed : digest.IsKeyed secret message) : digest = keyedMd5 secret message := by
  obtain ⟨masked, bytes, rfl⟩ := keyed
  have combined : masked = (md5 message).xor secret := by
    apply Vector.ext
    intro place inside
    rw [bytes place inside, getElem_xor]
  rw [keyedMd5, ← combined, toBytes]

end Digest

end ChainedMultimap
