import UtxoScript.Bytes

/-!
# Hashing by blocks

What the two hash functions have in common: a message is padded to whole blocks of 64 bytes and the
blocks are mixed into a state one after another. They differ in the state, in the mixing, and in
which byte of a word comes first.
-/

namespace UtxoScript.Blocks

/-- Mixes block after block of 64 bytes into the state; a last part that is shorter is left out. -/
def absorb {State : Type} (compress : State → Bytes → State) (s : State) (message : Bytes) :
    State :=
  if _h : (message.take 64).length < 64 then s
  else absorb compress (compress s (message.take 64)) (message.drop 64)
termination_by message.length
decreasing_by
  simp only [List.length_take] at _h
  simp only [List.length_drop]
  omega

/-- A message with a one bit, zeros up to the last eight bytes of a block, and its number of bits as
`bitCount` writes it. -/
def pad (bitCount : Nat → Bytes) (message : Bytes) : Bytes :=
  let length := message.length
  message ++ 0x80 :: (List.replicate ((119 - length % 64) % 64) 0 ++ bitCount (8 * length))

/-- The bits of a word moved up by `n` places, those lost at the top coming in at the bottom. -/
def rotateLeft (x n : UInt32) : UInt32 := (x <<< n) ||| (x >>> (32 - n))

end UtxoScript.Blocks
