import UtxoScript.Digest.Blocks

/-!
# RIPEMD-160

Each block of the message is mixed into a state of five words by two lines of eighty rounds, which
are then added crosswise. Words are written least significant byte first. `length_hash` says that
the digest has 20 bytes.
-/

namespace UtxoScript.Ripemd160

open Blocks

/-- The five words of the chaining state. -/
structure State where
  /-- First word. -/
  a : UInt32
  /-- Second word. -/
  b : UInt32
  /-- Third word. -/
  c : UInt32
  /-- Fourth word. -/
  d : UInt32
  /-- Fifth word. -/
  e : UInt32

/-- The state before the first block. -/
def initial : State := ⟨0x67452301, 0xefcdab89, 0x98badcfe, 0x10325476, 0xc3d2e1f0⟩

/-- The order in which the left line takes the words of the block. -/
def leftWords : List Nat :=
  [0, 1, 2, 3, 4, 5, 6, 7, 8, 9, 10, 11, 12, 13, 14, 15,
   7, 4, 13, 1, 10, 6, 15, 3, 12, 0, 9, 5, 2, 14, 11, 8,
   3, 10, 14, 4, 9, 15, 8, 1, 2, 7, 0, 6, 13, 11, 5, 12,
   1, 9, 11, 10, 0, 8, 12, 4, 13, 3, 7, 15, 14, 5, 6, 2,
   4, 0, 5, 9, 7, 12, 2, 10, 14, 1, 3, 8, 11, 6, 15, 13]

/-- The order in which the right line takes the words of the block. -/
def rightWords : List Nat :=
  [5, 14, 7, 0, 9, 2, 11, 4, 13, 6, 15, 8, 1, 10, 3, 12,
   6, 11, 3, 7, 0, 13, 5, 10, 14, 15, 8, 12, 4, 9, 1, 2,
   15, 5, 1, 3, 7, 14, 6, 9, 11, 8, 12, 2, 10, 0, 4, 13,
   8, 6, 4, 1, 3, 11, 15, 0, 5, 12, 2, 13, 9, 7, 10, 14,
   12, 15, 10, 4, 1, 5, 8, 7, 6, 2, 13, 14, 0, 3, 9, 11]

/-- By how many bits each round of the left line rotates. -/
def leftRotations : List UInt32 :=
  [11, 14, 15, 12, 5, 8, 7, 9, 11, 13, 14, 15, 6, 7, 9, 8,
   7, 6, 8, 13, 11, 9, 7, 15, 7, 12, 15, 9, 11, 7, 13, 12,
   11, 13, 6, 7, 14, 9, 13, 15, 14, 8, 13, 6, 5, 12, 7, 5,
   11, 12, 14, 15, 14, 15, 9, 8, 9, 14, 5, 6, 8, 6, 5, 12,
   9, 15, 5, 11, 6, 8, 13, 12, 5, 12, 13, 14, 11, 8, 5, 6]

/-- By how many bits each round of the right line rotates. -/
def rightRotations : List UInt32 :=
  [8, 9, 9, 11, 13, 15, 15, 5, 7, 7, 8, 11, 14, 14, 12, 6,
   9, 13, 15, 7, 12, 8, 9, 11, 7, 7, 12, 7, 6, 15, 13, 11,
   9, 7, 15, 11, 8, 6, 6, 14, 12, 13, 5, 14, 13, 13, 7, 5,
   15, 5, 8, 11, 14, 14, 6, 14, 6, 9, 12, 9, 12, 5, 15, 8,
   8, 5, 12, 9, 12, 5, 14, 6, 8, 13, 6, 5, 15, 13, 11, 11]

/-- The constants of the left line, one for every sixteen rounds. -/
def leftConstants : List UInt32 := [0x00000000, 0x5a827999, 0x6ed9eba1, 0x8f1bbcdc, 0xa953fd4e]

/-- The constants of the right line, one for every sixteen rounds. -/
def rightConstants : List UInt32 := [0x50a28be6, 0x5c4dd124, 0x6d703ef3, 0x7a6d76e9, 0x00000000]

/-- The five bitwise functions, one for every sixteen rounds. The right line takes them from the
last to the first. -/
def mix (stage : Nat) (x y z : UInt32) : UInt32 :=
  match stage with
  | 0 => x ^^^ y ^^^ z
  | 1 => (x &&& y) ||| (~~~x &&& z)
  | 2 => (x ||| ~~~y) ^^^ z
  | 3 => (x &&& z) ||| (y &&& ~~~z)
  | _ => x ^^^ (y ||| ~~~z)

/-- The words that bytes spell, four bytes each; bytes left over are dropped. -/
def wordsLE : Bytes → List UInt32
  | b₀ :: b₁ :: b₂ :: b₃ :: rest =>
    (b₀.toUInt32 ||| (b₁.toUInt32 <<< 8) ||| (b₂.toUInt32 <<< 16) ||| (b₃.toUInt32 <<< 24))
      :: wordsLE rest
  | _ => []

/-- The four bytes of a word. -/
def bytesLE (w : UInt32) : Bytes :=
  [w.toUInt8, (w >>> 8).toUInt8, (w >>> 16).toUInt8, (w >>> 24).toUInt8]

/-- One round: the mixed words, a word of the block and a constant are added to the first word. -/
def round (s : State) (mixed word constant rotation : UInt32) : State :=
  ⟨s.e, rotateLeft (s.a + mixed + word + constant) rotation + s.e, s.b, rotateLeft s.c 10, s.d⟩

/-- The eighty rounds of a line: `stageOf` names the bitwise function of every sixteen rounds. -/
def line (stageOf : Nat → Nat) (order : List Nat) (rotations constants : List UInt32)
    (block : Array UInt32) (s : State) : State :=
  ((List.range 80).zip (order.zip rotations)).foldl
    (fun t entry =>
      let part := entry.1 / 16
      round t (mix (stageOf part) t.b t.c t.d) (block.getD entry.2.1 0) (constants.getD part 0)
        entry.2.2)
    s

/-- Mixes a block into the state. -/
def compress (s : State) (block : Bytes) : State :=
  let words := (wordsLE block).toArray
  let l := line id leftWords leftRotations leftConstants words s
  let r := line (4 - ·) rightWords rightRotations rightConstants words s
  ⟨s.b + l.c + r.d, s.c + l.d + r.e, s.d + l.e + r.a, s.e + l.a + r.b, s.a + l.b + r.c⟩

/-- The bytes of the state. -/
def State.toBytes (s : State) : Bytes := [s.a, s.b, s.c, s.d, s.e].flatMap bytesLE

/-- The digest of a message. -/
def hash (message : Bytes) : Bytes :=
  (absorb compress initial (pad (Bytes.ofNatLE 8) message)).toBytes

/-- A digest has 20 bytes. -/
@[simp] theorem length_hash (message : Bytes) : (hash message).length = 20 := by
  simp [hash, State.toBytes, bytesLE]

end UtxoScript.Ripemd160
