import UtxoScript.Text.Quoted
import UtxoScript.Text.Utf8

/-!
# Hexadecimal text

Two digits a byte, the high half first, written in lower case and read in either case. A text is
judged by its UTF-8 bytes: an odd number of them is reported first, and after that the first byte
that is no digit, with its position among the bytes.
-/

namespace UtxoScript.Text.Hex

/-- Why a text is no hexadecimal. -/
inductive Fault
  /-- The text has an odd number of bytes. -/
  | oddLength
  /-- The byte at this position is the first that is no digit. -/
  | invalidByte (byte : UInt8) (position : Nat)
  deriving DecidableEq, Repr

/-- The wording of a fault. A byte is shown as the character of that code point. -/
def Fault.message : Fault → String
  | .oddLength => "Odd number of digits"
  | .invalidByte byte position =>
    "Invalid character " ++ quoted (Char.ofNat byte.toNat) ++ " at position " ++ toString position

/-- The value of a digit of either case. -/
def digitValue? (byte : UInt8) : Option UInt8 :=
  if 0x30 ≤ byte ∧ byte ≤ 0x39 then some (byte - 0x30)
  else if 0x41 ≤ byte ∧ byte ≤ 0x46 then some (byte - 0x37)
  else if 0x61 ≤ byte ∧ byte ≤ 0x66 then some (byte - 0x57)
  else none

/-- The two digits of a byte. -/
def digitsOf (byte : UInt8) : List Char :=
  [Nat.digitChar (byte.toNat / 16), Nat.digitChar (byte.toNat % 16)]

/-- Bytes as lower-case hexadecimal. -/
def encode (bytes : Bytes) : String := String.ofList (bytes.flatMap digitsOf)

/-- The byte of two digits; what is no digit counts as zero. -/
def byteOf (high low : UInt8) : UInt8 :=
  (digitValue? high).getD 0 * 16 + (digitValue? low).getD 0

/-- The bytes that pairs of digits spell, after the bytes already read, which come last first. -/
def pairsAfter (done : Bytes) : Bytes → Bytes
  | high :: low :: rest => pairsAfter (byteOf high low :: done) rest
  | _ => done.reverse

/-- The bytes that hexadecimal text of either case spells. -/
def decode (text : String) : Except Fault Bytes :=
  let digits := utf8 text
  if digits.length % 2 = 1 then .error .oddLength
  else
    match digits.zipIdx.find? (fun entry => (digitValue? entry.1).isNone) with
    | some (byte, position) => .error (.invalidByte byte position)
    | none => .ok (pairsAfter [] digits)

/-- The bytes already read stand in front. -/
theorem pairsAfter_eq (done digits : Bytes) :
    pairsAfter done digits = done.reverse ++ pairsAfter [] digits := by
  match digits with
  | [] => simp [pairsAfter]
  | [_] => simp [pairsAfter]
  | high :: low :: rest =>
    rw [pairsAfter, pairsAfter, pairsAfter_eq, pairsAfter_eq [_]]
    simp

end UtxoScript.Text.Hex
