import UtxoScript.Numeral
import UtxoScript.Text.Hex

/-!
# Base 58

Bytes are read as digits in base 256 and written as digits in base 58, with one leading digit `1`
for every leading zero byte. The alphabet leaves out the characters that are easily confused. A text
is judged by its UTF-8 bytes from left to right.
-/

namespace UtxoScript.Base58

/-- The fifty-eight digits. -/
def alphabet : List Char := "123456789ABCDEFGHJKLMNPQRSTUVWXYZabcdefghijkmnopqrstuvwxyz".toList

/-- Why a text is not in base 58. -/
inductive Fault
  /-- The byte at this position belongs to a character beyond ASCII. -/
  | nonAscii (position : Nat)
  /-- The byte at this position is no digit. -/
  | invalidByte (byte : UInt8) (position : Nat)
  deriving DecidableEq, Repr

/-- The wording of a fault. -/
def Fault.message : Fault → String
  | .nonAscii position =>
    "provided string contained non-ascii character starting at byte " ++ toString position
  | .invalidByte byte position =>
    "provided string contained invalid character " ++ Text.quoted (Char.ofNat byte.toNat)
      ++ " at byte " ++ toString position

/-- The digit of a value below 58. -/
def digitChar (n : Nat) : Char := alphabet.getD n '1'

/-- The value of a digit. -/
def digitValue? (byte : UInt8) : Option Nat := alphabet.idxOf? (Char.ofNat byte.toNat)

/-- Bytes in base 58. -/
def encode (bytes : Bytes) : String :=
  String.ofList ((Numeral.rebase 256 58 (bytes.map UInt8.toNat)).map digitChar)

/-- The bytes of a text in base 58. -/
def decode (text : String) : Except Fault Bytes :=
  let digits := Text.utf8 text
  match digits.zipIdx.find? (fun entry => (digitValue? entry.1).isNone) with
  | some (byte, position) =>
    .error (if 0x80 ≤ byte then .nonAscii position else .invalidByte byte position)
  | none => .ok ((Numeral.rebase 58 256 (digits.filterMap digitValue?)).map UInt8.ofNat)

end UtxoScript.Base58
