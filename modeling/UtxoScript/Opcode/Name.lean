import UtxoScript.Opcode
import UtxoScript.SmallInt
import UtxoScript.Text.Decimal

/-!
# Names of bytes

A name stands for a byte in two ways: the mnemonic of an opcode, or `OP_` followed by a small
integer in decimal. The decimal may have one plus sign and any number of leading zeros.
-/

namespace UtxoScript.Opcode

/-- What follows one plus sign, or everything where there is none. -/
def afterPlus : List Char → List Char
  | '+' :: rest => rest
  | chars => chars

/-- The small integer that a name such as `OP_7` stands for. -/
def smallIntOfName? (name : String) : Option SmallInt :=
  match name.toList with
  | 'O' :: 'P' :: '_' :: chars =>
    (Text.Decimal.below? UInt8.size (afterPlus chars)).bind SmallInt.ofNat?
  | _ => none

/-- The byte that a name stands for: that of the opcode, or that of the small integer. -/
def byteOfName? (name : String) : Option UInt8 :=
  match ofMnemonic? name with
  | some op => some op.byte
  | none => (smallIntOfName? name).map SmallInt.toWire

end UtxoScript.Opcode
