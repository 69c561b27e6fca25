import UtxoScript.Bytes
import UtxoScript.Opcode
import UtxoScript.SmallInt

/-!
# Scripts

A script is a sequence of elements: pushes of data, small integers, named opcodes, and bytes that no
opcode is named for. Nothing ties an element to the bytes it came from, so a script may hold
elements that reading bytes never gives; `Canonical` singles out those that it does.
-/

namespace UtxoScript

/-- One element of a script. -/
inductive Element
  /-- A push of these bytes. -/
  | data (bytes : Bytes)
  /-- A small integer. -/
  | number (n : SmallInt)
  /-- A named opcode. -/
  | op (opcode : Opcode)
  /-- A byte that stands for itself. -/
  | raw (byte : UInt8)
  deriving DecidableEq

/-- A script. -/
abbrev Script := List Element

namespace Element

/-- The bytes of a push. -/
def data? : Element → Option Bytes
  | .data bytes => some bytes
  | _ => none

/-- The integer of a small integer. -/
def number? : Element → Option SmallInt
  | .number n => some n
  | _ => none

/-- The opcode of an opcode element. -/
def opcode? : Element → Option Opcode
  | .op opcode => some opcode
  | _ => none

/-- Whether an element is a push. -/
def isData (element : Element) : Bool := element.data?.isSome

/-- Whether an element is the opcode that separates the signed part from what precedes it. -/
def isCodeSeparator (element : Element) : Bool := element == .op .codeSeparator

/-- Whether an element is an opcode that checks signatures. -/
def isSignatureCheck : Element → Bool
  | .op opcode => opcode.isSignatureCheck
  | _ => false

/-- The element is one that reading bytes can give: a push whose length fits in four bytes, a small
integer, an opcode that announces no push, or a byte that no other element begins with. -/
def Canonical : Element → Prop
  | .data bytes => bytes.length < UInt32.size
  | .number _ => True
  | .op opcode => opcode ≠ .pushData1 ∧ opcode ≠ .pushData2 ∧ opcode ≠ .pushData4
  | .raw byte =>
    0x4b < byte.toNat ∧ (∀ n : SmallInt, n.toWire ≠ byte) ∧ ∀ opcode : Opcode, opcode.byte ≠ byte

end Element

end UtxoScript
