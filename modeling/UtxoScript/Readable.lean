import UtxoScript.Template

/-!
# Readable scripts

Elements are separated by single spaces: pushes in hexadecimal, the empty push as `0`, small
integers in decimal, opcodes by their mnemonics, and bytes without a name in hexadecimal behind
`0x`.
-/

namespace UtxoScript

/-- The readable form of an element. -/
def Element.readable : Element → String
  | .data bytes => if bytes.isEmpty then "0" else Text.Hex.encode bytes
  | .number n => toString n.toNat
  | .op opcode => opcode.mnemonic
  | .raw byte => "0x" ++ Text.Hex.encode [byte]

/-- The readable form of a script. -/
def readable (script : Script) : String := " ".intercalate (script.map Element.readable)

/-- Which side of a spend a script stands on. -/
inductive Role
  /-- It locks an output. -/
  | output
  /-- It spends an output. -/
  | input
  deriving DecidableEq, Repr

/-- The name of a role. -/
def Role.name : Role → String
  | .output => "Output"
  | .input => "Input"

/-- The role of a name. -/
def Role.ofName? (name : String) : Option Role := [Role.output, .input].find? (·.name == name)

/-- What is known of a script before it is shown. -/
structure Hint where
  /-- The kind of the output that it locks or spends. -/
  outputType : OutputType
  /-- The side on which it stands. -/
  role : Role
  deriving DecidableEq, Repr

/-- Whether a script of this kind begins with the item that multisig checks drop unread. -/
def Hint.spendsMultisig (hint : Hint) : Bool :=
  hint.role == .input && (hint.outputType == .multisig || hint.outputType == .scriptHash)

/-- The readable form of a script of which something may be known. The item that a multisig check
drops is not shown. -/
def readableAs (hint : Option Hint) (script : Script) : String :=
  match script with
  | .data [] :: rest => if hint.any Hint.spendsMultisig then readable rest else readable script
  | _ => readable script

end UtxoScript
