import UtxoScript.Opcode
import UtxoScript.SmallInt
import UtxoScript.Text.Hex

/-!
# Rejections

Why an element stops a run. A rejection is final: it is no error to recover from, and the run that
ends with one accepts nothing.
-/

namespace UtxoScript

/-- Why an opcode rejects. -/
inductive Cause
  /-- The opcode needs an item and there is none. -/
  | emptyStack
  /-- The opcode needs two items. -/
  | fewerThanTwo
  /-- The opcode needs three items. -/
  | fewerThanThree
  /-- A signature is to be checked without a context. -/
  | noContext
  /-- A signature is empty or does not end in the sighash byte that covers everything. -/
  | sighashType
  /-- The number of keys is no single byte in range. -/
  | keyCount
  /-- There are fewer keys than announced. -/
  | missingKeys
  /-- A key has a length that no public key has. -/
  | malformedKey
  /-- The number of signatures is no single byte in range. -/
  | signatureCount
  /-- There are fewer signatures than announced. -/
  | missingSignatures
  /-- A check that must succeed failed. -/
  | verificationFailed
  /-- The machine does not run this opcode. -/
  | unsupported
  deriving DecidableEq, Repr

/-- The wording of a cause. -/
def Cause.message : Cause → String
  | .emptyStack => "empty stack"
  | .fewerThanTwo => "fewer than 2 stack items"
  | .fewerThanThree => "fewer than 3 stack items"
  | .noContext => "no verification context"
  | .sighashType => "sighash type is not SIGHASH_ALL"
  | .keyCount => "key count out of range"
  | .missingKeys => "not enough keys on stack"
  | .malformedKey => "malformed public key"
  | .signatureCount => "signature count out of range"
  | .missingSignatures => "not enough signatures on stack"
  | .verificationFailed => "verification failed"
  | .unsupported => "unsupported opcode"

/-- Why a run stops at an element. -/
inductive Rejection
  /-- The small integer at this position cannot be run. -/
  | smallInteger (n : SmallInt) (position : Nat)
  /-- The byte at this position names no opcode. -/
  | unnamedByte (byte : UInt8) (position : Nat)
  /-- The opcode rejects. -/
  | opcode (op : Opcode) (cause : Cause)
  deriving DecidableEq

/-- The report of a rejection. -/
def Rejection.message : Rejection → String
  | .smallInteger n position =>
    "small integer " ++ toString n.toNat ++ " at pc=" ++ toString position ++ " is not executable"
  | .unnamedByte byte position =>
    "unknown opcode byte 0x" ++ Text.Hex.encode [byte] ++ " at pc=" ++ toString position
  | .opcode op cause => op.mnemonic ++ " rejected: " ++ cause.message

end UtxoScript
