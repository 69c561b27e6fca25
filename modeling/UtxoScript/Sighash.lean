/-!
# Sighash types

The last byte of a signature tells which parts of the transaction the signature covers.
-/

namespace UtxoScript

/-- What a signature covers. -/
inductive Sighash
  /-- Every input and every output. -/
  | all
  /-- No output. -/
  | none
  /-- The output at the position of the input. -/
  | single
  /-- The input alone, so that others may join in. -/
  | anyoneCanPay
  deriving DecidableEq, Repr

namespace Sighash

/-- The byte of a type. -/
def byte : Sighash → UInt8
  | .all => 0x01
  | .none => 0x02
  | .single => 0x03
  | .anyoneCanPay => 0x80

/-- The name of a type. -/
def name : Sighash → String
  | .all => "All"
  | .none => "None"
  | .single => "Single"
  | .anyoneCanPay => "AnyoneCanPay"

/-- The type of a byte. -/
def ofByte? (b : UInt8) : Option Sighash :=
  [Sighash.all, .none, .single, .anyoneCanPay].find? (·.byte == b)

end Sighash

end UtxoScript
