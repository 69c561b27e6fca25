import UtxoScript.Base58
import UtxoScript.Digest

/-!
# Addresses

An address is a version byte and a digest. Its text is base 58 of the version, the digest and a
checksum of four bytes over both.
-/

namespace UtxoScript

/-- What an address says: how its digest is to be used, and the digest. Nothing bounds the length of
the digest. -/
structure Address where
  /-- The version byte. -/
  version : UInt8
  /-- The digest. -/
  hash : Bytes
  deriving DecidableEq

namespace Address

/-- The length of the checksum. -/
def checksumLength : Nat := 4

/-- Why a text is no address. -/
inductive Fault
  /-- It is not in base 58. -/
  | base58 (fault : Base58.Fault)
  /-- It has no room for a version byte before the checksum. -/
  | tooShort
  /-- The checksum does not fit. -/
  | checksum
  deriving DecidableEq, Repr

/-- The report that `text` is no address. -/
def Fault.message (text : String) : Fault → String
  | .base58 fault => "Invalid address: " ++ text ++ ": " ++ fault.message
  | .tooShort => "Invalid address: " ++ text ++ ": too short"
  | .checksum => "Address checksum mismatch: " ++ text

/-- The checksum over a payload. -/
def checksum (payload : Bytes) : Bytes := (sha256d payload).take checksumLength

/-- The text of an address. -/
def toText (address : Address) : String :=
  let payload := address.version :: address.hash
  Base58.encode (payload ++ checksum payload)

/-- The address of a text. -/
def ofText (text : String) : Except Fault Address :=
  match Base58.decode text with
  | .error fault => .error (.base58 fault)
  | .ok bytes =>
    let split := bytes.length - checksumLength
    match bytes.take split with
    | [] => .error .tooShort
    | version :: hash =>
      if checksum (version :: hash) = bytes.drop split then .ok ⟨version, hash⟩
      else .error .checksum

end Address

end UtxoScript
