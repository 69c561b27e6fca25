import UtxoScript.Bytes
import UtxoScript.Secp256k1.Curve

/-!
# Signatures

A signature is a pair of numbers below the order of the curve. It comes in a form of DER that is
read with much tolerance: the length of the whole is not looked at, lengths may be written long and
with leading zeros, integers count as unsigned and may have leading zeros, and anything may follow.
Where either integer is out of range, both count as zero, and a signature with a zero is never
valid.
-/

namespace UtxoScript.Secp256k1

/-- A signature. -/
structure Signature where
  /-- The first coordinate of the point that the signer chose, modulo the order. -/
  r : Nat
  /-- The proof that the signer knows the private key. -/
  s : Nat
  deriving DecidableEq, Repr

namespace Signature

/-- The length in front of an integer, and what follows it: one byte below `0x80`, or the number of
bytes of the length and the length, of which fewer than eight may count. -/
def integerLength? : Bytes → Option (Nat × Bytes)
  | [] => none
  | first :: rest =>
    if first < 0x80 then some (first.toNat, rest)
    else
      let width := first.toNat - 0x80
      let field := rest.take width
      let significant := field.dropWhile (· == 0)
      if field.length < width ∨ 8 ≤ significant.length then none
      else some (Bytes.toNatBE significant, rest.drop width)

/-- The digits of the integer at the front, and what follows it. -/
def integer? : Bytes → Option (Bytes × Bytes)
  | [] => none
  | tag :: bytes =>
    if tag = 0x02 then do
      let (length, rest) ← integerLength? bytes
      let digits := rest.take length
      if digits.length < length then none else some (digits, rest.drop length)
    else none

/-- What follows the length of the whole, which is skipped. -/
def afterSequenceLength? : Bytes → Option Bytes
  | [] => none
  | first :: rest =>
    if first < 0x80 then some rest
    else
      let width := first.toNat - 0x80
      if (rest.take width).length < width then none else some (rest.drop width)

/-- The number below the order that digits spell. Leading zeros do not count, and a number of more
than 32 other digits is not below the order. -/
def scalar? (digits : Bytes) : Option Nat :=
  let significant := digits.dropWhile (· == 0)
  if significant.length ≤ 32 then (some (Bytes.toNatBE significant)).filter (· < order) else none

/-- The signature of two integers, both taken as zero unless both are below the order. -/
def ofDigits (r s : Bytes) : Signature :=
  match scalar? r, scalar? s with
  | some r, some s => ⟨r, s⟩
  | _, _ => ⟨0, 0⟩

/-- The signature that bytes spell. -/
def ofDer? : Bytes → Option Signature
  | [] => none
  | tag :: bytes =>
    if tag = 0x30 then do
      let rest ← afterSequenceLength? bytes
      let (r, rest) ← integer? rest
      let (s, _) ← integer? rest
      return ofDigits r s
    else none

/-- The signature with the lower of the two values of `s` that are valid together, which differ by
sign modulo the order. -/
def lowered (signature : Signature) : Signature :=
  if signature.s > order / 2 then { signature with s := order - signature.s } else signature

end Signature

end UtxoScript.Secp256k1
