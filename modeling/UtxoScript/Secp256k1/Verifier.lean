import UtxoScript.Machine.Context
import UtxoScript.Secp256k1.PublicKey
import UtxoScript.Secp256k1.Signature

/-!
# Verifying signatures

A signature `(r, s)` over a digest `z` is valid for the public point `Q` if `r` is the first
coordinate of `(z / s) G + (r / s) Q` modulo the order.
-/

namespace UtxoScript.Secp256k1

/-- The inverse of a number other than zero modulo the order, its power by two less than the order.
-/
def inverseModOrder (n : Nat) : Nat :=
  Numeral.multiple (fun a => a * a % order) (fun a b => a * b % order) 1 n (order - 2)

/-- Whether a signature over the number `z` is valid for a public point. -/
def Signature.isValid (signature : Signature) (z : Nat) (Q : Point) : Bool :=
  if signature.r = 0 ∨ signature.s = 0 then false
  else
    let inverse := inverseModOrder signature.s
    let R := (generator.multiple (z * inverse % order)).add
      (Q.multiple (signature.r * inverse % order))
    !R.isInfinity && R.abscissa.val % order == signature.r

/-- Verifies a signature over a digest with a public key. What is no public key or no signature is
never valid. The signature is lowered first, so both values of `s` fare alike. -/
def verifier : Verifier := fun digest signature publicKey =>
  match publicPoint? publicKey, Signature.ofDer? signature with
  | some Q, some signature => signature.lowered.isValid (Bytes.toNatBE digest.bytes) Q
  | _, _ => false

end UtxoScript.Secp256k1
